import Runtrue.Compiler.Fragments

/-!
# Expansion preserves the order of the jobs

`ExpandsTo` says which jobs a source job stands for. If one source job of a definition needs another, at any
level of nesting, then every job the first expands to needs every job the second expands to, and the expanded
graph has no cycle.

The fragment of a definition is that of the definition's own graph with the graphs of the pieces substituted
for its jobs (`graphOf_eq`).
-/

namespace Runtrue.Compiler

open Fallible Digraph Relation Std.ExtTreeMap List Ast BTreeMap

/-! ### Origins -/

/-- The jobs that the job `jobId` of a definition expands to, inside the call `scope`. -/
inductive ExpandsTo (ext : Externals) (context : CompileContext) :
    Ast.Workflow → Option String → String → String → Prop
  | executable {workflow : Ast.Workflow} {scope : Option String} {jobId : String} {job : Ast.Job}
      (hjob : workflow.jobs[jobId]? = some job) (huses : job.uses = none) :
      ExpandsTo ext context workflow scope jobId (qualifiedJobId scope jobId)
  | call {workflow called : Ast.Workflow} {scope : Option String} {jobId reference inner id : String}
      {job : Ast.Job} (hjob : workflow.jobs[jobId]? = some job) (huses : job.uses = some reference)
      (hcalled : bundledDefinition ext context reference = some called)
      (hinner : ExpandsTo ext context called (some (qualifiedJobId scope jobId)) inner id) :
      ExpandsTo ext context workflow scope jobId id

/-- A definition in a scope calls another one. -/
inductive Calls (ext : Externals) (context : CompileContext) :
    Ast.Workflow × Option String → Ast.Workflow × Option String → Prop
  | call {workflow called : Ast.Workflow} {scope : Option String} {jobId reference : String} {job : Ast.Job}
      (hjob : workflow.jobs[jobId]? = some job) (huses : job.uses = some reference)
      (hcalled : bundledDefinition ext context reference = some called) :
      Calls ext context (workflow, scope) (called, some (qualifiedJobId scope jobId))

variable {ext : Externals} {context : CompileContext} {settings : CompilerSettings}

theorem ExpandsTo.mem {workflow : Workflow} {scope : Option String} {jobId id : String}
    (h : ExpandsTo ext context workflow scope jobId id) : jobId ∈ workflow.jobs := by
  cases h with
  | executable hjob => exact mem_iff_get.mpr ⟨_, hjob⟩
  | call hjob => exact mem_iff_get.mpr ⟨_, hjob⟩

/-! ### The graph of a fragment -/

def graphOf (fragment : ReusableFragment) : Fragment String where
  node a := a ∈ fragment.jobs
  needs := Depends fragment.jobs
  entry a := a ∈ fragment.entryJobs
  terminal a := a ∈ fragment.terminalJobs

/-- A piece before it is wired: the needs of an executable job are still those of its definition. -/
def pieceGraph (piece : ReusableFragment) : Fragment String where
  node a := a ∈ piece.jobs
  needs a b := piece.callBoundary = true ∧ Depends piece.jobs a b
  entry a := a ∈ piece.entryJobs
  terminal a := a ∈ piece.terminalJobs

/-- The graph of a definition with the graphs of its pieces. -/
def piecesOf (workflow : Ast.Workflow) (pieces : BTreeMap String ReusableFragment) : Pieces String String where
  member k := k ∈ workflow.jobs
  needs := Depends workflow.jobs
  piece k := (pieces[k]?).elim (single k) pieceGraph

/-- What an expansion of `workflow` inside `scope` guarantees. -/
structure Ordered (ext : Externals) (context : CompileContext) (workflow : Ast.Workflow)
    (scope : Option String) (fragment : ReusableFragment) : Prop where
  sound : (graphOf fragment).Sound
  origin : ∀ id, id ∈ fragment.jobs ↔ ∃ jobId, ExpandsTo ext context workflow scope jobId id
  ordered : ∀ level, ReflTransGen (Calls ext context) (workflow, scope) level →
    ∀ a b, TransGen (Depends level.1.jobs) a b → ∀ x y, ExpandsTo ext context level.1 level.2 a x →
      ExpandsTo ext context level.1 level.2 b y → TransGen (Depends fragment.jobs) x y

def CallsOrdered (ext : Externals) (context : CompileContext) : Expander Call → Prop :=
  CallsAll ext context fun definition => Ordered ext context definition.workflow definition.scope

theorem pieceGraph_call {child : ReusableFragment} {aliases : BTreeMap String (List String)} :
    pieceGraph { child with callBoundary := true, selectionAliases := aliases } = graphOf child := by
  simp [pieceGraph, graphOf]

theorem mem_insert_empty {V : Type} {q id : String} {v : V} : id ∈ (∅ : BTreeMap String V).insert q v ↔ id = q := by
  rw [mem_insert, Std.LawfulEqCmp.compare_eq_iff_eq]
  simp [eq_comm]

theorem pieceGraph_executable {qualified : String} {job : Job} {outputs : BTreeMap String ReusableOutputTarget} :
    pieceGraph ⟨(∅ : BTreeMap String Job).insert qualified job, [qualified], [qualified], outputs, ∅,
      false⟩ = single qualified := by
  simp only [pieceGraph, single, Bool.false_eq_true, false_and, mem_singleton, mem_insert_empty]

section
variable {call : Expander Call} {definition : Definition} {inputs : Option (BTreeMap String Ast.Scalar)}
  {effective : Ast.Permissions} {pieces wired : BTreeMap String ReusableFragment} {fragment : ReusableFragment}
  {k : String} {job : Ast.Job} {piece : ReusableFragment}

theorem Piece.graph (hcalls : CallsOrdered ext context call) (hjob : definition.workflow.jobs[k]? = some job)
    (h : Piece settings call definition effective k job piece) : (pieceGraph piece).Sound ∧
      ∀ id, id ∈ piece.jobs ↔ ExpandsTo ext context definition.workflow definition.scope k id := by
  cases h with
  | call huses hqualified hcall =>
    obtain ⟨_, hcalled, hordered⟩ := hcalls _ _ _ _ hcall
    obtain rfl := qualifyJobId_eq hqualified
    refine ⟨pieceGraph_call ▸ hordered.sound, fun id => (hordered.origin id).trans ⟨?_, ?_⟩⟩
    · rintro ⟨_, hinner⟩
      exact .call hjob huses hcalled hinner
    · intro hexpands
      cases hexpands with
      | executable hjob' huses' =>
        rw [hjob] at hjob'
        cases hjob'
        rw [huses] at huses'
        cases huses'
      | call hjob' huses' hcalled' hinner =>
        rw [hjob] at hjob'
        cases hjob'
        rw [huses] at huses'
        cases huses'
        rw [hcalled] at hcalled'
        cases hcalled'
        exact ⟨_, hinner⟩
  | executable huses hqualified =>
    obtain rfl := qualifyJobId_eq hqualified
    refine ⟨pieceGraph_executable ▸ single_sound _, fun _ => ?_⟩
    rw [mem_insert_empty]
    constructor
    · rintro rfl
      exact .executable hjob huses
    · intro hexpands
      cases hexpands with
      | executable => rfl
      | call hjob' huses' =>
        rw [hjob] at hjob'
        cases hjob'
        rw [huses] at huses'
        cases huses'

theorem Piece.called {k reference : String} {called : Workflow} (hcalls : CallsOrdered ext context call)
    (h : Piece settings call definition effective k job piece) (huses : job.uses = some reference)
    (hcalled : bundledDefinition ext context reference = some called) : ∃ child, pieceGraph piece = graphOf child ∧
      Ordered ext context called (some (qualifiedJobId definition.scope k)) child := by
  cases h with
  | call huses' hqualified hcall =>
    obtain ⟨_, hcalled', hordered⟩ := hcalls _ _ _ _ hcall
    obtain rfl := qualifyJobId_eq hqualified
    rw [huses] at huses'
    cases huses'
    rw [hcalled] at hcalled'
    cases hcalled'
    exact ⟨_, pieceGraph_call, hordered⟩
  | executable huses' =>
    rw [huses] at huses'
    cases huses'

theorem needs_of_guarded {condition : Option String} {job guarded : Job}
    (h : Guarded ext condition job guarded) : guarded.needs = job.needs := by
  cases condition with
  | none => exact h ▸ rfl
  | some =>
    obtain ⟨_, -, rfl⟩ := h
    rfl

theorem Wired.graph {piece piece' : ReusableFragment} (hpiece : Piece settings call definition effective k job piece)
    (hsound : (pieceGraph piece).Sound) (h : Wired ext definition effective inputs pieces piece k job piece') :
    (∀ id, id ∈ piece'.jobs ↔ id ∈ piece.jobs) ∧ ∀ a b, Depends piece'.jobs a b ↔ (pieceGraph piece).needs a b ∨
        ((pieceGraph piece).entry a ∧ b ∈ dependenciesOf pieces job) := by
  cases h with
  | @call _ _ huses _ hjobs =>
    have hboundary : piece.callBoundary = true := by
      cases hpiece with
      | call => rfl
      | executable hnone => rw [hnone] at huses; cases huses
    have hextend : ∀ id, id ∈ extendNeeds piece (dependenciesOf pieces job) ↔ id ∈ piece.jobs :=
      fun id => Std.ExtTreeMap.mem_map
    refine ⟨fun id => (mem_guardJobs hjobs).trans (hextend id), fun a b => ?_⟩
    rw [depends_iff]
    constructor
    · rintro ⟨guarded, hguarded, hb⟩
      obtain ⟨extended, hextended, hguard⟩ := (get_guardJobs hjobs).mp hguarded
      rw [get_extendNeeds, Option.map_eq_some_iff] at hextended
      obtain ⟨inner, hinner, rfl⟩ := hextended
      rw [needs_of_guarded hguard, mem_needs_extendJob] at hb
      exact hb.imp_left fun hb => ⟨hboundary, depends_iff.mpr ⟨inner, hinner, hb⟩⟩
    · intro hb
      have hnode : a ∈ piece.jobs := hb.elim (fun hb => (hsound.needs_node hb).1)
        fun hb => hsound.entry_node hb.1
      obtain ⟨guarded, hguarded⟩ := mem_iff_get.mp ((mem_guardJobs hjobs).mpr ((hextend a).mpr hnode))
      obtain ⟨_, hextended, hguard⟩ := (get_guardJobs hjobs).mp hguarded
      rw [get_extendNeeds, Option.map_eq_some_iff] at hextended
      obtain ⟨_, hinner, rfl⟩ := hextended
      refine ⟨guarded, hguarded, ?_⟩
      rw [needs_of_guarded hguard, mem_needs_extendJob]
      refine hb.imp_left fun hb => ?_
      obtain ⟨_, hinner', hb⟩ := depends_iff.mp hb.2
      rw [hinner] at hinner'
      cases hinner'
      exact hb
  | @executable qualified rewritten wiredJob huses hqualified hrewritten hjob =>
    cases hpiece with
    | call huses' => rw [huses] at huses'; cases huses'
    | executable _ hqualified' =>
      obtain rfl := qualifyJobId_eq hqualified
      obtain rfl := qualifyJobId_eq hqualified'
      have hneeds : wiredJob.needs = dependenciesOf pieces job := by
        obtain ⟨_, _, rfl⟩ := inheritJob_eq hjob
        obtain ⟨_, _, _, rfl⟩ := rewriteExecutableJob_eq hrewritten
        rfl
      refine ⟨fun _ => by simp [mem_insert], fun a b => ?_⟩
      rw [pieceGraph_executable, depends_iff]
      simp only [single, false_or, get_insert, getElem?_empty]
      constructor
      · rintro ⟨_, hfound, hb⟩
        split at hfound
        · rename_i heq
          cases hfound
          exact ⟨heq.symm, hneeds ▸ hb⟩
        · cases hfound
      · rintro ⟨rfl, hb⟩
        exact ⟨wiredJob, if_pos rfl, hneeds ▸ hb⟩

variable {b : String}

theorem mem_dependenciesOf : b ∈ dependenciesOf pieces job ↔
    ∃ j ∈ job.needs, ∃ piece, pieces[j]? = some piece ∧ b ∈ piece.terminalJobs := by
  simp only [dependenciesOf, mem_flatMap]
  refine exists_congr fun j => and_congr_right fun _ => ?_
  cases pieces[j]? with
  | none => simp
  | some => simp

variable (h : Expanded ext settings call definition inputs effective pieces wired fragment)
include h

theorem Expanded.get_piece (hk : k ∈ definition.workflow.jobs) :
    ∃ job piece, definition.workflow.jobs[k]? = some job ∧ pieces[k]? = some piece ∧
      Piece settings call definition effective k job piece ∧
      (piecesOf definition.workflow pieces).piece k = pieceGraph piece := by
  obtain ⟨job, hjob⟩ := mem_iff_get.mp hk
  obtain ⟨piece, hpiece, hshape⟩ := h.piece hjob
  exact ⟨job, piece, hjob, hpiece, hshape, by simp only [piecesOf, hpiece, Option.elim]⟩

theorem Expanded.dependency_iff (hjob : definition.workflow.jobs[k]? = some job) : b ∈ dependenciesOf pieces job ↔
      ∃ j, Depends definition.workflow.jobs k j ∧ ((piecesOf definition.workflow pieces).piece j).terminal b := by
  rw [mem_dependenciesOf]
  constructor
  · rintro ⟨j, hj, piece, hpiece, hb⟩
    refine ⟨j, depends_iff.mpr ⟨job, hjob, hj⟩, ?_⟩
    simp only [piecesOf, hpiece, Option.elim]
    exact hb
  · rintro ⟨j, hj, hb⟩
    obtain ⟨_, piece, -, hpiece, -, hgraph⟩ := h.get_piece (h.acyclic.known hj).2
    obtain ⟨_, hjob', hj⟩ := depends_iff.mp hj
    rw [hjob] at hjob'
    cases hjob'
    rw [hgraph] at hb
    exact ⟨j, hj, piece, hpiece, hb⟩

variable {id : String}

theorem Expanded.entry_iff : id ∈ fragment.entryJobs ↔ (piecesOf definition.workflow pieces).substitute.entry id := by
  simp only [h.entryJobs, entryJobsOf, mem_dedupAdjacent, mem_sort, mem_flatMap,
    List.mem_filter, Prod.exists, mem_toList, decide_eq_true_eq]
  constructor
  · rintro ⟨k, job, ⟨hjob, hneeds⟩, hid⟩
    obtain ⟨_, piece, -, hpiece, -, hgraph⟩ := h.get_piece (mem_iff_get.mpr ⟨job, hjob⟩)
    rw [hpiece] at hid
    refine ⟨k, mem_iff_get.mpr ⟨job, hjob⟩, fun j hj => ?_, hgraph ▸ hid⟩
    obtain ⟨_, hjob', hj⟩ := depends_iff.mp hj
    rw [hjob] at hjob'
    cases hjob'
    rw [hneeds] at hj
    cases hj
  · rintro ⟨k, hk, hnone, hid⟩
    obtain ⟨job, _, hjob, hpiece, -, hgraph⟩ := h.get_piece hk
    have hneeds : job.needs = [] := eq_nil_iff_forall_not_mem.mpr fun j hj =>
      hnone j (depends_iff.mpr ⟨job, hjob, hj⟩)
    rw [hgraph] at hid
    exact ⟨k, job, ⟨hjob, hneeds⟩, hpiece ▸ hid⟩

theorem Expanded.terminal_iff :
    id ∈ fragment.terminalJobs ↔ (piecesOf definition.workflow pieces).substitute.terminal id := by
  have hneeded : ∀ k, (∃ (j : String) (job : Job), definition.workflow.jobs[j]? = some job ∧
      k ∈ job.needs) ↔ ∃ j, Depends definition.workflow.jobs j k := by
    intro k
    simp only [depends_iff]
  simp only [h.terminalJobs, terminalJobsOf, mem_dedupAdjacent, mem_sort, mem_flatMap,
    List.mem_filter, Prod.exists, mem_toList, decide_eq_true_eq, Std.ExtTreeMap.mem_keys, hneeded,
    not_exists]
  constructor
  · rintro ⟨k, ⟨hk, hnone⟩, hid⟩
    obtain ⟨_, piece, -, hpiece, -, hgraph⟩ := h.get_piece hk
    rw [hpiece] at hid
    exact ⟨k, hk, hnone, hgraph ▸ hid⟩
  · rintro ⟨k, hk, hnone, hid⟩
    obtain ⟨_, _, -, hpiece, -, hgraph⟩ := h.get_piece hk
    rw [hgraph] at hid
    exact ⟨k, ⟨hk, hnone⟩, hpiece ▸ hid⟩

variable (hcalls : CallsOrdered ext context call)
include hcalls

theorem Expanded.node_iff (hk : k ∈ definition.workflow.jobs) :
    ((piecesOf definition.workflow pieces).piece k).node id ↔
      ExpandsTo ext context definition.workflow definition.scope k id := by
  obtain ⟨_, _, hjob, -, hshape, hgraph⟩ := h.get_piece hk
  rw [hgraph]
  exact (hshape.graph hcalls hjob).2 id

theorem Expanded.get_wired (hjob : definition.workflow.jobs[k]? = some job) : ∃ piece', wired[k]? = some piece' ∧
      (∀ id, id ∈ piece'.jobs ↔ ((piecesOf definition.workflow pieces).piece k).node id) ∧
      ∀ a b, Depends piece'.jobs a b ↔ ((piecesOf definition.workflow pieces).piece k).needs a b ∨
        (((piecesOf definition.workflow pieces).piece k).entry a ∧ b ∈ dependenciesOf pieces job) := by
  obtain ⟨_, _, hjob₀, hpiece, hshape, hgraph⟩ := h.get_piece (mem_iff_get.mpr ⟨job, hjob⟩)
  obtain ⟨piece', hpiece'⟩ := h.all_wired hjob
  obtain ⟨_, _, horiginal, hjob', hwired⟩ := h.wire hpiece'
  rw [hjob] at hjob₀ hjob'
  cases hjob₀
  cases hjob'
  rw [hpiece] at horiginal
  cases horiginal
  rw [hgraph]
  exact ⟨piece', hpiece', hwired.graph hshape (hshape.graph hcalls hjob).1⟩

theorem Expanded.pieces_sound : (piecesOf definition.workflow pieces).Sound where
  inhabited := by
    have hshape := h.shape
    simp only [validateWorkflowShape, bind_eq_ok, exists_unit, rejectIf_eq_ok] at hshape
    have hjobs : definition.workflow.jobs ≠ ∅ := mt Std.ExtTreeMap.isEmpty_iff.mpr hshape.1
    exact not_forall_not.mp (mt eq_empty_iff_forall_not_mem.mpr hjobs)
  needs_member := h.acyclic.known
  down := h.acyclic.down
  up := h.acyclic.up
  sound := by
    intro k hk
    obtain ⟨job, piece, hjob, -, hshape, hgraph⟩ := h.get_piece hk
    rw [hgraph]
    exact (hshape.graph hcalls hjob).1
  disjoint := by
    intro k _ id hk hk' hid hid'
    obtain ⟨_, hjob⟩ := mem_iff_get.mp hk
    obtain ⟨_, hjob'⟩ := mem_iff_get.mp hk'
    obtain ⟨_, hpiece, hnode, -⟩ := h.get_wired hcalls hjob
    obtain ⟨_, hpiece', hnode', -⟩ := h.get_wired hcalls hjob'
    exact h.apart hpiece hpiece' ((hnode id).mpr hid) ((hnode' id).mpr hid')

theorem Expanded.origin_unique {k k' id : String} (hk : wired[k]? = some piece) (hid : id ∈ piece.jobs)
    (hexpands : ExpandsTo ext context definition.workflow definition.scope k' id) : k = k' := by
  obtain ⟨source, _, -, hsource, -⟩ := h.wire hk
  obtain ⟨_, hpiece', hnode, -⟩ := h.get_wired hcalls hsource
  rw [hk] at hpiece'
  cases hpiece'
  exact (h.pieces_sound hcalls).disjoint (mem_iff_get.mpr ⟨source, hsource⟩) hexpands.mem
    ((hnode id).mp hid) ((h.node_iff hcalls hexpands.mem).mpr hexpands)

theorem Expanded.node_eq (id : String) :
    (graphOf fragment).node id ↔ (piecesOf definition.workflow pieces).substitute.node id := by
  have hmem : id ∈ fragment.jobs ↔ ∃ (k : String) (piece : ReusableFragment),
      wired[k]? = some piece ∧ id ∈ piece.jobs := by
    simp only [mem_iff_get, h.jobs]
    grind
  refine hmem.trans ⟨?_, ?_⟩
  · rintro ⟨k, piece, hk, hid⟩
    obtain ⟨job, _, -, hjob, -⟩ := h.wire hk
    obtain ⟨_, hpiece', hnode, -⟩ := h.get_wired hcalls hjob
    rw [hk] at hpiece'
    cases hpiece'
    exact ⟨k, mem_iff_get.mpr ⟨job, hjob⟩, (hnode id).mp hid⟩
  · rintro ⟨k, hk, hid⟩
    obtain ⟨_, hjob⟩ := mem_iff_get.mp hk
    obtain ⟨piece, hpiece, hnode, -⟩ := h.get_wired hcalls hjob
    exact ⟨k, piece, hpiece, (hnode id).mpr hid⟩

theorem Expanded.depends_eq {a b : String} :
    Depends fragment.jobs a b ↔ (piecesOf definition.workflow pieces).Edge a b := by
  rw [depends_iff]
  constructor
  · rintro ⟨inner, hinner, hb⟩
    obtain ⟨k, piece, hk, hjob⟩ := h.jobs.mp hinner
    obtain ⟨job, _, -, hsource, -⟩ := h.wire hk
    obtain ⟨_, hpiece', -, hdepends⟩ := h.get_wired hcalls hsource
    rw [hk] at hpiece'
    cases hpiece'
    rcases (hdepends a b).mp (depends_iff.mpr ⟨inner, hjob, hb⟩) with hneeds | ⟨hentry, hb⟩
    · exact .inner (mem_iff_get.mpr ⟨job, hsource⟩) hneeds
    · obtain ⟨j, hj, hterminal⟩ := (h.dependency_iff hsource).mp hb
      exact .outer hj hentry hterminal
  · intro hedge
    -- either way the edge is one of the wired piece of the job that `a` comes from
    have hpiece : ∃ (k : String) (piece : ReusableFragment), wired[k]? = some piece ∧
        Depends piece.jobs a b := by
      cases hedge with
      | @inner k _ _ hk hneeds =>
        obtain ⟨job, hjob⟩ := mem_iff_get.mp hk
        obtain ⟨piece, hpiece, -, hdepends⟩ := h.get_wired hcalls hjob
        exact ⟨k, piece, hpiece, (hdepends a b).mpr (.inl hneeds)⟩
      | @outer k j _ _ hkj hentry hterminal =>
        obtain ⟨_, hjob⟩ := mem_iff_get.mp (h.acyclic.known hkj).1
        obtain ⟨piece, hpiece, -, hdepends⟩ := h.get_wired hcalls hjob
        exact ⟨k, piece, hpiece, (hdepends a b).mpr
          (.inr ⟨hentry, (h.dependency_iff hjob).mpr ⟨j, hkj, hterminal⟩⟩)⟩
    obtain ⟨k, piece, hk, hdepends⟩ := hpiece
    obtain ⟨inner, hinner, hb⟩ := depends_iff.mp hdepends
    exact ⟨inner, h.jobs.mpr ⟨k, piece, hk, hinner⟩, hb⟩

/-- **The graph of a fragment is the graph of its definition with the pieces substituted.** -/
theorem Expanded.graphOf_eq : graphOf fragment = (piecesOf definition.workflow pieces).substitute := by
  have hnode : (graphOf fragment).node = (piecesOf definition.workflow pieces).substitute.node :=
    funext fun id => propext (h.node_eq hcalls id)
  have hneeds : (graphOf fragment).needs = (piecesOf definition.workflow pieces).substitute.needs :=
    funext fun a => funext fun b => propext (h.depends_eq hcalls)
  have hentry : (graphOf fragment).entry = (piecesOf definition.workflow pieces).substitute.entry :=
    funext fun id => propext h.entry_iff
  have hterminal : (graphOf fragment).terminal = (piecesOf definition.workflow pieces).substitute.terminal :=
    funext fun _ => propext h.terminal_iff
  exact Fragment.ext hnode hneeds hentry hterminal

theorem Expanded.ordered_at {level : Workflow × Option String}
    (hlevel : ReflTransGen (Calls ext context) (definition.workflow, definition.scope) level) {a b : String}
    (hab : TransGen (Depends level.1.jobs) a b) {x y : String} (hx : ExpandsTo ext context level.1 level.2 a x)
    (hy : ExpandsTo ext context level.1 level.2 b y) : TransGen (piecesOf definition.workflow pieces).Edge x y := by
  have hsound := h.pieces_sound hcalls
  rcases hlevel.cases_head with rfl | ⟨_, hcall, hrest⟩
  · -- the definition itself: its own edges were substituted
    exact hsound.ordered hab ((h.node_iff hcalls hx.mem).mpr hx) ((h.node_iff hcalls hy.mem).mpr hy)
  · -- a definition below a call: its order is inside the piece of the call
    cases hcall with
    | @call _ _ _ _ _ job hjob huses hcalled =>
      obtain ⟨_, _, hjob', -, hshape, hgraph⟩ := h.get_piece (mem_iff_get.mpr ⟨job, hjob⟩)
      rw [hjob] at hjob'
      cases hjob'
      obtain ⟨_, hchild, hordered⟩ := hshape.called hcalls huses hcalled
      have hinner := hordered.ordered level hrest a b hab x y hx hy
      refine TransGen.mono (fun c d hcd => ?_) _ _ hinner
      refine Pieces.Edge.inner (mem_iff_get.mpr ⟨job, hjob⟩) ?_
      rw [hgraph, hchild]
      exact hcd

theorem Expanded.ordered : Ordered ext context definition.workflow definition.scope fragment where
  sound := by
    rw [h.graphOf_eq hcalls]
    exact (h.pieces_sound hcalls).substitute_sound
  origin := by
    intro id
    refine (h.node_eq hcalls id).trans ⟨?_, ?_⟩
    · rintro ⟨k, hk, hid⟩
      exact ⟨k, (h.node_iff hcalls hk).mp hid⟩
    · rintro ⟨k, hid⟩
      exact ⟨k, hid.mem, (h.node_iff hcalls hid.mem).mpr hid⟩
  ordered := by
    intro _ hlevel a b hab x y hx hy
    exact TransGen.mono (fun _ _ => (h.depends_eq hcalls).mpr) _ _ (h.ordered_at hcalls hlevel hab hx hy)

end

/-! ### All levels -/

theorem ordered_of_expandReusableWorkflows {workflow : Workflow} {expanded : ExpandedReusableWorkflows}
    (h : expandReusableWorkflows ext context settings workflow = .ok expanded) :
    ∃ fragment, Ordered ext context workflow none fragment ∧ expanded.workflow.jobs = fragment.jobs := by
  obtain ⟨_, _, _, _, _, fragment, hexpanded, hcalls, hjobs⟩ := exists_expanded_workflow Expanded.ordered h
  exact ⟨fragment, hexpanded.ordered hcalls, hjobs⟩

/-- **The expanded workflow has exactly the jobs the source jobs stand for. A job that needs another one, at
any level of nesting, has all its jobs need all the jobs of the other, and there is no cycle.** -/
theorem expansion_preserves_order {workflow : Ast.Workflow} {expanded : ExpandedReusableWorkflows}
    (h : expandReusableWorkflows ext context settings workflow = .ok expanded) :
    (∀ id, id ∈ expanded.workflow.jobs ↔ ∃ jobId, ExpandsTo ext context workflow none jobId id) ∧
    (∀ level, ReflTransGen (Calls ext context) (workflow, none) level →
      ∀ a b, TransGen (Depends level.1.jobs) a b → ∀ x y, ExpandsTo ext context level.1 level.2 a x →
        ExpandsTo ext context level.1 level.2 b y → TransGen (Depends expanded.workflow.jobs) x y) ∧
    ∀ id, ¬TransGen (Depends expanded.workflow.jobs) id id := by
  obtain ⟨_, hordered, hjobs⟩ := ordered_of_expandReusableWorkflows h
  rw [hjobs]
  exact ⟨hordered.origin, hordered.ordered, hordered.sound.acyclic⟩

/-! ### A release that calls a build -/

def noop : Ast.Step := { run := some (.command { command := ["true"] }) }

def mapOf {V : Type} (entries : List (String × V)) : BTreeMap String V := .ofList entries

/-- The bundled definition: `test` after `build`. -/
def buildDefinition : Ast.Workflow where
  version := 1
  jobs := mapOf [("build", { steps := [noop] }), ("test", { needs := ["build"], steps := [noop] })]

def releaseDefinition : Ast.Workflow where
  version := 1
  jobs := mapOf [("ci", { uses := some "build" }), ("publish", { needs := ["ci"], steps := [noop] })]

/-- Every bundled source is the text of `definition`. -/
def bundleExternals (definition : Ast.Workflow) : Externals where
  numbers := ⟨fun _ => none, fun _ => [], fun _ => []⟩
  sha256 := fun _ => ⟨0⟩
  fromUtf8 := fun _ => some ""
  parseYaml := fun _ => .ok definition

def bundleContext (reference : String) : CompileContext where
  lockfile := some ⟨1, [], [], [⟨reference, "c0", ⟨0⟩⟩]⟩
  reusableWorkflows := (∅ : BTreeMap String ReusableWorkflowSource).insert reference ⟨"c0", []⟩

theorem expansion_preserves_order_release :
    ∃ expanded, expandReusableWorkflows (bundleExternals buildDefinition) (bundleContext "build") {}
        releaseDefinition = .ok expanded ∧
      TransGen (Depends expanded.workflow.jobs) "publish" "ci__build" := by
  have hok : (expandReusableWorkflows (bundleExternals buildDefinition) (bundleContext "build") {}
      releaseDefinition).isOk = true := by
    decide +kernel
  obtain ⟨expanded, hexpanded⟩ := exists_eq_ok hok
  have hneeds : TransGen (Depends releaseDefinition.jobs) "publish" "ci" :=
    .single (depends_iff.mpr ⟨_, rfl, mem_singleton.mpr rfl⟩)
  have hpublish : ExpandsTo (bundleExternals buildDefinition) (bundleContext "build") releaseDefinition none
      "publish" "publish" := .executable rfl rfl
  have hinner : ExpandsTo (bundleExternals buildDefinition) (bundleContext "build") buildDefinition (some "ci")
      "build" "ci__build" := .executable rfl rfl
  have hbuild : ExpandsTo (bundleExternals buildDefinition) (bundleContext "build") releaseDefinition none
      "ci" "ci__build" := .call rfl rfl rfl hinner
  obtain ⟨-, hordered, -⟩ := expansion_preserves_order hexpanded
  exact ⟨expanded, hexpanded, hordered _ .refl _ _ hneeds _ _ hpublish hbuild⟩

end Runtrue.Compiler
