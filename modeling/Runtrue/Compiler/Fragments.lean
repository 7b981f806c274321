import Runtrue.Compiler.Dag
import Runtrue.Compiler.Expansion

/-!
# What an expansion consists of

`Expanded` has everything a successful expansion of one definition went through: its checks, its pieces, the
pieces after wiring and the fragment merged from them. `Piece` and `Wired` say what each of the two loops
makes of one job.
-/

namespace Runtrue.Compiler

open Fallible BTreeMap Std.ExtTreeMap List Ast

variable {ext : Externals} {context : CompileContext} {settings : CompilerSettings} {V : Type}

theorem mem_iff_get {m : BTreeMap String V} {k : String} : k ∈ m ↔ ∃ v, m[k]? = some v := by
  rw [mem_iff_isSome_getElem?, Option.isSome_iff_exists]

/-! ### Merging -/

theorem foldEach_insertNew {what : String} {m m' : BTreeMap String V} {l : List (String × V)}
    (h : foldEach (insertNew what) m l = .ok m') :
    (∀ k v, m'[k]? = some v ↔ m[k]? = some v ∨ (k, v) ∈ l) ∧ ∀ e ∈ l, e.1 ∉ m := by
  induction l generalizing m with
  | nil =>
    cases h
    exact ⟨fun k v => by simp, fun _ he => absurd he not_mem_nil⟩
  | cons e l ih =>
    obtain ⟨_, hmiddle, hrest⟩ := foldEach_cons_eq_ok.mp h
    simp only [insertNew, bind_eq_ok, exists_unit, rejectIf_eq_ok, pure_eq_ok] at hmiddle
    obtain ⟨hnew, rfl⟩ := hmiddle
    obtain ⟨hget, hfresh⟩ := ih hrest
    have hnone : m[e.1]? = none := Std.ExtTreeMap.getElem?_eq_none hnew
    constructor
    · intro k v
      rw [hget, get_insert, mem_cons]
      by_cases hk : e.1 = k
      · subst hk
        simp only [if_pos, Option.some.injEq, hnone, reduceCtorEq, false_or]
        constructor
        · rintro (rfl | hmem)
          · exact .inl rfl
          · exact .inr hmem
        · rintro (heq | hmem)
          · exact .inl (by rw [← heq])
          · exact .inr hmem
      · have hne : ¬(k, v) = e := fun heq => hk (by rw [← heq])
        simp only [if_neg hk, hne, false_or]
    · refine forall_mem_cons.mpr ⟨hnew, fun e' he' hmem => hfresh e' he' ?_⟩
      obtain ⟨v, hv⟩ := mem_iff_get.mp hmem
      exact mem_iff_get.mpr ⟨v, get_insert_fresh hnone hv⟩

/-- Pieces without a common job. -/
def Apart (piece other : ReusableFragment) : Prop := ∀ id, id ∈ piece.jobs → id ∉ other.jobs

theorem foldEach_mergePiece {merged merged' : BTreeMap String Job × BTreeMap String (List String)}
    {pieces : List ReusableFragment} (h : foldEach mergePiece merged pieces = .ok merged') :
    (∀ (id : String) (job : Job), merged'.1[id]? = some job ↔
      merged.1[id]? = some job ∨ ∃ piece ∈ pieces, piece.jobs[id]? = some job) ∧
    (∀ piece ∈ pieces, ∀ id ∈ piece.jobs, id ∉ merged.1) ∧ pieces.Pairwise Apart := by
  induction pieces generalizing merged with
  | nil =>
    cases h
    exact ⟨fun id job => by simp, fun _ h => absurd h not_mem_nil, List.Pairwise.nil⟩
  | cons piece _ ih =>
    obtain ⟨_, hmiddle, hrest⟩ := foldEach_cons_eq_ok.mp h
    simp only [mergePiece, bind_eq_ok, pure_eq_ok] at hmiddle
    obtain ⟨jobs, hjobs, _, -, rfl⟩ := hmiddle
    obtain ⟨hget, hfresh⟩ := foldEach_insertNew hjobs
    obtain ⟨hget', hfresh', hapart⟩ := ih hrest
    have hmem : ∀ id, id ∈ merged.1 ∨ id ∈ piece.jobs → id ∈ jobs := by
      rintro id (hid | hid)
      · obtain ⟨job, hjob⟩ := mem_iff_get.mp hid
        exact mem_iff_get.mpr ⟨job, (hget id job).mpr (.inl hjob)⟩
      · obtain ⟨job, hjob⟩ := mem_iff_get.mp hid
        exact mem_iff_get.mpr ⟨job, (hget id job).mpr (.inr (mem_toList.mpr hjob))⟩
    refine ⟨fun id job => ?_, ?_, ?_⟩
    · rw [hget', hget, mem_toList, exists_mem_cons_iff, or_assoc]
    · refine forall_mem_cons.mpr ⟨fun id hid => ?_, fun other hother id hid hmerged =>
        hfresh' other hother id hid (hmem id (.inl hmerged))⟩
      obtain ⟨job, hjob⟩ := mem_iff_get.mp hid
      exact hfresh (id, job) (mem_toList.mpr hjob)
    · exact pairwise_cons.mpr ⟨fun other hother id hid hother' =>
        hfresh' other hother id hother' (hmem id (.inr hid)), hapart⟩

/-! ### Pieces -/

/-- What the first loop makes of a job. -/
inductive Piece (settings : CompilerSettings) (call : Expander Call) (definition : Definition)
    (effective : Ast.Permissions) (jobId : String) (job : Ast.Job) : ReusableFragment → Prop
  | call {identities identities' : Identities} {reference qualified : String} {child : ReusableFragment}
      (huses : job.uses = some reference) (hqualified : qualifyJobId definition.scope jobId = .ok qualified)
      (hcall : call identities ⟨reference, qualified, job.inputs, effective⟩ = .ok (child, identities')) :
      Piece settings call definition effective jobId job
        { child with
          callBoundary := true
          selectionAliases := child.selectionAliases.insert qualified child.terminalJobs }
  | executable {qualified : String} (huses : job.uses = none)
      (hqualified : qualifyJobId definition.scope jobId = .ok qualified) :
      Piece settings call definition effective jobId job
        ⟨(∅ : BTreeMap String Ast.Job).insert qualified job, [qualified], [qualified],
          job.outputs.map fun output _ => ⟨qualified, output⟩, ∅, false⟩

variable {call : Expander Call} {definition : Definition} {effective : Ast.Permissions} {job : Ast.Job}
  {piece : ReusableFragment} {identities identities' : Identities} {jobId : String}

theorem piece_of_expandPiece
    (h : expandPiece settings call definition effective identities jobId job = .ok (piece, identities')) :
    Piece settings call definition effective jobId job piece := by
  simp only [expandPiece, bind_eq_ok] at h
  obtain ⟨_, hqualified, h⟩ := h
  split at h
  · rename_i reference huses
    simp only [bind_eq_ok, exists_unit, pure_eq_ok] at h
    obtain ⟨⟨_, _⟩, hcall, -, hreturn⟩ := h
    cases hreturn
    exact .call huses hqualified hcall
  · rename_i huses
    cases h
    exact .executable huses hqualified

theorem get_of_foldEach_addPiece {state state' : BTreeMap String ReusableFragment × Identities}
    {l : List (String × Job)} (hkeys : (l.map Prod.fst).Nodup)
    (h : foldEach (addPiece settings call definition effective) state l = .ok state') :
    (∀ k, k ∉ l.map Prod.fst → state'.1[k]? = state.1[k]?) ∧ ∀ e ∈ l, ∃ piece, state'.1[e.1]? = some piece ∧
      Piece settings call definition effective e.1 e.2 piece := by
  induction l generalizing state with
  | nil =>
    cases h
    exact ⟨fun _ _ => rfl, fun _ he => absurd he not_mem_nil⟩
  | cons e l ih =>
    obtain ⟨_, hmiddle, hrest⟩ := foldEach_cons_eq_ok.mp h
    simp only [addPiece, bind_eq_ok, pure_eq_ok, Prod.exists] at hmiddle
    obtain ⟨piece, _, hpiece, rfl⟩ := hmiddle
    obtain ⟨hhead, htail⟩ := nodup_cons.mp hkeys
    obtain ⟨hkeep, hpieces⟩ := ih htail hrest
    constructor
    · intro k hk
      obtain ⟨hne, hk⟩ := not_or.mp (mt mem_cons.mpr hk)
      rw [hkeep k hk, get_insert, if_neg (Ne.symm hne)]
    · refine forall_mem_cons.mpr ⟨⟨piece, ?_, piece_of_expandPiece hpiece⟩, hpieces⟩
      rw [hkeep e.1 hhead, get_insert_self]

/-! ### Wired pieces -/

/-- What the second loop makes of a piece. -/
inductive Wired (ext : Externals) (definition : Definition) (effective : Ast.Permissions)
    (inputs : Option (BTreeMap String Ast.Scalar)) (pieces : BTreeMap String ReusableFragment)
    (piece : ReusableFragment) (jobId : String) (original : Ast.Job) : ReusableFragment → Prop
  | call {condition : Option String} {jobs : BTreeMap String Ast.Job} (huses : original.uses.isSome)
      (hcondition : mapSome (rewriteCondition ext.numbers inputs (contextMappings pieces)
        s!"jobs.{jobId}.if") original.condition = .ok condition)
      (hjobs : guardJobs ext condition (extendNeeds piece (dependenciesOf pieces original)) = .ok jobs) :
      Wired ext definition effective inputs pieces piece jobId original { piece with jobs := jobs }
  | executable {qualified : String} {rewritten job : Ast.Job} (huses : original.uses = none)
      (hqualified : qualifyJobId definition.scope jobId = .ok qualified)
      (hrewritten : rewriteExecutableJob ext.numbers inputs (contextMappings pieces) s!"jobs.{jobId}"
        { original with needs := dependenciesOf pieces original } = .ok rewritten)
      (hjob : inheritJob ext definition effective rewritten = .ok job) :
      Wired ext definition effective inputs pieces piece jobId original
        { piece with jobs := piece.jobs.insert qualified job }

variable {inputs : Option (BTreeMap String Ast.Scalar)} {pieces : BTreeMap String ReusableFragment}

theorem wired_of_wirePiece {piece wired : ReusableFragment} {original : Job}
    (h : wirePiece ext definition effective inputs pieces piece jobId original = .ok wired) :
    Wired ext definition effective inputs pieces piece jobId original wired := by
  simp only [wirePiece] at h
  split at h
  · rename_i huses
    simp only [bind_eq_ok, pure_eq_ok] at h
    obtain ⟨_, hcondition, _, hjobs, rfl⟩ := h
    exact .call huses hcondition hjobs
  · rename_i huses
    simp only [bind_eq_ok, pure_eq_ok] at h
    obtain ⟨_, hqualified, _, hrewritten, _, hjob, rfl⟩ := h
    exact .executable (Option.not_isSome_iff_eq_none.mp huses) hqualified hrewritten hjob

/-! ### The jobs of a wired piece -/

theorem qualifyJobId_eq {scope : Option String} {jobId qualified : String}
    (h : qualifyJobId scope jobId = .ok qualified) : qualified = qualifiedJobId scope jobId := by
  simp only [qualifyJobId, bind_eq_ok, exists_unit, pure_eq_ok] at h
  exact h.2.symm

/-- A job of a call under the condition of the call. -/
def Guarded (ext : Externals) (condition : Option String) (job guarded : Ast.Job) : Prop :=
  match condition with
  | none => job = guarded
  | some condition => ∃ combined, combineConditions ext.numbers condition job.condition = .ok combined ∧
      { job with condition := some combined } = guarded

variable {id : String} {condition : Option String} {jobs jobs' : BTreeMap String Ast.Job}

theorem get_guardJobs (h : guardJobs ext condition jobs = .ok jobs') {guarded : Job} :
    jobs'[id]? = some guarded ↔ ∃ job, jobs[id]? = some job ∧ Guarded ext condition job guarded := by
  cases condition with
  | none =>
    cases h
    simp [Guarded]
  | some =>
    rw [guardJobs] at h
    rw [get_mapEntries h]
    simp only [bind_eq_ok, pure_eq_ok, Guarded]

theorem mem_guardJobs (h : guardJobs ext condition jobs = .ok jobs') : id ∈ jobs' ↔ id ∈ jobs := by
  rw [mem_iff_get, mem_iff_get]
  constructor
  · rintro ⟨guarded, hguarded⟩
    obtain ⟨job, hjob, -⟩ := (get_guardJobs h).mp hguarded
    exact ⟨job, hjob⟩
  · rintro ⟨job, hjob⟩
    cases condition with
    | none =>
      cases h
      exact ⟨job, hjob⟩
    | some =>
      rw [guardJobs] at h
      obtain ⟨guarded, -, hguarded⟩ := exists_get_mapEntries h hjob
      exact ⟨guarded, hguarded⟩

/-- A job of a call with the dependencies of the call, if it is an entry. -/
def extendJob (piece : ReusableFragment) (dependencies : List String) (id : String) (job : Ast.Job) :
    Ast.Job :=
  if id ∈ piece.entryJobs then { job with needs := (job.needs ++ dependencies).sort.dedupAdjacent } else job

variable {dependencies : List String}

theorem get_extendNeeds :
    (extendNeeds piece dependencies)[id]? = (piece.jobs[id]?).map (extendJob piece dependencies id) :=
  Std.ExtTreeMap.getElem?_map

theorem mem_needs_extendJob {id b : String} : b ∈ (extendJob piece dependencies id job).needs ↔
      b ∈ job.needs ∨ (id ∈ piece.entryJobs ∧ b ∈ dependencies) := by
  unfold extendJob
  split
  · rename_i hentry
    simp [hentry]
  · rename_i hentry
    simp [hentry]

theorem extendJob_eq (piece : ReusableFragment) (dependencies : List String) (id : String) (job : Job) :
    ∃ needs, extendJob piece dependencies id job = { job with needs } := by
  unfold extendJob
  split
  · exact ⟨_, rfl⟩
  · exact ⟨job.needs, rfl⟩

theorem Guarded.eq {id : String} {guarded : Job}
    (h : Guarded ext condition (extendJob piece dependencies id job) guarded) :
    ∃ condition needs, guarded = { job with condition, needs } := by
  obtain ⟨needs, hneeds⟩ := extendJob_eq piece dependencies id job
  rw [hneeds] at h
  cases condition with
  | none => exact ⟨_, needs, h.symm⟩
  | some =>
    obtain ⟨_, -, rfl⟩ := h
    exact ⟨_, needs, rfl⟩

theorem rewriteExecutableJob_eq {mappings : ReusableContextMappings} {path : String} {rewritten : Job}
    (h : rewriteExecutableJob ext.numbers inputs mappings path job = .ok rewritten) :
    ∃ condition services steps, rewritten = { job with condition, services, steps } := by
  simp only [rewriteExecutableJob, bind_eq_ok, pure_eq_ok] at h
  obtain ⟨_, -, _, -, _, -, rfl⟩ := h
  exact ⟨_, _, _, rfl⟩

theorem inheritJob_eq {inherited : Job} (h : inheritJob ext definition effective job = .ok inherited) :
    ∃ permissions vars, inherited = { job with permissions, vars } := by
  unfold inheritJob at h
  split at h
  · simp only [bind_eq_ok, pure_eq_ok] at h
    obtain ⟨_, -, rfl⟩ := h
    exact ⟨_, _, rfl⟩
  · exact ⟨_, _, (pure_eq_ok.mp h).symm⟩

/-! ### Definitions -/

/-- What a successful expansion of one definition consists of. -/
structure Expanded (ext : Externals) (settings : CompilerSettings) (call : Expander Call)
    (definition : Definition) (inputs : Option (BTreeMap String Ast.Scalar)) (effective : Ast.Permissions)
    (pieces wired : BTreeMap String ReusableFragment) (fragment : ReusableFragment) : Prop where
  shape : validateWorkflowShape definition.workflow settings = .ok ()
  acyclic : Acyclic definition.workflow.jobs
  inputs_eq : inputBindings definition = .ok inputs
  effective_eq : effectivePermissions ext definition = .ok effective
  piece : ∀ {k : String} {job}, definition.workflow.jobs[k]? = some job →
    ∃ piece, pieces[k]? = some piece ∧ Piece settings call definition effective k job piece
  wire : ∀ {k : String} {piece}, wired[k]? = some piece → ∃ job original, pieces[k]? = some original ∧
    definition.workflow.jobs[k]? = some job ∧ Wired ext definition effective inputs pieces original k job piece
  all_wired : ∀ {k : String} {job}, definition.workflow.jobs[k]? = some job → ∃ piece, wired[k]? = some piece
  jobs : ∀ {id : String} {job}, fragment.jobs[id]? = some job ↔
    ∃ (k : String) (piece : _), wired[k]? = some piece ∧ piece.jobs[id]? = some job
  apart : ∀ {k k' : String} {piece piece' id}, wired[k]? = some piece → wired[k']? = some piece' →
    id ∈ piece.jobs → id ∈ piece'.jobs → k = k'
  entryJobs : fragment.entryJobs = entryJobsOf definition.workflow pieces
  terminalJobs : fragment.terminalJobs = terminalJobsOf definition.workflow pieces
  publicOutputs : definition.workflow.outputs.mapEntries (publicOutput pieces) = .ok fragment.publicOutputs
  piece_source : ∀ {k : String} {piece}, pieces[k]? = some piece → ∃ job, definition.workflow.jobs[k]? = some job

variable {fragment : ReusableFragment}

theorem exists_expanded (h : expandWith ext settings call identities definition = .ok (fragment, identities')) :
    ∃ inputs effective pieces wired, Expanded ext settings call definition inputs effective pieces wired fragment := by
  simp only [expandWith, bind_eq_ok, exists_unit, pure_eq_ok, Prod.exists, Prod.mk.injEq] at h
  obtain ⟨hshape, hdag, -, inputs, hinputs, effective, heffective, pieces, _, hpieces, wired,
    hwired, _, houtputs, _, _, hmerge, -, hfragment, -⟩ := h
  subst hfragment
  obtain ⟨-, hpiece⟩ := get_of_foldEach_addPiece (nodup_map_fst_toList _) hpieces
  obtain ⟨hjobs, -, hapart⟩ := foldEach_mergePiece hmerge
  have hpieceOf : ∀ {k : String} {job : Job}, definition.workflow.jobs[k]? = some job →
      ∃ piece, pieces[k]? = some piece ∧ Piece settings call definition effective k job piece :=
    fun {k job} hjob => hpiece (k, job) (mem_toList.mpr hjob)
  have hwire : ∀ {k : String} {piece : ReusableFragment}, wired[k]? = some piece ↔
      ∃ original, pieces[k]? = some original ∧ ∃ job, definition.workflow.jobs[k]? = some job ∧
        wirePiece ext definition effective inputs pieces original k job = .ok piece := by
    intro k piece
    rw [get_mapEntries hwired]
    simp only [bind_eq_ok, okOr_eq_ok]
  have hsymm : Std.Symm fun e e' : String × ReusableFragment => Apart e.2 e'.2 :=
    ⟨fun _ _ happart id hid hid' => happart id hid' hid⟩
  refine ⟨inputs, effective, pieces, wired, hshape, validateDag_acyclic hdag, hinputs, heffective, hpieceOf,
    ?_, ?_, ?_, ?_, rfl, rfl, houtputs, ?_⟩
  · intro k piece hk
    obtain ⟨original, horiginal, job, hjob, hpiece⟩ := hwire.mp hk
    exact ⟨job, original, horiginal, hjob, wired_of_wirePiece hpiece⟩
  · intro k job hjob
    obtain ⟨_, horiginal, -⟩ := hpieceOf hjob
    obtain ⟨piece, -, hwired⟩ := exists_get_mapEntries hwired horiginal
    exact ⟨piece, hwired⟩
  · intro id job
    rw [hjobs]
    simp only [mem_values, getElem?_empty, reduceCtorEq, false_or]
    constructor
    · rintro ⟨piece, ⟨k, hk⟩, hjob⟩
      exact ⟨k, piece, hk, hjob⟩
    · rintro ⟨k, piece, hk, hjob⟩
      exact ⟨piece, ⟨k, hk⟩, hjob⟩
  · intro k k' piece piece' id hk hk' hid hid'
    by_contra hne
    have hpairs : wired.toList.Pairwise fun e e' => Apart e.2 e'.2 := pairwise_map.mp hapart
    have hdifferent : (k, piece) ≠ (k', piece') := fun heq => hne (Prod.mk.inj heq).1
    exact hpairs.forall (mem_toList.mpr hk) (mem_toList.mpr hk') hdifferent id hid hid'
  · intro k _ hpiece
    obtain ⟨_, -, hwired⟩ := exists_get_mapEntries hwired hpiece
    obtain ⟨_, -, job, hjob, -⟩ := hwire.mp hwired
    exact ⟨job, hjob⟩

/-- Where a job of a fragment comes from: the job `k` of the definition, or the expansion of what it calls. -/
inductive FragmentJob (ext : Externals) (call : Expander Call) (definition : Definition)
    (inputs : Option (BTreeMap String Ast.Scalar)) (effective : Ast.Permissions)
    (pieces : BTreeMap String ReusableFragment) (k id : String) (job : Ast.Job) : Prop
  | own {source rewritten : Ast.Job} (hsource : definition.workflow.jobs[k]? = some source)
      (huses : source.uses = none) (hid : id = qualifiedJobId definition.scope k)
      (hrewritten : rewriteExecutableJob ext.numbers inputs (contextMappings pieces) s!"jobs.{k}"
        { source with needs := dependenciesOf pieces source } = .ok rewritten)
      (hinherit : inheritJob ext definition effective rewritten = .ok job)
  | called {source inner : Ast.Job} {reference : String} {identities identities' : Identities}
      {child : ReusableFragment} {condition : Option String}
      (hsource : definition.workflow.jobs[k]? = some source) (huses : source.uses = some reference)
      (hcall : call identities ⟨reference, qualifiedJobId definition.scope k, source.inputs, effective⟩ =
        .ok (child, identities')) (hinner : child.jobs[id]? = some inner)
      (hcondition : mapSome (rewriteCondition ext.numbers inputs (contextMappings pieces)
        s!"jobs.{k}.if") source.condition = .ok condition)
      (hguarded : Guarded ext condition (extendJob child (dependenciesOf pieces source) id inner) job)
      (hpiece : ∃ piece, pieces[k]? = some piece ∧ piece.jobs = child.jobs)

theorem Expanded.fragmentJob {pieces wired : BTreeMap String ReusableFragment}
    (h : Expanded ext settings call definition inputs effective pieces wired fragment)
    (hjob : fragment.jobs[id]? = some job) :
    ∃ (k : String) (piece : ReusableFragment), wired[k]? = some piece ∧ id ∈ piece.jobs ∧
      FragmentJob ext call definition inputs effective pieces k id job := by
  obtain ⟨k, piece, hk, hpiece⟩ := h.jobs.mp hjob
  refine ⟨k, piece, hk, mem_iff_get.mpr ⟨job, hpiece⟩, ?_⟩
  obtain ⟨_, _, horiginal, hsource, hwired⟩ := h.wire hk
  obtain ⟨_, horiginal', hshape⟩ := h.piece hsource
  rw [horiginal] at horiginal'
  cases horiginal'
  cases hwired with
  | call huses hcondition hjobs =>
    cases hshape with
    | executable hnone => rw [hnone] at huses; cases huses
    | call huses' hqualified hcall =>
      obtain rfl := qualifyJobId_eq hqualified
      obtain ⟨_, hextended, hguarded⟩ := (get_guardJobs hjobs).mp hpiece
      rw [get_extendNeeds, Option.map_eq_some_iff] at hextended
      obtain ⟨_, hinner, rfl⟩ := hextended
      exact .called hsource huses' hcall hinner hcondition hguarded ⟨_, horiginal, rfl⟩
  | executable huses hqualified hrewritten hinherit =>
    cases hshape with
    | call huses' => rw [huses] at huses'; cases huses'
    | executable _ hqualified' =>
      obtain rfl := qualifyJobId_eq hqualified
      obtain rfl := qualifyJobId_eq hqualified'
      simp only [get_insert, getElem?_empty] at hpiece
      split at hpiece
      · rename_i heq
        cases hpiece
        exact .own hsource huses heq.symm hrewritten hinherit
      · cases hpiece

/-! ### Levels -/

/-- The definition that a reference stands for in the source bundle. -/
def bundledDefinition (ext : Externals) (context : CompileContext) (reference : String) :
    Option Ast.Workflow :=
  (context.reusableWorkflows[reference]?).bind fun bundled =>
    (ext.fromUtf8 bundled.source).bind fun source => (ext.parseYaml source).toOption

variable {workflow : Ast.Workflow}

theorem bundledDefinition_of_resolveCall {reference scope : String} {identity : ReusableWorkflowIdentity}
    (h : resolveCall ext context reference scope = .ok (workflow, identity)) :
    bundledDefinition ext context reference = some workflow := by
  simp only [resolveCall, bind_eq_ok, exists_unit, okOr_eq_ok] at h
  obtain ⟨_, -, _, -, _, hbundled, -, -, _, hsource, h⟩ := h
  split at h
  · rename_i workflow' hparse
    cases h
    simp [bundledDefinition, hbundled, hsource, hparse, Except.toOption]
  · cases h

/-- The calls of a definition resolve to bundled definitions, whose expansions have the property `P`. -/
def CallsAll (ext : Externals) (context : CompileContext) (P : Definition → ReusableFragment → Prop)
    (call : Expander Call) : Prop :=
  ∀ identities c child identities', call identities c = .ok (child, identities') →
    ∃ called, bundledDefinition ext context c.reference = some called ∧
      P ⟨called, some c.scope, c.inputs, true, some c.inherited⟩ child

variable {P : Definition → ReusableFragment → Prop}
  (hstep : ∀ {call definition inputs effective pieces wired fragment},
    Expanded ext settings call definition inputs effective pieces wired fragment → CallsAll ext context P call →
      P definition fragment)
include hstep

/-- The induction over the levels of calls: a property that one level has if its calls have it. -/
theorem exists_expanded_callsAll (levels : Nat) (stack : List String) (identities identities' : Identities)
    (definition : Definition) (fragment : ReusableFragment)
    (h : expandDefinition ext context settings levels stack identities definition = .ok (fragment, identities')) :
    ∃ call inputs effective pieces wired, Expanded ext settings call definition inputs effective pieces wired fragment ∧
        CallsAll ext context P call := by
  induction levels generalizing stack identities identities' definition fragment with
  | zero =>
    obtain ⟨inputs, effective, pieces, wired, hexpanded⟩ := exists_expanded h
    exact ⟨_, inputs, effective, pieces, wired, hexpanded, fun _ _ _ _ hcall => nomatch hcall⟩
  | succ _ ih =>
    obtain ⟨inputs, effective, pieces, wired, hexpanded⟩ := exists_expanded h
    refine ⟨_, inputs, effective, pieces, wired, hexpanded, fun _ c _ _ hcall => ?_⟩
    simp only [expandCall, bind_eq_ok, exists_unit, rejectIf_eq_ok, Prod.exists] at hcall
    obtain ⟨-, called, _, hresolve, hexpand⟩ := hcall
    obtain ⟨_, _, _, _, _, hchild, hcalls⟩ := ih _ _ _ _ _ hexpand
    exact ⟨called, bundledDefinition_of_resolveCall hresolve, hstep hchild hcalls⟩

theorem exists_expanded_workflow {expanded : ExpandedReusableWorkflows}
    (h : expandReusableWorkflows ext context settings workflow = .ok expanded) :
    ∃ call inputs effective pieces wired fragment,
      Expanded ext settings call ⟨workflow, none, ∅, false, none⟩ inputs effective pieces wired fragment ∧
        CallsAll ext context P call ∧ expanded.workflow.jobs = fragment.jobs := by
  simp only [expandReusableWorkflows, bind_eq_ok, exists_unit, Prod.exists, pure_eq_ok] at h
  obtain ⟨-, -, fragment, _, hfragment, -, rfl⟩ := h
  obtain ⟨call, inputs, effective, pieces, wired, hexpanded, hcalls⟩ :=
    exists_expanded_callsAll hstep _ _ _ _ _ _ hfragment
  exact ⟨call, inputs, effective, pieces, wired, fragment, hexpanded, hcalls, rfl⟩

end Runtrue.Compiler
