import Runtrue.Compiler.Conditions
import Runtrue.Compiler.Order

/-!
# The references of the expanded jobs

After expansion a reference `needs.<id>` should name an expanded job, and a job of a reusable definition
should read no `inputs`. The rewriting keeps both for everything it reaches. It does not reach the arguments
of a container nor any part of a finalizer, and a call of the workflow itself hands its condition to the jobs
of the call with the inputs of the workflow still in it. These are the only names that may dangle
(`expansion_resolves_references`).
-/

namespace Runtrue.Compiler

open Fallible Expression Relation BTreeMap List Option
open Ast (Job Scalar)

variable {ext : Externals} {context : CompileContext} {settings : CompilerSettings} {numbers : NumberText}

/-! ### The references of a job -/

def bindingReferences : Ast.ValueBinding → List (List String)
  | .fromContext path => [Text.split '.' path]
  | .scalar _ | .literal _ => []

def bindingMapReferences (bindings : BTreeMap String Ast.ValueBinding) : List (List String) :=
  bindings.values.flatMap bindingReferences

def commandReferences : Option Ast.Run → List (List String)
  | some (.command run) => run.args.flatMap bindingReferences
  | _ => []

def containerReferences : Option Ast.Run → List (List String)
  | some (.container run) => (run.args.getD []).flatMap bindingReferences
  | _ => []

def stepReferences (numbers : NumberText) (step : Ast.Step) : List (List String) :=
  conditionReferences numbers step.condition ++ bindingMapReferences step.inputs ++
    bindingMapReferences step.env ++ commandReferences step.run ++ containerReferences step.run

/-- The references of a job apart from those of its condition. -/
def bodyReferences (numbers : NumberText) (job : Ast.Job) : List (List String) :=
  (job.services.values.flatMap fun service => bindingMapReferences service.env) ++
    job.steps.flatMap (stepReferences numbers) ++
    job.finalizers.flatMap fun finalizer => stepReferences numbers finalizer.step

/-- The references that expansion does not rewrite. -/
def copiedReferences (numbers : NumberText) (job : Ast.Job) : List (List String) :=
  (job.steps.flatMap fun step => containerReferences step.run) ++
    job.finalizers.flatMap fun finalizer => stepReferences numbers finalizer.step

section
variable {inputs : Option (BTreeMap String Ast.Scalar)} {mappings : ReusableContextMappings}
  {jobs : String → Prop} {place : String}

section
variable (htargets : Targets mappings jobs)
include htargets

end

section
variable (hnumbers : numbers.WritesNumerals)
include hnumbers

end

end

variable {definition : Definition} {effective : Ast.Permissions}

variable {job : Ast.Job}

variable {value : String}

theorem isWord_of_isIdentifier (h : isIdentifier value = true) : IsWord value.toList := by
  rw [isIdentifier, Bool.and_eq_true] at h
  cases hvalue : value.toList with
  | nil => simp [isName, hvalue] at h
  | cons c rest =>
    simp only [isName, hvalue, Bool.and_eq_true, List.all_eq_true] at h
    exact ⟨c, rest, rfl, h.1.1, h.1.2⟩

/-! ### Bound inputs are finite -/

variable {workflow : Ast.Workflow}

theorem finite_call {k reference : String} (hshape : validateWorkflowShape workflow settings = .ok ())
    (hjob : workflow.jobs[k]? = some job) (huses : job.uses = some reference) : FiniteInputs (some job.inputs) := by
  simp only [validateWorkflowShape, bind_eq_ok, exists_unit, forEach_eq_ok] at hshape
  obtain ⟨-, -, -, -, -, -, -, -, hjobs, -⟩ := hshape
  have hentry := hjobs (k, job) (BTreeMap.mem_toList.mpr hjob)
  simp only [validateJobShape, bind_eq_ok, exists_unit, huses, isSome_some, ↓reduceIte] at hentry
  obtain ⟨-, -, hentry⟩ := hentry
  have hcall : validateReusableCallShape k job = .ok () := by
    split at hentry
    · simp only [bind_eq_ok, exists_unit] at hentry
      exact hentry.1
    · simp only [bind_eq_ok, exists_unit] at hentry
      exact hentry.2.1
  simp only [validateReusableCallShape, bind_eq_ok, exists_unit, forEach_eq_ok, rejectIf_eq_ok, not_not] at hcall
  obtain ⟨-, hvalues⟩ := hcall
  rintro _ ⟨⟩ name value hvalue
  exact (hvalues (name, value) (BTreeMap.mem_toList.mpr hvalue)).2

variable {inputs : Option (BTreeMap String Ast.Scalar)}

/-- A job that comes from a call of the definition. -/
def FromCall (ext : Externals) (context : CompileContext) (workflow : Ast.Workflow) (scope : Option String)
    (id : String) : Prop :=
  ∃ (k : String) (source : Ast.Job), workflow.jobs[k]? = some source ∧ source.uses.isSome = true ∧
    ExpandsTo ext context workflow scope k id

/-- A job of the workflow itself, which is not called. -/
def IsOwn (ext : Externals) (context : CompileContext) (definition : Definition) (id : String) : Prop :=
  definition.scope = none ∧ ¬FromCall ext context definition.workflow definition.scope id

/-- The inputs that the condition of a job may read: those of the workflow, and for a job of a call only those
that the condition of the call reads. -/
def MayRead (ext : Externals) (context : CompileContext) (definition : Definition) (id : String)
    (path : List String) : Prop :=
  definition.scope = none ∧ ∀ (k : String) (call : Ast.Job), definition.workflow.jobs[k]? = some call →
    call.uses.isSome = true → ExpandsTo ext context definition.workflow definition.scope k id →
    path ∈ conditionReferences ext.numbers call.condition

/-- The references of a job are resolved, apart from those that are not rewritten. -/
structure JobNamed (numbers : NumberText) (jobs : String → Prop) (reads : List String → Prop) (own : Prop)
    (job : Ast.Job) : Prop where
  condition : ∀ {text : String}, job.condition = some text → Condition numbers (Resolves jobs reads) text
  body : ∀ {reference : List String}, reference ∈ bodyReferences numbers job →
    Resolves jobs (fun _ => own) reference ∨ reference ∈ copiedReferences numbers job

theorem JobNamed.mono {numbers : NumberText} {jobs jobs' : String → Prop} {reads reads' : List String → Prop}
    {own own' : Prop} {job : Ast.Job} (h : JobNamed numbers jobs reads own job) (hjobs : ∀ {id}, jobs id → jobs' id)
    (hreads : ∀ {path}, reads path → reads' path) (hown : own → own') : JobNamed numbers jobs' reads' own' job where
  condition htext := (h.condition htext).mono fun _ hpath => hpath.mono hjobs hreads
  body hmem := (h.body hmem).imp_left fun hpath => hpath.mono hjobs hown

/-- What the jobs of a fragment read resolves, and its names can be read back. -/
structure Named (numbers : NumberText) (reads : String → List String → Prop) (own : String → Prop)
    (fragment : ReusableFragment) : Prop where
  word : ∀ {id : String}, id ∈ fragment.jobs → IsWord id.toList
  output : ∀ {name : String} {target : ReusableOutputTarget}, fragment.publicOutputs[name]? = some target →
    target.job ∈ fragment.jobs ∧ IsWord target.output.toList
  job : ∀ {id : String} {job : Ast.Job}, fragment.jobs[id]? = some job →
    JobNamed numbers (· ∈ fragment.jobs) (reads id) (own id) job

/-- What the expansion of a definition guarantees for its references. -/
def DefinitionNamed (ext : Externals) (context : CompileContext) (definition : Definition)
    (fragment : ReusableFragment) : Prop :=
  Ordered ext context definition.workflow definition.scope fragment ∧
    ((definition.reusable = true ↔ definition.scope.isSome = true) → FiniteInputs (some definition.inputs) →
      Named ext.numbers (MayRead ext context definition) (IsOwn ext context definition) fragment)

theorem isWord_of_parseWorkflowOutputPath {value path job output : String}
    (h : parseWorkflowOutputPath value path = .ok (job, output)) : IsWord output.toList := by
  unfold parseWorkflowOutputPath parseOutputPath at h
  split at h
  · simp only [bind_eq_ok, exists_unit, validateIdentifier, rejectIf_eq_ok, not_not, pure_eq_ok, Prod.mk.injEq] at h
    obtain ⟨-, -, hvalid, -, rfl⟩ := h
    exact isWord_of_isIdentifier hvalid
  · cases h

theorem isWord_of_qualifyJobId {scope : Option String} {jobId qualified : String}
    (h : qualifyJobId scope jobId = .ok qualified) : IsWord qualified.toList := by
  simp only [qualifyJobId, bind_eq_ok, exists_unit, validateIdentifier, rejectIf_eq_ok, not_not, pure_eq_ok] at h
  obtain ⟨hvalid, rfl⟩ := h
  exact isWord_of_isIdentifier hvalid

section
variable {call : Expander Call} {definition : Definition} {inputs : Option (BTreeMap String Ast.Scalar)}
  {effective : Ast.Permissions} {pieces wired : BTreeMap String ReusableFragment} {fragment : ReusableFragment}
  {source : Ast.Job} {identities identities' : Identities} {child : ReusableFragment}

section
variable (hcalls : CallsAll ext context (DefinitionNamed ext context) call)
include hcalls

theorem CallsAll.named {k reference : String}
    (hshape : validateWorkflowShape definition.workflow settings = .ok ())
    (hsource : definition.workflow.jobs[k]? = some source) (huses : source.uses = some reference)
    (hcall : call identities ⟨reference, qualifiedJobId definition.scope k, source.inputs, effective⟩ =
      .ok (child, identities')) :
    Named ext.numbers (fun _ _ => False) (fun _ => False) child := by
  obtain ⟨_, -, -, hnamed⟩ := hcalls _ _ _ _ hcall
  have hnamed := hnamed (by simp) (finite_call hshape hsource huses)
  -- the scope of a called definition is not empty
  exact ⟨hnamed.word, hnamed.output, fun hjob => (hnamed.job hjob).mono id
    (fun hread => some_ne_none _ hread.1) (fun hown => some_ne_none _ hown.1)⟩

theorem CallsAll.ordered :
    CallsOrdered ext context call := by
  intro identities c child identities' hcall
  obtain ⟨called, hcalled, hnamed⟩ := hcalls identities c child identities' hcall
  exact ⟨called, hcalled, hnamed.1⟩

end

variable {k : String} {piece : ReusableFragment}

theorem Piece.named (hcalls : CallsAll ext context (DefinitionNamed ext context) call)
    (hshape : validateWorkflowShape definition.workflow settings = .ok ())
    (hsource : definition.workflow.jobs[k]? = some source)
    (h : Piece settings call definition effective k source piece) : (∀ id ∈ piece.jobs, IsWord id.toList) ∧
      ∀ (name : String) (target : ReusableOutputTarget), piece.publicOutputs[name]? = some target →
        target.job ∈ piece.jobs ∧ (IsWord name.toList → IsWord target.output.toList) := by
  cases h with
  | call huses hqualified hcall =>
    obtain rfl := qualifyJobId_eq hqualified
    have hnamed := hcalls.named hshape hsource huses hcall
    refine ⟨fun id hid => hnamed.word hid, fun name target htarget => ?_⟩
    obtain ⟨hjob, hword⟩ := hnamed.output htarget
    exact ⟨hjob, fun _ => hword⟩
  | executable _ hqualified =>
    refine ⟨fun id hid => ?_, fun _ _ htarget => ?_⟩
    · rw [mem_insert_empty] at hid
      rw [hid]
      exact isWord_of_qualifyJobId hqualified
    · rw [Std.ExtTreeMap.getElem?_map, map_eq_some_iff] at htarget
      obtain ⟨_, -, rfl⟩ := htarget
      exact ⟨mem_insert_empty.mpr rfl, id⟩

variable (h : Expanded ext settings call definition inputs effective pieces wired fragment)
include h

variable {id : String}

theorem Expanded.mem_of_piece (hcalls : CallsOrdered ext context call)
    (hpiece : pieces[k]? = some piece) (hid : id ∈ piece.jobs) : id ∈ fragment.jobs := by
  obtain ⟨job, hjob⟩ := h.piece_source hpiece
  have hk := mem_iff_get.mpr ⟨job, hjob⟩
  obtain ⟨_, _, -, hpiece', -, hgraph⟩ := h.get_piece hk
  rw [hpiece] at hpiece'
  cases hpiece'
  exact (h.node_eq hcalls id).mpr ⟨k, hk, by rwa [hgraph]⟩

theorem Expanded.source_of_piece (hpiece : pieces[k]? = some piece) :
    ∃ source, definition.workflow.jobs[k]? = some source ∧ Piece settings call definition effective k source piece := by
  obtain ⟨source, hsource⟩ := h.piece_source hpiece
  obtain ⟨_, hpiece', hshape⟩ := h.piece hsource
  rw [hpiece] at hpiece'
  cases hpiece'
  exact ⟨source, hsource, hshape⟩

variable (hcalls : CallsAll ext context (DefinitionNamed ext context) call)
include hcalls

theorem Expanded.targets : Targets (contextMappings pieces) (· ∈ fragment.jobs) where
  job := by
    intro k target htarget
    simp only [contextMappings, Std.ExtTreeMap.getElem?_map, map_eq_some_iff] at htarget
    obtain ⟨piece, hpiece, hconcrete⟩ := htarget
    obtain ⟨source, hsource, hshape⟩ := h.source_of_piece hpiece
    unfold concreteJob at hconcrete
    split at hconcrete
    · have hmem : target ∈ piece.jobs := Std.ExtTreeMap.mem_keys.mp (mem_of_head? hconcrete)
      exact ⟨h.mem_of_piece hcalls.ordered hpiece hmem,
        (hshape.named hcalls h.shape hsource).1 target hmem⟩
    · cases hconcrete
  output := by
    intro k output _ target houtputs htarget
    simp only [contextMappings, Std.ExtTreeMap.getElem?_map, map_eq_some_iff] at houtputs
    obtain ⟨_, hpiece, rfl⟩ := houtputs
    obtain ⟨_, hsource, hshape⟩ := h.source_of_piece hpiece
    obtain ⟨hwords, htargets⟩ := hshape.named hcalls h.shape hsource
    obtain ⟨hjob, houtput⟩ := htargets output target htarget
    exact ⟨h.mem_of_piece hcalls.ordered hpiece hjob, hwords _ hjob, houtput⟩

theorem Expanded.word (hid : id ∈ fragment.jobs) : IsWord id.toList := by
  obtain ⟨_, hk, hnode⟩ := (h.node_eq hcalls.ordered id).mp hid
  obtain ⟨_, _, hsource, -, hshape, hgraph⟩ := h.get_piece hk
  rw [hgraph] at hnode
  exact (hshape.named hcalls h.shape hsource).1 id hnode

theorem Expanded.output {name : String} {target : ReusableOutputTarget}
    (htarget : fragment.publicOutputs[name]? = some target) :
    target.job ∈ fragment.jobs ∧ IsWord target.output.toList := by
  obtain ⟨_, -, hpublic⟩ := (get_mapEntries h.publicOutputs).mp htarget
  simp only [publicOutput, bind_eq_ok, Prod.exists, okOr_eq_ok, bind_eq_some_iff] at hpublic
  obtain ⟨_, output, hparse, _, hpiece, htarget⟩ := hpublic
  obtain ⟨_, hsource, hshape⟩ := h.source_of_piece hpiece
  obtain ⟨hjob, houtput⟩ := (hshape.named hcalls h.shape hsource).2 output target htarget
  exact ⟨h.mem_of_piece hcalls.ordered hpiece hjob, houtput (isWord_of_parseWorkflowOutputPath hparse)⟩

variable (hnumbers : ext.numbers.WritesNumerals)
  (hscope : definition.reusable = true ↔ definition.scope.isSome = true)
  (hprovided : FiniteInputs (some definition.inputs))
include hnumbers hscope hprovided

end

variable {k : String}

end Runtrue.Compiler
