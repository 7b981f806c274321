import Runtrue.Compiler.Rewrite

/-!
# Expansion of reusable workflows

`reusable/expansion.rs`: every call of a reusable workflow is replaced by the jobs of its definition, under
names qualified with the call's. A definition is cut into one piece per job, the piece of a call being the
expansion of what it calls; the entry jobs of a piece come to need the terminal jobs of the pieces it
depends on. The nesting depth is counted down from `maxReusableDepth`.
-/

namespace Runtrue.Compiler

open Fallible Expression

/-- What the compiler calls outside of this repository. -/
structure Externals where
  numbers : NumberText
  sha256 : List UInt8 → ContentDigest
  fromUtf8 : List UInt8 → Option String
  parseYaml : String → Except String Ast.Workflow

structure ReusableWorkflowSource where
  commit : String
  source : List UInt8

structure CompileContext where
  installationId : String := "local"
  tenantId : String := "local"
  repositoryId : String := "local"
  workflowPath : String := ".runtrue/workflows/workflow.yaml"
  sourceCommit : String := "local-worktree"
  baseCommit : Option String := none
  sourceTrust : Ir.SourceTrust := .untrusted
  event : Json := .object [("type", .string "manual")]
  normalizedEventDigest : Option ContentDigest := none
  scmApiUrl : Option String := none
  lockfile : Option Lock.LockFile := none
  reusableWorkflows : BTreeMap String ReusableWorkflowSource := ∅
  workflowFrontend : Option Ir.WorkflowFrontendProvenance := none
  policyVersionIds : List String := ["local-default-deny-v1"]
  workflowChanged : Bool := false
  expirationBoundary : Option String := none
  selectedJob : Option String := none

structure ReusableWorkflowIdentity where
  source : String
  commit : String
  digest : ContentDigest

abbrev Identities := BTreeMap String ReusableWorkflowIdentity

structure ReusableFragment where
  jobs : BTreeMap String Ast.Job
  entryJobs : List String
  terminalJobs : List String
  publicOutputs : BTreeMap String ReusableOutputTarget
  selectionAliases : BTreeMap String (List String)
  callBoundary : Bool

/-- The definition of a call, where it is, what it was given and under which permissions. -/
structure Definition where
  workflow : Ast.Workflow
  scope : Option String
  inputs : BTreeMap String Ast.Scalar
  reusable : Bool
  inherited : Option Ast.Permissions

structure Call where
  reference : String
  scope : String
  inputs : BTreeMap String Ast.Scalar
  inherited : Ast.Permissions

abbrev Expander (α : Type) := Identities → α → Compiled (ReusableFragment × Identities)

/-! ### Inputs and mappings -/

def bindReusableInput (provided : BTreeMap String Ast.Scalar) (bound : BTreeMap String Ast.Scalar)
    (entry : String × Ast.InputDefinition) : Compiled (BTreeMap String Ast.Scalar) := do
  let (name, definition) := entry
  match provided[name]?.or definition.default with
  | none => do
    rejectIf definition.required
      (.semantic s!"with.{name}" s!"required reusable workflow input `{name}` is missing")
    return bound
  | some value => do
    rejectIf (¬scalarMatchesInput value definition.kind)
      (.semantic s!"with.{name}" s!"value for `{name}` does not match its declared input type")
    rejectIf (definition.kind = .choice ∧ ¬definition.options.any (·.eqv value))
      (.semantic s!"with.{name}" s!"value for choice input `{name}` is not an allowed option")
    return bound.insert name value

def bindReusableInputs (definitions : BTreeMap String Ast.InputDefinition)
    (provided : BTreeMap String Ast.Scalar) : Compiled (BTreeMap String Ast.Scalar) := do
  forEach provided.keys fun name => rejectIf (name ∉ definitions)
    (.semantic s!"with.{name}" s!"reusable workflow does not declare input `{name}`")
  foldEach (bindReusableInput provided) ∅ definitions.toList

/-- The one job that a piece stands for, if it is not a call. -/
def concreteJob (piece : ReusableFragment) : Option String :=
  if piece.callBoundary = false ∧ piece.jobs.size = 1 ∧
      piece.publicOutputs.values.all fun output => piece.jobs.contains output.job then
    piece.jobs.keys.head?
  else none

def contextMappings (pieces : BTreeMap String ReusableFragment) : ReusableContextMappings where
  jobs := pieces.map fun _ piece => concreteJob piece
  outputs := pieces.map fun _ piece => piece.publicOutputs

/-- The name of a job inside the call `scope`. -/
def qualifiedJobId (scope : Option String) (jobId : String) : String :=
  match scope with
  | none => jobId
  | some scope => s!"{scope}__{jobId}"

def qualifyJobId (scope : Option String) (jobId : String) : Compiled String := do
  validateIdentifier (qualifiedJobId scope jobId) "jobs"
  return qualifiedJobId scope jobId

def hasTriggers (triggers : Ast.Triggers) : Bool :=
  triggers.push.isSome || triggers.pullRequest.isSome || triggers.mergeQueue.isSome ||
    !triggers.schedule.isEmpty || triggers.manual.isSome || triggers.api.isSome

/-! ### Pieces -/

variable (ext : Externals) (context : CompileContext) (settings : CompilerSettings)

/-- The piece of a job before it is wired. -/
def expandPiece (call : Expander Call) (definition : Definition) (effective : Ast.Permissions)
    (identities : Identities) (jobId : String) (job : Ast.Job) :
    Compiled (ReusableFragment × Identities) := do
  let qualified ← qualifyJobId definition.scope jobId
  match job.uses with
  | some reference => do
    let (child, identities) ← call identities ⟨reference, qualified, job.inputs, effective⟩
    rejectIf (child.jobs.size > settings.maxReusableJobs) (.semantic s!"jobs.{jobId}.uses"
      s!"reusable workflow expands beyond the configured {settings.maxReusableJobs} job fan-out limit")
    let aliases := child.selectionAliases.insert qualified child.terminalJobs
    return ({ child with callBoundary := true, selectionAliases := aliases }, identities)
  | none =>
    let outputs := job.outputs.map fun output _ => (⟨qualified, output⟩ : ReusableOutputTarget)
    return (⟨(∅ : BTreeMap String Ast.Job).insert qualified job, [qualified], [qualified], outputs, ∅, false⟩,
      identities)

/-- The loop that creates the pieces. -/
def addPiece (call : Expander Call) (definition : Definition) (effective : Ast.Permissions)
    (state : BTreeMap String ReusableFragment × Identities) (entry : String × Ast.Job) :
    Compiled (BTreeMap String ReusableFragment × Identities) := do
  let (piece, identities) ← expandPiece settings call definition effective state.2 entry.1 entry.2
  return (state.1.insert entry.1 piece, identities)

/-- The terminal jobs of the pieces that a job needs. -/
def dependenciesOf (pieces : BTreeMap String ReusableFragment) (job : Ast.Job) : List String :=
  job.needs.flatMap fun dependency => (pieces[dependency]?).elim [] (·.terminalJobs)

/-- The entry jobs of a call come to need `dependencies`. -/
def extendNeeds (piece : ReusableFragment) (dependencies : List String) : BTreeMap String Ast.Job :=
  piece.jobs.map fun id job =>
    if id ∈ piece.entryJobs then { job with needs := (job.needs ++ dependencies).sort.dedupAdjacent } else job

/-- Every job of a call is guarded by the condition of the call. -/
def guardJobs (condition : Option String) (jobs : BTreeMap String Ast.Job) :
    Compiled (BTreeMap String Ast.Job) :=
  match condition with
  | none => .ok jobs
  | some condition => jobs.mapEntries fun _ job => do
    let combined ← combineConditions ext.numbers condition job.condition
    return { job with condition := some combined }

/-- What a reusable definition adds to its jobs: its permissions bound theirs and its variables are
defaults for theirs. -/
def inheritJob (definition : Definition) (effective : Ast.Permissions) (job : Ast.Job) :
    Compiled Ast.Job := do
  if definition.reusable then do
    let permissions ← intersectAstPermissions ext.sha256 effective (job.permissions.getD effective)
    let vars := job.vars.toList.foldl (fun vars entry => vars.insert entry.1 entry.2) definition.workflow.vars
    return { job with permissions := some permissions, vars := vars }
  else return job

/-- The second loop: a piece with its dependencies, and with its references rewritten. -/
def wirePiece (definition : Definition) (effective : Ast.Permissions)
    (inputs : Option (BTreeMap String Ast.Scalar)) (pieces : BTreeMap String ReusableFragment)
    (piece : ReusableFragment) (jobId : String) (original : Ast.Job) : Compiled ReusableFragment := do
  let dependencies := dependenciesOf pieces original
  let mappings := contextMappings pieces
  if original.uses.isSome then do
    let condition ← mapSome (rewriteCondition ext.numbers inputs mappings s!"jobs.{jobId}.if")
      original.condition
    let jobs ← guardJobs ext condition (extendNeeds piece dependencies)
    return { piece with jobs := jobs }
  else do
    let qualified ← qualifyJobId definition.scope jobId
    let job ← rewriteExecutableJob ext.numbers inputs mappings s!"jobs.{jobId}"
      { original with needs := dependencies }
    let job ← inheritJob ext definition effective job
    return { piece with jobs := piece.jobs.insert qualified job }

/-! ### Fragments -/

def entryJobsOf (workflow : Ast.Workflow) (pieces : BTreeMap String ReusableFragment) : List String :=
  ((workflow.jobs.toList.filter fun entry => entry.2.needs = []).flatMap fun entry =>
    (pieces[entry.1]?).elim [] (·.entryJobs)).sort.dedupAdjacent

def terminalJobsOf (workflow : Ast.Workflow) (pieces : BTreeMap String ReusableFragment) : List String :=
  let dependedOn := workflow.jobs.toList.flatMap fun entry => entry.2.needs
  ((workflow.jobs.keys.filter fun id => id ∉ dependedOn).flatMap fun id =>
    (pieces[id]?).elim [] (·.terminalJobs)).sort.dedupAdjacent

def publicOutput (pieces : BTreeMap String ReusableFragment) (name source : String) :
    Compiled ReusableOutputTarget := do
  let (job, output) ← parseWorkflowOutputPath source s!"outputs.{name}.from"
  okOr ((pieces[job]?).bind (·.publicOutputs[output]?))
    (.semantic s!"outputs.{name}.from" s!"unknown or unexposed workflow output `{source}`")

/-- Insert an entry whose key must be new. -/
def insertNew {V : Type} (what : String) (m : BTreeMap String V) (entry : String × V) :
    Compiled (BTreeMap String V) := do
  rejectIf (entry.1 ∈ m)
    (.semantic "jobs" s!"reusable workflow namespace collision for {what} `{entry.1}`")
  return m.insert entry.1 entry.2

def mergePiece (merged : BTreeMap String Ast.Job × BTreeMap String (List String))
    (piece : ReusableFragment) : Compiled (BTreeMap String Ast.Job × BTreeMap String (List String)) := do
  let jobs ← foldEach (insertNew "job") merged.1 piece.jobs.toList
  let aliases ← foldEach (insertNew "call") merged.2 piece.selectionAliases.toList
  return (jobs, aliases)

/-- The inputs of a reusable definition; the root has none. -/
def inputBindings (definition : Definition) : Compiled (Option (BTreeMap String Ast.Scalar)) :=
  if definition.reusable then do
    let bound ← bindReusableInputs definition.workflow.inputs definition.inputs
    return some bound
  else .ok none

/-- The permissions that bound the jobs of a definition. -/
def effectivePermissions (definition : Definition) : Compiled Ast.Permissions :=
  match definition.inherited with
  | some maximum => intersectAstPermissions ext.sha256 maximum definition.workflow.permissions
  | none => .ok definition.workflow.permissions

/-- `expand_definition`, over the expansion of the calls in it. -/
def expandWith (call : Expander Call) (identities : Identities) (definition : Definition) :
    Compiled (ReusableFragment × Identities) := do
  let workflow := definition.workflow
  validateWorkflowShape workflow settings
  validateDag workflow
  rejectIf (definition.reusable ∧ hasTriggers workflow.triggers)
    (.semantic "on" "a reusable workflow source cannot declare event triggers")
  let inputs ← inputBindings definition
  let effective ← effectivePermissions ext definition
  let (pieces, identities) ← foldEach (addPiece settings call definition effective) (∅, identities)
    workflow.jobs.toList
  let wired ← pieces.mapEntries fun jobId piece => do
    let original ← okOr workflow.jobs[jobId]? (.semantic "jobs" "piece created for every job")
    wirePiece ext definition effective inputs pieces piece jobId original
  let publicOutputs ← workflow.outputs.mapEntries (publicOutput pieces)
  let (jobs, aliases) ← foldEach mergePiece (∅, ∅) wired.values
  rejectIf (jobs.size > maxWorkflowJobs)
    (.semantic "jobs" s!"expanded workflow exceeds the {maxWorkflowJobs} job limit")
  return (⟨jobs, entryJobsOf workflow pieces, terminalJobsOf workflow pieces, publicOutputs, aliases, false⟩,
    identities)

/-- The bundled source of a reference, after it was checked against the lockfile. -/
def resolveCall (reference scope : String) : Compiled (Ast.Workflow × ReusableWorkflowIdentity) := do
  let path := s!"jobs.{scope}.uses"
  let lockfile ← okOr context.lockfile (.semantic ".runtrue.lock"
    "a validated lockfile is required for every reusable workflow reference")
  let locked ← okOr (lockfile.workflows.find? (·.source = reference))
    (.semantic path s!"missing reusable workflow lock entry for `{reference}`")
  let bundled ← okOr context.reusableWorkflows[reference]?
    (.semantic path s!"missing authenticated source bytes for `{reference}`")
  rejectIf (bundled.commit ≠ locked.commit)
    (.semantic path s!"source commit for `{reference}` does not match `.runtrue.lock`")
  rejectIf (ext.sha256 bundled.source ≠ locked.digest)
    (.semantic path s!"source digest for `{reference}` does not match `.runtrue.lock`")
  let source ← okOr (ext.fromUtf8 bundled.source)
    (.semantic path s!"reusable workflow `{reference}` is not UTF-8")
  match ext.parseYaml source with
  | .ok workflow => return (workflow, ⟨reference, locked.commit, locked.digest⟩)
  | .error error => .error (.parse error)

/-- `expand_call` below `stack`, over the expansion of definitions one level deeper. -/
def expandCall (stack : List String) (expand : Expander Definition) (identities : Identities) (call : Call) :
    Compiled (ReusableFragment × Identities) := do
  let cycle := " -> ".intercalate (stack ++ [call.reference])
  rejectIf (call.reference ∈ stack)
    (.semantic s!"jobs.{call.scope}.uses" s!"reusable workflow call cycle: {cycle}")
  let (workflow, identity) ← resolveCall ext context call.reference call.scope
  expand (identities.insert call.reference identity)
    ⟨workflow, some call.scope, call.inputs, true, some call.inherited⟩

/-- The expansion of a definition with `levels` levels of calls left. -/
def expandDefinition : Nat → List String → Expander Definition
  | 0, _ => expandWith ext settings fun _ call => .error (.semantic s!"jobs.{call.scope}.uses"
      s!"reusable workflow nesting exceeds the configured depth limit of {settings.maxReusableDepth}")
  | levels + 1, stack => expandWith ext settings fun identities call =>
      expandCall ext context stack (expandDefinition levels (stack ++ [call.reference])) identities call

structure ExpandedReusableWorkflows where
  workflow : Ast.Workflow
  identities : List ReusableWorkflowIdentity
  references : List String
  selectionAliases : BTreeMap String (List String)
  reusableDigests : List String

def expandReusableWorkflows (workflow : Ast.Workflow) : Compiled ExpandedReusableWorkflows := do
  validateWorkflowShape workflow settings
  validateDag workflow
  let (fragment, identities) ← expandDefinition ext context settings settings.maxReusableDepth [] ∅
    ⟨workflow, none, ∅, false, none⟩
  forEach context.reusableWorkflows.keys fun reference => rejectIf (reference ∉ identities)
    (.semantic "reusable_workflows" s!"source bundle contains unused workflow `{reference}`")
  let outputs := fragment.publicOutputs.map fun _ target => target.contextPath
  return {
    workflow := { workflow with jobs := fragment.jobs, outputs := outputs }
    identities := identities.values
    references := identities.keys
    selectionAliases := fragment.selectionAliases
    reusableDigests := (identities.values.map (·.digest.asStr)).sort.dedupAdjacent }

end Runtrue.Compiler
