import Runtrue.Compiler.Bindings

/-!
# Lockfile resolution and job selection

`resolve_external_references` of `jobs.rs`, `select_job_closure` and `project_event_context` of
`reusable/rewrite.rs`: what happens to planned jobs before they become a capsule. A resolved reference that
the source expects to be there is an error here.
-/

namespace Runtrue.Compiler

open Fallible Lock

/-! ### References -/

def osText : Ir.OperatingSystem → String
  | .linux => "linux"
  | .windows => "windows"
  | .macos => "macos"

def archText : Ir.Architecture → String
  | .amd64 => "amd64"
  | .arm64 => "arm64"

def platformOf (job : Ir.PlannedJob) : String :=
  let os := osText job.runner.os
  let arch := archText job.runner.arch
  s!"{os}/{arch}"

def isImmutableImageReference (reference : String) : Bool :=
  match Text.rsplitOnce '@' reference with
  | some (repository, digest) => repository ≠ "" && isDigestText digest
  | none => false

/-- The images of a job that a lockfile has to resolve. -/
def requiredImages (job : Ir.PlannedJob) : List ImageRequirement :=
  ((job.runner.image.toList ++ job.services.map (·.image)).filter (!isImmutableImageReference ·)).map
    fun image => ⟨image, platformOf job⟩

def requiredComponent (step : Ir.PlannedStep) : Option String :=
  match step.action with
  | .component reference => some reference
  | _ => none

def requirementsOf (jobs : List Ir.PlannedJob) (references : List String) : LockRequirements where
  components := jobs.flatMap fun job => job.allSteps.filterMap requiredComponent
  images := jobs.flatMap requiredImages
  workflows := references

def resolveImage (resolved : ResolvedLock) (platform image : String) : Compiled String :=
  if isImmutableImageReference image then .ok image
  else okOr (resolved.image image platform)
    (.semantic ".runtrue.lock" "all image requirements were resolved")

def resolveAction (resolved : ResolvedLock) : Ir.StepAction → Compiled Ir.StepAction
  | .component reference => do
    return .component (← okOr (resolved.component reference)
      (.semantic ".runtrue.lock" "all component requirements were resolved"))
  | action => .ok action

def resolveStep (resolved : ResolvedLock) (step : Ir.PlannedStep) : Compiled Ir.PlannedStep := do
  let action ← resolveAction resolved step.action
  return { step with action := action }

def resolveFinalizer (resolved : ResolvedLock) (finalizer : Ir.PlannedFinalizer) :
    Compiled Ir.PlannedFinalizer := do
  let step ← resolveStep resolved finalizer.step
  return { finalizer with step := step }

def resolveService (resolved : ResolvedLock) (platform : String) (service : Ir.PlannedService) :
    Compiled Ir.PlannedService := do
  let image ← resolveImage resolved platform service.image
  return { service with image := image }

def resolveJob (resolved : ResolvedLock) (job : Ir.PlannedJob) : Compiled Ir.PlannedJob := do
  let image ← mapSome (resolveImage resolved (platformOf job)) job.runner.image
  let services ← mapEach (resolveService resolved (platformOf job)) job.services
  let steps ← mapEach (resolveStep resolved) job.steps
  let finalizers ← mapEach (resolveFinalizer resolved) job.finalizers
  return { job with
    runner := { job.runner with image := image }
    services := services
    steps := steps
    finalizers := finalizers }

def resolveTemplate (resolved : ResolvedLock) (template : Ir.DynamicJobTemplate) :
    Compiled Ir.DynamicJobTemplate := do
  let job ← resolveJob resolved template.template
  return { template with template := job }

/-- `LockFile::resolve` with its errors among those of the compiler. -/
def resolveLock (lockDigest : LockFile → Except LockError ContentDigest) (lockfile : LockFile)
    (requirements : LockRequirements) : Compiled ResolvedLock :=
  match lockfile.resolve lockDigest requirements with
  | .ok resolved => .ok resolved
  | .error error => .error (.lock error)

structure Resolved where
  jobs : List Ir.PlannedJob
  dynamicJobs : List Ir.DynamicJobTemplate
  lockfileDigest : Option ContentDigest

def resolveExternalReferences (lockDigest : LockFile → Except LockError ContentDigest)
    (jobs : List Ir.PlannedJob) (dynamicJobs : List Ir.DynamicJobTemplate) (lockfile : Option LockFile)
    (references : List String) : Compiled Resolved := do
  let requirements := requirementsOf (jobs ++ dynamicJobs.map (·.template)) references
  match lockfile with
  | none => do
    rejectIf (¬requirements.isEmpty) (.semantic ".runtrue.lock"
      ("a validated lockfile is required for every component, job/service image, or reusable workflow " ++
        "reference"))
    return ⟨jobs, dynamicJobs, none⟩
  | some lockfile => do
    let resolved ← resolveLock lockDigest lockfile requirements
    let jobs ← mapEach (resolveJob resolved) jobs
    let dynamicJobs ← mapEach (resolveTemplate resolved) dynamicJobs
    return ⟨jobs, dynamicJobs, some resolved.digest⟩

/-! ### Selection -/

/-- The ids of the jobs with this id or base id. -/
def jobsNamed (jobs : List Ir.PlannedJob) (name : String) : List String :=
  (jobs.filter fun job => job.id = name ∨ job.baseId = name).map (·.id)

def selectedRoots (jobs : List Ir.PlannedJob) (selected : String) (aliases : BTreeMap String (List String)) :
    List String :=
  jobsNamed jobs selected ++ (aliases[selected]?.getD []).flatMap (jobsNamed jobs)

/-- The loop over the needs of a job: a job not retained before is, and is visited later. -/
def retain (state : List String × List String) (dependency : String) : List String × List String :=
  if dependency ∈ state.1 then state else (dependency :: state.1, dependency :: state.2)

/-- The loop over the pending jobs, newest first. Every job is pending at most once, so `fuel` is the number of
jobs. -/
def closeNeeds (jobs : List Ir.PlannedJob) : Nat → List String × List String → Compiled (List String)
  | _, (retained, []) => .ok retained
  | 0, (_, _ :: _) => .error (.semantic "selected_job" "a job is pending twice")
  | fuel + 1, (retained, id :: pending) => do
    let job ← okOr (jobs.reverse.find? (·.id = id)) (.semantic "selected_job" "no entry found for key")
    closeNeeds jobs fuel (job.needs.foldl retain (retained, pending))

def selectJobClosure (jobs : List Ir.PlannedJob) (selected : String) (aliases : BTreeMap String (List String)) :
    Compiled (List Ir.PlannedJob) := do
  let roots := (selectedRoots jobs selected aliases).sort.dedupAdjacent
  rejectIf (roots = []) (.semantic "selected_job" s!"workflow has no job named `{selected}`")
  let retained ← closeNeeds jobs jobs.length (roots, roots.reverse)
  return jobs.filter (·.id ∈ retained)

/-! ### The event context -/

def isEventReference (path : String) : Bool := path = "event" || Text.startsWith "event." path

def conditionEventReferences (numbers : Expression.NumberText) (condition : Option String) :
    Compiled (List String) :=
  match condition with
  | none => .ok []
  | some condition => do
    let expression ← parseCondition numbers condition "condition"
    return expression.contextReferences.filter isEventReference

def bindingEventReference : Ir.ValueBinding → Option String
  | .context path => if Text.startsWith "event." path then some path else none
  | .literal _ => none

def actionArguments : Ir.StepAction → List Ir.ValueBinding
  | .command _ arguments => arguments
  | _ => []

def stepEventReferences (numbers : Expression.NumberText) (step : Ir.PlannedStep) :
    Compiled (List String) := do
  let condition ← conditionEventReferences numbers step.condition
  let bindings := step.environment.values ++ step.inputs.values ++ actionArguments step.action
  return condition ++ bindings.filterMap bindingEventReference

/-- Finalizers are not read here. -/
def jobEventReferences (numbers : Expression.NumberText) (job : Ir.PlannedJob) : Compiled (List String) := do
  let condition ← conditionEventReferences numbers job.condition
  let services := job.services.flatMap fun service =>
    service.environment.values.filterMap bindingEventReference
  let steps ← mapEach (stepEventReferences numbers) job.steps
  return condition ++ services ++ steps.flatten

def lookupEventValue (event : Json) (path : String) : Option Json :=
  (Text.stripStart "event." path).bind fun rest => event.pointer (Text.split '.' rest)

def eventScalar (value : Json) (path : String) : Compiled Ir.ScalarValue :=
  match value with
  | .string value => .ok (.string value)
  | .bool value => .ok (.boolean value)
  | .number (.float value) => .ok (.number (if value.isZero then F64.zero else value))
  | .number value => do
    return .integer (← okOr value.asI64
      (.semantic path "event integer is outside the supported signed 64-bit range"))
  | _ => .error (.semantic path "event bindings and conditions require a scalar value")

def projectEventReference (event : Json) (path : String) : Compiled (String × Ir.ScalarValue) := do
  let value ← okOr (lookupEventValue event path)
    (.semantic "event" s!"workflow references unavailable event value `{path}`")
  let scalar ← eventScalar value path
  return (path, scalar)

def projectEventContext (numbers : Expression.NumberText) (event : Json) (jobs : List Ir.PlannedJob) :
    Compiled (BTreeMap String Ir.ScalarValue) := do
  let references ← mapEach (jobEventReferences numbers) jobs
  let projected ← mapEach (projectEventReference event) references.flatten.sort.dedupAdjacent
  return .ofList projected

end Runtrue.Compiler
