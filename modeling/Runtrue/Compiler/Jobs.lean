import Runtrue.Compiler.Expansion
import Runtrue.Compiler.Steps
import Runtrue.Workflow.Matrix

/-!
# Jobs

`jobs.rs` and `matrix.rs`: a job is planned once for every combination of its matrix, with permissions
bounded by those of the workflow, together with the findings about it. References to images and components
are then replaced by what the lockfile resolves them to.
-/

namespace Runtrue.Compiler

open Fallible

def defaultJobTimeoutMs : U64 := 3600000
def defaultFinalizerTimeoutMs : U64 := 120000
def maxFinalizerTimeoutMs : U64 := 600000

/-! ### Matrices -/

structure MatrixExpansion where
  id : String
  values : Ir.MatrixValues

def expandMatrix (canonical : Ir.ScalarValue → List UInt8) (jobId : String)
    (matrix : BTreeMap String (List Ast.Scalar)) (limit : Nat) : Compiled (List MatrixExpansion) := do
  let axes ← matrix.mapEntries fun axis values => do
    validateIdentifier axis s!"jobs.{jobId}.matrix.{axis}"
    mapEach (convertScalar · s!"jobs.{jobId}.matrix.{axis}") values
  match Ir.expandMatrixValues canonical jobId axes limit with
  | .ok expanded => return expanded.map fun (id, values) => ⟨id, values⟩
  | .error error => .error (.semantic s!"jobs.{jobId}.matrix" error.text)

/-- The loop of `expand_all_matrices`, with the number of jobs so far. -/
def addExpansion (canonical : Ir.ScalarValue → List UInt8) (limit : Nat)
    (state : Nat × BTreeMap String (List MatrixExpansion)) (entry : String × Ast.Job) :
    Compiled (Nat × BTreeMap String (List MatrixExpansion)) := do
  let expanded ← expandMatrix canonical entry.1 entry.2.matrix limit
  let total := state.1 + expanded.length
  rejectIf (total > maxWorkflowJobs)
    (.semantic "jobs" s!"expanded workflow exceeds the {maxWorkflowJobs} job limit")
  return (total, state.2.insert entry.1 expanded)

def expandAllMatrices (canonical : Ir.ScalarValue → List UInt8) (workflow : Ast.Workflow) (limit : Nat) :
    Compiled (BTreeMap String (List MatrixExpansion)) := do
  let (_, expansions) ← foldEach (addExpansion canonical limit) (0, ∅) workflow.jobs.toList
  return expansions

/-! ### Runners -/

def convertTrust : Ast.Trust → Ir.Trust
  | .untrustedOk => .untrustedOk
  | .trustedOnly => .trustedOnly
  | .protectedBranchOnly => .protectedBranchOnly

def convertOs : Ast.OperatingSystem → Ir.OperatingSystem
  | .linux => .linux
  | .windows => .windows
  | .macos => .macos

def convertArch : Ast.Architecture → Ir.Architecture
  | .amd64 => .amd64
  | .arm64 => .arm64

def convertIsolation : Ast.Isolation → Ir.Isolation
  | .wasm => .wasm
  | .oci => .oci
  | .microvm => .microvm
  | .native => .native

/-- An image is given with OCI isolation and only then. -/
def validateRunnerImage (runner : Ast.Runner) (path : String) : Compiled Unit :=
  match runner.isolation, runner.image with
  | .oci, some image => validateExternalReference image s!"{path}.runner.image"
  | .oci, none => .error (.semantic s!"{path}.runner.image"
      "OCI isolation requires an explicit runner image")
  | _, some _ => .error (.semantic s!"{path}.runner.image"
      "runner image is valid only with isolation: oci")
  | _, none => .ok ()

def compileRunner (runner : Ast.Runner) (path : String) : Compiled Ir.RunnerRequirements := do
  let memoryBytes ← parseSize runner.memory s!"{path}.runner.memory"
  rejectIf (memoryBytes = 0)
    (.semantic s!"{path}.runner.memory" "runner memory must be greater than zero")
  let storageBytes ← mapSome (parseSize · s!"{path}.runner.storage") runner.storage
  rejectIf (storageBytes = some 0)
    (.semantic s!"{path}.runner.storage" "runner storage must be greater than zero")
  rejectIf (runner.cpu = 0) (.semantic s!"{path}.runner.cpu" "runner CPU count must be positive")
  return {
    os := convertOs runner.os
    arch := convertArch runner.arch
    isolation := convertIsolation runner.isolation
    image := runner.image
    cpu := runner.cpu
    memoryBytes := memoryBytes
    storageBytes := storageBytes
    region := runner.region
    capabilities := runner.capabilities.sort.dedupAdjacent }

/-! ### Planned jobs -/

variable (ext : Externals) (settings : CompilerSettings)

/-- The permissions that a job asks for; by default all that the workflow has. -/
def requestedPermissions (job : Ast.Job) (globalPermissions : Ir.PermissionSet) :
    Compiled Ir.PermissionSet :=
  match job.permissions with
  | some permissions => convertPermissions ext.sha256 permissions
  | none => .ok globalPermissions

/-- What the loops over steps and over finalizers have planned. -/
structure Planned (α : Type) where
  seen : List String
  done : List α
  risks : List RiskFinding

/-- The findings about a job other than those about its permissions and its steps. -/
def jobRisks (job : Ast.Job) (capabilities : List String) (path : String) : List RiskFinding :=
  flag (job.runner.isolation = .native) (.high "native-execution" s!"{path}.runner.isolation"
    "job requests trusted native host execution") ++
  flag job.environment.isSome (.high "protected-environment" s!"{path}.environment"
    "job targets an environment and requires a privileged-execution decision") ++
  flag (capabilities ≠ []) (.high "runner-capability-request" s!"{path}.runner.capabilities"
    "job requests specialized or privileged runner capabilities")

def addStep (path : String) (permissions : Ir.PermissionSet) (planned : Planned Ir.PlannedStep)
    (entry : Ast.Step × Nat) : Compiled (Planned Ir.PlannedStep) := do
  let (step, index) := entry
  let stepId := step.id.getD s!"step_{index + 1}"
  validateIdentifier stepId s!"{path}.steps[{index}].id"
  rejectIf (stepId ∈ planned.seen)
    (.semantic s!"{path}.steps[{index}].id" s!"duplicate step id `{stepId}`")
  let (step, risks) ← compileStep ext.numbers ext.sha256 settings step stepId index path permissions
  return ⟨stepId :: planned.seen, planned.done ++ [step], planned.risks ++ risks⟩

def addFinalizer (path : String) (permissions : Ir.PermissionSet) (planned : Planned Ir.PlannedFinalizer)
    (entry : Ast.Finalizer × Nat) : Compiled (Planned Ir.PlannedFinalizer) := do
  let (finalizer, index) := entry
  let stepId := finalizer.step.id.getD s!"finalizer_{index + 1}"
  validateIdentifier stepId s!"{path}.finalizers[{index}].id"
  rejectIf (stepId ∈ planned.seen) (.semantic s!"{path}.finalizers[{index}].id"
    s!"duplicate normal/finalizer step id `{stepId}`")
  let (step, risks) ← compileStep ext.numbers ext.sha256 settings finalizer.step stepId index
    s!"{path}.finalizers" permissions
  return ⟨stepId :: planned.seen, planned.done ++ [⟨step, finalizer.required, finalizer.runOnCancel⟩],
    planned.risks ++ risks⟩

def parseTimeout (default : U64) (path : String) : Option String → Compiled U64
  | some timeout => parseDuration timeout path
  | none => .ok default

def compileValueOutput (path : String) (steps : List Ir.PlannedStep) (name source : String) :
    Compiled Ir.JobValueOutput := do
  validateIdentifier name s!"{path}.value-outputs.{name}"
  let (stepId, outputName) ← parseStepOutputPath source s!"{path}.value-outputs.{name}.from"
  rejectIf (¬(steps.find? (·.id = stepId)).any fun step => step.outputs.contains outputName)
    (.semantic s!"{path}.value-outputs.{name}.from"
      "job value output must reference a declared step output")
  return ⟨stepId, outputName⟩

/-- The checks of a job that come before its permissions. -/
def checkJob (job : Ast.Job) (path : String) : Compiled Unit := do
  rejectIf (job.retries > 10) (.semantic s!"{path}.retries" "retries cannot exceed 10")
  rejectIf (job.runner.os ≠ .linux)
    (.semantic s!"{path}.runner.os" "the current compiler supports Linux runners only")
  rejectIf (job.runner.isolation = .native ∧ job.trust = .untrustedOk)
    (.semantic s!"{path}.runner.isolation"
      "native execution requires trust: trusted-only or protected-branch-only")
  validateRunnerImage job.runner path

def compileJob (baseId : String) (job : Ast.Job) (expanded : MatrixExpansion) (needs : List String)
    (globalPermissions : Ir.PermissionSet) (globalVariables : BTreeMap String Ir.ScalarValue) :
    Compiled (Ir.PlannedJob × List RiskFinding) := do
  let path := s!"jobs.{baseId}"
  let condition ← mapSome (normalizeExpression ext.numbers · s!"{path}.if") job.condition
  checkJob job path
  let requested ← requestedPermissions ext job globalPermissions
  let permissions := intersectPermissions globalPermissions requested
  let timeoutMs ← parseTimeout defaultJobTimeoutMs s!"{path}.timeout" job.timeout
  let runner ← compileRunner job.runner path
  let jobVariables ← convertVariables job.vars s!"{path}.vars"
  let services ← mapEach (fun (id, service) => compileService path id service) job.services.toList
  let steps ← foldEach (addStep ext settings path permissions) ⟨[], [], []⟩ job.steps.zipIdx
  let finalizerTimeoutMs ← parseTimeout defaultFinalizerTimeoutMs s!"{path}.finalizer-timeout"
    job.finalizerTimeout
  rejectIf (finalizerTimeoutMs = 0 ∨ finalizerTimeoutMs > maxFinalizerTimeoutMs)
    (.semantic s!"{path}.finalizer-timeout"
      s!"finalizer timeout must be between 1ms and {maxFinalizerTimeoutMs.toNat}ms")
  let finalizers ← foldEach (addFinalizer ext settings path permissions) ⟨steps.seen, [], []⟩
    job.finalizers.zipIdx
  let valueOutputs ← job.valueOutputs.mapEntries
    (compileValueOutput path (steps.done ++ finalizers.done.map (·.step)))
  let outputs ← job.outputs.mapEntries (compileOutput path)
  return ({
    id := expanded.id
    baseId := baseId
    name := job.name.getD baseId
    needs := needs
    matrix := expanded.values
    condition := condition
    trust := convertTrust job.trust
    environment := job.environment
    runner := runner
    permissions := permissions
    timeoutMs := timeoutMs
    retries := job.retries
    concurrency := job.concurrency
    vars := jobVariables.toList.foldl (fun vars entry => vars.insert entry.1 entry.2) globalVariables
    services := services
    steps := steps.done
    finalizers := finalizers.done
    finalizerTimeoutMs := finalizerTimeoutMs
    valueOutputs := valueOutputs
    outputs := outputs },
    collectPermissionRisks permissions path ++ jobRisks job runner.capabilities path ++ steps.risks ++
      finalizers.risks)

end Runtrue.Compiler
