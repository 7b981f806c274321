import Runtrue.Compiler.Permissions

/-!
# Validation of a definition

`validation/*.rs`: the shape of a workflow and the depth-first check of its dependencies. `visit` counts the
recursion down from a bound on its depth: the jobs being visited are different jobs of the workflow.
-/

namespace Runtrue.Compiler

open Fallible

def maxWorkflowJobs : Nat := 1024
def maxStepsPerJob : Nat := 1000

structure CompilerSettings where
  maxMatrixJobs : Nat := 256
  allowUnsafeInterpolation : Bool := false
  maxReusableDepth : Nat := 8
  maxReusableJobs : Nat := 256

/-! ### Dependencies -/

/-- The loop over the needs of a job, with those seen before. -/
def checkDependency (jobs : BTreeMap String Ast.Job) (jobId : String) (seen : List String)
    (dependency : String) : Compiled (List String) := do
  let path := s!"jobs.{jobId}.needs"
  rejectIf (dependency ∉ jobs) (.semantic path s!"unknown dependency `{dependency}`")
  rejectIf (dependency = jobId) (.semantic path "job cannot depend on itself")
  rejectIf (dependency ∈ seen) (.semantic path s!"duplicate dependency `{dependency}`")
  return dependency :: seen

def needsOf (jobs : BTreeMap String Ast.Job) (id : String) : List String :=
  match jobs[id]? with
  | some job => job.needs
  | none => []

/-- The jobs being visited and those visited. -/
abbrev Marks := List String × List String

def visit (jobs : BTreeMap String Ast.Job) : Nat → Marks → String → Compiled Marks
  | 0, _, id => .error (.semantic s!"jobs.{id}.needs" s!"dependency cycle includes `{id}`")
  | depth + 1, (visiting, visited), id =>
    if id ∈ visited then .ok (visiting, visited)
    else if id ∈ visiting then
      .error (.semantic s!"jobs.{id}.needs" s!"dependency cycle includes `{id}`")
    else do
      let (visiting, visited) ← foldEach (visit jobs depth) (id :: visiting, visited) (needsOf jobs id)
      return (visiting.erase id, id :: visited)

def validateDag (workflow : Ast.Workflow) : Compiled Unit := do
  forEach workflow.jobs.toList fun (jobId, job) => do
    let _ ← foldEach (checkDependency workflow.jobs jobId) [] job.needs
  let _ ← foldEach (visit workflow.jobs (workflow.jobs.size + 1)) ([], []) workflow.jobs.keys

/-! ### Inputs -/

def scalarMatchesInput : Ast.Scalar → Ast.InputType → Bool
  | .string _, .string | .string _, .choice => true
  | .boolean _, .boolean | .boolean _, .choice => true
  | .integer _, .integer | .integer _, .number | .integer _, .choice => true
  | .number _, .number | .number _, .choice => true
  | _, _ => false

def validateInputDefault (input : Ast.InputDefinition) (path : String) (default : Ast.Scalar) :
    Compiled Unit := do
  rejectIf (¬default.isFinite) (.semantic path "numeric input defaults must be finite")
  rejectIf (¬scalarMatchesInput default input.kind)
    (.semantic path "default value does not match the declared input type")
  rejectIf (input.kind = .choice ∧ ¬input.options.any (·.eqv default))
    (.semantic path "choice default must be one of the declared options")

def validateInputDefinitions (inputs : BTreeMap String Ast.InputDefinition) (path : String) :
    Compiled Unit :=
  forEach inputs.toList fun (name, input) => do
    validateIdentifier name s!"{path}.{name}"
    rejectIf (input.kind = .choice ∧ input.options = [])
      (.semantic s!"{path}.{name}.options" "choice input must declare at least one option")
    rejectIf (input.options.any fun value => !value.isFinite)
      (.semantic s!"{path}.{name}.options" "numeric input options must be finite")
    match input.default with
    | none => return ()
    | some default => validateInputDefault input s!"{path}.{name}.default" default

def validateInputs (workflow : Ast.Workflow) : Compiled Unit := do
  validateInputDefinitions workflow.inputs "inputs"
  match workflow.triggers.manual with
  | none => return ()
  | some manual => validateInputDefinitions manual.inputs "on.manual.inputs"

/-! ### Jobs -/

def validateReusableCallShape (jobId : String) (job : Ast.Job) : Compiled Unit := do
  rejectIf (job.steps ≠ [] ∨ job.trust ≠ .untrustedOk ∨ job.environment.isSome ∨ job.runner ≠ {} ∨
      job.permissions.isSome ∨ job.timeout.isSome ∨ job.retries ≠ 0 ∨ ¬job.matrix.isEmpty ∨
      job.dynamicMatrix.isSome ∨ job.concurrency.isSome ∨ ¬job.vars.isEmpty ∨ ¬job.services.isEmpty ∨
      job.finalizers ≠ [] ∨ job.finalizerTimeout.isSome ∨ ¬job.valueOutputs.isEmpty ∨ ¬job.outputs.isEmpty)
    (.semantic s!"jobs.{jobId}" "a reusable workflow call may define only name, needs, if, uses, and with")
  forEach job.inputs.toList fun (name, value) => do
    validateIdentifier name s!"jobs.{jobId}.with.{name}"
    rejectIf (¬value.isFinite)
      (.semantic s!"jobs.{jobId}.with.{name}" "numeric call inputs must be finite")

/-- The step or finalizer with an explicit id, and whether it must run for the job to succeed. -/
def findSourceStep (job : Ast.Job) (stepId : String) : Option (Ast.Step × Bool) :=
  ((job.steps.find? fun step => step.id = some stepId).map (·, true)).or
    ((job.finalizers.find? fun finalizer => finalizer.step.id = some stepId).map fun finalizer =>
      (finalizer.step, finalizer.required))

def validateDynamicMatrix (workflow : Ast.Workflow) (settings : CompilerSettings) (jobId : String)
    (job : Ast.Job) (dynamic : Ast.DynamicMatrixDefinition) : Compiled Unit := do
  let path := s!"jobs.{jobId}.dynamic-matrix.from"
  rejectIf (dynamic.maxJobs = 0 ∨ dynamic.maxJobs > settings.maxMatrixJobs)
    (.semantic s!"jobs.{jobId}.dynamic-matrix.max-jobs"
      s!"dynamic matrix limit must be between 1 and the configured {settings.maxMatrixJobs} job limit")
  let (producer, output) ← parseDynamicMatrixPath dynamic.source path
  rejectIf (producer ∉ job.needs)
    (.semantic path "dynamic matrix producer must be an explicit job dependency")
  let producerJob ← okOr workflow.jobs[producer]?
    (.semantic path s!"unknown dynamic matrix producer `{producer}`")
  rejectIf (¬producerJob.matrix.isEmpty ∨ producerJob.dynamicMatrix.isSome)
    (.semantic path "dynamic matrix producer must be one non-matrix signed job")
  let projected ← okOr producerJob.valueOutputs[output]?
    (.semantic path "dynamic matrix source is not a declared producer job value output")
  let (stepId, stepOutput) ← parseStepOutputPath projected s!"jobs.{producer}.value-outputs.{output}.from"
  let sourceStep := findSourceStep producerJob stepId
  rejectIf ((sourceStep.bind fun (step, _) => step.outputs[stepOutput]?) ≠ some ⟨.json, true⟩)
    (.semantic path "dynamic matrix source must be a declared required JSON structured output")
  rejectIf (¬sourceStep.any fun (step, requiredExecution) =>
      requiredExecution && step.condition.isNone && !step.continueOnError)
    (.semantic path ("dynamic matrix source step must be unconditional and execution-critical so producer " ++
      "success guarantees the output"))

def validateJobShape (workflow : Ast.Workflow) (settings : CompilerSettings) (jobId : String)
    (job : Ast.Job) : Compiled Unit := do
  validateIdentifier jobId s!"jobs.{jobId}"
  rejectIf (job.dynamicMatrix.isSome ∧ ¬job.matrix.isEmpty)
    (.semantic s!"jobs.{jobId}.dynamic-matrix" "dynamic-matrix is mutually exclusive with static matrix")
  match job.dynamicMatrix with
  | none => pure ()
  | some dynamic => validateDynamicMatrix workflow settings jobId job dynamic
  if job.uses.isSome then validateReusableCallShape jobId job
  else do
    rejectIf (¬job.inputs.isEmpty)
      (.semantic s!"jobs.{jobId}.with" "`with` is valid only for reusable workflow calls")
    rejectIf (job.steps = [])
      (.semantic s!"jobs.{jobId}.steps" "executable job must contain at least one step")
  rejectIf (job.steps.length + job.finalizers.length > maxStepsPerJob)
    (.semantic s!"jobs.{jobId}.steps" s!"job steps plus finalizers exceed the {maxStepsPerJob} limit")
  validateVariables job.vars s!"jobs.{jobId}.vars"
  match job.permissions with
  | none => return ()
  | some permissions => validatePermissions permissions s!"jobs.{jobId}.permissions"

def validateSettings (settings : CompilerSettings) : Compiled Unit := do
  rejectIf (settings.maxMatrixJobs = 0 ∨ settings.maxMatrixJobs > maxWorkflowJobs)
    (.semantic "compiler.max_matrix_jobs" s!"matrix limit must be between 1 and {maxWorkflowJobs}")
  rejectIf (settings.maxReusableDepth = 0 ∨ settings.maxReusableDepth > 32)
    (.semantic "compiler.max_reusable_depth" "reusable workflow depth limit must be between 1 and 32")
  rejectIf (settings.maxReusableJobs = 0 ∨ settings.maxReusableJobs > maxWorkflowJobs)
    (.semantic "compiler.max_reusable_jobs"
      s!"reusable workflow fan-out limit must be between 1 and {maxWorkflowJobs}")

def validateWorkflowShape (workflow : Ast.Workflow) (settings : CompilerSettings) : Compiled Unit := do
  rejectIf workflow.jobs.isEmpty (.semantic "jobs" "workflow must contain at least one job")
  rejectIf (workflow.jobs.size > maxWorkflowJobs)
    (.semantic "jobs" s!"workflow exceeds the {maxWorkflowJobs} job limit")
  validateSettings settings
  rejectIf (workflow.name.any fun name => name = "" ∨ name.length > 200)
    (.semantic "name" "workflow name must contain 1 to 200 characters")
  validatePermissions workflow.permissions "permissions"
  validateVariables workflow.vars "vars"
  validateInputs workflow
  forEach workflow.outputs.toList fun (name, source) => do
    validateIdentifier name s!"outputs.{name}"
    let _ ← parseWorkflowOutputPath source s!"outputs.{name}.from"
  forEach workflow.jobs.toList fun (jobId, job) => validateJobShape workflow settings jobId job
  forEach workflow.jobs.toList fun (jobId, job) =>
    forEach job.needs fun dependency =>
      rejectIf (workflow.jobs[dependency]?.any fun needed => needed.dynamicMatrix.isSome)
        (.semantic s!"jobs.{jobId}.needs"
          "this version supports dynamic matrices only for terminal jobs")

end Runtrue.Compiler
