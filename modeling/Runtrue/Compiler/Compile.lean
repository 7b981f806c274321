import Runtrue.Compiler.Approval
import Runtrue.Compiler.Jobs
import Runtrue.Compiler.Resolve

/-!
# Compilation

`compiler.rs`: a workflow is expanded, its jobs are planned, references are resolved, a job may be selected,
and what is left becomes a capsule with the approval it requires.
-/

namespace Runtrue.Compiler

open Fallible

def compilerVersion : String := "0.1.14"

/-! ### Parity -/

/-- The loop of `expected_parity`. -/
def parityOf : Ir.ParityGrade → List Ir.PlannedJob → Ir.ParityGrade
  | parity, [] => parity
  | parity, job :: jobs =>
    if job.environment.isSome then .dNonReplayable
    else if job.runner.isolation = .native then parityOf .cPlatformSpecific jobs
    else if job.runner.isolation = .microvm ∧ parity = .aExact then parityOf .bEnvironmentEquivalent jobs
    else parityOf parity jobs

def expectedParity (jobs : List Ir.PlannedJob) : Ir.ParityGrade := parityOf .aExact jobs

/-! ### Brokered automation -/

def isProviderToken (secret : SecretReference) : Bool :=
  secret.name = "runtrue-scm-provider-token" && secret.purpose = some "provider-api"

def isStatusAutomation (scm : Ir.ScmPermissions) : Bool :=
  scm.statuses = .write && scm.contents ≠ .write && scm.issues = .deny && scm.pullRequests = .deny &&
    scm.checks = .deny

def isRepositoryAutomation (scm : Ir.ScmPermissions) : Bool :=
  scm.contents = .write && scm.issues = .write && scm.pullRequests = .write && scm.checks = .read &&
    scm.statuses = .deny

def isBrokeredScmAutomationJob (job : Ir.PlannedJob) : Bool :=
  (isStatusAutomation job.permissions.scm || isRepositoryAutomation job.permissions.scm) &&
    !job.permissions.secrets.isEmpty && job.permissions.secrets.all isProviderToken &&
    job.steps.all fun step => step.capabilities.secrets.all isProviderToken

def brokeredCodes : List String :=
  ["scm-contents-write", "scm-issues-write", "scm-pull-requests-write", "scm-statuses-write",
    "secret-access", "step-secret-access"]

/-- The conditions under which the jobs only use the brokered token of the source-control provider. -/
def brokeredScmAutomation (context : CompileContext) (risks : List RiskFinding) (jobs : List Ir.PlannedJob) :
    Bool :=
  !context.workflowChanged && context.normalizedEventDigest.isSome && context.scmApiUrl.isSome &&
    !risks.isEmpty && (risks.all fun finding => finding.code ∈ brokeredCodes) &&
    jobs.all isBrokeredScmAutomationJob

/-! ### Plans -/

def normalizeGit (trigger : Ast.GitTrigger) : Ast.GitTrigger :=
  ⟨trigger.branches.sort.dedupAdjacent, trigger.branchesIgnore.sort.dedupAdjacent,
    trigger.paths.sort.dedupAdjacent, trigger.pathsIgnore.sort.dedupAdjacent⟩

def scheduleLe (left right : Ast.ScheduleTrigger) : Bool :=
  (compare left.cron right.cron).then (compare left.timezone right.timezone) |>.isLE

def normalizeTriggers (triggers : Ast.Triggers) : Ast.Triggers :=
  { triggers with
    push := triggers.push.map normalizeGit
    pullRequest := triggers.pullRequest.map normalizeGit
    schedule := (triggers.schedule.insertionSort fun left right => scheduleLe left right).dedupAdjacent }

/-- The planned jobs, the templates and the findings of some source jobs. -/
structure Plan where
  jobs : List Ir.PlannedJob
  dynamicJobs : List Ir.DynamicJobTemplate
  risks : List RiskFinding

def expandedNeeds (expansions : BTreeMap String (List MatrixExpansion)) (job : Ast.Job) : List String :=
  (job.needs.flatMap fun needed => (expansions[needed]?.getD []).map (·.id)).sort

variable (ext : Externals) (canonical : Canonical) (settings : CompilerSettings)

/-- The plan of one source job: a template, or a job for every combination of its matrix. -/
def planJob (permissions : Ir.PermissionSet) (vars : BTreeMap String Ir.ScalarValue)
    (expansions : BTreeMap String (List MatrixExpansion)) (entry : String × Ast.Job) : Compiled Plan := do
  let (baseId, job) := entry
  let needs := expandedNeeds expansions job
  match job.dynamicMatrix with
  | some dynamic => do
    let (template, risks) ← compileJob ext settings baseId job ⟨baseId, ∅⟩ needs permissions vars
    let (producer, output) ← parseDynamicMatrixPath dynamic.source s!"jobs.{baseId}.dynamic-matrix.from"
    return ⟨[], [⟨baseId, ⟨producer, output, dynamic.maxJobs⟩, template⟩], risks⟩
  | none => do
    let planned ← mapEach (fun expanded => compileJob ext settings baseId job expanded needs permissions vars)
      (expansions[baseId]?.getD [])
    return ⟨planned.map Prod.fst, [], planned.flatMap Prod.snd⟩

def planJobs (workflow : Ast.Workflow) (permissions : Ir.PermissionSet)
    (vars : BTreeMap String Ir.ScalarValue) : Compiled Plan := do
  let expansions ← expandAllMatrices canonical.scalar workflow settings.maxMatrixJobs
  let plans ← mapEach (planJob ext settings permissions vars expansions) workflow.jobs.toList
  let jobs := plans.flatMap (·.jobs)
  let dynamicJobs := plans.flatMap (·.dynamicJobs)
  rejectIf (jobs.length + (dynamicJobs.map (·.source.maximumJobs)).sum > maxWorkflowJobs)
    (.semantic "jobs"
      s!"static jobs plus bounded dynamic expansion exceed the {maxWorkflowJobs} job limit")
  return {
    jobs := jobs.insertionSort fun left right => (compare left.id right.id).isLE
    dynamicJobs := dynamicJobs.insertionSort fun left right => (compare left.id right.id).isLE
    risks := plans.flatMap (·.risks) }

/-! ### Selection -/

/-- The finding is about one of the source jobs. -/
def isAbout (bases : List String) (finding : RiskFinding) : Bool :=
  bases.any fun base => Text.startsWith s!"jobs.{base}." finding.path

/-- A selection drops static jobs, and the findings about source jobs without a static job left. -/
def selectPlan (context : CompileContext) (aliases : BTreeMap String (List String))
    (plan : Plan) : Compiled Plan :=
  match context.selectedJob with
  | none => .ok plan
  | some selected => do
    let jobs ← selectJobClosure plan.jobs selected aliases
    return { plan with jobs := jobs, risks := plan.risks.filter (isAbout (jobs.map (·.baseId))) }

/-! ### The capsule -/

def scmContext (context : CompileContext) : Compiled (Option Ir.ScmRuntimeContext) :=
  match context.normalizedEventDigest.isSome, context.scmApiUrl with
  | true, some apiUrl => do
    let repository ← okOr ((context.event.pointer ["repository", "full_name"]).bind Json.asStr)
      (.semantic "event.repository.full_name"
        "authenticated SCM event is missing its repository identity")
    let provider ← okOr ((context.event.get "provider").bind Json.asStr)
      (.semantic "event.provider" "authenticated SCM event is missing its provider identity")
    return some ⟨provider, apiUrl, repository⟩
  | true, none => .ok none
  | false, some _ => .error (.semantic "scm-api-url"
      "SCM runtime context requires an authenticated normalized event")
  | false, none => .ok none

def approvalRequirements (context : CompileContext) (plan : Plan) : Ir.ApprovalRequirements where
  workflowDefinition := context.workflowChanged
  privilegedExecution := !plan.risks.isEmpty &&
    !brokeredScmAutomation context plan.risks (plan.jobs ++ plan.dynamicJobs.map (·.template))
  reasons := (plan.risks.map (·.code)).sort.dedupAdjacent

structure Compilation where
  capsule : Ir.ExecutionCapsule
  triggers : Ast.Triggers
  capsuleDigest : ContentDigest
  approvalSubject : ApprovalSubject
  approvalSubjectDigest : ContentDigest
  riskReport : RiskReport

/-- The digest of the meaning of a workflow, before references are resolved. -/
def workflowDigest (expanded : ExpandedReusableWorkflows) (name : String) (vars : BTreeMap String Ir.ScalarValue)
    (permissions : Ir.PermissionSet) (plan : Plan) : ContentDigest :=
  ext.sha256 (canonical.semantic {
    version := expanded.workflow.version
    name := name
    triggers := normalizeTriggers expanded.workflow.triggers
    inputs := expanded.workflow.inputs
    outputs := expanded.workflow.outputs
    vars := vars
    permissions := permissions
    jobs := plan.jobs
    dynamicJobs := plan.dynamicJobs
    reusableWorkflows := expanded.identities
    expectedParity := expectedParity (plan.jobs ++ plan.dynamicJobs.map (·.template)) })

/-- `compile` has no source snapshot; `compile_with_source_snapshot` has one. -/
def compileInner (workflow : Ast.Workflow) (context : CompileContext)
    (sourceTreeDigest : Option ContentDigest) : Compiled Compilation := do
  let expanded ← expandReusableWorkflows ext context settings workflow
  let workflow := expanded.workflow
  validateWorkflowShape workflow settings
  validateDag workflow
  let policyVersionIds := context.policyVersionIds.sort.dedupAdjacent
  let permissions ← convertPermissions ext.sha256 workflow.permissions
  let vars ← convertVariables workflow.vars "vars"
  let planned ← planJobs ext canonical settings workflow permissions vars
  let name := workflow.name.getD "workflow"
  let resolved ← resolveExternalReferences canonical.lock planned.jobs planned.dynamicJobs context.lockfile
    expanded.references
  let selected ← selectPlan context expanded.selectionAliases
    ⟨resolved.jobs, resolved.dynamicJobs, planned.risks⟩
  let plan : Plan := { selected with risks := selected.risks.sort.dedupAdjacent }
  let eventText := canonical.event context.event
  let scm ← scmContext context
  let eventContext ← projectEventContext ext.numbers context.event plan.jobs
  let capsule : Ir.ExecutionCapsule := {
    schemaVersion := Ir.capsuleSchemaVersion
    engineCompatibilityVersion := Ir.engineCompatibilityVersion
    compilerVersion := compilerVersion
    workflow := {
      name := name
      digest := workflowDigest ext canonical expanded name vars permissions planned
      sourcePath := context.workflowPath }
    context := {
      sourceCommit := context.sourceCommit
      sourceTreeDigest := sourceTreeDigest
      baseCommit := context.baseCommit
      sourceTrust := context.sourceTrust
      normalizedEventDigest := context.normalizedEventDigest.getD (ext.sha256 (Text.bytes eventText))
      normalizedEventJson := context.normalizedEventDigest.map fun _ => eventText
      scm := scm
      eventContext := eventContext
      lockfileDigest := resolved.lockfileDigest
      workflowFrontend := context.workflowFrontend
      policyVersionIds := policyVersionIds }
    vars := vars
    permissions := permissions
    jobs := plan.jobs
    dynamicJobs := plan.dynamicJobs
    approval := approvalRequirements context plan
    expectedParity := expectedParity (plan.jobs ++ plan.dynamicJobs.map (·.template)) }
  let capsuleDigest := ext.sha256 (canonical.capsule capsule)
  let subject := approvalSubject ext canonical capsule capsuleDigest context expanded.reusableDigests
  return {
    capsule := capsule
    triggers := normalizeTriggers workflow.triggers
    capsuleDigest := capsuleDigest
    approvalSubject := subject
    approvalSubjectDigest := ext.sha256 (canonical.approval subject)
    riskReport := .fromFindings plan.risks }

end Runtrue.Compiler
