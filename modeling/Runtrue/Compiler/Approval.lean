import Runtrue.Compiler.Expansion
import Runtrue.Compiler.Risk

/-!
# What an approval is about

`approval_subject` of `jobs.rs` with the types of `context.rs`: everything about a capsule that an approval
of it covers. `Canonical` has the canonical texts of the values that are digested.
-/

namespace Runtrue.Compiler

structure SemanticWorkflow where
  version : U32
  name : String
  triggers : Ast.Triggers
  inputs : BTreeMap String Ast.InputDefinition
  outputs : BTreeMap String String
  vars : BTreeMap String Ir.ScalarValue
  permissions : Ir.PermissionSet
  jobs : List Ir.PlannedJob
  dynamicJobs : List Ir.DynamicJobTemplate
  reusableWorkflows : List ReusableWorkflowIdentity
  expectedParity : Ir.ParityGrade

structure RunnerApprovalProfile where
  os : Ir.OperatingSystem
  arch : Ir.Architecture
  isolationFloor : Ir.Isolation
  cpu : U16
  memoryBytes : U64
  storageBytes : Option U64
  region : Option String
  capabilities : List String
deriving DecidableEq, Ord

structure ApprovalSubject where
  subjectVersion : String
  authorizationReady : Bool
  installationId : String
  tenantId : String
  repositoryId : String
  sourceCommit : String
  sourceTreeDigest : Option ContentDigest
  baseCommit : Option String
  sourceTrust : Ir.SourceTrust
  normalizedEventDigest : ContentDigest
  canonicalWorkflowDigest : ContentDigest
  executionCapsuleDigest : ContentDigest
  lockfileDigest : Option ContentDigest
  resolvedActionDigests : List String
  resolvedImageDigests : List String
  reusableWorkflowDigests : List String
  workflowFrontend : Option Ir.WorkflowFrontendProvenance
  permissionSetDigest : ContentDigest
  secretMetadataIds : List String
  variableSnapshotDigest : ContentDigest
  networkPolicyDigest : ContentDigest
  cachePolicyDigest : ContentDigest
  artifactPolicyDigest : ContentDigest
  runnerProfiles : List RunnerApprovalProfile
  environmentIds : List String
  deploymentTargetDigest : Option ContentDigest
  policyVersionIds : List String
  engineCompatibilityVersion : String
  expirationBoundary : Option String

/-! ### Snapshots -/

abbrev PermissionSnapshot := String × Ir.PermissionSet × List (String × Ir.StepCapabilitySet)
abbrev VariableSnapshot := String × BTreeMap String Ir.ScalarValue × BTreeMap String Ir.ScalarValue
abbrev NetworkSnapshot := String × Ir.NetworkPermission × List (String × Ir.NetworkPermission)
abbrev CacheSnapshot := String × Ir.CacheRead × Ir.CacheWrite ×
  List (String × Ir.CacheRead × Ir.CacheWrite × Option Ir.CacheDeclaration)
abbrev ArtifactSnapshot := String × Ir.Access × BTreeMap String Ir.ArtifactOutput × List (String × Ir.Access)

def permissionSnapshot (job : Ir.PlannedJob) : PermissionSnapshot :=
  (job.id, job.permissions, job.allSteps.map fun step => (step.id, step.capabilities))

def variableSnapshot (job : Ir.PlannedJob) : VariableSnapshot := (job.id, job.vars, job.matrix)

def networkSnapshot (job : Ir.PlannedJob) : NetworkSnapshot :=
  (job.id, job.permissions.network, job.allSteps.map fun step => (step.id, step.capabilities.network))

def cacheSnapshot (job : Ir.PlannedJob) : CacheSnapshot :=
  (job.id, job.permissions.cacheRead, job.permissions.cacheWrite, job.allSteps.map fun step =>
    (step.id, step.capabilities.cacheRead, step.capabilities.cacheWrite, step.cache))

def artifactSnapshot (job : Ir.PlannedJob) : ArtifactSnapshot :=
  (job.id, job.permissions.artifacts, job.outputs, job.allSteps.map fun step =>
    (step.id, step.capabilities.artifacts))

/-- Canonical JSON texts, and the digest of a lockfile. -/
structure Canonical where
  scalar : Ir.ScalarValue → List UInt8
  event : Json → String
  semantic : SemanticWorkflow → List UInt8
  capsule : Ir.ExecutionCapsule → List UInt8
  permissions : Ir.PermissionSet × List PermissionSnapshot → List UInt8
  vars : BTreeMap String Ir.ScalarValue × List VariableSnapshot → List UInt8
  network : List NetworkSnapshot → List UInt8
  cache : List CacheSnapshot → List UInt8
  artifacts : List ArtifactSnapshot → List UInt8
  approval : ApprovalSubject → List UInt8
  lock : Lock.LockFile → Except Lock.LockError ContentDigest

/-! ### The subject -/

/-- What follows the last `@` of a reference. -/
def referenceDigest (reference : String) : String :=
  match Text.rsplitOnce '@' reference with
  | some (_, digest) => digest
  | none => reference

def actionDigest (step : Ir.PlannedStep) : Option String :=
  match step.action with
  | .component reference => some (referenceDigest reference)
  | _ => none

def jobImages (job : Ir.PlannedJob) : List String :=
  (job.runner.image.toList ++ job.services.map (·.image)).map referenceDigest

def jobSecrets (job : Ir.PlannedJob) : List String :=
  (job.allSteps.flatMap fun step => step.capabilities.secrets.map (·.metadataId)) ++
    job.permissions.secrets.map (·.metadataId)

def runnerProfile (job : Ir.PlannedJob) : RunnerApprovalProfile where
  os := job.runner.os
  arch := job.runner.arch
  isolationFloor := job.runner.isolation
  cpu := job.runner.cpu
  memoryBytes := job.runner.memoryBytes
  storageBytes := job.runner.storageBytes
  region := job.runner.region
  capabilities := job.runner.capabilities.sort

def environmentId (sha256 : List UInt8 → ContentDigest) (environment : String) : String :=
  s!"local:{(sha256 (Text.bytes environment)).asStr}"

def approvalSubject (ext : Externals) (canonical : Canonical) (capsule : Ir.ExecutionCapsule)
    (capsuleDigest : ContentDigest) (context : CompileContext) (reusableWorkflowDigests : List String) :
    ApprovalSubject :=
  let jobs := capsule.allJobs
  { subjectVersion := "phase0-local-v1"
    authorizationReady := false
    installationId := context.installationId
    tenantId := context.tenantId
    repositoryId := context.repositoryId
    sourceCommit := capsule.context.sourceCommit
    sourceTreeDigest := capsule.context.sourceTreeDigest
    baseCommit := capsule.context.baseCommit
    sourceTrust := capsule.context.sourceTrust
    normalizedEventDigest := capsule.context.normalizedEventDigest
    canonicalWorkflowDigest := capsule.workflow.digest
    executionCapsuleDigest := capsuleDigest
    lockfileDigest := capsule.context.lockfileDigest
    resolvedActionDigests := (jobs.flatMap fun job => job.allSteps.filterMap actionDigest).sort.dedupAdjacent
    resolvedImageDigests := (jobs.flatMap jobImages).sort.dedupAdjacent
    reusableWorkflowDigests := reusableWorkflowDigests
    workflowFrontend := capsule.context.workflowFrontend
    permissionSetDigest := ext.sha256 (canonical.permissions (capsule.permissions, jobs.map permissionSnapshot))
    secretMetadataIds := (jobs.flatMap jobSecrets).sort.dedupAdjacent
    variableSnapshotDigest := ext.sha256 (canonical.vars (capsule.vars, jobs.map variableSnapshot))
    networkPolicyDigest := ext.sha256 (canonical.network (jobs.map networkSnapshot))
    cachePolicyDigest := ext.sha256 (canonical.cache (jobs.map cacheSnapshot))
    artifactPolicyDigest := ext.sha256 (canonical.artifacts (jobs.map artifactSnapshot))
    runnerProfiles := (jobs.map runnerProfile).sort.dedupAdjacent
    environmentIds := (jobs.filterMap fun job =>
      job.environment.map (environmentId ext.sha256)).sort.dedupAdjacent
    deploymentTargetDigest := none
    policyVersionIds := capsule.context.policyVersionIds
    engineCompatibilityVersion := capsule.engineCompatibilityVersion
    expirationBoundary := context.expirationBoundary }

end Runtrue.Compiler
