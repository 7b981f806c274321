import Runtrue.Base.Json
import Runtrue.Model.ContentDigest
import Runtrue.Workflow.Ast

/-!
# Execution capsules

The types of the `workflow-ir` crate: the capsule a workflow compiles to, with its planned jobs, its dynamic
job templates and the authority each of them holds.
-/

namespace Runtrue

structure SecretProjectVersion where
  projectId : String
  version : U64
deriving DecidableEq, Ord

structure SecretResolutionBinding where
  scope : String
  metadataVersion : Option U64
  resolutionDigest : ContentDigest
  projectVersions : List SecretProjectVersion
deriving DecidableEq, Ord

/-- A secret by its metadata; there is no field for its value. -/
structure SecretReference where
  metadataId : String
  name : String
  purpose : Option String
  resolution : Option SecretResolutionBinding
deriving DecidableEq, Ord

end Runtrue

namespace Runtrue.Ir

inductive ScalarValue
  | string (value : String)
  | integer (value : Int64)
  | number (value : F64)
  | boolean (value : Bool)
deriving DecidableEq

inductive ValueBinding
  | literal (value : ScalarValue)
  | context (path : String)
deriving DecidableEq

/-! ### Authority -/

inductive Access
  | deny | read | write
deriving DecidableEq

structure ScmPermissions where
  contents : Access := .deny
  issues : Access := .deny
  pullRequests : Access := .deny
  checks : Access := .deny
  statuses : Access := .deny
deriving DecidableEq

inductive DnsPolicy
  | deny | restricted | allow
deriving DecidableEq

inductive NetworkProtocol
  | tcp | udp
deriving DecidableEq, Ord

structure NetworkDestination where
  host : String
  port : U16
  protocol : NetworkProtocol
deriving DecidableEq, Ord

inductive NetworkPermission
  | deny
  | allow (dns : DnsPolicy) (denyPrivateRanges : Bool) (destinations : List NetworkDestination)
      (listen : List U16)
deriving DecidableEq

inductive CacheRead
  | deny | pub | verified | branch | run
deriving DecidableEq

inductive CacheWrite
  | deny | quarantine | branch | verified
deriving DecidableEq

inductive SigningOperation
  | signDigest | signAttestation
deriving DecidableEq, Ord

structure SigningCapability where
  purpose : String
  operation : SigningOperation
  keyPolicy : String
deriving DecidableEq, Ord

structure PermissionSet where
  repository : Access
  scm : ScmPermissions
  checks : Access
  artifacts : Access
  registry : Access
  network : NetworkPermission
  oidcAudiences : List String
  cacheRead : CacheRead
  cacheWrite : CacheWrite
  secrets : List SecretReference
  signing : List SigningCapability
deriving DecidableEq

structure StepCapabilitySet where
  fsRead : List String
  fsWrite : List String
  network : NetworkPermission
  secrets : List SecretReference
  checks : Access
  artifacts : Access
  cacheRead : CacheRead
  cacheWrite : CacheWrite
  oidcAudiences : List String
  signing : List SigningCapability
deriving DecidableEq

/-! ### Steps -/

inductive Shell
  | bash | sh | pwsh | cmd
deriving DecidableEq

inductive StepAction
  | component (reference : String)
  | command (program : String) (args : List ValueBinding)
  | container (entrypoint : Option String) (args : Option (List ValueBinding))
  | script (shell : Shell) (script : String) (scriptDigest : ContentDigest)
deriving DecidableEq

inductive CacheMode
  | readOnly | readWrite | writeOnly
deriving DecidableEq

structure CacheDeclaration where
  inputs : List String
  outputs : List String
  mode : CacheMode
  maxSizeBytes : Option U64
deriving DecidableEq

inductive StepOutputType
  | string | integer | number | boolean | json | artifactReference
deriving DecidableEq

structure StepOutputSchema where
  kind : StepOutputType
  required : Bool
deriving DecidableEq

structure PlannedStep where
  id : String
  name : String
  condition : Option String
  action : StepAction
  inputs : BTreeMap String ValueBinding
  environment : BTreeMap String ValueBinding
  capabilities : StepCapabilitySet
  cache : Option CacheDeclaration
  timeoutMs : Option U64
  continueOnError : Bool
  outputs : BTreeMap String StepOutputSchema
  workingDirectory : Option String

structure PlannedFinalizer where
  step : PlannedStep
  required : Bool
  runOnCancel : Bool

/-! ### Jobs -/

inductive Trust
  | untrustedOk | trustedOnly | protectedBranchOnly
deriving DecidableEq

inductive OperatingSystem
  | linux | windows | macos
deriving DecidableEq, Ord

inductive Architecture
  | amd64 | arm64
deriving DecidableEq, Ord

inductive Isolation
  | wasm | oci | microvm | native
deriving DecidableEq, Ord

structure RunnerRequirements where
  os : OperatingSystem
  arch : Architecture
  isolation : Isolation
  image : Option String
  cpu : U16
  memoryBytes : U64
  storageBytes : Option U64
  region : Option String
  capabilities : List String
deriving DecidableEq

structure Healthcheck where
  command : List String
  intervalMs : U64
  timeoutMs : U64
  retries : U32
deriving DecidableEq

structure PlannedService where
  id : String
  image : String
  ports : List U16
  environment : BTreeMap String ValueBinding
  healthcheck : Option Healthcheck

inductive ArtifactClassification
  | untrustedBuild | quarantined | verifiedTestOutput | releaseCandidate | promotedRelease | sensitive | pub
deriving DecidableEq

structure ArtifactOutput where
  path : String
  retentionMs : U64
  classification : ArtifactClassification
deriving DecidableEq

structure JobValueOutput where
  stepId : String
  outputName : String
deriving DecidableEq

structure PlannedJob where
  id : String
  baseId : String
  name : String
  needs : List String
  matrix : BTreeMap String ScalarValue
  condition : Option String
  trust : Trust
  environment : Option String
  runner : RunnerRequirements
  permissions : PermissionSet
  timeoutMs : U64
  retries : U32
  concurrency : Option String
  vars : BTreeMap String ScalarValue
  services : List PlannedService
  steps : List PlannedStep
  finalizers : List PlannedFinalizer
  finalizerTimeoutMs : U64
  valueOutputs : BTreeMap String JobValueOutput
  outputs : BTreeMap String ArtifactOutput

structure DynamicMatrixSource where
  producerJobId : String
  outputName : String
  maximumJobs : Nat
deriving DecidableEq

structure DynamicJobTemplate where
  id : String
  source : DynamicMatrixSource
  template : PlannedJob

/-! ### Capsules -/

inductive SourceTrust
  | untrusted | trusted | protectedBranch
deriving DecidableEq

structure WorkflowFrontendProvenance where
  frontendId : String
  contractGeneration : U32
  frontendGeneration : U32
  configurationDigest : ContentDigest
  inputDigest : ContentDigest
  nativeDigest : ContentDigest
  reportDigest : Option ContentDigest
deriving DecidableEq

structure ScmRuntimeContext where
  provider : String
  apiUrl : String
  repository : String
deriving DecidableEq

structure CapsuleContext where
  sourceCommit : String
  sourceTreeDigest : Option ContentDigest
  baseCommit : Option String
  sourceTrust : SourceTrust
  normalizedEventDigest : ContentDigest
  normalizedEventJson : Option String
  scm : Option ScmRuntimeContext
  eventContext : BTreeMap String ScalarValue
  lockfileDigest : Option ContentDigest
  workflowFrontend : Option WorkflowFrontendProvenance
  policyVersionIds : List String

structure WorkflowIdentity where
  name : String
  digest : ContentDigest
  sourcePath : String
deriving DecidableEq

structure ApprovalRequirements where
  workflowDefinition : Bool
  privilegedExecution : Bool
  reasons : List String
deriving DecidableEq

inductive ParityGrade
  | aExact | bEnvironmentEquivalent | cPlatformSpecific | dNonReplayable
deriving DecidableEq

def capsuleSchemaVersion : U32 := 1

def engineCompatibilityVersion : String := "runtrue-engine-v1"

structure ExecutionCapsule where
  schemaVersion : U32
  engineCompatibilityVersion : String
  compilerVersion : String
  workflow : WorkflowIdentity
  context : CapsuleContext
  vars : BTreeMap String ScalarValue
  permissions : PermissionSet
  jobs : List PlannedJob
  dynamicJobs : List DynamicJobTemplate
  approval : ApprovalRequirements
  expectedParity : ParityGrade

/-- The steps of a job followed by those of its finalizers. -/
def PlannedJob.allSteps (job : PlannedJob) : List PlannedStep := job.steps ++ job.finalizers.map (·.step)

/-- The static jobs of a capsule followed by its templates. -/
def ExecutionCapsule.allJobs (capsule : ExecutionCapsule) : List PlannedJob :=
  capsule.jobs ++ capsule.dynamicJobs.map (·.template)

end Runtrue.Ir
