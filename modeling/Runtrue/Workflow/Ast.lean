import Runtrue.Base.Double
import Runtrue.Base.Fixed
import Runtrue.Base.TreeMap

/-!
# Workflow definitions

The types of the `workflow-ast` crate: a definition as its YAML text is read, before anything about it is
checked. A `StrictMap` of the source is an ordered map.
-/

abbrev U16 := BitVec 16

namespace Runtrue.Ast

inductive Scalar
  | string (value : String)
  | integer (value : Int64)
  | number (value : F64)
  | boolean (value : Bool)
deriving DecidableEq

/-- The comparison `==` of scalars. -/
def Scalar.eqv : Scalar → Scalar → Bool
  | .number left, .number right => left.eqv right
  | left, right => left = right

def Scalar.isFinite : Scalar → Bool
  | .number value => value.isFinite
  | _ => true

/-! ### Permissions -/

inductive Access
  | deny | read | write
deriving DecidableEq

structure ScmPermissions where
  contents : Access := .deny
  issues : Access := .deny
  pullRequests : Access := .deny
  checks : Access := .deny
  statuses : Access := .deny
deriving DecidableEq

inductive DnsPolicy
  | deny | restricted | allow
deriving DecidableEq

inductive NetworkProtocol
  | tcp | udp
deriving DecidableEq

structure NetworkDestination where
  host : String
  port : U16
  protocol : NetworkProtocol := .tcp
deriving DecidableEq

structure NetworkPolicy where
  dns : DnsPolicy := .deny
  denyPrivateRanges : Bool := true
  allow : List NetworkDestination := []
  listen : List U16 := []
deriving DecidableEq

inductive NetworkPermission
  | keyword (keyword : String)
  | policy (policy : NetworkPolicy)
deriving DecidableEq

structure OidcAllow where
  audiences : List String
deriving DecidableEq

inductive OidcPermission
  | keyword (keyword : String)
  | allow (allow : OidcAllow)
deriving DecidableEq

inductive CacheRead
  | deny | pub | verified | branch | run
deriving DecidableEq

inductive CacheWrite
  | deny | quarantine | branch | verified
deriving DecidableEq

structure CachePermissions where
  read : CacheRead := .deny
  write : CacheWrite := .deny
deriving DecidableEq

structure SecretRequest where
  name : String
  purpose : Option String := none
deriving DecidableEq

inductive SigningOperation
  | signDigest | signAttestation
deriving DecidableEq

structure SigningRequest where
  purpose : String
  operation : SigningOperation
  keyPolicy : String := ""
deriving DecidableEq

structure Permissions where
  repository : Access := .deny
  scm : ScmPermissions := {}
  checks : Access := .deny
  artifacts : Access := .deny
  registry : Access := .deny
  network : NetworkPermission := .keyword "deny"
  oidc : OidcPermission := .keyword "deny"
  cache : CachePermissions := {}
  secrets : List SecretRequest := []
  signing : List SigningRequest := []

/-! ### Bindings and steps -/

inductive ValueBinding
  | scalar (value : Scalar)
  | fromContext (path : String)
  | literal (value : Scalar)

structure CommandRun where
  command : List String
  args : List ValueBinding := []
  workingDirectory : Option String := none

inductive Shell
  | bash | sh | pwsh | cmd
deriving DecidableEq

structure ScriptRun where
  shell : Shell
  script : String
  workingDirectory : Option String := none
  unsafeInterpolation : Bool := false

structure ContainerInvocation where
  entrypoint : Option String := none
  args : Option (List ValueBinding) := none

inductive Run
  | command (run : CommandRun)
  | script (run : ScriptRun)
  | container (run : ContainerInvocation)

structure FilesystemCapabilities where
  read : List String := []
  write : List String := []

structure StepCapabilities where
  fs : Option FilesystemCapabilities := none
  network : Option NetworkPolicy := none
  secrets : List SecretRequest := []
  checks : Access := .deny
  artifacts : Access := .deny
  cache : Option CachePermissions := none
  oidc : Option OidcAllow := none
  signing : List SigningRequest := []

inductive CacheMode
  | readOnly | readWrite | writeOnly

structure CacheDeclaration where
  inputs : List String := []
  outputs : List String := []
  mode : CacheMode := .readWrite
  maxSize : Option String := none

inductive StepOutputType
  | string | integer | number | boolean | json | artifactReference
deriving DecidableEq

structure StepOutputDefinition where
  kind : StepOutputType
  required : Bool := false
deriving DecidableEq

/-- `inputs` is the field `with`. -/
structure Step where
  id : Option String := none
  name : Option String := none
  condition : Option String := none
  uses : Option String := none
  inputs : BTreeMap String ValueBinding := ∅
  run : Option Run := none
  env : BTreeMap String ValueBinding := ∅
  capabilities : StepCapabilities := {}
  cache : Option CacheDeclaration := none
  timeout : Option String := none
  continueOnError : Bool := false
  outputs : BTreeMap String StepOutputDefinition := ∅

structure Finalizer where
  step : Step
  required : Bool := false
  runOnCancel : Bool := false

/-! ### Jobs -/

structure Healthcheck where
  command : List String := []
  interval : String := "1s"
  timeout : String := "2s"
  retries : U32 := 30

structure Service where
  image : String
  ports : List U16 := []
  env : BTreeMap String ValueBinding := ∅
  healthcheck : Option Healthcheck := none

inductive Trust
  | untrustedOk | trustedOnly | protectedBranchOnly
deriving DecidableEq

inductive OperatingSystem
  | linux | windows | macos
deriving DecidableEq

inductive Architecture
  | amd64 | arm64
deriving DecidableEq

inductive Isolation
  | wasm | oci | microvm | native
deriving DecidableEq

structure Runner where
  os : OperatingSystem := .linux
  arch : Architecture := .amd64
  isolation : Isolation := .microvm
  image : Option String := none
  cpu : U16 := 2
  memory : String := "4GiB"
  storage : Option String := none
  region : Option String := none
  capabilities : List String := []
deriving DecidableEq

/-- `source` is the context path `needs.<job>.outputs.<name>` of the field `from`. -/
structure DynamicMatrixDefinition where
  source : String
  maxJobs : Nat

inductive ArtifactClassification
  | untrustedBuild | quarantined | verifiedTestOutput | releaseCandidate | promotedRelease | sensitive | pub

structure OutputDefinition where
  path : String
  retention : String := "7d"
  classification : ArtifactClassification := .untrustedBuild

/-- `inputs` is the field `with`; a value output is the context path of its field `from`. -/
structure Job where
  name : Option String := none
  needs : List String := []
  condition : Option String := none
  uses : Option String := none
  inputs : BTreeMap String Scalar := ∅
  trust : Trust := .untrustedOk
  environment : Option String := none
  runner : Runner := {}
  permissions : Option Permissions := none
  timeout : Option String := none
  retries : U32 := 0
  matrix : BTreeMap String (List Scalar) := ∅
  dynamicMatrix : Option DynamicMatrixDefinition := none
  concurrency : Option String := none
  vars : BTreeMap String Scalar := ∅
  services : BTreeMap String Service := ∅
  steps : List Step := []
  finalizers : List Finalizer := []
  finalizerTimeout : Option String := none
  valueOutputs : BTreeMap String String := ∅
  outputs : BTreeMap String OutputDefinition := ∅

/-! ### Workflows -/

inductive InputType
  | string | boolean | integer | number | choice
deriving DecidableEq

structure InputDefinition where
  kind : InputType
  required : Bool := false
  default : Option Scalar := none
  options : List Scalar := []

structure GitTrigger where
  branches : List String := []
  branchesIgnore : List String := []
  paths : List String := []
  pathsIgnore : List String := []

structure WebhookTrigger where
  types : List String := []

structure ScheduleTrigger where
  cron : String
  timezone : String := "UTC"
deriving DecidableEq

structure ManualTrigger where
  inputs : BTreeMap String InputDefinition := ∅

structure Triggers where
  push : Option GitTrigger := none
  pullRequest : Option GitTrigger := none
  pullRequestTarget : Option WebhookTrigger := none
  issueComment : Option WebhookTrigger := none
  checkRun : Option WebhookTrigger := none
  mergeQueue : Option Unit := none
  schedule : List ScheduleTrigger := []
  manual : Option ManualTrigger := none
  api : Option Unit := none

/-- A workflow output is the context path `needs.<job>.outputs.<output>` of its field `from`. -/
structure Workflow where
  version : U32
  name : Option String := none
  triggers : Triggers := {}
  inputs : BTreeMap String InputDefinition := ∅
  outputs : BTreeMap String String := ∅
  permissions : Permissions := {}
  vars : BTreeMap String Scalar := ∅
  jobs : BTreeMap String Job

end Runtrue.Ast
