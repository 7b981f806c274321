import Runtrue.Base.Fixed
import Runtrue.Base.TreeMap
import Runtrue.Model.ContentDigest
import Runtrue.Model.Path

/-!
# The records of the execution crate

Capsules, contracts, seals and delegation grants, the requests and records of the two Session ledgers, and
the crate's errors. `u32` and `u64` are bit vectors, lengths are natural numbers. `Canonical` is what
`canonical::canonical_digest` and `canonical::canonical_bytes` return; nothing is assumed about it.
-/

namespace Runtrue.Execution

inductive ExecutionModelError
  | invalidField (field reason : String)
  | tooManyEntries (field : String) (maximum : Nat)
  | conflictingIdentity (field identity : String)
  | capsuleKindMismatch
  | sealSubjectMismatch
  | sealNotYetValid
  | sealExpired
  | sealRevoked (expected actual : U64)
  | invalidSealSignature
  | containmentViolation (field : String)
  | idempotencyConflict
  | reservationCapacityUnavailable
  | reservationIdentityConflict
  | reservationNotFound
  | invalidReservationTransition
  | staleSessionFence
  | staleLedgerRevision
  | workspaceGenerationConflict
  | workspaceReservationInactive
  | accountingFailure
  | invalidTransition (subject source target : String)
  | canonicalJson (message : String)
deriving DecidableEq

abbrev Checked (α : Type) := Except ExecutionModelError α

/-! ### Programs and runtimes -/

inductive ProgramKind
  | sourceTree | script | command | wasmComponent | ociImage | nativeExecutable | filesystemTree
deriving DecidableEq, Ord

instance : Std.TransOrd ProgramKind where
  eq_swap {a b} := by cases a <;> cases b <;> rfl
  isLE_trans {a b c} := by cases a <;> cases b <;> cases c <;> decide

instance : Std.LawfulEqOrd ProgramKind where
  eq_of_compare {a b} := by cases a <;> cases b <;> decide

inductive OperatingSystem
  | linux | windows | macos
deriving DecidableEq

inductive Architecture
  | amd64 | arm64
deriving DecidableEq

structure ProgramSignatureIdentity where
  signerIdentity : String
  signatureAlgorithm : String
  signingKeyId : ContentDigest
  signatureDigest : ContentDigest
  provenanceDigest : ContentDigest

structure ProgramPlatform where
  operatingSystem : OperatingSystem
  architecture : Architecture

structure ProgramIdentity where
  schemaVersion : U32
  kind : ProgramKind
  contentDigest : ContentDigest
  resolverDigest : ContentDigest
  mediaType : String
  entrypoint : List String
  signature : Option ProgramSignatureIdentity
  platform : Option ProgramPlatform
  compatibilityMetadata : BTreeMap String ContentDigest

inductive RuntimeFamily
  | wasmtimeComponent | firecrackerMicrovm | rootlessOci | ociInMicrovm | native
deriving DecidableEq

structure RuntimePlatform where
  operatingSystem : OperatingSystem
  architecture : Architecture
  cpuFeatureFloor : BTreeSet String

structure RuntimeComponents where
  engine : Option ContentDigest
  vmm : Option ContentDigest
  containerRuntime : Option ContentDigest
  kernel : Option ContentDigest
  rootfs : Option ContentDigest
  guest : Option ContentDigest
  compiler : Option ContentDigest

structure RuntimeCompatibilityProfile where
  schemaVersion : U32
  family : RuntimeFamily
  implementationGeneration : String
  platform : RuntimePlatform
  components : RuntimeComponents
  programAbi : String
  witWorld : Option String
  syscallContract : String
  memoryModel : String
  taskModel : String
  filesystemModel : String
  networkModel : String
  deviceModel : String
  aotCompatibility : Option ContentDigest
  snapshotCompatibility : Option ContentDigest
  mitigationProfile : String
  capabilityAdapterGeneration : String
  guestProtocolGeneration : String
  securityPatchGeneration : U64
  revocationGeneration : U64

/-! ### Contracts -/

structure DeviceRequirement where
  deviceClass : String
  compatibilityDigest : ContentDigest
  count : U32
deriving DecidableEq

structure PlacementConstraints where
  allowedProviderIds : BTreeSet String
  allowedPoolTrustProfiles : BTreeSet ContentDigest
  administrativeTrustDomains : BTreeSet String
  allowedRegions : BTreeSet String
  allowedLocalities : BTreeSet String
  dataResidency : BTreeSet String
  requiredDevices : BTreeMap String DeviceRequirement

structure ResourceLimits where
  cpuMillis : U32
  memoryBytes : U64
  storageBytes : U64
  taskCount : U32
  processCount : U32
  networkEgressBytes : U64
  maximumDurationMs : U64
deriving DecidableEq

structure CapabilityBudget where
  maximumCalls : U64
  maximumRequestBytes : U64
  maximumResponseBytes : U64
  maximumExternalEffects : U64
deriving DecidableEq

structure CapabilityGrant where
  capabilityClass : String
  resource : String
  operations : BTreeSet String
  destinations : BTreeSet String
  externalEffectClass : Option String
  budget : CapabilityBudget
  constraintsDigest : ContentDigest

structure CapabilityContract where
  grants : BTreeMap String CapabilityGrant
  aggregateBudget : CapabilityBudget

inductive NondeterministicInputClass
  | liveClock | liveRandomness | external
deriving DecidableEq

structure NondeterministicInputGrant where
  inputClass : NondeterministicInputClass
  profileDigest : ContentDigest
  maximumUses : U64
  maximumBytes : U64

structure NondeterminismContract where
  inputs : BTreeMap String NondeterministicInputGrant

structure ExternalEffectDeclaration where
  operationId : String
  idempotencyKey : String
  capabilityGrantId : String
  effectClass : String
  destinationDigest : ContentDigest
  idempotencyContractDigest : ContentDigest
  boundedRequestDigest : ContentDigest

structure ExternalEffectContract where
  operations : BTreeMap String ExternalEffectDeclaration

structure OutputContract where
  stdoutMaxBytes : U64
  stderrMaxBytes : U64
  structuredOutputSchema : Option ContentDigest
  artifactClasses : BTreeSet String
  filesystemChangeRoots : BTreeSet String

inductive EvidenceProfile
  | baseline | enhanced
deriving DecidableEq

structure EvidenceContract where
  profile : EvidenceProfile
  maximumEvents : U64
  maximumLogBytes : U64
  retentionMs : U64

/-! ### Capsules, seals and delegation -/

inductive CapsuleKind
  | execution | session
deriving DecidableEq

structure ApprovalSubject where
  schemaVersion : U32
  capsuleKind : CapsuleKind
  capsuleDigest : ContentDigest
  policyDigest : ContentDigest
  authorityContextDigest : ContentDigest

structure ParentBinding where
  sessionCapsuleDigest : ContentDigest
  sessionSealDigest : ContentDigest
  delegationId : String
  delegationGrantDigest : ContentDigest
  workspaceGenerationDigest : ContentDigest
  containmentProofDigest : ContentDigest

structure DelegationPolicy where
  plannerPrincipal : String
  plannerImplementationDigest : ContentDigest
  allowedProgramKinds : BTreeSet ProgramKind
  allowedProgramResolvers : BTreeSet ContentDigest
  allowedRuntimeProfiles : BTreeSet ContentDigest
  maximumResources : ResourceLimits
  placement : PlacementConstraints
  capabilities : CapabilityContract
  nondeterminism : NondeterminismContract
  output : OutputContract
  maximumChildCount : U32
  maximumConcurrency : U32
  maximumChildDurationMs : U64
  subdelegationAllowed : Bool
  policyVersionId : String
  policyVersionDigest : ContentDigest

/-- A time-bounded grant issued under one delegation policy of a sealed Session. -/
structure DelegationGrant where
  schemaVersion : U32
  delegationId : String
  parentSessionCapsuleDigest : ContentDigest
  parentSessionSealDigest : ContentDigest
  policyId : String
  policyDigest : ContentDigest
  plannerPrincipal : String
  plannerImplementationDigest : ContentDigest
  allowedProgramKinds : BTreeSet ProgramKind
  allowedProgramResolvers : BTreeSet ContentDigest
  allowedRuntimeProfiles : BTreeSet ContentDigest
  maximumResources : ResourceLimits
  placement : PlacementConstraints
  capabilities : CapabilityContract
  nondeterminism : NondeterminismContract
  output : OutputContract
  maximumChildCount : U32
  maximumConcurrency : U32
  maximumChildDurationMs : U64
  subdelegationAllowed : Bool
  policyVersionId : String
  policyVersionDigest : ContentDigest
  issuedUnixMs : U64
  expiresUnixMs : U64
  revocationGeneration : U64

/-- The specification of one Execution; a child of a Session names its parent. -/
structure ExecutionCapsule where
  schemaVersion : U32
  kind : CapsuleKind
  tenantId : String
  principalId : String
  program : ProgramIdentity
  arguments : List String
  workingDirectory : Option String
  inputArtifacts : BTreeSet ContentDigest
  runtime : RuntimeCompatibilityProfile
  placement : PlacementConstraints
  resources : ResourceLimits
  capabilities : CapabilityContract
  nondeterminism : NondeterminismContract
  externalEffects : ExternalEffectContract
  output : OutputContract
  evidence : EvidenceContract
  parent : Option ParentBinding

structure SessionCapsule where
  schemaVersion : U32
  kind : CapsuleKind
  tenantId : String
  principalId : String
  initialWorkspaceDigest : ContentDigest
  mutableWorkspaceRoots : BTreeSet String
  runtime : RuntimeCompatibilityProfile
  placement : PlacementConstraints
  maximumResources : ResourceLimits
  capabilities : CapabilityContract
  nondeterminism : NondeterminismContract
  output : OutputContract
  evidence : EvidenceContract
  idleTimeoutMs : U64
  hardLifetimeMs : U64
  maximumChildCount : U32
  maximumConcurrency : U32
  delegationPolicies : BTreeMap String DelegationPolicy

structure Seal where
  schemaVersion : U32
  approvalSubjectDigest : ContentDigest
  capsuleKind : CapsuleKind
  capsuleDigest : ContentDigest
  signerIdentity : String
  authorityIdentity : String
  issuedUnixMs : U64
  expiresUnixMs : U64
  revocationGeneration : U64
  signatureAlgorithm : String
  signingKeyId : ContentDigest
  signature : List UInt8

/-- A Seal without its signature. -/
structure SealSigningPayload where
  schemaVersion : U32
  approvalSubjectDigest : ContentDigest
  capsuleKind : CapsuleKind
  capsuleDigest : ContentDigest
  signerIdentity : String
  authorityIdentity : String
  issuedUnixMs : U64
  expiresUnixMs : U64
  revocationGeneration : U64
  signatureAlgorithm : String
  signingKeyId : ContentDigest

/-- The trust boundary's `SealSignatureVerifier::verify_signature`. -/
abbrev SealSignatureVerifier := Seal → List UInt8 → Bool

/-! ### The reservation ledger -/

structure ChildResourceReservation where
  cpuMillis : U64
  memoryBytes : U64
  storageBytes : U64
  taskCount : U64
  capabilityCalls : U64
  capabilityRequestBytes : U64
  capabilityResponseBytes : U64
  externalEffectCount : U64
deriving DecidableEq

/-- What a child used of its capability budget. -/
structure CapabilityUsage where
  capabilityCalls : U64
  capabilityRequestBytes : U64
  capabilityResponseBytes : U64
  externalEffectCount : U64
deriving DecidableEq

structure ChildAdmissionRequest where
  schemaVersion : U32
  reservationId : String
  sessionId : String
  childExecutionId : String
  idempotencyKey : String
  sessionFence : U64
  expectedLedgerRevision : U64
  createdUnixMs : U64
deriving DecidableEq

structure ChildReservationRequest where
  schemaVersion : U32
  reservationId : String
  sessionId : String
  sessionCapsuleDigest : ContentDigest
  childExecutionId : String
  childCapsuleDigest : ContentDigest
  idempotencyKey : String
  sessionFence : U64
  expectedLedgerRevision : U64
  resources : ChildResourceReservation
  createdUnixMs : U64
deriving DecidableEq

inductive ReservationState
  | reserved | released | finalized
deriving DecidableEq

inductive ReservationTerminalOutcome
  | released (reasonDigest : ContentDigest)
  | finalized (resultDigest : ContentDigest)
deriving DecidableEq

structure ReservationTransitionRequest where
  schemaVersion : U32
  reservationId : String
  childExecutionId : String
  idempotencyKey : String
  sessionFence : U64
  expectedLedgerRevision : U64
  outcome : ReservationTerminalOutcome
  actualUsage : CapabilityUsage
  observedUnixMs : U64
deriving DecidableEq

structure ChildReservationRecord where
  request : ChildReservationRequest
  requestDigest : ContentDigest
  generation : U64
  state : ReservationState
  terminalRequestDigest : Option ContentDigest
  terminalRequest : Option ReservationTransitionRequest
  terminalOutcome : Option ReservationTerminalOutcome
deriving DecidableEq

structure ReservationResult where
  record : ChildReservationRecord
  replayed : Bool
deriving DecidableEq

structure SessionReservationLedger where
  sessionId : String
  sessionCapsuleDigest : ContentDigest
  sessionFence : U64
  ledgerRevision : U64
  limits : ChildResourceReservation
  allocated : ChildResourceReservation
  cumulativeUsage : CapabilityUsage
  maximumConcurrency : U32
  maximumChildCount : U32
  activeConcurrency : U32
  admittedChildCount : U32
  nextGeneration : U64
  reservations : BTreeMap String ChildReservationRecord
  childReservations : BTreeMap String String
  reserveIdempotency : BTreeMap String String
  transitionIdempotency : BTreeMap String (String × ContentDigest)
deriving DecidableEq

/-! ### The publication ledger -/

structure WorkspaceGeneration where
  generation : U64
  stateDigest : ContentDigest
deriving DecidableEq

structure WorkspacePublicationRequest where
  schemaVersion : U32
  sessionId : String
  sessionCapsuleDigest : ContentDigest
  reservationId : String
  childExecutionId : String
  inputGeneration : U64
  inputWorkspaceDigest : ContentDigest
  outputWorkspaceDigest : ContentDigest
  outputManifestDigest : ContentDigest
  idempotencyKey : String
  sessionFence : U64
  expectedPublicationRevision : U64
  expectedReservationRevision : U64
  committedUnixMs : U64
deriving DecidableEq

structure WorkspacePublicationRecord where
  request : WorkspacePublicationRequest
  requestDigest : ContentDigest
  reservationId : String
  childExecutionId : String
  previous : WorkspaceGeneration
  current : WorkspaceGeneration
  outputManifestDigest : ContentDigest
  committedUnixMs : U64
deriving DecidableEq

structure WorkspacePublicationResult where
  record : WorkspacePublicationRecord
  replayed : Bool
deriving DecidableEq

structure FinalizeAndPublishResult where
  reservation : ChildReservationRecord
  publication : WorkspacePublicationRecord
  replayed : Bool
deriving DecidableEq

structure WorkspacePublicationLedger where
  sessionId : String
  sessionCapsuleDigest : ContentDigest
  sessionFence : U64
  ledgerRevision : U64
  initialWorkspaceDigest : ContentDigest
  current : WorkspaceGeneration
  publications : BTreeMap U64 WorkspacePublicationRecord
  idempotency : BTreeMap String (U64 × ContentDigest)
  publishedByChild : BTreeMap String U64
deriving DecidableEq

/-! ### Canonical digests -/

/-- The canonical digest of every kind of record that has one, and the bytes a Seal's signature covers. -/
structure Canonical where
  runtime : RuntimeCompatibilityProfile → Checked ContentDigest
  policy : DelegationPolicy → Checked ContentDigest
  grant : DelegationGrant → Checked ContentDigest
  session : SessionCapsule → Checked ContentDigest
  execution : ExecutionCapsule → Checked ContentDigest
  subject : ApprovalSubject → Checked ContentDigest
  sealEnvelope : Seal → Checked ContentDigest
  signingPayload : SealSigningPayload → Checked (List UInt8)
  reservation : ChildReservationRequest → Checked ContentDigest
  transition : ReservationTransitionRequest → Checked ContentDigest
  publication : WorkspacePublicationRequest → Checked ContentDigest

end Runtrue.Execution
