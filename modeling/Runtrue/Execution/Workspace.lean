import Runtrue.Execution.Reservation

/-!
# The workspace publication ledger

`workspace.rs`. A publication ledger holds one chain of workspace generations. The only way to publish is
`finalizeAndPublish`, which publishes the next generation on a copy of this ledger and finalises the child's
reservation on a copy of the reservation ledger, and replaces both or neither.
-/

namespace Runtrue.Execution

open Fallible Validation

def workspacePublicationSchemaVersion : U32 := 1

def WorkspacePublicationRequest.validate (r : WorkspacePublicationRequest) : Checked Unit := do
  schema "workspace publication schema version" r.schemaVersion workspacePublicationSchemaVersion
  identifier "Session identity" r.sessionId
  identifier "reservation identity" r.reservationId
  identifier "child Execution identity" r.childExecutionId
  identifier "publication idempotency key" r.idempotencyKey
  rejectIf (r.sessionFence = 0 ∨ r.committedUnixMs = 0)
    (.invalidField "publication fence or commit time" "must be greater than zero")

variable (C : Canonical)

def WorkspacePublicationRequest.digest (r : WorkspacePublicationRequest) : Checked ContentDigest := do
  r.validate
  C.publication r

namespace WorkspacePublicationLedger

/-- Generation zero, the workspace the Session starts from. -/
def initial (P : WorkspacePublicationLedger) : WorkspaceGeneration := ⟨0, P.initialWorkspaceDigest⟩

def new (sessionId : String) (sessionCapsuleDigest : ContentDigest) (sessionFence : U64)
    (initialWorkspaceDigest : ContentDigest) : Checked WorkspacePublicationLedger := do
  identifier "Session identity" sessionId
  rejectIf (sessionFence = 0) .staleSessionFence
  return {
    sessionId, sessionCapsuleDigest, sessionFence
    ledgerRevision := 0
    initialWorkspaceDigest
    current := ⟨0, initialWorkspaceDigest⟩
    publications := ∅
    idempotency := ∅
    publishedByChild := ∅ }

/-- One turn of the loop over the records: the generation the record must continue, and the one it
makes. -/
def visit (P : WorkspacePublicationLedger) (expected : WorkspaceGeneration)
    (entry : U64 × WorkspacePublicationRecord) : Checked WorkspaceGeneration := do
  let (generation, record) := entry
  record.request.validate
  let nextGeneration ← okOr (Fixed.checkedAdd expected.generation 1) .accountingFailure
  rejectIf (generation ≠ nextGeneration) .accountingFailure
  let requestDigest ← record.request.digest C
  rejectIf (record.requestDigest ≠ requestDigest ∨
      record.request.sessionId ≠ P.sessionId ∨
      record.request.sessionCapsuleDigest ≠ P.sessionCapsuleDigest ∨
      record.request.sessionFence ≠ P.sessionFence ∨
      record.request.reservationId ≠ record.reservationId ∨
      record.request.childExecutionId ≠ record.childExecutionId ∨
      record.request.inputGeneration ≠ expected.generation ∨
      record.request.inputWorkspaceDigest ≠ expected.stateDigest ∨
      record.request.outputWorkspaceDigest ≠ record.current.stateDigest ∨
      record.request.outputManifestDigest ≠ record.outputManifestDigest ∨
      record.request.committedUnixMs ≠ record.committedUnixMs ∨
      record.previous ≠ expected ∨
      record.current.generation ≠ generation ∨
      P.idempotency[record.request.idempotencyKey]? ≠ some (generation, record.requestDigest) ∨
      P.publishedByChild[record.childExecutionId]? ≠ some generation)
    .accountingFailure
  return record.current

/-- Reconstruct the generation chain and all indexes from the records. -/
def validate (P : WorkspacePublicationLedger) : Checked Unit := do
  identifier "Session identity" P.sessionId
  rejectIf (P.sessionFence = 0) .accountingFailure
  let count ← okOr (Fixed.tryFrom 64 P.publications.size) .accountingFailure
  rejectIf (P.ledgerRevision ≠ count ∨ P.idempotency.size ≠ P.publications.size ∨
    P.publishedByChild.size ≠ P.publications.size) .accountingFailure
  let expected ← foldEach (visit C P) P.initial P.publications.toList
  rejectIf (P.current ≠ expected) .accountingFailure

/-- The record of a publication on top of the current generation. -/
def recordOf (P : WorkspacePublicationLedger) (request : WorkspacePublicationRequest)
    (requestDigest : ContentDigest) (generation : U64) : WorkspacePublicationRecord where
  request := request
  requestDigest := requestDigest
  reservationId := request.reservationId
  childExecutionId := request.childExecutionId
  previous := P.current
  current := ⟨generation, request.outputWorkspaceDigest⟩
  outputManifestDigest := request.outputManifestDigest
  committedUnixMs := request.committedUnixMs

/-- The ledger with one more generation. -/
def withPublication (P : WorkspacePublicationLedger) (request : WorkspacePublicationRequest)
    (requestDigest : ContentDigest) (generation : U64) (nextRevision : U64) : WorkspacePublicationLedger :=
  { P with
    current := ⟨generation, request.outputWorkspaceDigest⟩
    idempotency := P.idempotency.insert request.idempotencyKey (generation, requestDigest)
    publishedByChild := P.publishedByChild.insert request.childExecutionId generation
    publications := P.publications.insert generation (P.recordOf request requestDigest generation)
    ledgerRevision := nextRevision }

def publishStaged (P : WorkspacePublicationLedger) (request : WorkspacePublicationRequest)
    (reservations : SessionReservationLedger) :
    Checked (WorkspacePublicationResult × WorkspacePublicationLedger) := do
  request.validate
  let requestDigest ← request.digest C
  match P.idempotency[request.idempotencyKey]? with
  | some (generation, priorDigest) => do
    rejectIf (priorDigest ≠ requestDigest) .idempotencyConflict
    let record ← okOr P.publications[generation]? .accountingFailure
    return (⟨record, true⟩, P)
  | none => do
    rejectIf (request.sessionFence ≠ P.sessionFence) .staleSessionFence
    rejectIf (request.expectedPublicationRevision ≠ P.ledgerRevision ∨
      request.expectedReservationRevision ≠ reservations.ledgerRevision) .staleLedgerRevision
    rejectIf (request.sessionId ≠ P.sessionId ∨ request.sessionCapsuleDigest ≠ P.sessionCapsuleDigest)
      .reservationIdentityConflict
    let reservation ← okOr (reservations.reservation request.reservationId) .workspaceReservationInactive
    rejectIf (reservation.state ≠ .reserved ∨
        reservation.request.reservationId ≠ request.reservationId ∨
        reservation.request.childExecutionId ≠ request.childExecutionId ∨
        reservation.request.sessionId ≠ request.sessionId ∨
        reservation.request.sessionCapsuleDigest ≠ request.sessionCapsuleDigest)
      .workspaceReservationInactive
    rejectIf (P.publishedByChild.contains request.childExecutionId ∨
        request.inputGeneration ≠ P.current.generation ∨
        request.inputWorkspaceDigest ≠ P.current.stateDigest)
      .workspaceGenerationConflict
    let generation ← okOr (Fixed.checkedAdd P.current.generation 1) .accountingFailure
    let nextRevision ← okOr (Fixed.checkedAdd P.ledgerRevision 1) .accountingFailure
    return (⟨P.recordOf request requestDigest generation, false⟩,
      P.withPublication request requestDigest generation nextRevision)

/-- Both halves of `finalize_and_publish`, on copies of the two ledgers. -/
def finalizeStaged (P : WorkspacePublicationLedger) (reservations : SessionReservationLedger)
    (completion : ReservationTransitionRequest) (publication : WorkspacePublicationRequest) :
    Checked (FinalizeAndPublishResult × (WorkspacePublicationLedger × SessionReservationLedger)) := do
  rejectIf (completion.outcome.state ≠ .finalized ∨
      completion.reservationId ≠ publication.reservationId ∨
      completion.childExecutionId ≠ publication.childExecutionId ∨
      completion.sessionFence ≠ publication.sessionFence)
    .invalidReservationTransition
  P.validate C
  reservations.validate C
  let (published, stagedPublications) ← P.publishStaged C publication reservations
  let (finalized, stagedReservations) ← reservations.transitionStaged C completion
  rejectIf (published.replayed ≠ finalized.replayed) .accountingFailure
  stagedPublications.validate C
  stagedReservations.validate C
  return (⟨finalized.record, published.record, published.replayed⟩, (stagedPublications, stagedReservations))

/-- Publish one workspace generation and finalise the child that made it. -/
def finalizeAndPublish (P : WorkspacePublicationLedger) (reservations : SessionReservationLedger)
    (completion : ReservationTransitionRequest) (publication : WorkspacePublicationRequest) :
    Checked FinalizeAndPublishResult × (WorkspacePublicationLedger × SessionReservationLedger) :=
  commit (P, reservations) (P.finalizeStaged C reservations completion publication)

end WorkspacePublicationLedger

/-! ### The Session of the crate's tests

The capsules, seal and grant of `tests/kernel.rs`, with a grant for one child, and their digests. -/

namespace Fixture

def ascii (text : String) : List UInt8 := text.toList.map fun c => .ofNat c.toNat

def runtime : RuntimeCompatibilityProfile where
  schemaVersion := 1
  family := .wasmtimeComponent
  implementationGeneration := "wasmtime-46-p3"
  platform := ⟨.linux, .amd64, .ofList ["sse2"]⟩
  components :=
    ⟨some ⟨0x4cff29b05ff4d962b957ccf26a2ac9400a08a077e3cabaf50fb7992adbd576e6⟩, none, none, none, none, none,
      some ⟨0x226241a4f791e4e12da5a20e841a14bdf398d5f95db4318106f3aaf32f35f1d9⟩⟩
  programAbi := "component-model"
  witWorld := some "runtrue-action-0.3"
  syscallContract := "wasi-0.3"
  memoryModel := "wasm-linear-memory-v1"
  taskModel := "wasi-tasks-v1"
  filesystemModel := "wasi-filesystem-v1"
  networkModel := "brokered-network-v1"
  deviceModel := "no-devices-v1"
  aotCompatibility := some ⟨0xb5bbb8e53924ae162f5a50351ad775df6ca3e3ab234da56e43aed8f2972fa2a6⟩
  snapshotCompatibility := none
  mitigationProfile := "wasmtime-default-v1"
  capabilityAdapterGeneration := "adapter-v1"
  guestProtocolGeneration := "guest-v1"
  securityPatchGeneration := 1
  revocationGeneration := 1

def runtimeDigest : ContentDigest := ⟨0x9cd7ca5557202166701e300882599c27e8dfb96395a222e67eb02eb3da4a7198⟩

def resources : ResourceLimits := ⟨2000, 536870912, 1073741824, 64, 1, 16777216, 3600000⟩

def placement : PlacementConstraints where
  allowedProviderIds := .ofList ["provider-local"]
  allowedPoolTrustProfiles := .ofList
    [ContentDigest.mk 0xaa3fcdd51a6a2fc43bd6d9f16ed0474b85c4e37b3fa9a86829bacd71fdf55678]
  administrativeTrustDomains := .ofList ["developer-machine"]
  allowedRegions := ∅
  allowedLocalities := ∅
  dataResidency := ∅
  requiredDevices := ∅

def budget : CapabilityBudget := ⟨100, 1048576, 8388608, 0⟩

def artifactRead : CapabilityGrant where
  capabilityClass := "artifact"
  resource := "tenant://example/input"
  operations := .ofList ["read"]
  destinations := ∅
  externalEffectClass := none
  budget := budget
  constraintsDigest := ⟨0x77cc975a2441c43236440123b75fac72df1eb8918031bf38ffbdaa3b73d984a8⟩

def capabilities : CapabilityContract := ⟨.ofList [("artifact-read", artifactRead)], budget⟩

def output : OutputContract where
  stdoutMaxBytes := 1048576
  stderrMaxBytes := 1048576
  structuredOutputSchema := some ⟨0xea3a4cd6ee7b06c143bab7bb3892cc8f3d54bfcfa1130e66269ff5f92fc85ecd⟩
  artifactClasses := .ofList ["report"]
  filesystemChangeRoots := .ofList ["target"]

def evidence : EvidenceContract := ⟨.baseline, 10000, 8388608, 86400000⟩

def resolverDigest : ContentDigest := ⟨0x439c3635079b57a69aff22860369462fb9330c300fa4dbc70426f087192e369d⟩

def plannerDigest : ContentDigest := ⟨0x244b8435061420f6b2887681bbe2d24b18fc8f790a75c5bf16937bb8417e651a⟩

def policyVersionDigest : ContentDigest :=
  ⟨0x903d81b257648d946b5deec92464cf024f0ebf4449e5b289e59193cc125acca0⟩

def policy : DelegationPolicy where
  plannerPrincipal := "planner-default"
  plannerImplementationDigest := plannerDigest
  allowedProgramKinds := .ofList [ProgramKind.wasmComponent]
  allowedProgramResolvers := .ofList [resolverDigest]
  allowedRuntimeProfiles := .ofList [runtimeDigest]
  maximumResources := resources
  placement := placement
  capabilities := capabilities
  nondeterminism := ⟨∅⟩
  output := output
  maximumChildCount := 100
  maximumConcurrency := 4
  maximumChildDurationMs := 3600000
  subdelegationAllowed := false
  policyVersionId := "delegation-policy-v1"
  policyVersionDigest := policyVersionDigest

def policyDigest : ContentDigest := ⟨0x4355da7191b9546818dd42f8c1983c2f85707b13c322b2db7d6cc21122c1b033⟩

def initialWorkspaceDigest : ContentDigest :=
  ⟨0xcb32cc26dd910e973d805edb73992e685c282b5f2c3b44656f92cf855b525fd1⟩

def session : SessionCapsule where
  schemaVersion := 1
  kind := .session
  tenantId := "tenant-example"
  principalId := "principal-developer"
  initialWorkspaceDigest := initialWorkspaceDigest
  mutableWorkspaceRoots := .ofList ["workspace"]
  runtime := runtime
  placement := placement
  maximumResources := resources
  capabilities := capabilities
  nondeterminism := ⟨∅⟩
  output := output
  evidence := evidence
  idleTimeoutMs := 60000
  hardLifetimeMs := 3600000
  maximumChildCount := 100
  maximumConcurrency := 4
  delegationPolicies := .ofList [("delegation-default", policy)]

def sessionDigest : ContentDigest := ⟨0xbadc27069a095014214e749adf998ea4a751ce5a9be314551b310d7b18c1e02c⟩

def subject : ApprovalSubject where
  schemaVersion := 1
  capsuleKind := .session
  capsuleDigest := sessionDigest
  policyDigest := ⟨0x294f8df93b2bffc032189052b6890aed01f565d518c0a06aed3f16b9954bcd5a⟩
  authorityContextDigest := ⟨0x88cf299700501bdc267f82ec51bb414ab5c0facd56db82f3e66d19bd84204d7f⟩

def subjectDigest : ContentDigest := ⟨0xf466e7658ab77107834b7b16ef3639cc84789551af1d8dd33c381e5903177e9f⟩

/-- The canonical signing payload of `sessionSeal`. -/
def signingBytes : List UInt8 := ascii
  ("" ++
    "\x7b\"approval_subject_digest\":\"sha256:f466e7658ab77107834b7b16ef3639cc84789551af1d8dd33c381e5903177e9f\"," ++
    "\"authority_identity\":\"authority-tenant-policy\"," ++
    "\"capsule_digest\":\"sha256:badc27069a095014214e749adf998ea4a751ce5a9be314551b310d7b18c1e02c\"," ++
    "\"capsule_kind\":\"session\",\"expires_unix_ms\":10000,\"issued_unix_ms\":1000," ++
    "\"revocation_generation\":7,\"schema_version\":1,\"signature_algorithm\":\"ed25519-v1\"," ++
    "\"signer_identity\":\"signer-security-team\"," ++
    "\"signing_key_id\":\"sha256:9c83ce89c999cffbae73c36944cd7d97340bc628a419077a7177acd09d78ed1e\"\x7d")

/-- The text of the payload's digest, which the tests' verifier takes for the signature. -/
def signature : List UInt8 :=
  ascii "sha256:453d8cfd87f5a4a0c7cd1e1d0d2371c9700e64093faa652a5d3c68144c6f1a80"

def verifier : SealSignatureVerifier := fun s _ => s.signature = signature

def sessionSeal : Seal where
  schemaVersion := 1
  approvalSubjectDigest := subjectDigest
  capsuleKind := .session
  capsuleDigest := sessionDigest
  signerIdentity := "signer-security-team"
  authorityIdentity := "authority-tenant-policy"
  issuedUnixMs := 1000
  expiresUnixMs := 10000
  revocationGeneration := 7
  signatureAlgorithm := "ed25519-v1"
  signingKeyId := ⟨0x9c83ce89c999cffbae73c36944cd7d97340bc628a419077a7177acd09d78ed1e⟩
  signature := signature

def sealDigest : ContentDigest := ⟨0x18301c4889740acc8386301d6e0fe76a420b5ef67ffd40d8e45b1294fe3fe815⟩

def grant : DelegationGrant where
  schemaVersion := 1
  delegationId := "delegation-issued-1"
  parentSessionCapsuleDigest := sessionDigest
  parentSessionSealDigest := sealDigest
  policyId := "delegation-default"
  policyDigest := policyDigest
  plannerPrincipal := "planner-default"
  plannerImplementationDigest := plannerDigest
  allowedProgramKinds := .ofList [ProgramKind.wasmComponent]
  allowedProgramResolvers := .ofList [resolverDigest]
  allowedRuntimeProfiles := .ofList [runtimeDigest]
  maximumResources := resources
  placement := placement
  capabilities := capabilities
  nondeterminism := ⟨∅⟩
  output := output
  maximumChildCount := 1
  maximumConcurrency := 1
  maximumChildDurationMs := 3600000
  subdelegationAllowed := false
  policyVersionId := "delegation-policy-v1"
  policyVersionDigest := policyVersionDigest
  issuedUnixMs := 2000
  expiresUnixMs := 9000
  revocationGeneration := 1

def grantDigest : ContentDigest := ⟨0x606a397ad988599a1418d2d0d24263cb3f47cbe84ae0cc653fb0e608f45b6c98⟩

def program : ProgramIdentity where
  schemaVersion := 1
  kind := .wasmComponent
  contentDigest := ⟨0x1310ca2c8932dbd118668bd97442558a3e1f546b5e15c69699dfbd6024f548d8⟩
  resolverDigest := resolverDigest
  mediaType := "application/wasm"
  entrypoint := ["run"]
  signature := some
    ⟨"program-signer", "ed25519-v1",
      ⟨0x71fde9d7f856a50a3f99151c7aa9485fae3be128d7fb7713e679fd11c6cd8363⟩,
      ⟨0xbab946eec22d097b360fd73a884e064e14b4f0c05dd9679214c6624693cbab8a⟩,
      ⟨0x2fad383826c96ca12acc01c6e43f5ab3b7982b0a437dbfcd296b3acbad9a2fee⟩⟩
  platform := none
  compatibilityMetadata := .ofList
    [("component-model", ContentDigest.mk 0x0b2e352d43013dc6e13c02c5a19ffe97effefa2226a88737151242789c76d01a)]

def parent : ParentBinding where
  sessionCapsuleDigest := sessionDigest
  sessionSealDigest := sealDigest
  delegationId := "delegation-issued-1"
  delegationGrantDigest := grantDigest
  workspaceGenerationDigest := ⟨0xa7eea42bc0325d4584c08c30bfc81995e3da72f3c75cb88af877c3a7eb11cd12⟩
  containmentProofDigest := ⟨0x0e4f3ef880c53866662e2820adcf75847a18aa22448890fa9741777c990bc905⟩

def child : ExecutionCapsule where
  schemaVersion := 1
  kind := .execution
  tenantId := "tenant-example"
  principalId := "principal-developer"
  program := program
  arguments := ["--locked"]
  workingDirectory := some "workspace"
  inputArtifacts := .ofList
    [ContentDigest.mk 0xc96c6d5be8d08a12e7b5cdc1b207fa6b2430974c86803d8891675e76fd992c20]
  runtime := runtime
  placement := placement
  resources := ⟨500, 67108864, 134217728, 4, 1, 16777216, 3600000⟩
  capabilities := { capabilities with aggregateBudget := ⟨40, 262144, 2097152, 0⟩ }
  nondeterminism := ⟨∅⟩
  externalEffects := ⟨∅⟩
  output := output
  evidence := evidence
  parent := some parent

def childDigest : ContentDigest := ⟨0x287a9390705cb8bfba5398d8305715d04b7e020eaa717703ff02fc937713d6c9⟩

/-- The admission of `child` as the `n`-th child of the Session. -/
def admission (n : String) (revision : U64) : Admission where
  request :=
    ⟨1, "reservation-" ++ n, "session-1", "child-" ++ n, "reserve-" ++ n, 11, revision, 5000⟩
  session := session
  subject := subject
  sessionSeal := sessionSeal
  verifier := verifier
  grant := grant
  child := child
  nowUnixMs := 5000
  currentPolicyDigest := subject.policyDigest
  currentSealRevocationGeneration := 7
  currentGrantRevocationGeneration := 1

/-- The ledger of the Session before any call. -/
def ledger : SessionReservationLedger where
  sessionId := "session-1"
  sessionCapsuleDigest := sessionDigest
  sessionFence := 11
  ledgerRevision := 0
  limits := ⟨2000, 536870912, 1073741824, 64, 100, 1048576, 8388608, 0⟩
  allocated := .zero
  cumulativeUsage := .zero
  maximumConcurrency := 4
  maximumChildCount := 100
  activeConcurrency := 0
  admittedChildCount := 0
  nextGeneration := 1
  reservations := ∅
  childReservations := ∅
  reserveIdempotency := ∅
  transitionIdempotency := ∅

def usage : CapabilityUsage := ⟨10, 1024, 2048, 0⟩

/-- The first child finalises, after two admissions. -/
def completion : ReservationTransitionRequest where
  schemaVersion := 1
  reservationId := "reservation-1"
  childExecutionId := "child-1"
  idempotencyKey := "finalize-1"
  sessionFence := 11
  expectedLedgerRevision := 2
  outcome := .finalized ⟨0x84db80aea1c9efdf9780191c37db919c78aef24a63eba74ef9c8cbc2a8186c89⟩
  actualUsage := usage
  observedUnixMs := 6000

def publication : WorkspacePublicationRequest where
  schemaVersion := 1
  sessionId := "session-1"
  sessionCapsuleDigest := sessionDigest
  reservationId := "reservation-1"
  childExecutionId := "child-1"
  inputGeneration := 0
  inputWorkspaceDigest := initialWorkspaceDigest
  outputWorkspaceDigest := ⟨0x484d4f88b59b95fc9409ad7018107c51e26f7cc196e3e48caa9f7ccbfb509fbf⟩
  outputManifestDigest := ⟨0xe3826d9941e2c709418be62a379802e0e3d4a2e14ca1fb9bb29a0e2fc87af7cd⟩
  idempotencyKey := "publish-1"
  sessionFence := 11
  expectedPublicationRevision := 0
  expectedReservationRevision := 2
  committedUnixMs := 7000

/-- The workspace of the Session before any call. -/
def publications : WorkspacePublicationLedger where
  sessionId := "session-1"
  sessionCapsuleDigest := sessionDigest
  sessionFence := 11
  ledgerRevision := 0
  initialWorkspaceDigest := initialWorkspaceDigest
  current := ⟨0, initialWorkspaceDigest⟩
  publications := ∅
  idempotency := ∅
  publishedByChild := ∅

/-- The canonical digests of these records. -/
def canonical : Canonical where
  runtime _ := .ok runtimeDigest
  policy _ := .ok policyDigest
  grant _ := .ok grantDigest
  session _ := .ok sessionDigest
  execution _ := .ok childDigest
  subject _ := .ok subjectDigest
  sealEnvelope _ := .ok sealDigest
  signingPayload _ := .ok signingBytes
  reservation r :=
    if r.reservationId = "reservation-1" then
      .ok ⟨0x0d9e6523a10873ac1ece4d079e15f146d896e794ac756e1899895b50e96d1c99⟩
    else .ok ⟨0x300cbd51467115f7fab76ad300f48dcedd3c1b6b80e7d538786281dcc77e7775⟩
  transition r :=
    if r.idempotencyKey = "finalize-1" then
      .ok ⟨0xc69232721c0f8eda5acd4af853a16bf84ad6b6b1d80934b898267d52ae56f38f⟩
    else if r.idempotencyKey = "release-1" then
      .ok ⟨0xc388852b078b741c073cbc5e05a17124a2703e8a5d51dc6c03211d1afd048549⟩
    else .ok ⟨0x7ad12d38bbdb92cdf978409e60286cd1381673c6163bc9618db6f1f262fea0c7⟩
  publication _ := .ok ⟨0x25abac7c81fcd062d18139f1fe9544339df2d3074cd72d1a2a68590a7928b3b9⟩

end Fixture

end Runtrue.Execution
