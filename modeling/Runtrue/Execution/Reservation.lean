import Runtrue.Execution.Capsule

/-!
# The Session reservation ledger

`reservation.rs`. A ledger admits children of one Session against the Session's limits. Admitting and
releasing work on a copy of the ledger (`reserveStaged`, `transitionStaged`) that is validated and then
replaces the ledger. `validate` rebuilds every counter and index from the records.

`ChildResourceReservation` and `CapabilityUsage` do the same thing in each of their fields, so their
arithmetic is written once over two fields (`zip`).
-/

namespace Runtrue.Execution

open Fallible Validation

def sessionReservationSchemaVersion : U32 := 1

/-! ### Resources -/

namespace ChildResourceReservation

/-- The derived `Default`. -/
def zero : ChildResourceReservation := ⟨0, 0, 0, 0, 0, 0, 0, 0⟩

def validate (r : ChildResourceReservation) : Checked Unit :=
  rejectIf (r.cpuMillis = 0 ∨ r.memoryBytes = 0 ∨ r.storageBytes = 0 ∨ r.taskCount = 0)
    (.invalidField "child resource reservation" "compute reservations must be greater than zero")

def contains (parent child : ChildResourceReservation) : Bool :=
  child.cpuMillis ≤ parent.cpuMillis && child.memoryBytes ≤ parent.memoryBytes &&
  child.storageBytes ≤ parent.storageBytes && child.taskCount ≤ parent.taskCount &&
  child.capabilityCalls ≤ parent.capabilityCalls &&
  child.capabilityRequestBytes ≤ parent.capabilityRequestBytes &&
  child.capabilityResponseBytes ≤ parent.capabilityResponseBytes &&
  child.externalEffectCount ≤ parent.externalEffectCount

/-- Apply a checked operation to each field. -/
def zip (f : U64 → U64 → Option U64) (a b : ChildResourceReservation) :
    Checked ChildResourceReservation := do
  let cpuMillis ← okOr (f a.cpuMillis b.cpuMillis) .accountingFailure
  let memoryBytes ← okOr (f a.memoryBytes b.memoryBytes) .accountingFailure
  let storageBytes ← okOr (f a.storageBytes b.storageBytes) .accountingFailure
  let taskCount ← okOr (f a.taskCount b.taskCount) .accountingFailure
  let capabilityCalls ← okOr (f a.capabilityCalls b.capabilityCalls) .accountingFailure
  let capabilityRequestBytes ← okOr (f a.capabilityRequestBytes b.capabilityRequestBytes) .accountingFailure
  let capabilityResponseBytes ←
    okOr (f a.capabilityResponseBytes b.capabilityResponseBytes) .accountingFailure
  let externalEffectCount ← okOr (f a.externalEffectCount b.externalEffectCount) .accountingFailure
  return ⟨cpuMillis, memoryBytes, storageBytes, taskCount, capabilityCalls, capabilityRequestBytes,
    capabilityResponseBytes, externalEffectCount⟩

def checkedAdd : ChildResourceReservation → ChildResourceReservation → Checked ChildResourceReservation :=
  zip Fixed.checkedAdd

def checkedSub : ChildResourceReservation → ChildResourceReservation → Checked ChildResourceReservation :=
  zip Fixed.checkedSub

/-- The limits of `resources` and of the aggregate capability budget. -/
def ofLimits (resources : ResourceLimits) (budget : CapabilityBudget) : ChildResourceReservation where
  cpuMillis := resources.cpuMillis.setWidth 64
  memoryBytes := resources.memoryBytes
  storageBytes := resources.storageBytes
  taskCount := resources.taskCount.setWidth 64
  capabilityCalls := budget.maximumCalls
  capabilityRequestBytes := budget.maximumRequestBytes
  capabilityResponseBytes := budget.maximumResponseBytes
  externalEffectCount := budget.maximumExternalEffects

def fromSession (session : SessionCapsule) : ChildResourceReservation :=
  ofLimits session.maximumResources session.capabilities.aggregateBudget

def fromChild (child : ExecutionCapsule) : ChildResourceReservation :=
  ofLimits child.resources child.capabilities.aggregateBudget

def capabilityUsage (r : ChildResourceReservation) : CapabilityUsage :=
  ⟨r.capabilityCalls, r.capabilityRequestBytes, r.capabilityResponseBytes, r.externalEffectCount⟩

def containsUsage (r : ChildResourceReservation) (usage : CapabilityUsage) : Bool :=
  usage.capabilityCalls ≤ r.capabilityCalls &&
  usage.capabilityRequestBytes ≤ r.capabilityRequestBytes &&
  usage.capabilityResponseBytes ≤ r.capabilityResponseBytes &&
  usage.externalEffectCount ≤ r.externalEffectCount

end ChildResourceReservation

namespace CapabilityUsage

/-- The derived `Default`. -/
def zero : CapabilityUsage := ⟨0, 0, 0, 0⟩

def checkedAdd (a b : CapabilityUsage) : Checked CapabilityUsage := do
  let capabilityCalls ← okOr (Fixed.checkedAdd a.capabilityCalls b.capabilityCalls) .accountingFailure
  let capabilityRequestBytes ←
    okOr (Fixed.checkedAdd a.capabilityRequestBytes b.capabilityRequestBytes) .accountingFailure
  let capabilityResponseBytes ←
    okOr (Fixed.checkedAdd a.capabilityResponseBytes b.capabilityResponseBytes) .accountingFailure
  let externalEffectCount ←
    okOr (Fixed.checkedAdd a.externalEffectCount b.externalEffectCount) .accountingFailure
  return ⟨capabilityCalls, capabilityRequestBytes, capabilityResponseBytes, externalEffectCount⟩

end CapabilityUsage

/-! ### Requests -/

def ChildAdmissionRequest.validate (r : ChildAdmissionRequest) : Checked Unit := do
  schema "child admission schema version" r.schemaVersion sessionReservationSchemaVersion
  identifier "reservation identity" r.reservationId
  identifier "Session identity" r.sessionId
  identifier "child Execution identity" r.childExecutionId
  identifier "child admission idempotency key" r.idempotencyKey
  rejectIf (r.sessionFence = 0 ∨ r.createdUnixMs = 0)
    (.invalidField "child admission fence or creation time" "must be greater than zero")

def ChildReservationRequest.validate (r : ChildReservationRequest) : Checked Unit := do
  schema "child reservation schema version" r.schemaVersion sessionReservationSchemaVersion
  identifier "reservation identity" r.reservationId
  identifier "Session identity" r.sessionId
  identifier "child Execution identity" r.childExecutionId
  identifier "reservation idempotency key" r.idempotencyKey
  rejectIf (r.sessionFence = 0 ∨ r.createdUnixMs = 0)
    (.invalidField "reservation fence or creation time" "must be greater than zero")
  r.resources.validate

def ReservationTransitionRequest.validate (r : ReservationTransitionRequest) : Checked Unit := do
  schema "reservation transition schema version" r.schemaVersion sessionReservationSchemaVersion
  identifier "reservation identity" r.reservationId
  identifier "child Execution identity" r.childExecutionId
  identifier "transition idempotency key" r.idempotencyKey
  rejectIf (r.sessionFence = 0 ∨ r.observedUnixMs = 0)
    (.invalidField "transition fence or observation time" "must be greater than zero")

def ReservationTerminalOutcome.state : ReservationTerminalOutcome → ReservationState
  | released _ => .released
  | finalized _ => .finalized

/-- The arguments of `admit_child`. -/
structure Admission where
  request : ChildAdmissionRequest
  session : SessionCapsule
  subject : ApprovalSubject
  sessionSeal : Seal
  verifier : SealSignatureVerifier
  grant : DelegationGrant
  child : ExecutionCapsule
  nowUnixMs : U64
  currentPolicyDigest : ContentDigest
  currentSealRevocationGeneration : U64
  currentGrantRevocationGeneration : U64

/-- The reservation request derived from an admission and the two capsule digests. -/
def Admission.derived (a : Admission) (sessionCapsuleDigest childCapsuleDigest : ContentDigest) :
    ChildReservationRequest where
  schemaVersion := a.request.schemaVersion
  reservationId := a.request.reservationId
  sessionId := a.request.sessionId
  sessionCapsuleDigest := sessionCapsuleDigest
  childExecutionId := a.request.childExecutionId
  childCapsuleDigest := childCapsuleDigest
  idempotencyKey := a.request.idempotencyKey
  sessionFence := a.request.sessionFence
  expectedLedgerRevision := a.request.expectedLedgerRevision
  resources := .fromChild a.child
  createdUnixMs := a.request.createdUnixMs

def Admission.context (a : Admission) : DelegationValidationContext where
  session := a.session
  subject := a.subject
  sessionSeal := a.sessionSeal
  verifier := a.verifier
  nowUnixMs := a.nowUnixMs
  currentSealRevocationGeneration := a.currentSealRevocationGeneration
  currentGrantRevocationGeneration := a.currentGrantRevocationGeneration

variable (C : Canonical)

def ChildReservationRequest.digest (r : ChildReservationRequest) : Checked ContentDigest := do
  r.validate
  C.reservation r

def ReservationTransitionRequest.digest (r : ReservationTransitionRequest) : Checked ContentDigest := do
  r.validate
  C.transition r

/-! ### Validation of a ledger -/

namespace SessionReservationLedger

/-- What `validate` has rebuilt from the records it has seen. -/
structure Tally where
  reconstructed : ChildResourceReservation
  reconstructedUsage : CapabilityUsage
  active : U32
  maxGeneration : U64
  terminalCount : Nat
  generations : BTreeSet U64

def Tally.empty : Tally := ⟨.zero, .zero, 0, 0, 0, ∅⟩

/-- A Reserved record: its resources are allocated and it is active. -/
def visitReserved (t : Tally) (record : ChildReservationRecord) : Checked Tally := do
  rejectIf (record.terminalRequestDigest.isSome ∨ record.terminalRequest.isSome ∨
    record.terminalOutcome.isSome) .accountingFailure
  let reconstructed ← t.reconstructed.checkedAdd record.request.resources
  let active ← okOr (Fixed.checkedAdd t.active 1) .accountingFailure
  return { t with reconstructed := reconstructed, active := active }

/-- A terminal record: its usage is charged for good. -/
def visitTerminal (L : SessionReservationLedger) (t : Tally) (reservationId : String)
    (record : ChildReservationRecord) : Checked Tally := do
  let terminal ← okOr record.terminalRequest .accountingFailure
  let terminalDigest ← terminal.digest C
  rejectIf (¬record.request.resources.containsUsage terminal.actualUsage) .accountingFailure
  let reconstructedUsage ← t.reconstructedUsage.checkedAdd terminal.actualUsage
  rejectIf (terminal.reservationId ≠ reservationId ∨
      terminal.childExecutionId ≠ record.request.childExecutionId ∨
      terminal.sessionFence ≠ L.sessionFence ∨
      record.terminalRequestDigest ≠ some terminalDigest ∨
      record.terminalOutcome ≠ some terminal.outcome ∨
      record.state ≠ terminal.outcome.state ∨
      L.transitionIdempotency[terminal.idempotencyKey]? ≠ some (reservationId, terminalDigest))
    .accountingFailure
  return { t with terminalCount := t.terminalCount + 1, reconstructedUsage := reconstructedUsage }

/-- One turn of the loop over the records. -/
def visit (L : SessionReservationLedger) (t : Tally) (entry : String × ChildReservationRecord) :
    Checked Tally := do
  let (reservationId, record) := entry
  record.request.validate
  rejectIf (reservationId ≠ record.request.reservationId) .accountingFailure
  let requestDigest ← record.request.digest C
  rejectIf (record.requestDigest ≠ requestDigest ∨
      record.request.sessionId ≠ L.sessionId ∨
      record.request.sessionCapsuleDigest ≠ L.sessionCapsuleDigest ∨
      record.request.sessionFence ≠ L.sessionFence ∨
      record.generation = 0 ∨ record.generation ∈ t.generations ∨
      L.childReservations[record.request.childExecutionId]? ≠ some reservationId ∨
      L.reserveIdempotency[record.request.idempotencyKey]? ≠ some reservationId)
    .accountingFailure
  let t := { t with
    generations := t.generations.insert record.generation
    maxGeneration := if t.maxGeneration < record.generation then record.generation else t.maxGeneration }
  match record.state with
  | .reserved => visitReserved t record
  | .released | .finalized => visitTerminal C L t reservationId record

/-- Reconstruct every derived counter and index from the records. -/
def validate (L : SessionReservationLedger) : Checked Unit := do
  identifier "Session identity" L.sessionId
  L.limits.validate
  rejectIf (L.sessionFence = 0 ∨ L.maximumConcurrency = 0 ∨ L.maximumChildCount = 0 ∨
    L.maximumConcurrency > L.maximumChildCount) .accountingFailure
  let t ← foldEach (visit C L) .empty L.reservations.toList
  let admitted ← okOr (Fixed.tryFrom 32 L.reservations.size) .accountingFailure
  let expectedNext ← okOr (Fixed.checkedAdd t.maxGeneration 1) .accountingFailure
  let count ← okOr (Fixed.tryFrom 64 L.reservations.size) .accountingFailure
  let terminals ← okOr (Fixed.tryFrom 64 t.terminalCount) .accountingFailure
  let expectedRevision ← okOr (Fixed.checkedAdd count terminals) .accountingFailure
  rejectIf (L.childReservations.size ≠ L.reservations.size ∨
      L.reserveIdempotency.size ≠ L.reservations.size ∨
      L.transitionIdempotency.size ≠ t.terminalCount ∨
      L.allocated ≠ t.reconstructed ∨ L.cumulativeUsage ≠ t.reconstructedUsage ∨
      ¬L.limits.contains L.allocated)
    .accountingFailure
  let committedAndReserved ← L.cumulativeUsage.checkedAdd L.allocated.capabilityUsage
  rejectIf (¬L.limits.containsUsage committedAndReserved ∨
      L.activeConcurrency ≠ t.active ∨ L.activeConcurrency > L.maximumConcurrency ∨
      L.admittedChildCount ≠ admitted ∨ L.admittedChildCount > L.maximumChildCount ∨
      L.nextGeneration ≠ expectedNext ∨ L.ledgerRevision ≠ expectedRevision)
    .accountingFailure

/-! ### Operations -/

def new (sessionId : String) (session : SessionCapsule) (sessionFence : U64) :
    Checked SessionReservationLedger := do
  identifier "Session identity" sessionId
  session.validate C
  rejectIf (sessionFence = 0) .staleSessionFence
  let sessionCapsuleDigest ← session.digest C
  return {
    sessionId, sessionCapsuleDigest, sessionFence
    ledgerRevision := 0
    limits := .fromSession session
    allocated := .zero
    cumulativeUsage := .zero
    maximumConcurrency := session.maximumConcurrency
    maximumChildCount := session.maximumChildCount
    activeConcurrency := 0
    admittedChildCount := 0
    nextGeneration := 1
    reservations := ∅
    childReservations := ∅
    reserveIdempotency := ∅
    transitionIdempotency := ∅ }

def exactReservationReplay (L : SessionReservationLedger) (request : ChildReservationRequest) :
    Checked (Option ReservationResult) :=
  match L.reserveIdempotency[request.idempotencyKey]? with
  | none => .ok none
  | some reservationId => do
    let record ← okOr L.reservations[reservationId]? .accountingFailure
    let requestDigest ← request.digest C
    rejectIf (record.requestDigest ≠ requestDigest) .idempotencyConflict
    return some ⟨record, true⟩

/-- The ledger with a new Reserved record. -/
def withReservation (L : SessionReservationLedger) (request : ChildReservationRequest)
    (record : ChildReservationRecord) (allocated : ChildResourceReservation) (nextActive : U32)
    (nextAdmitted : U32) (nextGeneration : U64) (nextRevision : U64) : SessionReservationLedger :=
  { L with
    allocated := allocated
    activeConcurrency := nextActive
    admittedChildCount := nextAdmitted
    nextGeneration := nextGeneration
    ledgerRevision := nextRevision
    childReservations := L.childReservations.insert request.childExecutionId request.reservationId
    reserveIdempotency := L.reserveIdempotency.insert request.idempotencyKey request.reservationId
    reservations := L.reservations.insert request.reservationId record }

def reserveStaged (L : SessionReservationLedger) (request : ChildReservationRequest) :
    Checked (ReservationResult × SessionReservationLedger) := do
  request.validate
  let requestDigest ← request.digest C
  match ← L.exactReservationReplay C request with
  | some result => return (result, L)
  | none => do
    rejectIf (request.sessionFence ≠ L.sessionFence) .staleSessionFence
    rejectIf (request.expectedLedgerRevision ≠ L.ledgerRevision) .staleLedgerRevision
    rejectIf (request.sessionId ≠ L.sessionId ∨ request.sessionCapsuleDigest ≠ L.sessionCapsuleDigest ∨
        L.reservations.contains request.reservationId ∨
        L.childReservations.contains request.childExecutionId)
      .reservationIdentityConflict
    let allocated ← L.allocated.checkedAdd request.resources
    let committedAndReserved ← L.cumulativeUsage.checkedAdd allocated.capabilityUsage
    rejectIf (¬L.limits.contains allocated ∨ ¬L.limits.containsUsage committedAndReserved ∨
        L.activeConcurrency ≥ L.maximumConcurrency ∨ L.admittedChildCount ≥ L.maximumChildCount)
      .reservationCapacityUnavailable
    let nextGeneration ← okOr (Fixed.checkedAdd L.nextGeneration 1) .accountingFailure
    let nextActive ← okOr (Fixed.checkedAdd L.activeConcurrency 1) .accountingFailure
    let nextAdmitted ← okOr (Fixed.checkedAdd L.admittedChildCount 1) .accountingFailure
    let nextRevision ← okOr (Fixed.checkedAdd L.ledgerRevision 1) .accountingFailure
    let record : ChildReservationRecord :=
      ⟨request, requestDigest, L.nextGeneration, .reserved, none, none, none⟩
    return (⟨record, false⟩,
      L.withReservation request record allocated nextActive nextAdmitted nextGeneration nextRevision)

/-- Everything `admit_child` does before it reserves: a replay of an earlier admission, or the request to
reserve. -/
def prepareAdmission (L : SessionReservationLedger) (a : Admission) :
    Checked (ReservationResult ⊕ ChildReservationRequest) := do
  a.request.validate
  L.validate C
  a.session.validate C
  a.child.validate
  let childCapsuleDigest ← a.child.digest C
  let sessionCapsuleDigest ← a.session.digest C
  let derived := a.derived sessionCapsuleDigest childCapsuleDigest
  match ← L.exactReservationReplay C derived with
  | some result => return .inl result
  | none => do
    rejectIf (derived.sessionId ≠ L.sessionId ∨
        derived.sessionCapsuleDigest ≠ L.sessionCapsuleDigest ∨ derived.sessionFence ≠ L.sessionFence ∨
        a.child.tenantId ≠ a.session.tenantId ∨ a.subject.policyDigest ≠ a.currentPolicyDigest)
      .reservationIdentityConflict
    a.grant.validateAgainstParent C a.context
    a.grant.containsChild C a.child
    return .inr derived

/-- An admission on a copy of the ledger. -/
def admitStaged (L : SessionReservationLedger) (a : Admission) :
    Checked (ReservationResult × SessionReservationLedger) := do
  match ← L.prepareAdmission C a with
  | .inl result => return (result, L)
  | .inr derived => do
    let (result, staged) ← L.reserveStaged C derived
    staged.validate C
    return (result, staged)

def admitChild (L : SessionReservationLedger) (a : Admission) :
    Checked ReservationResult × SessionReservationLedger :=
  commit L (L.admitStaged C a)

def terminate (record : ChildReservationRecord) (request : ReservationTransitionRequest)
    (requestDigest : ContentDigest) : ChildReservationRecord :=
  { record with
    state := request.outcome.state
    terminalRequestDigest := some requestDigest
    terminalRequest := some request
    terminalOutcome := some request.outcome }

/-- The ledger with a terminal record in place of a Reserved one. -/
def withTransition (L : SessionReservationLedger) (request : ReservationTransitionRequest)
    (requestDigest : ContentDigest) (record : ChildReservationRecord)
    (allocated : ChildResourceReservation) (cumulativeUsage : CapabilityUsage) (active : U32)
    (nextRevision : U64) : SessionReservationLedger :=
  { L with
    reservations := L.reservations.insert request.reservationId record
    allocated := allocated
    cumulativeUsage := cumulativeUsage
    activeConcurrency := active
    transitionIdempotency :=
      L.transitionIdempotency.insert request.idempotencyKey (request.reservationId, requestDigest)
    ledgerRevision := nextRevision }

def transitionStaged (L : SessionReservationLedger) (request : ReservationTransitionRequest) :
    Checked (ReservationResult × SessionReservationLedger) := do
  request.validate
  let requestDigest ← request.digest C
  match L.transitionIdempotency[request.idempotencyKey]? with
  | some (reservationId, priorDigest) => do
    rejectIf (priorDigest ≠ requestDigest) .idempotencyConflict
    let record ← okOr L.reservations[reservationId]? .accountingFailure
    return (⟨record, true⟩, L)
  | none => do
    rejectIf (request.sessionFence ≠ L.sessionFence) .staleSessionFence
    rejectIf (request.expectedLedgerRevision ≠ L.ledgerRevision) .staleLedgerRevision
    let record ← okOr L.reservations[request.reservationId]? .reservationNotFound
    rejectIf (record.request.childExecutionId ≠ request.childExecutionId) .reservationIdentityConflict
    rejectIf (record.state ≠ .reserved) .invalidReservationTransition
    let allocated ← L.allocated.checkedSub record.request.resources
    rejectIf (¬record.request.resources.containsUsage request.actualUsage) .accountingFailure
    let cumulativeUsage ← L.cumulativeUsage.checkedAdd request.actualUsage
    let active ← okOr (Fixed.checkedSub L.activeConcurrency 1) .accountingFailure
    let nextRevision ← okOr (Fixed.checkedAdd L.ledgerRevision 1) .accountingFailure
    let result := terminate record request requestDigest
    return (⟨result, false⟩,
      L.withTransition request requestDigest result allocated cumulativeUsage active nextRevision)

/-- A release on a copy of the ledger. -/
def releaseStaged (L : SessionReservationLedger) (request : ReservationTransitionRequest) :
    Checked (ReservationResult × SessionReservationLedger) := do
  rejectIf (request.outcome.state ≠ .released) .invalidReservationTransition
  L.validate C
  let (result, staged) ← L.transitionStaged C request
  staged.validate C
  return (result, staged)

def release (L : SessionReservationLedger) (request : ReservationTransitionRequest) :
    Checked ReservationResult × SessionReservationLedger :=
  commit L (L.releaseStaged C request)

def reservation (L : SessionReservationLedger) (reservationId : String) : Option ChildReservationRecord :=
  L.reservations[reservationId]?

end SessionReservationLedger

end Runtrue.Execution
