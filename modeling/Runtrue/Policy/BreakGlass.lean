import Runtrue.Base.Collect
import Runtrue.Base.Encoding
import Runtrue.Base.Run
import Runtrue.Expression.Lexer
import Runtrue.Model.ContentDigest

/-!
# Break-glass requests

The exact-action emergency authorization of the `policy` crate (`break_glass/`). A request is created from its
immutable fields, may need an independent approval, must be notified, and is then used once. Every operation
first lets the request expire, also when it then fails, so an operation returns its result and the request
after it. The hash of the subject is a parameter.
-/

namespace Runtrue.Policy

open Fallible
open Expression (isWhitespace)

def breakGlassDomain : List UInt8 := Text.bytes "runtrue.break-glass.subject.v1\x00"
def maxBreakGlassDurationMs : U64 := BitVec.ofNat 64 (15 * 60 * 1000)
def maxBreakGlassMfaAgeMs : U64 := BitVec.ofNat 64 (5 * 60 * 1000)
def maxBreakGlassTextBytes : Nat := 2000
def maxBreakGlassApprovers : Nat := 1000

def neverBreakGlassActions : List String :=
  ["RevealNonExportableSigningKey", "DeleteAuditEvent", "SuppressAuditEvent"]

inductive BreakGlassStatus
  | pendingApproval | pendingNotification | active | denied | expired | consumed
deriving DecidableEq

/-- The states that expire. -/
def BreakGlassStatus.isOpen : BreakGlassStatus → Bool
  | .pendingApproval | .pendingNotification | .active => true
  | .denied | .expired | .consumed => false

structure NewBreakGlassRequest where
  id : String
  tenantId : String
  requesterId : String
  action : String
  resourceKind : String
  resourceId : String
  reason : String
  incidentReference : String
  requestedUnixMs : U64
  requesterMfaUnixMs : U64
  expiresUnixMs : U64
  requireSecondApprover : Bool
  eligibleApprovers : BTreeSet String
deriving DecidableEq

structure BreakGlassApproval where
  actorId : String
  approve : Bool
  reason : String
  subjectDigest : ContentDigest
  decidedUnixMs : U64
  actorMfaUnixMs : U64
deriving DecidableEq

structure BreakGlassNotificationReceipt where
  subjectDigest : ContentDigest
  channel : String
  deliveryId : String
  notifiedUnixMs : U64
deriving DecidableEq

structure BreakGlassUse where
  subjectDigest : ContentDigest
  actorId : String
  action : String
  resourceKind : String
  resourceId : String
  incidentReference : String
  usedUnixMs : U64
  reauthenticatedUnixMs : U64
deriving DecidableEq

/-- The fields that a request is created from, bound by their digest, and its evidence. -/
structure BreakGlassRequest extends NewBreakGlassRequest where
  subjectDigest : ContentDigest
  status : BreakGlassStatus
  approval : Option BreakGlassApproval
  notification : Option BreakGlassNotificationReceipt
  useRecord : Option BreakGlassUse
deriving DecidableEq

inductive BreakGlassError
  | invalidText (kind : String)
  | permanentlyForbiddenAction (action : String)
  | invalidDuration
  | recentMfaRequired
  | invalidApproverSet
  | invalidState (status : BreakGlassStatus)
  | subjectMismatch
  | ineligibleApprover
  | invalidDecisionTime
  | invalidNotificationTime
  | integrityMismatch
deriving DecidableEq

/-! ### Validation -/

/-- The texts of a request, in the order of its subject. -/
def NewBreakGlassRequest.texts (new : NewBreakGlassRequest) : List (String × String) :=
  [("request id", new.id), ("tenant id", new.tenantId), ("requester id", new.requesterId), ("action", new.action),
    ("resource kind", new.resourceKind), ("resource id", new.resourceId), ("reason", new.reason),
    ("incident reference", new.incidentReference)]

/-- The bytes that `subject_digest` hashes. -/
def subjectPreimage (new : NewBreakGlassRequest) : List UInt8 :=
  breakGlassDomain ++ (new.texts.map fun text => Text.bytes text.2).flatMap Encoding.field
    ++ Encoding.u64 new.requestedUnixMs ++ Encoding.u64 new.requesterMfaUnixMs ++ Encoding.u64 new.expiresUnixMs
    ++ [if new.requireSecondApprover then 1 else 0]
    ++ (new.eligibleApprovers.toList.map Text.bytes).flatMap Encoding.field

def validateRecentMfa (mfaUnixMs actionUnixMs : U64) : Except BreakGlassError Unit :=
  rejectIf (actionUnixMs < mfaUnixMs ∨ maxBreakGlassMfaAgeMs < Fixed.satSub actionUnixMs mfaUnixMs)
    .recentMfaRequired

def isAsciiControl (byte : UInt8) : Bool := byte < 32 || byte = 127

def validateText (kind value : String) : Except BreakGlassError Unit :=
  rejectIf (value.toList.all isWhitespace ∨ maxBreakGlassTextBytes < value.utf8ByteSize
    ∨ (Text.bytes value).any isAsciiControl) (.invalidText kind)

/-! ### Operations -/

namespace BreakGlassRequest

def create (sha256 : List UInt8 → ContentDigest) (new : NewBreakGlassRequest) :
    Except BreakGlassError BreakGlassRequest := do
  forEach new.texts fun text => validateText text.1 text.2
  rejectIf (new.action ∈ neverBreakGlassActions) (.permanentlyForbiddenAction new.action)
  rejectIf (new.expiresUnixMs ≤ new.requestedUnixMs
      ∨ maxBreakGlassDurationMs < Fixed.satSub new.expiresUnixMs new.requestedUnixMs) .invalidDuration
  validateRecentMfa new.requesterMfaUnixMs new.requestedUnixMs
  rejectIf (maxBreakGlassApprovers < new.eligibleApprovers.size ∨ new.eligibleApprovers.contains new.requesterId
      ∨ new.requireSecondApprover ∧ new.eligibleApprovers.size = 0) .invalidApproverSet
  forEach new.eligibleApprovers.toList (validateText "eligible approver")
  return { new with
    subjectDigest := sha256 (subjectPreimage new)
    status := if new.requireSecondApprover then .pendingApproval else .pendingNotification
    approval := none, notification := none, useRecord := none }

def refreshExpiry (r : BreakGlassRequest) (now : U64) : BreakGlassRequest :=
  if r.status.isOpen ∧ r.expiresUnixMs ≤ now then { r with status := .expired } else r

/-- The checks of `decide`, after the expiry. -/
def checkDecision (r : BreakGlassRequest) (decision : BreakGlassApproval) (now : U64) :
    Except BreakGlassError Unit := do
  rejectIf (r.status ≠ .pendingApproval) (.invalidState r.status)
  validateText "approval actor" decision.actorId
  validateText "approval reason" decision.reason
  rejectIf (decision.subjectDigest ≠ r.subjectDigest) .subjectMismatch
  rejectIf (r.eligibleApprovers.contains decision.actorId = false ∨ decision.actorId = r.requesterId)
    .ineligibleApprover
  rejectIf (decision.decidedUnixMs < r.requestedUnixMs ∨ now < decision.decidedUnixMs) .invalidDecisionTime
  validateRecentMfa decision.actorMfaUnixMs decision.decidedUnixMs

def withDecision (r : BreakGlassRequest) (decision : BreakGlassApproval) : BreakGlassRequest :=
  { r with status := if decision.approve then .pendingNotification else .denied, approval := some decision }

def decide (r : BreakGlassRequest) (decision : BreakGlassApproval) (now : U64) :
    Except BreakGlassError BreakGlassStatus × BreakGlassRequest :=
  match (r.refreshExpiry now).checkDecision decision now with
  | .error error => (.error error, r.refreshExpiry now)
  | .ok () => (.ok ((r.refreshExpiry now).withDecision decision).status, (r.refreshExpiry now).withDecision decision)

/-- The time before which nothing can have been notified. -/
def earliestNotification (r : BreakGlassRequest) : U64 :=
  match r.approval with
  | none => r.requestedUnixMs
  | some approval => approval.decidedUnixMs

/-- The checks of `record_notification`, after the expiry. -/
def checkNotification (r : BreakGlassRequest) (receipt : BreakGlassNotificationReceipt) (now : U64) :
    Except BreakGlassError Unit := do
  rejectIf (r.status ≠ .pendingNotification) (.invalidState r.status)
  rejectIf (receipt.subjectDigest ≠ r.subjectDigest) .subjectMismatch
  validateText "notification channel" receipt.channel
  validateText "notification delivery id" receipt.deliveryId
  rejectIf (receipt.notifiedUnixMs < r.earliestNotification ∨ now < receipt.notifiedUnixMs)
    .invalidNotificationTime

def withNotification (r : BreakGlassRequest) (receipt : BreakGlassNotificationReceipt) : BreakGlassRequest :=
  { r with notification := some receipt, status := .active }

def recordNotification (r : BreakGlassRequest) (receipt : BreakGlassNotificationReceipt) (now : U64) :
    Except BreakGlassError Unit × BreakGlassRequest :=
  match (r.refreshExpiry now).checkNotification receipt now with
  | .error error => (.error error, r.refreshExpiry now)
  | .ok () => (.ok (), (r.refreshExpiry now).withNotification receipt)

end BreakGlassRequest

/-- What a caller presents to `authorize_once`. -/
structure BreakGlassPresentation where
  actorId : String
  action : String
  resourceKind : String
  resourceId : String
  subjectDigest : ContentDigest
  reauthenticatedUnixMs : U64

namespace BreakGlassRequest

/-- The checks of `authorize_once`, after the expiry. -/
def checkUse (r : BreakGlassRequest) (presented : BreakGlassPresentation) (now : U64) :
    Except BreakGlassError Unit := do
  rejectIf (r.status ≠ .active) (.invalidState r.status)
  rejectIf (presented.subjectDigest ≠ r.subjectDigest ∨ presented.actorId ≠ r.requesterId
      ∨ presented.action ≠ r.action ∨ presented.resourceKind ≠ r.resourceKind
      ∨ presented.resourceId ≠ r.resourceId) .subjectMismatch
  validateRecentMfa presented.reauthenticatedUnixMs now

def useOf (r : BreakGlassRequest) (presented : BreakGlassPresentation) (now : U64) : BreakGlassUse where
  subjectDigest := r.subjectDigest
  actorId := presented.actorId
  action := presented.action
  resourceKind := presented.resourceKind
  resourceId := presented.resourceId
  incidentReference := r.incidentReference
  usedUnixMs := now
  reauthenticatedUnixMs := presented.reauthenticatedUnixMs

def withUse (r : BreakGlassRequest) (record : BreakGlassUse) : BreakGlassRequest :=
  { r with useRecord := some record, status := .consumed }

def authorizeOnce (r : BreakGlassRequest) (presented : BreakGlassPresentation) (now : U64) :
    Except BreakGlassError BreakGlassUse × BreakGlassRequest :=
  match (r.refreshExpiry now).checkUse presented now with
  | .error error => (.error error, r.refreshExpiry now)
  | .ok () =>
    let record := (r.refreshExpiry now).useOf presented now
    (.ok record, (r.refreshExpiry now).withUse record)

/-! ### The integrity check -/

/-- `map_err(|_| IntegrityMismatch)`, on an operation that also changes the request. -/
def replayed {α : Type} (x : Except BreakGlassError α × BreakGlassRequest) :
    Except BreakGlassError (α × BreakGlassRequest) :=
  match x.1 with
  | .error _ => .error .integrityMismatch
  | .ok a => .ok (a, x.2)

def replayDecision (replay : BreakGlassRequest) : Option BreakGlassApproval → Except BreakGlassError BreakGlassRequest
  | none => .ok replay
  | some approval => do
    let next ← replayed (replay.decide approval approval.decidedUnixMs)
    return next.2

def replayNotification (replay : BreakGlassRequest) :
    Option BreakGlassNotificationReceipt → Except BreakGlassError BreakGlassRequest
  | none => .ok replay
  | some receipt => do
    let next ← replayed (replay.recordNotification receipt receipt.notifiedUnixMs)
    return next.2

/-- The arguments that a use record stands for. -/
def presentationOf (record : BreakGlassUse) : BreakGlassPresentation where
  actorId := record.actorId
  action := record.action
  resourceKind := record.resourceKind
  resourceId := record.resourceId
  subjectDigest := record.subjectDigest
  reauthenticatedUnixMs := record.reauthenticatedUnixMs

def replayUse (replay : BreakGlassRequest) : Option BreakGlassUse → Except BreakGlassError BreakGlassRequest
  | none => .ok replay
  | some record => do
    let next ← replayed (replay.authorizeOnce (presentationOf record) record.usedUnixMs)
    rejectIf (next.1 ≠ record) .integrityMismatch
    return next.2

def replayExpiry (replay : BreakGlassRequest) (r : BreakGlassRequest) : BreakGlassRequest :=
  if r.status = .expired then replay.refreshExpiry r.expiresUnixMs else replay

def verifyIntegrity (sha256 : List UInt8 → ContentDigest) (r : BreakGlassRequest) : Except BreakGlassError Unit := do
  let replay ← match create sha256 r.toNewBreakGlassRequest with
    | .error _ => .error .integrityMismatch
    | .ok replay => .ok replay
  rejectIf (replay.subjectDigest ≠ r.subjectDigest) .integrityMismatch
  let replay ← replayDecision replay r.approval
  let replay ← replayNotification replay r.notification
  let replay ← replayUse replay r.useRecord
  rejectIf (replayExpiry replay r ≠ r) .integrityMismatch

/-! ### Runs -/

inductive Operation
  | decide (decision : BreakGlassApproval) (now : U64)
  | recordNotification (receipt : BreakGlassNotificationReceipt) (now : U64)
  | authorizeOnce (presented : BreakGlassPresentation) (now : U64)
  | refreshExpiry (now : U64)

inductive Reply
  | decided (result : Except BreakGlassError BreakGlassStatus)
  | notified (result : Except BreakGlassError Unit)
  | used (result : Except BreakGlassError BreakGlassUse)
  | refreshed

def step (r : BreakGlassRequest) : Operation → Reply × BreakGlassRequest
  | .decide decision now => (.decided (r.decide decision now).1, (r.decide decision now).2)
  | .recordNotification receipt now =>
    (.notified (r.recordNotification receipt now).1, (r.recordNotification receipt now).2)
  | .authorizeOnce presented now => (.used (r.authorizeOnce presented now).1, (r.authorizeOnce presented now).2)
  | .refreshExpiry now => (.refreshed, r.refreshExpiry now)

abbrev Event := Run.Event BreakGlassRequest Operation Reply

/-! ### What one call does -/

variable {r : BreakGlassRequest} {decision : BreakGlassApproval} {receipt : BreakGlassNotificationReceipt}
  {presented : BreakGlassPresentation} {now : U64}

theorem refreshExpiry_cases (r : BreakGlassRequest) (now : U64) :
    r.refreshExpiry now = r ∧ (r.status.isOpen = true → now < r.expiresUnixMs) ∨
      r.status.isOpen = true ∧ r.refreshExpiry now = { r with status := .expired } := by
  unfold refreshExpiry
  split
  · rename_i hexpired
    exact .inr ⟨hexpired.1, rfl⟩
  · rename_i hnot
    rw [not_and, BitVec.not_le] at hnot
    exact .inl ⟨rfl, hnot⟩

theorem refreshExpiry_of_status {status : BreakGlassStatus} (hopen : status.isOpen = true)
    (h : (r.refreshExpiry now).status = status) : r.refreshExpiry now = r ∧ now < r.expiresUnixMs := by
  rcases refreshExpiry_cases r now with ⟨hsame, hbefore⟩ | ⟨-, hexpired⟩
  · rw [hsame] at h
    exact ⟨hsame, hbefore (h ▸ hopen)⟩
  · rw [hexpired] at h
    subst h
    cases hopen

theorem refreshExpiry_eq_self (hbefore : now < r.expiresUnixMs) : r.refreshExpiry now = r :=
  if_neg fun h => BitVec.not_le.mpr hbefore h.2

/-- What passed the checks of a decision, whenever it was presented. -/
structure Decides (r : BreakGlassRequest) (decision : BreakGlassApproval) : Prop where
  pending : r.status = .pendingApproval
  actor : validateText "approval actor" decision.actorId = .ok ()
  reason : validateText "approval reason" decision.reason = .ok ()
  subject : decision.subjectDigest = r.subjectDigest
  eligible : r.eligibleApprovers.contains decision.actorId = true
  other : decision.actorId ≠ r.requesterId
  requested : r.requestedUnixMs ≤ decision.decidedUnixMs
  mfa : validateRecentMfa decision.actorMfaUnixMs decision.decidedUnixMs = .ok ()

/-- What passed the checks of a notification, whenever it was presented. -/
structure Notifies (r : BreakGlassRequest) (receipt : BreakGlassNotificationReceipt) : Prop where
  pending : r.status = .pendingNotification
  subject : receipt.subjectDigest = r.subjectDigest
  channel : validateText "notification channel" receipt.channel = .ok ()
  delivery : validateText "notification delivery id" receipt.deliveryId = .ok ()
  earliest : r.earliestNotification ≤ receipt.notifiedUnixMs

/-- What passed the checks of a use at this time. -/
structure Uses (r : BreakGlassRequest) (presented : BreakGlassPresentation) (now : U64) : Prop where
  active : r.status = .active
  subject : presented.subjectDigest = r.subjectDigest
  actor : presented.actorId = r.requesterId
  action : presented.action = r.action
  resourceKind : presented.resourceKind = r.resourceKind
  resourceId : presented.resourceId = r.resourceId
  mfa : validateRecentMfa presented.reauthenticatedUnixMs now = .ok ()

theorem checkDecision_eq_ok :
    r.checkDecision decision now = .ok () ↔ Decides r decision ∧ decision.decidedUnixMs ≤ now := by
  simp only [checkDecision, bind_eq_ok, exists_unit, rejectIf_eq_ok, not_or, BitVec.not_lt, ne_eq, not_not,
    Bool.not_eq_false]
  constructor
  · rintro ⟨hpending, hactor, hreason, hsubject, ⟨heligible, hother⟩, ⟨hrequested, hnow⟩, hmfa⟩
    exact ⟨⟨hpending, hactor, hreason, hsubject, heligible, hother, hrequested, hmfa⟩, hnow⟩
  · rintro ⟨h, hnow⟩
    exact ⟨h.pending, h.actor, h.reason, h.subject, ⟨h.eligible, h.other⟩, ⟨h.requested, hnow⟩, h.mfa⟩

theorem checkNotification_eq_ok :
    r.checkNotification receipt now = .ok () ↔ Notifies r receipt ∧ receipt.notifiedUnixMs ≤ now := by
  simp only [checkNotification, bind_eq_ok, exists_unit, rejectIf_eq_ok, not_or, BitVec.not_lt, ne_eq, not_not]
  constructor
  · rintro ⟨hpending, hsubject, hchannel, hdelivery, hearliest, hnow⟩
    exact ⟨⟨hpending, hsubject, hchannel, hdelivery, hearliest⟩, hnow⟩
  · rintro ⟨h, hnow⟩
    exact ⟨h.pending, h.subject, h.channel, h.delivery, h.earliest, hnow⟩

theorem checkUse_eq_ok : r.checkUse presented now = .ok () ↔ Uses r presented now := by
  simp only [checkUse, bind_eq_ok, exists_unit, rejectIf_eq_ok, not_or, ne_eq, not_not]
  constructor
  · rintro ⟨hactive, ⟨hsubject, hactor, haction, hkind, hid⟩, hmfa⟩
    exact ⟨hactive, hsubject, hactor, haction, hkind, hid, hmfa⟩
  · rintro h
    exact ⟨h.active, ⟨h.subject, h.actor, h.action, h.resourceKind, h.resourceId⟩, h.mfa⟩

/-- What one call does: it records evidence that passed its checks, or it lets the request expire if it is time. -/
inductive Does (r : BreakGlassRequest) : Operation → Reply → BreakGlassRequest → Prop
  | refreshed {op : Operation} {reply : Reply} {now : U64} (hdecided : ∀ status, reply ≠ .decided (.ok status))
      (hused : ∀ record, reply ≠ .used (.ok record)) : Does r op reply (r.refreshExpiry now)
  | decided {decision : BreakGlassApproval} {now : U64} (hdecides : Decides r decision)
      (hbefore : decision.decidedUnixMs < r.expiresUnixMs) : Does r (.decide decision now)
        (.decided (.ok (r.withDecision decision).status)) (r.withDecision decision)
  | notified {receipt : BreakGlassNotificationReceipt} {now : U64} (hnotifies : Notifies r receipt)
      (hbefore : receipt.notifiedUnixMs < r.expiresUnixMs) :
      Does r (.recordNotification receipt now) (.notified (.ok ())) (r.withNotification receipt)
  | used {presented : BreakGlassPresentation} {now : U64} (huses : Uses r presented now)
      (hbefore : now < r.expiresUnixMs) : Does r (.authorizeOnce presented now)
        (.used (.ok (r.useOf presented now))) (r.withUse (r.useOf presented now))

theorem does_step (r : BreakGlassRequest) (op : Operation) : Does r op (r.step op).1 (r.step op).2 := by
  cases op with
  | decide decision now =>
    cases hcheck : (r.refreshExpiry now).checkDecision decision now with
    | error => simpa only [step, decide, hcheck] using .refreshed nofun nofun
    | ok =>
      obtain ⟨hdecides, hnow⟩ := checkDecision_eq_ok.mp hcheck
      obtain ⟨hsame, hbefore⟩ := refreshExpiry_of_status rfl hdecides.pending
      simp only [step, decide, hcheck]
      rw [hsame] at hdecides ⊢
      exact .decided hdecides (Std.lt_of_le_of_lt hnow hbefore)
  | recordNotification receipt now =>
    cases hcheck : (r.refreshExpiry now).checkNotification receipt now with
    | error => simpa only [step, recordNotification, hcheck] using .refreshed nofun nofun
    | ok =>
      obtain ⟨hnotifies, hnow⟩ := checkNotification_eq_ok.mp hcheck
      obtain ⟨hsame, hbefore⟩ := refreshExpiry_of_status rfl hnotifies.pending
      simp only [step, recordNotification, hcheck]
      rw [hsame] at hnotifies ⊢
      exact .notified hnotifies (Std.lt_of_le_of_lt hnow hbefore)
  | authorizeOnce presented now =>
    cases hcheck : (r.refreshExpiry now).checkUse presented now with
    | error => simpa only [step, authorizeOnce, hcheck] using .refreshed nofun nofun
    | ok =>
      have huses := checkUse_eq_ok.mp hcheck
      obtain ⟨hsame, hbefore⟩ := refreshExpiry_of_status rfl huses.active
      simp only [step, authorizeOnce, hcheck]
      rw [hsame] at huses ⊢
      exact .used huses hbefore
  | refreshExpiry => exact .refreshed nofun nofun

/-! The same calls, made at the recorded times. -/

theorem decide_of_decides (h : Decides r decision) (hbefore : decision.decidedUnixMs < r.expiresUnixMs) :
    r.decide decision decision.decidedUnixMs = (.ok (r.withDecision decision).status, r.withDecision decision) := by
  have hcheck := checkDecision_eq_ok.mpr ⟨h, BitVec.le_refl _⟩
  rw [decide, refreshExpiry_eq_self hbefore, hcheck]

theorem recordNotification_of_notifies (h : Notifies r receipt) (hbefore : receipt.notifiedUnixMs < r.expiresUnixMs) :
    r.recordNotification receipt receipt.notifiedUnixMs = (.ok (), r.withNotification receipt) := by
  have hcheck := checkNotification_eq_ok.mpr ⟨h, BitVec.le_refl _⟩
  rw [recordNotification, refreshExpiry_eq_self hbefore, hcheck]

theorem authorizeOnce_of_uses (h : Uses r presented now) (hbefore : now < r.expiresUnixMs) :
    r.authorizeOnce presented now = (.ok (r.useOf presented now), r.withUse (r.useOf presented now)) := by
  have hcheck := checkUse_eq_ok.mpr h
  rw [authorizeOnce, refreshExpiry_eq_self hbefore, hcheck]

theorem create_spec {sha256 : List UInt8 → ContentDigest} {new : NewBreakGlassRequest} {r₀ : BreakGlassRequest}
    (h : create sha256 new = .ok r₀) : new.action ∉ neverBreakGlassActions ∧ new.requestedUnixMs < new.expiresUnixMs ∧
      Fixed.satSub new.expiresUnixMs new.requestedUnixMs ≤ maxBreakGlassDurationMs ∧
      r₀ = ⟨new, sha256 (subjectPreimage new),
        if new.requireSecondApprover then .pendingApproval else .pendingNotification, none, none, none⟩ := by
  simp only [create, bind_eq_ok, exists_unit, pure_eq_ok, rejectIf_eq_ok, not_or, BitVec.not_le, BitVec.not_lt] at h
  obtain ⟨-, hallowed, ⟨hpositive, hshort⟩, -, -, -, rfl⟩ := h
  exact ⟨hallowed, hpositive, hshort, rfl⟩

end BreakGlassRequest

end Runtrue.Policy
