import Runtrue.Base.Collect
import Runtrue.Base.Run
import Runtrue.Expression.Lexer
import Runtrue.Model.ContentDigest

/-!
# Exact-subject approvals

The approval request of the `policy` crate (`lib.rs`) and the seal that accepts approved evidence (`seal.rs`).
Every operation first refreshes the expiry, also when it then fails, so an operation returns its result and
the request after it. Times are natural numbers and need not increase from call to call.

`Traced` relates a reachable request to the request it was created as and to the calls made since: every
recorded decision is one that a call made and that passed its checks, and a request that is denied, expired or
consumed stays so.
-/

namespace Runtrue.Policy

open Fallible List BTreeMap Run
open Expression (isWhitespace)

def maxApprovalReasonBytes : Nat := 2000
def maxApprovers : Nat := 1000

inductive ApprovalKind
  | workflowDefinition | privilegedExecution | environmentDeployment | artifactPromotion | breakGlass
deriving DecidableEq

inductive Decision
  | approve | deny
deriving DecidableEq

inductive ApprovalStatus
  | pending | approved | denied | expired | consumed
deriving DecidableEq

/-- No operation leaves these. -/
def ApprovalStatus.isFinal : ApprovalStatus → Bool
  | .denied | .expired | .consumed => true
  | .pending | .approved => false

structure ApprovalRule where
  id : String
  requiredApprovals : Nat
  eligibleApprovers : BTreeSet String
  forbiddenApprovers : BTreeSet String
  oneShot : Bool

structure ApprovalDecision where
  actorId : String
  decision : Decision
  reason : String
  ruleId : String
  subjectDigest : ContentDigest
  decidedUnixMs : Nat

structure ApprovalRequest where
  id : String
  kind : ApprovalKind
  subjectDigest : ContentDigest
  riskScore : Nat
  createdUnixMs : Nat
  expiresUnixMs : Nat
  rule : ApprovalRule
  status : ApprovalStatus
  decisions : BTreeMap String ApprovalDecision

inductive PolicyError
  | invalidRule (text : String)
  | invalidRequest (text : String)
  | requestNotPending (status : ApprovalStatus)
  | subjectConflict (expected actual : ContentDigest)
  | ruleConflict
  | invalidDecisionTime
  | invalidReason
  | ineligibleApprover (actorId : String)
  | separationOfDuties (actorId : String)
  | duplicateDecision (actorId : String)
  | notAuthorized (status : ApprovalStatus)
  | notCapsuleApproval (kind : ApprovalKind)
  | notSealed (status : ApprovalStatus)
  | invalidSeal (text : String)
deriving DecidableEq

/-- Empty, or with a NUL character. -/
def isUnsafeId (id : String) : Bool := id = "" || id.toList.contains '\x00'

def ApprovalRule.validate (rule : ApprovalRule) : Except PolicyError Unit := do
  rejectIf (isUnsafeId rule.id) (.invalidRule "rule id")
  rejectIf (rule.requiredApprovals = 0) (.invalidRule "required approvals must be greater than zero")
  let permittedApprovers := rule.eligibleApprovers.size - rule.forbiddenApprovers.size
  rejectIf (rule.eligibleApprovers.size = 0 ∨ maxApprovers < rule.eligibleApprovers.size
      ∨ permittedApprovers < rule.requiredApprovals)
    (.invalidRule "approval threshold exceeds the bounded eligible set")
  rejectIf (BTreeSet.isSubset rule.forbiddenApprovers rule.eligibleApprovers = false)
    (.invalidRule "forbidden approvers must be members of the eligible set")

def validateReason (reason : String) : Except PolicyError Unit :=
  rejectIf (reason.toList.all isWhitespace ∨ maxApprovalReasonBytes < reason.utf8ByteSize
    ∨ reason.toList.contains '\x00') .invalidReason

namespace ApprovalRequest

def create (id : String) (kind : ApprovalKind) (subjectDigest : ContentDigest) (riskScore : Nat)
    (createdUnixMs expiresUnixMs : Nat) (rule : ApprovalRule) : Except PolicyError ApprovalRequest := do
  rule.validate
  rejectIf (isUnsafeId id) (.invalidRequest "request id")
  rejectIf (expiresUnixMs ≤ createdUnixMs) (.invalidRequest "expiry must be after creation")
  return { id, kind, subjectDigest, riskScore, createdUnixMs, expiresUnixMs, rule, status := .pending
           decisions := ∅ }

def refreshExpiry (r : ApprovalRequest) (now : Nat) : ApprovalRequest :=
  if r.status.isFinal = false ∧ r.expiresUnixMs ≤ now then { r with status := .expired } else r

/-- The checks of `decide`, after the expiry. -/
def checkDecision (r : ApprovalRequest) (decision : ApprovalDecision) (now : Nat) : Except PolicyError Unit := do
  rejectIf (r.status ≠ .pending) (.requestNotPending r.status)
  rejectIf (decision.subjectDigest ≠ r.subjectDigest) (.subjectConflict r.subjectDigest decision.subjectDigest)
  rejectIf (decision.ruleId ≠ r.rule.id) .ruleConflict
  rejectIf (now < decision.decidedUnixMs ∨ decision.decidedUnixMs < r.createdUnixMs) .invalidDecisionTime
  validateReason decision.reason
  rejectIf (r.rule.eligibleApprovers.contains decision.actorId = false) (.ineligibleApprover decision.actorId)
  rejectIf (r.rule.forbiddenApprovers.contains decision.actorId) (.separationOfDuties decision.actorId)
  rejectIf (r.decisions.contains decision.actorId) (.duplicateDecision decision.actorId)

/-- The request with one more decision. -/
def record (r : ApprovalRequest) (decision : ApprovalDecision) : ApprovalRequest :=
  let decisions : BTreeMap String ApprovalDecision := r.decisions.insert decision.actorId decision
  let approvals := (decisions.values.filter fun decision => decision.decision = .approve).length
  { r with
    decisions
    status := if decision.decision = .deny then .denied
      else if r.rule.requiredApprovals ≤ approvals then .approved else r.status }

def decide (r : ApprovalRequest) (decision : ApprovalDecision) (now : Nat) :
    Except PolicyError ApprovalStatus × ApprovalRequest :=
  match (r.refreshExpiry now).checkDecision decision now with
  | .error error => (.error error, r.refreshExpiry now)
  | .ok () => (.ok ((r.refreshExpiry now).record decision).status, (r.refreshExpiry now).record decision)

/-- The checks of `authorize`, after the expiry. -/
def checkAuthority (r : ApprovalRequest) (subjectDigest : ContentDigest) : Except PolicyError Unit := do
  rejectIf (subjectDigest ≠ r.subjectDigest) (.subjectConflict r.subjectDigest subjectDigest)
  rejectIf (r.status ≠ .approved) (.notAuthorized r.status)

def authorize (r : ApprovalRequest) (subjectDigest : ContentDigest) (now : Nat) :
    Except PolicyError Unit × ApprovalRequest :=
  match (r.refreshExpiry now).checkAuthority subjectDigest with
  | .error error => (.error error, r.refreshExpiry now)
  | .ok () => (.ok (), if r.rule.oneShot then { r.refreshExpiry now with status := .consumed }
      else r.refreshExpiry now)

end ApprovalRequest

/-! ### Seals -/

/-- The checks of `validate_seal` on one recorded decision. -/
def validateSealDecision (request : ApprovalRequest) (entry : String × ApprovalDecision) :
    Except PolicyError Unit := do
  rejectIf (entry.1 ≠ entry.2.actorId) (.invalidSeal "decision map key does not match actor id")
  rejectIf (entry.2.decision ≠ .approve) (.invalidSeal "approved evidence contains a denial")
  rejectIf (entry.2.subjectDigest ≠ request.subjectDigest) (.invalidSeal "decision Capsule digest changed")
  rejectIf (entry.2.ruleId ≠ request.rule.id) (.invalidSeal "decision rule changed")
  rejectIf (entry.2.decidedUnixMs < request.createdUnixMs ∨ request.expiresUnixMs ≤ entry.2.decidedUnixMs)
    (.invalidSeal "decision timestamp")
  validateReason entry.2.reason
  rejectIf (request.rule.eligibleApprovers.contains entry.1 = false
    ∨ request.rule.forbiddenApprovers.contains entry.1) (.invalidSeal "ineligible decision actor")

def validateSeal (request : ApprovalRequest) : Except PolicyError Unit := do
  rejectIf (request.kind ≠ .workflowDefinition ∧ request.kind ≠ .privilegedExecution)
    (.notCapsuleApproval request.kind)
  rejectIf (request.status ≠ .approved ∧ request.status ≠ .consumed) (.notSealed request.status)
  rejectIf (request.status = .consumed ∧ request.rule.oneShot = false)
    (.invalidSeal "only one-shot approval evidence can be consumed")
  request.rule.validate
  rejectIf (isUnsafeId request.id) (.invalidSeal "approval id")
  rejectIf (request.expiresUnixMs ≤ request.createdUnixMs) (.invalidSeal "expiry must be after creation")
  forEach request.decisions.toList (validateSealDecision request)
  rejectIf (request.decisions.size < request.rule.requiredApprovals)
    (.invalidSeal "approval threshold was not satisfied")

/-! ### Runs -/

namespace ApprovalRequest

inductive Operation
  | decide (decision : ApprovalDecision) (now : Nat)
  | authorize (subjectDigest : ContentDigest) (now : Nat)
  | refreshExpiry (now : Nat)

inductive Reply
  | decided (result : Except PolicyError ApprovalStatus)
  | authorized (result : Except PolicyError Unit)
  | refreshed

def step (r : ApprovalRequest) : Operation → Reply × ApprovalRequest
  | .decide decision now => (.decided (r.decide decision now).1, (r.decide decision now).2)
  | .authorize subjectDigest now => (.authorized (r.authorize subjectDigest now).1, (r.authorize subjectDigest now).2)
  | .refreshExpiry now => (.refreshed, r.refreshExpiry now)

abbrev Event := Run.Event ApprovalRequest Operation Reply

def Decides (e : Event) (decision : ApprovalDecision) : Prop :=
  ∃ now status, e.op = .decide decision now ∧ e.result = .decided (.ok status)

def Authorizes (e : Event) : Prop := e.result = .authorized (.ok ())

/-! ### What one call does -/

variable {r t : ApprovalRequest} {decision : ApprovalDecision} {subject : ContentDigest} {now : Nat}

theorem refreshExpiry_eq (r : ApprovalRequest) (now : Nat) : ∃ status, r.refreshExpiry now = { r with status } ∧
      (status = r.status ∧ (r.status.isFinal = false → now < r.expiresUnixMs) ∨
        status = .expired ∧ r.status.isFinal = false) := by
  unfold refreshExpiry
  split
  · rename_i hexpired
    exact ⟨.expired, rfl, .inr ⟨rfl, hexpired.1⟩⟩
  · rename_i hnot
    refine ⟨r.status, rfl, .inl ⟨rfl, fun hopen => ?_⟩⟩
    rw [not_and, not_le] at hnot
    exact hnot hopen

theorem refreshExpiry_of_status (hstatus : (r.refreshExpiry now).status.isFinal = false) :
    r.refreshExpiry now = r ∧ now < r.expiresUnixMs := by
  obtain ⟨_, hrefresh, ⟨rfl, hopen⟩ | ⟨rfl, -⟩⟩ := refreshExpiry_eq r now
  · have hsame : r.refreshExpiry now = r := hrefresh
    rw [hsame] at hstatus
    exact ⟨hsame, hopen hstatus⟩
  · rw [hrefresh] at hstatus
    cases hstatus

/-- What passed the checks of a decision. -/
structure Accepted (r : ApprovalRequest) (decision : ApprovalDecision) : Prop where
  subject : decision.subjectDigest = r.subjectDigest
  rule : decision.ruleId = r.rule.id
  time : r.createdUnixMs ≤ decision.decidedUnixMs ∧ decision.decidedUnixMs < r.expiresUnixMs
  reason : validateReason decision.reason = .ok ()
  eligible : r.rule.eligibleApprovers.contains decision.actorId = true
  allowed : r.rule.forbiddenApprovers.contains decision.actorId = false

theorem decide_cases (r : ApprovalRequest) (decision : ApprovalDecision) (now : Nat) :
    (∃ error, r.decide decision now = (.error error, r.refreshExpiry now)) ∨
      r.status = .pending ∧ Accepted r decision ∧ r.decisions[decision.actorId]? = none ∧
        r.decide decision now = (.ok (r.record decision).status, r.record decision) := by
  unfold decide
  split
  · exact .inl ⟨_, rfl⟩
  · rename_i hcheck
    simp only [checkDecision, bind_eq_ok, exists_unit, rejectIf_eq_ok, not_or, not_lt, ne_eq, not_not,
      Bool.not_eq_false, Bool.not_eq_true] at hcheck
    obtain ⟨hpending, hsubject, hrule, ⟨_, hcreated⟩, hreason, heligible, hallowed, hnew⟩ := hcheck
    obtain ⟨hsame, _⟩ := refreshExpiry_of_status (r := r) (by rw [hpending]; rfl)
    rw [hsame] at hpending hsubject hrule hcreated heligible hallowed hnew ⊢
    exact .inr ⟨hpending, ⟨hsubject, hrule, ⟨hcreated, by omega⟩, hreason, heligible, hallowed⟩,
      get_of_not_contains hnew, rfl⟩

theorem authorize_cases (r : ApprovalRequest) (subject : ContentDigest) (now : Nat) :
    (∃ error, r.authorize subject now = (.error error, r.refreshExpiry now)) ∨
      subject = r.subjectDigest ∧ r.status = .approved ∧ now < r.expiresUnixMs ∧
        r.authorize subject now = (.ok (), if r.rule.oneShot then { r with status := .consumed } else r) := by
  unfold authorize
  split
  · exact .inl ⟨_, rfl⟩
  · rename_i hcheck
    simp only [checkAuthority, bind_eq_ok, exists_unit, rejectIf_eq_ok, ne_eq, not_not] at hcheck
    obtain ⟨hsubject, happroved⟩ := hcheck
    obtain ⟨hsame, hbefore⟩ := refreshExpiry_of_status (r := r) (by rw [happroved]; rfl)
    rw [hsame] at hsubject happroved ⊢
    exact .inr ⟨hsubject, happroved, hbefore, rfl⟩

theorem authorize_of_approved (hsubject : r.subjectDigest = subject) (happroved : r.status = .approved)
    (hbefore : now < r.expiresUnixMs) :
    r.authorize subject now = (.ok (), if r.rule.oneShot then { r with status := .consumed } else r) := by
  have hsame : r.refreshExpiry now = r := if_neg fun h => absurd h.2 (Nat.not_le_of_lt hbefore)
  have hcheck : r.checkAuthority subject = .ok () := by
    simp only [checkAuthority, bind_eq_ok, exists_unit, rejectIf_eq_ok, ne_eq, not_not]
    exact ⟨hsubject.symm, happroved⟩
  simp only [authorize, hsame, hcheck]

/-! ### Runs -/

/-- What the calls since the creation of `r₀` say about the request. -/
structure Traced (r₀ : ApprovalRequest) (h : List Event) (r : ApprovalRequest) : Prop where
  same : r = { r₀ with status := r.status, decisions := r.decisions }
  recorded : ∀ {actor : String} {decision : ApprovalDecision}, r.decisions[actor]? = some decision →
    decision.actorId = actor ∧ Accepted r₀ decision ∧ ∃ e ∈ h, Decides e decision
  denial : ∀ e ∈ h, ∀ decision, Decides e decision → decision.decision = .deny → r.status = .denied
  denied : ∀ {actor : String} {decision : ApprovalDecision}, r.decisions[actor]? = some decision →
    decision.decision = .deny → r.status = .denied
  approved : r.status = .approved ∨ r.status = .consumed → r₀.rule.requiredApprovals ≤ r.decisions.size
  consumed : r.status = .consumed → r₀.rule.oneShot = true
  authorized : ∀ e ∈ h, Authorizes e → r₀.rule.oneShot = true → r.status = .consumed
  final : ∀ e ∈ h, e.before.status.isFinal = true → r.status = e.before.status

variable {r₀ : ApprovalRequest}

theorem traced_create {id : String} {kind : ApprovalKind} {subject : ContentDigest}
    {riskScore created expires : Nat} {rule : ApprovalRule}
    (h : create id kind subject riskScore created expires rule = .ok r₀) : Traced r₀ [] r₀ := by
  simp only [create, bind_eq_ok, exists_unit, pure_eq_ok] at h
  obtain ⟨-, -, -, rfl⟩ := h
  refine ⟨rfl, fun hmem => ?_, fun _ he => (nomatch he), fun hmem => ?_, fun hstatus => ?_, fun hstatus => ?_,
    fun _ he => (nomatch he), fun _ he => (nomatch he)⟩
  · simp at hmem
  · simp at hmem
  · rcases hstatus with hstatus | hstatus <;> cases hstatus
  · cases hstatus

variable {h : List Event}

theorem Traced.recorded_later (hr : Traced r₀ h r) (e : Event) {actor : String}
    (hget : r.decisions[actor]? = some decision) :
    decision.actorId = actor ∧ Accepted r₀ decision ∧ ∃ e' ∈ e :: h, Decides e' decision := by
  obtain ⟨hactor, haccepted, e', he', hd⟩ := hr.recorded hget
  exact ⟨hactor, haccepted, e', mem_cons_of_mem e he', hd⟩

theorem Traced.open (hr : Traced r₀ h r) (hopen : r.status.isFinal = false) :
    ((∀ e ∈ h, ∀ decision, Decides e decision → decision.decision ≠ .deny) ∧
      ∀ {actor : String} {decision : ApprovalDecision}, r.decisions[actor]? = some decision →
        decision.decision = .approve) ∧
      (r₀.rule.oneShot = true → ∀ e ∈ h, ¬Authorizes e) ∧ ∀ e ∈ h, e.before.status.isFinal = false := by
  have hpast : ∀ {s : ApprovalStatus}, s.isFinal = true → r.status ≠ s := by
    rintro _ hs rfl
    rw [hs] at hopen
    cases hopen
  refine ⟨⟨fun e he decision hd hdeny => hpast rfl (hr.denial e he decision hd hdeny), fun {_ decision} hget => ?_⟩,
    fun honce e he ha => hpast rfl (hr.authorized e he ha honce), fun e he => ?_⟩
  · cases hdecision : decision.decision with
    | approve => rfl
    | deny => exact absurd (hr.denied hget hdecision) (hpast rfl)
  · cases hf : e.before.status.isFinal with
    | false => rfl
    | true => exact absurd (hr.final e he hf) (hpast hf)

theorem Traced.refresh (hr : Traced r₀ h r) {op : Operation} {reply : Reply}
    (hdecided : ∀ status, reply ≠ .decided (.ok status)) (hauthorized : reply ≠ .authorized (.ok ())) (now : Nat) :
    Traced r₀ (⟨r, op, reply⟩ :: h) (r.refreshExpiry now) := by
  obtain ⟨status, hrefresh, hstatus⟩ := refreshExpiry_eq r now
  have hfinal : r.status.isFinal = true → status = r.status := by
    intro hf
    rcases hstatus with ⟨hsame, -⟩ | ⟨-, hopen⟩
    · exact hsame
    · rw [hf] at hopen
      cases hopen
  have hkept : ∀ {s : ApprovalStatus}, s.isFinal = true → r.status = s → status = s :=
    fun hs hsame => (hfinal (hsame ▸ hs)).trans hsame
  rw [hrefresh]
  refine ⟨?_, hr.recorded_later _, forall_mem_cons.mpr
      ⟨fun _ ⟨_, status, _, hresult⟩ => absurd hresult (hdecided status),
        fun e' he' decision hd hdeny => hkept rfl (hr.denial e' he' decision hd hdeny)⟩,
    fun hmem hdeny => hkept rfl (hr.denied hmem hdeny), fun happroved => ?_, fun hc => ?_,
    forall_mem_cons.mpr ⟨fun ha => absurd ha hauthorized,
      fun e' he' ha honce => hkept rfl (hr.authorized e' he' ha honce)⟩,
    forall_mem_cons.mpr ⟨hfinal, fun e' he' hf => hkept hf (hr.final e' he' hf)⟩⟩
  · have hsame := hr.same
    rw [hsame]
  · rcases hstatus with ⟨hsame, -⟩ | ⟨rfl, -⟩
    · exact hr.approved (hsame ▸ happroved)
    · rcases happroved with happroved | happroved <;> cases happroved
  · rcases hstatus with ⟨hsame, -⟩ | ⟨rfl, -⟩
    · exact hr.consumed (hsame ▸ hc)
    · cases hc

theorem Accepted.of_same (hsame : r = { r₀ with status := r.status, decisions := r.decisions })
    (h : Accepted r decision) :
    Accepted r₀ decision := by
  rw [hsame] at h
  exact ⟨h.subject, h.rule, h.time, h.reason, h.eligible, h.allowed⟩

theorem approvals_eq_size {decisions : BTreeMap String ApprovalDecision}
    (h : ∀ {actor : String} {decision : ApprovalDecision}, decisions[actor]? = some decision →
      decision.decision = .approve) :
    (decisions.values.filter fun decision => decision.decision = .approve).length = decisions.size := by
  rw [filter_eq_self.mpr, values, length_map, Std.ExtTreeMap.length_toList]
  intro _ hmem
  obtain ⟨_, hget⟩ := mem_values.mp hmem
  exact decide_eq_true (h hget)

theorem record_status (r : ApprovalRequest) (decision : ApprovalDecision) :
    decision.decision = .deny ∧ (r.record decision).status = .denied ∨
    decision.decision = .approve ∧ r.rule.requiredApprovals ≤ ((r.record decision).decisions.values.filter
      fun decision => decision.decision = .approve).length ∧ (r.record decision).status = .approved ∨
    decision.decision = .approve ∧ (r.record decision).status = r.status := by
  cases hdecision : decision.decision with
  | deny => exact .inl ⟨rfl, if_pos hdecision⟩
  | approve =>
    by_cases hcount : r.rule.requiredApprovals ≤ ((r.record decision).decisions.values.filter
        fun decision => decision.decision = .approve).length
    · refine .inr (.inl ⟨rfl, hcount, ?_⟩)
      simp only [record, hdecision, reduceCtorEq, if_false]
      exact if_pos hcount
    · refine .inr (.inr ⟨rfl, ?_⟩)
      simp only [record, hdecision, reduceCtorEq, if_false]
      exact if_neg hcount

theorem Traced.record (hr : Traced r₀ h r) (hpending : r.status = .pending)
    (haccepted : Accepted r decision) (now : Nat) (status : ApprovalStatus) :
    Traced r₀ (⟨r, .decide decision now, .decided (.ok status)⟩ :: h) (r.record decision) := by
  obtain ⟨⟨hundenied, hall⟩, hunused, hunfinished⟩ := hr.open (by rw [hpending]; rfl)
  have hget : ∀ {actor : String} {decision' : ApprovalDecision},
      (r.record decision).decisions[actor]? = some decision' →
      (decision.actorId = actor ∧ decision = decision') ∨ r.decisions[actor]? = some decision' := by
    intro actor decision' hmem
    rcases get_insert_eq_some.mp hmem with hsame | ⟨-, hold⟩
    · exact .inl hsame
    · exact .inr hold
  refine ⟨?_, fun hmem => ?_, forall_mem_cons.mpr ⟨fun decision' ⟨_, _, hop, _⟩ hdeny => ?_,
      fun e' he' decision' hd hdeny => absurd hdeny (hundenied e' he' decision' hd)⟩, fun hmem hdeny => ?_,
    fun happroved => ?_, fun hconsumed => ?_, forall_mem_cons.mpr ⟨nofun,
      fun e' he' ha honce => absurd ha (hunused honce e' he')⟩, forall_mem_cons.mpr ⟨fun hf => ?_,
      fun e' he' hf => absurd hf (Bool.eq_false_iff.mp (hunfinished e' he'))⟩⟩
  · unfold ApprovalRequest.record
    rw [hr.same]
  · rcases hget hmem with ⟨hactor, rfl⟩ | hold
    · exact ⟨hactor, haccepted.of_same hr.same, _, mem_cons_self, now, status, rfl, rfl⟩
    · exact hr.recorded_later _ hold
  · cases hop
    exact if_pos hdeny
  · rcases hget hmem with ⟨-, rfl⟩ | hold
    · exact if_pos hdeny
    · rw [hall hold] at hdeny
      cases hdeny
  · rcases record_status r decision with ⟨-, hstatus⟩ | ⟨happrove, hcount, -⟩ | ⟨-, hstatus⟩
    · rw [hstatus] at happroved
      rcases happroved with happroved | happroved <;> cases happroved
    · rw [approvals_eq_size, hr.same] at hcount
      · exact hcount
      · intro _ _ hmem
        rcases hget hmem with ⟨-, rfl⟩ | hold
        · exact happrove
        · exact hall hold
    · rw [hstatus, hpending] at happroved
      rcases happroved with happroved | happroved <;> cases happroved
  · rcases record_status r decision with ⟨-, hstatus⟩ | ⟨-, -, hstatus⟩ | ⟨-, hstatus⟩
    · rw [hstatus] at hconsumed
      cases hconsumed
    · rw [hstatus] at hconsumed
      cases hconsumed
    · rw [hstatus, hpending] at hconsumed
      cases hconsumed
  · rw [hpending] at hf
    cases hf

theorem Traced.authorize (hr : Traced r₀ h r) (happroved : r.status = .approved) (subject : ContentDigest)
    (now : Nat) : Traced r₀ (⟨r, .authorize subject now, .authorized (.ok ())⟩ :: h)
      (if r.rule.oneShot then { r with status := .consumed } else r) := by
  have hopen : r.status.isFinal = false := by rw [happroved]; rfl
  obtain ⟨⟨hundenied, hall⟩, -, hunfinished⟩ := hr.open hopen
  have hrule : r.rule = r₀.rule := by rw [hr.same]
  have hdenial : ∀ e' ∈ ⟨r, .authorize subject now, .authorized (.ok ())⟩ :: h, ∀ decision, Decides e' decision →
      decision.decision ≠ .deny := forall_mem_cons.mpr ⟨fun _ ⟨_, _, hop, _⟩ => (nomatch hop), hundenied⟩
  have hfinal : ∀ e' ∈ ⟨r, .authorize subject now, .authorized (.ok ())⟩ :: h, e'.before.status.isFinal ≠ true :=
    forall_mem_cons.mpr ⟨Bool.eq_false_iff.mp hopen, fun e' he' => Bool.eq_false_iff.mp (hunfinished e' he')⟩
  have hdenied : ∀ {actor : String} {decision : ApprovalDecision}, r.decisions[actor]? = some decision →
      decision.decision ≠ .deny := fun hget hdeny => nomatch (hall hget).symm.trans hdeny
  cases honce : r.rule.oneShot with
  | true =>
    exact ⟨by rw [if_pos rfl, hr.same], hr.recorded_later _,
      fun e' he' decision hd hdeny => absurd hdeny (hdenial e' he' decision hd),
      fun hmem hdeny => absurd hdeny (hdenied hmem), fun _ => hr.approved (.inl happroved), fun _ => hrule ▸ honce,
      fun _ _ _ _ => rfl, fun e' he' hf => absurd hf (hfinal e' he')⟩
  | false =>
    refine ⟨hr.same, hr.recorded_later _, fun e' he' decision hd hdeny => absurd hdeny (hdenial e' he' decision hd),
      fun hmem hdeny => absurd hdeny (hdenied hmem), fun _ => hr.approved (.inl happroved), hr.consumed,
      fun e' he' _ hshot => ?_, fun e' he' hf => absurd hf (hfinal e' he')⟩
    rw [← hrule, honce] at hshot
    cases hshot

theorem Traced.step (hr : Traced r₀ h r) (op : Operation) :
    Traced r₀ (⟨r, op, (step r op).1⟩ :: h) (ApprovalRequest.step r op).2 := by
  cases op with
  | decide decision now =>
    rcases decide_cases r decision now with ⟨error, hdecide⟩ | ⟨hpending, haccepted, -, hdecide⟩
    · rw [ApprovalRequest.step, hdecide]
      refine hr.refresh ?_ ?_ now <;> nofun
    · rw [ApprovalRequest.step, hdecide]
      exact hr.record hpending haccepted now _
  | authorize subject now =>
    rcases authorize_cases r subject now with ⟨_, hauthorize⟩ | ⟨-, happroved, -, hauthorize⟩
    · rw [ApprovalRequest.step, hauthorize]
      refine hr.refresh ?_ ?_ now <;> nofun
    · rw [ApprovalRequest.step, hauthorize]
      exact hr.authorize happroved subject now
  | refreshExpiry now => refine hr.refresh ?_ ?_ now <;> nofun

theorem traced_of_reaches (hcreated : Traced r₀ [] r₀) (hrun : Reaches step r₀ h r) : Traced r₀ h r := by
  induction hrun with
  | start => exact hcreated
  | call _ op ih => exact ih.step op

/-- Why an authorization is right: what was approved, by whom, and what has not happened. -/
structure Justified (r₀ : ApprovalRequest) (earlier : List Event) (subject : ContentDigest) (now : Nat) : Prop where
  subject : subject = r₀.subjectDigest
  time : now < r₀.expiresUnixMs
  approvals : ∃ actors : Finset String, r₀.rule.requiredApprovals ≤ actors.card ∧ ∀ actor ∈ actors,
    r₀.rule.eligibleApprovers.contains actor = true ∧ r₀.rule.forbiddenApprovers.contains actor = false ∧
      ∃ e ∈ earlier, ∃ decision, Decides e decision ∧ decision.actorId = actor ∧ decision.decision = .approve ∧
        decision.subjectDigest = r₀.subjectDigest ∧ decision.ruleId = r₀.rule.id
  noDenial : ∀ e ∈ earlier, ∀ decision, Decides e decision → decision.decision ≠ .deny
  once : r₀.rule.oneShot = true → ∀ e ∈ earlier, ¬Authorizes e
  unfinished : ∀ e ∈ earlier, e.before.status.isFinal = false

theorem exists_actors (decisions : BTreeMap String ApprovalDecision) :
    ∃ actors : Finset String, actors.card = decisions.size ∧
      ∀ actor ∈ actors, ∃ decision, decisions[actor]? = some decision := by
  refine ⟨(decisions.toList.map Prod.fst).toFinset, ?_, fun _ hmem => ?_⟩
  · rw [toFinset_card_of_nodup (nodup_map_fst_toList decisions), length_map,
      Std.ExtTreeMap.length_toList]
  · obtain ⟨entry, hentry, rfl⟩ := mem_map.mp (mem_toFinset.mp hmem)
    exact ⟨entry.2, mem_toList.mp hentry⟩

theorem Traced.justified (hr : Traced r₀ h r) (hauthorize : (r.authorize subject now).1 = .ok ()) :
    Justified r₀ h subject now ∧ r.status.isFinal = false := by
  rcases authorize_cases r subject now with ⟨_, herror⟩ | ⟨hsubject, happroved, htime, -⟩
  · rw [herror] at hauthorize
    cases hauthorize
  have hopen : r.status.isFinal = false := by rw [happroved]; rfl
  obtain ⟨⟨hundenied, hall⟩, hunused, hunfinished⟩ := hr.open hopen
  refine ⟨⟨?_, ?_, ?_, hundenied, hunused, hunfinished⟩, hopen⟩
  · rw [hsubject, hr.same]
  · rw [hr.same] at htime
    exact htime
  · obtain ⟨actors, hcard, hactors⟩ := exists_actors r.decisions
    refine ⟨actors, hcard ▸ hr.approved (.inl happroved), fun actor hmem => ?_⟩
    obtain ⟨decision, hget⟩ := hactors actor hmem
    obtain ⟨rfl, haccepted, e, he, hd⟩ := hr.recorded hget
    exact ⟨haccepted.eligible, haccepted.allowed, e, he, decision, hd, rfl, hall hget, haccepted.subject,
      haccepted.rule⟩

theorem Traced.sealed (hr : Traced r₀ h r) (hrule : r₀.rule.validate = .ok ())
    (hid : isUnsafeId r₀.id = false) (hexpires : r₀.createdUnixMs < r₀.expiresUnixMs)
    (hkind : r₀.kind = .workflowDefinition ∨ r₀.kind = .privilegedExecution)
    (hstatus : r.status = .approved ∨ r.status = .consumed) : validateSeal r = .ok () := by
  have hrule' : r.rule = r₀.rule := by rw [hr.same]
  have hid' : r.id = r₀.id := by rw [hr.same]
  have hkind' : r.kind = r₀.kind := by rw [hr.same]
  have htimes : r.createdUnixMs = r₀.createdUnixMs ∧ r.expiresUnixMs = r₀.expiresUnixMs := by
    rw [hr.same]
    exact ⟨rfl, rfl⟩
  have hsubject : r.subjectDigest = r₀.subjectDigest := by rw [hr.same]
  simp only [validateSeal, bind_eq_ok, exists_unit, rejectIf_eq_ok, forEach_eq_ok]
  refine ⟨?_, ?_, ?_, ?_, ?_, ?_, ?_, ?_⟩
  · rw [hkind']
    tauto
  · tauto
  · rintro ⟨hconsumed, honce⟩
    rw [hrule', hr.consumed hconsumed] at honce
    cases honce
  · rw [hrule']
    exact hrule
  · rw [hid', hid]
    nofun
  · omega
  · rintro ⟨actor, decision⟩ hmem
    have hget : r.decisions[actor]? = some decision := mem_toList.mp hmem
    obtain ⟨rfl, haccepted, -⟩ := hr.recorded hget
    have happrove : decision.decision = .approve := by
      cases hdecision : decision.decision with
      | approve => rfl
      | deny =>
        rw [hr.denied hget hdecision] at hstatus
        rcases hstatus with hstatus | hstatus <;> cases hstatus
    have htime := haccepted.time
    simp only [validateSealDecision, bind_eq_ok, exists_unit, rejectIf_eq_ok, hrule', hsubject, haccepted.subject,
      haccepted.rule, haccepted.reason, haccepted.eligible, haccepted.allowed, happrove]
    refine ⟨nofun, nofun, nofun, nofun, by omega, trivial, by simp⟩
  · rw [hrule', not_lt]
    exact hr.approved hstatus

/-- **Approvals authorize only what was approved**: in every run of calls with any times, an authorization is
justified by the calls before it, and approved or consumed evidence for a capsule is a seal. -/
theorem authorize_justified {id : String} {kind : ApprovalKind} {subjectDigest : ContentDigest}
    {riskScore created expires : Nat} {rule : ApprovalRule} {r₀ r : ApprovalRequest} {h : List Event}
    (hcreate : create id kind subjectDigest riskScore created expires rule = .ok r₀)
    (hrun : Run.Reaches step r₀ h r) :
    (∀ later earlier e subject now, h = later ++ e :: earlier → e.op = .authorize subject now → Authorizes e →
      Justified r₀ earlier subject now ∧ e.before.status.isFinal = false) ∧
    (kind = .workflowDefinition ∨ kind = .privilegedExecution → r.status = .approved ∨ r.status = .consumed →
      validateSeal r = .ok ()) := by
  have hcreated := traced_create hcreate
  refine ⟨?_, ?_⟩
  · rintro _ _ _ _ _ rfl hop hauthorizes
    obtain ⟨hbefore, hresult, -⟩ := hrun.split
    refine (traced_of_reaches hcreated hbefore).justified ?_
    rw [hauthorizes, hop] at hresult
    exact (Reply.authorized.inj hresult).symm
  · intro hkind hstatus
    simp only [create, bind_eq_ok, exists_unit, rejectIf_eq_ok, pure_eq_ok, not_le, Bool.not_eq_true] at hcreate
    obtain ⟨hrule, hid, hexpires, rfl⟩ := hcreate
    exact (traced_of_reaches hcreated hrun).sealed hrule hid hexpires hkind hstatus

/-- One approver suffices, once. -/
def reviewRule : ApprovalRule := ⟨"rule", 1, {"reviewer"}, ∅, true⟩

def review : ApprovalRequest := ⟨"request", .privilegedExecution, ⟨0⟩, 1, 1, 10, reviewRule, .pending, ∅⟩

def reviewCalls : List Operation :=
  [.decide ⟨"reviewer", .approve, "reviewed", "rule", ⟨0⟩, 2⟩ 2, .authorize ⟨0⟩ 3, .authorize ⟨0⟩ 4]

theorem authorize_justified_review :
    create "request" .privilegedExecution ⟨0⟩ 1 1 10 reviewRule = .ok review ∧
    ∃ last e earlier, (Run.exec step review reviewCalls).1 = [last] ++ e :: earlier ∧ Authorizes e ∧
      ¬Authorizes last ∧ Justified review earlier ⟨0⟩ 3 ∧
      validateSeal (Run.exec step review reviewCalls).2 = .ok () := by
  have hcreate : create "request" .privilegedExecution ⟨0⟩ 1 1 10 reviewRule = .ok review := rfl
  have hproved := authorize_justified hcreate (reaches_exec step review reviewCalls)
  obtain ⟨last, e, earlier, hcalls, hop, he, hlast⟩ : ∃ last e earlier,
      (exec step review reviewCalls).1 = [last] ++ e :: earlier ∧ e.op = .authorize ⟨0⟩ 3 ∧ Authorizes e ∧
        ¬Authorizes last := ⟨_, _, _, rfl, rfl, rfl, nofun⟩
  exact ⟨hcreate, last, e, earlier, hcalls, he, hlast, (hproved.1 _ _ _ _ _ hcalls hop he).1,
    hproved.2 (.inr rfl) (.inr rfl)⟩

end ApprovalRequest

end Runtrue.Policy
