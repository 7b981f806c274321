import Runtrue.Policy.BreakGlass

/-!
# What a break-glass use rests on

Over every run from a created request: a use is the only one, of the exact action that was requested, before the
expiry, after a recorded notification and, where one is required, an approval by another eligible actor, and
after no denial. `Traced` is the run invariant that says what a status means in terms of the calls made so far.

`authorize_once` compares its time with the expiry but not with the time of the request, as `decide` and
`record_notification` do: with a clock that went back, a use is accepted at any time before the request.

The preimage of the subject determines the request.
-/

namespace Runtrue.Policy

open List Encoding Run Text

/-! ### The preimage of the subject -/

/-- The texts are as long as texts of the source can be. -/
def NewBreakGlassRequest.Fits (new : NewBreakGlassRequest) : Prop :=
  (∀ text ∈ new.texts, (Text.bytes text.2).length < 2 ^ 64) ∧
    ∀ approver ∈ new.eligibleApprovers.toList, (Text.bytes approver).length < 2 ^ 64

theorem subjectPreimage_inj {new new' : NewBreakGlassRequest} (hfits : new.Fits) (hfits' : new'.Fits)
    (h : subjectPreimage new = subjectPreimage new') : new = new' := by
  have hfields : ∀ {n : NewBreakGlassRequest}, n.Fits →
      ∀ value ∈ n.texts.map fun text => bytes text.2, value.length < 2 ^ 64 := by
    intro n hn value hmem
    obtain ⟨text, htext, rfl⟩ := mem_map.mp hmem
    exact hn.1 text htext
  have happrovers : ∀ {n : NewBreakGlassRequest}, n.Fits →
      ∀ value ∈ n.eligibleApprovers.toList.map bytes, value.length < 2 ^ 64 := by
    intro n hn _ hmem
    obtain ⟨approver, happrover, rfl⟩ := mem_map.mp hmem
    exact hn.2 approver happrover
  simp only [subjectPreimage, append_assoc] at h
  have hbody := append_cancel_left h
  obtain ⟨htexts, hrest⟩ := delimited_field.flatMap (hfields hfits) (hfields hfits') rfl hbody
  obtain ⟨hrequested, hrest⟩ := delimited_u64 trivial trivial hrest
  obtain ⟨hmfa, hrest⟩ := delimited_u64 trivial trivial hrest
  obtain ⟨hexpires, hrest⟩ := delimited_u64 trivial trivial hrest
  obtain ⟨hbyte, hrest⟩ := cons.inj hrest
  have hset := map_bytes_inj
    (delimited_field.flatMap_inj field_ne_nil (happrovers hfits) (happrovers hfits') hrest)
  have hrequire : new.requireSecondApprover = new'.requireSecondApprover := by
    revert hbyte
    cases new.requireSecondApprover <;> cases new'.requireSecondApprover <;> simp
  have hstrings : ∀ {a b : List (String × String)},
      (a.map fun text => bytes text.2) = b.map (fun text => bytes text.2) →
        a.map Prod.snd = b.map Prod.snd := by
    intro a b hab
    apply map_bytes_inj
    rw [map_map, map_map]
    exact hab
  have hwords := hstrings htexts
  simp only [NewBreakGlassRequest.texts, map_cons, map_nil, cons.injEq, and_true] at hwords
  obtain ⟨h₁, h₂, h₃, h₄, h₅, h₆, h₇, h₈⟩ := hwords
  cases new
  cases new'
  simp only [NewBreakGlassRequest.mk.injEq]
  exact ⟨h₁, h₂, h₃, h₄, h₅, h₆, h₇, h₈, hrequested, hmfa, hexpires, hrequire, Std.ExtTreeSet.toList_inj.mp hset⟩

namespace BreakGlassRequest

open Fallible

variable {sha256 : List UInt8 → ContentDigest} {new : NewBreakGlassRequest} {r₀ r : BreakGlassRequest}
  {h : List Event} {e : Event}

/-! ### Runs -/

def Event.Decided (e : Event) (decision : BreakGlassApproval) : Prop :=
  ∃ now status, e.op = .decide decision now ∧ e.result = .decided (.ok status)

/-- The call recorded this receipt. -/
def Event.Notified (e : Event) (receipt : BreakGlassNotificationReceipt) : Prop :=
  ∃ now, e.op = .recordNotification receipt now ∧ e.result = .notified (.ok ())

/-- The call authorized a use. -/
def Event.Used (e : Event) (presented : BreakGlassPresentation) (now : U64) : Prop :=
  ∃ record, e.op = .authorizeOnce presented now ∧ e.result = .used (.ok record)

/-- Some call approved, by another actor that the request names. -/
def Approved (new : NewBreakGlassRequest) (h : List Event) : Prop :=
  ∃ e ∈ h, ∃ decision, Event.Decided e decision ∧ decision.approve = true ∧
    new.eligibleApprovers.contains decision.actorId = true ∧ decision.actorId ≠ new.requesterId

/-- What the calls since the creation say about the request. -/
structure Traced (sha256 : List UInt8 → ContentDigest) (new : NewBreakGlassRequest) (h : List Event)
    (r : BreakGlassRequest) : Prop where
  same : r.toNewBreakGlassRequest = new
  subject : r.subjectDigest = sha256 (subjectPreimage new)
  approved : r.status = .pendingNotification ∨ r.status = .active → new.requireSecondApprover = true → Approved new h
  notified : r.status = .active →
    ∃ e ∈ h, ∃ receipt, Event.Notified e receipt ∧ receipt.subjectDigest = sha256 (subjectPreimage new)
  denied : ∀ e ∈ h, ∀ decision, Event.Decided e decision → decision.approve = false → r.status = .denied
  used : ∀ e ∈ h, ∀ presented now, Event.Used e presented now → r.status = .consumed

theorem traced_create (hcreate : create sha256 new = .ok r₀) : Traced sha256 new [] r₀ := by
  obtain ⟨-, -, -, rfl⟩ := create_spec hcreate
  refine ⟨rfl, rfl, fun hstatus hrequire => ?_, fun hstatus => ?_, fun _ he => (nomatch he), fun _ he => (nomatch he)⟩
  · simp only [hrequire, if_true] at hstatus
    rcases hstatus with hstatus | hstatus <;> cases hstatus
  · revert hstatus
    cases new.requireSecondApprover <;> nofun

theorem Approved.later (happroved : Approved new h) (e : Event) : Approved new (e :: h) := by
  obtain ⟨e', hmem, hdecision⟩ := happroved
  exact ⟨e', mem_cons_of_mem e hmem, hdecision⟩

section
variable (hr : Traced sha256 new h r)
include hr

theorem Traced.refreshExpiry (hdecided : ∀ decision, ¬Event.Decided e decision)
    (hused : ∀ presented now, ¬Event.Used e presented now) (now : U64) :
    Traced sha256 new (e :: h) (r.refreshExpiry now) := by
  -- A closed status stays.
  have hkept : ∀ {status : BreakGlassStatus}, status.isOpen = false → r.status = status →
      (r.refreshExpiry now).status = status := by
    intro status hclosed hstatus
    rcases refreshExpiry_cases r now with ⟨hsame, -⟩ | ⟨hopen, -⟩
    · rw [hsame, hstatus]
    · rw [hstatus, hclosed] at hopen
      cases hopen
  -- An open status was there before.
  have hopen : ∀ {status : BreakGlassStatus}, status.isOpen = true → (r.refreshExpiry now).status = status →
      r.status = status := by
    intro status hopen hstatus
    obtain ⟨hsame, -⟩ := refreshExpiry_of_status hopen hstatus
    rwa [hsame] at hstatus
  obtain ⟨status, hrefresh⟩ : ∃ status, r.refreshExpiry now = { r with status } := by
    rcases refreshExpiry_cases r now with ⟨hsame, -⟩ | ⟨-, hexpired⟩
    · exact ⟨r.status, hsame⟩
    · exact ⟨_, hexpired⟩
  refine ⟨by rw [hrefresh]; exact hr.same, by rw [hrefresh]; exact hr.subject, fun hstatus hrequire => ?_,
    fun hstatus => ?_, forall_mem_cons.mpr ⟨fun decision hd => absurd hd (hdecided decision),
      fun e' he' decision hd hdeny => hkept rfl (hr.denied e' he' decision hd hdeny)⟩,
    forall_mem_cons.mpr ⟨fun presented now hu => absurd hu (hused presented now),
      fun e' he' presented now hu => hkept rfl (hr.used e' he' presented now hu)⟩⟩
  · exact (hr.approved (hstatus.imp (hopen rfl) (hopen rfl)) hrequire).later e
  · obtain ⟨e', hmem, hnotified⟩ := hr.notified (hopen rfl hstatus)
    exact ⟨e', mem_cons_of_mem e hmem, hnotified⟩

theorem Traced.open (hopen : r.status.isOpen = true) :
    (∀ e ∈ h, ∀ decision, Event.Decided e decision → decision.approve = true) ∧
      ∀ e ∈ h, ∀ presented now, ¬Event.Used e presented now := by
  refine ⟨fun e he decision hd => ?_, fun e he presented now hu => ?_⟩
  · cases happrove : decision.approve with
    | true => rfl
    | false =>
      rw [hr.denied e he decision hd happrove] at hopen
      cases hopen
  · rw [hr.used e he presented now hu] at hopen
    cases hopen

theorem Traced.ended (hopen : r.status.isOpen = true) {t : BreakGlassRequest}
    (hdenied : ∀ decision, Event.Decided e decision → decision.approve = false → t.status = .denied)
    (hused : ∀ presented now, Event.Used e presented now → t.status = .consumed) :
    (∀ e' ∈ e :: h, ∀ decision, Event.Decided e' decision → decision.approve = false → t.status = .denied) ∧
      ∀ e' ∈ e :: h, ∀ presented now, Event.Used e' presented now → t.status = .consumed := by
  obtain ⟨happroved, hunused⟩ := hr.open hopen
  refine ⟨forall_mem_cons.mpr ⟨hdenied, fun e' he' decision hd hdeny => ?_⟩,
    forall_mem_cons.mpr ⟨hused, fun e' he' presented now hu => absurd hu (hunused e' he' presented now)⟩⟩
  rw [happroved e' he' decision hd] at hdeny
  cases hdeny

theorem Traced.withDecision {decision : BreakGlassApproval} {now : U64}
    (hdecides : Decides r decision) :
    Traced sha256 new (⟨r, .decide decision now, .decided (.ok (r.withDecision decision).status)⟩ :: h)
      (r.withDecision decision) := by
  have hsame := hr.same
  have hstatus : (r.withDecision decision).status = if decision.approve then .pendingNotification else .denied := rfl
  obtain ⟨hdenied, hused⟩ := hr.ended (t := r.withDecision decision)
    (e := ⟨r, .decide decision now, .decided (.ok (r.withDecision decision).status)⟩) (by rw [hdecides.pending]; rfl)
    (fun decision' ⟨_, _, hop, _⟩ hdeny => by cases hop; rw [hstatus, hdeny]; rfl) (fun _ _ ⟨_, hop, _⟩ => nomatch hop)
  refine ⟨hr.same, hr.subject, fun hnext _ => ?_, fun hnext => ?_, hdenied, hused⟩
  · refine ⟨_, mem_cons_self, decision, ⟨now, _, rfl, rfl⟩, ?_, ?_, ?_⟩
    · cases happrove : decision.approve with
      | true => rfl
      | false =>
        rw [hstatus, happrove] at hnext
        rcases hnext with hnext | hnext <;> cases hnext
    · rw [← hsame]
      exact hdecides.eligible
    · rw [← hsame]
      exact hdecides.other
  · rw [hstatus] at hnext
    cases happrove : decision.approve <;> rw [happrove] at hnext <;> cases hnext

theorem Traced.withNotification {receipt : BreakGlassNotificationReceipt} {now : U64}
    (hnotifies : Notifies r receipt) :
    Traced sha256 new (⟨r, .recordNotification receipt now, .notified (.ok ())⟩ :: h) (r.withNotification receipt) := by
  obtain ⟨hdenied, hused⟩ := hr.ended (t := r.withNotification receipt)
    (e := ⟨r, .recordNotification receipt now, .notified (.ok ())⟩) (by rw [hnotifies.pending]; rfl)
    (fun _ ⟨_, _, hop, _⟩ => nomatch hop) (fun _ _ ⟨_, hop, _⟩ => nomatch hop)
  exact ⟨hr.same, hr.subject, fun _ hrequire => (hr.approved (.inl hnotifies.pending) hrequire).later _,
    fun _ => ⟨_, mem_cons_self, receipt, ⟨now, rfl, rfl⟩, hnotifies.subject.trans hr.subject⟩, hdenied, hused⟩

theorem Traced.withUse {presented : BreakGlassPresentation} {now : U64}
    (huses : Uses r presented now) (record : BreakGlassUse) :
    Traced sha256 new (⟨r, .authorizeOnce presented now, .used (.ok record)⟩ :: h) (r.withUse record) := by
  obtain ⟨hdenied, hused⟩ := hr.ended (t := r.withUse record)
    (e := ⟨r, .authorizeOnce presented now, .used (.ok record)⟩) (by rw [huses.active]; rfl)
    (fun _ ⟨_, _, hop, _⟩ => nomatch hop) (fun _ _ _ => rfl)
  refine ⟨hr.same, hr.subject, fun hstatus => ?_, nofun, hdenied, hused⟩
  rcases hstatus with hstatus | hstatus <;> cases hstatus

theorem Traced.step (op : Operation) :
    Traced sha256 new (⟨r, op, (r.step op).1⟩ :: h) (r.step op).2 := by
  have hdoes := does_step r op
  generalize (r.step op).1 = reply, (r.step op).2 = t at hdoes ⊢
  cases hdoes with
  | refreshed hdecided hused =>
    exact hr.refreshExpiry (fun _ ⟨_, status, _, hresult⟩ => hdecided status hresult)
      (fun _ _ ⟨record, _, hresult⟩ => hused record hresult) _
  | decided hdecides => exact hr.withDecision hdecides
  | notified hnotifies => exact hr.withNotification hnotifies
  | used huses => exact hr.withUse huses _

end

theorem traced_of_reaches (hcreate : create sha256 new = .ok r₀) (hrun : Reaches step r₀ h r) :
    Traced sha256 new h r := by
  induction hrun with
  | start => exact traced_create hcreate
  | call _ op ih => exact ih.step op

/-! ### Uses -/

/-- What a use at this time rests on, after the calls of `h`. -/
structure Justified (sha256 : List UInt8 → ContentDigest) (new : NewBreakGlassRequest) (h : List Event)
    (presented : BreakGlassPresentation) (now : U64) : Prop where
  once : ∀ e ∈ h, ∀ presented now, ¬Event.Used e presented now
  allowed : presented.action ∉ neverBreakGlassActions
  requester : presented.actorId = new.requesterId
  action : presented.action = new.action
  resource : presented.resourceKind = new.resourceKind ∧ presented.resourceId = new.resourceId
  subject : presented.subjectDigest = sha256 (subjectPreimage new)
  deadline : now.toNat < new.requestedUnixMs.toNat + 15 * 60 * 1000
  notified : ∃ e ∈ h, ∃ receipt, Event.Notified e receipt ∧ receipt.subjectDigest = sha256 (subjectPreimage new)
  approved : new.requireSecondApprover = true → Approved new h
  undenied : ∀ e ∈ h, ∀ decision, Event.Decided e decision → decision.approve = true

theorem expires_le (hcreate : create sha256 new = .ok r₀) :
    new.expiresUnixMs.toNat ≤ new.requestedUnixMs.toNat + 15 * 60 * 1000 := by
  obtain ⟨-, _, hshort, -⟩ := create_spec hcreate
  rw [BitVec.le_def, Fixed.satSub, if_pos (by bv_omega), maxBreakGlassDurationMs] at hshort
  bv_omega

theorem Traced.justified (hcreate : create sha256 new = .ok r₀) (hr : Traced sha256 new h r)
    {presented : BreakGlassPresentation} {now : U64} {record : BreakGlassUse}
    (hok : (r.authorizeOnce presented now).1 = .ok record) : Justified sha256 new h presented now := by
  obtain ⟨huses, hbefore⟩ : Uses r presented now ∧ now < r.expiresUnixMs := by
    have hdoes := does_step r (.authorizeOnce presented now)
    have hreply : (r.step (.authorizeOnce presented now)).1 = .used (.ok record) := congrArg Reply.used hok
    generalize (r.step (.authorizeOnce presented now)).1 = reply,
      (r.step (.authorizeOnce presented now)).2 = t at hdoes hreply
    cases hdoes with
    | refreshed _ hused => exact absurd hreply (hused record)
    | used huses hbefore => exact ⟨huses, hbefore⟩
  have hkept := hr.open (by rw [huses.active]; rfl)
  obtain ⟨hallowed, -, -, -⟩ := create_spec hcreate
  have hsame := hr.same
  have haction : presented.action = new.action := by rw [huses.action, hsame]
  refine ⟨hkept.2, haction ▸ hallowed, ?_, haction, ⟨?_, ?_⟩, huses.subject.trans hr.subject, ?_,
    hr.notified huses.active, hr.approved (.inr huses.active), hkept.1⟩
  · rw [huses.actor, hsame]
  · rw [huses.resourceKind, hsame]
  · rw [huses.resourceId, hsame]
  · have hexpires := expires_le hcreate
    rw [hsame] at hbefore
    bv_omega

/-- A use is not asked for at a time before the request. -/
def Clocked (new : NewBreakGlassRequest) (e : Event) : Prop :=
  ∀ presented now, e.op = .authorizeOnce presented now → new.requestedUnixMs ≤ now

/-- **A use is justified**: the first, exact, notified, approved where that is required, not denied, and within
fifteen minutes of the request, if no use is asked for before the time of the request; without that condition only
this bound is lost. The preimage of the subject determines the request. -/
theorem use_justified (sha256 : List UInt8 → ContentDigest) (new : NewBreakGlassRequest) (r₀ : BreakGlassRequest)
    (hcreate : create sha256 new = .ok r₀) :
    (∀ later earlier e r presented now, Run.Reaches step r₀ (later ++ e :: earlier) r →
        Event.Used e presented now → Justified sha256 new earlier presented now ∧
          (Clocked new e → new.requestedUnixMs ≤ now ∧ now.toNat - new.requestedUnixMs.toNat < 15 * 60 * 1000)) ∧
      ∀ a b : NewBreakGlassRequest, a.Fits → b.Fits → subjectPreimage a = subjectPreimage b → a = b := by
  refine ⟨fun _ _ e r presented now hrun hused => ?_, fun a b => subjectPreimage_inj⟩
  obtain ⟨hbefore, hresult, -⟩ := hrun.split
  obtain ⟨record, hop, hok⟩ := hused
  have hok' : (e.before.authorizeOnce presented now).1 = .ok record := by
    rw [hresult, hop] at hok
    exact Reply.used.inj hok
  have hjustified := (traced_of_reaches hcreate hbefore).justified hcreate hok'
  refine ⟨hjustified, fun hclocked => ?_⟩
  have hafter := hclocked presented now hop
  have hdeadline := hjustified.deadline
  exact ⟨hafter, by bv_omega⟩

/-! A request for one deletion, approved, notified and used. -/

def plainSha (_ : List UInt8) : ContentDigest := ⟨0⟩

def deletion (requireSecondApprover : Bool) : NewBreakGlassRequest where
  id := "b1"
  tenantId := "tenant"
  requesterId := "alice"
  action := "DeleteRunner"
  resourceKind := "runner"
  resourceId := "r1"
  reason := "stuck"
  incidentReference := "i1"
  requestedUnixMs := 2000000
  requesterMfaUnixMs := 2000000
  expiresUnixMs := 2900000
  requireSecondApprover
  eligibleApprovers := .ofList ["bob"]

def deletionUse (reauthenticatedUnixMs : U64) : BreakGlassPresentation :=
  ⟨"alice", "DeleteRunner", "runner", "r1", ⟨0⟩, reauthenticatedUnixMs⟩

def deletionRequest (requireSecondApprover : Bool) : BreakGlassRequest where
  toNewBreakGlassRequest := deletion requireSecondApprover
  subjectDigest := ⟨0⟩
  status := if requireSecondApprover then .pendingApproval else .pendingNotification
  approval := none
  notification := none
  useRecord := none

theorem create_deletion (requireSecondApprover : Bool) :
    create plainSha (deletion requireSecondApprover) = .ok (deletionRequest requireSecondApprover) := by
  cases requireSecondApprover <;> decide +kernel

def readyCalls : List Operation :=
  [.decide ⟨"bob", true, "needed", ⟨0⟩, 2000001, 2000000⟩ 2000002,
    .recordNotification ⟨⟨0⟩, "page", "d1", 2000003⟩ 2000004]

def readyRun : List Event × BreakGlassRequest := Run.exec step (deletionRequest true) readyCalls

theorem use_justified_deletion :
    Justified plainSha (deletion true) readyRun.1 (deletionUse 2000005) 2000006 ∧
      (2000000 : U64) ≤ 2000006 := by
  have hrun : Reaches step (deletionRequest true)
      ([] ++ ⟨readyRun.2, .authorizeOnce (deletionUse 2000005) 2000006,
        (readyRun.2.step (.authorizeOnce (deletionUse 2000005) 2000006)).1⟩ :: readyRun.1) _ :=
    .call (reaches_exec step (deletionRequest true) readyCalls) (.authorizeOnce (deletionUse 2000005) 2000006)
  have hok : ((readyRun.2.authorizeOnce (deletionUse 2000005) 2000006).1.toOption.any fun _ => true) = true := by
    decide +kernel
  obtain ⟨record, hrecord, -⟩ := exists_eq_ok_of_any hok
  obtain ⟨hjustified, hclocked⟩ := (use_justified plainSha (deletion true) (deletionRequest true)
    (create_deletion true)).1 [] readyRun.1 _ _ (deletionUse 2000005) 2000006 hrun
    ⟨record, rfl, congrArg Reply.used hrecord⟩
  refine ⟨hjustified, (hclocked fun _ _ hop => ?_).1⟩
  cases hop
  decide

/-- A use with a clock that went back is accepted more than twenty minutes before the request was made. -/
theorem use_before_request :
    ∃ (new : NewBreakGlassRequest) (r₀ r : BreakGlassRequest) (e : Event) (earlier : List Event)
      (presented : BreakGlassPresentation) (now : U64), create plainSha new = .ok r₀ ∧
        Run.Reaches step r₀ (e :: earlier) r ∧ Event.Used e presented now ∧
        now.toNat + 20 * 60 * 1000 < new.requestedUnixMs.toNat := by
  have hok : (((exec step (deletionRequest false)
      [.recordNotification ⟨⟨0⟩, "page", "d1", 2000003⟩ 2000004]).2.authorizeOnce (deletionUse 5) 5).1.toOption.any
      fun _ => true) = true := by
    decide +kernel
  obtain ⟨record, hrecord, -⟩ := exists_eq_ok_of_any hok
  exact ⟨deletion false, deletionRequest false, _, _, _, deletionUse 5, 5, create_deletion false,
    .call (reaches_exec step _ _) (.authorizeOnce (deletionUse 5) 5),
    ⟨record, rfl, congrArg Reply.used hrecord⟩, by decide⟩

end BreakGlassRequest

end Runtrue.Policy
