import Runtrue.Base.Run
import Runtrue.Execution.Commit

/-!
# Runs of a Session, and the budget it stays within

A run is any sequence of `admit_child`, `release` and `finalize_and_publish` calls on one reservation ledger,
each with its own arguments and, for a publication, any publication ledger; the calls may fail.

What a run has done is read off its calls and their replies alone: `children` lists the children ever
admitted, each with what it used once it has ended. `Tracks` relates the ledger to this list, is kept by every
call, and carries the ledger's checks over to it.
-/

namespace Runtrue.Execution

open Fallible List BTreeMap ChildResourceReservation Fixture SessionReservationLedger Run

/-- A capsule's parent binding names the grant by its digest. -/
def DelegationGrant.namedBy (C : Canonical) (g : DelegationGrant) (child : ExecutionCapsule) : Bool :=
  child.parent.any fun binding => g.digest C = .ok binding.delegationGrantDigest

namespace Session

/-! ### Runs -/

inductive Call
  | admitChild (a : Admission)
  | release (request : ReservationTransitionRequest)
  | finalizeAndPublish (P : WorkspacePublicationLedger) (completion : ReservationTransitionRequest)
      (publication : WorkspacePublicationRequest)

inductive Reply
  | reservation (r : Checked ReservationResult)
  | publication (r : Checked FinalizeAndPublishResult)

def step (C : Canonical) (L : SessionReservationLedger) : Call → Reply × SessionReservationLedger
  | .admitChild a => (.reservation (L.admitChild C a).1, (L.admitChild C a).2)
  | .release request => (.reservation (L.release C request).1, (L.release C request).2)
  | .finalizeAndPublish P completion publication =>
    (.publication (P.finalizeAndPublish C L completion publication).1,
      (P.finalizeAndPublish C L completion publication).2.2)

abbrev Event := Run.Event SessionReservationLedger Call Reply

abbrev History := List Event

/-- `L` is reached by the calls of `h` from a new ledger of the Session. -/
def Reaches (C : Canonical) (session : SessionCapsule) (h : History) (L : SessionReservationLedger) : Prop :=
  ∃ sessionId fence L₀, SessionReservationLedger.new C sessionId session fence = .ok L₀ ∧
    Run.Reaches (step C) L₀ h L

/-! ### The children of a run -/

/-- A child the Session admitted, and what it used if it has ended. -/
structure Child where
  capsule : ExecutionCapsule
  request : ChildReservationRequest
  usage : Option CapabilityUsage

def Child.reserved (c : Child) : Bool := c.usage.isNone

/-- The child's parent binding names the grant. -/
def Child.under (C : Canonical) (g : DelegationGrant) (c : Child) : Bool := g.namedBy C c.capsule

/-- What a child counts against the Session's capability budget: what it used, or all it may use. -/
def Child.charge (s : Spend) (c : Child) : Nat :=
  match c.usage with
  | some usage => (usage.get s).toNat
  | none => (c.request.resources.get (.inr s)).toNat

/-- What a call did to the children. -/
inductive Effect
  | admitted (capsule : ExecutionCapsule) (request : ChildReservationRequest)
  | ended (reservationId : String) (usage : CapabilityUsage)

/-- The effect of a call, from its reply: a replay has none. -/
def effect : Call → Reply → Option Effect
  | .admitChild a, .reservation (.ok ⟨record, false⟩) => some (.admitted a.child record.request)
  | .release request, .reservation (.ok ⟨_, false⟩) =>
    some (.ended request.reservationId request.actualUsage)
  | .finalizeAndPublish _ completion _, .publication (.ok ⟨_, _, false⟩) =>
    some (.ended completion.reservationId completion.actualUsage)
  | _, _ => none

def Child.ending (reservationId : String) (usage : CapabilityUsage) (c : Child) : Child :=
  if c.request.reservationId = reservationId then { c with usage := some usage } else c

def after : Option Effect → List Child → List Child
  | some (.admitted capsule request), cs => ⟨capsule, request, none⟩ :: cs
  | some (.ended reservationId usage), cs => cs.map (Child.ending reservationId usage)
  | none, cs => cs

/-- The children ever admitted, newest first. -/
def children : History → List Child
  | [] => []
  | e :: h => after (effect e.op e.result) (children h)

/-- Two children are admitted one after the other. -/
def twoAdmissions : History × SessionReservationLedger :=
  Run.exec (step Fixture.canonical) Fixture.ledger
    [.admitChild (Fixture.admission "1" 0), .admitChild (Fixture.admission "2" 1)]

theorem reaches_fixture (ops : List Call) :
    Reaches canonical Fixture.session (exec (step canonical) ledger ops).1
      (exec (step canonical) ledger ops).2 :=
  ⟨"session-1", 11, ledger, by decide +kernel, reaches_exec _ _ _⟩

theorem children_twoAdmissions :
    (children twoAdmissions.1).map (fun c => (c.under canonical grant, c.reserved)) =
      [(true, true), (true, true)] := by
  decide +kernel

/-! ### What a call does -/

/-- What a call can do to the ledger, with its effect on the children. -/
inductive Moves (C : Canonical) (L : SessionReservationLedger) :
    Call → Option Effect → SessionReservationLedger → Prop
  | idle (call : Call) : Moves C L call none L
  | admits {a : Admission} {derived : ChildReservationRequest} {result : ReservationResult}
      {L' : SessionReservationLedger} (hprepared : L.prepareAdmission C a = .ok (.inr derived))
      (hdoes : SessionReservationLedger.Reserves C L derived result L') (hfresh : result.replayed = false)
      (hvalid : L'.validate C = .ok ()) :
      Moves C L (.admitChild a) (some (.admitted a.child derived)) L'
  | ends {call : Call} {request : ReservationTransitionRequest} {result : ReservationResult}
      {L' : SessionReservationLedger} (hdoes : SessionReservationLedger.Transitions C L request result L')
      (hfresh : result.replayed = false) (hvalid : L'.validate C = .ok ()) :
      Moves C L call (some (.ended request.reservationId request.actualUsage)) L'

theorem step_moves (C : Canonical) (L : SessionReservationLedger) (call : Call) :
    Moves C L call (effect call (step C L call).1) (step C L call).2 := by
  cases call with
  | admitChild a =>
    simp only [step, SessionReservationLedger.admitChild]
    rcases commit_cases L (L.admitStaged C a) with ⟨⟨record, replayed⟩, L', hok, hcommit⟩ | ⟨e, -, hcommit⟩
    · rw [hcommit]
      rcases admitStaged_cases hok with ⟨hreplayed, hsame⟩ |
        ⟨hfresh, hvalid, derived, hprepared, hdoes⟩
      · cases hreplayed
        cases hsame
        exact .idle _
      · cases hfresh
        have hrequest : record.request = derived := by
          cases hdoes
          rfl
        subst hrequest
        exact .admits hprepared hdoes rfl hvalid
    · rw [hcommit]
      exact .idle _
  | release request =>
    simp only [step, SessionReservationLedger.release]
    rcases commit_cases L (L.releaseStaged C request) with ⟨⟨_, replayed⟩, L', hok, hcommit⟩ |
      ⟨e, -, hcommit⟩
    · rw [hcommit]
      rcases releaseStaged_cases hok with ⟨hreplayed, hsame⟩ |
        ⟨hfresh, hvalid, -, hdoes⟩
      · cases hreplayed
        cases hsame
        exact .idle _
      · cases hfresh
        exact .ends hdoes rfl hvalid
    · rw [hcommit]
      exact .idle _
  | finalizeAndPublish P completion publication =>
    simp only [step, WorkspacePublicationLedger.finalizeAndPublish]
    rcases commit_cases (P, L) (P.finalizeStaged C L completion publication) with
      ⟨⟨reservation, published, replayed⟩, ⟨P', L'⟩, hok, hcommit⟩ | ⟨e, -, hcommit⟩
    · rw [hcommit]
      rcases WorkspacePublicationLedger.finalizeStaged_cases hok with ⟨hreplayed, -, hsame⟩ |
        ⟨hfresh, -, hvalid, -, -, _, _, -, hfinalized, -, hdoes⟩
      · cases hreplayed
        cases hsame
        exact .idle _
      · cases hfresh
        exact .ends hdoes hfinalized hvalid
    · rw [hcommit]
      exact .idle _

/-! ### The ledger tracks the children -/

/-- The request and the usage that a record stands for. -/
def seen (r : ChildReservationRecord) : ChildReservationRequest × Option CapabilityUsage :=
  (r.request, r.terminalRequest.map (·.actualUsage))

/-- The ledger of a Session holds the children of its run. -/
structure Tracks (C : Canonical) (session : SessionCapsule) (cs : List Child) (L : SessionReservationLedger) :
    Prop where
  valid : L.validate C = .ok ()
  limits : L.limits = .fromSession session
  concurrency : L.maximumConcurrency = session.maximumConcurrency
  childCount : L.maximumChildCount = session.maximumChildCount
  held : (L.reservations.toList.map fun p => seen p.2).Perm (cs.map fun c => (c.request, c.usage))

section
variable {C : Canonical} {session : SessionCapsule} {L L' : SessionReservationLedger} {cs : List Child}

theorem validate_limits (h : session.validate C = .ok ()) :
    session.maximumResources.validate = .ok () ∧ session.maximumChildCount ≠ 0 ∧
      session.maximumConcurrency ≠ 0 ∧ ¬session.maximumConcurrency > session.maximumChildCount := by
  simp only [SessionCapsule.validate, bind_eq_ok, exists_unit, rejectIf_eq_ok, not_or] at h
  obtain ⟨-, -, -, -, -, -, -, -, hresources, -, -, -, -, ⟨-, -, -, -, hchildren, hconcurrency, hle⟩, -⟩ := h
  exact ⟨hresources, hchildren, hconcurrency, hle⟩

theorem toNat_widen (a : U32) : (a.setWidth 64).toNat = a.toNat := by
  rw [BitVec.toNat_setWidth]
  exact Nat.mod_eq_of_lt (lt_of_lt_of_le a.isLt (by decide))

theorem widen_eq_zero {a : U32} (h : a.setWidth 64 = 0) : a = 0 := by
  apply BitVec.eq_of_toNat_eq
  rw [← toNat_widen, h]
  rfl

theorem Tracks.new {sessionId : String} {fence : U64}
    (h : SessionReservationLedger.new C sessionId session fence = .ok L) : Tracks C session [] L := by
  simp only [SessionReservationLedger.new, bind_eq_ok, exists_unit, rejectIf_eq_ok, pure_eq_ok] at h
  obtain ⟨hidentity, hsession, hfence, _, -, rfl⟩ := h
  obtain ⟨hresources, hchildren, hconcurrency, hle⟩ := validate_limits hsession
  have hlimits : (fromSession session).validate = .ok () := by
    simp only [ResourceLimits.validate, rejectIf_eq_ok, not_or] at hresources
    obtain ⟨hcpu, hmemory, hstorage, htasks, -⟩ := hresources
    refine rejectIf_eq_ok.mpr ?_
    rintro (hzero | hzero | hzero | hzero)
    · exact hcpu (widen_eq_zero hzero)
    · exact hmemory hzero
    · exact hstorage hzero
    · exact htasks (widen_eq_zero hzero)
  refine ⟨Sound.validate ?_, rfl, rfl, rfl, Perm.nil⟩
  have hempty : ∀ id : String, (∅ : BTreeMap String ChildReservationRecord)[id]? = none :=
    fun _ => Std.ExtTreeMap.getElem?_empty
  exact {
    identity := hidentity, limits := hlimits, fence := hfence, concurrency := hconcurrency
    childCount := hchildren, concurrency_le := hle
    records := fun id r hr => by rw [hempty id] at hr; cases hr
    generations := nodup_nil
    childIndex := rfl, reserveIndex := rfl, transitionIndex := rfl
    allocated := get_zero, spent := CapabilityUsage.get_zero
    allocated_le := fun d => by rw [get_zero]; exact Nat.zero_le _
    committed_le := fun s => by
      rw [get_zero, CapabilityUsage.get_zero]
      exact Nat.zero_le _
    active := rfl, active_le := Nat.zero_le _, admitted := rfl, admitted_le := Nat.zero_le _
    next := rfl, revision := rfl }

theorem Tracks.admits {capsule : ExecutionCapsule} {derived : ChildReservationRequest}
    {result : ReservationResult} (ht : Tracks C session cs L)
    (hdoes : Reserves C L derived result L') (hfresh : result.replayed = false)
    (hvalid : L'.validate C = .ok ()) : Tracks C session (⟨capsule, derived, none⟩ :: cs) L' := by
  cases hdoes with
  | replay => cases hfresh
  | fresh _ _ _ _ _ hid =>
    refine ⟨hvalid, ht.limits, ht.concurrency, ht.childCount, ?_⟩
    refine ((toList_insert_perm _ _ _).map _).trans ?_
    rw [erase_of_get_none hid, map_cons, map_cons]
    exact ht.held.cons _

theorem Tracks.ends {request : ReservationTransitionRequest} {result : ReservationResult}
    (ht : Tracks C session cs L) (hdoes : Transitions C L request result L')
    (hfresh : result.replayed = false) (hvalid : L'.validate C = .ok ()) :
    Tracks C session (cs.map (Child.ending request.reservationId request.actualUsage)) L' := by
  cases hdoes with
  | replay => cases hfresh
  | @fresh digest record _ _ _ _ _ _ _ hrecord =>
    refine ⟨hvalid, ht.limits, ht.concurrency, ht.childCount, ?_⟩
    have hsound := Sound.of_validate ht.valid
    -- the same change, on what a record stands for
    let ending : ChildReservationRequest × Option CapabilityUsage →
        ChildReservationRequest × Option CapabilityUsage :=
      fun x => if x.1.reservationId = request.reservationId then (x.1, some request.actualUsage) else x
    have hchildren : (cs.map (Child.ending request.reservationId request.actualUsage)).map
        (fun c => (c.request, c.usage)) = (cs.map fun c => (c.request, c.usage)).map ending := by
      rw [map_map, map_map]
      refine map_congr_left fun c _ => ?_
      simp only [Function.comp, Child.ending, ending]
      split <;> rfl
    have hrest : ∀ p ∈ (L.reservations.erase request.reservationId).toList, ending (seen p.2) = seen p.2 := by
      intro p hp
      rw [mem_toList, get_erase] at hp
      split at hp
      · cases hp
      · rename_i hne
        refine if_neg fun heq => hne ?_
        rw [← heq]
        exact (hsound.records _ _ hp).key
    have hself : ending (seen record) = seen (terminate record request digest) :=
      if_pos (hsound.records _ _ hrecord).key
    have hold := (toList_insert_perm L.reservations request.reservationId record).map fun p => seen p.2
    rw [insert_get_self hrecord, map_cons] at hold
    refine ((toList_insert_perm _ _ _).map _).trans ?_
    rw [hchildren, map_cons]
    refine Perm.trans ?_ ((hold.symm.trans ht.held).map ending)
    rw [map_cons, hself, map_map]
    exact Perm.of_eq (congrArg _ (map_congr_left fun p hp => (hrest p hp).symm))

theorem Tracks.moves {call : Call} {f : Option Effect} (ht : Tracks C session cs L)
    (hmoves : Moves C L call f L') : Tracks C session (after f cs) L' := by
  cases hmoves with
  | idle => exact ht
  | admits _ hdoes hfresh hvalid => exact ht.admits hdoes hfresh hvalid
  | ends hdoes hfresh hvalid => exact ht.ends hdoes hfresh hvalid

theorem Reaches.tracks {h : History} (hrun : Reaches C session h L) : Tracks C session (children h) L := by
  obtain ⟨_, _, _, hnew, hrun⟩ := hrun
  induction hrun with
  | start => exact Tracks.new hnew
  | call _ call ih => exact ih.moves (step_moves C _ call)

/-! ### The budget -/

section
variable (ht : Tracks C session cs L)
include ht

theorem Tracks.sum_eq (f : ChildReservationRequest × Option CapabilityUsage → Nat) :
    (cs.map fun c => f (c.request, c.usage)).sum = sumBy (fun _ r => f (seen r)) L.reservations := by
  have hsum := (ht.held.map f).sum_eq
  rw [map_map, map_map] at hsum
  exact hsum.symm

theorem usage_isNone {id : String} {r : ChildReservationRecord}
    (hr : L.reservations[id]? = some r) : (seen r).2.isNone = true ↔ r.state = .reserved := by
  have hstate := ((Sound.of_validate ht.valid).records id r hr).state
  constructor
  · intro hnone
    cases hstate with
    | reserved hreserved => exact hreserved
    | terminal hrequest =>
      rw [seen, hrequest] at hnone
      cases hnone
  · intro hreserved
    rw [seen, (hstate.of_reserved hreserved).2.1]
    rfl

theorem Tracks.sum_reserved (d : Dimension) :
    ((cs.filter Child.reserved).map fun c => (c.request.resources.get d).toNat).sum = (L.allocated.get d).toNat := by
  have hsum := ht.sum_eq fun x => if x.2.isNone then (x.1.resources.get d).toNat else 0
  rw [BTreeMap.sum_map_ite (fun c : Child => c.usage.isNone)] at hsum
  rw [(Sound.of_validate ht.valid).allocated]
  refine hsum.trans (sumBy_congr fun _ r hr => ?_)
  rw [ChildReservationRecord.held]
  exact if_congr (usage_isNone ht hr) rfl rfl

theorem Tracks.sum_charge (s : Spend) :
    (cs.map (Child.charge s)).sum = (L.cumulativeUsage.get s).toNat + (L.allocated.get (.inr s)).toNat := by
  have hsound := Sound.of_validate ht.valid
  have hsum := ht.sum_eq fun x => match x.2 with
    | some usage => (usage.get s).toNat
    | none => (x.1.resources.get (.inr s)).toNat
  rw [hsound.spent, hsound.allocated, ← sumBy_add]
  refine hsum.trans (sumBy_congr fun id r hr => ?_)
  cases (hsound.records id r hr).state with
  | reserved hstate _ hrequest =>
    simp only [seen, ChildReservationRecord.spent, ChildReservationRecord.held, hrequest, if_pos hstate,
      Option.map_none, Option.getD_none, zero_add]
  | terminal hrequest _ _ _ _ _ _ _ hnext =>
    have hstate : r.state ≠ .reserved := hnext ▸ outcome_state_ne_reserved _
    simp only [seen, ChildReservationRecord.spent, ChildReservationRecord.held, hrequest, if_neg hstate,
      Option.map_some, Option.getD_some, add_zero]

theorem Tracks.length_reserved :
    (cs.filter Child.reserved).length = L.activeConcurrency.toNat := by
  have hsum := ht.sum_eq fun x => if x.2.isNone then 1 else 0
  rw [BTreeMap.sum_map_ite (fun c : Child => c.usage.isNone), map_const', sum_replicate,
    Nat.nsmul_eq_mul, Nat.mul_one] at hsum
  rw [(Sound.of_validate ht.valid).active]
  refine hsum.trans (sumBy_congr fun _ r hr => ?_)
  rw [ChildReservationRecord.active]
  exact if_congr (usage_isNone ht hr) rfl rfl

theorem Tracks.length_eq : cs.length = L.admittedChildCount.toNat := by
  have hlength := ht.held.length_eq
  rw [length_map, length_map, Std.ExtTreeMap.length_toList] at hlength
  rw [(Sound.of_validate ht.valid).admitted, hlength]

theorem Tracks.states :
    (L.reservations.toList.map fun p => (p.2.request, decide (p.2.state = .reserved))).Perm
      (cs.map fun c => (c.request, c.reserved)) := by
  have hperm := ht.held.map fun x => (x.1, x.2.isNone)
  rw [map_map, map_map] at hperm
  refine Perm.trans (Perm.of_eq (map_congr_left fun p hp => ?_)) hperm
  have hstate := usage_isNone ht (mem_toList.mp hp)
  exact Prod.ext rfl (Bool.eq_iff_iff.mpr (decide_eq_true_iff.trans hstate.symm))

end

theorem toNat_fromSession_compute (session : SessionCapsule) (c : Compute) :
    ((fromSession session).get (.inl c)).toNat = session.maximumResources.get c := by
  cases c with
  | cpu => exact toNat_widen _
  | memory => rfl
  | storage => rfl
  | tasks => exact toNat_widen _

theorem fromSession_spend (session : SessionCapsule) (s : Spend) :
    (fromSession session).get (.inr s) = session.capabilities.aggregateBudget.get s := by
  cases s <;> rfl

/-- **In every run the children stay within the Session's budget**: what ended children used with what the others
may still use, what these hold of the compute limits, how many run and how many were ever admitted. The last part
says that these are the children of the ledger. -/
theorem session_budget_safe {h : History} (hrun : Reaches C session h L) :
    (∀ s, ((children h).map (Child.charge s)).sum ≤ (session.capabilities.aggregateBudget.get s).toNat) ∧
    (∀ c, (((children h).filter Child.reserved).map fun x => (x.request.resources.get (.inl c)).toNat).sum ≤
      session.maximumResources.get c) ∧
    ((children h).filter Child.reserved).length ≤ session.maximumConcurrency.toNat ∧
    (children h).length ≤ session.maximumChildCount.toNat ∧
    (L.reservations.toList.map fun p => (p.2.request, decide (p.2.state = .reserved))).Perm
      ((children h).map fun c => (c.request, c.reserved)) := by
  have ht := hrun.tracks
  have hsound := Sound.of_validate ht.valid
  refine ⟨fun s => ?_, fun c => ?_, ?_, ?_, ht.states⟩
  · calc ((children h).map (Child.charge s)).sum
        = (L.cumulativeUsage.get s).toNat + (L.allocated.get (.inr s)).toNat := ht.sum_charge s
      _ ≤ (L.limits.get (.inr s)).toNat := hsound.committed_le s
      _ = (session.capabilities.aggregateBudget.get s).toNat := by rw [ht.limits, fromSession_spend]
  · calc (((children h).filter Child.reserved).map fun x => (x.request.resources.get (.inl c)).toNat).sum
        = (L.allocated.get (.inl c)).toNat := ht.sum_reserved (.inl c)
      _ ≤ (L.limits.get (.inl c)).toNat := hsound.allocated_le (.inl c)
      _ = session.maximumResources.get c := by rw [ht.limits, toNat_fromSession_compute]
  · rw [ht.length_reserved, ← ht.concurrency]
    exact hsound.active_le
  · rw [ht.length_eq, ← ht.childCount]
    exact hsound.admitted_le

theorem session_budget_safe_twoAdmissions :
    (children twoAdmissions.1).length = 2 ∧
    ∀ s, ((children twoAdmissions.1).map (Child.charge s)).sum ≤
      (Fixture.session.capabilities.aggregateBudget.get s).toNat := by
  have hlength := congrArg length children_twoAdmissions
  rw [length_map] at hlength
  exact ⟨hlength, (session_budget_safe (reaches_fixture _)).1⟩

end

end Session

end Runtrue.Execution
