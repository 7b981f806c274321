import Runtrue.Execution.Session

/-!
# The limits of a delegation grant over runs

A grant carries its own `maximum_child_count` and `maximum_concurrency`, but the ledger counts children
against the Session only: two children are admitted under a grant for one.

The limits hold in the runs in which every `admit_child` that names the grant, a repeated one apart, finds
room under it.
-/

namespace Runtrue.Execution.Session

open Fallible List Child Function Fixture

/-- The number of children ever admitted under a grant. -/
def admittedUnder (C : Canonical) (g : DelegationGrant) (cs : List Child) : Nat := cs.countP (Child.under C g)

/-- The number of children under a grant that have not ended. -/
def reservedUnder (C : Canonical) (g : DelegationGrant) (cs : List Child) : Nat :=
  cs.countP fun c => c.under C g && c.reserved

/-- An `admit_child` that names the grant and is not a repeated one finds room under the grant. -/
def HasRoom (C : Canonical) (g : DelegationGrant) (e : Event) (h : History) : Prop :=
  match e.op with
  | .admitChild a =>
    g.namedBy C a.child = true → e.before.reserveIdempotency[a.request.idempotencyKey]? = none →
      admittedUnder C g (children h) < g.maximumChildCount.toNat ∧
      reservedUnder C g (children h) < g.maximumConcurrency.toNat
  | _ => True

instance HasRoom.decidable (C : Canonical) (g : DelegationGrant) : ∀ e h, Decidable (HasRoom C g e h)
  | ⟨_, .admitChild _, _⟩, _ => inferInstanceAs (Decidable (_ → _ → _ ∧ _))
  | ⟨_, .release _, _⟩, _ => instDecidableTrue
  | ⟨_, .finalizeAndPublish _ _ _, _⟩, _ => instDecidableTrue

variable {C : Canonical} {g : DelegationGrant} {session : SessionCapsule} {L L' : SessionReservationLedger}

/-! ### What a call does to the counts -/

theorem under_ending (reservationId : String) (usage : CapabilityUsage) (c : Child) :
    (c.ending reservationId usage).under C g = c.under C g := by
  unfold ending
  split <;> rfl

theorem admittedUnder_ended (reservationId : String) (usage : CapabilityUsage) (cs : List Child) :
    admittedUnder C g (cs.map (ending reservationId usage)) = admittedUnder C g cs := by
  simp only [admittedUnder, countP_map, comp_def, under_ending]

theorem reserved_of_ending {reservationId : String} {usage : CapabilityUsage} {c : Child}
    (h : (c.ending reservationId usage).reserved = true) : c.reserved = true := by
  unfold ending at h
  split at h
  · cases h
  · exact h

theorem reservedUnder_ended (reservationId : String) (usage : CapabilityUsage) (cs : List Child) :
    reservedUnder C g (cs.map (ending reservationId usage)) ≤ reservedUnder C g cs := by
  rw [reservedUnder, reservedUnder, countP_map]
  refine countP_mono_left fun c _ hc => ?_
  simp only [comp, under_ending, Bool.and_eq_true] at hc ⊢
  exact ⟨hc.1, reserved_of_ending hc.2⟩

theorem admittedUnder_admitted (capsule : ExecutionCapsule) (request : ChildReservationRequest) (cs : List Child) :
    admittedUnder C g (⟨capsule, request, none⟩ :: cs) = admittedUnder C g cs + if g.namedBy C capsule then 1 else 0 :=
  countP_cons

theorem reservedUnder_admitted (capsule : ExecutionCapsule) (request : ChildReservationRequest) (cs : List Child) :
    reservedUnder C g (⟨capsule, request, none⟩ :: cs) =
      reservedUnder C g cs + if g.namedBy C capsule then 1 else 0 := by
  rw [reservedUnder, countP_cons]
  simp only [under, reserved, Option.isNone_none, Bool.and_true, reservedUnder]

/-! ### The limits -/

/-- The children stay within the limits of the grant. -/
def WithinGrant (C : Canonical) (g : DelegationGrant) (cs : List Child) : Prop :=
  admittedUnder C g cs ≤ g.maximumChildCount.toNat ∧ reservedUnder C g cs ≤ g.maximumConcurrency.toNat

theorem idempotencyKey_of_prepareAdmission {a : Admission} {derived : ChildReservationRequest}
    (h : L.prepareAdmission C a = .ok (.inr derived)) : derived.idempotencyKey = a.request.idempotencyKey := by
  simp only [SessionReservationLedger.prepareAdmission, bind_eq_ok, exists_unit] at h
  obtain ⟨-, -, -, -, _, -, _, -, replay, -, h⟩ := h
  cases replay with
  | some => cases h
  | none =>
    simp only [bind_eq_ok, exists_unit, pure_eq_ok] at h
    obtain ⟨-, -, -, hderived⟩ := h
    cases hderived
    rfl

theorem WithinGrant.moves {call : Call} {f : Option Effect} {h : History} {reply : Reply}
    (hwithin : WithinGrant C g (children h)) (hmoves : Moves C L call f L')
    (hroom : HasRoom C g ⟨L, call, reply⟩ h) : WithinGrant C g (after f (children h)) := by
  cases hmoves with
  | idle => exact hwithin
  | ends =>
    refine ⟨?_, (reservedUnder_ended _ _ _).trans hwithin.2⟩
    rw [after, admittedUnder_ended]
    exact hwithin.1
  | @admits a _ _ _ hprepared hdoes hfresh =>
    rw [WithinGrant, after, admittedUnder_admitted, reservedUnder_admitted]
    split
    · rename_i hnamed
      have hkey : L.reserveIdempotency[a.request.idempotencyKey]? = none := by
        rw [← idempotencyKey_of_prepareAdmission hprepared]
        cases hdoes with
        | replay => cases hfresh
        | fresh _ hkey => exact hkey
      exact hroom hnamed hkey
    · exact hwithin

/-- **The limits of a grant hold in every run in which each new admission under it finds room.** -/
theorem grant_limits_hold {h : History} (hrun : Reaches C session h L)
    (hroom : Run.AllCalls (HasRoom C g) h) :
    admittedUnder C g (children h) ≤ g.maximumChildCount.toNat ∧
    reservedUnder C g (children h) ≤ g.maximumConcurrency.toNat := by
  obtain ⟨_, _, _, -, hrun⟩ := hrun
  refine Run.Reaches.invariant (P := fun h _ => WithinGrant C g (children h)) ?_ ?_ hrun hroom
  · exact ⟨Nat.zero_le _, Nat.zero_le _⟩
  · intro h s call _ hroom hwithin
    exact hwithin.moves (step_moves C s call) hroom

def repeatedAdmission : History × SessionReservationLedger :=
  Run.exec (step Fixture.canonical) Fixture.ledger
    [.admitChild (Fixture.admission "1" 0), .admitChild (Fixture.admission "1" 0)]

theorem hasRoom_repeatedAdmission : (children repeatedAdmission.1).length = 1 ∧
    Run.AllCalls (HasRoom canonical grant) repeatedAdmission.1 := by
  decide +kernel

theorem grant_limits_hold_repeatedAdmission :
    (children repeatedAdmission.1).length = 1 ∧
    admittedUnder Fixture.canonical Fixture.grant (children repeatedAdmission.1) ≤ 1 ∧
    reservedUnder Fixture.canonical Fixture.grant (children repeatedAdmission.1) ≤ 1 :=
  ⟨hasRoom_repeatedAdmission.1, grant_limits_hold (reaches_fixture _) hasRoom_repeatedAdmission.2⟩

/-- **Two children run under a grant for one.** -/
theorem grant_limits_exceeded_twoAdmissions :
    Reaches Fixture.canonical Fixture.session twoAdmissions.1 twoAdmissions.2 ∧
    Fixture.grant.maximumChildCount.toNat <
      admittedUnder Fixture.canonical Fixture.grant (children twoAdmissions.1) ∧
    Fixture.grant.maximumConcurrency.toNat <
      reservedUnder Fixture.canonical Fixture.grant (children twoAdmissions.1) := by
  have hadmitted := congrArg (countP fun x => x.1) children_twoAdmissions
  have hreserved := congrArg (countP fun x => x.1 && x.2) children_twoAdmissions
  rw [countP_map] at hadmitted hreserved
  refine ⟨reaches_fixture _, ?_, ?_⟩
  · exact lt_of_lt_of_eq (by decide) hadmitted.symm
  · exact lt_of_lt_of_eq (by decide) hreserved.symm

end Runtrue.Execution.Session
