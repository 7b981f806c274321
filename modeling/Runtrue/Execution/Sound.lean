import Runtrue.Execution.Workspace

/-!
# What a valid reservation ledger is

`validate` walks over the records with checked accumulators and compares its totals with the ledger's
counters and indexes. `Sound` says the same without a walk: every record is well formed and indexed
(`RecordSound`), the counters are sums over the records, and the sums stay within the limits.
`validate_eq_ok` proves that the two agree. The walk can fail by overflow where a sum cannot, so the direction
from `Sound` needs that a partial sum is at most the whole one, which the ledger holds in a machine integer.

Resources are compared dimension by dimension: the four of compute, which are given back when a child ends,
and the four of capability spend, which are not.
-/

namespace Runtrue.Execution

open Fallible List Fixed BTreeMap Nat
open BitVec (eq_of_toNat_eq isLt le_def lt_def)

/-! ### Dimensions -/

inductive Compute
  | cpu | memory | storage | tasks

inductive Spend
  | calls | requestBytes | responseBytes | effects

abbrev Dimension := Compute ⊕ Spend

def CapabilityUsage.get (u : CapabilityUsage) : Spend → U64
  | .calls => u.capabilityCalls
  | .requestBytes => u.capabilityRequestBytes
  | .responseBytes => u.capabilityResponseBytes
  | .effects => u.externalEffectCount

def CapabilityBudget.get (b : CapabilityBudget) : Spend → U64
  | .calls => b.maximumCalls
  | .requestBytes => b.maximumRequestBytes
  | .responseBytes => b.maximumResponseBytes
  | .effects => b.maximumExternalEffects

/-- A compute limit; two of them are narrower than their reservations. -/
def ResourceLimits.get (r : ResourceLimits) : Compute → Nat
  | .cpu => r.cpuMillis.toNat
  | .memory => r.memoryBytes.toNat
  | .storage => r.storageBytes.toNat
  | .tasks => r.taskCount.toNat

namespace ChildResourceReservation

def get (r : ChildResourceReservation) : Dimension → U64
  | .inl .cpu => r.cpuMillis
  | .inl .memory => r.memoryBytes
  | .inl .storage => r.storageBytes
  | .inl .tasks => r.taskCount
  | .inr s => r.capabilityUsage.get s

variable {a b c : ChildResourceReservation}

theorem ext_get (h : ∀ d, a.get d = b.get d) : a = b := by
  cases a
  cases b
  simp only [mk.injEq]
  exact ⟨h (.inl .cpu), h (.inl .memory), h (.inl .storage), h (.inl .tasks), h (.inr .calls),
    h (.inr .requestBytes), h (.inr .responseBytes), h (.inr .effects)⟩

theorem exists_get (n : Dimension → Nat) (h : ∀ d, n d < 2 ^ 64) :
    ∃ r : ChildResourceReservation, ∀ d, (r.get d).toNat = n d := by
  refine ⟨⟨.ofNat 64 (n (.inl .cpu)), .ofNat 64 (n (.inl .memory)), .ofNat 64 (n (.inl .storage)),
    .ofNat 64 (n (.inl .tasks)), .ofNat 64 (n (.inr .calls)), .ofNat 64 (n (.inr .requestBytes)),
    .ofNat 64 (n (.inr .responseBytes)), .ofNat 64 (n (.inr .effects))⟩, ?_⟩
  rintro ((_ | _ | _ | _) | (_ | _ | _ | _)) <;> exact mod_eq_of_lt (h _)

theorem zip_eq_ok {f : U64 → U64 → Option U64} : zip f a b = .ok c ↔ ∀ d, f (a.get d) (b.get d) = some (c.get d) := by
  simp only [zip, bind_eq_ok, okOr_eq_ok, pure_eq_ok]
  constructor
  · rintro ⟨_, _, _, _, _, _, _, _, _, _, _, _, _, _, _, _, rfl⟩
    rintro ((_ | _ | _ | _) | (_ | _ | _ | _)) <;> assumption
  · intro h
    exact ⟨_, h (.inl .cpu), _, h (.inl .memory), _, h (.inl .storage), _, h (.inl .tasks), _,
      h (.inr .calls), _, h (.inr .requestBytes), _, h (.inr .responseBytes), _, h (.inr .effects), rfl⟩

theorem checkedAdd_eq_ok : a.checkedAdd b = .ok c ↔ ∀ d, (c.get d).toNat = (a.get d).toNat + (b.get d).toNat := by
  simp only [checkedAdd, zip_eq_ok, checkedAdd_eq_some]

theorem checkedSub_eq_ok : a.checkedSub b = .ok c ↔ ∀ d, (c.get d).toNat + (b.get d).toNat = (a.get d).toNat := by
  simp only [checkedSub, zip_eq_ok, checkedSub_eq_some]

theorem containsUsage_iff {u : CapabilityUsage} :
    a.containsUsage u = true ↔ ∀ s, (u.get s).toNat ≤ (a.get (.inr s)).toNat := by
  simp only [containsUsage, Bool.and_eq_true, decide_eq_true_eq, le_def]
  constructor
  · rintro ⟨⟨⟨_, _⟩, _⟩, _⟩
    rintro (_ | _ | _ | _) <;> assumption
  · intro h
    exact ⟨⟨⟨h .calls, h .requestBytes⟩, h .responseBytes⟩, h .effects⟩

theorem contains_iff : a.contains b = true ↔ ∀ d, (b.get d).toNat ≤ (a.get d).toNat := by
  simp only [contains, Bool.and_eq_true, decide_eq_true_eq, le_def]
  constructor
  · rintro ⟨⟨⟨⟨⟨⟨⟨_, _⟩, _⟩, _⟩, _⟩, _⟩, _⟩, _⟩
    rintro ((_ | _ | _ | _) | (_ | _ | _ | _)) <;> assumption
  · intro h
    exact ⟨⟨⟨⟨⟨⟨⟨h (.inl .cpu), h (.inl .memory)⟩, h (.inl .storage)⟩, h (.inl .tasks)⟩, h (.inr .calls)⟩,
      h (.inr .requestBytes)⟩, h (.inr .responseBytes)⟩, h (.inr .effects)⟩

theorem get_zero (d : Dimension) : (zero.get d).toNat = 0 := by
  rcases d with (_ | _ | _ | _) | (_ | _ | _ | _) <;> rfl

end ChildResourceReservation

namespace CapabilityUsage

variable {a b c : CapabilityUsage}

theorem ext_get (h : ∀ s, a.get s = b.get s) : a = b := by
  cases a
  cases b
  simp only [mk.injEq]
  exact ⟨h .calls, h .requestBytes, h .responseBytes, h .effects⟩

theorem exists_get (n : Spend → Nat) (h : ∀ s, n s < 2 ^ 64) : ∃ u : CapabilityUsage, ∀ s, (u.get s).toNat = n s := by
  refine ⟨⟨.ofNat 64 (n .calls), .ofNat 64 (n .requestBytes), .ofNat 64 (n .responseBytes),
    .ofNat 64 (n .effects)⟩, ?_⟩
  rintro (_ | _ | _ | _) <;> exact mod_eq_of_lt (h _)

theorem checkedAdd_eq_ok : a.checkedAdd b = .ok c ↔ ∀ s, (c.get s).toNat = (a.get s).toNat + (b.get s).toNat := by
  simp only [checkedAdd, bind_eq_ok, okOr_eq_ok, pure_eq_ok, checkedAdd_eq_some]
  constructor
  · rintro ⟨_, _, _, _, _, _, _, _, rfl⟩
    rintro (_ | _ | _ | _) <;> assumption
  · intro h
    exact ⟨_, h .calls, _, h .requestBytes, _, h .responseBytes, _, h .effects, rfl⟩

theorem get_zero (s : Spend) : (zero.get s).toNat = 0 := by
  cases s <;> rfl

end CapabilityUsage

/-! ### One record -/

namespace ChildReservationRecord

/-- What a record holds of a resource: nothing once it is terminal. -/
def held (d : Dimension) (r : ChildReservationRecord) : Nat :=
  if r.state = .reserved then (r.request.resources.get d).toNat else 0

/-- What is charged for a record for good. -/
def spent (s : Spend) (r : ChildReservationRecord) : Nat :=
  (r.terminalRequest.map fun t => (t.actualUsage.get s).toNat).getD 0

def active (r : ChildReservationRecord) : Nat := if r.state = .reserved then 1 else 0

def terminated (r : ChildReservationRecord) : Nat := if r.state = .reserved then 0 else 1

end ChildReservationRecord

namespace SessionReservationLedger

/-- The terminal part of a record fits its state. -/
inductive StateSound (C : Canonical) (L : SessionReservationLedger) (id : String)
    (r : ChildReservationRecord) : Prop
  | reserved (hstate : r.state = .reserved) (hrecorded : r.terminalRequestDigest = none)
      (hrequest : r.terminalRequest = none) (houtcome : r.terminalOutcome = none)
  | terminal {request : ReservationTransitionRequest} {digest : ContentDigest}
      (hrequest : r.terminalRequest = some request) (hdigest : request.digest C = .ok digest)
      (husage : r.request.resources.containsUsage request.actualUsage = true)
      (hid : request.reservationId = id)
      (hchild : request.childExecutionId = r.request.childExecutionId)
      (hfence : request.sessionFence = L.sessionFence)
      (hrecorded : r.terminalRequestDigest = some digest)
      (houtcome : r.terminalOutcome = some request.outcome)
      (hstate : r.state = request.outcome.state)
      (hindex : L.transitionIdempotency[request.idempotencyKey]? = some (id, digest))

/-- A record is well formed and indexed. -/
structure RecordSound (C : Canonical) (L : SessionReservationLedger) (id : String)
    (r : ChildReservationRecord) : Prop where
  key : r.request.reservationId = id
  digest : r.request.digest C = .ok r.requestDigest
  session : r.request.sessionId = L.sessionId
  capsule : r.request.sessionCapsuleDigest = L.sessionCapsuleDigest
  fence : r.request.sessionFence = L.sessionFence
  generation : r.generation ≠ 0
  child : L.childReservations[r.request.childExecutionId]? = some id
  idempotent : L.reserveIdempotency[r.request.idempotencyKey]? = some id
  state : StateSound C L id r

structure Tally.Adds (t : Tally) (r : ChildReservationRecord) (t' : Tally) : Prop where
  reconstructed : ∀ d, (t'.reconstructed.get d).toNat = (t.reconstructed.get d).toNat + r.held d
  reconstructedUsage : ∀ s,
    (t'.reconstructedUsage.get s).toNat = (t.reconstructedUsage.get s).toNat + r.spent s
  active : t'.active.toNat = t.active.toNat + r.active
  maxGeneration : t'.maxGeneration.toNat = max t.maxGeneration.toNat r.generation.toNat
  terminalCount : t'.terminalCount = t.terminalCount + r.terminated
  generations : t'.generations = t.generations.insert r.generation

variable {C : Canonical} {L : SessionReservationLedger} {id : String} {r : ChildReservationRecord}
  {t t' : Tally}

theorem outcome_state_ne_reserved (outcome : ReservationTerminalOutcome) : outcome.state ≠ .reserved := by
  cases outcome <;> simp [ReservationTerminalOutcome.state]

theorem StateSound.of_reserved (h : StateSound C L id r) (hstate : r.state = .reserved) :
    r.terminalRequestDigest = none ∧ r.terminalRequest = none ∧ r.terminalOutcome = none := by
  cases h with
  | reserved _ hrecorded hrequest houtcome => exact ⟨hrecorded, hrequest, houtcome⟩
  | terminal _ _ _ _ _ _ _ _ hnext _ => exact absurd (hnext.symm.trans hstate) (outcome_state_ne_reserved _)

/-- The generation of a record is noted before its state is looked at. -/
def Tally.note (t : Tally) (generation : U64) : Tally :=
  { t with
    generations := t.generations.insert generation
    maxGeneration := if t.maxGeneration < generation then generation else t.maxGeneration }

theorem Tally.toNat_maxGeneration_note (generation : U64) :
    (t.note generation).maxGeneration.toNat = max t.maxGeneration.toNat generation.toNat := by
  simp only [Tally.note]
  split
  · rename_i hlt
    rw [lt_def] at hlt
    omega
  · rename_i hge
    rw [lt_def] at hge
    omega

theorem Tally.Adds.unique {u : Tally} (h : t.Adds r t') (h' : t.Adds r u) : t' = u := by
  have hallocated : t'.reconstructed = u.reconstructed := ChildResourceReservation.ext_get fun d =>
    eq_of_toNat_eq ((h.reconstructed d).trans (h'.reconstructed d).symm)
  have husage : t'.reconstructedUsage = u.reconstructedUsage := CapabilityUsage.ext_get fun s =>
    eq_of_toNat_eq ((h.reconstructedUsage s).trans (h'.reconstructedUsage s).symm)
  cases t'
  cases u
  simp only [Tally.mk.injEq]
  exact ⟨hallocated, husage, eq_of_toNat_eq (h.active.trans h'.active.symm),
    eq_of_toNat_eq (h.maxGeneration.trans h'.maxGeneration.symm),
    h.terminalCount.trans h'.terminalCount.symm, h.generations.trans h'.generations.symm⟩

theorem visitReserved_eq_ok (hstate : r.state = .reserved) : visitReserved (t.note r.generation) r = .ok t' ↔
      (r.terminalRequestDigest = none ∧ r.terminalRequest = none ∧ r.terminalOutcome = none) ∧ t.Adds r t' := by
  have hheld : ∀ d, r.held d = (r.request.resources.get d).toNat := fun _ => if_pos hstate
  have hactive : r.active = BitVec.toNat (1 : U32) := if_pos hstate
  have hterminated : r.terminated = 0 := if_pos hstate
  simp only [visitReserved, bind_eq_ok, exists_unit, rejectIf_eq_ok, not_or, Option.not_isSome_iff_eq_none,
    ChildResourceReservation.checkedAdd_eq_ok, okOr_eq_ok, checkedAdd_eq_some, pure_eq_ok]
  refine and_congr_right fun hnone => ?_
  have hspent : ∀ s, r.spent s = 0 := fun s => by
    rw [ChildReservationRecord.spent, hnone.2.1]
    rfl
  simp only [← hheld, ← hactive]
  constructor
  · rintro ⟨_, hallocated, _, hnext, rfl⟩
    exact ⟨hallocated, fun s => (by rw [hspent]; rfl), hnext, Tally.toNat_maxGeneration_note _,
      by rw [hterminated]; rfl, rfl⟩
  · intro h
    refine ⟨t'.reconstructed, h.reconstructed, t'.active, h.active, Tally.Adds.unique ?_ h⟩
    exact ⟨h.reconstructed, fun s => (by rw [hspent]; rfl), h.active, Tally.toNat_maxGeneration_note _,
      by rw [hterminated]; rfl, rfl⟩

theorem visitTerminal_eq_ok (hstate : r.state ≠ .reserved) :
    visitTerminal C L (t.note r.generation) id r = .ok t' ↔ StateSound C L id r ∧ t.Adds r t' := by
  have hadds : ∀ {spent : CapabilityUsage},
      (∀ s, (spent.get s).toNat = (t.reconstructedUsage.get s).toNat + r.spent s) →
      t.Adds r { t.note r.generation with reconstructedUsage := spent, terminalCount := t.terminalCount + 1 } :=
    fun hspent => ⟨fun d => (by rw [ChildReservationRecord.held, if_neg hstate]; rfl), hspent,
      by rw [ChildReservationRecord.active, if_neg hstate]; rfl, Tally.toNat_maxGeneration_note _,
      by rw [ChildReservationRecord.terminated, if_neg hstate], rfl⟩
  have hcharge : ∀ {request : ReservationTransitionRequest}, r.terminalRequest = some request →
      ∀ s, r.spent s = (request.actualUsage.get s).toNat := fun hrequest s => by
    rw [ChildReservationRecord.spent, hrequest]
    rfl
  simp only [visitTerminal, bind_eq_ok, exists_unit, okOr_eq_ok, rejectIf_eq_ok, not_or, ne_eq, not_not,
    CapabilityUsage.checkedAdd_eq_ok, pure_eq_ok]
  constructor
  · rintro ⟨request, hrequest, digest, hdigest, husage, _, hspent,
      ⟨hid, hchild, hfence, hrecorded, houtcome, hnext, hindex⟩, rfl⟩
    exact ⟨.terminal hrequest hdigest husage hid hchild hfence hrecorded houtcome hnext hindex,
      hadds fun s => (hspent s).trans (by rw [hcharge hrequest]; rfl)⟩
  · rintro ⟨hsound, h⟩
    cases hsound with
    | reserved hreserved => exact absurd hreserved hstate
    | @terminal request digest hrequest hdigest husage hid hchild hfence hrecorded houtcome hnext hindex =>
      exact ⟨request, hrequest, digest, hdigest, husage, t'.reconstructedUsage,
        fun s => (h.reconstructedUsage s).trans (by rw [hcharge hrequest]; rfl),
        ⟨hid, hchild, hfence, hrecorded, houtcome, hnext, hindex⟩, (hadds h.reconstructedUsage).unique h⟩

theorem visit_eq_ok : visit C L t (id, r) = .ok t' ↔
      RecordSound C L id r ∧ r.generation ∉ t.generations ∧ t.Adds r t' := by
  simp only [visit, bind_eq_ok, exists_unit, rejectIf_eq_ok, not_or, ne_eq, not_not]
  constructor
  · rintro ⟨-, hkey, _, hdigest, ⟨rfl, hsession, hcapsule, hfence, hgeneration, hfresh, hchild,
      hidempotent⟩, hvisit⟩
    have hboth : StateSound C L id r ∧ t.Adds r t' := by
      cases hstate : r.state with
      | reserved =>
        rw [hstate] at hvisit
        obtain ⟨⟨hrecorded, hrequest, houtcome⟩, hadds⟩ := (visitReserved_eq_ok hstate).mp hvisit
        exact ⟨.reserved hstate hrecorded hrequest houtcome, hadds⟩
      | released =>
        rw [hstate] at hvisit
        exact (visitTerminal_eq_ok (by simp [hstate])).mp hvisit
      | finalized =>
        rw [hstate] at hvisit
        exact (visitTerminal_eq_ok (by simp [hstate])).mp hvisit
    exact ⟨⟨hkey.symm, hdigest, hsession, hcapsule, hfence, hgeneration, hchild, hidempotent, hboth.1⟩,
      hfresh, hboth.2⟩
  · rintro ⟨hsound, hfresh, hadds⟩
    have hvalid : r.request.validate = .ok () := by
      have hdigest := hsound.digest
      simp only [ChildReservationRequest.digest, bind_eq_ok, exists_unit] at hdigest
      exact hdigest.1
    refine ⟨hvalid, hsound.key.symm, _, hsound.digest, ⟨rfl, hsound.session, hsound.capsule, hsound.fence,
      hsound.generation, hfresh, hsound.child, hsound.idempotent⟩, ?_⟩
    cases hstate : r.state with
    | reserved => exact (visitReserved_eq_ok hstate).mpr ⟨hsound.state.of_reserved hstate, hadds⟩
    | released => exact (visitTerminal_eq_ok (by simp [hstate])).mpr ⟨hsound.state, hadds⟩
    | finalized => exact (visitTerminal_eq_ok (by simp [hstate])).mpr ⟨hsound.state, hadds⟩

/-! ### All records -/

/-- What the records of a list add to the totals. -/
structure Tally.AddsAll (t : Tally) (l : List (String × ChildReservationRecord)) (t' : Tally) : Prop where
  reconstructed : ∀ d, (t'.reconstructed.get d).toNat =
    (t.reconstructed.get d).toNat + (l.map fun p => p.2.held d).sum
  reconstructedUsage : ∀ s, (t'.reconstructedUsage.get s).toNat =
    (t.reconstructedUsage.get s).toNat + (l.map fun p => p.2.spent s).sum
  active : t'.active.toNat = t.active.toNat + (l.map fun p => p.2.active).sum
  maxGeneration : t'.maxGeneration.toNat =
    max t.maxGeneration.toNat ((l.map fun p => p.2.generation.toNat).foldr max 0)
  terminalCount : t'.terminalCount = t.terminalCount + (l.map fun p => p.2.terminated).sum

/-- The totals fit their machine integers. -/
structure Tally.Fits (t : Tally) (l : List (String × ChildReservationRecord)) : Prop where
  reconstructed : ∀ d, (t.reconstructed.get d).toNat + (l.map fun p => p.2.held d).sum < 2 ^ 64
  reconstructedUsage : ∀ s, (t.reconstructedUsage.get s).toNat + (l.map fun p => p.2.spent s).sum < 2 ^ 64
  active : t.active.toNat + (l.map fun p => p.2.active).sum < 2 ^ 32

theorem Tally.AddsAll.nil : t.AddsAll [] t :=
  ⟨fun _ => rfl, fun _ => rfl, rfl, (Nat.max_zero _).symm, rfl⟩

variable {l : List (String × ChildReservationRecord)}

theorem Tally.AddsAll.cons {u : Tally} (hfirst : t.Adds r u) (hrest : u.AddsAll l t') :
    t.AddsAll ((id, r) :: l) t' := by
  refine ⟨fun d => ?_, fun s => ?_, ?_, ?_, ?_⟩
  · rw [hrest.reconstructed, hfirst.reconstructed, map_cons, sum_cons, add_assoc]
  · rw [hrest.reconstructedUsage, hfirst.reconstructedUsage, map_cons, sum_cons, add_assoc]
  · rw [hrest.active, hfirst.active, map_cons, sum_cons, add_assoc]
  · rw [hrest.maxGeneration, hfirst.maxGeneration, map_cons, foldr_cons, Nat.max_assoc]
  · rw [hrest.terminalCount, hfirst.terminalCount, map_cons, sum_cons, add_assoc]

theorem Tally.Fits.cons (h : t.Fits ((id, r) :: l)) : ∃ u, t.Adds r u ∧ u.Fits l := by
  have hreconstructed := h.reconstructed
  have husage := h.reconstructedUsage
  have hactive := h.active
  simp only [map_cons, sum_cons, ← add_assoc] at hreconstructed husage hactive
  obtain ⟨c, hc⟩ := ChildResourceReservation.exists_get (fun d => (t.reconstructed.get d).toNat + r.held d)
    fun d => lt_of_le_of_lt (Nat.le_add_right _ _) (hreconstructed d)
  obtain ⟨v, hv⟩ := CapabilityUsage.exists_get (fun s => (t.reconstructedUsage.get s).toNat + r.spent s)
    fun s => lt_of_le_of_lt (Nat.le_add_right _ _) (husage s)
  have hn : (BitVec.ofNat 32 (t.active.toNat + r.active)).toNat = t.active.toNat + r.active :=
    mod_eq_of_lt (by omega)
  refine ⟨⟨c, v, .ofNat 32 (t.active.toNat + r.active), (t.note r.generation).maxGeneration,
    t.terminalCount + r.terminated, t.generations.insert r.generation⟩,
    ⟨hc, hv, hn, toNat_maxGeneration_note _, rfl, rfl⟩, ⟨fun d => ?_, fun s => ?_, ?_⟩⟩
  · rw [hc]
    exact hreconstructed d
  · rw [hv]
    exact husage s
  · rw [hn]
    exact hactive

theorem mem_insert_generation {s : BTreeSet U64} {g g' : U64} : g' ∈ s.insert g ↔ g = g' ∨ g' ∈ s := by
  rw [Std.ExtTreeSet.mem_insert, Std.LawfulEqCmp.compare_eq_iff_eq]

theorem walk_sound (h : foldEach (visit C L) t l = .ok t') :
    (∀ p ∈ l, RecordSound C L p.1 p.2) ∧ (l.map fun p => p.2.generation).Nodup ∧
      (∀ p ∈ l, p.2.generation ∉ t.generations) ∧ t.AddsAll l t' := by
  induction l generalizing t with
  | nil =>
    cases h
    exact ⟨fun _ hp => absurd hp not_mem_nil, nodup_nil, fun _ hp => absurd hp not_mem_nil,
      Tally.AddsAll.nil⟩
  | cons p l ih =>
    obtain ⟨_, hvisit, hrest⟩ := foldEach_cons_eq_ok.mp h
    obtain ⟨hsound, hfresh, hadds⟩ := visit_eq_ok.mp hvisit
    obtain ⟨hall, hnodup, hnew, htotal⟩ := ih hrest
    rw [hadds.generations] at hnew
    refine ⟨forall_mem_cons.mpr ⟨hsound, hall⟩, nodup_cons.mpr ⟨?_, hnodup⟩,
      forall_mem_cons.mpr ⟨hfresh, ?_⟩, htotal.cons hadds⟩
    · intro hmem
      obtain ⟨q, hq, heq⟩ := mem_map.mp hmem
      exact hnew q hq (mem_insert_generation.mpr (.inl heq.symm))
    · exact fun q hq hseen => hnew q hq (mem_insert_generation.mpr (.inr hseen))

/-- A walk over sound records with different generations succeeds if the totals fit. -/
theorem walk_complete (hall : ∀ p ∈ l, RecordSound C L p.1 p.2) (hnodup : (l.map fun p => p.2.generation).Nodup)
    (hnew : ∀ p ∈ l, p.2.generation ∉ t.generations) (hfits : t.Fits l) : ∃ t', foldEach (visit C L) t l = .ok t' := by
  induction l generalizing t with
  | nil => exact ⟨t, rfl⟩
  | cons p l ih =>
    obtain ⟨hsound, hall⟩ := forall_mem_cons.mp hall
    obtain ⟨hfresh, hnew⟩ := forall_mem_cons.mp hnew
    obtain ⟨hfirst, hnodup⟩ := nodup_cons.mp hnodup
    have hroom : t.Fits ((p.1, p.2) :: l) := hfits
    obtain ⟨u, hadds, hfits⟩ := hroom.cons
    have hnext : ∀ q ∈ l, q.2.generation ∉ u.generations := by
      intro q hq hseen
      rw [hadds.generations, mem_insert_generation] at hseen
      rcases hseen with heq | hseen
      · exact hfirst (mem_map.mpr ⟨q, hq, heq.symm⟩)
      · exact hnew q hq hseen
    obtain ⟨t', ht'⟩ := ih hall hnodup hnext hfits
    exact ⟨t', foldEach_cons_eq_ok.mpr ⟨u, visit_eq_ok.mpr ⟨hsound, hfresh, hadds⟩, ht'⟩⟩

/-! ### The whole ledger -/

def terminals (L : SessionReservationLedger) : Nat := BTreeMap.sumBy (fun _ r => r.terminated) L.reservations

/-- A ledger whose counters and indexes are those of its records. -/
structure Sound (C : Canonical) (L : SessionReservationLedger) : Prop where
  identity : Validation.identifier "Session identity" L.sessionId = .ok ()
  limits : L.limits.validate = .ok ()
  fence : L.sessionFence ≠ 0
  concurrency : L.maximumConcurrency ≠ 0
  childCount : L.maximumChildCount ≠ 0
  concurrency_le : ¬L.maximumConcurrency > L.maximumChildCount
  records : ∀ (id : String) (r : ChildReservationRecord), L.reservations[id]? = some r → RecordSound C L id r
  generations : (L.reservations.toList.map fun p => p.2.generation).Nodup
  childIndex : L.childReservations.size = L.reservations.size
  reserveIndex : L.reserveIdempotency.size = L.reservations.size
  transitionIndex : L.transitionIdempotency.size = L.terminals
  allocated : ∀ d, (L.allocated.get d).toNat = BTreeMap.sumBy (fun _ r => r.held d) L.reservations
  spent : ∀ s, (L.cumulativeUsage.get s).toNat = BTreeMap.sumBy (fun _ r => r.spent s) L.reservations
  allocated_le : ∀ d, (L.allocated.get d).toNat ≤ (L.limits.get d).toNat
  committed_le : ∀ s,
    (L.cumulativeUsage.get s).toNat + (L.allocated.get (.inr s)).toNat ≤ (L.limits.get (.inr s)).toNat
  active : L.activeConcurrency.toNat = BTreeMap.sumBy (fun _ r => r.active) L.reservations
  active_le : L.activeConcurrency.toNat ≤ L.maximumConcurrency.toNat
  admitted : L.admittedChildCount.toNat = L.reservations.size
  admitted_le : L.admittedChildCount.toNat ≤ L.maximumChildCount.toNat
  next : L.nextGeneration.toNat = BTreeMap.maxBy (fun _ r => r.generation.toNat) L.reservations + 1
  revision : L.ledgerRevision.toNat = L.reservations.size + L.terminals

theorem Sound.of_validate (h : L.validate C = .ok ()) : Sound C L := by
  simp only [validate, bind_eq_ok, exists_unit, rejectIf_eq_ok, okOr_eq_ok, not_or, ne_eq, not_not,
    tryFrom_eq_some, checkedAdd_eq_some, CapabilityUsage.checkedAdd_eq_ok,
    ChildResourceReservation.contains_iff, ChildResourceReservation.containsUsage_iff] at h
  obtain ⟨hid, hlimits, ⟨hfence, hconc, hchildren, hle⟩, t, hwalk, _, hadmitted, _, hnext, _,
    hcount, _, hterminals, _, hrevision,
    ⟨hchildIndex, hreserveIndex, htransitionIndex, hallocated, hspent, hallocatedLe⟩, _, hcommitted,
    hcommittedLe, hactive, hactiveLe, rfl, hadmittedLe, rfl, rfl⟩ := h
  obtain ⟨hall, hnodup, -, hsum⟩ := walk_sound hwalk
  have hterminal : t.terminalCount = L.terminals := hsum.terminalCount.trans (zero_add _)
  refine ⟨hid, hlimits, hfence, hconc, hchildren, hle, fun id r hr => hall (id, r) (mem_toList.mpr hr),
    hnodup, hchildIndex, hreserveIndex, htransitionIndex.trans hterminal, fun d => ?_, fun s => ?_,
    hallocatedLe, fun s => ?_, ?_, BitVec.not_lt.mp hactiveLe, hadmitted, BitVec.not_lt.mp hadmittedLe, ?_, ?_⟩
  · rw [hallocated, hsum.reconstructed, Tally.empty, ChildResourceReservation.get_zero, zero_add]
    rfl
  · rw [hspent, hsum.reconstructedUsage, Tally.empty, CapabilityUsage.get_zero, zero_add]
    rfl
  · exact hcommitted s ▸ hcommittedLe s
  · rw [hactive, hsum.active]
    exact zero_add _
  · rw [hnext, hsum.maxGeneration]
    exact congrArg (· + 1) (Nat.zero_max _)
  · rw [hrevision, hcount, hterminals, hterminal]

theorem Sound.validate (h : Sound C L) : L.validate C = .ok () := by
  have hfits : Tally.empty.Fits L.reservations.toList := by
    refine ⟨fun d => ?_, fun s => ?_, ?_⟩
    · rw [Tally.empty, ChildResourceReservation.get_zero, zero_add]
      exact lt_of_eq_of_lt (h.allocated d).symm (isLt _)
    · rw [Tally.empty, CapabilityUsage.get_zero, zero_add]
      exact lt_of_eq_of_lt (h.spent s).symm (isLt _)
    · exact lt_of_eq_of_lt ((zero_add _).trans h.active.symm) (isLt _)
  obtain ⟨t, hwalk⟩ := walk_complete (C := C) (L := L) (t := .empty)
    (fun p hp => h.records p.1 p.2 (mem_toList.mp hp)) h.generations
    (fun p _ => Std.ExtTreeSet.not_mem_empty) hfits
  obtain ⟨-, -, -, hsum⟩ := walk_sound hwalk
  have hterminal : t.terminalCount = L.terminals := hsum.terminalCount.trans (zero_add _)
  have hsize : L.reservations.size + L.terminals < 2 ^ 64 := lt_of_eq_of_lt h.revision.symm (isLt _)
  have hallocated : L.allocated = t.reconstructed :=
    ChildResourceReservation.ext_get fun d => eq_of_toNat_eq (by
      rw [h.allocated, hsum.reconstructed, Tally.empty, ChildResourceReservation.get_zero, zero_add]
      rfl)
  have hspent : L.cumulativeUsage = t.reconstructedUsage :=
    CapabilityUsage.ext_get fun s => eq_of_toNat_eq (by
      rw [h.spent, hsum.reconstructedUsage, Tally.empty, CapabilityUsage.get_zero, zero_add]
      rfl)
  have hactive : L.activeConcurrency = t.active :=
    eq_of_toNat_eq (by rw [h.active, hsum.active]; exact (zero_add _).symm)
  have hmax : t.maxGeneration.toNat = maxBy (fun _ r => r.generation.toNat) L.reservations :=
    hsum.maxGeneration.trans (Nat.zero_max _)
  obtain ⟨committed, hcommitted⟩ := CapabilityUsage.exists_get
    (fun s => (L.cumulativeUsage.get s).toNat + (L.allocated.get (.inr s)).toNat)
    fun s => lt_of_le_of_lt (h.committed_le s) (isLt _)
  have hcount : (BitVec.ofNat 64 L.reservations.size).toNat = L.reservations.size :=
    mod_eq_of_lt (by omega)
  have hterminals : (BitVec.ofNat 64 t.terminalCount).toNat = t.terminalCount :=
    mod_eq_of_lt (by omega)
  simp only [SessionReservationLedger.validate, bind_eq_ok, exists_unit, rejectIf_eq_ok, okOr_eq_ok, not_or,
    ne_eq, not_not, tryFrom_eq_some, checkedAdd_eq_some, CapabilityUsage.checkedAdd_eq_ok,
    ChildResourceReservation.contains_iff, ChildResourceReservation.containsUsage_iff]
  refine ⟨h.identity, h.limits, ⟨h.fence, h.concurrency, h.childCount, h.concurrency_le⟩, t, hwalk,
    L.admittedChildCount, h.admitted, L.nextGeneration, ?_, _, hcount, _, hterminals, L.ledgerRevision, ?_,
    ⟨h.childIndex, h.reserveIndex, ?_, hallocated, hspent, h.allocated_le⟩, committed, hcommitted,
    fun s => hcommitted s ▸ h.committed_le s, hactive, BitVec.not_lt.mpr h.active_le, rfl,
    BitVec.not_lt.mpr h.admitted_le, rfl, rfl⟩
  · rw [h.next, hmax]
    rfl
  · rw [h.revision, hcount, hterminals, hterminal]
  · rw [h.transitionIndex, hterminal]

/-- **Validation is soundness**: `validate` accepts a ledger exactly if its counters and indexes are those
of its records and within the limits. -/
theorem validate_eq_ok : L.validate C = .ok () ↔ Sound C L := ⟨Sound.of_validate, Sound.validate⟩

end SessionReservationLedger

end Runtrue.Execution
