import Runtrue.Execution.Sound

/-!
# The staged operations keep a ledger sound

`Reserves` and `Transitions` say what `reserveStaged` and `transitionStaged` do when they succeed: a replay
changes nothing, and otherwise the ledger is the old one with one record more, or with one record
terminal. Both keep `Sound`, so the `validate` that follows a staged operation never fails.
-/

namespace Runtrue.Execution

open Fallible BTreeMap ChildReservationRecord ChildResourceReservation Fixture Fixed Nat

namespace SessionReservationLedger

/-! ### What the staged operations do -/

/-- A successful `reserveStaged`. -/
inductive Reserves (C : Canonical) (L : SessionReservationLedger) (request : ChildReservationRequest) :
    ReservationResult → SessionReservationLedger → Prop
  | replay {id : String} {record : ChildReservationRecord}
      (hkey : L.reserveIdempotency[request.idempotencyKey]? = some id)
      (hrecord : L.reservations[id]? = some record)
      (hdigest : request.digest C = .ok record.requestDigest) :
      Reserves C L request ⟨record, true⟩ L
  | fresh {digest : ContentDigest} {allocated : ChildResourceReservation} {nextActive nextAdmitted : U32}
      {nextGeneration nextRevision : U64}
      (hdigest : request.digest C = .ok digest)
      (hkey : L.reserveIdempotency[request.idempotencyKey]? = none)
      (hfence : request.sessionFence = L.sessionFence)
      (hsession : request.sessionId = L.sessionId)
      (hcapsule : request.sessionCapsuleDigest = L.sessionCapsuleDigest)
      (hid : L.reservations[request.reservationId]? = none)
      (hchild : L.childReservations[request.childExecutionId]? = none)
      (hallocated : ∀ d, (allocated.get d).toNat = (L.allocated.get d).toNat + (request.resources.get d).toNat)
      (hwithin : ∀ d, (allocated.get d).toNat ≤ (L.limits.get d).toNat)
      (hcommitted : ∀ s,
        (L.cumulativeUsage.get s).toNat + (allocated.get (.inr s)).toNat ≤ (L.limits.get (.inr s)).toNat)
      (hactive : L.activeConcurrency.toNat < L.maximumConcurrency.toNat)
      (hadmitted : L.admittedChildCount.toNat < L.maximumChildCount.toNat)
      (hnextGeneration : nextGeneration.toNat = L.nextGeneration.toNat + 1)
      (hnextActive : nextActive.toNat = L.activeConcurrency.toNat + 1)
      (hnextAdmitted : nextAdmitted.toNat = L.admittedChildCount.toNat + 1)
      (hnextRevision : nextRevision.toNat = L.ledgerRevision.toNat + 1) :
      Reserves C L request ⟨⟨request, digest, L.nextGeneration, .reserved, none, none, none⟩, false⟩
        (L.withReservation request ⟨request, digest, L.nextGeneration, .reserved, none, none, none⟩ allocated
          nextActive nextAdmitted nextGeneration nextRevision)

/-- A successful `transitionStaged`. -/
inductive Transitions (C : Canonical) (L : SessionReservationLedger) (request : ReservationTransitionRequest) :
    ReservationResult → SessionReservationLedger → Prop
  | replay {id : String} {digest : ContentDigest} {record : ChildReservationRecord}
      (hdigest : request.digest C = .ok digest)
      (hkey : L.transitionIdempotency[request.idempotencyKey]? = some (id, digest))
      (hrecord : L.reservations[id]? = some record) :
      Transitions C L request ⟨record, true⟩ L
  | fresh {digest : ContentDigest} {record : ChildReservationRecord} {allocated : ChildResourceReservation}
      {cumulativeUsage : CapabilityUsage} {active : U32} {nextRevision : U64}
      (hdigest : request.digest C = .ok digest)
      (hkey : L.transitionIdempotency[request.idempotencyKey]? = none)
      (hfence : request.sessionFence = L.sessionFence)
      (hrecord : L.reservations[request.reservationId]? = some record)
      (hchild : record.request.childExecutionId = request.childExecutionId)
      (hstate : record.state = .reserved)
      (hallocated : ∀ d,
        (allocated.get d).toNat + (record.request.resources.get d).toNat = (L.allocated.get d).toNat)
      (husage : record.request.resources.containsUsage request.actualUsage = true)
      (hcumulative : ∀ s, (cumulativeUsage.get s).toNat =
        (L.cumulativeUsage.get s).toNat + (request.actualUsage.get s).toNat)
      (hactive : active.toNat + 1 = L.activeConcurrency.toNat)
      (hnextRevision : nextRevision.toNat = L.ledgerRevision.toNat + 1) :
      Transitions C L request ⟨terminate record request digest, false⟩
        (L.withTransition request digest (terminate record request digest) allocated cumulativeUsage active
          nextRevision)

section
variable {C : Canonical} {L L' : SessionReservationLedger} {result : ReservationResult}
  {request : ChildReservationRequest}

theorem exactReservationReplay_eq_none (h : L.exactReservationReplay C request = .ok none) :
    L.reserveIdempotency[request.idempotencyKey]? = none := by
  unfold exactReservationReplay at h
  split at h
  · assumption
  · simp only [bind_eq_ok, pure_eq_ok] at h
    obtain ⟨_, -, _, -, _, -, hnone⟩ := h
    cases hnone

theorem exactReservationReplay_eq_some (h : L.exactReservationReplay C request = .ok (some result)) :
    Reserves C L request result L ∧ result.replayed = true := by
  unfold exactReservationReplay at h
  split at h
  · cases h
  · rename_i id hkey
    simp only [bind_eq_ok, exists_unit, okOr_eq_ok, rejectIf_eq_ok, ne_eq, not_not, pure_eq_ok,
      Option.some.injEq] at h
    obtain ⟨_, hrecord, _, hdigest, rfl, rfl⟩ := h
    exact ⟨.replay hkey hrecord hdigest, rfl⟩

theorem reserves_of_ok (h : L.reserveStaged C request = .ok (result, L')) : Reserves C L request result L' := by
  simp only [reserveStaged, bind_eq_ok, exists_unit] at h
  obtain ⟨-, _, hdigest, replay, hreplay, h⟩ := h
  cases replay with
  | some =>
    cases h
    exact (exactReservationReplay_eq_some hreplay).1
  | none =>
    simp only [bind_eq_ok, exists_unit, rejectIf_eq_ok, okOr_eq_ok, not_or, ne_eq, not_not, pure_eq_ok,
      Bool.not_eq_true, checkedAdd_eq_ok, CapabilityUsage.checkedAdd_eq_ok,
      contains_iff, containsUsage_iff,
      checkedAdd_eq_some] at h
    obtain ⟨hfence, -, ⟨hsession, hcapsule, hid, hchild⟩, _, hallocated, _, hcommitted,
      ⟨hwithin, hspend, hactive, hadmitted⟩, _, hnextGeneration, _, hnextActive,
      _, hnextAdmitted, _, hnextRevision, h⟩ := h
    cases h
    exact .fresh hdigest (exactReservationReplay_eq_none hreplay) hfence hsession hcapsule
      (get_of_not_contains hid) (get_of_not_contains hchild) hallocated hwithin
      (fun s => hcommitted s ▸ hspend s) (BitVec.not_le.mp hactive) (BitVec.not_le.mp hadmitted)
      hnextGeneration hnextActive hnextAdmitted hnextRevision

theorem transitions_of_ok {request : ReservationTransitionRequest}
    (h : L.transitionStaged C request = .ok (result, L')) : Transitions C L request result L' := by
  simp only [transitionStaged, bind_eq_ok, exists_unit] at h
  obtain ⟨-, _, hdigest, h⟩ := h
  split at h
  · rename_i id prior hkey
    simp only [bind_eq_ok, exists_unit, okOr_eq_ok, rejectIf_eq_ok, ne_eq, not_not, pure_eq_ok] at h
    obtain ⟨rfl, record, hrecord, h⟩ := h
    cases h
    exact .replay hdigest hkey hrecord
  · rename_i hkey
    simp only [bind_eq_ok, exists_unit, rejectIf_eq_ok, okOr_eq_ok, ne_eq, not_not, pure_eq_ok,
      checkedSub_eq_ok, CapabilityUsage.checkedAdd_eq_ok, checkedAdd_eq_some,
      checkedSub_eq_some] at h
    obtain ⟨hfence, -, _, hrecord, hchild, hstate, _, hallocated, husage, _,
      hcumulative, _, hactive, _, hnextRevision, h⟩ := h
    cases h
    exact .fresh hdigest hkey hfence hrecord hchild hstate hallocated husage hcumulative hactive hnextRevision

/-! ### Soundness is kept -/

variable {id : String} {r : ChildReservationRecord}

theorem RecordSound.grows (h : RecordSound C L id r) (hsession : L'.sessionId = L.sessionId)
    (hcapsule : L'.sessionCapsuleDigest = L.sessionCapsuleDigest) (hfence : L'.sessionFence = L.sessionFence)
    (hchildren : ∀ (k v : String), L.childReservations[k]? = some v → L'.childReservations[k]? = some v)
    (hreserve : ∀ (k v : String), L.reserveIdempotency[k]? = some v → L'.reserveIdempotency[k]? = some v)
    (htransition : ∀ (k : String) (v : String × ContentDigest), L.transitionIdempotency[k]? = some v →
      L'.transitionIdempotency[k]? = some v) :
    RecordSound C L' id r := by
  refine ⟨h.key, h.digest, h.session.trans hsession.symm, h.capsule.trans hcapsule.symm,
    h.fence.trans hfence.symm, h.generation, hchildren _ _ h.child, hreserve _ _ h.idempotent, ?_⟩
  cases h.state with
  | reserved hstate hrecorded hrequest houtcome => exact .reserved hstate hrecorded hrequest houtcome
  | terminal hrequest hdigest husage hid hchild hterminalFence hrecorded houtcome hstate hindex =>
    exact .terminal hrequest hdigest husage hid hchild (hterminalFence.trans hfence.symm) hrecorded houtcome
      hstate (htransition _ _ hindex)

theorem Sound.generation_lt (h : Sound C L) (hr : L.reservations[id]? = some r) :
    r.generation.toNat < L.nextGeneration.toNat := by
  have hle := le_maxBy (w := fun _ r => r.generation.toNat) hr
  rw [h.next]
  exact lt_succ_of_le hle

theorem Sound.reserves (h : Sound C L) (hdoes : Reserves C L request result L') : Sound C L' := by
  cases hdoes with
  | replay => exact h
  | @fresh digest allocated nextActive nextAdmitted nextGeneration nextRevision hdigest hkey hfence hsession
      hcapsule hid hchild hallocated hwithin hcommitted hactive hadmitted hnextGeneration hnextActive
      hnextAdmitted hnextRevision =>
    have hnextPos : L.nextGeneration ≠ 0 := by
      intro hzero
      have hnext := h.next
      rw [hzero] at hnext
      cases hnext
    have hsize := size_insert_fresh (v := (⟨request, digest, L.nextGeneration, .reserved, none, none,
      none⟩ : ChildReservationRecord)) hid
    have hterminals : terminals (L.withReservation request ⟨request, digest, L.nextGeneration, .reserved,
        none, none, none⟩ allocated nextActive nextAdmitted nextGeneration nextRevision) = L.terminals := by
      rw [terminals, withReservation, sumBy_insert_new hid fun _ _ _ _ => rfl]
      rfl
    refine { h with
      records := ?_, generations := ?_, childIndex := ?_, reserveIndex := ?_
      transitionIndex := h.transitionIndex.trans hterminals.symm
      allocated := ?_, spent := ?_, allocated_le := hwithin, committed_le := hcommitted
      active := ?_, active_le := ?_, admitted := ?_, admitted_le := ?_, next := ?_, revision := ?_ }
    · -- the new record, and the old ones, whose index entries are untouched
      intro id r hr
      rw [withReservation, get_insert] at hr
      split at hr
      · rename_i heq
        cases hr
        exact ⟨heq, hdigest, hsession, hcapsule, hfence, hnextPos, heq ▸ get_insert_self _ _ _,
          heq ▸ get_insert_self _ _ _, .reserved rfl rfl rfl rfl⟩
      · exact (h.records id r hr).grows rfl rfl rfl (fun _ _ => get_insert_fresh hchild)
          (fun _ _ => get_insert_fresh hkey) (fun _ _ hv => hv)
    · -- the new generation is above all others
      rw [withReservation, ((toList_insert_perm _ _ _).map _).nodup_iff,
        erase_of_get_none hid, List.map_cons, List.nodup_cons]
      refine ⟨fun hmem => ?_, h.generations⟩
      obtain ⟨_, hp, heq⟩ := List.mem_map.mp hmem
      have hlt := h.generation_lt (mem_toList.mp hp)
      rw [heq] at hlt
      exact absurd hlt (Nat.lt_irrefl _)
    · rw [withReservation, size_insert_fresh hchild, hsize, h.childIndex]
    · rw [withReservation, size_insert_fresh hkey, hsize, h.reserveIndex]
    · intro d
      rw [withReservation, sumBy_insert_new hid fun _ _ _ _ => rfl, ← h.allocated]
      exact hallocated d
    · intro s
      rw [withReservation, sumBy_insert_new hid fun _ _ _ _ => rfl, ← h.spent]
      rfl
    · rw [withReservation, sumBy_insert_new hid fun _ _ _ _ => rfl, ← h.active]
      exact hnextActive
    · exact hnextActive.trans_le hactive
    · rw [withReservation, hsize, ← h.admitted]
      exact hnextAdmitted
    · exact hnextAdmitted.trans_le hadmitted
    · rw [withReservation, maxBy_insert_new hid, max_eq_left, hnextGeneration]
      rw [h.next]
      exact le_succ _
    · rw [hterminals, withReservation, hsize, Nat.add_right_comm, ← h.revision]
      exact hnextRevision

theorem Sound.transitions {request : ReservationTransitionRequest} (h : Sound C L)
    (hdoes : Transitions C L request result L') : Sound C L' := by
  cases hdoes with
  | replay => exact h
  | @fresh digest record allocated cumulative active nextRevision hdigest hkey hfence hrecord hchild hstate
      hallocated husage hcumulative hactive hnextRevision =>
    have hold := h.records _ _ hrecord
    have hsize := size_insert_present (v := terminate record request digest) hrecord
    have hnotReserved : (terminate record request digest).state ≠ .reserved := outcome_state_ne_reserved _
    -- each sum changes by the difference between the two records
    have hsum : ∀ f : ChildReservationRecord → Nat,
        sumBy (fun _ r => f r)
            (L.reservations.insert request.reservationId (terminate record request digest)) + f record =
          sumBy (fun _ r => f r) L.reservations + f (terminate record request digest) :=
      fun f => sumBy_update hrecord fun _ _ _ _ => rfl
    have hterminals : terminals (L.withTransition request digest (terminate record request digest) allocated
        cumulative active nextRevision) = L.terminals + 1 := by
      have hcount := hsum terminated
      rw [terminated, if_pos hstate, terminated,
        if_neg hnotReserved] at hcount
      exact hcount
    refine { h with
      records := ?_, generations := ?_, childIndex := ?_, reserveIndex := ?_, transitionIndex := ?_
      allocated := ?_, spent := ?_, allocated_le := ?_, committed_le := ?_
      active := ?_, active_le := ?_, admitted := ?_, next := ?_, revision := ?_ }
    · intro id r hr
      rw [withTransition, get_insert] at hr
      split at hr
      · rename_i heq
        cases hr
        subst heq
        exact { hold with
          state := .terminal rfl hdigest husage rfl hchild.symm hfence rfl rfl rfl
            (get_insert_self _ _ _) }
      · exact (h.records id r hr).grows rfl rfl rfl (fun _ _ hv => hv) (fun _ _ hv => hv)
          (fun _ _ => get_insert_fresh hkey)
    · have hsame : ((L.reservations.insert request.reservationId (terminate record request digest)).toList.map
          fun p => p.2.generation).Perm (L.reservations.toList.map fun p => p.2.generation) :=
        map_toList_insert_perm _ hrecord rfl
      exact hsame.nodup_iff.mpr h.generations
    · rw [withTransition, hsize, h.childIndex]
    · rw [withTransition, hsize, h.reserveIndex]
    · rw [hterminals, withTransition, size_insert_fresh hkey, h.transitionIndex]
    · intro d
      have hheld := hsum (held d)
      rw [held, if_pos hstate, held, if_neg hnotReserved,
        ← h.allocated d, ← hallocated d] at hheld
      exact (Nat.add_right_cancel hheld).symm
    · intro s
      have hnone : record.spent s = 0 := by
        rw [ChildReservationRecord.spent, (hold.state.of_reserved hstate).2.1]
        rfl
      have hspent := hsum (ChildReservationRecord.spent s)
      rw [hnone, ← h.spent s] at hspent
      exact (hcumulative s).trans hspent.symm
    · intro d
      exact (le_of_add_right_le (hallocated d).le).trans (h.allocated_le d)
    · intro s
      have hused := containsUsage_iff.mp husage s
      have hlimit := h.committed_le s
      rw [← hallocated] at hlimit
      simp only [withTransition, hcumulative]
      omega
    · have hone := hsum ChildReservationRecord.active
      rw [ChildReservationRecord.active, if_pos hstate, ChildReservationRecord.active, if_neg hnotReserved,
        ← h.active, ← hactive] at hone
      exact (Nat.add_right_cancel hone).symm
    · exact (le_of_succ_le hactive.le).trans h.active_le
    · rw [withTransition, hsize]
      exact h.admitted
    · have hsame : maxBy (fun _ r => r.generation.toNat)
          (L.reservations.insert request.reservationId (terminate record request digest)) =
          maxBy (fun _ r => r.generation.toNat) L.reservations := maxBy_update hrecord rfl
      rw [withTransition, hsame]
      exact h.next
    · rw [hterminals, withTransition, hsize, ← add_assoc, ← h.revision]
      exact hnextRevision

/-! ### The three callers -/

theorem Reserves.eq_of_replayed (h : Reserves C L request result L') (hreplayed : result.replayed = true) : L' = L := by
  cases h with
  | replay => rfl
  | fresh => cases hreplayed

theorem Transitions.eq_of_replayed {request : ReservationTransitionRequest}
    (h : Transitions C L request result L') (hreplayed : result.replayed = true) : L' = L := by
  cases h with
  | replay => rfl
  | fresh => cases hreplayed

variable {a : Admission}

theorem replayed_of_prepareAdmission (h : L.prepareAdmission C a = .ok (.inl result)) : result.replayed = true := by
  simp only [prepareAdmission, bind_eq_ok, exists_unit] at h
  obtain ⟨-, -, -, -, _, -, _, -, replay, hreplay, h⟩ := h
  cases replay with
  | none =>
    simp only [bind_eq_ok, exists_unit, pure_eq_ok] at h
    obtain ⟨-, -, -, h⟩ := h
    cases h
  | some =>
    cases h
    exact (exactReservationReplay_eq_some hreplay).2

theorem admitStaged_cases (h : L.admitStaged C a = .ok (result, L')) : (result.replayed = true ∧ L' = L) ∨
    (result.replayed = false ∧ L'.validate C = .ok () ∧
      ∃ derived, L.prepareAdmission C a = .ok (.inr derived) ∧ Reserves C L derived result L') := by
  obtain ⟨prepared, hprepared, h⟩ := bind_eq_ok.mp h
  cases prepared with
  | inl =>
    cases h
    exact .inl ⟨replayed_of_prepareAdmission hprepared, rfl⟩
  | inr derived =>
    simp only [bind_eq_ok, exists_unit, pure_eq_ok, Prod.exists] at h
    obtain ⟨result, _, hstaged, hvalid, h⟩ := h
    cases h
    have hdoes := reserves_of_ok hstaged
    cases hreplayed : result.replayed with
    | true => exact .inl ⟨rfl, hdoes.eq_of_replayed hreplayed⟩
    | false => exact .inr ⟨rfl, hvalid, derived, hprepared, hdoes⟩

theorem releaseStaged_cases {request : ReservationTransitionRequest}
    (h : L.releaseStaged C request = .ok (result, L')) : (result.replayed = true ∧ L' = L) ∨
    (result.replayed = false ∧ L'.validate C = .ok () ∧ request.outcome.state = .released ∧
      Transitions C L request result L') := by
  simp only [releaseStaged, bind_eq_ok, exists_unit, rejectIf_eq_ok, ne_eq, not_not, pure_eq_ok,
    Prod.exists] at h
  obtain ⟨houtcome, -, result, _, hstaged, hvalid, h⟩ := h
  cases h
  have hdoes := transitions_of_ok hstaged
  cases hreplayed : result.replayed with
  | true => exact .inl ⟨rfl, hdoes.eq_of_replayed hreplayed⟩
  | false => exact .inr ⟨rfl, hvalid, houtcome, hdoes⟩

end

end SessionReservationLedger

/-! ### Publication -/

namespace WorkspacePublicationLedger

open SessionReservationLedger

/-- A successful `publishStaged`. -/
inductive Publishes (C : Canonical) (P : WorkspacePublicationLedger) (L : SessionReservationLedger)
    (request : WorkspacePublicationRequest) : WorkspacePublicationResult → WorkspacePublicationLedger → Prop
  | replay {generation : U64} {digest : ContentDigest} {record : WorkspacePublicationRecord}
      (hdigest : request.digest C = .ok digest)
      (hkey : P.idempotency[request.idempotencyKey]? = some (generation, digest))
      (hrecord : P.publications[generation]? = some record) :
      Publishes C P L request ⟨record, true⟩ P
  | fresh {digest : ContentDigest} {reservation : ChildReservationRecord} {generation nextRevision : U64}
      (hdigest : request.digest C = .ok digest)
      (hkey : P.idempotency[request.idempotencyKey]? = none)
      (hfence : request.sessionFence = P.sessionFence)
      (hsession : request.sessionId = P.sessionId)
      (hcapsule : request.sessionCapsuleDigest = P.sessionCapsuleDigest)
      (hreservation : L.reservations[request.reservationId]? = some reservation)
      (hstate : reservation.state = .reserved)
      (hchild : reservation.request.childExecutionId = request.childExecutionId)
      (hunpublished : P.publishedByChild[request.childExecutionId]? = none)
      (hinput : request.inputGeneration = P.current.generation)
      (hworkspace : request.inputWorkspaceDigest = P.current.stateDigest)
      (hgeneration : generation.toNat = P.current.generation.toNat + 1)
      (hnextRevision : nextRevision.toNat = P.ledgerRevision.toNat + 1) :
      Publishes C P L request ⟨P.recordOf request digest generation, false⟩
        (P.withPublication request digest generation nextRevision)

section
variable {C : Canonical} {P P' : WorkspacePublicationLedger} {L L' : SessionReservationLedger}
  {request : WorkspacePublicationRequest} {result : WorkspacePublicationResult}

theorem publishes_of_ok (h : P.publishStaged C request L = .ok (result, P')) : Publishes C P L request result P' := by
  simp only [publishStaged, bind_eq_ok, exists_unit] at h
  obtain ⟨-, _, hdigest, h⟩ := h
  split at h
  · rename_i generation prior hkey
    simp only [bind_eq_ok, exists_unit, okOr_eq_ok, rejectIf_eq_ok, ne_eq, not_not, pure_eq_ok] at h
    obtain ⟨rfl, _, hrecord, h⟩ := h
    cases h
    exact .replay hdigest hkey hrecord
  · rename_i hkey
    simp only [bind_eq_ok, exists_unit, rejectIf_eq_ok, okOr_eq_ok, not_or, ne_eq, not_not, pure_eq_ok,
      Bool.not_eq_true, checkedAdd_eq_some] at h
    obtain ⟨hfence, -, ⟨hsession, hcapsule⟩, _, hreservation, ⟨hstate, -, hchild, -⟩,
      ⟨hunpublished, hinput, hworkspace⟩, _, hgeneration, _, hnextRevision, h⟩ := h
    cases h
    exact .fresh hdigest hkey hfence hsession hcapsule hreservation hstate hchild
      (get_of_not_contains hunpublished) hinput hworkspace hgeneration hnextRevision

theorem Publishes.eq_of_replayed (h : Publishes C P L request result P')
    (hreplayed : result.replayed = true) : P' = P := by
  cases h with
  | replay => rfl
  | fresh => cases hreplayed

/-- A staged finalisation that succeeds is a replay, or publishes one generation and finalises the
reservation that it names. -/
theorem finalizeStaged_cases {completion : ReservationTransitionRequest}
    {publication : WorkspacePublicationRequest} {result : FinalizeAndPublishResult}
    (h : P.finalizeStaged C L completion publication = .ok (result, (P', L'))) :
    (result.replayed = true ∧ P' = P ∧ L' = L) ∨
    (result.replayed = false ∧ P'.validate C = .ok () ∧ L'.validate C = .ok () ∧
      completion.outcome.state = .finalized ∧ completion.reservationId = publication.reservationId ∧
      ∃ published finalized, published.replayed = false ∧ finalized.replayed = false ∧
        Publishes C P L publication published P' ∧ Transitions C L completion finalized L') := by
  simp only [finalizeStaged, bind_eq_ok, exists_unit, rejectIf_eq_ok, not_or, ne_eq, not_not, pure_eq_ok,
    Prod.exists] at h
  obtain ⟨⟨houtcome, hid, -⟩, -, -, published, _, hpublished, finalized, _, hfinalized, hsame, hvalidP,
    hvalidL, h⟩ := h
  cases h
  have hpublishes := publishes_of_ok hpublished
  have htransitions := transitions_of_ok hfinalized
  cases hreplayed : published.replayed with
  | true => exact .inl ⟨rfl, hpublishes.eq_of_replayed hreplayed,
      htransitions.eq_of_replayed (hsame.symm.trans hreplayed)⟩
  | false => exact .inr ⟨rfl, hvalidP, hvalidL, houtcome, hid, published, finalized, hreplayed,
      hsame.symm.trans hreplayed, hpublishes, htransitions⟩

end

end WorkspacePublicationLedger

/-! ### The check after a staged operation -/

namespace SessionReservationLedger

section
variable {C : Canonical} {L L' : SessionReservationLedger} {result : ReservationResult}

theorem validate_reserveStaged {request : ChildReservationRequest} (hvalid : L.validate C = .ok ())
    (h : L.reserveStaged C request = .ok (result, L')) : L'.validate C = .ok () :=
  ((Sound.of_validate hvalid).reserves (reserves_of_ok h)).validate

variable {request : ReservationTransitionRequest}

section
variable (hvalid : L.validate C = .ok ())
include hvalid

theorem validate_transitionStaged (h : L.transitionStaged C request = .ok (result, L')) : L'.validate C = .ok () :=
  ((Sound.of_validate hvalid).transitions (transitions_of_ok h)).validate

theorem admitChild_of_reserveStaged {a : Admission} {derived : ChildReservationRequest}
    (hprepared : L.prepareAdmission C a = .ok (.inr derived))
    (h : L.reserveStaged C derived = .ok (result, L')) : L.admitChild C a = (.ok result, L') := by
  have hstaged : L.admitStaged C a = .ok (result, L') :=
    bind_eq_ok.mpr ⟨_, hprepared, bind_eq_ok.mpr ⟨_, h,
      bind_eq_ok.mpr ⟨(), validate_reserveStaged hvalid h, rfl⟩⟩⟩
  rw [admitChild, hstaged, commit_ok]

theorem release_of_transitionStaged (houtcome : request.outcome.state = .released)
    (h : L.transitionStaged C request = .ok (result, L')) : L.release C request = (.ok result, L') := by
  have hstaged : L.releaseStaged C request = .ok (result, L') :=
    bind_eq_ok.mpr ⟨(), rejectIf_eq_ok.mpr (not_not.mpr houtcome), bind_eq_ok.mpr ⟨(), hvalid,
      bind_eq_ok.mpr ⟨_, h, bind_eq_ok.mpr ⟨(), validate_transitionStaged hvalid h, rfl⟩⟩⟩⟩
  rw [release, hstaged, commit_ok]

theorem finalizeAndPublish_of_staged {P stagedP : WorkspacePublicationLedger}
    {completion : ReservationTransitionRequest} {publication : WorkspacePublicationRequest}
    {published : WorkspacePublicationResult}
    (houtcome : completion.outcome.state = .finalized) (hid : completion.reservationId = publication.reservationId)
    (hchild : completion.childExecutionId = publication.childExecutionId)
    (hfence : completion.sessionFence = publication.sessionFence) (hvalidP : P.validate C = .ok ())
    (hpublished : P.publishStaged C publication L = .ok (published, stagedP))
    (hfinalized : L.transitionStaged C completion = .ok (result, L'))
    (hsame : published.replayed = result.replayed) (hstagedP : stagedP.validate C = .ok ()) :
    P.finalizeAndPublish C L completion publication =
      (.ok ⟨result.record, published.record, published.replayed⟩, (stagedP, L')) := by
  have hstaged : P.finalizeStaged C L completion publication =
      .ok (⟨result.record, published.record, published.replayed⟩, (stagedP, L')) := by
    simp only [WorkspacePublicationLedger.finalizeStaged, bind_eq_ok, exists_unit, rejectIf_eq_ok, not_or,
      ne_eq, not_not, Prod.exists]
    exact ⟨⟨houtcome, hid, hchild, hfence⟩, hvalidP, hvalid, published, stagedP, hpublished, result, L',
      hfinalized, hsame, hstagedP, validate_transitionStaged hvalid hfinalized, rfl⟩
  rw [WorkspacePublicationLedger.finalizeAndPublish, hstaged, commit_ok]

end

/-- **The check after a staged operation never fires.** From a valid ledger, a staged reservation or
transition that succeeds leads to a valid ledger, so a call is never refused by the last validation of the
reservations; and a call that fails or replays keeps the ledger. -/
theorem self_check_never_fires (hvalid : L.validate C = .ok ()) :
    (∀ request result staged, L.reserveStaged C request = .ok (result, staged) →
      staged.validate C = .ok ()) ∧
    (∀ request result staged, L.transitionStaged C request = .ok (result, staged) →
      staged.validate C = .ok ()) ∧
    (∀ a derived result staged, L.prepareAdmission C a = .ok (.inr derived) →
      L.reserveStaged C derived = .ok (result, staged) → L.admitChild C a = (.ok result, staged)) ∧
    (∀ request result staged, request.outcome.state = .released →
      L.transitionStaged C request = .ok (result, staged) → L.release C request = (.ok result, staged)) ∧
    (∀ (P : WorkspacePublicationLedger) completion publication published finalized stagedP staged,
      completion.outcome.state = .finalized → completion.reservationId = publication.reservationId →
      completion.childExecutionId = publication.childExecutionId →
      completion.sessionFence = publication.sessionFence → P.validate C = .ok () →
      P.publishStaged C publication L = .ok (published, stagedP) →
      L.transitionStaged C completion = .ok (finalized, staged) →
      published.replayed = finalized.replayed → stagedP.validate C = .ok () →
      P.finalizeAndPublish C L completion publication =
        (.ok ⟨finalized.record, published.record, published.replayed⟩, (stagedP, staged))) ∧
    (∀ a, ((∃ e, (L.admitChild C a).1 = .error e) ∨
      ∃ result, (L.admitChild C a).1 = .ok result ∧ result.replayed = true) → (L.admitChild C a).2 = L) ∧
    (∀ request, ((∃ e, (L.release C request).1 = .error e) ∨
      ∃ result, (L.release C request).1 = .ok result ∧ result.replayed = true) →
      (L.release C request).2 = L) ∧
    ∀ (P : WorkspacePublicationLedger) completion publication,
      ((∃ e, (P.finalizeAndPublish C L completion publication).1 = .error e) ∨
        ∃ result, (P.finalizeAndPublish C L completion publication).1 = .ok result ∧
          result.replayed = true) →
      (P.finalizeAndPublish C L completion publication).2 = (P, L) := by
  refine ⟨fun _ _ _ => validate_reserveStaged hvalid, fun _ _ _ => validate_transitionStaged hvalid,
    fun _ _ _ _ => admitChild_of_reserveStaged hvalid, fun _ _ _ => release_of_transitionStaged hvalid,
    fun _ _ _ _ _ _ _ => finalizeAndPublish_of_staged hvalid, fun a => ?_, fun _ => ?_,
    fun P _ _ => ?_⟩
  · refine commit_kept fun result staged hok hreplayed => ?_
    rcases admitStaged_cases hok with ⟨-, hsame⟩ | ⟨hfresh, -⟩
    · exact hsame
    · rw [hreplayed] at hfresh
      cases hfresh
  · refine commit_kept fun result staged hok hreplayed => ?_
    rcases releaseStaged_cases hok with ⟨-, hsame⟩ | ⟨hfresh, -⟩
    · exact hsame
    · rw [hreplayed] at hfresh
      cases hfresh
  · refine commit_kept fun _ _ hok hreplayed => ?_
    rcases WorkspacePublicationLedger.finalizeStaged_cases hok with ⟨-, hsameP, hsameL⟩ | ⟨hfresh, -⟩
    · exact Prod.ext hsameP hsameL
    · rw [hreplayed] at hfresh
      cases hfresh

end

theorem self_check_never_fires_fixture :
    ∃ result staged, Fixture.ledger.admitChild Fixture.canonical (Fixture.admission "1" 0) = (.ok result, staged) ∧
      result.replayed = false ∧ staged.validate Fixture.canonical = .ok () := by
  have hvalid : ledger.validate canonical = .ok () := by decide +kernel
  have hprepared : ledger.prepareAdmission canonical (admission "1" 0) =
      .ok (.inr ((admission "1" 0).derived sessionDigest childDigest)) := by
    decide +kernel
  have hstaged : ∃ result staged, ledger.reserveStaged canonical
      ((admission "1" 0).derived sessionDigest childDigest) = .ok (result, staged) ∧
      result.replayed = false := ⟨_, _, rfl, rfl⟩
  obtain ⟨result, staged, hok, hfresh⟩ := hstaged
  obtain ⟨hreserve, -, hadmit, -⟩ := self_check_never_fires hvalid
  exact ⟨result, staged, hadmit _ _ _ _ hprepared hok, hfresh, hreserve _ _ _ hok⟩

end SessionReservationLedger

end Runtrue.Execution
