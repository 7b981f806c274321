import Runtrue.Execution.Publication

/-!
# Repeated requests

A request under an idempotency key that the ledger knows is compared with the recorded one by digest, before
its fence, its revision, the Seal and the grant are looked at. So what such a call returns depends on nothing
but the digest of the request and the record (`prepareAdmission_known`, `transitionStaged_known`), and it does
not change the ledger.

An admission stands for the reservation request that is derived from it, whose digest fails if the admission
is malformed. What a successful call leaves behind (`KnowsAdmission`, `KnowsTransition`) is kept by every later
call, since the records keep their requests and the two indexes only grow (`Grows`).
-/

namespace Runtrue.Execution

open Fallible BTreeMap List Fixture

def Admission.requestDigest (C : Canonical) (a : Admission) : Checked ContentDigest := do
  a.request.validate
  a.session.validate C
  a.child.validate
  let childCapsuleDigest ← a.child.digest C
  let sessionCapsuleDigest ← a.session.digest C
  (a.derived sessionCapsuleDigest childCapsuleDigest).digest C

namespace SessionReservationLedger

variable {C : Canonical} {L L' : SessionReservationLedger} {a : Admission} {t : ReservationTransitionRequest}
  {id : String} {digest : ContentDigest} {record : ChildReservationRecord} {result : ReservationResult}

/-! ### A call under a known key -/

theorem exactReservationReplay_known {request : ChildReservationRequest}
    (hkey : L.reserveIdempotency[request.idempotencyKey]? = some id)
    (hrecord : L.reservations[id]? = some record) :
    L.exactReservationReplay C request = (do
      let digest ← request.digest C
      rejectIf (record.requestDigest ≠ digest) .idempotencyConflict
      return some ⟨record, true⟩) := by
  rw [exactReservationReplay, hkey]
  simp only [hrecord, okOr]
  rfl

section
variable (hvalid : L.validate C = .ok ()) (hkey : L.reserveIdempotency[a.request.idempotencyKey]? = some id)
  (hrecord : L.reservations[id]? = some record)
include hvalid hkey hrecord

theorem prepareAdmission_known :
    L.prepareAdmission C a = (do
      let digest ← a.requestDigest C
      rejectIf (record.requestDigest ≠ digest) .idempotencyConflict
      return .inl ⟨record, true⟩) := by
  have hreplay : ∀ ds dc, L.exactReservationReplay C (a.derived ds dc) = _ :=
    fun _ _ => exactReservationReplay_known hkey hrecord
  simp only [prepareAdmission, Admission.requestDigest, hvalid, hreplay, ok_bind, bind_assoc, pure_bind]

theorem admitChild_known :
    L.admitChild C a = commit L (do
      let digest ← a.requestDigest C
      rejectIf (record.requestDigest ≠ digest) .idempotencyConflict
      return (⟨record, true⟩, L)) := by
  simp only [admitChild, admitStaged, prepareAdmission_known hvalid hkey hrecord, bind_assoc, pure_bind]

end

variable {e : ExecutionModelError}

section
variable (hkey : L.transitionIdempotency[t.idempotencyKey]? = some (id, digest))
  (hrecord : L.reservations[id]? = some record)
include hkey hrecord

theorem transitionStaged_known :
    L.transitionStaged C t = (do
      let requestDigest ← t.digest C
      rejectIf (digest ≠ requestDigest) .idempotencyConflict
      return (⟨record, true⟩, L)) := by
  rw [transitionStaged, hkey]
  simp only [hrecord, okOr, ReservationTransitionRequest.digest]
  cases t.validate with
  | error => rfl
  | ok => rfl

theorem transitionStaged_replay (hdigest : t.digest C = .ok digest) :
    L.transitionStaged C t = .ok (⟨record, true⟩, L) := by
  simp only [transitionStaged_known hkey hrecord, hdigest, ok_bind, rejectIf, ne_eq, not_true_eq_false, if_false]
  rfl

end

theorem release_eq (hvalid : L.validate C = .ok ()) (houtcome : t.outcome.state = .released) :
    L.release C t = commit L (do
      let (result, staged) ← L.transitionStaged C t
      staged.validate C
      return (result, staged)) := by
  rw [release, releaseStaged, rejectIf, if_neg (fun h => h houtcome), hvalid]
  rfl

/-! ### What a successful call leaves behind -/

/-- The ledger has recorded the admission as the reservation `id`. -/
def KnowsAdmission (C : Canonical) (L : SessionReservationLedger) (a : Admission) (id : String) : Prop :=
  L.reserveIdempotency[a.request.idempotencyKey]? = some id ∧
  ∃ record, L.reservations[id]? = some record ∧ a.requestDigest C = .ok record.requestDigest

/-- The ledger has recorded the transition of the reservation `id`. -/
def KnowsTransition (C : Canonical) (L : SessionReservationLedger) (t : ReservationTransitionRequest)
    (id : String) : Prop :=
  ∃ digest, t.digest C = .ok digest ∧ L.transitionIdempotency[t.idempotencyKey]? = some (id, digest) ∧
    ∃ record, L.reservations[id]? = some record

theorem requestDigest_of_prepareAdmission {x : ReservationResult ⊕ ChildReservationRequest}
    (h : L.prepareAdmission C a = .ok x) :
    L.validate C = .ok () ∧ ∃ ds dc, a.requestDigest C = (a.derived ds dc).digest C ∧
      ((∃ result, x = .inl result ∧ Reserves C L (a.derived ds dc) result L) ∨ x = .inr (a.derived ds dc)) := by
  simp only [prepareAdmission, bind_eq_ok, exists_unit] at h
  obtain ⟨hrequest, hvalid, hsession, hchild, dc, hdc, ds, hds, replay, hreplay, h⟩ := h
  refine ⟨hvalid, ds, dc, ?_, ?_⟩
  · rw [Admission.requestDigest, hrequest, hsession, hchild, hdc, hds]
    rfl
  · cases replay with
    | some result =>
      cases h
      exact .inl ⟨result, rfl, (exactReservationReplay_eq_some hreplay).1⟩
    | none =>
      simp only [bind_eq_ok, exists_unit, pure_eq_ok] at h
      obtain ⟨-, -, -, hderived⟩ := h
      exact .inr hderived.symm

variable {derived : ChildReservationRequest}

theorem Reserves.known (hvalid : L.validate C = .ok ()) (hdoes : Reserves C L derived result L') :
    L'.reserveIdempotency[derived.idempotencyKey]? = some result.record.request.reservationId ∧
    L'.reservations[result.record.request.reservationId]? = some result.record ∧
    derived.digest C = .ok result.record.requestDigest := by
  cases hdoes with
  | replay hkey hrecord hdigest =>
    have hid := ((Sound.of_validate hvalid).records _ _ hrecord).key
    subst hid
    exact ⟨hkey, hrecord, hdigest⟩
  | fresh hdigest => exact ⟨get_insert_self _ _ _, get_insert_self _ _ _, hdigest⟩

theorem knows_of_admitStaged (h : L.admitStaged C a = .ok (result, L')) :
    KnowsAdmission C L' a result.record.request.reservationId := by
  obtain ⟨_, hprepared, h⟩ := bind_eq_ok.mp h
  obtain ⟨hvalid, ds, dc, hdigest, hx⟩ := requestDigest_of_prepareAdmission hprepared
  -- a replay leaves the ledger, and the rest is the staged reservation
  have hdoes : Reserves C L (a.derived ds dc) result L' := by
    rcases hx with ⟨_, rfl, hdoes⟩ | rfl
    · cases h
      exact hdoes
    · simp only [bind_eq_ok, exists_unit, pure_eq_ok, Prod.exists] at h
      obtain ⟨result, _, hstaged, -, h⟩ := h
      cases h
      exact reserves_of_ok hstaged
  obtain ⟨hkey, hrecord, hrequest⟩ := hdoes.known hvalid
  exact ⟨hkey, result.record, hrecord, hdigest.trans hrequest⟩

theorem Transitions.known (hvalid : L.validate C = .ok ()) (hdoes : Transitions C L t result L') :
    KnowsTransition C L' t result.record.request.reservationId := by
  cases hdoes with
  | replay hdigest hkey hrecord =>
    have hid := ((Sound.of_validate hvalid).records _ _ hrecord).key
    subst hid
    exact ⟨_, hdigest, hkey, _, hrecord⟩
  | @fresh digest record _ _ _ _ hdigest _ _ hrecord =>
    have hid : record.request.reservationId = t.reservationId :=
      ((Sound.of_validate hvalid).records _ _ hrecord).key
    refine ⟨digest, hdigest, ?_, terminate record t digest, ?_⟩
    · rw [terminate, hid]
      exact get_insert_self _ _ _
    · rw [terminate, hid]
      exact get_insert_self _ _ _

/-! ### Other requests under the same key -/

/-- The digest tells the two values apart. -/
def NoCollision {α : Type} (digest : α → Checked ContentDigest) (x y : α) : Prop :=
  ∀ d, digest x = .ok d → digest y = .ok d → x = y

/-- No collision among the capsules and the requests of two admissions. -/
structure NoCollisions (C : Canonical) (a a' : Admission) : Prop where
  session : NoCollision C.session a.session a'.session
  child : NoCollision C.execution a.child a'.child
  request : ∀ ds dc ds' dc', NoCollision C.reservation (a.derived ds dc) (a'.derived ds' dc')

/-- Two admissions ask for the same: the arguments that only justify the admission may differ. -/
def SameRequest (a a' : Admission) : Prop :=
  a.request = a'.request ∧ a.session = a'.session ∧ a.child = a'.child

theorem requestDigest_eq_ok (h : a.requestDigest C = .ok digest) :
    ∃ ds dc, C.session a.session = .ok ds ∧ C.execution a.child = .ok dc ∧
      C.reservation (a.derived ds dc) = .ok digest := by
  simp only [Admission.requestDigest, SessionCapsule.digest, ExecutionCapsule.digest,
    ChildReservationRequest.digest, bind_eq_ok, exists_unit] at h
  obtain ⟨-, -, -, dc, ⟨-, hdc⟩, ds, ⟨-, hds⟩, -, hdigest⟩ := h
  exact ⟨ds, dc, hds, hdc, hdigest⟩

variable {a' : Admission}

theorem request_eq_of_derived_eq {ds dc ds' dc' : ContentDigest}
    (h : a.derived ds dc = a'.derived ds' dc') : a.request = a'.request ∧ ds = ds' ∧ dc = dc' := by
  simp only [Admission.derived, ChildReservationRequest.mk.injEq] at h
  obtain ⟨h1, h2, h3, hds, h4, hdc, h5, h6, h7, -, h8⟩ := h
  refine ⟨?_, hds, hdc⟩
  rw [ChildAdmissionRequest.mk.injEq]
  exact ⟨h1, h2, h3, h4, h5, h6, h7, h8⟩

variable {digest' : ContentDigest}

theorem requestDigest_ne (hfree : NoCollisions C a a') (hother : ¬SameRequest a a')
    (h : a.requestDigest C = .ok digest) (h' : a'.requestDigest C = .ok digest') :
    digest ≠ digest' := by
  rintro rfl
  obtain ⟨ds, dc, hds, hdc, hrequest⟩ := requestDigest_eq_ok h
  obtain ⟨ds', dc', hds', hdc', hrequest'⟩ := requestDigest_eq_ok h'
  have hderived := hfree.request ds dc ds' dc' digest hrequest hrequest'
  obtain ⟨hsame, rfl, rfl⟩ := request_eq_of_derived_eq hderived
  exact hother ⟨hsame, hfree.session ds hds hds', hfree.child dc hdc hdc'⟩

variable {t' : ReservationTransitionRequest}

theorem transition_digest_ne (hfree : NoCollision C.transition t t') (hother : t ≠ t')
    (h : t.digest C = .ok digest) (h' : t'.digest C = .ok digest') : digest ≠ digest' := by
  rintro rfl
  obtain ⟨-, -, h⟩ := bind_eq_ok.mp h
  obtain ⟨-, -, h'⟩ := bind_eq_ok.mp h'
  exact hother (hfree digest h h')

/-- What a call with the admission `a`, and with any other under its key, returns. -/
structure AnswersAdmission (C : Canonical) (L : SessionReservationLedger) (a : Admission) (id : String) :
    Prop where
  replay : ∃ record, L.reservations[id]? = some record ∧ L.admitChild C a = (.ok ⟨record, true⟩, L)
  conflict : ∀ (a' : Admission) (digest : ContentDigest), a'.request.idempotencyKey = a.request.idempotencyKey →
    ¬SameRequest a a' → NoCollisions C a a' → a'.requestDigest C = .ok digest →
    L.admitChild C a' = (.error .idempotencyConflict, L)
  malformed : ∀ (a' : Admission) (e : ExecutionModelError),
    a'.request.idempotencyKey = a.request.idempotencyKey → a'.requestDigest C = .error e →
    L.admitChild C a' = (.error e, L)

theorem KnowsAdmission.answers (h : KnowsAdmission C L a id) (hvalid : L.validate C = .ok ()) :
    AnswersAdmission C L a id := by
  obtain ⟨hkey, record, hrecord, hdigest⟩ := h
  constructor
  · refine ⟨record, hrecord, ?_⟩
    simp only [admitChild_known hvalid hkey hrecord, hdigest, ok_bind, rejectIf, ne_eq, not_true_eq_false, if_false]
    rfl
  · intro a' _ hsame hother hfree hdigest'
    rw [← hsame] at hkey
    have hne := requestDigest_ne hfree hother hdigest hdigest'
    simp only [admitChild_known hvalid hkey hrecord, hdigest', ok_bind, rejectIf, if_pos hne, error_bind, commit]
  · intro _ e hsame hdigest'
    rw [← hsame] at hkey
    simp only [admitChild_known hvalid hkey hrecord, hdigest', error_bind, commit]

/-- What a release `t`, and any other under its key, returns. -/
structure AnswersRelease (C : Canonical) (L : SessionReservationLedger) (t : ReservationTransitionRequest)
    (id : String) : Prop where
  replay : t.outcome.state = .released →
    ∃ record, L.reservations[id]? = some record ∧ L.release C t = (.ok ⟨record, true⟩, L)
  conflict : ∀ (t' : ReservationTransitionRequest) (digest : ContentDigest),
    t'.idempotencyKey = t.idempotencyKey → t ≠ t' → NoCollision C.transition t t' →
    t'.outcome.state = .released → t'.digest C = .ok digest →
    L.release C t' = (.error .idempotencyConflict, L)
  malformed : ∀ (t' : ReservationTransitionRequest) (e : ExecutionModelError),
    t'.idempotencyKey = t.idempotencyKey → t'.outcome.state = .released → t'.digest C = .error e →
    L.release C t' = (.error e, L)
  notReleased : ∀ t' : ReservationTransitionRequest, t'.outcome.state ≠ .released →
    L.release C t' = (.error .invalidReservationTransition, L)

theorem release_of_error (hvalid : L.validate C = .ok ()) (houtcome : t.outcome.state = .released)
    (h : L.transitionStaged C t = .error e) : L.release C t = (.error e, L) := by
  rw [release_eq hvalid houtcome, h]
  rfl

section
variable (h : KnowsTransition C L t id) (hsame : t'.idempotencyKey = t.idempotencyKey)
include h hsame

theorem KnowsTransition.transitionStaged_other (hother : t ≠ t') (hfree : NoCollision C.transition t t')
    (hdigest' : t'.digest C = .ok digest) : L.transitionStaged C t' = .error .idempotencyConflict := by
  obtain ⟨_, hdigest, hkey, _, hrecord⟩ := h
  rw [← hsame] at hkey
  have hne := transition_digest_ne hfree hother hdigest hdigest'
  rw [transitionStaged_known hkey hrecord, hdigest', ok_bind, rejectIf, if_pos hne, error_bind]

theorem KnowsTransition.transitionStaged_malformed (hdigest' : t'.digest C = .error e) :
    L.transitionStaged C t' = .error e := by
  obtain ⟨_, -, hkey, _, hrecord⟩ := h
  rw [← hsame] at hkey
  rw [transitionStaged_known hkey hrecord, hdigest', error_bind]

end

theorem KnowsTransition.answersRelease (h : KnowsTransition C L t id) (hvalid : L.validate C = .ok ()) :
    AnswersRelease C L t id := by
  constructor
  · intro houtcome
    obtain ⟨digest, hdigest, hkey, record, hrecord⟩ := h
    refine ⟨record, hrecord, ?_⟩
    rw [release_eq hvalid houtcome, transitionStaged_replay hkey hrecord hdigest]
    change commit L (L.validate C >>= _) = _
    rw [hvalid]
    rfl
  · intro t' digest hsame hother hfree houtcome hdigest
    exact release_of_error hvalid houtcome (h.transitionStaged_other hsame hother hfree hdigest)
  · intro t' e hsame houtcome hdigest
    exact release_of_error hvalid houtcome (h.transitionStaged_malformed hsame hdigest)
  · intro t' houtcome
    rw [release, releaseStaged, rejectIf, if_pos houtcome]
    rfl

/-! ### What every later call keeps -/

/-- The records keep their requests, and both indexes only grow. -/
structure Grows (L L' : SessionReservationLedger) : Prop where
  reserves : ∀ key id : String, L.reserveIdempotency[key]? = some id → L'.reserveIdempotency[key]? = some id
  ends : ∀ (key : String) (x : String × ContentDigest),
    L.transitionIdempotency[key]? = some x → L'.transitionIdempotency[key]? = some x
  records : ∀ (id : String) (record : ChildReservationRecord), L.reservations[id]? = some record →
    ∃ record', L'.reservations[id]? = some record' ∧ record'.request = record.request ∧
      record'.requestDigest = record.requestDigest

theorem Grows.refl (L : SessionReservationLedger) : Grows L L :=
  ⟨fun _ _ h => h, fun _ _ h => h, fun _ record h => ⟨record, h, rfl, rfl⟩⟩

theorem Grows.trans {L'' : SessionReservationLedger} (h : Grows L L') (h' : Grows L' L'') : Grows L L'' where
  reserves key id hkey := h'.reserves key id (h.reserves key id hkey)
  ends key x hkey := h'.ends key x (h.ends key x hkey)
  records id record hrecord := by
    obtain ⟨_, hrecord', hrequest, hdigest⟩ := h.records id record hrecord
    obtain ⟨record'', hrecord'', hrequest', hdigest'⟩ := h'.records id _ hrecord'
    exact ⟨record'', hrecord'', hrequest'.trans hrequest, hdigest'.trans hdigest⟩

theorem Reserves.grows (hdoes : Reserves C L derived result L') : Grows L L' := by
  cases hdoes with
  | replay => exact Grows.refl L
  | fresh _ hkey _ _ _ hid =>
    exact ⟨fun _ _ h => get_insert_fresh hkey h, fun _ _ h => h,
      fun _ record h => ⟨record, get_insert_fresh hid h, rfl, rfl⟩⟩

theorem Transitions.grows (hdoes : Transitions C L t result L') : Grows L L' := by
  cases hdoes with
  | replay => exact Grows.refl L
  | @fresh _ _ _ _ _ _ _ hkey _ hrecord =>
    refine ⟨fun _ _ h => h, fun _ _ h => get_insert_fresh hkey h, fun id r hr => ?_⟩
    by_cases hid : t.reservationId = id
    · subst hid
      cases hrecord.symm.trans hr
      exact ⟨_, get_insert_self _ _ _, rfl, rfl⟩
    · exact ⟨r, get_insert_eq_some.mpr (.inr ⟨hid, hr⟩), rfl, rfl⟩

theorem KnowsAdmission.grows (h : KnowsAdmission C L a id) (hgrows : Grows L L') :
    KnowsAdmission C L' a id := by
  obtain ⟨hkey, record, hrecord, hdigest⟩ := h
  obtain ⟨record', hrecord', -, hsame⟩ := hgrows.records id record hrecord
  exact ⟨hgrows.reserves _ _ hkey, record', hrecord', by rw [hdigest, hsame]⟩

theorem KnowsTransition.grows (h : KnowsTransition C L t id) (hgrows : Grows L L') :
    KnowsTransition C L' t id := by
  obtain ⟨digest, hdigest, hkey, record, hrecord⟩ := h
  obtain ⟨record', hrecord', -⟩ := hgrows.records id record hrecord
  exact ⟨digest, hdigest, hgrows.ends _ _ hkey, record', hrecord'⟩

end SessionReservationLedger

namespace WorkspacePublicationLedger

open SessionReservationLedger

/-- The two requests of a finalisation belong together. -/
structure Paired (completion : ReservationTransitionRequest) (publication : WorkspacePublicationRequest) :
    Prop where
  outcome : completion.outcome.state = .finalized
  reservation : completion.reservationId = publication.reservationId
  child : completion.childExecutionId = publication.childExecutionId
  fence : completion.sessionFence = publication.sessionFence

theorem paired_iff {completion : ReservationTransitionRequest} {publication : WorkspacePublicationRequest} :
    Paired completion publication ↔ ¬(completion.outcome.state ≠ .finalized ∨
      completion.reservationId ≠ publication.reservationId ∨
      completion.childExecutionId ≠ publication.childExecutionId ∨
      completion.sessionFence ≠ publication.sessionFence) := by
  simp only [not_or, ne_eq, not_not]
  exact ⟨fun ⟨houtcome, hid, hchild, hfence⟩ => ⟨houtcome, hid, hchild, hfence⟩,
    fun ⟨houtcome, hid, hchild, hfence⟩ => ⟨houtcome, hid, hchild, hfence⟩⟩

theorem finalizeStaged_halves {C : Canonical} {P P' : WorkspacePublicationLedger}
    {L L' : SessionReservationLedger} {completion : ReservationTransitionRequest}
    {publication : WorkspacePublicationRequest} {result : FinalizeAndPublishResult}
    (h : P.finalizeStaged C L completion publication = .ok (result, (P', L'))) :
    ∃ published, P.publishStaged C publication L = .ok (published, P') ∧
      L.transitionStaged C completion = .ok (⟨result.reservation, result.replayed⟩, L') ∧
      result.publication = published.record ∧ Paired completion publication := by
  simp only [finalizeStaged, bind_eq_ok, exists_unit, rejectIf_eq_ok, not_or, ne_eq, not_not, pure_eq_ok,
    Prod.exists] at h
  obtain ⟨⟨houtcome, hid, hchild, hfence⟩, -, -, published, _, hpublished, _, _, hfinalized, hsame, -, -,
    h⟩ := h
  cases h
  refine ⟨published, hpublished, ?_, rfl, houtcome, hid, hchild, hfence⟩
  rw [hsame]
  exact hfinalized

variable {C : Canonical} {P : WorkspacePublicationLedger} {L : SessionReservationLedger}
  {t : ReservationTransitionRequest} {publication : WorkspacePublicationRequest} {id : String}

/-- The publication ledger has recorded the publication as `p`. -/
def KnowsPublication (C : Canonical) (P : WorkspacePublicationLedger) (publication : WorkspacePublicationRequest)
    (p : WorkspacePublicationRecord) : Prop :=
  ∃ generation digest, publication.digest C = .ok digest ∧
    P.idempotency[publication.idempotencyKey]? = some (generation, digest) ∧ P.publications[generation]? = some p

variable {p : WorkspacePublicationRecord}

theorem KnowsPublication.publishStaged (h : KnowsPublication C P publication p) :
    P.publishStaged C publication L = .ok (⟨p, true⟩, P) := by
  obtain ⟨_, digest, hdigest, hkey, hp⟩ := h
  obtain ⟨_, hvalid, -⟩ := bind_eq_ok.mp hdigest
  refine bind_eq_ok.mpr ⟨_, hvalid, bind_eq_ok.mpr ⟨digest, hdigest, ?_⟩⟩
  simp only [hkey, bind_eq_ok, exists_unit, rejectIf_eq_ok, okOr_eq_ok, pure_eq_ok]
  exact ⟨fun h => h rfl, p, hp, rfl⟩

/-- What a finalisation with the completion `t`, and with any other under its key, returns. -/
structure AnswersFinalization (C : Canonical) (P : WorkspacePublicationLedger) (L : SessionReservationLedger)
    (t : ReservationTransitionRequest) (id : String) : Prop where
  replay : ∀ publication p, Paired t publication → KnowsPublication C P publication p →
    ∃ record, L.reservations[id]? = some record ∧
      P.finalizeAndPublish C L t publication = (.ok ⟨record, p, true⟩, (P, L))
  conflict : ∀ (t' : ReservationTransitionRequest) (publication : WorkspacePublicationRequest)
    (digest : ContentDigest) (published : WorkspacePublicationResult × WorkspacePublicationLedger),
    t'.idempotencyKey = t.idempotencyKey → t ≠ t' → NoCollision C.transition t t' → Paired t' publication →
    t'.digest C = .ok digest → P.publishStaged C publication L = .ok published →
    P.finalizeAndPublish C L t' publication = (.error .idempotencyConflict, (P, L))
  malformed : ∀ (t' : ReservationTransitionRequest) (publication : WorkspacePublicationRequest)
    (published : WorkspacePublicationResult × WorkspacePublicationLedger) (e : ExecutionModelError),
    t'.idempotencyKey = t.idempotencyKey → Paired t' publication →
    P.publishStaged C publication L = .ok published → t'.digest C = .error e →
    P.finalizeAndPublish C L t' publication = (.error e, (P, L))
  unpublished : ∀ (t' : ReservationTransitionRequest) (publication : WorkspacePublicationRequest)
    (e : ExecutionModelError), Paired t' publication → P.publishStaged C publication L = .error e →
    P.finalizeAndPublish C L t' publication = (.error e, (P, L))
  unpaired : ∀ (t' : ReservationTransitionRequest) (publication : WorkspacePublicationRequest),
    ¬Paired t' publication →
    P.finalizeAndPublish C L t' publication = (.error .invalidReservationTransition, (P, L))

theorem KnowsTransition.answersFinalization (h : KnowsTransition C L t id) (hP : P.validate C = .ok ())
    (hL : L.validate C = .ok ()) : AnswersFinalization C P L t id := by
  constructor
  · intro publication p hpaired hknown
    obtain ⟨digest, hdigest, hkey, record, hrecord⟩ := h
    exact ⟨record, hrecord, finalizeAndPublish_of_staged hL hpaired.outcome hpaired.reservation hpaired.child
      hpaired.fence hP hknown.publishStaged (transitionStaged_replay hkey hrecord hdigest) rfl hP⟩
  · intro t' publication digest _ hsame hother hfree hpaired hdigest hpublished
    have hstaged := h.transitionStaged_other hsame hother hfree hdigest
    rw [finalizeAndPublish, finalizeStaged, rejectIf, if_neg (paired_iff.mp hpaired), hP, hL, hpublished, hstaged]
    rfl
  · intro t' publication _ e hsame hpaired hpublished hdigest
    have hstaged := h.transitionStaged_malformed hsame hdigest
    rw [finalizeAndPublish, finalizeStaged, rejectIf, if_neg (paired_iff.mp hpaired), hP, hL, hpublished, hstaged]
    rfl
  · intro t' publication e hpaired hpublished
    rw [finalizeAndPublish, finalizeStaged, rejectIf, if_neg (paired_iff.mp hpaired), hP, hL, hpublished]
    rfl
  · intro t' publication hunpaired
    rw [finalizeAndPublish, finalizeStaged, rejectIf, if_pos (not_not.mp (mt paired_iff.mpr hunpaired))]
    rfl

theorem validate_new {sessionId : String} {capsule workspace : ContentDigest} {fence : U64}
    (h : new sessionId capsule fence workspace = .ok P) : P.validate C = .ok () := by
  simp only [new, bind_eq_ok, exists_unit, rejectIf_eq_ok, pure_eq_ok] at h
  obtain ⟨hidentity, hfence, rfl⟩ := h
  simp only [validate, bind_eq_ok, exists_unit, rejectIf_eq_ok, okOr_eq_ok]
  refine ⟨hidentity, hfence, 0, rfl, ?_, ⟨0, workspace⟩, ?_, fun h => h rfl⟩
  · rintro (h | h | h)
    · exact h rfl
    · exact h rfl
    · exact h rfl
  · rw [Std.ExtTreeMap.toList_eq_nil_iff.mpr rfl]
    rfl

variable {published : WorkspacePublicationResult} {P' : WorkspacePublicationLedger}

theorem Publishes.known (hdoes : Publishes C P L publication published P') :
    KnowsPublication C P' publication published.record := by
  cases hdoes with
  | replay hdigest hkey hrecord => exact ⟨_, _, hdigest, hkey, hrecord⟩
  | fresh hdigest =>
    exact ⟨_, _, hdigest, get_insert_self _ _ _, get_insert_self _ _ _⟩

variable {workspace : ContentDigest}

theorem KnowsPublication.publishes {other : WorkspacePublicationRequest}
    (h : KnowsPublication C P publication p) (hchain : Chain workspace P)
    (hdoes : Publishes C P L other published P') : KnowsPublication C P' publication p := by
  cases hdoes with
  | replay => exact h
  | fresh _ hkey _ _ _ _ _ _ _ _ _ hgeneration =>
    obtain ⟨generation, digest, hdigest, hknown, hp⟩ := h
    exact ⟨generation, digest, hdigest, get_insert_fresh hkey hknown,
      get_insert_fresh (hchain.fresh hgeneration) hp⟩

end WorkspacePublicationLedger

namespace Session

open SessionReservationLedger

/-! ### Runs -/

/-- The admission a call made or repeated, with its result. -/
def admitted : Call → Reply → Option (Admission × ReservationResult)
  | .admitChild a, .reservation (.ok result) => some (a, result)
  | _, _ => none

/-- The transition a call made or repeated, with its result. -/
def ended : Call → Reply → Option (ReservationTransitionRequest × ReservationResult)
  | .release t, .reservation (.ok result) => some (t, result)
  | .finalizeAndPublish _ t _, .publication (.ok result) => some (t, ⟨result.reservation, result.replayed⟩)
  | _, _ => none

section
variable {C : Canonical} {session : SessionCapsule} {L L' : SessionReservationLedger} {call : Call} {h : History}
  {a : Admission} {t : ReservationTransitionRequest} {result : ReservationResult}

theorem Moves.grows {f : Option Effect} (hmoves : Moves C L call f L') : Grows L L' := by
  cases hmoves with
  | idle => exact Grows.refl L
  | admits _ hdoes => exact hdoes.grows
  | ends hdoes => exact hdoes.grows

theorem kept_of_reaches (hrun : Run.Reaches (step C) L h L') : Grows L L' ∧ (L' = L ∨ L'.validate C = .ok ()) := by
  induction hrun with
  | start => exact ⟨Grows.refl L, .inl rfl⟩
  | @call _ M _ call ih =>
    have hmoves := step_moves C M call
    refine ⟨ih.1.trans hmoves.grows, ?_⟩
    generalize effect call (step C M call).1 = f, (step C M call).2 = L' at hmoves ⊢
    cases hmoves with
    | idle => exact ih.2
    | admits _ _ _ hvalid | ends _ _ hvalid => exact .inr hvalid

/-- **A ledger that calls have changed is valid**, whatever they started from, and still has every reservation,
with its request, and every key. -/
theorem changed_ledger_valid (C : Canonical) (L : SessionReservationLedger) (calls : List Call) :
    Grows L (Run.exec (step C) L calls).2 ∧ ((Run.exec (step C) L calls).2 = L ∨
      (Run.exec (step C) L calls).2.validate C = .ok ()) := kept_of_reaches (Run.reaches_exec (step C) L calls)

theorem staged_of_admitted (h : admitted call (step C L call).1 = some (a, result)) :
    L.admitStaged C a = .ok (result, (step C L call).2) := by
  cases call with
  | admitChild a' =>
    simp only [step, admitChild] at h ⊢
    rcases commit_cases L (L.admitStaged C a') with ⟨_, _, hok, hcommit⟩ | ⟨_, -, hcommit⟩
    · rw [hcommit] at h ⊢
      cases h
      exact hok
    · rw [hcommit] at h
      cases h
  | release => cases h
  | finalizeAndPublish => cases h

theorem staged_of_ended (h : ended call (step C L call).1 = some (t, result)) :
    L.transitionStaged C t = .ok (result, (step C L call).2) := by
  cases call with
  | admitChild => cases h
  | release t' =>
    simp only [step, release] at h ⊢
    rcases commit_cases L (L.releaseStaged C t') with ⟨result', L', hok, hcommit⟩ | ⟨e, -, hcommit⟩
    · rw [hcommit] at h ⊢
      cases h
      simp only [releaseStaged, bind_eq_ok, exists_unit, pure_eq_ok, Prod.exists] at hok
      obtain ⟨-, -, _, _, hstaged, -, hok⟩ := hok
      cases hok
      exact hstaged
    · rw [hcommit] at h
      cases h
  | finalizeAndPublish P t' publication =>
    simp only [step, WorkspacePublicationLedger.finalizeAndPublish] at h ⊢
    rcases commit_cases (P, L) (P.finalizeStaged C L t' publication) with
      ⟨result', ⟨P', L'⟩, hok, hcommit⟩ | ⟨e, -, hcommit⟩
    · rw [hcommit] at h ⊢
      cases h
      obtain ⟨_, -, hstaged, -, -⟩ := WorkspacePublicationLedger.finalizeStaged_halves hok
      exact hstaged
    · rw [hcommit] at h
      cases h

/-- The ledger knows every admission and every transition of the run. -/
structure Knows (C : Canonical) (h : History) (L : SessionReservationLedger) : Prop where
  admissions : ∀ e ∈ h, ∀ a result, admitted e.op e.result = some (a, result) →
    KnowsAdmission C L a result.record.request.reservationId
  transitions : ∀ e ∈ h, ∀ t result, ended e.op e.result = some (t, result) →
    KnowsTransition C L t result.record.request.reservationId

theorem Knows.step (hknows : Knows C h L) (hvalid : L.validate C = .ok ()) (call : Call) :
    Knows C (⟨L, call, (step C L call).1⟩ :: h) (Session.step C L call).2 := by
  have hgrows := (step_moves C L call).grows
  constructor
  · intro e he a result hadmitted
    rcases mem_cons.mp he with rfl | he
    · exact knows_of_admitStaged (staged_of_admitted hadmitted)
    · exact (hknows.admissions e he a result hadmitted).grows hgrows
  · intro e he t result hended
    rcases mem_cons.mp he with rfl | he
    · exact (transitions_of_ok (staged_of_ended hended)).known hvalid
    · exact (hknows.transitions e he t result hended).grows hgrows

theorem Reaches.knows (hrun : Reaches C session h L) : Knows C h L := by
  obtain ⟨sessionId, fence, L₀, hnew, hrun⟩ := hrun
  induction hrun with
  | start => exact ⟨fun _ he => absurd he not_mem_nil, fun _ he => absurd he not_mem_nil⟩
  | call hrun call ih =>
    have htracks := Reaches.tracks (C := C) ⟨sessionId, fence, L₀, hnew, hrun⟩
    exact ih.step htracks.valid call

/-! ### Every key is used at most once -/

/-- The call makes a new reservation under the key. -/
def reservesUnder (key : String) (e : Event) : Bool :=
  match admitted e.op e.result with
  | some (a, result) => !result.replayed && a.request.idempotencyKey == key
  | none => false

/-- The call ends a reservation under the key. -/
def endsUnder (key : String) (e : Event) : Bool :=
  match ended e.op e.result with
  | some (t, result) => !result.replayed && t.idempotencyKey == key
  | none => false

variable {key : String} {e : Event}

theorem reservesUnder_iff :
    reservesUnder key e = true ↔ ∃ a result, admitted e.op e.result = some (a, result) ∧
      result.replayed = false ∧ a.request.idempotencyKey = key := by
  unfold reservesUnder
  rcases admitted e.op e.result with _ | ⟨_, _⟩
  · simp
  · simp [and_assoc]

theorem endsUnder_iff :
    endsUnder key e = true ↔ ∃ t result, ended e.op e.result = some (t, result) ∧
      result.replayed = false ∧ t.idempotencyKey = key := by
  unfold endsUnder
  rcases ended e.op e.result with _ | ⟨_, _⟩
  · simp
  · simp [and_assoc]

theorem new_of_admitStaged (h : L.admitStaged C a = .ok (result, L')) (hfresh : result.replayed = false) :
    L.reserveIdempotency[a.request.idempotencyKey]? = none := by
  rcases admitStaged_cases h with ⟨hreplayed, -⟩ | ⟨-, -, _, hprepared, hdoes⟩
  · rw [hfresh] at hreplayed
    cases hreplayed
  · obtain ⟨-, _, _, -, hx⟩ := requestDigest_of_prepareAdmission hprepared
    rcases hx with ⟨_, hx, -⟩ | hx
    · cases hx
    · cases hx
      cases hdoes with
      | replay => cases hfresh
      | fresh _ hkey => exact hkey

theorem new_of_transitionStaged (h : L.transitionStaged C t = .ok (result, L'))
    (hfresh : result.replayed = false) : L.transitionIdempotency[t.idempotencyKey]? = none := by
  cases transitions_of_ok h with
  | replay => cases hfresh
  | fresh _ hkey => exact hkey

/-- A property of events that a run can meet only once: the event's key is not yet known before it. -/
theorem countP_le_one {P : Event → Bool} (hcount : h.countP P ≤ 1)
    (hnew : P e = true → ∀ e' ∈ h, ¬P e' = true) : (e :: h).countP P ≤ 1 := by
  by_cases he : P e = true
  · rw [countP_cons_of_pos he, countP_eq_zero.mpr (hnew he)]
  · rw [countP_cons_of_neg he]
    exact hcount

theorem Reaches.once (hrun : Reaches C session h L) (key : String) :
    h.countP (reservesUnder key) ≤ 1 ∧ h.countP (endsUnder key) ≤ 1 := by
  obtain ⟨sessionId, fence, L₀, hnew, hrun⟩ := hrun
  induction hrun with
  | start => exact ⟨Nat.zero_le _, Nat.zero_le _⟩
  | call hrun _ ih =>
    have hknows : Knows C _ _ := Reaches.knows ⟨sessionId, fence, L₀, hnew, hrun⟩
    refine ⟨countP_le_one ih.1 fun he e' he' hother => ?_, countP_le_one ih.2 fun he e' he' hother => ?_⟩
    · obtain ⟨_, result, hadmitted, hfresh, rfl⟩ := reservesUnder_iff.mp he
      obtain ⟨a', result', hadmitted', -, hkey⟩ := reservesUnder_iff.mp hother
      have hnone := new_of_admitStaged (staged_of_admitted hadmitted) hfresh
      have hsome := (hknows.admissions e' he' a' result' hadmitted').1
      rw [hkey, hnone] at hsome
      cases hsome
    · obtain ⟨_, _, hended, hfresh, rfl⟩ := endsUnder_iff.mp he
      obtain ⟨t', result', hended', -, hkey⟩ := endsUnder_iff.mp hother
      have hnone := new_of_transitionStaged (staged_of_ended hended) hfresh
      obtain ⟨_, -, hsome, -⟩ := hknows.transitions e' he' t' result' hended'
      rw [hkey, hnone] at hsome
      cases hsome

end

end Session

namespace Workspace

open SessionReservationLedger WorkspacePublicationLedger

/-! ### Both ledgers -/

def Call.onReservations (P : WorkspacePublicationLedger) : Call → Session.Call
  | .admitChild a => .admitChild a
  | .release request => .release request
  | .finalizeAndPublish completion publication => .finalizeAndPublish P completion publication

/-- The event as the reservation ledger sees it. -/
def onReservations (e : Run.Event Ledgers Call Session.Reply) : Session.Event :=
  ⟨e.before.2, e.op.onReservations e.before.1, e.result⟩

section
variable {C : Canonical} {session : SessionCapsule} {workspace : ContentDigest} {h : History} {s : Ledgers}

theorem Reaches.onReservations (hrun : Reaches C session workspace h s) :
    Session.Reaches C session (h.map onReservations) s.2 := by
  obtain ⟨sessionId, fence, _, L₀, hnew, -, hrun⟩ := hrun
  refine ⟨sessionId, fence, L₀, hnew, ?_⟩
  induction hrun with
  | start => exact .start
  | @call h s _ call ih =>
    have hstep := Run.Reaches.call ih (call.onReservations s.1)
    cases call with
    | admitChild => exact hstep
    | release => exact hstep
    | finalizeAndPublish => exact hstep

/-- The publication ledger is valid and has recorded every finalisation of the run. -/
structure Remembers (C : Canonical) (h : History) (P : WorkspacePublicationLedger) : Prop where
  valid : P.validate C = .ok ()
  publications : ∀ e ∈ h, ∀ completion publication result, e.op = .finalizeAndPublish completion publication →
    e.result = .publication (.ok result) →
    Paired completion publication ∧ KnowsPublication C P publication result.publication

theorem Remembers.step (hr : Remembers C h s.1) (hchain : s.1.Chain workspace) (call : Call) :
    Remembers C (⟨s, call, (step C s call).1⟩ :: h) (Workspace.step C s call).2.1 := by
  obtain ⟨P, L⟩ := s
  cases call with
  | admitChild =>
    refine ⟨hr.valid, forall_mem_cons.mpr ⟨fun _ _ _ hop => ?_, hr.publications⟩⟩
    cases hop
  | release =>
    refine ⟨hr.valid, forall_mem_cons.mpr ⟨fun _ _ _ hop => ?_, hr.publications⟩⟩
    cases hop
  | finalizeAndPublish t other =>
    simp only [Workspace.step, finalizeAndPublish]
    rcases commit_cases (P, L) (P.finalizeStaged C L t other) with ⟨_, ⟨P', _⟩, hok, hcommit⟩ | ⟨_, -, hcommit⟩
    · rw [hcommit]
      obtain ⟨_, hpublished, -, hrecord, hpaired⟩ := finalizeStaged_halves hok
      have hdoes := publishes_of_ok hpublished
      have hvalid : P'.validate C = .ok () := by
        rcases finalizeStaged_cases hok with ⟨-, rfl, -⟩ | ⟨-, hvalid, -⟩
        · exact hr.valid
        · exact hvalid
      refine ⟨hvalid, forall_mem_cons.mpr ⟨fun _ _ _ hop hresult => ?_, fun e he _ _ _ hop hresult => ?_⟩⟩
      · cases hop
        cases hresult
        rw [hrecord]
        exact ⟨hpaired, hdoes.known⟩
      · obtain ⟨hpaired', hknown⟩ := hr.publications e he _ _ _ hop hresult
        exact ⟨hpaired', hknown.publishes hchain hdoes⟩
    · rw [hcommit]
      refine ⟨hr.valid, forall_mem_cons.mpr ⟨fun _ _ _ _ hresult => ?_, hr.publications⟩⟩
      cases hresult

theorem Reaches.remembers (hrun : Reaches C session workspace h s) : Remembers C h s.1 := by
  obtain ⟨sessionId, fence, P₀, L₀, hnew, hpublications, hrun⟩ := hrun
  induction hrun with
  | start => exact ⟨validate_new hpublications, fun _ he => absurd he not_mem_nil⟩
  | call hrun call ih =>
    have hconsistent : Consistent workspace _ :=
      Reaches.consistent ⟨sessionId, fence, P₀, L₀, hnew, hpublications, hrun⟩
    exact ih.step hconsistent.chain call

end

end Workspace

namespace Session

open SessionReservationLedger WorkspacePublicationLedger

/-- **A repeated request changes nothing and a key is used once.** In every run, a request that succeeded before
returns the current record of its reservation as a replay; any other request under the same key fails, with a
conflict unless a check of its own fails first; and no key admits, or ends, more than one reservation. -/
theorem ledger_idempotent (C : Canonical) (session : SessionCapsule) :
    (∀ (h : History) (L : SessionReservationLedger), Reaches C session h L →
      (∀ e ∈ h, ∀ a result, admitted e.op e.result = some (a, result) →
        AnswersAdmission C L a result.record.request.reservationId) ∧
      (∀ e ∈ h, ∀ t result, ended e.op e.result = some (t, result) →
        AnswersRelease C L t result.record.request.reservationId ∧
        ∀ P : WorkspacePublicationLedger, P.validate C = .ok () →
          AnswersFinalization C P L t result.record.request.reservationId) ∧
      ∀ key, h.countP (reservesUnder key) ≤ 1 ∧ h.countP (endsUnder key) ≤ 1) ∧
    ∀ (workspace : ContentDigest) (h : Workspace.History) (P : WorkspacePublicationLedger)
      (L : SessionReservationLedger), Workspace.Reaches C session workspace h (P, L) →
      ∀ e ∈ h, ∀ completion publication result, e.op = .finalizeAndPublish completion publication →
        e.result = .publication (.ok result) →
        ∃ record, L.reservations[result.reservation.request.reservationId]? = some record ∧
          P.finalizeAndPublish C L completion publication = (.ok ⟨record, result.publication, true⟩, (P, L)) := by
  constructor
  · intro h L hrun
    have hvalid := hrun.tracks.valid
    have hknows := hrun.knows
    refine ⟨fun e he a result ha => ?_, fun e he t result ht => ?_, hrun.once⟩
    · exact (hknows.admissions e he a result ha).answers hvalid
    · have hknown := hknows.transitions e he t result ht
      exact ⟨hknown.answersRelease hvalid, fun P hP => KnowsTransition.answersFinalization hknown hP hvalid⟩
  · intro _ h P L hrun e he completion publication result hop hresult
    have hremembers := hrun.remembers
    obtain ⟨hpaired, hpublication⟩ := hremembers.publications e he completion publication result hop hresult
    -- the same event, as the reservation ledger sees it
    have hended : ended (Workspace.onReservations e).op (Workspace.onReservations e).result =
        some (completion, ⟨result.reservation, result.replayed⟩) := by
      simp only [Workspace.onReservations, Workspace.Call.onReservations, hop, hresult, ended]
    have hknown := hrun.onReservations.knows.transitions _ (mem_map_of_mem he) _ _ hended
    exact (KnowsTransition.answersFinalization hknown hremembers.valid hrun.onReservations.tracks.valid).replay
      publication _ hpaired hpublication

theorem first_admission_ok :
    (ledger.admitChild canonical (admission "1" 0)).1.toOption.map
      (fun result => result.record.request.reservationId) = some "reservation-1" := by
  decide +kernel

theorem ledger_idempotent_twoAdmissions :
    ∃ record, twoAdmissions.2.reservations["reservation-1"]? = some record ∧
      twoAdmissions.2.admitChild Fixture.canonical (Fixture.admission "1" 0) =
        (.ok ⟨record, true⟩, twoAdmissions.2) := by
  have hid := first_admission_ok
  cases hresult : (ledger.admitChild canonical (admission "1" 0)).1 with
  | error =>
    rw [hresult] at hid
    cases hid
  | ok result =>
    rw [hresult] at hid
    obtain ⟨hadmissions, -⟩ := (ledger_idempotent canonical Fixture.session).1 twoAdmissions.1
      twoAdmissions.2 (reaches_fixture _)
    have hfirst := hadmissions ⟨ledger, .admitChild (admission "1" 0), .reservation (.ok result)⟩
      (by rw [← hresult]; exact mem_cons_of_mem _ mem_cons_self) _ result rfl
    have hreservation : result.record.request.reservationId = "reservation-1" := Option.some.inj hid
    rw [hreservation] at hfirst
    exact hfirst.replay

/-- Another admission under the key of the first one, malformed. -/
def malformedAdmission : Admission :=
  { Fixture.admission "1" 0 with request := { (Fixture.admission "1" 0).request with createdUnixMs := 0 } }

def oneAdmission : History × SessionReservationLedger :=
  Run.exec (step Fixture.canonical) Fixture.ledger [.admitChild (Fixture.admission "1" 0)]

/-- **A malformed request under a used key is not a conflict.** -/
theorem malformed_request_not_conflict :
    Reaches Fixture.canonical Fixture.session oneAdmission.1 oneAdmission.2 ∧
    oneAdmission.2.reserveIdempotency[malformedAdmission.request.idempotencyKey]? = some "reservation-1" ∧
    malformedAdmission.request ≠ (Fixture.admission "1" 0).request ∧
    (oneAdmission.2.admitChild Fixture.canonical malformedAdmission).1 =
      .error (.invalidField "child admission fence or creation time" "must be greater than zero") :=
  ⟨reaches_fixture _, by decide +kernel, by decide +kernel, by decide +kernel⟩

end Session

end Runtrue.Execution
