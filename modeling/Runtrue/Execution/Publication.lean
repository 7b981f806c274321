import Runtrue.Execution.Session

/-!
# Publications and finalised reservations agree

The publication ledger and the reservation ledger of a Session, from their creation on, under any
interleaving of `admit_child`, `release` and `finalize_and_publish`.

`Chain` is about the publication ledger alone: its generations are numbered without gaps, each one continues
what the one before produced, and a child makes at most one of them. `Agree` relates the two ledgers: the
reservations that are Finalized are the ones that published. One call moves both together (`Moves`).
-/

namespace Runtrue.Execution

open Fallible SessionReservationLedger BTreeMap Std.ExtTreeMap Option Fixture

namespace Workspace

/-! ### Runs of both ledgers -/

inductive Call
  | admitChild (a : Admission)
  | release (request : ReservationTransitionRequest)
  | finalizeAndPublish (completion : ReservationTransitionRequest) (publication : WorkspacePublicationRequest)

abbrev Ledgers := WorkspacePublicationLedger × SessionReservationLedger

def step (C : Canonical) (s : Ledgers) : Call → Session.Reply × Ledgers
  | .admitChild a => (.reservation (s.2.admitChild C a).1, s.1, (s.2.admitChild C a).2)
  | .release request => (.reservation (s.2.release C request).1, s.1, (s.2.release C request).2)
  | .finalizeAndPublish completion publication =>
    (.publication (s.1.finalizeAndPublish C s.2 completion publication).1,
      (s.1.finalizeAndPublish C s.2 completion publication).2)

abbrev History := List (Run.Event Ledgers Call Session.Reply)

/-- The ledgers are reached by the calls of `h` from new ones, for the same Session, capsule and fence. -/
def Reaches (C : Canonical) (session : SessionCapsule) (workspace : ContentDigest) (h : History)
    (s : Ledgers) : Prop :=
  ∃ sessionId fence P₀ L₀, SessionReservationLedger.new C sessionId session fence = .ok L₀ ∧
    WorkspacePublicationLedger.new sessionId L₀.sessionCapsuleDigest fence workspace = .ok P₀ ∧
    Run.Reaches (step C) (P₀, L₀) h s

/-- What a call can do to the two ledgers. -/
inductive Moves (C : Canonical) : Ledgers → Ledgers → Prop
  | idle (s : Ledgers) : Moves C s s
  | admits {P : WorkspacePublicationLedger} {L L' : SessionReservationLedger} {result : ReservationResult}
      {derived : ChildReservationRequest} (hdoes : Reserves C L derived result L')
      (hfresh : result.replayed = false) : Moves C (P, L) (P, L')
  | releases {P : WorkspacePublicationLedger} {L L' : SessionReservationLedger} {result : ReservationResult}
      {request : ReservationTransitionRequest} (houtcome : request.outcome.state = .released)
      (hdoes : Transitions C L request result L') (hfresh : result.replayed = false) : Moves C (P, L) (P, L')
  | publishes {P P' : WorkspacePublicationLedger} {L L' : SessionReservationLedger}
      {finalized : ReservationResult} {published : WorkspacePublicationResult}
      {completion : ReservationTransitionRequest} {publication : WorkspacePublicationRequest}
      (houtcome : completion.outcome.state = .finalized)
      (hid : completion.reservationId = publication.reservationId)
      (hpublishes : P.Publishes C L publication published P') (hpublished : published.replayed = false)
      (hdoes : Transitions C L completion finalized L') (hfresh : finalized.replayed = false) :
      Moves C (P, L) (P', L')

theorem step_moves (C : Canonical) (s : Ledgers) (call : Call) : Moves C s (step C s call).2 := by
  obtain ⟨P, L⟩ := s
  cases call with
  | admitChild a =>
    simp only [step, admitChild]
    rcases commit_cases L (L.admitStaged C a) with ⟨result, L', hok, hcommit⟩ | ⟨e, -, hcommit⟩
    · rw [hcommit]
      rcases admitStaged_cases hok with ⟨-, rfl⟩ | ⟨hfresh, -, _, -, hdoes⟩
      · exact .idle _
      · exact .admits hdoes hfresh
    · rw [hcommit]
      exact .idle _
  | release request =>
    simp only [step, release]
    rcases commit_cases L (L.releaseStaged C request) with ⟨result, L', hok, hcommit⟩ | ⟨e, -, hcommit⟩
    · rw [hcommit]
      rcases releaseStaged_cases hok with ⟨-, rfl⟩ | ⟨hfresh, -, houtcome, hdoes⟩
      · exact .idle _
      · exact .releases houtcome hdoes hfresh
    · rw [hcommit]
      exact .idle _
  | finalizeAndPublish completion publication =>
    simp only [step, WorkspacePublicationLedger.finalizeAndPublish]
    rcases commit_cases (P, L) (P.finalizeStaged C L completion publication) with
      ⟨result, ⟨P', L'⟩, hok, hcommit⟩ | ⟨e, -, hcommit⟩
    · rw [hcommit]
      rcases WorkspacePublicationLedger.finalizeStaged_cases hok with ⟨-, rfl, rfl⟩ |
        ⟨-, -, -, houtcome, hid, published, finalized, hpublished, hfresh, hpublishes, hdoes⟩
      · exact .idle _
      · exact .publishes houtcome hid hpublishes hpublished hdoes hfresh
    · rw [hcommit]
      exact .idle _

end Workspace

/-! ### One chain of generations -/

namespace WorkspacePublicationLedger

/-- What a generation produced: generation zero is the initial workspace. -/
def producedBy (P : WorkspacePublicationLedger) (generation : U64) : Option WorkspaceGeneration :=
  if generation = 0 then some P.initial else P.publications[generation]?.map (·.current)

/-- A record takes what the generation before it produced, and produces its own. -/
structure Continues (P : WorkspacePublicationLedger) (generation : U64) (p : WorkspacePublicationRecord) :
    Prop where
  number : p.request.inputGeneration = generation - 1
  input : P.producedBy (generation - 1) = some ⟨p.request.inputGeneration, p.request.inputWorkspaceDigest⟩
  previous : P.producedBy (generation - 1) = some p.previous
  output : p.current = ⟨generation, p.request.outputWorkspaceDigest⟩

/-- The publications are one chain from the workspace to the current generation. -/
structure Chain (workspace : ContentDigest) (P : WorkspacePublicationLedger) : Prop where
  origin : P.initial = ⟨0, workspace⟩
  generations : ∀ generation : U64,
    P.publications[generation]?.isSome = true ↔
      0 < generation.toNat ∧ generation.toNat ≤ P.current.generation.toNat
  continues : ∀ (generation : U64) (p : WorkspacePublicationRecord),
    P.publications[generation]? = some p → P.Continues generation p
  current : P.producedBy P.current.generation = some P.current
  children : ∀ (generation : U64) (p : WorkspacePublicationRecord),
    P.publications[generation]? = some p → P.publishedByChild[p.childExecutionId]? = some generation

section
variable {workspace digest : ContentDigest} {P : WorkspacePublicationLedger}
  {request : WorkspacePublicationRequest} {generation nextRevision n : U64}

theorem Chain.new {sessionId : String} {capsule : ContentDigest} {fence : U64}
    (h : WorkspacePublicationLedger.new sessionId capsule fence workspace = .ok P) : Chain workspace P := by
  simp only [WorkspacePublicationLedger.new, bind_eq_ok, exists_unit, rejectIf_eq_ok, pure_eq_ok] at h
  obtain ⟨-, -, rfl⟩ := h
  have hempty : ∀ g : U64, (∅ : BTreeMap U64 WorkspacePublicationRecord)[g]? = none :=
    fun _ => getElem?_empty
  refine ⟨rfl, fun g => ?_, fun g p hp => ?_, rfl, fun g p hp => ?_⟩
  · rw [hempty g]
    exact iff_of_false Bool.false_ne_true fun h => absurd h.2 (not_le.mpr h.1)
  · rw [hempty g] at hp
    cases hp
  · rw [hempty g] at hp
    cases hp

theorem publications_withPublication : (P.withPublication request digest generation nextRevision).publications[n]? =
      if generation = n then some (P.recordOf request digest generation) else P.publications[n]? := by
  rw [withPublication, get_insert]

theorem producedBy_withPublication_of_ne (h : generation ≠ n) :
    (P.withPublication request digest generation nextRevision).producedBy n = P.producedBy n := by
  rw [producedBy, producedBy, publications_withPublication, if_neg h]
  rfl

theorem Chain.fresh (hchain : Chain workspace P)
    (hgeneration : generation.toNat = P.current.generation.toNat + 1) : P.publications[generation]? = none := by
  rw [← not_isSome_iff_eq_none, hchain.generations]
  omega

theorem Continues.withPublication {p : WorkspacePublicationRecord} (h : P.Continues n p)
    (hn : generation ≠ n - 1) : (P.withPublication request digest generation nextRevision).Continues n p := by
  have hproduced : (P.withPublication request digest generation nextRevision).producedBy (n - 1) =
      P.producedBy (n - 1) := producedBy_withPublication_of_ne hn
  exact ⟨h.number, hproduced.trans h.input, hproduced.trans h.previous, h.output⟩

theorem Chain.withPublication (hchain : Chain workspace P)
    (hunpublished : P.publishedByChild[request.childExecutionId]? = none)
    (hinput : request.inputGeneration = P.current.generation)
    (hworkspace : request.inputWorkspaceDigest = P.current.stateDigest)
    (hgeneration : generation.toNat = P.current.generation.toNat + 1) :
    Chain workspace (P.withPublication request digest generation nextRevision) := by
  have hcurrent : P.current.generation = generation - 1 := by bv_omega
  have hproduced : (P.withPublication request digest generation nextRevision).producedBy (generation - 1) =
      some P.current := by
    rw [producedBy_withPublication_of_ne (by bv_omega), ← hcurrent]
    exact hchain.current
  refine ⟨hchain.origin, fun n => ?_, fun n p hp => ?_, ?_, fun n p hp => ?_⟩
  · change _ ↔ 0 < n.toNat ∧ n.toNat ≤ generation.toNat
    rw [publications_withPublication]
    split
    · rename_i hn
      subst hn
      exact iff_of_true rfl ⟨by omega, le_refl _⟩
    · rename_i hn
      have hne : generation.toNat ≠ n.toNat := fun h => hn (BitVec.eq_of_toNat_eq h)
      rw [hchain.generations]
      omega
  · rcases get_insert_eq_some.mp hp with ⟨rfl, rfl⟩ | ⟨hn, hp⟩
    · refine ⟨hinput.trans hcurrent, hproduced.trans ?_, hproduced, rfl⟩
      rw [recordOf, hinput, hworkspace]
    · -- an old generation continues an old one
      have hbounds := (hchain.generations n).mp (isSome_of_eq_some hp)
      exact (hchain.continues n p hp).withPublication (by bv_omega)
  · have hne : generation ≠ 0 := by
      rintro rfl
      exact absurd hgeneration (Nat.succ_ne_zero _).symm
    change producedBy _ generation = _
    rw [producedBy, if_neg hne, publications_withPublication, if_pos rfl]
    rfl
  · rcases get_insert_eq_some.mp hp with ⟨rfl, rfl⟩ | ⟨-, hp⟩
    · exact get_insert_self _ _ _
    · exact get_insert_fresh hunpublished (hchain.children n p hp)

end

end WorkspacePublicationLedger

namespace Workspace

/-! ### The two ledgers agree -/

/-- The reservations that are Finalized are the ones that published. -/
structure Agree (publications : BTreeMap U64 WorkspacePublicationRecord)
    (reservations : BTreeMap String ChildReservationRecord) : Prop where
  finalized : ∀ (generation : U64) (p : WorkspacePublicationRecord), publications[generation]? = some p →
    ∃ r, reservations[p.reservationId]? = some r ∧ r.state = .finalized ∧
      r.request.childExecutionId = p.childExecutionId
  published : ∀ (id : String) (r : ChildReservationRecord), reservations[id]? = some r → r.state = .finalized →
    ∃ (generation : U64) (p : WorkspacePublicationRecord),
      publications[generation]? = some p ∧ p.reservationId = id

section
variable {publications : BTreeMap U64 WorkspacePublicationRecord}
  {reservations : BTreeMap String ChildReservationRecord} {id : String} {r : ChildReservationRecord}
  {generation : U64} {p : WorkspacePublicationRecord}

section
variable (ha : Agree publications reservations)
include ha

section
variable (hopen : ∀ r : ChildReservationRecord, reservations[id]? = some r → r.state ≠ .finalized)
include hopen

theorem Agree.finalized_insert (hp : publications[generation]? = some p) :
    ∃ r', (reservations.insert id r)[p.reservationId]? = some r' ∧ r'.state = .finalized ∧
      r'.request.childExecutionId = p.childExecutionId := by
  obtain ⟨r', hr', hstate, hchild⟩ := ha.finalized generation p hp
  have hne : id ≠ p.reservationId := by
    rintro rfl
    exact hopen r' hr' hstate
  exact ⟨r', get_insert_eq_some.mpr (.inr ⟨hne, hr'⟩), hstate, hchild⟩

theorem Agree.insert_open (hstate : r.state ≠ .finalized) : Agree publications (reservations.insert id r) := by
  refine ⟨fun _ p hp => ha.finalized_insert hopen hp, fun id' r' hr' hfinalized => ?_⟩
  rcases get_insert_eq_some.mp hr' with ⟨rfl, rfl⟩ | ⟨-, hr'⟩
  · exact absurd hfinalized hstate
  · exact ha.published id' r' hr' hfinalized

theorem Agree.insert_finalized (hnew : publications[generation]? = none) (hstate : r.state = .finalized)
    (hid : p.reservationId = id) (hchild : r.request.childExecutionId = p.childExecutionId) :
    Agree (publications.insert generation p) (reservations.insert id r) := by
  refine ⟨fun generation' p' hp' => ?_, fun id' r' hr' hfinalized => ?_⟩
  · rcases get_insert_eq_some.mp hp' with ⟨rfl, rfl⟩ | ⟨-, hp'⟩
    · subst hid
      exact ⟨r, get_insert_self _ _ _, hstate, hchild⟩
    · exact ha.finalized_insert hopen hp'
  · rcases get_insert_eq_some.mp hr' with ⟨rfl, rfl⟩ | ⟨-, hr'⟩
    · exact ⟨generation, p, get_insert_self _ _ _, hid⟩
    · obtain ⟨generation', p', hp', hid'⟩ := ha.published id' r' hr' hfinalized
      exact ⟨generation', p', get_insert_fresh hnew hp', hid'⟩

end

end

end

section
variable {C : Canonical} {workspace : ContentDigest} {s s' : Ledgers}

/-- The invariant of both ledgers. -/
structure Consistent (workspace : ContentDigest) (s : Ledgers) : Prop where
  chain : s.1.Chain workspace
  agree : Agree s.1.publications s.2.reservations

theorem Consistent.moves (hs : Consistent workspace s) (hmoves : Moves C s s') : Consistent workspace s' := by
  obtain ⟨hchain, hagree⟩ := hs
  cases hmoves with
  | idle => exact ⟨hchain, hagree⟩
  | admits hdoes hfresh =>
    cases hdoes with
    | replay => cases hfresh
    | fresh _ _ _ _ _ hid =>
      refine ⟨hchain, hagree.insert_open (fun r hr => ?_) fun h => ReservationState.noConfusion h⟩
      rw [hid] at hr
      cases hr
  | releases houtcome hdoes hfresh =>
    cases hdoes with
    | replay => cases hfresh
    | fresh _ _ _ hrecord _ hstate =>
      refine ⟨hchain, hagree.insert_open (fun r hr => ?_) fun h => ?_⟩
      · cases hrecord.symm.trans hr
        rw [hstate]
        exact fun h => ReservationState.noConfusion h
      · exact ReservationState.noConfusion (houtcome.symm.trans h)
  | publishes houtcome hid hpublishes hpublished hdoes hfresh =>
    cases hdoes with
    | replay => cases hfresh
    | fresh _ _ _ hrecord _ hstate =>
      cases hpublishes with
      | replay => cases hpublished
      | fresh _ _ _ _ _ hreservation _ hchild hunpublished hinput hworkspace hgeneration =>
        rw [← hid, hrecord] at hreservation
        cases hreservation
        refine ⟨hchain.withPublication hunpublished hinput hworkspace hgeneration,
          hagree.insert_finalized (fun r hr => ?_) (hchain.fresh hgeneration) houtcome hid.symm hchild⟩
        cases hrecord.symm.trans hr
        rw [hstate]
        exact fun h => ReservationState.noConfusion h

variable {session : SessionCapsule} {sessionId : String} {fence : U64}
  {L : SessionReservationLedger}

theorem reservations_new (h : SessionReservationLedger.new C sessionId session fence = .ok L) : L.reservations = ∅ := by
  simp only [SessionReservationLedger.new, bind_eq_ok, exists_unit, pure_eq_ok] at h
  obtain ⟨-, -, -, -, -, rfl⟩ := h
  rfl

theorem Consistent.start {P : WorkspacePublicationLedger} {capsule : ContentDigest}
    (h : WorkspacePublicationLedger.new sessionId capsule fence workspace = .ok P)
    (hreservations : L.reservations = ∅) : Consistent workspace (P, L) := by
  have hchain := WorkspacePublicationLedger.Chain.new h
  refine ⟨hchain, ⟨fun generation p hp => ?_, fun _ r hr => ?_⟩⟩
  · -- a new publication ledger is at generation zero
    simp only [WorkspacePublicationLedger.new, bind_eq_ok, exists_unit, pure_eq_ok] at h
    obtain ⟨-, -, rfl⟩ := h
    rw [getElem?_empty] at hp
    cases hp
  · rw [hreservations, getElem?_empty] at hr
    cases hr

theorem Reaches.consistent {h : History} (hrun : Reaches C session workspace h s) : Consistent workspace s := by
  obtain ⟨_, _, _, _, hnew, hpublications, hrun⟩ := hrun
  induction hrun with
  | start => exact Consistent.start hpublications (reservations_new hnew)
  | call _ call ih => exact ih.moves (step_moves C _ call)

variable {generation generation' : U64} {p p' : WorkspacePublicationRecord}

theorem Consistent.child_unique (hs : Consistent workspace s)
    (hp : s.1.publications[generation]? = some p) (hp' : s.1.publications[generation']? = some p')
    (hchild : p.childExecutionId = p'.childExecutionId) : generation = generation' := by
  have hfirst := hs.chain.children generation p hp
  rw [hchild, hs.chain.children generation' p' hp'] at hfirst
  exact (Option.some.inj hfirst).symm

theorem Consistent.reservation_unique (hs : Consistent workspace s)
    (hp : s.1.publications[generation]? = some p) (hp' : s.1.publications[generation']? = some p')
    (hid : p.reservationId = p'.reservationId) : generation = generation' := by
  obtain ⟨_, hr, -, hchild⟩ := hs.agree.finalized generation p hp
  obtain ⟨_, hr', -, hchild'⟩ := hs.agree.finalized generation' p' hp'
  rw [hid, hr'] at hr
  cases hr
  exact hs.child_unique hp hp' (hchild.symm.trans hchild')

/-- **Finalisation and publication agree, and no workspace update is lost.** In every run a reservation is
Finalized if and only if exactly one publication carries it; a child publishes at most once; the publications are
one chain; and a `finalize_and_publish` that fails leaves both ledgers as they were. -/
theorem finalization_and_publication_agree {session : SessionCapsule} {h : History}
    {P : WorkspacePublicationLedger} {L : SessionReservationLedger}
    (hrun : Reaches C session workspace h (P, L)) :
    (∀ id : String, (∃ r, L.reservations[id]? = some r ∧ r.state = .finalized) ↔
      ∃! generation : U64, ∃ p, P.publications[generation]? = some p ∧ p.reservationId = id) ∧
    (∀ (generation generation' : U64) (p p' : WorkspacePublicationRecord),
      P.publications[generation]? = some p → P.publications[generation']? = some p' →
      p.childExecutionId = p'.childExecutionId → generation = generation') ∧
    P.Chain workspace ∧
    ∀ completion publication e, (P.finalizeAndPublish C L completion publication).1 = .error e →
      (P.finalizeAndPublish C L completion publication).2 = (P, L) := by
  have hs := hrun.consistent
  refine ⟨fun id => ⟨?_, ?_⟩, fun _ _ _ _ hp hp' hchild => hs.child_unique hp hp' hchild, hs.chain, ?_⟩
  · rintro ⟨r, hr, hstate⟩
    obtain ⟨generation, p, hp, rfl⟩ := hs.agree.published id r hr hstate
    refine ⟨generation, ⟨p, hp, rfl⟩, ?_⟩
    rintro _ ⟨_, hp', hid⟩
    exact hs.reservation_unique hp' hp hid
  · rintro ⟨generation, ⟨p, hp, rfl⟩, -⟩
    obtain ⟨r, hr, hstate, -⟩ := hs.agree.finalized generation p hp
    exact ⟨r, hr, hstate⟩
  · intro completion publication e he
    rcases commit_cases (P, L) (P.finalizeStaged C L completion publication) with
      ⟨result, s', -, hcommit⟩ | ⟨e', -, hcommit⟩
    · rw [WorkspacePublicationLedger.finalizeAndPublish, hcommit] at he
      cases he
    · rw [WorkspacePublicationLedger.finalizeAndPublish, hcommit]

/-- Two children are admitted and the first one publishes. -/
def onePublication : History × Ledgers :=
  Run.exec (step Fixture.canonical) (Fixture.publications, Fixture.ledger)
    [.admitChild (Fixture.admission "1" 0), .admitChild (Fixture.admission "2" 1),
      .finalizeAndPublish Fixture.completion Fixture.publication]

theorem reaches_onePublication :
    Reaches canonical Fixture.session Fixture.initialWorkspaceDigest onePublication.1 onePublication.2 :=
  ⟨"session-1", 11, Fixture.publications, ledger, by decide +kernel, by decide +kernel,
    Run.reaches_exec _ _ _⟩

theorem finalized_onePublication :
    onePublication.2.2.reservations["reservation-1"]?.any (·.state = .finalized) = true := by
  decide +kernel

theorem finalization_and_publication_agree_onePublication :
    ∃! generation : U64, ∃ p, onePublication.2.1.publications[generation]? = some p ∧
      p.reservationId = "reservation-1" := by
  obtain ⟨r, hget, hstate⟩ := (any_eq_true _ _).mp finalized_onePublication
  have hrun := reaches_onePublication
  -- rewritten, since unification would evaluate the run to see a pair
  rw [← Prod.eta onePublication.2] at hrun
  have hiff := (finalization_and_publication_agree hrun).1 "reservation-1"
  exact hiff.mp ⟨r, hget, of_decide_eq_true hstate⟩

end

end Workspace

end Runtrue.Execution
