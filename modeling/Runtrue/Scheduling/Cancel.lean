import Runtrue.Scheduling.Fencing

/-!
# A cancelled job does not come back

A cancelled job has no queue entry, and its live lease, if it still has one, is `CancelRequested`
(`Cancelled`). `expire` remembers the request when it decides whether to requeue the job;
`restore_fencing_epoch` does not: it requeues every retryable job. Runs in which no restore finds a
`CancelRequested` lease of a retryable job keep the job out of the queue.
-/

namespace Runtrue.Scheduling

open Scheduler BTreeMap List

/-- Job `j` is out of the queue, and a live lease of it has been asked to stop. -/
structure Cancelled (j : String) (s : Scheduler) : Prop where
  queue : s.queue[j]? = none
  leases : ∀ (id : String) (lease : Lease), s.leases[id]? = some lease → lease.state.live →
    lease.jobId = j → lease.state = .cancelRequested

/-- `j` has a `CancelRequested` lease whose job is retryable. -/
def cancelsRetryable (j : String) (s : Scheduler) : Bool :=
  s.leases.toList.any fun p => decide (p.2.state = .cancelRequested) && p.2.jobId == j
    && (s.leasedJobs[p.1]?).any QueuedJob.retryableAfterRunnerLoss

/-- The changes that could bring `j` back are not made. -/
def LeavesOut (j : String) (s : Scheduler) : Action → Prop
  | .enqueue job => job.id ≠ j
  | .restore => ¬cancelsRetryable j s
  | _ => True

section
variable {j id : String} {s t : Scheduler} {a : Action} {lease lease' : Lease}

theorem cancelsRetryable_of_leased {job : QueuedJob} (hgot : s.leases[id]? = some lease)
    (hstate : lease.state = .cancelRequested) (hjob : s.leasedJobs[id]? = some job)
    (hretry : job.retryableAfterRunnerLoss) : cancelsRetryable lease.jobId s := by
  refine any_eq_true.mpr ⟨(id, lease), mem_toList.mpr hgot, ?_⟩
  simp [hstate, hjob, hretry]

theorem Touches.cancelled (ht : Touches s id lease lease' t) (hk : Cancelled j s)
    (hstate : lease.jobId = j → lease'.state = .cancelRequested) : Cancelled j t := by
  refine ⟨by rw [ht.queue]; exact hk.queue, fun b l hl hlive hj => ?_⟩
  rw [ht.leases, get_insert] at hl
  split at hl
  · cases hl
    exact hstate ((Lease.issue_fields ht.issue).2.1.symm.trans hj)
  · exact hk.leases b l hl hlive hj

theorem Closes.cancelled (hcl : Closes s id lease lease' t) (hc : Consistent s) (hk : Cancelled j s)
    (hqueue : lease.jobId = j → t.queue = s.queue) : Cancelled j t := by
  refine ⟨?_, fun b l hl hlive hj => ?_⟩
  · by_contra hne
    obtain ⟨_, hjob⟩ := Option.ne_none_iff_exists'.mp hne
    rcases hcl.get_queue hc hjob with hold | ⟨hid, -⟩
    · rw [hk.queue] at hold
      cases hold
    · rw [hqueue hid.symm, hk.queue] at hjob
      cases hjob
  · obtain ⟨-, hold, -⟩ := hcl.get_other hc hl hlive
    exact hk.leases b l hold hlive hj

theorem Does.cancelled (hdoes : Does s a t) (hc : Consistent s) (hleaves : LeavesOut j s a)
    (hk : Cancelled j s) : Cancelled j t := by
  -- no lease of `j` is only offered
  have hoffered : ∀ {id : String} {lease : Lease}, s.leases[id]? = some lease →
      lease.state = .offered → lease.jobId ≠ j := by
    intro id lease hgot hstate hj
    have hcancel := hk.leases id lease hgot (by rw [hstate]; rfl) hj
    rw [hstate] at hcancel
    cases hcancel
  have hqueued : ∀ {job : QueuedJob}, s.queue[job.id]? = some job → job.id ≠ j := by
    rintro job hjob rfl
    rw [hk.queue] at hjob
    cases hjob
  cases hdoes with
  | register | status | quota => exact ⟨hk.queue, hk.leases⟩
  | enqueue _ _ =>
    refine ⟨?_, hk.leases⟩
    rw [get_insert, if_neg hleaves]
    exact hk.queue
  | issue hjob _ _ _ _ =>
    refine ⟨?_, fun b l hl hlive hj => ?_⟩
    · simp only [issued, get_erase, hk.queue, ite_self]
    · simp only [issued, get_insert] at hl
      split at hl
      · cases hl
        exact absurd hj (hqueued hjob)
      · exact hk.leases b l hl hlive hj
  | lose _ _ =>
    refine ⟨?_, hk.leases⟩
    simp only [lost, get_erase, hk.queue, ite_self]
  | accept hgot hstate =>
    exact (accepted_touches hgot hstate).cancelled hk fun hj =>
      absurd hj (hoffered hgot hstate)
  | giveBack hgot hstate hended =>
    exact (returnOffer_closes hgot hstate hended).cancelled hc hk fun hj =>
      absurd hj (hoffered hgot hstate)
  | @renew id lease _ hgot hrunning _ _ expires =>
    refine (renewed_touches hgot hrunning expires).cancelled hk fun hj => ?_
    exact hk.leases id lease hgot (live_of_running hrunning) hj
  | cancel hgot hstate => exact (cancelled_touches hgot hstate).cancelled hk fun _ => rfl
  | finish hgot hrunning digest =>
    refine (completeLease_closes hgot hrunning digest).cancelled hc hk fun _ => ?_
    rw [completeLease_eq]
  | @expire id lease hgot hlive =>
    refine (expireLease_closes hgot hlive).cancelled hc hk fun hj => ?_
    -- `expire` looks at the state before it overwrites it
    have hcancel := hk.leases id lease hgot hlive hj
    rw [expireLease_queue, requeued]
    split
    · rfl
    · rw [expireRequeues, hcancel]
      simp
  | restore =>
    refine ⟨?_, fun b l hl hlive => absurd hlive (restored_not_live hl)⟩
    by_contra hne
    obtain ⟨job, hjob⟩ := Option.ne_none_iff_exists'.mp hne
    rcases (hc.restored_queue _ j job).mp hjob with hold | ⟨id, hleased, hretry, hid⟩
    · rw [hk.queue] at hold
      cases hold
    · obtain ⟨lease, hgot, hlive⟩ := hc.liveOfJob id job hleased
      have hj : lease.jobId = j := (hc.jobId_of_leased hgot hleased).2.1.symm.trans hid
      exact hleaves (hj ▸ cancelsRetryable_of_leased hgot (hk.leases id lease hgot hlive hj) hleased hretry)

theorem cancelled_of_trace {tr : List (Scheduler × Action)} (htrace : Run.Trace Does s tr t)
    (hc : Consistent s) (hleaves : ∀ x ∈ tr, LeavesOut j x.1 x.2) (hk : Cancelled j s) : Cancelled j t := by
  have hstep : ∀ (s : Scheduler) (a : Action) (t : Scheduler), Does s a t → LeavesOut j s a →
      Consistent s ∧ Cancelled j s → Consistent t ∧ Cancelled j t :=
    fun _ _ _ hdoes hl hs => ⟨(hdoes.consistent hs.1).2, hdoes.cancelled hs.1 hl hs.2⟩
  exact (htrace.keeps hstep hleaves ⟨hc, hk⟩).2

/-- The job id a call enqueues. -/
def Op.enqueues : Op → Option String
  | .enqueue job => some job.id
  | _ => none

/-- A successful epoch restore over a `CancelRequested` lease of `j` whose job is retryable. -/
def restoresCancelled (j : String) (e : Event) : Bool :=
  match e.op with
  | .restoreFencingEpoch newEpoch =>
    decide (newEpoch > e.before.installationFencingEpoch) && cancelsRetryable j e.before
  | _ => false

theorem leavesOut_of_causes {op : Op} {out : Outcome} (henqueue : op.enqueues ≠ some j)
    (hrestore : restoresCancelled j ⟨s, op, out⟩ = false) {x : Scheduler × Action}
    (hcauses : Causes s op out x) : LeavesOut j x.1 x.2 := by
  cases hcauses with
  | enqueue hop =>
    subst hop
    exact fun hj => henqueue (congrArg some hj)
  | restore hop hepoch =>
    subst hop
    have hgt : s.installationFencingEpoch < _ := BitVec.not_le.mp hepoch
    simp only [restoresCancelled, Bool.and_eq_false_iff, decide_eq_false_iff_not] at hrestore
    rcases hrestore with hle | hnone
    · exact absurd hgt hle
    · exact Bool.eq_false_iff.mp hnone
  | _ => trivial

/-- The run lemma: a cancelled job stays out and gets no new lease. -/
theorem cancelled_of_reaches {s₀ : Scheduler} {later : History} (hrun : Run.Reaches step s₀ later s)
    (hc : Consistent s₀) (hk : Cancelled j s₀) (henqueue : ∀ e ∈ later, e.op.enqueues ≠ some j)
    (hrestore : ∀ e ∈ later, restoresCancelled j e = false) : Cancelled j s ∧ ∀ l ∈ issuedIn later, l.jobId ≠ j := by
  induction hrun with
  | start => exact ⟨hk, nofun⟩
  | @call _ _ hrun op ih =>
    obtain ⟨henq, henqRest⟩ := forall_mem_cons.mp henqueue
    obtain ⟨hres, hresRest⟩ := forall_mem_cons.mp hrestore
    obtain ⟨hks, hissued⟩ := ih henqRest hresRest
    have hcs := (follows_of_reaches hrun hc).1
    obtain ⟨_, htrace, hperforms⟩ := step_performs hcs op
    have hkt := cancelled_of_trace htrace hcs (fun x hx =>
      leavesOut_of_causes henq hres (hperforms.causes htrace x hx)) hks
    refine ⟨hkt, fun l hl => ?_⟩
    obtain ⟨e, he, hout⟩ := mem_issuedIn.mp hl
    rcases mem_cons.mp he with rfl | he
    · -- a new lease of `j` would be live without a cancel request
      dsimp only at hout
      rw [Outcome.eq_offered_of_issued hout] at hperforms
      obtain ⟨hgot, hoffered, -⟩ := issued_of_trace htrace hperforms hcs
      intro hj
      have hcancel := hkt.leases _ l hgot (by rw [hoffered]; rfl) hj
      rw [hoffered] at hcancel
      cases hcancel
    · exact hissued l (mem_issuedIn.mpr ⟨e, he, hout⟩)

theorem cancelled_of_requestCancel (hc : Consistent s)
    (hdone : (step s (.requestCancel j)).1 = .done) : Cancelled j (step s (.requestCancel j)).2 := by
  obtain ⟨tr, htrace, hperforms⟩ := step_performs hc (.requestCancel j)
  rw [hdone] at hperforms
  generalize hacts : tr.map Prod.snd = acts at hperforms
  cases hperforms with
  | @cancelled _ id lease hactive =>
    generalize (step s (.requestCancel j)).2 = t at htrace
    have hnone : s.queue[j]? = none := by
      by_contra hne
      obtain ⟨job, hjob⟩ := Option.ne_none_iff_exists'.mp hne
      rw [hc.queueFree j job hjob] at hactive
      cases hactive
    cases (htrace.eq_single hacts).2 with
    | cancel hgot _ =>
      refine ⟨hnone, fun b l hl hlive hj => ?_⟩
      rw [get_insert] at hl
      split at hl
      · cases hl
        rfl
      · rename_i hne
        -- two live leases of one job are one
        have hother := hc.activeOfLive b l hl hlive
        rw [hj, hactive] at hother
        exact absurd (Option.some.inj hother) hne

/-- **A cancelled job stays cancelled.** After a successful `request_cancel` of `j`, in every run whose
calls do not enqueue `j` and do not restore the epoch over a `CancelRequested` lease of `j` whose job is
retryable, `j` is not queued in any state reached and no lease is issued for it. -/
theorem cancelled_never_returns {epoch : U64} {earlier later : History} {e : Event}
    (hrun : Reaches epoch (later ++ e :: earlier) s) (hop : e.op = .requestCancel j)
    (hdone : e.result = .done) (henqueue : ∀ e' ∈ later, e'.op.enqueues ≠ some j)
    (hrestore : ∀ e' ∈ later, restoresCancelled j e' = false) :
    s.queue[j]? = none ∧ ∀ l ∈ issuedIn later, l.jobId ≠ j := by
  obtain ⟨hbefore, hresult, hlater⟩ := hrun.split
  have hc := Reaches.consistent hbefore
  rw [hop] at hresult hlater
  have hk := cancelled_of_requestCancel hc (hresult.symm.trans hdone)
  have hct := (follows_of_reaches (Run.Reaches.call .start (.requestCancel j)) hc).1
  obtain ⟨hks, hissued⟩ := cancelled_of_reaches hlater hct hk henqueue hrestore
  exact ⟨hks.queue, hissued⟩

end

/-- A job is cancelled while its lease is active, and its lease expires. -/
def cancelThenExpire : List Op :=
  [.registerRunner (Fixture.runner "runner"), .enqueue (Fixture.job "job" true),
    .offerForRunner "runner" 2, .decideOffer "lease-1" "runner" 1 true 3, .requestCancel "job",
    .expire 100000, .offerForRunner "runner" 100001]

theorem cancelled_never_returns_cancelThenExpire :
    (exec 1 cancelThenExpire).2.queue["job"]? = none ∧
      ∀ l ∈ issuedIn ((exec 1 cancelThenExpire).1.take 2), l.jobId ≠ "job" := by
  refine cancelled_never_returns (reaches_exec 1 cancelThenExpire) ?_ ?_ ?_ ?_
  · rfl
  · decide
  · decide
  · decide

/-- The same, but the epoch is restored before the lease expires. -/
def cancelThenRestore : List Op :=
  [.registerRunner (Fixture.runner "runner"), .enqueue (Fixture.job "job" true),
    .offerForRunner "runner" 2, .decideOffer "lease-1" "runner" 1 true 3, .requestCancel "job",
    .restoreFencingEpoch 2, .offerForRunner "runner" 4]

/-- The restore requeues the cancelled job, and the next offer leases it again. -/
theorem cancelled_returns_cancelThenRestore :
    ¬∀ (epoch : U64) (j : String) (earlier later : History) (e : Event) (s : Scheduler),
      Reaches epoch (later ++ e :: earlier) s → e.op = .requestCancel j → e.result = .done →
      (∀ e' ∈ later, e'.op.enqueues ≠ some j) →
      s.queue[j]? = none ∧ ∀ l ∈ issuedIn later, l.jobId ≠ j := by
  intro hall
  have hno := (hall 1 "job" ((exec 1 cancelThenRestore).1.drop 3)
    ((exec 1 cancelThenRestore).1.take 2) ((exec 1 cancelThenRestore).1.get ⟨2, by decide⟩)
    (exec 1 cancelThenRestore).2 (reaches_exec 1 cancelThenRestore) rfl (by decide) (by decide)).2
  revert hno
  decide

end Runtrue.Scheduling
