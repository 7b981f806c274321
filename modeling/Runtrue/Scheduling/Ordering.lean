import Runtrue.Scheduling.Fencing

/-!
# The order of offers

An offer goes to the admissible job with the least score. Within a tenant the score is led by the aged priority, and
an aging interval is worth one unit of priority, so a job that has waited long enough comes before any later one.
-/

namespace Runtrue.Scheduling

open List Scheduler

variable {s t : Scheduler} {runner : RunnerRecord} {now : U64}

/-- The queued jobs that pass the hard filters of a runner. -/
def Scheduler.admissible (s : Scheduler) (runner : RunnerRecord) : List QueuedJob :=
  s.queue.values.filter fun job => s.hardFilters job runner

/-- The first job was queued long enough before the second one to make up for its lower priority. -/
def QueuedJob.Outwaits (a b : QueuedJob) : Prop :=
  a.queuedUnixMs.toNat + (b.priority.toInt - a.priority.toInt + 1) * priorityAgingIntervalMs ≤ b.queuedUnixMs.toNat

theorem scoreKey_lt {a b : QueuedJob} (htenant : a.tenantId = b.tenantId) (hqueued : b.queuedUnixMs ≤ now)
    (hwaits : a.Outwaits b) : s.scoreKey a runner now < s.scoreKey b runner now := by
  have hpriority : (s.scoreObservation b runner now).effectivePriority <
      (s.scoreObservation a runner now).effectivePriority := by
    -- an age is far below the range of an `i64`, so neither conversion saturates
    have hnow := now.isLt
    have ha := a.priority.toInt_lt
    have ha' := a.priority.le_toInt
    have hb := b.priority.toInt_lt
    have hb' := b.priority.le_toInt
    rw [BitVec.le_def] at hqueued
    simp only [QueuedJob.Outwaits, priorityAgingIntervalMs] at hwaits
    simp only [Scheduler.scoreObservation, scoreObservation, satAddI64, priorityAgingIntervalMs]
    omega
  have hshare : (s.scoreObservation a runner now).fairShare = (s.scoreObservation b runner now).fairShare := by
    simp only [Scheduler.scoreObservation, scoreObservation, htenant]
  exact Prod.Lex.toLex_lt_toLex.mpr (.inr ⟨hshare, Prod.Lex.toLex_lt_toLex.mpr (.inl hpriority)⟩)

/-- What a poll at `now` returns, where `t` is the state after the expiry it starts with: nothing if no job is
admissible, the error of an exhausted counter, or the least admissible job, which no job of its tenant outwaits. -/
structure OffersLeast (t : Scheduler) (runner : RunnerRecord) (now : U64)
    (offer : Except SchedulerError (Option Lease)) :
    Prop where
  none_iff : offer = .ok none ↔ t.admissible runner = []
  failed : ∀ e, offer = .error e → ∃ job ∈ t.admissible runner, t.Exhausted job.id e ∧
    ∀ a ∈ t.admissible runner, t.scoreKey job runner now ≤ t.scoreKey a runner now
  least : ∀ lease, offer = .ok (some lease) → ∃ job ∈ t.admissible runner, job.id = lease.jobId ∧
    ∀ a ∈ t.admissible runner, t.scoreKey job runner now ≤ t.scoreKey a runner now ∧
      (a.tenantId = job.tenantId → job.queuedUnixMs ≤ now → ¬a.Outwaits job)

theorem offersLeast_nothing (h : t.admissible runner = []) : OffersLeast t runner now (.ok none) :=
  ⟨⟨fun _ => h, fun _ => rfl⟩, nofun, nofun⟩

theorem online_of_hardFilters {job : QueuedJob} (h : s.hardFilters job runner = true) :
    runner.status = .online := by
  simp only [hardFilters, passesHardFilters, Bool.and_eq_true, beq_iff_eq] at h
  exact h.1.1.1.1.1.1.1.1.1

/-- **Offers are optimal, and no job starves behind later ones of its tenant.** -/
theorem offers_least (hc : Consistent s) (runnerId : String) (now : U64) :
    ∃ t, s.expire now = (.ok (s.expiredLeases now), t) ∧ ∀ runner, t.runners[runnerId]? = some runner →
      OffersLeast t runner now (s.offerForRunner runnerId now).1 := by
  obtain ⟨t, tr, hexpire, htrace, -⟩ := s.expire_trace now
  have hct : Consistent t := consistent_trace htrace hc
  refine ⟨t, hexpire, fun runner hrunner => ?_⟩
  simp only [offerForRunner, offerForRunnerObserved, hexpire, hrunner]
  by_cases honline : runner.status = .online
  · simp only [honline, ne_eq, not_true_eq_false, if_false]
    cases hchosen : (t.queue.values.filter fun job => t.hardFilters job runner).argmin
        fun job => t.scoreKey job runner now with
    | none => exact offersLeast_nothing (argmin_eq_none.mp hchosen)
    | some job =>
      have hbest : job ∈ (t.admissible runner).argmin fun job => t.scoreKey job runner now := hchosen
      have hmem : job ∈ t.admissible runner := argmin_mem hbest
      have hsome : t.admissible runner ≠ [] := ne_nil_of_mem hmem
      have hget : t.queue[job.id]? = some job := hct.get_of_mem_queue (mem_filter.mp hmem).1
      have hleast : ∀ a ∈ t.admissible runner, t.scoreKey job runner now ≤ t.scoreKey a runner now := by
        intro a ha
        have hle := le_of_mem_argmin ha hbest
        exact hle
      rcases t.issueLease_cases runnerId now hget with ⟨_, _, he, -, hissue⟩ | ⟨_, _, -, -, hissue⟩
      · simp only [hissue]
        refine ⟨⟨fun h => (by cases h), fun h => absurd h hsome⟩, ?_, fun _ h => (by cases h)⟩
        rintro _ ⟨⟩
        exact ⟨job, hmem, he, hleast⟩
      · simp only [hissue]
        refine ⟨⟨fun h => (by cases h), fun h => absurd h hsome⟩, fun _ h => (by cases h), ?_⟩
        rintro _ ⟨⟩
        refine ⟨job, hmem, rfl, fun a ha => ⟨hleast a ha, fun htenant hqueued hwaits => ?_⟩⟩
        exact (hleast a ha).not_gt (scoreKey_lt htenant hqueued hwaits)
  · simp only [honline, ne_eq, not_false_eq_true, if_true]
    exact offersLeast_nothing (filter_eq_nil_iff.mpr fun _ _ h => honline (online_of_hardFilters h))

/-- A runner and a queued job. -/
def waiting : Scheduler := (exec 1 [.registerRunner (Fixture.runner "runner"), .enqueue (Fixture.job "job" true)]).2

theorem offers_least_waiting : Consistent waiting ∧
    ∃ t, waiting.expire 2 = (.ok (waiting.expiredLeases 2), t) ∧ ∀ runner, t.runners["runner"]? = some runner →
      OffersLeast t runner 2 (waiting.offerForRunner "runner" 2).1 := by
  have hc : Consistent waiting := (reaches_exec 1 _).consistent
  exact ⟨hc, offers_least hc "runner" 2⟩

/-- **With an exhausted counter of leases an admissible job is not offered.** -/
theorem exhausted_counter_fails_offer : ∃ s : Scheduler, Consistent s ∧ (s.expire 2).2 = s ∧
    Fixture.job "job" true ∈ s.admissible (Fixture.runner "runner") ∧
      (s.offerForRunner "runner" 2).1 = .error .leaseIdOverflow := by
  have hc : Consistent waiting := (reaches_exec 1 _).consistent
  refine ⟨{ waiting with nextLeaseId := BitVec.allOnes 64 }, { hc with recorded := fun id lease h => ?_ }, rfl, ?_, ?_⟩
  · have hempty : waiting.leases = ∅ := by decide +kernel
    change waiting.leases[id]? = some lease at h
    rw [hempty, Std.ExtTreeMap.getElem?_empty] at h
    cases h
  · decide +kernel
  · decide +kernel

end Runtrue.Scheduling
