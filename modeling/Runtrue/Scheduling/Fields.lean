import Runtrue.Scheduling.Machine

/-!
# What the parts of an operation write

One equation for each field of the state that a building block of `decide_offer`, `complete`, `expire` or
`restore_fencing_epoch` may change. Later modules read the blocks through these equations only.
-/

namespace Runtrue.Scheduling.Scheduler

open BTreeMap Fixed List

variable (s : Scheduler) (leaseId runnerId : String) (lease : Lease)

/-- The runners after one of them gave back `requirements`. -/
def releasedRunners (runnerId : String) (requirements : Option SchedulingRequirements) :
    BTreeMap String RunnerRecord :=
  match s.runners[runnerId]? with
  | none => s.runners
  | some runner => s.runners.insert runnerId (runner.release requirements)

theorem releaseRunner_eq (requirements : Option SchedulingRequirements) : s.releaseRunner runnerId requirements =
      { s with runners := s.releasedRunners runnerId requirements } := by
  unfold releaseRunner releasedRunners
  cases s.runners[runnerId]? <;> rfl

theorem releasedRunners_get (requirements : Option SchedulingRequirements) (r : String) :
    (s.releasedRunners runnerId requirements)[r]? =
      if runnerId = r then (s.runners[r]?).map (·.release requirements) else s.runners[r]? := by
  unfold releasedRunners
  split
  · rename_i hnone
    split
    · rename_i heq
      rw [← heq, hnone]
      rfl
    · rfl
  · rename_i runner hsome
    rw [get_insert]
    split
    · rename_i heq
      rw [← heq, hsome]
      rfl
    · rfl

/-! ### `expire` -/

/-- The job a lease holds is requeued if `requeue` says so. -/
def requeued (leaseId : String) (requeue : QueuedJob → Bool) : BTreeMap String QueuedJob :=
  match s.leasedJobs[leaseId]? with
  | none => s.queue
  | some job => if requeue job then s.queue.insert job.id job else s.queue

theorem requeued_cases (requeue : QueuedJob → Bool) : s.requeued leaseId requeue = s.queue ∨
      ∃ job, s.leasedJobs[leaseId]? = some job ∧ s.requeued leaseId requeue = s.queue.insert job.id job := by
  unfold requeued
  split
  · exact Or.inl rfl
  · rename_i job hjob
    split
    · exact Or.inr ⟨job, hjob, rfl⟩
    · exact Or.inl rfl

/-- Whether `expire` puts the job of an expired lease back. -/
def expireRequeues (lease : Lease) (job : QueuedJob) : Bool :=
  job.retryableAfterRunnerLoss && !decide (lease.state = .cancelRequested)

theorem expireLease_eq : s.expireLease leaseId lease = { s with
        leases := s.leases.insert leaseId { lease with state := .expired }
        activeLeaseByJob := s.activeLeaseByJob.erase lease.jobId
        runningByTenant := if lease.state.running then decrement s.runningByTenant lease.tenantId
          else s.runningByTenant
        runners := if lease.state.running then s.releasedRunners lease.runnerId
            ((s.leasedJobs[leaseId]?).map QueuedJob.requirements)
          else s.runners
        leasedJobs := s.leasedJobs.erase leaseId
        queue := s.requeued leaseId (expireRequeues lease) } := by
  unfold expireLease requeued
  simp only [releaseRunner_eq]
  cases hjob : s.leasedJobs[leaseId]? with
  | none =>
    rw [erase_of_get_none hjob]
    cases lease.state.running <;> simp [hjob, releasedRunners]
  | some => cases lease.state.running <;> simp [hjob, releasedRunners, expireRequeues]

section expireLease

@[simp] theorem expireLease_leases :
    (s.expireLease leaseId lease).leases = s.leases.insert leaseId { lease with state := .expired } := by
  rw [expireLease_eq]

@[simp] theorem expireLease_leasedJobs : (s.expireLease leaseId lease).leasedJobs = s.leasedJobs.erase leaseId := by
  rw [expireLease_eq]

@[simp] theorem expireLease_queue :
    (s.expireLease leaseId lease).queue = s.requeued leaseId (expireRequeues lease) := by
  rw [expireLease_eq]

@[simp] theorem expireLease_runningByTenant : (s.expireLease leaseId lease).runningByTenant =
      if lease.state.running then decrement s.runningByTenant lease.tenantId else s.runningByTenant := by
  rw [expireLease_eq]

@[simp] theorem expireLease_runners : (s.expireLease leaseId lease).runners =
      if lease.state.running then s.releasedRunners lease.runnerId ((s.leasedJobs[leaseId]?).map QueuedJob.requirements)
      else s.runners := by
  rw [expireLease_eq]

end expireLease

/-! ### `decide_offer` -/

theorem returnOffer_eq (state : LeaseState) : s.returnOffer leaseId lease state = { s with
        leases := s.leases.insert leaseId { lease with state := state }
        activeLeaseByJob := s.activeLeaseByJob.erase lease.jobId
        leasedJobs := s.leasedJobs.erase leaseId
        queue := s.requeued leaseId fun _ => true } := by
  unfold returnOffer requeued
  cases hjob : s.leasedJobs[leaseId]? with
  | none =>
    rw [erase_of_get_none hjob]
    simp [hjob]
  | some => simp [hjob]

/-- The state after an accepted offer. -/
def accepted (leaseId : String) (lease : Lease) (runner : RunnerRecord) (job : QueuedJob) : Scheduler :=
  { s with
    leases := s.leases.insert leaseId { lease with state := .active }
    runningByTenant := s.runningByTenant.insert lease.tenantId (s.runningOf lease.tenantId + 1)
    runners := s.runners.insert lease.runnerId (runner.reserve job.requirements) }

theorem acceptOffer_eq {runner : RunnerRecord} {job : QueuedJob}
    (hrunner : s.runners[lease.runnerId]? = some runner) (hjob : s.leasedJobs[leaseId]? = some job) :
    s.acceptOffer leaseId lease.runnerId lease = (.ok .active, s.accepted leaseId lease runner job) := by
  unfold acceptOffer accepted
  simp [hrunner, hjob]

/-! ### `complete` -/

theorem completeLease_eq (resultDigest : ContentDigest) : s.completeLease leaseId runnerId lease resultDigest = { s with
        leases := s.leases.insert leaseId
          { lease with state := .completed, terminalResultDigest := some resultDigest }
        activeLeaseByJob := s.activeLeaseByJob.erase lease.jobId
        runningByTenant := decrement s.runningByTenant lease.tenantId
        leasedJobs := s.leasedJobs.erase leaseId
        runners := s.releasedRunners runnerId
          ((s.leasedJobs[leaseId]?).map QueuedJob.requirements) } := by
  unfold completeLease
  rw [releaseRunner_eq]
  rfl

/-! ### `offer_for_runner` -/

def newLease (job : QueuedJob) (runnerId : String) (generation nowUnixMs : U64) : Lease where
  id := leaseName s.nextLeaseId
  jobId := job.id
  tenantId := job.tenantId
  runnerId := runnerId
  fencingGeneration := generation
  installationFencingEpoch := s.installationFencingEpoch
  capsuleDigest := job.capsuleDigest
  issuedUnixMs := nowUnixMs
  acceptByUnixMs := Fixed.satAdd nowUnixMs defaultAcceptWindowMs
  expiresUnixMs := Fixed.satAdd nowUnixMs defaultLeaseDurationMs
  state := .offered
  terminalResultDigest := none

/-- The state after an offer issued a lease. -/
def issued (job : QueuedJob) (runnerId : String) (generation nextLeaseId nowUnixMs : U64) :
    Scheduler :=
  { s with
    queue := s.queue.erase job.id
    generationByJob := s.generationByJob.insert job.id generation
    nextLeaseId := nextLeaseId
    activeLeaseByJob := s.activeLeaseByJob.insert job.id (leaseName s.nextLeaseId)
    leasedJobs := s.leasedJobs.insert (leaseName s.nextLeaseId) job
    leases := s.leases.insert (leaseName s.nextLeaseId) (s.newLease job runnerId generation nowUnixMs) }

/-- The state after an overflow: the job is in no map any more. -/
def lost (job : QueuedJob) (generation : U64) : Scheduler :=
  { s with
    queue := s.queue.erase job.id
    generationByJob := s.generationByJob.insert job.id generation }

def generationOf (jobId : String) : U64 := (s.generationByJob[jobId]?).getD 0

/-- The counter whose overflow is reported is at its maximum. -/
def Exhausted (jobId : String) (e : SchedulerError) : Prop :=
  (e = .generationOverflow ∧ s.generationOf jobId = BitVec.allOnes 64) ∨
    (e = .leaseIdOverflow ∧ s.nextLeaseId = BitVec.allOnes 64)

theorem issueLease_cases {job : QueuedJob} (nowUnixMs : U64) (hjob : s.queue[job.id]? = some job) :
    (∃ e g, s.Exhausted job.id e ∧ s.generationOf job.id ≤ g ∧
      s.issueLease job.id runnerId nowUnixMs = (.error e, s.lost job g)) ∨
    ∃ g next : U64, g.toNat = (s.generationOf job.id).toNat + 1 ∧ next.toNat = s.nextLeaseId.toNat + 1 ∧
      s.issueLease job.id runnerId nowUnixMs =
        (.ok (s.newLease job runnerId g nowUnixMs), s.issued job runnerId g next nowUnixMs) := by
  simp only [issueLease, hjob, insert_insert]
  cases hg : checkedAdd ((s.generationByJob[job.id]?).getD 0) 1 with
  | none => exact Or.inl ⟨_, _, Or.inl ⟨rfl, eq_allOnes_of_checkedAdd hg⟩, BitVec.le_refl _, rfl⟩
  | some g =>
    have hval := checkedAdd_eq_some.mp hg
    cases hn : checkedAdd s.nextLeaseId 1 with
    | none =>
      refine Or.inl ⟨_, g, Or.inr ⟨rfl, eq_allOnes_of_checkedAdd hn⟩, ?_, rfl⟩
      rw [BitVec.le_def, generationOf]
      omega
    | some next => exact Or.inr ⟨g, next, hval, checkedAdd_eq_some.mp hn, rfl⟩

/-! ### `restore_fencing_epoch` -/

theorem requeueLoop_eq (ids : List String) :
    ∃ queue leasedJobs, s.requeueLoop ids = { s with queue := queue, leasedJobs := leasedJobs } := by
  induction ids generalizing s with
  | nil => exact ⟨s.queue, s.leasedJobs, rfl⟩
  | cons _ _ ih =>
    unfold requeueLoop
    split
    · exact ih s
    · obtain ⟨queue, leasedJobs, heq⟩ := ih _
      exact ⟨queue, leasedJobs, heq⟩

theorem requeueLoop_leasedJobs_get (ids : List String) (id : String) :
    (s.requeueLoop ids).leasedJobs[id]? = if id ∈ ids then none else s.leasedJobs[id]? := by
  induction ids generalizing s with
  | nil => simp [requeueLoop]
  | cons a _ ih =>
    unfold requeueLoop
    cases hjob : s.leasedJobs[a]? with
    | none =>
      simp only [ih, mem_cons]
      by_cases hid : id = a
      · subst hid
        simp [hjob]
      · simp [hid]
    | some =>
      simp only [ih, mem_cons, get_erase]
      by_cases hid : id = a
      · simp [hid]
      · simp [hid, Ne.symm hid]

/-- Where the queue of the loop gets its jobs from, when the leased jobs are distinct and not queued. -/
theorem requeueLoop_queue_get (ids : List String) (j : String) (job : QueuedJob)
    (hdistinct : ∀ (a b : String) (x y : QueuedJob), s.leasedJobs[a]? = some x →
      s.leasedJobs[b]? = some y → x.id = y.id → a = b)
    (hfree : ∀ (a : String) (x : QueuedJob), s.leasedJobs[a]? = some x → s.queue[x.id]? = none) :
    (s.requeueLoop ids).queue[j]? = some job ↔ s.queue[j]? = some job ∨
      ∃ a ∈ ids, s.leasedJobs[a]? = some job ∧ job.retryableAfterRunnerLoss ∧ job.id = j := by
  induction ids generalizing s with
  | nil => simp [requeueLoop]
  | cons a ids ih =>
    unfold requeueLoop
    cases hx : s.leasedJobs[a]? with
    | none => simp [ih s hdistinct hfree, hx]
    | some x =>
      have hrest : ∀ (b : String) (y : QueuedJob), (s.leasedJobs.erase a)[b]? = some y →
          s.leasedJobs[b]? = some y ∧ x.id ≠ y.id := by
        intro b y hy
        rw [get_erase] at hy
        split at hy
        · cases hy
        · rename_i hne
          exact ⟨hy, fun hid => hne (hdistinct a b x y hx hy hid)⟩
      simp only
      rw [ih]
      · simp only [mem_cons, exists_eq_or_imp, hx, Option.some.injEq]
        cases hretry : x.retryableAfterRunnerLoss with
        | false => grind
        | true => grind
      · intro b c y z hy hz
        exact hdistinct b c y z (hrest b y hy).1 (hrest c z hz).1
      · intro b y hy
        obtain ⟨hget, hne⟩ := hrest b y hy
        have hnone := hfree b y hget
        split
        · rw [get_insert, if_neg hne, hnone]
        · exact hnone

end Runtrue.Scheduling.Scheduler
