import Runtrue.Scheduling.Fields
import Std.Data.String.ToNat

/-!
# The maps of the scheduler agree

`Consistent s`: the queue, the leases, the leased jobs, the index of live leases and the generations of a
scheduler describe one placement of every job. Whatever an operation does to a lease is one of two things:
it keeps the lease live and moves no job (`Touches`: accept, cancel, heartbeat), or it ends the lease and
takes its job out of the leased jobs (`Closes`: rejection, late decision, completion, expiry). Both keep
the maps consistent, and so do a new lease, a lost job and an epoch restore.
-/

namespace Runtrue.Scheduling

open BTreeMap Scheduler Option Std.ExtTreeMap BitVec Lease

def Lease.issue (lease : Lease) : Lease :=
  { lease with expiresUnixMs := 0, state := .offered, terminalResultDigest := none }

variable {lease lease' : Lease}

theorem Lease.issue_fields (h : lease'.issue = lease.issue) :
    lease'.id = lease.id ∧ lease'.jobId = lease.jobId ∧ lease'.tenantId = lease.tenantId ∧
      lease'.runnerId = lease.runnerId ∧ lease'.fencingGeneration = lease.fencingGeneration ∧
      lease'.installationFencingEpoch = lease.installationFencingEpoch := by
  simp only [Lease.issue, Lease.mk.injEq] at h
  obtain ⟨h1, h2, h3, h4, h5, h6, -⟩ := h
  exact ⟨h1, h2, h3, h4, h5, h6⟩

theorem leaseName_injective {m n : U64} (h : leaseName m = leaseName n) : m = n := by
  unfold leaseName at h
  exact eq_of_toNat_eq (Nat.repr_injective ((String.append_right_inj _).mp h))

/-- What holds of every lease ever issued, whatever its state. -/
structure LeaseRecorded (s : Scheduler) (id : String) (lease : Lease) : Prop where
  key : lease.id = id
  number : ∃ n : U64, id = leaseName n ∧ n.toNat < s.nextLeaseId.toNat
  runner : ∃ r, s.runners[lease.runnerId]? = some r
  generation : ∃ g, s.generationByJob[lease.jobId]? = some g ∧ lease.fencingGeneration ≤ g
  epoch : lease.installationFencingEpoch ≤ s.installationFencingEpoch

structure Consistent (s : Scheduler) : Prop where
  queueKey : ∀ (j : String) (job : QueuedJob), s.queue[j]? = some job → job.id = j
  queueFree : ∀ (j : String) (job : QueuedJob), s.queue[j]? = some job → s.activeLeaseByJob[j]? = none
  activeOfLive : ∀ (id : String) (lease : Lease), s.leases[id]? = some lease → lease.state.live →
    s.activeLeaseByJob[lease.jobId]? = some id
  liveOfActive : ∀ (j id : String), s.activeLeaseByJob[j]? = some id →
    ∃ lease, s.leases[id]? = some lease ∧ lease.state.live ∧ lease.jobId = j
  jobOfLive : ∀ (id : String) (lease : Lease), s.leases[id]? = some lease → lease.state.live →
    ∃ job, s.leasedJobs[id]? = some job ∧ job.id = lease.jobId ∧ job.tenantId = lease.tenantId
  liveOfJob : ∀ (id : String) (job : QueuedJob), s.leasedJobs[id]? = some job →
    ∃ lease, s.leases[id]? = some lease ∧ lease.state.live
  recorded : ∀ (id : String) (lease : Lease), s.leases[id]? = some lease → LeaseRecorded s id lease

theorem consistent_new (epoch : U64) : Consistent (new epoch) := by
  constructor <;> simp [new]

namespace Consistent

variable {s : Scheduler} {id : String} {lease : Lease} {job : QueuedJob}

section
variable (hc : Consistent s)
include hc

theorem jobId_of_leased (hlease : s.leases[id]? = some lease)
    (hjob : s.leasedJobs[id]? = some job) :
    lease.state.live ∧ job.id = lease.jobId ∧ job.tenantId = lease.tenantId := by
  obtain ⟨lease', hlease', hlive⟩ := hc.liveOfJob id job hjob
  obtain rfl : lease = lease' := by simpa [hlease] using hlease'
  obtain ⟨job', hjob', hsame⟩ := hc.jobOfLive id lease hlease hlive
  obtain rfl : job = job' := by simpa [hjob] using hjob'
  exact ⟨hlive, hsame⟩

theorem active_of_leased (hjob : s.leasedJobs[id]? = some job) :
    s.activeLeaseByJob[job.id]? = some id := by
  obtain ⟨lease, hlease, hlive⟩ := hc.liveOfJob id job hjob
  rw [(hc.jobId_of_leased hlease hjob).2.1]
  exact hc.activeOfLive id lease hlease hlive

theorem leased_distinct {a b : String} {x y : QueuedJob}
    (hx : s.leasedJobs[a]? = some x) (hy : s.leasedJobs[b]? = some y) (hid : x.id = y.id) : a = b := by
  have ha := hc.active_of_leased hx
  rw [hid, hc.active_of_leased hy] at ha
  exact (Option.some.inj ha).symm

theorem leased_not_queued (hjob : s.leasedJobs[id]? = some job) : s.queue[job.id]? = none := by
  by_contra hne
  obtain ⟨_, hqueued⟩ := ne_none_iff_exists'.mp hne
  have hfree := hc.queueFree _ _ hqueued
  rw [hc.active_of_leased hjob] at hfree
  cases hfree

theorem get_of_mem_queue (hmem : job ∈ s.queue.values) : s.queue[job.id]? = some job := by
  obtain ⟨j, hget⟩ := mem_values.mp hmem
  rw [hc.queueKey j job hget]
  exact hget

end

theorem fresh (hc : Consistent s) : s.leases[leaseName s.nextLeaseId]? = none := by
  by_contra hne
  obtain ⟨_, hlease⟩ := ne_none_iff_exists'.mp hne
  obtain ⟨_, hname, hlt⟩ := (hc.recorded _ _ hlease).number
  rw [leaseName_injective hname] at hlt
  exact lt_irrefl _ hlt

end Consistent

/-! ### What never shrinks -/

/-- Runners stay registered, and lease numbers, generations and the epoch never go back. -/
structure Grows (s s' : Scheduler) : Prop where
  nextLeaseId : s.nextLeaseId ≤ s'.nextLeaseId
  runners : ∀ (r : String) (runner : RunnerRecord), s.runners[r]? = some runner →
    ∃ runner', s'.runners[r]? = some runner'
  generation : ∀ (j : String) (g : U64), s.generationByJob[j]? = some g →
    ∃ g', s'.generationByJob[j]? = some g' ∧ g ≤ g'
  epoch : s.installationFencingEpoch ≤ s'.installationFencingEpoch

theorem Grows.refl (s : Scheduler) : Grows s s :=
  ⟨BitVec.le_refl _, fun _ runner h => ⟨runner, h⟩, fun _ g h => ⟨g, h, BitVec.le_refl _⟩,
    BitVec.le_refl _⟩

theorem Grows.trans {s t u : Scheduler} (h : Grows s t) (h' : Grows t u) : Grows s u where
  nextLeaseId := BitVec.le_trans h.nextLeaseId h'.nextLeaseId
  runners r runner hr := by
    obtain ⟨runner', hr'⟩ := h.runners r runner hr
    exact h'.runners r runner' hr'
  generation j g hg := by
    obtain ⟨g', hg', hle⟩ := h.generation j g hg
    obtain ⟨g'', hg'', hle'⟩ := h'.generation j g' hg'
    exact ⟨g'', hg'', BitVec.le_trans hle hle'⟩
  epoch := BitVec.le_trans h.epoch h'.epoch

variable {s s' : Scheduler} {id : String}

theorem LeaseRecorded.mono (hr : LeaseRecorded s id lease) (hgrows : Grows s s')
    (hissue : lease'.issue = lease.issue) : LeaseRecorded s' id lease' := by
  obtain ⟨hid, hjob, -, hrunner, hgen, hepoch⟩ := issue_fields hissue
  refine ⟨hid.trans hr.key, ?_, ?_, ?_, ?_⟩
  · obtain ⟨n, hname, hlt⟩ := hr.number
    exact ⟨n, hname, lt_of_lt_of_le hlt hgrows.nextLeaseId⟩
  · obtain ⟨r, hget⟩ := hr.runner
    rw [hrunner]
    exact hgrows.runners _ r hget
  · obtain ⟨g, hget, hle⟩ := hr.generation
    obtain ⟨g', hget', hle'⟩ := hgrows.generation _ g hget
    rw [hjob, hgen]
    exact ⟨g', hget', BitVec.le_trans hle hle'⟩
  · rw [hepoch]
    exact BitVec.le_trans hr.epoch hgrows.epoch

/-! ### Changes of one lease -/

/-- No job and no lease changes. -/
structure SamePlacement (s s' : Scheduler) : Prop where
  grows : Grows s s'
  queue : s'.queue = s.queue
  leases : s'.leases = s.leases
  leasedJobs : s'.leasedJobs = s.leasedJobs
  activeLeaseByJob : s'.activeLeaseByJob = s.activeLeaseByJob

/-- A live lease is written back live; jobs stay where they are. -/
structure Touches (s : Scheduler) (id : String) (lease lease' : Lease) (s' : Scheduler) : Prop where
  grows : Grows s s'
  got : s.leases[id]? = some lease
  live : lease.state.live
  live' : lease'.state.live
  issue : lease'.issue = lease.issue
  leases : s'.leases = s.leases.insert id lease'
  queue : s'.queue = s.queue
  leasedJobs : s'.leasedJobs = s.leasedJobs
  activeLeaseByJob : s'.activeLeaseByJob = s.activeLeaseByJob

/-- A live lease ends in the state of `lease'`; its job leaves the leased jobs, and the queue is the old
one or the old one with that job. -/
structure Closes (s : Scheduler) (id : String) (lease lease' : Lease) (s' : Scheduler) : Prop where
  grows : Grows s s'
  got : s.leases[id]? = some lease
  live : lease.state.live
  ended : ¬lease'.state.live
  issue : lease'.issue = lease.issue
  leases : s'.leases = s.leases.insert id lease'
  queue : s'.queue = s.queue ∨
    ∃ job, s.leasedJobs[id]? = some job ∧ s'.queue = s.queue.insert job.id job
  leasedJobs : s'.leasedJobs = s.leasedJobs.erase id
  activeLeaseByJob : s'.activeLeaseByJob = s.activeLeaseByJob.erase lease.jobId

section
variable {s s' : Scheduler} {id : String} {lease lease' : Lease}

theorem SamePlacement.consistent (hs : SamePlacement s s') (hc : Consistent s) : Consistent s' where
  queueKey := by rw [hs.queue]; exact hc.queueKey
  queueFree := by rw [hs.queue, hs.activeLeaseByJob]; exact hc.queueFree
  activeOfLive := by rw [hs.leases, hs.activeLeaseByJob]; exact hc.activeOfLive
  liveOfActive := by rw [hs.leases, hs.activeLeaseByJob]; exact hc.liveOfActive
  jobOfLive := by rw [hs.leases, hs.leasedJobs]; exact hc.jobOfLive
  liveOfJob := by rw [hs.leases, hs.leasedJobs]; exact hc.liveOfJob
  recorded a l hl := by
    rw [hs.leases] at hl
    exact (hc.recorded a l hl).mono hs.grows rfl

theorem recorded_insert (hc : Consistent s) (hgrows : Grows s s') (hgot : s.leases[id]? = some lease)
    (hissue : lease'.issue = lease.issue) (hleases : s'.leases = s.leases.insert id lease') :
    ∀ (a : String) (l : Lease), s'.leases[a]? = some l → LeaseRecorded s' a l := by
  intro a l hl
  rw [hleases, get_insert] at hl
  split at hl
  · rename_i heq
    obtain rfl : lease' = l := by simpa using hl
    exact heq ▸ (hc.recorded id lease hgot).mono hgrows hissue
  · exact (hc.recorded a l hl).mono hgrows rfl

theorem Touches.consistent (ht : Touches s id lease lease' s') (hc : Consistent s) : Consistent s' := by
  have hfields := issue_fields ht.issue
  refine ⟨?_, ?_, ?_, ?_, ?_, ?_, recorded_insert hc ht.grows ht.got ht.issue ht.leases⟩
  · rw [ht.queue]; exact hc.queueKey
  · rw [ht.queue, ht.activeLeaseByJob]; exact hc.queueFree
  · intro a l hl hlive
    rw [ht.leases, get_insert] at hl
    rw [ht.activeLeaseByJob]
    split at hl
    · rename_i heq
      obtain rfl : lease' = l := by simpa using hl
      rw [hfields.2.1, ← heq]
      exact hc.activeOfLive id lease ht.got ht.live
    · exact hc.activeOfLive a l hl hlive
  · intro j a ha
    rw [ht.activeLeaseByJob] at ha
    obtain ⟨l, hl, hlive, hj⟩ := hc.liveOfActive j a ha
    rw [ht.leases, get_insert]
    split
    · rename_i heq
      obtain rfl : lease = l := by simpa [heq, hl, eq_comm] using ht.got
      exact ⟨lease', rfl, ht.live', hfields.2.1.trans hj⟩
    · exact ⟨l, hl, hlive, hj⟩
  · intro a l hl hlive
    rw [ht.leases, get_insert] at hl
    rw [ht.leasedJobs]
    split at hl
    · rename_i heq
      obtain rfl : lease' = l := by simpa using hl
      rw [hfields.2.1, hfields.2.2.1, ← heq]
      exact hc.jobOfLive id lease ht.got ht.live
    · exact hc.jobOfLive a l hl hlive
  · intro a job ha
    rw [ht.leasedJobs] at ha
    obtain ⟨l, hl, hlive⟩ := hc.liveOfJob a job ha
    rw [ht.leases, get_insert]
    split
    · exact ⟨lease', rfl, ht.live'⟩
    · exact ⟨l, hl, hlive⟩

section
variable (hcl : Closes s id lease lease' s')
include hcl

theorem Closes.get_self : s'.leases[id]? = some lease' := by
  rw [hcl.leases]
  exact get_insert_self _ _ _

theorem Closes.get_other (hc : Consistent s) {a : String}
    {l : Lease} (hl : s'.leases[a]? = some l) (hlive : l.state.live) :
    a ≠ id ∧ s.leases[a]? = some l ∧ l.jobId ≠ lease.jobId := by
  rw [hcl.leases, get_insert] at hl
  split at hl
  · obtain rfl : lease' = l := by simpa using hl
    exact absurd hlive hcl.ended
  · rename_i hne
    refine ⟨Ne.symm hne, hl, fun hjob => hne ?_⟩
    have ha := hc.activeOfLive a l hl hlive
    rw [hjob, hc.activeOfLive id lease hcl.got hcl.live] at ha
    exact Option.some.inj ha

theorem Closes.get_queue (hc : Consistent s) {j : String}
    {job : QueuedJob} (hj : s'.queue[j]? = some job) : s.queue[j]? = some job ∨ (j = lease.jobId ∧ job.id = j) := by
  rcases hcl.queue with hq | ⟨job', hjob', hq⟩
  · exact Or.inl (hq ▸ hj)
  · rw [hq, get_insert] at hj
    split at hj
    · rename_i heq
      obtain rfl : job' = job := by simpa using hj
      exact Or.inr ⟨heq ▸ (hc.jobId_of_leased hcl.got hjob').2.1, heq⟩
    · exact Or.inl hj

theorem Closes.consistent (hc : Consistent s) : Consistent s' := by
  refine ⟨?_, ?_, ?_, ?_, ?_, ?_, recorded_insert hc hcl.grows hcl.got hcl.issue hcl.leases⟩
  · intro j job hj
    rcases hcl.get_queue hc hj with hold | ⟨-, hid⟩
    · exact hc.queueKey j job hold
    · exact hid
  · intro j job hj
    rw [hcl.activeLeaseByJob, get_erase]
    rcases hcl.get_queue hc hj with hold | ⟨hid, -⟩
    · rw [hc.queueFree j job hold, ite_self]
    · rw [if_pos hid.symm]
  · intro a l hl hlive
    obtain ⟨-, hold, hjob⟩ := hcl.get_other hc hl hlive
    rw [hcl.activeLeaseByJob, get_erase, if_neg (Ne.symm hjob)]
    exact hc.activeOfLive a l hold hlive
  · intro j a ha
    rw [hcl.activeLeaseByJob, get_erase] at ha
    split at ha
    · cases ha
    · rename_i hne
      obtain ⟨l, hl, hlive, hj⟩ := hc.liveOfActive j a ha
      refine ⟨l, ?_, hlive, hj⟩
      rw [hcl.leases, get_insert, if_neg, hl]
      rintro rfl
      rw [hcl.got] at hl
      exact hne ((congrArg jobId (Option.some.inj hl)).trans hj)
  · intro a l hl hlive
    obtain ⟨hne, hold, -⟩ := hcl.get_other hc hl hlive
    rw [hcl.leasedJobs, get_erase, if_neg (Ne.symm hne)]
    exact hc.jobOfLive a l hold hlive
  · intro a job ha
    rw [hcl.leasedJobs, get_erase] at ha
    split at ha
    · cases ha
    · rename_i hne
      rw [hcl.leases, get_insert, if_neg hne]
      exact hc.liveOfJob a job ha

end

end

/-! ### The three shapes together -/

theorem SamePlacement.keeps (hs : SamePlacement s s') (hc : Consistent s) :
    Grows s s' ∧ Consistent s' := ⟨hs.grows, hs.consistent hc⟩

theorem Touches.keeps (ht : Touches s id lease lease' s') (hc : Consistent s) : Grows s s' ∧ Consistent s' :=
  ⟨ht.grows, ht.consistent hc⟩

theorem Closes.keeps (hcl : Closes s id lease lease' s') (hc : Consistent s) : Grows s s' ∧ Consistent s' :=
  ⟨hcl.grows, hcl.consistent hc⟩

/-! ### New jobs, new leases, lost jobs and epoch restores -/

section
variable {s : Scheduler} {job : QueuedJob}

theorem Consistent.enqueue (hc : Consistent s) (hactive : s.activeLeaseByJob[job.id]? = none) :
    Grows s { s with queue := s.queue.insert job.id job } ∧
      Consistent { s with queue := s.queue.insert job.id job } := by
  have hgrows : Grows s { s with queue := s.queue.insert job.id job } :=
    ⟨BitVec.le_refl _, fun _ r hr => ⟨r, hr⟩, fun _ g hg => ⟨g, hg, BitVec.le_refl _⟩, BitVec.le_refl _⟩
  refine ⟨hgrows, ?_, ?_, hc.activeOfLive, hc.liveOfActive, hc.jobOfLive, hc.liveOfJob,
    fun a l hl => (hc.recorded a l hl).mono hgrows rfl⟩
  · intro j x hx
    simp only [get_insert] at hx
    split at hx
    · rename_i heq
      cases hx
      exact heq
    · exact hc.queueKey j x hx
  · intro j x hx
    simp only [get_insert] at hx
    split at hx
    · rename_i heq
      exact heq ▸ hactive
    · exact hc.queueFree j x hx

variable {g : U64}

theorem Scheduler.insertGeneration_grows (hg : s.generationOf job.id ≤ g) :
    ∀ (j : String) (x : U64), s.generationByJob[j]? = some x →
      ∃ x', (s.generationByJob.insert job.id g)[j]? = some x' ∧ x ≤ x' := by
  intro j x hx
  rw [get_insert]
  split
  · rename_i heq
    rw [generationOf, heq, hx] at hg
    exact ⟨g, rfl, hg⟩
  · exact ⟨x, hx, BitVec.le_refl _⟩

theorem Consistent.issued (hc : Consistent s) (hqueued : s.queue[job.id]? = some job)
    {runnerId : String} {runner : RunnerRecord} (hrunner : s.runners[runnerId]? = some runner)
    {g next : U64} (hg : g.toNat = (s.generationOf job.id).toNat + 1)
    (hnext : next.toNat = s.nextLeaseId.toNat + 1) (now : U64) :
    Grows s (s.issued job runnerId g next now) ∧ Consistent (s.issued job runnerId g next now) := by
  have hfree := hc.queueFree _ _ hqueued
  have hfresh := hc.fresh
  have hnojob : s.leasedJobs[leaseName s.nextLeaseId]? = none := by
    by_contra hne
    obtain ⟨x, hx⟩ := ne_none_iff_exists'.mp hne
    obtain ⟨l, hl, -⟩ := hc.liveOfJob _ x hx
    rw [hfresh] at hl
    cases hl
  have hgrows : Grows s (s.issued job runnerId g next now) := by
    refine ⟨?_, fun _ r hr => ⟨r, hr⟩, insertGeneration_grows ?_, BitVec.le_refl _⟩
    · show s.nextLeaseId ≤ next
      rw [le_def]
      omega
    · rw [le_def]
      omega
  refine ⟨hgrows, ?_, ?_, ?_, ?_, ?_, ?_, ?_⟩
  · intro j x hx
    simp only [Scheduler.issued, get_erase] at hx
    split at hx
    · cases hx
    · exact hc.queueKey j x hx
  · intro j x hx
    simp only [Scheduler.issued, get_erase, get_insert] at hx ⊢
    split at hx
    · cases hx
    · rename_i hne
      rw [if_neg hne]
      exact hc.queueFree j x hx
  · intro a l hl hlive
    simp only [Scheduler.issued, get_insert] at hl ⊢
    split at hl
    · rename_i heq
      cases hl
      rw [← heq]
      exact if_pos rfl
    · have hold := hc.activeOfLive a l hl hlive
      rw [if_neg, hold]
      intro heq
      rw [← heq, hfree] at hold
      cases hold
  · intro j a ha
    simp only [Scheduler.issued, get_insert] at ha ⊢
    split at ha
    · rename_i heq
      rw [if_pos (Option.some.inj ha)]
      exact ⟨_, rfl, rfl, heq⟩
    · obtain ⟨l, hl, hlive, hj⟩ := hc.liveOfActive j a ha
      rw [if_neg (by rintro rfl; rw [hfresh] at hl; cases hl)]
      exact ⟨l, hl, hlive, hj⟩
  · intro a l hl hlive
    simp only [Scheduler.issued, get_insert] at hl ⊢
    split at hl
    · rename_i heq
      cases hl
      exact ⟨job, if_pos heq, rfl, rfl⟩
    · rename_i hne
      rw [if_neg hne]
      exact hc.jobOfLive a l hl hlive
  · intro a x hx
    simp only [Scheduler.issued, get_insert] at hx ⊢
    split at hx
    · rename_i heq
      exact ⟨_, if_pos heq, rfl⟩
    · rename_i hne
      rw [if_neg hne]
      exact hc.liveOfJob a x hx
  · intro a l hl
    have hl' := hl
    simp only [Scheduler.issued, get_insert] at hl'
    split at hl'
    · rename_i heq
      cases hl'
      refine ⟨heq, ⟨s.nextLeaseId, heq.symm, ?_⟩, ⟨runner, hrunner⟩, ⟨g, ?_, BitVec.le_refl _⟩,
        BitVec.le_refl _⟩
      · show s.nextLeaseId.toNat < next.toNat
        omega
      · simp [Scheduler.issued, newLease]
    · exact (hc.recorded a l hl').mono hgrows rfl

theorem Consistent.lost (hc : Consistent s) (hg : s.generationOf job.id ≤ g) :
    Grows s (s.lost job g) ∧ Consistent (s.lost job g) := by
  have hgrows : Grows s (s.lost job g) :=
    ⟨BitVec.le_refl _, fun _ r hr => ⟨r, hr⟩, insertGeneration_grows hg, BitVec.le_refl _⟩
  have hqueue : ∀ (j : String) (x : QueuedJob), (s.lost job g).queue[j]? = some x →
      s.queue[j]? = some x := by
    intro j x hx
    simp only [Scheduler.lost, get_erase] at hx
    split at hx
    · cases hx
    · exact hx
  exact ⟨hgrows, fun j x hx => hc.queueKey j x (hqueue j x hx),
    fun j x hx => hc.queueFree j x (hqueue j x hx), hc.activeOfLive, hc.liveOfActive, hc.jobOfLive,
    hc.liveOfJob, fun a l hl => (hc.recorded a l hl).mono hgrows rfl⟩

theorem Scheduler.mem_liveLeases {id : String} :
    id ∈ s.liveLeases ↔ ∃ lease, s.leases[id]? = some lease ∧ lease.state.live := by
  simp only [liveLeases, List.mem_filterMap, Prod.exists, BTreeMap.mem_toList]
  constructor
  · rintro ⟨_, l, hl, hsome⟩
    split at hsome
    · cases hsome
      exact ⟨l, hl, by assumption⟩
    · cases hsome
  · rintro ⟨l, hl, hlive⟩
    exact ⟨id, l, hl, if_pos hlive⟩

/-- The state after a successful epoch restore. -/
def Scheduler.restored (s : Scheduler) (newEpoch : U64) : Scheduler :=
  (s.fenceAll newEpoch).requeueLoop s.liveLeases

theorem Scheduler.restored_fields (s : Scheduler) (newEpoch : U64) :
    (s.restored newEpoch).leases = (s.fenceAll newEpoch).leases ∧ (s.restored newEpoch).activeLeaseByJob = ∅ ∧
      (s.restored newEpoch).runningByTenant = ∅ ∧ (s.restored newEpoch).runners = (s.fenceAll newEpoch).runners ∧
      (s.restored newEpoch).generationByJob = s.generationByJob ∧ (s.restored newEpoch).nextLeaseId = s.nextLeaseId ∧
      (s.restored newEpoch).installationFencingEpoch = newEpoch := by
  obtain ⟨_, _, heq⟩ := (s.fenceAll newEpoch).requeueLoop_eq s.liveLeases
  rw [Scheduler.restored, heq]
  exact ⟨rfl, rfl, rfl, rfl, rfl, rfl, rfl⟩

theorem Scheduler.restored_get_lease (s : Scheduler) (newEpoch : U64) (id : String) :
    (s.restored newEpoch).leases[id]? = (s.leases[id]?).map fun lease =>
      if lease.state.live then { lease with state := .expired } else lease := by
  rw [(s.restored_fields newEpoch).1, fenceAll, getElem?_map]

theorem Scheduler.restored_not_live {newEpoch : U64} {id : String} {lease : Lease}
    (hl : (s.restored newEpoch).leases[id]? = some lease) : ¬lease.state.live := by
  rw [restored_get_lease, map_eq_some_iff] at hl
  obtain ⟨_, -, rfl⟩ := hl
  split
  · exact Bool.false_ne_true
  · assumption

theorem Consistent.restored_leasedJobs (hc : Consistent s) (newEpoch : U64) (id : String) :
    (s.restored newEpoch).leasedJobs[id]? = none := by
  rw [Scheduler.restored, requeueLoop_leasedJobs_get]
  split
  · rfl
  · rename_i hnot
    by_contra hne
    obtain ⟨job, hjob⟩ := ne_none_iff_exists'.mp hne
    exact hnot (mem_liveLeases.mpr (hc.liveOfJob id job hjob))

theorem Consistent.restored_queue (hc : Consistent s) (newEpoch : U64) (j : String) (job : QueuedJob) :
    (s.restored newEpoch).queue[j]? = some job ↔ s.queue[j]? = some job ∨
      ∃ id : String, s.leasedJobs[id]? = some job ∧ job.retryableAfterRunnerLoss ∧ job.id = j := by
  rw [Scheduler.restored, requeueLoop_queue_get]
  · refine or_congr_right ⟨?_, ?_⟩
    · rintro ⟨id, -, hjob, hrest⟩
      exact ⟨id, hjob, hrest⟩
    · rintro ⟨id, hjob, hrest⟩
      exact ⟨id, mem_liveLeases.mpr (hc.liveOfJob id job hjob), hjob, hrest⟩
  · intro a b x y hx hy hid
    exact hc.leased_distinct hx hy hid
  · intro a x hx
    exact hc.leased_not_queued hx

theorem Consistent.restored (hc : Consistent s) {newEpoch : U64} (hepoch : ¬newEpoch ≤ s.installationFencingEpoch) :
    Grows s (s.restored newEpoch) ∧ Consistent (s.restored newEpoch) := by
  obtain ⟨-, hactive, -, hrunners, hgen, hnext, hnew⟩ := s.restored_fields newEpoch
  have hgrows : Grows s (s.restored newEpoch) := by
    refine ⟨by rw [hnext]; exact BitVec.le_refl _, ?_, ?_, ?_⟩
    · intro r _ hr
      rw [hrunners]
      simp [fenceAll, hr]
    · intro j g hg
      rw [hgen]
      exact ⟨g, hg, BitVec.le_refl _⟩
    · rw [hnew]
      rw [le_def] at hepoch ⊢
      omega
  refine ⟨hgrows, ?_, ?_, ?_, ?_, ?_, ?_, ?_⟩
  · intro j job hj
    rcases (hc.restored_queue newEpoch j job).mp hj with hold | ⟨-, -, -, hid⟩
    · exact hc.queueKey j job hold
    · exact hid
  · intro j job _
    rw [hactive, getElem?_empty]
  · intro a l hl hlive
    exact absurd hlive (restored_not_live hl)
  · intro j a ha
    rw [hactive, getElem?_empty] at ha
    cases ha
  · intro a l hl hlive
    exact absurd hlive (restored_not_live hl)
  · intro a _ ha
    rw [hc.restored_leasedJobs] at ha
    cases ha
  · intro a l hl
    rw [restored_get_lease, map_eq_some_iff] at hl
    obtain ⟨l', hl', rfl⟩ := hl
    refine (hc.recorded a l' hl').mono hgrows ?_
    split <;> rfl

end

end Runtrue.Scheduling
