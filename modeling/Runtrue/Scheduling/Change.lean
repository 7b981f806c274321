import Runtrue.Scheduling.Consistent

/-!
# The single changes of the scheduler's state

`Does s a t`: the single changes of the state, with everything that holds when they are made. Each of them
keeps the maps of the scheduler consistent (`Does.consistent`). `Steps` shows that every operation is a
trace of these changes.
-/

namespace Runtrue.Scheduling

open Scheduler

inductive Action
  | register (runner : RunnerRecord)
  | status
  | quota
  | enqueue (job : QueuedJob)
  | issue (id : String) (lease : Lease) (job : QueuedJob)
  | lose (job : QueuedJob)
  | accept (id : String) (lease : Lease)
  | giveBack (id : String) (lease : Lease)
  | renew (id : String)
  | cancel (id : String) (lease : Lease)
  | finish (id : String) (lease : Lease)
  | expire (id : String) (lease : Lease) (job : Option QueuedJob)
  | restore

/-- The single changes of the state. -/
inductive Does (s : Scheduler) : Action → Scheduler → Prop
  | register {runner : RunnerRecord} (hnew : s.runners[runner.id]? = none) :
      Does s (.register runner) { s with runners := s.runners.insert runner.id runner }
  | status {runnerId : String} {runner : RunnerRecord} (hrunner : s.runners[runnerId]? = some runner)
      (status : RunnerStatus) :
      Does s .status { s with runners := s.runners.insert runnerId { runner with status := status } }
  | quota (tenantId : String) (quota : TenantQuota) :
      Does s .quota { s with quotas := s.quotas.insert tenantId quota }
  | enqueue {job : QueuedJob} (hqueue : s.queue[job.id]? = none)
      (hactive : s.activeLeaseByJob[job.id]? = none) :
      Does s (.enqueue job) { s with queue := s.queue.insert job.id job }
  | issue {job : QueuedJob} {runnerId : String} {runner : RunnerRecord} {g next : U64}
      (hqueued : s.queue[job.id]? = some job) (hrunner : s.runners[runnerId]? = some runner)
      (hfilter : s.hardFilters job runner) (hg : g.toNat = (s.generationOf job.id).toNat + 1)
      (hnext : next.toNat = s.nextLeaseId.toNat + 1) (now : U64) :
      Does s (.issue (leaseName s.nextLeaseId) (s.newLease job runnerId g now) job)
        (s.issued job runnerId g next now)
  | lose {job : QueuedJob} {g : U64} (hqueued : s.queue[job.id]? = some job)
      (hg : s.generationOf job.id ≤ g) : Does s (.lose job) (s.lost job g)
  | accept {id : String} {lease : Lease} {runner : RunnerRecord} {job : QueuedJob}
      (hgot : s.leases[id]? = some lease) (hoffered : lease.state = .offered)
      (hrunner : s.runners[lease.runnerId]? = some runner) (hjob : s.leasedJobs[id]? = some job) :
      Does s (.accept id lease) (s.accepted id lease runner job)
  | giveBack {id : String} {lease : Lease} {state : LeaseState} (hgot : s.leases[id]? = some lease)
      (hoffered : lease.state = .offered) (hended : ¬state.live) :
      Does s (.giveBack id lease) (s.returnOffer id lease state)
  | renew {id : String} {lease : Lease} {runner : RunnerRecord} (hgot : s.leases[id]? = some lease)
      (hrunning : lease.state.running) (hrunner : s.runners[lease.runnerId]? = some runner)
      (now expires : U64) :
      Does s (.renew id) { s with
        leases := s.leases.insert id { lease with expiresUnixMs := expires }
        runners := s.runners.insert lease.runnerId { runner with lastHeartbeatUnixMs := now } }
  | cancel {id : String} {lease : Lease} (hgot : s.leases[id]? = some lease)
      (hstate : lease.state = .offered ∨ lease.state = .active) :
      Does s (.cancel id lease) { s with
        leases := s.leases.insert id { lease with state := .cancelRequested } }
  | finish {id : String} {lease : Lease} (hgot : s.leases[id]? = some lease)
      (hrunning : lease.state.running) (resultDigest : ContentDigest) :
      Does s (.finish id lease) (s.completeLease id lease.runnerId lease resultDigest)
  | expire {id : String} {lease : Lease} (hgot : s.leases[id]? = some lease)
      (hlive : lease.state.live) :
      Does s (.expire id lease s.leasedJobs[id]?) (s.expireLease id lease)
  | restore {newEpoch : U64} (hepoch : ¬newEpoch ≤ s.installationFencingEpoch) :
      Does s .restore (s.restored newEpoch)

/-! ### Every change keeps the maps consistent -/

section
variable {s t : Scheduler} {a : Action} {id : String} {lease : Lease}

theorem Scheduler.insertRunner_get (s : Scheduler) (r : String) (runner' : RunnerRecord) :
    ∀ (r' : String) (x : RunnerRecord), s.runners[r']? = some x →
      ∃ x', (s.runners.insert r runner')[r']? = some x' := by
  intro _ x hx
  rw [BTreeMap.get_insert]
  split
  · exact ⟨runner', rfl⟩
  · exact ⟨x, hx⟩

theorem Scheduler.releasedRunners_grow (s : Scheduler) (r : String) (requirements : Option SchedulingRequirements) :
    ∀ (r' : String) (x : RunnerRecord), s.runners[r']? = some x →
      ∃ x', (s.releasedRunners r requirements)[r']? = some x' := by
  intro _ x hx
  rw [releasedRunners_get, hx]
  split
  · exact ⟨_, rfl⟩
  · exact ⟨x, rfl⟩

theorem Grows.of_runners (hnext : t.nextLeaseId = s.nextLeaseId) (hgen : t.generationByJob = s.generationByJob)
    (hepoch : t.installationFencingEpoch = s.installationFencingEpoch)
    (hrunners : ∀ (r : String) (x : RunnerRecord), s.runners[r]? = some x →
      ∃ x', t.runners[r]? = some x') : Grows s t := by
  refine ⟨?_, hrunners, ?_, ?_⟩
  · rw [hnext]
    exact BitVec.le_refl _
  · intro j g hg
    rw [hgen]
    exact ⟨g, hg, BitVec.le_refl _⟩
  · rw [hepoch]
    exact BitVec.le_refl _

theorem Scheduler.accepted_touches {runner : RunnerRecord} {job : QueuedJob}
    (hgot : s.leases[id]? = some lease) (hoffered : lease.state = .offered) :
    Touches s id lease { lease with state := .active } (s.accepted id lease runner job) where
  grows := Grows.of_runners rfl rfl rfl (s.insertRunner_get _ _)
  got := hgot
  live := by rw [hoffered]; rfl
  live' := rfl
  issue := rfl
  leases := rfl
  queue := rfl
  leasedJobs := rfl
  activeLeaseByJob := rfl

theorem Scheduler.live_of_running {state : LeaseState} (h : state.running) : state.live := by
  cases state <;> first | rfl | exact h

section
variable (hgot : s.leases[id]? = some lease)
include hgot

theorem Scheduler.returnOffer_closes {state : LeaseState} (hoffered : lease.state = .offered) (hended : ¬state.live) :
    Closes s id lease { lease with state := state } (s.returnOffer id lease state) := by
  rw [returnOffer_eq]
  refine ⟨Grows.of_runners rfl rfl rfl fun _ x hx => ⟨x, hx⟩, hgot, by rw [hoffered]; rfl, hended, rfl,
    rfl, ?_, rfl, rfl⟩
  exact s.requeued_cases id _

theorem Scheduler.completeLease_closes (hrunning : lease.state.running) (digest : ContentDigest) :
    Closes s id lease { lease with state := .completed, terminalResultDigest := some digest }
      (s.completeLease id lease.runnerId lease digest) := by
  rw [completeLease_eq]
  exact ⟨Grows.of_runners rfl rfl rfl (s.releasedRunners_grow _ _), hgot,
    live_of_running hrunning, Bool.false_ne_true, rfl, rfl, Or.inl rfl, rfl, rfl⟩

theorem Scheduler.expireLease_closes (hlive : lease.state.live) :
    Closes s id lease { lease with state := .expired } (s.expireLease id lease) := by
  rw [expireLease_eq]
  refine ⟨Grows.of_runners rfl rfl rfl ?_, hgot, hlive, Bool.false_ne_true, rfl, rfl, ?_, rfl, rfl⟩
  · intro r x hx
    dsimp only
    split
    · exact s.releasedRunners_grow _ _ r x hx
    · exact ⟨x, hx⟩
  · exact s.requeued_cases id _

theorem Scheduler.cancelled_touches (hstate : lease.state = .offered ∨ lease.state = .active) :
    Touches s id lease { lease with state := .cancelRequested }
      { s with leases := s.leases.insert id { lease with state := .cancelRequested } } where
  grows := Grows.of_runners rfl rfl rfl fun _ x hx => ⟨x, hx⟩
  got := hgot
  live := by rcases hstate with h | h <;> rw [h] <;> rfl
  live' := rfl
  issue := rfl
  leases := rfl
  queue := rfl
  leasedJobs := rfl
  activeLeaseByJob := rfl

theorem Scheduler.renewed_touches {runner : RunnerRecord} (hrunning : lease.state.running) (expires : U64) :
    Touches s id lease { lease with expiresUnixMs := expires } { s with
      leases := s.leases.insert id { lease with expiresUnixMs := expires }
      runners := s.runners.insert lease.runnerId runner } where
  grows := Grows.of_runners rfl rfl rfl (s.insertRunner_get _ _)
  got := hgot
  live := live_of_running hrunning
  live' := live_of_running hrunning
  issue := rfl
  leases := rfl
  queue := rfl
  leasedJobs := rfl
  activeLeaseByJob := rfl

end

theorem Does.consistent (hdoes : Does s a t) (hc : Consistent s) : Grows s t ∧ Consistent t := by
  cases hdoes with
  | register =>
    refine SamePlacement.keeps ⟨?_, rfl, rfl, rfl, rfl⟩ hc
    exact Grows.of_runners rfl rfl rfl (s.insertRunner_get _ _)
  | status =>
    refine SamePlacement.keeps ⟨?_, rfl, rfl, rfl, rfl⟩ hc
    exact Grows.of_runners rfl rfl rfl (s.insertRunner_get _ _)
  | quota =>
    refine SamePlacement.keeps ⟨?_, rfl, rfl, rfl, rfl⟩ hc
    exact Grows.of_runners rfl rfl rfl fun _ x hx => ⟨x, hx⟩
  | enqueue _ hactive => exact hc.enqueue hactive
  | issue hqueued hrunner _ hg hnext now => exact hc.issued hqueued hrunner hg hnext now
  | lose _ hg => exact hc.lost hg
  | accept hgot hoffered => exact (accepted_touches hgot hoffered).keeps hc
  | giveBack hgot hoffered hended => exact (returnOffer_closes hgot hoffered hended).keeps hc
  | renew hgot hrunning _ _ expires => exact (renewed_touches hgot hrunning expires).keeps hc
  | cancel hgot hstate => exact (cancelled_touches hgot hstate).keeps hc
  | finish hgot hrunning digest => exact (completeLease_closes hgot hrunning digest).keeps hc
  | expire hgot hlive => exact (expireLease_closes hgot hlive).keeps hc
  | restore hepoch => exact hc.restored hepoch

theorem consistent_trace {tr : List (Scheduler × Action)} (htrace : Run.Trace Does s tr t)
    (hc : Consistent s) : Consistent t := by
  induction htrace with
  | nil => exact hc
  | cons hdoes _ ih => exact ih (hdoes.consistent hc).2

end

end Runtrue.Scheduling
