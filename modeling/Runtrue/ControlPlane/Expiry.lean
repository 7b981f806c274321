import Runtrue.ControlPlane.Conclusion

/-!
# Expiry and maintenance as changes

A lease that closes takes its job along (`Change.close`). Offers that are not accepted and leases whose
deadline has passed close so, and the maintenance of the scheduler is a loop of such expiries followed by
changes of runners.
-/

namespace Runtrue.ControlPlane

open Fallible List Change Lease Prod
open Option (mem_unique)
open Scheduling (LeaseState)

variable {E : Type} {o : Outside E} {s t u : Store E} {N : Prop}

/-! ### The functions the calls share -/

variable {now : Nat} {jobId : String} {next : JobState}

theorem Store.transitionJob_eq_ok (h : s.transitionJob jobId next now = .ok t) :
    ∃ job : JobRecord, s.jobs[jobId]? = some job ∧
      ((job.status = next ∧ t = s) ∨ (job.status.canTransitionTo next = true ∧
        ∃ completed, t = s.setJob jobId { job with status := next, completedUnixMs := completed })) := by
  simp only [transitionJob, bind_eq_ok, Store.job, okOr_eq_ok] at h
  obtain ⟨job, hjob, h⟩ := h
  refine ⟨job, hjob, ?_⟩
  split at h
  · rename_i hsame
    exact .inl ⟨hsame, (pure_eq_ok.mp h).symm⟩
  · simp only [bind_eq_ok, exists_unit, rejectIf_eq_ok, pure_eq_ok, Bool.not_eq_false] at h
    obtain ⟨hcan, _, -, rfl⟩ := h
    exact .inr ⟨hcan, _, rfl⟩

theorem Store.transitionJob_of_ne {job : JobRecord} (h : s.transitionJob jobId next now = .ok t)
    (hjob : s.jobs[jobId]? = some job) (hne : job.status ≠ next) :
    ∃ completed, t = s.setJob jobId { job with status := next, completedUnixMs := completed } := by
  obtain ⟨job', hjob', hcase⟩ := transitionJob_eq_ok h
  obtain rfl : job = job' := mem_unique hjob hjob'
  rcases hcase with ⟨hsame, -⟩ | ⟨-, hmoved⟩
  · exact absurd hsame hne
  · exact hmoved

variable {lease : Lease}

theorem Store.validateLeaseFence_eq_ok {leaseId runnerId : String} {generation epoch : Nat}
    (h : s.validateLeaseFence leaseId runnerId generation epoch = .ok lease) :
    s.leases[leaseId]? = some lease ∧ lease.runnerId = runnerId ∧ lease.fencingGeneration = generation ∧
      ∃ job : JobRecord, s.jobs[lease.jobId]? = some job ∧ lease.fencingGeneration = job.lastGeneration := by
  simp only [validateLeaseFence, bind_eq_ok, exists_unit, rejectIf_eq_ok, okOr_eq_ok, ne_eq, not_not, pure_eq_ok,
    Store.lease] at h
  obtain ⟨-, _, hlease, hrunner, hgeneration, job, hjob, hlast, -, rfl⟩ := h
  exact ⟨hlease, hrunner, hgeneration, job, hjob, hgeneration.trans hlast⟩

/-! ### A lease closes -/

section
variable {leaseId : String} {lease lease' : Lease} {job : JobRecord} {next : JobState} {now : Nat}

theorem Lease.isOpen_of_offered (h : lease.state = .offered) : lease.isOpen = true := by
  rw [isOpen, h]

theorem Placed.job_of_offered (hp : Placed s) (hlease : s.leases[leaseId]? = some lease)
    (hoffered : lease.state = .offered) :
    ∃ job : JobRecord, s.jobs[lease.jobId]? = some job ∧ job.status = .leased := by
  obtain ⟨job, hjob, -, hleased, -⟩ := hp.open_held hlease (isOpen_of_offered hoffered)
  exact ⟨job, hjob, hleased.mp hoffered⟩

theorem Change.closedLease (hlease : s.leases[leaseId]? = some lease) (hclosed : lease.isOpen = false)
    (hfence : lease.SameFence lease') (hclosed' : lease'.isOpen = false) : Change N s (s.setLease leaseId lease') := by
  have hnot : ∀ {lease : Lease}, lease.isOpen = false → lease.state ≠ .offered := by
    intro lease h h'
    rw [Lease.isOpen, h'] at h
    cases h
  exact .lease hlease hfence (hclosed'.trans hclosed.symm)
    ⟨fun h => absurd h (hnot hclosed'), fun h => absurd h (hnot hclosed)⟩

theorem Change.close {completed : Option Nat} (hlease : s.leases[leaseId]? = some lease) (hopen : lease.isOpen = true)
    (hfence : lease.SameFence lease') (hclosed : lease'.isOpen = false) (hjob : s.jobs[lease.jobId]? = some job)
    (hnext : next.isHeld = false) : Change N s ((s.setLease leaseId lease').setJob lease.jobId
      { job with status := next, completedUnixMs := completed }) := by
  refine .move hlease hopen hfence hjob (hnext.trans hclosed.symm) fun hopen' => ?_
  rw [hclosed] at hopen'
  cases hopen'

theorem Store.expireUnacceptedOffer_leads (hp : Placed s) (hlease : s.leases[leaseId]? = some lease)
    (h : s.expireUnacceptedOffer o leaseId lease now = .ok t) :
    Leads N s t ∧ t.leases = s.leases.insert leaseId { lease with state := .expired } := by
  simp only [expireUnacceptedOffer, bind_eq_ok, exists_unit, rejectIf_eq_ok, ne_eq, not_not] at h
  obtain ⟨hoffered, _, hsend, job', hjob', h⟩ := h
  obtain ⟨outside, rfl⟩ := send_eq_ok hsend
  obtain ⟨job, hjob, hleased⟩ := hp.job_of_offered hlease hoffered
  obtain rfl : job = job' := mem_unique hjob (okOr_eq_ok.mp hjob')
  rw [if_pos hleased] at h
  obtain ⟨_, rfl⟩ := transitionJob_of_ne h hjob (by rw [hleased]; exact JobState.noConfusion)
  have hframe := Frame.outside s outside
  refine ⟨hframe.leads.trans (leads ?_), rfl⟩
  exact .close hlease (isOpen_of_offered hoffered) ⟨rfl, rfl, rfl, rfl, le_rfl⟩ rfl hjob rfl

theorem Store.expiredJobState_eq_some {status preferred next : JobState}
    (h : expiredJobState status preferred = some next) :
    status.canTransitionTo next = true ∧ (next = preferred ∨ next = .lost) := by
  unfold expiredJobState at h
  split at h
  · rename_i hcan
    cases h
    exact ⟨hcan, .inl rfl⟩
  · split at h
    · rename_i hcan
      cases h
      exact ⟨hcan, .inr rfl⟩
    · cases h

theorem Store.expiredJobState_of_isHeld {status preferred : JobState} (hheld : status.isHeld = true) :
    expiredJobState status preferred ≠ none := by
  have hlost : status.canTransitionTo .lost = true := by
    revert hheld
    cases status <;> decide
  unfold expiredJobState
  rw [if_pos hlost]
  split <;> exact Option.some_ne_none _

variable {preferred : JobState}

theorem Store.expireLeaseWithState_eq_ok (h : s.expireLeaseWithState o leaseId lease preferred now = .ok t) :
    ∃ (outside : E) (job : JobRecord), s.jobs[lease.jobId]? = some job ∧ ((expiredJobState job.status preferred = none ∧
          t = { s with outside }.setLease leaseId { lease with state := .expired }) ∨
        ∃ (next : JobState) (completed : Option Nat), expiredJobState job.status preferred = some next ∧
          t = ({ s with outside }.setLease leaseId { lease with state := .expired }).setJob lease.jobId
            { job with status := next, completedUnixMs := completed }) := by
  simp only [expireLeaseWithState, bind_eq_ok, Store.job, okOr_eq_ok] at h
  obtain ⟨_, hsend, job, hjob, h⟩ := h
  obtain ⟨outside, rfl⟩ := send_eq_ok hsend
  refine ⟨outside, job, hjob, ?_⟩
  split at h
  · rename_i next hnext
    have hne : job.status ≠ next := by
      rintro rfl
      have hcan := (expiredJobState_eq_some hnext).1
      revert hcan
      cases job.status <;> exact Bool.noConfusion
    obtain ⟨completed, rfl⟩ := transitionJob_of_ne h hjob hne
    exact .inr ⟨next, completed, hnext, rfl⟩
  · rename_i hnone
    exact .inl ⟨hnone, (pure_eq_ok.mp h).symm⟩

theorem Store.expireLeaseWithState_leads (hp : Placed s) (hlease : s.leases[leaseId]? = some lease)
    (hjob : s.jobs[lease.jobId]? = some job) (hgeneration : lease.fencingGeneration = job.lastGeneration)
    (hpreferred : preferred.isHeld = false ∧ preferred ≠ .queued ∧ preferred ≠ .created)
    (h : s.expireLeaseWithState o leaseId lease preferred now = .ok t) :
    Leads N s t ∧ t.leases = s.leases.insert leaseId { lease with state := .expired } := by
  obtain ⟨outside, job', hjob', hcase⟩ := expireLeaseWithState_eq_ok h
  obtain rfl : job = job' := mem_unique hjob hjob'
  have hframe := Frame.outside s outside
  have hfence : lease.SameFence { lease with state := .expired } := ⟨rfl, rfl, rfl, rfl, le_rfl⟩
  rcases hcase with ⟨hnone, rfl⟩ | ⟨next, _, hnext, rfl⟩
  · -- the job of an open lease is held, and can be lost
    have hclosed : lease.isOpen = false := by
      by_contra hopen
      obtain ⟨job', hjob', hheld, -⟩ := hp.open_held hlease (Bool.not_eq_false _ ▸ hopen)
      obtain rfl : job = job' := mem_unique hjob hjob'
      exact expiredJobState_of_isHeld hheld hnone
    exact ⟨hframe.leads.trans (leads (.closedLease hlease hclosed hfence rfl)), rfl⟩
  · have hend : next.isHeld = false ∧ next ≠ .queued ∧ next ≠ .created := by
      rcases (expiredJobState_eq_some hnext).2 with rfl | rfl
      · exact hpreferred
      · decide
    refine ⟨hframe.leads.trans ?_, rfl⟩
    cases hopen : lease.isOpen with
    | true => exact leads (.close hlease hopen hfence rfl hjob hend.1)
    | false =>
      have hidle := hp.not_isHeld hlease hopen hjob hgeneration
      refine Leads.trans (leads (.closedLease hlease hopen hfence rfl)) (leads (.idle ?_))
      exact .job hjob hidle hend.1 (fun h => absurd h hend.2.1) hend.2.2

end

/-! ### Overdue leases -/

theorem Store.overduePreference_ends (lease : Lease) (now : Nat) :
    (overduePreference lease now).isHeld = false ∧ overduePreference lease now ≠ .queued ∧
      overduePreference lease now ≠ .created := by
  unfold overduePreference
  split
  · decide
  · split <;> decide

variable {leaseId : String}

theorem Store.expireOverdue_leads (hp : Placed s) (hlease : s.leases[leaseId]? = some lease)
    (hopen : lease.isOpen = true) (h : s.expireOverdue o now leaseId = .ok t) :
    Leads N s t ∧ t.leases = s.leases.insert leaseId { lease with state := .expired } := by
  simp only [expireOverdue, bind_eq_ok, Store.lease, okOr_eq_ok] at h
  obtain ⟨lease', hlease', h⟩ := h
  obtain rfl : lease = lease' := mem_unique hlease hlease'
  split at h
  · exact expireUnacceptedOffer_leads hp hlease h
  · simp only [bind_eq_ok] at h
    obtain ⟨_, hexpire, hconclude⟩ := h
    obtain ⟨_, hjob, -, -, hgeneration⟩ := hp.open_held hlease hopen
    obtain ⟨hleads, hleases⟩ := expireLeaseWithState_leads hp hlease hjob hgeneration
      (overduePreference_ends lease now) hexpire
    have hidles := concludeRunIfTerminal_idles hconclude
    exact ⟨hleads.trans hidles.leads, hidles.leases.trans hleases⟩

theorem Store.expireOverdueLeases_leads {leaseIds : List String} (hnodup : leaseIds.Nodup) (hp : Placed s)
    (hopen : ∀ id ∈ leaseIds, ∃ lease, s.leases[id]? = some lease ∧ lease.isOpen = true)
    (h : foldEach (expireOverdue o now) s leaseIds = .ok t) : Leads N s t := by
  induction leaseIds generalizing s with
  | nil =>
    cases h
    exact .refl _
  | cons _ _ ih =>
    obtain ⟨_, hu, hrest⟩ := foldEach_cons_eq_ok.mp h
    obtain ⟨hfresh, hnodup⟩ := nodup_cons.mp hnodup
    obtain ⟨⟨_, hlease, hleaseOpen⟩, hopen⟩ := forall_mem_cons.mp hopen
    obtain ⟨hleads, hleases⟩ := expireOverdue_leads hp hlease hleaseOpen hu
    refine hleads.trans (ih hnodup (hleads.placed hp) (fun id' hid' => ?_) hrest)
    rw [hleases, BTreeMap.get_insert, if_neg (ne_of_mem_of_not_mem hid' hfresh).symm]
    exact hopen id' hid'

theorem Store.overdueLeases_open (s : Store E) (p : Lease → Bool) (now : Nat) : (s.overdueLeases p now).Nodup ∧
      ∀ id ∈ s.overdueLeases p now, ∃ lease, s.leases[id]? = some lease ∧ lease.isOpen = true := by
  unfold overdueLeases
  constructor
  · refine Nodup.sublist ((take_sublist _ _).map fst) ?_
    rw [((perm_insertionSort _ _).map fst).nodup_iff]
    exact (BTreeMap.nodup_map_fst_toList s.leases).sublist (filter_sublist.map fst)
  · intro _ hid
    obtain ⟨entry, hentry, rfl⟩ := mem_map.mp hid
    have hmem := mem_filter.mp ((mem_insertionSort _).mp (mem_of_mem_take hentry))
    obtain ⟨hlease, hoverdue⟩ := hmem
    rw [Bool.and_eq_true, isOverdue, Bool.and_eq_true] at hoverdue
    exact ⟨entry.2, BTreeMap.mem_toList.mp hlease, hoverdue.2.1⟩

/-! ### Maintenance -/

theorem Change.setRunner {id : String} {runner runner' : Runner} (hrunner : s.runners[id]? = some runner)
    (hsame : runner.SameInventory runner') : Change N s { s with runners := s.runners.insert id runner' } := by
  refine .runners ?_ ?_
  · intro id' row hrow
    rcases BTreeMap.get_insert_eq_some.mp hrow with ⟨rfl, rfl⟩ | ⟨-, hrow⟩
    · exact ⟨runner, hrunner, hsame⟩
    · exact ⟨row, hrow, .refl row⟩
  · intro _ hnone hsome
    rw [BTreeMap.get_insert] at hnone
    split at hnone
    · cases hnone
    · exact absurd hnone hsome

variable {runnerId : String}

theorem Store.takeOffline_leads (h : s.takeOffline now runnerId = .ok t) : Leads N s t := by
  simp only [takeOffline, bind_eq_ok, okOr_eq_ok] at h
  obtain ⟨_, hrunner, h⟩ := h
  split at h
  · exact pure_eq_ok.mp h ▸ .refl s
  · simp only [bind_eq_ok, pure_eq_ok] at h
    obtain ⟨_, -, rfl⟩ := h
    exact leads (.setRunner hrunner ⟨rfl, rfl, rfl, rfl, rfl⟩)

theorem Store.retireEphemeral_leads (h : s.retireEphemeral o now runnerId = .ok t) : Leads N s t := by
  rw [retireEphemeral] at h
  split at h
  · simp only [bind_eq_ok, okOr_eq_ok, pure_eq_ok] at h
    obtain ⟨runner, hrunner, _, -, rfl⟩ := h
    exact leads (.setRunner hrunner ⟨rfl, rfl, rfl, rfl, rfl⟩)
  · rename_i hunused
    rw [Bool.or_eq_true, not_or, Bool.not_eq_true] at hunused
    simp only [bind_eq_ok, pure_eq_ok] at h
    obtain ⟨_, hsend, rfl⟩ := h
    obtain ⟨outside, rfl⟩ := send_eq_ok hsend
    have hframe : Frame s { s with
        outside, runnerJobRejections := s.runnerJobRejections.erase runnerId
        runnerSchedulerCursors := s.runnerSchedulerCursors.erase runnerId } := .of_eq rfl rfl rfl rfl rfl rfl rfl
    refine hframe.leads.trans (leads (.runners ?_ ?_))
    · intro id runner hrunner
      rw [BTreeMap.get_erase] at hrunner
      split at hrunner
      · cases hrunner
      · exact ⟨runner, hrunner, .refl runner⟩
    · intro _ hnone hsome
      rw [BTreeMap.get_erase] at hnone
      split at hnone
      · rename_i hid
        rw [← hid]
        exact hunused.1
      · exact absurd hnone hsome

theorem Store.schedulerMaintenance_leads (hp : Placed s) (h : s.schedulerMaintenance o now = .ok t) : Leads N s t := by
  simp only [schedulerMaintenance, bind_eq_ok] at h
  obtain ⟨now, -, u, hexpire, v, hoffline, hretire⟩ := h
  obtain ⟨hnodup, hopen⟩ := s.overdueLeases_open (fun _ => true) now
  have hfirst : Leads N s u := expireOverdueLeases_leads hnodup hp hopen hexpire
  have hsecond := foldEach_keeps (P := Leads N s)
    (fun id _ u v huv hu => hu.trans (takeOffline_leads huv)) hoffline hfirst
  exact foldEach_keeps (P := Leads N s)
    (fun _ _ u v huv hu => hu.trans (retireEphemeral_leads huv)) hretire hsecond

theorem Store.schedulerRunnerMaintenance_leads (hp : Placed s)
    (h : s.schedulerRunnerMaintenance o runnerId now = .ok t) : Leads N s t := by
  simp only [schedulerRunnerMaintenance, bind_eq_ok] at h
  obtain ⟨now, -, hexpire⟩ := h
  obtain ⟨hnodup, hopen⟩ := s.overdueLeases_open (fun lease => lease.runnerId = runnerId) now
  exact expireOverdueLeases_leads hnodup hp hopen hexpire

end Runtrue.ControlPlane
