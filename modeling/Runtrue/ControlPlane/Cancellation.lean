import Runtrue.ControlPlane.Calls

/-!
# Cancelled runs and fenced installations

The two operations that end many jobs at once. The cancellation of a run ends every job that no runner works
on and asks the runners of the others to stop (`Store.cancelRunIdempotent_leads`). A new epoch of the
installation expires every open lease and loses its job (`Store.fenceOpenLeases_leads`).
-/

namespace Runtrue.ControlPlane

open Fallible List Prod

variable {E : Type} {o : Outside E} {s t u : Store E} {N : Prop}

/-! ### The cancellation of a run -/

variable {jobId : String}

theorem Store.lastOpenLease_eq_some {entry : String × Lease} (h : s.lastOpenLease jobId = some entry) :
    s.leases[entry.1]? = some entry.2 ∧ entry.2.jobId = jobId ∧ entry.2.isOpen = true :=
  mem_openLeasesOf ((mem_insertionSort _).mp (mem_of_head? h))

variable {leaseId : String} {lease : Lease}

theorem Store.lastOpenLease_eq_none (h : s.lastOpenLease jobId = none)
    (hlease : s.leases[leaseId]? = some lease) (hjob : lease.jobId = jobId) : lease.isOpen = false := by
  rw [lastOpenLease, head?_eq_none_iff, ← length_eq_zero_iff,
    (perm_insertionSort _ _).length_eq, length_eq_zero_iff, openLeasesOf, filter_eq_nil_iff] at h
  have hnot := h (leaseId, lease) (BTreeMap.mem_toList.mpr hlease)
  simpa [hjob] using hnot

variable {now : Nat}

theorem Store.cancelJob_leads (hp : Placed s) {id : String} {job : JobRecord}
    (hjob : s.jobs[id]? = some job) (h : s.cancelJob o now (id, job.status) = .ok t) :
    Leads N s t ∧ ∀ id' ≠ id, t.jobs[id']? = s.jobs[id']? := by
  have hother : ∀ {row : JobRecord}, ∀ id' ≠ id, (s.jobs.insert id row)[id']? = s.jobs[id']? :=
    fun _ hne => by rw [BTreeMap.get_insert, if_neg (Ne.symm hne)]
  rw [cancelJob] at h
  cases hlast : s.lastOpenLease id with
  | some entry =>
    obtain ⟨hlease, rfl, hopen⟩ := lastOpenLease_eq_some hlast
    obtain ⟨leaseId, lease⟩ := entry
    simp only [hlast, bind_eq_ok] at h
    obtain ⟨_, hsend, h⟩ := h
    obtain ⟨outside, rfl⟩ := send_eq_ok hsend
    have hframe := Frame.outside s outside
    split at h
    · rename_i hoffered
      obtain ⟨job', hjob', hleased⟩ := hp.job_of_offered hlease hoffered
      obtain rfl : job = job' := Option.mem_unique hjob hjob'
      rw [if_pos (by rw [hleased]; rfl)] at h
      refine ⟨hframe.leads.trans (cancelOffer_leads (s := { s with outside }) (hframe.idles.placed hp) hlease
        hoffered hjob h), ?_⟩
      obtain ⟨_, rfl⟩ := transitionJob_of_ne h hjob (by rw [hleased]; exact JobState.noConfusion)
      exact hother
    · rename_i hoffered
      obtain rfl := pure_eq_ok.mp h
      exact ⟨hframe.leads.trans (Change.leads (.askCancel hlease hopen hoffered)), fun _ _ => rfl⟩
  | none =>
    have hidle : job.status.isHeld = false := by
      by_contra hheld
      obtain ⟨_, _, hlease, hjobId, hopen⟩ := hp.held_open hjob (Bool.not_eq_false _ ▸ hheld)
      rw [lastOpenLease_eq_none hlast hlease hjobId] at hopen
      cases hopen
    simp only [hlast] at h
    split at h
    · simp only [bind_eq_ok, okOr_eq_ok, pure_eq_ok] at h
      obtain ⟨_, -, row, hrow, rfl⟩ := h
      obtain rfl : job = row := Option.mem_unique hjob hrow
      exact ⟨Idles.leads (Idle.idles (.job hjob hidle rfl (fun h => by cases h) JobState.noConfusion)), hother⟩
    · obtain rfl := pure_eq_ok.mp h
      exact ⟨.refl _, fun _ _ => rfl⟩

theorem Store.cancelJobs_leads {jobs : List (String × JobRecord)} (hnodup : (jobs.map fst).Nodup) (hp : Placed s)
    (hjobs : ∀ p ∈ jobs, s.jobs[p.1]? = some p.2)
    (h : foldEach (cancelJob o now) s (jobs.map fun p => (p.1, p.2.status)) = .ok t) : Leads N s t := by
  induction jobs generalizing s with
  | nil =>
    cases h
    exact .refl _
  | cons _ _ ih =>
    rw [map_cons] at h hnodup
    obtain ⟨_, hu, hrest⟩ := foldEach_cons_eq_ok.mp h
    obtain ⟨hfresh, hnodup⟩ := nodup_cons.mp hnodup
    obtain ⟨hjob, hjobs⟩ := forall_mem_cons.mp hjobs
    obtain ⟨hleads, hother⟩ := cancelJob_leads hp hjob hu
    refine hleads.trans (ih hnodup (hleads.placed hp) (fun q hq => ?_) hrest)
    exact (hother q.1 (ne_of_mem_of_not_mem (mem_map_of_mem hq) hfresh)).trans (hjobs q hq)

variable {runId reason : String}

theorem Store.cancelOpenRun_leads (hp : Placed s) {run : RunRecord}
    (hrun : s.runs[runId]? = some run) (h : s.cancelOpenRun o runId run reason now = .ok t) : Leads N s t := by
  simp only [cancelOpenRun, bind_eq_ok] at h
  obtain ⟨u, hfold, h⟩ := h
  have hmark : Frame s (s.setRun runId { run with cancelReason := run.cancelReason.or (some reason) }) :=
    .setRun hrun rfl
  have hcancel : Leads N s u := by
    refine hmark.leads.trans (cancelJobs_leads ?_ (hmark.idles.placed hp) (fun p hp => ?_) hfold)
    · exact (BTreeMap.nodup_map_fst_toList s.jobs).sublist (filter_sublist.map fst)
    · exact (mem_jobsOf.mp hp).1
  split at h
  · exact pure_eq_ok.mp h ▸ hcancel
  · simp only [bind_eq_ok, Store.run, okOr_eq_ok, pure_eq_ok] at h
    obtain ⟨_, -, _, hrow, rfl⟩ := h
    exact hcancel.trans (Frame.leads (.setRun hrow rfl))

theorem Store.cancelRunIdempotent_leads (hp : Placed s) {key runId reason : String}
    {answer : RunRecord × Bool} (h : s.cancelRunIdempotent o key runId reason now = .ok (answer, t)) : Leads N s t := by
  simp only [cancelRunIdempotent, bind_eq_ok, exists_unit] at h
  obtain ⟨-, -, h⟩ := h
  split at h
  · simp only [bind_eq_ok, exists_unit, pure_eq_ok] at h
    obtain ⟨-, run, -, -, rfl⟩ := h
    exact .refl s
  simp only [bind_eq_ok, exists_unit, Store.run, okOr_eq_ok] at h
  obtain ⟨run, hrun, -, h⟩ := h
  -- what follows the cancellation touches no table of placement
  have hrest : ∀ {u : Store E}, (do
      let _ ← toI64 now
      let s := { u with runCancellations := u.runCancellations.insert key ⟨o.cancelRequestHash runId reason, runId⟩ }
      let value ← s.run runId
      if value.status.isTerminal then
        let s ← s.send o (.enqueueTerminalScmCheck runId value.status now)
        return ((value, false), s)
      else
        return ((value, false), s)) = Except.ok (answer, t) → Frame u t := by
    intro u hu
    simp only [bind_eq_ok] at hu
    obtain ⟨_, -, _, -, hu⟩ := hu
    split at hu
    · simp only [bind_eq_ok, pure_eq_ok] at hu
      obtain ⟨_, hsend, -, rfl⟩ := hu
      obtain ⟨_, rfl⟩ := send_eq_ok hsend
      exact .of_eq rfl rfl rfl rfl rfl rfl rfl
    · simp only [pure_eq_ok] at hu
      obtain ⟨-, rfl⟩ := hu
      exact .of_eq rfl rfl rfl rfl rfl rfl rfl
  by_cases hcanceled : run.status = .canceled
  · rw [if_pos hcanceled] at h
    exact (hrest h).leads
  · rw [if_neg hcanceled] at h
    simp only [bind_eq_ok (x := cancelOpenRun _ _ _ _ _ _)] at h
    obtain ⟨_, hcancel, h⟩ := h
    exact (cancelOpenRun_leads hp hrun hcancel).trans (hrest h).leads

/-! ### A new epoch of the installation -/

theorem Store.fenceLease_leads (hp : Placed s) (hlease : s.leases[leaseId]? = some lease)
    (hopen : lease.isOpen = true) (h : fenceLease now s (leaseId, lease) = .ok t) :
    Leads N s t ∧ ∀ id ≠ leaseId, t.leases[id]? = s.leases[id]? := by
  obtain ⟨job, hjob, hheld, -⟩ := hp.open_held hlease hopen
  have hcan : job.status.canTransitionTo .lost = true := by
    revert hheld
    cases job.status <;> decide
  simp only [fenceLease, bind_eq_ok, hjob, hcan, if_true, pure_eq_ok] at h
  obtain ⟨_, -, rfl⟩ := h
  refine ⟨Change.leads ?_, fun _ hne => (BTreeMap.get_insert _ _ _ _).trans (if_neg (Ne.symm hne))⟩
  exact .close hlease hopen ⟨rfl, rfl, rfl, rfl, le_rfl⟩ rfl hjob rfl

theorem Store.fenceLeases_leads {entries : List (String × Lease)}
    (hnodup : (entries.map fst).Nodup) (hp : Placed s)
    (hopen : ∀ p ∈ entries, s.leases[p.1]? = some p.2 ∧ p.2.isOpen = true)
    (h : foldEach (fenceLease now) s entries = .ok t) : Leads N s t := by
  induction entries generalizing s with
  | nil =>
    cases h
    exact .refl _
  | cons _ _ ih =>
    obtain ⟨_, hu, hrest⟩ := foldEach_cons_eq_ok.mp h
    obtain ⟨hfresh, hnodup⟩ := nodup_cons.mp hnodup
    obtain ⟨⟨hlease, hleaseOpen⟩, hopen⟩ := forall_mem_cons.mp hopen
    obtain ⟨hfirst, hother⟩ := fenceLease_leads hp hlease hleaseOpen hu
    refine hfirst.trans (ih hnodup (hfirst.placed hp) (fun p hp => ?_) hrest)
    rw [hother p.1 (ne_of_mem_of_not_mem (mem_map_of_mem hp) hfresh)]
    exact hopen p hp

theorem Store.fenceOpenLeases_leads (hp : Placed s) (h : s.fenceOpenLeases o now = .ok t) : Leads N s t := by
  simp only [fenceOpenLeases, bind_eq_ok] at h
  obtain ⟨_, hfold, _, -, hsend⟩ := h
  refine Leads.trans (fenceLeases_leads ?_ hp (fun p hp => ?_) hfold) (Frame.sent hsend).leads
  · exact (BTreeMap.nodup_map_fst_toList s.leases).sublist (filter_sublist.map fst)
  · obtain ⟨hmem, hopen⟩ := mem_filter.mp hp
    exact ⟨BTreeMap.mem_toList.mp hmem, hopen⟩

theorem Frame.epoch (s : Store E) (fencingEpoch : Nat) (safeMode : Bool) :
    Frame s { s with fencingEpoch, safeMode } := .of_eq rfl rfl rfl rfl rfl rfl rfl

theorem Store.advanceInstallationFencingEpoch_leads (hp : Placed s) {newEpoch now : Nat}
    (h : s.advanceInstallationFencingEpoch o newEpoch now = .ok t) : Leads N s t := by
  simp only [advanceInstallationFencingEpoch, bind_eq_ok, exists_unit] at h
  obtain ⟨-, epoch, -, h⟩ := h
  have hframe := Frame.epoch s epoch s.safeMode
  exact hframe.leads.trans (fenceOpenLeases_leads (hframe.idles.placed hp) h)

theorem Store.enterRestoreSafeMode_leads (hp : Placed s) (h : s.enterRestoreSafeMode o now = .ok t) : Leads N s t := by
  simp only [enterRestoreSafeMode, bind_eq_ok] at h
  obtain ⟨_, -, epoch, -, _, -, h⟩ := h
  have hframe := Frame.epoch s epoch true
  exact hframe.leads.trans (fenceOpenLeases_leads (hframe.idles.placed hp) h)

end Runtrue.ControlPlane
