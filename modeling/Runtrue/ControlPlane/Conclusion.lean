import Runtrue.ControlPlane.Placed

/-!
# Advancement and conclusion as changes

The two functions every ending of a job runs, `advance_run_dag_tx` and `conclude_run_if_terminal_tx`, move
created jobs and end the run; no open lease takes part (`Store.concludeRunIfTerminal_idles`).
-/

namespace Runtrue.ControlPlane

open Fallible List

variable {E : Type} {o : Outside E} {s t : Store E} {N : Prop} {runId : String}

theorem Store.mem_jobsOf {p : String × JobRecord} :
    p ∈ s.jobsOf runId ↔ s.jobs[p.1]? = some p.2 ∧ p.2.runId = runId := by
  rw [jobsOf, mem_filter, BTreeMap.mem_toList, decide_eq_true_eq]

variable {next : JobState}

theorem idles_foldl (completed : JobRecord → Option Nat) (hnext : next.isHeld = false ∧ next ≠ .created) :
    ∀ {l : List (String × JobRecord)} {s : Store E}, (l.map Prod.fst).Nodup →
      (∀ p ∈ l, s.jobs[p.1]? = some p.2 ∧ p.2.status = .created) → Idles s (l.foldl (fun s p => s.setJob p.1
        { p.2 with status := next, completedUnixMs := completed p.2 }) s) := by
  intro l
  induction l with
  | nil => exact fun _ _ => .refl _
  | cons p l ih =>
    intro s hnodup hrows
    obtain ⟨hfresh, hnodup⟩ := nodup_cons.mp hnodup
    obtain ⟨⟨hjob, hcreated⟩, hrest⟩ := forall_mem_cons.mp hrows
    have hfirst : Idle s (s.setJob p.1 { p.2 with status := next, completedUnixMs := completed p.2 }) :=
      .job hjob (by rw [hcreated]; rfl) hnext.1 (fun _ => hcreated) hnext.2
    refine hfirst.idles.trans (ih hnodup fun q hq => ?_)
    refine ⟨BTreeMap.get_insert_eq_some.mpr (.inr ⟨fun heq => ?_, (hrest q hq).1⟩), (hrest q hq).2⟩
    exact hfresh (heq ▸ mem_map_of_mem hq)

theorem Store.idles_created {runId jobKey : String} (completed : JobRecord → Option Nat)
    (hnext : next.isHeld = false ∧ next ≠ .created) :
    Idles s (((s.jobsOf runId).filter fun p => p.2.jobKey = jobKey && p.2.status = .created).foldl
      (fun s p => s.setJob p.1 { p.2 with status := next, completedUnixMs := completed p.2 }) s) := by
  refine idles_foldl completed hnext ?_ fun p hp => ?_
  · have hsub : ((s.jobsOf runId).filter fun p => p.2.jobKey = jobKey && p.2.status = .created).Sublist
        s.jobs.toList := filter_sublist.trans filter_sublist
    exact (BTreeMap.nodup_map_fst_toList s.jobs).sublist (hsub.map Prod.fst)
  · rw [mem_filter, mem_jobsOf, Bool.and_eq_true, decide_eq_true_eq, decide_eq_true_eq] at hp
    exact ⟨hp.1.1, hp.2.2⟩

/-! ### Advancement -/

theorem nextState_idle {capsule : Ir.ExecutionCapsule} {sourceReady : Bool}
    {states : BTreeMap String JobState} {planned : Ir.PlannedJob}
    (h : nextState capsule sourceReady states planned = .ok (some next)) : next.isHeld = false ∧ next ≠ .created := by
  simp only [nextState, bind_eq_ok] at h
  obtain ⟨_, -, h⟩ := h
  split at h
  · cases pure_eq_ok.mp h
  split at h
  · cases pure_eq_ok.mp h
    decide
  split at h
  · cases pure_eq_ok.mp h
  simp only [bind_eq_ok, pure_eq_ok, dependencyOutcome] at h
  obtain ⟨_, -, h⟩ := h
  split at h
  · cases h
    decide
  split at h
  · cases h
    decide
  · cases h

section
variable {runId : String} {capsule : Ir.ExecutionCapsule} {sourceReady : Bool}
  {plannedJobs : BTreeMap String Ir.PlannedJob} {now : Nat}

theorem Store.dagChanges_idle {changes : List (String × JobState)}
    (h : s.dagChanges runId capsule sourceReady plannedJobs = .ok changes) :
    ∀ change ∈ changes, change.2.isHeld = false ∧ change.2 ≠ .created := by
  simp only [dagChanges, bind_eq_ok, exists_unit, pure_eq_ok] at h
  obtain ⟨-, _, hfound, rfl⟩ := h
  intro _ hmem
  obtain ⟨_, hentry, hid⟩ := mem_filterMap.mp hmem
  obtain ⟨_, -, hnext⟩ := exists_of_mem_mapEach hfound hentry
  simp only [bind_eq_ok, pure_eq_ok] at hnext
  obtain ⟨next, hnext, rfl⟩ := hnext
  cases next with
  | none => cases hid
  | some =>
    cases hid
    exact nextState_idle hnext

end

variable {jobId : String} {now : Nat}

theorem Store.advanceRunDag_keeps {P : Store E → Prop}
    (hmove : ∀ {u : Store E} {next : JobState} (runId jobKey : String) (completed : Option Nat),
      next.isHeld = false ∧ next ≠ .created → P u → P (u.moveCreated runId jobKey next completed))
    (h : s.advanceRunDag o jobId now = .ok t) (hs : P s) : P t := by
  simp only [advanceRunDag, bind_eq_ok] at h
  obtain ⟨_, -, _, -, _, -, h⟩ := h
  refine Loop.settle_keeps (fun u v hround hu => ?_) h hs
  simp only [advanceRound, bind_eq_ok] at hround
  obtain ⟨_, hchanges, hround⟩ := hround
  split at hround
  · cases pure_eq_ok.mp hround
  · simp only [bind_eq_ok, pure_eq_ok, Option.some.injEq] at hround
    obtain ⟨_, happly, rfl⟩ := hround
    refine foldEach_keeps (fun change hmem x y hxy hx => ?_) happly hu
    simp only [applyChange, bind_eq_ok, pure_eq_ok] at hxy
    obtain ⟨_, -, rfl⟩ := hxy
    exact hmove _ _ _ (dagChanges_idle hchanges change hmem) hx

theorem Store.advanceRunDag_idles (h : s.advanceRunDag o jobId now = .ok t) : Idles s t :=
  advanceRunDag_keeps (fun _ _ completed hnext hu => hu.trans (idles_created (fun _ => completed) hnext)) h (.refl s)

theorem Store.advanceRunDag_started {id : String} {job : JobRecord} (h : s.advanceRunDag o jobId now = .ok t)
    (hjob : s.jobs[id]? = some job) (hstarted : job.status ≠ .created) :
    t.jobs[id]? = some job ∧ t.runs = s.runs := by
  refine advanceRunDag_keeps (P := fun u => u.jobs[id]? = some job ∧ u.runs = s.runs)
    (fun _ _ _ _ hu => ?_) h ⟨hjob, rfl⟩
  refine List.foldlRecOn (motive := fun v : Store E => v.jobs[id]? = some job ∧ v.runs = s.runs) _ _ hu
    fun v hv p hp => ⟨BTreeMap.get_insert_eq_some.mpr (.inr ⟨?_, hv.1⟩), hv.2⟩
  rintro rfl
  rw [mem_filter, mem_jobsOf, Bool.and_eq_true, decide_eq_true_eq, decide_eq_true_eq] at hp
  cases hu.1.symm.trans hp.1.1
  exact hstarted hp.2.2

/-! ### Conclusion -/

theorem Store.finishRun_frame {states : List JobState} (h : s.finishRun o runId states now = .ok t) : Frame s t := by
  -- the check sent at the end touches no table
  have hsent : ∀ {u : Store E}, (do
      let current ← u.run runId
      if current.status.isTerminal then u.send o (.enqueueTerminalScmCheck runId current.status now)
      else return u) = .ok t → Frame u t := by
    intro u hu
    simp only [bind_eq_ok] at hu
    obtain ⟨_, -, hu⟩ := hu
    split at hu
    · exact .sent hu
    · exact pure_eq_ok.mp hu ▸ .refl u
  rw [finishRun] at h
  simp only [bind_eq_ok (x := s.run runId)] at h
  obtain ⟨_, hrun, h⟩ := h
  split at h
  · simp only [bind_eq_ok (x := toI64 now)] at h
    obtain ⟨_, -, h⟩ := h
    refine Frame.trans ?_ (hsent h)
    exact .setRun (okOr_eq_ok.mp hrun) rfl
  · exact hsent h

theorem Store.concludeRunIfTerminal_idles (h : s.concludeRunIfTerminal o jobId now = .ok t) : Idles s t := by
  simp only [concludeRunIfTerminal, bind_eq_ok] at h
  obtain ⟨u, hu, _, -, _, -, _, -, h⟩ := h
  refine (advanceRunDag_idles hu).trans ?_
  split at h
  · exact pure_eq_ok.mp h ▸ .refl u
  split at h
  · exact pure_eq_ok.mp h ▸ .refl u
  · exact (finishRun_frame h).idles

theorem Store.finishRun_of_ended {states : List JobState} (h : s.finishRun o runId states now = .ok t)
    (hended : (s.runs[runId]?).all (·.status.isTerminal) = true) : t.runs = s.runs := by
  rw [finishRun] at h
  simp only [bind_eq_ok (x := s.run runId)] at h
  obtain ⟨run, hrun, h⟩ := h
  rw [okOr_eq_ok.mp hrun, Option.all_some] at hended
  have hstays : ¬run.status.canTransitionTo (finalState run.cancelReason states) = true := by
    revert hended
    cases run.status <;> simp [RunState.isTerminal, RunState.canTransitionTo]
  rw [if_neg hstays] at h
  simp only [bind_eq_ok] at h
  obtain ⟨_, hu, _, -, h⟩ := h
  cases pure_eq_ok.mp hu
  split at h
  · obtain ⟨_, rfl⟩ := send_eq_ok h
    rfl
  · cases pure_eq_ok.mp h
    rfl

/-- The run has ended, or one of its jobs is under way. -/
def Store.runSettled (s : Store E) (runId : String) : Bool :=
  (s.runs[runId]?).all (·.status.isTerminal) ||
    (s.jobsOf runId).any fun p => decide (p.2.status ≠ .created) && !p.2.status.isFinished

theorem Store.concludeRunIfTerminal_settled (h : s.concludeRunIfTerminal o jobId now = .ok t) {job : JobRecord}
    (hjob : s.jobs[jobId]? = some job) (hstarted : job.status ≠ .created)
    (hsettled : s.runSettled job.runId = true) : t.jobs[jobId]? = some job ∧ t.runs = s.runs := by
  simp only [concludeRunIfTerminal, bind_eq_ok, okOr_eq_ok] at h
  obtain ⟨u, hu, _, hjob', _, -, _, -, h⟩ := h
  obtain ⟨hkept, hruns⟩ := advanceRunDag_started hu hjob hstarted
  cases hkept.symm.trans hjob'
  split at h
  · exact pure_eq_ok.mp h ▸ ⟨hkept, hruns⟩
  split at h
  · exact pure_eq_ok.mp h ▸ ⟨hkept, hruns⟩
  · rename_i hfinished
    rw [runSettled, Bool.or_eq_true, ← hruns] at hsettled
    rcases hsettled with hended | hbusy
    · exact ⟨(finishRun_frame h).jobs ▸ hkept, (finishRun_of_ended h hended).trans hruns⟩
    · -- the job that is under way is still there
      obtain ⟨p, hp, hbusy⟩ := any_eq_true.mp hbusy
      rw [Bool.and_eq_true, decide_eq_true_eq] at hbusy
      obtain ⟨hrow, hof⟩ := mem_jobsOf.mp hp
      have hmem : p ∈ u.jobsOf job.runId := mem_jobsOf.mpr ⟨(advanceRunDag_started hu hrow hbusy.1).1, hof⟩
      exact absurd (any_eq_true.mpr ⟨_, mem_map_of_mem hmem, hbusy.2⟩) hfinished

theorem Store.startRunForJobIfCreated_frame (h : s.startRunForJobIfCreated jobId now = .ok t) : Frame s t := by
  simp only [startRunForJobIfCreated, bind_eq_ok] at h
  obtain ⟨_, -, _, hrun, h⟩ := h
  split at h
  · simp only [bind_eq_ok, pure_eq_ok] at h
    obtain ⟨_, -, rfl⟩ := h
    exact .setRun (okOr_eq_ok.mp hrun) rfl
  · exact pure_eq_ok.mp h ▸ .refl s

end Runtrue.ControlPlane
