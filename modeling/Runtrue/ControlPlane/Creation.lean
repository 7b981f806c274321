import Runtrue.ControlPlane.Conclusion

/-!
# The creation of runs and of expanded jobs

A new run is followed by its jobs, none of which is held (`firstStates_idle`); a new expansion of a template
adds jobs to a run that is there.
-/

namespace Runtrue.ControlPlane

open Fallible ControlPlane.Frame Ir

variable {E : Type} {o : Outside E} {s t u : Store E} {N : Prop}

/-! ### The first states of jobs -/

theorem firstStates_idle {capsule : ExecutionCapsule} {sourceReady : Bool} {states : BTreeMap String JobState}
    (h : initialRemoteJobStates capsule sourceReady = .ok states) {key : String} {state : JobState}
    (hstate : states[key]? = some state) : state.isHeld = false := by
  simp only [initialRemoteJobStates, bind_eq_ok, exists_unit] at h
  refine Loop.settle_keeps (P := fun states : BTreeMap String JobState =>
    ∀ (key : String) (state : JobState), states[key]? = some state → state.isHeld = false) ?_ h.2 ?_ key state hstate
  · intro states _ hround hidle
    rw [skipRound] at hround
    split at hround
    · cases hround
    · obtain rfl := Option.some.inj (Except.ok.inj hround)
      refine List.foldlRecOn (motive := fun states : BTreeMap String JobState =>
        ∀ (key : String) (state : JobState), states[key]? = some state → state.isHeld = false) _ _ hidle
        fun _ hidle _ _ key state h => ?_
      rcases BTreeMap.get_insert_eq_some.mp h with ⟨-, rfl⟩ | ⟨-, h⟩
      · rfl
      · exact hidle key state h
  · intro _ _ hget
    obtain ⟨_, -, hpair⟩ := List.mem_map.mp (BTreeMap.mem_of_get_ofList hget)
    cases hpair
    rw [firstState]
    split
    · rfl
    · split <;> rfl

/-! ### Rows -/

theorem Store.insertJob_leads {id : String} {job : JobRecord} (hhomed : s.Homed job.runId)
    (hidle : job.status.isHeld = false) (h : s.insertJob id job = .ok t) : Leads True s t ∧ t.Homed job.runId := by
  simp only [insertJob, bind_eq_ok, exists_unit, rejectIf_eq_ok, not_or, pure_eq_ok] at h
  obtain ⟨⟨hfresh, -⟩, rfl⟩ := h
  have hnew := BTreeMap.get_of_not_contains (Bool.not_eq_true _ ▸ hfresh)
  exact ⟨Change.leads (.newJob trivial hnew hhomed hidle), hhomed⟩

theorem Store.insertRun_leads {request : CreateRunRequest} (h : s.insertRun request = .ok t) :
    Leads True s t ∧ t.Homed request.id := by
  simp only [insertRun, bind_eq_ok, exists_unit, rejectIf_eq_ok, not_or, Bool.not_eq_false, pure_eq_ok] at h
  obtain ⟨_, -, ⟨hfresh, hrepository, -⟩, rfl⟩ := h
  have hnew := BTreeMap.get_of_not_contains (Bool.not_eq_true _ ▸ hfresh)
  rw [Std.ExtTreeMap.contains_eq_isSome_getElem?, Option.isSome_iff_exists] at hrepository
  obtain ⟨tenantId, htenant⟩ := hrepository
  refine ⟨Change.leads (.wider (fun hrun => BTreeMap.get_insert_fresh hnew hrun) fun hrow => hrow), ?_⟩
  exact ⟨_, tenantId, BTreeMap.get_insert_self _ _ _, htenant⟩

theorem leads_foldEach {α : Type} {runId : String} {f : Store E → α → Except Error (Store E)} {l : List α}
    (hpass : ∀ {s t : Store E} {a : α}, s.Homed runId → f s a = .ok t → Leads True s t ∧ t.Homed runId)
    (hhomed : s.Homed runId) (h : foldEach f s l = .ok t) : Leads True s t :=
  (foldEach_keeps (P := fun u => Leads True s u ∧ u.Homed runId)
    (fun _ _ _ _ huv hu => ⟨hu.1.trans (hpass hu.2 huv).1, (hpass hu.2 huv).2⟩) h ⟨.refl s, hhomed⟩).1

/-! ### Runs -/

section
variable {request : CreateRunRequest}

theorem Store.insertJobs_leads (hhomed : s.Homed request.id) (h : s.insertJobs request = .ok t) : Leads True s t := by
  rw [insertJobs] at h
  refine leads_foldEach ?_ hhomed h
  exact fun hhomed h => insertJob_leads hhomed rfl h

theorem Store.insertJobsForCapsule_leads {capsule : ExecutionCapsule} (hhomed : s.Homed request.id)
    (h : s.insertJobsForCapsule o request capsule = .ok t) : Leads True s t := by
  simp only [insertJobsForCapsule, bind_eq_ok, exists_unit] at h
  obtain ⟨-, _, hstates, u, hfold, h⟩ := h
  have hjobs : Leads True s u := by
    refine leads_foldEach (fun hhomed hinsert => ?_) hhomed hfold
    simp only [insertCapsuleJob, bind_eq_ok, okOr_eq_ok] at hinsert
    obtain ⟨_, hstatus, _, -, hinsert⟩ := hinsert
    exact insertJob_leads hhomed (firstStates_idle hstates hstatus) hinsert
  split at h
  · exact hjobs.trans (concludeRunIfTerminal_idles h).leads
  · exact pure_eq_ok.mp h ▸ hjobs

theorem Store.createNewRun_leads (h : s.createNewRun o request = .ok t) : Leads True s t := by
  have hcreate : ∀ {u v w : Store E}, u.insertRun request = .ok v →
      v.send o (.authorizeApprovals request.id request.capsuleId request.createdUnixMs) = .ok w →
      Leads True u w ∧ w.Homed request.id := by
    intro u v w hrun hsend
    obtain ⟨hleads, hhomed⟩ := insertRun_leads hrun
    have hframe := sent hsend
    exact ⟨hleads.trans hframe.leads, hframe.homed hhomed⟩
  cases hremote : request.remote <;>
    simp only [createNewRun, hremote, if_true, Bool.false_eq_true, if_false, bind_eq_ok, exists_unit] at h
  · obtain ⟨row, -, -, -, u, hrun, v, hsend, h⟩ := h
    obtain ⟨hleads, hhomed⟩ := hcreate hrun hsend
    exact hleads.trans (insertJobs_leads hhomed h)
  · obtain ⟨_, -, -, -, -, _, hrun, _, hsend, h⟩ := h
    obtain ⟨hleads, hhomed⟩ := hcreate hrun hsend
    exact hleads.trans (insertJobsForCapsule_leads hhomed h)

theorem Store.createRunIdempotent_leads {key : String} {answer : RunRecord × Bool}
    (h : s.createRunIdempotent o key request = .ok (answer, t)) : Leads True s t := by
  simp only [createRunIdempotent, bind_eq_ok, exists_unit] at h
  obtain ⟨-, -, h⟩ := h
  split at h
  · simp only [bind_eq_ok, exists_unit, pure_eq_ok, Prod.mk.injEq] at h
    obtain ⟨-, run, -, -, rfl⟩ := h
    exact .refl s
  · simp only [bind_eq_ok, pure_eq_ok, Prod.mk.injEq] at h
    obtain ⟨_, hcreate, _, -, -, rfl⟩ := h
    exact (createNewRun_leads hcreate).trans (leads (.of_eq rfl rfl rfl rfl rfl rfl rfl))

theorem Store.createScmRun_leads {newCapsule : Option CapsuleRow} {snapshotId : Option String} {now : Nat}
    (h : s.createScmRun o newCapsule request snapshotId now = .ok t) : Leads True s t := by
  have hbind : ∀ {u v : Store E} {row : CapsuleRow} {snapshotId : String},
      u.bindNewRun request row snapshotId now = .ok v → Frame u v := by
    intro u v row snapshotId hbind
    simp only [bindNewRun, bind_eq_ok, exists_unit, pure_eq_ok, bindSource] at hbind
    obtain ⟨_, -, -, -, _, -, -, rfl⟩ := hbind
    split <;> exact .of_eq rfl rfl rfl rfl rfl rfl rfl
  have hcreate : ∀ {u v w x : Store E} {capsule : ExecutionCapsule}, u.insertRun request = .ok v → Frame v w →
      w.insertJobsForCapsule o request capsule = .ok x → x.send o (.recordScmResult request.id) = .ok t →
      Leads True u t := by
    intro u v w x _ hrun hframe hjobs hsend
    obtain ⟨hleads, hhomed⟩ := insertRun_leads hrun
    have hcreated := hframe.leads.trans (insertJobsForCapsule_leads (hframe.homed hhomed) hjobs)
    exact hleads.trans (hcreated.trans (sent hsend).leads)
  cases newCapsule <;> cases snapshotId <;>
    simp only [createScmRun, bind_eq_ok, exists_unit, pure_bind] at h
  · obtain ⟨row, -, -, -, u, hrun, v, hjobs, hsend⟩ := h
    exact hcreate hrun (.refl u) hjobs hsend
  · obtain ⟨row, -, -, -, u, hrun, v, hbound, w, hjobs, hsend⟩ := h
    exact hcreate hrun (hbind hbound) hjobs hsend
  · obtain ⟨-, row, -, -, -, u, hrun, v, hjobs, hsend⟩ := h
    refine Leads.trans ?_ (hcreate hrun (.refl u) hjobs hsend)
    exact leads (.of_eq rfl rfl rfl rfl rfl rfl rfl)
  · obtain ⟨-, _, -, -, -, _, hrun, _, hbound, _, hjobs, hsend⟩ := h
    refine Leads.trans ?_ (hcreate hrun (hbind hbound) hjobs hsend)
    exact leads (.of_eq rfl rfl rfl rfl rfl rfl rfl)

end

/-! ### Expansions -/

section
variable {record : ExpandedJobSetRecord}

theorem Store.persistExpandedJobSet_frame {persisted : Bool × Store E}
    (h : s.persistExpandedJobSet record = .ok persisted) : Frame s persisted.2 := by
  rw [persistExpandedJobSet] at h
  split at h
  · simp only [bind_eq_ok, exists_unit, pure_eq_ok] at h
    obtain ⟨-, _, -, -, _, -, -, _, -, -, rfl⟩ := h
    exact .refl s
  · simp only [bind_eq_ok (x := forEach _ _), bind_eq_ok (x := rejectIf _ _), exists_unit, pure_eq_ok] at h
    obtain ⟨-, -, rfl⟩ := h
    exact .of_eq rfl rfl rfl rfl rfl rfl rfl

theorem Store.recordExpandedJobSet_frame {answer : Bool × Store E}
    (h : s.recordExpandedJobSet o record = .ok answer) : Frame s answer.2 := by
  simp only [recordExpandedJobSet, bind_eq_ok, exists_unit] at h
  obtain ⟨-, _, -, _, hpersist, h⟩ := h
  have hframe := persistExpandedJobSet_frame hpersist
  split at h
  · exact pure_eq_ok.mp h ▸ hframe
  · simp only [bind_eq_ok, pure_eq_ok] at h
    obtain ⟨_, hsend, rfl⟩ := h
    exact hframe.trans (.sent hsend)

theorem Store.homed_of_authorizeExpandedJobSet {parent : ExecutionCapsule × DynamicJobTemplate}
    (h : s.authorizeExpandedJobSet record = .ok parent) : s.Homed record.runId := by
  simp only [authorizeExpandedJobSet, bind_eq_ok, exists_unit, rejectIf_eq_ok, okOr_eq_ok, not_or, ne_eq,
    not_not] at h
  obtain ⟨run, hrun, _, -, ⟨-, htenant, -⟩, -⟩ := h
  exact ⟨run, record.tenantId, hrun, htenant⟩

theorem dependencyOutcome_idle (dependencies : List JobState) :
    ((dependencyOutcome dependencies).getD .created).isHeld = false := by
  rw [dependencyOutcome]
  split
  · rfl
  · split <;> rfl

theorem Store.materializeExpandedJobs_leads {capsule : ExecutionCapsule} {template : DynamicJobTemplate}
    {inserted : Nat × Store E} (hhomed : s.Homed record.runId)
    (h : s.materializeExpandedJobs o record capsule template = .ok inserted) : Leads True s inserted.2 := by
  simp only [materializeExpandedJobs, bind_eq_ok, exists_unit] at h
  obtain ⟨-, _, -, h⟩ := h
  split at h
  · exact pure_eq_ok.mp h ▸ .refl s
  · simp only [bind_eq_ok, exists_unit, pure_eq_ok] at h
    obtain ⟨-, _, hfold, rfl⟩ := h
    refine leads_foldEach (fun hhomed hinsert => ?_) hhomed hfold
    simp only [insertExpandedJob, bind_eq_ok, exists_unit] at hinsert
    obtain ⟨-, dependencies, -, _, -, hinsert⟩ := hinsert
    refine insertJob_leads hhomed ?_ hinsert
    show JobState.isHeld (if _ then _ else _) = false
    split
    · rfl
    · exact dependencyOutcome_idle dependencies

theorem Store.materializeExpandedJobSet_leads {request : MaterializeExpandedJobSet} {answer : Bool × Nat}
    (h : s.materializeExpandedJobSet o request = .ok (answer, t)) : Leads True s t := by
  rw [materializeExpandedJobSet] at h
  simp only [bind_eq_ok (x := validateText _), bind_eq_ok (x := rejectIf _ _),
    bind_eq_ok (x := validateExpandedJobSetRecord _ _), bind_eq_ok (x := validateLeaseFence _ _ _ _ _),
    bind_eq_ok (x := authorizeExpandedJobSet _ _), bind_eq_ok (x := persistExpandedJobSet _ _), exists_unit] at h
  obtain ⟨-, -, -, -, -, _, -, -, parent, hparent, persisted, hpersist, h⟩ := h
  have hframe := persistExpandedJobSet_frame hpersist
  have hhomed := hframe.homed (homed_of_authorizeExpandedJobSet hparent)
  -- the jobs, and the audit that follows them
  have hrest : ∀ {u : Store E}, u.Homed request.record.runId → ((do
      let inserted ← u.materializeExpandedJobs o request.record parent.1 parent.2
      let s ← if inserted.1 = 0 then pure inserted.2
        else inserted.2.send o (.appendExpansionAudit request.record.id request.record.createdUnixMs)
      return ((persisted.1, inserted.1), s)) = Except.ok (answer, t)) → Leads True u t := by
    intro u hhomed h
    simp only [bind_eq_ok (x := materializeExpandedJobs _ _ _ _ _)] at h
    obtain ⟨_, hinsert, h⟩ := h
    refine (materializeExpandedJobs_leads hhomed hinsert).trans ?_
    split at h
    · obtain ⟨-, rfl⟩ := Prod.mk.inj (pure_eq_ok.mp h)
      exact .refl _
    · simp only [bind_eq_ok, pure_eq_ok, Prod.mk.injEq] at h
      obtain ⟨_, hsend, -, rfl⟩ := h
      exact (sent hsend).leads
  refine hframe.leads.trans ?_
  split at h
  · exact hrest hhomed h
  · simp only [bind_eq_ok (x := Store.send _ _ _)] at h
    obtain ⟨_, hsend, h⟩ := h
    have hsent := sent hsend
    exact hsent.leads.trans (hrest (hsent.homed hhomed) h)

end

end Runtrue.ControlPlane
