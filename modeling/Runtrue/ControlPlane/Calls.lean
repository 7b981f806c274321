import Runtrue.ControlPlane.Expiry

/-!
# The calls of runners as changes

Acceptance, rejection, heartbeat, cancellation and completion of a lease, the progress of a job, and the
calls that make the source of a run ready. Each of them, when it commits, is a sequence of changes.
-/

namespace Runtrue.ControlPlane

open Fallible List Lease Store
open Change (leads)

variable {E : Type} {o : Outside E} {s t u : Store E} {N : Prop}

/-! ### Acceptance and rejection -/

section
variable {leaseId runnerId : String} {generation epoch now : Nat} {answer : Except Error Lease}

theorem Store.acceptLease_leads (hp : Placed s)
    (h : s.acceptLease o leaseId runnerId generation epoch now = .ok (answer, t)) : Leads N s t := by
  simp only [acceptLease, bind_eq_ok, exists_unit, rejectIf_eq_ok, ne_eq, not_not] at h
  obtain ⟨_, hfence, hoffered, h⟩ := h
  obtain ⟨hlease, -⟩ := validateLeaseFence_eq_ok hfence
  split at h
  · simp only [bind_eq_ok, pure_eq_ok, Prod.mk.injEq] at h
    obtain ⟨u, hexpire, -, rfl⟩ := h
    exact (expireUnacceptedOffer_leads hp hlease hexpire).1
  · simp only [bind_eq_ok, pure_eq_ok, Prod.mk.injEq] at h
    obtain ⟨_, hprepare, _, hstart, _, -, -, rfl⟩ := h
    obtain ⟨_, hjob, hleased⟩ := hp.job_of_offered hlease hoffered
    obtain ⟨_, rfl⟩ := transitionJob_of_ne hprepare hjob (by rw [hleased]; exact JobState.noConfusion)
    refine Leads.trans (leads ?_) (startRunForJobIfCreated_frame hstart).leads
    exact .move hlease (isOpen_of_offered hoffered) ⟨rfl, rfl, rfl, rfl, le_rfl⟩ hjob rfl fun _ => by simp

theorem Store.rejectLeaseWithCode_leads (hp : Placed s) {code : String}
    (h : s.rejectLeaseWithCode o leaseId runnerId generation epoch code now = .ok (answer, t)) : Leads N s t := by
  simp only [rejectLeaseWithCode, bind_eq_ok, exists_unit] at h
  obtain ⟨-, lease, hfence, h⟩ := h
  obtain ⟨hlease, -⟩ := validateLeaseFence_eq_ok hfence
  split at h
  · obtain ⟨-, rfl⟩ := Prod.mk.inj (pure_eq_ok.mp h)
    exact .refl s
  simp only [bind_eq_ok, exists_unit, rejectIf_eq_ok, ne_eq, not_not] at h
  obtain ⟨hoffered, h⟩ := h
  obtain ⟨job, hjob, hleased⟩ := hp.job_of_offered hlease hoffered
  have hsame : lease.SameFence { lease with state := .rejected } := ⟨rfl, rfl, rfl, rfl, le_rfl⟩
  split at h
  · simp only [bind_eq_ok, pure_eq_ok, Prod.mk.injEq] at h
    obtain ⟨u, hexpire, -, rfl⟩ := h
    exact (expireUnacceptedOffer_leads hp hlease hexpire).1
  split at h
  · -- a transient rejection returns the job to the queue
    simp only [bind_eq_ok, pure_eq_ok, Prod.mk.injEq] at h
    obtain ⟨now, -, u, hqueue, rejected, -, -, rfl⟩ := h
    obtain ⟨_, rfl⟩ := transitionJob_of_ne hqueue hjob (by rw [hleased]; exact JobState.noConfusion)
    have hframe : Frame s (s.recordRejection runnerId lease.jobId code now) := .of_eq rfl rfl rfl rfl rfl rfl rfl
    refine hframe.leads.trans (leads ?_)
    exact .close hlease (isOpen_of_offered hoffered) hsame rfl hjob rfl
  · -- a permanent one blocks it
    simp only [bind_eq_ok, pure_eq_ok, Prod.mk.injEq] at h
    obtain ⟨u, hblock, _, hstart, _, hconclude, _, -, -, rfl⟩ := h
    have hblocked : Leads N s u := by
      simp only [blockJob, bind_eq_ok] at hblock
      obtain ⟨_, -, hblock⟩ := hblock
      have hjob' : (s.setLeaseState leaseId lease .rejected).jobs[lease.jobId]? = some job := hjob
      simp only [hjob', hleased, if_true, pure_eq_ok] at hblock
      rw [← hblock]
      exact leads (.close hlease (isOpen_of_offered hoffered) hsame rfl hjob rfl)
    exact hblocked.trans ((startRunForJobIfCreated_frame hstart).leads.trans
      (concludeRunIfTerminal_idles hconclude).leads)

/-! ### Heartbeat and cancellation -/

variable {lease : Lease}

theorem Lease.isOpen_of_accepted (h : lease.state = .active ∨ lease.state = .cancelRequested) :
    lease.isOpen = true := by
  rw [isOpen]
  rcases h with h | h <;> rw [h]

theorem Store.heartbeatLease_leads (hp : Placed s) {newExpires : Nat}
    (h : s.heartbeatLease o leaseId runnerId generation epoch now newExpires = .ok (answer, t)) : Leads N s t := by
  simp only [heartbeatLease, bind_eq_ok, exists_unit, rejectIf_eq_ok, not_and_or, ne_eq, not_not] at h
  obtain ⟨-, lease, hfence, -, h⟩ := h
  obtain ⟨hlease, -, -, _, hjob, hgeneration⟩ := validateLeaseFence_eq_ok hfence
  split at h
  · simp only [bind_eq_ok, pure_eq_ok, Prod.mk.injEq] at h
    obtain ⟨u, hexpire, _, hconclude, -, rfl⟩ := h
    have hleads : Leads N s u :=
      (expireLeaseWithState_leads hp hlease hjob hgeneration (overduePreference_ends lease now) hexpire).1
    exact hleads.trans (concludeRunIfTerminal_idles hconclude).leads
  · simp only [bind_eq_ok, exists_unit, pure_eq_ok, Prod.mk.injEq] at h
    obtain ⟨-, expires, -, _, hmaintenance, _, -, -, rfl⟩ := h
    have hrenew : Leads N s (s.setLease leaseId { lease with expiresUnixMs := expires }) :=
      leads (.lease hlease ⟨rfl, rfl, rfl, rfl, le_rfl⟩ rfl Iff.rfl)
    exact hrenew.trans (schedulerMaintenance_leads (hrenew.placed hp) hmaintenance)

variable {jobId : String}

theorem Store.mem_openLeasesOf {entry : String × Lease} (h : entry ∈ s.openLeasesOf jobId) :
    s.leases[entry.1]? = some entry.2 ∧ entry.2.jobId = jobId ∧ entry.2.isOpen = true := by
  rw [openLeasesOf, mem_filter, BTreeMap.mem_toList, Bool.and_eq_true, decide_eq_true_eq] at h
  exact ⟨h.1, h.2.1, h.2.2⟩

theorem Store.cancelOffer_leads (hp : Placed s) {job : JobRecord}
    (hlease : s.leases[leaseId]? = some lease) (hoffered : lease.state = .offered)
    (hjob : s.jobs[lease.jobId]? = some job)
    (h : (s.setLeaseState leaseId lease .rejected).transitionJob lease.jobId .canceled now = .ok t) : Leads N s t := by
  obtain ⟨job', hjob', hleased⟩ := hp.job_of_offered hlease hoffered
  obtain rfl : job = job' := Option.mem_unique hjob hjob'
  obtain ⟨_, rfl⟩ := transitionJob_of_ne h hjob (by rw [hleased]; exact JobState.noConfusion)
  exact leads (.close hlease (isOpen_of_offered hoffered) ⟨rfl, rfl, rfl, rfl, le_rfl⟩ rfl hjob rfl)

theorem Change.askCancel (hlease : s.leases[leaseId]? = some lease) (hopen : lease.isOpen = true)
    (hoffered : lease.state ≠ .offered) : Change N s (s.setLease leaseId { lease with state := .cancelRequested }) :=
  .lease hlease ⟨rfl, rfl, rfl, rfl, le_rfl⟩ hopen.symm ⟨fun h => (by cases h), fun h => absurd h hoffered⟩

theorem Store.requestLeaseCancel_leads (hp : Placed s) {value : Lease}
    (h : s.requestLeaseCancel o jobId now = .ok (value, t)) : Leads N s t := by
  rw [requestLeaseCancel] at h
  simp only [bind_eq_ok (x := okOr _ _), okOr_eq_ok, bind_eq_ok (x := send _ _ _)] at h
  obtain ⟨_, hentry, u, hsend, h⟩ := h
  obtain ⟨outside, rfl⟩ := send_eq_ok hsend
  obtain ⟨hlease, rfl, hopen⟩ := mem_openLeasesOf (mem_of_head? hentry)
  have hframe := Frame.outside s outside
  split at h
  · rename_i hoffered
    obtain ⟨job, hjob, hleased⟩ := hp.job_of_offered hlease hoffered
    simp only [bind_eq_ok (x := Store.job _ _)] at h
    obtain ⟨job', hjob', h⟩ := h
    obtain rfl : job = job' := Option.mem_unique hjob (okOr_eq_ok.mp hjob')
    rw [if_pos (by rw [hleased]; rfl)] at h
    simp only [bind_eq_ok, pure_eq_ok, Prod.mk.injEq] at h
    obtain ⟨u, hcancel, _, hconclude, lease, -, -, rfl⟩ := h
    have hcanceled : Leads N _ _ :=
      cancelOffer_leads (s := { s with outside }) (hframe.idles.placed hp) hlease hoffered hjob hcancel
    exact hframe.leads.trans (hcanceled.trans (concludeRunIfTerminal_idles hconclude).leads)
  split at h
  · rename_i hoffered hactive
    simp only [bind_eq_ok, pure_eq_ok, Prod.mk.injEq] at h
    obtain ⟨u, rfl, lease, -, -, rfl⟩ := h
    exact hframe.leads.trans (leads (.askCancel hlease hopen hoffered))
  · simp only [bind_eq_ok, pure_eq_ok, Prod.mk.injEq] at h
    obtain ⟨_, rfl, _, -, -, rfl⟩ := h
    exact hframe.leads

end

/-! ### Completion -/

section
variable {request : CompletionRequest} {taint : CredentialTaintState}

theorem effectiveTaint_rank {stored : Option CredentialTaintState} {incoming effective : CredentialTaintState}
    (h : effectiveTaint stored incoming = .ok effective) : taintRank stored ≤ taintRank (some effective) := by
  cases stored with
  | none => exact Nat.zero_le _
  | some stored => cases stored <;> cases incoming <;> cases h <;> decide

theorem Store.recordCompletionTaint_eq_ok (h : s.recordCompletionTaint o request = .ok (taint, t)) :
    ∃ lease effective outside, s.leases[request.leaseId]? = some lease ∧
      taintRank lease.terminalCredentialTaint ≤ taintRank (some effective) ∧
      t = { s.setLease request.leaseId { lease with terminalCredentialTaint := some effective } with outside } := by
  simp only [recordCompletionTaint, bind_eq_ok, exists_unit] at h
  obtain ⟨-, lease, hfence, effective, heffective, h⟩ := h
  refine ⟨lease, effective, ?_⟩
  split at h
  · obtain ⟨-, rfl⟩ := Prod.mk.inj (pure_eq_ok.mp h)
    exact ⟨s.outside, (validateLeaseFence_eq_ok hfence).1, effectiveTaint_rank heffective, rfl⟩
  · simp only [bind_eq_ok, pure_eq_ok, Prod.mk.injEq] at h
    obtain ⟨_, hsend, -, rfl⟩ := h
    obtain ⟨outside, rfl⟩ := send_eq_ok hsend
    exact ⟨outside, (validateLeaseFence_eq_ok hfence).1, effectiveTaint_rank heffective, rfl⟩

theorem Store.recordCompletionTaint_leads (h : s.recordCompletionTaint o request = .ok (taint, t)) : Leads N s t := by
  obtain ⟨lease, effective, _, hlease, hle, rfl⟩ := recordCompletionTaint_eq_ok h
  have htaint : Leads N s (s.setLease request.leaseId { lease with terminalCredentialTaint := some effective }) :=
    leads (.lease hlease ⟨rfl, rfl, rfl, rfl, hle⟩ rfl Iff.rfl)
  refine htaint.trans (Frame.leads ?_)
  exact .of_eq rfl rfl rfl rfl rfl rfl rfl

variable {lease : Lease}

theorem Store.bindResultObjects_eq_ok {kind : RunnerDataCommitKind} {state state' : Store E × List String}
    (h : bindResultObjects o request lease kind state = .ok state') :
    ∃ objects, state'.1 = { state.1 with jobResultObjects := objects } := by
  refine foldEach_keeps (P := fun st : Store E × List String =>
    ∃ objects, st.1 = { state.1 with jobResultObjects := objects }) ?_ h ⟨state.1.jobResultObjects, rfl⟩
  rintro _ - st st' hbind ⟨objects, hst⟩
  simp only [bindResultObject, bind_eq_ok, exists_unit] at hbind
  obtain ⟨-, -, _, -, _, -, hbind⟩ := hbind
  have hinsert : ∀ {names : List String} {stored : JobResultObject}, (do
      let s ← st.1.insertResultObject stored
      return (s, names)) = .ok st' → ∃ objects, st'.1 = { state.1 with jobResultObjects := objects } := by
    intro _ _ h
    simp only [insertResultObject, bind_eq_ok, exists_unit, pure_eq_ok] at h
    obtain ⟨_, ⟨-, rfl⟩, rfl⟩ := h
    exact ⟨_, by rw [hst]⟩
  cases kind with
  | artifact =>
    simp only [bind_eq_ok (x := okOr _ _), bind_eq_ok (x := rejectIf _ _)] at hbind
    obtain ⟨_, -, -, -, hbind⟩ := hbind
    exact hinsert hbind
  | cache => exact hinsert hbind

variable {final : JobState} {answer : Except Error Lease}

theorem Store.finishCompletion_leads (hp : Placed s)
    (hlease : s.leases[request.leaseId]? = some lease) (hopen : lease.isOpen = true) (hfinal : final.isTerminal = true)
    (h : s.finishCompletion o request lease final = .ok (answer, t)) : Leads N s t := by
  simp only [finishCompletion, bind_eq_ok, exists_unit, pure_eq_ok, Prod.mk.injEq] at h
  obtain ⟨-, _, hartifacts, _, hcaches, -, _, htransition, _, -, _, hrevoke, _, haudit, _,
    hconclude, _, -, -, rfl⟩ := h
  obtain ⟨_, hstate⟩ := bindResultObjects_eq_ok hartifacts
  obtain ⟨objects', hstate'⟩ := bindResultObjects_eq_ok hcaches
  rw [hstate', hstate] at htransition
  obtain ⟨job, hjob, hheld, -⟩ := hp.open_held hlease hopen
  have hidle : final.isHeld = false := by
    by_contra hheldFinal
    rw [JobState.isTerminal_of_isHeld (Bool.not_eq_false _ ▸ hheldFinal)] at hfinal
    cases hfinal
  have hne : job.status ≠ final := by
    rintro rfl
    rw [hheld] at hidle
    cases hidle
  obtain ⟨_, rfl⟩ := transitionJob_of_ne htransition hjob hne
  have hsent := (Frame.sent hrevoke).trans (.sent haudit)
  have hobjects : Change N s { s with jobResultObjects := objects' } := .objects
  refine hobjects.leads.trans (Leads.trans (leads ?_) (hsent.leads.trans (concludeRunIfTerminal_idles hconclude).leads))
  exact .close hlease hopen ⟨rfl, rfl, rfl, rfl, le_rfl⟩ rfl hjob hidle

theorem Store.replayCompletion_eq_ok (h : s.replayCompletion request taint final lease = .ok (answer, t)) : t = s := by
  rw [replayCompletion] at h
  split at h
  · exact (Prod.mk.inj (Except.ok.inj h)).2.symm
  · cases h

theorem Store.completeUnderTaint_leads (hp : Placed s)
    (h : s.completeUnderTaint o request taint = .ok (answer, t)) : Leads N s t := by
  simp only [completeUnderTaint, bind_eq_ok, exists_unit, rejectIf_eq_ok, okOr_eq_ok, ne_eq, not_not,
    Bool.not_eq_false] at h
  obtain ⟨hterminal, -, _, hfence, -, job, hjob, -, _, -, h⟩ := h
  obtain ⟨hlease, -, -, job', hjob', hgeneration⟩ := validateLeaseFence_eq_ok hfence
  obtain rfl : job = job' := Option.mem_unique hjob hjob'
  split at h
  · -- a replay changes nothing
    rw [replayCompletion_eq_ok h]
    exact .refl s
  split at h
  · simp only [expireCompletion, bind_eq_ok, pure_eq_ok, Prod.mk.injEq] at h
    obtain ⟨_, hexpire, _, hconclude, -, rfl⟩ := h
    refine Leads.trans ?_ (concludeRunIfTerminal_idles hconclude).leads
    refine (expireLeaseWithState_leads hp hlease hjob hgeneration ?_ hexpire).1
    split
    · decide
    · split <;> decide
  · simp only [bind_eq_ok, exists_unit, rejectIf_eq_ok, not_and_or, not_not] at h
    obtain ⟨hactive, h⟩ := h
    refine finishCompletion_leads hp hlease (isOpen_of_accepted hactive) ?_ h
    split
    · rfl
    · exact hterminal

end

/-! ### Progress and sources -/

variable {now : Nat}

theorem Store.transitionJobState_leads {jobId : String} {next : JobState} {job : JobRecord}
    (hnext : next ∈ [JobState.running, .finalizing])
    (h : s.transitionJobState o jobId next now = .ok (job, t)) : Leads N s t := by
  have hfinished : next.isFinished ≠ true := by
    simp only [mem_cons, not_mem_nil, or_false] at hnext
    rcases hnext with rfl | rfl <;> decide
  rw [transitionJobState] at h
  simp only [bind_eq_ok (x := transitionJob _ _ _ _), if_neg hfinished] at h
  obtain ⟨_, htransition, h⟩ := h
  simp only [bind_eq_ok, pure_eq_ok, Prod.mk.injEq] at h
  obtain ⟨_, rfl, _, -, -, rfl⟩ := h
  obtain ⟨row, hrow, ⟨-, rfl⟩ | ⟨hcan, _, rfl⟩⟩ := transitionJob_eq_ok htransition
  · exact .refl _
  · -- only a job that a runner has accepted goes on
    have hkind : row.status.isHeld = true ∧ row.status ≠ .leased ∧ next.isHeld = true ∧ next ≠ .leased := by
      simp only [mem_cons, not_mem_nil, or_false] at hnext
      revert hcan
      rcases hnext with rfl | rfl <;> cases row.status <;> decide
    obtain ⟨hheld, hne, hheld', hne'⟩ := hkind
    exact leads (.work hrow hheld hheld' ⟨fun h => absurd h hne', fun h => absurd h hne⟩)

variable {runId : String}

theorem Store.transitionRunState_frame {next : RunState} {run : RunRecord}
    (h : s.transitionRunState o runId next now = .ok (run, t)) : Frame s t := by
  simp only [transitionRunState, bind_eq_ok, exists_unit, Store.run, okOr_eq_ok] at h
  obtain ⟨_, hrun, -, _, -, _, -, h⟩ := h
  split at h
  · simp only [bind_eq_ok, pure_eq_ok, Prod.mk.injEq] at h
    obtain ⟨_, hsend, -, rfl⟩ := h
    refine Frame.trans ?_ (.sent hsend)
    exact .setRun hrun rfl
  · obtain ⟨-, rfl⟩ := Prod.mk.inj (pure_eq_ok.mp h)
    exact .setRun hrun rfl

theorem Store.createSourceSnapshot_frame {snapshot : SourceSnapshotRecord} {answer : SourceSnapshotRecord × Bool}
    (h : s.createSourceSnapshot snapshot = .ok (answer, t)) : Frame s t := by
  simp only [createSourceSnapshot, bind_eq_ok, exists_unit, pure_eq_ok, Prod.mk.injEq] at h
  obtain ⟨-, -, -, -, -, -, -, -, -, -, -, -, rfl⟩ := h
  split <;> exact .of_eq rfl rfl rfl rfl rfl rfl rfl

variable {tenantId snapshotId : String}

theorem Store.markSourceSnapshotReady_frame {manifest : ContentDigest} {verified : Nat} {answer : SourceSnapshotRecord}
    (h : s.markSourceSnapshotReady tenantId snapshotId manifest verified = .ok (answer, t)) : Frame s t := by
  rw [markSourceSnapshotReady] at h
  simp only [bind_eq_ok (x := validateText _), bind_eq_ok (x := sourceSnapshot _ _ _),
    bind_eq_ok (x := rejectIf _ _), exists_unit] at h
  obtain ⟨-, -, _, -, -, h⟩ := h
  split at h
  · simp only [bind_eq_ok, pure_eq_ok, Prod.mk.injEq] at h
    obtain ⟨_, -, u, rfl, ready, -, -, rfl⟩ := h
    exact .of_eq rfl rfl rfl rfl rfl rfl rfl
  split at h
  · simp only [bind_eq_ok, pure_eq_ok, Prod.mk.injEq] at h
    obtain ⟨_, rfl, _, -, -, rfl⟩ := h
    exact .refl _
  · simp only [bind_eq_ok, reduceCtorEq, false_and, exists_false] at h

theorem Store.queueSourceReadyRoots_idles {capsule : Ir.ExecutionCapsule}
    (h : s.queueSourceReadyRoots runId capsule = .ok t) : Idles s t := by
  simp only [queueSourceReadyRoots, bind_eq_ok, pure_eq_ok] at h
  obtain ⟨_, -, rfl⟩ := h
  refine foldlRecOn (motive := fun u => Idles s u) _ _ (.refl s) fun u hu p _ => hu.trans ?_
  exact idles_created (fun job => job.completedUnixMs) (by decide)

theorem Frame.bindSource (s : Store E) (runId : String) (bound : RunSourceSnapshot) :
    Frame s (s.bindSource runId bound) := by
  unfold Store.bindSource
  split <;> exact .of_eq rfl rfl rfl rfl rfl rfl rfl

theorem Store.bindRunSourceSnapshot_idles {digest : ContentDigest} {bound : Nat} {record : RunSourceSnapshot}
    (h : s.bindRunSourceSnapshot tenantId runId snapshotId digest bound = .ok (record, t)) : Idles s t := by
  simp only [bindRunSourceSnapshot, bind_eq_ok, exists_unit, pure_eq_ok, Prod.mk.injEq] at h
  obtain ⟨_, -, _, -, _, -, -, -, boundAt, -, _, -, -, _, hqueue, -, rfl⟩ := h
  exact (Frame.bindSource s runId ⟨snapshotId, digest, boundAt⟩).idles.trans (queueSourceReadyRoots_idles hqueue)

end Runtrue.ControlPlane
