import Runtrue.ControlPlane.Placement

/-!
# Ended leases

A lease that is completed, rejected or expired is final for all later calls that present it
(`closed_lease_final`), unless a completion comes after its deadlines: the deadlines are tested before the
state of the lease, and the job may have gone back to the queue (`late_completion_loses_queued_job`).

The credential taint of a lease only rises over completions, objects are stored only under a taint that
permits replay, and the taint of a run is the worst of its leases (`taint_only_rises`).
-/

namespace Runtrue.ControlPlane

open Fallible Store List Lease Run

variable {E : Type} {o : Outside E} {s t : Store E} {op : Operation E}

/-! ### Calls that present a closed lease -/

/-- The calls of a runner that present a lease. -/
def Operation.presents (leaseId : String) : Operation E → Bool
  | .accept id _ _ _ _ | .reject id _ _ _ _ _ | .heartbeat id _ _ _ _ _ => id = leaseId
  | .recordTaint request | .complete request _ => request.leaseId = leaseId
  | .materialize request => request.executionLeaseId = leaseId
  | _ => false

/-- No completion of a lease after its deadlines, unless the lease was completed, its job has been offered
again, or the lease has expired, the job has ended and its run is settled. -/
def Operation.isHarmless (s : Store E) : Operation E → Bool
  | .complete request _ => (s.leases[request.leaseId]?).all fun lease =>
      decide (lease.state = .completed) ||
      decide (request.completedUnixMs < lease.expiresUnixMs ∧ request.completedUnixMs < lease.hardDeadlineUnixMs) ||
      (s.jobs[lease.jobId]?).all fun job => decide (job.lastGeneration ≠ lease.fencingGeneration) ||
        decide (lease.state = .expired) && job.status.isTerminal && s.runSettled job.runId
  | _ => true

/-- The lease, its job and the run of the job keep their states. -/
structure Undisturbed (s t : Store E) (leaseId : String) (lease : Lease) : Prop where
  state : ∃ lease', t.leases[leaseId]? = some lease' ∧ lease'.state = lease.state
  job : t.jobs[lease.jobId]? = s.jobs[lease.jobId]?
  runs : t.runs = s.runs

section
variable {leaseId : String} {lease : Lease} (hlease : s.leases[leaseId]? = some lease)
include hlease

theorem Undisturbed.refl : Undisturbed s s leaseId lease := ⟨⟨lease, hlease, rfl⟩, rfl, rfl⟩

theorem Store.eq_of_validateLeaseFence {runnerId : String} {generation epoch : Nat} {lease' : Lease}
    (h : s.validateLeaseFence leaseId runnerId generation epoch = .ok lease') : lease' = lease :=
  Option.some.inj ((validateLeaseFence_eq_ok h).1.symm.trans hlease)

variable {request : CompletionRequest} {taint : CredentialTaintState}

theorem undisturbed_recordTaint (hid : request.leaseId = leaseId)
    (h : s.recordCompletionTaint o request = .ok (taint, t)) : Undisturbed s t leaseId lease := by
  subst hid
  obtain ⟨_, _, _, hlease', -, rfl⟩ := recordCompletionTaint_eq_ok h
  obtain rfl := Option.mem_unique hlease hlease'
  exact ⟨⟨_, BTreeMap.get_insert_self _ _ _, rfl⟩, rfl, rfl⟩

theorem undisturbed_expireCompletion {answer : Except Error Lease} {job : JobRecord} {canceled : Bool}
    (hid : request.leaseId = leaseId) (hexpired : lease.state = .expired) (hjob : s.jobs[lease.jobId]? = some job)
    (hended : job.status.isTerminal = true) (hsettled : s.runSettled job.runId = true)
    (h : s.expireCompletion o request lease canceled = .ok (answer, t)) : Undisturbed s t leaseId lease := by
  subst hid
  simp only [expireCompletion, bind_eq_ok, pure_eq_ok, Prod.mk.injEq] at h
  obtain ⟨u, hexpire, x, hconclude, -, rfl⟩ := h
  have hstays : ∀ next, job.status.canTransitionTo next = false := by
    intro next
    revert hended
    cases job.status <;> simp [JobState.isTerminal, JobState.canTransitionTo]
  obtain ⟨_, _, hjob', ⟨-, rfl⟩ | ⟨_, _, hnext, -⟩⟩ := expireLeaseWithState_eq_ok hexpire
  · have hstarted : job.status ≠ .created := by
      intro hcreated
      rw [hcreated] at hended
      cases hended
    obtain ⟨hkept, hruns⟩ := concludeRunIfTerminal_settled hconclude hjob hstarted hsettled
    refine ⟨⟨{ lease with state := .expired }, ?_, hexpired.symm⟩, hkept.trans hjob.symm, hruns⟩
    rw [(concludeRunIfTerminal_idles hconclude).leases]
    exact BTreeMap.get_insert_self _ _ _
  · cases hjob.symm.trans hjob'
    have hcan := (expiredJobState_eq_some hnext).1
    rw [hstays] at hcan
    cases hcan

theorem undisturbed_complete {answer : Except Error Lease} (hclosed : lease.isOpen = false)
    (hid : request.leaseId = leaseId)
    (hharmless : Operation.isHarmless s (.complete request taint : Operation E) = true)
    (h : s.completeUnderTaint o request taint = .ok (answer, t)) : Undisturbed s t leaseId lease := by
  subst hid
  simp only [completeUnderTaint, bind_eq_ok, exists_unit] at h
  obtain ⟨-, -, _, hfence, -, _, -, -, _, -, h⟩ := h
  obtain rfl := eq_of_validateLeaseFence hlease hfence
  obtain ⟨-, -, -, job, hjob, hlast⟩ := validateLeaseFence_eq_ok hfence
  split at h
  · rw [replayCompletion_eq_ok h]
    exact .refl hlease
  rename_i hcompleted
  simp only [Operation.isHarmless, hlease, hjob, Option.all_some, hcompleted, hlast, Bool.or_eq_true, Bool.and_eq_true,
    decide_eq_true_eq, ne_eq, not_true_eq_false, false_or] at hharmless
  split at h
  · rename_i hlate
    rcases hharmless with htimely | ⟨⟨hexpired, hended⟩, hsettled⟩
    · omega
    · exact undisturbed_expireCompletion hlease rfl hexpired hjob hended hsettled h
  · simp only [bind_eq_ok, exists_unit, rejectIf_eq_ok, not_and_or, not_not] at h
    rw [isOpen_of_accepted h.1] at hclosed
    cases hclosed

theorem undisturbed_step (hclosed : lease.isOpen = false) (hpresents : op.presents leaseId = true)
    (hharmless : op.isHarmless s = true) : Undisturbed s (step o s op).2 leaseId lease := by
  have hrefl : Undisturbed s s leaseId lease := .refl hlease
  have hstate : ∀ {lease' : Lease}, lease' = lease → lease'.isOpen ≠ true := by
    rintro _ rfl hopen
    rw [hclosed] at hopen
    cases hopen
  cases op with
  | accept id =>
    obtain rfl : id = leaseId := of_decide_eq_true hpresents
    refine answerLease_cases (P := fun t => Undisturbed s t id lease) hrefl fun answer t h => ?_
    simp only [acceptLease, bind_eq_ok, exists_unit, rejectIf_eq_ok, ne_eq, not_not] at h
    obtain ⟨lease', hfence, hoffered, -⟩ := h
    exact absurd (isOpen_of_offered hoffered) (hstate (eq_of_validateLeaseFence hlease hfence))
  | reject id =>
    obtain rfl : id = leaseId := of_decide_eq_true hpresents
    refine answerLease_cases (P := fun t => Undisturbed s t id lease) hrefl fun answer t h => ?_
    simp only [rejectLeaseWithCode, bind_eq_ok, exists_unit] at h
    obtain ⟨-, lease', hfence, h⟩ := h
    split at h
    · obtain ⟨-, rfl⟩ := Prod.mk.inj (pure_eq_ok.mp h)
      exact hrefl
    · simp only [bind_eq_ok, exists_unit, rejectIf_eq_ok, ne_eq, not_not] at h
      exact absurd (isOpen_of_offered h.1) (hstate (eq_of_validateLeaseFence hlease hfence))
  | heartbeat id =>
    obtain rfl : id = leaseId := of_decide_eq_true hpresents
    refine answerLease_cases (P := fun t => Undisturbed s t id lease) hrefl fun answer t h => ?_
    simp only [heartbeatLease, bind_eq_ok, exists_unit, rejectIf_eq_ok, not_and_or, ne_eq, not_not] at h
    obtain ⟨-, lease', hfence, hactive, -⟩ := h
    exact absurd (isOpen_of_accepted hactive) (hstate (eq_of_validateLeaseFence hlease hfence))
  | recordTaint =>
    exact answer_cases hrefl fun _ t h => undisturbed_recordTaint hlease (of_decide_eq_true hpresents) h
  | complete =>
    exact answerLease_cases hrefl fun answer t h =>
      undisturbed_complete hlease hclosed (of_decide_eq_true hpresents) hharmless h
  | materialize request =>
    obtain rfl : request.executionLeaseId = leaseId := of_decide_eq_true hpresents
    refine answer_cases (P := fun t => Undisturbed s t request.executionLeaseId lease) hrefl fun _ t h => ?_
    rw [materializeExpandedJobSet] at h
    simp only [bind_eq_ok (x := validateText _), bind_eq_ok (x := rejectIf _ _),
      bind_eq_ok (x := validateExpandedJobSetRecord _ _), bind_eq_ok (x := validateLeaseFence _ _ _ _ _),
      exists_unit, rejectIf_eq_ok, not_or, ne_eq, not_not] at h
    obtain ⟨-, -, -, -, -, _, hfence, ⟨hactive, -⟩, -⟩ := h
    exact absurd (isOpen_of_accepted (.inl hactive)) (hstate (eq_of_validateLeaseFence hlease hfence))
  | _ => cases hpresents

end

/-- **A closed lease is final.** In every run that serves runners, after a state in which a lease is closed: the
lease stays closed, and no call that presents it changes the state of the lease, of its job or of its run, if
the completions among these calls are harmless. -/
theorem closed_lease_final {outside : E} {quotas : BTreeMap String Nat} {s₀ : Store E} {leaseId : String}
    {h₀ h : List (Run.Event (Store E) (Operation E) (Except Error Reply))}
    (hbefore : Run.Reaches (step o) (installed outside quotas) h₀ s₀) (hserved : Run.AllCalls Serves h₀)
    (hclosed : s₀.Closed leaseId) (hlater : Run.Reaches (step o) s₀ h s)
    (hall : Run.AllCalls (fun e past => Serves e past ∧
      (e.op.presents leaseId = true → e.op.isHarmless e.before = true)) h) :
    s.Closed leaseId ∧ ∀ e ∈ h, ∃ lease, (e.before.leases[leaseId]? = some lease ∧ lease.isOpen = false) ∧
      (e.op.presents leaseId = true → Undisturbed e.before (step o e.before e.op).2 leaseId lease) := by
  obtain ⟨hplaces, -⟩ := reaches_places (places_installed outside quotas) hbefore hserved
  have hinvariant := hlater.invariant (P := fun h t => (Places t ∧ t.Closed leaseId) ∧ ∀ e ∈ h, ∃ lease,
      (e.before.leases[leaseId]? = some lease ∧ lease.isOpen = false) ∧
        (e.op.presents leaseId = true → Undisturbed e.before (step o e.before e.op).2 leaseId lease))
    ⟨⟨hplaces, hclosed⟩, fun e he => absurd he not_mem_nil⟩ (fun h t op _ hcall ⟨⟨ht, hopen⟩, hpast⟩ => by
      obtain ⟨hserves, hharmless⟩ := hcall
      obtain ⟨hnext, hkept⟩ := step_places (o := o) ht hserves.1 hserves.2
      refine ⟨⟨hnext, (hkept (.refl t)).closed hopen⟩, forall_mem_cons.mpr ⟨?_, hpast⟩⟩
      obtain ⟨lease, hlease, hstate⟩ := hopen
      exact ⟨lease, ⟨hlease, hstate⟩, fun hpresents => undisturbed_step hlease hstate hpresents (hharmless hpresents)⟩)
    hall
  exact ⟨hinvariant.1.2, hinvariant.2⟩

/-- A run in which the only offer lapses. -/
def lapsed : List (Operation Unit) :=
  installation ++ startRun "r1" (plainCapsule [plainJob "a" [] none] []) 1 ++
    [.offer "l1" "runner" 3, .maintenance 20000]

/-- Completions under the lapsed lease: one before its deadline, and one after the job was offered again. -/
def lateCalls : List (Operation Unit) :=
  [.complete (completion "l1" .succeeded 20001) .none, .offer "l2" "runner" 20002,
    .complete (completion "l1" .succeeded 70000) .none]

theorem closed_lease_final_lapsed :
    let s₀ := (Run.exec (step quietOutside) (installed () ∅) lapsed).2
    (Run.exec (step quietOutside) s₀ lateCalls).2.Closed "l1" ∧
      ∀ e ∈ (Run.exec (step quietOutside) s₀ lateCalls).1, e.op.presents "l1" = true →
        ∃ lease, Undisturbed e.before (step quietOutside e.before e.op).2 "l1" lease := by
  have hclosed : ((exec (step quietOutside) (installed () ∅) lapsed).2.leases["l1"]?.any fun lease =>
      !lease.isOpen) = true := by decide +kernel
  obtain ⟨lease, hlease, hstate⟩ := (Option.any_eq_true _ _).mp hclosed
  obtain ⟨hstays, hpast⟩ := closed_lease_final (reaches_exec (step quietOutside) (installed () ∅) lapsed)
    (by decide +kernel) ⟨lease, hlease, by simpa using hstate⟩
    (reaches_exec (step quietOutside) (exec (step quietOutside) (installed () ∅) lapsed).2 lateCalls)
    (by decide +kernel)
  refine ⟨hstays, fun e he hpresents => ?_⟩
  obtain ⟨lease, -, hkept⟩ := hpast e he
  exact ⟨lease, hkept hpresents⟩

/-- The offer of a job lapses, the job returns to the queue, and a completion that presents the lapsed lease
after its deadline takes the job out of the queue. -/
theorem late_completion_loses_queued_job :
    let before := (exec (step quietOutside) (installed () ∅)
      (lapsed ++ [.recordTaint (completion "l1" .succeeded 70000)])).2
    let after := (step quietOutside before (.complete (completion "l1" .succeeded 70000) .none)).2
    (before.leases["l1"]?.map (fun lease => (lease.state, lease.jobId)) = some (.expired, "r1/a") ∧
        before.jobs["r1/a"]?.map (·.status) = some .queued) ∧
      after.jobs["r1/a"]?.map (·.status) = some .lost ∧
        ∀ lease, before.leases["l1"]? = some lease → ¬Undisturbed before after "l1" lease := by
  intro before after
  have hlease : before.leases["l1"]?.map (fun lease => (lease.state, lease.jobId)) = some (.expired, "r1/a") := by
    decide +kernel
  have hbefore : before.jobs["r1/a"]?.map (·.status) = some .queued := by decide +kernel
  have hafter : after.jobs["r1/a"]?.map (·.status) = some .lost := by decide +kernel
  refine ⟨⟨hlease, hbefore⟩, hafter, fun lease hrow hsame => ?_⟩
  rw [hrow, Option.map_some] at hlease
  have hjob : lease.jobId = "r1/a" := (Prod.mk.inj (Option.some.inj hlease)).2
  rw [← hjob, hsame.job, hjob, hbefore] at hafter
  cases hafter

/-! ### Credential taint -/

def Operation.completes : Operation E → Bool
  | .recordTaint _ | .complete _ _ => true
  | _ => false

/-- Every lease is still there, with a taint that is not lower. -/
def TaintsRise (s t : Store E) : Prop :=
  ∀ (leaseId : String) (lease : Lease), s.leases[leaseId]? = some lease →
    ∃ lease', t.leases[leaseId]? = some lease' ∧
      taintRank lease.terminalCredentialTaint ≤ taintRank lease'.terminalCredentialTaint

theorem TaintsRise.refl (s : Store E) : TaintsRise s s := fun _ lease hlease => ⟨lease, hlease, le_rfl⟩

theorem TaintsRise.trans {u : Store E} (h : TaintsRise s t) (h' : TaintsRise t u) : TaintsRise s u := by
  intro leaseId lease hlease
  obtain ⟨lease', hlease', hle⟩ := h leaseId lease hlease
  obtain ⟨lease'', hlease'', hle'⟩ := h' leaseId lease' hlease'
  exact ⟨lease'', hlease'', hle.trans hle'⟩

theorem TaintsRise.insert {leaseId : String} {lease lease' : Lease} (hlease : s.leases[leaseId]? = some lease)
    (hleases : t.leases = s.leases.insert leaseId lease')
    (hle : taintRank lease.terminalCredentialTaint ≤ taintRank lease'.terminalCredentialTaint) : TaintsRise s t := by
  intro id row hrow
  rw [hleases]
  by_cases hid : leaseId = id
  · subst hid
    obtain rfl : lease = row := Option.mem_unique hlease hrow
    exact ⟨lease', BTreeMap.get_insert_self _ _ _, hle⟩
  · exact ⟨row, BTreeMap.get_insert_eq_some.mpr (.inr ⟨hid, hrow⟩), le_rfl⟩

/-- The objects of a state after `s` are those of `s`, or the operation is a completion under a taint that
permits replay, stored with its lease. -/
def StoresObjects (s : Store E) (op : Operation E) (t : Store E) : Prop :=
  t.jobResultObjects = s.jobResultObjects ∨ ∃ request taint lease, op = .complete request taint ∧
    s.leases[request.leaseId]? = some lease ∧ lease.terminalCredentialTaint = some taint ∧
    taint.permitsReplayOrCheckpoint = true

section
variable {request : CompletionRequest} {taint : CredentialTaintState} {answer : Except Error Lease}

theorem rises_recordTaint (h : s.recordCompletionTaint o request = .ok (taint, t)) :
    TaintsRise s t ∧ t.jobResultObjects = s.jobResultObjects := by
  obtain ⟨_, _, _, hlease, hle, rfl⟩ := recordCompletionTaint_eq_ok h
  exact ⟨.insert hlease rfl hle, rfl⟩

theorem rises_finishCompletion {lease : Lease} {final : JobState} (hlease : s.leases[request.leaseId]? = some lease)
    (h : s.finishCompletion o request lease final = .ok (answer, t)) :
    TaintsRise s t ∧ (request.artifactIds = [] → request.cacheEntryIds = [] →
      t.jobResultObjects = s.jobResultObjects) := by
  simp only [finishCompletion, bind_eq_ok, exists_unit, pure_eq_ok, Prod.mk.injEq] at h
  obtain ⟨-, state, hartifacts, state', hcaches, -, u, htransition, completed, -, _, hrevoke, _, haudit, x,
    hconclude, _, -, -, rfl⟩ := h
  obtain ⟨_, hstate⟩ := bindResultObjects_eq_ok hartifacts
  obtain ⟨_, hstate'⟩ := bindResultObjects_eq_ok hcaches
  obtain ⟨_, rfl⟩ := send_eq_ok hrevoke
  obtain ⟨_, rfl⟩ := send_eq_ok haudit
  have hidles := concludeRunIfTerminal_idles hconclude
  have hbound : state'.1.leases = s.leases := by rw [hstate', hstate]
  have hmoved : u.leases = state'.1.leases ∧ u.jobResultObjects = state'.1.jobResultObjects := by
    obtain ⟨_, -, ⟨-, rfl⟩ | ⟨-, _, rfl⟩⟩ := transitionJob_eq_ok htransition <;> exact ⟨rfl, rfl⟩
  have hleases : x.leases = s.leases.insert request.leaseId { lease with
      state := .completed, terminalResultDigest := some request.resultDigest
      terminalJobState := some final, completedUnixMs := some completed } := by
    rw [hidles.leases, ← hbound, ← hmoved.1]
    rfl
  refine ⟨.insert hlease hleases le_rfl, fun hnone hnone' => ?_⟩
  -- nothing is submitted, so nothing is bound
  rw [hidles.objects]
  simp only [bindResultObjects, CompletionRequest.submitted, hnone] at hartifacts
  simp only [bindResultObjects, CompletionRequest.submitted, hnone'] at hcaches
  cases hartifacts
  cases hcaches
  exact hmoved.2

theorem rises_complete (h : s.completeUnderTaint o request taint = .ok (answer, t)) :
    TaintsRise s t ∧ StoresObjects s (.complete request taint) t := by
  simp only [completeUnderTaint, bind_eq_ok, exists_unit, refuseTaintedObjects, rejectIf_eq_ok, ne_eq,
    not_not] at h
  obtain ⟨-, hpermits, lease, hfence, htaint, _, -, -, _, -, h⟩ := h
  obtain ⟨hlease, -⟩ := Store.validateLeaseFence_eq_ok hfence
  split at h
  · rw [replayCompletion_eq_ok h]
    exact ⟨.refl s, .inl rfl⟩
  split at h
  · simp only [expireCompletion, bind_eq_ok, pure_eq_ok, Prod.mk.injEq] at h
    obtain ⟨_, hexpire, _, hconclude, -, rfl⟩ := h
    have hidles := concludeRunIfTerminal_idles hconclude
    obtain ⟨_, _, -, ⟨-, rfl⟩ | ⟨_, _, -, rfl⟩⟩ := expireLeaseWithState_eq_ok hexpire <;>
      exact ⟨.insert hlease hidles.leases le_rfl, .inl hidles.objects⟩
  · simp only [bind_eq_ok, exists_unit] at h
    obtain ⟨hrises, hobjects⟩ := rises_finishCompletion hlease h.2
    refine ⟨hrises, ?_⟩
    cases hpermit : taint.permitsReplayOrCheckpoint with
    | true => exact .inr ⟨request, taint, lease, rfl, hlease, htaint, hpermit⟩
    | false =>
      rw [hpermit] at hpermits
      simp only [true_and, not_or, not_not] at hpermits
      exact .inl (hobjects hpermits.1 hpermits.2)

end

theorem rises_step (hcompletes : op.completes = true) :
    TaintsRise s (step o s op).2 ∧ StoresObjects s op (step o s op).2 := by
  have hrefl : TaintsRise s s ∧ StoresObjects s op s := ⟨.refl s, .inl rfl⟩
  cases op with
  | recordTaint request =>
    refine answer_cases (P := fun t => TaintsRise s t ∧ StoresObjects s (.recordTaint request) t) hrefl fun _ _ h => ?_
    obtain ⟨hrises, hobjects⟩ := rises_recordTaint h
    exact ⟨hrises, .inl hobjects⟩
  | complete request taint =>
    exact answerLease_cases (P := fun t => TaintsRise s t ∧ StoresObjects s (.complete request taint) t) hrefl
      fun _ _ h => rises_complete h
  | _ => cases hcompletes

theorem aggregateTaint_spec (aggregate : CredentialTaintState) (taints : List (Option CredentialTaintState)) :
    (aggregateTaint aggregate taints = .none → aggregate = .none ∧ ∀ taint ∈ taints, taint = some .none) ∧
      (some .credentialReleased ∈ taints → aggregateTaint aggregate taints = .credentialReleased) := by
  induction taints generalizing aggregate with
  | nil => exact ⟨fun h => ⟨h, fun _ hmem => absurd hmem not_mem_nil⟩, fun h => absurd h not_mem_nil⟩
  | cons taint _ ih =>
    cases taint with
    | none =>
      refine ⟨fun h => ?_, fun hmem => (ih .unknown).2 (by simpa using hmem)⟩
      cases ((ih .unknown).1 h).1
    | some taint =>
      cases taint with
      | none =>
        refine ⟨fun h => ?_, fun hmem => (ih aggregate).2 (by simpa using hmem)⟩
        exact ⟨((ih aggregate).1 h).1, forall_mem_cons.mpr ⟨rfl, ((ih aggregate).1 h).2⟩⟩
      | unknown =>
        refine ⟨fun h => ?_, fun hmem => (ih .unknown).2 (by simpa using hmem)⟩
        cases ((ih .unknown).1 h).1
      | credentialReleased => exact ⟨fun h => (by cases h), fun _ => rfl⟩

def Store.HasTaint (s : Store E) (runId : String) (taint : Option CredentialTaintState) : Prop :=
  ∃ (leaseId : String) (lease : Lease) (job : JobRecord), s.leases[leaseId]? = some lease ∧
    s.jobs[lease.jobId]? = some job ∧ job.runId = runId ∧ lease.terminalCredentialTaint = taint

theorem Store.mem_runTaints {runId : String} {taint : Option CredentialTaintState} :
    taint ∈ s.runTaints runId ↔ s.HasTaint runId taint := by
  simp only [runTaints, mem_map, mem_filter, BTreeMap.mem_toList, Option.any_eq_true, decide_eq_true_eq,
    HasTaint]
  constructor
  · rintro ⟨entry, ⟨hlease, job, hjob, hrun⟩, htaint⟩
    exact ⟨entry.1, entry.2, job, hlease, hjob, hrun, htaint⟩
  · rintro ⟨leaseId, lease, job, hlease, hjob, hrun, htaint⟩
    exact ⟨(leaseId, lease), ⟨hlease, job, hjob, hrun⟩, htaint⟩

theorem Store.runCredentialTaint_spec {runId : String} {run : RunRecord} (hid : validateText runId = .ok ())
    (hrun : s.runs[runId]? = some run) : ∃ taint, s.runCredentialTaint runId = .ok taint ∧
      (taint = .none → ∀ stored, s.HasTaint runId stored → stored = some .none) ∧
      (s.HasTaint runId (some .credentialReleased) → taint = .credentialReleased) := by
  simp only [runCredentialTaint, hid, Store.run, hrun, okOr, ok_bind]
  split
  · -- a run without leases
    rename_i hnone
    have hno : ∀ {stored : Option CredentialTaintState}, ¬s.HasTaint runId stored := fun hstored =>
      not_mem_nil (List.isEmpty_iff.mp hnone ▸ mem_runTaints.mpr hstored)
    exact ⟨_, rfl, fun _ _ hstored => absurd hstored hno, fun hstored => absurd hstored hno⟩
  · obtain ⟨hclean, hreleased⟩ := aggregateTaint_spec .none (s.runTaints runId)
    exact ⟨_, rfl, fun h stored hstored => (hclean h).2 stored (mem_runTaints.mpr hstored),
      fun hstored => hreleased (mem_runTaints.mpr hstored)⟩

/-- **Credential taint only rises, and gates every object.** Over every sequence of completions no stored taint
goes down, objects are stored under the stored taint of their lease, which permits replay, and the taint of a
stored run is the worst of its leases. -/
theorem taint_only_rises {s₀ : Store E} {h : List (Run.Event (Store E) (Operation E) (Except Error Reply))}
    (hrun : Run.Reaches (step o) s₀ h s) (hall : Run.AllCalls (fun e _ => e.op.completes = true) h) :
    TaintsRise s₀ s ∧
      (∀ e ∈ h, StoresObjects e.before e.op (step o e.before e.op).2 ∧ TaintsRise e.before s) ∧
      ∀ {runId : String} {run : RunRecord}, validateText runId = .ok () → s.runs[runId]? = some run →
        ∃ taint, s.runCredentialTaint runId = .ok taint ∧
          (taint = .none → ∀ stored, s.HasTaint runId stored → stored = some .none) ∧
          (s.HasTaint runId (some .credentialReleased) → taint = .credentialReleased) := by
  obtain ⟨hrises, hevents⟩ := hrun.invariant (P := fun h t => TaintsRise s₀ t ∧
      ∀ e ∈ h, StoresObjects e.before e.op (step o e.before e.op).2 ∧ TaintsRise e.before t)
    ⟨.refl s₀, fun e he => absurd he not_mem_nil⟩ (fun h t op _ hcall ⟨hrises, hevents⟩ => by
      obtain ⟨hstep, hobjects⟩ := rises_step (o := o) (s := t) hcall
      refine ⟨hrises.trans hstep, fun e he => ?_⟩
      rcases mem_cons.mp he with rfl | he
      · exact ⟨hobjects, hstep⟩
      · exact ⟨(hevents e he).1, (hevents e he).2.trans hstep⟩) hall
  exact ⟨hrises, hevents, fun hid hstored => runCredentialTaint_spec hid hstored⟩

/-- A lease of an accepted job, before its completion. -/
def accepted : List (Operation Unit) :=
  installation ++ startRun "r1" (plainCapsule [plainJob "a" [] none] []) 1 ++
    [.offer "l1" "runner" 3, .accept "l1" "runner" 1 1 4, .transitionJob "r1/a" .finalizing 5]

/-- A completion that has seen a credential, and the completion it is reported with. -/
def released : CompletionRequest := { completion "l1" .failed 6 with credentialTaint := .credentialReleased }

theorem taint_only_rises_accepted :
    let s₀ := (exec (step quietOutside) (initial ()) accepted).2
    let s := (exec (step quietOutside) s₀ [.recordTaint released, .complete released .credentialReleased]).2
    s.leases["l1"]?.map (·.terminalCredentialTaint) = some (some .credentialReleased) ∧ TaintsRise s₀ s ∧
      s.jobResultObjects = s₀.jobResultObjects ∧ s.runCredentialTaint "r1" = .ok .credentialReleased := by
  intro s₀ s
  have hlease : (s.leases["l1"]?.any fun lease => decide (lease.terminalCredentialTaint = some .credentialReleased) &&
      s.jobs[lease.jobId]?.any fun job => decide (job.runId = "r1")) = true := by decide +kernel
  have hruns : s.runs["r1"]?.isSome = true := by decide +kernel
  obtain ⟨run, hrun⟩ := Option.isSome_iff_exists.mp hruns
  obtain ⟨hrises, -, htaint⟩ := taint_only_rises (reaches_exec (step quietOutside) s₀
    [.recordTaint released, .complete released .credentialReleased]) (by decide +kernel)
  obtain ⟨taint, hok, -, hreleased⟩ := htaint (by decide +kernel) hrun
  obtain ⟨lease, hrow, hfields⟩ := (Option.any_eq_true _ _).mp hlease
  rw [Bool.and_eq_true, decide_eq_true_eq, Option.any_eq_true] at hfields
  obtain ⟨hstored, job, hjob, hof⟩ := hfields
  refine ⟨by rw [hrow, Option.map_some, hstored], hrises, by decide +kernel, ?_⟩
  rw [hok, hreleased ⟨"l1", lease, job, hrow, hjob, of_decide_eq_true hof, hstored⟩]

end Runtrue.ControlPlane
