import Runtrue.ControlPlane.Expiry

/-!
# The offer of a lease

`offer_next_lease_for_runner` is maintenance, then the judgement of one candidate after the other (a
candidate that can never run is blocked, and its run concluded), then the lease for the best of those that
were admitted (`Store.offerNextLeaseForRunner_moves`). The candidates that are judged after the chosen one
are idle changes, so what was judged still holds when the lease is issued.
-/

namespace Runtrue.ControlPlane

open Fallible Option List

variable {E : Type} {o : Outside E} {s t u v : Store E} {N : Prop}

/-! ### The judgement of the candidates -/

/-- What a judgement that admits a candidate has seen. -/
structure Store.Judged (s : Store E) (ctx : OfferContext) (candidate : AdmissibleCandidate) : Prop where
  stored : s.jobs[candidate.jobId]? = some candidate.job
  fits : ctx.fits candidate.job.requirements = true
  group : ∀ {group : String} {run : RunRecord}, candidate.job.concurrencyGroup = some group →
    s.runs[candidate.job.runId]? = some run →
    s.firstOfGroup ctx.tenantId run.repositoryId group = some candidate.jobId
  scored : candidate.score.jobId = candidate.jobId

variable {ctx : OfferContext} {candidate : AdmissibleCandidate} {jobId : String}

theorem Store.judged_of_judgeCandidate
    (h : s.judgeCandidate o ctx jobId = .ok (.admissible candidate)) : s.Judged ctx candidate := by
  simp only [judgeCandidate, bind_eq_ok, exists_unit, rejectIf_eq_ok, okOr_eq_ok, Store.job, ne_eq, not_not] at h
  obtain ⟨job, hjob, run, hrun, _, -, _, -, -, _, -, -, hconcurrency, h⟩ := h
  split at h
  · cases pure_eq_ok.mp h
  split at h
  · cases pure_eq_ok.mp h
  · cases h
  rw [judgeTurn] at h
  split at h
  · cases h
  split at h
  · split at h <;> cases h
  split at h
  · cases h
  rename_i hgroup
  simp only [judgePlacement, bind_eq_ok] at h
  obtain ⟨_, -, h⟩ := h
  split at h
  · cases pure_eq_ok.mp h
  split at h
  · cases pure_eq_ok.mp h
  rename_i hfits
  cases pure_eq_ok.mp h
  refine ⟨hjob, Bool.not_eq_false _ ▸ hfits, fun {group run'} hgroupOf hrun' => ?_, rfl⟩
  have hrun' : s.runs[job.runId]? = some run' := hrun'
  obtain rfl : run = run' := Option.mem_unique hrun hrun'
  have hgroupOf : job.concurrencyGroup = some group := hgroupOf
  rw [← hconcurrency, hgroupOf, any_some, Bool.not_eq_true, Bool.not_eq_false', concurrencyGroupAvailable,
    decide_eq_true_eq] at hgroup
  exact hgroup

variable {now : Nat}

theorem Store.blockCandidate_idles (h : s.blockJob jobId .queued now = .ok t) : Idles s t := by
  simp only [blockJob, bind_eq_ok] at h
  obtain ⟨_, -, h⟩ := h
  split at h
  · rename_i job hjob
    split at h
    · rename_i hqueued
      rw [← pure_eq_ok.mp h]
      exact Idle.idles (.job hjob (by rw [hqueued]; rfl) rfl (fun h => by cases h) JobState.noConfusion)
    · exact pure_eq_ok.mp h ▸ .refl s
  · exact pure_eq_ok.mp h ▸ .refl s

/-- What holds after some candidates have been judged: the admitted ones were judged on the way. -/
structure Judging (ctx : OfferContext) (s : Store E) (state : Store E × List AdmissibleCandidate) : Prop where
  idles : Idles s state.1
  admitted : ∀ candidate ∈ state.2, ∃ u, u.Judged ctx candidate ∧ Idles u state.1

theorem Judging.considerCandidate {state state' : Store E × List AdmissibleCandidate}
    (hjudging : Judging ctx s state) (h : Store.considerCandidate o ctx state jobId = .ok state') :
    Judging ctx s state' := by
  simp only [Store.considerCandidate, bind_eq_ok] at h
  obtain ⟨verdict, hverdict, h⟩ := h
  cases verdict with
  | passOver => exact pure_eq_ok.mp h ▸ hjudging
  | block =>
    simp only [bind_eq_ok, pure_eq_ok] at h
    obtain ⟨_, hblock, _, hconclude, rfl⟩ := h
    have hidles := (Store.blockCandidate_idles hblock).trans (Store.concludeRunIfTerminal_idles hconclude)
    refine ⟨hjudging.idles.trans hidles, fun candidate hcandidate => ?_⟩
    obtain ⟨w, hjudged, hafter⟩ := hjudging.admitted candidate hcandidate
    exact ⟨w, hjudged, hafter.trans hidles⟩
  | admissible =>
    obtain rfl := pure_eq_ok.mp h
    refine ⟨hjudging.idles, fun candidate hcandidate => ?_⟩
    rcases mem_append.mp hcandidate with hcandidate | hcandidate
    · exact hjudging.admitted candidate hcandidate
    · obtain rfl := mem_singleton.mp hcandidate
      exact ⟨state.1, Store.judged_of_judgeCandidate hverdict, .refl _⟩

/-! ### What is reserved on a runner -/

theorem checkedAdd_eq_ok {name : String} {x y z : Nat} (h : checkedAdd name x y = .ok z) : z = x + y := by
  simp only [checkedAdd, bind_eq_ok, exists_unit, pure_eq_ok] at h
  exact h.2.symm

theorem foldEach_addReserved {reserved : List Scheduling.SchedulingRequirements} {start total : Nat × Nat × Nat}
    (h : foldEach addReserved start reserved = .ok total) :
    total = (start.1 + (reserved.map (·.cpu.toNat)).sum, start.2.1 + (reserved.map (·.memoryBytes.toNat)).sum,
      start.2.2 + (reserved.map (·.storageBytes.toNat)).sum) := by
  induction reserved generalizing start with
  | nil =>
    cases h
    rfl
  | cons _ _ ih =>
    obtain ⟨_, hnext, hrest⟩ := foldEach_cons_eq_ok.mp h
    simp only [addReserved, bind_eq_ok, pure_eq_ok] at hnext
    obtain ⟨_, hcpu, _, hmemory, _, hstorage, rfl⟩ := hnext
    rw [ih hrest, checkedAdd_eq_ok hcpu, checkedAdd_eq_ok hmemory, checkedAdd_eq_ok hstorage]
    simp only [map_cons, sum_cons, add_assoc]

variable {runnerId : String} {job : JobRecord} {runner : Runner}

theorem Store.HasRoom.congr (h : s.HasRoom runnerId runner job)
    (hreserved : t.runnerReservedRequirements runnerId = s.runnerReservedRequirements runnerId) :
    t.HasRoom runnerId runner job :=
  ⟨hreserved ▸ h.cpu, hreserved ▸ h.memory, hreserved ▸ h.storage, hreserved ▸ h.wasm, hreserved ▸ h.exclusive⟩

theorem Store.hasRoom_of_fits {total : Nat × Nat × Nat}
    (htotal : s.runnerReservedResources runnerId = .ok total) (hrunner : ctx.runner = runner.record)
    (hreserved : ctx.reserved = s.runnerReservedRequirements runnerId)
    (hcpu : total.1 ≤ ctx.usedCpu) (hmemory : total.2.1 ≤ ctx.usedMemory)
    (hstorage : total.2.2 ≤ ctx.usedStorage) (h : ctx.fits job.requirements = true) :
    s.HasRoom runnerId runner job := by
  rw [foldEach_addReserved htotal] at hcpu hmemory hstorage
  simp only [zero_add] at hcpu hmemory hstorage
  simp only [OfferContext.fits, Bool.and_eq_true, decide_eq_true_eq, hrunner] at h
  obtain ⟨⟨⟨⟨⟨⟨⟨⟨⟨hisolation, -⟩, -⟩, -⟩, -⟩, -⟩, -⟩, _⟩, _⟩, _⟩ := h
  rw [OfferContext.isolationCapacityAvailable, hreserved, hrunner] at hisolation
  refine ⟨by omega, by omega, by omega, fun hwasm => ?_, fun hother => ?_⟩
  · rw [hwasm] at hisolation
    simpa using hisolation
  · cases hkind : job.requirements.isolation with
    | wasm => exact absurd hkind hother
    | oci | microvm | native =>
      rw [hkind] at hisolation
      exact List.isEmpty_iff.mp hisolation

theorem Idles.runnerReservedRequirements (h : Idles s t) (runnerId : String) :
    t.runnerReservedRequirements runnerId = s.runnerReservedRequirements runnerId := by
  rw [Store.runnerReservedRequirements, Store.runnerReservedRequirements, h.leases]
  exact congrArg (fun f => filterMap f _) (funext fun entry => h.requirements entry.2.jobId)

/-! ### The turn of a job -/

theorem JobRecord.SameJob.groupOf {job job' : JobRecord} (h : job.SameJob job') (s : Store E) :
    s.groupOf job' = s.groupOf job := by
  rw [Store.groupOf, Store.groupOf, h.concurrencyGroup, h.runId]

theorem Store.inGroup_iff {tenantId repositoryId group : String} :
    s.inGroup tenantId repositoryId group job = true ↔ s.groupOf job = some (tenantId, repositoryId, group) := by
  simp only [inGroup, groupOf, tenantOf, Bool.and_eq_true, decide_eq_true_eq, Option.any_eq_true, bind, pure,
    bind_eq_some_iff, map_eq_some_iff, Option.some.injEq, Prod.mk.injEq]
  constructor
  · rintro ⟨hgroup, run, hrun, rfl, htenant⟩
    exact ⟨group, hgroup, _, ⟨run, hrun, rfl⟩, tenantId, of_decide_eq_true htenant, rfl, rfl, rfl⟩
  · rintro ⟨_, hgroup, _, ⟨run, hrun, rfl⟩, _, htenant, rfl, rfl, rfl⟩
    exact ⟨hgroup, run, hrun, rfl, decide_eq_true htenant⟩

variable {job' : JobRecord}

theorem Store.Judged.turn (h : s.Judged ctx candidate) {id : String}
    (hjob' : s.jobs[id]? = some job') (hheld : job'.status.isHeld = true) (hgroup : s.SameGroup candidate.job job') :
    ¬Store.turn (id, job') < Store.turn (candidate.jobId, candidate.job) := by
  obtain ⟨hsome, hsame⟩ := hgroup
  obtain ⟨⟨_, _, group⟩, hkey⟩ := ne_none_iff_exists'.mp hsome
  have hmember := inGroup_iff.mpr hkey
  simp only [inGroup, Bool.and_eq_true, decide_eq_true_eq, Option.any_eq_true] at hmember
  obtain ⟨hgroupOf, _, hrun, rfl, -⟩ := hmember
  have hfirst := h.group hgroupOf hrun
  obtain ⟨entry, hmin, hid⟩ := map_eq_some_iff.mp hfirst
  have hentry := mem_filter.mp (argmin_mem hmin)
  obtain ⟨id', row⟩ := entry
  obtain rfl : id' = candidate.jobId := hid
  obtain rfl : candidate.job = row := Option.mem_unique h.stored (BTreeMap.mem_toList.mp hentry.1)
  rw [Bool.and_eq_true] at hentry
  -- the group of the judgement is the group of the job
  have hgroup := inGroup_iff.mp hentry.2.1
  refine not_lt_of_mem_argmin (mem_filter.mpr ⟨BTreeMap.mem_toList.mpr hjob', ?_⟩) hmin
  rw [inGroup_iff.mpr (hsame.trans hgroup), Bool.true_and, hheld, Bool.or_true]

theorem Idles.turn (h : Idles u v) (hjudged : u.Judged ctx candidate)
    (hjob : v.jobs[candidate.jobId]? = some job) {id : String} (hjob' : v.jobs[id]? = some job')
    (hheld : job'.status.isHeld = true) (hgroup : v.SameGroup job job') :
    ¬Store.turn (id, job') < Store.turn (candidate.jobId, job) := by
  have hsame : candidate.job.SameJob job := by
    obtain ⟨row, hrow, hsame⟩ := (h.leads (N := True)).keeps
      (P := fun w => ∃ row, w.jobs[candidate.jobId]? = some row ∧ candidate.job.SameJob row)
      (fun hchange ⟨row, hrow, hsame⟩ =>
        have ⟨row', hrow', hsame', _⟩ := hchange.job_kept hrow
        ⟨row', hrow', hsame.trans hsame'⟩)
      ⟨candidate.job, hjudged.stored, .refl _⟩
    obtain rfl : row = job := Option.mem_unique hrow hjob
    exact hsame
  have hturn : Store.turn (candidate.jobId, job) = Store.turn (candidate.jobId, candidate.job) := by
    rw [Store.turn, Store.turn, hsame.createdUnixMs]
  rw [hturn]
  refine hjudged.turn (h.held hjob' hheld) hheld ?_
  rw [Store.SameGroup, h.groupOf, h.groupOf, hsame.groupOf] at hgroup
  exact hgroup

/-! ### The lease -/

variable {leaseId : String}

theorem Store.issueLease_leads (hp : Placed s) {issued : Lease × Store E}
    (hrunner : ∃ runner : Runner, s.runners[ctx.runnerId]? = some runner ∧
      (runner.ephemeral = true → s.hasLease ctx.runnerId = false) ∧
      ∀ job : JobRecord, s.jobs[candidate.jobId]? = some job → s.HasRoom ctx.runnerId runner job)
    (hquota : s.tenantOpenLeases ctx.tenantId < s.tenantQuota ctx.tenantId)
    (hturn : ∀ {job : JobRecord}, s.jobs[candidate.jobId]? = some job →
      ∀ {id : String} {job' : JobRecord}, s.jobs[id]? = some job' → job'.status.isHeld = true →
        s.SameGroup job job' → ¬Store.turn (id, job') < Store.turn (candidate.jobId, job))
    (h : s.issueLease o leaseId ctx candidate = .ok issued) : ∃ u, Leads N s u ∧ Issue u issued.2 := by
  simp only [issueLease, insertLease, bind_eq_ok, exists_unit, rejectIf_eq_ok, okOr_eq_ok, not_or, pure_eq_ok] at h
  obtain ⟨_, -, hardDeadline, -, acceptBy, -, expires, -, -, job, hjob, _, hgeneration', generation,
    hgeneration, deadline, -, _, ⟨⟨hfresh, -, hclash⟩, rfl⟩, _, hsend, _, htransition, lease, -, rfl⟩ := h
  obtain ⟨outside, rfl⟩ := send_eq_ok hsend
  have hnext : generation = job.lastGeneration + 1 := by
    rw [toI64_eq_ok hgeneration, checkedAdd_eq_ok hgeneration']
  -- a leased job has an open lease, and the table allows one
  have hleased : job.status ≠ .leased := by
    intro hleased
    obtain ⟨id, row, hrow, hjobId, hopen⟩ := hp.held_open hjob (by rw [hleased]; rfl)
    exact absurd (List.any_eq_true.mpr ⟨(id, row), BTreeMap.mem_toList.mpr hrow, by
      simp [offeredLease, hjobId, hopen]⟩) hclash
  obtain ⟨_, hrow, hcase⟩ := transitionJob_eq_ok htransition
  obtain rfl := Option.mem_unique (BTreeMap.get_insert_self _ _ _) hrow
  rcases hcase with ⟨hsame, -⟩ | ⟨hcan, completed, rfl⟩
  · exact absurd hsame hleased
  have hqueued : job.status = .queued := by
    have hcan : job.status.canTransitionTo .leased = true := hcan
    revert hcan
    cases job.status <;> first | exact fun _ => rfl | exact Bool.noConfusion
  obtain ⟨runner, hrunnerRow, hephemeral, hroom⟩ := hrunner
  let lease := offeredLease s.fencingEpoch ctx candidate generation (min acceptBy hardDeadline)
    (min expires hardDeadline) deadline
  have hoffers : { s with outside }.Offers leaseId lease job :=
    ⟨BTreeMap.get_of_not_contains (Bool.not_eq_true _ ▸ hfresh), hjob, hqueued, hnext, rfl,
      ⟨runner, hrunnerRow, hephemeral, (hroom job hjob).congr rfl⟩, hquota, hturn hjob⟩
  refine ⟨{ s with outside }, (Frame.outside s outside).leads, ?_⟩
  let job' : JobRecord := { job with lastGeneration := generation, status := .leased, completedUnixMs := completed }
  have hoffer : Issue { s with outside } (({ s with outside }.setJob candidate.jobId job').setLease leaseId lease) :=
    .offer hoffers
  rw [← setJob_setJob _ _ { job with lastGeneration := generation }] at hoffer
  exact hoffer

theorem Frame.advanceCursor (s : Store E) (runnerId : String) (candidates : List String) :
    Frame s (s.advanceCursor runnerId candidates) := by
  unfold Store.advanceCursor
  split <;> exact .of_eq rfl rfl rfl rfl rfl rfl rfl

variable {answer : Option Lease}

theorem Store.offerCandidates_moves (hp : Placed s) {pool : Pool} (hrunner : s.runners[runnerId]? = some runner)
    (hephemeral : runner.ephemeral = true → s.hasLease runnerId = false)
    (hquota : s.tenantOpenLeases pool.tenantId < s.tenantQuota pool.tenantId)
    (h : s.offerCandidates o leaseId runnerId runner pool now = .ok (answer, t)) : Moves s t := by
  simp only [offerCandidates, bind_eq_ok] at h
  obtain ⟨total, htotal, state, hfold, h⟩ := h
  have hcursor := Frame.advanceCursor s runnerId (s.candidateIds runnerId pool.tenantId)
  have hstart : Judging (s.offerContext runnerId runner pool total now) s
      (s.advanceCursor runnerId (s.candidateIds runnerId pool.tenantId), []) :=
    ⟨hcursor.idles, fun _ h => absurd h not_mem_nil⟩
  have hjudging := foldEach_keeps (fun jobId _ state _ h hstate => Judging.considerCandidate hstate h)
    hfold hstart
  have hidles := hjudging.idles
  split at h
  · rename_i candidate hbest
    simp only [bind_eq_ok, pure_eq_ok, Prod.mk.injEq] at h
    obtain ⟨_, hissued, -, rfl⟩ := h
    obtain ⟨_, hjudged, hafter⟩ := hjudging.admitted candidate (argmin_mem hbest)
    have hroom : ∃ runner' : Runner, state.1.runners[runnerId]? = some runner' ∧
        (runner'.ephemeral = true → state.1.hasLease runnerId = false) ∧
        ∀ job : JobRecord, state.1.jobs[candidate.jobId]? = some job → state.1.HasRoom runnerId runner' job := by
      refine ⟨runner, hidles.runners ▸ hrunner, fun honce => ?_, fun job hjob => ?_⟩
      · rw [hasLease, hidles.leases]
        exact hephemeral honce
      · -- the job requires what it required when it was judged
        have hsame := hafter.requirements candidate.jobId
        rw [hjob, hjudged.stored, map_some, map_some, Option.some.injEq] at hsame
        have hfits := hjudged.fits
        rw [← hsame] at hfits
        have hroom := hasRoom_of_fits htotal rfl rfl (le_max_left _ _) (le_max_left _ _) (le_max_left _ _) hfits
        exact hroom.congr (hidles.runnerReservedRequirements runnerId)
    have hopenLeases : state.1.tenantOpenLeases pool.tenantId < state.1.tenantQuota pool.tenantId := by
      rw [tenantOpenLeases, tenantQuota, hidles.leases, hidles.quotas]
      exact hquota
    obtain ⟨v, hleads, hissue⟩ :=
      issueLease_leads (hidles.placed hp) hroom hopenLeases (fun hjob => hafter.turn hjudged hjob) hissued
    exact .inr ⟨v, hidles.leads.trans hleads, hissue⟩
  · obtain ⟨-, rfl⟩ := Prod.mk.inj (pure_eq_ok.mp h)
    exact hidles.leads.moves

theorem Store.offerToRunner_cases (h : s.offerToRunner o leaseId runnerId now = .ok (answer, t)) :
    (none, s) = (answer, t) ∨ ∃ (runner : Runner) (pool : Pool), s.runners[runnerId]? = some runner ∧
      s.pools[runner.poolId]? = some pool ∧ (runner.ephemeral = true → s.hasLease runnerId = false) ∧
      s.tenantOpenLeases pool.tenantId < s.tenantQuota pool.tenantId ∧
      s.offerCandidates o leaseId runnerId runner pool now = .ok (answer, t) := by
  simp only [offerToRunner, bind_eq_ok, exists_unit, okOr_eq_ok] at h
  obtain ⟨runner, hrunner, pool, hpool, -, h⟩ := h
  split at h
  · exact .inl (pure_eq_ok.mp h)
  simp only [bind_eq_ok, exists_unit] at h
  obtain ⟨-, h⟩ := h
  split at h
  · exact .inl (pure_eq_ok.mp h)
  split at h
  · exact .inl (pure_eq_ok.mp h)
  rename_i hephemeral
  simp only [bind_eq_ok, exists_unit] at h
  obtain ⟨_, -, -, h⟩ := h
  split at h
  · exact .inl (pure_eq_ok.mp h)
  rename_i hquota
  refine .inr ⟨runner, pool, hrunner, hpool, fun honce => ?_, Nat.lt_of_not_le hquota, h⟩
  rw [honce, Bool.true_and, Bool.not_eq_true] at hephemeral
  exact hephemeral

theorem Store.offerToRunner_moves (hp : Placed s)
    (h : s.offerToRunner o leaseId runnerId now = .ok (answer, t)) : Moves s t := by
  rcases offerToRunner_cases h with hnone | ⟨_, _, hrunner, -, hephemeral, hquota, h⟩
  · cases hnone
    exact .inl (.refl _)
  · exact offerCandidates_moves hp hrunner hephemeral hquota h

theorem Store.offerNextLeaseForRunner_moves (hp : Placed s)
    (h : s.offerNextLeaseForRunner o leaseId runnerId now = .ok (answer, t)) : Moves s t := by
  simp only [offerNextLeaseForRunner, bind_eq_ok, exists_unit] at h
  obtain ⟨-, u, hmaintenance, v, hrunnerMaintenance, -, h⟩ := h
  have hfirst {N : Prop} : Leads N s u := schedulerMaintenance_leads hp hmaintenance
  have hu : Placed u := (hfirst (N := True)).placed hp
  have hbefore {N : Prop} : Leads N s v := hfirst.trans (schedulerRunnerMaintenance_leads hu hrunnerMaintenance)
  split at h
  · obtain ⟨-, rfl⟩ := Prod.mk.inj (pure_eq_ok.mp h)
    exact hbefore.moves
  · exact Leads.trans_moves hbefore (offerToRunner_moves ((hbefore (N := True)).placed hp) h)

end Runtrue.ControlPlane
