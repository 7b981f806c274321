import Runtrue.Scheduling.Change

/-!
# Every operation is a trace of changes

`Performs s op out as`: the changes an operation makes from `s` and what it returns then.
`step_performs` is the only place where the operations are unfolded. An operation makes at most one change,
except that `expire`, alone or at the start of `offer_for_runner`, ends every lease past its deadline; the
ended leases are named as they stand before the call.
-/

namespace Runtrue.Scheduling

open Scheduler List BTreeMap Prod Bool Run Except
open Option (mem_unique)

/-- The leases past their deadline, with their keys. -/
def Scheduler.expiring (s : Scheduler) (now : U64) : List (String × Lease) :=
  s.leases.toList.filter fun p => p.2.state.live && decide (now > p.2.deadline)

def Scheduler.expiries (s : Scheduler) (now : U64) : List Action :=
  (s.expiring now).map fun p => .expire p.1 p.2 s.leasedJobs[p.1]?

/-- The offer a call accepts: it reaches the accepting branch of `decide_offer`. -/
def Scheduler.accepting (s : Scheduler) : Op → Option (String × Lease)
  | .decideOffer id runnerId generation true now =>
    (s.leases[id]?).bind fun lease =>
      if (s.validateFence id runnerId generation s.installationFencingEpoch).isOk
          && decide (lease.state = .offered) && !decide (now > lease.acceptByUnixMs) then
        some (id, lease)
      else none
  | _ => none

/-- The lease a call completes: it reaches the part of `complete` after its checks. -/
def Scheduler.completing (s : Scheduler) : Op → Option (String × Lease)
  | .complete id runnerId generation epoch _ =>
    (s.leases[id]?).bind fun lease =>
      if (s.validateFence id runnerId generation epoch).isOk && lease.state.running then some (id, lease)
      else none
  | _ => none

def Scheduler.expiringIn (s : Scheduler) : Op → List (String × Lease)
  | .expire now | .offerForRunner _ now => s.expiring now
  | _ => []

/-- The changes of an operation from `s`, and what it returns. -/
inductive Performs (s : Scheduler) : Op → Outcome → List Action → Prop
  | refused {op : Op} {e : SchedulerError} (he : e ≠ .generationOverflow ∧ e ≠ .leaseIdOverflow) :
      Performs s op (.failed e) []
  | registered {runner : RunnerRecord} : Performs s (.registerRunner runner) .done [.register runner]
  | status {runnerId : String} {status : RunnerStatus} :
      Performs s (.updateRunnerStatus runnerId status) .done [.status]
  | quota {tenantId : String} {quota : TenantQuota} : Performs s (.setQuota tenantId quota) .done [.quota]
  | enqueued {job : QueuedJob} : Performs s (.enqueue job) .done [.enqueue job]
  | noOffer {runnerId : String} {now : U64} {out : Outcome}
      (hout : out = .offered none ∨ out = .failed (.unknownRunner runnerId)) :
      Performs s (.offerForRunner runnerId now) out (s.expiries now)
  | lost {runnerId : String} {now : U64} {job : QueuedJob} {e : SchedulerError}
      (he : e = .generationOverflow ∨ e = .leaseIdOverflow) :
      Performs s (.offerForRunner runnerId now) (.failed e) (s.expiries now ++ [.lose job])
  | offered {runnerId : String} {now : U64} {id : String} {lease : Lease} {job : QueuedJob} :
      Performs s (.offerForRunner runnerId now) (.offered (some lease))
        (s.expiries now ++ [.issue id lease job])
  | late {op : Op} {id : String} {lease : Lease} : Performs s op (.failed .offerExpired)
      [.giveBack id lease]
  | rejected {op : Op} {id : String} {lease : Lease} : Performs s op (.decided .rejected)
      [.giveBack id lease]
  | accepted {id runnerId : String} {generation now : U64} {lease : Lease}
      (haccepting : s.accepting (.decideOffer id runnerId generation true now) = some (id, lease)) :
      Performs s (.decideOffer id runnerId generation true now) (.decided .active) [.accept id lease]
  | renewed {op : Op} {id : String} (expires : U64) : Performs s op (.renewed expires) [.renew id]
  | cancelled {jobId id : String} {lease : Lease} (hactive : s.activeLeaseByJob[jobId]? = some id) :
      Performs s (.requestCancel jobId) .done [.cancel id lease]
  | repeated {id runnerId : String} {generation epoch : U64} {digest : ContentDigest} :
      Performs s (.complete id runnerId generation epoch digest) .done []
  | completed {id runnerId : String} {generation epoch : U64} {digest : ContentDigest} {lease : Lease}
      (hcompleting : s.completing (.complete id runnerId generation epoch digest) = some (id, lease)) :
      Performs s (.complete id runnerId generation epoch digest) .done [.finish id lease]
  | expired {now : U64} : Performs s (.expire now) (.expired (s.expiredLeases now)) (s.expiries now)
  | restored {newEpoch : U64} (hepoch : ¬newEpoch ≤ s.installationFencingEpoch) :
      Performs s (.restoreFencingEpoch newEpoch) .done [.restore]

section
variable {s t : Scheduler} {now : U64}

/-! ### Expiry -/

theorem Scheduler.expiredLeases_eq (s : Scheduler) (now : U64) :
    s.expiredLeases now = (s.expiring now).map fst := by
  unfold expiredLeases expiring
  induction s.leases.toList with
  | nil => rfl
  | cons p l ih =>
    obtain ⟨_, lease⟩ := p
    cases hp : lease.state.live && decide (now > lease.deadline) with
    | false => simp only [filterMap_cons, filter_cons, hp, false_eq_true, if_false, ih]
    | true => simp only [filterMap_cons, filter_cons, hp, if_true, map_cons, ih]

theorem Scheduler.mem_expiring {p : String × Lease} :
    p ∈ s.expiring now ↔ s.leases[p.1]? = some p.2 ∧ p.2.state.live ∧ now > p.2.deadline := by
  simp [expiring, mem_toList]

theorem Scheduler.expireLoop_trace {l : List (String × Lease)} (hkeys : l.Pairwise fun p q => p.1 ≠ q.1)
    (hall : ∀ p ∈ l, s.leases[p.1]? = some p.2 ∧ p.2.state.live) :
    ∃ t tr, s.expireLoop (l.map fst) = (.ok (), t) ∧ Trace Does s tr t ∧
      tr.map snd = l.map fun p => Action.expire p.1 p.2 s.leasedJobs[p.1]? := by
  induction l generalizing s with
  | nil => exact ⟨s, [], rfl, Trace.nil s, rfl⟩
  | cons p l ih =>
    obtain ⟨hne, hkeys⟩ := pairwise_cons.mp hkeys
    obtain ⟨⟨hgot, hlive⟩, hall⟩ := forall_mem_cons.mp hall
    -- the leases still to be visited are untouched by the first turn
    have hrest : ∀ q ∈ l, (s.expireLease p.1 p.2).leases[q.1]? = some q.2 ∧ q.2.state.live := by
      intro q hq
      rw [expireLease_leases, get_insert, if_neg (hne q hq)]
      exact hall q hq
    obtain ⟨t, tr, heq, htrace, hacts⟩ := ih hkeys hrest
    refine ⟨t, (s, .expire p.1 p.2 s.leasedJobs[p.1]?) :: tr, ?_,
      Trace.cons (Does.expire hgot hlive) htrace, ?_⟩
    · rw [map_cons, expireLoop, hgot]
      exact heq
    · rw [map_cons, map_cons, hacts]
      congr 1
      refine map_congr_left fun q hq => ?_
      rw [expireLease_leasedJobs, get_erase, if_neg (hne q hq)]

theorem Scheduler.expire_trace (s : Scheduler) (now : U64) :
    ∃ t tr, s.expire now = (.ok (s.expiredLeases now), t) ∧ Trace Does s tr t ∧
      tr.map snd = s.expiries now := by
  have hkeys : (s.expiring now).Pairwise fun p q => p.1 ≠ q.1 := by
    refine List.Pairwise.filter _ (List.Pairwise.imp ?_ Std.ExtTreeMap.distinct_keys_toList)
    intro p q hne heq
    exact hne (heq ▸ Std.ReflCmp.compare_self)
  obtain ⟨t, tr, heq, htrace, hacts⟩ := expireLoop_trace hkeys fun p hp =>
    ⟨(mem_expiring.mp hp).1, (mem_expiring.mp hp).2.1⟩
  refine ⟨t, tr, ?_, htrace, hacts⟩
  rw [Scheduler.expire, expiredLeases_eq, heq]

/-! ### Offers -/

theorem offer_performs (hc : Consistent s) (runnerId : String) (now : U64) :
    ∃ tr, Trace Does s tr (step s (.offerForRunner runnerId now)).2 ∧
      Performs s (.offerForRunner runnerId now) (step s (.offerForRunner runnerId now)).1 (tr.map snd) := by
  obtain ⟨t, tr, hexpire, htrace, hacts⟩ := s.expire_trace now
  have hct : Consistent t := consistent_trace htrace hc
  simp only [step, Scheduler.offerForRunner, offerForRunnerObserved, hexpire]
  cases hrunner : t.runners[runnerId]? with
  | none => exact ⟨tr, htrace, hacts ▸ .noOffer (.inr rfl)⟩
  | some runner =>
    by_cases honline : runner.status = .online
    · simp only [honline, ne_eq, not_true_eq_false, if_false]
      cases hchosen : (t.queue.values.filter fun job => t.hardFilters job runner).argmin
          fun job => t.scoreKey job runner now with
      | none => exact ⟨tr, htrace, hacts ▸ .noOffer (.inl rfl)⟩
      | some job =>
        obtain ⟨hmem, hfilter⟩ := mem_filter.mp (argmin_mem hchosen)
        have hqueued := hct.get_of_mem_queue hmem
        dsimp only
        rcases t.issueLease_cases runnerId now hqueued with ⟨_, _, he, hg, hissue⟩ | ⟨_, _, hg, hnext, hissue⟩
        · rw [hissue]
          refine ⟨tr ++ [(t, .lose job)], htrace.append (.single (.lose hqueued hg)), ?_⟩
          rw [map_append, hacts]
          exact .lost (he.imp And.left And.left)
        · rw [hissue]
          refine ⟨tr ++ [(t, .issue _ _ job)],
            htrace.append (.single (.issue hqueued hrunner hfilter hg hnext now)), ?_⟩
          rw [map_append, hacts]
          exact .offered
    · simp only [honline, ne_eq, not_false_eq_true, if_true]
      exact ⟨tr, htrace, hacts ▸ .noOffer (.inl rfl)⟩

/-! ### Calls of the runner that holds a lease -/

theorem Scheduler.validateFence_ok {id runnerId : String} {generation epoch : U64}
    (h : s.validateFence id runnerId generation epoch = .ok ()) :
    ∃ lease, s.leases[id]? = some lease ∧ lease.runnerId = runnerId ∧
      lease.fencingGeneration = generation ∧ epoch = s.installationFencingEpoch := by
  revert h
  fun_cases validateFence s id runnerId generation epoch with
  | case5 hepoch lease hgot hrunner hgen =>
    exact fun _ => ⟨lease, hgot, not_not.mp hrunner, not_not.mp hgen, not_not.mp hepoch⟩
  | _ => exact nofun

variable {e : SchedulerError}

theorem Scheduler.validateFence_error {id runnerId : String} {generation epoch : U64}
    (h : s.validateFence id runnerId generation epoch = .error e) : e ≠ .generationOverflow ∧ e ≠ .leaseIdOverflow := by
  unfold validateFence at h
  repeat' split at h
  all_goals cases h
  all_goals exact ⟨nofun, nofun⟩

/-- The changes `op` makes from `s` are those of `Performs`. -/
abbrev StepPerforms (s : Scheduler) (op : Op) : Prop :=
  ∃ tr, Run.Trace Does s tr (step s op).2 ∧ Performs s op (step s op).1 (tr.map Prod.snd)

variable {op : Op} {out : Outcome}

/-! ### Registration and new jobs -/

theorem validate_error {c : Prop} [Decidable c] {e' : SchedulerError}
    (h : (if c then .error e' else .ok ()) = error e) (he : e' ≠ .generationOverflow ∧ e' ≠ .leaseIdOverflow) :
    e ≠ .generationOverflow ∧ e ≠ .leaseIdOverflow := by
  split at h <;> cases h
  exact he

theorem registerRunner_performs (runner : RunnerRecord) : StepPerforms s (.registerRunner runner) := by
  simp only [StepPerforms, step]
  fun_cases Scheduler.registerRunner s runner with
  | case1 e hvalid => exact ⟨[], .nil s, .refused (validate_error hvalid ⟨nofun, nofun⟩)⟩
  | case2 => exact ⟨[], .nil s, .refused (by simp)⟩
  | case3 _ hnew =>
    exact ⟨_, .single (.register (get_of_not_contains (not_eq_true _ ▸ hnew))), .registered⟩

theorem updateRunnerStatus_performs (runnerId : String) (status : RunnerStatus) :
    StepPerforms s (.updateRunnerStatus runnerId status) := by
  simp only [StepPerforms, step]
  fun_cases Scheduler.updateRunnerStatus s runnerId status with
  | case1 | case2 => exact ⟨[], .nil s, .refused (by simp)⟩
  | case3 _ hrunner => exact ⟨_, .single (.status hrunner status), .status⟩

theorem setQuota_performs (tenantId : String) (quota : TenantQuota) : StepPerforms s (.setQuota tenantId quota) := by
  simp only [StepPerforms, step]
  fun_cases Scheduler.setQuota s tenantId quota with
  | case1 e hvalid => exact ⟨[], .nil s, .refused (validate_error hvalid ⟨nofun, nofun⟩)⟩
  | case2 => exact ⟨_, .single (.quota tenantId quota), .quota⟩

theorem enqueue_performs (job : QueuedJob) : StepPerforms s (.enqueue job) := by
  simp only [StepPerforms, step]
  fun_cases Scheduler.enqueue s job with
  | case1 e hvalid => exact ⟨[], .nil s, .refused (validate_error hvalid ⟨nofun, nofun⟩)⟩
  | case2 => exact ⟨[], .nil s, .refused (by simp)⟩
  | case3 _ hheld =>
    obtain ⟨hqueue, hactive⟩ := or_eq_false_iff.mp (not_eq_true _ ▸ hheld)
    exact ⟨_, .single (.enqueue (get_of_not_contains hqueue)
      (get_of_not_contains hactive)), .enqueued⟩

/-! ### Leases -/

theorem decideOffer_performs (hc : Consistent s) (id runnerId : String) (generation : U64)
    (accepted : Bool) (now : U64) : StepPerforms s (.decideOffer id runnerId generation accepted now) := by
  simp only [StepPerforms, step]
  fun_cases Scheduler.decideOffer s id runnerId generation accepted now with
  | case1 e hfence => exact ⟨[], .nil s, .refused (validateFence_error hfence)⟩
  | case2 | case3 => exact ⟨[], .nil s, .refused (by simp)⟩
  | case4 hfence _ hgot hoffered =>
    obtain ⟨_, hgot', rfl, rfl, -⟩ := validateFence_ok hfence
    obtain rfl := mem_unique hgot hgot'
    exact ⟨_, .single (.giveBack hgot (not_not.mp hoffered) Bool.false_ne_true), .late⟩
  | case5 hfence lease hgot hoffered hlate haccepted =>
    subst haccepted
    have hoffered := not_not.mp hoffered
    obtain ⟨_, hgot', rfl, rfl, -⟩ := validateFence_ok hfence
    obtain rfl := mem_unique hgot hgot'
    obtain ⟨_, hrunner⟩ := (hc.recorded id lease hgot).runner
    obtain ⟨_, hjob, -⟩ := hc.jobOfLive id lease hgot (by rw [hoffered]; rfl)
    have haccepting : s.accepting (.decideOffer id lease.runnerId lease.fencingGeneration true now) =
        some (id, lease) := by
      simp [accepting, hgot, hfence, isOk, Except.toBool, hoffered, hlate]
    rw [s.acceptOffer_eq id lease hrunner hjob]
    exact ⟨_, .single (.accept hgot hoffered hrunner hjob), .accepted haccepting⟩
  | case6 hfence _ hgot hoffered _ haccepted =>
    obtain ⟨_, hgot', rfl, rfl, -⟩ := validateFence_ok hfence
    obtain rfl := mem_unique hgot hgot'
    obtain rfl := not_eq_true _ ▸ haccepted
    exact ⟨_, .single (.giveBack hgot (not_not.mp hoffered) Bool.false_ne_true), .rejected⟩

theorem heartbeat_performs (hc : Consistent s) (id runnerId : String) (generation epoch now : U64) :
    StepPerforms s (.heartbeat id runnerId generation epoch now) := by
  simp only [StepPerforms, step]
  fun_cases Scheduler.heartbeat s id runnerId generation epoch now with
  | case1 e hfence => exact ⟨[], .nil s, .refused (validateFence_error hfence)⟩
  | case2 | case3 => exact ⟨[], .nil s, .refused (by simp)⟩
  | case4 hfence _ _ _ _ _ hnone =>
    obtain ⟨_, hgot', rfl, rfl, rfl⟩ := validateFence_ok hfence
    obtain ⟨runner, hrunner⟩ := (hc.recorded id _ hgot').runner
    cases hnone.symm.trans hrunner
  | case5 hfence _ hgot hrunning expires _ _ hrunner =>
    obtain ⟨_, hgot', rfl, rfl, rfl⟩ := validateFence_ok hfence
    obtain rfl := mem_unique hgot hgot'
    exact ⟨_, .single (.renew hgot (by simpa using hrunning) hrunner now expires), .renewed expires⟩

theorem requestCancel_performs (jobId : String) : StepPerforms s (.requestCancel jobId) := by
  simp only [StepPerforms, step]
  fun_cases Scheduler.requestCancel s jobId with
  | case3 _ hactive _ hgot hstate => exact ⟨_, .single (.cancel hgot hstate), .cancelled hactive⟩
  | _ => exact ⟨[], .nil s, .refused (by simp)⟩

theorem complete_performs (id runnerId : String) (generation epoch : U64) (digest : ContentDigest) :
    StepPerforms s (.complete id runnerId generation epoch digest) := by
  simp only [StepPerforms, step]
  fun_cases Scheduler.complete s id runnerId generation epoch digest with
  | case1 e hfence => exact ⟨[], .nil s, .refused (validateFence_error hfence)⟩
  | case3 => exact ⟨[], .nil s, .repeated⟩
  | case6 hfence lease hgot _ hrunning =>
    have hrunning : lease.state.running = true := by simpa using hrunning
    obtain ⟨_, hgot', rfl, rfl, rfl⟩ := validateFence_ok hfence
    obtain rfl := mem_unique hgot hgot'
    have hcompleting : s.completing (.complete id lease.runnerId lease.fencingGeneration
        s.installationFencingEpoch digest) = some (id, lease) := by
      simp [completing, hgot, hfence, isOk, Except.toBool, hrunning]
    exact ⟨_, .single (.finish hgot hrunning digest), .completed hcompleting⟩
  | _ => exact ⟨[], .nil s, .refused (by simp)⟩

/-- **What an operation can do.** Every call from a consistent state is a trace of the changes that
`Performs` lists for it. -/
theorem step_performs (hc : Consistent s) (op : Op) : StepPerforms s op := by
  cases op with
  | registerRunner runner => exact registerRunner_performs runner
  | updateRunnerStatus runnerId status => exact updateRunnerStatus_performs runnerId status
  | setQuota tenantId quota => exact setQuota_performs tenantId quota
  | enqueue job => exact enqueue_performs job
  | offerForRunner runnerId now => exact offer_performs hc runnerId now
  | decideOffer id runnerId generation accepted now =>
    exact decideOffer_performs hc id runnerId generation accepted now
  | heartbeat id runnerId generation epoch now => exact heartbeat_performs hc id runnerId generation epoch now
  | requestCancel jobId => exact requestCancel_performs jobId
  | complete id runnerId generation epoch digest => exact complete_performs id runnerId generation epoch digest
  | expire now =>
    obtain ⟨_, tr, heq, htrace, hacts⟩ := s.expire_trace now
    simp only [StepPerforms, step, heq, Outcome.of]
    exact ⟨tr, htrace, hacts ▸ .expired⟩
  | restoreFencingEpoch newEpoch =>
    simp only [StepPerforms, step]
    fun_cases Scheduler.restoreFencingEpoch s newEpoch with
    | case1 => exact ⟨[], .nil s, .refused (by simp)⟩
    | case2 hepoch => exact ⟨_, .single (.restore hepoch), .restored hepoch⟩

theorem foldl_expiries {γ : Type} {upd : γ → Action → γ}
    (hupd : ∀ g id lease job, upd g (.expire id lease job) = g) (g : γ) : (s.expiries now).foldl upd g = g := by
  unfold expiries
  induction s.expiring now generalizing g with
  | nil => rfl
  | cons p l ih => rw [map_cons, foldl_cons, hupd, ih]

/-! ### Why a change is made -/

/-- The changes of an operation, each with the state it is made in and the reason for it in the state
before the operation. -/
inductive Causes (s : Scheduler) (op : Op) (out : Outcome) : Scheduler × Action → Prop
  | register {runner : RunnerRecord} (hop : op = .registerRunner runner) :
      Causes s op out (s, .register runner)
  | status : Causes s op out (s, .status)
  | quota {tenantId : String} {quota : TenantQuota} (hop : op = .setQuota tenantId quota) :
      Causes s op out (s, .quota)
  | enqueue {job : QueuedJob} (hop : op = .enqueue job) : Causes s op out (s, .enqueue job)
  | issue {u : Scheduler} {id : String} {lease : Lease} {job : QueuedJob}
      (hout : out = .offered (some lease)) : Causes s op out (u, .issue id lease job)
  | lose {u : Scheduler} {job : QueuedJob} {e : SchedulerError}
      (he : e = .generationOverflow ∨ e = .leaseIdOverflow) (hout : out = .failed e) :
      Causes s op out (u, .lose job)
  | accept {id : String} {lease : Lease} (haccepting : s.accepting op = some (id, lease)) :
      Causes s op out (s, .accept id lease)
  | giveBack {id : String} {lease : Lease} : Causes s op out (s, .giveBack id lease)
  | renew {id : String} : Causes s op out (s, .renew id)
  | cancel {id : String} {lease : Lease} : Causes s op out (s, .cancel id lease)
  | finish {id : String} {lease : Lease} (hcompleting : s.completing op = some (id, lease)) :
      Causes s op out (s, .finish id lease)
  | expire {u : Scheduler} {id : String} {lease : Lease} {job : Option QueuedJob}
      (hexpiring : (id, lease) ∈ s.expiringIn op) (hjob : s.leasedJobs[id]? = job) :
      Causes s op out (u, .expire id lease job)
  | restore {newEpoch : U64} (hop : op = .restoreFencingEpoch newEpoch)
      (hepoch : ¬newEpoch ≤ s.installationFencingEpoch) : Causes s op out (s, .restore)

theorem causes_expiries (hop : s.expiringIn op = s.expiring now) {x : Scheduler × Action}
    (hx : x.2 ∈ s.expiries now) : Causes s op out x := by
  obtain ⟨_, _⟩ := x
  obtain ⟨_, hp, rfl⟩ := mem_map.mp hx
  exact .expire (hop ▸ hp) rfl

theorem Performs.causes {tr : List (Scheduler × Action)} (htrace : Trace Does s tr t)
    (hperforms : Performs s op out (tr.map snd)) : ∀ x ∈ tr, Causes s op out x := by
  intro x hx
  have hmem := mem_map_of_mem (f := snd) hx
  generalize hacts : tr.map snd = acts at hperforms hmem
  -- a single change is made in the state before the operation
  have hone : ∀ a, acts = [a] → x = (s, a) := by
    rintro a rfl
    rw [(htrace.eq_single hacts).1] at hx
    exact mem_singleton.mp hx
  cases hperforms with
  | refused => cases hmem
  | registered => exact hone _ rfl ▸ .register rfl
  | status => exact hone _ rfl ▸ .status
  | quota => exact hone _ rfl ▸ .quota rfl
  | enqueued => exact hone _ rfl ▸ .enqueue rfl
  | noOffer => exact causes_expiries rfl hmem
  | lost he =>
    rcases mem_append.mp hmem with hexp | hlose
    · exact causes_expiries rfl hexp
    · obtain ⟨u, a⟩ := x
      obtain rfl := mem_singleton.mp hlose
      exact .lose he rfl
  | offered =>
    rcases mem_append.mp hmem with hexp | hissue
    · exact causes_expiries rfl hexp
    · obtain ⟨_, _⟩ := x
      obtain rfl := mem_singleton.mp hissue
      exact .issue rfl
  | late => exact hone _ rfl ▸ .giveBack
  | rejected => exact hone _ rfl ▸ .giveBack
  | accepted haccepting => exact hone _ rfl ▸ .accept haccepting
  | renewed => exact hone _ rfl ▸ .renew
  | cancelled => exact hone _ rfl ▸ .cancel
  | repeated => cases hmem
  | completed hcompleting => exact hone _ rfl ▸ .finish hcompleting
  | expired => exact causes_expiries rfl hmem
  | restored hepoch => exact hone _ rfl ▸ .restore rfl hepoch

end

end Runtrue.Scheduling
