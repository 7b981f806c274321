import Runtrue.Scheduling.Counters

/-!
# The counters are exact when only accepted leases are released

`decide_offer` reserves when it accepts; `complete` and `expire` release every lease that is `Active` or
`CancelRequested`. A `CancelRequested` lease need not have been accepted: `request_cancel` also takes offers.
So the counters are exact along every run in which no `CancelRequested` lease is completed or expired that
nobody accepted, and in which no accepted lease overflows a counter.
-/

namespace Runtrue.Scheduling

open Scheduler BTreeMap List LeaseState Bool

/-! ### Accepted leases and the state -/

/-- An accepted lease is past its offer, and an active lease was accepted. -/
structure Books (A : String → Bool) (s : Scheduler) : Prop where
  known : ∀ id : String, A id → ∃ lease, s.leases[id]? = some lease ∧ lease.state ≠ .offered ∧
    lease.state ≠ .rejected
  active : ∀ (id : String) (lease : Lease), s.leases[id]? = some lease → lease.state = .active → A id

def acceptedAfter (A : String → Bool) : Action → String → Bool
  | .accept id _, x => A x || x == id
  | _, x => A x

section
variable {A A' : String → Bool} {s t : Scheduler} {a : Action} {id : String} {lease lease' : Lease}

theorem acceptedAfter_self : acceptedAfter A (.accept id lease) id := by simp [acceptedAfter]

theorem acceptedAfter_other : ∀ x, x ≠ id → acceptedAfter A (.accept id lease) x = A x := by
  intro x hne
  simp [acceptedAfter, hne]

theorem Books.state_ne (hb : Books A s) (hgot : s.leases[id]? = some lease) (hA : A id) :
    lease.state ≠ .offered ∧ lease.state ≠ .rejected := by
  obtain ⟨l, hl, hne⟩ := hb.known id hA
  obtain rfl : lease = l := by simpa [hgot] using hl
  exact hne

theorem Books.not_accepted (hb : Books A s) (hgot : s.leases[id]? = some lease)
    (hoffered : lease.state = .offered) : A id = false :=
  eq_false_iff.mpr fun hA => (hb.state_ne hgot hA).1 hoffered

theorem Books.fresh (hb : Books A s) (hc : Consistent s) : A (leaseName s.nextLeaseId) = false := by
  refine eq_false_iff.mpr fun hA => ?_
  obtain ⟨_, hl, -⟩ := hb.known _ hA
  rw [hc.fresh] at hl
  cases hl

theorem Books.of_insert (hb : Books A s) (hleases : t.leases = s.leases.insert id lease')
    (hA : ∀ x, x ≠ id → A' x = A x) (hknown : A' id → lease'.state ≠ .offered ∧ lease'.state ≠ .rejected)
    (hactive : lease'.state = .active → A' id) : Books A' t := by
  refine ⟨fun x hx => ?_, fun x l hl hstate => ?_⟩
  · rw [hleases, get_insert]
    split
    · rename_i heq
      exact ⟨lease', rfl, hknown (heq ▸ hx)⟩
    · rename_i hne
      exact hb.known x (hA x (Ne.symm hne) ▸ hx)
  · rw [hleases, get_insert] at hl
    split at hl
    · rename_i heq
      cases hl
      exact heq ▸ hactive hstate
    · rename_i hne
      rw [hA x (Ne.symm hne)]
      exact hb.active x l hl hstate

theorem Closes.books (hcl : Closes s id lease lease' t) (hb : Books A s)
    (hrejected : A id → lease'.state ≠ .rejected) : Books A t := by
  refine hb.of_insert hcl.leases (fun _ _ => rfl) (fun hA => ⟨?_, hrejected hA⟩) ?_
  · intro hoffered
    exact hcl.ended (by rw [hoffered]; rfl)
  · intro hactive
    exact absurd (by rw [hactive]; rfl) hcl.ended

theorem Does.books (hdoes : Does s a t) (hc : Consistent s) (hb : Books A s) : Books (acceptedAfter A a) t := by
  cases hdoes with
  | register | status | quota | enqueue | lose => exact ⟨hb.known, hb.active⟩
  | issue _ _ _ _ _ =>
    refine hb.of_insert rfl (fun _ _ => rfl) (fun hA => ?_) nofun
    exact absurd hA (eq_false_iff.mp (hb.fresh hc))
  | @accept _ _ _ _ _ _ _ _ =>
    exact hb.of_insert rfl acceptedAfter_other (fun _ => ⟨nofun, nofun⟩) fun _ => acceptedAfter_self
  | giveBack hgot hoffered hended =>
    refine (returnOffer_closes hgot hoffered hended).books hb fun hA => ?_
    exact absurd hoffered (hb.state_ne hgot hA).1
  | @renew id lease _ hgot _ _ _ =>
    have hne : A id → lease.state ≠ .offered ∧ lease.state ≠ .rejected := hb.state_ne hgot
    exact hb.of_insert rfl (fun _ _ => rfl) hne (hb.active id lease hgot)
  | cancel => exact hb.of_insert rfl (fun _ _ => rfl) (fun _ => ⟨nofun, nofun⟩) nofun
  | finish hgot hrunning digest => exact (completeLease_closes hgot hrunning digest).books hb fun _ => nofun
  | expire hgot hlive => exact (expireLease_closes hgot hlive).books hb fun _ => nofun
  | restore =>
    refine ⟨fun x hx => ?_, fun x l hl hactive => ?_⟩
    · obtain ⟨_, hl, hne⟩ := hb.known x hx
      rw [restored_get_lease, hl]
      refine ⟨_, rfl, ?_⟩
      dsimp only
      split
      · exact ⟨nofun, nofun⟩
      · exact hne
    · exact absurd (by rw [hactive]; rfl) (restored_not_live hl)

/-! ### Exact counters -/

/-- The charge of a lease on a runner's counter. -/
def onRunner (r : String) (c : Counter) (lease : Lease) (job : Option QueuedJob) : Nat :=
  if lease.runnerId = r then (job.map fun j => j.requirements.weight c).getD 0 else 0

/-- The charge of a lease on a tenant's running count. -/
def ofTenant (tenantId : String) (lease : Lease) (_ : Option QueuedJob) : Nat :=
  if lease.tenantId = tenantId then 1 else 0

theorem byIssue_onRunner (r : String) (c : Counter) : ByIssue (onRunner r c) := by
  intro _ _ _ hissue
  rw [onRunner, onRunner, (Lease.issue_fields hissue).2.2.2.1]

theorem byIssue_ofTenant (tenantId : String) : ByIssue (ofTenant tenantId) := by
  intro _ _ _ hissue
  rw [ofTenant, ofTenant, (Lease.issue_fields hissue).2.2.1]

def RunnersExact (A : String → Bool) (s : Scheduler) : Prop :=
  ∀ (r : String) (runner : RunnerRecord), s.runners[r]? = some runner →
    ∀ c, runner.counter c = total A s (onRunner r c)

def TenantsExact (A : String → Bool) (s : Scheduler) : Prop :=
  ∀ tenantId, (s.runningOf tenantId).toNat = total A s (ofTenant tenantId)

def ReleasesAccepted (A : String → Bool) : Action → Prop
  | .finish id lease | .expire id lease _ => lease.state = .cancelRequested → A id
  | _ => True

theorem LeaseState.offered_of_live {state : LeaseState} (hlive : state.live)
    (hrunning : state.running = false) : state = .offered := by
  cases state <;> simp_all [live, running]

theorem Books.accepted_of_running (hb : Books A s) (hgot : s.leases[id]? = some lease)
    (hrunning : lease.state.running) (hcancel : lease.state = .cancelRequested → A id) : A id := by
  cases hstate : lease.state with
  | active => exact hb.active id lease hgot hstate
  | cancelRequested => exact hcancel hstate
  | _ => simp [hstate, running] at hrunning

variable {f : Lease → Option QueuedJob → Nat}

theorem total_closes_running (hcl : Closes s id lease lease' t) (hended : lease'.state.unfinished = false) (hA : A id) :
    total A t f + f lease s.leasedJobs[id]? = total A s f := by
  have hsum := total_closes (A := A) (f := f) hcl fun _ => hended
  rwa [charge_of_held hA (unfinished_of_live hcl.live)] at hsum

theorem total_closes_offered (hcl : Closes s id lease lease' t) (hA : A id = false) : total A t f = total A s f := by
  have hsum := total_closes (A := A) (f := f) hcl fun h => absurd h (eq_false_iff.mp hA)
  rwa [charge_of_not_accepted hA, add_zero] at hsum

variable {runner : RunnerRecord} {job : QueuedJob}

theorem total_accepted (hb : Books A s) (hgot : s.leases[id]? = some lease)
    (hoffered : lease.state = .offered) (hf : ByIssue f) :
    total (acceptedAfter A (.accept id lease)) (s.accepted id lease runner job) f =
      total A s f + f lease s.leasedJobs[id]? :=
  total_accepts (accepted_touches hgot hoffered) hf (hb.not_accepted hgot hoffered)
    acceptedAfter_self acceptedAfter_other

theorem RunnersExact.of_get (hx : RunnersExact A s)
    (htotal : ∀ r c, total A' t (onRunner r c) = total A s (onRunner r c))
    (hget : ∀ (r : String) (runner : RunnerRecord), t.runners[r]? = some runner →
      ∃ runner', s.runners[r]? = some runner' ∧ ∀ c, runner.counter c = runner'.counter c) : RunnersExact A' t := by
  intro r runner hr c
  obtain ⟨runner', hr', hsame⟩ := hget r runner hr
  rw [hsame c, hx r runner' hr' c, htotal]

theorem RunnersExact.insert {r : String} {runner runner' : RunnerRecord} (hx : RunnersExact A s)
    (hrunner : s.runners[r]? = some runner) (hsame : ∀ c, runner'.counter c = runner.counter c)
    (hrunners : t.runners = s.runners.insert r runner')
    (htotal : ∀ r c, total A' t (onRunner r c) = total A s (onRunner r c)) : RunnersExact A' t := by
  refine hx.of_get htotal fun _ x hr' => ?_
  rw [hrunners, get_insert] at hr'
  split at hr'
  · rename_i heq
    cases hr'
    exact ⟨runner, heq ▸ hrunner, hsame⟩
  · exact ⟨x, hr', fun _ => rfl⟩

theorem RunnersExact.release (hx : RunnersExact A s) (hcl : Closes s id lease lease' t)
    (hended : lease'.state.unfinished = false) (hA : A id) (hjob : s.leasedJobs[id]? = some job)
    (hrunners : t.runners = s.releasedRunners lease.runnerId (some job.requirements)) : RunnersExact A t := by
  intro r runner hr c
  have hsum := total_closes_running (f := onRunner r c) hcl hended hA
  rw [hrunners, releasedRunners_get] at hr
  rw [hjob, onRunner] at hsum
  split at hr
  · rename_i heq
    obtain ⟨runner', hr', rfl⟩ := Option.map_eq_some_iff.mp hr
    rw [RunnerRecord.counter_release, hx r runner' hr' c, ← hsum, if_pos heq]
    exact Nat.add_sub_cancel _ _
  · rename_i hne
    rw [if_neg hne] at hsum
    rw [hx r runner hr c, ← hsum, add_zero]

theorem RunnersExact.accept (hx : RunnersExact A s) (hb : Books A s)
    (hgot : s.leases[id]? = some lease) (hoffered : lease.state = .offered)
    (hrunner : s.runners[lease.runnerId]? = some runner) (hjob : s.leasedJobs[id]? = some job)
    (hfits : runner.Fits job.requirements) :
    RunnersExact (acceptedAfter A (.accept id lease)) (s.accepted id lease runner job) := by
  intro r runner' hr c
  rw [total_accepted hb hgot hoffered (byIssue_onRunner r c), hjob, onRunner]
  simp only [Scheduler.accepted, get_insert] at hr
  split at hr
  · rename_i heq
    cases hr
    rw [RunnerRecord.counter_reserve hfits, if_pos heq, ← heq, hx _ runner hrunner c]
    rfl
  · rename_i hne
    rw [if_neg hne, add_zero, hx r runner' hr c]

/-- The changes that keep the runners' counters exact. -/
def KeepsRunners (A : String → Bool) (s : Scheduler) : Action → Prop
  | .register runner => runner.Idle
  | .accept id lease => ∀ (runner : RunnerRecord) (job : QueuedJob),
      s.runners[lease.runnerId]? = some runner → s.leasedJobs[id]? = some job →
      runner.Fits job.requirements
  | a => ReleasesAccepted A a

theorem Does.runnersExact (hdoes : Does s a t) (hc : Consistent s) (hb : Books A s)
    (hkeeps : KeepsRunners A s a) (hx : RunnersExact A s) : RunnersExact (acceptedAfter A a) t := by
  cases hdoes with
  | @register runner hnew =>
    intro r x hr c
    rw [get_insert] at hr
    split at hr
    · -- nothing runs on a runner that was not registered
      rename_i heq
      cases hr
      rw [hkeeps c]
      refine (sumBy_eq_zero fun id lease hgot => ?_).symm
      obtain ⟨x, hx⟩ := (hc.recorded id lease hgot).runner
      have hne : lease.runnerId ≠ r := by
        rintro rfl
        rw [heq, hx] at hnew
        cases hnew
      unfold charge onRunner
      rw [if_neg hne, ite_self]
    · exact hx r x hr c
  | status hrunner _ => exact hx.insert hrunner (fun c => by cases c <;> rfl) rfl fun _ _ => rfl
  | quota => exact hx
  | enqueue | lose => exact hx
  | issue _ _ _ _ _ => exact hx.of_get (fun _ _ => total_issued hc (hb.fresh hc)) fun r x hr => ⟨x, hr, fun _ => rfl⟩
  | accept hgot hoffered hrunner hjob => exact hx.accept hb hgot hoffered hrunner hjob (hkeeps _ _ hrunner hjob)
  | giveBack hgot hoffered hended =>
    have hcl := returnOffer_closes hgot hoffered hended
    refine hx.of_get (fun _ _ => total_closes_offered hcl (hb.not_accepted hgot hoffered)) fun r x hr => ?_
    rw [returnOffer_eq] at hr
    exact ⟨x, hr, fun _ => rfl⟩
  | renew hgot hrunning hrunner _ expires =>
    exact hx.insert hrunner (fun c => by cases c <;> rfl) rfl fun r c =>
      total_touches (renewed_touches hgot hrunning expires) (byIssue_onRunner r c)
  | cancel hgot hstate =>
    refine hx.of_get (fun r c => ?_) fun r x hr => ⟨x, hr, fun _ => rfl⟩
    exact total_touches (cancelled_touches hgot hstate) (byIssue_onRunner r c)
  | finish hgot hrunning digest =>
    obtain ⟨job, hjob, -⟩ := hc.jobOfLive _ _ hgot (live_of_running hrunning)
    have hA := hb.accepted_of_running hgot hrunning hkeeps
    refine hx.release (completeLease_closes hgot hrunning digest) rfl hA hjob ?_
    rw [completeLease_eq, hjob]
    rfl
  | @expire _ lease hgot hlive =>
    have hcl := expireLease_closes hgot hlive
    obtain ⟨_, hjob, -⟩ := hc.jobOfLive _ _ hgot hlive
    cases hrunning : lease.state.running with
    | true =>
      have hA := hb.accepted_of_running hgot hrunning hkeeps
      refine hx.release hcl rfl hA hjob ?_
      rw [expireLease_runners, if_pos hrunning, hjob]
      rfl
    | false =>
      have hoffered := offered_of_live hlive hrunning
      refine hx.of_get (fun _ _ => total_closes_offered hcl (hb.not_accepted hgot hoffered))
        fun r x hr => ⟨x, ?_, fun _ => rfl⟩
      rwa [expireLease_runners, hrunning, if_neg Bool.false_ne_true] at hr
  | restore =>
    intro r x hr c
    rw [(s.restored_fields _).2.2.2.1, fenceAll, Std.ExtTreeMap.getElem?_map] at hr
    obtain ⟨_, -, rfl⟩ := Option.map_eq_some_iff.mp hr
    rw [RunnerRecord.counter_reset]
    exact (total_restored fun _ _ hgot hA => (hb.state_ne hgot hA).2).symm

theorem TenantsExact.release (hx : TenantsExact A s) (hcl : Closes s id lease lease' t)
    (hended : lease'.state.unfinished = false) (hA : A id)
    (hrunning : t.runningByTenant = decrement s.runningByTenant lease.tenantId) : TenantsExact A t := by
  intro tenantId
  have hsum := total_closes_running (f := ofTenant tenantId) hcl hended hA
  rw [runningOf, hrunning, toNat_runningOf_decrement, hx tenantId, ← hsum, ofTenant]
  split
  · exact Nat.add_sub_cancel _ _
  · exact add_zero _

/-- The changes that keep the running counts exact. -/
def KeepsTenants (A : String → Bool) (s : Scheduler) : Action → Prop
  | .accept _ lease => (s.runningOf lease.tenantId).toNat + 1 < 2 ^ 32
  | a => ReleasesAccepted A a

theorem Does.tenantsExact (hdoes : Does s a t) (hc : Consistent s) (hb : Books A s)
    (hkeeps : KeepsTenants A s a) (hx : TenantsExact A s) : TenantsExact (acceptedAfter A a) t := by
  cases hdoes with
  | register | status | quota | enqueue | lose => exact hx
  | issue =>
    intro tenantId
    exact (hx tenantId).trans (total_issued hc (hb.fresh hc)).symm
  | @accept id lease runner job hgot hoffered hrunner hjob =>
    intro tenantId
    rw [total_accepted hb hgot hoffered (byIssue_ofTenant tenantId), ofTenant, runningOf,
      Scheduler.accepted, get_insert]
    split
    · rename_i heq
      rw [← heq, ← hx lease.tenantId, Option.getD_some]
      exact Fixed.toNat_add_of_lt hkeeps
    · exact hx tenantId
  | giveBack hgot hoffered hended =>
    intro tenantId
    have hcl := returnOffer_closes hgot hoffered hended
    refine Eq.trans ?_ (total_closes_offered hcl (hb.not_accepted hgot hoffered)).symm
    rw [returnOffer_eq]
    exact hx tenantId
  | renew hgot hrunning _ _ expires =>
    intro tenantId
    exact (hx tenantId).trans (total_touches (renewed_touches hgot hrunning expires)
      (byIssue_ofTenant tenantId)).symm
  | cancel hgot hstate =>
    intro tenantId
    exact (hx tenantId).trans (total_touches (cancelled_touches hgot hstate)
      (byIssue_ofTenant tenantId)).symm
  | finish hgot hrunning digest =>
    have hA := hb.accepted_of_running hgot hrunning hkeeps
    refine hx.release (completeLease_closes hgot hrunning digest) rfl hA ?_
    rw [completeLease_eq]
  | @expire _ lease hgot hlive =>
    have hcl := expireLease_closes hgot hlive
    cases hrunning : lease.state.running with
    | true =>
      refine hx.release hcl rfl (hb.accepted_of_running hgot hrunning hkeeps) ?_
      rw [expireLease_runningByTenant, if_pos hrunning]
    | false =>
      intro tenantId
      have hoffered := offered_of_live hlive hrunning
      rw [runningOf, expireLease_runningByTenant, hrunning, if_neg Bool.false_ne_true]
      exact (hx tenantId).trans (total_closes_offered hcl (hb.not_accepted hgot hoffered)).symm
  | restore =>
    intro _
    rw [runningOf, (s.restored_fields _).2.2.1, Std.ExtTreeMap.getElem?_empty]
    exact (total_restored fun _ _ hgot hA => (hb.state_ne hgot hA).2).symm

theorem acceptedAfter_mono {A : String → Bool} {id : String} (hid : A id) : acceptedAfter A a id := by
  cases a with
  | accept => exact or_eq_true_iff.mpr (Or.inl hid)
  | _ => exact hid

/-! ### Marks of a run -/

/-- The lease a call asked to stop. -/
def cancels (e : Event) : Option String :=
  match e.op, e.result with
  | .requestCancel jobId, .done => e.before.activeLeaseByJob[jobId]?
  | _, _ => none

/-- Some call of `h` asked the lease to stop. -/
def cancelledIn (h : History) (id : String) : Bool := h.any fun e => cancels e == some id

def cancelledAfter (A : String → Bool) : Action → String → Bool
  | .cancel id _, x => A x || x == id
  | _, x => A x

/-- The leases accepted and cancelled so far. -/
structure Marks where
  accepted : String → Bool
  cancelled : String → Bool

def Marks.after (m : Marks) (a : Action) : Marks :=
  ⟨acceptedAfter m.accepted a, cancelledAfter m.cancelled a⟩

def marksIn (h : History) : Marks := ⟨acceptedIn h, cancelledIn h⟩

variable {op : Op} {out : Outcome}

theorem marksIn_performs {acts : List Action} (h : History) (hperforms : Performs s op out acts) :
    acts.foldl Marks.after (marksIn h) = marksIn (⟨s, op, out⟩ :: h) := by
  have hnone : ∀ {op : Op} {out : Outcome}, accepts ⟨s, op, out⟩ = none → cancels ⟨s, op, out⟩ = none →
      marksIn h = marksIn (⟨s, op, out⟩ :: h) := by
    intro _ _ haccepts hcancels
    rw [marksIn, marksIn, Marks.mk.injEq]
    constructor
    · funext id
      simp [acceptedIn, haccepts]
    · funext id
      simp [cancelledIn, hcancels]
  have hexpiries : ∀ now, (s.expiries now).foldl Marks.after (marksIn h) = marksIn h :=
    fun _ => foldl_expiries (fun _ _ _ _ => rfl) _
  cases hperforms with
  | accepted =>
    rw [foldl_cons, foldl_nil, marksIn, marksIn, Marks.after, Marks.mk.injEq]
    constructor
    · funext x
      rw [acceptedAfter, Bool.or_comm]
      simp [acceptedIn, accepts, BEq.comm]
    · funext x
      simp [cancelledAfter, cancelledIn, cancels]
  | cancelled hactive =>
    rw [foldl_cons, foldl_nil, marksIn, marksIn, Marks.after, Marks.mk.injEq]
    constructor
    · funext x
      simp [acceptedAfter, acceptedIn, accepts]
    · funext x
      rw [cancelledAfter, Bool.or_comm]
      simp [cancelledIn, cancels, hactive, BEq.comm]
  | noOffer =>
    rw [hexpiries]
    exact hnone rfl rfl
  | lost =>
    rw [foldl_append, hexpiries]
    exact hnone rfl rfl
  | offered =>
    rw [foldl_append, hexpiries]
    exact hnone rfl rfl
  | expired =>
    rw [hexpiries]
    exact hnone rfl rfl
  | rejected | renewed | late | refused =>
    exact hnone (by unfold accepts; split <;> simp_all) (by unfold cancels; split <;> simp_all)
  | _ => exact hnone rfl rfl

theorem acceptedIn_performs {acts : List Action} (h : History) (hperforms : Performs s op out acts) :
    acts.foldl acceptedAfter (acceptedIn h) = acceptedIn (⟨s, op, out⟩ :: h) :=
  (foldl_hom Marks.accepted fun _ _ => rfl).trans (congrArg Marks.accepted (marksIn_performs h hperforms))

theorem accounting_call {Q : (String → Bool) → Scheduler → Prop} {K : (String → Bool) → Scheduler → Action → Prop}
    (hdoes : ∀ A s a t, Does s a t → Consistent s → Books A s → K A s a → Q A s → Q (acceptedAfter A a) t)
    (hc : Consistent s) (op : Op)
    (hK : ∀ A x, (∀ id, acceptedIn h id → A id) → Causes s op (step s op).1 x → K A x.1 x.2)
    (hb : Books (acceptedIn h) s) (hQ : Q (acceptedIn h) s) :
    Books (acceptedIn (⟨s, op, (step s op).1⟩ :: h)) (step s op).2 ∧
      Q (acceptedIn (⟨s, op, (step s op).1⟩ :: h)) (step s op).2 := by
  obtain ⟨_, htrace, hperforms⟩ := step_performs hc op
  have hstep : ∀ (A : String → Bool) (s : Scheduler) (a : Action) (t : Scheduler), Does s a t →
      (∀ A, (∀ id, acceptedIn h id → A id) → K A s a) →
      (Consistent s ∧ (∀ id, acceptedIn h id → A id) ∧ Books A s ∧ Q A s) →
      Consistent t ∧ (∀ id, acceptedIn h id → acceptedAfter A a id) ∧ Books (acceptedAfter A a) t ∧
        Q (acceptedAfter A a) t := by
    rintro A s a t hd hK ⟨hcs, hA, hbs, hQs⟩
    exact ⟨(hd.consistent hcs).2, fun id hid => acceptedAfter_mono (hA id hid), hd.books hcs hbs,
      hdoes A s a t hd hcs hbs (hK A hA) hQs⟩
  have hend := htrace.invariant hstep (fun x hx A hA => hK A x hA (hperforms.causes htrace x hx))
    ⟨hc, fun _ hid => hid, hb, hQ⟩
  rw [acceptedIn_performs h hperforms] at hend
  exact hend.2.2

/-- Every runner is registered with zero counters. -/
def RegistersIdle (e : Event) : Prop :=
  match e.op with
  | .registerRunner runner => runner.Idle
  | _ => True

/-- Every `CancelRequested` lease that the call completes or expires was accepted before. -/
def ReleasesOnlyAccepted (e : Event) (earlier : History) : Prop :=
  ∀ p ∈ (e.before.completing e.op).toList ++ e.before.expiringIn e.op,
    p.2.state = .cancelRequested → acceptedIn earlier p.1

/-- The lease that the call accepts overflows no counter. -/
def AcceptFits (e : Event) : Prop :=
  ∀ p ∈ e.before.accepting e.op, (e.before.runningOf p.2.tenantId).toNat + 1 < 2 ^ 32 ∧
    ∀ runner ∈ e.before.runners[p.2.runnerId]?, ∀ job ∈ e.before.leasedJobs[p.1]?,
      runner.Fits job.requirements

instance RegistersIdle.decidable (e : Event) : Decidable (RegistersIdle e) := by
  unfold RegistersIdle
  split <;> infer_instance

instance ReleasesOnlyAccepted.decidable (e : Event) (earlier : History) :
    Decidable (ReleasesOnlyAccepted e earlier) := List.decidableBAll _ _

instance AcceptFits.decidable (e : Event) : Decidable (AcceptFits e) := by
  unfold AcceptFits
  infer_instance

variable {x : Scheduler × Action}

section
variable (hreleases : ReleasesOnlyAccepted ⟨s, op, out⟩ h) (hA : ∀ id, acceptedIn h id → A id)
include hreleases hA

theorem releasesAccepted_of_causes (hcauses : Causes s op out x) : ReleasesAccepted A x.2 := by
  cases hcauses with
  | finish hcompleting =>
    exact fun hstate => hA _ (hreleases _ (mem_append.mpr (Or.inl (Option.mem_toList.mpr hcompleting))) hstate)
  | expire hexpiring _ => exact fun hstate => hA _ (hreleases _ (mem_append.mpr (Or.inr hexpiring)) hstate)
  | _ => trivial

theorem keepsRunners_of_causes (hidle : RegistersIdle ⟨s, op, out⟩) (hfits : AcceptFits ⟨s, op, out⟩)
    (hcauses : Causes s op out x) : KeepsRunners A x.1 x.2 := by
  have hrel := releasesAccepted_of_causes hreleases hA hcauses
  cases hcauses with
  | register hop => subst hop; exact hidle
  | accept haccepting => exact fun runner job hrunner hjob => (hfits _ haccepting).2 runner hrunner job hjob
  | _ => exact hrel

theorem keepsTenants_of_causes (hfits : AcceptFits ⟨s, op, out⟩) (hcauses : Causes s op out x) :
    KeepsTenants A x.1 x.2 := by
  have hrel := releasesAccepted_of_causes hreleases hA hcauses
  cases hcauses with
  | accept haccepting => exact (hfits _ haccepting).1
  | _ => exact hrel

end

theorem books_new (epoch : U64) : Books (acceptedIn []) (new epoch) :=
  ⟨nofun, fun _ _ hgot => by simp [new] at hgot⟩

theorem runnersExact_new (epoch : U64) : RunnersExact (acceptedIn []) (new epoch) :=
  fun r _ hr => by simp [new] at hr

theorem tenantsExact_new (epoch : U64) : TenantsExact (acceptedIn []) (new epoch) := by
  intro _
  simp [new, runningOf, total]

theorem exact_of_reaches {epoch : U64} (hrun : Reaches epoch h s) (hidle : ∀ e ∈ h, RegistersIdle e)
    (hall : Run.AllCalls (fun e earlier => ReleasesOnlyAccepted e earlier ∧ AcceptFits e) h) :
    Books (acceptedIn h) s ∧ RunnersExact (acceptedIn h) s ∧ TenantsExact (acceptedIn h) s := by
  induction hrun with
  | start => exact ⟨books_new epoch, runnersExact_new epoch, tenantsExact_new epoch⟩
  | call hrun op ih =>
    obtain ⟨hidleCall, hidleRest⟩ := forall_mem_cons.mp hidle
    obtain ⟨⟨hreleases, hfits⟩, hallRest⟩ := hall
    obtain ⟨hb, hexact⟩ := ih hidleRest hallRest
    refine accounting_call (Q := fun A s => RunnersExact A s ∧ TenantsExact A s)
      (K := fun A s a => KeepsRunners A s a ∧ KeepsTenants A s a) ?_ (Reaches.consistent hrun) op ?_ hb hexact
    · exact fun A s a t hd hc hb hK hx =>
        ⟨hd.runnersExact hc hb hK.1 hx.1, hd.tenantsExact hc hb hK.2 hx.2⟩
    · exact fun A x hA hx => ⟨keepsRunners_of_causes hreleases hA hidleCall hfits hx,
        keepsTenants_of_causes hreleases hA hfits hx⟩

/-! ### The totals as lists of held leases -/

theorem total_eq_sum (h : History) (s : Scheduler) (f : Lease → Option QueuedJob → Nat) :
    total (acceptedIn h) s f = ((heldLeases h s).map fun p => f p.2 s.leasedJobs[p.1]?).sum := by
  unfold total sumBy charge heldLeases
  exact BTreeMap.sum_map_ite _ _ _

theorem total_ofTenant (h : History) (s : Scheduler) (tenantId : String) : total (acceptedIn h) s (ofTenant tenantId) =
      ((heldLeases h s).filter fun p => p.2.tenantId == tenantId).length := by
  have hcount := BTreeMap.sum_map_ite (fun p => p.2.tenantId == tenantId) (fun _ => 1) (heldLeases h s)
  rw [map_const', sum_replicate_nat, Nat.mul_one] at hcount
  rw [total_eq_sum, ← hcount]
  simp only [ofTenant, beq_iff_eq]

theorem total_onRunner (h : History) (s : Scheduler) (r : String) (c : Counter) :
    total (acceptedIn h) s (onRunner r c) = ((heldJobs h s r).map fun job => job.requirements.weight c).sum := by
  rw [total_eq_sum, heldJobs, ← sum_map_getD, heldOn, ← BTreeMap.sum_map_ite]
  simp only [onRunner, beq_iff_eq]

theorem length_heldJobs (hc : Consistent s) (hb : Books (acceptedIn h) s) (r : String) :
    (heldJobs h s r).length = (heldOn h s r).length := by
  have hsome : ∀ p ∈ heldOn h s r, ∃ job, s.leasedJobs[p.1]? = some job := by
    intro p hp
    simp only [heldOn, heldLeases, mem_filter, mem_toList, and_eq_true] at hp
    obtain ⟨⟨hgot, hA, _⟩, -⟩ := hp
    have hne := hb.state_ne hgot hA
    have hlive : p.2.state.live := by
      cases hstate : p.2.state <;> simp_all [live, unfinished]
    obtain ⟨job, hjob, -⟩ := hc.jobOfLive p.1 p.2 hgot hlive
    exact ⟨job, hjob⟩
  unfold heldJobs
  generalize heldOn h s r = l at hsome
  induction l with
  | nil => rfl
  | cons p l ih =>
    obtain ⟨⟨_, hjob⟩, hrest⟩ := forall_mem_cons.mp hsome
    rw [filterMap_cons, hjob, length_cons, length_cons, ih hrest]

/-- **The counters are exact.** In every run in which a `CancelRequested` lease is completed or expired only if it
was accepted, and in which no accepted lease overflows a counter, the running count of a tenant is the number of
its held leases and the five counters of a runner are the sums over the leases it holds. -/
theorem counters_exact {epoch : U64} {h : History} (hrun : Reaches epoch h s)
    (hidle : ∀ e ∈ h, RegistersIdle e)
    (hall : Run.AllCalls (fun e earlier => ReleasesOnlyAccepted e earlier ∧ AcceptFits e) h) :
    (∀ tenantId, (s.runningOf tenantId).toNat =
      ((heldLeases h s).filter fun p => p.2.tenantId == tenantId).length) ∧
    ∀ (r : String) (runner : RunnerRecord), s.runners[r]? = some runner →
      (heldJobs h s r).length = (heldOn h s r).length ∧
      ∀ c, runner.counter c = ((heldJobs h s r).map fun job => job.requirements.weight c).sum := by
  obtain ⟨hb, hrunners, htenants⟩ := exact_of_reaches hrun hidle hall
  refine ⟨fun tenantId => ?_, fun r runner hr => ⟨?_, fun c => ?_⟩⟩
  · rw [htenants tenantId, total_ofTenant]
  · exact length_heldJobs (Reaches.consistent hrun) hb r
  · rw [hrunners r runner hr c, total_onRunner]

end

/-- An accepted lease is cancelled and then completed by its runner. -/
def cancelThenComplete : List Op :=
  [.registerRunner (Fixture.runner "runner"), .enqueue (Fixture.job "job" true),
    .offerForRunner "runner" 2, .decideOffer "lease-1" "runner" 1 true 3, .requestCancel "job",
    .complete "lease-1" "runner" 1 1 ⟨0⟩]

theorem counters_exact_cancelThenComplete :
    ((exec 1 cancelThenComplete).2.runningOf "tenant").toNat =
      ((heldLeases (exec 1 cancelThenComplete).1 (exec 1 cancelThenComplete).2).filter
        fun p => p.2.tenantId == "tenant").length := by
  refine (counters_exact (reaches_exec 1 cancelThenComplete) ?_ ?_).1 "tenant"
  · decide
  · decide

/-- One of two offered leases is accepted; the other is cancelled while it is only offered, and then
completed. -/
def cancelOfferThenComplete : List Op :=
  [.registerRunner (Fixture.runner "runner"), .enqueue (Fixture.job "a" true),
    .enqueue (Fixture.job "b" true), .offerForRunner "runner" 2, .offerForRunner "runner" 2,
    .decideOffer "lease-1" "runner" 1 true 3, .requestCancel "b", .complete "lease-2" "runner" 1 1 ⟨0⟩]

/-- The completion of the lease that nobody accepted takes the other lease out of the counters. -/
theorem counters_inexact_cancelOfferThenComplete :
    ¬∀ (epoch : U64) (h : History) (s : Scheduler), Reaches epoch h s → (∀ e ∈ h, RegistersIdle e) →
      (∀ tenantId, (s.runningOf tenantId).toNat =
        ((heldLeases h s).filter fun p => p.2.tenantId == tenantId).length) ∧
      ∀ (r : String) (runner : RunnerRecord), s.runners[r]? = some runner →
        (heldJobs h s r).length = (heldOn h s r).length ∧
        ∀ c, runner.counter c = ((heldJobs h s r).map fun job => job.requirements.weight c).sum := by
  intro hall
  have hrunning := (hall 1 _ _ (reaches_exec 1 cancelOfferThenComplete) (by decide)).1 "tenant"
  revert hrunning
  decide

end Runtrue.Scheduling
