import Runtrue.Scheduling.Accounting

/-!
# Where an enqueued job is

A job that was enqueued moves from the queue to a lease and, when the lease ends without a result, back to
the queue or out of the scheduler. `Placed` follows one enqueued job through the calls after its `enqueue`,
with the accepted and the cancelled leases of those calls as ghost values (`Marks`). Every way out is
accounted for except one: `expire` and `restore_fencing_epoch` drop a job that is not retryable also when
nobody had accepted its lease, while a late `decide_offer` puts it back.
-/

namespace Runtrue.Scheduling

open Scheduler BTreeMap List Reaches

section
variable {s t s₀ : Scheduler} {a : Action} {m : Marks} {id : String} {lease lease' : Lease} {A : String → Bool}

theorem cancelledAfter_mono (hid : A id) : cancelledAfter A a id := by
  cases a with
  | cancel => exact Bool.or_eq_true_iff.mpr (Or.inl hid)
  | _ => exact hid

variable {op : Op} {out : Outcome} {acts : List Action}

/-- The leases issued since `s₀` carry the marks of the calls since then. -/
def Marked (s₀ : Scheduler) (m : Marks) (s : Scheduler) : Prop :=
  ∀ (id : String) (lease : Lease), s₀.leases[id]? = none → s.leases[id]? = some lease →
    (lease.state = .active → m.accepted id) ∧ (lease.state = .cancelRequested → m.cancelled id)

theorem Marked.insert (hm : Marked s₀ m s) (hleases : t.leases = s.leases.insert id lease')
    (hnew : (lease'.state = .active → s₀.leases[id]? = none → (m.after a).accepted id) ∧
      (lease'.state = .cancelRequested → s₀.leases[id]? = none → (m.after a).cancelled id)) :
    Marked s₀ (m.after a) t := by
  intro x l hx hl
  rw [hleases, get_insert] at hl
  split at hl
  · rename_i heq
    cases hl
    subst heq
    exact ⟨fun hs => hnew.1 hs hx, fun hs => hnew.2 hs hx⟩
  · exact ⟨fun hs => acceptedAfter_mono ((hm x l hx hl).1 hs),
      fun hs => cancelledAfter_mono ((hm x l hx hl).2 hs)⟩

theorem Closes.marked (hcl : Closes s id lease lease' t) (hm : Marked s₀ m s) : Marked s₀ (m.after a) t := by
  refine hm.insert hcl.leases ⟨fun hs => ?_, fun hs => ?_⟩
  · exact absurd (by rw [hs]; rfl) hcl.ended
  · exact absurd (by rw [hs]; rfl) hcl.ended

theorem Does.marked (hdoes : Does s a t) (hm : Marked s₀ m s) : Marked s₀ (m.after a) t := by
  cases hdoes with
  | register | status | quota | enqueue | lose => exact hm
  | issue _ _ _ _ _ =>
    refine hm.insert rfl ⟨fun hs => ?_, fun hs => ?_⟩
    · cases hs
    · cases hs
  | accept _ _ _ _ =>
    refine hm.insert rfl ⟨fun _ _ => by simp [Marks.after, acceptedAfter], fun hs => ?_⟩
    cases hs
  | giveBack hgot hoffered hended => exact (returnOffer_closes hgot hoffered hended).marked hm
  | @renew id lease _ hgot _ _ _ _ =>
    have hold : ∀ hx, _ := fun hx => hm id lease hx hgot
    exact hm.insert rfl ⟨fun hs hx => (hold hx).1 hs, fun hs hx => (hold hx).2 hs⟩
  | cancel _ _ =>
    refine hm.insert rfl ⟨fun hs => ?_, fun _ _ => by simp [Marks.after, cancelledAfter]⟩
    cases hs
  | finish hgot hrunning digest => exact (completeLease_closes hgot hrunning digest).marked hm
  | expire hgot hlive => exact (expireLease_closes hgot hlive).marked hm
  | restore _ =>
    intro x l _ hl
    have hended := restored_not_live hl
    exact ⟨fun hs => absurd (by rw [hs]; rfl) hended, fun hs => absurd (by rw [hs]; rfl) hended⟩

/-! ### One enqueued job -/

/-- Why an expired lease may leave its job out: it was accepted or cancelled, and the job is not retryable
or, unless `strict`, the lease was cancelled. -/
def MayDrop (strict : Bool) (m : Marks) (job : QueuedJob) (id : String) : Prop :=
  (m.accepted id ∨ m.cancelled id) ∧
    (¬job.retryableAfterRunnerLoss ∨ (strict = false ∧ m.cancelled id))

/-- Where the job is: queued, under a live lease issued since `s₀`, or settled by such a lease. -/
inductive Placed (strict : Bool) (s₀ : Scheduler) (job : QueuedJob) (m : Marks) (s : Scheduler) : Prop
  | queued (hqueued : s.queue[job.id]? = some job)
  | leased {id : String} {lease : Lease} (hnew : s₀.leases[id]? = none)
      (hgot : s.leases[id]? = some lease) (hlive : lease.state.live)
      (hjob : s.leasedJobs[id]? = some job)
  | settled {id : String} {lease : Lease} (hnew : s₀.leases[id]? = none)
      (hgot : s.leases[id]? = some lease) (hid : lease.jobId = job.id)
      (hstate : lease.state = .completed ∨ (lease.state = .expired ∧ MayDrop strict m job id))

/-- The changes that lose no job. -/
def KeepsJobs (strict : Bool) (s : Scheduler) : Action → Prop
  | .lose _ => False
  | .expire _ lease job => ∀ x ∈ job, (lease.state = .offered → x.retryableAfterRunnerLoss) ∧
      (strict → lease.state = .cancelRequested → ¬x.retryableAfterRunnerLoss)
  | .restore => ∀ (id : String) (lease : Lease) (x : QueuedJob), s.leases[id]? = some lease →
      lease.state = .offered → s.leasedJobs[id]? = some x → x.retryableAfterRunnerLoss
  | _ => True

section
variable {strict : Bool} {job : QueuedJob}

theorem MayDrop.mono (h : MayDrop strict m job id) : MayDrop strict (m.after a) job id :=
  ⟨h.1.imp acceptedAfter_mono cancelledAfter_mono, h.2.imp_right fun hc =>
    ⟨hc.1, cancelledAfter_mono hc.2⟩⟩

theorem Placed.settled_of_follows (hfollows : Follows s t) (hnew : s₀.leases[id]? = none)
    (hgot : s.leases[id]? = some lease) (hid : lease.jobId = job.id)
    (hstate : lease.state = .completed ∨ (lease.state = .expired ∧ MayDrop strict m job id)) :
    Placed strict s₀ job (m.after a) t := by
  have hended : ¬lease.state.live := by
    rcases hstate with h | ⟨h, -⟩ <;> rw [h] <;> exact Bool.false_ne_true
  obtain ⟨_, hgot', -, hsame⟩ := hfollows.leases id lease hgot
  obtain rfl := hsame hended
  exact .settled hnew hgot' hid (hstate.imp_right fun h => ⟨h.1, h.2.mono⟩)

variable {b : String} {l l' : Lease}

theorem Placed.leased_of_touches (ht : Touches s b l l' t) (hnew : s₀.leases[id]? = none)
    (hgot : s.leases[id]? = some lease) (hlive : lease.state.live)
    (hjob : s.leasedJobs[id]? = some job) : Placed strict s₀ job m t := by
  have hjob' : t.leasedJobs[id]? = some job := by rw [ht.leasedJobs, hjob]
  have hleases := ht.leases
  by_cases heq : b = id
  · subst heq
    refine .leased hnew ?_ ht.live' hjob'
    rw [hleases, get_insert, if_pos rfl]
  · refine .leased hnew ?_ hlive hjob'
    rw [hleases, get_insert, if_neg heq, hgot]

theorem Placed.leased_of_closes (hcl : Closes s b l l' t) (hne : b ≠ id)
    (hnew : s₀.leases[id]? = none) (hgot : s.leases[id]? = some lease) (hlive : lease.state.live)
    (hjob : s.leasedJobs[id]? = some job) : Placed strict s₀ job m t := by
  refine .leased hnew ?_ hlive ?_
  · rw [hcl.leases, get_insert, if_neg hne, hgot]
  · rw [hcl.leasedJobs, get_erase, if_neg hne, hjob]

theorem Placed.queued_of_closes (hcl : Closes s b l l' t) (hc : Consistent s)
    (hqueued : s.queue[job.id]? = some job) : Placed strict s₀ job m t := by
  have hne : l.jobId ≠ job.id := by
    intro heq
    have hactive := hc.activeOfLive b l hcl.got hcl.live
    rw [heq, hc.queueFree _ _ hqueued] at hactive
    cases hactive
  refine .queued ?_
  rcases hcl.queue with hq | ⟨_, hx, hq⟩
  · rw [hq, hqueued]
  · have hx' := (hc.jobId_of_leased hcl.got hx).2.1
    rw [hq, get_insert, if_neg (hx' ▸ hne), hqueued]

theorem Does.placed_queued (hdoes : Does s a t) (hc : Consistent s) (hkeeps : KeepsJobs strict s a)
    (hold : ∀ id : String, s.leases[id]? = none → s₀.leases[id]? = none)
    (hqueued : s.queue[job.id]? = some job) : Placed strict s₀ job m t := by
  cases hdoes with
  | register | status | quota | accept | renew | cancel => exact .queued hqueued
  | @enqueue _ hqueue _ =>
    refine .queued ?_
    rw [get_insert, if_neg, hqueued]
    intro heq
    rw [heq, hqueued] at hqueue
    cases hqueue
  | @issue job' _ _ _ _ hqueued' _ _ _ _ =>
    by_cases heq : job'.id = job.id
    · -- the offer takes this job
      obtain rfl : job' = job := by simpa [heq, hqueued, eq_comm] using hqueued'
      refine .leased (hold _ hc.fresh) (get_insert_self _ _ _) rfl (get_insert_self _ _ _)
    · refine .queued ?_
      rw [issued, get_erase, if_neg heq, hqueued]
  | lose => exact hkeeps.elim
  | giveBack hgot hoffered hended =>
    exact .queued_of_closes (returnOffer_closes hgot hoffered hended) hc hqueued
  | finish hgot hrunning digest =>
    exact .queued_of_closes (completeLease_closes hgot hrunning digest) hc hqueued
  | expire hgot hlive => exact .queued_of_closes (expireLease_closes hgot hlive) hc hqueued
  | restore _ => exact .queued ((hc.restored_queue _ _ job).mpr (Or.inl hqueued))

theorem mayDrop_of_ended (hm : Marked s₀ m s) (hnew : s₀.leases[id]? = none)
    (hgot : s.leases[id]? = some lease) (hlive : lease.state.live)
    (hoffered : lease.state = .offered → job.retryableAfterRunnerLoss)
    (hretry : job.retryableAfterRunnerLoss → strict = false ∧ lease.state = .cancelRequested) :
    MayDrop strict m job id := by
  obtain ⟨haccepted, hcancelled⟩ := hm id lease hnew hgot
  cases hstate : lease.state with
  | offered =>
    have hcancel := (hretry (hoffered hstate)).2
    rw [hstate] at hcancel
    cases hcancel
  | active =>
    refine ⟨Or.inl (haccepted hstate), Or.inl fun hr => ?_⟩
    have hcancel := (hretry hr).2
    rw [hstate] at hcancel
    cases hcancel
  | cancelRequested =>
    refine ⟨Or.inr (hcancelled hstate), ?_⟩
    by_cases hr : job.retryableAfterRunnerLoss
    · exact Or.inr ⟨(hretry hr).1, hcancelled hstate⟩
    · exact Or.inl hr
  | _ => rw [hstate] at hlive; cases hlive

theorem Does.placed_leased (hdoes : Does s a t) (hc : Consistent s) (hkeeps : KeepsJobs strict s a)
    (hm : Marked s₀ m s) (hnew : s₀.leases[id]? = none) (hgot : s.leases[id]? = some lease)
    (hlive : lease.state.live) (hjob : s.leasedJobs[id]? = some job) : Placed strict s₀ job (m.after a) t := by
  have hjobId : lease.jobId = job.id := ((hc.jobId_of_leased hgot hjob).2.1).symm
  cases hdoes with
  | register | status | quota | enqueue => exact .leased hnew hgot hlive hjob
  | lose => exact hkeeps.elim
  | issue _ _ _ _ _ =>
    have hne : leaseName s.nextLeaseId ≠ id := by
      rintro rfl
      rw [hc.fresh] at hgot
      cases hgot
    refine .leased hnew ?_ hlive ?_
    · rw [issued, get_insert, if_neg hne, hgot]
    · rw [issued, get_insert, if_neg hne, hjob]
  | accept hgot' hoffered => exact .leased_of_touches (accepted_touches hgot' hoffered) hnew hgot hlive hjob
  | renew hgot' hrunning _ _ expires =>
    exact .leased_of_touches (renewed_touches hgot' hrunning expires) hnew hgot hlive hjob
  | cancel hgot' hstate => exact .leased_of_touches (cancelled_touches hgot' hstate) hnew hgot hlive hjob
  | @giveBack b _ _ hgot' hoffered hended =>
    have hcl := returnOffer_closes hgot' hoffered hended
    by_cases heq : b = id
    · subst heq
      refine .queued ?_
      rw [returnOffer_eq, requeued, hjob]
      exact get_insert_self _ _ _
    · exact .leased_of_closes hcl heq hnew hgot hlive hjob
  | @finish b _ hgot' hrunning digest =>
    have hcl := completeLease_closes hgot' hrunning digest
    by_cases heq : b = id
    · subst heq
      obtain rfl : lease = _ := Option.mem_unique hgot hgot'
      have hget := hcl.get_self
      exact .settled hnew hget hjobId (Or.inl rfl)
    · exact .leased_of_closes hcl heq hnew hgot hlive hjob
  | @expire b _ hgot' hlive' =>
    have hcl := expireLease_closes hgot' hlive'
    by_cases heq : b = id
    · subst heq
      obtain rfl : lease = _ := Option.mem_unique hgot hgot'
      obtain ⟨hoffered, hcancel⟩ := hkeeps job hjob
      cases hrequeue : expireRequeues lease job with
      | true =>
        refine .queued ?_
        rw [expireLease_queue, requeued, hjob]
        simp [hrequeue]
      | false =>
        have hget := hcl.get_self
        refine .settled hnew hget hjobId (Or.inr ⟨rfl, MayDrop.mono ?_⟩)
        refine mayDrop_of_ended hm hnew hgot hlive hoffered fun hr => ?_
        have hstate : lease.state = .cancelRequested := by
          simpa [expireRequeues, hr] using hrequeue
        exact ⟨Bool.eq_false_iff.mpr fun hs => hcancel hs hstate hr, hstate⟩
    · exact .leased_of_closes hcl heq hnew hgot hlive hjob
  | @restore newEpoch _ =>
    by_cases hr : job.retryableAfterRunnerLoss
    · exact .queued ((hc.restored_queue _ _ job).mpr (Or.inr ⟨id, hjob, hr, rfl⟩))
    · have hget : (s.restored newEpoch).leases[id]? = some { lease with state := .expired } := by
        rw [restored_get_lease, hgot, Option.map_some, if_pos hlive]
      refine .settled hnew hget hjobId (Or.inr ⟨rfl, MayDrop.mono ?_⟩)
      exact mayDrop_of_ended hm hnew hgot hlive (fun ho => hkeeps id lease job hgot ho hjob)
        fun h => absurd h hr

theorem Does.placed (hdoes : Does s a t) (hc : Consistent s) (hkeeps : KeepsJobs strict s a)
    (hm : Marked s₀ m s) (hold : ∀ id : String, s.leases[id]? = none → s₀.leases[id]? = none)
    (hp : Placed strict s₀ job m s) : Placed strict s₀ job (m.after a) t := by
  cases hp with
  | queued hqueued => exact hdoes.placed_queued hc hkeeps hold hqueued
  | leased hnew hgot hlive hjob => exact hdoes.placed_leased hc hkeeps hm hnew hgot hlive hjob
  | settled hnew hgot hid hstate => exact .settled_of_follows (hdoes.follows hc) hnew hgot hid hstate

/-! ### Runs -/

/-- The leases a call ends because they are past their deadline or because it restores the epoch. -/
def Scheduler.reclaiming (s : Scheduler) : Op → List (String × Lease)
  | .restoreFencingEpoch newEpoch =>
    if newEpoch ≤ s.installationFencingEpoch then [] else s.leases.toList.filter fun p => p.2.state.live
  | op => s.expiringIn op

/-- The call reclaims a lease that nobody accepted, of a job that is not retryable. -/
def DropsOffer (e : Event) : Prop :=
  ∃ p ∈ e.before.reclaiming e.op, p.2.state = .offered ∧
    (e.before.leasedJobs[p.1]?).any fun job => !job.retryableAfterRunnerLoss

/-- The call expires a cancelled lease of a job that is retryable. -/
def DropsCancelled (e : Event) : Prop :=
  ∃ p ∈ e.before.expiringIn e.op, p.2.state = .cancelRequested ∧
    (e.before.leasedJobs[p.1]?).any fun job => job.retryableAfterRunnerLoss

/-- The call failed because a counter of `offer_for_runner` overflowed. -/
def Overflows (e : Event) : Prop :=
  e.result = .failed .generationOverflow ∨ e.result = .failed .leaseIdOverflow

instance DropsOffer.decidable (e : Event) : Decidable (DropsOffer e) := List.decidableBEx _ _

instance DropsCancelled.decidable (e : Event) : Decidable (DropsCancelled e) := List.decidableBEx _ _

instance Overflows.decidable (e : Event) : Decidable (Overflows e) := instDecidableOr

variable {op : Op}

theorem Scheduler.reclaiming_expiringIn {p : String × Lease} (hp : p ∈ s.expiringIn op) : p ∈ s.reclaiming op := by
  cases op with
  | restoreFencingEpoch => cases hp
  | _ => exact hp

theorem keepsJobs_of_causes {out : Outcome} (hover : ¬Overflows ⟨s, op, out⟩)
    (hoffer : ¬DropsOffer ⟨s, op, out⟩) (hcancel : strict → ¬DropsCancelled ⟨s, op, out⟩)
    {x : Scheduler × Action} (hcauses : Causes s op out x) : KeepsJobs strict x.1 x.2 := by
  cases hcauses with
  | lose he hout =>
    refine hover ?_
    rcases he with rfl | rfl
    · exact Or.inl hout
    · exact Or.inr hout
  | expire hexpiring hjob =>
    intro y hy
    subst hjob
    refine ⟨fun hstate => ?_, fun hs hstate hr => ?_⟩
    · by_contra hr
      refine hoffer ⟨_, reclaiming_expiringIn hexpiring, hstate, ?_⟩
      rw [Option.mem_def.mp hy]
      simpa using hr
    · refine hcancel hs ⟨_, hexpiring, hstate, ?_⟩
      rw [Option.mem_def.mp hy]
      exact hr
  | restore hop hepoch =>
    intro b l y hgot hstate hy
    by_contra hr
    refine hoffer ⟨(b, l), ?_, hstate, ?_⟩
    · subst hop
      rw [reclaiming, if_neg hepoch, mem_filter]
      exact ⟨mem_toList.mpr hgot, by rw [hstate]; rfl⟩
    · rw [hy]
      simpa using hr
  | _ => trivial

theorem placed_call {h : History} (hc : Consistent s) (op : Op)
    (hkeeps : ∀ x, Causes s op (step s op).1 x → KeepsJobs strict x.1 x.2)
    (hfollows : Follows s₀ s) (hm : Marked s₀ (marksIn h) s) (hp : Placed strict s₀ job (marksIn h) s) :
    Marked s₀ (marksIn (⟨s, op, (step s op).1⟩ :: h)) (step s op).2 ∧
      Placed strict s₀ job (marksIn (⟨s, op, (step s op).1⟩ :: h)) (step s op).2 := by
  obtain ⟨_, htrace, hperforms⟩ := step_performs hc op
  have hstep : ∀ (m : Marks) (s : Scheduler) (a : Action) (t : Scheduler), Does s a t →
      KeepsJobs strict s a →
      (Consistent s ∧ Follows s₀ s ∧ Marked s₀ m s ∧ Placed strict s₀ job m s) →
      Consistent t ∧ Follows s₀ t ∧ Marked s₀ (m.after a) t ∧ Placed strict s₀ job (m.after a) t := by
    rintro _ s _ _ hd hk ⟨hcs, hf, hms, hps⟩
    have hold : ∀ id : String, s.leases[id]? = none → s₀.leases[id]? = none := by
      intro id hnone
      by_contra hne
      obtain ⟨lease, hgot⟩ := Option.ne_none_iff_exists'.mp hne
      obtain ⟨_, hgot', -⟩ := hf.leases id lease hgot
      rw [hnone] at hgot'
      cases hgot'
    exact ⟨(hd.consistent hcs).2, hf.trans (hd.follows hcs), hd.marked hms, hd.placed hcs hk hms hold hps⟩
  have hend := htrace.invariant hstep (fun x hx => hkeeps x (hperforms.causes htrace x hx))
    ⟨hc, hfollows, hm, hp⟩
  rw [marksIn_performs h hperforms] at hend
  exact hend.2.2

theorem placed_of_reaches {later : History} (hrun : Run.Reaches step s₀ later s) (hc : Consistent s₀)
    (hqueued : s₀.queue[job.id]? = some job) (hover : ∀ e ∈ later, ¬Overflows e)
    (hoffer : ∀ e ∈ later, ¬DropsOffer e) (hcancel : strict → ∀ e ∈ later, ¬DropsCancelled e) :
    Marked s₀ (marksIn later) s ∧ Placed strict s₀ job (marksIn later) s := by
  induction hrun with
  | start =>
    refine ⟨fun _ _ hnone hgot => ?_, .queued hqueued⟩
    rw [hnone] at hgot
    cases hgot
  | call hrun op ih =>
    obtain ⟨hover, hoverRest⟩ := forall_mem_cons.mp hover
    obtain ⟨hoffer, hofferRest⟩ := forall_mem_cons.mp hoffer
    obtain ⟨hm, hp⟩ := ih hoverRest hofferRest fun hs => (forall_mem_cons.mp (hcancel hs)).2
    obtain ⟨hcs, hfollows⟩ := follows_of_reaches hrun hc
    exact placed_call hcs op (fun x hx => keepsJobs_of_causes hover hoffer
      (fun hs => (forall_mem_cons.mp (hcancel hs)).1) hx) hfollows hm hp

/-- A job enqueued in `s₀` is queued, under a live lease issued since, or had such a lease that completed,
or that expired as `drop` allows. -/
def Accounted (drop : String → Prop) (s₀ : Scheduler) (job : QueuedJob) (s : Scheduler) : Prop :=
  s.queue[job.id]? = some job ∨
    ∃ (id : String) (lease : Lease), s₀.leases[id]? = none ∧ s.leases[id]? = some lease ∧
      lease.jobId = job.id ∧ ((lease.state.live ∧ s.leasedJobs[id]? = some job) ∨
        lease.state = .completed ∨ (lease.state = .expired ∧ drop id))

theorem Placed.accounted {s₁ : Scheduler} {drop : String → Prop} (hp : Placed strict s₀ job m s)
    (hc : Consistent s) (hleases : s₀.leases = s₁.leases)
    (hdrop : ∀ id, MayDrop strict m job id → drop id) : Accounted drop s₁ job s := by
  cases hp with
  | queued hqueued => exact Or.inl hqueued
  | leased hnew hgot hlive hjob =>
    have hid := (hc.jobId_of_leased hgot hjob).2.1.symm
    exact Or.inr ⟨_, _, hleases ▸ hnew, hgot, hid, Or.inl ⟨hlive, hjob⟩⟩
  | settled hnew hgot hid hstate =>
    refine Or.inr ⟨_, _, hleases ▸ hnew, hgot, hid, Or.inr ?_⟩
    exact hstate.imp_right fun h => ⟨h.1, hdrop _ h.2⟩

theorem enqueued_of_done (hc : Consistent s) (hdone : (step s (.enqueue job)).1 = .done) :
    (step s (.enqueue job)).2 = { s with queue := s.queue.insert job.id job } := by
  obtain ⟨tr, htrace, hperforms⟩ := step_performs hc (.enqueue job)
  rw [hdone] at hperforms
  generalize (step s (.enqueue job)).2 = t at htrace
  generalize hacts : tr.map Prod.snd = acts at hperforms
  cases hperforms with
  | enqueued =>
    cases (htrace.eq_single hacts).2 with
    | enqueue => rfl

/-- **No job is lost.** After a successful `enqueue`, in every run in which no counter overflows and no call
reclaims an unaccepted lease of a job that is not retryable, the job is queued, is the job of a live lease, has a
completed lease, or had an accepted or cancelled lease that expired. -/
theorem no_job_lost {epoch : U64} {earlier later : History} {e : Event}
    (hrun : Reaches epoch (later ++ e :: earlier) s) (hop : e.op = .enqueue job)
    (hdone : e.result = .done) (hover : ∀ e' ∈ later, ¬Overflows e')
    (hoffer : ∀ e' ∈ later, ¬DropsOffer e') :
    Accounted (fun id => (acceptedIn later id ∨ cancelledIn later id) ∧
      (¬job.retryableAfterRunnerLoss ∨ cancelledIn later id)) e.before job s ∧
    ((∀ e' ∈ later, ¬DropsCancelled e') →
      Accounted (fun id => (acceptedIn later id ∨ cancelledIn later id) ∧
        ¬job.retryableAfterRunnerLoss) e.before job s) := by
  have hcs := consistent hrun
  obtain ⟨hbefore, hresult, hlater⟩ := hrun.split
  have hc := consistent hbefore
  have hct := (follows_of_reaches (Run.Reaches.call .start (.enqueue job)) hc).1
  rw [hop] at hresult hlater
  rw [enqueued_of_done hc (hresult.symm.trans hdone)] at hlater hct
  have hplaced : ∀ strict : Bool, (strict → ∀ e' ∈ later, ¬DropsCancelled e') →
      Placed strict _ job (marksIn later) s := fun _ hcancel =>
    (placed_of_reaches hlater hct (get_insert_self _ _ _) hover hoffer hcancel).2
  refine ⟨?_, fun hcancel => ?_⟩
  · exact (hplaced false nofun).accounted hcs rfl fun id h => ⟨h.1, h.2.imp_right And.right⟩
  · refine (hplaced true fun _ => hcancel).accounted hcs rfl fun _ h => ⟨h.1, ?_⟩
    rcases h.2 with hr | ⟨hfalse, -⟩
    · exact hr
    · cases hfalse

end

end

/-- An accepted lease of a job that is not retryable expires. -/
def acceptedThenExpired : List Op :=
  [.registerRunner (Fixture.runner "runner"), .enqueue (Fixture.job "job" false),
    .offerForRunner "runner" 2, .decideOffer "lease-1" "runner" 1 true 3, .expire 100000]

theorem no_job_lost_acceptedThenExpired :
    Accounted (fun id => (acceptedIn ((exec 1 acceptedThenExpired).1.take 3) id ∨
        cancelledIn ((exec 1 acceptedThenExpired).1.take 3) id) ∧
        ¬(Fixture.job "job" false).retryableAfterRunnerLoss)
      ((exec 1 acceptedThenExpired).1.get ⟨3, by decide⟩).before (Fixture.job "job" false)
      (exec 1 acceptedThenExpired).2 := by
  have hrun : Reaches 1 ((exec 1 acceptedThenExpired).1.take 3 ++
      (exec 1 acceptedThenExpired).1.get ⟨3, by decide⟩ :: (exec 1 acceptedThenExpired).1.drop 4)
      (exec 1 acceptedThenExpired).2 := reaches_exec 1 acceptedThenExpired
  refine (no_job_lost hrun rfl ?_ ?_ ?_).2 ?_
  · decide
  · decide
  · decide
  · decide

/-- An offer of a job that is not retryable passes its deadline, and `expire` notices it. -/
def offerThenExpired : List Op :=
  [.registerRunner (Fixture.runner "runner"), .enqueue (Fixture.job "job" false),
    .offerForRunner "runner" 2, .expire 100000]

/-- The job of the offer that nobody accepted is gone. -/
theorem job_lost_offerThenExpired :
    ¬∀ (epoch : U64) (job : QueuedJob) (earlier later : History) (e : Event) (s : Scheduler),
      Reaches epoch (later ++ e :: earlier) s → e.op = .enqueue job → e.result = .done →
      (∀ e' ∈ later ++ e :: earlier, ¬Overflows e') →
      Accounted (fun id => (acceptedIn later id ∨ cancelledIn later id) ∧
        ¬job.retryableAfterRunnerLoss) e.before job s := by
  intro hall
  have hlost : ∀ p ∈ (exec 1 offerThenExpired).2.leases.toList, p.2.state = .expired ∧
      ¬acceptedIn ((exec 1 offerThenExpired).1.take 2) p.1 ∧
      ¬cancelledIn ((exec 1 offerThenExpired).1.take 2) p.1 := by decide
  rcases hall 1 (Fixture.job "job" false) ((exec 1 offerThenExpired).1.drop 3)
    ((exec 1 offerThenExpired).1.take 2) ((exec 1 offerThenExpired).1.get ⟨2, by decide⟩)
    (exec 1 offerThenExpired).2 (reaches_exec 1 offerThenExpired) rfl (by decide) (by decide) with
    hqueued | ⟨id, lease, -, hgot, -, hstate⟩
  · revert hqueued
    decide
  · obtain ⟨hexpired, hacc, hcan⟩ := hlost (id, lease) (mem_toList.mpr hgot)
    dsimp only at hexpired
    rw [hexpired] at hstate
    rcases hstate with ⟨hlive, -⟩ | hcompleted | ⟨-, hmarks, -⟩
    · cases hlive
    · cases hcompleted
    · exact hmarks.elim hacc hcan

end Runtrue.Scheduling
