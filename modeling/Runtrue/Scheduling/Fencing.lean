import Runtrue.Scheduling.Steps

/-!
# Leases are exclusive and fenced

`Follows s t` is what every later state keeps of an earlier one: numbers do not go back, no lease is
forgotten or reissued, and an ended lease is not touched again. The generation of a new lease is one more than
the last generation of its job, which bounds the generations of all its earlier leases; a restored epoch is
larger than the epoch of every lease issued before. Exclusivity is `Consistent` in every reachable state.
-/

namespace Runtrue.Scheduling

open Scheduler List BitVec BTreeMap
open Outcome (of)

/-! ### What later states keep -/

structure Follows (s t : Scheduler) : Prop where
  grows : Grows s t
  leases : ∀ (id : String) (lease : Lease), s.leases[id]? = some lease →
    ∃ lease', t.leases[id]? = some lease' ∧ lease'.issue = lease.issue ∧
      (¬lease.state.live → lease' = lease)

section
variable {s t u : Scheduler} {a : Action} {id : String} {lease lease' : Lease}

theorem Follows.refl (s : Scheduler) : Follows s s :=
  ⟨Grows.refl s, fun _ lease h => ⟨lease, h, rfl, fun _ => rfl⟩⟩

theorem Follows.trans (h : Follows s t) (h' : Follows t u) : Follows s u := by
  refine ⟨h.grows.trans h'.grows, fun id lease hs => ?_⟩
  obtain ⟨lease₁, ht, hissue, hsame⟩ := h.leases id lease hs
  obtain ⟨lease₂, hu, hissue', hsame'⟩ := h'.leases id lease₁ ht
  refine ⟨lease₂, hu, hissue'.trans hissue, fun hended => ?_⟩
  obtain rfl := hsame hended
  exact hsame' hended

theorem Follows.of_leases (hgrows : Grows s t) (hleases : t.leases = s.leases) : Follows s t :=
  ⟨hgrows, fun _ lease h => ⟨lease, hleases ▸ h, rfl, fun _ => rfl⟩⟩

theorem Follows.of_insert (hgrows : Grows s t) (hgot : s.leases[id]? = some lease)
    (hlive : lease.state.live) (hissue : lease'.issue = lease.issue)
    (hleases : t.leases = s.leases.insert id lease') : Follows s t := by
  refine ⟨hgrows, fun a l hl => ?_⟩
  rw [hleases, get_insert]
  split
  · rename_i heq
    obtain rfl : lease = l := by simpa [heq, hl, eq_comm] using hgot
    exact ⟨lease', rfl, hissue, fun hended => absurd hlive hended⟩
  · exact ⟨l, hl, rfl, fun _ => rfl⟩

theorem Touches.follows (ht : Touches s id lease lease' t) : Follows s t :=
  .of_insert ht.grows ht.got ht.live ht.issue ht.leases

theorem Closes.follows (hcl : Closes s id lease lease' t) : Follows s t :=
  .of_insert hcl.grows hcl.got hcl.live hcl.issue hcl.leases

theorem Does.follows (hdoes : Does s a t) (hc : Consistent s) : Follows s t := by
  have hgrows := (hdoes.consistent hc).1
  cases hdoes with
  | register | status | quota | enqueue | lose => exact .of_leases hgrows rfl
  | issue _ _ _ _ _ =>
    refine ⟨hgrows, fun a l hl => ?_⟩
    simp only [issued, get_insert]
    rw [if_neg (by rintro rfl; rw [hc.fresh] at hl; cases hl)]
    exact ⟨l, hl, rfl, fun _ => rfl⟩
  | accept hgot hoffered => exact (accepted_touches hgot hoffered).follows
  | giveBack hgot hoffered hended => exact (returnOffer_closes hgot hoffered hended).follows
  | renew hgot hrunning _ _ expires => exact (renewed_touches hgot hrunning expires).follows
  | cancel hgot hstate => exact (cancelled_touches hgot hstate).follows
  | finish hgot hrunning digest => exact (completeLease_closes hgot hrunning digest).follows
  | expire hgot hlive => exact (expireLease_closes hgot hlive).follows
  | restore _ =>
    refine ⟨hgrows, fun a l hl => ?_⟩
    rw [restored_get_lease, hl]
    refine ⟨_, rfl, ?_, fun hended => if_neg hended⟩
    dsimp only
    split <;> rfl

theorem follows_of_trace {tr : List (Scheduler × Action)} (htrace : Run.Trace Does s tr t)
    (hc : Consistent s) : Follows s t := by
  induction htrace with
  | nil s => exact .refl s
  | cons hdoes _ ih => exact (hdoes.follows hc).trans (ih (hdoes.consistent hc).2)

/-- The run lemma: from a consistent state every run keeps consistency, and its end follows its start. -/
theorem follows_of_reaches {s₀ : Scheduler} {h : History} (hrun : Run.Reaches step s₀ h s)
    (hc : Consistent s₀) : Consistent s ∧ Follows s₀ s := by
  induction hrun with
  | start => exact ⟨hc, .refl s₀⟩
  | call _ op ih =>
    obtain ⟨hcs, hfollows⟩ := ih
    obtain ⟨_, htrace, -⟩ := step_performs hcs op
    exact ⟨consistent_trace htrace hcs, hfollows.trans (follows_of_trace htrace hcs)⟩

theorem Reaches.consistent {epoch : U64} {h : History} (hrun : Reaches epoch h s) : Consistent s :=
  (follows_of_reaches hrun (consistent_new epoch)).1

end

/-! ### Issued leases -/

def Outcome.issued : Outcome → Option Lease
  | .offered lease => lease
  | _ => none

theorem Outcome.eq_offered_of_issued {out : Outcome} {lease : Lease} (h : out.issued = some lease) :
    out = .offered (some lease) := by
  cases out with
  | offered => exact congrArg Outcome.offered h
  | _ => cases h

/-- The leases issued in a run, newest first. -/
def issuedIn (h : History) : List Lease := h.filterMap fun e => e.result.issued

theorem mem_issuedIn {h : History} {l : Lease} :
    l ∈ issuedIn h ↔ ∃ e ∈ h, e.result.issued = some l := mem_filterMap

section
variable {s t : Scheduler} {op : Op} {out : Outcome} {tr : List (Scheduler × Action)} {lease : Lease}

/-- A new lease: it is offered by the call and recorded under its own id, and its generation is the first
one above all generations of its job. -/
theorem issued_of_trace (htrace : Run.Trace Does s tr t)
    (hperforms : Performs s op (.offered (some lease)) (tr.map Prod.snd)) (hc : Consistent s) :
    t.leases[lease.id]? = some lease ∧ lease.state = .offered ∧ ∃ u, Consistent u ∧ Follows s u ∧
      lease.fencingGeneration.toNat = (u.generationOf lease.jobId).toNat + 1 := by
  generalize hacts : tr.map Prod.snd = acts at hperforms
  cases hperforms with
  | noOffer hout => rcases hout with hout | hout <;> cases hout
  | offered =>
    obtain ⟨u, _, hfirst, hlast⟩ := htrace.split_last hacts
    have hcu := consistent_trace hfirst hc
    cases hlast with
    | issue _ _ _ hg _ =>
      refine ⟨?_, rfl, u, hcu, follows_of_trace hfirst hc, hg⟩
      simp [issued, newLease]

/-- Issued leases stay recorded, and the generations of a job increase. -/
structure IssuedInOrder (h : History) (s : Scheduler) : Prop where
  recorded : ∀ l ∈ issuedIn h, ∃ lease, s.leases[l.id]? = some lease ∧ lease.issue = l.issue
  increasing : (issuedIn h).Pairwise fun later earlier =>
    later.jobId = earlier.jobId → earlier.fencingGeneration < later.fencingGeneration

variable {h : History}

theorem IssuedInOrder.follows (hi : IssuedInOrder h s) (hfollows : Follows s t) :
    ∀ l ∈ issuedIn h, ∃ lease, t.leases[l.id]? = some lease ∧ lease.issue = l.issue := by
  intro l hl
  obtain ⟨_, hgot, hissue⟩ := hi.recorded l hl
  obtain ⟨lease', hgot', hissue', -⟩ := hfollows.leases _ _ hgot
  exact ⟨lease', hgot', hissue'.trans hissue⟩

variable {l : Lease}

theorem Consistent.generation_le (hc : Consistent s) {id : String}
    (hgot : s.leases[id]? = some lease) (hissue : lease.issue = l.issue) :
    l.fencingGeneration ≤ s.generationOf l.jobId ∧ l.installationFencingEpoch ≤ s.installationFencingEpoch := by
  obtain ⟨-, hjob, -, -, hgen, hepoch⟩ := Lease.issue_fields hissue
  have hrec := hc.recorded id lease hgot
  obtain ⟨_, hget, hle⟩ := hrec.generation
  refine ⟨?_, hepoch ▸ hrec.epoch⟩
  rw [generationOf, ← hjob, hget, ← hgen]
  exact hle

theorem issuedInOrder_call (hc : Consistent s) (hi : IssuedInOrder h s) (op : Op) :
    IssuedInOrder (⟨s, op, (step s op).1⟩ :: h) (step s op).2 := by
  obtain ⟨_, htrace, hperforms⟩ := step_performs hc op
  have hkept := hi.follows (follows_of_trace htrace hc)
  cases hout : (step s op).1.issued with
  | none =>
    have heq : issuedIn (⟨s, op, (step s op).1⟩ :: h) = issuedIn h := by
      rw [issuedIn, filterMap_cons, hout]
      rfl
    exact ⟨heq ▸ hkept, heq ▸ hi.increasing⟩
  | some lease =>
    have heq : issuedIn (⟨s, op, (step s op).1⟩ :: h) = lease :: issuedIn h := by
      rw [issuedIn, filterMap_cons, hout]
      rfl
    rw [Outcome.eq_offered_of_issued hout] at hperforms
    obtain ⟨hgot, -, _, hcu, hfollows, _⟩ := issued_of_trace htrace hperforms hc
    refine ⟨?_, ?_⟩
    · rw [heq]
      exact forall_mem_cons.mpr ⟨⟨lease, hgot, rfl⟩, hkept⟩
    · rw [heq, pairwise_cons]
      refine ⟨fun l hl hjob => ?_, hi.increasing⟩
      -- an earlier lease of the job is recorded in the state that issues the new one
      obtain ⟨_, hold, hissue⟩ := hi.follows hfollows l hl
      have hle := (hcu.generation_le hold hissue).1
      rw [← hjob, le_def] at hle
      rw [lt_def]
      omega

variable {epoch : U64}

theorem Reaches.issuedInOrder (hrun : Reaches epoch h s) : IssuedInOrder h s := by
  induction hrun with
  | start => exact ⟨nofun, List.Pairwise.nil⟩
  | call hrun op ih => exact issuedInOrder_call (Reaches.consistent hrun) ih op

/-! ### Calls of a fenced lease -/

/-- The calls that name the lease `l`, with its epoch where the call takes one. -/
def Op.presents (l : Lease) : Op → Prop
  | .decideOffer id _ _ _ _ => id = l.id
  | .heartbeat id _ _ epoch _ => id = l.id ∧ epoch = l.installationFencingEpoch
  | .complete id _ _ epoch _ => id = l.id ∧ epoch = l.installationFencingEpoch
  | _ => False

theorem Scheduler.validateFence_stale (hepoch : epoch ≠ s.installationFencingEpoch)
    (id runnerId : String) (generation : U64) : s.validateFence id runnerId generation epoch =
      .error (.staleInstallationEpoch s.installationFencingEpoch epoch) := if_pos hepoch

theorem presents_fails (hgot : s.leases[l.id]? = some lease) (hended : ¬lease.state.live)
    (hepoch : l.installationFencingEpoch ≠ s.installationFencingEpoch) (hpresents : op.presents l) :
    ∃ e, step s op = (.failed e, s) := by
  cases op with
  | decideOffer id runnerId generation =>
    obtain rfl : id = l.id := hpresents
    have hstate : lease.state ≠ .offered := by
      intro hoffered
      exact hended (by rw [hoffered]; rfl)
    cases hfence : s.validateFence l.id runnerId generation s.installationFencingEpoch with
    | error e => exact ⟨e, by simp [step, Scheduler.decideOffer, hfence, of]⟩
    | ok _ => exact ⟨_, by simp [step, Scheduler.decideOffer, hfence, hgot, hstate, of]; rfl⟩
  | heartbeat _ runnerId generation =>
    obtain ⟨rfl, rfl⟩ := hpresents
    have hfence := validateFence_stale hepoch l.id runnerId generation
    exact ⟨_, by simp [step, Scheduler.heartbeat, hfence, of]; rfl⟩
  | complete _ runnerId generation =>
    obtain ⟨rfl, rfl⟩ := hpresents
    have hfence := validateFence_stale hepoch l.id runnerId generation
    exact ⟨_, by simp [step, Scheduler.complete, hfence, of]; rfl⟩
  | _ => cases hpresents

theorem restored_of_done {newEpoch : U64} (hdone : (step s (.restoreFencingEpoch newEpoch)).1 = .done) :
    ¬newEpoch ≤ s.installationFencingEpoch ∧ (step s (.restoreFencingEpoch newEpoch)).2 = s.restored newEpoch := by
  by_cases hepoch : newEpoch ≤ s.installationFencingEpoch
  · simp [step, restoreFencingEpoch, hepoch, of] at hdone
  · exact ⟨hepoch, by simp [step, restoreFencingEpoch, hepoch, of, restored]⟩

theorem fenced_after_restore {earlier later : History} {e : Event}
    (hrun : Reaches epoch (later ++ e :: earlier) s) {newEpoch : U64}
    (hop : e.op = .restoreFencingEpoch newEpoch) (hdone : e.result = .done)
    (hl : l ∈ issuedIn earlier) (hpresents : op.presents l) : ∃ err, step s op = (.failed err, s) := by
  obtain ⟨hbefore, hresult, hlater⟩ := hrun.split
  have hc := Reaches.consistent hbefore
  rw [hop] at hresult hlater
  obtain ⟨hepoch, hstate⟩ := restored_of_done (hresult.symm.trans hdone)
  rw [hstate] at hlater
  obtain ⟨-, hfollows⟩ := follows_of_reaches hlater (hc.restored hepoch).2
  obtain ⟨lease, hgot, hissue⟩ := (Reaches.issuedInOrder hbefore).recorded l hl
  -- the lease is ended by the restore and stays as it is
  obtain ⟨_, hgot', -⟩ := (Does.restore hepoch).follows hc |>.leases _ _ hgot
  have hended := restored_not_live hgot'
  obtain ⟨_, hgot'', -, hsame⟩ := hfollows.leases _ _ hgot'
  obtain rfl := hsame hended
  refine presents_fails hgot'' hended ?_ hpresents
  -- its epoch is at most the one before the restore
  have hold := (hc.generation_le hgot hissue).2
  have hnew := hfollows.grows.epoch
  rw [(e.before.restored_fields newEpoch).2.2.2.2.2.2] at hnew
  rw [le_def] at hold hnew hepoch
  intro heq
  rw [heq] at hold
  omega

/-- **Lease exclusivity and fencing.** In every reachable state a job is queued or under one live lease,
and the indexes name exactly the live leases; generations of a job increase; ended leases never change;
and leases issued before an epoch restore are refused. -/
theorem leases_exclusive_and_fenced {epoch : U64} {h : History} (hrun : Reaches epoch h s) :
    (∀ (j id : String) (job : QueuedJob) (lease : Lease), s.queue[j]? = some job →
      s.leases[id]? = some lease → lease.state.live → lease.jobId ≠ j) ∧
    (∀ j id : String, s.activeLeaseByJob[j]? = some id ↔
      ∃ lease, s.leases[id]? = some lease ∧ lease.state.live ∧ lease.jobId = j) ∧
    (∀ id : String, (∃ job, s.leasedJobs[id]? = some job) ↔
      ∃ lease, s.leases[id]? = some lease ∧ lease.state.live) ∧
    (∀ (id : String) (job : QueuedJob) (lease : Lease), s.leasedJobs[id]? = some job →
      s.leases[id]? = some lease → job.id = lease.jobId) ∧
    ((issuedIn h).Pairwise fun later earlier =>
      later.jobId = earlier.jobId → earlier.fencingGeneration < later.fencingGeneration) ∧
    (∀ (id : String) (lease : Lease) (later : History) (s' : Scheduler), s.leases[id]? = some lease →
      ¬lease.state.live → Run.Reaches step s later s' → ∃ lease', s'.leases[id]? = some lease' ∧
        lease'.state = lease.state ∧ lease'.terminalResultDigest = lease.terminalResultDigest) ∧
    (∀ (later earlier : History) (e : Event) (newEpoch : U64) (l : Lease) (op : Op),
      h = later ++ e :: earlier → e.op = .restoreFencingEpoch newEpoch → e.result = .done →
      l ∈ issuedIn earlier → op.presents l → ∃ err, step s op = (.failed err, s)) := by
  have hc := Reaches.consistent hrun
  refine ⟨?_, ?_, ?_, ?_, (Reaches.issuedInOrder hrun).increasing, ?_, ?_⟩
  · rintro j id job lease hqueued hgot hlive rfl
    have hfree := hc.queueFree _ _ hqueued
    rw [hc.activeOfLive id lease hgot hlive] at hfree
    cases hfree
  · intro j id
    refine ⟨hc.liveOfActive j id, ?_⟩
    rintro ⟨lease, hgot, hlive, rfl⟩
    exact hc.activeOfLive id lease hgot hlive
  · intro id
    refine ⟨fun ⟨job, hjob⟩ => hc.liveOfJob id job hjob, ?_⟩
    rintro ⟨lease, hgot, hlive⟩
    obtain ⟨job, hjob, -⟩ := hc.jobOfLive id lease hgot hlive
    exact ⟨job, hjob⟩
  · intro id _ lease hjob hgot
    exact (hc.jobId_of_leased hgot hjob).2.1
  · intro id lease _ _ hgot hended hlater
    obtain ⟨lease', hgot', -, hsame⟩ := (follows_of_reaches hlater hc).2.leases id lease hgot
    obtain rfl := hsame hended
    exact ⟨lease', hgot', rfl, rfl⟩
  · rintro _ _ _ _ _ _ rfl hop hdone hl hpresents
    exact fenced_after_restore hrun hop hdone hl hpresents

end

/-- A lease is offered, accepted and then fenced by a restore. -/
def fencedRun : List Op :=
  [.registerRunner (Fixture.runner "runner"), .enqueue (Fixture.job "job" true),
    .offerForRunner "runner" 2, .decideOffer "lease-1" "runner" 1 true 3, .restoreFencingEpoch 2]

theorem leases_exclusive_and_fenced_fencedRun :
    (issuedIn (exec 1 fencedRun).1).map (·.id) = ["lease-1"] ∧
      ∃ err, step (exec 1 fencedRun).2 (.complete "lease-1" "runner" 1 1 ⟨0⟩) =
        (.failed err, (exec 1 fencedRun).2) := by
  refine ⟨by decide, ?_⟩
  have hall := leases_exclusive_and_fenced (reaches_exec 1 fencedRun)
  exact hall.2.2.2.2.2.2 [] _ _ 2 ((issuedIn (exec 1 fencedRun).1).head (by decide)) _ rfl rfl
    (by decide) (by decide) ⟨by decide, by decide⟩

/-- **No lease is forgotten or issued anew**, whatever is called: it keeps what it was issued with and, once it
has ended, all of it; runners stay, and lease numbers, generations and the epoch never go back. -/
theorem calls_forget_nothing (epoch : U64) (ops later : List Op) :
    Follows (exec epoch ops).2 (Run.exec step (exec epoch ops).2 later).2 :=
  (follows_of_reaches (Run.reaches_exec step _ later) (Reaches.consistent (reaches_exec epoch ops))).2

end Runtrue.Scheduling
