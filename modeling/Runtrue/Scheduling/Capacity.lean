import Runtrue.Scheduling.Accounting

/-!
# Capacity

`offer_for_runner` checks that a job fits on a runner, but reserves nothing; `decide_offer` reserves, but
does not check again. Two offers made one after the other are both checked against the same free capacity.
Along runs in which every accepted offer still fits when it is accepted, and in which no lease is released
that nobody accepted, the jobs a runner holds stay within its capacity.
-/

namespace Runtrue.Scheduling

open Scheduler Option List Nat BTreeMap
open RunnerRecord (Fits available counter counter_release counter_reserve)

structure RunnerRecord.WithinCapacity (runner : RunnerRecord) : Prop where
  cpus : runner.counter .cpus ≤ runner.logicalCpus.toNat
  memory : runner.counter .memory ≤ runner.memoryBytes.toNat
  storage : runner.counter .storage ≤ runner.storageBytes.toNat
  wasm : runner.counter .wasmJobs ≤ runner.maxConcurrentWasmJobs.toNat
  /-- All jobs are Wasm, or there is at most one. -/
  exclusive : runner.counter .jobs = runner.counter .wasmJobs ∨ runner.counter .jobs ≤ 1

section
variable {runner : RunnerRecord} {requirements : SchedulingRequirements}

theorem RunnerRecord.withinCapacity_of_idle (hidle : runner.Idle) : runner.WithinCapacity := by
  constructor
  · rw [hidle]; exact Nat.zero_le _
  · rw [hidle]; exact Nat.zero_le _
  · rw [hidle]; exact Nat.zero_le _
  · rw [hidle]; exact Nat.zero_le _
  · exact Or.inl ((hidle _).trans (hidle _).symm)

theorem RunnerRecord.available_spec (h : runner.available requirements) : (if requirements.isolation = .wasm then
      runner.counter .jobs = runner.counter .wasmJobs ∧ runner.counter .wasmJobs < runner.maxConcurrentWasmJobs.toNat
      else runner.counter .jobs = 0) ∧ requirements.cpu.toNat ≤ runner.logicalCpus.toNat - runner.counter .cpus ∧
    requirements.memoryBytes.toNat ≤ runner.memoryBytes.toNat - runner.counter .memory ∧
    requirements.storageBytes.toNat ≤ runner.storageBytes.toNat - runner.counter .storage := by
  simp only [available, Bool.and_eq_true, decide_eq_true_eq, BitVec.le_def,
    Fixed.toNat_satSub] at h
  obtain ⟨⟨⟨hisolation, hcpu⟩, hmemory⟩, hstorage⟩ := h
  refine ⟨?_, hcpu, hmemory, hstorage⟩
  cases hkind : requirements.isolation <;> rw [hkind] at hisolation <;>
    simp_all [RunnerRecord.isolationAvailable, counter, BitVec.lt_def]

theorem RunnerRecord.fits_of_available (hw : runner.WithinCapacity)
    (h : runner.available requirements) : runner.Fits requirements := by
  obtain ⟨hisolation, _, _, _⟩ := available_spec h
  have hmax := runner.maxConcurrentWasmJobs.isLt
  have hcpus := runner.logicalCpus.isLt
  have hmem := runner.memoryBytes.isLt
  have hsto := runner.storageBytes.isLt
  have hw1 := hw.cpus
  have hw2 := hw.memory
  have hw3 := hw.storage
  have hw4 := hw.wasm
  rw [Fits, Counter.forall_iff]
  simp only [SchedulingRequirements.weight, Counter.bound]
  split at hisolation
  · simp only [*, if_true]
    omega
  · simp only [*, if_false]
    omega

theorem RunnerRecord.WithinCapacity.reserve (hw : runner.WithinCapacity)
    (h : runner.available requirements) : (runner.reserve requirements).WithinCapacity := by
  have hfits := fits_of_available hw h
  obtain ⟨hisolation, _, _, _⟩ := available_spec h
  have hw1 := hw.cpus
  have hw2 := hw.memory
  have hw3 := hw.storage
  have hw4 := hw.wasm
  constructor
  · rw [counter_reserve hfits]
    show runner.counter .cpus + requirements.cpu.toNat ≤ runner.logicalCpus.toNat
    omega
  · rw [counter_reserve hfits]
    show runner.counter .memory + requirements.memoryBytes.toNat ≤ runner.memoryBytes.toNat
    omega
  · rw [counter_reserve hfits]
    show runner.counter .storage + requirements.storageBytes.toNat ≤ runner.storageBytes.toNat
    omega
  · rw [counter_reserve hfits, SchedulingRequirements.weight]
    show _ ≤ runner.maxConcurrentWasmJobs.toNat
    split at hisolation
    · rename_i hkind
      rw [if_pos hkind]
      exact hisolation.2
    · rename_i hkind
      rw [if_neg hkind]
      exact hw4
  · rw [counter_reserve hfits, counter_reserve hfits,
      SchedulingRequirements.weight, SchedulingRequirements.weight]
    split at hisolation
    · rename_i hkind
      rw [if_pos hkind, hisolation.1]
      exact Or.inl rfl
    · rw [hisolation]
      exact Or.inr (le_refl 1)

/-- Releasing stays within the limits. The counters are exact, so there is a job for every Wasm job left. -/
theorem RunnerRecord.WithinCapacity.release (hw : runner.WithinCapacity)
    (hwasm : (runner.release (some requirements)).counter .wasmJobs ≤
      (runner.release (some requirements)).counter .jobs) : (runner.release (some requirements)).WithinCapacity := by
  simp only [counter_release] at hwasm
  constructor
  · rw [counter_release]
    exact (sub_le _ _).trans hw.cpus
  · rw [counter_release]
    exact (sub_le _ _).trans hw.memory
  · rw [counter_release]
    exact (sub_le _ _).trans hw.storage
  · rw [counter_release]
    exact (sub_le _ _).trans hw.wasm
  · rw [counter_release, counter_release]
    have hex := hw.exclusive
    simp only [SchedulingRequirements.weight] at hwasm ⊢
    split at hwasm <;> simp only [*, if_true, if_false] <;> omega

end

/-! ### Runs -/

section
variable {A : String → Bool} {s t : Scheduler} {a : Action}

theorem RunnersExact.wasm_le_jobs (hx : RunnersExact A s) {r : String} {runner : RunnerRecord}
    (hr : s.runners[r]? = some runner) : runner.counter .wasmJobs ≤ runner.counter .jobs := by
  rw [hx r runner hr, hx r runner hr]
  refine sumBy_le_sumBy fun id _ _ => ?_
  unfold charge onRunner
  split
  · split
    · cases s.leasedJobs[id]? with
      | none => exact le_refl 0
      | some =>
        simp only [map_some, getD_some, SchedulingRequirements.weight]
        split <;> omega
    · exact le_refl 0
  · exact le_refl 0

def AllWithin (s : Scheduler) : Prop :=
  ∀ (r : String) (runner : RunnerRecord), s.runners[r]? = some runner → runner.WithinCapacity

/-- The changes that keep the runners within their capacity: an accepted job still fits. -/
def KeepsCapacity (A : String → Bool) (s : Scheduler) : Action → Prop
  | .register runner => runner.Idle
  | .accept id lease => ∀ (runner : RunnerRecord) (job : QueuedJob),
      s.runners[lease.runnerId]? = some runner → s.leasedJobs[id]? = some job →
      runner.available job.requirements
  | a => ReleasesAccepted A a

theorem KeepsCapacity.keepsRunners (hw : AllWithin s) (h : KeepsCapacity A s a) : KeepsRunners A s a := by
  cases a with
  | accept =>
    intro runner job hrunner hjob
    exact RunnerRecord.fits_of_available (hw _ runner hrunner) (h runner job hrunner hjob)
  | _ => exact h

theorem AllWithin.insert {r : String} {runner : RunnerRecord} (hw : AllWithin s)
    (hnew : runner.WithinCapacity) (hrunners : t.runners = s.runners.insert r runner) : AllWithin t := by
  intro r' x hr
  rw [hrunners, get_insert] at hr
  split at hr
  · cases hr
    exact hnew
  · exact hw r' x hr

theorem AllWithin.release (hw : AllWithin s) (r : String) (requirements : SchedulingRequirements)
    (hx : RunnersExact A t) (hrunners : t.runners = s.releasedRunners r (some requirements)) : AllWithin t := by
  intro r' x hr
  have hle := hx.wasm_le_jobs hr
  rw [hrunners, releasedRunners_get] at hr
  split at hr
  · obtain ⟨runner, hrunner, rfl⟩ := map_eq_some_iff.mp hr
    exact (hw r' runner hrunner).release hle
  · exact hw r' x hr

theorem Does.allWithin (hdoes : Does s a t) (hc : Consistent s) (hb : Books A s)
    (hkeeps : KeepsCapacity A s a) (hx : RunnersExact A s) (hw : AllWithin s) :
    RunnersExact (acceptedAfter A a) t ∧ AllWithin t := by
  have hxt := hdoes.runnersExact hc hb (hkeeps.keepsRunners hw) hx
  refine ⟨hxt, ?_⟩
  cases hdoes with
  | register => exact hw.insert (RunnerRecord.withinCapacity_of_idle hkeeps) rfl
  | status hrunner _ =>
    have hold := hw _ _ hrunner
    refine hw.insert ?_ rfl
    exact ⟨hold.cpus, hold.memory, hold.storage, hold.wasm, hold.exclusive⟩
  | renew _ _ hrunner _ _ =>
    have hold := hw _ _ hrunner
    refine hw.insert ?_ rfl
    exact ⟨hold.cpus, hold.memory, hold.storage, hold.wasm, hold.exclusive⟩
  | quota | enqueue | lose | issue | cancel => exact hw
  | accept _ _ hrunner hjob => exact hw.insert ((hw _ _ hrunner).reserve (hkeeps _ _ hrunner hjob)) rfl
  | giveBack =>
    rw [returnOffer_eq]
    exact hw
  | @finish _ lease hgot hrunning =>
    obtain ⟨job, hjob, -⟩ := hc.jobOfLive _ _ hgot (live_of_running hrunning)
    refine hw.release lease.runnerId job.requirements hxt ?_
    rw [completeLease_eq, hjob]
    rfl
  | @expire _ lease hgot hlive =>
    obtain ⟨job, hjob, -⟩ := hc.jobOfLive _ _ hgot hlive
    cases hrunning : lease.state.running with
    | true =>
      refine hw.release lease.runnerId job.requirements hxt ?_
      rw [expireLease_runners, if_pos hrunning, hjob]
      rfl
    | false =>
      intro r x hr
      rw [expireLease_runners, hrunning, if_neg Bool.false_ne_true] at hr
      exact hw r x hr
  | restore _ =>
    intro r x hr
    rw [(s.restored_fields _).2.2.2.1, fenceAll, Std.ExtTreeMap.getElem?_map] at hr
    obtain ⟨x', -, rfl⟩ := map_eq_some_iff.mp hr
    exact RunnerRecord.withinCapacity_of_idle (RunnerRecord.counter_reset x')

/-- The job of the lease that the call accepts fits on its runner. -/
def AcceptAvailable (e : Event) : Prop :=
  ∀ p ∈ e.before.accepting e.op, ∀ runner ∈ e.before.runners[p.2.runnerId]?,
    ∀ job ∈ e.before.leasedJobs[p.1]?, runner.available job.requirements

instance AcceptAvailable.decidable (e : Event) : Decidable (AcceptAvailable e) := by
  unfold AcceptAvailable
  infer_instance

theorem keepsCapacity_of_causes {op : Op} {out : Outcome} {h : History}
    (hidle : RegistersIdle ⟨s, op, out⟩) (hreleases : ReleasesOnlyAccepted ⟨s, op, out⟩ h)
    (havailable : AcceptAvailable ⟨s, op, out⟩) {x : Scheduler × Action}
    (hA : ∀ id, acceptedIn h id → A id) (hcauses : Causes s op out x) : KeepsCapacity A x.1 x.2 := by
  have hrel := releasesAccepted_of_causes hreleases hA hcauses
  cases hcauses with
  | register hop => subst hop; exact hidle
  | accept haccepting => exact fun runner job hrunner hjob => havailable _ haccepting runner hrunner job hjob
  | _ => exact hrel

theorem within_of_reaches {epoch : U64} {h : History} (hrun : Reaches epoch h s) (hidle : ∀ e ∈ h, RegistersIdle e)
    (hall : Run.AllCalls (fun e earlier => ReleasesOnlyAccepted e earlier ∧ AcceptAvailable e) h) :
    Books (acceptedIn h) s ∧ RunnersExact (acceptedIn h) s ∧ AllWithin s := by
  induction hrun with
  | start =>
    refine ⟨books_new epoch, runnersExact_new epoch, fun r _ hr => ?_⟩
    simp [new] at hr
  | call hrun op ih =>
    obtain ⟨hidleCall, hidleRest⟩ := forall_mem_cons.mp hidle
    obtain ⟨⟨hreleases, havailable⟩, hallRest⟩ := hall
    obtain ⟨hb, hexact⟩ := ih hidleRest hallRest
    refine accounting_call (Q := fun A s => RunnersExact A s ∧ AllWithin s) (K := KeepsCapacity) ?_
      (Reaches.consistent hrun) op ?_ hb hexact
    · exact fun A s a t hd hc hb hK hx => hd.allWithin hc hb hK hx.1 hx.2
    · exact fun A x hA hx => keepsCapacity_of_causes hidleCall hreleases havailable hA hx

theorem sum_weight_jobs (jobs : List QueuedJob) :
    (jobs.map fun job => job.requirements.weight .jobs).sum = jobs.length := by
  simp [SchedulingRequirements.weight]

theorem sum_weight_wasmJobs (jobs : List QueuedJob) : (jobs.map fun job => job.requirements.weight .wasmJobs).sum =
      jobs.countP fun job => job.requirements.isolation = .wasm := by
  induction jobs with
  | nil => rfl
  | cons _ _ ih =>
    rw [map_cons, sum_cons, ih, countP_cons, SchedulingRequirements.weight]
    simp [add_comm]

/-- **Capacity safety.** In every run in which every offer that is accepted still fits on its runner and a
`CancelRequested` lease is completed or expired only if it was accepted, what the jobs held by a runner need is
within its limits, and a job that is not Wasm is held alone. -/
theorem capacity_safe {epoch : U64} {h : History} (hrun : Reaches epoch h s)
    (hidle : ∀ e ∈ h, RegistersIdle e)
    (hall : Run.AllCalls (fun e earlier => ReleasesOnlyAccepted e earlier ∧ AcceptAvailable e) h)
    {r : String} {runner : RunnerRecord} (hr : s.runners[r]? = some runner) :
    (heldJobs h s r).length = (heldOn h s r).length ∧
    ((heldJobs h s r).map fun job => job.requirements.cpu.toNat).sum ≤ runner.logicalCpus.toNat ∧
    ((heldJobs h s r).map fun job => job.requirements.memoryBytes.toNat).sum ≤
      runner.memoryBytes.toNat ∧
    ((heldJobs h s r).map fun job => job.requirements.storageBytes.toNat).sum ≤
      runner.storageBytes.toNat ∧
    ((heldJobs h s r).countP fun job => job.requirements.isolation = .wasm) ≤
      runner.maxConcurrentWasmJobs.toNat ∧
    ((∃ job ∈ heldJobs h s r, job.requirements.isolation ≠ .wasm) → (heldJobs h s r).length ≤ 1) := by
  obtain ⟨hb, hx, hw⟩ := within_of_reaches hrun hidle hall
  have hcount : ∀ c, runner.counter c = ((heldJobs h s r).map fun job => job.requirements.weight c).sum :=
    fun c => (hx r runner hr c).trans (total_onRunner h s r c)
  have hwr := hw r runner hr
  have hjobs := (hcount .jobs).trans (sum_weight_jobs _)
  have hwasm := (hcount .wasmJobs).trans (sum_weight_wasmJobs _)
  refine ⟨length_heldJobs (Reaches.consistent hrun) hb r, (hcount .cpus) ▸ hwr.cpus,
    (hcount .memory) ▸ hwr.memory, (hcount .storage) ▸ hwr.storage, hwasm ▸ hwr.wasm, ?_⟩
  rintro ⟨job, hmem, hkind⟩
  rcases hwr.exclusive with hsame | hone
  · -- then every held job is Wasm
    rw [hjobs, hwasm] at hsame
    have hallWasm := countP_eq_length.mp hsame.symm
    exact absurd (of_decide_eq_true (hallWasm job hmem)) hkind
  · exact hjobs ▸ hone

end

/-- A job is accepted and completed, and then another one is accepted. -/
def oneAfterTheOther : List Op :=
  [.registerRunner (Fixture.runner "runner"), .enqueue (Fixture.job "a" true),
    .enqueue (Fixture.job "b" true), .offerForRunner "runner" 2,
    .decideOffer "lease-1" "runner" 1 true 3, .complete "lease-1" "runner" 1 1 ⟨0⟩,
    .offerForRunner "runner" 4, .decideOffer "lease-2" "runner" 1 true 5]

theorem capacity_safe_oneAfterTheOther :
    (heldJobs (exec 1 oneAfterTheOther).1 (exec 1 oneAfterTheOther).2 "runner").length ≤ 1 := by
  have hrunner : ∃ runner, (exec 1 oneAfterTheOther).2.runners["runner"]? = some runner :=
    isSome_iff_exists.mp (by decide)
  obtain ⟨_, hr⟩ := hrunner
  refine (capacity_safe (reaches_exec 1 oneAfterTheOther) ?_ ?_ hr).2.2.2.2.2 ?_
  · decide
  · decide
  · decide

def twoOffersAccepted : List Op :=
  [.registerRunner (Fixture.runner "runner"), .enqueue (Fixture.job "a" true),
    .enqueue (Fixture.job "b" true), .offerForRunner "runner" 2, .offerForRunner "runner" 2,
    .decideOffer "lease-1" "runner" 1 true 3, .decideOffer "lease-2" "runner" 1 true 3]

/-- Both micro-VM jobs run on the runner, which is exclusive for them. -/
theorem capacity_unsafe_twoOffersAccepted :
    ¬∀ (epoch : U64) (h : History) (s : Scheduler) (r : String) (runner : RunnerRecord),
      Reaches epoch h s → (∀ e ∈ h, RegistersIdle e) → s.runners[r]? = some runner →
      ((heldJobs h s r).map fun job => job.requirements.cpu.toNat).sum ≤ runner.logicalCpus.toNat ∧
      ((heldJobs h s r).map fun job => job.requirements.memoryBytes.toNat).sum ≤
        runner.memoryBytes.toNat ∧
      ((heldJobs h s r).map fun job => job.requirements.storageBytes.toNat).sum ≤
        runner.storageBytes.toNat ∧
      ((heldJobs h s r).countP fun job => job.requirements.isolation = .wasm) ≤
        runner.maxConcurrentWasmJobs.toNat ∧
      ((∃ job ∈ heldJobs h s r, job.requirements.isolation ≠ .wasm) →
        (heldJobs h s r).length ≤ 1) := by
  intro hall
  have hrunner : ∃ runner, (exec 1 twoOffersAccepted).2.runners["runner"]? = some runner :=
    isSome_iff_exists.mp (by decide)
  obtain ⟨runner, hr⟩ := hrunner
  have hone := (hall 1 _ _ "runner" runner (reaches_exec 1 twoOffersAccepted) (by decide) hr).2.2.2.2
    (by decide)
  revert hone
  decide

end Runtrue.Scheduling
