import Runtrue.ControlPlane.Machine

/-!
# The single changes of the tables

`Change s t` lists the single changes of jobs, leases and runners that the operations of the control plane
are made of, each with what holds when it is made; `Leads` is a sequence of them. `Idle` are the changes in
which no open lease takes part. A new lease is not a change but an `Issue`, the last thing an offer does: an
operation `Moves` the tables by changes, and an offer adds no job before its issue.

What a change can do to one table is said once per table; the invariants are proved from there.
-/

namespace Runtrue.ControlPlane

open Fallible Option

variable {E : Type} {o : Outside E} {s t u : Store E} {N : Prop}

/-! ### Rows that keep their identity -/

/-- The columns of a job that never change. -/
structure JobRecord.SameJob (job job' : JobRecord) : Prop where
  runId : job'.runId = job.runId
  requirements : job'.requirements = job.requirements
  createdUnixMs : job'.createdUnixMs = job.createdUnixMs
  concurrencyGroup : job'.concurrencyGroup = job.concurrencyGroup

theorem JobRecord.SameJob.refl (job : JobRecord) : job.SameJob job := ⟨rfl, rfl, rfl, rfl⟩

theorem JobRecord.SameJob.trans {job job' job'' : JobRecord} (h : job.SameJob job') (h' : job'.SameJob job'') :
    job.SameJob job'' :=
  ⟨h'.runId.trans h.runId, h'.requirements.trans h.requirements, h'.createdUnixMs.trans h.createdUnixMs,
    h'.concurrencyGroup.trans h.concurrencyGroup⟩

/-- The order of taints: nothing observed, no credential, unknown, a credential released. -/
def taintRank : Option CredentialTaintState → Nat
  | none => 0
  | some .none => 1
  | some .unknown => 2
  | some .credentialReleased => 3

/-- The columns of a lease that never change, and a taint that only rises. -/
structure Lease.SameFence (lease lease' : Lease) : Prop where
  jobId : lease'.jobId = lease.jobId
  tenantId : lease'.tenantId = lease.tenantId
  runnerId : lease'.runnerId = lease.runnerId
  fencingGeneration : lease'.fencingGeneration = lease.fencingGeneration
  taint : taintRank lease.terminalCredentialTaint ≤ taintRank lease'.terminalCredentialTaint

theorem Lease.SameFence.refl (lease : Lease) : lease.SameFence lease := ⟨rfl, rfl, rfl, rfl, le_rfl⟩

theorem Lease.SameFence.trans {lease lease' lease'' : Lease} (h : lease.SameFence lease')
    (h' : lease'.SameFence lease'') : lease.SameFence lease'' :=
  ⟨h'.jobId.trans h.jobId, h'.tenantId.trans h.tenantId, h'.runnerId.trans h.runnerId,
    h'.fencingGeneration.trans h.fencingGeneration, h.taint.trans h'.taint⟩

structure Runner.SameInventory (runner runner' : Runner) : Prop where
  logicalCpus : runner'.record.logicalCpus = runner.record.logicalCpus
  memoryBytes : runner'.record.memoryBytes = runner.record.memoryBytes
  storageBytes : runner'.record.storageBytes = runner.record.storageBytes
  maxConcurrentWasmJobs : runner'.record.maxConcurrentWasmJobs = runner.record.maxConcurrentWasmJobs
  ephemeral : runner'.ephemeral = runner.ephemeral

theorem Runner.SameInventory.refl (runner : Runner) : runner.SameInventory runner := ⟨rfl, rfl, rfl, rfl, rfl⟩

/-! ### What a change is made of -/

/-- What is reserved on the runner leaves room for one more job. -/
structure Store.HasRoom (s : Store E) (runnerId : String) (runner : Runner) (job : JobRecord) : Prop where
  cpu : ((s.runnerReservedRequirements runnerId).map (·.cpu.toNat)).sum + job.requirements.cpu.toNat
    ≤ max runner.record.logicalCpus.toNat
      ((s.runnerReservedRequirements runnerId).map (·.cpu.toNat)).sum
  memory : ((s.runnerReservedRequirements runnerId).map (·.memoryBytes.toNat)).sum
      + job.requirements.memoryBytes.toNat
    ≤ max runner.record.memoryBytes.toNat
      ((s.runnerReservedRequirements runnerId).map (·.memoryBytes.toNat)).sum
  storage : ((s.runnerReservedRequirements runnerId).map (·.storageBytes.toNat)).sum
      + job.requirements.storageBytes.toNat
    ≤ max runner.record.storageBytes.toNat
      ((s.runnerReservedRequirements runnerId).map (·.storageBytes.toNat)).sum
  wasm : job.requirements.isolation = .wasm →
    (∀ reserved ∈ s.runnerReservedRequirements runnerId, reserved.isolation = .wasm) ∧
      (s.runnerReservedRequirements runnerId).length < runner.record.maxConcurrentWasmJobs.toNat
  exclusive : job.requirements.isolation ≠ .wasm → s.runnerReservedRequirements runnerId = []

/-- The concurrency group of a job, with the tenant and the repository it belongs to. -/
def Store.groupOf (s : Store E) (job : JobRecord) : Option (String × String × String) := do
  let group ← job.concurrencyGroup
  let repositoryId ← (s.runs[job.runId]?).map (·.repositoryId)
  let tenantId ← s.repositories[repositoryId]?
  return (tenantId, repositoryId, group)

/-- Two jobs of one concurrency group. -/
def Store.SameGroup (s : Store E) (job job' : JobRecord) : Prop :=
  s.groupOf job ≠ none ∧ s.groupOf job' = s.groupOf job

/-- What holds when a lease is offered for a job. -/
structure Store.Offers (s : Store E) (leaseId : String) (lease : Lease) (job : JobRecord) : Prop where
  fresh : s.leases[leaseId]? = none
  stored : s.jobs[lease.jobId]? = some job
  queued : job.status = .queued
  generation : lease.fencingGeneration = job.lastGeneration + 1
  state : lease.state = .offered
  runner : ∃ runner : Runner, s.runners[lease.runnerId]? = some runner ∧
    (runner.ephemeral = true → s.hasLease lease.runnerId = false) ∧ s.HasRoom lease.runnerId runner job
  quota : s.tenantOpenLeases lease.tenantId < s.tenantQuota lease.tenantId
  /-- No held job of the group comes before the job. -/
  turn : ∀ {id : String} {job' : JobRecord}, s.jobs[id]? = some job' → job'.status.isHeld = true →
    s.SameGroup job job' → ¬Store.turn (id, job') < Store.turn (lease.jobId, job)

/-- The run is stored, and so is its repository. -/
def Store.Homed (s : Store E) (runId : String) : Prop :=
  ∃ (run : RunRecord) (tenantId : String), s.runs[runId]? = some run ∧
    s.repositories[run.repositoryId]? = some tenantId

/-- The tables that placement depends on are the same; runs may have moved. -/
structure Frame (s t : Store E) : Prop where
  jobs : t.jobs = s.jobs
  leases : t.leases = s.leases
  runners : t.runners = s.runners
  quotas : t.tenantSchedulerQuotas = s.tenantSchedulerQuotas
  runs : ∀ id : String, (t.runs[id]?).map (·.repositoryId) = (s.runs[id]?).map (·.repositoryId)
  repositories : t.repositories = s.repositories
  objects : t.jobResultObjects = s.jobResultObjects

/-- A change in which no open lease takes part. -/
inductive Idle (s : Store E) : Store E → Prop
  | frame {t : Store E} (h : Frame s t) : Idle s t
  | job {id : String} {job : JobRecord} {next : JobState} {completed : Option Nat} (hjob : s.jobs[id]? = some job)
      (hidle : job.status.isHeld = false) (hnext : next.isHeld = false)
      (hqueued : next = .queued → job.status = .created) (hcreated : next ≠ .created) :
      Idle s (s.setJob id { job with status := next, completedUnixMs := completed })

/-- The single changes; `N` says whether jobs may be new. -/
inductive Change (N : Prop) (s : Store E) : Store E → Prop
  | idle {t : Store E} (h : Idle s t) : Change N s t
  /-- Runs and repositories are added. -/
  | wider {runs : BTreeMap String RunRecord} {repositories : BTreeMap String String}
      (hruns : ∀ {id : String} {run : RunRecord}, s.runs[id]? = some run → runs[id]? = some run)
      (hrepositories : ∀ {id tenantId : String}, s.repositories[id]? = some tenantId →
        repositories[id]? = some tenantId) : Change N s { s with runs, repositories }
  | objects {objects : List JobResultObject} : Change N s { s with jobResultObjects := objects }
  | runners {runners : BTreeMap String Runner}
      (hkept : ∀ (id : String) (runner' : Runner), runners[id]? = some runner' →
        ∃ runner : Runner, s.runners[id]? = some runner ∧ runner.SameInventory runner')
      (hgone : ∀ id : String, runners[id]? = none → s.runners[id]? ≠ none → s.hasLease id = false) :
      Change N s { s with runners }
  | newJob {id : String} {job : JobRecord} (hN : N) (hnew : s.jobs[id]? = none) (hhomed : s.Homed job.runId)
      (hidle : job.status.isHeld = false) : Change N s (s.setJob id job)
  /-- An open lease and its job move together. -/
  | move {leaseId : String} {lease lease' : Lease} {job : JobRecord} {next : JobState} {completed : Option Nat}
      (hlease : s.leases[leaseId]? = some lease) (hopen : lease.isOpen = true) (hfence : lease.SameFence lease')
      (hjob : s.jobs[lease.jobId]? = some job) (hheld : next.isHeld = lease'.isOpen)
      (hoffered : lease'.isOpen = true → (lease'.state = .offered ↔ next = .leased)) :
      Change N s ((s.setLease leaseId lease').setJob lease.jobId
        { job with status := next, completedUnixMs := completed })
  /-- A job that a runner works on goes on. -/
  | work {id : String} {job : JobRecord} {next : JobState} {completed : Option Nat}
      (hjob : s.jobs[id]? = some job) (hheld : job.status.isHeld = true) (hnext : next.isHeld = true)
      (hleased : next = .leased ↔ job.status = .leased) :
      Change N s (s.setJob id { job with status := next, completedUnixMs := completed })
  /-- A lease changes nothing that ties it to its job. -/
  | lease {leaseId : String} {lease lease' : Lease} (hlease : s.leases[leaseId]? = some lease)
      (hfence : lease.SameFence lease') (hopen : lease'.isOpen = lease.isOpen)
      (hoffered : lease'.state = .offered ↔ lease.state = .offered) : Change N s (s.setLease leaseId lease')

/-- A lease is issued. -/
inductive Issue (s : Store E) : Store E → Prop
  | offer {leaseId : String} {lease : Lease} {job : JobRecord} {completed : Option Nat}
      (h : s.Offers leaseId lease job) : Issue s ((s.setJob lease.jobId { job with
        status := .leased, completedUnixMs := completed
        lastGeneration := lease.fencingGeneration }).setLease leaseId lease)

/-- Idle changes, one after the other. -/
def Idles : Store E → Store E → Prop := Relation.ReflTransGen Idle

/-- Changes, one after the other. -/
def Leads (N : Prop) : Store E → Store E → Prop := Relation.ReflTransGen (Change N)

/-- What an operation does: changes, or changes without new jobs and at the end a lease. -/
def Moves (s t : Store E) : Prop := Leads True s t ∨ ∃ u, Leads False s u ∧ Issue u t

/-! ### Sequences -/

theorem Idles.refl (s : Store E) : Idles s s := Relation.ReflTransGen.refl

theorem Idles.trans (h : Idles s t) (h' : Idles t u) : Idles s u := Relation.ReflTransGen.trans h h'

variable {P : Store E → Prop}

theorem Idles.keeps (hstep : ∀ {s t : Store E}, Idle s t → P s → P t) (h : Idles s t) (hs : P s) : P t := by
  induction h with
  | refl => exact hs
  | tail _ hidle ih => exact hstep hidle ih

theorem Leads.refl (s : Store E) : Leads N s s := Relation.ReflTransGen.refl

theorem Leads.trans (h : Leads N s t) (h' : Leads N t u) : Leads N s u := Relation.ReflTransGen.trans h h'

theorem Leads.keeps (hstep : ∀ {s t : Store E}, Change N s t → P s → P t) (h : Leads N s t) (hs : P s) : P t := by
  induction h with
  | refl => exact hs
  | tail _ hchange ih => exact hstep hchange ih

theorem Change.leads (h : Change N s t) : Leads N s t := Relation.ReflTransGen.single h

theorem Idle.idles (h : Idle s t) : Idles s t := Relation.ReflTransGen.single h

theorem Idles.leads (h : Idles s t) : Leads N s t := Relation.ReflTransGen.mono (fun _ _ => .idle) _ _ h

theorem Frame.idles (h : Frame s t) : Idles s t := (Idle.frame h).idles

theorem Frame.leads (h : Frame s t) : Leads N s t := h.idles.leads

theorem Moves.keeps (hstep : ∀ {N : Prop} {s t : Store E}, Change N s t → P s → P t)
    (hissue : ∀ {s t : Store E}, Issue s t → P s → P t) (h : Moves s t) (hs : P s) : P t := by
  rcases h with hleads | ⟨_, hleads, hu⟩
  · exact hleads.keeps hstep hs
  · exact hissue hu (hleads.keeps hstep hs)

theorem Leads.moves (h : Leads True s t) : Moves s t := .inl h

theorem Leads.trans_moves (h : ∀ {N : Prop}, Leads N s t) (h' : Moves t u) : Moves s u := by
  rcases h' with h' | ⟨v, hv, hissue⟩
  · exact .inl (h.trans h')
  · exact .inr ⟨v, h.trans hv, hissue⟩

/-! ### Frames -/

theorem Frame.of_eq (hjobs : t.jobs = s.jobs) (hleases : t.leases = s.leases) (hrunners : t.runners = s.runners)
    (hquotas : t.tenantSchedulerQuotas = s.tenantSchedulerQuotas) (hruns : t.runs = s.runs)
    (hrepositories : t.repositories = s.repositories) (hobjects : t.jobResultObjects = s.jobResultObjects) :
    Frame s t :=
  ⟨hjobs, hleases, hrunners, hquotas, fun _ => by rw [hruns], hrepositories, hobjects⟩

theorem Frame.refl (s : Store E) : Frame s s := .of_eq rfl rfl rfl rfl rfl rfl rfl

theorem Frame.trans (h : Frame s t) (h' : Frame t u) : Frame s u :=
  ⟨h'.jobs.trans h.jobs, h'.leases.trans h.leases, h'.runners.trans h.runners, h'.quotas.trans h.quotas,
    fun id => (h'.runs id).trans (h.runs id), h'.repositories.trans h.repositories,
    h'.objects.trans h.objects⟩

theorem Frame.outside (s : Store E) (outside : E) : Frame s { s with outside } := .of_eq rfl rfl rfl rfl rfl rfl rfl

theorem Store.send_eq_ok {write : Write} (h : s.send o write = .ok t) : ∃ outside, t = { s with outside } := by
  simp only [send, bind_eq_ok, pure_eq_ok] at h
  obtain ⟨outside, -, rfl⟩ := h
  exact ⟨outside, rfl⟩

theorem Frame.sent {write : Write} (h : s.send o write = .ok t) : Frame s t := by
  obtain ⟨outside, rfl⟩ := Store.send_eq_ok h
  exact .outside s outside

variable {id : String}

theorem Frame.setRun {run run' : RunRecord} (hrun : s.runs[id]? = some run)
    (hsame : run'.repositoryId = run.repositoryId) : Frame s (s.setRun id run') := by
  refine ⟨rfl, rfl, rfl, rfl, fun id' => ?_, rfl, rfl⟩
  show ((s.runs.insert id run')[id']?).map _ = _
  rw [BTreeMap.get_insert]
  split
  · rename_i hid
    rw [← hid, hrun, map_some, map_some, hsame]
  · rfl

theorem Frame.homed (h : Frame s t) {runId : String} (hhomed : s.Homed runId) : t.Homed runId := by
  obtain ⟨_, tenantId, hrun, htenant⟩ := hhomed
  have hkept := h.runs runId
  rw [hrun, map_some, map_eq_some_iff] at hkept
  obtain ⟨run', hrun', hsame⟩ := hkept
  exact ⟨run', tenantId, hrun', by rw [hsame, h.repositories]; exact htenant⟩

theorem Frame.groupOf (h : Frame s t) (job : JobRecord) : t.groupOf job = s.groupOf job := by
  rw [Store.groupOf, Store.groupOf, h.runs, h.repositories]

/-! ### What a change does to each table -/

theorem Store.setJob_kept {id id' : String} {job job' row : JobRecord} (hrow : s.jobs[id]? = some row)
    (hjob : s.jobs[id']? = some job) (hsame : row.SameJob job') (hle : row.lastGeneration ≤ job'.lastGeneration) :
    ∃ job'' : JobRecord, (s.jobs.insert id job')[id']? = some job'' ∧ job.SameJob job'' ∧
      job.lastGeneration ≤ job''.lastGeneration := by
  by_cases hid : id = id'
  · subst hid
    obtain rfl : row = job := Option.mem_unique hrow hjob
    exact ⟨job', BTreeMap.get_insert_self _ _ _, hsame, hle⟩
  · exact ⟨job, BTreeMap.get_insert_eq_some.mpr (.inr ⟨hid, hjob⟩), .refl job, le_rfl⟩

variable {job : JobRecord}

theorem Change.job_kept (h : Change N s t) (hjob : s.jobs[id]? = some job) :
    ∃ job' : JobRecord, t.jobs[id]? = some job' ∧ job.SameJob job' ∧ job.lastGeneration ≤ job'.lastGeneration := by
  cases h with
  | idle h =>
    cases h with
    | frame h => exact ⟨job, by rw [h.jobs, hjob], .refl job, le_rfl⟩
    | job hrow => exact Store.setJob_kept hrow hjob ⟨rfl, rfl, rfl, rfl⟩ le_rfl
  | newJob _ hnew => exact ⟨job, BTreeMap.get_insert_fresh hnew hjob, .refl job, le_rfl⟩
  | move _ _ _ hrow => exact Store.setJob_kept hrow hjob ⟨rfl, rfl, rfl, rfl⟩ le_rfl
  | work hrow => exact Store.setJob_kept hrow hjob ⟨rfl, rfl, rfl, rfl⟩ le_rfl
  | wider | objects | runners | lease => exact ⟨job, hjob, .refl job, le_rfl⟩

theorem Issue.job_kept (h : Issue s t) (hjob : s.jobs[id]? = some job) :
    ∃ job' : JobRecord, t.jobs[id]? = some job' ∧ job.SameJob job' ∧ job.lastGeneration ≤ job'.lastGeneration := by
  cases h with
  | offer h => exact Store.setJob_kept h.stored hjob ⟨rfl, rfl, rfl, rfl⟩ (h.generation ▸ Nat.le_succ _)

theorem Issue.offers (h : Issue s t) : ∃ (id : String) (lease : Lease) (job : JobRecord), s.Offers id lease job ∧
    t.leases = s.leases.insert id lease ∧ t.runners = s.runners ∧
      t.tenantSchedulerQuotas = s.tenantSchedulerQuotas := by
  cases h with
  | offer h => exact ⟨_, _, _, h, rfl, rfl, rfl⟩

theorem Change.leases_cases (h : Change N s t) : t.leases = s.leases ∨
    ∃ (id : String) (lease lease' : Lease), s.leases[id]? = some lease ∧ t.leases = s.leases.insert id lease' ∧
      lease.SameFence lease' ∧ (lease.isOpen = false → lease'.isOpen = false) := by
  cases h with
  | idle h =>
    cases h with
    | frame h => exact .inl h.leases
    | job => exact .inl rfl
  | move hlease hopen hfence =>
    refine .inr ⟨_, _, _, hlease, rfl, hfence, fun hclosed => ?_⟩
    rw [hopen] at hclosed
    cases hclosed
  | lease hlease hfence hopen => exact .inr ⟨_, _, _, hlease, rfl, hfence, fun h => hopen.trans h⟩
  | wider | objects | runners | newJob | work => exact .inl rfl

theorem Change.lease_old (h : Change N s t) {lease : Lease} (hlease : t.leases[id]? = some lease) :
    ∃ lease₀ : Lease, s.leases[id]? = some lease₀ ∧ lease₀.SameFence lease := by
  rcases h.leases_cases with hsame | ⟨_, lease₀, _, hlease₀, hleases, hfence, -⟩
  · exact ⟨lease, hsame ▸ hlease, .refl lease⟩
  · rw [hleases] at hlease
    rcases BTreeMap.get_insert_eq_some.mp hlease with ⟨rfl, rfl⟩ | ⟨-, hlease⟩
    · exact ⟨lease₀, hlease₀, hfence⟩
    · exact ⟨lease, hlease, .refl lease⟩

theorem Change.runners_cases (h : Change N s t) : t.runners = s.runners ∨ (t.leases = s.leases ∧
      (∀ (id : String) (runner' : Runner), t.runners[id]? = some runner' →
        ∃ runner : Runner, s.runners[id]? = some runner ∧ runner.SameInventory runner') ∧
      ∀ id : String, t.runners[id]? = none → s.runners[id]? ≠ none → s.hasLease id = false) := by
  cases h with
  | idle h =>
    cases h with
    | frame h => exact .inl h.runners
    | job => exact .inl rfl
  | runners hkept hgone => exact .inr ⟨rfl, hkept, hgone⟩
  | wider | objects | newJob | move | work | lease => exact .inl rfl

theorem Change.quotas (h : Change N s t) : t.tenantSchedulerQuotas = s.tenantSchedulerQuotas := by
  cases h with
  | idle h =>
    cases h with
    | frame h => exact h.quotas
    | job => rfl
  | wider | objects | runners | newJob | move | work | lease => rfl

/-! ### What idle changes leave -/

section
variable (h : Idles s t)
include h

theorem Idles.leases : t.leases = s.leases := by
  refine h.keeps (P := fun u => u.leases = s.leases) (fun hidle hu => ?_) rfl
  cases hidle with
  | frame h => exact h.leases.trans hu
  | job => exact hu

theorem Idles.runners : t.runners = s.runners := by
  refine h.keeps (P := fun u => u.runners = s.runners) (fun hidle hu => ?_) rfl
  cases hidle with
  | frame h => exact h.runners.trans hu
  | job => exact hu

theorem Idles.objects : t.jobResultObjects = s.jobResultObjects := by
  refine h.keeps (P := fun u => u.jobResultObjects = s.jobResultObjects) (fun hidle hu => ?_) rfl
  cases hidle with
  | frame h => exact h.objects.trans hu
  | job => exact hu

theorem Idles.quotas : t.tenantSchedulerQuotas = s.tenantSchedulerQuotas := by
  refine h.keeps (P := fun u => u.tenantSchedulerQuotas = s.tenantSchedulerQuotas) (fun hidle hu => ?_) rfl
  cases hidle with
  | frame h => exact h.quotas.trans hu
  | job => exact hu

theorem Idles.requirements (id : String) : (t.jobs[id]?).map (·.requirements) = (s.jobs[id]?).map (·.requirements) := by
  refine h.keeps (P := fun u => (u.jobs[id]?).map (·.requirements) = (s.jobs[id]?).map (·.requirements)) ?_ rfl
  intro u v hidle hu
  cases hidle with
  | frame h => rw [h.jobs, hu]
  | @job id' row _ _ hrow =>
    rw [← hu]
    show ((u.jobs.insert id' _)[id]?).map _ = _
    rw [BTreeMap.get_insert]
    split
    · rename_i hid
      rw [← hid, hrow]
      rfl
    · rfl

theorem Idles.held {id : String} {job : JobRecord} (hjob : t.jobs[id]? = some job) (hheld : job.status.isHeld = true) :
    s.jobs[id]? = some job := by
  induction h with
  | refl => exact hjob
  | tail _ hidle ih =>
    cases hidle with
    | frame h => exact ih (h.jobs ▸ hjob)
    | job _ _ hnext =>
      rcases BTreeMap.get_insert_eq_some.mp hjob with ⟨-, rfl⟩ | ⟨-, hjob⟩
      · have hheld : JobState.isHeld _ = true := hheld
        rw [hnext] at hheld
        cases hheld
      · exact ih hjob

theorem Idles.groupOf (job : JobRecord) : t.groupOf job = s.groupOf job := by
  refine h.keeps (P := fun u => u.groupOf job = s.groupOf job) (fun {u v} hidle hu => ?_) rfl
  rw [← hu]
  cases hidle with
  | frame h => exact h.groupOf job
  | job => rfl

end

end Runtrue.ControlPlane
