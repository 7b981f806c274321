import Runtrue.Base.Entries
import Runtrue.ControlPlane.Operations

/-!
# Where leases are placed

What holds of the leases, jobs, runners and quotas in every state of a run: a job is held by exactly one open
lease of its last generation, the open leases of a tenant are within its quota and those on a runner within
its inventory, and an ephemeral runner has had one lease at most (`placement_safe`).

An offer adds one open lease, and every other change takes away open leases or leaves them; the bounds follow
from what an offer has checked (`Store.Offers`).
-/

section

open BTreeMap

namespace Runtrue.ControlPlane

open Scheduling (SchedulingRequirements)
open Option (map_some mem_unique)
open List Store Run Std.ExtTreeMap Fallible

variable {E : Type} {o : Outside E} {s t : Store E} {op : Operation E} {N : Prop}

/-! ### The jobs behind open leases -/

/-- The jobs behind the open leases that `p` selects. -/
def Store.openJobs (s : Store E) (p : Lease → Bool) : List String :=
  s.leases.toList.filterMap fun entry => if p entry.2 && entry.2.isOpen then some entry.2.jobId else none

theorem Store.tenantOpenLeases_eq (s : Store E) (tenantId : String) :
    s.tenantOpenLeases tenantId = (s.openJobs fun lease => lease.tenantId = tenantId).length := by
  rw [tenantOpenLeases, openJobs]
  induction s.leases.toList with
  | nil => rfl
  | cons =>
    rw [filter_cons, filterMap_cons]
    split <;> simp_all

theorem Store.runnerReservedRequirements_eq (s : Store E) (runnerId : String) :
    s.runnerReservedRequirements runnerId = (s.openJobs fun lease => lease.runnerId = runnerId).filterMap
      fun jobId => s.jobs[jobId]?.map (·.requirements) := by
  rw [runnerReservedRequirements, openJobs, filterMap_filterMap]
  induction s.leases.toList with
  | nil => rfl
  | cons entry entries ih =>
    rw [filter_cons, filterMap_cons]
    split <;> rename_i hp <;> simp_all [filterMap_cons]

variable {p : Lease → Bool}

theorem Change.openJobs (h : Change N s t)
    (hp : ∀ {lease lease' : Lease}, lease.SameFence lease' → p lease' = p lease) :
    (t.openJobs p).Subperm (s.openJobs p) := by
  rcases h.leases_cases with hsame | ⟨_, lease, lease', hlease, hleases, hfence, hend⟩
  · rw [Store.openJobs, hsame]
    exact (Sublist.refl _).subperm
  · rw [Store.openJobs, hleases]
    refine filterMap_insert_subperm hlease (fun _ _ _ => rfl) ?_
    dsimp only
    rw [hp hfence, hfence.jobId]
    cases hopen : lease'.isOpen with
    | false => exact .inr (by simp)
    | true =>
      left
      cases hbefore : lease.isOpen with
      | false =>
        rw [hend hbefore] at hopen
        cases hopen
      | true => rfl

variable {id : String} {job : JobRecord}

theorem Store.Offers.openJobs {lease : Lease} (h : s.Offers id lease job)
    (hleases : t.leases = s.leases.insert id lease) (p : Lease → Bool) :
    (t.openJobs p).Perm ((if p lease then [lease.jobId] else []) ++ s.openJobs p) := by
  rw [Store.openJobs, hleases]
  refine (filterMap_insert_fresh h.fresh fun _ _ => rfl).trans (Perm.of_eq ?_)
  have hopen : lease.isOpen = true := Lease.isOpen_of_offered h.state
  congr 1
  cases p lease <;> simp [hopen]

/-! ### What is reserved on a runner -/

theorem Store.mem_openJobs {jobId : String} (h : jobId ∈ s.openJobs p) :
    ∃ (id : String) (lease : Lease), s.leases[id]? = some lease ∧ lease.jobId = jobId := by
  obtain ⟨entry, hentry, hjob⟩ := List.mem_filterMap.mp h
  split at hjob
  · exact ⟨entry.1, entry.2, mem_toList.mp hentry, Option.some.inj hjob⟩
  · cases hjob

theorem subperm_filterMap {α β : Type} {l l' : List α} (f : α → Option β) (h : l.Subperm l') :
    (l.filterMap f).Subperm (l'.filterMap f) := by
  obtain ⟨m, hperm, hsub⟩ := h
  exact ⟨m.filterMap f, hperm.filterMap f, hsub.filterMap f⟩

theorem Placed.requirements_kept (hp : Placed s)
    (hkept : ∀ {id : String} {job : JobRecord}, s.jobs[id]? = some job →
      ∃ job' : JobRecord, t.jobs[id]? = some job' ∧ job.SameJob job' ∧ job.lastGeneration ≤ job'.lastGeneration) :
    ∀ jobId ∈ s.openJobs p, t.jobs[jobId]?.map (·.requirements) = s.jobs[jobId]?.map (·.requirements) := by
  intro _ hmem
  obtain ⟨_, _, hlease, rfl⟩ := mem_openJobs hmem
  obtain ⟨_, hjob, -⟩ := hp.generation_le hlease
  obtain ⟨_, hjob', hsame, -⟩ := hkept hjob
  rw [hjob, hjob', map_some, map_some, hsame.requirements]

theorem Change.reserved (h : Change N s t) (hp : Placed s) (runnerId : String) :
    (t.runnerReservedRequirements runnerId).Subperm (s.runnerReservedRequirements runnerId) := by
  rw [t.runnerReservedRequirements_eq, s.runnerReservedRequirements_eq,
    ← filterMap_congr (hp.requirements_kept h.job_kept)]
  exact subperm_filterMap _ (h.openJobs fun hfence => by rw [hfence.runnerId])

theorem Issue.reserved (h : Issue s t) (hp : Placed s) (runnerId : String) :
    (t.runnerReservedRequirements runnerId).Subperm (s.runnerReservedRequirements runnerId) ∨
      ∃ id lease job, s.Offers id lease job ∧ lease.runnerId = runnerId ∧ (t.runnerReservedRequirements runnerId).Perm
          (job.requirements :: s.runnerReservedRequirements runnerId) := by
  rw [t.runnerReservedRequirements_eq, s.runnerReservedRequirements_eq,
    ← filterMap_congr (hp.requirements_kept h.job_kept)]
  obtain ⟨id, lease, job, hoffers, hleases, -⟩ := h.offers
  have hperm := hoffers.openJobs hleases fun lease => lease.runnerId = runnerId
  by_cases hrunner : lease.runnerId = runnerId
  · refine .inr ⟨id, lease, job, hoffers, hrunner, ?_⟩
    obtain ⟨_, hjob', hsame, -⟩ := h.job_kept hoffers.stored
    rw [if_pos (decide_eq_true hrunner), singleton_append] at hperm
    refine (hperm.filterMap _).trans (Perm.of_eq ?_)
    rw [filterMap_cons, hjob', map_some, hsame.requirements]
  · left
    rw [decide_eq_false hrunner] at hperm
    exact (hperm.filterMap _).subperm

/-! ### Bounds -/

/-- What is reserved fits into the inventory of the runner. -/
structure Runner.Holds (runner : Runner) (reserved : List SchedulingRequirements) : Prop where
  cpu : (reserved.map (·.cpu.toNat)).sum ≤ runner.record.logicalCpus.toNat
  memory : (reserved.map (·.memoryBytes.toNat)).sum ≤ runner.record.memoryBytes.toNat
  storage : (reserved.map (·.storageBytes.toNat)).sum ≤ runner.record.storageBytes.toNat
  wasm : (∀ requirements ∈ reserved, requirements.isolation = .wasm) →
    reserved.length ≤ runner.record.maxConcurrentWasmJobs.toNat
  exclusive : (∃ requirements ∈ reserved, requirements.isolation ≠ .wasm) → reserved.length = 1

theorem sum_le_of_subperm {l l' : List SchedulingRequirements} (h : l.Subperm l') (w : SchedulingRequirements → Nat) :
    (l.map w).sum ≤ (l'.map w).sum := by
  obtain ⟨_, hperm, hsub⟩ := h
  rw [← (hperm.map w).sum_eq]
  exact (hsub.map w).sum_le_sum fun _ _ => Nat.zero_le _

variable {runner : Runner}

theorem Runner.Holds.subperm {l l' : List SchedulingRequirements} (h : runner.Holds l')
    (hsub : l.Subperm l') : runner.Holds l := by
  refine ⟨(sum_le_of_subperm hsub _).trans h.cpu, (sum_le_of_subperm hsub _).trans h.memory,
    (sum_le_of_subperm hsub _).trans h.storage, fun hall => ?_, fun ⟨requirements, hmem, hkind⟩ => ?_⟩
  · by_cases hwasm : ∀ requirements ∈ l', requirements.isolation = .wasm
    · exact hsub.length_le.trans (h.wasm hwasm)
    · -- an exclusive job was alone, so nothing is left of it
      push Not at hwasm
      obtain ⟨requirements, hmem, hkind⟩ := hwasm
      have halone := h.exclusive ⟨requirements, hmem, hkind⟩
      have hnil : l = [] := by
        by_contra hne
        have hlength : l.length = l'.length := by
          have hpos := length_pos_iff.mpr hne
          have hle := hsub.length_le
          omega
        exact hkind (hall requirements ((hsub.perm_of_length_le hlength.ge).mem_iff.mpr hmem))
      rw [hnil]
      exact Nat.zero_le _
  · have halone := h.exclusive ⟨requirements, hsub.subset hmem, hkind⟩
    have hpos := length_pos_of_mem hmem
    have hle := hsub.length_le
    omega

variable {l : List SchedulingRequirements}

theorem Runner.Holds.inventory {runner runner' : Runner} (h : runner.Holds l)
    (hsame : runner.SameInventory runner') : runner'.Holds l :=
  ⟨hsame.logicalCpus ▸ h.cpu, hsame.memoryBytes ▸ h.memory, hsame.storageBytes ▸ h.storage,
    hsame.maxConcurrentWasmJobs ▸ h.wasm, h.exclusive⟩

variable {runnerId : String}

theorem Runner.Holds.add (h : runner.Holds (s.runnerReservedRequirements runnerId))
    (hroom : s.HasRoom runnerId runner job)
    (hperm : l.Perm (job.requirements :: s.runnerReservedRequirements runnerId)) : runner.Holds l := by
  have hsum : ∀ w : SchedulingRequirements → Nat, (l.map w).sum =
      w job.requirements + ((s.runnerReservedRequirements runnerId).map w).sum := by
    intro w
    rw [(hperm.map w).sum_eq, map_cons, sum_cons]
  have hcpu := hroom.cpu
  have hmemory := hroom.memory
  have hstorage := hroom.storage
  rw [max_eq_left h.cpu] at hcpu
  rw [max_eq_left h.memory] at hmemory
  rw [max_eq_left h.storage] at hstorage
  refine ⟨?_, ?_, ?_, fun hall => ?_, fun ⟨requirements, hmem, hkind⟩ => ?_⟩
  · rw [hsum]
    omega
  · rw [hsum]
    omega
  · rw [hsum]
    omega
  · have hwasm := hall job.requirements (hperm.mem_iff.mpr mem_cons_self)
    rw [hperm.length_eq, length_cons]
    exact (hroom.wasm hwasm).2
  · rw [hperm.length_eq, length_cons]
    by_cases hwasm : job.requirements.isolation = .wasm
    · rcases mem_cons.mp (hperm.mem_iff.mp hmem) with rfl | hmem
      · exact absurd hwasm hkind
      · exact absurd ((hroom.wasm hwasm).1 requirements hmem) hkind
    · rw [hroom.exclusive hwasm]
      rfl

structure WithinBounds (s : Store E) : Prop where
  quota : ∀ tenantId, s.tenantOpenLeases tenantId ≤ s.tenantQuota tenantId
  holds : ∀ {runnerId : String} {runner : Runner}, s.runners[runnerId]? = some runner →
    runner.Holds (s.runnerReservedRequirements runnerId)
  ephemeral : ∀ {runnerId : String} {runner : Runner}, s.runners[runnerId]? = some runner →
    runner.ephemeral = true → ∀ {id id' : String} {lease lease' : Lease}, s.leases[id]? = some lease →
      s.leases[id']? = some lease' → lease.runnerId = runnerId → lease'.runnerId = runnerId → id = id'

/-- The runners of a state after `s` are those of `s` with the inventory they had, or have no lease. -/
def Store.KeepsRunners (s t : Store E) : Prop :=
  ∀ {runnerId : String} {runner : Runner}, t.runners[runnerId]? = some runner →
    (∃ runner₀ : Runner, s.runners[runnerId]? = some runner₀ ∧ runner₀.SameInventory runner) ∨
      (t.leases = s.leases ∧ ∀ (id : String) (lease : Lease), s.leases[id]? = some lease →
        lease.runnerId ≠ runnerId)

theorem Change.keepsRunners (h : Change N s t) : s.KeepsRunners t := by
  intro runnerId runner hrunner
  rcases h.runners_cases with hsame | ⟨-, hkept, -⟩
  · exact .inl ⟨runner, hsame ▸ hrunner, .refl runner⟩
  · exact .inl (hkept runnerId runner hrunner)

theorem Store.runnerReservedRequirements_eq_nil
    (h : ∀ (id : String) (lease : Lease), s.leases[id]? = some lease → lease.runnerId ≠ runnerId) :
    s.runnerReservedRequirements runnerId = [] := by
  rw [runnerReservedRequirements, filterMap_eq_nil_iff]
  intro entry hentry
  obtain ⟨hentry, hrunnerId⟩ := List.mem_filter.mp hentry
  rw [Bool.and_eq_true, decide_eq_true_eq] at hrunnerId
  exact absurd hrunnerId.1 (h entry.1 entry.2 (mem_toList.mp hentry))

theorem WithinBounds.mono (hs : WithinBounds s) (hquotas : ∀ tenantId, t.tenantQuota tenantId = s.tenantQuota tenantId)
    (hrunners : s.KeepsRunners t) (hopen : ∀ tenantId, (t.openJobs fun lease => lease.tenantId = tenantId).Subperm
      (s.openJobs fun lease => lease.tenantId = tenantId))
    (hreserved : ∀ runnerId, (t.runnerReservedRequirements runnerId).Subperm (s.runnerReservedRequirements runnerId))
    (hleases : ∀ {id : String} {lease : Lease}, t.leases[id]? = some lease →
      ∃ lease₀ : Lease, s.leases[id]? = some lease₀ ∧ lease₀.SameFence lease) : WithinBounds t := by
  refine ⟨fun tenantId => ?_, fun {runnerId runner} hrunner => ?_, ?_⟩
  · rw [hquotas, t.tenantOpenLeases_eq]
    exact (hopen tenantId).length_le.trans (s.tenantOpenLeases_eq tenantId ▸ hs.quota tenantId)
  · rcases hrunners hrunner with ⟨runner₀, hrunner₀, hsame⟩ | ⟨hsame, hnone⟩
    · exact ((hs.holds hrunner₀).subperm (hreserved runnerId)).inventory hsame
    · rw [runnerReservedRequirements_eq_nil (hsame ▸ hnone)]
      exact ⟨Nat.zero_le _, Nat.zero_le _, Nat.zero_le _, fun _ => Nat.zero_le _, fun ⟨_, hmem, _⟩ => by cases hmem⟩
  · intro runnerId _ hrunner hephemeral id _ _ _ hlease hlease' hrunnerId hrunnerId'
    obtain ⟨lease₀, hlease₀, hfence⟩ := hleases hlease
    obtain ⟨_, hlease₀', hfence'⟩ := hleases hlease'
    rcases hrunners hrunner with ⟨_, hrunner₀, hsame⟩ | ⟨-, hnone⟩
    · exact hs.ephemeral hrunner₀ (hsame.ephemeral ▸ hephemeral) hlease₀ hlease₀'
        (hfence.runnerId.symm.trans hrunnerId) (hfence'.runnerId.symm.trans hrunnerId')
    · exact absurd (hfence.runnerId.symm.trans hrunnerId) (hnone id lease₀ hlease₀)

theorem Change.withinBounds (h : Change N s t) (hp : Placed s) (hs : WithinBounds s) : WithinBounds t := by
  refine hs.mono (fun tenantId => ?_) h.keepsRunners (fun tenantId => ?_) (h.reserved hp) h.lease_old
  · rw [tenantQuota, tenantQuota, h.quotas]
  · exact h.openJobs fun hfence => by rw [hfence.tenantId]

theorem Issue.withinBounds (h : Issue s t) (hp : Placed s) (hs : WithinBounds s) : WithinBounds t := by
  obtain ⟨_, offered, _, hoffers, hleases, hrunners, hquotas⟩ := h.offers
  refine ⟨fun tenantId => ?_, fun {runnerId runner} hrunner => ?_, ?_⟩
  · have hperm := hoffers.openJobs hleases fun lease => lease.tenantId = tenantId
    have hbound := hs.quota tenantId
    have hroom := hoffers.quota
    rw [t.tenantOpenLeases_eq, hperm.length_eq, length_append, ← s.tenantOpenLeases_eq, tenantQuota, hquotas]
    rw [tenantQuota] at hbound
    by_cases htenant : offered.tenantId = tenantId
    · subst htenant
      rw [tenantQuota] at hroom
      simp
      omega
    · simpa [htenant] using hbound
  · rw [hrunners] at hrunner
    rcases h.reserved hp runnerId with hsub | ⟨id, lease, _, hoffers', rfl, hperm⟩
    · exact (hs.holds hrunner).subperm hsub
    · obtain ⟨runner', hrunner', -, hroom⟩ := hoffers'.runner
      obtain rfl : runner = runner' := mem_unique hrunner hrunner'
      exact (hs.holds hrunner).add hroom hperm
  · intro runnerId runner hrunner hephemeral id _ lease _ hlease hlease' hrunnerId hrunnerId'
    rw [hrunners] at hrunner
    rw [hleases] at hlease hlease'
    -- a lease that is offered to the runner is its first
    have hfirst : offered.runnerId = runnerId → ∀ {id : String} {lease : Lease}, s.leases[id]? = some lease →
        lease.runnerId ≠ runnerId := by
      rintro rfl id lease hlease hrunnerId
      obtain ⟨runner', hrunner', honce, -⟩ := hoffers.runner
      obtain rfl : runner = runner' := mem_unique hrunner hrunner'
      have hnone := honce hephemeral
      rw [hasLease, any_eq_false] at hnone
      exact hnone (id, lease) (mem_toList.mpr hlease) (by simp [hrunnerId])
    rcases get_insert_eq_some.mp hlease with ⟨rfl, rfl⟩ | ⟨-, hlease⟩ <;>
      rcases get_insert_eq_some.mp hlease' with ⟨rfl, rfl⟩ | ⟨-, hlease'⟩
    · rfl
    · exact absurd hrunnerId' (hfirst hrunnerId hlease')
    · exact absurd hrunnerId (hfirst hrunnerId' hlease)
    · exact hs.ephemeral hrunner hephemeral hlease hlease' hrunnerId hrunnerId'

/-! ### Later states -/

/-- The lease is stored and no longer open. -/
def Store.Closed (s : Store E) (leaseId : String) : Prop :=
  ∃ lease : Lease, s.leases[leaseId]? = some lease ∧ lease.isOpen = false

theorem Change.closed (h : Change N s t) (hclosed : s.Closed id) : t.Closed id := by
  obtain ⟨lease, hlease, hstate⟩ := hclosed
  rcases h.leases_cases with hsame | ⟨changed, _, lease', hold, hleases, -, hkept⟩
  · exact ⟨lease, hsame ▸ hlease, hstate⟩
  · by_cases hid : changed = id
    · subst hid
      cases hlease.symm.trans hold
      exact ⟨lease', by rw [hleases, get_insert_self], hkept hstate⟩
    · exact ⟨lease, by rw [hleases]; exact get_insert_eq_some.mpr (.inr ⟨hid, hlease⟩), hstate⟩

theorem Issue.closed (h : Issue s t) (hclosed : s.Closed id) : t.Closed id := by
  obtain ⟨lease, hlease, hstate⟩ := hclosed
  obtain ⟨_, _, _, hoffers, hleases, -⟩ := h.offers
  exact ⟨lease, by rw [hleases]; exact get_insert_fresh hoffers.fresh hlease, hstate⟩

/-- What holds of a state after `s`: generations have not gone down, the lease of a job of `s` that `s` does not
have carries a generation above the job's, and a closed lease is still closed. -/
structure Later (s t : Store E) : Prop where
  job : ∀ {id : String} {job : JobRecord}, s.jobs[id]? = some job →
    ∃ job' : JobRecord, t.jobs[id]? = some job' ∧ job.lastGeneration ≤ job'.lastGeneration
  lease : ∀ {id : String} {lease : Lease}, t.leases[id]? = some lease →
    (∃ lease₀ : Lease, s.leases[id]? = some lease₀ ∧ lease₀.SameFence lease) ∨
      ∀ job : JobRecord, s.jobs[lease.jobId]? = some job → job.lastGeneration < lease.fencingGeneration
  closed : ∀ {id : String}, s.Closed id → t.Closed id

theorem Later.refl (s : Store E) : Later s s :=
  ⟨fun hjob => ⟨_, hjob, le_rfl⟩, fun hlease => .inl ⟨_, hlease, .refl _⟩, fun hclosed => hclosed⟩

variable {u : Store E}

theorem Later.of_kept (h : Later s t)
    (hjobs : ∀ {id : String} {job : JobRecord}, t.jobs[id]? = some job →
      ∃ job' : JobRecord, u.jobs[id]? = some job' ∧ job.SameJob job' ∧ job.lastGeneration ≤ job'.lastGeneration)
    (hclosed : ∀ {id : String}, t.Closed id → u.Closed id)
    (hleases : ∀ {id : String} {lease : Lease}, u.leases[id]? = some lease →
      (∃ lease₀ : Lease, t.leases[id]? = some lease₀ ∧ lease₀.SameFence lease) ∨
        ∃ job : JobRecord, t.Offers id lease job) : Later s u where
  job hjob := by
    obtain ⟨_, hjob', hle⟩ := h.job hjob
    obtain ⟨job'', hjob'', -, hle'⟩ := hjobs hjob'
    exact ⟨job'', hjob'', hle.trans hle'⟩
  lease {id lease} hlease := by
    rcases hleases hlease with ⟨_, hlease₀, hfence⟩ | ⟨row, hoffers⟩
    · rcases h.lease hlease₀ with ⟨lease₁, hlease₁, hfence₁⟩ | hnew
      · exact .inl ⟨lease₁, hlease₁, hfence₁.trans hfence⟩
      · rw [hfence.jobId, hfence.fencingGeneration]
        exact .inr hnew
    · -- an offer takes the generation after the job's last
      refine .inr fun job hjob => ?_
      obtain ⟨row', hrow', hle⟩ := h.job hjob
      obtain rfl : row = row' := mem_unique hoffers.stored hrow'
      rw [hoffers.generation]
      exact Nat.lt_succ_of_le hle
  closed h₀ := hclosed (h.closed h₀)

theorem Later.change (h : Later s t) (hchange : Change N t u) : Later s u :=
  h.of_kept hchange.job_kept hchange.closed fun hlease => .inl (hchange.lease_old hlease)

theorem Later.issue (h : Later s t) (hissue : Issue t u) : Later s u := by
  obtain ⟨_, _, row, hoffers, hleases, -⟩ := hissue.offers
  refine h.of_kept hissue.job_kept hissue.closed fun {id lease} hlease => ?_
  rw [hleases] at hlease
  rcases get_insert_eq_some.mp hlease with ⟨rfl, rfl⟩ | ⟨-, hlease⟩
  · exact .inr ⟨row, hoffers⟩
  · exact .inl ⟨lease, hlease, .refl lease⟩

theorem Later.moves (h : Later s t) (hmoves : Moves t u) : Later s u :=
  hmoves.keeps (P := Later s) (fun hchange hu => hu.change hchange) (fun hissue hu => hu.issue hissue) h

/-! ### Runs -/

/-- A call that changes no inventory of a runner and no quota. -/
def Operation.KeepsInventory (s : Store E) : Operation E → Prop
  | .putRunner id runner => ∀ runner₀ : Runner, s.runners[id]? = some runner₀ → runner₀.SameInventory runner
  | .setQuota tenantId maximum => maximum = s.tenantQuota tenantId
  | _ => True

structure Places (s : Store E) : Prop where
  placed : Placed s
  within : WithinBounds s

theorem Moves.places (h : Moves s t) (hs : Places s) : Places t :=
  h.keeps (fun hchange hu => ⟨hchange.placed hu.placed, hchange.withinBounds hu.placed hu.within⟩)
    (fun hissue hu => ⟨hissue.placed hu.placed, hissue.withinBounds hu.placed hu.within⟩) hs

theorem Places.putRunner (hs : Places s)
    (hkeeps : ∀ runner₀ : Runner, s.runners[id]? = some runner₀ → runner₀.SameInventory runner) :
    Places { s with runners := s.runners.insert id runner } := by
  refine ⟨hs.placed.putRunner id runner, hs.within.mono (fun _ => rfl) ?_ (fun _ => Subperm.refl _)
    (fun _ => Subperm.refl _) fun hlease => ⟨_, hlease, .refl _⟩⟩
  intro _ row hrow
  rcases get_insert_eq_some.mp hrow with ⟨rfl, rfl⟩ | ⟨-, hrow⟩
  · cases hold : s.runners[id]? with
    | some runner₀ => exact .inl ⟨runner₀, rfl, hkeeps runner₀ hold⟩
    | none =>
      refine .inr ⟨rfl, fun _ _ hlease hid => ?_⟩
      obtain ⟨_, hrunner'⟩ := hs.placed.runner hlease
      rw [hid, hold] at hrunner'
      cases hrunner'
  · exact .inl ⟨row, hrow, .refl row⟩

theorem Places.setQuota (hs : Places s) {tenantId : String} {maximum : Nat}
    (hkeeps : maximum = s.tenantQuota tenantId) :
    Places { s with tenantSchedulerQuotas := s.tenantSchedulerQuotas.insert tenantId maximum } := by
  refine ⟨hs.placed.congr rfl rfl fun _ hrunner => ⟨_, hrunner⟩, hs.within.mono (fun _ => ?_)
    (fun hrunner => .inl ⟨_, hrunner, .refl _⟩) (fun _ => Subperm.refl _) (fun _ => Subperm.refl _)
    fun hlease => ⟨_, hlease, .refl _⟩⟩
  unfold tenantQuota
  dsimp only
  rw [get_insert]
  split
  · rename_i hid
    subst hid
    exact hkeeps
  · rfl

theorem step_places (hs : Places s) (hserved : op.isServed) (hkeeps : op.KeepsInventory s) :
    Places (step o s op).2 ∧ ∀ {u : Store E}, Later u s → Later u (step o s op).2 := by
  cases hroutine : op.administers with
  | false =>
    have hmoves := step_moves (o := o) hs.placed hserved hroutine
    exact ⟨hmoves.places hs, fun hu => hu.moves hmoves⟩
  | true =>
    cases op with
    | putRunner => exact ⟨hs.putRunner hkeeps, fun hu => ⟨hu.job, hu.lease, hu.closed⟩⟩
    | setQuota =>
      refine answerDone_cases (P := fun t => Places t ∧ ∀ {u : Store E}, Later u s → Later u t)
        ⟨hs, fun hu => hu⟩ fun t h => ?_
      unfold setTenantSchedulerQuota at h
      simp only [bind_eq_ok, pure_eq_ok] at h
      obtain ⟨-, -, -, -, rfl⟩ := h
      exact ⟨hs.setQuota hkeeps, fun hu => ⟨hu.job, hu.lease, hu.closed⟩⟩
    | _ => cases hroutine

def installed (outside : E) (quotas : BTreeMap String Nat) : Store E :=
  { initial outside with tenantSchedulerQuotas := quotas }

theorem places_installed (outside : E) (quotas : BTreeMap String Nat) : Places (installed outside quotas) := by
  refine ⟨(placed_initial outside).congr rfl rfl fun _ h => ⟨_, h⟩, ⟨?_, ?_, ?_⟩⟩
  · intro _
    exact Nat.zero_le _
  · intro runnerId runner hrunner
    rw [installed, initial, getElem?_empty] at hrunner
    cases hrunner
  · intro _ _ hrunner
    rw [installed, initial, getElem?_empty] at hrunner
    cases hrunner

/-- The leases, jobs, runners and quotas of a state fit together. -/
structure PlacementSafe (s : Store E) : Prop where
  /-- A job has at most one open lease. -/
  unique : ∀ {id id' : String} {lease lease' : Lease}, s.leases[id]? = some lease → s.leases[id']? = some lease' →
    lease.isOpen = true → lease'.isOpen = true → lease.jobId = lease'.jobId → id = id'
  /-- It has one exactly when it is leased, preparing, running or finalizing. -/
  held : ∀ {jobId : String} {job : JobRecord}, s.jobs[jobId]? = some job →
    ((∃ (id : String) (lease : Lease), s.leases[id]? = some lease ∧ lease.jobId = jobId ∧ lease.isOpen = true) ↔
      job.status ∈ [JobState.leased, .preparing, .running, .finalizing])
  /-- The open lease is of the job's last generation. -/
  generation : ∀ {id : String} {lease : Lease}, s.leases[id]? = some lease → lease.isOpen = true →
    ∃ job : JobRecord, s.jobs[lease.jobId]? = some job ∧ lease.fencingGeneration = job.lastGeneration
  quota : ∀ tenantId, s.tenantOpenLeases tenantId ≤ s.tenantQuota tenantId
  inventory : ∀ {runnerId : String} {runner : Runner}, s.runners[runnerId]? = some runner →
    ((s.runnerReservedRequirements runnerId).map (·.cpu.toNat)).sum ≤ runner.record.logicalCpus.toNat ∧
    ((s.runnerReservedRequirements runnerId).map (·.memoryBytes.toNat)).sum ≤ runner.record.memoryBytes.toNat ∧
    ((s.runnerReservedRequirements runnerId).map (·.storageBytes.toNat)).sum ≤ runner.record.storageBytes.toNat
  wasm : ∀ {runnerId : String} {runner : Runner}, s.runners[runnerId]? = some runner →
    ((s.runnerReservedRequirements runnerId).filter (·.isolation = .wasm)).length ≤
      runner.record.maxConcurrentWasmJobs.toNat
  /-- A job that is not WebAssembly is alone on its runner. -/
  alone : ∀ {runnerId : String} {runner : Runner}, s.runners[runnerId]? = some runner →
    (∃ requirements ∈ s.runnerReservedRequirements runnerId, requirements.isolation ≠ .wasm) →
    (s.runnerReservedRequirements runnerId).length = 1
  /-- An ephemeral runner has had one lease at most. -/
  ephemeral : ∀ {runnerId : String} {runner : Runner}, s.runners[runnerId]? = some runner →
    runner.ephemeral = true → ∀ {id id' : String} {lease lease' : Lease}, s.leases[id]? = some lease →
      s.leases[id']? = some lease' → lease.runnerId = runnerId → lease'.runnerId = runnerId → id = id'

theorem Runner.Holds.wasm_le {reserved : List SchedulingRequirements} (h : runner.Holds reserved) :
    (reserved.filter (·.isolation = .wasm)).length ≤ runner.record.maxConcurrentWasmJobs.toNat := by
  by_cases hall : ∀ requirements ∈ reserved, requirements.isolation = .wasm
  · exact (length_filter_le _ _).trans (h.wasm hall)
  · push Not at hall
    obtain ⟨requirements, hmem, hkind⟩ := hall
    have halone := h.exclusive ⟨requirements, hmem, hkind⟩
    have hlt : (reserved.filter (·.isolation = .wasm)).length < reserved.length :=
      length_filter_lt_length_iff_exists.mpr ⟨requirements, hmem, by simpa using hkind⟩
    omega

theorem Places.safe (h : Places s) : PlacementSafe s where
  unique := h.placed.open_unique
  held {jobId job} hjob := by
    rw [← isHeld_iff]
    constructor
    · rintro ⟨_, _, hlease, rfl, hopen⟩
      obtain ⟨job', hjob', hheld, -⟩ := h.placed.open_held hlease hopen
      obtain rfl : job = job' := mem_unique hjob hjob'
      exact hheld
    · exact h.placed.held_open hjob
  generation hlease hopen := by
    obtain ⟨job, hjob, -, -, hgeneration⟩ := h.placed.open_held hlease hopen
    exact ⟨job, hjob, hgeneration⟩
  quota := h.within.quota
  inventory hrunner := ⟨(h.within.holds hrunner).cpu, (h.within.holds hrunner).memory, (h.within.holds hrunner).storage⟩
  wasm hrunner := (h.within.holds hrunner).wasm_le
  alone hrunner := (h.within.holds hrunner).exclusive
  ephemeral := h.within.ephemeral

/-- The calls of a run that serve runners: jobs are moved as the server moves them, and inventories and quotas
stay. -/
def Serves (e : Run.Event (Store E) (Operation E) (Except Error Reply))
    (_ : List (Run.Event (Store E) (Operation E) (Except Error Reply))) : Prop :=
  e.op.isServed ∧ e.op.KeepsInventory e.before

section
variable {h : List (Run.Event (Store E) (Operation E) (Except Error Reply))}

theorem reaches_places {s₀ : Store E} (hs₀ : Places s₀) (hrun : Reaches (step o) s₀ h s)
    (hall : AllCalls Serves h) : Places s ∧ ∀ e ∈ h, Places e.before ∧ Later e.before s := by
  refine hrun.invariant (P := fun h t => Places t ∧ ∀ e ∈ h, Places e.before ∧ Later e.before t)
    ⟨hs₀, fun e he => absurd he not_mem_nil⟩ ?_ hall
  intro h t op _ hcall ⟨ht, hbefore⟩
  obtain ⟨hplaces, hlater⟩ := step_places (o := o) ht hcall.1 hcall.2
  refine ⟨hplaces, fun e he => ?_⟩
  rcases mem_cons.mp he with rfl | he
  · exact ⟨ht, hlater (.refl t)⟩
  · exact ⟨(hbefore e he).1, hlater (hbefore e he).2⟩

/-- **Leases are placed safely.** In every run that serves runners, leases, jobs, runners and quotas fit
together, and a lease of a job has a higher generation than every lease the job had before. -/
theorem placement_safe {outside : E} {quotas : BTreeMap String Nat}
    (hrun : Run.Reaches (step o) (installed outside quotas) h s) (hall : Run.AllCalls Serves h) :
    PlacementSafe s ∧ ∀ e ∈ h, ∀ (id id' : String) (lease lease' : Lease), e.before.leases[id]? = some lease →
      e.before.leases[id']? = none → s.leases[id']? = some lease' → lease'.jobId = lease.jobId →
      lease.fencingGeneration < lease'.fencingGeneration := by
  obtain ⟨hs, hbefore⟩ := reaches_places (places_installed outside quotas) hrun hall
  refine ⟨hs.safe, fun e he _ _ lease _ hlease hnew hlease' hjobId => ?_⟩
  obtain ⟨hplaces, hlater⟩ := hbefore e he
  obtain ⟨job, hjob, hle⟩ := hplaces.placed.generation_le hlease
  rcases hlater.lease hlease' with ⟨_, hlease₀, -⟩ | hgeneration
  · rw [hnew] at hlease₀
    cases hlease₀
  · exact hle.trans_lt (hgeneration job (hjobId ▸ hjob))

end

/-! ### Instances -/

instance Runner.SameInventory.decidable (runner runner' : Runner) : Decidable (runner.SameInventory runner') :=
  decidable_of_iff
    (runner'.record.logicalCpus = runner.record.logicalCpus ∧ runner'.record.memoryBytes = runner.record.memoryBytes ∧
      runner'.record.storageBytes = runner.record.storageBytes ∧
      runner'.record.maxConcurrentWasmJobs = runner.record.maxConcurrentWasmJobs ∧
      runner'.ephemeral = runner.ephemeral)
    ⟨fun ⟨h₁, h₂, h₃, h₄, h₅⟩ => ⟨h₁, h₂, h₃, h₄, h₅⟩, fun ⟨h₁, h₂, h₃, h₄, h₅⟩ => ⟨h₁, h₂, h₃, h₄, h₅⟩⟩

instance Operation.decidableKeepsInventory (s : Store E) (op : Operation E) : Decidable (op.KeepsInventory s) :=
  decidable_of_iff
    ((match op with
      | .putRunner id runner => s.runners[id]?.all fun old => decide (old.SameInventory runner)
      | .setQuota tenantId maximum => decide (maximum = s.tenantQuota tenantId)
      | _ => true) = true)
    (by cases op <;> simp [KeepsInventory, Option.all_eq_true])

instance Serves.decidable (e : Run.Event (Store E) (Operation E) (Except Error Reply))
    (h : List (Run.Event (Store E) (Operation E) (Except Error Reply))) : Decidable (Serves e h) :=
  inferInstanceAs (Decidable (_ ∧ _))

/-- A run in which a first offer lapses and the job is offered again. -/
def lapsedOffer : List (Operation Unit) :=
  installation ++ startRun "r1" (plainCapsule [plainJob "a" [] none] []) 1 ++
    [.offer "l1" "runner" 3, .maintenance 20000, .offer "l2" "runner" 20001]

theorem placement_safe_lapsedOffer :
    Run.AllCalls Serves (Run.exec (step quietOutside) (installed () ∅) lapsedOffer).1 ∧
      (Run.exec (step quietOutside) (installed () ∅) lapsedOffer).2.tenantOpenLeases "tenant" = 1 ∧
      PlacementSafe (Run.exec (step quietOutside) (installed () ∅) lapsedOffer).2 :=
  have hall : AllCalls Serves (exec (step quietOutside) (installed () ∅) lapsedOffer).1 := by decide +kernel
  ⟨hall, by decide +kernel, (placement_safe (reaches_exec (step quietOutside) (installed () ∅) lapsedOffer) hall).1⟩

/-- A running job is canceled by a bare transition. -/
def bareCancellation : List (Operation Unit) :=
  installation ++ startRun "r1" (plainCapsule [plainJob "a" [] none] []) 1 ++
    [.offer "l1" "runner" 3, .accept "l1" "runner" 1 1 4, .transitionJob "r1/a" .canceled 5]

/-- The job has ended and its lease stays open. -/
theorem bare_cancellation_keeps_lease :
    Run.AllCalls (fun e _ => e.op.KeepsInventory e.before)
        (Run.exec (step quietOutside) (installed () ∅) bareCancellation).1 ∧
      ¬ PlacementSafe (Run.exec (step quietOutside) (installed () ∅) bareCancellation).2 := by
  refine ⟨by decide +kernel, fun hsafe => ?_⟩
  have hjob : ((exec (step quietOutside) (installed () ∅) bareCancellation).2.jobs["r1/a"]?.any
      fun job => job.status = .canceled) = true := by decide +kernel
  have hlease : ((exec (step quietOutside) (installed () ∅) bareCancellation).2.leases["l1"]?.any
      fun lease => lease.jobId = "r1/a" && lease.isOpen) = true := by decide +kernel
  obtain ⟨_, hjob, hstatus⟩ := (Option.any_eq_true _ _).mp hjob
  obtain ⟨lease, hlease, hopen⟩ := (Option.any_eq_true _ _).mp hlease
  rw [Bool.and_eq_true, decide_eq_true_eq] at hopen
  have hheld := (hsafe.held hjob).mp ⟨"l1", lease, hlease, hopen.1, hopen.2⟩
  rw [of_decide_eq_true hstatus] at hheld
  exact absurd hheld (by decide)

end Runtrue.ControlPlane

end
