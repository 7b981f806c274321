import Runtrue.Scheduling.Fencing

/-!
# The counters and what they should count

A runner keeps five counters (`Counter`), the scheduler one per tenant. What they should count are the
leases that were accepted by `decide_offer` and are not completed or expired. Whether a lease was accepted
is a fact about the run (`acceptedIn`), not about the state: a cancelled lease looks the same whether or
not it was accepted before. `total A s f` adds the charge `f` over the leases of `s` that `A` says were
accepted, and the lemmas below say how each kind of change moves it.
-/

namespace Runtrue.Scheduling

open BTreeMap LeaseState Fixed Scheduler Option

/-! ### The counters of a runner -/

inductive Counter
  | jobs | wasmJobs | cpus | memory | storage
deriving DecidableEq

def RunnerRecord.counter (runner : RunnerRecord) : Counter → Nat
  | .jobs => runner.activeJobs.toNat
  | .wasmJobs => runner.activeWasmJobs.toNat
  | .cpus => runner.usedCpus.toNat
  | .memory => runner.usedMemoryBytes.toNat
  | .storage => runner.usedStorageBytes.toNat

/-- What one job adds to a counter. -/
def SchedulingRequirements.weight (requirements : SchedulingRequirements) : Counter → Nat
  | .jobs => 1
  | .wasmJobs => if requirements.isolation = .wasm then 1 else 0
  | .cpus => requirements.cpu.toNat
  | .memory => requirements.memoryBytes.toNat
  | .storage => requirements.storageBytes.toNat

/-- The largest value of the counter's type. -/
def Counter.bound : Counter → Nat
  | .jobs | .wasmJobs | .cpus => 2 ^ 32 - 1
  | .memory | .storage => 2 ^ 64 - 1

theorem Counter.forall_iff {p : Counter → Prop} :
    (∀ c, p c) ↔ p .jobs ∧ p .wasmJobs ∧ p .cpus ∧ p .memory ∧ p .storage := by
  refine ⟨fun h => ⟨h _, h _, h _, h _, h _⟩, ?_⟩
  rintro ⟨_, _, _, _, _⟩ c
  cases c <;> assumption

instance Counter.decidableForall (p : Counter → Prop) [DecidablePred p] : Decidable (∀ c, p c) :=
  decidable_of_iff' _ Counter.forall_iff

def RunnerRecord.Idle (runner : RunnerRecord) : Prop := ∀ c, runner.counter c = 0

instance RunnerRecord.decidableIdle (runner : RunnerRecord) : Decidable runner.Idle :=
  Counter.decidableForall _

/-- No counter of the runner overflows when it takes a job. -/
def RunnerRecord.Fits (runner : RunnerRecord) (requirements : SchedulingRequirements) : Prop :=
  ∀ c, runner.counter c + requirements.weight c ≤ c.bound

instance RunnerRecord.decidableFits (runner : RunnerRecord) (requirements : SchedulingRequirements) :
    Decidable (runner.Fits requirements) := Counter.decidableForall _

theorem RunnerRecord.counter_reserve {runner : RunnerRecord} {requirements : SchedulingRequirements}
    (hfits : runner.Fits requirements) (c : Counter) :
    (runner.reserve requirements).counter c = runner.counter c + requirements.weight c := by
  have hc := hfits c
  cases c with
  | jobs => exact toNat_satAdd.trans (Nat.min_eq_left hc)
  | wasmJobs =>
    simp only [counter, SchedulingRequirements.weight, reserve,
      Counter.bound] at hc ⊢
    split
    · rename_i hwasm
      rw [if_pos hwasm] at hc
      exact toNat_satAdd.trans (Nat.min_eq_left hc)
    · rfl
  | cpus => exact toNat_satAdd.trans (Nat.min_eq_left hc)
  | memory => exact toNat_satAdd.trans (Nat.min_eq_left hc)
  | storage => exact toNat_satAdd.trans (Nat.min_eq_left hc)

theorem RunnerRecord.counter_release (runner : RunnerRecord) (requirements : SchedulingRequirements) (c : Counter) :
    (runner.release (some requirements)).counter c = runner.counter c - requirements.weight c := by
  cases c with
  | wasmJobs =>
    simp only [counter, SchedulingRequirements.weight, release]
    split <;> simp
  | _ => simp [counter, SchedulingRequirements.weight, release]

theorem RunnerRecord.counter_reset (runner : RunnerRecord) (c : Counter) : runner.reset.counter c = 0 := by
  cases c <;> rfl

/-! ### The running count of a tenant -/

theorem toNat_runningOf_decrement (s : Scheduler) (key tenantId : String) :
    (((decrement s.runningByTenant key)[tenantId]?).getD 0).toNat =
      if key = tenantId then (s.runningOf tenantId).toNat - 1 else (s.runningOf tenantId).toNat := by
  unfold decrement runningOf
  cases hvalue : s.runningByTenant[key]? with
  | none =>
    dsimp only
    split
    · rename_i heq
      rw [← heq, hvalue]
      rfl
    · rfl
  | some value =>
    dsimp only
    by_cases heq : key = tenantId
    · subst heq
      rw [if_pos rfl, hvalue]
      split
      · rename_i hzero
        have hnat : (satSub value 1).toNat = 0 := by rw [hzero]; rfl
        rw [toNat_satSub] at hnat
        simp only [get_erase, if_true, getD_none, getD_some]
        exact hnat.symm
      · simp
    · rw [if_neg heq]
      split <;> simp [heq]

/-! ### Accepted leases -/

def accepts (e : Event) : Option String :=
  match e.op, e.result with
  | .decideOffer id _ _ _ _, .decided .active => some id
  | _, _ => none

/-- Some call of `h` accepted the lease. -/
def acceptedIn (h : History) (id : String) : Bool := h.any fun e => accepts e == some id

/-- Neither completed nor expired. -/
def LeaseState.unfinished : LeaseState → Bool
  | .completed | .expired => false
  | .offered | .active | .cancelRequested | .rejected => true

theorem LeaseState.unfinished_of_live {state : LeaseState} (h : state.live) : state.unfinished := by
  cases state <;> first | rfl | exact absurd h Bool.false_ne_true

def heldLeases (h : History) (s : Scheduler) : List (String × Lease) :=
  s.leases.toList.filter fun p => acceptedIn h p.1 && p.2.state.unfinished

/-- The leases a runner holds. -/
def heldOn (h : History) (s : Scheduler) (runnerId : String) : List (String × Lease) :=
  (heldLeases h s).filter fun p => p.2.runnerId == runnerId

def heldJobs (h : History) (s : Scheduler) (runnerId : String) : List QueuedJob :=
  (heldOn h s runnerId).filterMap fun p => s.leasedJobs[p.1]?

/-! ### Totals over the held leases -/

section
variable {A A' : String → Bool} {s t : Scheduler} {id : String} {lease lease' : Lease}
  {f : Lease → Option QueuedJob → Nat}

/-- What a lease adds to a total if `A` says that it was accepted. -/
def charge (A : String → Bool) (s : Scheduler) (f : Lease → Option QueuedJob → Nat) (id : String)
    (lease : Lease) : Nat :=
  if A id && lease.state.unfinished then f lease s.leasedJobs[id]? else 0

def total (A : String → Bool) (s : Scheduler) (f : Lease → Option QueuedJob → Nat) : Nat :=
  BTreeMap.sumBy (charge A s f) s.leases

/-- A charge that depends on the issue data of a lease only. -/
def ByIssue (f : Lease → Option QueuedJob → Nat) : Prop :=
  ∀ lease lease' job, lease'.issue = lease.issue → f lease' job = f lease job

theorem charge_of_not_accepted (h : A id = false) : charge A s f id lease = 0 := by
  simp [charge, h]

theorem charge_of_finished (h : lease.state.unfinished = false) : charge A s f id lease = 0 := by
  simp [charge, h]

theorem charge_of_held (h : A id) (hstate : lease.state.unfinished) :
    charge A s f id lease = f lease s.leasedJobs[id]? := by
  simp [charge, h, hstate]

/-- One lease is written back and only its own job may move: the total moves by its charge. -/
theorem total_update (hgot : s.leases[id]? = some lease) (hleases : t.leases = s.leases.insert id lease')
    (hA : ∀ a, a ≠ id → A' a = A a) (hjobs : ∀ a : String, a ≠ id → t.leasedJobs[a]? = s.leasedJobs[a]?) :
    total A' t f + charge A s f id lease = total A s f + charge A' t f id lease' := by
  rw [total, total, hleases]
  refine sumBy_update hgot fun a l hne _ => ?_
  unfold charge
  rw [hA a hne, hjobs a hne]

theorem total_touches (ht : Touches s id lease lease' t) (hf : ByIssue f) : total A t f = total A s f := by
  have hupd : total A t f + charge A s f id lease = total A s f + charge A t f id lease' :=
    total_update ht.got ht.leases (fun _ _ => rfl) fun _ _ => by rw [ht.leasedJobs]
  have hsame : charge A t f id lease' = charge A s f id lease := by
    unfold charge
    rw [ht.leasedJobs, hf lease lease' _ ht.issue, unfinished_of_live ht.live,
      unfinished_of_live ht.live']
  omega

theorem total_closes (hcl : Closes s id lease lease' t) (hended : A id → lease'.state.unfinished = false) :
    total A t f + charge A s f id lease = total A s f := by
  have hupd : total A t f + charge A s f id lease = total A s f + charge A t f id lease' :=
    total_update hcl.got hcl.leases (fun _ _ => rfl) fun a hne => by
      rw [hcl.leasedJobs, get_erase, if_neg (Ne.symm hne)]
  have hzero : charge A t f id lease' = 0 := by
    cases hA : A id with
    | false => exact charge_of_not_accepted hA
    | true => exact charge_of_finished (hended hA)
  omega

theorem total_accepts (ht : Touches s id lease lease' t) (hf : ByIssue f) (hold : A id = false)
    (hnew : A' id) (hA : ∀ a, a ≠ id → A' a = A a) : total A' t f = total A s f + f lease s.leasedJobs[id]? := by
  have hupd : total A' t f + charge A s f id lease = total A s f + charge A' t f id lease' :=
    total_update ht.got ht.leases hA fun _ _ => by rw [ht.leasedJobs]
  rw [charge_of_not_accepted hold, charge_of_held hnew (unfinished_of_live ht.live'),
    hf lease lease' _ ht.issue, ht.leasedJobs] at hupd
  exact hupd

theorem total_issued {job : QueuedJob} {runnerId : String} {g next now : U64} (hc : Consistent s)
    (hold : A (leaseName s.nextLeaseId) = false) : total A (s.issued job runnerId g next now) f = total A s f := by
  have hnew : total A (s.issued job runnerId g next now) f = total A s f +
      charge A (s.issued job runnerId g next now) f (leaseName s.nextLeaseId)
        (s.newLease job runnerId g now) := by
    refine sumBy_insert_new hc.fresh fun a l hne _ => ?_
    unfold charge
    simp only [issued, get_insert, if_neg (Ne.symm hne)]
  rw [hnew, charge_of_not_accepted hold, add_zero]

theorem total_restored {newEpoch : U64}
    (hrejected : ∀ (id : String) (lease : Lease), s.leases[id]? = some lease → A id →
      lease.state ≠ .rejected) : total A (s.restored newEpoch) f = 0 := by
  refine sumBy_eq_zero fun a l hl => ?_
  cases hA : A a with
  | false => exact charge_of_not_accepted hA
  | true =>
    refine charge_of_finished ?_
    rw [restored_get_lease, map_eq_some_iff] at hl
    obtain ⟨l', hl', rfl⟩ := hl
    have hne := hrejected a l' hl' hA
    split
    · rfl
    · rename_i hended
      cases hstate : l'.state <;> simp_all [live, unfinished]

end

end Runtrue.Scheduling
