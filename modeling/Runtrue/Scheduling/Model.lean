import Runtrue.Base.Fixed
import Runtrue.Base.TreeMap
import Runtrue.Model.ContentDigest

/-!
# Runners, jobs and leases, and the placement of one job on one runner

The data model of the scheduler crate with the functions on a single record: the checks of new records
(`validation.rs`), tenant quotas (`quota.rs`), the resource counters of a runner (`resources.rs`) and the
hard filters and score of a job on a runner (`matching.rs`). `u32` and `u64` fields are bit vectors,
`BTreeSet` is `Finset` (no function reads the order of a set). Fields no scheduler function reads are left
out: `ephemeral`, `retired` and `self_reported_capabilities` of a runner.
-/

namespace Runtrue.Scheduling

inductive OperatingSystem
  | linux | windows | macos
deriving DecidableEq

inductive Architecture
  | amd64 | arm64
deriving DecidableEq

inductive Isolation
  | wasm | oci | microvm | native
deriving DecidableEq

inductive PackagePreparationTier
  | warmish | warm
deriving DecidableEq

def PackagePreparationTier.placementRank : PackagePreparationTier → Nat
  | warmish => 1
  | warm => 2

inductive RunnerStatus
  | probationary | online | draining | quarantined | offline | revoked
deriving DecidableEq

structure RunnerRecord where
  id : String
  tenantId : String
  poolId : String
  os : OperatingSystem
  arch : Architecture
  isolationBackends : Finset Isolation
  logicalCpus : U32
  memoryBytes : U64
  storageBytes : U64
  /-- Other isolation backends than Wasm are exclusive on a runner. -/
  maxConcurrentWasmJobs : U32
  region : Option String
  verifiedCapabilities : Finset String
  status : RunnerStatus
  activeJobs : U32
  activeWasmJobs : U32
  usedCpus : U32
  usedMemoryBytes : U64
  usedStorageBytes : U64
  locality : Finset ContentDigest
  packageTiers : BTreeMap ContentDigest PackagePreparationTier
  lastHeartbeatUnixMs : U64

structure SchedulingRequirements where
  os : OperatingSystem
  arch : Architecture
  isolation : Isolation
  cpu : U32
  memoryBytes : U64
  storageBytes : U64
  region : Option String
  requiredCapabilities : Finset String
  allowedPools : Finset String
deriving DecidableEq

structure QueuedJob where
  id : String
  tenantId : String
  repositoryId : String
  capsuleDigest : ContentDigest
  requirements : SchedulingRequirements
  priority : BitVec 32
  queuedUnixMs : U64
  preferredContent : Finset ContentDigest
  /-- Whether loss of a runner lease may create a fresh attempt automatically. -/
  retryableAfterRunnerLoss : Bool
deriving DecidableEq

inductive LeaseState
  | offered | active | cancelRequested | completed | rejected | expired
deriving DecidableEq

structure Lease where
  id : String
  jobId : String
  tenantId : String
  runnerId : String
  fencingGeneration : U64
  installationFencingEpoch : U64
  capsuleDigest : ContentDigest
  issuedUnixMs : U64
  acceptByUnixMs : U64
  expiresUnixMs : U64
  state : LeaseState
  terminalResultDigest : Option ContentDigest
deriving DecidableEq

inductive SchedulerError
  | invalidRunner
  | invalidJob
  | invalidQuota
  | unknownRunner (id : String)
  | duplicateRunner (id : String)
  | runnerRevoked (id : String)
  | unknownJob (id : String)
  | duplicateJob (id : String)
  | unknownLease (id : String)
  | invalidLeaseState (expected actual : LeaseState)
  | leaseNotActive (state : LeaseState)
  | offerExpired
  | wrongRunner
  | staleGeneration (expected actual : U64)
  | staleInstallationEpoch (expected actual : U64)
  | conflictingCompletion
  | epochMustIncrease
  | generationOverflow
  | leaseIdOverflow
deriving DecidableEq

/-! ### Tenant quotas -/

structure TenantQuota where
  maximumRunningJobs : U32
  weight : U32
deriving DecidableEq

def TenantQuota.default : TenantQuota := ⟨BitVec.allOnes 32, 1⟩

def TenantQuota.hasCapacity (quota : TenantQuota) (running : U32) : Bool :=
  running < quota.maximumRunningJobs

def TenantQuota.fairShare (quota : TenantQuota) (running : U32) : Nat :=
  min (running.toNat * 1000) (2 ^ 64 - 1) / quota.weight.toNat

/-! ### Checks of new records -/

def RunnerRecord.validate (runner : RunnerRecord) : Except SchedulerError Unit :=
  if runner.id.isEmpty || runner.tenantId.isEmpty || runner.poolId.isEmpty
      || runner.logicalCpus == 0 || runner.maxConcurrentWasmJobs == 0
      || decide (runner.maxConcurrentWasmJobs > 64)
      || (decide (runner.maxConcurrentWasmJobs > 1)
        && !decide (Isolation.wasm ∈ runner.isolationBackends))
      || decide (runner.activeWasmJobs > runner.activeJobs)
      || decide (runner.activeWasmJobs > runner.maxConcurrentWasmJobs)
      || runner.memoryBytes == 0 || runner.storageBytes == 0
      || decide (runner.isolationBackends = ∅) then
    .error .invalidRunner
  else .ok ()

def QueuedJob.validate (job : QueuedJob) : Except SchedulerError Unit :=
  if job.id.isEmpty || job.tenantId.isEmpty || job.repositoryId.isEmpty
      || job.requirements.cpu == 0 || job.requirements.memoryBytes == 0 then
    .error .invalidJob
  else .ok ()

def TenantQuota.validate (quota : TenantQuota) : Except SchedulerError Unit :=
  if quota.maximumRunningJobs == 0 || quota.weight == 0 then .error .invalidQuota else .ok ()

/-! ### The resource counters of a runner -/

def RunnerRecord.isolationAvailable (runner : RunnerRecord) : Isolation → Bool
  | .wasm => runner.activeJobs == runner.activeWasmJobs
      && decide (runner.activeWasmJobs < runner.maxConcurrentWasmJobs)
  | .oci | .microvm | .native => runner.activeJobs == 0

def RunnerRecord.available (runner : RunnerRecord) (requirements : SchedulingRequirements) : Bool :=
  runner.isolationAvailable requirements.isolation
    && decide (requirements.cpu ≤ Fixed.satSub runner.logicalCpus runner.usedCpus)
    && decide (requirements.memoryBytes ≤ Fixed.satSub runner.memoryBytes runner.usedMemoryBytes)
    && decide (requirements.storageBytes ≤ Fixed.satSub runner.storageBytes runner.usedStorageBytes)

def RunnerRecord.reserve (runner : RunnerRecord) (requirements : SchedulingRequirements) :
    RunnerRecord :=
  { runner with
    activeJobs := Fixed.satAdd runner.activeJobs 1
    activeWasmJobs := if requirements.isolation = .wasm then Fixed.satAdd runner.activeWasmJobs 1
      else runner.activeWasmJobs
    usedCpus := Fixed.satAdd runner.usedCpus requirements.cpu
    usedMemoryBytes := Fixed.satAdd runner.usedMemoryBytes requirements.memoryBytes
    usedStorageBytes := Fixed.satAdd runner.usedStorageBytes requirements.storageBytes }

def RunnerRecord.release (runner : RunnerRecord) :
    Option SchedulingRequirements → RunnerRecord
  | none => { runner with activeJobs := Fixed.satSub runner.activeJobs 1 }
  | some requirements =>
    { runner with
      activeJobs := Fixed.satSub runner.activeJobs 1
      activeWasmJobs := if requirements.isolation = .wasm then Fixed.satSub runner.activeWasmJobs 1
        else runner.activeWasmJobs
      usedCpus := Fixed.satSub runner.usedCpus requirements.cpu
      usedMemoryBytes := Fixed.satSub runner.usedMemoryBytes requirements.memoryBytes
      usedStorageBytes := Fixed.satSub runner.usedStorageBytes requirements.storageBytes }

def RunnerRecord.reset (runner : RunnerRecord) : RunnerRecord :=
  { runner with
    activeJobs := 0
    activeWasmJobs := 0
    usedCpus := 0
    usedMemoryBytes := 0
    usedStorageBytes := 0 }

/-! ### Hard filters and score -/

def passesHardFilters (job : QueuedJob) (runner : RunnerRecord) (quota : TenantQuota)
    (running : U32) : Bool :=
  runner.status == .online
    && runner.tenantId == job.tenantId
    && quota.hasCapacity running
    && job.requirements.os == runner.os
    && job.requirements.arch == runner.arch
    && decide (job.requirements.isolation ∈ runner.isolationBackends)
    && (decide (job.requirements.allowedPools = ∅)
      || decide (runner.poolId ∈ job.requirements.allowedPools))
    && (job.requirements.region.isNone || runner.region == job.requirements.region)
    && decide (job.requirements.requiredCapabilities ⊆ runner.verifiedCapabilities)
    && runner.available job.requirements

structure PlacementScoreObservation where
  fairShare : Nat
  effectivePriority : Int
  preferredContentHits : Nat
  preferredPackageTier : Nat
  runnerActiveJobs : U32
deriving DecidableEq

/-- `i64::saturating_add`. -/
def satAddI64 (a b : Int) : Int := max (-2 ^ 63) (min (a + b) (2 ^ 63 - 1))

def scoreObservation (job : QueuedJob) (runner : RunnerRecord) (quota : TenantQuota)
    (running : U32) (nowUnixMs : U64) (priorityAgingIntervalMs : Nat) :
    PlacementScoreObservation :=
  let age := (nowUnixMs.toNat - job.queuedUnixMs.toNat) / priorityAgingIntervalMs
  { fairShare := quota.fairShare running
    effectivePriority := satAddI64 job.priority.toInt (min age (2 ^ 63 - 1))
    preferredContentHits := (job.preferredContent ∩ runner.locality).card
    preferredPackageTier := job.preferredContent.sup fun digest =>
      (runner.packageTiers[digest]?).elim 0 (·.placementRank)
    runnerActiveJobs := runner.activeJobs }

/-- The order of offers: fair share, aged priority (high first), package tier (high first), locality
hits (high first), load of the runner, job id. -/
def ScoreKey : Type := Nat ×ₗ Intᵒᵈ ×ₗ Natᵒᵈ ×ₗ Natᵒᵈ ×ₗ Nat ×ₗ String

instance ScoreKey.linearOrder : LinearOrder ScoreKey :=
  -- the instances of the numbers that compute
  letI : LinearOrder Nat := Nat.instLinearOrder
  letI : LinearOrder Int := Int.instLinearOrder
  inferInstanceAs (LinearOrder (Nat ×ₗ Intᵒᵈ ×ₗ Natᵒᵈ ×ₗ Natᵒᵈ ×ₗ Nat ×ₗ String))

def score (job : QueuedJob) (runner : RunnerRecord) (quota : TenantQuota) (running : U32)
    (nowUnixMs : U64) (priorityAgingIntervalMs : Nat) : ScoreKey :=
  let observation := scoreObservation job runner quota running nowUnixMs priorityAgingIntervalMs
  toLex (observation.fairShare, toLex (OrderDual.toDual observation.effectivePriority,
    toLex (OrderDual.toDual observation.preferredPackageTier,
      toLex (OrderDual.toDual observation.preferredContentHits,
        toLex (observation.runnerActiveJobs.toNat, job.id)))))

end Runtrue.Scheduling
