import Runtrue.ControlPlane.Leases

/-!
# The offer of a lease

`offer_next_lease_for_runner` of `runners/scheduler.rs`: expire what is overdue, filter a page of queued jobs
against the runner, its pool and the capsules, and reserve at most one lease for the job with the least
score. Each candidate is judged (`judgeCandidate`): it is passed over, blocked, or admitted with a score.
-/

namespace Runtrue.ControlPlane

open Fallible
open Scheduling (RunnerRecord SchedulingRequirements PackagePreparationTier)

/-! ### The content a job prefers -/

/-- The text after the last `@`, as a digest. -/
def digestFromReference {E : Type} (o : Outside E) (value : String) : Option ContentDigest :=
  o.parseDigest (String.ofList (value.toList.reverse.takeWhile fun c => c ≠ '@').reverse)

def signedJobPreferredContent {E : Type} (o : Outside E) (job : Ir.PlannedJob)
    (sourceTree : Option ContentDigest) : Finset ContentDigest :=
  (sourceTree.toList
    ++ (job.runner.image.bind (digestFromReference o)).toList
    ++ job.services.filterMap (fun service => digestFromReference o service.image)
    ++ job.steps.filterMap (fun step =>
      match step.action with
      | .component reference => digestFromReference o reference
      | .script _ _ scriptDigest => some scriptDigest
      | _ => none)).toFinset

def signedJobLocalityHits {E : Type} (o : Outside E) (job : Ir.PlannedJob)
    (sourceTree : Option ContentDigest) (locality : Finset ContentDigest) : Nat :=
  (signedJobPreferredContent o job sourceTree ∩ locality).card

def signedJobPackageTier {E : Type} (o : Outside E) (job : Ir.PlannedJob)
    (sourceTree : Option ContentDigest) (tiers : BTreeMap ContentDigest PackagePreparationTier) : Nat :=
  (signedJobPreferredContent o job sourceTree).sup fun digest =>
    (tiers[digest]?).elim 0 (·.placementRank)

/-! ### Scores -/

/-- The order of offers: aged priority, package tier and locality hits (each high first), then age and job
id. -/
def ScoreKey : Type := Intᵒᵈ ×ₗ Natᵒᵈ ×ₗ Natᵒᵈ ×ₗ Nat ×ₗ String

instance ScoreKey.linearOrder : LinearOrder ScoreKey :=
  -- the instances of the numbers that compute
  letI : LinearOrder Nat := Nat.instLinearOrder
  letI : LinearOrder Int := Int.instLinearOrder
  inferInstanceAs (LinearOrder (Intᵒᵈ ×ₗ Natᵒᵈ ×ₗ Natᵒᵈ ×ₗ Nat ×ₗ String))

def ScoreKey.jobId (score : ScoreKey) : String := (ofLex (ofLex (ofLex (ofLex score).2).2).2).2

structure AdmissibleCandidate where
  jobId : String
  job : JobRecord
  planned : Ir.PlannedJob
  digest : ContentDigest
  score : ScoreKey

def candidateScore {E : Type} (o : Outside E) (jobId : String) (job : JobRecord) (planned : Ir.PlannedJob)
    (priority : Int) (sourceTree : Option ContentDigest) (runner : RunnerRecord) (now : Nat) : ScoreKey :=
  let age := (now - job.createdUnixMs) / priorityAgingIntervalMs
  let effectivePriority := Scheduling.satAddI64 priority (min age (2 ^ 63 - 1))
  let localityHits := signedJobLocalityHits o planned sourceTree runner.locality
  let packageTier := signedJobPackageTier o planned sourceTree runner.packageTiers
  toLex (OrderDual.toDual effectivePriority, toLex (OrderDual.toDual packageTier,
    toLex (OrderDual.toDual localityHits, toLex (job.createdUnixMs, jobId))))

/-! ### Filters -/

def runnerStructurallyMatches (runner : RunnerRecord) (pool : Pool) (requirements : SchedulingRequirements) :
    Bool :=
  decide (pool.status = .active) && decide (runner.status = .online)
    && pool.region.all (fun region => decide (runner.region = some region))
    && decide (requirements.os = runner.os) && decide (requirements.arch = runner.arch)
    && decide (requirements.isolation ∈ runner.isolationBackends)
    && (decide (requirements.allowedPools = ∅) || decide (runner.poolId ∈ requirements.allowedPools))
    && requirements.region.all (fun region => decide (runner.region = some region)
      && pool.region.all fun pool => decide (pool = region))
    && decide (requirements.requiredCapabilities ⊆ runner.verifiedCapabilities)
    && decide (requirements.cpu.toNat ≤ runner.logicalCpus.toNat)
    && decide (requirements.memoryBytes.toNat ≤ runner.memoryBytes.toNat)
    && decide (requirements.storageBytes.toNat ≤ runner.storageBytes.toNat)

/-- What `offer_next_lease_for_runner` knows when it looks at the candidates. -/
structure OfferContext where
  runnerId : String
  runner : RunnerRecord
  tenantId : String
  poolRegion : Option String
  reserved : List SchedulingRequirements
  usedCpu : Nat
  usedMemory : Nat
  usedStorage : Nat
  now : Nat

def OfferContext.isolationCapacityAvailable (ctx : OfferContext) (requirements : SchedulingRequirements) :
    Bool :=
  match requirements.isolation with
  | .wasm => ctx.reserved.all (fun reserved => decide (reserved.isolation = .wasm))
      && decide (ctx.reserved.length < ctx.runner.maxConcurrentWasmJobs.toNat)
  | .oci | .microvm | .native => ctx.reserved.isEmpty

/-- The job fits on the runner next to what is reserved there. -/
def OfferContext.fits (ctx : OfferContext) (requirements : SchedulingRequirements) : Bool :=
  ctx.isolationCapacityAvailable requirements
    && decide (requirements.os = ctx.runner.os) && decide (requirements.arch = ctx.runner.arch)
    && decide (requirements.isolation ∈ ctx.runner.isolationBackends)
    && (decide (requirements.allowedPools = ∅) || decide (ctx.runner.poolId ∈ requirements.allowedPools))
    && requirements.region.all (fun region => decide (ctx.runner.region = some region)
      && ctx.poolRegion.all fun pool => decide (pool = region))
    && decide (requirements.requiredCapabilities ⊆ ctx.runner.verifiedCapabilities)
    && decide (requirements.cpu.toNat ≤ ctx.runner.logicalCpus.toNat - ctx.usedCpu)
    && decide (requirements.memoryBytes.toNat ≤ ctx.runner.memoryBytes.toNat - ctx.usedMemory)
    && decide (requirements.storageBytes.toNat ≤ ctx.runner.storageBytes.toNat - ctx.usedStorage)

/-- Add a requirement to the reserved CPU, memory and storage. -/
def addReserved (total : Nat × Nat × Nat) (requirement : SchedulingRequirements) :
    Except Error (Nat × Nat × Nat) := do
  let cpu ← checkedAdd "runner reserved CPU" total.1 requirement.cpu.toNat
  let memory ← checkedAdd "runner reserved memory" total.2.1 requirement.memoryBytes.toNat
  let storage ← checkedAdd "runner reserved storage" total.2.2 requirement.storageBytes.toNat
  return (cpu, memory, storage)

namespace Store

variable {E : Type} (o : Outside E) (s : Store E)

def isExhausted (runnerId jobId : String) : Bool :=
  ((s.rejectionsOf runnerId)[jobId]?).any fun rejection =>
    decide (maxRunnerJobRejections ≤ rejection.rejectionCount)
      && decide (rejection.lastCode ≠ "image_admission_pending")

/-- The runners of a tenant that could ever take the job. -/
def eligibleRunners (tenantId : String) (requirements : SchedulingRequirements) : List String :=
  (s.runners.toList.filter fun entry => (s.pools[entry.2.poolId]?).any fun pool =>
    decide (pool.tenantId = tenantId) && runnerStructurallyMatches entry.2.record pool requirements).map
      Prod.fst

def allEligibleRunnersExhausted (tenantId jobId : String) (requirements : SchedulingRequirements) : Bool :=
  !(s.eligibleRunners tenantId requirements).isEmpty
    && (s.eligibleRunners tenantId requirements).all fun runnerId => s.isExhausted runnerId jobId

/-- The requirements behind the open leases on a runner, by lease id. -/
def runnerReservedRequirements (runnerId : String) : List SchedulingRequirements :=
  (s.leases.toList.filter fun entry => entry.2.runnerId = runnerId && entry.2.isOpen).filterMap
    fun entry => s.jobs[entry.2.jobId]?.map (·.requirements)

def runnerReservedResources (runnerId : String) : Except Error (Nat × Nat × Nat) :=
  foldEach addReserved (0, 0, 0) (s.runnerReservedRequirements runnerId)

/-- A queued job of a remote run of the tenant that has not concluded. -/
def isCandidate (tenantId : String) (job : JobRecord) : Bool :=
  decide (job.status = .queued) && (s.runs[job.runId]?).any fun run =>
    run.remote && (run.status matches .created | .running) && decide (s.tenantOf run = some tenantId)

def schedulerCandidatePage (tenantId after : String) : List String :=
  ((s.jobs.toList.filter fun entry => s.isCandidate tenantId entry.2 && decide (after < entry.1)).take
    maxSchedulerCandidates).map Prod.fst

/-- A job of the concurrency group of a repository. -/
def inGroup (tenantId repositoryId group : String) (job : JobRecord) : Bool :=
  decide (job.concurrencyGroup = some group) && (s.runs[job.runId]?).any fun run =>
    decide (run.repositoryId = repositoryId) && decide (s.tenantOf run = some tenantId)

/-- The order in which the jobs of a group take their turn. -/
def turn (entry : String × JobRecord) : Nat ×ₗ String := toLex (entry.2.createdUnixMs, entry.1)

def firstOfGroup (tenantId repositoryId group : String) : Option String :=
  letI : LinearOrder Nat := Nat.instLinearOrder
  ((s.jobs.toList.filter fun entry => s.inGroup tenantId repositoryId group entry.2
    && (decide (entry.2.status = .queued) || entry.2.status.isHeld)).argmin turn).map Prod.fst

def concurrencyGroupAvailable (tenantId repositoryId group candidate : String) : Bool :=
  decide (s.firstOfGroup tenantId repositoryId group = some candidate)

/-! ### The judgement of a candidate -/

inductive Verdict
  | passOver
  | block
  | admissible (candidate : AdmissibleCandidate)

/-- The deployment gate and the capacity of the runner. -/
def judgePlacement (ctx : OfferContext) (jobId : String) (job : JobRecord) (run : RunRecord)
    (capsule : Ir.ExecutionCapsule) (planned : Ir.PlannedJob) : Except Error Verdict := do
  let ready ← o.deploymentJobGateReady s.outside ctx.tenantId jobId job.attempt planned ctx.now
  if ready = false then
    return .passOver
  else if ctx.fits job.requirements = false then
    return .passOver
  else
    return .admissible
      { jobId, job, planned
        digest := o.capsuleDigest capsule
        score := candidateScore o jobId job planned run.priority capsule.context.sourceTreeDigest ctx.runner
          ctx.now }

/-- The earlier rejections of the job by this runner, and the concurrency group. -/
def judgeTurn (ctx : OfferContext) (jobId : String) (job : JobRecord) (run : RunRecord)
    (capsule : Ir.ExecutionCapsule) (planned : Ir.PlannedJob) : Except Error Verdict :=
  let rejection := (s.rejectionsOf ctx.runnerId)[jobId]?.getD ⟨0, "", 0⟩
  if rejection.lastCode = "image_admission_pending"
      ∧ ctx.now < saturatingAdd rejection.updatedUnixMs imageAdmissionRetryDelayMillis then
    .ok .passOver
  else if rejection.lastCode ≠ "image_admission_pending"
      ∧ maxRunnerJobRejections ≤ rejection.rejectionCount then
    .ok (if s.allEligibleRunnersExhausted ctx.tenantId jobId job.requirements then .block else .passOver)
  else if planned.concurrency.any fun group =>
      !s.concurrencyGroupAvailable ctx.tenantId run.repositoryId group jobId then
    .ok .passOver
  else
    s.judgePlacement o ctx jobId job run capsule planned

def judgeCandidate (ctx : OfferContext) (jobId : String) : Except Error Verdict := do
  let job ← s.job jobId
  let run ← okOr s.runs[job.runId]? .sqlite
  let row ← okOr s.capsules[run.capsuleId]? .sqlite
  let plannedJobs ← s.materializedPlannedJobs o job.runId row.capsule
  rejectIf (o.capsuleDigest row.capsule ≠ row.digest ∨ plannedJobs.size ≠ (s.jobsOf job.runId).length)
    .nonCanonicalCapsule
  let planned ← okOr plannedJobs[job.jobKey]? (.corruptState "queued job is absent from its signed capsule")
  rejectIf (job.attempt ≠ 1 ∨ job.requirements ≠ plannedSchedulingRequirements planned)
    (.corruptState "queued job requirements differ from its signed capsule")
  rejectIf (job.concurrencyGroup ≠ planned.concurrency)
    (.corruptState "queued job concurrency differs from its signed capsule")
  if satisfies row.capsule.context.sourceTrust planned.trust = false then
    return .block
  else
    match o.runnerApprovalSubject s.outside run.capsuleId job.runId row.capsule.approval with
    | .error .approvalRequired => return .passOver
    | .error error => .error error
    | .ok _ => s.judgeTurn o ctx jobId job run row.capsule planned

/-- One pass of the loop over the candidates. -/
def considerCandidate (ctx : OfferContext) (state : Store E × List AdmissibleCandidate) (jobId : String) :
    Except Error (Store E × List AdmissibleCandidate) := do
  let verdict ← state.1.judgeCandidate o ctx jobId
  match verdict with
  | .passOver => return state
  | .block =>
    let s ← state.1.blockJob jobId .queued ctx.now
    let s ← s.concludeRunIfTerminal o jobId ctx.now
    return (s, state.2)
  | .admissible candidate => return (state.1, state.2 ++ [candidate])

/-! ### The lease -/

/-- The constraints of the table of leases. -/
def insertLease (leaseId : String) (lease : Lease) : Except Error (Store E) := do
  rejectIf (s.leases.contains leaseId ∨ lease.installationFencingEpoch = 0
    ∨ (s.leases.toList.any fun entry => decide (entry.2.jobId = lease.jobId)
      && (decide (entry.2.fencingGeneration = lease.fencingGeneration) || entry.2.isOpen))) .sqlite
  return s.setLease leaseId lease

def offeredLease (epoch : Nat) (ctx : OfferContext) (candidate : AdmissibleCandidate)
    (generation acceptBy expires hardDeadline : Nat) : Lease where
  jobId := candidate.jobId
  tenantId := ctx.tenantId
  runnerId := ctx.runnerId
  fencingGeneration := generation
  installationFencingEpoch := epoch
  capsuleDigest := candidate.digest
  issuedUnixMs := ctx.now
  acceptByUnixMs := acceptBy
  expiresUnixMs := expires
  hardDeadlineUnixMs := hardDeadline
  state := .offered
  terminalResultDigest := none
  terminalJobState := none
  completedUnixMs := none
  terminalCredentialTaint := none

/-- Reserve a fenced lease for the chosen candidate. `leaseId` is the random id. -/
def issueLease (leaseId : String) (ctx : OfferContext) (candidate : AdmissibleCandidate) :
    Except Error (Lease × Store E) := do
  let setup ← checkedAdd "lease hard deadline" ctx.now leaseSetupGraceMs
  let hardDeadline ← checkedAdd "lease hard deadline" setup candidate.planned.timeoutMs.toNat
  let acceptBy ← checkedAdd "lease accept deadline" ctx.now leaseAcceptWindowMs
  let expires ← checkedAdd "lease soft expiry" ctx.now leaseExtensionMs
  let acceptBy := min acceptBy hardDeadline
  let expires := min expires hardDeadline
  rejectIf (acceptBy ≤ ctx.now ∨ expires ≤ acceptBy)
    (.invalidInput "signed job timeout is too short for remote lease admission")
  let job ← okOr s.jobs[candidate.jobId]? .sqlite
  let generation ← checkedAdd "generation" job.lastGeneration 1
  let generation ← toI64 generation
  let hardDeadline ← toI64 hardDeadline
  let s := s.setJob candidate.jobId { job with lastGeneration := generation }
  let s ← s.insertLease leaseId
    (offeredLease s.fencingEpoch ctx candidate generation acceptBy expires hardDeadline)
  let s ← s.send o (.bindDeploymentGateOffer ctx.tenantId candidate.jobId candidate.job.attempt leaseId
    generation s.fencingEpoch ctx.now)
  let s ← s.transitionJob candidate.jobId .leased ctx.now
  let lease ← s.lease leaseId
  return (lease, s)

/-- The offer of the runner that is still open for acceptance. -/
def existingOffer (runnerId : String) (now : Nat) : Option (String × Lease) :=
  ((s.leases.toList.filter fun entry => decide (entry.2.runnerId = runnerId)
    && decide (entry.2.state = .offered) && decide (now < entry.2.acceptByUnixMs)
    && decide (now < entry.2.expiresUnixMs) && decide (now < entry.2.hardDeadlineUnixMs)).insertionSort
      fun a b => a.2.issuedUnixMs ≤ b.2.issuedUnixMs).head?

def tenantQuota (tenantId : String) : Nat :=
  (s.tenantSchedulerQuotas[tenantId]?).getD defaultTenantMaximumRunningJobs

def tenantOpenLeases (tenantId : String) : Nat :=
  (s.leases.toList.filter fun entry => entry.2.tenantId = tenantId && entry.2.isOpen).length

/-- The page of candidates after the runner's cursor, from the start if there is none after it. -/
def candidateIds (runnerId tenantId : String) : List String :=
  let cursor := s.runnerSchedulerCursors[runnerId]?.getD ""
  let page := s.schedulerCandidatePage tenantId cursor
  if page.isEmpty && !cursor.isEmpty then s.schedulerCandidatePage tenantId "" else page

def advanceCursor (runnerId : String) (candidates : List String) : Store E :=
  match candidates.getLast? with
  | some last => { s with runnerSchedulerCursors := s.runnerSchedulerCursors.insert runnerId last }
  | none => s

/-- What is used on the runner is what is reserved there or what the runner reports, whichever is more. -/
def offerContext (runnerId : String) (runner : Runner) (pool : Pool) (total : Nat × Nat × Nat) (now : Nat) :
    OfferContext where
  runnerId := runnerId
  runner := runner.record
  tenantId := pool.tenantId
  poolRegion := pool.region
  reserved := s.runnerReservedRequirements runnerId
  usedCpu := max total.1 runner.record.usedCpus.toNat
  usedMemory := max total.2.1 runner.record.usedMemoryBytes.toNat
  usedStorage := max total.2.2 runner.record.usedStorageBytes.toNat
  now := now

/-- The part of `offer_next_lease_for_runner` after the checks of the runner: the candidates and the
lease. -/
def offerCandidates (leaseId runnerId : String) (runner : Runner) (pool : Pool) (now : Nat) :
    Except Error (Option Lease × Store E) := do
  let total ← s.runnerReservedResources runnerId
  let ctx := s.offerContext runnerId runner pool total now
  let candidates := s.candidateIds runnerId pool.tenantId
  let state ← foldEach (considerCandidate o ctx) (s.advanceCursor runnerId candidates, []) candidates
  match state.2.argmin (·.score) with
  | some candidate =>
    let issued ← state.1.issueLease o leaseId ctx candidate
    return (some issued.1, issued.2)
  | none => return (none, state.1)

/-- The checks of the runner, its pool and the tenant's quota. -/
def offerToRunner (leaseId runnerId : String) (now : Nat) : Except Error (Option Lease × Store E) := do
  let runner ← okOr s.runners[runnerId]? (.notFound "runner" runnerId)
  let pool ← okOr s.pools[runner.poolId]? (.notFound "runner" runnerId)
  rejectIf (runner.record.id ≠ runnerId ∨ runner.record.tenantId ≠ pool.tenantId
      ∨ runner.status ≠ runner.record.status)
    (.corruptState "runner registry fields do not match its authoritative pool")
  if pool.status ≠ .active then
    return (none, s)
  else
    rejectIf (∃ region ∈ pool.region, runner.record.region ≠ some region)
      (.corruptState "runner region does not match its configured pool")
    if runner.record.status ≠ .online then
      return (none, s)
    else if runner.ephemeral && s.hasLease runnerId then
      return (none, s)
    else
      let boundPool ← o.authoritativeRunnerBinding s.outside runnerId
      rejectIf (boundPool ≠ runner.record.poolId) .runnerInventoryMismatch
      if s.tenantQuota pool.tenantId ≤ s.tenantOpenLeases pool.tenantId then
        return (none, s)
      else
        s.offerCandidates o leaseId runnerId runner pool now

def offerNextLeaseForRunner (leaseId runnerId : String) (now : Nat) :
    Except Error (Option Lease × Store E) := do
  validateText runnerId
  let s ← s.schedulerMaintenance o now
  let s ← s.schedulerRunnerMaintenance o runnerId now
  rejectIf (s.safeMode = true) .installationSafeMode
  match s.existingOffer runnerId now with
  | some existing => return (some existing.2, s)
  | none => s.offerToRunner o leaseId runnerId now

end Store

end Runtrue.ControlPlane
