import Runtrue.Scheduling.Model
import Runtrue.Base.Run

/-!
# The scheduler

The state of `scheduler.rs` and its public operations. An operation returns its result together with the
next state: a Rust method that fails keeps what it wrote to `self` before the failure (a late
`decide_offer` requeues the job and then fails). The `+= 1` on the running count of a tenant wraps, as in a
release build. The wall-clock duration of a placement observation is left out.
-/

namespace Runtrue.Scheduling

def defaultAcceptWindowMs : U64 := 15000
def defaultLeaseDurationMs : U64 := 60000
def priorityAgingIntervalMs : Nat := 60000

structure PlacementObservation where
  runnerId : String
  queuedJobs : Nat
  compatibleJobs : Nat
  selectedJobId : Option String
  selectedScore : Option PlacementScoreObservation

structure ObservedLeaseOffer where
  lease : Option Lease
  placement : PlacementObservation

structure Scheduler where
  installationFencingEpoch : U64
  runners : BTreeMap String RunnerRecord
  queue : BTreeMap String QueuedJob
  leases : BTreeMap String Lease
  leasedJobs : BTreeMap String QueuedJob
  activeLeaseByJob : BTreeMap String String
  generationByJob : BTreeMap String U64
  quotas : BTreeMap String TenantQuota
  runningByTenant : BTreeMap String U32
  nextLeaseId : U64

/-- A lease that is neither completed, rejected nor expired. -/
def LeaseState.live : LeaseState → Bool
  | offered | active | cancelRequested => true
  | completed | rejected | expired => false

/-- The states `complete` and `expire` take for a lease that runs. -/
def LeaseState.running : LeaseState → Bool
  | active | cancelRequested => true
  | offered | completed | rejected | expired => false

def Lease.deadline (lease : Lease) : U64 :=
  if lease.state = .offered then lease.acceptByUnixMs else lease.expiresUnixMs

def leaseName (n : U64) : String := "lease-" ++ n.toNat.repr

def decrement (counts : BTreeMap String U32) (key : String) : BTreeMap String U32 :=
  match counts[key]? with
  | none => counts
  | some value =>
    if Fixed.satSub value 1 = 0 then counts.erase key else counts.insert key (Fixed.satSub value 1)

namespace Scheduler

def new (installationFencingEpoch : U64) : Scheduler where
  installationFencingEpoch := installationFencingEpoch
  runners := ∅
  queue := ∅
  leases := ∅
  leasedJobs := ∅
  activeLeaseByJob := ∅
  generationByJob := ∅
  quotas := ∅
  runningByTenant := ∅
  nextLeaseId := 1

def setQuota (s : Scheduler) (tenantId : String) (quota : TenantQuota) :
    Except SchedulerError Unit × Scheduler :=
  match quota.validate with
  | .error e => (.error e, s)
  | .ok () => (.ok (), { s with quotas := s.quotas.insert tenantId quota })

def registerRunner (s : Scheduler) (runner : RunnerRecord) :
    Except SchedulerError Unit × Scheduler :=
  match runner.validate with
  | .error e => (.error e, s)
  | .ok () =>
    if s.runners.contains runner.id then (.error (.duplicateRunner runner.id), s)
    else (.ok (), { s with runners := s.runners.insert runner.id runner })

def updateRunnerStatus (s : Scheduler) (runnerId : String) (status : RunnerStatus) :
    Except SchedulerError Unit × Scheduler :=
  match s.runners[runnerId]? with
  | none => (.error (.unknownRunner runnerId), s)
  | some runner =>
    if runner.status = .revoked ∧ status ≠ .revoked then (.error (.runnerRevoked runnerId), s)
    else (.ok (), { s with runners := s.runners.insert runnerId { runner with status := status } })

def enqueue (s : Scheduler) (job : QueuedJob) : Except SchedulerError Unit × Scheduler :=
  match job.validate with
  | .error e => (.error e, s)
  | .ok () =>
    if s.queue.contains job.id || s.activeLeaseByJob.contains job.id then
      (.error (.duplicateJob job.id), s)
    else (.ok (), { s with queue := s.queue.insert job.id job })

/-! ### Expiry -/

/-- The leases `expire` ends at `now`, in the order it visits them. -/
def expiredLeases (s : Scheduler) (nowUnixMs : U64) : List String :=
  s.leases.toList.filterMap fun (id, lease) =>
    if lease.state.live && decide (nowUnixMs > lease.deadline) then some id else none

/-- Give back what a lease that ran had reserved on its runner. -/
def releaseRunner (s : Scheduler) (runnerId : String)
    (requirements : Option SchedulingRequirements) : Scheduler :=
  match s.runners[runnerId]? with
  | none => s
  | some runner => { s with runners := s.runners.insert runnerId (runner.release requirements) }

/-- One turn of the loop of `expire`. -/
def expireLease (s : Scheduler) (leaseId : String) (lease : Lease) : Scheduler :=
  let wasRunning := lease.state.running
  let wasCancelRequested := decide (lease.state = .cancelRequested)
  let s := { s with
    leases := s.leases.insert leaseId { lease with state := .expired }
    activeLeaseByJob := s.activeLeaseByJob.erase lease.jobId }
  let s :=
    if wasRunning then
      { s with runningByTenant := decrement s.runningByTenant lease.tenantId }.releaseRunner
        lease.runnerId ((s.leasedJobs[leaseId]?).map QueuedJob.requirements)
    else s
  match s.leasedJobs[leaseId]? with
  | none => s
  | some job =>
    { s with
      leasedJobs := s.leasedJobs.erase leaseId
      queue := if job.retryableAfterRunnerLoss && !wasCancelRequested then s.queue.insert job.id job
        else s.queue }

def expireLoop (s : Scheduler) : List String → Except SchedulerError Unit × Scheduler
  | [] => (.ok (), s)
  | leaseId :: rest =>
    match s.leases[leaseId]? with
    | none => (.error (.unknownLease leaseId), s)
    | some lease => expireLoop (s.expireLease leaseId lease) rest

def expire (s : Scheduler) (nowUnixMs : U64) : Except SchedulerError (List String) × Scheduler :=
  let expired := s.expiredLeases nowUnixMs
  match s.expireLoop expired with
  | (.error e, s) => (.error e, s)
  | (.ok (), s) => (.ok expired, s)

/-! ### Offers -/

def quotaOf (s : Scheduler) (tenantId : String) : TenantQuota :=
  (s.quotas[tenantId]?).getD .default

def runningOf (s : Scheduler) (tenantId : String) : U32 := (s.runningByTenant[tenantId]?).getD 0

def hardFilters (s : Scheduler) (job : QueuedJob) (runner : RunnerRecord) : Bool :=
  passesHardFilters job runner (s.quotaOf job.tenantId) (s.runningOf job.tenantId)

def scoreKey (s : Scheduler) (job : QueuedJob) (runner : RunnerRecord) (nowUnixMs : U64) : ScoreKey :=
  score job runner (s.quotaOf job.tenantId) (s.runningOf job.tenantId) nowUnixMs
    priorityAgingIntervalMs

def scoreObservation (s : Scheduler) (job : QueuedJob) (runner : RunnerRecord) (nowUnixMs : U64) :
    PlacementScoreObservation :=
  Scheduling.scoreObservation job runner (s.quotaOf job.tenantId) (s.runningOf job.tenantId) nowUnixMs
    priorityAgingIntervalMs

/-- The part of `offer_for_runner_observed` from `queue.remove` on: the chosen job leaves the queue
under a new lease. An overflow of either counter leaves the job in neither place. -/
def issueLease (s : Scheduler) (jobId runnerId : String) (nowUnixMs : U64) :
    Except SchedulerError Lease × Scheduler :=
  match s.queue[jobId]? with
  | none => (.error (.unknownJob jobId), s)
  | some job =>
    let generation := (s.generationByJob[job.id]?).getD 0
    let s := { s with
      queue := s.queue.erase jobId
      generationByJob := s.generationByJob.insert job.id generation }
    match Fixed.checkedAdd generation 1 with
    | none => (.error .generationOverflow, s)
    | some generation =>
      let s := { s with generationByJob := s.generationByJob.insert job.id generation }
      let leaseId := leaseName s.nextLeaseId
      match Fixed.checkedAdd s.nextLeaseId 1 with
      | none => (.error .leaseIdOverflow, s)
      | some nextLeaseId =>
        let lease : Lease :=
          { id := leaseId
            jobId := job.id
            tenantId := job.tenantId
            runnerId := runnerId
            fencingGeneration := generation
            installationFencingEpoch := s.installationFencingEpoch
            capsuleDigest := job.capsuleDigest
            issuedUnixMs := nowUnixMs
            acceptByUnixMs := Fixed.satAdd nowUnixMs defaultAcceptWindowMs
            expiresUnixMs := Fixed.satAdd nowUnixMs defaultLeaseDurationMs
            state := .offered
            terminalResultDigest := none }
        (.ok lease, { s with
          nextLeaseId := nextLeaseId
          activeLeaseByJob := s.activeLeaseByJob.insert job.id leaseId
          leasedJobs := s.leasedJobs.insert leaseId job
          leases := s.leases.insert leaseId lease })

def offerForRunnerObserved (s : Scheduler) (runnerId : String) (nowUnixMs : U64) :
    Except SchedulerError ObservedLeaseOffer × Scheduler :=
  match s.expire nowUnixMs with
  | (.error e, s) => (.error e, s)
  | (.ok _, s) =>
    match s.runners[runnerId]? with
    | none => (.error (.unknownRunner runnerId), s)
    | some runner =>
      if runner.status ≠ .online then
        (.ok ⟨none, runnerId, s.queue.size, 0, none, none⟩, s)
      else
        let compatible := s.queue.values.filter fun job => s.hardFilters job runner
        match compatible.argmin fun job => s.scoreKey job runner nowUnixMs with
        | none => (.ok ⟨none, runnerId, s.queue.size, compatible.length, none, none⟩, s)
        | some chosen =>
          let selectedScore := (s.queue[chosen.id]?).map fun job =>
            s.scoreObservation job runner nowUnixMs
          match s.issueLease chosen.id runnerId nowUnixMs with
          | (.error e, s') => (.error e, s')
          | (.ok lease, s') =>
            (.ok ⟨some lease, runnerId, s.queue.size, compatible.length, some chosen.id,
              selectedScore⟩, s')

def offerForRunner (s : Scheduler) (runnerId : String) (nowUnixMs : U64) :
    Except SchedulerError (Option Lease) × Scheduler :=
  match s.offerForRunnerObserved runnerId nowUnixMs with
  | (.error e, s) => (.error e, s)
  | (.ok offer, s) => (.ok offer.lease, s)

/-! ### Calls of the runner that holds a lease -/

def validateFence (s : Scheduler) (leaseId runnerId : String) (generation epoch : U64) :
    Except SchedulerError Unit :=
  if epoch ≠ s.installationFencingEpoch then
    .error (.staleInstallationEpoch s.installationFencingEpoch epoch)
  else
    match s.leases[leaseId]? with
    | none => .error (.unknownLease leaseId)
    | some lease =>
      if lease.runnerId ≠ runnerId then .error .wrongRunner
      else if lease.fencingGeneration ≠ generation then
        .error (.staleGeneration lease.fencingGeneration generation)
      else .ok ()

/-- The two branches of `decide_offer` that end an offer without running it: the lease takes `state` and
its job goes back to the queue. -/
def returnOffer (s : Scheduler) (leaseId : String) (lease : Lease) (state : LeaseState) : Scheduler :=
  let s := { s with
    leases := s.leases.insert leaseId { lease with state := state }
    activeLeaseByJob := s.activeLeaseByJob.erase lease.jobId }
  match s.leasedJobs[leaseId]? with
  | none => s
  | some job =>
    { s with leasedJobs := s.leasedJobs.erase leaseId, queue := s.queue.insert job.id job }

/-- The accepting branch of `decide_offer`. -/
def acceptOffer (s : Scheduler) (leaseId runnerId : String) (lease : Lease) :
    Except SchedulerError LeaseState × Scheduler :=
  let s := { s with
    leases := s.leases.insert leaseId { lease with state := .active }
    runningByTenant := s.runningByTenant.insert lease.tenantId (s.runningOf lease.tenantId + 1) }
  match s.runners[runnerId]? with
  | none => (.error (.unknownRunner runnerId), s)
  | some runner =>
    match s.leasedJobs[leaseId]? with
    | none => (.error (.unknownLease leaseId), s)
    | some job =>
      (.ok .active, { s with runners := s.runners.insert runnerId (runner.reserve job.requirements) })

def decideOffer (s : Scheduler) (leaseId runnerId : String) (generation : U64) (accepted : Bool)
    (nowUnixMs : U64) : Except SchedulerError LeaseState × Scheduler :=
  match s.validateFence leaseId runnerId generation s.installationFencingEpoch with
  | .error e => (.error e, s)
  | .ok () =>
    match s.leases[leaseId]? with
    | none => (.error (.unknownLease leaseId), s)
    | some lease =>
      if lease.state ≠ .offered then (.error (.invalidLeaseState .offered lease.state), s)
      else if nowUnixMs > lease.acceptByUnixMs then
        (.error .offerExpired, s.returnOffer leaseId lease .expired)
      else if accepted then s.acceptOffer leaseId runnerId lease
      else (.ok .rejected, s.returnOffer leaseId lease .rejected)

def heartbeat (s : Scheduler) (leaseId runnerId : String) (generation epoch nowUnixMs : U64) :
    Except SchedulerError U64 × Scheduler :=
  match s.validateFence leaseId runnerId generation epoch with
  | .error e => (.error e, s)
  | .ok () =>
    match s.leases[leaseId]? with
    | none => (.error (.unknownLease leaseId), s)
    | some lease =>
      if !lease.state.running then (.error (.leaseNotActive lease.state), s)
      else
        let expires := Fixed.satAdd nowUnixMs defaultLeaseDurationMs
        let s := { s with
          leases := s.leases.insert leaseId { lease with expiresUnixMs := expires } }
        match s.runners[runnerId]? with
        | none => (.ok expires, s)
        | some runner =>
          (.ok expires, { s with
            runners := s.runners.insert runnerId { runner with lastHeartbeatUnixMs := nowUnixMs } })

def requestCancel (s : Scheduler) (jobId : String) : Except SchedulerError Unit × Scheduler :=
  match s.activeLeaseByJob[jobId]? with
  | none => (.error (.unknownJob jobId), s)
  | some leaseId =>
    match s.leases[leaseId]? with
    | none => (.error (.unknownLease leaseId), s)
    | some lease =>
      if lease.state = .offered ∨ lease.state = .active then
        (.ok (), { s with
          leases := s.leases.insert leaseId { lease with state := .cancelRequested } })
      else (.error (.leaseNotActive lease.state), s)

/-- The part of `complete` after its checks. -/
def completeLease (s : Scheduler) (leaseId runnerId : String) (lease : Lease)
    (resultDigest : ContentDigest) : Scheduler :=
  let job := s.leasedJobs[leaseId]?
  { s with
    leases := s.leases.insert leaseId
      { lease with state := .completed, terminalResultDigest := some resultDigest }
    activeLeaseByJob := s.activeLeaseByJob.erase lease.jobId
    runningByTenant := decrement s.runningByTenant lease.tenantId
    leasedJobs := s.leasedJobs.erase leaseId }.releaseRunner runnerId (job.map QueuedJob.requirements)

def complete (s : Scheduler) (leaseId runnerId : String) (generation epoch : U64)
    (resultDigest : ContentDigest) : Except SchedulerError Unit × Scheduler :=
  match s.validateFence leaseId runnerId generation epoch with
  | .error e => (.error e, s)
  | .ok () =>
    match s.leases[leaseId]? with
    | none => (.error (.unknownLease leaseId), s)
    | some lease =>
      if lease.state = .completed then
        if lease.terminalResultDigest = some resultDigest then (.ok (), s)
        else (.error .conflictingCompletion, s)
      else if !lease.state.running then (.error (.leaseNotActive lease.state), s)
      else (.ok (), s.completeLease leaseId runnerId lease resultDigest)

/-! ### Epoch restore -/

/-- The loop of `restore_fencing_epoch` over the leases it ended. -/
def requeueLoop (s : Scheduler) : List String → Scheduler
  | [] => s
  | leaseId :: rest =>
    match s.leasedJobs[leaseId]? with
    | none => requeueLoop s rest
    | some job =>
      requeueLoop { s with
        leasedJobs := s.leasedJobs.erase leaseId
        queue := if job.retryableAfterRunnerLoss then s.queue.insert job.id job else s.queue } rest

/-- The leases `restore_fencing_epoch` ends. -/
def liveLeases (s : Scheduler) : List String :=
  s.leases.toList.filterMap fun (id, lease) => if lease.state.live then some id else none

/-- The state `restore_fencing_epoch` has reached before it requeues jobs. -/
def fenceAll (s : Scheduler) (newEpoch : U64) : Scheduler :=
  { s with
    installationFencingEpoch := newEpoch
    leases := s.leases.map fun _ lease =>
      if lease.state.live then { lease with state := .expired } else lease
    activeLeaseByJob := ∅
    runningByTenant := ∅
    runners := s.runners.map fun _ runner => runner.reset }

def restoreFencingEpoch (s : Scheduler) (newEpoch : U64) : Except SchedulerError Unit × Scheduler :=
  if newEpoch ≤ s.installationFencingEpoch then (.error .epochMustIncrease, s)
  else (.ok (), (s.fenceAll newEpoch).requeueLoop s.liveLeases)

end Scheduler

/-! ### Runs -/

inductive Op
  | registerRunner (runner : RunnerRecord)
  | updateRunnerStatus (runnerId : String) (status : RunnerStatus)
  | setQuota (tenantId : String) (quota : TenantQuota)
  | enqueue (job : QueuedJob)
  | offerForRunner (runnerId : String) (nowUnixMs : U64)
  | decideOffer (leaseId runnerId : String) (generation : U64) (accepted : Bool) (nowUnixMs : U64)
  | heartbeat (leaseId runnerId : String) (generation epoch nowUnixMs : U64)
  | requestCancel (jobId : String)
  | complete (leaseId runnerId : String) (generation epoch : U64) (resultDigest : ContentDigest)
  | expire (nowUnixMs : U64)
  | restoreFencingEpoch (newEpoch : U64)

inductive Outcome
  | failed (error : SchedulerError)
  | done
  | offered (lease : Option Lease)
  | decided (state : LeaseState)
  | renewed (expiresUnixMs : U64)
  | expired (leaseIds : List String)
deriving DecidableEq

def Outcome.of {α : Type} (ok : α → Outcome) : Except SchedulerError α × Scheduler → Outcome × Scheduler
  | (.error e, s) => (.failed e, s)
  | (.ok a, s) => (ok a, s)

def step (s : Scheduler) : Op → Outcome × Scheduler
  | .registerRunner runner => Outcome.of (fun _ => .done) (s.registerRunner runner)
  | .updateRunnerStatus runnerId status => Outcome.of (fun _ => .done) (s.updateRunnerStatus runnerId status)
  | .setQuota tenantId quota => Outcome.of (fun _ => .done) (s.setQuota tenantId quota)
  | .enqueue job => Outcome.of (fun _ => .done) (s.enqueue job)
  | .offerForRunner runnerId now => Outcome.of .offered (s.offerForRunner runnerId now)
  | .decideOffer leaseId runnerId generation accepted now =>
    Outcome.of .decided (s.decideOffer leaseId runnerId generation accepted now)
  | .heartbeat leaseId runnerId generation epoch now =>
    Outcome.of .renewed (s.heartbeat leaseId runnerId generation epoch now)
  | .requestCancel jobId => Outcome.of (fun _ => .done) (s.requestCancel jobId)
  | .complete leaseId runnerId generation epoch digest =>
    Outcome.of (fun _ => .done) (s.complete leaseId runnerId generation epoch digest)
  | .expire now => Outcome.of .expired (s.expire now)
  | .restoreFencingEpoch epoch => Outcome.of (fun _ => .done) (s.restoreFencingEpoch epoch)

abbrev Event := Run.Event Scheduler Op Outcome

abbrev History := List Event

/-- `s` is reached by the calls of `h` from a new scheduler. -/
abbrev Reaches (epoch : U64) (h : History) (s : Scheduler) : Prop :=
  Run.Reaches step (Scheduler.new epoch) h s

/-- The history and the last state of the calls `ops` on a new scheduler. -/
def exec (epoch : U64) (ops : List Op) : History × Scheduler := Run.exec step (Scheduler.new epoch) ops

theorem reaches_exec (epoch : U64) (ops : List Op) : Reaches epoch (exec epoch ops).1 (exec epoch ops).2 :=
  Run.reaches_exec step (Scheduler.new epoch) ops

/-! ### The records of the crate's tests -/

namespace Fixture

def runner (id : String) : RunnerRecord where
  id := id
  tenantId := "tenant"
  poolId := "trusted"
  os := .linux
  arch := .amd64
  isolationBackends := {.microvm}
  logicalCpus := 8
  memoryBytes := 16 * 1024 * 1024
  storageBytes := 100 * 1024 * 1024
  maxConcurrentWasmJobs := 1
  region := some "us-east"
  verifiedCapabilities := {"kvm"}
  status := .online
  activeJobs := 0
  activeWasmJobs := 0
  usedCpus := 0
  usedMemoryBytes := 0
  usedStorageBytes := 0
  locality := ∅
  packageTiers := ∅
  lastHeartbeatUnixMs := 0

def job (id : String) (retryable : Bool) : QueuedJob where
  id := id
  tenantId := "tenant"
  repositoryId := "repo"
  capsuleDigest := ⟨0⟩
  requirements :=
    { os := .linux
      arch := .amd64
      isolation := .microvm
      cpu := 1
      memoryBytes := 1024
      storageBytes := 1024
      region := some "us-east"
      requiredCapabilities := {"kvm"}
      allowedPools := {"trusted"} }
  priority := 0
  queuedUnixMs := 1
  preferredContent := ∅
  retryableAfterRunnerLoss := retryable

end Fixture

end Runtrue.Scheduling
