import Runtrue.ControlPlane.Completion
import Runtrue.ControlPlane.Offer
import Runtrue.ControlPlane.Runs
import Runtrue.Base.Run

/-!
# The control plane as a machine

Every call of the store is one operation, except a completion, which is two. `step` returns the answer and
the next state; an operation that fails leaves the state as it was, unless the source commits an expiry
before it answers with an error. The random id of a new lease is an input of the offer.

The administration of repositories, pools, runners, quotas and capsules is modelled by the row it writes.
`elsewhere` is any operation on the other tables.
-/

namespace Runtrue.ControlPlane

open Fallible

inductive Operation (E : Type)
  | createRun (key : String) (request : CreateRunRequest)
  | createScmRun (newCapsule : Option CapsuleRow) (request : CreateRunRequest) (snapshotId : Option String)
      (now : Nat)
  | offer (leaseId runnerId : String) (now : Nat)
  | accept (leaseId runnerId : String) (generation epoch now : Nat)
  | reject (leaseId runnerId : String) (generation epoch : Nat) (code : String) (now : Nat)
  | heartbeat (leaseId runnerId : String) (generation epoch now newExpires : Nat)
  | requestLeaseCancel (jobId : String) (now : Nat)
  | recordTaint (request : CompletionRequest)
  | complete (request : CompletionRequest) (taint : CredentialTaintState)
  | cancelRun (key runId reason : String) (now : Nat)
  | transitionJob (jobId : String) (next : JobState) (now : Nat)
  | transitionRun (runId : String) (next : RunState) (now : Nat)
  | maintenance (now : Nat)
  | createSourceSnapshot (snapshot : SourceSnapshotRecord)
  | markSourceSnapshotReady (tenantId snapshotId : String) (manifest : ContentDigest) (verified : Nat)
  | bindSource (tenantId runId snapshotId : String) (capsuleDigest : ContentDigest) (bound : Nat)
  | recordExpansion (record : ExpandedJobSetRecord)
  | materialize (request : MaterializeExpandedJobSet)
  | advanceEpoch (newEpoch now : Nat)
  | enterRestore (now : Nat)
  | leaveRestore (expectedEpoch : Nat)
  | putRepository (id tenantId : String)
  | putCapsule (id : String) (row : CapsuleRow)
  | putPool (id : String) (pool : Pool)
  | putRunner (id : String) (runner : Runner)
  | setQuota (tenantId : String) (maximumRunningJobs : Nat)
  | elsewhere (f : E → Except Error E)

inductive Reply
  | done
  | lease (lease : Lease)
  | noLease
  | run (run : RunRecord) (replayed : Bool)
  | job (job : JobRecord)
  | taint (taint : CredentialTaintState)
  | snapshot (snapshot : SourceSnapshotRecord)
  | bound (bound : RunSourceSnapshot)
  | expansion (replayed : Bool)
  | materialized (replayed : Bool) (inserted : Nat)

namespace Store

variable {E : Type} (o : Outside E) (s : Store E)

/-- The answer of a transaction that commits or leaves the state as it was. -/
def answer {α : Type} (reply : α → Reply) (s : Store E) (x : Except Error (α × Store E)) :
    Except Error Reply × Store E :=
  match x with
  | .ok (value, t) => (.ok (reply value), t)
  | .error error => (.error error, s)

/-- The answer of a call that may also commit before it answers with an error. -/
def answerLease (s : Store E) (x : Except Error (Except Error Lease × Store E)) :
    Except Error Reply × Store E :=
  match x with
  | .ok (value, t) => (value.map .lease, t)
  | .error error => (.error error, s)

/-- The answer of a transaction without a value. -/
def answerDone (s : Store E) (x : Except Error (Store E)) : Except Error Reply × Store E :=
  match x with
  | .ok t => (.ok .done, t)
  | .error error => (.error error, s)

def putRepository (id tenantId : String) : Except Error (Store E) := do
  rejectIf (s.repositories.contains id) .sqlite
  return { s with repositories := s.repositories.insert id tenantId }

/-- A capsule is stored once, under its own digest. -/
def putCapsule (id : String) (row : CapsuleRow) : Except Error (Store E) := do
  rejectIf (s.capsules.contains id ∨ o.capsuleDigest row.capsule ≠ row.digest) .sqlite
  return { s with capsules := s.capsules.insert id row }

def setTenantSchedulerQuota (tenantId : String) (maximumRunningJobs : Nat) : Except Error (Store E) := do
  validateText tenantId
  rejectIf (maximumRunningJobs = 0)
    (.invalidInput "scheduler quota must permit at least one running job")
  return { s with tenantSchedulerQuotas := s.tenantSchedulerQuotas.insert tenantId maximumRunningJobs }

end Store

variable {E : Type}

open Store in
def step (o : Outside E) (s : Store E) : Operation E → Except Error Reply × Store E
  | .createRun key request => answer (fun r => .run r.1 r.2) s (s.createRunIdempotent o key request)
  | .createScmRun newCapsule request snapshotId now =>
    answerDone s (s.createScmRun o newCapsule request snapshotId now)
  | .offer leaseId runnerId now =>
    answer (fun lease => lease.elim .noLease .lease) s (s.offerNextLeaseForRunner o leaseId runnerId now)
  | .accept leaseId runnerId generation epoch now =>
    answerLease s (s.acceptLease o leaseId runnerId generation epoch now)
  | .reject leaseId runnerId generation epoch code now =>
    answerLease s (s.rejectLeaseWithCode o leaseId runnerId generation epoch code now)
  | .heartbeat leaseId runnerId generation epoch now newExpires =>
    answerLease s (s.heartbeatLease o leaseId runnerId generation epoch now newExpires)
  | .requestLeaseCancel jobId now => answer .lease s (s.requestLeaseCancel o jobId now)
  | .recordTaint request => answer .taint s (s.recordCompletionTaint o request)
  | .complete request taint => answerLease s (s.completeUnderTaint o request taint)
  | .cancelRun key runId reason now =>
    answer (fun r => .run r.1 r.2) s (s.cancelRunIdempotent o key runId reason now)
  | .transitionJob jobId next now => answer .job s (s.transitionJobState o jobId next now)
  | .transitionRun runId next now => answer (fun r => .run r false) s (s.transitionRunState o runId next now)
  | .maintenance now => answerDone s (s.schedulerMaintenance o now)
  | .createSourceSnapshot snapshot => answer (fun r => .snapshot r.1) s (s.createSourceSnapshot snapshot)
  | .markSourceSnapshotReady tenantId snapshotId manifest verified =>
    answer .snapshot s (s.markSourceSnapshotReady tenantId snapshotId manifest verified)
  | .bindSource tenantId runId snapshotId capsuleDigest bound =>
    answer .bound s (s.bindRunSourceSnapshot tenantId runId snapshotId capsuleDigest bound)
  | .recordExpansion record => answer .expansion s (s.recordExpandedJobSet o record)
  | .materialize request => answer (fun r => .materialized r.1 r.2) s (s.materializeExpandedJobSet o request)
  | .advanceEpoch newEpoch now => answerDone s (s.advanceInstallationFencingEpoch o newEpoch now)
  | .enterRestore now => answerDone s (s.enterRestoreSafeMode o now)
  | .leaveRestore expectedEpoch => answerDone s (s.leaveRestoreSafeMode expectedEpoch)
  | .putRepository id tenantId => answerDone s (s.putRepository id tenantId)
  | .putCapsule id row => answerDone s (s.putCapsule o id row)
  | .putPool id pool => (.ok .done, { s with pools := s.pools.insert id pool })
  | .putRunner id runner => (.ok .done, { s with runners := s.runners.insert id runner })
  | .setQuota tenantId maximum => answerDone s (s.setTenantSchedulerQuota tenantId maximum)
  | .elsewhere f =>
    answerDone s (f s.outside |>.map fun outside => { s with outside })

def initial (outside : E) : Store E where
  fencingEpoch := 1
  safeMode := false
  repositories := ∅
  capsules := ∅
  runs := ∅
  jobs := ∅
  leases := ∅
  runners := ∅
  pools := ∅
  tenantSchedulerQuotas := ∅
  runnerSchedulerCursors := ∅
  runnerJobRejections := ∅
  expandedJobSets := ∅
  sourceSnapshots := ∅
  runSourceSnapshots := ∅
  jobResultObjects := []
  runCreations := ∅
  runCancellations := ∅
  outside

/-! ### A small installation -/

/-- The rest of the program, where every check passes and every document has the digest zero. -/
def quietOutside : Outside Unit where
  write e _ := .ok e
  runnerApprovalSubject _ _ _ _ := .ok ()
  authorizeRequiredApprovals _ _ _ _ := .ok ()
  deploymentJobGateReady _ _ _ _ _ _ := .ok true
  authoritativeRunnerBinding _ _ := .ok "pool"
  hasFleetHistory _ _ := false
  dataCommit _ _ _ _ _ _ _ _ _ := none
  capsuleDigest _ := ⟨0⟩
  parseDigest _ := none
  jobSetLength _ := 1
  jobSetDigest _ := ⟨0⟩
  verifyJobSet _ := .ok ()
  expandedSchedulerJobId recordId jobKey := recordId ++ "/" ++ jobKey
  createRunRequestHash _ := ⟨0⟩
  cancelRequestHash _ _ := ⟨0⟩

def deniedPermissions : Ir.PermissionSet where
  repository := .deny
  scm := {}
  checks := .deny
  artifacts := .deny
  registry := .deny
  network := .deny
  oidcAudiences := []
  cacheRead := .deny
  cacheWrite := .deny
  secrets := []
  signing := []

/-- A job without steps for any runner. -/
def plainJob (id : String) (needs : List String) (concurrency : Option String) : Ir.PlannedJob where
  id := id
  baseId := id
  name := id
  needs := needs
  matrix := ∅
  condition := none
  trust := .untrustedOk
  environment := none
  runner := { os := .linux, arch := .amd64, isolation := .wasm, image := none, cpu := 1, memoryBytes := 1
              storageBytes := none, region := none, capabilities := [] }
  permissions := deniedPermissions
  timeoutMs := 60000
  retries := 0
  concurrency := concurrency
  vars := ∅
  services := []
  steps := []
  finalizers := []
  finalizerTimeoutMs := 0
  valueOutputs := ∅
  outputs := ∅

def plainCapsule (jobs : List Ir.PlannedJob) (dynamicJobs : List Ir.DynamicJobTemplate) :
    Ir.ExecutionCapsule where
  schemaVersion := Ir.capsuleSchemaVersion
  engineCompatibilityVersion := Ir.engineCompatibilityVersion
  compilerVersion := "1"
  workflow := ⟨"w", ⟨0⟩, "w"⟩
  context := { sourceCommit := "c", sourceTreeDigest := none, baseCommit := none, sourceTrust := .trusted
               normalizedEventDigest := ⟨0⟩, normalizedEventJson := none, scm := none, eventContext := ∅
               lockfileDigest := none, workflowFrontend := none, policyVersionIds := [] }
  vars := ∅
  permissions := deniedPermissions
  jobs := jobs
  dynamicJobs := dynamicJobs
  approval := ⟨false, false, []⟩
  expectedParity := .aExact

def plainRunner : Runner where
  poolId := "pool"
  status := .online
  record := { id := "runner", tenantId := "tenant", poolId := "pool", os := .linux, arch := .amd64
              isolationBackends := {.wasm}, logicalCpus := 8, memoryBytes := 8, storageBytes := 8
              maxConcurrentWasmJobs := 8, region := none, verifiedCapabilities := ∅, status := .online
              activeJobs := 0, activeWasmJobs := 0, usedCpus := 0, usedMemoryBytes := 0
              usedStorageBytes := 0, locality := ∅, packageTiers := ∅, lastHeartbeatUnixMs := 0 }
  ephemeral := false
  retired := false
  updatedUnixMs := 1

/-- A remote run of a capsule, its jobs named after the run. -/
def runRequest (id capsuleId : String) (jobs : List Ir.PlannedJob) (created : Nat) : CreateRunRequest where
  id := id
  repositoryId := "repo"
  capsuleId := capsuleId
  priority := 0
  remote := true
  jobs := jobs.map fun job => ⟨id ++ "/" ++ job.id, job.id, 1, plannedSchedulingRequirements job⟩
  createdUnixMs := created

/-- One repository, one pool, one runner. -/
def installation : List (Operation Unit) :=
  [.putRepository "repo" "tenant", .putPool "pool" ⟨"tenant", .active, none⟩,
   .putRunner "runner" plainRunner]

/-- Store a capsule and create its run. -/
def startRun (id : String) (capsule : Ir.ExecutionCapsule) (created : Nat) : List (Operation Unit) :=
  [.putCapsule id ⟨"repo", ⟨0⟩, capsule⟩, .createRun id (runRequest id id capsule.jobs created)]

/-- The completion of a first lease without objects. -/
def completion (leaseId : String) (final : JobState) (now : Nat) : CompletionRequest where
  leaseId := leaseId
  runnerId := "runner"
  generation := 1
  epoch := 1
  resultDigest := ⟨0⟩
  finalJobState := final
  credentialTaint := .none
  jobAttempt := 0
  artifactIds := []
  cacheEntryIds := []
  requiredArtifactNames := []
  completedUnixMs := now

end Runtrue.ControlPlane
