import Runtrue.ControlPlane.Leases

/-!
# Runs, source snapshots, expansions and recovery

The functions that create, change and cancel runs (`runs/runs.rs`, `runs/capsules.rs`, `runs/jobs.rs`), bind
a source snapshot to a run (`runs/source_snapshots.rs`), record and materialize the expansion of a dynamic
template (`workflow/expansions.rs`) and fence every open lease after a restore (`installation.rs`).
-/

namespace Runtrue.ControlPlane

open Fallible
open Scheduling (LeaseState)

def minRunPriority : Int := -1000
def maxRunPriority : Int := 1000

/-! ### Requests -/

/-- The loop over the requested jobs, with the ids seen so far. -/
def validateJobRequests : List String → List CreateJobRequest → Except Error Unit
  | _, [] => .ok ()
  | seen, job :: jobs => do
    validateText job.id
    validateText job.jobKey
    rejectIf (job.attempt = 0 ∨ seen.contains job.id)
      (.invalidInput "job ids must be unique and attempts must start at one")
    validateJobRequests (job.id :: seen) jobs

def validateCreateRun (request : CreateRunRequest) : Except Error Unit := do
  validateText request.id
  validateText request.repositoryId
  validateText request.capsuleId
  rejectIf (request.priority < minRunPriority ∨ maxRunPriority < request.priority)
    (.invalidInput "run priority must be between -1000 and 1000")
  rejectIf (request.jobs = []) (.invalidInput "run must contain jobs")
  validateJobRequests [] request.jobs

def validateRunJobs (capsule : Ir.ExecutionCapsule) (request : CreateRunRequest) : Except Error Unit := do
  rejectIf (capsule.jobs.length ≠ request.jobs.length)
    (.invalidInput "SCM run jobs do not match the signed capsule")
  forEach (capsule.jobs.zip request.jobs) fun pair =>
    rejectIf (pair.2.jobKey ≠ pair.1.id ∨ pair.2.attempt ≠ 1
        ∨ pair.2.requirements ≠ plannedSchedulingRequirements pair.1)
      (.invalidInput "SCM run jobs do not match the signed capsule")

def validateExpandedJobSetRecord {E : Type} (o : Outside E)
    (record : ExpandedJobSetRecord) : Except Error Unit := do
  forEach [record.id, record.tenantId, record.repositoryId, record.runId, record.templateId,
    record.producerJobId, record.producerOutputName, record.signingKeyId] validateText
  let jobSet := record.canonicalJobSet
  rejectIf (record.generatedJobCount = 0 ∨ maxRemoteWorkflowJobs < record.generatedJobCount
      ∨ o.jobSetLength jobSet = 0 ∨ maxExpandedJobSetBytes < o.jobSetLength jobSet
      ∨ record.signature.length ≠ 64)
    (.invalidInput "expanded job set exceeds its signed resource bounds")
  rejectIf (o.jobSetDigest jobSet ≠ record.jobSetDigest
      ∨ jobSet.parentCapsuleDigest ≠ record.parentCapsuleDigest
      ∨ jobSet.producerJobId ≠ record.producerJobId
      ∨ jobSet.producerOutputName ≠ record.producerOutputName
      ∨ jobSet.matrixInputDigest ≠ record.matrixInputDigest ∨ jobSet.policyEpoch ≠ record.policyEpoch
      ∨ jobSet.generatedJobIds.length ≠ record.generatedJobCount
      ∨ jobSet.jobs.length ≠ record.generatedJobCount
      ∨ jobSet.jobs.map (·.id) ≠ jobSet.generatedJobIds ∨ ¬jobSet.generatedJobIds.Nodup)
    .idempotencyConflict
  o.verifyJobSet record

structure MaterializeExpandedJobSet where
  record : ExpandedJobSetRecord
  executionLeaseId : String
  runnerId : String
  fencingGeneration : Nat
  installationFencingEpoch : Nat
  producerJobAttempt : Nat

/-! ### Creation -/

namespace Store

variable {E : Type} (o : Outside E) (s : Store E)

/-- The constraints of the table of jobs. -/
def insertJob (id : String) (job : JobRecord) : Except Error (Store E) := do
  rejectIf (s.jobs.contains id ∨ s.runs.contains job.runId = false ∨ job.attempt = 0
    ∨ (s.jobs.toList.any fun entry => decide (entry.2.runId = job.runId)
      && decide (entry.2.jobKey = job.jobKey) && decide (entry.2.attempt = job.attempt))) .sqlite
  return s.setJob id job

def insertRun (request : CreateRunRequest) : Except Error (Store E) := do
  let created ← toI64 request.createdUnixMs
  rejectIf (s.runs.contains request.id ∨ s.repositories.contains request.repositoryId = false
    ∨ s.capsules.contains request.capsuleId = false) .sqlite
  return s.setRun request.id
    { repositoryId := request.repositoryId, capsuleId := request.capsuleId, status := .created
      priority := request.priority, remote := request.remote, createdUnixMs := created
      startedUnixMs := none, completedUnixMs := none, cancelReason := none }

/-- The jobs of a run that is not remote. -/
def insertJobs (request : CreateRunRequest) : Except Error (Store E) :=
  foldEach (fun s job => s.insertJob job.id
    { runId := request.id, jobKey := job.jobKey, attempt := job.attempt, status := .created
      requirements := job.requirements, createdUnixMs := request.createdUnixMs, completedUnixMs := none
      concurrencyGroup := none, lastGeneration := 0 }) s request.jobs

/-- The row of a static job of a remote run. -/
def capsuleJob (request : CreateRunRequest) (pair : CreateJobRequest × Ir.PlannedJob) (status : JobState)
    (created : Nat) : JobRecord where
  runId := request.id
  jobKey := pair.1.jobKey
  attempt := pair.1.attempt
  status := status
  requirements := pair.1.requirements
  createdUnixMs := created
  completedUnixMs := if status = .blockedPolicy ∨ status = .skipped then some created else none
  concurrencyGroup := pair.2.concurrency
  lastGeneration := 0

def insertCapsuleJob (request : CreateRunRequest) (initial : BTreeMap String JobState) (s : Store E)
    (pair : CreateJobRequest × Ir.PlannedJob) : Except Error (Store E) := do
  let status ← okOr initial[pair.2.id]? (.corruptState "validated capsule job state is missing")
  let created ← toI64 request.createdUnixMs
  s.insertJob pair.1.id (capsuleJob request pair status created)

/-- The jobs of a remote run. -/
def insertJobsForCapsule (request : CreateRunRequest) (capsule : Ir.ExecutionCapsule) :
    Except Error (Store E) := do
  validateRunJobs capsule request
  let sourceReady := s.sourceBindingReady o request.id capsule
  let initial ← initialRemoteJobStates capsule sourceReady
  let s ← foldEach (insertCapsuleJob request initial) s (request.jobs.zip capsule.jobs)
  match request.jobs.head? with
  | some first => s.concludeRunIfTerminal o first.id request.createdUnixMs
  | none => return s

def requireSameIdempotency (stored requested : ContentDigest) : Except Error Unit :=
  rejectIf (stored ≠ requested) .idempotencyConflict

/-- The part of `create_run_idempotent` for a key that was not used before. -/
def createNewRun (request : CreateRunRequest) : Except Error (Store E) := do
  let row ← okOr s.capsules[request.capsuleId]? (.notFound "capsule" request.capsuleId)
  rejectIf (row.repositoryId ≠ request.repositoryId)
    (.invalidInput "capsule does not belong to the requested repository")
  if request.remote then
    validateRunJobs row.capsule request
  o.authorizeRequiredApprovals s.outside request.capsuleId row.capsule.approval request.createdUnixMs
  let s ← s.insertRun request
  let s ← s.send o (.authorizeApprovals request.id request.capsuleId request.createdUnixMs)
  if request.remote then
    s.insertJobsForCapsule o request row.capsule
  else
    s.insertJobs request

def createRunIdempotent (key : String) (request : CreateRunRequest) :
    Except Error ((RunRecord × Bool) × Store E) := do
  validateIdempotencyKey key
  validateCreateRun request
  let requestHash := o.createRunRequestHash request
  match s.runCreations[key]? with
  | some stored =>
    requireSameIdempotency stored.requestHash requestHash
    let run ← s.run stored.resourceId
    return ((run, true), s)
  | none =>
    let s ← s.createNewRun o request
    let s := { s with runCreations := s.runCreations.insert key ⟨requestHash, request.id⟩ }
    let run ← s.run request.id
    return ((run, false), s)

/-! ### Source snapshots -/

def sourceSnapshot (tenantId snapshotId : String) : Except Error SourceSnapshotRecord :=
  okOr (s.sourceSnapshots[snapshotId]?.filter fun snapshot => snapshot.tenantId = tenantId)
    (.notFound "source snapshot" snapshotId)

def createSourceSnapshot (snapshot : SourceSnapshotRecord) :
    Except Error ((SourceSnapshotRecord × Bool) × Store E) := do
  validateText snapshot.id
  validateText snapshot.tenantId
  validateText snapshot.repositoryId
  validateText snapshot.commitSha
  rejectIf (snapshot.state ≠ .building ∨ snapshot.verifiedUnixMs.isSome)
    (.invalidInput "new source snapshot must be building")
  rejectIf (s.repositories[snapshot.repositoryId]? ≠ some snapshot.tenantId)
    (.notFound "repository" snapshot.repositoryId)
  let _ ← toI64 snapshot.createdUnixMs
  -- `INSERT OR IGNORE`: a row with the id or with the same content is kept
  let ignored := s.sourceSnapshots.contains snapshot.id || s.sourceSnapshots.toList.any fun entry =>
    decide (entry.2.tenantId = snapshot.tenantId) && decide (entry.2.repositoryId = snapshot.repositoryId)
      && decide (entry.2.commitSha = snapshot.commitSha)
      && decide (entry.2.treeManifestDigest = snapshot.treeManifestDigest)
  let s := if ignored then s
    else { s with sourceSnapshots := s.sourceSnapshots.insert snapshot.id snapshot }
  let existing ← s.sourceSnapshot snapshot.tenantId snapshot.id
  rejectIf (existing ≠ snapshot) .idempotencyConflict
  return ((existing, ignored), s)

def markSourceSnapshotReady (tenantId snapshotId : String) (manifest : ContentDigest) (verified : Nat) :
    Except Error (SourceSnapshotRecord × Store E) := do
  validateText tenantId
  validateText snapshotId
  let current ← s.sourceSnapshot tenantId snapshotId
  rejectIf (current.treeManifestDigest ≠ manifest) .idempotencyConflict
  let s ← if current.state = .building then do
      let verified ← toI64 verified
      let ready := { current with state := .ready, verifiedUnixMs := some verified }
      pure { s with sourceSnapshots := s.sourceSnapshots.insert snapshotId ready }
    else if current.state = .ready ∧ current.verifiedUnixMs = some verified then pure s
    else .error .idempotencyConflict
  let ready ← s.sourceSnapshot tenantId snapshotId
  return (ready, s)

/-- Queue the jobs without needs of a run whose source has become ready. -/
def queueSourceReadyRoots (runId : String) (capsule : Ir.ExecutionCapsule) : Except Error (Store E) := do
  let states ← initialRemoteJobStates capsule true
  return (states.toList.filter fun p => p.2 = .queued).foldl
    (fun s p => ((s.jobsOf runId).filter fun q => q.2.jobKey = p.1 && q.2.status = .created).foldl
      (fun s q => s.setJob q.1 { q.2 with status := .queued }) s) s

/-- The row bound to a run: the one stored before, or the new one. -/
def bindSource (runId : String) (bound : RunSourceSnapshot) : Store E :=
  if s.runSourceSnapshots.contains runId then s
  else { s with runSourceSnapshots := s.runSourceSnapshots.insert runId bound }

def bindRunSourceSnapshot (tenantId runId snapshotId : String) (capsuleDigest : ContentDigest)
    (bound : Nat) : Except Error (RunSourceSnapshot × Store E) := do
  let notReady := Error.notFound "ready run source snapshot" snapshotId
  let run ← okOr s.runs[runId]? notReady
  let row ← okOr s.capsules[run.capsuleId]? notReady
  let snapshot ← okOr s.sourceSnapshots[snapshotId]? notReady
  rejectIf (s.tenantOf run ≠ some tenantId ∨ snapshot.tenantId ≠ tenantId
    ∨ snapshot.repositoryId ≠ run.repositoryId ∨ snapshot.state ≠ .ready ∨ row.digest ≠ capsuleDigest) notReady
  rejectIf (row.capsule.context.sourceTreeDigest ≠ some snapshot.treeManifestDigest
    ∨ row.capsule.context.sourceCommit ≠ snapshot.commitSha) .idempotencyConflict
  let bound ← toI64 bound
  let s := s.bindSource runId ⟨snapshotId, capsuleDigest, bound⟩
  let record ← okOr s.runSourceSnapshots[runId]? .sqlite
  rejectIf (record.sourceSnapshotId ≠ snapshotId ∨ record.capsuleDigest ≠ capsuleDigest) .idempotencyConflict
  let s ← s.queueSourceReadyRoots runId row.capsule
  return (record, s)

/-! ### Runs of the SCM pipeline -/

/-- `bind_run_source_snapshot_tx`: the binding of a run that is being created. -/
def bindNewRun (request : CreateRunRequest) (row : CapsuleRow) (snapshotId : String) (bound : Nat) :
    Except Error (Store E) := do
  let snapshot ← okOr s.sourceSnapshots[snapshotId]? (.notFound "source snapshot" snapshotId)
  rejectIf (snapshot.state ≠ .ready ∨ snapshot.repositoryId ≠ request.repositoryId
    ∨ snapshot.commitSha ≠ row.capsule.context.sourceCommit
    ∨ row.capsule.context.sourceTreeDigest ≠ some snapshot.treeManifestDigest) .idempotencyConflict
  rejectIf (s.repositories[request.repositoryId]? ≠ some snapshot.tenantId)
    (.notFound "ready run source snapshot" snapshotId)
  let bound ← toI64 bound
  rejectIf (s.runSourceSnapshots.contains request.id) .sqlite
  return s.bindSource request.id ⟨snapshotId, row.digest, bound⟩

/-- The part of an SCM planning pass that creates one remote run: its capsule if it is new, the run, its
source and its jobs. -/
def createScmRun (newCapsule : Option CapsuleRow) (request : CreateRunRequest) (snapshotId : Option String)
    (now : Nat) : Except Error (Store E) := do
  let s ← match newCapsule with
    | some row => do
      rejectIf (s.capsules.contains request.capsuleId ∨ o.capsuleDigest row.capsule ≠ row.digest) .sqlite
      pure { s with capsules := s.capsules.insert request.capsuleId row }
    | none => pure s
  let row ← okOr s.capsules[request.capsuleId]? (.notFound "capsule" request.capsuleId)
  rejectIf (row.repositoryId ≠ request.repositoryId ∨ request.remote = false)
    (.invalidInput "SCM capsule, metadata, and exact remote run do not match")
  validateCreateRun request
  let s ← s.insertRun request
  let s ← match snapshotId with
    | some snapshotId => s.bindNewRun request row snapshotId now
    | none => pure s
  let s ← s.insertJobsForCapsule o request row.capsule
  s.send o (.recordScmResult request.id)

/-! ### Transitions and cancellation -/

def transitionRunState (runId : String) (next : RunState) (now : Nat) :
    Except Error (RunRecord × Store E) := do
  let current ← s.run runId
  rejectIf (current.status.canTransitionTo next = false) (.invalidRunTransition current.status next)
  let now ← toI64 now
  let s := s.setRun runId { current with
    status := next
    startedUnixMs := current.startedUnixMs.or (if next = .running then some now else none)
    completedUnixMs := current.completedUnixMs.or (if next.isTerminal then some now else none) }
  let value ← s.run runId
  if value.status.isTerminal then
    let s ← s.send o (.enqueueTerminalScmCheck runId value.status now)
    return (value, s)
  else
    return (value, s)

def transitionJobState (jobId : String) (next : JobState) (now : Nat) :
    Except Error (JobRecord × Store E) := do
  let s ← s.transitionJob jobId next now
  let s ← if next.isFinished then s.concludeRunIfTerminal o jobId now else pure s
  let value ← s.job jobId
  return (value, s)

def lastOpenLease (jobId : String) : Option (String × Lease) :=
  ((s.openLeasesOf jobId).insertionSort fun a b => b.2.issuedUnixMs ≤ a.2.issuedUnixMs).head?

/-- Cancel one job of a run that is being cancelled: at once if no runner works on it, else by a request to
its runner. -/
def cancelJob (now : Nat) (s : Store E) (entry : String × JobState) : Except Error (Store E) :=
  match s.lastOpenLease entry.1 with
  | some (leaseId, lease) => do
    let s ← s.send o (.revokeRunnerBrokerState leaseId lease.fencingGeneration now "revoked")
    if lease.state = .offered then
      let s := s.setLeaseState leaseId lease .rejected
      if entry.2.canTransitionTo .canceled then s.transitionJob entry.1 .canceled now else return s
    else
      return s.setLeaseState leaseId lease .cancelRequested
  | none => do
    if entry.2.canTransitionTo .canceled then
      let now ← toI64 now
      let job ← okOr s.jobs[entry.1]? .sqlite
      return s.setJob entry.1 { job with status := .canceled, completedUnixMs := some now }
    else
      return s

/-- A runner still works on a job of the run. -/
def hasActiveFence (runId : String) : Bool :=
  s.leases.toList.any fun entry =>
    (entry.2.state matches .active | .cancelRequested)
      && (s.jobs[entry.2.jobId]?).any fun job => decide (job.runId = runId)

/-- The part of `cancel_run_idempotent` for a run that has not concluded. -/
def cancelOpenRun (runId : String) (run : RunRecord) (reason : String) (now : Nat) :
    Except Error (Store E) := do
  let s := s.setRun runId { run with cancelReason := run.cancelReason.or (some reason) }
  let s ← foldEach (cancelJob o now) s ((s.jobsOf runId).map fun p => (p.1, p.2.status))
  if s.hasActiveFence runId then
    return s
  else
    let now ← toI64 now
    let run ← s.run runId
    return s.setRun runId { run with status := .canceled, completedUnixMs := some now }

def cancelRunIdempotent (key runId reason : String) (now : Nat) :
    Except Error ((RunRecord × Bool) × Store E) := do
  validateIdempotencyKey key
  validateText reason
  let requestHash := o.cancelRequestHash runId reason
  match s.runCancellations[key]? with
  | some stored =>
    requireSameIdempotency stored.requestHash requestHash
    let run ← s.run stored.resourceId
    return ((run, true), s)
  | none =>
    let run ← s.run runId
    rejectIf (run.status ≠ .canceled ∧ run.status.isTerminal) (.invalidRunTransition run.status .canceled)
    let s ← if run.status = .canceled then pure s else s.cancelOpenRun o runId run reason now
    let _ ← toI64 now
    let s := { s with runCancellations := s.runCancellations.insert key ⟨requestHash, runId⟩ }
    let value ← s.run runId
    if value.status.isTerminal then
      let s ← s.send o (.enqueueTerminalScmCheck runId value.status now)
      return ((value, false), s)
    else
      return ((value, false), s)

/-! ### Expansions -/

/-- The capsule and the template an expansion belongs to. -/
def authorizeExpandedJobSet (record : ExpandedJobSetRecord) :
    Except Error (Ir.ExecutionCapsule × Ir.DynamicJobTemplate) := do
  let run ← okOr s.runs[record.runId]? (.notFound "run" record.runId)
  let row ← okOr s.capsules[run.capsuleId]? (.notFound "run" record.runId)
  rejectIf (run.repositoryId ≠ record.repositoryId ∨ s.tenantOf run ≠ some record.tenantId
    ∨ row.digest ≠ record.parentCapsuleDigest) (.notFound "run" record.runId)
  let template ← okOr (row.capsule.dynamicJobs.find? fun template => template.id = record.templateId)
    .idempotencyConflict
  let jobSet := record.canonicalJobSet
  rejectIf (template.source.producerJobId ≠ jobSet.producerJobId
    ∨ template.source.outputName ≠ jobSet.producerOutputName
    ∨ template.source.maximumJobs < jobSet.jobs.length) .idempotencyConflict
  forEach jobSet.jobs fun expanded =>
    rejectIf (isExpansionOf template.template expanded = false) .idempotencyConflict
  return (row.capsule, template)

/-- Store an expansion, or find it stored before. -/
def persistExpandedJobSet (record : ExpandedJobSetRecord) : Except Error (Bool × Store E) :=
  match (s.expandedJobSets.values.filter fun stored => decide (stored.tenantId = record.tenantId)
      && decide (stored.repositoryId = record.repositoryId) && decide (stored.runId = record.runId)
      && decide (stored.templateId = record.templateId)).head? with
  | some stored => do
    -- the columns are compared in order, and a number is converted when it is compared
    rejectIf (stored.id ≠ record.id ∨ stored.parentCapsuleDigest ≠ record.parentCapsuleDigest
      ∨ stored.producerJobId ≠ record.producerJobId ∨ stored.producerOutputName ≠ record.producerOutputName
      ∨ stored.matrixInputDigest ≠ record.matrixInputDigest) .idempotencyConflict
    let policyEpoch ← toI64 record.policyEpoch
    rejectIf (stored.policyEpoch ≠ policyEpoch) .idempotencyConflict
    let generatedJobCount ← toI64 record.generatedJobCount
    rejectIf (stored.generatedJobCount ≠ generatedJobCount ∨ stored.canonicalJobSet ≠ record.canonicalJobSet
      ∨ stored.jobSetDigest ≠ record.jobSetDigest ∨ stored.signingKeyId ≠ record.signingKeyId
      ∨ stored.signature ≠ record.signature) .idempotencyConflict
    let createdUnixMs ← toI64 record.createdUnixMs
    rejectIf (stored.createdUnixMs ≠ createdUnixMs) .idempotencyConflict
    return (true, s)
  | none => do
    forEach [record.policyEpoch, record.generatedJobCount, record.createdUnixMs] fun value => do
      let _ ← toI64 value
      return ()
    rejectIf (s.expandedJobSets.contains record.id
      ∨ (s.expandedJobSets.toList.any fun entry => (decide (entry.2.runId = record.runId)
          && decide (entry.2.templateId = record.templateId))
        || (decide (entry.2.tenantId = record.tenantId)
          && decide (entry.2.jobSetDigest = record.jobSetDigest)))) .sqlite
    return (false, { s with expandedJobSets := s.expandedJobSets.insert record.id record })

def recordExpandedJobSet (record : ExpandedJobSetRecord) : Except Error (Bool × Store E) := do
  validateExpandedJobSetRecord o record
  let _ ← s.authorizeExpandedJobSet record
  let persisted ← s.persistExpandedJobSet record
  if persisted.1 then
    return persisted
  else
    let s ← persisted.2.send o (.appendExpansionAudit record.id record.createdUnixMs)
    return (false, s)

def jobByKey (runId jobKey : String) : Option (String × JobRecord) :=
  (s.jobsOf runId).find? fun p => p.2.jobKey = jobKey

/-- An expanded job that is already there is the one this expansion creates. -/
def matchesExpandedJob (record : ExpandedJobSetRecord) (planned : Ir.PlannedJob) : Except Error Bool := do
  validateText planned.id
  match s.jobByKey record.runId planned.id with
  | none => return false
  | some (id, job) =>
    rejectIf (id ≠ o.expandedSchedulerJobId record.id planned.id ∨ job.attempt ≠ 1
      ∨ job.requirements ≠ plannedSchedulingRequirements planned
      ∨ job.concurrencyGroup ≠ planned.concurrency) .idempotencyConflict
    return true

def expandedJob (record : ExpandedJobSetRecord) (planned : Ir.PlannedJob) (status : JobState) (created : Nat) :
    JobRecord where
  runId := record.runId
  jobKey := planned.id
  attempt := 1
  status := status
  requirements := plannedSchedulingRequirements planned
  createdUnixMs := created
  completedUnixMs := if status.isFinished then some created else none
  concurrencyGroup := planned.concurrency
  lastGeneration := 0

def insertExpandedJob (record : ExpandedJobSetRecord) (capsule : Ir.ExecutionCapsule)
    (template : Ir.DynamicJobTemplate) (states : BTreeMap String JobState) (s : Store E)
    (planned : Ir.PlannedJob) : Except Error (Store E) := do
  rejectIf (planned.needs ≠ template.template.needs) .idempotencyConflict
  let dependencies ← dependencyStates states
    (.corruptState "expanded job dependency is absent from its run") planned.needs
  let status := if satisfies capsule.context.sourceTrust planned.trust = false then .blockedPolicy
    else (dependencyOutcome dependencies).getD .created
  let created ← toI64 record.createdUnixMs
  s.insertJob (o.expandedSchedulerJobId record.id planned.id) (expandedJob record planned status created)

def materializeExpandedJobs (record : ExpandedJobSetRecord) (capsule : Ir.ExecutionCapsule)
    (template : Ir.DynamicJobTemplate) : Except Error (Nat × Store E) := do
  let jobSet := record.canonicalJobSet
  let expandedTotal := ((s.expansionsOf record.runId).map (·.generatedJobCount)).sum
  rejectIf (maxRemoteWorkflowJobs < capsule.jobs.length + expandedTotal)
    (.invalidInput "materialized run exceeds the signed workflow job bound")
  let existing ← mapEach (s.matchesExpandedJob o record) jobSet.jobs
  if existing.all id then
    return (0, s)
  else
    rejectIf (existing.any id) (.corruptState "expanded scheduler job materialization is partial")
    let s ← foldEach (insertExpandedJob o record capsule template (s.jobStates record.runId)) s jobSet.jobs
    return (jobSet.jobs.length, s)

/-- The lease belongs to the producer the record names. -/
def isProducerLease (request : MaterializeExpandedJobSet) : Bool :=
  (s.leases[request.executionLeaseId]?).any fun lease => (s.jobs[lease.jobId]?).any fun job =>
    decide (job.runId = request.record.runId) && decide (job.jobKey = request.record.producerJobId)
      && decide (job.attempt = request.producerJobAttempt)
      && (s.runs[job.runId]?).any fun run =>
        decide (run.repositoryId = request.record.repositoryId)
          && decide (s.tenantOf run = some request.record.tenantId)

def materializeExpandedJobSet (request : MaterializeExpandedJobSet) :
    Except Error ((Bool × Nat) × Store E) := do
  validateText request.executionLeaseId
  validateText request.runnerId
  rejectIf (request.fencingGeneration = 0 ∨ request.installationFencingEpoch = 0
    ∨ request.producerJobAttempt = 0) .runnerBrokerBindingMismatch
  validateExpandedJobSetRecord o request.record
  rejectIf (s.isProducerLease request = false) (.notFound "run" request.record.runId)
  let lease ← s.validateLeaseFence request.executionLeaseId request.runnerId request.fencingGeneration
    request.installationFencingEpoch
  rejectIf (lease.state ≠ .active ∨ request.record.createdUnixMs < lease.issuedUnixMs
    ∨ lease.expiresUnixMs ≤ request.record.createdUnixMs) .runnerBrokerBindingMismatch
  let parent ← s.authorizeExpandedJobSet request.record
  let persisted ← s.persistExpandedJobSet request.record
  let s ← if persisted.1 then pure persisted.2
    else persisted.2.send o (.appendExpansionAudit request.record.id request.record.createdUnixMs)
  let inserted ← s.materializeExpandedJobs o request.record parent.1 parent.2
  let s ← if inserted.1 = 0 then pure inserted.2
    else inserted.2.send o (.appendExpansionAudit request.record.id request.record.createdUnixMs)
  return ((persisted.1, inserted.1), s)

/-! ### Recovery -/

/-- Lose the job behind an open lease and expire the lease. -/
def fenceLease (now : Nat) (s : Store E) (entry : String × Lease) : Except Error (Store E) := do
  let now ← toI64 now
  let s := match s.jobs[entry.2.jobId]? with
    | some job => if job.status.canTransitionTo .lost then
        s.setJob entry.2.jobId { job with status := .lost, completedUnixMs := some now } else s
    | none => s
  return s.setLeaseState entry.1 entry.2 .expired

def fenceOpenLeases (now : Nat) : Except Error (Store E) := do
  let s ← foldEach (fenceLease now) s (s.leases.toList.filter fun entry => entry.2.isOpen)
  let now ← toI64 now
  s.send o (.fenceCopiedAuthority now)

def advanceInstallationFencingEpoch (newEpoch now : Nat) : Except Error (Store E) := do
  rejectIf (newEpoch ≤ s.fencingEpoch) (.epochMustIncrease s.fencingEpoch newEpoch)
  let newEpoch ← toI64 newEpoch
  fenceOpenLeases o { s with fencingEpoch := newEpoch } now

def enterRestoreSafeMode (now : Nat) : Except Error (Store E) := do
  let newEpoch ← checkedAdd "fencing_epoch" s.fencingEpoch 1
  let newEpoch ← toI64 newEpoch
  let now ← toI64 now
  fenceOpenLeases o { s with fencingEpoch := newEpoch, safeMode := true } now

def leaveRestoreSafeMode (expectedEpoch : Nat) : Except Error (Store E) := do
  rejectIf (s.safeMode = false) .notInRestoreSafeMode
  rejectIf (s.fencingEpoch ≠ expectedEpoch) (.restoreEpochMismatch s.fencingEpoch expectedEpoch)
  rejectIf (s.leases.toList.any fun entry => entry.2.isOpen) .restoreHasOpenLeases
  return { s with safeMode := false }

end Store

end Runtrue.ControlPlane
