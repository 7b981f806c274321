import Runtrue.Base.Collect
import Runtrue.Model.Lifecycle
import Runtrue.Scheduling.Model
import Runtrue.Workflow.Ir

/-!
# The tables of the control plane

The durable store of the `control-plane` crate, as far as the placement of jobs depends on it: runs with
their capsules, jobs with their fencing generation, leases, runners with their pools, tenant quotas, the
bookkeeping of offers, dynamic expansions, source snapshots, completion objects, idempotency records and the
installation's epoch. A table is an ordered map from its primary key.

Numbers are natural: `u64` inputs are checked where the source converts them (`toI64` for an SQLite integer,
`checkedAdd`). A column that holds a canonical document holds the decoded document.

Every other table is part of an abstract value `outside : E`. What the modelled functions read there and the
statements they send there are the fields of `Outside E`; nothing is assumed of them.
-/

/-- Leased, preparing, running or finalizing: the states of a job with an open lease. -/
def Runtrue.JobState.isHeld (state : JobState) : Bool :=
  state matches .leased | .preparing | .running | .finalizing

theorem Runtrue.JobState.isTerminal_of_isHeld {state : JobState} (h : state.isHeld = true) :
    state.isTerminal = false := by
  revert h
  cases state <;> decide

namespace Runtrue.ControlPlane

open Scheduling (LeaseState RunnerRecord RunnerStatus SchedulingRequirements)

/-! ### Rows -/

inductive RunnerPoolStatus
  | active | disabled
deriving DecidableEq

inductive SourceSnapshotState
  | building | ready | failed | retired
deriving DecidableEq

inductive CredentialTaintState
  | unknown | none | credentialReleased
deriving DecidableEq

inductive RunnerDataCommitKind
  | artifact | cache
deriving DecidableEq

structure CapsuleRow where
  repositoryId : String
  digest : ContentDigest
  capsule : Ir.ExecutionCapsule

structure RunRecord where
  repositoryId : String
  capsuleId : String
  status : RunState
  priority : Int
  remote : Bool
  createdUnixMs : Nat
  startedUnixMs : Option Nat
  completedUnixMs : Option Nat
  cancelReason : Option String
deriving DecidableEq

structure JobRecord where
  runId : String
  jobKey : String
  attempt : Nat
  status : JobState
  requirements : SchedulingRequirements
  createdUnixMs : Nat
  completedUnixMs : Option Nat
  concurrencyGroup : Option String
  /-- The row of `job_fencing`. -/
  lastGeneration : Nat
deriving DecidableEq

structure Lease where
  jobId : String
  tenantId : String
  runnerId : String
  fencingGeneration : Nat
  installationFencingEpoch : Nat
  capsuleDigest : ContentDigest
  issuedUnixMs : Nat
  acceptByUnixMs : Nat
  expiresUnixMs : Nat
  hardDeadlineUnixMs : Nat
  state : LeaseState
  terminalResultDigest : Option ContentDigest
  terminalJobState : Option JobState
  completedUnixMs : Option Nat
  /-- `none` is the text `unobserved`. -/
  terminalCredentialTaint : Option CredentialTaintState
deriving DecidableEq

structure Runner where
  poolId : String
  status : RunnerStatus
  record : RunnerRecord
  ephemeral : Bool
  retired : Bool
  updatedUnixMs : Nat

structure Pool where
  tenantId : String
  status : RunnerPoolStatus
  region : Option String
deriving DecidableEq

structure RunnerJobRejection where
  rejectionCount : Nat
  lastCode : String
  updatedUnixMs : Nat
deriving DecidableEq

structure ExpandedJobSet where
  version : Nat
  parentCapsuleDigest : ContentDigest
  producerJobId : String
  producerOutputName : String
  matrixInputDigest : ContentDigest
  generatedJobIds : List String
  jobs : List Ir.PlannedJob
  policyEpoch : Nat

structure ExpandedJobSetRecord where
  id : String
  tenantId : String
  repositoryId : String
  runId : String
  parentCapsuleDigest : ContentDigest
  templateId : String
  producerJobId : String
  producerOutputName : String
  matrixInputDigest : ContentDigest
  policyEpoch : Nat
  generatedJobCount : Nat
  canonicalJobSet : ExpandedJobSet
  jobSetDigest : ContentDigest
  signingKeyId : String
  signature : List UInt8
  createdUnixMs : Nat

structure SourceSnapshotRecord where
  id : String
  tenantId : String
  repositoryId : String
  commitSha : String
  treeManifestDigest : ContentDigest
  state : SourceSnapshotState
  createdUnixMs : Nat
  verifiedUnixMs : Option Nat
deriving DecidableEq

structure RunSourceSnapshot where
  sourceSnapshotId : String
  capsuleDigest : ContentDigest
  boundUnixMs : Nat
deriving DecidableEq

structure JobResultObject where
  jobId : String
  jobAttempt : Nat
  kind : RunnerDataCommitKind
  objectId : String
  ordinal : Nat
deriving DecidableEq

structure IdempotencyRecord where
  requestHash : ContentDigest
  resourceId : String
deriving DecidableEq

structure CreateJobRequest where
  id : String
  jobKey : String
  attempt : Nat
  requirements : SchedulingRequirements
deriving DecidableEq

structure CreateRunRequest where
  id : String
  repositoryId : String
  capsuleId : String
  priority : Int
  remote : Bool
  jobs : List CreateJobRequest
  createdUnixMs : Nat
deriving DecidableEq

/-! Planned jobs are compared with their template. -/

instance BTreeMap.decidableEq {K V : Type} [Ord K] [Std.TransOrd K] [Std.LawfulEqOrd K] [DecidableEq K]
    [DecidableEq V] : DecidableEq (BTreeMap K V) := fun m m' =>
  decidable_of_iff (m.toList = m'.toList) <| by
    constructor
    · intro h
      refine Std.ExtTreeMap.ext_getElem? fun k => Option.ext fun v => ?_
      rw [← BTreeMap.mem_toList (p := (k, v)), h, BTreeMap.mem_toList]
    · rintro rfl
      rfl

deriving instance DecidableEq for Ir.PlannedStep
deriving instance DecidableEq for Ir.PlannedFinalizer
deriving instance DecidableEq for Ir.PlannedService
deriving instance DecidableEq for Ir.PlannedJob
deriving instance DecidableEq for ExpandedJobSet

/-! ### Errors -/

inductive Error
  /-- A missing row of a query that must return one, or a violated constraint. -/
  | sqlite
  | notFound (kind id : String)
  | invalidInput (message : String)
  | corruptState (message : String)
  | invalidJobTransition (current next : JobState)
  | invalidRunTransition (current next : RunState)
  | integerRange (field : String)
  | staleInstallationEpoch (expected actual : Nat)
  | staleLeaseGeneration (expected actual : Nat)
  | wrongRunner
  | invalidLeaseState (expected : String) (actual : LeaseState)
  | leaseOfferExpired
  | leaseExpired
  | installationSafeMode
  | approvalRequired
  | runnerInventoryMismatch
  | nonCanonicalCapsule
  | runnerBrokerBindingMismatch
  | conflictingCompletion
  | idempotencyConflict
  | epochMustIncrease (current proposed : Nat)
  | notInRestoreSafeMode
  | restoreEpochMismatch (expected actual : Nat)
  | restoreHasOpenLeases
  /-- An error of a function outside the model. -/
  | other (message : String)
deriving DecidableEq

/-! ### The other tables -/

/-- The statements sent to other tables. -/
inductive Write
  | revokeRunnerBrokerState (leaseId : String) (generation now : Nat) (terminalState : String)
  | appendRevocationAudit (leaseId runnerId tenantId : String) (now : Nat)
  | enqueueTerminalScmCheck (runId : String) (status : RunState) (now : Nat)
  | bindDeploymentGateOffer (tenantId jobId : String) (attempt : Nat) (leaseId : String)
      (generation epoch now : Nat)
  | withholdTaintedResults (leaseId jobId : String)
  | authorizeApprovals (runId capsuleId : String) (now : Nat)
  | deleteEnrollment (runnerId : String)
  | fenceCopiedAuthority (now : Nat)
  | appendExpansionAudit (recordId : String) (now : Nat)
  | recordScmResult (runId : String)

/-- What the modelled functions use of the rest of the program. -/
structure Outside (E : Type) where
  write : E → Write → Except Error E
  runnerApprovalSubject : E → (capsuleId runId : String) → Ir.ApprovalRequirements → Except Error Unit
  authorizeRequiredApprovals : E → (capsuleId : String) → Ir.ApprovalRequirements → (now : Nat) →
    Except Error Unit
  deploymentJobGateReady : E → (tenantId jobId : String) → (attempt : Nat) → Ir.PlannedJob → (now : Nat) →
    Except Error Bool
  /-- The pool of `authoritative_runner_binding_tx`. -/
  authoritativeRunnerBinding : E → (runnerId : String) → Except Error String
  /-- Fleet requests, launch claims, slots, replacements or update claims name the runner. -/
  hasFleetHistory : E → (runnerId : String) → Bool
  /-- The row of `runner_data_commits` bound to a lease: its optional output name. -/
  dataCommit : E → RunnerDataCommitKind → (objectId tenantId runId jobId : String) → (attempt : Nat) →
    (leaseId : String) → (generation : Nat) → Option (Option String)
  capsuleDigest : Ir.ExecutionCapsule → ContentDigest
  parseDigest : String → Option ContentDigest
  jobSetLength : ExpandedJobSet → Nat
  jobSetDigest : ExpandedJobSet → ContentDigest
  verifyJobSet : ExpandedJobSetRecord → Except Error Unit
  expandedSchedulerJobId : (recordId jobKey : String) → String
  createRunRequestHash : CreateRunRequest → ContentDigest
  cancelRequestHash : (runId reason : String) → ContentDigest

/-! ### The store -/

structure Store (E : Type) where
  fencingEpoch : Nat
  safeMode : Bool
  /-- The tenant of a repository. -/
  repositories : BTreeMap String String
  capsules : BTreeMap String CapsuleRow
  runs : BTreeMap String RunRecord
  jobs : BTreeMap String JobRecord
  leases : BTreeMap String Lease
  runners : BTreeMap String Runner
  pools : BTreeMap String Pool
  tenantSchedulerQuotas : BTreeMap String Nat
  runnerSchedulerCursors : BTreeMap String String
  /-- By runner, then by job. -/
  runnerJobRejections : BTreeMap String (BTreeMap String RunnerJobRejection)
  expandedJobSets : BTreeMap String ExpandedJobSetRecord
  sourceSnapshots : BTreeMap String SourceSnapshotRecord
  runSourceSnapshots : BTreeMap String RunSourceSnapshot
  jobResultObjects : List JobResultObject
  runCreations : BTreeMap String IdempotencyRecord
  runCancellations : BTreeMap String IdempotencyRecord
  outside : E

def maxTextBytes : Nat := 8 * 1024
def maxIdempotencyKeyBytes : Nat := 200
def maxSchedulerCandidates : Nat := 128
def maxMaintenanceLeases : Nat := 64
def maxMaintenanceRunners : Nat := 64
def defaultTenantMaximumRunningJobs : Nat := 1000
def defaultRunnerOfflineAfterMs : Nat := 60000
def defaultEphemeralRunnerRetentionMs : Nat := 5 * 60000
def leaseAcceptWindowMs : Nat := 15000
def leaseExtensionMs : Nat := 60000
def leaseSetupGraceMs : Nat := 5 * 60 * 1000
def priorityAgingIntervalMs : Nat := 60000
def maxExpandedJobSetBytes : Nat := 8 * 1024 * 1024
def maxRemoteWorkflowJobs : Nat := 1024
def imageAdmissionRetryDelayMillis : Nat := 1000
def maxRunnerJobRejections : Nat := 3

/-! ### Checks of values -/

open Fallible

/-- A `u64` as an SQLite integer. -/
def toI64 (value : Nat) : Except Error Nat := do
  rejectIf (2 ^ 63 ≤ value) (.integerRange "u64")
  return value

theorem toI64_eq_ok {value result : Nat} (h : toI64 value = .ok result) : result = value := by
  simp only [toI64, bind_eq_ok, exists_unit, pure_eq_ok] at h
  exact h.2.symm

def checkedAdd (field : String) (a b : Nat) : Except Error Nat := do
  rejectIf (2 ^ 64 ≤ a + b) (.integerRange field)
  return a + b

def saturatingAdd (a b : Nat) : Nat := min (a + b) (2 ^ 64 - 1)

def validateIdempotencyKey (value : String) : Except Error Unit :=
  rejectIf (value.isEmpty ∨ maxIdempotencyKeyBytes < value.utf8ByteSize ∨ value.toList.contains '\x00')
    (.invalidInput "invalid idempotency key")

def validateText (value : String) : Except Error Unit :=
  rejectIf (value.isEmpty ∨ maxTextBytes < value.utf8ByteSize ∨ value.toList.contains '\x00')
    (.invalidInput "empty, oversized, or NUL text")

/-! ### Queries and single updates -/

/-- Offered, active or asked to cancel. -/
def Lease.isOpen (lease : Lease) : Bool := lease.state matches .offered | .active | .cancelRequested

namespace Store

variable {E : Type} (s : Store E)

def job (id : String) : Except Error JobRecord := okOr s.jobs[id]? (.notFound "job" id)

def run (id : String) : Except Error RunRecord := okOr s.runs[id]? (.notFound "run" id)

def lease (id : String) : Except Error Lease := okOr s.leases[id]? (.notFound "lease" id)

/-- The tenant of a run's repository. -/
def tenantOf (run : RunRecord) : Option String := s.repositories[run.repositoryId]?

/-- The rows of a run's jobs, by job id. -/
def jobsOf (runId : String) : List (String × JobRecord) := s.jobs.toList.filter fun p => p.2.runId = runId

def setJob (id : String) (job : JobRecord) : Store E := { s with jobs := s.jobs.insert id job }

def setLease (id : String) (lease : Lease) : Store E := { s with leases := s.leases.insert id lease }

def setRun (id : String) (run : RunRecord) : Store E := { s with runs := s.runs.insert id run }

/-- Send a statement to another table. -/
def send (o : Outside E) (w : Write) : Except Error (Store E) := do
  let outside ← o.write s.outside w
  return { s with outside }

theorem setJob_setJob (id : String) (job job' : JobRecord) : (s.setJob id job).setJob id job' = s.setJob id job' := by
  simp only [setJob, BTreeMap.insert_insert]

end Store

end Runtrue.ControlPlane
