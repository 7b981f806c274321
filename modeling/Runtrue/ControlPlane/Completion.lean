import Runtrue.ControlPlane.Leases

/-!
# The completion of a lease

`runners/leases/completion.rs`. A completion is two transactions: the first records the credential taint
(`recordCompletionTaint`), the second ends the lease under the taint the first one found
(`completeUnderTaint`). Other calls may come between the two, so they are two operations; between them the
call refuses objects that the taint forbids (`refuseTaintedObjects`).
-/

namespace Runtrue.ControlPlane

open Fallible

/-- The arguments of `complete_lease_with_objects`. -/
structure CompletionRequest where
  leaseId : String
  runnerId : String
  generation : Nat
  epoch : Nat
  resultDigest : ContentDigest
  finalJobState : JobState
  credentialTaint : CredentialTaintState
  jobAttempt : Nat
  artifactIds : List String
  cacheEntryIds : List String
  requiredArtifactNames : List String
  completedUnixMs : Nat
deriving DecidableEq

def CompletionRequest.submitted (request : CompletionRequest) : RunnerDataCommitKind → List String
  | .artifact => request.artifactIds
  | .cache => request.cacheEntryIds

def CredentialTaintState.permitsReplayOrCheckpoint : CredentialTaintState → Bool
  | .none => true
  | .unknown | .credentialReleased => false

/-- The taint to store for a lease whose stored taint is `stored`; an attempt to lower it is refused. -/
def effectiveTaint : Option CredentialTaintState → CredentialTaintState → Except Error CredentialTaintState
  | none, incoming => .ok incoming
  | some .none, incoming => .ok incoming
  | some .unknown, .credentialReleased => .ok .credentialReleased
  | some .unknown, .unknown => .ok .unknown
  | some .unknown, .none => .error .runnerBrokerBindingMismatch
  | some .credentialReleased, .credentialReleased => .ok .credentialReleased
  | some .credentialReleased, _ => .error .runnerBrokerBindingMismatch

/-- The check between the two transactions. -/
def refuseTaintedObjects (request : CompletionRequest) (taint : CredentialTaintState) : Except Error Unit :=
  rejectIf (taint.permitsReplayOrCheckpoint = false ∧ (request.artifactIds ≠ [] ∨ request.cacheEntryIds ≠ []))
    .runnerBrokerBindingMismatch

namespace Store

variable {E : Type} (o : Outside E) (s : Store E)

/-- The first transaction. -/
def recordCompletionTaint (request : CompletionRequest) :
    Except Error (CredentialTaintState × Store E) := do
  rejectIf (request.finalJobState.isTerminal = false)
    (.invalidInput "lease completion requires a terminal job state")
  let lease ← s.validateLeaseFence request.leaseId request.runnerId request.generation request.epoch
  let effective ← effectiveTaint lease.terminalCredentialTaint request.credentialTaint
  let s := s.setLease request.leaseId { lease with terminalCredentialTaint := some effective }
  if effective.permitsReplayOrCheckpoint then
    return (effective, s)
  else
    let s ← s.send o (.withholdTaintedResults request.leaseId lease.jobId)
    return (effective, s)

/-! ### Objects -/

def storedObjects (jobId : String) (attempt : Nat) (kind : RunnerDataCommitKind) : List String :=
  ((s.jobResultObjects.filter fun object => decide (object.jobId = jobId)
    && decide (object.jobAttempt = attempt) && decide (object.kind = kind)).insertionSort
      fun a b => a.ordinal ≤ b.ordinal).map (·.objectId)

/-- The constraints of the table of completion objects. -/
def insertResultObject (object : JobResultObject) : Except Error (Store E) := do
  rejectIf (s.jobResultObjects.any fun stored => decide (stored.jobId = object.jobId)
      && decide (stored.jobAttempt = object.jobAttempt) && decide (stored.kind = object.kind)
      && (decide (stored.objectId = object.objectId) || decide (stored.ordinal = object.ordinal))) .sqlite
  return { s with jobResultObjects := s.jobResultObjects ++ [object] }

/-- Bind one object to the job: it was committed under this lease, and an artifact has a name no earlier
artifact has. -/
def bindResultObject (request : CompletionRequest) (lease : Lease) (kind : RunnerDataCommitKind)
    (state : Store E × List String) (object : String × Nat) : Except Error (Store E × List String) := do
  validateText object.1
  rejectIf (((request.submitted kind).take object.2).contains object.1) .runnerBrokerBindingMismatch
  let job ← okOr state.1.jobs[lease.jobId]? .sqlite
  let outputName ← okOr (o.dataCommit state.1.outside kind object.1 lease.tenantId job.runId lease.jobId
    request.jobAttempt request.leaseId request.generation) .runnerBrokerBindingMismatch
  let names ← match kind with
    | .artifact => do
      let name ← okOr outputName .runnerBrokerBindingMismatch
      rejectIf (state.2.contains name) .runnerBrokerBindingMismatch
      pure (name :: state.2)
    | .cache => pure state.2
  let s ← state.1.insertResultObject ⟨lease.jobId, request.jobAttempt, kind, object.1, object.2⟩
  return (s, names)

def bindResultObjects (request : CompletionRequest) (lease : Lease) (kind : RunnerDataCommitKind)
    (state : Store E × List String) : Except Error (Store E × List String) :=
  foldEach (bindResultObject o request lease kind) state ((request.submitted kind).zipIdx)

/-! ### The second transaction -/

def replayCompletion (request : CompletionRequest) (taint : CredentialTaintState) (final : JobState)
    (lease : Lease) : Except Error (Except Error Lease × Store E) :=
  if lease.terminalResultDigest = some request.resultDigest ∧ lease.terminalJobState = some final
      ∧ lease.terminalCredentialTaint = some taint
      ∧ s.storedObjects lease.jobId request.jobAttempt .artifact = request.artifactIds
      ∧ s.storedObjects lease.jobId request.jobAttempt .cache = request.cacheEntryIds then
    .ok (.ok lease, s)
  else
    .error .conflictingCompletion

/-- A completion that comes too late. -/
def expireCompletion (request : CompletionRequest) (lease : Lease) (canceled : Bool) :
    Except Error (Except Error Lease × Store E) := do
  let preferred : JobState := if canceled then .canceled
    else if lease.hardDeadlineUnixMs ≤ request.completedUnixMs then .timedOut else .lost
  let s ← s.expireLeaseWithState o request.leaseId lease preferred request.completedUnixMs
  let s ← s.concludeRunIfTerminal o lease.jobId request.completedUnixMs
  return (.error .leaseExpired, s)

/-- A completion in time of an accepted lease. -/
def finishCompletion (request : CompletionRequest) (lease : Lease) (final : JobState) :
    Except Error (Except Error Lease × Store E) := do
  rejectIf ((request.artifactIds ≠ [] ∨ request.cacheEntryIds ≠ [] ∨ request.requiredArtifactNames ≠ [])
    ∧ request.jobAttempt = 0) .runnerBrokerBindingMismatch
  let state ← bindResultObjects o request lease .artifact (s, [])
  let state ← bindResultObjects o request lease .cache state
  rejectIf (final = .succeeded ∧ state.2.toFinset ≠ request.requiredArtifactNames.toFinset)
    .runnerBrokerBindingMismatch
  let s ← state.1.transitionJob lease.jobId final request.completedUnixMs
  let completed ← toI64 request.completedUnixMs
  let s := s.setLease request.leaseId { lease with
    state := .completed, terminalResultDigest := some request.resultDigest
    terminalJobState := some final, completedUnixMs := some completed }
  let s ← s.send o (.revokeRunnerBrokerState request.leaseId request.generation request.completedUnixMs
    "revoked")
  let s ← s.send o (.appendRevocationAudit request.leaseId request.runnerId lease.tenantId
    request.completedUnixMs)
  let s ← s.concludeRunIfTerminal o lease.jobId request.completedUnixMs
  let value ← s.lease request.leaseId
  return (.ok value, s)

def completeUnderTaint (request : CompletionRequest) (taint : CredentialTaintState) :
    Except Error (Except Error Lease × Store E) := do
  -- the call has made this check before its first transaction
  rejectIf (request.finalJobState.isTerminal = false)
    (.invalidInput "lease completion requires a terminal job state")
  refuseTaintedObjects request taint
  let lease ← s.validateLeaseFence request.leaseId request.runnerId request.generation request.epoch
  rejectIf (lease.terminalCredentialTaint ≠ some taint) .runnerBrokerBindingMismatch
  let job ← okOr s.jobs[lease.jobId]? .sqlite
  rejectIf (request.jobAttempt ≠ 0 ∧ request.jobAttempt ≠ job.attempt) .runnerBrokerBindingMismatch
  let run ← okOr s.runs[job.runId]? .sqlite
  let canceled := run.cancelReason.isSome
  let final := if canceled then .canceled else request.finalJobState
  if lease.state = .completed then
    s.replayCompletion request taint final lease
  else if lease.hardDeadlineUnixMs ≤ request.completedUnixMs
      ∨ lease.expiresUnixMs ≤ request.completedUnixMs then
    s.expireCompletion o request lease canceled
  else
    rejectIf (lease.state ≠ .active ∧ lease.state ≠ .cancelRequested)
      (.invalidLeaseState "active or cancel_requested" lease.state)
    s.finishCompletion o request lease final

/-! ### The taint of a run -/

/-- The stored taints of the leases of a run's jobs. -/
def runTaints (runId : String) : List (Option CredentialTaintState) :=
  (s.leases.toList.filter fun entry =>
    (s.jobs[entry.2.jobId]?).any fun job => decide (job.runId = runId)).map (·.2.terminalCredentialTaint)

end Store

/-- The loop of `run_credential_taint`. -/
def aggregateTaint : CredentialTaintState → List (Option CredentialTaintState) → CredentialTaintState
  | aggregate, [] => aggregate
  | _, none :: taints => aggregateTaint .unknown taints
  | _, some .credentialReleased :: _ => .credentialReleased
  | _, some .unknown :: taints => aggregateTaint .unknown taints
  | aggregate, some .none :: taints => aggregateTaint aggregate taints

def Store.runCredentialTaint {E : Type} (s : Store E) (runId : String) : Except Error CredentialTaintState := do
  validateText runId
  let _ ← s.run runId
  if (s.runTaints runId).isEmpty then
    return .unknown
  else
    return aggregateTaint .none (s.runTaints runId)

end Runtrue.ControlPlane
