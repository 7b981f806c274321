import Runtrue.ControlPlane.Dag

/-!
# The life of a lease

`runners/leases.rs` and the maintenance half of `runners/scheduler.rs`: the fence that every call of a
runner passes, acceptance, rejection, heartbeat and cancellation of a lease, and the expiry of leases.

A function of the source that runs inside a transaction returns the changed store; an error rolls the
transaction back. Four calls commit an expiry and then answer with an error: their result is a value
`Except Error Lease` next to the committed store.
-/

namespace Runtrue.ControlPlane

open Fallible
open Scheduling (LeaseState RunnerStatus)

/-- The deadlines of `scheduler_maintenance_tx`: an offer by its acceptance window, an accepted lease by its
expiry, both by the hard deadline. -/
def Lease.isOverdue (lease : Lease) (now : Nat) : Bool :=
  lease.isOpen && (decide (lease.state = .offered ∧ lease.acceptByUnixMs ≤ now)
    || decide (lease.state ≠ .offered ∧ lease.expiresUnixMs ≤ now)
    || decide (lease.hardDeadlineUnixMs ≤ now))

namespace Store

variable {E : Type} (o : Outside E) (s : Store E)

def validateLeaseFence (leaseId runnerId : String) (generation epoch : Nat) : Except Error Lease := do
  rejectIf (epoch ≠ s.fencingEpoch) (.staleInstallationEpoch s.fencingEpoch epoch)
  let lease ← s.lease leaseId
  rejectIf (lease.runnerId ≠ runnerId) .wrongRunner
  rejectIf (lease.fencingGeneration ≠ generation) (.staleLeaseGeneration lease.fencingGeneration generation)
  let job ← okOr s.jobs[lease.jobId]? .sqlite
  rejectIf (generation ≠ job.lastGeneration) (.staleLeaseGeneration job.lastGeneration generation)
  rejectIf (lease.installationFencingEpoch ≠ epoch)
    (.staleInstallationEpoch s.fencingEpoch lease.installationFencingEpoch)
  return lease

def transitionJob (jobId : String) (next : JobState) (now : Nat) : Except Error (Store E) := do
  let current ← s.job jobId
  if current.status = next then
    return s
  else
    rejectIf (current.status.canTransitionTo next = false) (.invalidJobTransition current.status next)
    let now ← toI64 now
    return s.setJob jobId
      { current with status := next, completedUnixMs := if next.isTerminal then some now else none }

/-- `UPDATE leases SET state`. -/
def setLeaseState (leaseId : String) (lease : Lease) (state : LeaseState) : Store E :=
  s.setLease leaseId { lease with state }

/-! ### Expiry -/

def expireUnacceptedOffer (leaseId : String) (lease : Lease) (now : Nat) : Except Error (Store E) := do
  rejectIf (lease.state ≠ .offered) (.invalidLeaseState "offered" lease.state)
  let s := s.setLeaseState leaseId lease .expired
  let s ← s.send o (.revokeRunnerBrokerState leaseId lease.fencingGeneration now "expired")
  let job ← s.job lease.jobId
  if job.status = .leased then
    s.transitionJob lease.jobId .queued now
  else
    return s

def expiredJobState (status preferred : JobState) : Option JobState :=
  if status.canTransitionTo preferred then some preferred
  else if status.canTransitionTo .lost then some .lost
  else none

def expireLeaseWithState (leaseId : String) (lease : Lease) (preferred : JobState) (now : Nat) :
    Except Error (Store E) := do
  let s := s.setLeaseState leaseId lease .expired
  let s ← s.send o (.revokeRunnerBrokerState leaseId lease.fencingGeneration now "expired")
  let job ← s.job lease.jobId
  match expiredJobState job.status preferred with
  | some next => s.transitionJob lease.jobId next now
  | none => return s

/-- The overdue leases among those that satisfy `p`, first deadline first. -/
def overdueLeases (p : Lease → Bool) (now : Nat) : List String :=
  (((s.leases.toList.filter fun entry => p entry.2 && entry.2.isOverdue now).insertionSort fun a b =>
    a.2.hardDeadlineUnixMs ≤ b.2.hardDeadlineUnixMs).take maxMaintenanceLeases).map Prod.fst

def overduePreference (lease : Lease) (now : Nat) : JobState :=
  if lease.state = .cancelRequested then .canceled
  else if lease.hardDeadlineUnixMs ≤ now then .timedOut
  else .lost

/-- One pass of the loop over the overdue leases. -/
def expireOverdue (now : Nat) (s : Store E) (leaseId : String) : Except Error (Store E) := do
  let lease ← s.lease leaseId
  if lease.state = .offered then
    s.expireUnacceptedOffer o leaseId lease now
  else
    let s ← s.expireLeaseWithState o leaseId lease (overduePreference lease now) now
    s.concludeRunIfTerminal o lease.jobId now

/-! ### Maintenance -/

def offlineRunners (before : Nat) : List String :=
  (((s.runners.toList.filter fun entry => decide (entry.2.status = .online)
    && decide (entry.2.updatedUnixMs ≤ before)).insertionSort fun a b =>
      a.2.updatedUnixMs ≤ b.2.updatedUnixMs).take maxMaintenanceRunners).map Prod.fst

def takeOffline (now : Nat) (s : Store E) (runnerId : String) : Except Error (Store E) := do
  let runner ← okOr s.runners[runnerId]? (.notFound "runner" runnerId)
  if runner.record.status ≠ .online then
    return s
  else
    let now ← toI64 now
    return { s with runners := s.runners.insert runnerId { runner with
      status := .offline, record := { runner.record with status := .offline }, updatedUnixMs := now } }

def staleEphemeralRunners (before : Nat) : List String :=
  (((s.runners.toList.filter fun entry => decide (entry.2.status = .offline)
    && decide (entry.2.updatedUnixMs ≤ before) && entry.2.ephemeral && !entry.2.retired).insertionSort
      fun a b => a.2.updatedUnixMs ≤ b.2.updatedUnixMs).take maxMaintenanceRunners).map Prod.fst

/-- `EXISTS (SELECT 1 FROM leases WHERE runner_id)`. -/
def hasLease (runnerId : String) : Bool := s.leases.toList.any fun entry => entry.2.runnerId = runnerId

/-- Retire an ephemeral runner with a history, delete one without. -/
def retireEphemeral (now : Nat) (s : Store E) (runnerId : String) : Except Error (Store E) := do
  if s.hasLease runnerId || o.hasFleetHistory s.outside runnerId then
    let runner ← okOr s.runners[runnerId]? (.notFound "runner" runnerId)
    let now ← toI64 now
    return { s with runners := s.runners.insert runnerId { runner with retired := true, updatedUnixMs := now } }
  else
    let s ← s.send o (.deleteEnrollment runnerId)
    return { s with
      runnerJobRejections := s.runnerJobRejections.erase runnerId
      runnerSchedulerCursors := s.runnerSchedulerCursors.erase runnerId
      runners := s.runners.erase runnerId }

def schedulerMaintenance (now : Nat) : Except Error (Store E) := do
  let now ← toI64 now
  let s ← foldEach (expireOverdue o now) s (s.overdueLeases (fun _ => true) now)
  let s ← foldEach (takeOffline now) s (s.offlineRunners (now - defaultRunnerOfflineAfterMs))
  foldEach (retireEphemeral o now) s (s.staleEphemeralRunners (now - defaultEphemeralRunnerRetentionMs))

def schedulerRunnerMaintenance (runnerId : String) (now : Nat) : Except Error (Store E) := do
  let now ← toI64 now
  foldEach (expireOverdue o now) s (s.overdueLeases (fun lease => lease.runnerId = runnerId) now)

/-! ### The calls of a runner -/

def acceptLease (leaseId runnerId : String) (generation epoch now : Nat) :
    Except Error (Except Error Lease × Store E) := do
  let lease ← s.validateLeaseFence leaseId runnerId generation epoch
  rejectIf (lease.state ≠ .offered) (.invalidLeaseState "offered" lease.state)
  if lease.acceptByUnixMs ≤ now ∨ lease.expiresUnixMs ≤ now ∨ lease.hardDeadlineUnixMs ≤ now then
    let s ← s.expireUnacceptedOffer o leaseId lease now
    return (.error .leaseOfferExpired, s)
  else
    let s := s.setLeaseState leaseId lease .active
    let s ← s.transitionJob lease.jobId .preparing now
    let s ← s.startRunForJobIfCreated lease.jobId now
    let accepted ← s.lease leaseId
    return (.ok accepted, s)

def transientRunnerRejection (code : String) : Bool :=
  ["capsule_fetch_failed", "image_admission_pending", "unsupported_isolation", "trusted_native_disabled",
    "job_resource_limit", "executor_preflight_rejected", "accept_deadline_elapsed",
    "lease_window_too_short"].contains code

/-- The upsert of a transient rejection. -/
def nextRejection (stored : Option RunnerJobRejection) (code : String) (now : Nat) : RunnerJobRejection where
  rejectionCount :=
    match stored with
    | none => 1
    | some rejection =>
      if code = "image_admission_pending" then rejection.rejectionCount
      else if rejection.lastCode = "image_admission_pending" ∧ rejection.rejectionCount = 1 then 1
      else rejection.rejectionCount + 1
  lastCode := code
  updatedUnixMs := now

def rejectionsOf (runnerId : String) : BTreeMap String RunnerJobRejection :=
  s.runnerJobRejections[runnerId]?.getD ∅

def recordRejection (runnerId jobId code : String) (now : Nat) : Store E :=
  let rejections := s.rejectionsOf runnerId
  let rejections := rejections.insert jobId (nextRejection rejections[jobId]? code now)
  { s with runnerJobRejections := s.runnerJobRejections.insert runnerId rejections }

/-- `UPDATE jobs SET status = 'blocked_policy' WHERE id AND status`. -/
def blockJob (jobId : String) (expected : JobState) (now : Nat) : Except Error (Store E) := do
  let now ← toI64 now
  match s.jobs[jobId]? with
  | some job =>
    if job.status = expected then
      return s.setJob jobId { job with status := .blockedPolicy, completedUnixMs := some now }
    else
      return s
  | none => return s

def rejectLeaseWithCode (leaseId runnerId : String) (generation epoch : Nat) (code : String) (now : Nat) :
    Except Error (Except Error Lease × Store E) := do
  validateText code
  let lease ← s.validateLeaseFence leaseId runnerId generation epoch
  if lease.state = .rejected then
    return (.ok lease, s)
  else
    rejectIf (lease.state ≠ .offered) (.invalidLeaseState "offered" lease.state)
    if lease.acceptByUnixMs ≤ now then
      let s ← s.expireUnacceptedOffer o leaseId lease now
      return (.error .leaseOfferExpired, s)
    else
      let s := s.setLeaseState leaseId lease .rejected
      if transientRunnerRejection code then
        let now ← toI64 now
        let s := s.recordRejection runnerId lease.jobId code now
        let s ← s.transitionJob lease.jobId .queued now
        let rejected ← s.lease leaseId
        return (.ok rejected, s)
      else
        let s ← s.blockJob lease.jobId .leased now
        let s ← s.startRunForJobIfCreated lease.jobId now
        let s ← s.concludeRunIfTerminal o lease.jobId now
        let rejected ← s.lease leaseId
        return (.ok rejected, s)

def heartbeatLease (leaseId runnerId : String) (generation epoch now newExpires : Nat) :
    Except Error (Except Error Lease × Store E) := do
  rejectIf (newExpires ≤ now) (.invalidInput "invalid heartbeat expiry")
  let lease ← s.validateLeaseFence leaseId runnerId generation epoch
  rejectIf (lease.state ≠ .active ∧ lease.state ≠ .cancelRequested)
    (.invalidLeaseState "active or cancel_requested" lease.state)
  if lease.hardDeadlineUnixMs ≤ now ∨ lease.expiresUnixMs ≤ now then
    let s ← s.expireLeaseWithState o leaseId lease (overduePreference lease now) now
    let s ← s.concludeRunIfTerminal o lease.jobId now
    return (.error .leaseExpired, s)
  else
    let newExpires := min newExpires lease.hardDeadlineUnixMs
    rejectIf (newExpires ≤ now) .leaseExpired
    let newExpires ← toI64 newExpires
    let s := s.setLease leaseId { lease with expiresUnixMs := newExpires }
    let s ← s.schedulerMaintenance o now
    let value ← s.lease leaseId
    return (.ok value, s)

def openLeasesOf (jobId : String) : List (String × Lease) :=
  s.leases.toList.filter fun entry => entry.2.jobId = jobId && entry.2.isOpen

def requestLeaseCancel (jobId : String) (now : Nat) : Except Error (Lease × Store E) := do
  let entry ← okOr (s.openLeasesOf jobId).head? (.notFound "active lease for job" jobId)
  let s ← s.send o (.revokeRunnerBrokerState entry.1 entry.2.fencingGeneration now "revoked")
  let s ← if entry.2.state = .offered then do
      let s := s.setLeaseState entry.1 entry.2 .rejected
      let job ← s.job jobId
      let s ← if job.status.canTransitionTo .canceled then s.transitionJob jobId .canceled now else pure s
      s.concludeRunIfTerminal o jobId now
    else if entry.2.state = .active then
      pure (s.setLeaseState entry.1 entry.2 .cancelRequested)
    else pure s
  let value ← s.lease entry.1
  return (value, s)

end Store

end Runtrue.ControlPlane
