import Mathlib

/-!
# The life of a job and of a run

The `lifecycle` crate: the states of a job and of a run with the transitions each of them allows. No
transition leaves a terminal state.
-/

namespace Runtrue

inductive JobState
  | created | blockedPolicy | awaitingApproval | queued | leased | preparing | running | finalizing
  | succeeded | failed | canceled | timedOut | lost | rejected | skipped
deriving DecidableEq

def JobState.isTerminal : JobState → Bool
  | succeeded | failed | canceled | timedOut | lost | rejected | skipped => true
  | _ => false

def JobState.canTransitionTo : JobState → JobState → Bool
  | created, next => (next matches blockedPolicy | awaitingApproval | queued | preparing | rejected | canceled
      | skipped)
  | blockedPolicy, next => (next matches awaitingApproval | queued | rejected | canceled)
  | awaitingApproval, next => (next matches queued | rejected | canceled)
  | queued, next => (next matches leased | preparing | rejected | canceled | lost)
  -- an offer that was never accepted returns to the queue
  | leased, next => (next matches queued | preparing | canceled | lost)
  | preparing, next => (next matches running | finalizing | failed | canceled | timedOut | lost)
  | running, next => (next matches finalizing | failed | canceled | timedOut | lost)
  | finalizing, next => (next matches succeeded | failed | canceled | timedOut | lost)
  | succeeded, _ | failed, _ | canceled, _ | timedOut, _ | lost, _ | rejected, _ | skipped, _ => false

inductive RunState
  | created | running | succeeded | failed | canceled
deriving DecidableEq

def RunState.isTerminal : RunState → Bool
  | succeeded | failed | canceled => true
  | created | running => false

def RunState.canTransitionTo : RunState → RunState → Bool
  -- a remote run may fail policy or DAG admission before any job starts
  | created, next => (next matches running | failed | canceled)
  | running, next => (next matches succeeded | failed | canceled)
  | succeeded, _ | failed, _ | canceled, _ => false

end Runtrue
