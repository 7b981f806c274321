import Runtrue.Base.Loop
import Runtrue.ControlPlane.Store

/-!
# Job graphs and the conclusion of runs

`runs/capsules.rs` and the graph half of `runners/leases.rs`: the planned jobs of a run (the static jobs of
its capsule and the materialized jobs of its expansions), the initial state of every job, the advancement of
jobs whose needs have finished, and the conclusion of a run all of whose jobs have finished.
-/

namespace Runtrue

/-- A need that ended without success, or never runs. -/
def JobState.isUnmet (state : JobState) : Bool :=
  (state ≠ .succeeded && state.isTerminal) || state = .blockedPolicy

/-- A job that takes no further part in its run. -/
def JobState.isFinished (state : JobState) : Bool := state.isTerminal || state = .blockedPolicy

end Runtrue

namespace Runtrue.ControlPlane

open Fallible
open Scheduling (SchedulingRequirements)

/-! ### The requirements of a planned job -/

def schedulingOs : Ir.OperatingSystem → Scheduling.OperatingSystem
  | .linux => .linux
  | .windows => .windows
  | .macos => .macos

def schedulingArch : Ir.Architecture → Scheduling.Architecture
  | .amd64 => .amd64
  | .arm64 => .arm64

def schedulingIsolation : Ir.Isolation → Scheduling.Isolation
  | .wasm => .wasm
  | .oci => .oci
  | .microvm => .microvm
  | .native => .native

def plannedSchedulingRequirements (planned : Ir.PlannedJob) : SchedulingRequirements where
  os := schedulingOs planned.runner.os
  arch := schedulingArch planned.runner.arch
  isolation := schedulingIsolation planned.runner.isolation
  cpu := planned.runner.cpu.setWidth 32
  memoryBytes := planned.runner.memoryBytes
  storageBytes := planned.runner.storageBytes.getD 0
  region := planned.runner.region
  requiredCapabilities := planned.runner.capabilities.toFinset
  allowedPools := ∅

def satisfies : Ir.SourceTrust → Ir.Trust → Bool
  | _, .untrustedOk => true
  | .trusted, .trustedOnly | .protectedBranch, .trustedOnly => true
  | .protectedBranch, .protectedBranchOnly => true
  | _, _ => false

/-! ### Acyclic graphs -/

/-- The errors of the two checks of a job graph. -/
structure DagErrors where
  dependency : Error
  disappeared : Error
  cyclic : Error

def capsuleDagErrors : DagErrors where
  dependency := .invalidInput "signed capsule contains an invalid job dependency"
  disappeared := .corruptState "validated job dependency disappeared"
  cyclic := .invalidInput "signed capsule job dependency graph is cyclic"

def plannedDagErrors : DagErrors where
  dependency := .corruptState "materialized capsule contains an invalid job dependency"
  disappeared := .corruptState "materialized capsule dependency disappeared"
  cyclic := .corruptState "materialized capsule job dependency graph is cyclic"

/-- Count a visited need off every dependent; those without needs left become ready. -/
def releaseDependents (errors : DagErrors) (children : List String)
    (state : BTreeMap String Nat × List String) : Except Error (BTreeMap String Nat × List String) :=
  foldEach (fun state child => do
    let count ← okOr state.1[child]? errors.disappeared
    return (state.1.insert child (count - 1), if count - 1 = 0 then child :: state.2 else state.2))
    state children

/-- The `while let Some(id) = ready.pop()` loop: the number of jobs visited. A loop that visits more than all
jobs is cut off after one more, and refused as it is in the source. -/
def visitReady (errors : DagErrors) (dependents : BTreeMap String (List String)) :
    Nat → BTreeMap String Nat × List String → Nat → Except Error Nat
  | 0, _, visited => .ok visited
  | _, (_, []), visited => .ok visited
  | fuel + 1, (indegree, id :: ready), visited => do
    let state ← releaseDependents errors (dependents[id]?.getD []) (indegree, ready)
    visitReady errors dependents fuel state (visited + 1)

def validateDag (errors : DagErrors) (jobs : List (String × Ir.PlannedJob)) : Except Error Unit := do
  let indegree : BTreeMap String Nat := Std.ExtTreeMap.ofList (jobs.map fun p => (p.1, p.2.needs.length))
  let dependents ← foldEach (fun dependents p => do
    forEach p.2.needs fun need =>
      rejectIf (indegree.contains need = false ∨ need = p.1) errors.dependency
    return p.2.needs.foldl (fun (m : BTreeMap String (List String)) need =>
      m.insert need ((m[need]?.getD []) ++ [p.1])) dependents) (∅ : BTreeMap String (List String)) jobs
  let ready := (indegree.toList.filter fun p => p.2 = 0).map Prod.fst
  let visited ← visitReady errors dependents (jobs.length + 1) (indegree, ready.reverse) 0
  rejectIf (visited ≠ jobs.length) errors.cyclic

def validateCapsuleDag (capsule : Ir.ExecutionCapsule) : Except Error Unit := do
  rejectIf (¬(capsule.jobs.map (·.id)).Nodup)
    (.invalidInput "signed capsule contains duplicate job identifiers")
  validateDag capsuleDagErrors (capsule.jobs.map fun job => (job.id, job))

def validatePlannedJobDag (jobs : BTreeMap String Ir.PlannedJob) : Except Error Unit :=
  validateDag plannedDagErrors jobs.toList

/-! ### The planned jobs of a run -/

/-- An expanded job is its template up to its id and its matrix values. -/
def isExpansionOf (template job : Ir.PlannedJob) : Bool :=
  decide ({ job with id := template.id, matrix := ∅ } = template)

namespace Store

variable {E : Type} (o : Outside E) (s : Store E)

/-- The expansions recorded for a run, by template. -/
def expansionsOf (runId : String) : List ExpandedJobSetRecord :=
  (s.expandedJobSets.values.filter fun record => record.runId = runId).insertionSort
    fun a b => a.templateId ≤ b.templateId

def materializedCount (runId : String) (jobKeys : List String) : Nat :=
  ((s.jobsOf runId).filter fun p => jobKeys.contains p.2.jobKey).length

def addExpandedJob (template : Ir.DynamicJobTemplate) (jobs : BTreeMap String Ir.PlannedJob)
    (expandedJob : Ir.PlannedJob) : Except Error (BTreeMap String Ir.PlannedJob) := do
  rejectIf (isExpansionOf template.template expandedJob = false ∨ jobs.contains expandedJob.id)
    (.corruptState "expanded scheduler job changed its signed template")
  return jobs.insert expandedJob.id expandedJob

/-- Add the jobs of one expansion to the planned jobs, if they are materialized. -/
def addExpansion (runId : String) (capsule : Ir.ExecutionCapsule) (jobs : BTreeMap String Ir.PlannedJob)
    (record : ExpandedJobSetRecord) : Except Error (BTreeMap String Ir.PlannedJob) := do
  let expanded := record.canonicalJobSet
  rejectIf (o.jobSetLength expanded = 0 ∨ maxExpandedJobSetBytes < o.jobSetLength expanded)
    (.corruptState "expanded job set exceeds its durable byte bound")
  rejectIf (record.parentCapsuleDigest ≠ o.capsuleDigest capsule
      ∨ expanded.parentCapsuleDigest ≠ o.capsuleDigest capsule
      ∨ o.jobSetDigest expanded ≠ record.jobSetDigest
      ∨ record.generatedJobCount ≠ expanded.jobs.length)
    (.corruptState "expanded job set no longer matches its signed parent")
  let template ← okOr (capsule.dynamicJobs.find? fun candidate => candidate.id = record.templateId)
    (.corruptState "expanded job set template is absent from its parent")
  let count := s.materializedCount runId expanded.generatedJobIds
  if count = 0 then
    return jobs
  else
    rejectIf (count ≠ expanded.jobs.length)
      (.corruptState "expanded scheduler job materialization is partial")
    foldEach (addExpandedJob template) jobs expanded.jobs

def materializedPlannedJobs (runId : String) (capsule : Ir.ExecutionCapsule) :
    Except Error (BTreeMap String Ir.PlannedJob) := do
  let jobs : BTreeMap String Ir.PlannedJob :=
    Std.ExtTreeMap.ofList (capsule.jobs.map fun job => (job.id, job))
  rejectIf (jobs.size ≠ capsule.jobs.length) .nonCanonicalCapsule
  let jobs ← foldEach (s.addExpansion o runId capsule) jobs (s.expansionsOf runId)
  rejectIf (maxRemoteWorkflowJobs < jobs.size)
    (.corruptState "materialized capsule exceeds the workflow job bound")
  validatePlannedJobDag jobs
  return jobs

/-- The query of `run_source_binding_ready_tx`: a ready snapshot of the capsule's tree is bound to the
run. -/
def sourceBindingReady (runId : String) (capsule : Ir.ExecutionCapsule) : Bool :=
  match capsule.context.sourceTreeDigest with
  | none => true
  | some tree =>
    match s.runSourceSnapshots[runId]?, s.runs[runId]? with
    | some bound, some run =>
      decide (bound.capsuleDigest = o.capsuleDigest capsule)
        && s.sourceSnapshots[bound.sourceSnapshotId]?.any fun snapshot =>
          decide (snapshot.state = .ready) && decide (snapshot.repositoryId = run.repositoryId)
            && decide (some snapshot.tenantId = s.tenantOf run)
            && decide (snapshot.commitSha = capsule.context.sourceCommit)
            && decide (snapshot.treeManifestDigest = tree)
    | _, _ => false

/-! ### Advancement -/

def jobStates (runId : String) : BTreeMap String JobState :=
  Std.ExtTreeMap.ofList ((s.jobsOf runId).map fun p => (p.2.jobKey, p.2.status))

end Store

/-- What the states of its needs make of a job that waits for them. -/
def dependencyOutcome (dependencies : List JobState) : Option JobState :=
  if dependencies.all (· = .succeeded) then some .queued
  else if dependencies.any (·.isUnmet) then some .skipped
  else none

def dependencyStates (states : BTreeMap String JobState) (absent : Error) (needs : List String) :
    Except Error (List JobState) :=
  mapEach (fun need => okOr states[need]? absent) needs

/-- The change of one planned job in one round of `advance_run_dag_tx`. -/
def nextState (capsule : Ir.ExecutionCapsule) (sourceReady : Bool) (states : BTreeMap String JobState)
    (planned : Ir.PlannedJob) : Except Error (Option JobState) := do
  let current ← okOr states[planned.id]? (.corruptState "signed capsule job is absent from its run")
  if current ≠ .created then
    return none
  else if satisfies capsule.context.sourceTrust planned.trust = false then
    return some .blockedPolicy
  else if sourceReady = false then
    return none
  else
    let dependencies ← dependencyStates states
      (.corruptState "signed capsule dependency is absent from its run") planned.needs
    return dependencyOutcome dependencies

namespace Store

variable {E : Type} (o : Outside E) (s : Store E)

/-- `UPDATE jobs SET status WHERE run_id AND job_key AND status = 'created'`. -/
def moveCreated (runId jobKey : String) (next : JobState) (completed : Option Nat) : Store E :=
  ((s.jobsOf runId).filter fun p => p.2.jobKey = jobKey && p.2.status = .created).foldl
    (fun s p => s.setJob p.1 { p.2 with status := next, completedUnixMs := completed }) s

def applyChange (runId : String) (now : Nat) (s : Store E) (change : String × JobState) :
    Except Error (Store E) := do
  let now ← toI64 now
  return s.moveCreated runId change.1 change.2 (if change.2.isFinished then some now else none)

/-- The changes of one round of `advance_run_dag_tx`. -/
def dagChanges (runId : String) (capsule : Ir.ExecutionCapsule) (sourceReady : Bool)
    (plannedJobs : BTreeMap String Ir.PlannedJob) : Except Error (List (String × JobState)) := do
  let states := s.jobStates runId
  rejectIf (states.size ≠ plannedJobs.size) (.corruptState "run jobs do not match the signed capsule DAG")
  let changes ← mapEach (fun planned => do
    let next ← nextState capsule sourceReady states planned
    return next.map fun state => (planned.id, state)) plannedJobs.values
  return changes.filterMap id

def advanceRound (runId : String) (capsule : Ir.ExecutionCapsule) (sourceReady : Bool)
    (plannedJobs : BTreeMap String Ir.PlannedJob) (now : Nat) (s : Store E) :
    Except Error (Option (Store E)) := do
  let changes ← s.dagChanges runId capsule sourceReady plannedJobs
  if changes.isEmpty then
    return none
  else
    let s ← foldEach (applyChange runId now) s changes
    return some s

def capsuleOf (runId : String) : Except Error Ir.ExecutionCapsule := do
  let run ← okOr s.runs[runId]? .sqlite
  let row ← okOr s.capsules[run.capsuleId]? .sqlite
  return row.capsule

/-- The loop is bounded by a round per job and one more: every round but the last moves a created job. -/
def advanceRunDag (changedJobId : String) (now : Nat) : Except Error (Store E) := do
  let job ← okOr s.jobs[changedJobId]? .sqlite
  let capsule ← s.capsuleOf job.runId
  let sourceReady := s.sourceBindingReady o job.runId capsule
  let plannedJobs ← s.materializedPlannedJobs o job.runId capsule
  Loop.settle (advanceRound job.runId capsule sourceReady plannedJobs now) ((s.jobsOf job.runId).length + 1) s

/-! ### Conclusion -/

def expansion (runId templateId : String) : Option ExpandedJobSetRecord :=
  (s.expansionsOf runId).find? fun record => record.templateId = templateId

/-- A succeeded producer of one of the templates has no expansion, or one whose jobs are not all there. -/
def waitsForExpansion (runId : String) (states : BTreeMap String JobState) :
    List Ir.DynamicJobTemplate → Except Error Bool
  | [] => .ok false
  | template :: templates => do
    let producerState ← okOr states[template.source.producerJobId]?
      (.corruptState "dynamic producer is absent from its run")
    if producerState ≠ .succeeded then
      waitsForExpansion runId states templates
    else
      match s.expansion runId template.id with
      | none => return true
      | some record =>
        if record.canonicalJobSet.generatedJobIds.any fun jobKey => !states.contains jobKey then
          return true
        else
          waitsForExpansion runId states templates

/-- The final state of a run whose jobs have finished. -/
def finalState (cancelReason : Option String) (states : List JobState) : RunState :=
  if cancelReason.isSome || states.contains .canceled then .canceled
  else if states.any fun state => state matches .blockedPolicy | .failed | .timedOut | .lost | .rejected then
    .failed
  else .succeeded

/-- The last part of `conclude_run_if_terminal_tx`, for a run whose jobs have finished. -/
def finishRun (runId : String) (states : List JobState) (now : Nat) : Except Error (Store E) := do
  let run ← s.run runId
  let final := finalState run.cancelReason states
  let s ← if run.status.canTransitionTo final then do
      let now ← toI64 now
      pure (s.setRun runId { run with status := final, completedUnixMs := some now })
    else pure s
  let current ← s.run runId
  if current.status.isTerminal then
    s.send o (.enqueueTerminalScmCheck runId current.status now)
  else
    return s

def concludeRunIfTerminal (jobId : String) (now : Nat) : Except Error (Store E) := do
  let s ← s.advanceRunDag o jobId now
  let job ← okOr s.jobs[jobId]? .sqlite
  let states := (s.jobsOf job.runId).map fun p => p.2.status
  let capsule ← s.capsuleOf job.runId
  let waits ← s.waitsForExpansion job.runId (s.jobStates job.runId) capsule.dynamicJobs
  if waits then
    return s
  else if states.any fun state => !state.isFinished then
    return s
  else
    s.finishRun o job.runId states now

def startRunForJobIfCreated (jobId : String) (now : Nat) : Except Error (Store E) := do
  let job ← okOr s.jobs[jobId]? .sqlite
  let run ← s.run job.runId
  if run.status = .created then
    let now ← toI64 now
    return s.setRun job.runId { run with status := .running, startedUnixMs := some now }
  else
    return s

end Store

/-! ### The first states of a run's jobs -/

/-- One pass of the loop that skips the dependents of blocked and skipped jobs. -/
def skippedJobs (capsule : Ir.ExecutionCapsule) (states : BTreeMap String JobState) : List String :=
  ((capsule.jobs.filter fun job => states[job.id]? = some .created).filter fun job =>
    job.needs.any fun need =>
      decide (states[need]? = some .blockedPolicy) || decide (states[need]? = some .skipped)).map (·.id)

def skipRound (capsule : Ir.ExecutionCapsule) (states : BTreeMap String JobState) :
    Except Error (Option (BTreeMap String JobState)) :=
  let skipped := skippedJobs capsule states
  .ok (if skipped.isEmpty then none
    else some (skipped.foldl (fun states id => states.insert id .skipped) states))

def firstState (capsule : Ir.ExecutionCapsule) (sourceReady : Bool) (job : Ir.PlannedJob) : JobState :=
  if satisfies capsule.context.sourceTrust job.trust = false then .blockedPolicy
  else if sourceReady && job.needs.isEmpty then .queued
  else .created

/-- The loop is bounded by a pass per job and one more: every pass but the last skips a created job. -/
def initialRemoteJobStates (capsule : Ir.ExecutionCapsule) (sourceReady : Bool) :
    Except Error (BTreeMap String JobState) := do
  validateCapsuleDag capsule
  Loop.settle (skipRound capsule) (capsule.jobs.length + 1)
    (Std.ExtTreeMap.ofList (capsule.jobs.map fun job => (job.id, firstState capsule sourceReady job)))

end Runtrue.ControlPlane
