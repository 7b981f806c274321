import Runtrue.Base.Collect
import Runtrue.Base.Text
import Runtrue.Workflow.Ir

/-!
# Risk findings

`risk/collection.rs` and `risk/report.rs`: what is reported about the permissions of a job and the
capabilities of a step. The functions of the source push to a list; here they return what they push.
-/

namespace Runtrue.Compiler

inductive RiskSeverity
  | info | low | medium | high | critical
deriving DecidableEq, Ord

def RiskSeverity.weight : RiskSeverity → Nat
  | info => 0
  | low => 5
  | medium => 15
  | high => 30
  | critical => 50

structure RiskFinding where
  severity : RiskSeverity
  code : String
  path : String
  message : String
deriving DecidableEq, Ord

namespace RiskFinding

def high (code path message : String) : RiskFinding := ⟨.high, code, path, message⟩

def medium (code path message : String) : RiskFinding := ⟨.medium, code, path, message⟩

end RiskFinding

structure RiskReport where
  score : Nat
  highestSeverity : RiskSeverity
  findings : List RiskFinding

def maxSeverity (left right : RiskSeverity) : RiskSeverity := if (compare left right).isLE then right else left

def RiskReport.fromFindings (findings : List RiskFinding) : RiskReport where
  score := min (findings.map (·.severity.weight)).sum 100
  highestSeverity := (findings.map (·.severity)).foldl maxSeverity .info
  findings := findings

/-- A finding under a condition. -/
def flag (condition : Prop) [Decidable condition] (finding : RiskFinding) : List RiskFinding :=
  if condition then [finding] else []

@[simp] theorem mem_flag {condition : Prop} [Decidable condition] {finding found : RiskFinding} :
    found ∈ flag condition finding ↔ condition ∧ found = finding := by
  unfold flag
  split
  · simp [*]
  · simp [*]

/-! ### Jobs -/

def accessRisk (path name : String) (access : Ir.Access) : List RiskFinding :=
  flag (access = .write) (.high s!"{name}-write" s!"{path}.permissions.{name}" "job requests write access")

def scmRisk (path name : String) (access : Ir.Access) : List RiskFinding :=
  flag (access = .write) (.high s!"scm-{name}-write" s!"{path}.permissions.scm.{name}"
    "job requests source-control provider write access")

def isWildcard (destination : Ir.NetworkDestination) : Bool := Text.startsWith "*." destination.host

/-- The finding about the destinations of a job. -/
def egressRisk (path : String) (destinations : List Ir.NetworkDestination) : RiskFinding :=
  if destinations.any isWildcard then
    .high "wildcard-network-egress" s!"{path}.permissions.network" "job requests wildcard network egress"
  else .medium "network-egress" s!"{path}.permissions.network" "job requests allowlisted network egress"

def networkRisks (path : String) : Ir.NetworkPermission → List RiskFinding
  | .deny => []
  | .allow dns _ destinations listen =>
    flag (destinations ≠ []) (egressRisk path destinations) ++
    flag (dns ≠ .deny)
      (.medium "network-dns-access" s!"{path}.permissions.network.dns" "job requests DNS access") ++
    flag (listen ≠ []) (.high "network-listen" s!"{path}.permissions.network.listen"
      "job requests inbound listen capabilities")

def collectPermissionRisks (permissions : Ir.PermissionSet) (path : String) : List RiskFinding :=
  flag (permissions.secrets ≠ []) (.high "secret-access" s!"{path}.permissions.secrets"
    "job may request step-scoped secret metadata") ++
  flag (permissions.oidcAudiences ≠ []) (.high "oidc-access" s!"{path}.permissions.oidc"
    "job may mint audience-bound workload identity") ++
  flag (permissions.signing ≠ []) (.high "signing-access" s!"{path}.permissions.signing"
    "job requests a non-exportable signing operation") ++
  accessRisk path "repository" permissions.repository ++ accessRisk path "checks" permissions.checks ++
  accessRisk path "artifacts" permissions.artifacts ++ accessRisk path "registry" permissions.registry ++
  scmRisk path "contents" permissions.scm.contents ++ scmRisk path "issues" permissions.scm.issues ++
  scmRisk path "pull-requests" permissions.scm.pullRequests ++ scmRisk path "checks" permissions.scm.checks ++
  scmRisk path "statuses" permissions.scm.statuses ++
  networkRisks path permissions.network ++
  flag (permissions.cacheWrite = .verified) (.high "verified-cache-write" s!"{path}.permissions.cache.write"
    "job requests writes to the verified cache trust domain")

/-! ### Steps -/

def stepNetworkRisks (path : String) : Ir.NetworkPermission → List RiskFinding
  | .deny => []
  | .allow dns _ destinations listen =>
    flag (dns ≠ .deny ∨ destinations ≠ [] ∨ listen ≠ []) (.medium "step-network-access"
      s!"{path}.capabilities.network" "step requests scoped network access")

def collectStepRisks (capabilities : Ir.StepCapabilitySet) (path : String) : List RiskFinding :=
  flag (capabilities.secrets ≠ []) (.high "step-secret-access" s!"{path}.capabilities.secrets"
    "step requests scoped secret release") ++
  flag (capabilities.oidcAudiences ≠ []) (.high "step-oidc-access" s!"{path}.capabilities.oidc"
    "step requests scoped OIDC identity") ++
  flag (capabilities.signing ≠ []) (.high "step-signing-access" s!"{path}.capabilities.signing"
    "step requests an exact non-exportable signing operation") ++
  stepNetworkRisks path capabilities.network ++
  flag (capabilities.checks = .write ∨ capabilities.artifacts = .write) (.high "step-control-plane-write"
    s!"{path}.capabilities" "step requests checks or artifact write access") ++
  flag (capabilities.cacheWrite = .verified) (.high "step-verified-cache-write"
    s!"{path}.capabilities.cache" "step requests verified cache writes")

end Runtrue.Compiler
