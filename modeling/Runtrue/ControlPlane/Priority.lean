import Runtrue.ControlPlane.Placement

/-!
# Which job a poll takes

A poll of a runner looks at one page of the queue, the jobs after the runner's cursor, and takes the one with the
least score. The cursor stays where the last poll left it, so the page may hide a job with a smaller score.
-/

namespace Runtrue.ControlPlane

open Fallible List

namespace Store

variable {E : Type} (o : Outside E) (s : Store E)

/-- The jobs of the tenant that wait for a runner. -/
def queuedJobs (tenantId : String) : List String :=
  (s.jobs.toList.filter fun entry => s.isCandidate tenantId entry.2).map Prod.fst

variable {o s} {t u : Store E} {runnerId leaseId : String} {now : Nat} {lease : Lease}

end Store

/-! ### Instances -/

instance decidableOkAnd {ε α : Type} (p : α → Prop) [DecidablePred p] : (x : Except ε α) →
    Decidable (∃ a, x = .ok a ∧ p a)
  | .ok a => decidable_of_iff (p a) (by simp)
  | .error _ => isFalse nofun

end Runtrue.ControlPlane
