import Runtrue.ControlPlane.Cancellation
import Runtrue.ControlPlane.Creation
import Runtrue.ControlPlane.Offering

/-!
# Every operation is a sequence of single changes

`step_moves`: whatever an operation of the control plane answers, the state it leaves is reached by single
changes and at most one issue of a lease, if the transitions of jobs that come from outside are the ones the
runner service asks for (`Operation.isServed`), and the operation is not one of the administration that
writes a runner or a quota.
-/

namespace Runtrue.ControlPlane

open Fallible Store

variable {E : Type} {o : Outside E} {s t u : Store E} {op : Operation E}

/-- The operations the server makes: a runner moves its job to running or finalizing, and to no other
state. -/
def Operation.isServed : Operation E → Prop
  | .transitionJob _ next _ => next ∈ [JobState.running, .finalizing]
  | _ => True

instance Operation.decidableIsServed (op : Operation E) : Decidable op.isServed := by
  unfold isServed
  split <;> infer_instance

/-- An operation of the administration that writes a row placement depends on. -/
def Operation.administers : Operation E → Bool
  | .putRunner _ _ | .setQuota _ _ => true
  | _ => false

section
variable {P : Store E → Prop} (hs : P s)
include hs

theorem answer_cases {α : Type} {reply : α → Reply} {x : Except Error (α × Store E)}
    (h : ∀ value t, x = .ok (value, t) → P t) : P (answer reply s x).2 := by
  cases x with
  | ok p => exact h p.1 p.2 rfl
  | error => exact hs

theorem answerLease_cases {x : Except Error (Except Error Lease × Store E)}
    (h : ∀ value t, x = .ok (value, t) → P t) : P (answerLease s x).2 := by
  cases x with
  | ok p => exact h p.1 p.2 rfl
  | error => exact hs

theorem answerDone_cases {x : Except Error (Store E)} (h : ∀ t, x = .ok t → P t) :
    P (answerDone s x).2 := by
  cases x with
  | ok t => exact h t rfl
  | error => exact hs

end

theorem Store.putRepository_leads {id tenantId : String} (h : s.putRepository id tenantId = .ok t) :
    Leads True s t := by
  simp only [putRepository, bind_eq_ok, exists_unit, rejectIf_eq_ok, pure_eq_ok] at h
  obtain ⟨hfresh, rfl⟩ := h
  have hfresh := BTreeMap.get_of_not_contains (Bool.not_eq_true _ ▸ hfresh)
  exact Change.leads (.wider (fun hrun => hrun) fun hrow => BTreeMap.get_insert_fresh hfresh hrow)

/-- **Every operation is a sequence of single changes**, and of at most one lease. -/
theorem step_moves (hp : Placed s) (hserved : op.isServed) (hroutine : op.administers = false) :
    Moves s (step o s op).2 := by
  have hrefl : Moves s s := .inl (.refl s)
  cases op with
  | offer => exact answer_cases hrefl fun _ _ h => offerNextLeaseForRunner_moves hp h
  | putRunner | setQuota => cases hroutine
  | createRun => exact answer_cases hrefl fun _ _ h => (createRunIdempotent_leads h).moves
  | createScmRun => exact answerDone_cases hrefl fun _ h => (createScmRun_leads h).moves
  | accept => exact answerLease_cases hrefl fun _ _ h => (acceptLease_leads hp h).moves
  | reject => exact answerLease_cases hrefl fun _ _ h => (rejectLeaseWithCode_leads hp h).moves
  | heartbeat => exact answerLease_cases hrefl fun _ _ h => (heartbeatLease_leads hp h).moves
  | requestLeaseCancel => exact answer_cases hrefl fun _ _ h => (requestLeaseCancel_leads hp h).moves
  | recordTaint => exact answer_cases hrefl fun _ _ h => (recordCompletionTaint_leads h).moves
  | complete => exact answerLease_cases hrefl fun _ _ h => (completeUnderTaint_leads hp h).moves
  | cancelRun => exact answer_cases hrefl fun _ _ h => (cancelRunIdempotent_leads hp h).moves
  | transitionJob => exact answer_cases hrefl fun _ _ h => (transitionJobState_leads hserved h).moves
  | transitionRun => exact answer_cases hrefl fun _ _ h => (transitionRunState_frame h).leads.moves
  | maintenance => exact answerDone_cases hrefl fun _ h => (schedulerMaintenance_leads hp h).moves
  | createSourceSnapshot => exact answer_cases hrefl fun _ _ h => (createSourceSnapshot_frame h).leads.moves
  | markSourceSnapshotReady =>
    exact answer_cases hrefl fun _ _ h => (markSourceSnapshotReady_frame h).leads.moves
  | bindSource => exact answer_cases hrefl fun _ _ h => (bindRunSourceSnapshot_idles h).leads.moves
  | recordExpansion => exact answer_cases hrefl fun _ _ h => (recordExpandedJobSet_frame h).leads.moves
  | materialize => exact answer_cases hrefl fun _ _ h => (materializeExpandedJobSet_leads h).moves
  | advanceEpoch => exact answerDone_cases hrefl fun _ h => (advanceInstallationFencingEpoch_leads hp h).moves
  | enterRestore => exact answerDone_cases hrefl fun _ h => (enterRestoreSafeMode_leads hp h).moves
  | leaveRestore =>
    refine answerDone_cases hrefl fun t h => ?_
    simp only [leaveRestoreSafeMode, bind_eq_ok, exists_unit, pure_eq_ok] at h
    obtain ⟨-, -, -, rfl⟩ := h
    exact (Frame.epoch s s.fencingEpoch false).leads.moves
  | putRepository => exact answerDone_cases hrefl fun _ h => (putRepository_leads h).moves
  | putCapsule =>
    refine answerDone_cases hrefl fun t h => ?_
    simp only [Store.putCapsule, bind_eq_ok, exists_unit, pure_eq_ok] at h
    obtain ⟨-, rfl⟩ := h
    exact .inl (Frame.leads (.of_eq rfl rfl rfl rfl rfl rfl rfl))
  | putPool => exact .inl (Frame.leads (.of_eq rfl rfl rfl rfl rfl rfl rfl))
  | elsewhere f =>
    refine answerDone_cases hrefl fun t h => ?_
    cases hf : f s.outside with
    | error =>
      rw [hf] at h
      cases h
    | ok outside =>
      rw [hf] at h
      cases h
      exact (Frame.outside s outside).leads.moves

end Runtrue.ControlPlane
