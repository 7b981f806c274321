import Runtrue.Policy.BreakGlass

/-!
# The integrity check of break-glass requests is exact

`verify_integrity` replays the recorded evidence at the recorded times. Real runs act later, at times that may
go back, and with failed calls that may still let the request expire. `Live` describes the requests that have
not expired by the evidence they gained; a reachable request is a live one or an open live one that expired
(`Kept`). The replay of a live request gives back the request, and a replay is itself a run.
-/

namespace Runtrue.Policy.BreakGlassRequest

open Fallible

variable {sha256 : List UInt8 → ContentDigest} {r₀ r t : BreakGlassRequest} {now : U64}

/-! ### Reachable requests -/

/-- What evidence makes of the request `r₀`. -/
inductive Live (r₀ : BreakGlassRequest) : BreakGlassRequest → Prop
  | opened : Live r₀ r₀
  | decided {r : BreakGlassRequest} {decision : BreakGlassApproval} (hr : Live r₀ r) (hdecides : Decides r decision)
      (hbefore : decision.decidedUnixMs < r.expiresUnixMs) : Live r₀ (r.withDecision decision)
  | notified {r : BreakGlassRequest} {receipt : BreakGlassNotificationReceipt} (hr : Live r₀ r)
      (hnotifies : Notifies r receipt) (hbefore : receipt.notifiedUnixMs < r.expiresUnixMs) :
      Live r₀ (r.withNotification receipt)
  | used {r : BreakGlassRequest} {presented : BreakGlassPresentation} {now : U64} (hr : Live r₀ r)
      (huses : Uses r presented now) (hbefore : now < r.expiresUnixMs) :
      Live r₀ (r.withUse (r.useOf presented now))

/-- A live request, or an open one that expired. -/
def Kept (r₀ r : BreakGlassRequest) : Prop :=
  Live r₀ r ∨ ∃ live, Live r₀ live ∧ live.status.isOpen = true ∧ r = { live with status := .expired }

theorem Kept.refreshExpiry (hr : Kept r₀ r) (now : U64) : Kept r₀ (r.refreshExpiry now) := by
  rcases refreshExpiry_cases r now with ⟨hsame, -⟩ | ⟨hopen, hexpired⟩
  · rw [hsame]
    exact hr
  rw [hexpired]
  rcases hr with hlive | ⟨_, -, -, rfl⟩
  · exact .inr ⟨r, hlive, hopen, rfl⟩
  · cases hopen

theorem Kept.live (hr : Kept r₀ r) (hstatus : r.status ≠ .expired) : Live r₀ r := by
  rcases hr with hlive | ⟨_, -, -, rfl⟩
  · exact hlive
  · exact absurd rfl hstatus

theorem Kept.step (hr : Kept r₀ r) (op : Operation) : Kept r₀ (r.step op).2 := by
  have hdoes := does_step r op
  generalize (r.step op).1 = reply, (r.step op).2 = t at hdoes ⊢
  cases hdoes with
  | refreshed => exact hr.refreshExpiry _
  | decided hdecides hbefore => exact .inl (.decided (hr.live (by rw [hdecides.pending]; nofun)) hdecides hbefore)
  | notified hnotifies hbefore =>
    exact .inl (.notified (hr.live (by rw [hnotifies.pending]; nofun)) hnotifies hbefore)
  | used huses hbefore => exact .inl (.used (hr.live (by rw [huses.active]; nofun)) huses hbefore)

theorem kept_of_reaches {h : List Event} (hrun : Run.Reaches step r₀ h r) : Kept r₀ r := by
  induction hrun with
  | start => exact .inl .opened
  | call _ op ih => exact ih.step op

/-- **Calls only add evidence**: whatever is called on any request, it is the same request with more evidence, or
that one expired. -/
theorem calls_add_evidence (r : BreakGlassRequest) (ops : List Operation) : Kept r (Run.exec step r ops).2 :=
  kept_of_reaches (Run.reaches_exec step r ops)

/-! ### The replay of a live request -/

/-- A request without evidence, as `create` returns it. -/
structure Fresh (r : BreakGlassRequest) : Prop where
  approval : r.approval = none
  notification : r.notification = none
  useRecord : r.useRecord = none
  status : r.status = .pendingApproval ∨ r.status = .pendingNotification

theorem fresh_create {new : NewBreakGlassRequest} (h : create sha256 new = .ok r₀) : Fresh r₀ := by
  obtain ⟨-, -, -, rfl⟩ := create_spec h
  refine ⟨rfl, rfl, rfl, ?_⟩
  cases new.requireSecondApprover
  · exact .inr rfl
  · exact .inl rfl

/-- The evidence that a live request cannot have yet. -/
structure Missing (r : BreakGlassRequest) : Prop where
  approval : r.status = .pendingApproval → r.approval = none
  notification : r.status = .pendingApproval ∨ r.status = .pendingNotification → r.notification = none
  useRecord : r.status ≠ .consumed → r.useRecord = none
  expired : r.status ≠ .expired

theorem Live.missing (hfresh : Fresh r₀) (hr : Live r₀ r) : Missing r := by
  induction hr with
  | opened =>
    refine ⟨fun _ => hfresh.approval, fun _ => hfresh.notification, fun _ => hfresh.useRecord, ?_⟩
    rcases hfresh.status with hstatus | hstatus <;> rw [hstatus] <;> nofun
  | @decided r decision _ hdecides _ ih =>
    have hne : (r.withDecision decision).status ≠ .pendingApproval ∧ (r.withDecision decision).status ≠ .expired := by
      unfold withDecision
      cases decision.approve <;> exact ⟨nofun, nofun⟩
    exact ⟨fun hstatus => absurd hstatus hne.1, fun _ => ih.notification (.inl hdecides.pending),
      fun _ => ih.useRecord (by rw [hdecides.pending]; nofun), hne.2⟩
  | notified _ hnotifies _ ih =>
    refine ⟨nofun, fun hstatus => ?_, fun _ => ih.useRecord (by rw [hnotifies.pending]; nofun), nofun⟩
    rcases hstatus with hstatus | hstatus <;> cases hstatus
  | used =>
    refine ⟨nofun, fun hstatus => ?_, fun hstatus => absurd rfl hstatus, nofun⟩
    rcases hstatus with hstatus | hstatus <;> cases hstatus

/-- The three evidence steps of the check. -/
def replayEvidence (replay r : BreakGlassRequest) : Except BreakGlassError BreakGlassRequest := do
  let replay ← replayDecision replay r.approval
  let replay ← replayNotification replay r.notification
  replayUse replay r.useRecord

theorem replayEvidence_eq_ok : replayEvidence r₀ r = .ok t ↔ ∃ a, replayDecision r₀ r.approval = .ok a ∧
      ∃ b, replayNotification a r.notification = .ok b ∧ replayUse b r.useRecord = .ok t := by
  simp only [replayEvidence, bind_eq_ok]

theorem replayNotification_none {a : BreakGlassRequest} (h : replayNotification r none = .ok a) : a = r :=
  (Except.ok.inj h).symm

theorem replayUse_none {a : BreakGlassRequest} (h : replayUse r none = .ok a) : a = r :=
  (Except.ok.inj h).symm

theorem Live.replay (hfresh : Fresh r₀) (hr : Live r₀ r) : replayEvidence r₀ r = .ok r := by
  induction hr with
  | opened =>
    rw [replayEvidence_eq_ok, hfresh.approval, hfresh.notification, hfresh.useRecord]
    exact ⟨r₀, rfl, r₀, rfl, rfl⟩
  | @decided r decision hr hdecides hbefore ih =>
    have hmissing := hr.missing hfresh
    have hnotification := hmissing.notification (.inl hdecides.pending)
    have huse := hmissing.useRecord (by rw [hdecides.pending]; nofun)
    obtain ⟨a, ha, b, hb, hu⟩ := replayEvidence_eq_ok.mp ih
    rw [hmissing.approval hdecides.pending] at ha
    rw [hnotification] at hb
    rw [huse] at hu
    cases ha
    obtain rfl := replayNotification_none hb
    obtain rfl := replayUse_none hu
    refine replayEvidence_eq_ok.mpr ⟨r.withDecision decision, ?_, r.withDecision decision, ?_, ?_⟩
    · simp only [withDecision, replayDecision, decide_of_decides hdecides hbefore]
      rfl
    · simp only [withDecision, hnotification]
      rfl
    · simp only [withDecision, huse]
      rfl
  | @notified r receipt hr hnotifies hbefore ih =>
    have hmissing := hr.missing hfresh
    have huse := hmissing.useRecord (by rw [hnotifies.pending]; nofun)
    obtain ⟨a, ha, b, hb, hu⟩ := replayEvidence_eq_ok.mp ih
    rw [hmissing.notification (.inr hnotifies.pending)] at hb
    rw [huse] at hu
    obtain rfl := replayNotification_none hb
    obtain rfl := replayUse_none hu
    refine replayEvidence_eq_ok.mpr ⟨r, ha, r.withNotification receipt, ?_, ?_⟩
    · simp only [withNotification, replayNotification, recordNotification_of_notifies hnotifies hbefore]
      rfl
    · simp only [withNotification, huse]
      rfl
  | @used r presented now hr huses hbefore ih =>
    obtain ⟨a, ha, _, hb, hu⟩ := replayEvidence_eq_ok.mp ih
    rw [(hr.missing hfresh).useRecord (by rw [huses.active]; nofun)] at hu
    obtain rfl := replayUse_none hu
    have hsame : presentationOf (r.useOf presented now) = presented := by
      rw [presentationOf, useOf, ← huses.subject]
    refine replayEvidence_eq_ok.mpr ⟨a, ha, r, hb, ?_⟩
    simp only [withUse, replayUse, hsame]
    have hused : (r.useOf presented now).usedUnixMs = now := rfl
    rw [hused, authorizeOnce_of_uses huses hbefore]
    simp only [replayed, bind_eq_ok, exists_unit, rejectIf_eq_ok, ne_eq, not_not, pure_eq_ok]
    exact ⟨_, rfl, rfl, rfl⟩

theorem Live.same (hr : Live r₀ r) :
    r.toNewBreakGlassRequest = r₀.toNewBreakGlassRequest ∧ r.subjectDigest = r₀.subjectDigest := by
  induction hr with
  | opened => exact ⟨rfl, rfl⟩
  | decided _ _ _ ih | notified _ _ _ ih | used _ _ _ ih => exact ih

/-! ### The check -/

theorem verifyIntegrity_eq_ok :
    r.verifyIntegrity sha256 = .ok () ↔ ∃ replay, create sha256 r.toNewBreakGlassRequest = .ok replay ∧
      replay.subjectDigest = r.subjectDigest ∧
      ∃ last, replayEvidence replay r = .ok last ∧ replayExpiry last r = r := by
  unfold verifyIntegrity
  cases create sha256 r.toNewBreakGlassRequest with
  | error => simp [bind_eq_ok]
  | ok =>
    simp only [bind_eq_ok, exists_unit, rejectIf_eq_ok, ne_eq, not_not, Except.ok.injEq, exists_eq_left',
      replayEvidence_eq_ok]
    constructor
    · rintro ⟨hsubject, a, ha, b, hb, c, hc, hexpiry⟩
      exact ⟨hsubject, c, ⟨a, ha, b, hb, hc⟩, hexpiry⟩
    · rintro ⟨hsubject, c, ⟨a, ha, b, hb, hc⟩, hexpiry⟩
      exact ⟨hsubject, a, ha, b, hb, c, hc, hexpiry⟩

theorem verifyIntegrity_of_kept {new : NewBreakGlassRequest} (hcreate : create sha256 new = .ok r₀) (hr : Kept r₀ r) :
    r.verifyIntegrity sha256 = .ok () := by
  have hfresh := fresh_create hcreate
  have hnew : r₀.toNewBreakGlassRequest = new := by
    obtain ⟨-, -, -, rfl⟩ := create_spec hcreate
    rfl
  rw [verifyIntegrity_eq_ok]
  rcases hr with hlive | ⟨live, hlive, hopen, rfl⟩
  · obtain ⟨hsame, hsubject⟩ := hlive.same
    refine ⟨r₀, ?_, hsubject.symm, r, hlive.replay hfresh, if_neg (hlive.missing hfresh).expired⟩
    rw [hsame, hnew]
    exact hcreate
  · obtain ⟨hsame, hsubject⟩ := hlive.same
    refine ⟨r₀, ?_, hsubject.symm, live, hlive.replay hfresh, ?_⟩
    · show create sha256 live.toNewBreakGlassRequest = .ok r₀
      rw [hsame, hnew]
      exact hcreate
    · exact (if_pos rfl).trans (if_pos (show _ ∧ _ from ⟨hopen, BitVec.le_refl _⟩))

/-! ### A replay is a run -/

/-- Some calls lead from the first request to the second. -/
def Runs (r t : BreakGlassRequest) : Prop := ∃ h, Run.Reaches step r h t

theorem Runs.trans {u : BreakGlassRequest} (hfirst : Runs r t) (hthen : Runs t u) : Runs r u := by
  obtain ⟨h₁, hfirst⟩ := hfirst
  obtain ⟨h₂, hthen⟩ := hthen
  exact ⟨h₂ ++ h₁, hfirst.trans hthen⟩

theorem runs_step (r : BreakGlassRequest) (op : Operation) : Runs r (r.step op).2 := ⟨_, .call .start op⟩

theorem runs_self (r : BreakGlassRequest) : Runs r r := ⟨[], .start⟩

theorem snd_of_replayed {α : Type} {x : Except BreakGlassError α × BreakGlassRequest} {y : α × BreakGlassRequest}
    (h : replayed x = .ok y) : y.2 = x.2 := by
  unfold replayed at h
  split at h
  · cases h
  · cases h
    rfl

theorem runs_replayDecision {approval : Option BreakGlassApproval} (h : replayDecision r approval = .ok t) :
    Runs r t := by
  cases approval with
  | none =>
    cases h
    exact runs_self r
  | some approval =>
    simp only [replayDecision, bind_eq_ok, pure_eq_ok] at h
    obtain ⟨_, hnext, rfl⟩ := h
    rw [snd_of_replayed hnext]
    exact runs_step r (.decide approval approval.decidedUnixMs)

theorem runs_replayNotification {receipt : Option BreakGlassNotificationReceipt}
    (h : replayNotification r receipt = .ok t) : Runs r t := by
  cases receipt with
  | none =>
    cases h
    exact runs_self r
  | some receipt =>
    simp only [replayNotification, bind_eq_ok, pure_eq_ok] at h
    obtain ⟨_, hnext, rfl⟩ := h
    rw [snd_of_replayed hnext]
    exact runs_step r (.recordNotification receipt receipt.notifiedUnixMs)

theorem runs_replayUse {record : Option BreakGlassUse} (h : replayUse r record = .ok t) : Runs r t := by
  cases record with
  | none =>
    cases h
    exact runs_self r
  | some record =>
    simp only [replayUse, bind_eq_ok, exists_unit, pure_eq_ok] at h
    obtain ⟨_, hnext, -, rfl⟩ := h
    rw [snd_of_replayed hnext]
    exact runs_step r (.authorizeOnce (presentationOf record) record.usedUnixMs)

theorem runs_replayExpiry (replay r : BreakGlassRequest) : Runs replay (replayExpiry replay r) := by
  unfold replayExpiry
  split
  · exact runs_step replay (.refreshExpiry r.expiresUnixMs)
  · exact runs_self replay

/-- The integrity check accepts exactly the requests that some run of the operations produces from some
creation. -/
theorem verifyIntegrity_iff_reachable (sha256 : List UInt8 → ContentDigest) (r : BreakGlassRequest) :
    r.verifyIntegrity sha256 = .ok () ↔
      ∃ new r₀ h, create sha256 new = .ok r₀ ∧ Run.Reaches step r₀ h r := by
  constructor
  · intro hok
    obtain ⟨replay, hcreate, -, last, hlast, hexpiry⟩ := verifyIntegrity_eq_ok.mp hok
    obtain ⟨_, ha, _, hb, hc⟩ := replayEvidence_eq_ok.mp hlast
    have hruns := (runs_replayDecision ha).trans ((runs_replayNotification hb).trans
      ((runs_replayUse hc).trans (runs_replayExpiry last r)))
    rw [hexpiry] at hruns
    obtain ⟨h, hrun⟩ := hruns
    exact ⟨_, replay, h, hcreate, hrun⟩
  · rintro ⟨_, _, _, hcreate, hrun⟩
    exact verifyIntegrity_of_kept hcreate (kept_of_reaches hrun)

end Runtrue.Policy.BreakGlassRequest
