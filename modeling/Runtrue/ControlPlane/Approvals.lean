import Runtrue.ControlPlane.Store
import Runtrue.Policy.Approval

/-!
# The approval a run is admitted under

`authorize_required_approval_tx` (`store/runs/approvals.rs`): of the approved requests for a subject it selects the
oldest one that fits the capsule, and only then asks it for its authority. The columns `subject_digest`, `status` and
`created_unix_ms` of a row are written from its request and are read there.
-/

namespace Runtrue.ControlPlane

open Fallible List Bool
open Policy (ApprovalKind ApprovalRequest)

structure ApprovalRow where
  repositoryId : String
  capsuleId : String
  request : ApprovalRequest

structure AuthorizedRunApproval where
  approvalId : String
  kind : ApprovalKind
  subjectDigest : ContentDigest
  oneShot : Bool

/-- The approval requests, and the repository of each capsule. -/
structure ApprovalTables where
  repositoryOf : BTreeMap String String
  requests : BTreeMap String ApprovalRow

namespace ApprovalTables

/-- The columns that the query sorts by. -/
def turn (entry : String × ApprovalRow) : Nat ×ₗ String := toLex (entry.2.request.createdUnixMs, entry.1)

def candidates (s : ApprovalTables) (capsuleId repositoryId : String) (subjectDigest : ContentDigest) :
    List (String × ApprovalRow) :=
  (s.requests.toList.filter fun entry => decide (entry.2.request.subjectDigest = subjectDigest)
    && decide (entry.2.request.status = .approved)
    && (decide (entry.2.capsuleId = capsuleId) || decide (entry.2.repositoryId = repositoryId))).insertionSort
      fun a b => turn a ≤ turn b

/-- The row is for this capsule, or a privileged grant that can be used again. -/
def fits (capsuleId : String) (kind : ApprovalKind) (entry : String × ApprovalRow) : Bool :=
  decide (entry.2.request.kind = kind) && (decide (entry.2.capsuleId = capsuleId)
    || decide (kind = .privilegedExecution) && !entry.2.request.rule.oneShot)

def authorizeRequiredApproval (s : ApprovalTables) (capsuleId : String)
    (approvalSubjectDigest runSubjectDigest : ContentDigest) (kind : ApprovalKind) (now : Nat) :
    Except Error (AuthorizedRunApproval × ApprovalTables) := do
  let repositoryId ← okOr s.repositoryOf[capsuleId]? (.other "query returned no rows")
  let (id, row) ← okOr ((s.candidates capsuleId repositoryId approvalSubjectDigest).find? (fits capsuleId kind))
    .approvalRequired
  match row.request.authorize approvalSubjectDigest now with
  | (.error _, _) => throw .approvalRequired
  | (.ok (), request) =>
    return (⟨id, kind, runSubjectDigest, request.rule.oneShot⟩,
      { s with requests := s.requests.insert id { row with request } })

end ApprovalTables

/-- The row holds an approval for runs of the capsule. -/
structure ApprovalRow.Approves (row : ApprovalRow) (capsuleId repositoryId : String) (subjectDigest : ContentDigest)
    (kind : ApprovalKind) : Prop where
  status : row.request.status = .approved
  ofKind : row.request.kind = kind
  ofSubject : row.request.subjectDigest = subjectDigest
  bound : row.capsuleId = capsuleId ∨
    row.repositoryId = repositoryId ∧ kind = .privilegedExecution ∧ row.request.rule.oneShot = false

namespace ApprovalTables

variable {s : ApprovalTables} {capsuleId repositoryId id : String} {subject : ContentDigest} {kind : ApprovalKind}
  {row : ApprovalRow}

theorem mem_candidates_fits :
    (id, row) ∈ s.candidates capsuleId repositoryId subject ∧ fits capsuleId kind (id, row) = true ↔
      s.requests[id]? = some row ∧ row.Approves capsuleId repositoryId subject kind := by
  simp only [candidates, fits, mem_insertionSort, mem_filter, BTreeMap.mem_toList, and_eq_true,
    or_eq_true, decide_eq_true_eq, not_eq_true']
  constructor
  · rintro ⟨⟨hrow, ⟨hsubject, hstatus⟩, hquery⟩, hkind, hfits⟩
    refine ⟨hrow, hstatus, hkind, hsubject, ?_⟩
    rcases hquery with hcapsule | hrepository
    · exact .inl hcapsule
    · exact hfits.imp_right (⟨hrepository, ·⟩)
  · rintro ⟨hrow, hstatus, hkind, hsubject, hcapsule | ⟨hrepository, hgrant⟩⟩
    · exact ⟨⟨hrow, ⟨hsubject, hstatus⟩, .inl hcapsule⟩, hkind, .inl hcapsule⟩
    · exact ⟨⟨hrow, ⟨hsubject, hstatus⟩, .inr hrepository⟩, hkind, .inr hgrant⟩

theorem exists_selected (hrow : s.requests[id]? = some row)
    (happroves : row.Approves capsuleId repositoryId subject kind) :
    ∃ id' row', (s.candidates capsuleId repositoryId subject).find? (fits capsuleId kind) = some (id', row') ∧
      (s.requests[id']? = some row' ∧ row'.Approves capsuleId repositoryId subject kind) ∧
      turn (id', row') ≤ turn (id, row) := by
  obtain ⟨hmem, hfits⟩ := mem_candidates_fits.mpr ⟨hrow, happroves⟩
  cases hfind : (s.candidates capsuleId repositoryId subject).find? (fits capsuleId kind) with
  | none => exact absurd hfits (find?_eq_none.mp hfind _ hmem)
  | some found =>
    refine ⟨found.1, found.2, rfl,
      mem_candidates_fits.mp ⟨mem_of_find?_eq_some hfind, find?_some hfind⟩, ?_⟩
    obtain ⟨-, _, _, hsplit, hbefore⟩ := find?_eq_some_iff_append.mp hfind
    have hsorted : (s.candidates capsuleId repositoryId subject).Pairwise _ :=
      @List.pairwise_insertionSort (String × ApprovalRow) (fun a b => turn a ≤ turn b) _
        ⟨fun _ _ => le_total _ _⟩ ⟨fun _ _ _ => le_trans⟩ _
    rw [hsplit] at hmem hsorted
    rcases mem_append.mp hmem with hmem | hmem
    · have hnot := hbefore _ hmem
      rw [hfits] at hnot
      cases hnot
    · rcases mem_cons.mp hmem with heq | hmem
      · rw [heq]
      · exact rel_of_pairwise_cons (pairwise_append.mp hsorted).2.1 hmem

/-- **An approval is found exactly if the first one that fits has not expired**; nothing else is consumed. -/
theorem usable_approval_found (hcapsule : s.repositoryOf[capsuleId]? = some repositoryId)
    (hrow : s.requests[id]? = some row) (happroves : row.Approves capsuleId repositoryId subject kind)
    (now : Nat) (runSubject : ContentDigest) :
    (∃ found row', (s.requests[found]? = some row' ∧ row'.Approves capsuleId repositoryId subject kind ∧
        now < row'.request.expiresUnixMs) ∧
      s.authorizeRequiredApproval capsuleId subject runSubject kind now =
        .ok (⟨found, kind, runSubject, row'.request.rule.oneShot⟩, { s with
          requests := s.requests.insert found { row' with request :=
            if row'.request.rule.oneShot then { row'.request with status := .consumed } else row'.request } })) ↔
      ∀ first row', s.requests[first]? = some row' → row'.Approves capsuleId repositoryId subject kind →
        (∀ id' other, s.requests[id']? = some other → other.Approves capsuleId repositoryId subject kind →
          turn (first, row') ≤ turn (id', other)) → now < row'.request.expiresUnixMs := by
  obtain ⟨found, row', hfind, ⟨hrow', happroves'⟩, -⟩ := exists_selected hrow happroves
  have hleast : ∀ id' other, s.requests[id']? = some other →
      other.Approves capsuleId repositoryId subject kind → turn (found, row') ≤ turn (id', other) := by
    intro id' other hother hfits
    obtain ⟨_, _, hfind', -, hle⟩ := exists_selected hother hfits
    cases hfind.symm.trans hfind'
    exact hle
  constructor
  · rintro ⟨_, _, -, hcall⟩ first row'' hrow'' happroves'' hfirst
    have hsame : turn (first, row'') = turn (found, row') :=
      le_antisymm (hfirst found row' hrow' happroves') (hleast first row'' hrow'' happroves'')
    obtain rfl : first = found := (Prod.mk.inj (toLex.injective hsame)).2
    cases hrow'.symm.trans hrow''
    simp only [authorizeRequiredApproval, hcapsule, hfind, okOr, ok_bind] at hcall
    rcases ApprovalRequest.authorize_cases row'.request subject now with ⟨_, herror⟩ | ⟨-, -, hbefore, -⟩
    · rw [herror] at hcall
      cases hcall
    · exact hbefore
  · intro hfirst
    have hbefore := hfirst found row' hrow' happroves' hleast
    have hcall := ApprovalRequest.authorize_of_approved happroves'.ofSubject happroves'.status hbefore
    refine ⟨found, row', ⟨hrow', happroves', hbefore⟩, ?_⟩
    simp only [authorizeRequiredApproval, hcapsule, hfind, hcall, okOr, ok_bind]
    split <;> rfl

def approvedReview : ApprovalRequest :=
  (ApprovalRequest.review.decide ⟨"reviewer", .approve, "reviewed", "rule", ⟨0⟩, 2⟩ 2).2

/-- Two approvals of one capsule: the first expires at 10, the second at 100. -/
def twoApprovals : ApprovalTables where
  repositoryOf := (∅ : BTreeMap String String).insert "capsule" "repository"
  requests := ((∅ : BTreeMap String ApprovalRow).insert "first" ⟨"repository", "capsule", approvedReview⟩).insert
    "second" ⟨"repository", "capsule", { approvedReview with createdUnixMs := 2, expiresUnixMs := 100 }⟩

theorem usable_approval_found_second :
    ∃ found oneShot t, twoApprovals.authorizeRequiredApproval "capsule" ⟨0⟩ ⟨1⟩ .privilegedExecution 5 =
      .ok (⟨found, .privilegedExecution, ⟨1⟩, oneShot⟩, t) := by
  have hall : ∀ p ∈ twoApprovals.requests.toList, 5 < p.2.request.expiresUnixMs := by decide +kernel
  obtain ⟨found, row, -, hcall⟩ := (@usable_approval_found twoApprovals "capsule" "repository" "second" ⟨0⟩
    .privilegedExecution _ (BTreeMap.get_insert_self _ _ _) (BTreeMap.get_insert_self _ _ _)
    ⟨by decide +kernel, rfl, rfl, .inl rfl⟩ 5 ⟨1⟩).mpr
      fun id row hrow _ _ => hall (id, row) (BTreeMap.mem_toList.mpr hrow)
  exact ⟨found, _, _, hcall⟩

/-- After 10 the first hides the second. -/
theorem expired_approval_hides_usable :
    ∃ row, (twoApprovals.requests["second"]? = some row ∧
        row.Approves "capsule" "repository" ⟨0⟩ .privilegedExecution ∧ 20 < row.request.expiresUnixMs) ∧
      twoApprovals.authorizeRequiredApproval "capsule" ⟨0⟩ ⟨1⟩ .privilegedExecution 20 =
        .error .approvalRequired :=
  ⟨_, ⟨rfl, ⟨rfl, rfl, rfl, .inl rfl⟩, by decide⟩, rfl⟩

end ApprovalTables

end Runtrue.ControlPlane
