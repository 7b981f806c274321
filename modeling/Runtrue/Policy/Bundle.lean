import Runtrue.Base.JsonText
import Runtrue.Policy.BreakGlass

/-!
# Active policy bundles

The drafts and the active state of the `policy` crate (`active_bundle/`): a draft is simulated, shadowed and
activated, and emergency denies are replaced beside it. `Cedar` collects what the crate takes from the Cedar
library and from JSON serialization, as given functions. A failed operation changes neither the state nor the
draft, so an operation returns an error or its result with the new state and draft.
-/

namespace Runtrue.Policy

open Fallible List
open Expression (isWhitespace)

def bundleDigestDomain : List UInt8 := Text.bytes "runtrue.active-policy-bundle.v1\x00"
def corpusDigestDomain : List UInt8 := Text.bytes "runtrue.policy-simulation-corpus.v1\x00"
def reportDigestDomain : List UInt8 := Text.bytes "runtrue.policy-simulation-report.v1\x00"
def maxCanonicalPolicyBytes : Nat := 1024 * 1024
def maxStoredSimulationCases : Nat := 1024
def maxCallerSimulationCases : Nat := 128
def maxSimulationCorpusBytes : Nat := 2 * 1024 * 1024
def maxIdentifierBytes : Nat := 512

inductive PolicyBundleDraftStatus
  | draft | simulated | shadow | activated | retired
deriving DecidableEq

structure PolicyBundleDraft where
  id : String
  tenantId : String
  authorId : String
  canonicalPolicyJson : String
  digest : ContentDigest
  createdUnixMs : U64
  status : PolicyBundleDraftStatus
  simulationDigest : Option ContentDigest
  simulationPassed : Bool
  activatedPolicyEpoch : Option U64

structure EmergencyDeny where
  id : String
  actions : BTreeSet String
  repositoryId : Option String
  minimumRiskScore : Option U32
  denyPrivileged : Bool
  denyUntrusted : Bool
deriving DecidableEq

structure DenyFirstPolicy where
  emergencyDenies : List EmergencyDeny
deriving DecidableEq

def DenyFirstPolicy.default : DenyFirstPolicy := ⟨[]⟩

structure PolicySimulationCase (Request : Type) where
  id : String
  request : Request
  expectedAllowed : Option Bool

structure PolicySimulationResult where
  caseId : String
  allowed : Bool
  evaluationError : Bool
  expectationMatched : Option Bool

structure PolicySimulationReport where
  policyDigest : ContentDigest
  corpusDigest : ContentDigest
  reportDigest : ContentDigest
  storedCaseCount : Nat
  callerCaseCount : Nat
  evaluationErrorCount : Nat
  expectationMismatchCount : Nat
  results : List PolicySimulationResult

structure ActivatePolicyBundle where
  draftDigest : ContentDigest
  simulationDigest : ContentDigest
  expectedPolicyEpoch : U64
  approvalId : String
  approvedBy : String
  approvedUnixMs : U64

structure ActivatedPolicyBundle where
  draftId : String
  tenantId : String
  authorId : String
  digest : ContentDigest
  canonicalPolicyJson : String
  simulationDigest : ContentDigest
  approvalId : String
  approvedBy : String
  policyEpoch : U64
  activatedUnixMs : U64

structure ActivePolicyBundleState where
  tenantId : String
  policyEpoch : U64
  decisionCacheGeneration : U64
  active : Option ActivatedPolicyBundle
  emergencyDenies : DenyFirstPolicy

inductive ActivePolicyError (CedarError : Type)
  | invalidIdentifier (kind : String)
  | invalidPolicySource
  | canonicalPolicy
  | corruptPolicyDraft
  | nonCanonicalPolicyDraft
  | crossTenantDraft
  | invalidLifecycleTransition
  | simulationCaseLimit
  | simulationByteLimit
  | duplicateSimulationCase (id : String)
  | simulationDigestMismatch
  | activationEvidenceMismatch
  | separationOfDuties
  | invalidActivationTime
  | stalePolicyEpoch (expected actual : U64)
  | staleCacheGeneration (expected actual : U64)
  | epochExhausted
  | cedar (error : CedarError)

/-- A parsed policy set: the policies with their ids. -/
structure CedarPolicies where
  hasTemplates : Bool
  policies : List (String × String)

/-- The Cedar library and the serialization of values, as given functions. -/
structure Cedar (Request Engine CedarError : Type) where
  sha256 : List UInt8 → ContentDigest
  /-- `CedarAuthorizationEngine::new`. -/
  engine : String → DenyFirstPolicy → Except CedarError Engine
  /-- Whether `CedarAuthorizationEngine::authorize` allows. -/
  authorize : Engine → Request → Except CedarError Bool
  /-- `PolicySet::from_str` and `to_json`. -/
  policyJson : String → Option Json
  /-- `PolicySet::from_json_str`. -/
  policiesOfJson : String → Option CedarPolicies
  /-- `serde_json::from_str`. -/
  parseJson : String → Option Json
  /-- `serde_json::to_vec`, as the text that it encodes. -/
  jsonText : Json → String
  corpusJson : List (PolicySimulationCase Request) → List (PolicySimulationCase Request) → Option Json
  reportJson : ContentDigest → ContentDigest → Nat → Nat → List PolicySimulationResult → Option Json

section
variable {Request Engine CedarError : Type}

/-! ### Validation and canonical form -/

def validateIdentifier (kind value : String) : Except (ActivePolicyError CedarError) Unit :=
  rejectIf (value = "" ∨ maxIdentifierBytes < value.utf8ByteSize ∨ (Text.bytes value).any isAsciiControl)
    (.invalidIdentifier kind)

/-- The case ids are identifiers, and no two cases have the same. -/
def validateCases (stored caller : List (PolicySimulationCase Request)) :
    Except (ActivePolicyError CedarError) Unit := do
  let _ ← foldEach (fun (ids : BTreeSet String) (case : PolicySimulationCase Request) => do
    validateIdentifier "policy simulation case id" case.id
    rejectIf (ids.contains case.id) (.duplicateSimulationCase case.id)
    return ids.insert case.id) ∅ (stored ++ caller)
  return ()

def canonicalize (value : Json) : Json := value.sortKeys

variable (cedar : Cedar Request Engine CedarError)

def canonicalText (value : Option Json) : Except (ActivePolicyError CedarError) String := do
  let value ← okOr value .canonicalPolicy
  return cedar.jsonText (canonicalize value)

def canonicalPolicyJson (source : String) : Except (ActivePolicyError CedarError) String := do
  let text ← canonicalText cedar (cedar.policyJson source)
  rejectIf (maxCanonicalPolicyBytes < text.utf8ByteSize) .invalidPolicySource
  return text

def cedarSourceFromCanonicalJson (json : String) : Except (ActivePolicyError CedarError) String := do
  let policies ← okOr (cedar.policiesOfJson json) .canonicalPolicy
  rejectIf policies.hasTemplates .canonicalPolicy
  let sources := policies.policies.mergeSort fun left right => left.1 ≤ right.1
  return "\n".intercalate (sources.map Prod.snd)

def domainDigest (domain bytes : List UInt8) : ContentDigest := cedar.sha256 (domain ++ bytes)

def engineOf (source : String) (denies : DenyFirstPolicy) : Except (ActivePolicyError CedarError) Engine :=
  (cedar.engine source denies).mapError .cedar

def engineFromJson (json : String) (denies : DenyFirstPolicy) : Except (ActivePolicyError CedarError) Engine := do
  let source ← cedarSourceFromCanonicalJson cedar json
  engineOf cedar source denies

/-! ### Drafts -/

namespace PolicyBundleDraft

/-- The evidence that goes with the status of a draft. -/
def hasEvidence (draft : PolicyBundleDraft) : Bool :=
  match draft.status with
  | .draft =>
    draft.simulationDigest.isNone && !draft.simulationPassed && draft.activatedPolicyEpoch.isNone
  | .simulated | .shadow => draft.simulationDigest.isSome && draft.activatedPolicyEpoch.isNone
  | .activated => draft.simulationDigest.isSome && draft.simulationPassed && draft.activatedPolicyEpoch.isSome
  | .retired => true

def verify (draft : PolicyBundleDraft) : Except (ActivePolicyError CedarError) Unit := do
  validateIdentifier "policy bundle draft id" draft.id
  validateIdentifier "policy tenant id" draft.tenantId
  validateIdentifier "policy author id" draft.authorId
  rejectIf (draft.canonicalPolicyJson = "" ∨ maxCanonicalPolicyBytes < draft.canonicalPolicyJson.utf8ByteSize
      ∨ domainDigest cedar bundleDigestDomain (Text.bytes draft.canonicalPolicyJson) ≠ draft.digest)
    .corruptPolicyDraft
  let value ← okOr (cedar.parseJson draft.canonicalPolicyJson) .corruptPolicyDraft
  let text ← canonicalText cedar (some value)
  rejectIf (text ≠ draft.canonicalPolicyJson) .nonCanonicalPolicyDraft
  let _ ← engineFromJson cedar draft.canonicalPolicyJson .default
  rejectIf (draft.hasEvidence = false) .corruptPolicyDraft

def new (id tenantId authorId cedarSource : String) (createdUnixMs : U64) :
    Except (ActivePolicyError CedarError) PolicyBundleDraft := do
  validateIdentifier "policy bundle draft id" id
  validateIdentifier "policy tenant id" tenantId
  validateIdentifier "policy author id" authorId
  rejectIf (cedarSource.toList.all isWhitespace ∨ maxCanonicalPolicyBytes < cedarSource.utf8ByteSize)
    .invalidPolicySource
  let _ ← engineOf cedar cedarSource .default
  let json ← Policy.canonicalPolicyJson cedar cedarSource
  let draft : PolicyBundleDraft :=
    { id, tenantId, authorId, canonicalPolicyJson := json
      digest := domainDigest cedar bundleDigestDomain (Text.bytes json)
      createdUnixMs, status := .draft, simulationDigest := none, simulationPassed := false
      activatedPolicyEpoch := none }
  draft.verify cedar
  return draft

def enterShadow (draft : PolicyBundleDraft) (simulationDigest : ContentDigest) :
    Except (ActivePolicyError CedarError) PolicyBundleDraft := do
  draft.verify cedar
  rejectIf (draft.status ≠ .simulated) .invalidLifecycleTransition
  rejectIf (draft.simulationDigest ≠ some simulationDigest) .simulationDigestMismatch
  return { draft with status := .shadow }

end PolicyBundleDraft

/-! ### Simulation -/

/-- Whether a request is allowed, and whether its evaluation failed. -/
def evaluate (engine : Engine) (request : Request) : Bool × Bool :=
  match cedar.authorize engine request with
  | .ok allowed => (allowed, false)
  | .error _ => (false, true)

def resultOf (engine : Engine) (case : PolicySimulationCase Request) : PolicySimulationResult :=
  let outcome := evaluate cedar engine case.request
  { caseId := case.id, allowed := outcome.1, evaluationError := outcome.2
    expectationMatched := case.expectedAllowed.map fun expected => !outcome.2 && expected = outcome.1 }

namespace PolicySimulationReport

def activationEligible (report : PolicySimulationReport) : Bool :=
  report.evaluationErrorCount = 0 && report.expectationMismatchCount = 0

end PolicySimulationReport

def countErrors (results : List PolicySimulationResult) : Nat :=
  (results.filter fun result => result.evaluationError).length

def countMismatches (results : List PolicySimulationResult) : Nat :=
  (results.filter fun result => result.expectationMatched = some false).length

namespace ActivePolicyBundleState

def new (tenantId : String) : Except (ActivePolicyError CedarError) ActivePolicyBundleState := do
  validateIdentifier "policy tenant id" tenantId
  return { tenantId, policyEpoch := 0, decisionCacheGeneration := 0, active := none, emergencyDenies := .default }

def ensureDraftTenant (state : ActivePolicyBundleState) (draft : PolicyBundleDraft) :
    Except (ActivePolicyError CedarError) Unit := do
  draft.verify cedar
  rejectIf (draft.tenantId ≠ state.tenantId) .crossTenantDraft

def simulate (state : ActivePolicyBundleState) (draft : PolicyBundleDraft)
    (stored caller : List (PolicySimulationCase Request)) :
    Except (ActivePolicyError CedarError) (PolicySimulationReport × PolicyBundleDraft) := do
  state.ensureDraftTenant cedar draft
  rejectIf (draft.status ≠ .draft ∧ draft.status ≠ .simulated) .invalidLifecycleTransition
  rejectIf (maxStoredSimulationCases < stored.length ∨ maxCallerSimulationCases < caller.length
      ∨ stored.isEmpty ∧ caller.isEmpty) .simulationCaseLimit
  validateCases stored caller
  let corpus ← canonicalText cedar (cedar.corpusJson stored caller)
  rejectIf (maxSimulationCorpusBytes < corpus.utf8ByteSize) .simulationByteLimit
  let corpusDigest := domainDigest cedar corpusDigestDomain (Text.bytes corpus)
  let engine ← engineFromJson cedar draft.canonicalPolicyJson state.emergencyDenies
  let results := (stored ++ caller).map (resultOf cedar engine)
  let material ← canonicalText cedar
    (cedar.reportJson draft.digest corpusDigest stored.length caller.length results)
  let report : PolicySimulationReport :=
    { policyDigest := draft.digest, corpusDigest
      reportDigest := domainDigest cedar reportDigestDomain (Text.bytes material)
      storedCaseCount := stored.length, callerCaseCount := caller.length
      evaluationErrorCount := countErrors results, expectationMismatchCount := countMismatches results, results }
  let draft : PolicyBundleDraft :=
    { draft with
      status := .simulated, simulationDigest := some report.reportDigest
      simulationPassed := report.activationEligible }
  return (report, draft)

/-! ### Activation -/

/-- The evidence of an activation that was already made. -/
def isReplay (active : ActivatedPolicyBundle) (draft : PolicyBundleDraft) (activation : ActivatePolicyBundle)
    (expectedActivatedEpoch : U64) : Bool :=
  active.draftId = draft.id && active.digest = activation.draftDigest
    && active.simulationDigest = activation.simulationDigest && active.approvalId = activation.approvalId
    && active.approvedBy = activation.approvedBy && active.activatedUnixMs = activation.approvedUnixMs
    && active.policyEpoch = expectedActivatedEpoch && draft.activatedPolicyEpoch = some active.policyEpoch

def replayActivation (state : ActivePolicyBundleState) (draft : PolicyBundleDraft)
    (activation : ActivatePolicyBundle) : Except (ActivePolicyError CedarError) ActivatedPolicyBundle := do
  let active ← okOr state.active .activationEvidenceMismatch
  let expected ← okOr (Fixed.checkedAdd activation.expectedPolicyEpoch 1) .epochExhausted
  rejectIf (isReplay active draft activation expected = false) .activationEvidenceMismatch
  return active

def bundleOf (draft : PolicyBundleDraft) (activation : ActivatePolicyBundle) (policyEpoch : U64) :
    ActivatedPolicyBundle where
  draftId := draft.id
  tenantId := draft.tenantId
  authorId := draft.authorId
  digest := draft.digest
  canonicalPolicyJson := draft.canonicalPolicyJson
  simulationDigest := activation.simulationDigest
  approvalId := activation.approvalId
  approvedBy := activation.approvedBy
  policyEpoch := policyEpoch
  activatedUnixMs := activation.approvedUnixMs

def checkActivation (state : ActivePolicyBundleState) (draft : PolicyBundleDraft)
    (activation : ActivatePolicyBundle) : Except (ActivePolicyError CedarError) Unit := do
  rejectIf (draft.status ≠ .shadow ∨ draft.simulationPassed = false) .invalidLifecycleTransition
  rejectIf (activation.draftDigest ≠ draft.digest ∨ draft.simulationDigest ≠ some activation.simulationDigest)
    .activationEvidenceMismatch
  validateIdentifier "policy activation approval id" activation.approvalId
  validateIdentifier "policy activation approver" activation.approvedBy
  rejectIf (activation.approvedBy = draft.authorId) .separationOfDuties
  rejectIf (activation.approvedUnixMs < draft.createdUnixMs) .invalidActivationTime
  rejectIf (activation.expectedPolicyEpoch ≠ state.policyEpoch)
    (.stalePolicyEpoch state.policyEpoch activation.expectedPolicyEpoch)

/-- The active bundle, and the state and the draft after the call. -/
def activate (state : ActivePolicyBundleState) (draft : PolicyBundleDraft) (activation : ActivatePolicyBundle) :
    Except (ActivePolicyError CedarError) (ActivatedPolicyBundle × ActivePolicyBundleState × PolicyBundleDraft) := do
  state.ensureDraftTenant cedar draft
  if draft.status = .activated then
    let active ← state.replayActivation draft activation
    return (active, state, draft)
  else
    state.checkActivation draft activation
    let policyEpoch ← okOr (Fixed.checkedAdd state.policyEpoch 1) .epochExhausted
    let generation ← okOr (Fixed.checkedAdd state.decisionCacheGeneration 1) .epochExhausted
    let active := bundleOf draft activation policyEpoch
    return (active, { state with decisionCacheGeneration := generation, policyEpoch, active := some active },
      { draft with status := .activated, activatedPolicyEpoch := some policyEpoch })

def activeSource (state : ActivePolicyBundleState) : Except (ActivePolicyError CedarError) String :=
  match state.active with
  | none => .ok ""
  | some active => cedarSourceFromCanonicalJson cedar active.canonicalPolicyJson

def replaceEmergencyDenies (state : ActivePolicyBundleState) (denies : DenyFirstPolicy)
    (expectedCacheGeneration : U64) : Except (ActivePolicyError CedarError) (Bool × ActivePolicyBundleState) := do
  if denies = state.emergencyDenies then
    return (false, state)
  else
    rejectIf (expectedCacheGeneration ≠ state.decisionCacheGeneration)
      (.staleCacheGeneration state.decisionCacheGeneration expectedCacheGeneration)
    let source ← state.activeSource cedar
    let _ ← engineOf cedar source denies
    let generation ← okOr (Fixed.checkedAdd state.decisionCacheGeneration 1) .epochExhausted
    return (true, { state with decisionCacheGeneration := generation, emergencyDenies := denies })

end ActivePolicyBundleState

/-! ### What a successful operation does -/

variable {cedar} {state state' : ActivePolicyBundleState} {draft draft' : PolicyBundleDraft}

theorem PolicyBundleDraft.new_spec {id tenantId authorId source : String} {created : U64}
    (h : PolicyBundleDraft.new cedar id tenantId authorId source created = .ok draft) :
    draft.simulationDigest = none ∧ draft.simulationPassed = false := by
  simp only [PolicyBundleDraft.new, bind_eq_ok, exists_unit, pure_eq_ok] at h
  obtain ⟨-, -, -, -, _, -, _, -, -, rfl⟩ := h
  exact ⟨rfl, rfl⟩

theorem PolicyBundleDraft.enterShadow_spec {simulationDigest : ContentDigest}
    (h : draft.enterShadow cedar simulationDigest = .ok draft') : draft' = { draft with status := .shadow } := by
  simp only [PolicyBundleDraft.enterShadow, bind_eq_ok, exists_unit, pure_eq_ok] at h
  obtain ⟨-, -, -, rfl⟩ := h
  rfl

/-- No result has an evaluation error or misses its expectation. -/
def PolicySimulationReport.Clean (report : PolicySimulationReport) : Prop :=
  report.evaluationErrorCount = 0 ∧ report.expectationMismatchCount = 0 ∧
    ∀ result ∈ report.results, result.evaluationError = false ∧ result.expectationMatched ≠ some false

namespace ActivePolicyBundleState

theorem simulate_spec {stored caller : List (PolicySimulationCase Request)} {report : PolicySimulationReport}
    (h : state.simulate cedar draft stored caller = .ok (report, draft')) :
    draft'.simulationDigest = some report.reportDigest ∧ (draft'.simulationPassed = true → report.Clean) := by
  simp only [simulate, bind_eq_ok, exists_unit, pure_eq_ok, Prod.mk.injEq] at h
  obtain ⟨-, -, -, -, _, -, -, _, -, _, -, rfl, rfl⟩ := h
  refine ⟨rfl, fun hpassed => ?_⟩
  simp only [PolicySimulationReport.activationEligible, Bool.and_eq_true, decide_eq_true_eq] at hpassed
  obtain ⟨herrors, hmismatches⟩ := hpassed
  refine ⟨herrors, hmismatches, fun result hmem => ⟨?_, fun hfalse => ?_⟩⟩
  · rw [countErrors, length_eq_zero_iff, filter_eq_nil_iff] at herrors
    exact Bool.not_eq_true _ ▸ herrors result hmem
  · rw [countMismatches, length_eq_zero_iff, filter_eq_nil_iff] at hmismatches
    exact hmismatches result hmem (decide_eq_true hfalse)

/-- What a first activation has checked, and the next state. -/
structure Activates (state : ActivePolicyBundleState) (draft : PolicyBundleDraft) (active : ActivatedPolicyBundle)
    (state' : ActivePolicyBundleState) : Prop where
  epoch : state'.policyEpoch.toNat = state.policyEpoch.toNat + 1
  generation : state'.decisionCacheGeneration.toNat = state.decisionCacheGeneration.toNat + 1
  installed : state'.active = some active
  passed : draft.simulationPassed = true
  simulation : draft.simulationDigest = some active.simulationDigest
  source : active.draftId = draft.id ∧ active.tenantId = draft.tenantId ∧ active.authorId = draft.authorId ∧
    active.digest = draft.digest ∧ active.canonicalPolicyJson = draft.canonicalPolicyJson
  approver : active.approvedBy ≠ active.authorId
  activeEpoch : active.policyEpoch = state'.policyEpoch

theorem activate_spec {activation : ActivatePolicyBundle} {active : ActivatedPolicyBundle}
    (h : state.activate cedar draft activation = .ok (active, state', draft')) :
    draft'.simulationDigest = draft.simulationDigest ∧ draft'.simulationPassed = draft.simulationPassed ∧
      (state' = state ∨ Activates state draft active state') := by
  unfold activate at h
  split at h
  · simp only [bind_eq_ok, exists_unit, pure_eq_ok, Prod.mk.injEq] at h
    obtain ⟨-, _, -, rfl, rfl, rfl⟩ := h
    exact ⟨rfl, rfl, .inl rfl⟩
  · simp only [checkActivation, bind_eq_ok, exists_unit, pure_eq_ok, rejectIf_eq_ok, okOr_eq_ok, not_or, ne_eq,
      not_not, Bool.not_eq_false, Prod.mk.injEq] at h
    obtain ⟨-, ⟨⟨-, hpassed⟩, ⟨-, hsimulation⟩, -, -, hother, -, -⟩, _, hepoch, _, hgeneration, rfl, rfl,
      rfl⟩ := h
    rw [Fixed.checkedAdd_eq_some] at hepoch hgeneration
    exact ⟨rfl, rfl, .inr ⟨hepoch, hgeneration, rfl, hpassed, hsimulation, ⟨rfl, rfl, rfl, rfl, rfl⟩, hother, rfl⟩⟩

theorem replaceEmergencyDenies_spec {denies : DenyFirstPolicy} {expected : U64} {changed : Bool}
    (h : state.replaceEmergencyDenies cedar denies expected = .ok (changed, state')) :
    state' = state ∨ state'.decisionCacheGeneration.toNat = state.decisionCacheGeneration.toNat + 1 ∧
      state'.policyEpoch = state.policyEpoch ∧ state'.active = state.active := by
  unfold replaceEmergencyDenies at h
  split at h
  · simp only [pure_eq_ok, Prod.mk.injEq] at h
    exact .inl h.2.symm
  · simp only [bind_eq_ok, exists_unit, pure_eq_ok, rejectIf_eq_ok, okOr_eq_ok, Prod.mk.injEq] at h
    obtain ⟨-, _, -, _, -, _, hgeneration, -, rfl⟩ := h
    exact .inr ⟨Fixed.checkedAdd_eq_some.mp hgeneration, rfl, rfl⟩

end ActivePolicyBundleState

end

end Runtrue.Policy
