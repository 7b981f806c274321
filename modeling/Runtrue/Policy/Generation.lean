import Runtrue.Policy.Bundle

/-!
# The decision-cache generation identifies the policy

A system is one active state with any number of drafts beside it, under handles. Drafts are created, copied, or
loaded from elsewhere with whatever they hold; the calls simulate, shadow and activate any of them, in any order,
and replace the emergency denies. `Moves` says what a call can do to the active state: nothing, or one step of the
generation. Over a run this orders all moments by their generation, and two moments of one generation are under the
same policy.

Where the active bundle comes from is read off the history: `lastReport` is the report of the last simulation of a
draft, and `known` tells the drafts whose last simulation is part of the run from those that were loaded.
-/

namespace Runtrue.Policy

open Fallible BitVec List Run

structure PolicySystem where
  state : ActivePolicyBundleState
  drafts : BTreeMap Nat PolicyBundleDraft

namespace PolicySystem

variable {Request Engine CedarError : Type}

inductive Operation (Request : Type)
  | create (handle : Nat) (id tenantId authorId cedarSource : String) (createdUnixMs : U64)
  | load (handle : Nat) (draft : PolicyBundleDraft)
  | copy (handle target : Nat)
  | simulate (handle : Nat) (stored caller : List (PolicySimulationCase Request))
  | enterShadow (handle : Nat) (simulationDigest : ContentDigest)
  | activate (handle : Nat) (activation : ActivatePolicyBundle)
  | replaceEmergencyDenies (denies : DenyFirstPolicy) (expectedCacheGeneration : U64)

inductive Reply (CedarError : Type)
  | created (result : Except (ActivePolicyError CedarError) Unit)
  | loaded
  | copied
  | simulated (result : Except (ActivePolicyError CedarError) PolicySimulationReport)
  | shadowed (result : Except (ActivePolicyError CedarError) Unit)
  | activated (result : Except (ActivePolicyError CedarError) ActivatedPolicyBundle)
  | replaced (result : Except (ActivePolicyError CedarError) Bool)
  /-- No draft has the handle. -/
  | missing

abbrev Event (Request CedarError : Type) := Run.Event PolicySystem (Operation Request) (Reply CedarError)

def setDraft (s : PolicySystem) (handle : Nat) (draft : PolicyBundleDraft) : PolicySystem :=
  { s with drafts := s.drafts.insert handle draft }

def step (cedar : Cedar Request Engine CedarError) (s : PolicySystem) :
    Operation Request → Reply CedarError × PolicySystem
  | .create handle id tenantId authorId cedarSource createdUnixMs =>
    match PolicyBundleDraft.new cedar id tenantId authorId cedarSource createdUnixMs with
    | .error error => (.created (.error error), s)
    | .ok draft => (.created (.ok ()), s.setDraft handle draft)
  | .load handle draft => (.loaded, s.setDraft handle draft)
  | .copy handle target =>
    match s.drafts[handle]? with
    | none => (.missing, s)
    | some draft => (.copied, s.setDraft target draft)
  | .simulate handle stored caller =>
    match s.drafts[handle]? with
    | none => (.missing, s)
    | some draft =>
      match s.state.simulate cedar draft stored caller with
      | .error error => (.simulated (.error error), s)
      | .ok (report, draft') => (.simulated (.ok report), s.setDraft handle draft')
  | .enterShadow handle simulationDigest =>
    match s.drafts[handle]? with
    | none => (.missing, s)
    | some draft =>
      match draft.enterShadow cedar simulationDigest with
      | .error error => (.shadowed (.error error), s)
      | .ok draft' => (.shadowed (.ok ()), s.setDraft handle draft')
  | .activate handle activation =>
    match s.drafts[handle]? with
    | none => (.missing, s)
    | some draft =>
      match s.state.activate cedar draft activation with
      | .error error => (.activated (.error error), s)
      | .ok (active, state, draft') => (.activated (.ok active), { s with state }.setDraft handle draft')
  | .replaceEmergencyDenies denies expectedCacheGeneration =>
    match s.state.replaceEmergencyDenies cedar denies expectedCacheGeneration with
    | .error error => (.replaced (.error error), s)
    | .ok (changed, state) => (.replaced (.ok changed), { s with state })

/-! ### The last simulation of a draft -/

/-- The draft under a handle was created or simulated in the run, or copied from one that was. -/
def known : List (Event Request CedarError) → Nat → Bool
  | [], _ => false
  | ⟨_, .create handle .., .created (.ok ())⟩ :: h, k => if handle = k then true else known h k
  | ⟨_, .load handle _, _⟩ :: h, k => if handle = k then false else known h k
  | ⟨_, .copy handle target, .copied⟩ :: h, k => if target = k then known h handle else known h k
  | ⟨_, .simulate handle _ _, .simulated (.ok _)⟩ :: h, k => if handle = k then true else known h k
  | _ :: h, k => known h k

/-- The report of the last successful simulation of the draft under a handle. -/
def lastReport : List (Event Request CedarError) → Nat → Option PolicySimulationReport
  | [], _ => none
  | ⟨_, .create handle .., .created (.ok ())⟩ :: h, k => if handle = k then none else lastReport h k
  | ⟨_, .copy handle target, .copied⟩ :: h, k => if target = k then lastReport h handle else lastReport h k
  | ⟨_, .simulate handle _ _, .simulated (.ok report)⟩ :: h, k =>
    if handle = k then some report else lastReport h k
  | _ :: h, k => lastReport h k

/-- What a draft says about its last simulation. -/
def Reported (report : Option PolicySimulationReport) (draft : PolicyBundleDraft) : Prop :=
  draft.simulationDigest = report.map PolicySimulationReport.reportDigest ∧
    (draft.simulationPassed = true → ∀ r ∈ report, r.Clean)

def DraftsReported (h : List (Event Request CedarError)) (s : PolicySystem) : Prop :=
  ∀ {k : Nat} {draft : PolicyBundleDraft}, s.drafts[k]? = some draft → known h k = true →
    Reported (lastReport h k) draft

variable {cedar : Cedar Request Engine CedarError} {h : List (Event Request CedarError)} {s : PolicySystem}

theorem get_setDraft {handle k : Nat} {draft d : PolicyBundleDraft} : (s.setDraft handle draft).drafts[k]? = some d ↔
      handle = k ∧ draft = d ∨ handle ≠ k ∧ s.drafts[k]? = some d :=
  BTreeMap.get_insert_eq_some

theorem DraftsReported.step (hs : DraftsReported h s) (op : Operation Request) :
    DraftsReported (⟨s, op, (s.step cedar op).1⟩ :: h) (s.step cedar op).2 := by
  fun_cases PolicySystem.step cedar s op with
  | case2 _ _ _ _ _ _ _ hnew =>
    intro k draft hget hknown
    simp only [known, lastReport] at hknown ⊢
    rcases get_setDraft.mp hget with ⟨rfl, rfl⟩ | ⟨hne, hold⟩
    · rw [if_pos rfl]
      exact ⟨(PolicyBundleDraft.new_spec hnew).1, fun _ r hr => (nomatch hr)⟩
    · rw [if_neg hne] at hknown ⊢
      exact hs hold hknown
  | case3 =>
    intro k draft hget hknown
    simp only [known] at hknown
    rcases get_setDraft.mp hget with ⟨rfl, rfl⟩ | ⟨hne, hold⟩
    · rw [if_pos rfl] at hknown
      cases hknown
    · rw [if_neg hne] at hknown
      exact hs hold hknown
  | case5 _ _ _ hdraft =>
    intro k draft hget hknown
    simp only [known, lastReport] at hknown ⊢
    rcases get_setDraft.mp hget with ⟨rfl, rfl⟩ | ⟨hne, hold⟩
    · rw [if_pos rfl] at hknown ⊢
      exact hs hdraft hknown
    · rw [if_neg hne] at hknown ⊢
      exact hs hold hknown
  | case8 _ _ _ _ _ _ _ hcall =>
    intro k draft hget hknown
    obtain ⟨hdigest, hclean⟩ := ActivePolicyBundleState.simulate_spec hcall
    simp only [known, lastReport] at hknown ⊢
    rcases get_setDraft.mp hget with ⟨rfl, rfl⟩ | ⟨hne, hold⟩
    · rw [if_pos rfl]
      refine ⟨hdigest, fun hpassed r hr => ?_⟩
      cases hr
      exact hclean hpassed
    · rw [if_neg hne] at hknown ⊢
      exact hs hold hknown
  | case11 _ _ _ hdraft _ hcall =>
    intro k draft hget hknown
    obtain rfl := PolicyBundleDraft.enterShadow_spec hcall
    rcases get_setDraft.mp hget with ⟨rfl, rfl⟩ | ⟨-, hold⟩
    · have hold := hs hdraft hknown
      exact ⟨hold.1, hold.2⟩
    · exact hs hold hknown
  | case14 _ _ _ hdraft _ _ _ hcall =>
    intro k draft hget hknown
    obtain ⟨hdigest, hpassed, -⟩ := ActivePolicyBundleState.activate_spec hcall
    rcases get_setDraft.mp hget with ⟨rfl, rfl⟩ | ⟨-, hold⟩
    · have hold := hs hdraft hknown
      exact ⟨hdigest.trans hold.1, fun hp => hold.2 (hpassed ▸ hp)⟩
    · exact hs hold hknown
  -- a call that is refused, and one that concerns no draft
  | _ => exact hs

theorem draftsReported_of_reaches {s₀ : PolicySystem} (hempty : s₀.drafts = ∅)
    (hrun : Reaches (step cedar) s₀ h s) : DraftsReported h s := by
  induction hrun with
  | start =>
    intro k _ hget
    rw [hempty] at hget
    simp at hget
  | call _ op ih => exact ih.step op

/-! ### What one call does to the active state -/

/-- Nothing, a first activation of a draft, or new emergency denies. -/
inductive Moves (cedar : Cedar Request Engine CedarError) (s : PolicySystem) (op : Operation Request) : Prop
  | stays (h : (s.step cedar op).2.state = s.state)
  | activates (handle : Nat) (activation : ActivatePolicyBundle) (draft : PolicyBundleDraft)
      (active : ActivatedPolicyBundle) (hop : op = .activate handle activation)
      (hdraft : s.drafts[handle]? = some draft) (hreply : (s.step cedar op).1 = .activated (.ok active))
      (h : s.state.Activates draft active (s.step cedar op).2.state)
  | denies
      (generation : (s.step cedar op).2.state.decisionCacheGeneration.toNat = s.state.decisionCacheGeneration.toNat + 1)
      (epoch : (s.step cedar op).2.state.policyEpoch = s.state.policyEpoch)
      (active : (s.step cedar op).2.state.active = s.state.active)

theorem moves (cedar : Cedar Request Engine CedarError) (s : PolicySystem) (op : Operation Request) :
    Moves cedar s op := by
  cases op with
  | create | copy => exact .stays (by simp only [step]; split <;> rfl)
  | load => exact .stays rfl
  | simulate | enterShadow => exact .stays (by simp only [step]; split <;> [rfl; split <;> rfl])
  | activate handle activation =>
    cases hdraft : s.drafts[handle]? with
    | none => exact .stays (by simp only [step, hdraft])
    | some draft =>
      cases hcall : s.state.activate cedar draft activation with
      | error => exact .stays (by simp only [step, hdraft, hcall])
      | ok result =>
        obtain ⟨active, state, _⟩ := result
        obtain ⟨-, -, rfl | hactivates⟩ := ActivePolicyBundleState.activate_spec hcall
        · exact .stays (by simp only [step, hdraft, hcall, setDraft])
        · refine .activates handle activation draft active rfl hdraft ?_ ?_
          · simp only [step, hdraft, hcall]
          · simp only [step, hdraft, hcall, setDraft]
            exact hactivates
  | replaceEmergencyDenies denies expected =>
    cases hcall : s.state.replaceEmergencyDenies cedar denies expected with
    | error => exact .stays (by simp only [step, hcall])
    | ok result =>
      obtain ⟨_, _⟩ := result
      rcases ActivePolicyBundleState.replaceEmergencyDenies_spec hcall with rfl | ⟨hgeneration, hepoch, hactive⟩
      · exact .stays (by simp only [step, hcall])
      · refine .denies ?_ ?_ ?_ <;> simp only [step, hcall]
        · exact hgeneration
        · exact hepoch
        · exact hactive

/-! ### Runs -/

/-- A later moment of a run and an earlier one: the generation has not fallen, and if it is the same then so is
the policy. -/
def Follows (later earlier : ActivePolicyBundleState) : Prop :=
  earlier.decisionCacheGeneration ≤ later.decisionCacheGeneration ∧
    (earlier.decisionCacheGeneration = later.decisionCacheGeneration →
      earlier.active = later.active ∧ earlier.emergencyDenies = later.emergencyDenies)

theorem follows_step (cedar : Cedar Request Engine CedarError) (s : PolicySystem) (op : Operation Request) :
    Follows (s.step cedar op).2.state s.state := by
  have hgrows : ∀ {later earlier : ActivePolicyBundleState},
      later.decisionCacheGeneration.toNat = earlier.decisionCacheGeneration.toNat + 1 → Follows later earlier := by
    intro _ _ hnext
    refine ⟨le_def.mpr (by omega), fun hsame => ?_⟩
    rw [hsame] at hnext
    omega
  cases moves cedar s op with
  | stays h =>
    rw [h]
    exact ⟨BitVec.le_refl _, fun _ => ⟨rfl, rfl⟩⟩
  | activates _ _ _ _ _ _ _ h => exact hgrows h.generation
  | denies generation => exact hgrows generation

theorem Follows.trans {a b c : ActivePolicyBundleState} (hab : Follows b a) (hbc : Follows c b) : Follows c a := by
  refine ⟨BitVec.le_trans hab.1 hbc.1, fun hsame => ?_⟩
  -- The generation between two equal ones is the same.
  have hmid : a.decisionCacheGeneration = b.decisionCacheGeneration :=
    BitVec.le_antisymm hab.1 (hsame ▸ hbc.1)
  obtain ⟨hactive, hdenies⟩ := hab.2 hmid
  obtain ⟨hactive', hdenies'⟩ := hbc.2 (hmid.symm.trans hsame)
  exact ⟨hactive.trans hactive', hdenies.trans hdenies'⟩

/-- The active states of a run, newest first. -/
def moments (h : List (Event Request CedarError)) (s : PolicySystem) : List ActivePolicyBundleState :=
  s.state :: h.map fun e => e.before.state

theorem moments_pairwise {s₀ : PolicySystem} (hrun : Reaches (step cedar) s₀ h s) :
    (moments h s).Pairwise Follows := by
  induction hrun with
  | start => exact pairwise_singleton _ _
  | @call _ s _ op ih =>
    refine pairwise_cons.mpr ⟨fun earlier hmem => ?_, ih⟩
    have hstep := follows_step cedar s op
    rcases mem_cons.mp hmem with rfl | hmem
    · exact hstep
    · exact ((pairwise_cons.mp ih).1 earlier hmem).trans hstep

/-- The epoch is the active bundle's, and not above the generation. -/
structure Numbered (state : ActivePolicyBundleState) : Prop where
  bound : state.policyEpoch ≤ state.decisionCacheGeneration
  active : ∀ active, state.active = some active → active.policyEpoch = state.policyEpoch
  inactive : state.active = none → state.policyEpoch = 0

theorem Numbered.step (hs : Numbered s.state) (op : Operation Request) : Numbered (s.step cedar op).2.state := by
  have hbound := le_def.mp hs.bound
  cases moves cedar s op with
  | stays h =>
    rw [h]
    exact hs
  | activates _ _ _ _ _ _ _ h =>
    refine ⟨le_def.mpr ?_, fun active' hactive => ?_, fun hnone => ?_⟩
    · rw [h.epoch, h.generation]
      omega
    · obtain rfl := Option.mem_unique h.installed hactive
      exact h.activeEpoch
    · rw [h.installed] at hnone
      cases hnone
  | denies generation epoch active =>
    refine ⟨le_def.mpr ?_, fun active' hactive => ?_, fun hnone => ?_⟩
    · rw [generation, epoch]
      omega
    · rw [epoch]
      exact hs.active active' (active ▸ hactive)
    · rw [epoch]
      exact hs.inactive (active ▸ hnone)

/-- The call that known a bundle the active one, and the draft that it activated. The last simulation of the draft,
if the run knows it, had no evaluation error and no mismatch, and its digest is the bundle's. -/
def ComesFromDraft (h : List (Event Request CedarError)) (active : ActivatedPolicyBundle) : Prop :=
  ∃ later e earlier handle activation draft, h = later ++ e :: earlier ∧ e.op = .activate handle activation ∧
    e.before.drafts[handle]? = some draft ∧ e.result = .activated (.ok active) ∧
    (active.draftId = draft.id ∧ active.tenantId = draft.tenantId ∧ active.authorId = draft.authorId ∧
      active.digest = draft.digest ∧ active.canonicalPolicyJson = draft.canonicalPolicyJson) ∧
    draft.simulationPassed = true ∧ draft.simulationDigest = some active.simulationDigest ∧
    active.approvedBy ≠ active.authorId ∧
    (known earlier handle = true → ∃ report, lastReport earlier handle = some report ∧ report.Clean ∧
      report.reportDigest = active.simulationDigest)

theorem ComesFromDraft.later {active : ActivatedPolicyBundle} (hactive : ComesFromDraft h active)
    (e : Event Request CedarError) : ComesFromDraft (e :: h) active := by
  obtain ⟨later, e', earlier, handle, activation, draft, rfl, hrest⟩ := hactive
  exact ⟨e :: later, e', earlier, handle, activation, draft, rfl, hrest⟩

theorem comesFromDraft_of_reaches {s₀ : PolicySystem} (hempty : s₀.drafts = ∅) (hinactive : s₀.state.active = none)
    (hrun : Reaches (step cedar) s₀ h s) : ∀ active, s.state.active = some active → ComesFromDraft h active := by
  induction hrun with
  | start =>
    intro active hactive
    rw [hinactive] at hactive
    cases hactive
  | @call h s hrun op ih =>
    intro active hactive
    cases moves cedar s op with
    | stays hsame =>
      rw [hsame] at hactive
      exact (ih active hactive).later _
    | denies _ _ hkept =>
      rw [hkept] at hactive
      exact (ih active hactive).later _
    | activates handle activation draft _ hop hdraft hreply hactivates =>
      obtain rfl := Option.mem_unique hactivates.installed hactive
      refine ⟨[], _, h, handle, activation, draft, rfl, hop, hdraft, hreply, hactivates.source, hactivates.passed,
        hactivates.simulation, hactivates.approver, fun hknown => ?_⟩
      obtain ⟨hdigest, hclean⟩ := draftsReported_of_reaches hempty hrun hdraft hknown
      rw [hactivates.simulation] at hdigest
      obtain ⟨report, hreport, hsame⟩ := Option.map_eq_some_iff.mp hdigest.symm
      exact ⟨report, hreport, hclean hactivates.passed report hreport, hsame⟩

/-- **The generation identifies the policy**: in every run no two moments of one generation differ in the active
bundle or the emergency denies, and the generation never falls; the epoch is at most the generation and is that of
the active bundle; and the active bundle comes from a draft whose last simulation was clean, approved by another
than its author. -/
theorem generation_identifies_policy (cedar : Cedar Request Engine CedarError) (tenantId : String)
    (state : ActivePolicyBundleState)
    (hnew : (ActivePolicyBundleState.new tenantId : Except (ActivePolicyError CedarError) _) = .ok state)
    (h : List (Event Request CedarError)) (s : PolicySystem) (hrun : Run.Reaches (step cedar) ⟨state, ∅⟩ h s) :
    (moments h s).Pairwise Follows ∧ Numbered s.state ∧
      ∀ active, s.state.active = some active → ComesFromDraft h active := by
  simp only [ActivePolicyBundleState.new, bind_eq_ok, exists_unit, pure_eq_ok] at hnew
  obtain ⟨-, rfl⟩ := hnew
  refine ⟨moments_pairwise hrun, ?_, comesFromDraft_of_reaches rfl rfl hrun⟩
  induction hrun with
  | start => exact ⟨BitVec.le_refl _, fun _ hactive => (nomatch hactive), fun _ => rfl⟩
  | call _ op ih => exact ih.step op

/-! A policy that allows everything, taken through its life. -/

def permissive : Cedar Unit Unit Unit where
  sha256 _ := ⟨7⟩
  engine _ _ := .ok ()
  authorize _ _ := .ok true
  policyJson _ := some .null
  policiesOfJson _ := some ⟨false, []⟩
  parseJson _ := some .null
  jsonText _ := "null"
  corpusJson _ _ := some .null
  reportJson _ _ _ _ _ := some .null

def activation : List (Operation Unit) :=
  [.create 0 "d1" "tenant" "alice" "permit;" 1, .simulate 0 [⟨"c1", (), some true⟩] [], .enterShadow 0 ⟨7⟩,
    .activate 0 ⟨⟨7⟩, ⟨7⟩, 0, "a1", "bob", 2⟩, .activate 0 ⟨⟨7⟩, ⟨7⟩, 0, "a1", "bob", 2⟩]

def firstState : ActivePolicyBundleState := ⟨"tenant", 0, 0, none, .default⟩

def activationRun : List (Event Unit Unit) × PolicySystem := Run.exec (step permissive) ⟨firstState, ∅⟩ activation

theorem generation_identifies_policy_activation :
    (∃ active, activationRun.2.state.active = some active ∧ ComesFromDraft activationRun.1 active) ∧
      Numbered activationRun.2.state := by
  have hsome : activationRun.2.state.active.isSome = true := by decide +kernel
  obtain ⟨active, hactive⟩ := Option.isSome_iff_exists.mp hsome
  obtain ⟨-, hnumbered, hcomes⟩ := generation_identifies_policy permissive "tenant" firstState rfl activationRun.1
    activationRun.2 (reaches_exec (step permissive) ⟨firstState, ∅⟩ activation)
  exact ⟨⟨active, hactive, hcomes active hactive⟩, hnumbered⟩

end PolicySystem

end Runtrue.Policy
