import Runtrue.Execution.Workspace

/-!
# Delegation does not widen authority

A Session, its delegation policies, the grants issued under them and the children admitted under a grant each
carry five contracts: resources, placement, capabilities, nondeterminism and output. An `Authority` is such a
tuple. `Within` compares two of them contract by contract, as the code does, and is transitive.

Three checks of the code give one step of the chain each: a policy is within its Session
(`SessionCapsule.validate`), a grant within its policy (`validateAgainstParent`), a child within its grant
(`containsChild`). The same steps carry the allowed program kinds, resolvers and runtime profiles.
-/

namespace Runtrue.Execution

open Fallible List BTreeSet Fixture BTreeMap
open Bool (and_eq_true)

/-! ### Containment of one contract -/

theorem ResourceLimits.contains_iff {parent child : ResourceLimits} : parent.contains child = true ↔
    child.cpuMillis ≤ parent.cpuMillis ∧ child.memoryBytes ≤ parent.memoryBytes ∧
    child.storageBytes ≤ parent.storageBytes ∧ child.taskCount ≤ parent.taskCount ∧
    child.processCount ≤ parent.processCount ∧ child.networkEgressBytes ≤ parent.networkEgressBytes ∧
    child.maximumDurationMs ≤ parent.maximumDurationMs := by
  simp only [contains, and_eq_true, decide_eq_true_eq, and_assoc]

theorem ResourceLimits.contains_trans {a b c : ResourceLimits} (hab : a.contains b = true)
    (hbc : b.contains c = true) : a.contains c = true := by
  simp only [ResourceLimits.contains_iff, BitVec.le_def] at *
  omega

theorem CapabilityBudget.contains_iff {parent child : CapabilityBudget} : parent.contains child = true ↔
    child.maximumCalls ≤ parent.maximumCalls ∧ child.maximumRequestBytes ≤ parent.maximumRequestBytes ∧
    child.maximumResponseBytes ≤ parent.maximumResponseBytes ∧
    child.maximumExternalEffects ≤ parent.maximumExternalEffects := by
  simp only [contains, and_eq_true, decide_eq_true_eq, and_assoc]

theorem CapabilityBudget.contains_trans {a b c : CapabilityBudget} (hab : a.contains b = true)
    (hbc : b.contains c = true) : a.contains c = true := by
  simp only [CapabilityBudget.contains_iff, BitVec.le_def] at *
  omega

theorem PlacementConstraints.contains_iff {parent child : PlacementConstraints} : parent.contains child = true ↔
    isSubset child.allowedProviderIds parent.allowedProviderIds = true ∧
    isSubset child.allowedPoolTrustProfiles parent.allowedPoolTrustProfiles = true ∧
    isSubset child.administrativeTrustDomains parent.administrativeTrustDomains = true ∧
    isSubset child.allowedRegions parent.allowedRegions = true ∧
    isSubset child.allowedLocalities parent.allowedLocalities = true ∧
    isSubset child.dataResidency parent.dataResidency = true ∧ parent.requiredDevices = child.requiredDevices := by
  simp only [contains, and_eq_true, decide_eq_true_eq, and_assoc]

theorem PlacementConstraints.contains_trans {a b c : PlacementConstraints} (hab : a.contains b = true)
    (hbc : b.contains c = true) : a.contains c = true := by
  rw [contains_iff] at *
  obtain ⟨h1, h2, h3, h4, h5, h6, h7⟩ := hab
  obtain ⟨k1, k2, k3, k4, k5, k6, k7⟩ := hbc
  exact ⟨isSubset_trans k1 h1, isSubset_trans k2 h2, isSubset_trans k3 h3, isSubset_trans k4 h4, isSubset_trans k5 h5,
    isSubset_trans k6 h6, h7.trans k7⟩

variable {V : Type}

theorem entriesContained_iff {contains : V → V → Bool} {parent child : BTreeMap String V} :
    entriesContained contains parent child = true ↔ ∀ (identity : String) (c : V), child[identity]? = some c →
        ∃ p, parent[identity]? = some p ∧ contains p c = true := by
  simp only [entriesContained, all_eq_true, mem_toList, Option.any_eq_true, Prod.forall]

theorem entriesContained_trans (contains : V → V → Bool)
    (htrans : ∀ a b c : V, contains a b = true → contains b c = true → contains a c = true)
    {a b c : BTreeMap String V} (hab : entriesContained contains a b = true)
    (hbc : entriesContained contains b c = true) : entriesContained contains a c = true := by
  rw [entriesContained_iff] at *
  intro identity z hz
  obtain ⟨y, hy, hyz⟩ := hbc identity z hz
  obtain ⟨x, hx, hxy⟩ := hab identity y hy
  exact ⟨x, hx, htrans x y z hxy hyz⟩

theorem CapabilityGrant.contains_iff {parent child : CapabilityGrant} : parent.contains child = true ↔
    parent.capabilityClass = child.capabilityClass ∧ parent.resource = child.resource ∧
    isSubset child.operations parent.operations = true ∧ isSubset child.destinations parent.destinations = true ∧
    parent.externalEffectClass = child.externalEffectClass ∧ parent.budget.contains child.budget = true ∧
    parent.constraintsDigest = child.constraintsDigest := by
  simp only [contains, and_eq_true, decide_eq_true_eq, and_assoc]

theorem CapabilityGrant.contains_trans {a b c : CapabilityGrant} (hab : a.contains b = true)
    (hbc : b.contains c = true) : a.contains c = true := by
  rw [contains_iff] at *
  obtain ⟨h1, h2, h3, h4, h5, h6, h7⟩ := hab
  obtain ⟨k1, k2, k3, k4, k5, k6, k7⟩ := hbc
  exact ⟨h1.trans k1, h2.trans k2, isSubset_trans k3 h3, isSubset_trans k4 h4, h5.trans k5,
    CapabilityBudget.contains_trans h6 k6, h7.trans k7⟩

theorem CapabilityContract.contains_iff {parent child : CapabilityContract} : parent.contains child = true ↔
    parent.aggregateBudget.contains child.aggregateBudget = true ∧
    ∀ (identity : String) (c : CapabilityGrant), child.grants[identity]? = some c →
      ∃ p, parent.grants[identity]? = some p ∧ p.contains c = true := by
  rw [contains, and_eq_true, entriesContained_iff]

theorem CapabilityContract.contains_trans {a b c : CapabilityContract} (hab : a.contains b = true)
    (hbc : b.contains c = true) : a.contains c = true := by
  simp only [CapabilityContract.contains, and_eq_true] at *
  exact ⟨CapabilityBudget.contains_trans hab.1 hbc.1,
    entriesContained_trans CapabilityGrant.contains (fun _ _ _ => CapabilityGrant.contains_trans)
      hab.2 hbc.2⟩

theorem NondeterministicInputGrant.contains_iff {parent child : NondeterministicInputGrant} :
    parent.contains child = true ↔ parent.inputClass = child.inputClass ∧ parent.profileDigest = child.profileDigest ∧
      child.maximumUses ≤ parent.maximumUses ∧ child.maximumBytes ≤ parent.maximumBytes := by
  simp only [contains, and_eq_true, decide_eq_true_eq, and_assoc]

theorem NondeterministicInputGrant.contains_trans {a b c : NondeterministicInputGrant}
    (hab : a.contains b = true) (hbc : b.contains c = true) : a.contains c = true := by
  rw [contains_iff] at *
  obtain ⟨h1, h2, h3, h4⟩ := hab
  obtain ⟨k1, k2, k3, k4⟩ := hbc
  exact ⟨h1.trans k1, h2.trans k2, BitVec.le_trans k3 h3, BitVec.le_trans k4 h4⟩

theorem NondeterminismContract.contains_trans {a b c : NondeterminismContract} (hab : a.contains b = true)
    (hbc : b.contains c = true) : a.contains c = true :=
  entriesContained_trans NondeterministicInputGrant.contains
    (fun _ _ _ => NondeterministicInputGrant.contains_trans) hab hbc

/-! ### Change roots -/

variable {parentRoot childRoot : String}

theorem rootUnder_iff : rootUnder parentRoot childRoot = true ↔
      childRoot = parentRoot ∨ parentRoot.toList ++ ['/'] <+: childRoot.toList := by
  simp only [rootUnder, Bool.or_eq_true, decide_eq_true_eq, isPrefixOf_iff_prefix]

theorem rootUnder_trans {a b c : String} (hab : rootUnder a b = true) (hbc : rootUnder b c = true) :
    rootUnder a c = true := by
  rw [rootUnder_iff] at *
  rcases hbc with rfl | hbc
  · exact hab
  rcases hab with rfl | hab
  · exact .inr hbc
  · exact .inr (hab.trans ((prefix_append _ _).trans hbc))

theorem segments_prefix_of_rootUnder (h : rootUnder parentRoot childRoot = true) :
    segments parentRoot <+: segments childRoot := by
  rcases rootUnder_iff.mp h with rfl | ⟨rest, hrest⟩
  · exact prefix_rfl
  · refine ⟨rest.splitOn '/', ?_⟩
    rw [segments, segments, ← hrest, append_assoc]
    exact (splitOnP_append_cons (p := (· == '/')) parentRoot.toList rest (beq_self_eq_true '/')).symm

theorem OutputContract.contains_iff {parent child : OutputContract} : parent.contains child = true ↔
    child.stdoutMaxBytes ≤ parent.stdoutMaxBytes ∧ child.stderrMaxBytes ≤ parent.stderrMaxBytes ∧
    (∀ s, child.structuredOutputSchema = some s → parent.structuredOutputSchema = some s) ∧
    isSubset child.artifactClasses parent.artifactClasses = true ∧ ∀ childRoot ∈ child.filesystemChangeRoots,
      ∃ parentRoot ∈ parent.filesystemChangeRoots, rootUnder parentRoot childRoot = true := by
  simp only [contains, and_eq_true, decide_eq_true_eq, all_eq_true, any_eq_true, Std.ExtTreeSet.mem_toList,
    Option.all_eq_true, and_assoc]

theorem OutputContract.contains_trans {a b c : OutputContract} (hab : a.contains b = true)
    (hbc : b.contains c = true) : a.contains c = true := by
  rw [contains_iff] at *
  obtain ⟨h1, h2, h3, h4, h5⟩ := hab
  obtain ⟨k1, k2, k3, k4, k5⟩ := hbc
  -- a schema the child asks for is the middle contract's, and so the parent's
  refine ⟨BitVec.le_trans k1 h1, BitVec.le_trans k2 h2, fun s hs => h3 s (k3 s hs), isSubset_trans k4 h4,
    fun r hr => ?_⟩
  obtain ⟨q, hq, hqr⟩ := k5 r hr
  obtain ⟨p, hp, hpq⟩ := h5 q hq
  exact ⟨p, hp, rootUnder_trans hpq hqr⟩

/-! ### The chain of authority -/

/-- The five contracts that a holder of authority passes on. -/
structure Authority where
  resources : ResourceLimits
  placement : PlacementConstraints
  capabilities : CapabilityContract
  nondeterminism : NondeterminismContract
  output : OutputContract

/-- Each contract of `child` is contained in that of `parent`. -/
structure Authority.Within (child parent : Authority) : Prop where
  resources : parent.resources.contains child.resources = true
  placement : parent.placement.contains child.placement = true
  capabilities : parent.capabilities.contains child.capabilities = true
  nondeterminism : parent.nondeterminism.contains child.nondeterminism = true
  output : parent.output.contains child.output = true

theorem Authority.Within.trans {a b c : Authority} (hab : a.Within b) (hbc : b.Within c) : a.Within c where
  resources := ResourceLimits.contains_trans hbc.resources hab.resources
  placement := PlacementConstraints.contains_trans hbc.placement hab.placement
  capabilities := CapabilityContract.contains_trans hbc.capabilities hab.capabilities
  nondeterminism := NondeterminismContract.contains_trans hbc.nondeterminism hab.nondeterminism
  output := OutputContract.contains_trans hbc.output hab.output

def SessionCapsule.authority (s : SessionCapsule) : Authority :=
  ⟨s.maximumResources, s.placement, s.capabilities, s.nondeterminism, s.output⟩

def DelegationPolicy.authority (p : DelegationPolicy) : Authority :=
  ⟨p.maximumResources, p.placement, p.capabilities, p.nondeterminism, p.output⟩

def DelegationGrant.authority (g : DelegationGrant) : Authority :=
  ⟨g.maximumResources, g.placement, g.capabilities, g.nondeterminism, g.output⟩

def ExecutionCapsule.authority (e : ExecutionCapsule) : Authority :=
  ⟨e.resources, e.placement, e.capabilities, e.nondeterminism, e.output⟩

section
variable {C : Canonical} {s : SessionCapsule}

theorem DelegationPolicy.within_session {p : DelegationPolicy} {d : ContentDigest} (h : p.validate s d = .ok ()) :
    p.authority.Within s.authority ∧ p.allowedRuntimeProfiles.size = 1 ∧ d ∈ p.allowedRuntimeProfiles := by
  simp only [DelegationPolicy.validate, bind_eq_ok, exists_unit, rejectIf_eq_ok, not_or, not_not] at h
  obtain ⟨-, -, -, ⟨hsize, hd, hres, hplace, hcaps, hnondet, hout, -⟩, -⟩ := h
  exact ⟨⟨hres, hplace, hcaps, hnondet, hout⟩, hsize, hd⟩

theorem SessionCapsule.validate_policies (h : s.validate C = .ok ()) : ∃ d, s.runtime.digest C = .ok d ∧
      ∀ (identity : String) (p : DelegationPolicy), s.delegationPolicies[identity]? = some p →
        p.validate s d = .ok () := by
  simp only [SessionCapsule.validate, bind_eq_ok, exists_unit, forEach_eq_ok, mem_toList,
    Prod.forall] at h
  obtain ⟨-, -, -, -, -, -, -, -, -, -, -, -, -, -, -, d, hd, hall⟩ := h
  exact ⟨d, hd, fun identity p hp => (hall identity p hp).2⟩

variable {g : DelegationGrant}

theorem DelegationGrant.within_policy {context : DelegationValidationContext}
    (h : g.validateAgainstParent C context = .ok ()) : context.session.validate C = .ok () ∧
      ∃ policy, context.session.delegationPolicies[g.policyId]? = some policy ∧ g.authority.Within policy.authority ∧
        (∀ k ∈ g.allowedProgramKinds, k ∈ policy.allowedProgramKinds) ∧
        (∀ r ∈ g.allowedProgramResolvers, r ∈ policy.allowedProgramResolvers) ∧
        ∀ r ∈ g.allowedRuntimeProfiles, r ∈ policy.allowedRuntimeProfiles := by
  simp only [DelegationGrant.validateAgainstParent, bind_eq_ok, exists_unit, okOr_eq_ok,
    rejectIf_eq_ok, not_or, not_not, isSubset_iff] at h
  obtain ⟨-, hsession, -, -, _, -, -, _, -, -, -, -, policy, hpolicy, _, -, henv⟩ := h
  obtain ⟨-, -, -, hkinds, hresolvers, hruntimes, hres, hplace, hcaps, hnondet, hout, -⟩ := henv
  exact ⟨hsession, policy, hpolicy, ⟨hres, hplace, hcaps, hnondet, hout⟩, hkinds, hresolvers, hruntimes⟩

theorem DelegationGrant.child_within {child : ExecutionCapsule} (h : g.containsChild C child = .ok ()) :
    child.authority.Within g.authority ∧ child.program.kind ∈ g.allowedProgramKinds ∧
      child.program.resolverDigest ∈ g.allowedProgramResolvers ∧
      ∃ d, child.runtime.digest C = .ok d ∧ d ∈ g.allowedRuntimeProfiles := by
  simp only [DelegationGrant.containsChild, bind_eq_ok, exists_unit, okOr_eq_ok, forEach_eq_ok,
    DelegationGrant.childChecks, forall_mem_cons, rejectIf_eq_ok, not_not, and_eq_true,
    Std.ExtTreeSet.contains_iff_mem] at h
  obtain ⟨-, -, _, -, -, _, -, -, d, hd, hkind, hresolver, hruntime, hres, hplace, hcaps, hnondet, hout,
    -⟩ := h
  exact ⟨⟨hres.1, hplace, hcaps, hnondet, hout⟩, hkind, hresolver, d, hd, hruntime⟩

theorem mem_unique_of_size_one {K : Type} [Ord K] [Std.TransOrd K] [Std.LawfulEqOrd K] {s : BTreeSet K}
    (hsize : s.size = 1) {a b : K} (ha : a ∈ s) (hb : b ∈ s) : a = b := by
  rw [← Std.ExtTreeSet.length_toList, length_eq_one_iff] at hsize
  obtain ⟨_, hx⟩ := hsize
  rw [← Std.ExtTreeSet.mem_toList, hx, mem_singleton] at ha hb
  rw [ha, hb]

/-- **Delegation never widens authority.** A child that a grant contains, where the grant stands up against its
sealed Session, runs inside each of the Session's contracts; every root it may change is at or under a root of the
Session; and a policy of the Session allows its program. -/
theorem delegation_never_widens {context : DelegationValidationContext} {grant : DelegationGrant}
    {child : ExecutionCapsule} (hparent : grant.validateAgainstParent C context = .ok ())
    (hchild : grant.containsChild C child = .ok ()) :
    (∃ d, child.runtime.digest C = .ok d ∧ context.session.runtime.digest C = .ok d) ∧
    context.session.maximumResources.contains child.resources = true ∧
    context.session.placement.contains child.placement = true ∧
    context.session.capabilities.contains child.capabilities = true ∧
    (∀ (identity : String) (g : CapabilityGrant), child.capabilities.grants[identity]? = some g →
      ∃ parent, context.session.capabilities.grants[identity]? = some parent ∧ parent.contains g = true) ∧
    context.session.capabilities.aggregateBudget.contains child.capabilities.aggregateBudget = true ∧
    context.session.nondeterminism.contains child.nondeterminism = true ∧
    context.session.output.contains child.output = true ∧
    (∀ root ∈ child.output.filesystemChangeRoots,
      ∃ sessionRoot ∈ context.session.output.filesystemChangeRoots,
        segments sessionRoot <+: segments root) ∧
    ∃ (identity : String) (policy : DelegationPolicy),
      context.session.delegationPolicies[identity]? = some policy ∧
      child.program.kind ∈ policy.allowedProgramKinds ∧
      child.program.resolverDigest ∈ policy.allowedProgramResolvers := by
  obtain ⟨hsession, policy, hpolicy, hgrantWithin, hkinds, hresolvers, hruntimes⟩ :=
    DelegationGrant.within_policy hparent
  obtain ⟨d, hd, hvalid⟩ := SessionCapsule.validate_policies hsession
  obtain ⟨hpolicyWithin, hsize, hmem⟩ := DelegationPolicy.within_session (hvalid _ _ hpolicy)
  obtain ⟨hchildWithin, hkind, hresolver, d', hd', hruntime⟩ := DelegationGrant.child_within hchild
  -- both digests are in the policy's set of one profile
  have hsame : d' = d := mem_unique_of_size_one hsize (hruntimes d' hruntime) hmem
  have hwithin : child.authority.Within context.session.authority :=
    (hchildWithin.trans hgrantWithin).trans hpolicyWithin
  have hcaps : CapabilityContract.contains context.session.capabilities child.capabilities = true :=
    hwithin.capabilities
  rw [CapabilityContract.contains_iff] at hcaps
  refine ⟨⟨d, hsame ▸ hd', hd⟩, hwithin.resources, hwithin.placement, hwithin.capabilities,
    hcaps.2, hcaps.1, hwithin.nondeterminism, hwithin.output, ?_,
    grant.policyId, policy, hpolicy, hkinds _ hkind, hresolvers _ hresolver⟩
  intro root hroot
  obtain ⟨sessionRoot, hmemRoot, hunder⟩ := (OutputContract.contains_iff.mp hwithin.output).2.2.2.2 root hroot
  exact ⟨sessionRoot, hmemRoot, segments_prefix_of_rootUnder hunder⟩

end

theorem delegation_never_widens_fixture :
    Fixture.session.capabilities.aggregateBudget.contains Fixture.child.capabilities.aggregateBudget = true ∧
    ∃ (identity : String) (policy : DelegationPolicy),
      Fixture.session.delegationPolicies[identity]? = some policy ∧
      ProgramKind.wasmComponent ∈ policy.allowedProgramKinds := by
  have hparent : Fixture.grant.validateAgainstParent canonical (admission "1" 0).context =
      .ok () := by decide +kernel
  have hchild : Fixture.grant.containsChild canonical Fixture.child = .ok () := by decide +kernel
  obtain ⟨-, -, -, -, -, hbudget, -, -, -, identity, policy, hpolicy, hkind, -⟩ :=
    delegation_never_widens hparent hchild
  exact ⟨hbudget, identity, policy, hpolicy, hkind⟩

end Runtrue.Execution
