import Runtrue.Execution.Records

/-!
# Field checks, programs, runtimes and contracts

The checks of `validation.rs` and the `validate` and `contains` functions of `program.rs`, `runtime.rs` and
`contracts.rs`. A validation returns the first error in the order of the source.
-/

namespace Runtrue.Execution

open Fallible

/-! ### Field checks -/

namespace Validation

def maxIdentifierBytes : Nat := 512
def maxTextBytes : Nat := 8 * 1024
def maxCollectionEntries : Nat := 1024
def maxArguments : Nat := 4096

/-- An ASCII control byte; the bytes of longer characters are not ASCII. -/
def hasAsciiControl (value : String) : Bool :=
  value.toList.any fun c => c.toNat < 0x20 || c.toNat == 0x7f

def schema (field : String) (actual expected : U32) : Checked Unit :=
  rejectIf (actual ≠ expected) (.invalidField field "unsupported schema version")

def identifier (field value : String) : Checked Unit :=
  rejectIf (value = "" ∨ value.utf8ByteSize > maxIdentifierBytes ∨ hasAsciiControl value ∨ value = "*")
    (.invalidField field "must be non-empty, bounded, control-free, and exact")

def text (field value : String) : Checked Unit :=
  rejectIf (value = "" ∨ value.utf8ByteSize > maxTextBytes ∨ hasAsciiControl value)
    (.invalidField field "must be non-empty, bounded, and control-free")

def argument (field value : String) : Checked Unit :=
  rejectIf (value.utf8ByteSize > maxTextBytes ∨ '\x00' ∈ value.toList)
    (.invalidField field "must be bounded UTF-8 without a NUL byte")

def bounded (field : String) (actual maximum : Nat) : Checked Unit :=
  rejectIf (actual > maximum) (.tooManyEntries field maximum)

def identifiers (field : String) (values : BTreeSet String) (requireNonempty : Bool) : Checked Unit := do
  bounded field values.size maxCollectionEntries
  rejectIf (requireNonempty ∧ values.size = 0)
    (.invalidField field "must contain at least one exact member")
  forEach values.toList (identifier field)

def relativePath (field value : String) : Checked Unit :=
  match normalizeRelativePath value with
  | .error _ => .error (.invalidField field "must be a normalized relative path")
  | .ok normalized =>
    rejectIf (normalized ≠ value) (.invalidField field "must already be normalized")

end Validation

open Validation

def maxResourceBytes : U64 := 1 <<< 60
def maxDurationMs : U64 := 365 * 24 * 60 * 60 * 1000

/-! ### Programs -/

def ProgramSignatureIdentity.validate (s : ProgramSignatureIdentity) : Checked Unit := do
  identifier "Program signer identity" s.signerIdentity
  identifier "Program signature algorithm" s.signatureAlgorithm

def ProgramKind.signedExecutable (kind : ProgramKind) : Prop :=
  kind = .wasmComponent ∨ kind = .ociImage ∨ kind = .nativeExecutable

def ProgramKind.platformRequired (kind : ProgramKind) : Prop := kind = .ociImage ∨ kind = .nativeExecutable

instance (kind : ProgramKind) : Decidable kind.signedExecutable :=
  inferInstanceAs (Decidable (_ ∨ _))

instance (kind : ProgramKind) : Decidable kind.platformRequired :=
  inferInstanceAs (Decidable (_ ∨ _))

def ProgramIdentity.validate (p : ProgramIdentity) : Checked Unit := do
  schema "Program schema version" p.schemaVersion 1
  text "Program media type" p.mediaType
  rejectIf ('/' ∉ p.mediaType.toList ∨ ' ' ∈ p.mediaType.toList ∨ '*' ∈ p.mediaType.toList)
    (.invalidField "Program media type" "must be an exact media type")
  bounded "Program entrypoint" p.entrypoint.length maxArguments
  rejectIf (p.entrypoint.head? = some "")
    (.invalidField "Program entrypoint" "the executable entry must not be empty")
  forEach p.entrypoint (argument "Program entrypoint value")
  bounded "Program compatibility metadata" p.compatibilityMetadata.size maxCollectionEntries
  forEach p.compatibilityMetadata.keys (identifier "Program compatibility metadata key")
  forEach p.signature.toList ProgramSignatureIdentity.validate
  rejectIf (p.kind.signedExecutable ∧ (p.signature.isNone ∨ p.compatibilityMetadata.size = 0) ∨
      ¬(p.kind.platformRequired ↔ p.platform.isSome) ∨ (p.kind = .wasmComponent ∧ p.platform.isSome))
    (.invalidField "Program signature, platform, or compatibility metadata"
      "must match the exact resolved Program kind")

/-! ### Runtimes -/

/-- The components a runtime family has and those it must not have. -/
def RuntimeCompatibilityProfile.componentsMatch (r : RuntimeCompatibilityProfile) : Bool :=
  let c := r.components
  match r.family with
  | .wasmtimeComponent =>
    c.engine.isSome && c.vmm.isNone && c.containerRuntime.isNone && c.kernel.isNone && c.rootfs.isNone &&
      c.guest.isNone && r.witWorld.isSome
  | .firecrackerMicrovm =>
    c.engine.isNone && c.vmm.isSome && c.containerRuntime.isNone && c.kernel.isSome && c.rootfs.isSome &&
      c.guest.isSome && r.witWorld.isNone
  | .rootlessOci =>
    c.engine.isNone && c.vmm.isNone && c.containerRuntime.isSome && c.kernel.isSome && c.rootfs.isSome &&
      c.guest.isNone && r.witWorld.isNone
  | .ociInMicrovm =>
    c.engine.isNone && c.vmm.isSome && c.containerRuntime.isSome && c.kernel.isSome && c.rootfs.isSome &&
      c.guest.isSome && r.witWorld.isNone
  | .native =>
    c.engine.isNone && c.vmm.isNone && c.containerRuntime.isNone && c.kernel.isSome && c.guest.isNone &&
      r.witWorld.isNone

def RuntimeCompatibilityProfile.validateFamilyComponents (r : RuntimeCompatibilityProfile) :
    Checked Unit := do
  rejectIf (¬r.componentsMatch)
    (.invalidField "runtime components"
      "required or inapplicable components do not match the runtime family")
  forEach r.witWorld.toList (identifier "WIT world")

def RuntimeCompatibilityProfile.validate (r : RuntimeCompatibilityProfile) : Checked Unit := do
  schema "runtime profile schema version" r.schemaVersion 1
  forEach
    [r.implementationGeneration, r.programAbi, r.syscallContract, r.memoryModel, r.taskModel,
      r.filesystemModel, r.networkModel, r.deviceModel, r.mitigationProfile, r.capabilityAdapterGeneration,
      r.guestProtocolGeneration]
    (identifier "runtime compatibility field")
  identifiers "CPU feature floor" r.platform.cpuFeatureFloor false
  rejectIf (r.securityPatchGeneration = 0 ∨ r.revocationGeneration = 0)
    (.invalidField "runtime security generation" "must be greater than zero")
  r.validateFamilyComponents

/-! ### Placement and resources -/

def DeviceRequirement.validate (d : DeviceRequirement) : Checked Unit := do
  identifier "device class" d.deviceClass
  rejectIf (d.count = 0) (.invalidField "device count" "must be greater than zero")

def PlacementConstraints.validate (p : PlacementConstraints) : Checked Unit := do
  identifiers "allowed Provider identities" p.allowedProviderIds true
  identifiers "administrative trust domains" p.administrativeTrustDomains true
  identifiers "allowed regions" p.allowedRegions false
  identifiers "allowed localities" p.allowedLocalities false
  identifiers "data residency" p.dataResidency false
  bounded "pool trust profiles" p.allowedPoolTrustProfiles.size maxCollectionEntries
  rejectIf (p.allowedPoolTrustProfiles.size = 0)
    (.invalidField "pool trust profiles" "must contain at least one exact trust profile")
  bounded "device requirements" p.requiredDevices.size maxCollectionEntries
  forEach p.requiredDevices.toList fun (identity, device) => do
    identifier "device requirement identity" identity
    device.validate

def PlacementConstraints.contains (parent child : PlacementConstraints) : Bool :=
  BTreeSet.isSubset child.allowedProviderIds parent.allowedProviderIds &&
  BTreeSet.isSubset child.allowedPoolTrustProfiles parent.allowedPoolTrustProfiles &&
  BTreeSet.isSubset child.administrativeTrustDomains parent.administrativeTrustDomains &&
  BTreeSet.isSubset child.allowedRegions parent.allowedRegions &&
  BTreeSet.isSubset child.allowedLocalities parent.allowedLocalities &&
  BTreeSet.isSubset child.dataResidency parent.dataResidency &&
  parent.requiredDevices = child.requiredDevices

def ResourceLimits.validate (r : ResourceLimits) : Checked Unit :=
  rejectIf (r.cpuMillis = 0 ∨ r.memoryBytes = 0 ∨ r.storageBytes = 0 ∨ r.taskCount = 0 ∨
      r.processCount = 0 ∨ r.memoryBytes > maxResourceBytes ∨ r.storageBytes > maxResourceBytes ∨
      r.networkEgressBytes > maxResourceBytes ∨ r.maximumDurationMs = 0 ∨
      r.maximumDurationMs > maxDurationMs)
    (.invalidField "resource limits" "must be positive and within canonical bounds")

def ResourceLimits.contains (parent child : ResourceLimits) : Bool :=
  child.cpuMillis ≤ parent.cpuMillis && child.memoryBytes ≤ parent.memoryBytes &&
  child.storageBytes ≤ parent.storageBytes && child.taskCount ≤ parent.taskCount &&
  child.processCount ≤ parent.processCount && child.networkEgressBytes ≤ parent.networkEgressBytes &&
  child.maximumDurationMs ≤ parent.maximumDurationMs

/-! ### Capabilities -/

def CapabilityBudget.validate (b : CapabilityBudget) : Checked Unit :=
  rejectIf (b.maximumCalls > maxResourceBytes ∨ b.maximumRequestBytes > maxResourceBytes ∨
      b.maximumResponseBytes > maxResourceBytes ∨ b.maximumExternalEffects > maxResourceBytes)
    (.invalidField "capability budget" "exceeds canonical bound")

def CapabilityBudget.contains (parent child : CapabilityBudget) : Bool :=
  child.maximumCalls ≤ parent.maximumCalls && child.maximumRequestBytes ≤ parent.maximumRequestBytes &&
  child.maximumResponseBytes ≤ parent.maximumResponseBytes &&
  child.maximumExternalEffects ≤ parent.maximumExternalEffects

def CapabilityGrant.validate (g : CapabilityGrant) : Checked Unit := do
  identifier "capability class" g.capabilityClass
  text "capability resource" g.resource
  identifiers "capability operations" g.operations true
  identifiers "capability destinations" g.destinations false
  forEach g.externalEffectClass.toList (identifier "external-effect class")
  g.budget.validate

def CapabilityGrant.contains (parent child : CapabilityGrant) : Bool :=
  parent.capabilityClass = child.capabilityClass && parent.resource = child.resource &&
  BTreeSet.isSubset child.operations parent.operations &&
  BTreeSet.isSubset child.destinations parent.destinations &&
  parent.externalEffectClass = child.externalEffectClass && parent.budget.contains child.budget &&
  parent.constraintsDigest = child.constraintsDigest

/-- Every entry of `child` has an entry of `parent` under its key that contains it. -/
def entriesContained {V : Type} (contains : V → V → Bool) (parent child : BTreeMap String V) : Bool :=
  child.toList.all fun (identity, c) => parent[identity]?.any fun p => contains p c

def CapabilityContract.validate (c : CapabilityContract) : Checked Unit := do
  bounded "capability grants" c.grants.size maxCollectionEntries
  forEach c.grants.toList fun (identity, grant) => do
    identifier "capability identity" identity
    grant.validate
  c.aggregateBudget.validate

def CapabilityContract.contains (parent child : CapabilityContract) : Bool :=
  parent.aggregateBudget.contains child.aggregateBudget &&
  entriesContained CapabilityGrant.contains parent.grants child.grants

/-! ### Nondeterminism and external effects -/

def NondeterministicInputGrant.validate (g : NondeterministicInputGrant) : Checked Unit :=
  rejectIf (g.maximumUses = 0 ∨ g.maximumBytes > maxResourceBytes)
    (.invalidField "nondeterministic input grant"
      "uses must be positive and bytes within the canonical bound")

def NondeterministicInputGrant.contains (parent child : NondeterministicInputGrant) : Bool :=
  parent.inputClass = child.inputClass && parent.profileDigest = child.profileDigest &&
  child.maximumUses ≤ parent.maximumUses && child.maximumBytes ≤ parent.maximumBytes

def NondeterminismContract.validate (c : NondeterminismContract) : Checked Unit := do
  bounded "nondeterministic inputs" c.inputs.size maxCollectionEntries
  forEach c.inputs.toList fun (identity, grant) => do
    identifier "nondeterministic input identity" identity
    grant.validate

def NondeterminismContract.contains (parent child : NondeterminismContract) : Bool :=
  entriesContained NondeterministicInputGrant.contains parent.inputs child.inputs

def ExternalEffectDeclaration.validateAgainst (d : ExternalEffectDeclaration) (operationId : String)
    (capabilities : CapabilityContract) : Checked Unit := do
  identifier "external-effect operation identity" d.operationId
  identifier "external-effect idempotency key" d.idempotencyKey
  identifier "external-effect capability identity" d.capabilityGrantId
  identifier "external-effect class" d.effectClass
  let grant ← okOr capabilities.grants[d.capabilityGrantId]?
    (.invalidField "external-effect capability" "must name a capability in the same Capsule")
  rejectIf (operationId ≠ d.operationId ∨ grant.externalEffectClass ≠ some d.effectClass)
    (.invalidField "external-effect declaration"
      "operation key and admitted effect class must match exactly")

/-- One declaration of the contract; the keys of the declarations before it are passed along. -/
def ExternalEffectContract.visit (capabilities : CapabilityContract) (keys : BTreeSet String)
    (entry : String × ExternalEffectDeclaration) : Checked (BTreeSet String) := do
  entry.2.validateAgainst entry.1 capabilities
  rejectIf (entry.2.idempotencyKey ∈ keys)
    (.invalidField "external-effect idempotency key" "must be unique within one Execution Capsule")
  return keys.insert entry.2.idempotencyKey

def ExternalEffectContract.validateAgainst (c : ExternalEffectContract)
    (capabilities : CapabilityContract) : Checked Unit := do
  bounded "external-effect declarations" c.operations.size maxCollectionEntries
  rejectIf (c.operations.size > capabilities.aggregateBudget.maximumExternalEffects.toNat)
    (.invalidField "external-effect declarations"
      "exceed the Capsule aggregate external-effect budget")
  let _ ← foldEach (ExternalEffectContract.visit capabilities) ∅ c.operations.toList
  return ()

/-! ### Output and evidence -/

def OutputContract.validate (o : OutputContract) : Checked Unit := do
  rejectIf (o.stdoutMaxBytes > maxResourceBytes ∨ o.stderrMaxBytes > maxResourceBytes)
    (.invalidField "output byte limit" "exceeds canonical bound")
  identifiers "artifact classes" o.artifactClasses false
  bounded "filesystem change roots" o.filesystemChangeRoots.size maxCollectionEntries
  forEach o.filesystemChangeRoots.toList (relativePath "filesystem change root")

/-- The child's root is the parent's, or continues it after a separator. -/
def rootUnder (parentRoot childRoot : String) : Bool :=
  childRoot = parentRoot || (parentRoot.toList ++ ['/']).isPrefixOf childRoot.toList

def OutputContract.contains (parent child : OutputContract) : Bool :=
  child.stdoutMaxBytes ≤ parent.stdoutMaxBytes && child.stderrMaxBytes ≤ parent.stderrMaxBytes &&
  (child.structuredOutputSchema.all fun s => parent.structuredOutputSchema = some s) &&
  BTreeSet.isSubset child.artifactClasses parent.artifactClasses &&
  (child.filesystemChangeRoots.toList.all fun childRoot =>
    parent.filesystemChangeRoots.toList.any fun parentRoot => rootUnder parentRoot childRoot)

def EvidenceContract.validate (e : EvidenceContract) : Checked Unit :=
  rejectIf (e.maximumEvents = 0 ∨ e.maximumLogBytes > maxResourceBytes ∨ e.retentionMs = 0 ∨
      e.retentionMs > maxDurationMs)
    (.invalidField "Evidence contract" "must be positive and within canonical bounds")

end Runtrue.Execution
