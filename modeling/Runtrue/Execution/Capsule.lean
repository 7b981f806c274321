import Runtrue.Execution.Contracts

/-!
# Capsules, seals and delegation grants

`capsule.rs` and `seal.rs`: the validation of capsules, subjects, seals and grants, and the two checks of an
admission, that a grant stays inside the sealed Session it was issued from (`validateAgainstParent`) and
that a child stays inside its grant (`containsChild`). `C` is what the canonical digests return.
-/

namespace Runtrue.Execution

open Fallible Validation

def executionCapsuleSchemaVersion : U32 := 1
def sealSchemaVersion : U32 := 1
def minSealSignatureBytes : Nat := 32
def maxSealSignatureBytes : Nat := 16 * 1024
def maxSealLifetimeMs : U64 := 365 * 24 * 60 * 60 * 1000

variable (C : Canonical)

def RuntimeCompatibilityProfile.digest (r : RuntimeCompatibilityProfile) : Checked ContentDigest := do
  r.validate
  C.runtime r

def ApprovalSubject.validate (s : ApprovalSubject) : Checked Unit :=
  schema "approval subject schema version" s.schemaVersion executionCapsuleSchemaVersion

def ApprovalSubject.digest (s : ApprovalSubject) : Checked ContentDigest := do
  s.validate
  C.subject s

def ParentBinding.validate (p : ParentBinding) : Checked Unit :=
  identifier "delegation identity" p.delegationId

/-! ### Sessions and their delegation policies -/

def DelegationPolicy.validate (p : DelegationPolicy) (session : SessionCapsule)
    (runtimeDigest : ContentDigest) : Checked Unit := do
  identifier "delegated planner principal" p.plannerPrincipal
  bounded "allowed Program kinds" p.allowedProgramKinds.size maxCollectionEntries
  rejectIf (p.allowedProgramKinds.size = 0 ∨ p.allowedProgramResolvers.size = 0 ∨
      p.allowedRuntimeProfiles.size = 0)
    (.invalidField "delegation allowed sets" "must be finite and non-empty")
  rejectIf (p.allowedRuntimeProfiles.size ≠ 1 ∨ runtimeDigest ∉ p.allowedRuntimeProfiles ∨
      ¬session.maximumResources.contains p.maximumResources ∨
      ¬session.placement.contains p.placement ∨
      ¬session.capabilities.contains p.capabilities ∨
      ¬session.nondeterminism.contains p.nondeterminism ∨
      ¬session.output.contains p.output ∨
      p.maximumChildCount = 0 ∨ p.maximumChildCount > session.maximumChildCount ∨
      p.maximumConcurrency = 0 ∨ p.maximumConcurrency > session.maximumConcurrency ∨
      p.maximumConcurrency > p.maximumChildCount ∨ p.maximumChildDurationMs = 0 ∨
      p.maximumChildDurationMs > session.maximumResources.maximumDurationMs)
    (.invalidField "delegation envelope" "must be a positive finite subset of the Session envelope")
  identifier "delegation policy version" p.policyVersionId
  p.maximumResources.validate
  p.placement.validate
  p.capabilities.validate
  p.nondeterminism.validate
  p.output.validate

def DelegationPolicy.digest (p : DelegationPolicy) : Checked ContentDigest := C.policy p

def SessionCapsule.validate (s : SessionCapsule) : Checked Unit := do
  schema "Session Capsule schema version" s.schemaVersion executionCapsuleSchemaVersion
  rejectIf (s.kind ≠ .session) .capsuleKindMismatch
  identifier "tenant identity" s.tenantId
  identifier "principal identity" s.principalId
  bounded "mutable workspace roots" s.mutableWorkspaceRoots.size maxCollectionEntries
  forEach s.mutableWorkspaceRoots.toList (relativePath "mutable workspace root")
  s.runtime.validate
  s.placement.validate
  s.maximumResources.validate
  s.capabilities.validate
  s.nondeterminism.validate
  s.output.validate
  s.evidence.validate
  rejectIf (s.idleTimeoutMs = 0 ∨ s.hardLifetimeMs = 0 ∨ s.idleTimeoutMs > s.hardLifetimeMs ∨
      s.hardLifetimeMs > s.maximumResources.maximumDurationMs ∨ s.maximumChildCount = 0 ∨
      s.maximumConcurrency = 0 ∨ s.maximumConcurrency > s.maximumChildCount)
    (.invalidField "Session lifetime or concurrency"
      "must be positive and within the Session resource envelope")
  bounded "delegation policies" s.delegationPolicies.size maxCollectionEntries
  let runtimeDigest ← s.runtime.digest C
  forEach s.delegationPolicies.toList fun (identity, policy) => do
    identifier "delegation policy identity" identity
    policy.validate s runtimeDigest

def SessionCapsule.digest (s : SessionCapsule) : Checked ContentDigest := do
  s.validate C
  C.session s

def ExecutionCapsule.validate (e : ExecutionCapsule) : Checked Unit := do
  schema "Execution Capsule schema version" e.schemaVersion executionCapsuleSchemaVersion
  rejectIf (e.kind ≠ .execution) .capsuleKindMismatch
  identifier "tenant identity" e.tenantId
  identifier "principal identity" e.principalId
  e.program.validate
  bounded "Execution arguments" e.arguments.length maxArguments
  forEach e.arguments (argument "Execution argument")
  forEach e.workingDirectory.toList (relativePath "working directory")
  bounded "input Artifacts" e.inputArtifacts.size maxCollectionEntries
  e.runtime.validate
  e.placement.validate
  e.resources.validate
  e.capabilities.validate
  e.nondeterminism.validate
  e.externalEffects.validateAgainst e.capabilities
  e.output.validate
  e.evidence.validate
  forEach e.parent.toList ParentBinding.validate

def ExecutionCapsule.digest (e : ExecutionCapsule) : Checked ContentDigest := do
  e.validate
  C.execution e

/-! ### Seals -/

def Seal.validateUnsigned (s : Seal) : Checked Unit := do
  schema "Seal schema version" s.schemaVersion sealSchemaVersion
  identifier "Seal signer identity" s.signerIdentity
  identifier "Seal authority identity" s.authorityIdentity
  identifier "Seal signature algorithm" s.signatureAlgorithm
  rejectIf (s.issuedUnixMs ≥ s.expiresUnixMs ∨
      Fixed.satSub s.expiresUnixMs s.issuedUnixMs > maxSealLifetimeMs)
    (.invalidField "Seal validity window" "expiry must follow issuance within the maximum lifetime")
  rejectIf (s.revocationGeneration = 0)
    (.invalidField "Seal revocation generation" "must be greater than zero")

def Seal.validate (s : Seal) : Checked Unit := do
  s.validateUnsigned
  rejectIf (s.signature.length < minSealSignatureBytes ∨ maxSealSignatureBytes < s.signature.length)
    (.invalidField "Seal signature" "must be present and within the canonical byte bound")

def Seal.signingPayload (s : Seal) : SealSigningPayload where
  schemaVersion := s.schemaVersion
  approvalSubjectDigest := s.approvalSubjectDigest
  capsuleKind := s.capsuleKind
  capsuleDigest := s.capsuleDigest
  signerIdentity := s.signerIdentity
  authorityIdentity := s.authorityIdentity
  issuedUnixMs := s.issuedUnixMs
  expiresUnixMs := s.expiresUnixMs
  revocationGeneration := s.revocationGeneration
  signatureAlgorithm := s.signatureAlgorithm
  signingKeyId := s.signingKeyId

def Seal.signingBytes (s : Seal) : Checked (List UInt8) := do
  s.validateUnsigned
  C.signingPayload s.signingPayload

def Seal.digest (s : Seal) : Checked ContentDigest := do
  s.validate
  C.sealEnvelope s

def Seal.validateForSubject (s : Seal) (subject : ApprovalSubject) (nowUnixMs : U64)
    (currentRevocationGeneration : U64) (verifier : SealSignatureVerifier) : Checked Unit := do
  s.validate
  subject.validate
  let subjectDigest ← subject.digest C
  rejectIf (s.approvalSubjectDigest ≠ subjectDigest ∨ s.capsuleKind ≠ subject.capsuleKind ∨
    s.capsuleDigest ≠ subject.capsuleDigest) .sealSubjectMismatch
  rejectIf (nowUnixMs < s.issuedUnixMs) .sealNotYetValid
  rejectIf (nowUnixMs ≥ s.expiresUnixMs) .sealExpired
  rejectIf (s.revocationGeneration ≠ currentRevocationGeneration)
    (.sealRevoked currentRevocationGeneration s.revocationGeneration)
  let signingBytes ← s.signingBytes C
  rejectIf (¬verifier s signingBytes) .invalidSealSignature

/-! ### Delegation grants -/

/-- The authority a grant is validated against. -/
structure DelegationValidationContext where
  session : SessionCapsule
  subject : ApprovalSubject
  sessionSeal : Seal
  verifier : SealSignatureVerifier
  nowUnixMs : U64
  currentSealRevocationGeneration : U64
  currentGrantRevocationGeneration : U64

def DelegationGrant.validate (g : DelegationGrant) : Checked Unit := do
  schema "Delegation Grant schema version" g.schemaVersion executionCapsuleSchemaVersion
  identifier "delegation identity" g.delegationId
  identifier "delegation policy identity" g.policyId
  identifier "delegated planner principal" g.plannerPrincipal
  identifier "delegation policy version" g.policyVersionId
  rejectIf (g.allowedProgramKinds.size = 0 ∨ g.allowedProgramResolvers.size = 0 ∨
      g.allowedRuntimeProfiles.size = 0 ∨ g.maximumChildCount = 0 ∨ g.maximumConcurrency = 0 ∨
      g.maximumConcurrency > g.maximumChildCount ∨ g.maximumChildDurationMs = 0 ∨
      g.issuedUnixMs ≥ g.expiresUnixMs ∨ g.revocationGeneration = 0)
    (.invalidField "delegation grant" "must have finite non-empty bounds and a valid lifetime")
  g.maximumResources.validate
  g.placement.validate
  g.capabilities.validate
  g.nondeterminism.validate
  g.output.validate

def DelegationGrant.digest (g : DelegationGrant) : Checked ContentDigest := do
  g.validate
  C.grant g

def DelegationGrant.validateAgainstParent (g : DelegationGrant) (context : DelegationValidationContext) :
    Checked Unit := do
  g.validate
  context.session.validate C
  context.sessionSeal.validateForSubject C context.subject context.nowUnixMs
    context.currentSealRevocationGeneration context.verifier
  rejectIf (context.subject.capsuleKind ≠ .session) (.containmentViolation "sealed parent identity")
  let sessionDigest ← context.session.digest C
  rejectIf (context.subject.capsuleDigest ≠ sessionDigest ∨
    g.parentSessionCapsuleDigest ≠ context.subject.capsuleDigest)
    (.containmentViolation "sealed parent identity")
  let sealDigest ← context.sessionSeal.digest C
  rejectIf (g.parentSessionSealDigest ≠ sealDigest) (.containmentViolation "sealed parent identity")
  rejectIf (context.nowUnixMs < g.issuedUnixMs ∨ context.nowUnixMs ≥ g.expiresUnixMs)
    (.containmentViolation "delegation lifetime")
  rejectIf (g.revocationGeneration ≠ context.currentGrantRevocationGeneration)
    (.containmentViolation "delegation revocation generation")
  let policy ← okOr context.session.delegationPolicies[g.policyId]?
    (.containmentViolation "delegation policy")
  let policyDigest ← policy.digest C
  rejectIf (g.policyDigest ≠ policyDigest ∨ g.plannerPrincipal ≠ policy.plannerPrincipal ∨
      g.plannerImplementationDigest ≠ policy.plannerImplementationDigest ∨
      ¬BTreeSet.isSubset g.allowedProgramKinds policy.allowedProgramKinds ∨
      ¬BTreeSet.isSubset g.allowedProgramResolvers policy.allowedProgramResolvers ∨
      ¬BTreeSet.isSubset g.allowedRuntimeProfiles policy.allowedRuntimeProfiles ∨
      ¬policy.maximumResources.contains g.maximumResources ∨
      ¬policy.placement.contains g.placement ∨
      ¬policy.capabilities.contains g.capabilities ∨
      ¬policy.nondeterminism.contains g.nondeterminism ∨
      ¬policy.output.contains g.output ∨
      g.maximumChildCount > policy.maximumChildCount ∨
      g.maximumConcurrency > policy.maximumConcurrency ∨
      g.maximumChildDurationMs > policy.maximumChildDurationMs ∨
      (g.subdelegationAllowed ∧ ¬policy.subdelegationAllowed) ∨
      g.policyVersionId ≠ policy.policyVersionId ∨
      g.policyVersionDigest ≠ policy.policyVersionDigest)
    (.containmentViolation "delegation policy envelope")

/-- The checks of `containsChild`, in order, each with the name of the field it is about. -/
def DelegationGrant.childChecks (g : DelegationGrant) (child : ExecutionCapsule)
    (runtimeDigest : ContentDigest) : List (Bool × String) :=
  [(g.allowedProgramKinds.contains child.program.kind, "Program kind"),
    (g.allowedProgramResolvers.contains child.program.resolverDigest, "Program resolver"),
    (g.allowedRuntimeProfiles.contains runtimeDigest, "runtime profile"),
    (g.maximumResources.contains child.resources &&
      child.resources.maximumDurationMs ≤ g.maximumChildDurationMs, "resource limits"),
    (g.placement.contains child.placement, "placement"),
    (g.capabilities.contains child.capabilities, "capabilities"),
    (g.nondeterminism.contains child.nondeterminism, "nondeterminism"),
    (g.output.contains child.output, "output classes")]

def DelegationGrant.containsChild (g : DelegationGrant) (child : ExecutionCapsule) : Checked Unit := do
  g.validate
  child.validate
  let parent ← okOr child.parent (.containmentViolation "parent binding")
  rejectIf (parent.sessionCapsuleDigest ≠ g.parentSessionCapsuleDigest ∨
      parent.sessionSealDigest ≠ g.parentSessionSealDigest ∨ parent.delegationId ≠ g.delegationId)
    (.containmentViolation "parent binding")
  let grantDigest ← g.digest C
  rejectIf (parent.delegationGrantDigest ≠ grantDigest) (.containmentViolation "parent binding")
  let runtimeDigest ← child.runtime.digest C
  forEach (g.childChecks child runtimeDigest) fun (allowed, field) =>
    rejectIf (¬allowed) (.containmentViolation field)

end Runtrue.Execution
