import Runtrue.Base.Fallible
import Runtrue.Expression.Syntax
import Runtrue.Model.ContentDigest

/-!
# Cache identities and trust domains

The trust domain of a cache identity and its three relations (`identity.rs`), the trust-neutral key material
(`key.rs`), heads, manifests and promotion records (`manifest.rs`, `promotion.rs`) and the errors of the
crate. `u64` numbers are natural; an overflow is checked where the source checks it.
-/

namespace Runtrue.Cache

open Fallible
open Expression (isControl)

structure CacheLimits where
  maxManifestBytes : Nat
  maxHeadBytes : Nat
  maxHeadRecords : Nat
  maxIdentifierBytes : Nat
  maxTicketBytes : Nat
  maxTicketLifetimeSeconds : Nat

def CacheLimits.default : CacheLimits where
  maxManifestBytes := 1024 * 1024
  maxHeadBytes := 64 * 1024
  maxHeadRecords := 100000
  maxIdentifierBytes := 512
  maxTicketBytes := 64 * 1024
  maxTicketLifetimeSeconds := 60 * 60

structure CachePlatform where
  os : String
  architecture : String
deriving DecidableEq

inductive TrustDomain
  | publicVerified
  | installationVerified (installationId : String)
  | tenantVerified (installationId tenantId : String)
  | repositoryMainVerified (installationId tenantId repositoryId : String)
  | repositoryBranchVerified (installationId tenantId repositoryId branch : String)
  | pullRequestQuarantine (installationId tenantId repositoryId changeId : String)
  | runPrivate (installationId tenantId repositoryId runId : String)
deriving DecidableEq

structure CacheIdentity where
  tenantId : String
  repositoryId : String
  purpose : String
  trustDomain : TrustDomain
  platform : CachePlatform
  compilerOrToolchain : Option ContentDigest
  definition : ContentDigest
  declaredInputs : ContentDigest
  policyEpoch : Nat
  userSuffix : Option String
deriving DecidableEq

structure CacheKeyMaterial where
  tenantId : String
  repositoryId : String
  purpose : String
  platform : CachePlatform
  toolchain : Option ContentDigest
  definition : ContentDigest
  declaredInputs : ContentDigest
  policyEpoch : Nat
  userSuffix : Option String
deriving DecidableEq

structure CacheHead where
  version : Nat
  identityDigest : ContentDigest
  generation : Nat
  fencingGeneration : Nat
  manifestDigest : ContentDigest
  claimTicketId : Option ContentDigest
deriving DecidableEq

structure TreeSnapshot where
  manifestDigest : ContentDigest
  fileCount : Nat
  directoryCount : Nat
  totalFileBytes : Nat
deriving DecidableEq

structure CacheProducer where
  capsuleDigest : ContentDigest
  jobId : String
  stepId : String
  leaseId : String
deriving DecidableEq

inductive PromotionKind
  | trustedRebuild | verifiedAttestation | manualSecurityApproval
deriving DecidableEq

structure PromotionEvidence where
  kind : PromotionKind
  evidenceDigest : ContentDigest
  approvalId : Option String
deriving DecidableEq

structure PromotionRecord where
  sourceManifestDigest : ContentDigest
  evidence : PromotionEvidence
deriving DecidableEq

structure CacheManifest where
  version : Nat
  identity : CacheIdentity
  identityDigest : ContentDigest
  generation : Nat
  fencingGeneration : Nat
  tree : TreeSnapshot
  producer : CacheProducer
  claimTicketId : Option ContentDigest
  promotion : Option PromotionRecord
deriving DecidableEq

structure CacheEntry where
  head : CacheHead
  manifest : CacheManifest
deriving DecidableEq

/-- `CacheError`. The errors of the file system, of the serializer and of the content store are one
constructor: nothing depends on which of them it is. -/
inductive CacheError
  | invalidIdentity (text : String)
  | unauthorizedRead
  | unauthorizedWrite
  | invalidPromotion (text : String)
  | sourceNotFound
  | headConflict (current : Option CacheHead)
  | staleFence (current attempted : Nat)
  | generationOverflow
  | invalidConfiguration (text : String)
  | invalidTicket (text : String)
  | ticketNotYetValid
  | ticketExpired
  | ticketConsumed
  | ticketScopeMismatch
  | leaseMismatch
  | ticketContentMismatch
  | cacheContentTooLarge (limit actual : Nat)
  | invalidTicketClaim (text : String)
  | corruptHead (text : String)
  | invalidManifest (text : String)
  | metadataLimit (kind : String) (limit actual : Nat)
  | environment (isStoredCorruption : Bool)
deriving DecidableEq

/-- Errors that a restore answers as a miss. -/
def CacheError.isStoredCorruption : CacheError → Bool
  | .corruptHead _ | .invalidManifest _ | .invalidTicketClaim _ | .metadataLimit _ _ _ => true
  | .environment isStoredCorruption => isStoredCorruption
  | _ => false

def validateIdentifier (limits : CacheLimits) (field value : String) : Except CacheError Unit :=
  rejectIf (value = "" ∨ limits.maxIdentifierBytes < value.utf8ByteSize ∨ value.toList.any isControl)
    (.invalidIdentity (field ++ " must be non-empty, bounded UTF-8 without control characters"))

def validateRepositoryScope (limits : CacheLimits) (installationId tenantId repositoryId : String) :
    Except CacheError Unit := do
  validateIdentifier limits "installation_id" installationId
  validateIdentifier limits "tenant_id" tenantId
  validateIdentifier limits "repository_id" repositoryId

namespace TrustDomain

def installationId : TrustDomain → Option String
  | .publicVerified => none
  | .installationVerified installationId
  | .tenantVerified installationId _
  | .repositoryMainVerified installationId _ _
  | .repositoryBranchVerified installationId _ _ _
  | .pullRequestQuarantine installationId _ _ _
  | .runPrivate installationId _ _ _ => some installationId

def tenantId : TrustDomain → Option String
  | .tenantVerified _ tenantId
  | .repositoryMainVerified _ tenantId _
  | .repositoryBranchVerified _ tenantId _ _
  | .pullRequestQuarantine _ tenantId _ _
  | .runPrivate _ tenantId _ _ => some tenantId
  | .publicVerified | .installationVerified _ => none

def repositoryId : TrustDomain → Option String
  | .repositoryMainVerified _ _ repositoryId
  | .repositoryBranchVerified _ _ repositoryId _
  | .pullRequestQuarantine _ _ repositoryId _
  | .runPrivate _ _ repositoryId _ => some repositoryId
  | .publicVerified | .installationVerified _ | .tenantVerified _ _ => none

/-- The domain of one run, change or branch of a repository. -/
def isConfined : TrustDomain → Bool
  | .repositoryBranchVerified .. | .pullRequestQuarantine .. | .runPrivate .. => true
  | _ => false

def canReadFrom (reader source : TrustDomain) : Bool :=
  if reader = source ∨ source = .publicVerified then true
  else match source with
    | .publicVerified => true
    | .installationVerified installationId => reader.installationId = some installationId
    | .tenantVerified installationId tenantId =>
      reader.installationId = some installationId && reader.tenantId = some tenantId
    | .repositoryMainVerified installationId tenantId repositoryId =>
      reader.installationId = some installationId && reader.tenantId = some tenantId
        && reader.repositoryId = some repositoryId
        && (reader matches .repositoryMainVerified .. | .repositoryBranchVerified ..
          | .pullRequestQuarantine .. | .runPrivate ..)
    | .repositoryBranchVerified .. | .pullRequestQuarantine .. | .runPrivate .. => false

def canWriteTo (writer target : TrustDomain) : Bool := writer = target

def canPromoteTo (source target : TrustDomain) : Bool :=
  match source, target with
  | .runPrivate sourceInstallation sourceTenant sourceRepository _,
    .repositoryBranchVerified installationId tenantId repositoryId _
  | .runPrivate sourceInstallation sourceTenant sourceRepository _,
    .repositoryMainVerified installationId tenantId repositoryId
  | .pullRequestQuarantine sourceInstallation sourceTenant sourceRepository _,
    .repositoryBranchVerified installationId tenantId repositoryId _
  | .pullRequestQuarantine sourceInstallation sourceTenant sourceRepository _,
    .repositoryMainVerified installationId tenantId repositoryId
  | .repositoryBranchVerified sourceInstallation sourceTenant sourceRepository _,
    .repositoryMainVerified installationId tenantId repositoryId =>
    sourceInstallation = installationId && sourceTenant = tenantId && sourceRepository = repositoryId
  | .repositoryMainVerified sourceInstallation sourceTenant _, .tenantVerified installationId tenantId =>
    sourceInstallation = installationId && sourceTenant = tenantId
  | .tenantVerified sourceInstallation _, .installationVerified installationId =>
    sourceInstallation = installationId
  | _, _ => false

def validate (limits : CacheLimits) : TrustDomain → Except CacheError Unit
  | .publicVerified => .ok ()
  | .installationVerified installationId => validateIdentifier limits "installation_id" installationId
  | .tenantVerified installationId tenantId => do
    validateIdentifier limits "installation_id" installationId
    validateIdentifier limits "tenant_id" tenantId
  | .repositoryMainVerified installationId tenantId repositoryId =>
    validateRepositoryScope limits installationId tenantId repositoryId
  | .repositoryBranchVerified installationId tenantId repositoryId branch => do
    validateRepositoryScope limits installationId tenantId repositoryId
    validateIdentifier limits "branch" branch
  | .pullRequestQuarantine installationId tenantId repositoryId changeId => do
    validateRepositoryScope limits installationId tenantId repositoryId
    validateIdentifier limits "change_id" changeId
  | .runPrivate installationId tenantId repositoryId runId => do
    validateRepositoryScope limits installationId tenantId repositoryId
    validateIdentifier limits "run_id" runId

theorem eq_of_canReadFrom {reader source : TrustDomain} (hconfined : source.isConfined = true)
    (h : reader.canReadFrom source = true) : reader = source := by
  unfold canReadFrom at h
  split at h
  · rename_i heq
    rcases heq with heq | rfl
    · exact heq
    · cases hconfined
  · cases source <;> first | (cases hconfined; done) | cases h

theorem canWriteTo_iff {writer target : TrustDomain} : writer.canWriteTo target = true ↔ writer = target :=
  decide_eq_true_iff

end TrustDomain

namespace CacheIdentity

def validate (limits : CacheLimits) (identity : CacheIdentity) : Except CacheError Unit := do
  validateIdentifier limits "tenant_id" identity.tenantId
  validateIdentifier limits "repository_id" identity.repositoryId
  validateIdentifier limits "purpose" identity.purpose
  validateIdentifier limits "platform.os" identity.platform.os
  validateIdentifier limits "platform.architecture" identity.platform.architecture
  forEach identity.userSuffix.toList (validateIdentifier limits "user_suffix")
  identity.trustDomain.validate limits
  rejectIf (identity.trustDomain.tenantId.any (· ≠ identity.tenantId))
    (.invalidIdentity "trust-domain tenant does not match cache identity")
  rejectIf (identity.trustDomain.repositoryId.any (· ≠ identity.repositoryId))
    (.invalidIdentity "trust-domain repository does not match cache identity")

def sameContentKeyExceptTrust (identity other : CacheIdentity) : Bool :=
  identity.tenantId = other.tenantId && identity.repositoryId = other.repositoryId
    && identity.purpose = other.purpose && identity.platform = other.platform
    && identity.compilerOrToolchain = other.compilerOrToolchain && identity.definition = other.definition
    && identity.declaredInputs = other.declaredInputs && identity.policyEpoch = other.policyEpoch
    && identity.userSuffix = other.userSuffix

end CacheIdentity

namespace CacheKeyMaterial

def withTrustDomain (material : CacheKeyMaterial) (trustDomain : TrustDomain) : CacheIdentity where
  tenantId := material.tenantId
  repositoryId := material.repositoryId
  purpose := material.purpose
  trustDomain := trustDomain
  platform := material.platform
  compilerOrToolchain := material.toolchain
  definition := material.definition
  declaredInputs := material.declaredInputs
  policyEpoch := material.policyEpoch
  userSuffix := material.userSuffix

def validate (limits : CacheLimits) (material : CacheKeyMaterial) : Except CacheError Unit :=
  (material.withTrustDomain
    (.runPrivate "validation" material.tenantId material.repositoryId "validation")).validate limits

end CacheKeyMaterial

def validateProducer (limits : CacheLimits) (producer : CacheProducer) : Except CacheError Unit := do
  validateIdentifier limits "producer.job_id" producer.jobId
  validateIdentifier limits "producer.step_id" producer.stepId
  validateIdentifier limits "producer.lease_id" producer.leaseId

def validatePromotionEvidence (limits : CacheLimits) (evidence : PromotionEvidence) :
    Except CacheError Unit := do
  rejectIf (evidence.kind = .manualSecurityApproval ∧ evidence.approvalId.isNone)
    (.invalidPromotion "manual security promotion requires an approval id")
  forEach evidence.approvalId.toList (validateIdentifier limits "promotion.approval_id")

end Runtrue.Cache
