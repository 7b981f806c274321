import Runtrue.Base.Collect
import Runtrue.Cache.Identity

/-!
# The cache scopes of a job

`deriveCacheAccess` (`access.rs`) gives a job its ordered read candidates and the one identity it may write,
from the server's own classification of the source. What it returns is the context's read domains and write
domain put on the key material (`Derives`, `deriveCacheAccess_spec`), so the rules about scopes are rules
about `readDomains` and `writeDomain`.
-/

namespace Runtrue.Cache

open Fallible List

inductive CacheSourceTrust
  | untrustedChange (changeId : String)
  | trustedBranch (branch : String)
  | protectedMain
deriving DecidableEq

inductive CacheReadPolicy
  | deny | publicDomain | verified | branch | run
deriving DecidableEq

inductive CacheWritePolicy
  | deny | quarantine | branch | verified
deriving DecidableEq

structure CacheAccessContext where
  installationId : String
  tenantId : String
  repositoryId : String
  runId : String
  defaultBranch : String
  source : CacheSourceTrust
  read : CacheReadPolicy
  write : CacheWritePolicy
  verifiedWriteAuthorized : Bool

structure CacheAccessScopes where
  readCandidates : List CacheIdentity
  writeIdentity : Option CacheIdentity
deriving DecidableEq

namespace CacheAccessContext

variable (context : CacheAccessContext)

def run : TrustDomain :=
  .runPrivate context.installationId context.tenantId context.repositoryId context.runId

def main : TrustDomain :=
  .repositoryMainVerified context.installationId context.tenantId context.repositoryId

def protectedBranch : TrustDomain :=
  .repositoryBranchVerified context.installationId context.tenantId context.repositoryId context.defaultBranch

def sourceDomain : TrustDomain :=
  match context.source with
  | .untrustedChange changeId =>
    .pullRequestQuarantine context.installationId context.tenantId context.repositoryId changeId
  | .trustedBranch branch =>
    .repositoryBranchVerified context.installationId context.tenantId context.repositoryId branch
  | .protectedMain => context.main

def readDomains : List TrustDomain :=
  match context.read with
  | .deny => []
  | .publicDomain => [.publicVerified]
  | .verified => [context.main, .publicVerified]
  | .branch =>
    match context.source with
    | .untrustedChange _ => [context.main, context.sourceDomain, .publicVerified]
    | .trustedBranch _ => [context.sourceDomain, context.main, .publicVerified]
    | .protectedMain => [context.protectedBranch, context.main, .publicVerified]
  | .run => [context.run]

def writeDomain : Option TrustDomain :=
  match context.write with
  | .deny => none
  | .quarantine =>
    match context.source with
    | .untrustedChange _ => some context.sourceDomain
    | .trustedBranch _ | .protectedMain => some context.run
  | .branch =>
    match context.source with
    | .untrustedChange _ => some context.sourceDomain
    | .trustedBranch _ => some context.sourceDomain
    | .protectedMain => some context.protectedBranch
  | .verified =>
    if context.verifiedWriteAuthorized && context.source matches .protectedMain then some context.main
    else none

end CacheAccessContext

def readCandidatesOf (material : CacheKeyMaterial) (limits : CacheLimits) (candidates : List CacheIdentity)
    (domain : TrustDomain) : Except CacheError (List CacheIdentity) := do
  let identity := material.withTrustDomain domain
  identity.validate limits
  return if identity ∈ candidates then candidates else candidates ++ [identity]

def deriveCacheAccess (material : CacheKeyMaterial) (context : CacheAccessContext) (limits : CacheLimits) :
    Except CacheError CacheAccessScopes := do
  material.validate limits
  forEach [("access.installation_id", context.installationId), ("access.tenant_id", context.tenantId),
    ("access.repository_id", context.repositoryId), ("access.run_id", context.runId),
    ("access.default_branch", context.defaultBranch)] fun p => validateIdentifier limits p.1 p.2
  rejectIf (material.tenantId ≠ context.tenantId ∨ material.repositoryId ≠ context.repositoryId)
    (.invalidIdentity "cache material does not belong to the server access scope")
  match context.source with
  | .untrustedChange changeId => validateIdentifier limits "access.change_id" changeId
  | .trustedBranch branch => validateIdentifier limits "access.branch" branch
  | .protectedMain => .ok ()
  let readCandidates ← foldEach (readCandidatesOf material limits) [] context.readDomains
  let writeIdentity ← mapSome (fun domain => do
    let identity := material.withTrustDomain domain
    identity.validate limits
    return identity) context.writeDomain
  return ⟨readCandidates, writeIdentity⟩

/-! ### What the scopes are -/

/-- The scopes are the domains of the context put on material of the context's repository. -/
structure Derives (material : CacheKeyMaterial) (context : CacheAccessContext) (scopes : CacheAccessScopes) :
    Prop where
  tenant : material.tenantId = context.tenantId
  repository : material.repositoryId = context.repositoryId
  read : ∀ identity ∈ scopes.readCandidates,
    ∃ domain ∈ context.readDomains, identity = material.withTrustDomain domain
  write : scopes.writeIdentity = context.writeDomain.map material.withTrustDomain

variable {material : CacheKeyMaterial} {limits : CacheLimits}

theorem foldEach_readCandidatesOf {domains : List TrustDomain} {candidates candidates' : List CacheIdentity}
    (h : foldEach (readCandidatesOf material limits) candidates domains = .ok candidates') :
    ∀ identity ∈ candidates',
      identity ∈ candidates ∨ ∃ domain ∈ domains, identity = material.withTrustDomain domain := by
  induction domains generalizing candidates with
  | nil =>
    cases h
    exact fun _ hmem => .inl hmem
  | cons domain _ ih =>
    obtain ⟨_, hnext, hrest⟩ := foldEach_cons_eq_ok.mp h
    simp only [readCandidatesOf, bind_eq_ok, exists_unit, pure_eq_ok] at hnext
    obtain ⟨-, rfl⟩ := hnext
    intro identity hmem
    rcases ih hrest identity hmem with hmem | ⟨domain', hdomain', hidentity⟩
    · by_cases hin : material.withTrustDomain domain ∈ candidates
      · rw [if_pos hin] at hmem
        exact .inl hmem
      · rw [if_neg hin, mem_append, mem_singleton] at hmem
        rcases hmem with hmem | rfl
        · exact .inl hmem
        · exact .inr ⟨domain, mem_cons_self, rfl⟩
    · exact .inr ⟨domain', mem_cons_of_mem domain hdomain', hidentity⟩

theorem deriveCacheAccess_spec {context : CacheAccessContext} {scopes : CacheAccessScopes}
    (h : deriveCacheAccess material context limits = .ok scopes) : Derives material context scopes := by
  unfold deriveCacheAccess at h
  obtain ⟨_, -, h⟩ := bind_eq_ok.mp h
  obtain ⟨_, -, h⟩ := bind_eq_ok.mp h
  obtain ⟨_, hscope, h⟩ := bind_eq_ok.mp h
  rw [rejectIf_eq_ok, not_or, not_not, not_not] at hscope
  have hrest : ∃ candidates, foldEach (readCandidatesOf material limits) [] context.readDomains = .ok candidates ∧
      ∃ identity, mapSome (fun domain => do
        (material.withTrustDomain domain).validate limits
        return material.withTrustDomain domain) context.writeDomain = .ok identity ∧
      scopes = ⟨candidates, identity⟩ := by
    split at h <;> simp only [bind_eq_ok, exists_unit, pure_eq_ok] at h
    all_goals
      obtain ⟨-, candidates, hread, identity, hwrite, rfl⟩ := h
      exact ⟨candidates, hread, identity, hwrite, rfl⟩
  obtain ⟨_, hread, identity, hwrite, rfl⟩ := hrest
  refine ⟨hscope.1, hscope.2, fun identity hmem => ?_, ?_⟩
  · rcases foldEach_readCandidatesOf hread identity hmem with hnil | hdomain
    · cases hnil
    · exact hdomain
  · rcases mapSome_eq_ok.mp hwrite with ⟨hnone, rfl⟩ | ⟨_, _, hsome, hvalid, rfl⟩
    · rw [hnone, Option.map_none]
    · simp only [bind_eq_ok, exists_unit, pure_eq_ok] at hvalid
      rw [hsome, Option.map_some, hvalid.2]

namespace CacheAccessContext

variable {context : CacheAccessContext} {domain : TrustDomain}

/-- Every domain a job may read or write is public or belongs to its repository. -/
def Owns (context : CacheAccessContext) (domain : TrustDomain) : Prop :=
  domain = .publicVerified ∨
    (domain.tenantId = some context.tenantId ∧ domain.repositoryId = some context.repositoryId)

theorem mem_readDomains (h : domain ∈ context.readDomains) :
    domain = .publicVerified ∨ domain = context.main ∨ domain = context.run ∨ domain = context.protectedBranch ∨
      domain = context.sourceDomain := by
  unfold readDomains at h
  cases hread : context.read <;> cases hsource : context.source <;>
    simp only [hread, hsource, mem_cons, not_mem_nil, or_false] at h <;> tauto

/-- An untrusted change writes its quarantine, and only protected main writes the verified main domain. -/
theorem writeDomain_cases (h : context.writeDomain = some domain) :
    domain = context.sourceDomain ∧ context.source ≠ .protectedMain ∨
    (∀ changeId, context.source ≠ .untrustedChange changeId) ∧
      (domain = context.run ∨ domain = context.protectedBranch ∨
        domain = context.main ∧ context.source = .protectedMain ∧ context.write = .verified ∧
          context.verifiedWriteAuthorized = true) := by
  unfold writeDomain at h
  cases hwrite : context.write <;> cases hsource : context.source <;>
    simp only [hwrite, hsource, reduceCtorEq, Option.some.injEq, Bool.and_false, Bool.and_true, Bool.false_eq_true,
      if_false] at h
  case verified.protectedMain =>
    split at h
    · cases h
      simp_all
    · cases h
  all_goals
    subst h
    simp

theorem owns_sourceDomain : context.Owns context.sourceDomain := by
  unfold sourceDomain
  cases context.source <;> exact .inr ⟨rfl, rfl⟩

theorem owns_readDomains (h : domain ∈ context.readDomains) : context.Owns domain := by
  rcases mem_readDomains h with rfl | rfl | rfl | rfl | rfl
  · exact .inl rfl
  · exact .inr ⟨rfl, rfl⟩
  · exact .inr ⟨rfl, rfl⟩
  · exact .inr ⟨rfl, rfl⟩
  · exact owns_sourceDomain

theorem owns_writeDomain (h : context.writeDomain = some domain) : context.Owns domain := by
  rcases writeDomain_cases h with ⟨rfl, -⟩ | ⟨-, rfl | rfl | ⟨rfl, -⟩⟩
  · exact owns_sourceDomain
  · exact .inr ⟨rfl, rfl⟩
  · exact .inr ⟨rfl, rfl⟩
  · exact .inr ⟨rfl, rfl⟩

variable {changeId : String}

theorem writeDomain_of_untrustedChange (hsource : context.source = .untrustedChange changeId)
    (h : context.writeDomain = some domain) :
    domain = .pullRequestQuarantine context.installationId context.tenantId context.repositoryId changeId := by
  rcases writeDomain_cases h with ⟨rfl, -⟩ | ⟨hnot, -⟩
  · rw [sourceDomain, hsource]
  · exact absurd hsource (hnot changeId)

variable {installationId tenantId repositoryId : String}

theorem readDomains_quarantine
    (h : .pullRequestQuarantine installationId tenantId repositoryId changeId ∈ context.readDomains) :
    context.source = .untrustedChange changeId ∧ context.installationId = installationId ∧
      context.tenantId = tenantId ∧ context.repositoryId = repositoryId := by
  rcases mem_readDomains h with h | h | h | h | h
  · cases h
  · cases h
  · cases h
  · cases h
  · unfold sourceDomain at h
    cases hsource : context.source <;> rw [hsource] at h <;> cases h
    exact ⟨rfl, rfl, rfl, rfl⟩

theorem writeDomain_main
    (h : context.writeDomain = some (.repositoryMainVerified installationId tenantId repositoryId)) :
    context.source = .protectedMain ∧ context.write = .verified ∧ context.verifiedWriteAuthorized = true := by
  rcases writeDomain_cases h with ⟨hdomain, hsource⟩ | ⟨-, hdomain | hdomain | ⟨-, hmain⟩⟩
  · unfold sourceDomain at hdomain
    cases hcase : context.source <;> rw [hcase] at hdomain
    · cases hdomain
    · cases hdomain
    · exact absurd hcase hsource
  · cases hdomain
  · cases hdomain
  · exact hmain

end CacheAccessContext

end Runtrue.Cache
