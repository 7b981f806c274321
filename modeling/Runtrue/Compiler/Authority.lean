import Runtrue.Compiler.Permissions

/-!
# Authority only shrinks

The order of permission sets: levels by rank, domains and capabilities by containment, a cache domain only
within itself. An intersection is within both of its arguments, and the conversion of an intersection that
was written back as a definition is within the two conversions it came from.
-/

namespace Runtrue.Compiler

open Fallible List Ir Function Ast

/-! ### The order -/

def AccessWithin (access bound : Ir.Access) : Prop := accessRank access ≤ accessRank bound

structure ScmWithin (scm bound : Ir.ScmPermissions) : Prop where
  contents : AccessWithin scm.contents bound.contents
  issues : AccessWithin scm.issues bound.issues
  pullRequests : AccessWithin scm.pullRequests bound.pullRequests
  checks : AccessWithin scm.checks bound.checks
  statuses : AccessWithin scm.statuses bound.statuses

/-- What a network permission allows is allowed by its bound; ranges that the bound denies stay denied. -/
inductive NetworkWithin : Ir.NetworkPermission → Ir.NetworkPermission → Prop
  | deny (bound : Ir.NetworkPermission) : NetworkWithin .deny bound
  | allow {dns dns' : Ir.DnsPolicy} {denyPrivate denyPrivate' : Bool}
      {destinations destinations' : List Ir.NetworkDestination} {listen listen' : List U16}
      (hdns : dnsRank dns ≤ dnsRank dns') (hprivate : denyPrivate' = true → denyPrivate = true)
      (hdestinations : destinations ⊆ destinations') (hlisten : listen ⊆ listen') :
      NetworkWithin (.allow dns denyPrivate destinations listen)
        (.allow dns' denyPrivate' destinations' listen')

def CacheReadWithin (cache bound : Ir.CacheRead) : Prop := cache = .deny ∨ cache = bound

def CacheWriteWithin (cache bound : Ir.CacheWrite) : Prop := cache = .deny ∨ cache = bound

structure PermissionsWithin (permissions bound : Ir.PermissionSet) : Prop where
  repository : AccessWithin permissions.repository bound.repository
  scm : ScmWithin permissions.scm bound.scm
  checks : AccessWithin permissions.checks bound.checks
  artifacts : AccessWithin permissions.artifacts bound.artifacts
  registry : AccessWithin permissions.registry bound.registry
  network : NetworkWithin permissions.network bound.network
  oidcAudiences : permissions.oidcAudiences ⊆ bound.oidcAudiences
  cacheRead : CacheReadWithin permissions.cacheRead bound.cacheRead
  cacheWrite : CacheWriteWithin permissions.cacheWrite bound.cacheWrite
  secrets : permissions.secrets ⊆ bound.secrets
  signing : permissions.signing ⊆ bound.signing

/-- The capabilities of a step within the permissions of its job. -/
structure CapabilitiesWithin (capabilities : Ir.StepCapabilitySet) (bound : Ir.PermissionSet) : Prop where
  network : NetworkWithin capabilities.network bound.network
  secrets : capabilities.secrets ⊆ bound.secrets
  checks : AccessWithin capabilities.checks bound.checks
  artifacts : AccessWithin capabilities.artifacts bound.artifacts
  cacheRead : CacheReadWithin capabilities.cacheRead bound.cacheRead
  cacheWrite : CacheWriteWithin capabilities.cacheWrite bound.cacheWrite
  oidcAudiences : capabilities.oidcAudiences ⊆ bound.oidcAudiences
  signing : capabilities.signing ⊆ bound.signing

theorem AccessWithin.trans {a b c : Ir.Access} (h : AccessWithin a b) (h' : AccessWithin b c) :
    AccessWithin a c := Nat.le_trans h h'

theorem ScmWithin.trans {a b c : Ir.ScmPermissions} (h : ScmWithin a b) (h' : ScmWithin b c) : ScmWithin a c where
  contents := h.contents.trans h'.contents
  issues := h.issues.trans h'.issues
  pullRequests := h.pullRequests.trans h'.pullRequests
  checks := h.checks.trans h'.checks
  statuses := h.statuses.trans h'.statuses

theorem NetworkWithin.trans {a b c : Ir.NetworkPermission} (h : NetworkWithin a b) (h' : NetworkWithin b c) :
    NetworkWithin a c := by
  cases h with
  | deny => exact .deny c
  | allow hdns hprivate hdestinations hlisten =>
    cases h' with
    | allow hdns' hprivate' hdestinations' hlisten' =>
      exact .allow (hdns.trans hdns') (fun hbound => hprivate (hprivate' hbound))
        (List.Subset.trans hdestinations hdestinations') (List.Subset.trans hlisten hlisten')

theorem CacheReadWithin.trans {a b c : Ir.CacheRead} (h : CacheReadWithin a b) (h' : CacheReadWithin b c) :
    CacheReadWithin a c := by
  rcases h with hdeny | rfl
  · exact .inl hdeny
  · exact h'

theorem CacheWriteWithin.trans {a b c : Ir.CacheWrite} (h : CacheWriteWithin a b)
    (h' : CacheWriteWithin b c) : CacheWriteWithin a c := by
  rcases h with hdeny | rfl
  · exact .inl hdeny
  · exact h'

theorem PermissionsWithin.trans {a b c : PermissionSet} (h : PermissionsWithin a b)
    (h' : PermissionsWithin b c) : PermissionsWithin a c where
  repository := h.repository.trans h'.repository
  scm := h.scm.trans h'.scm
  checks := h.checks.trans h'.checks
  artifacts := h.artifacts.trans h'.artifacts
  registry := h.registry.trans h'.registry
  network := h.network.trans h'.network
  oidcAudiences := List.Subset.trans h.oidcAudiences h'.oidcAudiences
  cacheRead := h.cacheRead.trans h'.cacheRead
  cacheWrite := h.cacheWrite.trans h'.cacheWrite
  secrets := List.Subset.trans h.secrets h'.secrets
  signing := List.Subset.trans h.signing h'.signing

/-! ### Intersections are within both arguments -/

theorem minAccess_within_left (left right : Ir.Access) : AccessWithin (minAccess left right) left := by
  unfold minAccess AccessWithin
  split <;> omega

theorem minAccess_within_right (left right : Ir.Access) : AccessWithin (minAccess left right) right := by
  unfold minAccess AccessWithin
  split <;> omega

theorem dnsRank_minDns (left right : Ir.DnsPolicy) :
    dnsRank (minDns left right) ≤ dnsRank left ∧ dnsRank (minDns left right) ≤ dnsRank right := by
  unfold minDns
  split <;> omega

theorem minCacheRead_within (left right : Ir.CacheRead) :
    CacheReadWithin (minCacheRead left right) left ∧ CacheReadWithin (minCacheRead left right) right := by
  unfold minCacheRead
  split
  · rename_i heq
    exact ⟨.inr rfl, .inr heq⟩
  · exact ⟨.inl rfl, .inl rfl⟩

theorem minCacheWrite_within (left right : Ir.CacheWrite) : CacheWriteWithin (minCacheWrite left right) left ∧
      CacheWriteWithin (minCacheWrite left right) right := by
  unfold minCacheWrite
  split
  · rename_i heq
    exact ⟨.inr rfl, .inr heq⟩
  · exact ⟨.inl rfl, .inl rfl⟩

theorem networkOf_within {dns : Ir.DnsPolicy} {denyPrivate : Bool} {destinations : List Ir.NetworkDestination}
    {listen : List U16} {bound : Ir.NetworkPermission}
    (h : NetworkWithin (.allow dns denyPrivate destinations listen) bound) :
    NetworkWithin (networkOf dns denyPrivate destinations listen) bound := by
  unfold networkOf
  split
  · exact .deny _
  · exact h

variable {α : Type} {l bound : List α}

theorem mem_of_mem_filter_mem [DecidableEq α] : (l.filter fun a => a ∈ bound) ⊆ bound := by
  intro a ha
  exact of_decide_eq_true (mem_filter.mp ha).2

theorem intersectNetwork_within (maximum requested : Ir.NetworkPermission) :
    NetworkWithin (intersectNetwork maximum requested) maximum ∧
      NetworkWithin (intersectNetwork maximum requested) requested := by
  cases maximum with
  | deny => exact ⟨.deny _, .deny _⟩
  | allow maxDns =>
    cases requested with
    | deny => exact ⟨.deny _, .deny _⟩
    | allow dns =>
      have hdns := dnsRank_minDns maxDns dns
      constructor
      · exact networkOf_within (.allow hdns.1 (fun h => by rw [h]; rfl) mem_of_mem_filter_mem mem_of_mem_filter_mem)
      · exact networkOf_within (.allow hdns.2 (fun h => by rw [h, Bool.or_true]) (filter_subset_self _)
          (filter_subset_self _))

theorem sort_filter_mem_subset [Ord α] [DecidableEq α] : (l.filter fun a => a ∈ bound).sort ⊆ bound :=
  fun _ ha => mem_of_mem_filter_mem (mem_sort.mp ha)

theorem sort_filter_subset [Ord α] {p : α → Bool} : (l.filter p).sort ⊆ l :=
  fun _ ha => mem_of_mem_filter (mem_sort.mp ha)

theorem intersectPermissions_within_maximum (maximum requested : PermissionSet) :
    PermissionsWithin (intersectPermissions maximum requested) maximum where
  repository := minAccess_within_left _ _
  scm := ⟨minAccess_within_left _ _, minAccess_within_left _ _, minAccess_within_left _ _,
    minAccess_within_left _ _, minAccess_within_left _ _⟩
  checks := minAccess_within_left _ _
  artifacts := minAccess_within_left _ _
  registry := minAccess_within_left _ _
  network := (intersectNetwork_within _ _).1
  oidcAudiences := sort_filter_mem_subset
  cacheRead := (minCacheRead_within _ _).1
  cacheWrite := (minCacheWrite_within _ _).1
  secrets := sort_filter_mem_subset
  signing := sort_filter_mem_subset

theorem intersectPermissions_within_requested (maximum requested : PermissionSet) :
    PermissionsWithin (intersectPermissions maximum requested) requested where
  repository := minAccess_within_right _ _
  scm := ⟨minAccess_within_right _ _, minAccess_within_right _ _, minAccess_within_right _ _,
    minAccess_within_right _ _, minAccess_within_right _ _⟩
  checks := minAccess_within_right _ _
  artifacts := minAccess_within_right _ _
  registry := minAccess_within_right _ _
  network := (intersectNetwork_within _ _).2
  oidcAudiences := sort_filter_subset
  cacheRead := (minCacheRead_within _ _).2
  cacheWrite := (minCacheWrite_within _ _).2
  secrets := sort_filter_subset
  signing := sort_filter_subset

/-! ### The round trip through a definition -/

variable {sha256 : List UInt8 → ContentDigest}

/-- Hosts in lower case. -/
def NormalNetwork : Ir.NetworkPermission → Prop
  | .deny => True
  | .allow _ _ destinations _ => ∀ d ∈ destinations, convertDestination (astDestination d) = d

/-- What a conversion returns: every secret is the reference of its name and purpose, every host is in
lower case. -/
structure Normal (sha256 : List UInt8 → ContentDigest) (permissions : Ir.PermissionSet) : Prop where
  network : NormalNetwork permissions.network
  secrets : ∀ s ∈ permissions.secrets, secretReference sha256 (astSecret s) = s

theorem convertDestination_astDestination (destination : Ast.NetworkDestination) :
    convertDestination (astDestination (convertDestination destination)) = convertDestination destination := by
  simp only [convertDestination, astDestination, Text.toAsciiLowercase_idem]
  cases destination.protocol <;> rfl

variable {dns : Ir.DnsPolicy} {denyPrivate : Bool} {destinations : List Ir.NetworkDestination}
  {listen : List U16}

theorem normalNetwork_networkOf (h : ∀ d ∈ destinations, convertDestination (astDestination d) = d) :
    NormalNetwork (networkOf dns denyPrivate destinations listen) := by
  unfold networkOf
  split
  · trivial
  · exact h

variable {network : Ir.NetworkPermission}

theorem convertNetworkPolicy_normal {policy : NetworkPolicy}
    (h : convertNetworkPolicy policy = .ok network) : NormalNetwork network := by
  simp only [convertNetworkPolicy, bind_eq_ok, exists_unit, pure_eq_ok] at h
  obtain ⟨-, rfl⟩ := h
  refine normalNetwork_networkOf fun d hd => ?_
  rw [mem_dedupAdjacent, mem_sort, mem_map] at hd
  obtain ⟨destination, -, rfl⟩ := hd
  exact convertDestination_astDestination destination

variable {converted : Ir.PermissionSet}

theorem convertPermissions_normal {permissions : Permissions}
    (h : convertPermissions sha256 permissions = .ok converted) : Normal sha256 converted := by
  simp only [convertPermissions, bind_eq_ok, exists_unit, pure_eq_ok] at h
  obtain ⟨-, network, hnetwork, rfl⟩ := h
  constructor
  · show NormalNetwork network
    cases hpermission : permissions.network with
    | keyword =>
      rw [hpermission] at hnetwork
      cases hnetwork
      trivial
    | policy =>
      rw [hpermission] at hnetwork
      exact convertNetworkPolicy_normal hnetwork
  · intro s hs
    obtain ⟨_, -, rfl⟩ := mem_map.mp (mem_sort.mp hs)
    rfl

theorem intersectPermissions_normal {maximum requested : PermissionSet} (h : Normal sha256 requested) :
    Normal sha256 (intersectPermissions maximum requested) := by
  constructor
  · show NormalNetwork (intersectNetwork maximum.network requested.network)
    have hnetwork := h.network
    cases maximum.network with
    | deny => trivial
    | allow =>
      cases hrequested : requested.network with
      | deny => trivial
      | allow =>
        rw [hrequested] at hnetwork
        exact normalNetwork_networkOf fun d hd => hnetwork d (mem_of_mem_filter hd)
  · exact fun s hs => h.secrets s (sort_filter_subset hs)

theorem convertNetworkPolicy_astNetwork (hnormal : ∀ d ∈ destinations, convertDestination (astDestination d) = d)
    (h : convertNetworkPermission (astNetwork (.allow dns denyPrivate destinations listen)) = .ok network) :
    NetworkWithin network (.allow dns denyPrivate destinations listen) := by
  simp only [astNetwork, convertNetworkPermission, convertNetworkPolicy, bind_eq_ok, exists_unit,
    pure_eq_ok] at h
  obtain ⟨-, rfl⟩ := h
  refine networkOf_within (.allow ?_ id ?_ ?_)
  · cases dns <;> exact le_refl _
  · intro d hd
    rw [mem_dedupAdjacent, mem_sort, map_map, mem_map] at hd
    obtain ⟨d', hd', rfl⟩ := hd
    rw [comp_apply, hnormal d' hd']
    exact hd'
  · intro _ hport
    rwa [mem_dedupAdjacent, mem_sort] at hport

theorem convertAccess_astAccess (access : Ir.Access) : convertAccess (astAccess access) = access := by
  cases access <;> rfl

theorem accessWithin_astAccess (access : Ir.Access) : AccessWithin (convertAccess (astAccess access)) access := by
  rw [convertAccess_astAccess]
  exact le_refl _

theorem convertPermissions_astPermissions {permissions converted : PermissionSet}
    (hnormal : Normal sha256 permissions) (h : convertPermissions sha256 (astPermissions permissions) = .ok converted) :
    PermissionsWithin converted permissions := by
  simp only [convertPermissions, bind_eq_ok, exists_unit, pure_eq_ok] at h
  obtain ⟨-, network, hnetwork, rfl⟩ := h
  constructor
  case repository => exact accessWithin_astAccess _
  case scm =>
    exact ⟨accessWithin_astAccess _, accessWithin_astAccess _, accessWithin_astAccess _,
      accessWithin_astAccess _, accessWithin_astAccess _⟩
  case checks => exact accessWithin_astAccess _
  case artifacts => exact accessWithin_astAccess _
  case registry => exact accessWithin_astAccess _
  case network =>
    have hhosts := hnormal.network
    show NetworkWithin network permissions.network
    cases hpermission : permissions.network with
    | deny =>
      rw [astPermissions, hpermission] at hnetwork
      cases hnetwork
      exact .deny _
    | allow =>
      rw [astPermissions, hpermission] at hnetwork
      rw [hpermission] at hhosts
      exact convertNetworkPolicy_astNetwork hhosts hnetwork
  case oidcAudiences =>
    intro _ haudience
    rw [mem_dedupAdjacent, mem_sort] at haudience
    simp only [astPermissions] at haudience
    split at haudience
    · cases haudience
    · exact haudience
  case cacheRead => exact .inr (by simp only [astPermissions]; cases permissions.cacheRead <;> rfl)
  case cacheWrite => exact .inr (by simp only [astPermissions]; cases permissions.cacheWrite <;> rfl)
  case secrets =>
    intro _ hsecret
    simp only [astPermissions, mem_sort, map_map, mem_map] at hsecret
    obtain ⟨s, hs, rfl⟩ := hsecret
    rw [comp_apply, hnormal.secrets s hs]
    exact hs
  case signing =>
    intro _ hcapability
    simp only [astPermissions, mem_sort, map_map, mem_map] at hcapability
    obtain ⟨c, hc, rfl⟩ := hcapability
    have hsame : signingCapability (astSigning c) = c := by
      obtain ⟨_, operation, _⟩ := c
      cases operation <;> rfl
    rw [comp_apply, hsame]
    exact hc

/-- **The intersection of two definitions converts to something within both conversions.** -/
theorem convertPermissions_intersectAst {maximum requested result : Permissions}
    (h : intersectAstPermissions sha256 maximum requested = .ok result)
    (hconverted : convertPermissions sha256 result = .ok converted) :
    ∃ m r, convertPermissions sha256 maximum = .ok m ∧ convertPermissions sha256 requested = .ok r ∧
      PermissionsWithin converted m ∧ PermissionsWithin converted r := by
  simp only [intersectAstPermissions, bind_eq_ok, pure_eq_ok] at h
  obtain ⟨m, hm, r, hr, rfl⟩ := h
  have hnormal : Normal sha256 (intersectPermissions m r) :=
    intersectPermissions_normal (convertPermissions_normal hr)
  have hwithin := convertPermissions_astPermissions hnormal hconverted
  exact ⟨m, r, hm, hr, hwithin.trans (intersectPermissions_within_maximum m r),
    hwithin.trans (intersectPermissions_within_requested m r)⟩

end Runtrue.Compiler
