import Runtrue.Cache.Access
import Runtrue.Cache.History

/-!
# Where cached content can go

Content is at a `Place`: in a generation of an identity, or in the workspace of a job that acts in a trust
domain. A restore or a commit moves it between a generation and a workspace (`Moves`), a promotion from a
generation of the source identity to one of the target (`Promotes`). A commit is taken to carry everything its
writer holds, and the order of the moves in time is not used.

The checks of the store are made when a call begins; `Phase.Obeys` carries them to the step that publishes.
-/

namespace Runtrue.Cache

open Fallible CacheStore CacheAccessContext Option Run

variable {o : Config} {env : Environment} {s : CacheStore} {request : Request}

inductive Place
  | workspace (domain : TrustDomain)
  | generation (identity : CacheIdentity) (number : Nat)

def Place.domain : Place → TrustDomain
  | .workspace domain => domain
  | .generation identity _ => identity.trustDomain

/-- The domain a commit writes as; a promotion has no writer. -/
def Request.writer : Request → Option TrustDomain
  | .commitTicketedSnapshot request => some request.ticket.writerTrustDomain
  | .commitTree writer _ _ _ _ _ => some writer
  | .promote _ _ _ _ _ => none

/-- The call of an event that answers with a new generation. -/
def Publishes (e : Run.Event System Operation Reply) (request : Request) (entry : CacheEntry) : Prop :=
  ∃ (id : Nat) (env : Environment) (call : Call), e.op = .advance id env ∧ e.before.calls[id]? = some call ∧
    call.request = request ∧ e.result = .published entry

/-- The moves of content by restores and commits. -/
inductive Moves (h : History) : Place → Place → Prop
  | restore {e : Run.Event System Operation Reply} {reader : TrustDomain} {identity : CacheIdentity}
      {env : Environment} {entry : CacheEntry} (he : e ∈ h) (hop : e.op = .restore reader identity env)
      (hresult : e.result = .restored (.hit entry)) :
      Moves h (.generation identity entry.head.generation) (.workspace reader)
  | commit {e : Run.Event System Operation Reply} {request : Request} {writer : TrustDomain} {entry : CacheEntry}
      (he : e ∈ h) (hpublishes : Publishes e request entry) (hwriter : request.writer = some writer) :
      Moves h (.workspace writer) (.generation entry.manifest.identity entry.head.generation)

/-- The moves of content by promotions, each with the entry it has published. -/
inductive Promotes (h : History) : Place → Place → CacheEntry → Prop
  | promote {e : Run.Event System Operation Reply} {sourceIdentity targetIdentity : CacheIdentity}
      {evidence : PromotionEvidence} {expected : Option CacheHead} {fence : Nat} {entry : CacheEntry}
      (he : e ∈ h)
      (hpublishes : Publishes e (.promote sourceIdentity targetIdentity evidence expected fence) entry)
      (number : Nat) : Promotes h (.generation sourceIdentity number)
        (.generation entry.manifest.identity entry.head.generation) entry

/-- Content goes from one place to another, by any number of moves and promotions. -/
def Flows (h : History) : Place → Place → Prop :=
  Relation.ReflTransGen fun p q => Moves h p q ∨ ∃ entry, Promotes h p q entry

/-! ### What the store has checked -/

/-- What holds of the manifest a call publishes. -/
def Request.Obeys (request : Request) (identity : CacheIdentity) (promotion : Option PromotionRecord) : Prop :=
  (∀ writer, request.writer = some writer → writer = identity.trustDomain) ∧
    ∀ source target evidence expected fence, request = .promote source target evidence expected fence →
      source.trustDomain.canPromoteTo identity.trustDomain = true ∧
        ∃ record : PromotionRecord, promotion = some record ∧ record.evidence = evidence

def Phase.Obeys (request : Request) : Phase → Prop
  | .drafted draft | .prepared _ draft _ => request.Obeys draft.identity draft.promotion
  | .stored _ entry | .ended (.ok entry) => request.Obeys entry.manifest.identity entry.manifest.promotion
  | .started | .ended (.error _) => True

theorem begin_obeys {draft : Draft} (h : s.begin o env request = .ok draft) :
    request.Obeys draft.identity draft.promotion := by
  cases request with
  | commitTicketedSnapshot =>
    simp only [begin, bind_eq_ok, exists_unit] at h
    obtain ⟨hwriter, -, hdraft⟩ := draftCommit_eq_ok h.2
    rw [hdraft]
    exact ⟨fun writer hw => (Option.some.inj hw).symm.trans hwriter, fun _ _ _ _ _ hpromote => by cases hpromote⟩
  | commitTree writer =>
    obtain ⟨hwriter, -, hdraft⟩ := draftCommit_eq_ok h
    rw [hdraft]
    exact ⟨fun _ hw => (Option.some.inj hw).symm.trans hwriter, fun _ _ _ _ _ hpromote => by cases hpromote⟩
  | promote =>
    obtain ⟨hpromote, hidentity, -, _, -, -, hrecord⟩ := draftPromotion_eq_ok h
    refine ⟨fun _ hw => (by cases hw), fun _ _ _ _ _ hrequest => ?_⟩
    cases hrequest
    exact ⟨hidentity ▸ hpromote, _, hrecord, rfl⟩

theorem Phase.Obeys.advance {phase : Phase} (h : phase.Obeys request) (o : Config) (env : Environment)
    (s : CacheStore) : (advance o env s request phase).1.Obeys request := by
  fun_cases Cache.advance o env s request phase with
  | case1 _ hdraft => exact begin_obeys hdraft
  | case5 _ _ _ _ _ hstore =>
    obtain ⟨hmanifest, -⟩ := storeManifest_eq_ok hstore
    rw [Phase.Obeys, hmanifest]
    exact h
  | case3 | case7 | case9 => exact h
  | _ => trivial

variable {h : History}

theorem obeys_of_reaches {s : System} (hrun : Reaches (step o) System.empty h s) {id : Nat}
    {call : Call} (hcall : s.calls[id]? = some call) : call.phase.Obeys call.request := by
  induction hrun generalizing id call with
  | start => simp [System.empty] at hcall
  | call _ op ih =>
    rcases step_calls o _ op hcall with hcall | hstarted | ⟨env, _, rfl, hcall₀, rfl⟩
    · exact ih hcall
    · rw [hstarted]
      trivial
    · exact (ih hcall₀).advance o env _

variable {entry : CacheEntry}

theorem Phase.eq_of_reply {phase : Phase} (h : phase.reply = .published entry) : phase = .ended (.ok entry) := by
  cases phase with
  | ended result =>
    cases result with
    | ok =>
      cases h
      rfl
    | error => cases h
  | _ => cases h

theorem Publishes.obeys {s : System} (hrun : Reaches (step o) System.empty h s)
    {e : Event System Operation Reply} (he : e ∈ h) (hpublishes : Publishes e request entry) :
    request.Obeys entry.manifest.identity entry.manifest.promotion := by
  obtain ⟨_, _, rfl⟩ := List.append_of_mem he
  obtain ⟨hbefore, hresult, -⟩ := hrun.split
  obtain ⟨_, env, call, hop, hcall, rfl, hpublished⟩ := hpublishes
  have hobeys := (obeys_of_reaches hbefore hcall).advance o env e.before.store
  have hreply : (advance o env e.before.store call.request call.phase).1.reply = .published entry := by
    rw [hpublished, hop] at hresult
    simp only [step, hcall] at hresult
    exact hresult.symm
  rw [Phase.eq_of_reply hreply] at hobeys
  exact hobeys

theorem canReadFrom_of_restore {reader : TrustDomain} {identity : CacheIdentity}
    (h : s.restore o env reader identity = .ok (.hit entry)) : reader.canReadFrom identity.trustDomain = true := by
  simp only [CacheStore.restore, bind_eq_ok, exists_unit, rejectIf_eq_ok, Bool.not_eq_false] at h
  exact h.2.1

/-! ### Confined content stays -/

variable {p q : Place}

section
variable {s : System} (hrun : Reaches (step o) System.empty h s)
include hrun

theorem Moves.domain_eq (hmoves : Moves h p q) (hconfined : p.domain.isConfined = true) : q.domain = p.domain := by
  cases hmoves with
  | restore he hop hresult =>
    rename_i e reader identity env entry
    obtain ⟨_, _, rfl⟩ := List.append_of_mem he
    obtain ⟨-, hstep, -⟩ := hrun.split
    rw [hresult, hop, step] at hstep
    split at hstep
    · rename_i outcome hrestore
      cases hstep
      exact TrustDomain.eq_of_canReadFrom hconfined (canReadFrom_of_restore hrestore)
    · cases hstep
  | commit he hpublishes hwriter => exact ((hpublishes.obeys hrun he).1 _ hwriter).symm

theorem Flows.domain_eq_or (hflows : Flows h p q) (hconfined : p.domain.isConfined = true) :
    q.domain = p.domain ∨ ∃ p' q' entry, Flows h p p' ∧ p'.domain = p.domain ∧ Promotes h p' q' entry ∧
      Flows h q' q := by
  induction hflows with
  | refl => exact .inl rfl
  | tail hflows hlast ih =>
    rcases ih with hsame | ⟨p', q', entry, hbefore, hdomain, hpromotes, hafter⟩
    · rcases hlast with hmoves | ⟨entry, hpromotes⟩
      · exact .inl ((hmoves.domain_eq hrun (hsame ▸ hconfined)).trans hsame)
      · exact .inr ⟨_, _, entry, hflows, hsame, hpromotes, .refl⟩
    · exact .inr ⟨p', q', entry, hbefore, hdomain, hpromotes, hafter.tail hlast⟩

theorem Promotes.recorded (hpromotes : Promotes h p q entry) :
    p.domain.canPromoteTo q.domain = true ∧ ∃ record, entry.manifest.promotion = some record := by
  cases hpromotes with
  | promote he hpublishes =>
    obtain ⟨hdomain, record, hrecord, -⟩ := (hpublishes.obeys hrun he).2 _ _ _ _ _ rfl
    exact ⟨hdomain, record, hrecord⟩

end

/-- **Untrusted changes cannot poison trusted caches**: what an untrusted change writes is read only by the same
change, the verified main domain is written only by protected main with authorized verified writes, every scope is
public or of the context's own repository, and content leaves a run, a change or a branch only through a recorded
promotion. -/
theorem untrusted_content_confined :
    (∀ material context limits scopes material' context' limits' scopes' changeId identity,
      deriveCacheAccess material context limits = .ok scopes →
      deriveCacheAccess material' context' limits' = .ok scopes' →
      context.source = .untrustedChange changeId → scopes.writeIdentity = some identity →
      identity ∈ scopes'.readCandidates → context'.source = .untrustedChange changeId ∧
        context'.installationId = context.installationId ∧ context'.tenantId = context.tenantId ∧
        context'.repositoryId = context.repositoryId) ∧
    (∀ material context limits scopes identity installationId tenantId repositoryId,
      deriveCacheAccess material context limits = .ok scopes → scopes.writeIdentity = some identity →
      identity.trustDomain = .repositoryMainVerified installationId tenantId repositoryId →
      context.source = .protectedMain ∧ context.write = .verified ∧ context.verifiedWriteAuthorized = true) ∧
    (∀ material context limits scopes identity, deriveCacheAccess material context limits = .ok scopes →
      identity ∈ scopes.readCandidates ∨ scopes.writeIdentity = some identity →
      identity.tenantId = context.tenantId ∧ identity.repositoryId = context.repositoryId ∧
        context.Owns identity.trustDomain) ∧
    ∀ (o : Config) (h : History) (s : System) (p q : Place), Run.Reaches (step o) System.empty h s →
      p.domain.isConfined = true → Flows h p q → q.domain = p.domain ∨
        ∃ p' q' entry record, Flows h p p' ∧ p'.domain = p.domain ∧ Promotes h p' q' entry ∧
          p'.domain.canPromoteTo q'.domain = true ∧ entry.manifest.promotion = some record ∧ Flows h q' q := by
  refine ⟨?_, ?_, ?_, ?_⟩
  · intro material context limits scopes _ _ _ _ _ identity hscopes hscopes'
      hsource hwrite hread
    have hderives := deriveCacheAccess_spec hscopes
    have hderives' := deriveCacheAccess_spec hscopes'
    rw [hderives.write, map_eq_some_iff] at hwrite
    obtain ⟨domain, hdomain, rfl⟩ := hwrite
    obtain ⟨domain', hdomain', hsame⟩ := hderives'.read _ hread
    obtain rfl : domain = domain' := congrArg CacheIdentity.trustDomain hsame
    rw [writeDomain_of_untrustedChange hsource hdomain] at hdomain'
    exact readDomains_quarantine hdomain'
  · intro material context limits scopes identity _ _ _ hscopes hwrite hmain
    rw [(deriveCacheAccess_spec hscopes).write, map_eq_some_iff] at hwrite
    obtain ⟨domain, hdomain, rfl⟩ := hwrite
    obtain rfl : domain = _ := hmain
    exact writeDomain_main hdomain
  · intro _ _ _ _ identity hscopes hidentity
    have hderives := deriveCacheAccess_spec hscopes
    rcases hidentity with hread | hwrite
    · obtain ⟨domain, hdomain, rfl⟩ := hderives.read identity hread
      exact ⟨hderives.tenant, hderives.repository, owns_readDomains hdomain⟩
    · rw [hderives.write, map_eq_some_iff] at hwrite
      obtain ⟨_, hdomain, rfl⟩ := hwrite
      exact ⟨hderives.tenant, hderives.repository, owns_writeDomain hdomain⟩
  · intro o h s p q hrun hconfined hflows
    rcases hflows.domain_eq_or hrun hconfined with hsame | ⟨p', q', entry, hbefore, hdomain, hpromotes, hafter⟩
    · exact .inl hsame
    · obtain ⟨hallowed, record, hrecord⟩ := hpromotes.recorded hrun
      exact .inr ⟨p', q', entry, record, hbefore, hdomain, hpromotes, hallowed, hrecord, hafter⟩

/-- A pull request that reads and writes its quarantine. -/
def changeContext (changeId : String) : CacheAccessContext where
  installationId := "installation"
  tenantId := "tenant"
  repositoryId := "repository"
  runId := "run"
  defaultBranch := "main"
  source := .untrustedChange changeId
  read := .branch
  write := .quarantine
  verifiedWriteAuthorized := false

def plainMaterial : CacheKeyMaterial :=
  ⟨"tenant", "repository", "purpose", ⟨"linux", "amd64"⟩, none, ⟨0⟩, ⟨0⟩, 0, none⟩

theorem untrusted_content_confined_change : ∃ scopes identity,
    deriveCacheAccess plainMaterial (changeContext "7") .default = .ok scopes ∧
      scopes.writeIdentity = some identity ∧ identity ∈ scopes.readCandidates ∧
      (changeContext "7").source = .untrustedChange "7" ∧ (changeContext "7").Owns identity.trustDomain := by
  have hok : ((deriveCacheAccess plainMaterial (changeContext "7") .default).toOption.any fun scopes =>
      scopes.writeIdentity.any (· ∈ scopes.readCandidates)) = true := by decide +kernel
  obtain ⟨scopes, hscopes, hany⟩ := exists_eq_ok_of_any hok
  obtain ⟨identity, hwrite, hread⟩ := any_eq_true _ _ |>.mp hany
  have hread := of_decide_eq_true hread
  exact ⟨scopes, identity, hscopes, hwrite, hread,
    (untrusted_content_confined.1 _ _ _ _ _ _ _ _ _ _ hscopes hscopes rfl hwrite hread).1,
    (untrusted_content_confined.2.2.1 _ _ _ _ _ hscopes (.inr hwrite)).2.2⟩

end Runtrue.Cache
