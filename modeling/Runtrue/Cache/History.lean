import Runtrue.Base.Run
import Runtrue.Cache.Store

/-!
# Interleaved commits and promotions

Any number of calls run at the same time; `step` moves one of them by one step on the file system, or issues
a ticket, or restores.

The invariant (`System.Sound`) says that the generation files of an identity are gap free, that each file
follows its predecessor's fence and names a ticket that can only publish there, and that every call in flight
still has the head it has read among the files. Files and tickets are only ever added (`Grows`), and a file
only by a call whose read head is the file before it (`advance_spec`).
-/

namespace Runtrue.Cache

open Fallible BTreeMap List Run
open Option (mem_unique)

/-- How far a call is. The first argument of `prepared` and of `stored` is the head it has read. -/
inductive Phase
  | started
  | drafted (draft : Draft)
  | prepared (basis : Option CacheHead) (draft : Draft) (generation : Nat)
  | stored (basis : Option CacheHead) (entry : CacheEntry)
  | ended (result : Except CacheError CacheEntry)

structure Call where
  request : Request
  phase : Phase

structure System where
  store : CacheStore
  calls : BTreeMap Nat Call

inductive Operation
  | issue (request : CacheWriteTicketRequest) (nonces : List ContentDigest) (env : Environment)
  | start (id : Nat) (request : Request)
  | advance (id : Nat) (env : Environment)
  | restore (reader : TrustDomain) (identity : CacheIdentity) (env : Environment)

inductive Reply
  | done
  | unknownCall
  | ticket (ticket : CacheWriteTicket)
  | refused (error : CacheError)
  | published (entry : CacheEntry)
  | restored (outcome : CacheStore.RestoreOutcome)

variable (o : Config)

/-- The next step of a call. -/
def advance (env : Environment) (s : CacheStore) (request : Request) : Phase → Phase × CacheStore
  | .started =>
    match s.begin o env request with
    | .ok draft => (.drafted draft, s)
    | .error error => (.ended (.error error), s)
  | .drafted draft =>
    match s.readHeadFor o env draft with
    | .ok (basis, generation) => (.prepared basis draft generation, s)
    | .error error => (.ended (.error error), s)
  | .prepared basis draft generation =>
    match s.storeManifest o env draft generation with
    | .ok (entry, t) => (.stored basis entry, t)
    | .error error => (.ended (.error error), s)
  | .stored _ entry =>
    match s.appendHead o env entry.head with
    | .created t => (.ended (.ok entry), t)
    | .refused error => (.ended (.error (s.refusal o env request error)), s)
  | .ended result => (.ended result, s)

def Phase.reply : Phase → Reply
  | .ended (.ok entry) => .published entry
  | .ended (.error error) => .refused error
  | _ => .done

def step (s : System) : Operation → Reply × System
  | .issue request nonces env =>
    match s.store.issueWriteTicket o env request nonces with
    | .ok (ticket, store) => (.ticket ticket, { s with store })
    | .error error => (.refused error, s)
  | .start id request =>
    if s.calls.contains id then (.unknownCall, s)
    else (.done, { s with calls := s.calls.insert id ⟨request, .started⟩ })
  | .advance id env =>
    match s.calls[id]? with
    | none => (.unknownCall, s)
    | some call =>
      let next := advance o env s.store call.request call.phase
      (next.1.reply, { s with store := next.2, calls := s.calls.insert id { call with phase := next.1 } })
  | .restore reader identity env =>
    match s.store.restore o env reader identity with
    | .ok outcome => (.restored outcome, s)
    | .error error => (.refused error, s)

/-- A new store without calls. -/
def System.empty : System := ⟨⟨∅, ∅, ∅⟩, ∅⟩

/-! ### Generation files and tickets are only added -/

variable {o} {env : Environment} {s t u : CacheStore} {request : Request}

/-- Every generation file and every ticket is still there, unchanged. -/
structure Grows (s t : CacheStore) : Prop where
  heads : ∀ {d : ContentDigest} {g : Nat} {head : CacheHead}, (s.headsOf d)[g]? = some head →
    (t.headsOf d)[g]? = some head
  tickets : ∀ {id : ContentDigest} {ticket : CacheWriteTicket}, s.tickets[id]? = some ticket →
    t.tickets[id]? = some ticket

theorem Grows.refl (s : CacheStore) : Grows s s := ⟨id, id⟩

theorem Grows.trans (h : Grows s t) (h' : Grows t u) : Grows s u :=
  ⟨fun hhead => h'.heads (h.heads hhead), fun hticket => h'.tickets (h.tickets hticket)⟩

namespace CacheStore

variable {current : Option CacheHead}

theorem nextGeneration_eq_ok {generation : Nat} (h : nextGeneration current = .ok generation) :
    (current = none ∧ generation = 1) ∨ ∃ head, current = some head ∧ generation = head.generation + 1 := by
  cases current with
  | none => exact .inl ⟨rfl, (pure_eq_ok.mp h).symm⟩
  | some head =>
    simp only [nextGeneration, bind_eq_ok, exists_unit, pure_eq_ok] at h
    exact .inr ⟨head, rfl, h.2.symm⟩

variable {head : CacheHead}

theorem get_headsOf_addHead {d : ContentDigest} {g : Nat} : ((s.addHead head).headsOf d)[g]? =
      if head.identityDigest = d ∧ head.generation = g then some head else (s.headsOf d)[g]? := by
  by_cases hd : head.identityDigest = d
  · subst hd
    by_cases hg : head.generation = g
    · simp [addHead, headsOf, hg]
    · simp [addHead, headsOf, hg]
  · simp [addHead, headsOf, hd]

theorem latest_eq_some {entries : List (Nat × CacheHead)} {p : Nat × CacheHead} (h : latest entries = some p) :
    p ∈ entries := by
  have hfold : ∀ (l : List (Nat × CacheHead)) (acc : Option (Nat × CacheHead)),
      l.foldl (fun latest entry => if latest.all fun current => current.1 < entry.1 then some entry else latest) acc
        = some p → acc = some p ∨ p ∈ l := by
    intro l
    induction l with
    | nil => exact fun acc h => .inl h
    | cons entry l ih =>
      intro _ h
      rcases ih _ h with hacc | hmem
      · dsimp only at hacc
        split at hacc
        · exact .inr (Option.some.inj hacc ▸ mem_cons_self)
        · exact .inl hacc
      · exact .inr (mem_cons_of_mem entry hmem)
  rcases hfold entries none h with hnone | hmem
  · cases hnone
  · exact hmem

theorem readHead_eq_ok {d : ContentDigest} (h : s.readHead o env d = .ok current)
    (hhead : current = some head) : (s.headsOf d)[head.generation]? = some head := by
  subst hhead
  simp only [readHead, bind_eq_ok, exists_unit] at h
  obtain ⟨-, -, h⟩ := h
  split at h
  · cases h
  · rename_i generation file hlatest
    simp only [readHeadFile, bind_eq_ok, exists_unit, pure_eq_ok, validateHead, rejectIf_eq_ok, not_or, not_not,
      ne_eq] at h
    obtain ⟨_, ⟨-, ⟨-, -, hgeneration, -⟩, rfl⟩, hsame⟩ := h
    cases hsame
    rw [hgeneration]
    exact mem_toList.mp (latest_eq_some hlatest)

theorem validatePresentedTicket_eq_ok {ticket : CacheWriteTicket}
    (h : s.validatePresentedTicket o env ticket = .ok ()) :
    digest o ticket.identity = .ok ticket.identityDigest ∧ s.tickets[ticket.ticketId]? = some ticket := by
  simp only [validatePresentedTicket, bind_eq_ok, exists_unit, rejectIf_eq_ok, okOr_eq_ok, not_or, not_not,
    ne_eq] at h
  obtain ⟨-, _, hdigest, ⟨rfl, -⟩, -, -, _, hstored, rfl⟩ := h
  exact ⟨hdigest, hstored⟩

end CacheStore

/-- The ticket that is to be claimed publishes for this identity, after the expected head. -/
def Claims (s : CacheStore) (claim : Option ContentDigest) (d : ContentDigest) (expected : Option CacheHead) :
    Prop :=
  ∀ id, claim = some id → ∃ ticket : CacheWriteTicket, s.tickets[id]? = some ticket ∧
    ticket.identityDigest = d ∧ ticket.expectedHead = expected

/-- The generation comes next after a head that is one of the generation files and has no newer fence. -/
def Based (s : CacheStore) (d : ContentDigest) (basis : Option CacheHead) (generation fence : Nat) : Prop :=
  nextGeneration basis = .ok generation ∧ ∀ head, basis = some head →
    (s.headsOf d)[head.generation]? = some head ∧ head.fencingGeneration ≤ fence

def Phase.Sound (s : CacheStore) : Phase → Prop
  | .started | .ended _ => True
  | .drafted draft => Claims s draft.claimTicketId draft.identityDigest draft.expectedHead
  | .prepared basis draft generation => Claims s draft.claimTicketId draft.identityDigest basis ∧
      Based s draft.identityDigest basis generation draft.fencingGeneration
  | .stored basis entry => Claims s entry.head.claimTicketId entry.head.identityDigest basis ∧
      Based s entry.head.identityDigest basis entry.head.generation entry.head.fencingGeneration

variable {d : ContentDigest}

theorem Claims.grows {claim : Option ContentDigest} {expected : Option CacheHead}
    (hgrows : Grows s t) (h : Claims s claim d expected) : Claims t claim d expected := by
  intro id hid
  obtain ⟨ticket, hticket, hsame⟩ := h id hid
  exact ⟨ticket, hgrows.tickets hticket, hsame⟩

variable {basis : Option CacheHead}

theorem Based.grows {generation fence : Nat} (hgrows : Grows s t)
    (h : Based s d basis generation fence) : Based t d basis generation fence :=
  ⟨h.1, fun head hhead => ⟨hgrows.heads (h.2 head hhead).1, (h.2 head hhead).2⟩⟩

variable {phase : Phase}

theorem Phase.Sound.grows (hgrows : Grows s t) (h : phase.Sound s) : phase.Sound t := by
  cases phase with
  | started => trivial
  | drafted => exact Claims.grows hgrows h
  | prepared => exact ⟨h.1.grows hgrows, h.2.grows hgrows⟩
  | stored => exact ⟨h.1.grows hgrows, h.2.grows hgrows⟩
  | ended => trivial

namespace CacheStore

variable {draft : Draft} {expectedHead : Option CacheHead} {fence : Nat}

theorem draftCommit_eq_ok {writer : TrustDomain} {identity : CacheIdentity} {tree : TreeSnapshot}
    {producer : CacheProducer} {claim : Option ContentDigest}
    (h : draftCommit o writer identity tree expectedHead fence producer claim = .ok draft) :
    writer = identity.trustDomain ∧ digest o identity = .ok draft.identityDigest ∧
      draft = ⟨identity, draft.identityDigest, expectedHead, fence, tree, producer, claim, none⟩ := by
  simp only [draftCommit, bind_eq_ok, exists_unit, rejectIf_eq_ok, pure_eq_ok, Bool.not_eq_false,
    TrustDomain.canWriteTo_iff] at h
  obtain ⟨-, rfl, -, -, _, hdigest, rfl⟩ := h
  exact ⟨rfl, hdigest, rfl⟩

theorem checkTicket_eq_ok {request : CacheSnapshotCommitRequest} (h : s.checkTicket o env request = .ok ()) :
    s.validatePresentedTicket o env request.ticket = .ok () := by
  simp only [checkTicket, bind_eq_ok, exists_unit] at h
  exact h.1

theorem draftPromotion_eq_ok {source target : CacheIdentity} {evidence : PromotionEvidence}
    (h : s.draftPromotion o env source target evidence expectedHead fence = .ok draft) :
    source.trustDomain.canPromoteTo target.trustDomain = true ∧ draft.identity = target ∧ draft.claimTicketId = none ∧
      ∃ entry, s.inspect o env source = .ok (some entry) ∧ draft.tree = entry.manifest.tree ∧
        draft.promotion = some ⟨entry.head.manifestDigest, evidence⟩ := by
  simp only [draftPromotion, bind_eq_ok, exists_unit, rejectIf_eq_ok, okOr_eq_ok, pure_eq_ok, Bool.not_eq_false] at h
  obtain ⟨-, -, -, -, -, hpromote, _, hinspect, entry, rfl, -, _, -, rfl⟩ := h
  exact ⟨hpromote, rfl, rfl, entry, hinspect, rfl, rfl⟩

theorem begin_claims (h : s.begin o env request = .ok draft) :
    Claims s draft.claimTicketId draft.identityDigest draft.expectedHead := by
  intro _ hid
  cases request with
  | commitTicketedSnapshot request =>
    simp only [begin, bind_eq_ok, exists_unit] at h
    obtain ⟨hcheck, hdraft⟩ := h
    obtain ⟨hdigest, hstored⟩ := validatePresentedTicket_eq_ok (checkTicket_eq_ok hcheck)
    obtain ⟨-, hsame, hdraft⟩ := draftCommit_eq_ok hdraft
    rw [hdraft] at hid ⊢
    cases hid
    exact ⟨request.ticket, hstored, Except.ok.inj (hdigest.symm.trans hsame), rfl⟩
  | commitTree =>
    obtain ⟨-, -, hdraft⟩ := draftCommit_eq_ok h
    rw [hdraft] at hid
    cases hid
  | promote =>
    obtain ⟨-, -, hclaim, -⟩ := draftPromotion_eq_ok h
    rw [hclaim] at hid
    cases hid

variable {generation : Nat}

theorem readHeadFor_eq_ok {basis : Option CacheHead} (h : s.readHeadFor o env draft = .ok (basis, generation)) :
    s.readHead o env draft.identityDigest = .ok basis ∧ draft.expectedHead = basis ∧
      Based s draft.identityDigest basis generation draft.fencingGeneration := by
  simp only [readHeadFor, bind_eq_ok, exists_unit, requireExpectedHead, rejectIf_eq_ok, not_not, ne_eq, pure_eq_ok,
    Prod.mk.injEq] at h
  obtain ⟨_, hread, hexpected, hfence, _, hnext, rfl, rfl⟩ := h
  refine ⟨hread, hexpected, hnext, fun _ hhead => ⟨readHead_eq_ok hread hhead, ?_⟩⟩
  rw [hhead, requireFreshFence, rejectIf_eq_ok, not_lt] at hfence
  exact hfence

theorem storeManifest_eq_ok {entry : CacheEntry} (h : s.storeManifest o env draft generation = .ok (entry, t)) :
    entry.manifest = draft.manifest generation ∧ entry.head = draft.head generation (o.manifestDigest entry.manifest) ∧
      ∃ manifests, t = { s with manifests } := by
  have hrest : ∃ manifest, (⟨draft.head generation (o.manifestDigest manifest), manifest⟩ : CacheEntry) = entry ∧
      manifest = draft.manifest generation ∧
      ({ s with manifests := s.manifests.insert (o.manifestDigest manifest) manifest } : CacheStore) = t := by
    unfold storeManifest at h
    split at h <;> simp only [bind_eq_ok, exists_unit, pure_eq_ok, Prod.mk.injEq] at h
    · obtain ⟨-, -, -, -, hentry, hstore⟩ := h
      exact ⟨_, hentry, rfl, hstore⟩
    · obtain ⟨-, -, -, hentry, hstore⟩ := h
      exact ⟨_, hentry, rfl, hstore⟩
  obtain ⟨_, rfl, hmanifest, rfl⟩ := hrest
  exact ⟨hmanifest, rfl, _, rfl⟩

theorem appendHead_created {head : CacheHead} (h : s.appendHead o env head = .created t) :
    (s.headsOf head.identityDigest)[head.generation]? = none ∧ t = s.addHead head := by
  unfold appendHead at h
  split at h
  · cases h
  · split at h
    · split at h <;> cases h
    · rename_i hnot
      cases h
      exact ⟨get_of_not_contains (Bool.not_eq_true _ ▸ hnot), rfl⟩

end CacheStore

/-! ### The generation files of a sound store -/

structure CacheStore.Sound (s : CacheStore) : Prop where
  gapFree : ∀ d, ∃ n, ∀ g, (∃ head, (s.headsOf d)[g]? = some head) ↔ 1 ≤ g ∧ g ≤ n
  named : ∀ {d : ContentDigest} {g : Nat} {head : CacheHead}, (s.headsOf d)[g]? = some head → head.generation = g
  follows : ∀ {d : ContentDigest} {g : Nat} {head next : CacheHead}, (s.headsOf d)[g]? = some head →
    (s.headsOf d)[g + 1]? = some next → head.fencingGeneration ≤ next.fencingGeneration
  claims : ∀ {d : ContentDigest} {g : Nat} {head : CacheHead} {id : ContentDigest},
    (s.headsOf d)[g]? = some head → head.claimTicketId = some id → ∃ ticket : CacheWriteTicket,
      s.tickets[id]? = some ticket ∧ ticket.identityDigest = d ∧ nextGeneration ticket.expectedHead = .ok g

structure System.Sound (s : System) : Prop where
  store : s.store.Sound
  calls : ∀ {id : Nat} {call : Call}, s.calls[id]? = some call → call.phase.Sound s.store

variable {head : CacheHead}

theorem CacheStore.Sound.append (hs : s.Sound) (hclaims : Claims s head.claimTicketId head.identityDigest basis)
    (hbased : Based s head.identityDigest basis head.generation head.fencingGeneration)
    (hnew : (s.headsOf head.identityDigest)[head.generation]? = none) :
    Grows s (s.addHead head) ∧ (s.addHead head).Sound := by
  obtain ⟨n, hn⟩ := hs.gapFree head.identityDigest
  have habsent : ¬(1 ≤ head.generation ∧ head.generation ≤ n) := by
    rw [← hn, hnew]
    rintro ⟨_, h⟩
    cases h
  have hlast : head.generation = n + 1 ∧ ∀ prev, (s.headsOf head.identityDigest)[n]? = some prev →
      prev.fencingGeneration ≤ head.fencingGeneration := by
    rcases nextGeneration_eq_ok hbased.1 with ⟨-, _⟩ | ⟨prev, hprev, hnext⟩
    · refine ⟨by omega, fun prev hprev => ?_⟩
      have hzero := (hn n).mp ⟨prev, hprev⟩
      omega
    · obtain ⟨hstored, hfence⟩ := hbased.2 prev hprev
      have hbound := (hn _).mp ⟨prev, hstored⟩
      obtain rfl : prev.generation = n := by omega
      exact ⟨hnext, fun _ hprev' => mem_unique hstored hprev' ▸ hfence⟩
  obtain ⟨_, hfence⟩ := hlast
  have hgrows : Grows s (s.addHead head) := by
    refine ⟨fun {d g file} hfile => ?_, id⟩
    rw [get_headsOf_addHead, if_neg, hfile]
    rintro ⟨rfl, rfl⟩
    rw [hnew] at hfile
    cases hfile
  refine ⟨hgrows, fun d => ?_, fun {d g file} hfile => ?_, fun {d g file next} hfile hnext => ?_,
    fun {d g file id} hfile hid => ?_⟩
  · by_cases hd : head.identityDigest = d
    · subst hd
      refine ⟨n + 1, fun g => ?_⟩
      rw [get_headsOf_addHead]
      by_cases hg : head.generation = g
      · rw [if_pos ⟨rfl, hg⟩]
        exact ⟨fun _ => by omega, fun _ => ⟨head, rfl⟩⟩
      · rw [if_neg fun h => hg h.2, hn]
        omega
    · obtain ⟨m, hm⟩ := hs.gapFree d
      refine ⟨m, fun g => ?_⟩
      rw [get_headsOf_addHead, if_neg fun h => hd h.1, hm]
  · rw [get_headsOf_addHead] at hfile
    split at hfile
    · rename_i hsame
      exact Option.some.inj hfile ▸ hsame.2
    · exact hs.named hfile
  · rw [get_headsOf_addHead] at hfile hnext
    split at hnext
    · rename_i hsame
      obtain ⟨rfl, _⟩ := hsame
      cases hnext
      rw [if_neg (by omega)] at hfile
      obtain rfl : g = n := by omega
      exact hfence file hfile
    · split at hfile
      · rename_i hsame
        obtain ⟨rfl, rfl⟩ := hsame
        have hbound := (hn _).mp ⟨next, hnext⟩
        omega
      · exact hs.follows hfile hnext
  · rw [get_headsOf_addHead] at hfile
    split at hfile
    · rename_i hsame
      obtain ⟨rfl, rfl⟩ := hsame
      cases hfile
      obtain ⟨ticket, hticket, hidentity, hexpected⟩ := hclaims id hid
      exact ⟨ticket, hticket, hidentity, hexpected ▸ hbased.1⟩
    · exact hs.claims hfile hid

theorem advance_spec (o : Config) (env : Environment) (request : Request) (hs : s.Sound) (hphase : phase.Sound s) :
    Grows s (advance o env s request phase).2 ∧ (advance o env s request phase).2.Sound ∧
      (advance o env s request phase).1.Sound (advance o env s request phase).2 := by
  fun_cases advance o env s request phase with
  | case1 _ hdraft => exact ⟨.refl s, hs, CacheStore.begin_claims hdraft⟩
  | case3 _ _ _ hread =>
    obtain ⟨-, hexpected, hbased⟩ := CacheStore.readHeadFor_eq_ok hread
    exact ⟨.refl s, hs, hexpected ▸ hphase, hbased⟩
  | case5 _ _ _ _ _ hstore =>
    obtain ⟨-, hhead, manifests, rfl⟩ := CacheStore.storeManifest_eq_ok hstore
    have hgrows : Grows s { s with manifests } := ⟨id, id⟩
    refine ⟨hgrows, ⟨hs.gapFree, hs.named, hs.follows, hs.claims⟩, ?_⟩
    rw [Phase.Sound, hhead]
    exact ⟨hphase.1.grows hgrows, hphase.2.grows hgrows⟩
  | case7 _ _ _ hcreated =>
    obtain ⟨hnew, rfl⟩ := CacheStore.appendHead_created hcreated
    obtain ⟨hgrows, hsound⟩ := hs.append hphase.1 hphase.2 hnew
    exact ⟨hgrows, hsound, trivial⟩
  | _ => exact ⟨.refl s, hs, trivial⟩

/-! ### Whole runs -/

variable {nonces : List ContentDigest} {issued : CacheWriteTicket}

theorem allocateTicket_eq_ok {ticket : ContentDigest → CacheWriteTicket}
    (h : s.allocateTicket o ticket nonces = .ok (issued, t)) :
    s.tickets[issued.ticketId]? = none ∧ t = { s with tickets := s.tickets.insert issued.ticketId issued } := by
  induction nonces with
  | nil => cases h
  | cons nonce nonces ih =>
    rw [CacheStore.allocateTicket] at h
    split at h
    · exact ih h
    · rename_i hnew
      simp only [bind_eq_ok, exists_unit, pure_eq_ok, Prod.mk.injEq] at h
      obtain ⟨-, rfl, rfl⟩ := h
      exact ⟨get_of_not_contains (Bool.not_eq_true _ ▸ hnew), rfl⟩

theorem issueWriteTicket_eq_ok {request : CacheWriteTicketRequest}
    (h : s.issueWriteTicket o env request nonces = .ok (issued, t)) :
    s.tickets[issued.ticketId]? = none ∧ t = { s with tickets := s.tickets.insert issued.ticketId issued } := by
  unfold CacheStore.issueWriteTicket at h
  simp only [bind_eq_ok, exists_unit] at h
  obtain ⟨-, _, -, _, -, h⟩ := h
  split at h <;> simp only [bind_eq_ok, exists_unit] at h
  · exact allocateTicket_eq_ok h.2.2
  · obtain ⟨-, _, -, h⟩ := h
    exact allocateTicket_eq_ok h

theorem System.sound_empty : System.empty.Sound := by
  have hheads : ∀ (d : ContentDigest) (g : Nat), (System.empty.store.headsOf d)[g]? = none := by
    intro d g
    simp [System.empty, CacheStore.headsOf]
  refine ⟨⟨fun d => ⟨0, fun g => ?_⟩, ?_, ?_, ?_⟩, ?_⟩
  · rw [hheads]
    constructor
    · rintro ⟨_, h⟩
      cases h
    · omega
  · intro d g head h
    rw [hheads] at h
    cases h
  · intro d g head _ h
    rw [hheads] at h
    cases h
  · intro d g _ id h
    rw [hheads] at h
    cases h
  · intro _ _ h
    simp [System.empty] at h

theorem System.Sound.step {s : System} (hs : s.Sound) (op : Operation) :
    Grows s.store (step o s op).2.store ∧ (Cache.step o s op).2.Sound := by
  fun_cases Cache.step o s op with
  | case1 _ _ _ ticket _ hissue =>
    obtain ⟨hnew, rfl⟩ := issueWriteTicket_eq_ok hissue
    have hgrows : Grows s.store { s.store with tickets := s.store.tickets.insert ticket.ticketId ticket } :=
      ⟨id, fun hticket => get_insert_fresh hnew hticket⟩
    refine ⟨hgrows, ⟨hs.store.gapFree, hs.store.named, hs.store.follows, fun {d g head id} hhead hid => ?_⟩,
      fun {id call} hcall => (hs.calls hcall).grows hgrows⟩
    obtain ⟨ticket', hticket', hsame⟩ := hs.store.claims hhead hid
    exact ⟨ticket', hgrows.tickets hticket', hsame⟩
  | case4 =>
    refine ⟨.refl _, hs.store, fun {id' call} hcall => ?_⟩
    rcases get_insert_eq_some.mp hcall with ⟨-, rfl⟩ | ⟨-, hcall⟩
    · trivial
    · exact hs.calls hcall
  | case6 _ env call hcall =>
    obtain ⟨hgrows, hstore, hphase⟩ := advance_spec o env call.request hs.store (hs.calls hcall)
    refine ⟨hgrows, hstore, fun {id' call'} hcall' => ?_⟩
    rcases get_insert_eq_some.mp hcall' with ⟨-, rfl⟩ | ⟨-, hcall'⟩
    · exact hphase
    · exact (hs.calls hcall').grows hgrows
  | _ => exact ⟨.refl _, hs⟩

/-- A step that changes the generation files is the creation of one file by a call that had stored its
manifest. -/
theorem step_heads (o : Config) (s : System) (op : Operation) : (step o s op).2.store.heads = s.store.heads ∨
      ∃ (id : Nat) (env : Environment) (call : Call) (basis : Option CacheHead) (entry : CacheEntry),
        op = .advance id env ∧ s.calls[id]? = some call ∧ call.phase = .stored basis entry ∧
        (s.store.headsOf entry.head.identityDigest)[entry.head.generation]? = none ∧
        (step o s op).2 = ⟨s.store.addHead entry.head, s.calls.insert id ⟨call.request, .ended (.ok entry)⟩⟩ := by
  fun_cases step o s op with
  | case1 _ _ _ _ _ hissue =>
    obtain ⟨-, rfl⟩ := issueWriteTicket_eq_ok hissue
    exact .inl rfl
  | case6 id env call hcall next =>
    subst next
    cases hphase : call.phase with
    | prepared basis draft generation =>
      simp only [advance]
      split
      · rename_i entry t hstore
        obtain ⟨-, -, _, rfl⟩ := CacheStore.storeManifest_eq_ok hstore
        exact .inl rfl
      · exact .inl rfl
    | stored basis entry =>
      simp only [advance]
      split
      · rename_i t hcreated
        obtain ⟨hnew, rfl⟩ := CacheStore.appendHead_created hcreated
        exact .inr ⟨id, env, call, basis, entry, rfl, hcall, hphase, hnew, rfl⟩
      · exact .inl rfl
    | started | drafted =>
      simp only [advance]
      split <;> exact .inl rfl
    | ended => exact .inl rfl
  | _ => exact .inl rfl

abbrev History := List (Run.Event System Operation Reply)

/-- The call read this head of the identity. -/
def ReadBefore (o : Config) (h : History) (id : Nat) (d : ContentDigest) (basis : Option CacheHead) : Prop :=
  ∃ e ∈ h, ∃ env, e.op = .advance id env ∧ e.before.store.readHead o env d = .ok basis

/-- What a call past its read has read is in the history. -/
def Phase.Read (o : Config) (h : History) (id : Nat) : Phase → Prop
  | .prepared basis draft _ => ReadBefore o h id draft.identityDigest basis
  | .stored basis entry => ReadBefore o h id entry.head.identityDigest basis
  | _ => True

/-- The generation file was created by a call that had read `basis` before and whose next generation it is. -/
def BuiltOn (o : Config) (h : History) (d : ContentDigest) (g : Nat) (head : CacheHead)
    (basis : Option CacheHead) : Prop :=
  ∃ (later earlier : History) (publish : Run.Event System Operation Reply) (id : Nat) (env : Environment)
      (call : Call) (entry : CacheEntry),
    h = later ++ publish :: earlier ∧ publish.op = .advance id env ∧ publish.before.calls[id]? = some call ∧
      call.phase = .stored basis entry ∧ entry.head = head ∧ ReadBefore o earlier id d basis ∧
      Based publish.before.store d basis g head.fencingGeneration

/-- What the history of a run says about its last state. -/
structure Recorded (o : Config) (h : History) (s : System) : Prop where
  sound : s.Sound
  kept : ∀ e ∈ h, Grows e.before.store s.store
  read : ∀ {id : Nat} {call : Call}, s.calls[id]? = some call → call.phase.Read o h id
  built : ∀ {d : ContentDigest} {g : Nat} {head : CacheHead}, (s.store.headsOf d)[g]? = some head →
    ∃ basis, BuiltOn o h d g head basis
  changes : ∀ e ∈ h, (step o e.before e.op).2.store.heads = e.before.store.heads ∨
    ∃ id env call entry, e.op = .advance id env ∧ s.calls[id]? = some call ∧ call.phase = .ended (.ok entry)

variable {h : History} {id : Nat}

theorem ReadBefore.cons (hread : ReadBefore o h id d basis) (e : Event System Operation Reply) :
    ReadBefore o (e :: h) id d basis := by
  obtain ⟨e', he', henv⟩ := hread
  exact ⟨e', mem_cons_of_mem e he', henv⟩

theorem Phase.Read.cons (hread : phase.Read o h id) (e : Event System Operation Reply) :
    phase.Read o (e :: h) id := by
  cases phase with
  | prepared => exact ReadBefore.cons hread e
  | stored => exact ReadBefore.cons hread e
  | _ => trivial

variable {g : Nat}

theorem BuiltOn.cons (hbuilt : BuiltOn o h d g head basis) (e : Event System Operation Reply) :
    BuiltOn o (e :: h) d g head basis := by
  obtain ⟨later, earlier, publish, id, env, call, entry, rfl, hrest⟩ := hbuilt
  exact ⟨e :: later, earlier, publish, id, env, call, entry, rfl, hrest⟩

variable {call : Call}

theorem step_calls (o : Config) (s : System) (op : Operation) (hcall : (step o s op).2.calls[id]? = some call) :
    s.calls[id]? = some call ∨ call.phase = .started ∨ ∃ env call₀, op = .advance id env ∧ s.calls[id]? = some call₀ ∧
        call = ⟨call₀.request, (advance o env s.store call₀.request call₀.phase).1⟩ := by
  revert hcall
  fun_cases step o s op with
  | case4 =>
    intro hcall
    rcases get_insert_eq_some.mp hcall with ⟨-, rfl⟩ | ⟨-, hcall⟩
    · exact .inr (.inl rfl)
    · exact .inl hcall
  | case6 _ env call₀ hcall₀ =>
    intro hcall
    rcases get_insert_eq_some.mp hcall with ⟨rfl, rfl⟩ | ⟨-, hcall⟩
    · exact .inr (.inr ⟨env, call₀, rfl, hcall₀, rfl⟩)
    · exact .inl hcall
  | _ => exact .inl

theorem step_ended (o : Config) (s : System) (op : Operation)
    {result : Except CacheError CacheEntry} (hcall : s.calls[id]? = some call)
    (hended : call.phase = .ended result) : (step o s op).2.calls[id]? = some call := by
  fun_cases step o s op with
  | case4 _ _ hnew =>
    exact get_insert_fresh (get_of_not_contains (Bool.not_eq_true _ ▸ hnew)) hcall
  | case6 id' _ _ hcall₀ next =>
    by_cases hid : id' = id
    · subst hid
      obtain rfl := mem_unique hcall₀ hcall
      simp only [next, hended, advance, get_insert_self]
      rw [← hended]
    · simp only [get_insert, if_neg hid, hcall]
  | _ => exact hcall

theorem Phase.Read.advance {s : System} (hread : call.phase.Read o h id) (env : Environment) (result : Reply) :
    (advance o env s.store call.request call.phase).1.Read o (⟨s, .advance id env, result⟩ :: h) id := by
  revert hread
  fun_cases Cache.advance o env s.store call.request call.phase with
  | case3 _ _ _ hfor =>
    intro _
    obtain ⟨hhead, -, -⟩ := CacheStore.readHeadFor_eq_ok hfor
    exact ⟨_, mem_cons_self, env, rfl, hhead⟩
  | case5 _ _ _ _ _ hstore =>
    intro hread
    obtain ⟨-, hhead, -⟩ := CacheStore.storeManifest_eq_ok hstore
    rw [Phase.Read, hhead]
    exact ReadBefore.cons hread _
  | _ => exact fun _ => trivial

theorem Recorded.step {s : System} (hs : Recorded o h s) (op : Operation) :
    Recorded o (⟨s, op, (step o s op).1⟩ :: h) (Cache.step o s op).2 := by
  obtain ⟨hgrows, hsound⟩ := hs.sound.step (o := o) op
  refine ⟨hsound, ?_, ?_, ?_, ?_⟩
  · intro e he
    rcases mem_cons.mp he with rfl | he
    · exact hgrows
    · exact (hs.kept e he).trans hgrows
  · intro id call hcall
    rcases step_calls o s op hcall with hcall | hstarted | ⟨env, _, rfl, hcall₀, rfl⟩
    · exact (hs.read hcall).cons _
    · rw [hstarted]
      trivial
    · exact (hs.read hcall₀).advance env _
  · intro d g _ hhead
    rcases step_heads o s op with hsame | ⟨id, env, call, basis, entry, rfl, hcall, hphase, -, hnext⟩
    · rw [CacheStore.headsOf, hsame] at hhead
      obtain ⟨basis, hbuilt⟩ := hs.built hhead
      exact ⟨basis, hbuilt.cons _⟩
    · rw [hnext, CacheStore.get_headsOf_addHead] at hhead
      split at hhead
      · rename_i hsame
        obtain ⟨rfl, rfl⟩ := hsame
        cases hhead
        have hread := hs.read hcall
        have hstored := hs.sound.calls hcall
        rw [hphase] at hread hstored
        exact ⟨basis, [], h, _, id, env, call, entry, rfl, rfl, hcall, hphase, rfl, hread, hstored.2⟩
      · obtain ⟨basis, hbuilt⟩ := hs.built hhead
        exact ⟨basis, hbuilt.cons _⟩
  · intro e he
    rcases mem_cons.mp he with rfl | he
    · rcases step_heads o s op with hsame | ⟨id, env, call, _, entry, rfl, -, -, -, hnext⟩
      · exact .inl hsame
      · refine .inr ⟨id, env, ⟨call.request, .ended (.ok entry)⟩, entry, rfl, ?_, rfl⟩
        rw [hnext]
        exact get_insert_self _ _ _
    · rcases hs.changes e he with hsame | ⟨id, env, call, entry, hop, hcall, hended⟩
      · exact .inl hsame
      · exact .inr ⟨id, env, call, entry, hop, step_ended o s op hcall hended, hended⟩

theorem recorded_of_reaches {s : System} (hrun : Reaches (step o) System.empty h s) : Recorded o h s := by
  induction hrun with
  | start =>
    have hnone : ∀ id : Nat, System.empty.calls[id]? = none := fun _ => by simp [System.empty]
    refine ⟨System.sound_empty, fun _ he => (nomatch he), fun hcall => ?_, fun {d g head} hhead => ?_,
      fun _ he => (nomatch he)⟩
    · rw [hnone] at hcall
      cases hcall
    · simp [System.empty, CacheStore.headsOf] at hhead
  | call _ op ih => exact ih.step op

theorem CacheStore.Sound.fence_mono (hs : s.Sound) {g g' : Nat} {head head' : CacheHead}
    (hhead : (s.headsOf d)[g]? = some head) (hle : g ≤ g') (hhead' : (s.headsOf d)[g']? = some head') :
    head.fencingGeneration ≤ head'.fencingGeneration := by
  obtain ⟨_, hn⟩ := hs.gapFree d
  have hfirst := (hn g).mp ⟨head, hhead⟩
  induction g', hle using Nat.le_induction generalizing head' with
  | base => exact (mem_unique hhead hhead') ▸ le_refl _
  | succ k _ ih =>
    have hlast := (hn (k + 1)).mp ⟨head', hhead'⟩
    obtain ⟨_, hbetween⟩ := (hn k).mpr ⟨by omega, by omega⟩
    exact (ih hbetween).trans (hs.follows hbetween hhead')

variable {fence : Nat}

theorem Based.eq_predecessor (hs : t.Sound) (hgrows : Grows s t) (hbased : Based s d basis g fence) :
    basis = (t.headsOf d)[g - 1]? := by
  rcases CacheStore.nextGeneration_eq_ok hbased.1 with ⟨rfl, rfl⟩ | ⟨prev, rfl, rfl⟩
  · obtain ⟨_, hn⟩ := hs.gapFree d
    cases hzero : (t.headsOf d)[1 - 1]? with
    | none => rfl
    | some head =>
      have := (hn 0).mp ⟨head, hzero⟩
      omega
  · exact (hgrows.heads (hbased.2 prev rfl).1).symm

structure LinearHistory (o : Config) (h : History) (s : System) : Prop where
  /-- The generations of an identity are the numbers from one on, without a gap. -/
  gapFree : ∀ d, ∃ n, ∀ g, (∃ head, (s.store.headsOf d)[g]? = some head) ↔ 1 ≤ g ∧ g ≤ n
  fences : ∀ (d : ContentDigest) (g g' : Nat) (head head' : CacheHead), (s.store.headsOf d)[g]? = some head →
    g ≤ g' → (s.store.headsOf d)[g']? = some head' → head.fencingGeneration ≤ head'.fencingGeneration
  unchanged : ∀ e ∈ h, ∀ (d : ContentDigest) (g : Nat) (head : CacheHead),
    (e.before.store.headsOf d)[g]? = some head → (s.store.headsOf d)[g]? = some head
  singleUse : ∀ (d d' : ContentDigest) (g g' : Nat) (head head' : CacheHead) (id : ContentDigest),
    (s.store.headsOf d)[g]? = some head → (s.store.headsOf d')[g']? = some head' →
    head.claimTicketId = some id → head'.claimTicketId = some id → d = d' ∧ g = g'
  builtOn : ∀ (d : ContentDigest) (g : Nat) (head : CacheHead), (s.store.headsOf d)[g]? = some head →
    BuiltOn o h d g head (s.store.headsOf d)[g - 1]?
  errors : ∀ (id : Nat) (call : Call) (error : CacheError), s.calls[id]? = some call →
    call.phase = .ended (.error error) → ∀ e ∈ h, ∀ env, e.op = .advance id env →
      (step o e.before e.op).2.store.heads = e.before.store.heads

/-- **The history of a cache identity is linear, and tickets are single-use**: in every interleaving of
commits and promotions the generations are gap free with fences that do not go down, a generation that exists
stays as it is, a ticket is published once, every generation was created by a call that had read the
generation before it, and a call that ended with an error before its clean-up created none. -/
theorem generations_linear {h : History} {s : System} (hrun : Run.Reaches (step o) System.empty h s) :
    LinearHistory o h s := by
  have hs := recorded_of_reaches hrun
  refine ⟨hs.sound.store.gapFree, fun d g g' head head' hhead hle hhead' => ?_, fun e he d g head hhead => ?_,
    fun d _ g _ head _ id hhead hhead' hid hid' => ?_, fun d g _ hhead => ?_,
    fun _ _ _ hcall hended e he _ hop => ?_⟩
  · exact hs.sound.store.fence_mono hhead hle hhead'
  · exact (hs.kept e he).heads hhead
  · obtain ⟨_, hticket, hidentity, hnext⟩ := hs.sound.store.claims hhead hid
    obtain ⟨_, hticket', hidentity', hnext'⟩ := hs.sound.store.claims hhead' hid'
    obtain rfl := mem_unique hticket hticket'
    exact ⟨hidentity.symm.trans hidentity', Except.ok.inj (hnext.symm.trans hnext')⟩
  · obtain ⟨basis, hbuilt⟩ := hs.built hhead
    have hbasis : basis = (s.store.headsOf d)[g - 1]? := by
      obtain ⟨later, _, publish, _, _, _, entry, rfl, -, -, -, -, -, hbased⟩ := hbuilt
      have hgrows := hs.kept publish (mem_append_right later mem_cons_self)
      exact hbased.eq_predecessor hs.sound.store hgrows
    exact hbasis ▸ hbuilt
  · rcases hs.changes e he with hsame | ⟨_, _, _, _, hop', hcall', hended'⟩
    · exact hsame
    · obtain ⟨rfl, -⟩ := Operation.advance.inj (hop.symm.trans hop')
      obtain rfl := mem_unique hcall hcall'
      rw [hended] at hended'
      cases hended'

/-! ### Two commits of one head -/

/-- A store whose documents are short and have the digest zero, except tickets, which have their nonce. -/
def plainConfig : Config where
  limits := .default
  maxTreeTotalBytes := 1024
  identityDigest _ := ⟨0⟩
  ticketDigest subject := subject.nonce
  manifestDigest _ := ⟨0⟩
  headBytes _ := 1
  manifestBytes _ := 1
  ticketBytes _ := 1

def calm : Environment := ⟨.ok (), fun _ => .ok (), fun _ => .ok (), fun _ => .ok ()⟩

def plainDomain : TrustDomain := .runPrivate "installation" "tenant" "repository" "run"

def plainIdentity (domain : TrustDomain) : CacheIdentity :=
  ⟨"tenant", "repository", "purpose", domain, ⟨"linux", "amd64"⟩, none, ⟨0⟩, ⟨0⟩, 0, none⟩

def plainProducer : CacheProducer := ⟨⟨0⟩, "job", "step", "lease"⟩

def treeCommit (expectedHead : Option CacheHead) (fence : Nat) : Request :=
  .commitTree plainDomain (plainIdentity plainDomain) ⟨⟨0⟩, 0, 0, 0⟩ expectedHead fence plainProducer

/-- Two first commits that both read the head before either creates its generation, and one that follows. -/
def race : List Operation :=
  [.start 1 (treeCommit none 1), .start 2 (treeCommit none 2), .advance 1 calm, .advance 2 calm, .advance 1 calm,
    .advance 2 calm, .advance 1 calm, .advance 2 calm, .advance 2 calm, .advance 1 calm,
    .start 3 (treeCommit (some ⟨cacheHeadVersion, ⟨0⟩, 1, 2, ⟨0⟩, none⟩) 2), .advance 3 calm, .advance 3 calm,
    .advance 3 calm, .advance 3 calm]

theorem generations_linear_race :
    ((Run.exec (step plainConfig) .empty race).1.map fun e =>
      (e.result matches .published _, e.result matches .refused (.headConflict (some _)))) =
      (true, false) :: List.replicate 4 (false, false) ++
        (false, true) :: (true, false) :: List.replicate 8 (false, false) ∧
    LinearHistory plainConfig (Run.exec (step plainConfig) .empty race).1
      (Run.exec (step plainConfig) .empty race).2 :=
  ⟨by decide +kernel, generations_linear (reaches_exec _ _ _)⟩

/-! ### What the id of a ticket binds -/

/-- The id of the ticket passes the comparison of `validate_presented_ticket` with the digest of its subject. -/
def CacheWriteTicket.Identified (o : Config) (ticket : CacheWriteTicket) : Prop :=
  o.ticketDigest ticket.subject = ticket.ticketId

/-- A request to commit a first generation, for a job attempt. -/
def ticketRequest (attempt : Nat) : CacheWriteTicketRequest :=
  ⟨.commit, "tenant", "repository", "job", attempt, "step", "lease", ⟨0⟩, 1, plainDomain, plainIdentity plainDomain,
    none, none, 1, 1, 2⟩

/-- The ticket that the empty store issues for an attempt. -/
def attemptTicket (attempt : Nat) : CacheWriteTicket :=
  CacheStore.ticketOf plainConfig (ticketRequest attempt) ⟨0⟩ none ⟨7⟩

/-- **The id of a ticket binds the ticket up to the job attempt**: two tickets that pass the comparison and have the
same id are equal exactly if they are for the same attempt, if their subjects are no collision of the digest. -/
theorem ticketId_binds_ticket {first second : CacheWriteTicket}
    (hfree : o.ticketDigest first.subject = o.ticketDigest second.subject → first.subject = second.subject)
    (hfirst : first.Identified o) (hsecond : second.Identified o) (hid : first.ticketId = second.ticketId) :
    first.jobAttempt = second.jobAttempt ↔ first = second := by
  refine ⟨fun hattempt => ?_, fun h => by rw [h]⟩
  have hsubject := hfree (hfirst.trans (hid.trans hsecond.symm))
  simp only [CacheWriteTicket.subject, TicketSubject.mk.injEq] at hsubject
  obtain ⟨⟨⟩⟩ := first
  obtain ⟨⟨⟩⟩ := second
  simp only [CacheWriteTicket.mk.injEq, CacheWriteTicketRequest.mk.injEq] at *
  grind

theorem ticketId_binds_ticket_attempt : { attemptTicket 2 with jobAttempt := 1 } = attemptTicket 1 :=
  (ticketId_binds_ticket (o := plainConfig) (fun _ => by rfl) (by rfl) (by rfl) (by rfl)).mp rfl

/-- **The id leaves the job attempt open**: the ticket that a store issues for the first attempt, changed to the
second, passes the comparison under the same id, and so does every ticket under every digest. -/
theorem ticketId_leaves_attempt_open :
    (CacheStore.issueWriteTicket plainConfig calm System.empty.store (ticketRequest 1) [⟨7⟩]).toOption.map Prod.fst =
      some (attemptTicket 1) ∧
    (attemptTicket 1).Identified plainConfig ∧ { attemptTicket 1 with jobAttempt := 2 }.Identified plainConfig ∧
      { attemptTicket 1 with jobAttempt := 2 } ≠ attemptTicket 1 ∧
    ∀ (o : Config) (ticket : CacheWriteTicket) (attempt : Nat), ticket.Identified o →
      { ticket with jobAttempt := attempt }.Identified o :=
  ⟨by decide +kernel, rfl, rfl, by decide +kernel, fun _ _ _ h => h⟩

end Runtrue.Cache
