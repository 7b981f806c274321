import Runtrue.Base.Collect
import Runtrue.Cache.Identity

/-!
# The cache store

The metadata store of the `cache` crate (`store/`): one directory of generation files for each identity
digest, the issued tickets and the manifests in the content store. A generation file is created exclusively
and never replaced.

A commit or a promotion is made of separate steps on the file system: `begin` does the checks that come before
the head is read, `readHeadFor` reads the head and compares it with what the caller expects, `storeManifest`
puts the manifest into the content store and `appendHead` creates the generation file.

What the file system and the content store answer at a step is its `Environment`; a failing system call is a
`fault` there. The clean-up after the exclusive creation of a generation file (removal of the temporary link,
sync of the directory) is not a step of the model: where it fails, the source answers with an error although
the file is there.
-/

namespace Runtrue.Cache

open Fallible

def cacheManifestVersion : Nat := 1
def cacheHeadVersion : Nat := 1
def cacheTicketVersion : Nat := 1

/-- The first value that is no `u64`. -/
def u64Bound : Nat := 2 ^ 64

inductive CacheTicketOperation
  | commit | restore
deriving DecidableEq

structure CacheWriteTicketRequest where
  operation : CacheTicketOperation
  tenantId : String
  repositoryId : String
  jobId : String
  jobAttempt : Nat
  stepId : String
  leaseId : String
  producerCapsuleDigest : ContentDigest
  fencingGeneration : Nat
  writerTrustDomain : TrustDomain
  identity : CacheIdentity
  expectedHead : Option CacheHead
  expectedTreeManifestDigest : Option ContentDigest
  maxTotalBytes : Nat
  issuedAtUnixSeconds : Nat
  expiresAtUnixSeconds : Nat
deriving DecidableEq

structure CacheWriteTicket extends CacheWriteTicketRequest where
  ticketVersion : Nat
  ticketId : ContentDigest
  nonce : ContentDigest
  identityDigest : ContentDigest
deriving DecidableEq

/-- The fields of a ticket that its id is the digest of: all but the id and the attempt. -/
structure TicketSubject where
  ticketVersion : Nat
  nonce : ContentDigest
  operation : CacheTicketOperation
  tenantId : String
  repositoryId : String
  jobId : String
  stepId : String
  leaseId : String
  producerCapsuleDigest : ContentDigest
  fencingGeneration : Nat
  writerTrustDomain : TrustDomain
  identity : CacheIdentity
  identityDigest : ContentDigest
  expectedHead : Option CacheHead
  expectedTreeManifestDigest : Option ContentDigest
  maxTotalBytes : Nat
  issuedAtUnixSeconds : Nat
  expiresAtUnixSeconds : Nat

def CacheWriteTicket.subject (ticket : CacheWriteTicket) : TicketSubject where
  ticketVersion := ticket.ticketVersion
  nonce := ticket.nonce
  operation := ticket.operation
  tenantId := ticket.tenantId
  repositoryId := ticket.repositoryId
  jobId := ticket.jobId
  stepId := ticket.stepId
  leaseId := ticket.leaseId
  producerCapsuleDigest := ticket.producerCapsuleDigest
  fencingGeneration := ticket.fencingGeneration
  writerTrustDomain := ticket.writerTrustDomain
  identity := ticket.identity
  identityDigest := ticket.identityDigest
  expectedHead := ticket.expectedHead
  expectedTreeManifestDigest := ticket.expectedTreeManifestDigest
  maxTotalBytes := ticket.maxTotalBytes
  issuedAtUnixSeconds := ticket.issuedAtUnixSeconds
  expiresAtUnixSeconds := ticket.expiresAtUnixSeconds

structure CacheSnapshotCommitRequest where
  ticket : CacheWriteTicket
  activeTenantId : String
  activeRepositoryId : String
  activeJobId : String
  activeStepId : String
  activeLeaseId : String
  activeFencingGeneration : Nat
  activeWriterTrustDomain : TrustDomain
  nowUnixSeconds : Nat
  snapshot : TreeSnapshot
  producer : CacheProducer

/-- What a store is opened with, and the digests and lengths of its documents. -/
structure Config where
  limits : CacheLimits
  maxTreeTotalBytes : Nat
  identityDigest : CacheIdentity → ContentDigest
  ticketDigest : TicketSubject → ContentDigest
  manifestDigest : CacheManifest → ContentDigest
  headBytes : CacheHead → Nat
  manifestBytes : CacheManifest → Nat
  ticketBytes : CacheWriteTicket → Nat

/-- What the file system and the content store answer at one step. -/
structure Environment where
  fault : Except CacheError Unit
  /-- The comparison of a tree summary with the tree in the content store. -/
  inspectTree : TreeSnapshot → Except CacheError Unit
  /-- The same with every file of the tree read and verified. -/
  verifyTreeContent : TreeSnapshot → Except CacheError Unit
  /-- The materialization of a tree at the destination of a restore. -/
  materializeTree : TreeSnapshot → Except CacheError Unit

structure CacheStore where
  heads : BTreeMap ContentDigest (BTreeMap Nat CacheHead)
  tickets : BTreeMap ContentDigest CacheWriteTicket
  manifests : BTreeMap ContentDigest CacheManifest

/-! ### Checks -/

def validateFence (fencingGeneration : Nat) : Except CacheError Unit :=
  rejectIf (fencingGeneration = 0) (.staleFence 1 0)

def requireFreshFence (attempted : Nat) (current : Option CacheHead) : Except CacheError Unit :=
  match current with
  | some current => rejectIf (attempted < current.fencingGeneration)
      (.staleFence current.fencingGeneration attempted)
  | none => .ok ()

def requireExpectedHead (expected current : Option CacheHead) : Except CacheError Unit :=
  rejectIf (expected ≠ current) (.headConflict current)

def nextGeneration (current : Option CacheHead) : Except CacheError Nat :=
  match current with
  | some head => do
    rejectIf (u64Bound ≤ head.generation + 1) .generationOverflow
    return head.generation + 1
  | none => return 1

def validateHead (head : CacheHead) (expectedIdentity : ContentDigest) (expectedGeneration : Nat) :
    Except CacheError Unit :=
  rejectIf (head.version ≠ cacheHeadVersion ∨ head.identityDigest ≠ expectedIdentity
      ∨ head.generation ≠ expectedGeneration ∨ head.generation = 0 ∨ head.fencingGeneration = 0)
    (.corruptHead "cache head fields do not match its immutable path")

namespace CacheStore

variable (o : Config) (env : Environment) (s : CacheStore)

def digest (identity : CacheIdentity) : Except CacheError ContentDigest := do
  identity.validate o.limits
  return o.identityDigest identity

/-- The generation files of an identity. -/
def headsOf (identityDigest : ContentDigest) : BTreeMap Nat CacheHead := s.heads[identityDigest]?.getD ∅

/-- The generation file with the greatest number. -/
def latest (entries : List (Nat × CacheHead)) : Option (Nat × CacheHead) :=
  entries.foldl (fun latest entry => if latest.all fun current => current.1 < entry.1 then some entry else latest)
    none

def readHeadFile (identityDigest : ContentDigest) (generation : Nat) (head : CacheHead) :
    Except CacheError CacheHead := do
  rejectIf (o.limits.maxHeadBytes < o.headBytes head)
    (.metadataLimit "cache head" o.limits.maxHeadBytes (o.headBytes head))
  validateHead head identityDigest generation
  return head

def readHead (identityDigest : ContentDigest) : Except CacheError (Option CacheHead) := do
  env.fault
  let directory := s.headsOf identityDigest
  rejectIf (o.limits.maxHeadRecords < directory.size) (.corruptHead "cache head record limit exceeded")
  match latest directory.toList with
  | none => return none
  | some (generation, head) => return some (← readHeadFile o identityDigest generation head)

def readHeadGeneration (identityDigest : ContentDigest) (generation : Nat) :
    Except CacheError (Option CacheHead) := do
  env.fault
  match (s.headsOf identityDigest)[generation]? with
  | none => return none
  | some head => return some (← readHeadFile o identityDigest generation head)

def validateManifest (manifest : CacheManifest) : Except CacheError Unit := do
  rejectIf (manifest.version ≠ cacheManifestVersion)
    (.invalidManifest (s!"unsupported cache manifest version {manifest.version}"))
  let identityDigest ← digest o manifest.identity
  rejectIf (identityDigest ≠ manifest.identityDigest) (.invalidManifest "cache identity digest mismatch")
  rejectIf (manifest.generation = 0 ∨ manifest.fencingGeneration = 0)
    (.invalidManifest "generation and fencing generation must be positive")
  validateProducer o.limits manifest.producer
  forEach manifest.promotion.toList fun promotion => validatePromotionEvidence o.limits promotion.evidence

def loadEntry (expectedIdentity : CacheIdentity) (head : CacheHead) : Except CacheError CacheEntry := do
  env.fault
  let manifest ← okOr s.manifests[head.manifestDigest]? (.environment true)
  validateManifest o manifest
  rejectIf (manifest.identity ≠ expectedIdentity ∨ manifest.identityDigest ≠ head.identityDigest
      ∨ manifest.generation ≠ head.generation ∨ manifest.fencingGeneration ≠ head.fencingGeneration
      ∨ manifest.claimTicketId ≠ head.claimTicketId)
    (.invalidManifest "cache head and immutable manifest do not identify the same generation")
  env.inspectTree manifest.tree
  return ⟨head, manifest⟩

def inspect (identity : CacheIdentity) : Except CacheError (Option CacheEntry) := do
  let identityDigest ← digest o identity
  match ← s.readHead o env identityDigest with
  | none => return none
  | some head => return some (← s.loadEntry o env identity head)

/-! ### Tickets -/

def validateTicketRequest (request : CacheWriteTicketRequest) : Except CacheError Unit := do
  forEach [("ticket.tenant_id", request.tenantId), ("ticket.repository_id", request.repositoryId),
    ("ticket.job_id", request.jobId), ("ticket.step_id", request.stepId),
    ("ticket.lease_id", request.leaseId)] fun p => validateIdentifier o.limits p.1 p.2
  request.identity.validate o.limits
  request.writerTrustDomain.validate o.limits
  let allowed := match request.operation with
    | .commit => request.writerTrustDomain.canWriteTo request.identity.trustDomain
    | .restore => request.writerTrustDomain.canReadFrom request.identity.trustDomain
  rejectIf (request.tenantId ≠ request.identity.tenantId ∨ request.repositoryId ≠ request.identity.repositoryId
      ∨ allowed = false)
    (.invalidTicket "ticket scope, writer trust, and cache identity do not match")
  validateFence request.fencingGeneration
  rejectIf (request.jobAttempt = 0) (.invalidTicket "ticket job attempt must be one-based")
  rejectIf (request.maxTotalBytes = 0 ∨ o.maxTreeTotalBytes < request.maxTotalBytes)
    (.invalidTicket "ticket byte bound is zero or exceeds the CAS tree limit")
  rejectIf (request.expiresAtUnixSeconds ≤ request.issuedAtUnixSeconds
      ∨ o.limits.maxTicketLifetimeSeconds < request.expiresAtUnixSeconds - request.issuedAtUnixSeconds)
    (.invalidTicket "ticket expiry is invalid or exceeds its maximum lifetime")
  let identityDigest ← digest o request.identity
  forEach request.expectedHead.toList fun expected => validateHead expected identityDigest expected.generation

def validatePresentedTicket (ticket : CacheWriteTicket) : Except CacheError Unit := do
  rejectIf (ticket.ticketVersion ≠ cacheTicketVersion)
    (.invalidTicket "ticket identity or version is invalid")
  let identityDigest ← digest o ticket.identity
  rejectIf (identityDigest ≠ ticket.identityDigest ∨ o.ticketDigest ticket.subject ≠ ticket.ticketId)
    (.invalidTicket "ticket identity or version is invalid")
  validateTicketRequest o ticket.toCacheWriteTicketRequest
  env.fault
  let stored ← okOr s.tickets[ticket.ticketId]? (.environment false)
  rejectIf (stored ≠ ticket) (.invalidTicket "presented ticket does not match immutable server state")

def ticketOf (request : CacheWriteTicketRequest) (identityDigest : ContentDigest)
    (restoreEntry : Option CacheEntry) (nonce : ContentDigest) : CacheWriteTicket :=
  let bound : CacheWriteTicketRequest := { request with
    expectedHead := (restoreEntry.map (·.head)).or request.expectedHead
    expectedTreeManifestDigest :=
      (restoreEntry.map (·.manifest.tree.manifestDigest)).or request.expectedTreeManifestDigest }
  let ticket : CacheWriteTicket :=
    { bound with ticketVersion := cacheTicketVersion, ticketId := ⟨0⟩, nonce, identityDigest }
  { ticket with ticketId := o.ticketDigest ticket.subject }

/-- The attempts to store a ticket under an id that is not taken yet. -/
def allocateTicket (ticket : ContentDigest → CacheWriteTicket) :
    List ContentDigest → Except CacheError (CacheWriteTicket × CacheStore)
  | [] => .error (.invalidConfiguration "could not allocate a unique cache ticket")
  | nonce :: nonces =>
    if s.tickets.contains (ticket nonce).ticketId then allocateTicket ticket nonces
    else do
      rejectIf (o.limits.maxTicketBytes < o.ticketBytes (ticket nonce))
        (.metadataLimit "cache ticket" o.limits.maxTicketBytes (o.ticketBytes (ticket nonce)))
      return (ticket nonce, { s with tickets := s.tickets.insert (ticket nonce).ticketId (ticket nonce) })

/-- `issue_write_ticket`; `nonces` are the digests of the random bytes it draws, at most 32 of them. -/
def issueWriteTicket (request : CacheWriteTicketRequest) (nonces : List ContentDigest) :
    Except CacheError (CacheWriteTicket × CacheStore) := do
  validateTicketRequest o request
  let identityDigest ← digest o request.identity
  let current ← s.readHead o env identityDigest
  match request.operation with
  | .commit => do
    requireExpectedHead request.expectedHead current
    requireFreshFence request.fencingGeneration current
    s.allocateTicket o (ticketOf o request identityDigest none) (nonces.take 32)
  | .restore => do
    rejectIf (request.expectedHead.isSome ∨ request.expectedTreeManifestDigest.isSome)
      (.invalidTicket "restore ticket callers cannot select cache content")
    let restoreEntry ← mapSome (s.loadEntry o env request.identity) current
    s.allocateTicket o (ticketOf o request identityDigest restoreEntry) (nonces.take 32)

/-- The generation a ticket has published, if it has. -/
def claimedCacheEntry (ticket : CacheWriteTicket) : Except CacheError (Option CacheEntry) := do
  s.validatePresentedTicket o env ticket
  let generation ← nextGeneration ticket.expectedHead
  match ← s.readHeadGeneration o env ticket.identityDigest generation with
  | none => return none
  | some head =>
    if head.claimTicketId ≠ some ticket.ticketId then return none
    else do
      let entry ← s.loadEntry o env ticket.identity head
      rejectIf (entry.manifest.claimTicketId ≠ some ticket.ticketId ∨ entry.manifest.generation ≠ generation
          ∨ entry.manifest.fencingGeneration ≠ ticket.fencingGeneration
          ∨ entry.manifest.producer.jobId ≠ ticket.jobId ∨ entry.manifest.producer.stepId ≠ ticket.stepId
          ∨ entry.manifest.producer.leaseId ≠ ticket.leaseId
          ∨ entry.manifest.producer.capsuleDigest ≠ ticket.producerCapsuleDigest
          ∨ ticket.maxTotalBytes < entry.manifest.tree.totalFileBytes
          ∨ ticket.expectedTreeManifestDigest.any (· ≠ entry.manifest.tree.manifestDigest))
        (.invalidTicketClaim "claimed generation does not match the immutable ticket subject")
      env.verifyTreeContent entry.manifest.tree
      return some entry

/-! ### The steps of a commit or a promotion -/

end CacheStore

inductive Request
  | commitTicketedSnapshot (request : CacheSnapshotCommitRequest)
  | commitTree (writer : TrustDomain) (identity : CacheIdentity) (tree : TreeSnapshot)
      (expectedHead : Option CacheHead) (fencingGeneration : Nat) (producer : CacheProducer)
  | promote (sourceIdentity targetIdentity : CacheIdentity) (evidence : PromotionEvidence)
      (expectedTargetHead : Option CacheHead) (fencingGeneration : Nat)

/-- What a call is going to publish, before it has read the head. -/
structure Draft where
  identity : CacheIdentity
  identityDigest : ContentDigest
  expectedHead : Option CacheHead
  fencingGeneration : Nat
  tree : TreeSnapshot
  producer : CacheProducer
  claimTicketId : Option ContentDigest
  promotion : Option PromotionRecord

def Draft.manifest (draft : Draft) (generation : Nat) : CacheManifest where
  version := cacheManifestVersion
  identity := draft.identity
  identityDigest := draft.identityDigest
  generation := generation
  fencingGeneration := draft.fencingGeneration
  tree := draft.tree
  producer := draft.producer
  claimTicketId := draft.claimTicketId
  promotion := draft.promotion

def Draft.head (draft : Draft) (generation : Nat) (manifestDigest : ContentDigest) : CacheHead where
  version := cacheHeadVersion
  identityDigest := draft.identityDigest
  generation := generation
  fencingGeneration := draft.fencingGeneration
  manifestDigest := manifestDigest
  claimTicketId := draft.claimTicketId

namespace CacheStore

variable (o : Config) (env : Environment) (s : CacheStore)

/-- The checks of `prepare_commit` before it reads the head. -/
def draftCommit (writer : TrustDomain) (identity : CacheIdentity) (tree : TreeSnapshot)
    (expectedHead : Option CacheHead) (fencingGeneration : Nat) (producer : CacheProducer)
    (claimTicketId : Option ContentDigest) : Except CacheError Draft := do
  identity.validate o.limits
  rejectIf (writer.canWriteTo identity.trustDomain = false) .unauthorizedWrite
  validateFence fencingGeneration
  validateProducer o.limits producer
  let identityDigest ← digest o identity
  return { identity, identityDigest, expectedHead, fencingGeneration, tree, producer, claimTicketId
           promotion := none }

/-- The checks of `commit_ticketed_snapshot` on the ticket and on the active lease. -/
def checkTicket (request : CacheSnapshotCommitRequest) : Except CacheError Unit := do
  let ticket := request.ticket
  s.validatePresentedTicket o env ticket
  rejectIf (ticket.operation ≠ .commit) .ticketScopeMismatch
  let claimed ← s.claimedCacheEntry o env ticket
  rejectIf (claimed.isSome) .ticketConsumed
  rejectIf (request.nowUnixSeconds < ticket.issuedAtUnixSeconds) .ticketNotYetValid
  rejectIf (ticket.expiresAtUnixSeconds ≤ request.nowUnixSeconds) .ticketExpired
  rejectIf (request.activeTenantId ≠ ticket.tenantId ∨ request.activeRepositoryId ≠ ticket.repositoryId
      ∨ request.activeJobId ≠ ticket.jobId ∨ request.activeStepId ≠ ticket.stepId
      ∨ request.activeWriterTrustDomain ≠ ticket.writerTrustDomain) .ticketScopeMismatch
  rejectIf (request.activeLeaseId ≠ ticket.leaseId) .leaseMismatch
  rejectIf (request.activeFencingGeneration ≠ ticket.fencingGeneration)
    (.staleFence request.activeFencingGeneration ticket.fencingGeneration)
  rejectIf (request.producer.jobId ≠ ticket.jobId ∨ request.producer.stepId ≠ ticket.stepId
      ∨ request.producer.leaseId ≠ ticket.leaseId
      ∨ request.producer.capsuleDigest ≠ ticket.producerCapsuleDigest) .ticketScopeMismatch
  rejectIf (ticket.maxTotalBytes < request.snapshot.totalFileBytes)
    (.cacheContentTooLarge ticket.maxTotalBytes request.snapshot.totalFileBytes)
  rejectIf (ticket.expectedTreeManifestDigest.any (· ≠ request.snapshot.manifestDigest)) .ticketContentMismatch

/-- The part of `promote` before it reads the head of the target. -/
def draftPromotion (sourceIdentity targetIdentity : CacheIdentity) (evidence : PromotionEvidence)
    (expectedTargetHead : Option CacheHead) (fencingGeneration : Nat) : Except CacheError Draft := do
  sourceIdentity.validate o.limits
  targetIdentity.validate o.limits
  validateFence fencingGeneration
  validatePromotionEvidence o.limits evidence
  rejectIf (sourceIdentity.sameContentKeyExceptTrust targetIdentity = false)
    (.invalidPromotion "promotion may change only the trust domain")
  rejectIf (sourceIdentity.trustDomain.canPromoteTo targetIdentity.trustDomain = false)
    (.invalidPromotion "trust-domain promotion direction or scope is not allowed")
  let inspected ← s.inspect o env sourceIdentity
  let source ← okOr inspected .sourceNotFound
  env.verifyTreeContent source.manifest.tree
  let targetDigest ← digest o targetIdentity
  return { identity := targetIdentity, identityDigest := targetDigest, expectedHead := expectedTargetHead
           fencingGeneration, tree := source.manifest.tree, producer := source.manifest.producer
           claimTicketId := none, promotion := some ⟨source.head.manifestDigest, evidence⟩ }

/-- Everything a call does before it reads the head. -/
def begin : Request → Except CacheError Draft
  | .commitTicketedSnapshot request => do
    s.checkTicket o env request
    draftCommit o request.ticket.writerTrustDomain request.ticket.identity request.snapshot
      request.ticket.expectedHead request.ticket.fencingGeneration request.producer
      (some request.ticket.ticketId)
  | .commitTree writer identity tree expectedHead fencingGeneration producer =>
    draftCommit o writer identity tree expectedHead fencingGeneration producer none
  | .promote sourceIdentity targetIdentity evidence expectedTargetHead fencingGeneration =>
    s.draftPromotion o env sourceIdentity targetIdentity evidence expectedTargetHead fencingGeneration

/-- Read the head a call builds on: the head, and the number of the next generation. -/
def readHeadFor (draft : Draft) : Except CacheError (Option CacheHead × Nat) := do
  let current ← s.readHead o env draft.identityDigest
  requireExpectedHead draft.expectedHead current
  requireFreshFence draft.fencingGeneration current
  let generation ← nextGeneration current
  return (current, generation)

/-- Put the manifest of a draft into the content store. The tree of a commit is verified first; that of a
promotion was verified when its source was read. -/
def storeManifest (draft : Draft) (generation : Nat) : Except CacheError (CacheEntry × CacheStore) := do
  if draft.promotion.isNone then env.verifyTreeContent draft.tree
  let manifest := draft.manifest generation
  validateManifest o manifest
  rejectIf (o.limits.maxManifestBytes < o.manifestBytes manifest)
    (.metadataLimit "cache manifest" o.limits.maxManifestBytes (o.manifestBytes manifest))
  env.fault
  let manifestDigest := o.manifestDigest manifest
  return (⟨draft.head generation manifestDigest, manifest⟩,
    { s with manifests := s.manifests.insert manifestDigest manifest })

/-- The store with one more generation file. -/
def addHead (head : CacheHead) : CacheStore :=
  let directory := (s.headsOf head.identityDigest).insert head.generation head
  { s with heads := s.heads.insert head.identityDigest directory }

/-- The outcome of the exclusive creation of a generation file. -/
inductive Append
  | created (store : CacheStore)
  | refused (error : CacheError)

def appendHead (head : CacheHead) : Append :=
  match (do
    validateHead head head.identityDigest head.generation
    rejectIf (o.limits.maxHeadBytes < o.headBytes head)
      (.metadataLimit "cache head" o.limits.maxHeadBytes (o.headBytes head))
    env.fault : Except CacheError Unit) with
  | .error error => .refused error
  | .ok _ =>
    if (s.headsOf head.identityDigest).contains head.generation then
      match s.readHead o env head.identityDigest with
      | .error error => .refused error
      | .ok current => .refused (.headConflict current)
    else
      .created (s.addHead head)

/-- The error a call returns when its generation was not created: for a ticket that has published after all,
that the ticket is consumed. -/
def refusal (request : Request) (error : CacheError) : CacheError :=
  match request, error with
  | .commitTicketedSnapshot request, .headConflict current =>
    match s.claimedCacheEntry o env request.ticket with
    | .error error => error
    | .ok claimed => if claimed.isSome then .ticketConsumed else .headConflict current
  | _, _ => error

/-! ### Restores -/

inductive RestoreOutcome
  | hit (entry : CacheEntry)
  | notFound
  | corrupt

/-- A failed read is a miss if what is stored is corrupt. -/
def missOr {α : Type} (x : Except CacheError α) (f : α → Except CacheError RestoreOutcome) :
    Except CacheError RestoreOutcome :=
  match x with
  | .ok a => f a
  | .error error => if error.isStoredCorruption then .ok .corrupt else .error error

def restore (reader : TrustDomain) (identity : CacheIdentity) : Except CacheError RestoreOutcome := do
  identity.validate o.limits
  rejectIf (reader.canReadFrom identity.trustDomain = false) .unauthorizedRead
  let identityDigest ← digest o identity
  missOr (s.readHead o env identityDigest) fun
    | none => .ok .notFound
    | some head =>
      missOr (s.loadEntry o env identity head) fun entry =>
        missOr (env.verifyTreeContent entry.manifest.tree) fun _ =>
          missOr (env.materializeTree entry.manifest.tree) fun _ => .ok (.hit entry)

end CacheStore

end Runtrue.Cache
