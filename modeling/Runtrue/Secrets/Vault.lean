import Runtrue.Base.Run
import Runtrue.Secrets.Envelope

/-!
# The secret vault

The operations of `vault/store.rs` over three maps: the secrets with their encrypted versions, the active fencing
generation of every execution lease, and the release leases. An operation that can change the vault before it fails
returns its result and the vault after it; the others return the new vault with their result. The vault is written
to a snapshot and loaded from it; leases and fences are not part of the snapshot.
-/

namespace Runtrue.Secrets

open Fallible

def vaultSnapshotVersion : U32 := 1

inductive SecretStatus
  | active | tombstoned
deriving DecidableEq

inductive LeaseState
  | issued | consumed | revoked | expired
deriving DecidableEq

structure SecretMetadata where
  identity : SecretIdentity
  status : SecretStatus
  currentVersion : U64

structure SecretRecord where
  status : SecretStatus
  versions : BTreeMap U64 EncryptedSecretVersion

structure SecretLeaseRequest where
  identity : SecretIdentity
  version : Option U64
  executionLeaseId : String
  fencingGeneration : U64
  stepId : String
  purpose : String
  expiresAtUnixMs : U64

structure SecretLeaseMetadata where
  id : String
  identity : SecretIdentity
  secretVersion : U64
  executionLeaseId : String
  fencingGeneration : U64
  stepId : String
  purpose : String
  expiresAtUnixMs : U64
  state : LeaseState

structure SecretVault where
  kekId : String
  masterKey : Key
  secrets : BTreeMap SecretIdentity SecretRecord
  activeFences : BTreeMap String U64
  leases : BTreeMap String SecretLeaseMetadata

structure SecretSnapshotRecord where
  identity : SecretIdentity
  status : SecretStatus
  versions : List EncryptedSecretVersion

structure SecretVaultSnapshot where
  snapshotVersion : U32
  kekId : String
  secrets : List SecretSnapshotRecord

structure LeasePresentation where
  leaseId : String
  executionLeaseId : String
  fencingGeneration : U64
  stepId : String
  purpose : String

/-! ### Records -/

def currentVersion (record : SecretRecord) : Except SecretsError U64 :=
  okOr record.versions.keys.getLast? .missingVersions

def metadata (identity : SecretIdentity) (record : SecretRecord) : Except SecretsError SecretMetadata := do
  let version ← currentVersion record
  return { identity, status := record.status, currentVersion := version }

def requireActive (identity : SecretIdentity) (status : SecretStatus) : Except SecretsError Unit :=
  rejectIf (status = .tombstoned) (.secretTombstoned identity)

def requireBinding (field expected actual : String) : Except SecretsError Unit :=
  rejectIf (expected ≠ actual) (.leaseBindingMismatch field)

def hexDigit (n : UInt8) : Char := if n < 10 then Char.ofNat (48 + n.toNat) else Char.ofNat (87 + n.toNat)

def hexEncode (bytes : List UInt8) : String :=
  String.ofList (bytes.flatMap fun byte => [hexDigit (byte / 16), hexDigit (byte % 16)])

/-- The issued leases that meet `p`, moved to another state. -/
def closeLeases (leases : BTreeMap String SecretLeaseMetadata) (state : LeaseState)
    (p : SecretLeaseMetadata → Bool) : BTreeMap String SecretLeaseMetadata :=
  leases.map fun _ lease => if lease.state = .issued ∧ p lease then { lease with state } else lease

namespace SecretVault

def new (kekId : String) (masterKey : Key) : Except SecretsError SecretVault := do
  validateComponent "kek_id" kekId
  return { kekId, masterKey, secrets := ∅, activeFences := ∅, leases := ∅ }

section
variable (aead : Aead)

/-! ### Secrets -/

def createSecret (s : SecretVault) (identity : SecretIdentity) (plaintext : List UInt8) (draws : Draws) :
    Except SecretsError (SecretMetadata × SecretVault) := do
  identity.validate
  rejectIf (s.secrets.contains identity) (.secretAlreadyExists identity)
  let encrypted ← EncryptedSecretVersion.encrypt aead identity 1 plaintext s.kekId s.masterKey draws
  let record : SecretRecord := ⟨.active, (∅ : BTreeMap U64 EncryptedSecretVersion).insert 1 encrypted⟩
  return (⟨identity, .active, 1⟩, { s with secrets := s.secrets.insert identity record })

/-- The record of an identity, and its next encrypted version. -/
def nextVersion (s : SecretVault) (identity : SecretIdentity) (plaintext : List UInt8) (draws : Draws) :
    Except SecretsError (SecretRecord × U64 × EncryptedSecretVersion) := do
  identity.validate
  let record ← okOr s.secrets[identity]? (.secretNotFound identity)
  requireActive identity record.status
  let current ← currentVersion record
  let version ← okOr (Fixed.checkedAdd current 1) .versionOverflow
  let encrypted ← EncryptedSecretVersion.encrypt aead identity version plaintext s.kekId s.masterKey draws
  return (record, version, encrypted)

def addVersion (s : SecretVault) (identity : SecretIdentity) (plaintext : List UInt8) (draws : Draws) :
    Except SecretsError SecretMetadata × SecretVault :=
  match s.nextVersion aead identity plaintext draws with
  | .error error => (.error error, s)
  | .ok (record, version, encrypted) =>
    let next : SecretRecord := { record with versions := record.versions.insert version encrypted }
    -- The version is stored before a conflict is reported.
    (if record.versions.contains version then .error (.immutableVersionConflict version) else metadata identity next,
      { s with secrets := s.secrets.insert identity next })

def revealForAdministration (s : SecretVault) (identity : SecretIdentity) (version : Option U64) :
    Except SecretsError (List UInt8) := do
  identity.validate
  let record ← okOr s.secrets[identity]? (.secretNotFound identity)
  requireActive identity record.status
  let current ← currentVersion record
  let version := version.getD current
  let encrypted ← okOr record.versions[version]? (.secretVersionNotFound identity version)
  encrypted.decrypt aead s.masterKey

def tombstone (s : SecretVault) (identity : SecretIdentity) : Except SecretsError SecretMetadata × SecretVault :=
  match s.secrets[identity]? with
  | none => (.error (.secretNotFound identity), s)
  | some record =>
    let next : SecretRecord := { record with status := .tombstoned }
    (metadata identity next,
      { s with
        secrets := s.secrets.insert identity next
        leases := closeLeases s.leases .revoked fun lease => lease.identity = identity })

/-! ### Key rotation -/

/-- Every encrypted version, with its identity and its number. -/
def allVersions (secrets : BTreeMap SecretIdentity SecretRecord) :
    List (SecretIdentity × U64 × EncryptedSecretVersion) :=
  secrets.toList.flatMap fun entry => entry.2.versions.toList.map fun version => (entry.1, version)

/-- The rewrapped keys of all versions; `nonces` is what the randomness yields for one after the other. -/
def replacementsFor (s : SecretVault) (newKekId : String) (newMasterKey : Key) (nonces : Nat → Option Nonce) :
    Except SecretsError (List (SecretIdentity × U64 × WrappedDek)) :=
  mapEach (fun entry => do
    rejectIf (entry.1.2.2.wrappedDek.kekId ≠ s.kekId) (.unexpectedKekId s.kekId entry.1.2.2.wrappedDek.kekId)
    let wrapped ← entry.1.2.2.rewrap aead s.masterKey newKekId newMasterKey (nonces entry.2)
    return (entry.1.1, entry.1.2.1, wrapped)) (allVersions s.secrets).zipIdx

/-- The first half of a rotation, which changes nothing. -/
def prepareRotation (s : SecretVault) (newKekId : String) (newMasterKey : Key) (nonces : Nat → Option Nonce) :
    Except SecretsError (List (SecretIdentity × U64 × WrappedDek)) := do
  validateComponent "kek_id" newKekId
  rejectIf (newKekId = s.kekId) (.kekIdNotAdvanced newKekId)
  s.replacementsFor aead newKekId newMasterKey nonces

end

def replaceDek (secrets : BTreeMap SecretIdentity SecretRecord) (identity : SecretIdentity) (version : U64)
    (wrapped : WrappedDek) : Option (BTreeMap SecretIdentity SecretRecord) := do
  let record ← secrets[identity]?
  let encrypted ← record.versions[version]?
  let versions := record.versions.insert version { encrypted with wrappedDek := wrapped }
  return secrets.insert identity { record with versions }

/-- The keys are replaced one after the other, up to the first version that is not there. -/
def applyReplacements : BTreeMap SecretIdentity SecretRecord → List (SecretIdentity × U64 × WrappedDek) →
    Except SecretsError Unit × BTreeMap SecretIdentity SecretRecord
  | secrets, [] => (.ok (), secrets)
  | secrets, (identity, version, wrapped) :: rest =>
    match replaceDek secrets identity version wrapped with
    | none => (.error (.secretVersionNotFound identity version), secrets)
    | some next => applyReplacements next rest

def rotateKek (aead : Aead) (s : SecretVault) (newKekId : String) (newMasterKey : Key)
    (nonces : Nat → Option Nonce) : Except SecretsError Unit × SecretVault :=
  match s.prepareRotation aead newKekId newMasterKey nonces with
  | .error error => (.error error, s)
  | .ok replacements =>
    let applied := applyReplacements s.secrets replacements
    match applied.1 with
    | .error error => (.error error, { s with secrets := applied.2 })
    | .ok () => (.ok (), { s with kekId := newKekId, masterKey := newMasterKey, secrets := applied.2 })

/-! ### Fences and leases -/

def setActiveFencingGeneration (s : SecretVault) (executionLeaseId : String) (generation : U64) :
    Except SecretsError SecretVault := do
  validateComponent "execution_lease_id" executionLeaseId
  rejectIf (generation = 0) .invalidFencingGeneration
  let raised : SecretVault :=
    { s with
      activeFences := s.activeFences.insert executionLeaseId generation
      leases := closeLeases s.leases .revoked fun lease =>
        lease.executionLeaseId = executionLeaseId ∧ lease.fencingGeneration < generation }
  match s.activeFences[executionLeaseId]? with
  | none => return raised
  | some current =>
    rejectIf (generation < current) (.fencingGenerationRegression current generation)
    return if generation = current then s else raised

/-- The first of the drawn identifiers that no lease has. -/
def uniqueLeaseId (leases : BTreeMap String SecretLeaseMetadata) :
    List (Option (List UInt8)) → Except SecretsError String
  | [] => .error .leaseIdCollision
  | none :: _ => .error .randomnessUnavailable
  | some bytes :: rest =>
    if leases.contains (hexEncode bytes) then uniqueLeaseId leases rest else .ok (hexEncode bytes)

def issueLease (s : SecretVault) (request : SecretLeaseRequest) (now : U64) (candidates : List (Option (List UInt8))) :
    Except SecretsError (SecretLeaseMetadata × SecretVault) := do
  request.identity.validate
  validateComponent "execution_lease_id" request.executionLeaseId
  validateComponent "step_id" request.stepId
  validateComponent "purpose" request.purpose
  rejectIf (request.fencingGeneration = 0) .invalidFencingGeneration
  rejectIf (request.expiresAtUnixMs ≤ now) .invalidLeaseExpiry
  let active ← okOr s.activeFences[request.executionLeaseId]?
    (.fencingGenerationNotRegistered request.executionLeaseId)
  rejectIf (active ≠ request.fencingGeneration) (.staleFencingGeneration active request.fencingGeneration)
  let record ← okOr s.secrets[request.identity]? (.secretNotFound request.identity)
  requireActive request.identity record.status
  let current ← currentVersion record
  let secretVersion := request.version.getD current
  rejectIf (record.versions.contains secretVersion = false) (.secretVersionNotFound request.identity secretVersion)
  let id ← uniqueLeaseId s.leases (candidates.take 4)
  let lease : SecretLeaseMetadata :=
    { id, identity := request.identity, secretVersion, executionLeaseId := request.executionLeaseId
      fencingGeneration := request.fencingGeneration, stepId := request.stepId, purpose := request.purpose
      expiresAtUnixMs := request.expiresAtUnixMs, state := .issued }
  return (lease, { s with leases := s.leases.insert id lease })

/-- The lease that a caller presents, in the current generation. -/
def presentedLease (s : SecretVault) (presented : LeasePresentation) : Except SecretsError SecretLeaseMetadata := do
  let lease ← okOr s.leases[presented.leaseId]? (.leaseNotFound presented.leaseId)
  requireBinding "execution_lease_id" lease.executionLeaseId presented.executionLeaseId
  requireBinding "step_id" lease.stepId presented.stepId
  requireBinding "purpose" lease.purpose presented.purpose
  let active ← okOr s.activeFences[presented.executionLeaseId]?
    (.fencingGenerationNotRegistered presented.executionLeaseId)
  rejectIf (presented.fencingGeneration ≠ active) (.staleFencingGeneration active presented.fencingGeneration)
  rejectIf (lease.fencingGeneration ≠ active) (.staleFencingGeneration active lease.fencingGeneration)
  return lease

/-- The version that a lease releases, while it may. -/
def leasedVersion (s : SecretVault) (leaseId : String) (lease : SecretLeaseMetadata) :
    Except SecretsError EncryptedSecretVersion := do
  match lease.state with
  | .issued => .ok ()
  | .consumed => .error (.leaseAlreadyConsumed leaseId)
  | .revoked => .error (.leaseRevoked leaseId)
  | .expired => .error (.leaseExpired leaseId)
  let record ← okOr s.secrets[lease.identity]? (.secretNotFound lease.identity)
  requireActive lease.identity record.status
  okOr record.versions[lease.secretVersion]? (.secretVersionNotFound lease.identity lease.secretVersion)

def setLeaseState (s : SecretVault) (leaseId : String) (lease : SecretLeaseMetadata) (state : LeaseState) :
    SecretVault :=
  { s with leases := s.leases.insert leaseId { lease with state } }

def redeemLease (aead : Aead) (s : SecretVault) (presented : LeasePresentation) (now : U64) :
    Except SecretsError (List UInt8) × SecretVault :=
  match s.presentedLease presented with
  | .error error => (.error error, s)
  | .ok lease =>
    if lease.expiresAtUnixMs ≤ now then
      (.error (.leaseExpired presented.leaseId),
        if lease.state = .issued then s.setLeaseState presented.leaseId lease .expired else s)
    else
      match s.leasedVersion presented.leaseId lease with
      | .error error => (.error error, s)
      | .ok encrypted =>
        match encrypted.decrypt aead s.masterKey with
        | .error error => (.error error, s.setLeaseState presented.leaseId lease .revoked)
        | .ok plaintext => (.ok plaintext, s.setLeaseState presented.leaseId lease .consumed)

def revokeLease (s : SecretVault) (leaseId : String) : Except SecretsError SecretVault := do
  let lease ← okOr s.leases[leaseId]? (.leaseNotFound leaseId)
  match lease.state with
  | .issued => return s.setLeaseState leaseId lease .revoked
  | .revoked => return s
  | .consumed => .error (.leaseAlreadyConsumed leaseId)
  | .expired => .error (.leaseExpired leaseId)

/-- The number of leases that expire, and the vault after it. -/
def expireLeases (s : SecretVault) (now : U64) : Nat × SecretVault :=
  let isDue := fun lease : SecretLeaseMetadata => decide (lease.expiresAtUnixMs ≤ now)
  ((s.leases.toList.filter fun entry => entry.2.state = .issued ∧ isDue entry.2).length,
    { s with leases := closeLeases s.leases .expired isDue })

/-! ### Snapshots -/

def snapshot (s : SecretVault) : SecretVaultSnapshot where
  snapshotVersion := vaultSnapshotVersion
  kekId := s.kekId
  secrets := s.secrets.toList.map fun entry => ⟨entry.1, entry.2.status, entry.2.versions.toList.map Prod.snd⟩

def loadVersions (kekId : String) (identity : SecretIdentity) (versions : List EncryptedSecretVersion) :
    Except SecretsError (BTreeMap U64 EncryptedSecretVersion) :=
  foldEach (fun (loaded : BTreeMap U64 EncryptedSecretVersion) (encrypted : EncryptedSecretVersion) => do
    encrypted.validateStorageShape
    rejectIf (encrypted.identity ≠ identity) .snapshotIdentityMismatch
    rejectIf (encrypted.wrappedDek.kekId ≠ kekId) (.unexpectedKekId kekId encrypted.wrappedDek.kekId)
    rejectIf (loaded.contains encrypted.version) (.immutableVersionConflict encrypted.version)
    return loaded.insert encrypted.version encrypted) ∅ versions

def checkContiguous (versions : BTreeMap U64 EncryptedSecretVersion) : Except SecretsError Unit :=
  forEach versions.keys.zipIdx fun key =>
    rejectIf (BitVec.ofNat 64 (key.2 + 1) ≠ key.1) .nonContiguousVersions

section
variable (aead : Aead)

def loadRecord (kekId : String) (masterKey : Key) (persisted : SecretSnapshotRecord) :
    Except SecretsError SecretRecord := do
  persisted.identity.validate
  rejectIf (persisted.versions.isEmpty) .missingVersions
  let versions ← loadVersions kekId persisted.identity persisted.versions
  checkContiguous versions
  forEach (versions.toList.map Prod.snd) fun encrypted => do
    let _ ← encrypted.decrypt aead masterKey
    return ()
  return { status := persisted.status, versions }

def fromSnapshot (snapshot : SecretVaultSnapshot) (masterKey : Key) : Except SecretsError SecretVault := do
  rejectIf (snapshot.snapshotVersion ≠ vaultSnapshotVersion)
    (.unsupportedVaultSnapshotVersion snapshot.snapshotVersion)
  validateComponent "kek_id" snapshot.kekId
  let secrets ← foldEach (fun (secrets : BTreeMap SecretIdentity SecretRecord) (persisted : SecretSnapshotRecord) => do
    let record ← loadRecord aead snapshot.kekId masterKey persisted
    rejectIf (secrets.contains persisted.identity) .duplicateSnapshotIdentity
    return secrets.insert persisted.identity record) ∅ snapshot.secrets
  return { kekId := snapshot.kekId, masterKey, secrets, activeFences := ∅, leases := ∅ }

/-! ### Runs -/

inductive Operation
  | createSecret (identity : SecretIdentity) (plaintext : List UInt8) (draws : Draws)
  | addVersion (identity : SecretIdentity) (plaintext : List UInt8) (draws : Draws)
  | tombstone (identity : SecretIdentity)
  | rotateKek (newKekId : String) (newMasterKey : Key) (nonces : Nat → Option Nonce)
  | setActiveFencingGeneration (executionLeaseId : String) (generation : U64)
  | issueLease (request : SecretLeaseRequest) (now : U64) (candidates : List (Option (List UInt8)))
  | redeemLease (presented : LeasePresentation) (now : U64)
  | revokeLease (leaseId : String)
  | expireLeases (now : U64)
  /-- The vault is written to a snapshot and loaded from it under the current key. -/
  | reload

inductive Reply
  | stored (result : Except SecretsError SecretMetadata)
  | done (result : Except SecretsError Unit)
  | leased (result : Except SecretsError SecretLeaseMetadata)
  | released (result : Except SecretsError (List UInt8))
  | expired (count : Nat)

abbrev Event := Run.Event SecretVault Operation Reply

/-- The result of an operation that leaves the vault alone when it fails. -/
def settle {α : Type} (s : SecretVault) (reply : Except SecretsError α → Reply)
    (x : Except SecretsError (α × SecretVault)) : Reply × SecretVault :=
  match x with
  | .error error => (reply (.error error), s)
  | .ok (a, t) => (reply (.ok a), t)

def step (s : SecretVault) : Operation → Reply × SecretVault
  | .createSecret identity plaintext draws => settle s .stored (s.createSecret aead identity plaintext draws)
  | .addVersion identity plaintext draws =>
    (.stored (s.addVersion aead identity plaintext draws).1, (s.addVersion aead identity plaintext draws).2)
  | .tombstone identity => (.stored (s.tombstone identity).1, (s.tombstone identity).2)
  | .rotateKek newKekId newMasterKey nonces =>
    (.done (s.rotateKek aead newKekId newMasterKey nonces).1, (s.rotateKek aead newKekId newMasterKey nonces).2)
  | .setActiveFencingGeneration executionLeaseId generation =>
    settle s .done ((s.setActiveFencingGeneration executionLeaseId generation).map fun t => ((), t))
  | .issueLease request now candidates => settle s .leased (s.issueLease request now candidates)
  | .redeemLease presented now =>
    (.released (s.redeemLease aead presented now).1, (s.redeemLease aead presented now).2)
  | .revokeLease leaseId => settle s .done ((s.revokeLease leaseId).map fun t => ((), t))
  | .expireLeases now => (.expired (s.expireLeases now).1, (s.expireLeases now).2)
  | .reload => settle s .done ((fromSnapshot aead s.snapshot s.masterKey).map fun t => ((), t))

end

/-! ### What an issued lease is -/

theorem uniqueLeaseId_spec {leases : BTreeMap String SecretLeaseMetadata} {candidates : List (Option (List UInt8))}
    {id : String} (h : uniqueLeaseId leases candidates = .ok id) : leases[id]? = none := by
  induction candidates with
  | nil => cases h
  | cons candidate rest ih =>
    cases candidate with
    | none => cases h
    | some bytes =>
      rw [uniqueLeaseId] at h
      split at h
      · exact ih h
      · rename_i hnew
        cases h
        exact BTreeMap.get_of_not_contains (Bool.not_eq_true _ ▸ hnew)

theorem issueLease_spec {s t : SecretVault} {request : SecretLeaseRequest} {now : U64}
    {candidates : List (Option (List UInt8))} {lease : SecretLeaseMetadata}
    (h : s.issueLease request now candidates = .ok (lease, t)) :
    s.leases[lease.id]? = none ∧ s.activeFences[request.executionLeaseId]? = some request.fencingGeneration ∧
      (∃ record : SecretRecord, s.secrets[request.identity]? = some record ∧ record.status ≠ .tombstoned ∧
        ∃ current, currentVersion record = .ok current ∧ lease.secretVersion = request.version.getD current) ∧
      lease = ⟨lease.id, request.identity, lease.secretVersion, request.executionLeaseId, request.fencingGeneration,
        request.stepId, request.purpose, request.expiresAtUnixMs, .issued⟩ ∧
      t = { s with leases := s.leases.insert lease.id lease } := by
  simp only [issueLease, requireActive, bind_eq_ok, exists_unit, okOr_eq_ok, rejectIf_eq_ok, pure_eq_ok,
    Prod.mk.injEq, ne_eq, not_not, Bool.not_eq_false] at h
  obtain ⟨-, -, -, -, -, -, _, hactive, hgeneration, record, hrecord, hstatus, current, hcurrent, -, _, hid, rfl,
    rfl⟩ := h
  exact ⟨uniqueLeaseId_spec hid, hgeneration ▸ hactive, ⟨record, hrecord, hstatus, current, hcurrent, rfl⟩, rfl, rfl⟩

end SecretVault

end Runtrue.Secrets
