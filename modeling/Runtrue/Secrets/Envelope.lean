import Runtrue.Base.Collect
import Runtrue.Base.Encoding

/-!
# Envelope encryption of secret versions

The encrypted versions of the `secrets` crate (`vault/model.rs`, `vault/crypto.rs`): every version is encrypted
under its own data key, and the data key is wrapped under the master key. The authenticated cipher is a parameter,
and `Aead.Inverts` is what is assumed of it. What the operating system's randomness yields is an argument of an
operation, `none` when it is unavailable. `Seals` says that an encrypted version holds a plaintext under a master
key.
-/

namespace Runtrue.Secrets

open Fallible List Encoding

def nonceBytes : Nat := 24
def keyBytes : Nat := 32
def maxIdentityBytes : Nat := 1024
def maxSecretBytes : Nat := 16 * 1024 * 1024
def encryptionAlgorithm : String := "xchacha20poly1305"

/-- A 256-bit key: a master key or a data key. -/
structure Key where
  bytes : List UInt8
  size : bytes.length = keyBytes

structure Nonce where
  bytes : List UInt8
  size : bytes.length = nonceBytes

structure SecretIdentity where
  tenantId : String
  scope : String
  name : String
deriving DecidableEq

instance : Ord SecretIdentity where
  compare := compareLex (compareOn SecretIdentity.tenantId)
    (compareLex (compareOn SecretIdentity.scope) (compareOn SecretIdentity.name))

instance : Std.TransOrd SecretIdentity :=
  inferInstanceAs (Std.TransCmp (compareLex (compareOn SecretIdentity.tenantId)
    (compareLex (compareOn SecretIdentity.scope) (compareOn SecretIdentity.name))))

instance : Std.LawfulEqOrd SecretIdentity where
  eq_of_compare {a b} h := by
    obtain ⟨htenant, hrest⟩ := compareLex_eq_eq.mp h
    obtain ⟨hscope, hname⟩ := compareLex_eq_eq.mp hrest
    have htenant' : a.tenantId = b.tenantId := Std.LawfulEqOrd.eq_of_compare htenant
    have hscope' : a.scope = b.scope := Std.LawfulEqOrd.eq_of_compare hscope
    have hname' : a.name = b.name := Std.LawfulEqOrd.eq_of_compare hname
    cases a
    cases b
    simp_all

inductive SecretsError
  | unsupportedVaultSnapshotVersion (version : U32)
  | snapshotIdentityMismatch
  | duplicateSnapshotIdentity
  | nonContiguousVersions
  | invalidComponent (field reason : String)
  | secretTooLarge (limit actual : Nat)
  | secretAlreadyExists (identity : SecretIdentity)
  | secretNotFound (identity : SecretIdentity)
  | secretTombstoned (identity : SecretIdentity)
  | secretVersionNotFound (identity : SecretIdentity) (version : U64)
  | invalidVersion
  | versionOverflow
  | immutableVersionConflict (version : U64)
  | missingVersions
  | unsupportedEncryptionAlgorithm (algorithm : String)
  | randomnessUnavailable
  | encryptionFailed
  | authenticationFailed
  | invalidWrappedKeyLength (length : Nat)
  | unexpectedKekId (expected actual : String)
  | kekIdNotAdvanced (kekId : String)
  | invalidFencingGeneration
  | fencingGenerationNotRegistered (executionLeaseId : String)
  | staleFencingGeneration (active provided : U64)
  | fencingGenerationRegression (current proposed : U64)
  | invalidLeaseExpiry
  | leaseIdCollision
  | leaseNotFound (leaseId : String)
  | leaseAlreadyConsumed (leaseId : String)
  | leaseRevoked (leaseId : String)
  | leaseExpired (leaseId : String)
  | leaseBindingMismatch (field : String)

/-! ### Validation -/

def validateComponent (field value : String) : Except SecretsError Unit := do
  rejectIf (value = "") (.invalidComponent field "must not be empty")
  rejectIf (maxIdentityBytes < value.utf8ByteSize) (.invalidComponent field "is too long")
  rejectIf (value.toList.contains '\x00') (.invalidComponent field "must not contain NUL")

def validateVersion (version : U64) : Except SecretsError Unit := rejectIf (version = 0) .invalidVersion

def validatePlaintext (plaintext : List UInt8) : Except SecretsError Unit :=
  rejectIf (maxSecretBytes < plaintext.length) (.secretTooLarge maxSecretBytes plaintext.length)

def SecretIdentity.validate (identity : SecretIdentity) : Except SecretsError Unit := do
  validateComponent "tenant_id" identity.tenantId
  validateComponent "scope" identity.scope
  validateComponent "name" identity.name

/-! ### Associated data -/

/-- What the associated data is for. -/
inductive AadDomain
  | payload | dekWrap
deriving DecidableEq

def AadDomain.text : AadDomain → String
  | .payload => "runtrue.secret.payload.v1\x00"
  | .dekWrap => "runtrue.secret.dek-wrap.v1\x00"

def associatedData (domain : AadDomain) (identity : SecretIdentity) (version : U64) (kekId : Option String) :
    List UInt8 :=
  Text.bytes domain.text
    ++ ([identity.tenantId, identity.scope, identity.name].map Text.bytes).flatMap Encoding.field
    ++ Encoding.u64 version ++ (kekId.toList.map Text.bytes).flatMap Encoding.field

/-- The texts are as long as texts of the source can be. -/
def AadFits (identity : SecretIdentity) (kekId : Option String) : Prop :=
  ∀ text ∈ identity.tenantId :: identity.scope :: identity.name :: kekId.toList, (Text.bytes text).length < 2 ^ 64

theorem AadDomain.text_inj {a b : AadDomain} {r s : List UInt8}
    (h : Text.bytes a.text ++ r = Text.bytes b.text ++ s) : a = b ∧ r = s := by
  have hbyte := congrArg (fun l => l[15]?) h
  cases a <;> cases b
  · exact ⟨rfl, append_cancel_left h⟩
  · exact absurd hbyte (by rw [getElem?_append_left (by decide), getElem?_append_left (by decide)]; decide)
  · exact absurd hbyte (by rw [getElem?_append_left (by decide), getElem?_append_left (by decide)]; decide)
  · exact ⟨rfl, append_cancel_left h⟩

theorem associatedData_inj {domain domain' : AadDomain} {identity identity' : SecretIdentity} {version version' : U64}
    {kekId kekId' : Option String} (hfits : AadFits identity kekId) (hfits' : AadFits identity' kekId')
    (h : associatedData domain identity version kekId = associatedData domain' identity' version' kekId') :
    domain = domain' ∧ identity = identity' ∧ version = version' ∧ kekId = kekId' := by
  have hnames : ∀ {i : SecretIdentity} {k : Option String}, AadFits i k →
      ∀ value ∈ [i.tenantId, i.scope, i.name].map Text.bytes, value.length < 2 ^ 64 := by
    intro i k hk value hmem
    obtain ⟨text, htext, rfl⟩ := mem_map.mp hmem
    refine hk text ?_
    simp only [mem_cons, not_mem_nil, or_false] at htext ⊢
    tauto
  have hkeks : ∀ {i : SecretIdentity} {k : Option String}, AadFits i k →
      ∀ value ∈ k.toList.map Text.bytes, value.length < 2 ^ 64 := by
    intro i k hk _ hmem
    obtain ⟨text, htext, rfl⟩ := mem_map.mp hmem
    refine hk text ?_
    simp only [mem_cons]
    exact .inr (.inr (.inr htext))
  simp only [associatedData, append_assoc] at h
  obtain ⟨hdomain, hrest⟩ := AadDomain.text_inj h
  obtain ⟨hidentity, hrest⟩ := delimited_field.flatMap (hnames hfits) (hnames hfits') rfl hrest
  obtain ⟨hversion, hrest⟩ := delimited_u64 trivial trivial hrest
  have hkek := map_bytes_inj
    (delimited_field.flatMap_inj field_ne_nil (hkeks hfits) (hkeks hfits') hrest)
  have htexts := map_bytes_inj hidentity
  simp only [cons.injEq, and_true] at htexts
  obtain ⟨htenant, hscope, hname⟩ := htexts
  have hkek' : kekId = kekId' := by
    cases kekId <;> cases kekId' <;> simp_all
  refine ⟨hdomain, ?_, hversion, hkek'⟩
  cases identity
  cases identity'
  simp only [SecretIdentity.mk.injEq]
  exact ⟨htenant, hscope, hname⟩

/-! ### Encrypted versions -/

/-- XChaCha20-Poly1305: a key, a nonce, the message and the associated data. -/
structure Aead where
  encrypt : Key → Nonce → List UInt8 → List UInt8 → Option (List UInt8)
  decrypt : Key → Nonce → List UInt8 → List UInt8 → Option (List UInt8)

/-- Decryption inverts encryption under the same key, nonce and associated data. -/
def Aead.Inverts (aead : Aead) : Prop :=
  ∀ {key nonce message aad ciphertext}, aead.encrypt key nonce message aad = some ciphertext →
    aead.decrypt key nonce ciphertext aad = some message

structure EncryptedPayload where
  nonce : Nonce
  ciphertext : List UInt8

structure WrappedDek where
  kekId : String
  nonce : Nonce
  ciphertext : List UInt8

structure EncryptedSecretVersion where
  identity : SecretIdentity
  version : U64
  algorithm : String
  payload : EncryptedPayload
  wrappedDek : WrappedDek

/-- What the randomness yields for the encryption of one version. -/
structure Draws where
  dek : Option Key
  payloadNonce : Option Nonce
  wrapNonce : Option Nonce

section
variable (aead : Aead)

def wrapDek (dek : Key) (identity : SecretIdentity) (version : U64) (kekId : String) (masterKey : Key)
    (random : Option Nonce) : Except SecretsError WrappedDek := do
  let nonce ← okOr random .randomnessUnavailable
  let aad := associatedData .dekWrap identity version (some kekId)
  let ciphertext ← okOr (aead.encrypt masterKey nonce dek.bytes aad) .encryptionFailed
  return { kekId, nonce, ciphertext }

def dekOfPlaintext (bytes : List UInt8) : Except SecretsError Key :=
  if size : bytes.length = keyBytes then .ok ⟨bytes, size⟩ else .error (.invalidWrappedKeyLength bytes.length)

def unwrapDek (wrapped : WrappedDek) (identity : SecretIdentity) (version : U64) (masterKey : Key) :
    Except SecretsError Key := do
  let aad := associatedData .dekWrap identity version (some wrapped.kekId)
  let plaintext ← okOr (aead.decrypt masterKey wrapped.nonce wrapped.ciphertext aad) .authenticationFailed
  dekOfPlaintext plaintext

namespace EncryptedSecretVersion

def encrypt (identity : SecretIdentity) (version : U64) (plaintext : List UInt8) (kekId : String) (masterKey : Key)
    (draws : Draws) : Except SecretsError EncryptedSecretVersion := do
  identity.validate
  validateVersion version
  validatePlaintext plaintext
  validateComponent "kek_id" kekId
  let dek ← okOr draws.dek .randomnessUnavailable
  let payloadNonce ← okOr draws.payloadNonce .randomnessUnavailable
  let payloadAad := associatedData .payload identity version none
  let ciphertext ← okOr (aead.encrypt dek payloadNonce plaintext payloadAad) .encryptionFailed
  let wrappedDek ← wrapDek aead dek identity version kekId masterKey draws.wrapNonce
  return { identity, version, algorithm := encryptionAlgorithm, payload := ⟨payloadNonce, ciphertext⟩, wrappedDek }

def validateStorageShape (encrypted : EncryptedSecretVersion) : Except SecretsError Unit := do
  encrypted.identity.validate
  validateVersion encrypted.version
  validateComponent "kek_id" encrypted.wrappedDek.kekId
  rejectIf (encrypted.algorithm ≠ encryptionAlgorithm) (.unsupportedEncryptionAlgorithm encrypted.algorithm)

def decrypt (encrypted : EncryptedSecretVersion) (masterKey : Key) : Except SecretsError (List UInt8) := do
  encrypted.validateStorageShape
  let dek ← unwrapDek aead encrypted.wrappedDek encrypted.identity encrypted.version masterKey
  let aad := associatedData .payload encrypted.identity encrypted.version none
  let plaintext ← okOr (aead.decrypt dek encrypted.payload.nonce encrypted.payload.ciphertext aad)
    .authenticationFailed
  rejectIf (maxSecretBytes < plaintext.length) (.secretTooLarge maxSecretBytes plaintext.length)
  return plaintext

def rewrap (encrypted : EncryptedSecretVersion) (oldMasterKey : Key) (newKekId : String) (newMasterKey : Key)
    (random : Option Nonce) : Except SecretsError WrappedDek := do
  encrypted.validateStorageShape
  let dek ← unwrapDek aead encrypted.wrappedDek encrypted.identity encrypted.version oldMasterKey
  wrapDek aead dek encrypted.identity encrypted.version newKekId newMasterKey random

end EncryptedSecretVersion

/-- A wrapped data key under a master key. -/
def Wraps (masterKey : Key) (identity : SecretIdentity) (version : U64) (dek : Key) (wrapped : WrappedDek) : Prop :=
  aead.encrypt masterKey wrapped.nonce dek.bytes (associatedData .dekWrap identity version (some wrapped.kekId)) =
    some wrapped.ciphertext

/-- An encrypted version of an identity that holds a plaintext under a master key. -/
structure Seals (masterKey : Key) (kekId : String) (identity : SecretIdentity) (version : U64)
    (plaintext : List UInt8) (encrypted : EncryptedSecretVersion) : Prop where
  ofIdentity : encrypted.identity = identity
  ofVersion : encrypted.version = version
  underKek : encrypted.wrappedDek.kekId = kekId
  shape : encrypted.validateStorageShape = .ok ()
  size : plaintext.length ≤ maxSecretBytes
  sealed : ∃ dek, Wraps aead masterKey identity version dek encrypted.wrappedDek ∧
    aead.encrypt dek encrypted.payload.nonce plaintext (associatedData .payload identity version none) =
      some encrypted.payload.ciphertext

end

variable {aead : Aead} {identity : SecretIdentity} {version : U64} {plaintext : List UInt8} {kekId : String}
  {masterKey : Key} {encrypted : EncryptedSecretVersion}

theorem wrapDek_spec {dek : Key} {random : Option Nonce} {wrapped : WrappedDek}
    (h : wrapDek aead dek identity version kekId masterKey random = .ok wrapped) :
    wrapped.kekId = kekId ∧ Wraps aead masterKey identity version dek wrapped := by
  simp only [wrapDek, bind_eq_ok, okOr_eq_ok, pure_eq_ok] at h
  obtain ⟨_, -, _, hencrypt, rfl⟩ := h
  exact ⟨rfl, hencrypt⟩

theorem unwrapDek_of_wraps (hinverts : aead.Inverts) {dek : Key} {wrapped : WrappedDek}
    (h : Wraps aead masterKey identity version dek wrapped) :
    unwrapDek aead wrapped identity version masterKey = .ok dek := by
  have hdek : dekOfPlaintext dek.bytes = .ok dek := dif_pos dek.size
  simp only [unwrapDek, hinverts h, okOr]
  exact hdek

namespace EncryptedSecretVersion

theorem encrypt_spec {draws : Draws}
    (h : EncryptedSecretVersion.encrypt aead identity version plaintext kekId masterKey draws = .ok encrypted) :
    Seals aead masterKey kekId identity version plaintext encrypted := by
  simp only [EncryptedSecretVersion.encrypt, bind_eq_ok, exists_unit, okOr_eq_ok, pure_eq_ok] at h
  obtain ⟨hidentity, hversion, hplaintext, hkek, dek, -, _, -, _, hencrypt, _, hwrapped, rfl⟩ := h
  obtain ⟨hsame, hwraps⟩ := wrapDek_spec hwrapped
  rw [validatePlaintext, rejectIf_eq_ok, not_lt] at hplaintext
  refine ⟨rfl, rfl, hsame, ?_, hplaintext, dek, hwraps, hencrypt⟩
  simp only [validateStorageShape, bind_eq_ok, exists_unit, rejectIf_eq_ok, ne_eq, not_not]
  exact ⟨hidentity, hversion, hsame ▸ hkek, trivial⟩

theorem decrypt_of_seals (hinverts : aead.Inverts)
    (h : Seals aead masterKey kekId identity version plaintext encrypted) :
    encrypted.decrypt aead masterKey = .ok plaintext := by
  obtain ⟨rfl, rfl, -, hshape, hsize, dek, hwraps, hpayload⟩ := h
  simp only [EncryptedSecretVersion.decrypt, bind_eq_ok, exists_unit, okOr_eq_ok, rejectIf_eq_ok, pure_eq_ok, not_lt]
  exact ⟨hshape, dek, unwrapDek_of_wraps hinverts hwraps, plaintext, hinverts hpayload, hsize, rfl⟩

theorem seals_of_rewrap (hinverts : aead.Inverts) {newKekId : String} {newMasterKey : Key} {random : Option Nonce}
    {wrapped : WrappedDek} (hnew : validateComponent "kek_id" newKekId = .ok ())
    (hold : Seals aead masterKey kekId identity version plaintext encrypted)
    (h : encrypted.rewrap aead masterKey newKekId newMasterKey random = .ok wrapped) :
    Seals aead newMasterKey newKekId identity version plaintext { encrypted with wrappedDek := wrapped } := by
  obtain ⟨rfl, rfl, -, hshape, hsize, dek, hwraps, hpayload⟩ := hold
  simp only [EncryptedSecretVersion.rewrap, bind_eq_ok, exists_unit] at h
  obtain ⟨-, _, hdek', hwrapped⟩ := h
  obtain rfl := Except.ok.inj ((unwrapDek_of_wraps hinverts hwraps).symm.trans hdek')
  obtain ⟨hsame, hwraps'⟩ := wrapDek_spec hwrapped
  refine ⟨rfl, rfl, hsame, ?_, hsize, dek, hwraps', hpayload⟩
  simp only [validateStorageShape, bind_eq_ok, exists_unit] at hshape ⊢
  obtain ⟨hidentity, hversion, -, halgorithm⟩ := hshape
  exact ⟨hidentity, hversion, hsame ▸ hnew, halgorithm⟩

end EncryptedSecretVersion

end Runtrue.Secrets
