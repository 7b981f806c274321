import Runtrue.Base.JsonText
import Runtrue.Model.Path
import Runtrue.Workflow.Lock

/-!
# Signed update metadata

The four kinds of update metadata, what each of them must look like, and the threshold of signatures that an
envelope needs. SHA-256, Ed25519 and the printing of floating-point numbers are given (`Libraries`).

A signature counts for a role if its key is assigned to the role; whether a signature of any other key is passed
over or refused is the caller's choice (`allowUnassigned`). One bad signature of an assigned key refuses the
envelope.
-/

namespace Runtrue.Update

open Fallible

def updateSchemaVersion : U32 := 1
def updateSignatureAlgorithm : String := "ed25519"
def maxMetadataBytes : Nat := 4 * 1024 * 1024
def maxTargetBytes : Nat := 8 * 1024 * 1024 * 1024
def maxTargets : Nat := 4096
def maxRootKeys : Nat := 64
def maxSignatures : Nat := 64
def maxCustomFields : Nat := 64
def maxRootRotations : Nat := 32
def maxStringBytes : Nat := 1024
def maxTrustStateBytes : Nat := 8 * 1024 * 1024
def signatureDomain : List UInt8 := Text.bytes "runtrue.update.metadata.signature.v1\x00"
def daySeconds : Nat := 24 * 60 * 60

/-! ### Roles and headers -/

inductive RoleType
  | root | targets | snapshot | timestamp
deriving DecidableEq

namespace RoleType

/-- The place of a role in the declared order. -/
def index : RoleType → Nat
  | root => 0
  | targets => 1
  | snapshot => 2
  | timestamp => 3

def all : List RoleType := [root, targets, snapshot, timestamp]

def asStr : RoleType → String
  | root => "root"
  | targets => "targets"
  | snapshot => "snapshot"
  | timestamp => "timestamp"

def maximumLifetime : RoleType → Nat
  | root => 10 * 365 * daySeconds
  | targets => 366 * daySeconds
  | snapshot => 90 * daySeconds
  | timestamp => 14 * daySeconds

end RoleType

instance : Ord RoleType where
  compare a b := compare a.index b.index

instance : Std.TransOrd RoleType where
  eq_swap {a b} := @Std.OrientedCmp.eq_swap Nat compare _ a.index b.index
  isLE_trans {a b c} := @Std.TransCmp.isLE_trans Nat compare _ a.index b.index c.index

instance : Std.LawfulEqOrd RoleType where
  eq_of_compare {a b} h := by
    have hindex : a.index = b.index := Std.LawfulEqOrd.eq_of_compare h
    cases a <;> cases b <;> first | rfl | cases hindex

inductive UpdateError
  | invalidMetadataHeader (role : RoleType)
  | metadataFromFuture (role : RoleType)
  | metadataExpired (role : RoleType)
  | invalidPublicKey | keyIdMismatch | invalidRootMetadata
  | missingRoleAssignment (role : RoleType)
  | invalidRoleAssignment | roleKeyReuse | unassignedRootKey | invalidTargetDescription | invalidTargetsMetadata
  | unsafeTargetPath (path : String)
  | targetNotFound (path : String)
  | invalidSnapshotMetadata | invalidTimestampMetadata | referencedVersionMismatch | metadataReferenceMismatch
  | metadataTooLarge | invalidSignatureEncoding | invalidSignatureSet | signatureKeyNotAuthorized | invalidSignature
  | signatureThresholdNotMet (role : RoleType) (required : BitVec 16) (valid : Nat)
  | nonSequentialRootRotation (expected actual : U64)
  | tooManyRootRotations | versionOverflow
  | metadataRollback (role : RoleType)
  | sameVersionMetadataChanged (role : RoleType)
  | incoherentMetadataTimes | invalidTrustedState | unpinnedBootstrapRoot | jsonBoundsExceeded | nonCanonicalMetadata
  | deserialize

structure MetadataHeader where
  schemaVersion : U32
  role : RoleType
  version : U64
  issuedUnixSeconds : U64
  expiresUnixSeconds : U64

namespace MetadataHeader
variable (header : MetadataHeader)

def validateStructure (expected : RoleType) : Except UpdateError Unit :=
  rejectIf (header.schemaVersion ≠ updateSchemaVersion ∨ header.role ≠ expected ∨ header.version = 0 ∨
      header.expiresUnixSeconds ≤ header.issuedUnixSeconds ∨
      expected.maximumLifetime < header.expiresUnixSeconds.toNat - header.issuedUnixSeconds.toNat)
    (.invalidMetadataHeader expected)

def validateAt (expected : RoleType) (now : U64) : Except UpdateError Unit := do
  header.validateStructure expected
  rejectIf (now < header.issuedUnixSeconds) (.metadataFromFuture expected)
  rejectIf (header.expiresUnixSeconds ≤ now) (.metadataExpired expected)

end MetadataHeader

/-! ### Values and their canonical bytes -/

/-- SHA-256, Ed25519 and the texts of floating-point numbers, which the repository takes from libraries. -/
structure Libraries where
  sha256 : List UInt8 → ContentDigest
  /-- `VerifyingKey::from_bytes` accepts the bytes. -/
  isVerifyingKey : List UInt8 → Bool
  /-- `verify` of the key accepts the message with the signature. -/
  verifies : (key message signature : List UInt8) → Bool
  showFloat : F64 → String

def numberValue {w : Nat} (value : BitVec w) : Json := .number (.posInt (value.setWidth 64))

def digestValue (digest : ContentDigest) : Json := .string digest.asStr

def canonicalizeValue (value : Json) : Json := value.sortKeys

def canonicalBytes (lib : Libraries) (value : Json) : Except UpdateError (List UInt8) := do
  let bytes := (canonicalizeValue value).render lib.showFloat
  rejectIf (maxTrustStateBytes < bytes.length) .metadataTooLarge
  return bytes

def MetadataHeader.toValue (header : MetadataHeader) : Json :=
  .object [("schema_version", numberValue header.schemaVersion), ("role", .string header.role.asStr),
    ("version", numberValue header.version), ("issued_unix_seconds", numberValue header.issuedUnixSeconds),
    ("expires_unix_seconds", numberValue header.expiresUnixSeconds)]

/-! ### Keys and signatures -/

def isLowerHexByte (byte : UInt8) : Bool := (48 ≤ byte && byte ≤ 57) || (97 ≤ byte && byte ≤ 102)

def isLowerHexText (text : String) : Bool := (Text.bytes text).all isLowerHexByte

def hexValue (byte : UInt8) : Option UInt8 :=
  if 48 ≤ byte ∧ byte ≤ 57 then some (byte - 48)
  else if 97 ≤ byte ∧ byte ≤ 102 then some (byte - 87)
  else if 65 ≤ byte ∧ byte ≤ 70 then some (byte - 55)
  else none

/-- `hex::decode`. -/
def hexDecode : List UInt8 → Option (List UInt8)
  | [] => some []
  | [_] => none
  | high :: low :: rest => do
    let high ← hexValue high
    let low ← hexValue low
    let rest ← hexDecode rest
    return (16 * high + low) :: rest

structure UpdatePublicKey where
  algorithm : String
  publicKeyHex : String

namespace UpdatePublicKey
variable (lib : Libraries) (key : UpdatePublicKey)

def verifyingKey : Except UpdateError (List UInt8) := do
  rejectIf (key.algorithm ≠ updateSignatureAlgorithm ∨ key.publicKeyHex.utf8ByteSize ≠ 64 ∨
    isLowerHexText key.publicKeyHex = false) .invalidPublicKey
  let bytes ← okOr (hexDecode (Text.bytes key.publicKeyHex)) .invalidPublicKey
  rejectIf (bytes.length ≠ 32) .invalidPublicKey
  rejectIf (lib.isVerifyingKey bytes = false) .invalidPublicKey
  return bytes

def keyId : Except UpdateError ContentDigest := do
  let bytes ← key.verifyingKey lib
  return lib.sha256 bytes

def toValue : Json :=
  .object [("algorithm", .string key.algorithm), ("public_key_hex", .string key.publicKeyHex)]

end UpdatePublicKey

structure MetadataSignature where
  keyId : ContentDigest
  algorithm : String
  signatureHex : String

namespace MetadataSignature
variable (signature : MetadataSignature)

def bytes : Except UpdateError (List UInt8) := do
  rejectIf (signature.algorithm ≠ updateSignatureAlgorithm ∨ signature.signatureHex.utf8ByteSize ≠ 128 ∨
    isLowerHexText signature.signatureHex = false) .invalidSignatureEncoding
  let bytes ← okOr (hexDecode (Text.bytes signature.signatureHex)) .invalidSignatureEncoding
  rejectIf (bytes.length ≠ 64) .invalidSignatureEncoding
  return bytes

def toValue : Json :=
  .object [("key_id", digestValue signature.keyId), ("algorithm", .string signature.algorithm),
    ("signature_hex", .string signature.signatureHex)]

end MetadataSignature

/-- What the four kinds of metadata share. -/
class RoleMetadata (T : Type) where
  role : T → RoleType
  validateStructure : Libraries → T → Except UpdateError Unit
  toValue : T → Json

structure SignedEnvelope (T : Type) where
  signed : T
  signatures : List MetadataSignature

namespace SignedEnvelope
variable {T : Type} [RoleMetadata T] (envelope : SignedEnvelope T)

def toValue : Json :=
  .object [("signed", RoleMetadata.toValue envelope.signed),
    ("signatures", .array (envelope.signatures.map MetadataSignature.toValue))]

def canonicalBytes (lib : Libraries) : Except UpdateError (List UInt8) := Update.canonicalBytes lib envelope.toValue

end SignedEnvelope

/-! ### Root -/

structure RoleAssignment where
  keyIds : BTreeSet ContentDigest
  threshold : BitVec 16

namespace RoleAssignment
variable (assignment : RoleAssignment)

def validate (keys : BTreeMap ContentDigest UpdatePublicKey) : Except UpdateError Unit :=
  rejectIf (assignment.keyIds.isEmpty ∨ assignment.threshold = 0 ∨
    assignment.keyIds.toList.length < assignment.threshold.toNat ∨
    assignment.keyIds.toList.all keys.contains = false) .invalidRoleAssignment

def toValue : Json :=
  .object [("key_ids", .array (assignment.keyIds.toList.map digestValue)),
    ("threshold", numberValue assignment.threshold)]

end RoleAssignment

structure RootMetadata where
  header : MetadataHeader
  keys : BTreeMap ContentDigest UpdatePublicKey
  roles : BTreeMap RoleType RoleAssignment

namespace RootMetadata
variable (lib : Libraries) (root : RootMetadata)

def assignKey (assigned : BTreeSet ContentDigest) (keyId : ContentDigest) :
    Except UpdateError (BTreeSet ContentDigest) := do
  rejectIf (assigned.contains keyId) .roleKeyReuse
  return assigned.insert keyId

def assignRole (assigned : BTreeSet ContentDigest) (role : RoleType) :
    Except UpdateError (BTreeSet ContentDigest) := do
  let assignment ← okOr root.roles[role]? (.missingRoleAssignment role)
  assignment.validate root.keys
  foldEach assignKey assigned assignment.keyIds.toList

def validateStructure : Except UpdateError Unit := do
  root.header.validateStructure .root
  rejectIf (root.keys.isEmpty ∨ maxRootKeys < root.keys.toList.length ∨
    root.roles.toList.length ≠ RoleType.all.length) .invalidRootMetadata
  forEach root.keys.toList fun entry => do
    let keyId ← entry.2.keyId lib
    rejectIf (keyId ≠ entry.1) .keyIdMismatch
  let assigned ← foldEach root.assignRole ∅ RoleType.all
  rejectIf (assigned.toList.length ≠ root.keys.toList.length) .unassignedRootKey

def validateAt (now : U64) : Except UpdateError Unit := do
  root.validateStructure lib
  root.header.validateAt .root now

def toValue : Json :=
  .object [("header", root.header.toValue),
    ("keys", .object (root.keys.toList.map fun entry => (entry.1.asStr, entry.2.toValue))),
    ("roles", .object (root.roles.toList.map fun entry => (entry.1.asStr, entry.2.toValue)))]

end RootMetadata

instance : RoleMetadata RootMetadata where
  role _ := .root
  validateStructure := RootMetadata.validateStructure
  toValue := RootMetadata.toValue

/-! ### Targets -/

def validText (value : String) : Bool :=
  value ≠ "" ∧ value.utf8ByteSize ≤ maxStringBytes ∧ (Text.bytes value).contains 0 = false

structure TargetDescription where
  sha256 : ContentDigest
  length : U64
  mediaType : String
  platform : String
  architecture : String
  version : String
  custom : BTreeMap String String

namespace TargetDescription
variable (target : TargetDescription)

def validate : Except UpdateError Unit :=
  rejectIf (maxTargetBytes < target.length.toNat ∨ validText target.mediaType = false ∨
    validText target.platform = false ∨ validText target.architecture = false ∨ validText target.version = false ∨
    maxCustomFields < target.custom.toList.length ∨
    (target.custom.toList.any fun entry => !validText entry.1 || !validText entry.2)) .invalidTargetDescription

/-- The custom fields are left out if there are none. -/
def toValue : Json :=
  .object ([("sha256", digestValue target.sha256), ("length", numberValue target.length),
    ("media_type", .string target.mediaType), ("platform", .string target.platform),
    ("architecture", .string target.architecture), ("version", .string target.version)] ++
    if target.custom.isEmpty then []
    else [("custom", .object (target.custom.toList.map fun entry => (entry.1, .string entry.2)))])

end TargetDescription

structure TargetsMetadata where
  header : MetadataHeader
  targets : BTreeMap String TargetDescription

namespace TargetsMetadata
variable (metadata : TargetsMetadata)

def validateStructure : Except UpdateError Unit := do
  metadata.header.validateStructure .targets
  rejectIf (metadata.targets.isEmpty ∨ maxTargets < metadata.targets.toList.length) .invalidTargetsMetadata
  forEach metadata.targets.toList fun entry => do
    rejectIf (maxStringBytes < entry.1.utf8ByteSize ∨ (normalizeRelativePath entry.1).toOption ≠ some entry.1)
      (.unsafeTargetPath entry.1)
    entry.2.validate

def validateAt (now : U64) : Except UpdateError Unit := do
  metadata.validateStructure
  metadata.header.validateAt .targets now

def toValue : Json :=
  .object [("header", metadata.header.toValue),
    ("targets", .object (metadata.targets.toList.map fun entry => (entry.1, entry.2.toValue)))]

end TargetsMetadata

instance : RoleMetadata TargetsMetadata where
  role _ := .targets
  validateStructure _ := TargetsMetadata.validateStructure
  toValue := TargetsMetadata.toValue

/-! ### Snapshot and timestamp -/

structure MetadataReference where
  version : U64
  sha256 : ContentDigest
  length : U64
deriving DecidableEq

namespace MetadataReference
variable {T : Type} [RoleMetadata T] (lib : Libraries)

def forEnvelope (version : U64) (envelope : SignedEnvelope T) : Except UpdateError MetadataReference := do
  let bytes ← envelope.canonicalBytes lib
  let length ← okOr (Fixed.tryFrom 64 bytes.length) .metadataTooLarge
  rejectIf (maxMetadataBytes < bytes.length) .metadataTooLarge
  return { version, sha256 := lib.sha256 bytes, length }

def verify (reference : MetadataReference) (actualVersion : U64) (envelope : SignedEnvelope T) :
    Except UpdateError Unit := do
  rejectIf (reference.version = 0 ∨ reference.version ≠ actualVersion) .referencedVersionMismatch
  let actual ← forEnvelope lib actualVersion envelope
  rejectIf (actual ≠ reference) .metadataReferenceMismatch

def validate (reference : MetadataReference) (error : UpdateError) : Except UpdateError Unit :=
  rejectIf (reference.version = 0 ∨ reference.length = 0 ∨ maxMetadataBytes < reference.length.toNat) error

def toValue (reference : MetadataReference) : Json :=
  .object [("version", numberValue reference.version), ("sha256", digestValue reference.sha256),
    ("length", numberValue reference.length)]

end MetadataReference

structure SnapshotMetadata where
  header : MetadataHeader
  targets : MetadataReference

namespace SnapshotMetadata
variable (metadata : SnapshotMetadata)

def validateStructure : Except UpdateError Unit := do
  metadata.header.validateStructure .snapshot
  metadata.targets.validate .invalidSnapshotMetadata

def validateAt (now : U64) : Except UpdateError Unit := do
  metadata.validateStructure
  metadata.header.validateAt .snapshot now

def toValue : Json := .object [("header", metadata.header.toValue), ("targets", metadata.targets.toValue)]

end SnapshotMetadata

instance : RoleMetadata SnapshotMetadata where
  role _ := .snapshot
  validateStructure _ := SnapshotMetadata.validateStructure
  toValue := SnapshotMetadata.toValue

structure TimestampMetadata where
  header : MetadataHeader
  snapshot : MetadataReference

namespace TimestampMetadata
variable (metadata : TimestampMetadata)

def validateStructure : Except UpdateError Unit := do
  metadata.header.validateStructure .timestamp
  metadata.snapshot.validate .invalidTimestampMetadata

def validateAt (now : U64) : Except UpdateError Unit := do
  metadata.validateStructure
  metadata.header.validateAt .timestamp now

def toValue : Json := .object [("header", metadata.header.toValue), ("snapshot", metadata.snapshot.toValue)]

end TimestampMetadata

instance : RoleMetadata TimestampMetadata where
  role _ := .timestamp
  validateStructure _ := TimestampMetadata.validateStructure
  toValue := TimestampMetadata.toValue

/-! ### Thresholds -/

def signatureMessage (lib : Libraries) (role : RoleType) (signed : Json) : Except UpdateError (List UInt8) := do
  let canonical ← canonicalBytes lib signed
  return signatureDomain ++ Text.bytes role.asStr ++ [0] ++ canonical

/-- Two neighbours are not in increasing order of their keys. -/
def hasDisorder : List MetadataSignature → Bool
  | first :: second :: rest =>
    decide (second.keyId.bits.toNat ≤ first.keyId.bits.toNat) || hasDisorder (second :: rest)
  | _ => false

section
variable {T : Type} [RoleMetadata T] (lib : Libraries)

/-- The number of valid signatures after one more signature. -/
def countSignature (root : RootMetadata) (assignment : RoleAssignment) (message : List UInt8)
    (allowUnassigned : Bool) (valid : Nat) (signature : MetadataSignature) : Except UpdateError Nat := do
  let parsed ← signature.bytes
  if assignment.keyIds.contains signature.keyId = false then
    if allowUnassigned then
      return valid
    else
      throw .signatureKeyNotAuthorized
  else
    let key ← okOr root.keys[signature.keyId]? .signatureKeyNotAuthorized
    let bytes ← key.verifyingKey lib
    rejectIf (lib.verifies bytes message parsed = false) .invalidSignature
    return valid + 1

def verifyRoleThreshold (envelope : SignedEnvelope T) (root : RootMetadata) (role : RoleType)
    (allowUnassigned : Bool) : Except UpdateError Unit := do
  RoleMetadata.validateStructure lib envelope.signed
  rejectIf (RoleMetadata.role envelope.signed ≠ role ∨ envelope.signatures = [] ∨
    maxSignatures < envelope.signatures.length ∨ hasDisorder envelope.signatures) .invalidSignatureSet
  root.validateStructure lib
  let assignment ← okOr root.roles[role]? (.missingRoleAssignment role)
  let message ← signatureMessage lib role (RoleMetadata.toValue envelope.signed)
  let valid ← foldEach (countSignature lib root assignment message allowUnassigned) 0 envelope.signatures
  rejectIf (valid < assignment.threshold.toNat) (.signatureThresholdNotMet role assignment.threshold valid)

end

def validateChainTimes (root targets snapshot timestamp : MetadataHeader) : Except UpdateError Unit :=
  rejectIf (¬(targets.issuedUnixSeconds ≤ snapshot.issuedUnixSeconds ∧
      snapshot.issuedUnixSeconds ≤ timestamp.issuedUnixSeconds ∧
      timestamp.expiresUnixSeconds ≤ snapshot.expiresUnixSeconds ∧
      snapshot.expiresUnixSeconds ≤ targets.expiresUnixSeconds ∧
      targets.expiresUnixSeconds ≤ root.expiresUnixSeconds)) .incoherentMetadataTimes

end Runtrue.Update
