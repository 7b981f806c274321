import Runtrue.Update.Metadata

/-!
# The trusted state of an updater

The state keeps the trusted root and, for each other role, the version and digest of the last accepted envelope.
`verifyReleaseMetadata` judges a release bundle against it: the root rotations first, then the timestamp, the
snapshot and the targets under the root that they lead to. It answers with the target asked for and the state that
replaces the current one.

`decode` reads a state back.
-/

namespace Runtrue.Update

open Fallible

structure TrustedMetadata where
  version : U64
  sha256 : ContentDigest
deriving DecidableEq

namespace TrustedMetadata
variable {T : Type} [RoleMetadata T] (lib : Libraries)

def fromEnvelope (version : U64) (envelope : SignedEnvelope T) : Except UpdateError TrustedMetadata := do
  let bytes ← envelope.canonicalBytes lib
  return { version, sha256 := lib.sha256 bytes }

def checkNoRollback (trusted : TrustedMetadata) (version : U64) (envelope : SignedEnvelope T) (role : RoleType) :
    Except UpdateError Unit := do
  rejectIf (version < trusted.version) (.metadataRollback role)
  if version = trusted.version then
    let candidate ← fromEnvelope lib version envelope
    rejectIf (candidate.sha256 ≠ trusted.sha256) (.sameVersionMetadataChanged role)
  else
    return ()

def toValue (trusted : TrustedMetadata) : Json :=
  .object [("version", numberValue trusted.version), ("sha256", digestValue trusted.sha256)]

end TrustedMetadata

structure ReleaseBundle where
  rootRotations : List (SignedEnvelope RootMetadata)
  targets : SignedEnvelope TargetsMetadata
  snapshot : SignedEnvelope SnapshotMetadata
  timestamp : SignedEnvelope TimestampMetadata

structure TrustedState where
  schemaVersion : U32
  trustedRoot : SignedEnvelope RootMetadata
  targets : Option TrustedMetadata
  snapshot : Option TrustedMetadata
  timestamp : Option TrustedMetadata

structure VerifiedRelease where
  nextState : TrustedState
  targetPath : String
  target : TargetDescription

def rootEnvelopeDigest (lib : Libraries) (root : SignedEnvelope RootMetadata) :
    Except UpdateError ContentDigest := do
  let bytes ← root.canonicalBytes lib
  return lib.sha256 bytes

/-- The rollback check of a role, made only if the role has a record. -/
def checkRecord {T : Type} [RoleMetadata T] (lib : Libraries) (record : Option TrustedMetadata) (version : U64)
    (envelope : SignedEnvelope T) (role : RoleType) : Except UpdateError Unit :=
  match record with
  | some trusted => trusted.checkNoRollback lib version envelope role
  | none => .ok ()

namespace TrustedState
variable (lib : Libraries) (state : TrustedState)

def bootstrap (root : SignedEnvelope RootMetadata) (expectedRootDigest : ContentDigest) (now : U64) :
    Except UpdateError TrustedState := do
  let digest ← rootEnvelopeDigest lib root
  rejectIf (digest ≠ expectedRootDigest) .unpinnedBootstrapRoot
  root.signed.validateAt lib now
  verifyRoleThreshold lib root root.signed .root false
  return { schemaVersion := updateSchemaVersion, trustedRoot := root, targets := none, snapshot := none,
           timestamp := none }

/-- The records of the roles, in the order in which the source looks at them. -/
def records : List TrustedMetadata := [state.targets, state.snapshot, state.timestamp].filterMap id

def validateStructure : Except UpdateError Unit := do
  rejectIf (state.schemaVersion ≠ updateSchemaVersion) .invalidTrustedState
  state.trustedRoot.signed.validateStructure lib
  verifyRoleThreshold lib state.trustedRoot state.trustedRoot.signed .root true
  forEach state.records fun metadata => rejectIf (metadata.version = 0) .invalidTrustedState

def rotateRoot (now : U64) (candidate : SignedEnvelope RootMetadata) : Except UpdateError TrustedState := do
  candidate.signed.validateAt lib now
  let expected ← okOr (Fixed.checkedAdd state.trustedRoot.signed.header.version 1) .versionOverflow
  rejectIf (candidate.signed.header.version ≠ expected)
    (.nonSequentialRootRotation expected candidate.signed.header.version)
  verifyRoleThreshold lib candidate state.trustedRoot.signed .root true
  verifyRoleThreshold lib candidate candidate.signed .root true
  let old ← okOr state.trustedRoot.signed.roles[RoleType.root]? (.missingRoleAssignment .root)
  let new ← okOr candidate.signed.roles[RoleType.root]? (.missingRoleAssignment .root)
  rejectIf (candidate.signatures.any fun signature =>
    !(old.keyIds.contains signature.keyId || new.keyIds.contains signature.keyId)) .signatureKeyNotAuthorized
  return { state with trustedRoot := candidate }

def verifyReleaseMetadata (bundle : ReleaseBundle) (targetPath : String) (now : U64) :
    Except UpdateError VerifiedRelease := do
  state.validateStructure lib
  rejectIf (maxRootRotations < bundle.rootRotations.length) .tooManyRootRotations
  let next ← foldEach (fun next root => rotateRoot lib next now root) state bundle.rootRotations
  next.trustedRoot.signed.validateAt lib now
  bundle.timestamp.signed.validateAt now
  verifyRoleThreshold lib bundle.timestamp next.trustedRoot.signed .timestamp false
  checkRecord lib next.timestamp bundle.timestamp.signed.header.version bundle.timestamp .timestamp
  bundle.snapshot.signed.validateAt now
  verifyRoleThreshold lib bundle.snapshot next.trustedRoot.signed .snapshot false
  bundle.timestamp.signed.snapshot.verify lib bundle.snapshot.signed.header.version bundle.snapshot
  checkRecord lib next.snapshot bundle.snapshot.signed.header.version bundle.snapshot .snapshot
  bundle.targets.signed.validateAt now
  verifyRoleThreshold lib bundle.targets next.trustedRoot.signed .targets false
  bundle.snapshot.signed.targets.verify lib bundle.targets.signed.header.version bundle.targets
  checkRecord lib next.targets bundle.targets.signed.header.version bundle.targets .targets
  validateChainTimes next.trustedRoot.signed.header bundle.targets.signed.header bundle.snapshot.signed.header
    bundle.timestamp.signed.header
  let normalized ← okOr (normalizeRelativePath targetPath).toOption (.unsafeTargetPath targetPath)
  rejectIf (normalized ≠ targetPath ∨ maxStringBytes < targetPath.utf8ByteSize) (.unsafeTargetPath targetPath)
  let target ← okOr bundle.targets.signed.targets[targetPath]? (.targetNotFound targetPath)
  let timestamp ← TrustedMetadata.fromEnvelope lib bundle.timestamp.signed.header.version bundle.timestamp
  let snapshot ← TrustedMetadata.fromEnvelope lib bundle.snapshot.signed.header.version bundle.snapshot
  let targets ← TrustedMetadata.fromEnvelope lib bundle.targets.signed.header.version bundle.targets
  return { nextState := { next with timestamp := some timestamp, snapshot := some snapshot, targets := some targets }
           targetPath
           target }

/-! ### Reading and writing -/

/-- Absent records are left out. -/
def toValue : Json :=
  .object ([("schema_version", numberValue state.schemaVersion), ("trusted_root", state.trustedRoot.toValue)] ++
    [("targets", state.targets), ("snapshot", state.snapshot), ("timestamp", state.timestamp)].filterMap
      fun entry => entry.2.map fun trusted => (entry.1, trusted.toValue))

def canonicalBytes : Except UpdateError (List UInt8) := do
  state.validateStructure lib
  Update.canonicalBytes lib state.toValue

end TrustedState

/-- Bytes as a JSON value, by the library's parser with the crate's visitor that refuses repeated keys, and a value
as a state. -/
structure Serde where
  fromSlice : List UInt8 → Except UpdateError Json
  fromValue : Json → Option TrustedState

def maxJsonDepth : Nat := 64
def maxJsonNodes : Nat := 200000

/-- The numbers of values and of string bytes seen. -/
structure Seen where
  nodes : Nat
  stringBytes : Nat

def addString (value : String) (seen : Seen) : Except UpdateError Seen := do
  rejectIf (maxStringBytes * 4 < value.utf8ByteSize) .jsonBoundsExceeded
  let stringBytes := seen.stringBytes + value.utf8ByteSize
  rejectIf (maxMetadataBytes < stringBytes) .jsonBoundsExceeded
  return { seen with stringBytes }

def addNode (depth : Nat) (seen : Seen) : Except UpdateError Seen := do
  rejectIf (maxJsonDepth < depth) .jsonBoundsExceeded
  let nodes := seen.nodes + 1
  rejectIf (maxJsonNodes < nodes) .jsonBoundsExceeded
  return { seen with nodes }

mutual

def validateBounds (depth : Nat) (seen : Seen) : Json → Except UpdateError Seen
  | .string value => do
    let seen ← addNode depth seen
    addString value seen
  | .array values => do
    let seen ← addNode depth seen
    validateBoundsAll (depth + 1) seen values
  | .object members => do
    let seen ← addNode depth seen
    validateBoundsMembers (depth + 1) seen members
  | _ => addNode depth seen

def validateBoundsAll (depth : Nat) (seen : Seen) : List Json → Except UpdateError Seen
  | [] => .ok seen
  | value :: values => do
    let seen ← validateBounds depth seen value
    validateBoundsAll depth seen values

def validateBoundsMembers (depth : Nat) (seen : Seen) : List (String × Json) → Except UpdateError Seen
  | [] => .ok seen
  | (key, value) :: members => do
    let seen ← addString key seen
    let seen ← validateBounds depth seen value
    validateBoundsMembers depth seen members

end

section
variable (lib : Libraries) (serde : Serde)

def strictDecode (bytes : List UInt8) : Except UpdateError Json := do
  let value ← serde.fromSlice bytes
  let _ ← validateBounds 0 ⟨0, 0⟩ value
  return value

def decodeCanonical (bytes : List UInt8) (maximum : Nat) : Except UpdateError TrustedState := do
  rejectIf (bytes = [] ∨ maximum < bytes.length) .metadataTooLarge
  let value ← strictDecode serde bytes
  let decoded ← okOr (serde.fromValue value) .deserialize
  let canonical ← canonicalBytes lib decoded.toValue
  rejectIf (canonical ≠ bytes) .nonCanonicalMetadata
  return decoded

def TrustedState.decode (bytes : List UInt8) : Except UpdateError TrustedState := do
  let state ← decodeCanonical lib serde bytes maxTrustStateBytes
  state.validateStructure lib
  return state

end

end Runtrue.Update
