import Runtrue.Update.TrustedState

/-!
# What an acceptance rests on

Each check of the update crate as a statement about the metadata that passed it: a root whose keys have their ids
and whose roles have an assignment (`RootMetadata.Sound`), an envelope with enough valid signatures of different
keys (`MeetsThreshold`), an envelope that a reference pins (`Pins`), and a release bundle that was accepted
(`Accepts`).
-/

namespace Runtrue.Update

open Fallible TrustedState List

variable {T : Type} [RoleMetadata T] {lib : Libraries}

/-! ### Headers -/

def MetadataHeader.Unexpired (header : MetadataHeader) (now : U64) : Prop :=
  header.issuedUnixSeconds ≤ now ∧ now < header.expiresUnixSeconds

variable {role : RoleType} {now : U64}

theorem MetadataHeader.validateAt_spec {header : MetadataHeader}
    (h : header.validateAt role now = .ok ()) : header.version ≠ 0 ∧ header.Unexpired now := by
  simp only [validateAt, validateStructure, bind_eq_ok, exists_unit, rejectIf_eq_ok, not_or] at h
  obtain ⟨⟨-, -, hversion, -⟩, hfuture, hexpired⟩ := h
  exact ⟨hversion, BitVec.not_lt.mp hfuture, BitVec.not_le.mp hexpired⟩

variable {root : RootMetadata}

theorem RootMetadata.validateAt_spec (h : root.validateAt lib now = .ok ()) :
    root.validateStructure lib = .ok () ∧ root.header.version ≠ 0 ∧ root.header.Unexpired now := by
  simp only [validateAt, bind_eq_ok, exists_unit] at h
  exact ⟨h.1, MetadataHeader.validateAt_spec h.2⟩

theorem header_of_validateAt {header : MetadataHeader} {x : Except UpdateError Unit}
    (h : (do x; header.validateAt role now) = .ok ()) : header.version ≠ 0 ∧ header.Unexpired now := by
  simp only [bind_eq_ok, exists_unit] at h
  exact MetadataHeader.validateAt_spec h.2

/-! ### Roots -/

structure RootMetadata.Sound (lib : Libraries) (root : RootMetadata) : Prop where
  keyCount : root.keys.toList.length ≤ maxRootKeys
  roleCount : root.roles.toList.length = RoleType.all.length
  keyId : ∀ {keyId : ContentDigest} {key : UpdatePublicKey}, root.keys[keyId]? = some key →
    key.keyId lib = .ok keyId
  assigned : ∀ role : RoleType, ∃ assignment : RoleAssignment, root.roles[role]? = some assignment ∧
    assignment.validate root.keys = .ok ()

theorem RoleType.mem_all (role : RoleType) : role ∈ RoleType.all := by cases role <;> decide

theorem RootMetadata.sound_of_validateStructure (h : root.validateStructure lib = .ok ()) : root.Sound lib := by
  simp only [validateStructure, bind_eq_ok, exists_unit, rejectIf_eq_ok, not_or, not_lt, ne_eq, not_not] at h
  obtain ⟨-, ⟨-, hcount, hroles⟩, hkeys, _, hassigned, -⟩ := h
  refine ⟨hcount, hroles, fun {keyId key} hget => ?_, fun role => ?_⟩
  · have hentry := forEach_eq_ok.mp hkeys (keyId, key) (BTreeMap.mem_toList.mpr hget)
    simp only [bind_eq_ok, rejectIf_eq_ok, not_not] at hentry
    obtain ⟨_, hkeyId, rfl⟩ := hentry
    exact hkeyId
  · refine foldEach_establishes
      (Q := fun role _ => ∃ assignment : RoleAssignment, root.roles[role]? = some assignment ∧
        assignment.validate root.keys = .ok ()) ?_ (fun _ _ _ _ _ h => h) hassigned role.mem_all
    intro s _ t hassign
    simp only [assignRole, bind_eq_ok, exists_unit, okOr_eq_ok] at hassign
    obtain ⟨assignment, hget, hvalid, -⟩ := hassign
    exact ⟨assignment, hget, hvalid⟩

/-! ### Signatures -/

/-- A signature of a key that is assigned to the role, which verifies under that key. -/
def ValidSignature (lib : Libraries) (root : RootMetadata) (assignment : RoleAssignment) (message : List UInt8)
    (signature : MetadataSignature) : Prop :=
  ∃ key keyBytes signatureBytes, assignment.keyIds.contains signature.keyId = true ∧
    root.keys[signature.keyId]? = some key ∧ key.verifyingKey lib = .ok keyBytes ∧
    lib.sha256 keyBytes = signature.keyId ∧ signature.bytes = .ok signatureBytes ∧
    lib.verifies keyBytes message signatureBytes = true

/-- Valid signatures of different keys, as many as the role's threshold asks for. -/
def MeetsThreshold (lib : Libraries) (envelope : SignedEnvelope T) (root : RootMetadata) (role : RoleType) : Prop :=
  ∃ (assignment : RoleAssignment) (message : List UInt8) (signers : List MetadataSignature),
    root.roles[role]? = some assignment ∧
    signatureMessage lib role (RoleMetadata.toValue envelope.signed) = .ok message ∧
    signers.Sublist envelope.signatures ∧ signers.Pairwise (fun a b => a.keyId ≠ b.keyId) ∧
    (∀ signature ∈ signers, ValidSignature lib root assignment message signature) ∧
    0 < assignment.threshold.toNat ∧ assignment.threshold.toNat ≤ signers.length

variable {allowUnassigned : Bool} {signatures : List MetadataSignature}

theorem exists_signers {assignment : RoleAssignment} {message : List UInt8} (hroot : root.Sound lib) {n valid : Nat}
    (h : foldEach (countSignature lib root assignment message allowUnassigned) n signatures = .ok valid) :
    (∃ signers : List MetadataSignature, signers.Sublist signatures ∧ valid = n + signers.length ∧
      ∀ signature ∈ signers, ValidSignature lib root assignment message signature) ∧
    ∀ signature ∈ signatures, ∃ bytes, signature.bytes = .ok bytes := by
  induction signatures generalizing n with
  | nil =>
    cases h
    exact ⟨⟨[], .slnil, rfl, by simp⟩, by simp⟩
  | cons signature signatures ih =>
    obtain ⟨_, hcount, hrest⟩ := foldEach_cons_eq_ok.mp h
    obtain ⟨⟨signers, hsub, hvalid, hall⟩, hbytes⟩ := ih hrest
    simp only [countSignature, bind_eq_ok] at hcount
    obtain ⟨parsed, hparsed, hcount⟩ := hcount
    refine ⟨?_, forall_mem_cons.mpr ⟨⟨parsed, hparsed⟩, hbytes⟩⟩
    split at hcount
    · -- a signature of a key that the role does not have is passed over
      split at hcount
      · cases hcount
        exact ⟨signers, hsub.cons signature, hvalid, hall⟩
      · cases hcount
    · rename_i hassigned
      simp only [bind_eq_ok, exists_unit, okOr_eq_ok, rejectIf_eq_ok, pure_eq_ok, Bool.not_eq_false] at hcount
      obtain ⟨key, hkey, keyBytes, hkeyBytes, hverifies, rfl⟩ := hcount
      have hkeyId := hroot.keyId hkey
      simp only [UpdatePublicKey.keyId, hkeyBytes, bind_eq_ok, pure_eq_ok, Except.ok.injEq, exists_eq_left'] at hkeyId
      refine ⟨signature :: signers, hsub.cons_cons signature, by rw [hvalid, length_cons]; omega, ?_⟩
      exact forall_mem_cons.mpr ⟨⟨key, keyBytes, parsed, Bool.not_eq_false _ ▸ hassigned, hkey, hkeyBytes,
        hkeyId, hparsed, hverifies⟩, hall⟩

theorem pairwise_of_hasDisorder (h : hasDisorder signatures = false) :
    signatures.Pairwise fun a b => a.keyId.bits.toNat < b.keyId.bits.toNat := by
  refine isChain_iff_pairwise.mp ?_
  induction signatures with
  | nil => exact .nil
  | cons first rest ih =>
    cases rest with
    | nil => exact .singleton first
    | cons =>
      simp only [hasDisorder, Bool.or_eq_false_iff, decide_eq_false_iff_not, not_le] at h
      exact .cons_cons h.1 (ih h.2)

/-- What a passed threshold check says of the envelope and the root. -/
structure ThresholdPassed (lib : Libraries) (envelope : SignedEnvelope T) (root : RootMetadata) (role : RoleType) :
    Prop where
  structured : RoleMetadata.validateStructure lib envelope.signed = .ok ()
  sound : root.Sound lib
  count : envelope.signatures.length ≤ maxSignatures
  encoded : ∀ signature ∈ envelope.signatures, ∃ bytes, signature.bytes = .ok bytes
  meets : MeetsThreshold lib envelope root role

variable {envelope : SignedEnvelope T}

theorem thresholdPassed (h : verifyRoleThreshold lib envelope root role allowUnassigned = .ok ()) :
    ThresholdPassed lib envelope root role := by
  simp only [verifyRoleThreshold, bind_eq_ok, exists_unit, rejectIf_eq_ok, not_or, not_lt, okOr_eq_ok] at h
  obtain ⟨hstructured, ⟨-, -, hcount, horder⟩, hvalid, assignment, hassignment, message, hmessage, _, hloop,
    _⟩ := h
  have hroot := RootMetadata.sound_of_validateStructure hvalid
  obtain ⟨⟨signers, hsub, rfl, hall⟩, hencoded⟩ := exists_signers hroot hloop
  have hpairwise := pairwise_of_hasDisorder (Bool.not_eq_true _ ▸ horder)
  obtain ⟨_, hassignment', hassigned⟩ := hroot.assigned role
  obtain rfl := Option.mem_unique hassignment hassignment'
  simp only [RoleAssignment.validate, rejectIf_eq_ok, not_or] at hassigned
  have hpositive : 0 < assignment.threshold.toNat :=
    Nat.pos_of_ne_zero fun hzero => hassigned.2.1 (BitVec.eq_of_toNat_eq hzero)
  refine ⟨hstructured, hroot, hcount, hencoded, assignment, message, signers, hassignment, hmessage, hsub,
    (hpairwise.sublist hsub).imp fun hlt heq => ?_, hall, hpositive, by omega⟩
  rw [heq] at hlt
  exact lt_irrefl _ hlt

/-! ### References -/

/-- The reference names the version, the digest and the length of the envelope. -/
def Pins (lib : Libraries) (reference : MetadataReference) (version : U64) (envelope : SignedEnvelope T) : Prop :=
  ∃ bytes, envelope.canonicalBytes lib = .ok bytes ∧ reference.version = version ∧
    reference.sha256 = lib.sha256 bytes ∧ reference.length.toNat = bytes.length

theorem pins_of_verify {reference : MetadataReference} {version : U64}
    (h : reference.verify lib version envelope = .ok ()) : Pins lib reference version envelope := by
  simp only [MetadataReference.verify, MetadataReference.forEnvelope, bind_eq_ok, exists_unit, rejectIf_eq_ok, not_or,
    ne_eq, not_not, okOr_eq_ok, pure_eq_ok] at h
  obtain ⟨-, _, ⟨bytes, hbytes, _, hlength, -, rfl⟩, rfl⟩ := h
  refine ⟨bytes, hbytes, rfl, rfl, ?_⟩
  unfold Fixed.tryFrom at hlength
  split at hlength
  · rename_i hlt
    cases hlength
    rw [BitVec.toNat_ofNat, Nat.mod_eq_of_lt hlt]
  · cases hlength

/-! ### Root rotations -/

/-- One rotation: the next version, signed for the thresholds of both roots. -/
structure Rotates (lib : Libraries) (old new : SignedEnvelope RootMetadata) : Prop where
  version : new.signed.header.version.toNat = old.signed.header.version.toNat + 1
  byOld : MeetsThreshold lib new old.signed .root
  byNew : MeetsThreshold lib new new.signed .root

variable {state next : TrustedState}

theorem rotateRoot_spec {candidate : SignedEnvelope RootMetadata} (h : state.rotateRoot lib now candidate = .ok next) :
    next = { state with trustedRoot := candidate } ∧ Rotates lib state.trustedRoot candidate ∧
      candidate.signed.validateStructure lib = .ok () ∧
      verifyRoleThreshold lib candidate candidate.signed .root true = .ok () := by
  simp only [rotateRoot, bind_eq_ok, exists_unit, okOr_eq_ok, rejectIf_eq_ok, ne_eq, not_not,
    pure_eq_ok] at h
  obtain ⟨hat, _, hexpected, hversion, hold, hnew, _, -, _, -, -, rfl⟩ := h
  have hnext := Fixed.checkedAdd_eq_some.mp hexpected
  refine ⟨rfl, ⟨?_, (thresholdPassed hold).meets, (thresholdPassed hnew).meets⟩,
    (RootMetadata.validateAt_spec hat).1, hnew⟩
  rw [hversion, hnext]
  rfl

theorem rotations_spec {roots : List (SignedEnvelope RootMetadata)}
    (h : foldEach (fun next root => rotateRoot lib next now root) state roots = .ok next) :
    next = { state with trustedRoot := roots.getLastD state.trustedRoot } ∧
      (state.trustedRoot :: roots).IsChain (Rotates lib) := by
  induction roots generalizing state with
  | nil =>
    cases h
    exact ⟨rfl, .singleton _⟩
  | cons _ _ ih =>
    obtain ⟨_, hrotated, hrest⟩ := foldEach_cons_eq_ok.mp h
    obtain ⟨rfl, hrotates, -⟩ := rotateRoot_spec hrotated
    obtain ⟨rfl, hchain⟩ := ih hrest
    exact ⟨by rw [getLastD_cons], .cons_cons hrotates hchain⟩

/-! ### Accepted bundles -/

/-- The checks of an accepted bundle, with the root that its rotations lead to and the records it leaves. -/
structure Accepts (lib : Libraries) (state : TrustedState) (bundle : ReleaseBundle) (targetPath : String) (now : U64)
    (next : TrustedState) (target : TargetDescription) (timestamp snapshot targets : TrustedMetadata) : Prop where
  valid : state.validateStructure lib = .ok ()
  rotations : bundle.rootRotations.length ≤ maxRootRotations
  rotated : foldEach (fun next root => TrustedState.rotateRoot lib next now root) state bundle.rootRotations = .ok next
  rootAt : next.trustedRoot.signed.validateAt lib now = .ok ()
  timestampAt : bundle.timestamp.signed.validateAt now = .ok ()
  timestampSigned : verifyRoleThreshold lib bundle.timestamp next.trustedRoot.signed .timestamp false = .ok ()
  timestampFresh : checkRecord lib next.timestamp bundle.timestamp.signed.header.version bundle.timestamp .timestamp =
    .ok ()
  snapshotAt : bundle.snapshot.signed.validateAt now = .ok ()
  snapshotSigned : verifyRoleThreshold lib bundle.snapshot next.trustedRoot.signed .snapshot false = .ok ()
  snapshotPinned : bundle.timestamp.signed.snapshot.verify lib bundle.snapshot.signed.header.version bundle.snapshot =
    .ok ()
  snapshotFresh : checkRecord lib next.snapshot bundle.snapshot.signed.header.version bundle.snapshot .snapshot = .ok ()
  targetsAt : bundle.targets.signed.validateAt now = .ok ()
  targetsSigned : verifyRoleThreshold lib bundle.targets next.trustedRoot.signed .targets false = .ok ()
  targetsPinned : bundle.snapshot.signed.targets.verify lib bundle.targets.signed.header.version bundle.targets = .ok ()
  targetsFresh : checkRecord lib next.targets bundle.targets.signed.header.version bundle.targets .targets = .ok ()
  times : validateChainTimes next.trustedRoot.signed.header bundle.targets.signed.header bundle.snapshot.signed.header
    bundle.timestamp.signed.header = .ok ()
  path : (normalizeRelativePath targetPath).toOption = some targetPath ∧ targetPath.utf8ByteSize ≤ maxStringBytes
  listed : bundle.targets.signed.targets[targetPath]? = some target
  timestampRecord : TrustedMetadata.fromEnvelope lib bundle.timestamp.signed.header.version bundle.timestamp =
    .ok timestamp
  snapshotRecord : TrustedMetadata.fromEnvelope lib bundle.snapshot.signed.header.version bundle.snapshot = .ok snapshot
  targetsRecord : TrustedMetadata.fromEnvelope lib bundle.targets.signed.header.version bundle.targets = .ok targets

def accepted (next : TrustedState) (targetPath : String) (target : TargetDescription)
    (timestamp snapshot targets : TrustedMetadata) : VerifiedRelease where
  nextState := { next with timestamp := some timestamp, snapshot := some snapshot, targets := some targets }
  targetPath := targetPath
  target := target

theorem verifyReleaseMetadata_eq_ok {bundle : ReleaseBundle} {targetPath : String} {release : VerifiedRelease} :
    state.verifyReleaseMetadata lib bundle targetPath now = .ok release ↔ ∃ next target timestamp snapshot targets,
        Accepts lib state bundle targetPath now next target timestamp snapshot targets ∧
        release = accepted next targetPath target timestamp snapshot targets := by
  simp only [verifyReleaseMetadata, bind_eq_ok, exists_unit, rejectIf_eq_ok, okOr_eq_ok, pure_eq_ok, not_or,
    not_lt, ne_eq, not_not]
  constructor
  · rintro ⟨hvalid, hrotations, next, hrotated, hroot, htsAt, htsSigned, htsFresh, hsnAt, hsnSigned, hsnPinned,
      hsnFresh, htgAt, htgSigned, htgPinned, htgFresh, htimes, _, hnormalized, ⟨rfl, hlength⟩, target, hlisted,
      timestamp, hts, snapshot, hsn, targets, htg, rfl⟩
    exact ⟨next, target, timestamp, snapshot, targets, ⟨hvalid, hrotations, hrotated, hroot, htsAt, htsSigned, htsFresh,
      hsnAt, hsnSigned, hsnPinned, hsnFresh, htgAt, htgSigned, htgPinned, htgFresh, htimes, ⟨hnormalized, hlength⟩,
      hlisted, hts, hsn, htg⟩, rfl⟩
  · rintro ⟨next, target, timestamp, snapshot, targets, h, rfl⟩
    exact ⟨h.valid, h.rotations, next, h.rotated, h.rootAt, h.timestampAt, h.timestampSigned, h.timestampFresh,
      h.snapshotAt, h.snapshotSigned, h.snapshotPinned, h.snapshotFresh, h.targetsAt, h.targetsSigned, h.targetsPinned,
      h.targetsFresh, h.times, targetPath, h.path.1, ⟨rfl, h.path.2⟩, target, h.listed, timestamp, h.timestampRecord,
      snapshot, h.snapshotRecord, targets, h.targetsRecord, rfl⟩

end Runtrue.Update
