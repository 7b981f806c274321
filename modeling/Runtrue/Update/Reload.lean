import Runtrue.Update.History

/-!
# Reloading the state and applying a bundle again

The state that an acceptance leaves passes its own structure check, its encoding stays inside the limits of the
encoder and of the strict reader, and a decode gives it back (`decode_canonicalBytes`). The root keeps the
signatures of the root before it; the self-check passes over them.

The first rotation of a bundle is behind the root that the bundle leads to, so the same bundle is accepted again
exactly if it carries no root rotation.
-/

namespace Runtrue.Update

open Fallible Json List TrustedState BTreeMap

variable {lib : Libraries}

/-! ### The size of an encoded state -/

variable {n : Nat}

theorem utf8Size_digitChar (h : n < 16) : (Nat.digitChar n).utf8Size = 1 := by
  revert n
  decide

theorem sum_utf8Size_hexDigits (value count : Nat) : ((hexDigits value count).map Char.utf8Size).sum = count := by
  induction count with
  | zero => rfl
  | succ count ih =>
    have hdigit := utf8Size_digitChar (Nat.mod_lt (value / 16 ^ count) (Nat.succ_pos 15))
    rw [hexDigits, map_cons, sum_cons, ih, hdigit, add_comm]

theorem utf8ByteSize_asStr (digest : ContentDigest) : digest.asStr.utf8ByteSize = 71 := by
  have halgorithm : ("sha256:".toList.map Char.utf8Size).sum = 7 := by decide +kernel
  have hdigits := sum_utf8Size_hexDigits digest.bits.toNat 64
  unfold ContentDigest.asStr
  rw [utf8ByteSize_ofList, map_append, sum_append, halgorithm, hdigits]

theorem plain_digestValue (digest : ContentDigest) (depth : Nat) : Plain 128 depth (digestValue digest) := by
  have h := utf8ByteSize_asStr digest
  exact plain_string.mpr (by omega)

theorem utf8ByteSize_role_le (role : RoleType) : role.asStr.utf8ByteSize ≤ 128 := by
  cases role <;> decide

section
variable {depth : Nat}

theorem plain_header (header : MetadataHeader) : Plain 128 (depth + 1) header.toValue := by
  have hrole := utf8ByteSize_role_le header.role
  simp only [MetadataHeader.toValue, numberValue, Plain, PlainMembers, hrole, true_and, and_true]
  decide

variable {bytes : List UInt8}

theorem plain_key {key : UpdatePublicKey} (h : key.verifyingKey lib = .ok bytes) :
    Plain 128 (depth + 1) key.toValue := by
  simp only [UpdatePublicKey.verifyingKey, bind_eq_ok, exists_unit, rejectIf_eq_ok, not_or, ne_eq, not_not] at h
  obtain ⟨⟨halgorithm, hlength, -⟩, -⟩ := h
  simp only [UpdatePublicKey.toValue, Plain, PlainMembers, halgorithm, hlength, and_true]
  decide

theorem plain_signature {signature : MetadataSignature} (h : signature.bytes = .ok bytes) :
    Plain 128 (depth + 1) signature.toValue := by
  simp only [MetadataSignature.bytes, bind_eq_ok, exists_unit, rejectIf_eq_ok, not_or, ne_eq, not_not] at h
  obtain ⟨⟨halgorithm, hlength, -⟩, -⟩ := h
  have hdigest := plain_digestValue signature.keyId depth
  simp only [MetadataSignature.toValue, Plain, PlainMembers, halgorithm, hlength, hdigest, true_and, and_true]
  decide

theorem plain_assignment (assignment : RoleAssignment) : Plain 128 (depth + 2) assignment.toValue := by
  have hkeys : PlainAll 128 depth (assignment.keyIds.toList.map digestValue) :=
    plainAll_iff.mpr fun _ hvalue => by
      obtain ⟨digest, -, rfl⟩ := mem_map.mp hvalue
      exact plain_digestValue digest depth
  simp only [RoleAssignment.toValue, numberValue, Plain, PlainMembers, hkeys, true_and, and_true]
  decide

theorem plain_root {root : RootMetadata} (h : root.Sound lib) : Plain 128 (depth + 4) root.toValue := by
  have hheader : Plain 128 (depth + 3) root.header.toValue := plain_header root.header
  have hkeys : PlainMembers 128 (depth + 2) (root.keys.toList.map fun entry => (entry.1.asStr, entry.2.toValue)) := by
    refine plainMembers_iff.mpr fun member hmember => ?_
    obtain ⟨⟨keyId, _⟩, hentry, rfl⟩ := mem_map.mp hmember
    have hkey := h.keyId (mem_toList.mp hentry)
    simp only [UpdatePublicKey.keyId, bind_eq_ok] at hkey
    obtain ⟨_, hbytes, -⟩ := hkey
    exact ⟨(utf8ByteSize_asStr keyId).trans_le (by decide), plain_key hbytes⟩
  have hroles : PlainMembers 128 (depth + 2)
      (root.roles.toList.map fun entry => (entry.1.asStr, entry.2.toValue)) := by
    refine plainMembers_iff.mpr fun _ hmember => ?_
    obtain ⟨⟨role, assignment⟩, -, rfl⟩ := mem_map.mp hmember
    exact ⟨utf8ByteSize_role_le role, plain_assignment assignment⟩
  simp only [RootMetadata.toValue, Plain, PlainMembers, hheader, hkeys, hroles, and_true]
  decide

theorem plain_record (trusted : TrustedMetadata) : Plain 128 (depth + 1) trusted.toValue := by
  have hdigest := plain_digestValue trusted.sha256 depth
  simp only [TrustedMetadata.toValue, numberValue, Plain, PlainMembers, hdigest, true_and, and_true]
  decide

end

variable {state : TrustedState}

theorem plain_state (h : ThresholdPassed lib state.trustedRoot state.trustedRoot.signed .root) :
    Plain 128 6 state.toValue := by
  have hsignatures : PlainAll 128 3 (state.trustedRoot.signatures.map MetadataSignature.toValue) :=
    plainAll_iff.mpr fun _ hvalue => by
      obtain ⟨signature, hsignature, rfl⟩ := mem_map.mp hvalue
      obtain ⟨_, hbytes⟩ := h.encoded signature hsignature
      exact plain_signature hbytes
  have hroot : Plain 128 5 state.trustedRoot.toValue := by
    have hsigned : Plain 128 4 (RoleMetadata.toValue state.trustedRoot.signed) := plain_root h.sound
    simp only [SignedEnvelope.toValue, Plain, PlainMembers, hsigned, hsignatures, and_true]
    decide
  refine plainMembers_iff.mpr fun _ hmember => ?_
  rcases mem_append.mp hmember with hmember | hmember
  · simp only [mem_cons, not_mem_nil, or_false] at hmember
    rcases hmember with rfl | rfl
    · exact ⟨show "schema_version".utf8ByteSize ≤ 128 by decide, trivial⟩
    · exact ⟨show "trusted_root".utf8ByteSize ≤ 128 by decide, hroot⟩
  · obtain ⟨⟨_, _⟩, hname, hrecord⟩ := mem_filterMap.mp hmember
    obtain ⟨trusted, -, rfl⟩ := Option.map_eq_some_iff.mp hrecord
    refine ⟨?_, plain_record trusted⟩
    simp only [mem_cons, Prod.mk.injEq, not_mem_nil, or_false] at hname
    rcases hname with ⟨rfl, -⟩ | ⟨rfl, -⟩ | ⟨rfl, -⟩ <;> dsimp only <;> decide

/-! ### The number of values in a state -/

theorem nodes_header (header : MetadataHeader) : weight 0 1 header.toValue = 6 := by
  simp only [MetadataHeader.toValue, numberValue, weight, weightMembers, Nat.zero_mul]

theorem sum_map_le {α : Type} {l : List α} {f : α → Nat} {n m : Nat} (hf : ∀ a ∈ l, f a ≤ n) (hl : l.length ≤ m) :
    (l.map f).sum ≤ m * n := by
  have h := sum_le_card_nsmul (l.map f) n fun x hx => by
    obtain ⟨a, ha, rfl⟩ := mem_map.mp hx
    exact hf a ha
  rw [length_map, smul_eq_mul] at h
  exact h.trans (Nat.mul_le_mul_right n hl)

variable {assignment : RoleAssignment}

theorem nodes_assignment (h : assignment.keyIds.toList.length ≤ 64) : weight 0 1 assignment.toValue ≤ 67 := by
  have hkeys : weightAll 0 1 (assignment.keyIds.toList.map digestValue) ≤ 64 * 1 := by
    rw [weightAll_eq_sum, map_map]
    exact sum_map_le (fun _ _ => by simp [digestValue, weight]) h
  simp only [RoleAssignment.toValue, numberValue, weight, weightMembers, Nat.zero_mul]
  omega

variable {root : RootMetadata}

theorem length_keyIds_le (h : root.Sound lib) {role : RoleType}
    (hget : root.roles[role]? = some assignment) : assignment.keyIds.toList.length ≤ 64 := by
  obtain ⟨_, hget', hvalid⟩ := h.assigned role
  obtain rfl := Option.mem_unique hget hget'
  simp only [RoleAssignment.validate, rejectIf_eq_ok, not_or, Bool.not_eq_false] at hvalid
  have hsub : assignment.keyIds.toList ⊆ root.keys.toList.map Prod.fst := by
    intro keyId hkeyId
    have hcontains := all_eq_true.mp hvalid.2.2.2 keyId hkeyId
    rw [Std.ExtTreeMap.contains_eq_isSome_getElem?, Option.isSome_iff_exists] at hcontains
    obtain ⟨key, hkey⟩ := hcontains
    exact mem_map.mpr ⟨(keyId, key), mem_toList.mpr hkey, rfl⟩
  have hnodup : assignment.keyIds.toList.Nodup :=
    Std.ExtTreeSet.distinct_toList.imp fun hne heq => hne (Std.compare_eq_iff_eq.mpr heq)
  have hle := (hnodup.subperm hsub).length_le
  rw [length_map] at hle
  exact hle.trans h.keyCount

theorem nodes_root (h : root.Sound lib) : weight 0 1 root.toValue ≤ 469 := by
  have hkeys : weightMembers 0 1 (root.keys.toList.map fun entry => (entry.1.asStr, entry.2.toValue)) ≤ 64 * 3 := by
    rw [weightMembers_eq_sum, map_map]
    refine sum_map_le (fun entry _ => ?_) h.keyCount
    simp [weightMember, UpdatePublicKey.toValue, weight, weightMembers]
  have hroles :
      weightMembers 0 1 (root.roles.toList.map fun entry => (entry.1.asStr, entry.2.toValue)) ≤ 4 * 67 := by
    rw [weightMembers_eq_sum, map_map]
    refine sum_map_le (fun _ hentry => ?_) h.roleCount.le
    have hassignment := nodes_assignment (length_keyIds_le h (mem_toList.mp hentry))
    simpa [weightMember] using hassignment
  have hheader := nodes_header root.header
  simp only [RootMetadata.toValue, weight, weightMembers, Nat.zero_mul]
  omega

theorem nodes_state (h : ThresholdPassed lib state.trustedRoot state.trustedRoot.signed .root) :
    weight 0 1 state.toValue ≤ 1000 := by
  have hsignatures : weightAll 0 1 (state.trustedRoot.signatures.map MetadataSignature.toValue) ≤ 64 * 4 := by
    rw [weightAll_eq_sum, map_map]
    refine sum_map_le (fun _ _ => ?_) h.count
    simp [MetadataSignature.toValue, digestValue, weight, weightMembers]
  have hroot : weight 0 1 state.trustedRoot.toValue ≤ 727 := by
    have hsigned : weight 0 1 (RoleMetadata.toValue state.trustedRoot.signed) ≤ 469 := nodes_root h.sound
    simp only [SignedEnvelope.toValue, weight, weightMembers, Nat.zero_mul]
    omega
  have hrecords : weightMembers 0 1
      ([("targets", state.targets), ("snapshot", state.snapshot), ("timestamp", state.timestamp)].filterMap
        fun entry => entry.2.map fun trusted => (entry.1, trusted.toValue)) ≤ 3 * 3 := by
    rw [weightMembers_eq_sum]
    refine sum_map_le (fun _ hmember => ?_) (length_filterMap_le _ _)
    obtain ⟨⟨_, _⟩, -, hrecord⟩ := mem_filterMap.mp hmember
    obtain ⟨_, -, rfl⟩ := Option.map_eq_some_iff.mp hrecord
    simp [weightMember, TrustedMetadata.toValue, numberValue, digestValue, weight, weightMembers]
  simp only [toValue, weight, weightMembers_append]
  simp only [numberValue, weight, weightMembers, Nat.zero_mul]
  omega

/-! ### The encoder and the strict reader -/

variable {seen : Seen}

theorem addNode_ok {depth : Nat} (hdepth : depth ≤ maxJsonDepth) (hnodes : seen.nodes + 1 ≤ maxJsonNodes) :
    addNode depth seen = .ok { seen with nodes := seen.nodes + 1 } := by
  simp only [addNode, bind_eq_ok, exists_unit, rejectIf_eq_ok, not_lt, pure_eq_ok]
  exact ⟨hdepth, hnodes, trivial⟩

theorem addString_ok {value : String} (hlength : value.utf8ByteSize ≤ maxStringBytes * 4)
    (hbytes : seen.stringBytes + value.utf8ByteSize ≤ maxMetadataBytes) :
    addString value seen = .ok { seen with stringBytes := seen.stringBytes + value.utf8ByteSize } := by
  simp only [addString, bind_eq_ok, exists_unit, rejectIf_eq_ok, not_lt, pure_eq_ok]
  exact ⟨hlength, hbytes, trivial⟩

mutual

theorem validateBounds_ok {length levels depth : Nat} {seen : Seen} (hlength : length ≤ maxStringBytes * 4)
    (hdepth : depth + levels ≤ maxJsonDepth) : ∀ {value : Json}, Plain length levels value →
      seen.nodes + weight 0 1 value ≤ maxJsonNodes → seen.stringBytes + weight 1 0 value ≤ maxMetadataBytes →
      validateBounds depth seen value = .ok ⟨seen.nodes + weight 0 1 value, seen.stringBytes + weight 1 0 value⟩
  | .number (.posInt _), _, hnodes, _ => addNode_ok ((Nat.le_add_right ..).trans hdepth) hnodes
  | .string value, h, hnodes, hbytes => by
    simp only [weight, Nat.zero_mul, Nat.one_mul, zero_add, add_zero] at hnodes hbytes ⊢
    simp only [validateBounds]
    exact bind_eq_ok.mpr ⟨_, addNode_ok (by omega) hnodes, addString_ok (h.trans hlength) hbytes⟩
  | .array values, h, hnodes, hbytes => by
    cases levels with
    | zero => exact h.elim
    | succ =>
      simp only [weight, zero_add, ← add_assoc] at hnodes hbytes ⊢
      simp only [validateBounds]
      exact bind_eq_ok.mpr ⟨_, addNode_ok (by omega) (by omega),
        validateBoundsAll_ok hlength (by omega) h hnodes hbytes⟩
  | .object members, h, hnodes, hbytes => by
    cases levels with
    | zero => exact h.elim
    | succ =>
      simp only [weight, zero_add, ← add_assoc] at hnodes hbytes ⊢
      simp only [validateBounds]
      exact bind_eq_ok.mpr ⟨_, addNode_ok (by omega) (by omega),
        validateBoundsMembers_ok hlength (by omega) h hnodes hbytes⟩

theorem validateBoundsAll_ok {length levels depth : Nat} {seen : Seen} (hlength : length ≤ maxStringBytes * 4)
    (hdepth : depth + levels ≤ maxJsonDepth) : ∀ {values : List Json}, PlainAll length levels values →
      seen.nodes + weightAll 0 1 values ≤ maxJsonNodes → seen.stringBytes + weightAll 1 0 values ≤ maxMetadataBytes →
      validateBoundsAll depth seen values =
        .ok ⟨seen.nodes + weightAll 0 1 values, seen.stringBytes + weightAll 1 0 values⟩
  | [], _, _, _ => rfl
  | value :: values, h, hnodes, hbytes => by
    simp only [weightAll, ← add_assoc] at hnodes hbytes ⊢
    refine bind_eq_ok.mpr ⟨_, validateBounds_ok hlength hdepth h.1 (by omega) (by omega), ?_⟩
    exact validateBoundsAll_ok hlength hdepth h.2 hnodes hbytes

theorem validateBoundsMembers_ok {length levels depth : Nat} {seen : Seen} (hlength : length ≤ maxStringBytes * 4)
    (hdepth : depth + levels ≤ maxJsonDepth) : ∀ {members : List (String × Json)}, PlainMembers length levels members →
      seen.nodes + weightMembers 0 1 members ≤ maxJsonNodes →
      seen.stringBytes + weightMembers 1 0 members ≤ maxMetadataBytes → validateBoundsMembers depth seen members =
        .ok ⟨seen.nodes + weightMembers 0 1 members, seen.stringBytes + weightMembers 1 0 members⟩
  | [], _, _, _ => rfl
  | (key, value) :: members, h, hnodes, hbytes => by
    simp only [weightMembers, Nat.zero_mul, Nat.one_mul, zero_add, ← add_assoc] at hnodes hbytes ⊢
    refine bind_eq_ok.mpr ⟨_, addString_ok (h.1.trans hlength) (by omega), ?_⟩
    refine bind_eq_ok.mpr ⟨_, validateBounds_ok hlength hdepth h.2.1 (by simp only; omega) (by simp only; omega), ?_⟩
    exact validateBoundsMembers_ok hlength hdepth h.2.2 hnodes hbytes

end

theorem encoded_state (h : ThresholdPassed lib state.trustedRoot state.trustedRoot.signed .root) :
    (render lib.showFloat (canonicalizeValue state.toValue)).length ≤ maxTrustStateBytes ∧
      ∃ seen, validateBounds 0 ⟨0, 0⟩ (canonicalizeValue state.toValue) = .ok seen := by
  have hplain := plain_sortKeys (plain_state h)
  have hnodes := (weight_sortKeys_le 0 1 state.toValue).trans (nodes_state h)
  have hstrings := weight_le_nodes (a := 1) (b := 0) (c := 256) (by decide) hplain
  have hprinted := weight_le_nodes (a := 6) (b := 24) (c := 1560) (by decide) hplain
  have hrender := length_render_le lib.showFloat hplain
  have hnodes' : (0 : Nat) + weight 0 1 state.toValue.sortKeys ≤ maxJsonNodes := by
    simp only [maxJsonNodes]
    omega
  have hstrings' : (0 : Nat) + weight 1 0 state.toValue.sortKeys ≤ maxMetadataBytes := by
    simp only [maxMetadataBytes]
    omega
  refine ⟨?_, _, validateBounds_ok (by decide) (by decide) hplain hnodes' hstrings'⟩
  simp only [canonicalizeValue, maxTrustStateBytes]
  omega

/-- The serialization library reads the value it printed, and the state it took the value from. -/
structure Serde.RoundTrips (serde : Serde) (lib : Libraries) (state : TrustedState) : Prop where
  fromSlice : serde.fromSlice (render lib.showFloat (canonicalizeValue state.toValue)) =
    .ok (canonicalizeValue state.toValue)
  fromValue : serde.fromValue (canonicalizeValue state.toValue) = some state

theorem thresholdPassed_of_validateStructure (h : state.validateStructure lib = .ok ()) :
    ThresholdPassed lib state.trustedRoot state.trustedRoot.signed .root := by
  simp only [validateStructure, bind_eq_ok, exists_unit] at h
  exact thresholdPassed h.2.2.1

theorem decode_canonicalBytes {serde : Serde} (h : state.validateStructure lib = .ok ())
    (hserde : serde.RoundTrips lib state) :
    ∃ bytes, state.canonicalBytes lib = .ok bytes ∧ decode lib serde bytes = .ok state := by
  obtain ⟨hlength, seen, hseen⟩ := encoded_state (thresholdPassed_of_validateStructure h)
  have hencoded : canonicalBytes lib state.toValue =
      .ok (render lib.showFloat (canonicalizeValue state.toValue)) := by
    simp only [canonicalBytes, bind_eq_ok, exists_unit, rejectIf_eq_ok, not_lt, pure_eq_ok]
    exact ⟨hlength, trivial⟩
  have hnonempty : render lib.showFloat (canonicalizeValue state.toValue) ≠ [] := cons_ne_nil _ _
  refine ⟨_, bind_eq_ok.mpr ⟨(), h, hencoded⟩, bind_eq_ok.mpr ⟨state, ?_, bind_eq_ok.mpr ⟨(), h, rfl⟩⟩⟩
  simp only [decodeCanonical, strictDecode, bind_eq_ok, exists_unit, rejectIf_eq_ok, not_or, not_lt, okOr_eq_ok,
    pure_eq_ok, ne_eq, not_not]
  exact ⟨⟨hnonempty, hlength⟩, _, ⟨_, hserde.fromSlice, seen, hseen, rfl⟩, state, hserde.fromValue, _,
    hencoded, rfl, rfl⟩

/-! ### The state after an acceptance -/

section
variable {state next : TrustedState} {bundle : ReleaseBundle} {targetPath : String} {now : U64}
  {target : TargetDescription} {timestamp snapshot targets : TrustedMetadata} {release : VerifiedRelease}

/-- The structure of a root and the check under its own keys. -/
def SelfSigned (lib : Libraries) (root : SignedEnvelope RootMetadata) : Prop :=
  root.signed.validateStructure lib = .ok () ∧ verifyRoleThreshold lib root root.signed .root true = .ok ()

theorem validateStructure_eq_ok : state.validateStructure lib = .ok () ↔ state.schemaVersion = updateSchemaVersion ∧
      SelfSigned lib state.trustedRoot ∧ ∀ metadata ∈ state.records, metadata.version ≠ 0 := by
  simp only [validateStructure, bind_eq_ok, exists_unit, rejectIf_eq_ok, ne_eq, not_not, forEach_eq_ok,
    SelfSigned, and_assoc]

theorem selfSigned_of_rotations {roots : List (SignedEnvelope RootMetadata)} (hs : SelfSigned lib state.trustedRoot)
    (h : foldEach (fun next root => rotateRoot lib next now root) state roots = .ok next) :
    SelfSigned lib next.trustedRoot := by
  refine foldEach_keeps (P := fun next => SelfSigned lib next.trustedRoot) ?_ h hs
  intro _ _ s t hrotate _
  obtain ⟨rfl, -, hstructure, hself⟩ := rotateRoot_spec hrotate
  exact ⟨hstructure, hself⟩

variable {T : Type} {version : U64} {trusted : TrustedMetadata}

theorem version_ne_zero [RoleMetadata T] {envelope : SignedEnvelope T}
    (h : TrustedMetadata.fromEnvelope lib version envelope = .ok trusted) (hversion : version ≠ 0) :
    trusted.version ≠ 0 := by
  obtain ⟨_, -, rfl⟩ := fromEnvelope_eq_ok.mp h
  exact hversion

theorem Accepts.validateStructure (h : Accepts lib state bundle targetPath now next target timestamp snapshot targets) :
    (accepted next targetPath target timestamp snapshot targets).nextState.validateStructure lib = .ok () := by
  obtain ⟨hschema, hself, -⟩ := validateStructure_eq_ok.mp h.valid
  obtain ⟨hnext, -⟩ := rotations_spec h.rotated
  have htimestamp := version_ne_zero h.timestampRecord (header_of_validateAt h.timestampAt).1
  have hsnapshot := version_ne_zero h.snapshotRecord (header_of_validateAt h.snapshotAt).1
  have htargets := version_ne_zero h.targetsRecord (header_of_validateAt h.targetsAt).1
  have hself' := selfSigned_of_rotations hself h.rotated
  refine validateStructure_eq_ok.mpr ⟨?_, hself', ?_⟩
  · rw [show (accepted next targetPath target timestamp snapshot targets).nextState.schemaVersion =
      next.schemaVersion from rfl, hnext]
    exact hschema
  · intro _ hmetadata
    simp only [records, accepted, filterMap_cons, id_eq, filterMap_nil, mem_cons,
      not_mem_nil, or_false] at hmetadata
    rcases hmetadata with rfl | rfl | rfl
    · exact htargets
    · exact hsnapshot
    · exact htimestamp

/-! ### The same bundle again -/

theorem checkRecord_self [RoleMetadata T] {envelope : SignedEnvelope T} {role : RoleType}
    (h : TrustedMetadata.fromEnvelope lib version envelope = .ok trusted) :
    checkRecord lib (some trusted) version envelope role = .ok () := by
  have hfrom := h
  obtain ⟨_, -, rfl⟩ := fromEnvelope_eq_ok.mp h
  simp only [checkRecord, TrustedMetadata.checkNoRollback, bind_eq_ok, exists_unit, rejectIf_eq_ok, if_true, hfrom,
    Except.ok.injEq, exists_eq_left', ne_eq, not_true, not_false_eq_true, and_true]
  exact BitVec.lt_irrefl _

theorem Accepts.again (h : Accepts lib state bundle targetPath now next target timestamp snapshot targets) :
    (accepted next targetPath target timestamp snapshot targets).nextState.verifyReleaseMetadata lib
      { bundle with rootRotations := [] } targetPath now =
      .ok (accepted next targetPath target timestamp snapshot targets) :=
  verifyReleaseMetadata_eq_ok.mpr ⟨_, target, timestamp, snapshot, targets,
    { h with
      valid := h.validateStructure
      rotations := Nat.zero_le _
      rotated := rfl
      timestampFresh := checkRecord_self h.timestampRecord
      snapshotFresh := checkRecord_self h.snapshotRecord
      targetsFresh := checkRecord_self h.targetsRecord }, rfl⟩

theorem rotations_refused (h : state.verifyReleaseMetadata lib bundle targetPath now = .ok release)
    (hrotations : bundle.rootRotations ≠ []) (release' : VerifiedRelease) :
    release.nextState.verifyReleaseMetadata lib bundle targetPath now ≠ .ok release' := by
  intro hagain
  obtain ⟨next, target, timestamp, snapshot, targets, haccepts, rfl⟩ := verifyReleaseMetadata_eq_ok.mp h
  obtain ⟨_, _, _, _, _, haccepts', -⟩ := verifyReleaseMetadata_eq_ok.mp hagain
  obtain ⟨hnext, hchain⟩ := rotations_spec haccepts.rotated
  obtain ⟨-, hchain'⟩ := rotations_spec haccepts'.rotated
  cases hroots : bundle.rootRotations with
  | nil => exact hrotations hroots
  | cons first rest =>
    rw [hroots] at hnext hchain hchain'
    have hlast : next.trustedRoot = rest.getLastD first := by rw [hnext, getLastD_cons]
    have hle := (rootNotBefore_rotations (isChain_cons_cons.mp hchain).2).1
    have hversion : _ = next.trustedRoot.signed.header.version.toNat + 1 := (isChain_cons_cons.mp hchain').1.version
    rw [hlast] at hversion
    rw [BitVec.le_def] at hle
    omega

end

/-- **The state is reloadable, and a bundle can be applied again exactly if it carries no rotation**: the state that
an acceptance leaves is what a decode of its canonical bytes gives, and without a root rotation the same call succeeds
from there with the same answer. -/
theorem reload_and_reapply {serde : Serde} {state : TrustedState} {bundle : ReleaseBundle} {targetPath : String}
    {now : U64} {release : VerifiedRelease}
    (h : state.verifyReleaseMetadata lib bundle targetPath now = .ok release)
    (hserde : serde.RoundTrips lib release.nextState) :
    release.nextState.validateStructure lib = .ok () ∧
      (∃ bytes, release.nextState.canonicalBytes lib = .ok bytes ∧
        TrustedState.decode lib serde bytes = .ok release.nextState) ∧
      (release.nextState.verifyReleaseMetadata lib bundle targetPath now = .ok release ↔
        bundle.rootRotations = []) := by
  have hrefused : release.nextState.verifyReleaseMetadata lib bundle targetPath now = .ok release →
      bundle.rootRotations = [] := fun hagain => not_imp_comm.mp (rotations_refused h · release) (not_not.mpr hagain)
  obtain ⟨_, _, _, _, _, haccepts, rfl⟩ := verifyReleaseMetadata_eq_ok.mp h
  refine ⟨haccepts.validateStructure, decode_canonicalBytes haccepts.validateStructure hserde, hrefused,
    fun hrotations => ?_⟩
  have hbundle : bundle = { bundle with rootRotations := [] } := by rw [← hrotations]
  rw [hbundle]
  exact haccepts.again

/-- A library that reads one state from any bytes. -/
def plainSerde (state : TrustedState) : Serde where
  fromSlice _ := .ok (canonicalizeValue state.toValue)
  fromValue _ := some state

/-- The state after the rotation takes the bundle again once the rotation is left out. -/
theorem reload_and_reapply_plain :
    ∃ (state : TrustedState) (release : VerifiedRelease), state.trustedRoot = plainRoot 2 ∧
      state.verifyReleaseMetadata plainLibraries (plainBundle []) "a" 12 = .ok release ∧
      release.nextState.validateStructure plainLibraries = .ok () ∧
      (∃ bytes, release.nextState.canonicalBytes plainLibraries = .ok bytes ∧
        TrustedState.decode plainLibraries (plainSerde release.nextState) bytes = .ok release.nextState) ∧
      release.nextState.verifyReleaseMetadata plainLibraries (plainBundle []) "a" 12 = .ok release := by
  obtain ⟨_, hrelease⟩ := exists_rotation_accepted
  obtain ⟨next, target, timestamp, snapshot, targets, haccepts, rfl⟩ := verifyReleaseMetadata_eq_ok.mp hrelease
  have hserde : (plainSerde (accepted next rotation.targetPath target timestamp snapshot targets).nextState).RoundTrips
      plainLibraries (accepted next rotation.targetPath target timestamp snapshot targets).nextState := ⟨rfl, rfl⟩
  obtain ⟨hvalid, hdecode, hagain⟩ := reload_and_reapply haccepts.again hserde
  obtain ⟨hnext, -⟩ := rotations_spec haccepts.rotated
  exact ⟨(accepted next rotation.targetPath target timestamp snapshot targets).nextState, _,
    congrArg trustedRoot hnext, haccepts.again, hvalid, hdecode, hagain.mpr rfl⟩

/-- The bundle with a rotation is accepted, and refused by the state it leads to. -/
theorem rotation_not_reapplied :
    ∃ release, plainState.validateStructure plainLibraries = .ok () ∧
      plainState.verifyReleaseMetadata plainLibraries (plainBundle [plainRoot 2]) "a" 12 = .ok release ∧
      ∀ release', release.nextState.verifyReleaseMetadata plainLibraries (plainBundle [plainRoot 2]) "a" 12 ≠
        .ok release' := by
  obtain ⟨release, hrelease⟩ := exists_rotation_accepted
  obtain ⟨_, _, _, _, _, haccepts, -⟩ := verifyReleaseMetadata_eq_ok.mp hrelease
  exact ⟨release, haccepts.valid, hrelease, rotations_refused hrelease (cons_ne_nil _ _)⟩

end Runtrue.Update
