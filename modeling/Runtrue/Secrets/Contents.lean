import Runtrue.Secrets.Vault

/-!
# The vault is a versioned map

What the vault is for: `Contents` maps an identity to its status and to the plaintexts of its versions, oldest
first. `Refines` connects a vault to its contents: the versions of a record are numbered from one without a gap, and
each seals the plaintext of its number under the current master key. Every operation keeps the refinement, with the
contents that `stored` reads off the history of successful calls; a rotation rewraps every version, and a reload
gives back the vault without its leases and fences.
-/

namespace Runtrue.Secrets

open Fallible SecretVault BTreeMap List Std.ExtTreeMap Option
open Function (update update_of_ne)

/-! ### Version numbers as map keys -/

theorem compare_u64_eq_lt {a b : U64} : compare a b = .lt ↔ a < b := by
  show compareOfLessAndEq a b = .lt ↔ _
  exact compareOfLessAndEq_eq_lt

def versionNumbers (n : Nat) : List U64 := (List.range n).map fun i => BitVec.ofNat 64 (i + 1)

theorem toNat_ofNat_succ {i n : Nat} (hi : i < n) (hn : n < 2 ^ 64) : (BitVec.ofNat 64 (i + 1)).toNat = i + 1 := by
  rw [BitVec.toNat_ofNat, Nat.mod_eq_of_lt (by omega)]

variable {n : Nat} {v : U64}

theorem mem_versionNumbers (hn : n < 2 ^ 64) : v ∈ versionNumbers n ↔ 0 < v.toNat ∧ v.toNat ≤ n := by
  simp only [versionNumbers, List.mem_map, mem_range]
  constructor
  · rintro ⟨_, hi, rfl⟩
    rw [toNat_ofNat_succ hi hn]
    omega
  · rintro ⟨_, _⟩
    refine ⟨v.toNat - 1, by omega, BitVec.eq_of_toNat_eq ?_⟩
    rw [toNat_ofNat_succ (by omega : v.toNat - 1 < n) hn]
    omega

theorem pairwise_versionNumbers (hn : n < 2 ^ 64) : (versionNumbers n).Pairwise (· < ·) := by
  refine pairwise_map.mpr (pairwise_lt_range.imp_of_mem fun {i j} hi hj hij => ?_)
  rw [BitVec.lt_def, toNat_ofNat_succ (mem_range.mp hi) hn, toNat_ofNat_succ (mem_range.mp hj) hn]
  omega

theorem keys_eq_versionNumbers {V : Type} {m : BTreeMap U64 V} (hn : n < 2 ^ 64)
    (hkeys : ∀ v : U64, v ∈ m ↔ 0 < v.toNat ∧ v.toNat ≤ n) : m.keys = versionNumbers n := by
  have hordered : m.keys.Pairwise (· < ·) := ordered_keys.imp compare_u64_eq_lt.mp
  have hnumbers := pairwise_versionNumbers hn
  have hnodup : ∀ {l : List U64}, l.Pairwise (· < ·) → l.Nodup := by
    intro l hl
    refine hl.imp fun {a b} hlt heq => ?_
    rw [heq] at hlt
    exact BitVec.lt_irrefl b hlt
  refine Perm.eq_of_pairwise (fun a b _ _ hab hba => ?_) hordered hnumbers
    ((perm_ext_iff_of_nodup (hnodup hordered) (hnodup hnumbers)).mpr fun v => ?_)
  · exact absurd (BitVec.lt_trans hab hba) (BitVec.lt_irrefl a)
  · rw [Std.ExtTreeMap.mem_keys, hkeys, mem_versionNumbers hn]

theorem getLast_versionNumbers (hpos : 0 < n) : (versionNumbers n).getLast? = some (BitVec.ofNat 64 n) := by
  obtain ⟨_, rfl⟩ := Nat.exists_eq_succ_of_ne_zero (Nat.pos_iff_ne_zero.mp hpos)
  rw [versionNumbers, range_succ, map_append, map_singleton, getLast?_concat]

/-! ### Contents -/

/-- A secret: its status and the plaintexts of its versions, oldest first. -/
structure Secret where
  status : SecretStatus
  versions : List (List UInt8)
deriving DecidableEq

abbrev Contents := SecretIdentity → Option Secret

/-- What a successful call does to the contents. -/
def Contents.apply (c : Contents) : Operation → Reply → Contents
  | .createSecret identity plaintext _, .stored (.ok _) => Function.update c identity (some ⟨.active, [plaintext]⟩)
  | .addVersion identity plaintext _, .stored (.ok _) =>
    Function.update c identity
      ((c identity).map fun secret => { secret with versions := secret.versions ++ [plaintext] })
  | .tombstone identity, .stored (.ok _) =>
    Function.update c identity ((c identity).map fun secret => { secret with status := .tombstoned })
  | _, _ => c

/-- The contents after a history. -/
def stored : List Event → Contents
  | [] => fun _ => none
  | e :: h => (stored h).apply e.op e.result

/-! ### Refinement -/

section
variable (aead : Aead)

/-- A record holds a secret: its versions are numbered from one and seal the plaintexts in order. -/
structure HoldsSecret (masterKey : Key) (kekId : String) (identity : SecretIdentity) (record : SecretRecord)
    (secret : Secret) : Prop where
  status : record.status = secret.status
  nonempty : 0 < secret.versions.length
  bound : secret.versions.length < 2 ^ 64
  numbered : ∀ v : U64, v ∈ record.versions ↔ 0 < v.toNat ∧ v.toNat ≤ secret.versions.length
  sealed : ∀ {v : U64} {encrypted : EncryptedSecretVersion}, record.versions[v]? = some encrypted →
    ∃ plaintext, secret.versions[v.toNat - 1]? = some plaintext ∧
      Seals aead masterKey kekId identity v plaintext encrypted

/-- The secrets of a vault have these contents. -/
structure Refines (s : SecretVault) (c : Contents) : Prop where
  kek : validateComponent "kek_id" s.kekId = .ok ()
  missing : ∀ {identity : SecretIdentity}, s.secrets[identity]? = none → c identity = none
  held : ∀ {identity : SecretIdentity} {record : SecretRecord}, s.secrets[identity]? = some record →
    identity.validate = .ok () ∧ ∃ secret, c identity = some secret ∧
      HoldsSecret aead s.masterKey s.kekId identity record secret

end

variable {aead : Aead} {s t : SecretVault} {c : Contents} {identity : SecretIdentity} {record : SecretRecord}
  {secret : Secret} {masterKey : Key} {kekId : String}

theorem HoldsSecret.currentVersion (h : HoldsSecret aead masterKey kekId identity record secret) :
    currentVersion record = .ok (BitVec.ofNat 64 secret.versions.length) := by
  rw [Secrets.currentVersion, keys_eq_versionNumbers h.bound h.numbered, getLast_versionNumbers h.nonempty]
  rfl

theorem HoldsSecret.metadata (h : HoldsSecret aead masterKey kekId identity record secret) :
    ∃ m, metadata identity record = .ok m := by
  simp only [Secrets.metadata, bind_eq_ok, pure_eq_ok]
  exact ⟨_, _, h.currentVersion, rfl⟩

variable {encrypted : EncryptedSecretVersion}

theorem HoldsSecret.decrypt (hinverts : aead.Inverts) (h : HoldsSecret aead masterKey kekId identity record secret)
    (hget : record.versions[v]? = some encrypted) :
    ∃ plaintext, secret.versions[v.toNat - 1]? = some plaintext ∧ encrypted.decrypt aead masterKey = .ok plaintext := by
  obtain ⟨plaintext, hplaintext, hseals⟩ := h.sealed hget
  exact ⟨plaintext, hplaintext, EncryptedSecretVersion.decrypt_of_seals hinverts hseals⟩

theorem Refines.same (h : Refines aead s c) (hkek : t.kekId = s.kekId) (hkey : t.masterKey = s.masterKey)
    (hsecrets : t.secrets = s.secrets) : Refines aead t c := by
  refine ⟨by rw [hkek]; exact h.kek, fun hget => h.missing (by rwa [hsecrets] at hget), fun hget => ?_⟩
  rw [hsecrets] at hget
  rw [hkek, hkey]
  exact h.held hget

theorem Refines.insert (h : Refines aead s c) (hkek : t.kekId = s.kekId) (hkey : t.masterKey = s.masterKey)
    (hsecrets : t.secrets = s.secrets.insert identity record) (hvalid : identity.validate = .ok ())
    (hrecord : HoldsSecret aead s.masterKey s.kekId identity record secret) :
    Refines aead t (update c identity (some secret)) := by
  refine ⟨by rw [hkek]; exact h.kek, fun {other} hget => ?_, fun {other} {record'} hget => ?_⟩
  · rw [hsecrets, get_insert] at hget
    split at hget
    · cases hget
    · rename_i hne
      rw [update_of_ne (Ne.symm hne)]
      exact h.missing hget
  · rw [hsecrets] at hget
    rw [hkek, hkey]
    rcases get_insert_eq_some.mp hget with ⟨rfl, rfl⟩ | ⟨hne, hold⟩
    · exact ⟨hvalid, secret, Function.update_self .., hrecord⟩
    · rw [update_of_ne (Ne.symm hne)]
      exact h.held hold

/-! ### Creation, new versions and tombstones -/

variable {plaintext : List UInt8}

theorem holdsSecret_create (hseals : Seals aead masterKey kekId identity 1 plaintext encrypted) :
    HoldsSecret aead masterKey kekId identity
      ⟨.active, (∅ : BTreeMap U64 EncryptedSecretVersion).insert 1 encrypted⟩ ⟨.active, [plaintext]⟩ := by
  have hlength : (Secret.mk .active [plaintext]).versions.length = 1 := rfl
  refine ⟨rfl, by rw [hlength]; decide, by rw [hlength]; decide, fun v => ?_, fun {v} {encrypted'} hget => ?_⟩
  · rw [mem_insert, Std.LawfulEqCmp.compare_eq_iff_eq]
    have hempty : v ∉ (∅ : BTreeMap U64 EncryptedSecretVersion) := not_mem_empty
    constructor
    · rintro (rfl | hmem)
      · rw [hlength]
        decide
      · exact absurd hmem hempty
    · rintro ⟨hpos, hle⟩
      refine .inl (BitVec.eq_of_toNat_eq ?_)
      have hone : v.toNat = 1 := Nat.le_antisymm hle hpos
      exact hone.symm
  · rcases get_insert_eq_some.mp hget with ⟨rfl, rfl⟩ | ⟨-, hold⟩
    · exact ⟨plaintext, rfl, hseals⟩
    · simp at hold

variable {version : U64}

section
variable (h : HoldsSecret aead masterKey kekId identity record secret)
include h

theorem HoldsSecret.addVersion (hversion : version.toNat = secret.versions.length + 1)
    (hseals : Seals aead masterKey kekId identity version plaintext encrypted) :
    HoldsSecret aead masterKey kekId identity { record with versions := record.versions.insert version encrypted }
      { secret with versions := secret.versions ++ [plaintext] } := by
  have hlength : (secret.versions ++ [plaintext]).length = secret.versions.length + 1 := by simp
  refine ⟨h.status, by rw [hlength]; omega, by rw [hlength, ← hversion]; exact version.isLt, fun v => ?_,
    fun {v} {encrypted'} hget => ?_⟩
  · rw [mem_insert, Std.LawfulEqCmp.compare_eq_iff_eq, h.numbered, hlength]
    constructor
    · rintro (rfl | hold)
      · omega
      · omega
    · intro _
      by_cases hlast : v.toNat = secret.versions.length + 1
      · exact .inl (BitVec.eq_of_toNat_eq (hversion.trans hlast.symm))
      · exact .inr (by omega)
  · rcases get_insert_eq_some.mp hget with ⟨rfl, rfl⟩ | ⟨-, hold⟩
    · refine ⟨plaintext, ?_, hseals⟩
      rw [hversion]
      simp
    · obtain ⟨plaintext', hplaintext', hseals'⟩ := h.sealed hold
      exact ⟨plaintext', getElem?_append_left (List.getElem?_eq_some_iff.mp hplaintext').1 ▸ hplaintext', hseals'⟩

theorem HoldsSecret.tombstone :
    HoldsSecret aead masterKey kekId identity { record with status := .tombstoned }
      { secret with status := .tombstoned } :=
  ⟨rfl, h.nonempty, h.bound, h.numbered, h.sealed⟩

end

theorem nextVersion_spec (h : Refines aead s c) {draws : Draws}
    (hnext : s.nextVersion aead identity plaintext draws = .ok (record, version, encrypted)) :
    s.secrets[identity]? = some record ∧ record.status = .active ∧ identity.validate = .ok () ∧
      ∃ secret, c identity = some secret ∧ HoldsSecret aead s.masterKey s.kekId identity record secret ∧
        version.toNat = secret.versions.length + 1 ∧
        Seals aead s.masterKey s.kekId identity version plaintext encrypted := by
  simp only [nextVersion, requireActive, bind_eq_ok, exists_unit, okOr_eq_ok, rejectIf_eq_ok, pure_eq_ok,
    Prod.mk.injEq] at hnext
  obtain ⟨hvalid, record', hget, hactive, _, hcurrent, next, hadd, _, hencrypt, rfl, rfl, rfl⟩ := hnext
  obtain ⟨-, secret, hc, hholds⟩ := h.held hget
  have hversion : next.toNat = secret.versions.length + 1 := by
    obtain rfl := Except.ok.inj (hholds.currentVersion.symm.trans hcurrent)
    rw [Fixed.checkedAdd_eq_some] at hadd
    rw [hadd, BitVec.toNat_ofNat, Nat.mod_eq_of_lt hholds.bound]
    rfl
  refine ⟨hget, ?_, hvalid, secret, hc, hholds, hversion, EncryptedSecretVersion.encrypt_spec hencrypt⟩
  cases hstatus : record'.status with
  | active => rfl
  | tombstoned => exact absurd hstatus hactive

theorem addVersion_cases (h : Refines aead s c) (identity : SecretIdentity) (plaintext : List UInt8) (draws : Draws) :
    (∃ error, s.addVersion aead identity plaintext draws = (.error error, s)) ∨
      ∃ record encrypted version secret m, s.secrets[identity]? = some record ∧ record.status = .active ∧
        c identity = some secret ∧ Refines aead (s.addVersion aead identity plaintext draws).2
          (update c identity (some { secret with versions := secret.versions ++ [plaintext] })) ∧
        s.addVersion aead identity plaintext draws = (.ok m, { s with
          secrets := s.secrets.insert identity
            { record with versions := record.versions.insert version encrypted } }) := by
  cases hnext : s.nextVersion aead identity plaintext draws with
  | error error => exact .inl ⟨error, by rw [addVersion, hnext]⟩
  | ok next =>
    obtain ⟨record, version, encrypted⟩ := next
    obtain ⟨hget, hactive, hvalid, secret, hc, hholds, hversion, hseals⟩ := nextVersion_spec h hnext
    have hnew : record.versions.contains version = false := by
      rw [← Bool.not_eq_true, Std.ExtTreeMap.contains_iff_mem, hholds.numbered]
      omega
    have hholds' := hholds.addVersion hversion hseals
    obtain ⟨m, hm⟩ := hholds'.metadata
    refine .inr ⟨record, encrypted, version, secret, m, hget, hactive, hc, ?_, ?_⟩
    · rw [addVersion, hnext]
      exact h.insert rfl rfl rfl hvalid hholds'
    · rw [addVersion, hnext]
      simp only [hnew, Bool.false_eq_true, if_false, hm]

theorem tombstone_cases (h : Refines aead s c) (identity : SecretIdentity) :
    (∃ error, s.tombstone identity = (.error error, s) ∧ s.secrets[identity]? = none) ∨
      ∃ record secret m, s.secrets[identity]? = some record ∧ c identity = some secret ∧
        Refines aead (s.tombstone identity).2
          (update c identity (some { secret with status := .tombstoned })) ∧
        s.tombstone identity = (.ok m, { s with
          secrets := s.secrets.insert identity { record with status := .tombstoned }
          leases := closeLeases s.leases .revoked fun lease => lease.identity = identity }) := by
  cases hget : s.secrets[identity]? with
  | none => exact .inl ⟨_, by rw [tombstone, hget], rfl⟩
  | some record =>
    obtain ⟨hvalid, secret, hc, hholds⟩ := h.held hget
    obtain ⟨m, hm⟩ := hholds.tombstone.metadata
    refine .inr ⟨record, secret, m, rfl, hc, ?_, ?_⟩
    · rw [SecretVault.tombstone, hget]
      exact h.insert rfl rfl rfl hvalid hholds.tombstone
    · rw [SecretVault.tombstone, hget]
      simp only [hm]

/-! ### Key rotation -/

/-- A version keeps its key, or gets the replacement that the list has for it. -/
def VersionRewrapped (replacements : List (SecretIdentity × U64 × WrappedDek)) (identity : SecretIdentity) (v : U64)
    (old new : Option EncryptedSecretVersion) : Prop :=
  (new = old ∧ ∀ wrapped, (identity, v, wrapped) ∉ replacements) ∨
    ∃ encrypted wrapped, old = some encrypted ∧ (identity, v, wrapped) ∈ replacements ∧
      new = some { encrypted with wrappedDek := wrapped }

/-- The second map is the first with the replacements made. -/
structure Rewrapped (replacements : List (SecretIdentity × U64 × WrappedDek))
    (secrets secrets' : BTreeMap SecretIdentity SecretRecord) : Prop where
  missing : ∀ {identity : SecretIdentity}, secrets'[identity]? = none → secrets[identity]? = none
  record : ∀ {identity : SecretIdentity} {record' : SecretRecord}, secrets'[identity]? = some record' →
    ∃ record : SecretRecord, secrets[identity]? = some record ∧ record'.status = record.status ∧
      ∀ v : U64, VersionRewrapped replacements identity v record.versions[v]? record'.versions[v]?

def versionAt (secrets : BTreeMap SecretIdentity SecretRecord) (identity : SecretIdentity) (v : U64) :
    Option EncryptedSecretVersion := secrets[identity]?.bind fun record => record.versions[v]?

variable {secrets : BTreeMap SecretIdentity SecretRecord}

theorem versionAt_eq_some : versionAt secrets identity v = some encrypted ↔
      ∃ record : SecretRecord, secrets[identity]? = some record ∧ record.versions[v]? = some encrypted := by
  simp only [versionAt, bind_eq_some_iff]

variable {wrapped : WrappedDek}

theorem replaceDek_eq_some {secrets next : BTreeMap SecretIdentity SecretRecord} :
    replaceDek secrets identity v wrapped = some next ↔
      ∃ record : SecretRecord, secrets[identity]? = some record ∧ ∃ encrypted, record.versions[v]? = some encrypted ∧
        secrets.insert identity
          { record with versions := record.versions.insert v { encrypted with wrappedDek := wrapped } } = next := by
  simp only [replaceDek, bind, bind_eq_some_iff, pure, Option.some.injEq]

theorem versionAt_replaceDek {secrets next : BTreeMap SecretIdentity SecretRecord}
    (h : replaceDek secrets identity v wrapped = some next) : Rewrapped [(identity, v, wrapped)] secrets next := by
  obtain ⟨record, hget, encrypted, hversion, rfl⟩ := replaceDek_eq_some.mp h
  refine ⟨fun {other} hnone => ?_, fun {other} {record'} hget' => ?_⟩
  · rw [get_insert] at hnone
    split at hnone
    · cases hnone
    · exact hnone
  · rcases get_insert_eq_some.mp hget' with ⟨rfl, rfl⟩ | ⟨hne, hold⟩
    · refine ⟨record, hget, rfl, fun v' => ?_⟩
      by_cases hv : v = v'
      · subst hv
        exact .inr ⟨encrypted, wrapped, hversion, mem_singleton_self _, get_insert_self ..⟩
      · refine .inl ⟨by rw [get_insert, if_neg hv], fun wrapped' hmem => ?_⟩
        simp only [mem_singleton, Prod.mk.injEq] at hmem
        exact hv hmem.2.1.symm
    · refine ⟨record', hold, rfl, fun _ => .inl ⟨rfl, fun _ hmem => ?_⟩⟩
      simp only [mem_singleton, Prod.mk.injEq] at hmem
      exact hne hmem.1.symm

variable {first rest : List (SecretIdentity × U64 × WrappedDek)}

theorem VersionRewrapped.trans {a b c : Option EncryptedSecretVersion}
    (hab : VersionRewrapped first identity v a b) (hbc : VersionRewrapped rest identity v b c) :
    VersionRewrapped (first ++ rest) identity v a c := by
  rcases hab with ⟨rfl, hfirst⟩ | ⟨encrypted, wrapped, rfl, hmem, rfl⟩
  · rcases hbc with ⟨rfl, hrest⟩ | ⟨encrypted, wrapped, rfl, hmem, rfl⟩
    · exact .inl ⟨rfl, fun wrapped hmem => (mem_append.mp hmem).elim (hfirst wrapped) (hrest wrapped)⟩
    · exact .inr ⟨encrypted, wrapped, rfl, mem_append_right _ hmem, rfl⟩
  · rcases hbc with ⟨rfl, -⟩ | ⟨_, wrapped', hsome, hmem', rfl⟩
    · exact .inr ⟨encrypted, wrapped, rfl, mem_append_left _ hmem, rfl⟩
    · cases hsome
      exact .inr ⟨encrypted, wrapped', rfl, mem_append_right _ hmem', rfl⟩

theorem Rewrapped.trans {a b c : BTreeMap SecretIdentity SecretRecord} (hab : Rewrapped first a b)
    (hbc : Rewrapped rest b c) : Rewrapped (first ++ rest) a c := by
  refine ⟨fun hnone => hab.missing (hbc.missing hnone), fun hget => ?_⟩
  obtain ⟨_, hrecord, hstatus, hversions⟩ := hbc.record hget
  obtain ⟨record₀, hrecord₀, hstatus₀, hversions₀⟩ := hab.record hrecord
  exact ⟨record₀, hrecord₀, hstatus.trans hstatus₀, fun v => (hversions₀ v).trans (hversions v)⟩

theorem rewrapped_nil (secrets : BTreeMap SecretIdentity SecretRecord) : Rewrapped [] secrets secrets :=
  ⟨id, fun hget => ⟨_, hget, rfl, fun _ => .inl ⟨rfl, fun _ hmem => nomatch hmem⟩⟩⟩

theorem applyReplacements_spec {replacements : List (SecretIdentity × U64 × WrappedDek)}
    (hpresent : ∀ r ∈ replacements, (versionAt secrets r.1 r.2.1).isSome = true) :
    ∃ secrets', applyReplacements secrets replacements = (.ok (), secrets') ∧
      Rewrapped replacements secrets secrets' := by
  induction replacements generalizing secrets with
  | nil => exact ⟨secrets, rfl, rewrapped_nil secrets⟩
  | cons r rest ih =>
    obtain ⟨identity, v, wrapped⟩ := r
    obtain ⟨hhead, htail⟩ := forall_mem_cons.mp hpresent
    obtain ⟨encrypted, hencrypted⟩ := isSome_iff_exists.mp hhead
    obtain ⟨record, hget, hversion⟩ := versionAt_eq_some.mp hencrypted
    obtain ⟨next, hnext⟩ : ∃ next, replaceDek secrets identity v wrapped = some next :=
      ⟨_, replaceDek_eq_some.mpr ⟨record, hget, encrypted, hversion, rfl⟩⟩
    have hstep := versionAt_replaceDek hnext
    -- No version is lost.
    have hkept : ∀ r ∈ rest, (versionAt next r.1 r.2.1).isSome = true := by
      intro r hr
      obtain ⟨_, hencrypted'⟩ := isSome_iff_exists.mp (htail r hr)
      obtain ⟨_, hget₁, hversion₁⟩ := versionAt_eq_some.mp hencrypted'
      cases hnextGet : next[r.1]? with
      | none =>
        rw [hstep.missing hnextGet] at hget₁
        cases hget₁
      | some =>
        obtain ⟨_, hget₁', -, hversions⟩ := hstep.record hnextGet
        obtain rfl := Option.mem_unique hget₁ hget₁'
        rcases hversions r.2.1 with ⟨hsame, -⟩ | ⟨_, _, -, -, hnew⟩
        · rw [versionAt, hnextGet, bind_some, hsame, hversion₁]
          rfl
        · rw [versionAt, hnextGet, bind_some, hnew]
          rfl
    obtain ⟨secrets', happly, hrewrapped⟩ := ih hkept
    refine ⟨secrets', ?_, hstep.trans hrewrapped⟩
    rw [applyReplacements, hnext]
    exact happly

theorem mem_allVersions :
    (identity, v, encrypted) ∈ allVersions secrets ↔ versionAt secrets identity v = some encrypted := by
  simp only [allVersions, mem_flatMap, List.mem_map, Prod.mk.injEq, Prod.exists, versionAt_eq_some]
  constructor
  · rintro ⟨_, record, hrecord, _, _, hversion, rfl, rfl, rfl⟩
    exact ⟨record, BTreeMap.mem_toList.mp hrecord, BTreeMap.mem_toList.mp hversion⟩
  · rintro ⟨record, hrecord, hversion⟩
    exact ⟨identity, record, BTreeMap.mem_toList.mpr hrecord, v, encrypted, BTreeMap.mem_toList.mpr hversion,
      rfl, rfl, rfl⟩

section
variable {newKekId : String} {newMasterKey : Key} {nonces : Nat → Option Nonce}
  {replacements : List (SecretIdentity × U64 × WrappedDek)}

section
variable (h : s.replacementsFor aead newKekId newMasterKey nonces = .ok replacements)
include h

theorem exists_of_mem_replacementsFor {v : U64} {wrapped : WrappedDek}
    (hmem : (identity, v, wrapped) ∈ replacements) :
    ∃ encrypted random, versionAt s.secrets identity v = some encrypted ∧
      encrypted.rewrap aead s.masterKey newKekId newMasterKey random = .ok wrapped := by
  obtain ⟨⟨⟨_, _, encrypted⟩, i⟩, hentry, hok⟩ := exists_of_mem_mapEach h hmem
  simp only [bind_eq_ok, exists_unit, pure_eq_ok, Prod.mk.injEq] at hok
  obtain ⟨-, _, hwrapped', rfl, rfl, rfl⟩ := hok
  exact ⟨encrypted, nonces i, mem_allVersions.mp (fst_mem_of_mem_zipIdx hentry), hwrapped'⟩

theorem exists_mem_replacementsFor {v : U64}
    {encrypted : EncryptedSecretVersion} (hversion : versionAt s.secrets identity v = some encrypted) :
    ∃ wrapped, (identity, v, wrapped) ∈ replacements := by
  obtain ⟨_, hi⟩ := mem_iff_getElem?.mp (mem_allVersions.mpr hversion)
  obtain ⟨⟨_, _, _⟩, hmem, hok⟩ := exists_mem_of_mapEach h (mk_mem_zipIdx_iff_getElem?.mpr hi)
  simp only [bind_eq_ok, exists_unit, pure_eq_ok, Prod.mk.injEq] at hok
  obtain ⟨-, wrapped', -, rfl, rfl, rfl⟩ := hok
  exact ⟨wrapped', hmem⟩

end

theorem HoldsSecret.rewrapped (hinverts : aead.Inverts) (hnew : validateComponent "kek_id" newKekId = .ok ())
    (hprepared : s.replacementsFor aead newKekId newMasterKey nonces = .ok replacements) {record' : SecretRecord}
    (hget : s.secrets[identity]? = some record)
    (h : HoldsSecret aead s.masterKey s.kekId identity record secret) (hstatus : record'.status = record.status)
    (hversions : ∀ v : U64, VersionRewrapped replacements identity v record.versions[v]? record'.versions[v]?) :
    HoldsSecret aead newMasterKey newKekId identity record' secret := by
  refine ⟨hstatus.trans h.status, h.nonempty, h.bound, fun v => ?_, fun {v} {encrypted'} hget' => ?_⟩
  · rw [← h.numbered, mem_iff_isSome_getElem?, mem_iff_isSome_getElem?]
    rcases hversions v with ⟨hsame, -⟩ | ⟨encrypted, wrapped, hold, -, hnew'⟩
    · rw [hsame]
    · rw [hold, hnew']
      simp
  · rcases hversions v with ⟨hsame, hnone⟩ | ⟨_, wrapped, hold, hmem, hnew'⟩
    · rw [hsame] at hget'
      obtain ⟨wrapped, hmem⟩ := exists_mem_replacementsFor hprepared (versionAt_eq_some.mpr ⟨record, hget, hget'⟩)
      exact absurd hmem (hnone wrapped)
    · obtain rfl := Option.mem_unique hget' hnew'
      obtain ⟨plaintext, hplaintext, hseals⟩ := h.sealed hold
      obtain ⟨_, _, hversion, hrewrap⟩ := exists_of_mem_replacementsFor hprepared hmem
      obtain ⟨_, hrecord₀, hencrypted₀⟩ := versionAt_eq_some.mp hversion
      obtain rfl := Option.mem_unique hget hrecord₀
      obtain rfl := Option.mem_unique hold hencrypted₀
      exact ⟨plaintext, hplaintext, EncryptedSecretVersion.seals_of_rewrap hinverts hnew hseals hrewrap⟩

theorem rotateKek_cases (hinverts : aead.Inverts) (h : Refines aead s c) (newKekId : String) (newMasterKey : Key)
    (nonces : Nat → Option Nonce) : (∃ error, s.rotateKek aead newKekId newMasterKey nonces = (.error error, s)) ∨
      ∃ secrets, s.rotateKek aead newKekId newMasterKey nonces =
          (.ok (), { s with kekId := newKekId, masterKey := newMasterKey, secrets }) ∧
        Refines aead { s with kekId := newKekId, masterKey := newMasterKey, secrets } c := by
  cases hrotation : s.prepareRotation aead newKekId newMasterKey nonces with
  | error error => exact .inl ⟨error, by rw [rotateKek, hrotation]⟩
  | ok replacements =>
    have hprepared := hrotation
    simp only [prepareRotation, bind_eq_ok, exists_unit] at hprepared
    obtain ⟨hnew, -, hprepared⟩ := hprepared
    have hpresent : ∀ r ∈ replacements, (versionAt s.secrets r.1 r.2.1).isSome = true := by
      rintro ⟨_, _, _⟩ hr
      obtain ⟨encrypted, -, hversion, -⟩ := exists_of_mem_replacementsFor hprepared hr
      exact isSome_iff_exists.mpr ⟨encrypted, hversion⟩
    obtain ⟨secrets, happly, hrewrapped⟩ := applyReplacements_spec hpresent
    refine .inr ⟨secrets, by simp only [rotateKek, hrotation, happly], hnew, fun hnone => ?_, fun hget => ?_⟩
    · exact h.missing (hrewrapped.missing hnone)
    · obtain ⟨record, hrecord, hstatus, hversions⟩ := hrewrapped.record hget
      obtain ⟨hvalid, secret, hc, hholds⟩ := h.held hrecord
      exact ⟨hvalid, secret, hc, hholds.rewrapped hinverts hnew hprepared hrecord hstatus hversions⟩

end

/-! ### Reloading -/

theorem HoldsSecret.loadVersions (h : HoldsSecret aead masterKey kekId identity record secret) :
    loadVersions kekId identity (record.versions.toList.map Prod.snd) = .ok record.versions := by
  refine foldEach_rebuild record.versions fun entry hentry built hfree => ?_
  obtain ⟨_, -, hseals⟩ := h.sealed (BTreeMap.mem_toList.mp hentry)
  have hnew : built.contains entry.1 = false := by
    rw [contains_eq_isSome_getElem?, hfree]
    rfl
  simp only [bind_eq_ok, exists_unit, rejectIf_eq_ok, ne_eq, not_not, pure_eq_ok, hseals.ofVersion, Bool.not_eq_true]
  exact ⟨hseals.shape, hseals.ofIdentity, hseals.underKek, hnew, trivial⟩

theorem HoldsSecret.checkContiguous (h : HoldsSecret aead masterKey kekId identity record secret) :
    checkContiguous record.versions = .ok () := by
  rw [SecretVault.checkContiguous, keys_eq_versionNumbers h.bound h.numbered, forEach_eq_ok]
  rintro ⟨_, _⟩ hmem
  have hget := mk_mem_zipIdx_iff_getElem?.mp hmem
  simp only [versionNumbers, List.getElem?_map, map_eq_some_iff] at hget
  obtain ⟨_, hj, rfl⟩ := hget
  obtain ⟨_, hsame⟩ := List.getElem?_eq_some_iff.mp hj
  rw [getElem_range] at hsame
  rw [rejectIf_eq_ok, ← hsame]
  simp

theorem HoldsSecret.loadRecord (hinverts : aead.Inverts) (hvalid : identity.validate = .ok ())
    (h : HoldsSecret aead masterKey kekId identity record secret) :
    loadRecord aead kekId masterKey ⟨identity, record.status, record.versions.toList.map Prod.snd⟩ = .ok record := by
  simp only [SecretVault.loadRecord, bind_eq_ok, exists_unit, rejectIf_eq_ok, pure_eq_ok]
  refine ⟨hvalid, fun hempty => ?_, record.versions, h.loadVersions, h.checkContiguous, ?_, rfl⟩
  · -- A secret has at least one version.
    rw [List.isEmpty_iff, map_eq_nil_iff] at hempty
    have hone : (1 : U64) ∈ record.versions := (h.numbered 1).mpr ⟨by decide, h.nonempty⟩
    obtain ⟨encrypted, hencrypted⟩ := isSome_iff_exists.mp (mem_iff_isSome_getElem?.mp hone)
    have hmem := BTreeMap.mem_toList (p := (1, encrypted)).mpr hencrypted
    rw [hempty] at hmem
    cases hmem
  · rw [forEach_eq_ok]
    intro _ hmem
    obtain ⟨_, hentry, rfl⟩ := List.mem_map.mp hmem
    obtain ⟨_, -, hdecrypt⟩ := h.decrypt hinverts (BTreeMap.mem_toList.mp hentry)
    rw [hdecrypt]
    rfl

theorem Refines.fromSnapshot (hinverts : aead.Inverts) (h : Refines aead s c) :
    fromSnapshot aead s.snapshot s.masterKey = .ok { s with activeFences := ∅, leases := ∅ } := by
  have hsecrets := foldEach_rebuild (g := fun entry : SecretIdentity × SecretRecord =>
      (⟨entry.1, entry.2.status, entry.2.versions.toList.map Prod.snd⟩ : SecretSnapshotRecord))
    (f := fun (secrets : BTreeMap SecretIdentity SecretRecord) (persisted : SecretSnapshotRecord) => do
      let record ← loadRecord aead s.kekId s.masterKey persisted
      rejectIf (secrets.contains persisted.identity) .duplicateSnapshotIdentity
      return secrets.insert persisted.identity record) s.secrets fun entry hentry built hfree => by
    obtain ⟨hvalid, _, -, hholds⟩ := h.held (BTreeMap.mem_toList.mp hentry)
    have hnew : built.contains entry.1 = false := by
      rw [contains_eq_isSome_getElem?, hfree]
      rfl
    simp only [bind_eq_ok, exists_unit, rejectIf_eq_ok, pure_eq_ok, Bool.not_eq_true]
    exact ⟨entry.2, hholds.loadRecord hinverts hvalid, hnew, rfl⟩
  simp only [SecretVault.fromSnapshot, snapshot, bind_eq_ok, exists_unit, rejectIf_eq_ok, pure_eq_ok, ne_eq, not_not]
  exact ⟨trivial, h.kek, s.secrets, hsecrets, rfl⟩

end Runtrue.Secrets
