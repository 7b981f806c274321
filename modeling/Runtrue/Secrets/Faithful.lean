import Runtrue.Secrets.Calls
import Runtrue.Secrets.Contents

/-!
# Runs of the vault keep its contents

`Effect` says once what a call does to the secrets: it leaves them, with the keys, as they are, or it succeeds and
the vault refines the changed contents. From it follow the refinement over whole runs, that failed calls change no
secret, and that a tombstone is for ever.
-/

namespace Runtrue.Secrets

open Fallible SecretVault List Option Function Std.ExtTreeMap

variable {aead : Aead} {s t : SecretVault} {c : Contents} {identity : SecretIdentity} {h : List Event}

/-- The call reported an error. -/
def SecretVault.Reply.failed : Reply → Bool
  | .stored (.error _) | .done (.error _) | .leased (.error _) | .released (.error _) => true
  | _ => false

/-- The later contents have every secret of the earlier ones, and a tombstoned one as it was. -/
def Contents.Extends (earlier later : Contents) : Prop :=
  ∀ identity secret, earlier identity = some secret → ∃ secret', later identity = some secret' ∧
    (secret.status = .tombstoned → secret'.status = .tombstoned) ∧ secret.versions <+: secret'.versions

theorem Contents.extends_refl (c : Contents) : c.Extends c :=
  fun _ _ hc => ⟨_, hc, id, prefix_rfl⟩

theorem Contents.extends_update {secret secret' : Secret} (hc : c identity = some secret)
    (hstatus : secret.status = .tombstoned → secret'.status = .tombstoned)
    (hversions : secret.versions <+: secret'.versions) : c.Extends (update c identity (some secret')) := by
  intro other old hold
  by_cases hsame : other = identity
  · subst hsame
    obtain rfl := Option.mem_unique hc hold
    exact ⟨secret', update_self .., hstatus, hversions⟩
  · exact ⟨old, by rw [update_of_ne hsame]; exact hold, id, prefix_rfl⟩

theorem Contents.extends_new {secret : Secret} (hc : c identity = none) :
    c.Extends (update c identity (some secret)) := by
  intro other old hold
  have hne : other ≠ identity := by
    rintro rfl
    rw [hc] at hold
    cases hold
  exact ⟨old, by rw [update_of_ne hne]; exact hold, id, prefix_rfl⟩

/-- What a call does to the secrets. -/
inductive Effect (aead : Aead) (s : SecretVault) (c : Contents) (op : Operation) : Prop
  | kept (hkek : (s.step aead op).2.kekId = s.kekId) (hkey : (s.step aead op).2.masterKey = s.masterKey)
      (hsecrets : (s.step aead op).2.secrets = s.secrets) (hcontents : c.apply op (s.step aead op).1 = c)
  | changed (hok : (s.step aead op).1.failed = false)
      (hrefines : Refines aead (s.step aead op).2 (c.apply op (s.step aead op).1))
      (hextends : c.Extends (c.apply op (s.step aead op).1))

theorem createSecret_spec (h : Refines aead s c) {plaintext : List UInt8} {draws : Draws} {m : SecretMetadata}
    (hcreate : s.createSecret aead identity plaintext draws = .ok (m, t)) :
    c identity = none ∧ Refines aead t (update c identity (some ⟨.active, [plaintext]⟩)) := by
  simp only [createSecret, bind_eq_ok, exists_unit, rejectIf_eq_ok, Bool.not_eq_true, pure_eq_ok,
    Prod.mk.injEq] at hcreate
  obtain ⟨hvalid, hnew, _, hencrypt, -, rfl⟩ := hcreate
  have hrecord := holdsSecret_create (EncryptedSecretVersion.encrypt_spec hencrypt)
  exact ⟨h.missing (BTreeMap.get_of_not_contains hnew), h.insert rfl rfl rfl hvalid hrecord⟩

theorem OnlyLeases.effect {op : Operation} (h : OnlyLeases s (s.step aead op).2)
    (hcontents : c.apply op (s.step aead op).1 = c) : Effect aead s c op :=
  .kept h.kek h.key h.secrets hcontents

theorem effect (hinverts : aead.Inverts) (h : Refines aead s c) (op : Operation) : Effect aead s c op := by
  cases op with
  | createSecret identity plaintext draws =>
    cases hcreate : s.createSecret aead identity plaintext draws with
    | error => refine .kept ?_ ?_ ?_ ?_ <;> simp only [step, hcreate, settle, Contents.apply]
    | ok created =>
      obtain ⟨m, t⟩ := created
      obtain ⟨hnone, hrefines⟩ := createSecret_spec h hcreate
      refine .changed ?_ ?_ ?_ <;> simp only [step, hcreate, settle, Contents.apply]
      · rfl
      · exact hrefines
      · exact Contents.extends_new hnone
  | addVersion identity plaintext draws =>
    rcases addVersion_cases h identity plaintext draws with ⟨error, hadd⟩ |
      ⟨record, encrypted, version, secret, m, -, -, hc, hrefines, hadd⟩
    · refine .kept ?_ ?_ ?_ ?_ <;> simp only [step, hadd, Contents.apply]
    · rw [hadd] at hrefines
      refine .changed ?_ ?_ ?_ <;> simp only [step, hadd, Contents.apply, hc, map_some]
      · rfl
      · exact hrefines
      · exact Contents.extends_update hc id (prefix_append ..)
  | tombstone identity =>
    rcases tombstone_cases h identity with ⟨error, htomb, -⟩ | ⟨_, _, _, -, hc, hrefines, htomb⟩
    · refine .kept ?_ ?_ ?_ ?_ <;> simp only [step, htomb, Contents.apply]
    · rw [htomb] at hrefines
      refine .changed ?_ ?_ ?_ <;> simp only [step, htomb, Contents.apply, hc, map_some]
      · rfl
      · exact hrefines
      · exact Contents.extends_update hc (fun _ => rfl) prefix_rfl
  | rotateKek newKekId newMasterKey nonces =>
    rcases rotateKek_cases hinverts h newKekId newMasterKey nonces with ⟨error, hrotate⟩ |
      ⟨secrets, hrotate, hrefines⟩
    · refine .kept ?_ ?_ ?_ ?_ <;> simp only [step, hrotate, Contents.apply]
    · refine .changed ?_ ?_ ?_ <;> simp only [step, hrotate, Contents.apply]
      · rfl
      · exact hrefines
      · exact Contents.extends_refl c
  | setActiveFencingGeneration => exact (OnlyLeases.settle .setActiveFencingGeneration).effect rfl
  | issueLease request now candidates =>
    cases hissue : s.issueLease request now candidates with
    | error => refine .kept ?_ ?_ ?_ ?_ <;> simp only [step, hissue, settle, Contents.apply]
    | ok issued =>
      obtain ⟨_, _⟩ := issued
      obtain ⟨-, -, -, -, rfl⟩ := issueLease_spec hissue
      refine .kept ?_ ?_ ?_ ?_ <;> simp only [step, hissue, settle, Contents.apply]
  | redeemLease presented now => exact (OnlyLeases.redeemLease aead s presented now).effect rfl
  | revokeLease => exact (OnlyLeases.settle .revokeLease).effect rfl
  | expireLeases => exact .kept rfl rfl rfl rfl
  | reload =>
    refine .kept ?_ ?_ ?_ ?_ <;>
      simp only [step, h.fromSnapshot hinverts, settle, Except.map, Contents.apply]

/-! ### Runs -/

theorem Effect.refines {op : Operation} (h : Refines aead s c) (heffect : Effect aead s c op) :
    Refines aead (s.step aead op).2 (c.apply op (s.step aead op).1) := by
  cases heffect with
  | kept hkek hkey hsecrets hcontents =>
    rw [hcontents]
    exact h.same hkek hkey hsecrets
  | changed _ hrefines => exact hrefines

theorem Effect.extends {op : Operation} (heffect : Effect aead s c op) : c.Extends (c.apply op (s.step aead op).1) := by
  cases heffect with
  | kept _ _ _ hcontents =>
    rw [hcontents]
    exact Contents.extends_refl c
  | changed _ _ hextends => exact hextends

theorem refines_new {kekId : String} {masterKey : Key} (hnew : SecretVault.new kekId masterKey = .ok s) :
    Refines aead s (stored []) := by
  simp only [SecretVault.new, bind_eq_ok, exists_unit, pure_eq_ok] at hnew
  obtain ⟨hkek, rfl⟩ := hnew
  exact ⟨hkek, fun _ => rfl, fun hget => by simp at hget⟩

theorem refines_of_reaches (hinverts : aead.Inverts) {s₀ : SecretVault} (hstart : Refines aead s₀ (stored []))
    (hrun : Run.Reaches (step aead) s₀ h s) : Refines aead s (stored h) := by
  induction hrun with
  | start => exact hstart
  | call _ op ih => exact (effect hinverts ih op).refines ih

def Tombstones (e : Event) (identity : SecretIdentity) : Prop :=
  e.op = .tombstone identity ∧ ∃ m, e.result = .stored (.ok m)

theorem tombstoned_of_reaches (hinverts : aead.Inverts) {s₀ : SecretVault} (hstart : Refines aead s₀ (stored []))
    (hrun : Run.Reaches (step aead) s₀ h s) {e : Event} (he : e ∈ h) (htomb : Tombstones e identity) :
    ∃ secret, stored h identity = some secret ∧ secret.status = .tombstoned := by
  induction hrun with
  | start => cases he
  | @call h s hrun op ih =>
    have hrefines := refines_of_reaches hinverts hstart hrun
    rcases mem_cons.mp he with rfl | he
    · obtain ⟨rfl, m, hresult⟩ := htomb
      rcases tombstone_cases hrefines identity with ⟨_, hfail, -⟩ | ⟨_, secret, _, -, hc, -, -⟩
      · simp only [step, hfail] at hresult
        cases hresult
      · refine ⟨{ secret with status := .tombstoned }, ?_, rfl⟩
        have hreply : (s.step aead (.tombstone identity)).1 = .stored (.ok m) := hresult
        simp only [stored, hreply, Contents.apply, hc, map_some]
        exact update_self ..
    · obtain ⟨secret, hc, hstatus⟩ := ih he
      obtain ⟨secret', hc', hkept, -⟩ := (effect hinverts hrefines op).extends identity secret hc
      exact ⟨secret', hc', hkept hstatus⟩

/-! ### What the vault reveals -/

def Secret.plaintextAt (secret : Secret) : Option U64 → Option (List UInt8)
  | none => secret.versions.getLast?
  | some v => if v = 0 then none else secret.versions[v.toNat - 1]?

section
variable {masterKey : Key} {kekId : String} {record : SecretRecord} {secret : Secret} {plaintext : List UInt8}

theorem HoldsSecret.decrypts_iff (hinverts : aead.Inverts)
    (hholds : HoldsSecret aead masterKey kekId identity record secret) {v : U64} :
    (∃ encrypted, record.versions[v]? = some encrypted ∧ encrypted.decrypt aead masterKey = .ok plaintext) ↔
      secret.plaintextAt (some v) = some plaintext := by
  rw [Secret.plaintextAt]
  constructor
  · rintro ⟨encrypted, hget, hdecrypt⟩
    obtain ⟨plaintext', hplaintext', hdecrypt'⟩ := hholds.decrypt hinverts hget
    obtain rfl := Except.ok.inj (hdecrypt.symm.trans hdecrypt')
    have hkey := (hholds.numbered _).mp (mem_iff_isSome_getElem?.mpr (by rw [hget]; rfl))
    rw [if_neg (fun hzero => by rw [hzero] at hkey; exact absurd hkey.1 (by decide))]
    exact hplaintext'
  · intro hplaintext
    split at hplaintext
    · cases hplaintext
    · rename_i hne
      have hlt := (List.getElem?_eq_some_iff.mp hplaintext).1
      have hpos : 0 < v.toNat := Nat.pos_of_ne_zero fun hzero => hne (BitVec.eq_of_toNat_eq hzero)
      have hmem := (hholds.numbered _).mpr ⟨hpos, by omega⟩
      obtain ⟨encrypted, hget⟩ := isSome_iff_exists.mp (mem_iff_isSome_getElem?.mp hmem)
      obtain ⟨_, hplaintext', hdecrypt⟩ := hholds.decrypt hinverts hget
      obtain rfl := Option.mem_unique hplaintext hplaintext'
      exact ⟨encrypted, hget, hdecrypt⟩

theorem HoldsSecret.plaintextAt_getD (hholds : HoldsSecret aead masterKey kekId identity record secret)
    (version : Option U64) :
    secret.plaintextAt (some (version.getD (BitVec.ofNat 64 secret.versions.length))) = secret.plaintextAt version := by
  cases version with
  | none =>
    have hlast : (BitVec.ofNat 64 secret.versions.length).toNat = secret.versions.length := by
      rw [BitVec.toNat_ofNat, Nat.mod_eq_of_lt hholds.bound]
    have hne : BitVec.ofNat 64 secret.versions.length ≠ 0 := by
      intro hzero
      have hnonempty := hholds.nonempty
      rw [← hlast, hzero] at hnonempty
      exact absurd hnonempty (by decide)
    rw [getD_none, Secret.plaintextAt, Secret.plaintextAt, if_neg hne, hlast, getLast?_eq_getElem?]
  | some => rfl

end

theorem revealForAdministration_iff (hinverts : aead.Inverts) (h : Refines aead s c) (version : Option U64)
    (plaintext : List UInt8) : s.revealForAdministration aead identity version = .ok plaintext ↔
      ∃ secret, c identity = some secret ∧ secret.status = .active ∧ secret.plaintextAt version = some plaintext := by
  simp only [revealForAdministration, requireActive, bind_eq_ok, exists_unit, okOr_eq_ok, rejectIf_eq_ok]
  constructor
  · rintro ⟨-, record, hget, hactive, _, hcurrent, hdecrypt⟩
    obtain ⟨-, secret, hc, hholds⟩ := h.held hget
    obtain rfl := Except.ok.inj (hholds.currentVersion.symm.trans hcurrent)
    refine ⟨secret, hc, ?_, hholds.plaintextAt_getD version ▸ (hholds.decrypts_iff hinverts).mp hdecrypt⟩
    rw [← hholds.status]
    cases hstatus : record.status with
    | active => rfl
    | tombstoned => exact absurd hstatus hactive
  · rintro ⟨_, hc, hactive, hplaintext⟩
    cases hget : s.secrets[identity]? with
    | none =>
      rw [h.missing hget] at hc
      cases hc
    | some record =>
      obtain ⟨hvalid, _, hc', hholds⟩ := h.held hget
      obtain rfl := Option.mem_unique hc hc'
      rw [← hholds.plaintextAt_getD] at hplaintext
      refine ⟨hvalid, record, rfl, ?_, _, hholds.currentVersion, (hholds.decrypts_iff hinverts).mpr hplaintext⟩
      rw [hholds.status, hactive]
      exact SecretStatus.noConfusion

/-- A vault with a history: it reveals what was stored, numbers versions from one, never gives out or extends a
tombstoned secret, loses nothing to a failed call, and survives a reload. -/
structure Faithful (aead : Aead) (h : List Event) (s : SecretVault) : Prop where
  revealed : ∀ identity version plaintext, s.revealForAdministration aead identity version = .ok plaintext ↔
    ∃ secret, stored h identity = some secret ∧ secret.status = .active ∧ secret.plaintextAt version = some plaintext
  contiguous : ∀ (identity : SecretIdentity) (record : SecretRecord), s.secrets[identity]? = some record →
    ∃ secret, stored h identity = some secret ∧ record.versions.keys = versionNumbers secret.versions.length
  tombstoned : ∀ e ∈ h, ∀ identity, Tombstones e identity →
    (∀ version plaintext, s.revealForAdministration aead identity version ≠ .ok plaintext) ∧
    (∀ request now candidates lease, request.identity = identity → s.issueLease request now candidates ≠ .ok lease) ∧
    (∀ plaintext draws m, (s.addVersion aead identity plaintext draws).1 ≠ .ok m) ∧
    ∀ plaintext draws m, s.createSecret aead identity plaintext draws ≠ .ok m
  failed : ∀ op, (s.step aead op).1.failed = true → ∀ identity version,
    (s.step aead op).2.revealForAdministration aead identity version = s.revealForAdministration aead identity version
  reloads : ∃ t, fromSnapshot aead s.snapshot s.masterKey = .ok t ∧ t.secrets = s.secrets ∧ t.kekId = s.kekId ∧
    t.masterKey = s.masterKey

theorem refuses_of_tombstoned (hinverts : aead.Inverts) (h : Refines aead s c) {secret : Secret}
    (hc : c identity = some secret) (htomb : secret.status = .tombstoned) :
    (∀ version plaintext, s.revealForAdministration aead identity version ≠ .ok plaintext) ∧
    (∀ request now candidates lease, request.identity = identity → s.issueLease request now candidates ≠ .ok lease) ∧
    (∀ plaintext draws m, (s.addVersion aead identity plaintext draws).1 ≠ .ok m) ∧
    ∀ plaintext draws m, s.createSecret aead identity plaintext draws ≠ .ok m := by
  have hstatus : ∀ {record : SecretRecord}, s.secrets[identity]? = some record → record.status = .tombstoned := by
    intro record hget
    obtain ⟨-, secret', hc', hholds⟩ := h.held hget
    obtain rfl := Option.mem_unique hc hc'
    exact hholds.status.trans htomb
  refine ⟨fun version plaintext hok => ?_, fun _ _ _ _ hidentity hok => ?_,
    fun plaintext draws m hok => ?_, fun plaintext draws m hok => ?_⟩
  · obtain ⟨secret', hc', hactive, -⟩ := (revealForAdministration_iff hinverts h version plaintext).mp hok
    obtain rfl := Option.mem_unique hc hc'
    rw [htomb] at hactive
    cases hactive
  · subst hidentity
    obtain ⟨-, -, ⟨record, hget, hactive, -⟩, -, -⟩ := issueLease_spec hok
    exact hactive (hstatus hget)
  · rcases addVersion_cases h identity plaintext draws with ⟨_, hadd⟩ |
      ⟨record, encrypted, version, secret', m', hget, hactive, -, -, -⟩
    · rw [hadd] at hok
      cases hok
    · rw [hstatus hget] at hactive
      cases hactive
  · obtain ⟨m, _⟩ := m
    obtain ⟨hnone, -⟩ := createSecret_spec h hok
    rw [hnone] at hc
    cases hc

theorem revealForAdministration_congr (hkey : t.masterKey = s.masterKey) (hsecrets : t.secrets = s.secrets)
    (version : Option U64) :
    t.revealForAdministration aead identity version = s.revealForAdministration aead identity version := by
  rw [revealForAdministration, revealForAdministration, hkey, hsecrets]

/-- Every run of the vault from an empty one is faithful to what was stored, for a cipher whose decryption inverts
encryption; and associated data tells domain, identity, version and key identifier apart. -/
theorem vault_faithful (aead : Aead) (hinverts : aead.Inverts) (kekId : String) (masterKey : Key) (s₀ : SecretVault)
    (hnew : SecretVault.new kekId masterKey = .ok s₀) (h : List Event) (s : SecretVault)
    (hrun : Run.Reaches (step aead) s₀ h s) :
    Faithful aead h s ∧ ∀ domain domain' identity identity' version version' kekId kekId',
      AadFits identity kekId → AadFits identity' kekId' →
      associatedData domain identity version kekId = associatedData domain' identity' version' kekId' →
      (domain, identity, version, kekId) = (domain', identity', version', kekId') := by
  have hstart : Refines aead s₀ (stored []) := refines_new hnew
  have hrefines := refines_of_reaches hinverts hstart hrun
  refine ⟨⟨fun identity version plaintext => revealForAdministration_iff hinverts hrefines version plaintext,
    fun identity _ hget => ?_, fun e he identity htomb => ?_, fun op hfailed identity version => ?_,
    ⟨_, hrefines.fromSnapshot hinverts, rfl, rfl, rfl⟩⟩, ?_⟩
  · obtain ⟨-, secret, hc, hholds⟩ := hrefines.held hget
    exact ⟨secret, hc, keys_eq_versionNumbers hholds.bound hholds.numbered⟩
  · obtain ⟨_, hc, hstatus⟩ := tombstoned_of_reaches hinverts hstart hrun he htomb
    exact refuses_of_tombstoned hinverts hrefines hc hstatus
  · cases effect hinverts hrefines op with
    | kept _ hkey hsecrets => exact revealForAdministration_congr hkey hsecrets version
    | changed hok =>
      rw [hok] at hfailed
      cases hfailed
  · intro _ _ _ _ _ _ _ _ hfits hfits' hsame
    obtain ⟨rfl, rfl, rfl, rfl⟩ := associatedData_inj hfits hfits' hsame
    rfl

/-! A secret with two versions, after a rotation and a reload. -/

/-- A cipher that puts key and nonce before the message. -/
def tagAead : Aead where
  encrypt key nonce message _ := some (key.bytes ++ nonce.bytes ++ message)
  decrypt key nonce ciphertext _ :=
    if (key.bytes ++ nonce.bytes).isPrefixOf ciphertext then some (ciphertext.drop (key.bytes ++ nonce.bytes).length)
    else none

theorem tagAead_inverts : tagAead.Inverts := by
  intro key nonce message _ _ h
  cases h
  have htag : (key.bytes ++ nonce.bytes).isPrefixOf (key.bytes ++ nonce.bytes ++ message) = true :=
    isPrefixOf_iff_prefix.mpr (prefix_append ..)
  simp only [tagAead, htag, if_true, drop_left]

def sampleKey (byte : UInt8) : Key := ⟨List.replicate 32 byte, rfl⟩

def sampleNonce (byte : UInt8) : Nonce := ⟨List.replicate 24 byte, rfl⟩

def sampleDraws (byte : UInt8) : Draws := ⟨some (sampleKey byte), some (sampleNonce byte), some (sampleNonce byte)⟩

def sampleIdentity : SecretIdentity := ⟨"tenant", "scope", "token"⟩

def emptyVault : SecretVault := ⟨"kek1", sampleKey 1, ∅, ∅, ∅⟩

def twoVersions : List Operation :=
  [.createSecret sampleIdentity [7] (sampleDraws 3), .addVersion sampleIdentity [8, 9] (sampleDraws 4),
    .rotateKek "kek2" (sampleKey 2) fun _ => some (sampleNonce 5), .reload]

def twoVersionsRun : List Event × SecretVault := Run.exec (step tagAead) emptyVault twoVersions

theorem vault_faithful_two_versions :
    twoVersionsRun.2.revealForAdministration tagAead sampleIdentity (some 1) = .ok [7] ∧
      twoVersionsRun.2.revealForAdministration tagAead sampleIdentity none = .ok [8, 9] := by
  have hfaithful := (vault_faithful tagAead tagAead_inverts "kek1" (sampleKey 1) emptyVault rfl twoVersionsRun.1
    twoVersionsRun.2 (Run.reaches_exec (step tagAead) emptyVault twoVersions)).1
  have hstored : stored twoVersionsRun.1 sampleIdentity = some ⟨.active, [[7], [8, 9]]⟩ := by
    decide +kernel
  exact ⟨(hfaithful.revealed _ _ _).mpr ⟨_, hstored, rfl, rfl⟩, (hfaithful.revealed _ _ _).mpr ⟨_, hstored, rfl, rfl⟩⟩

end Runtrue.Secrets
