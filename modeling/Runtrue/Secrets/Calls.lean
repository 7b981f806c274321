import Runtrue.Secrets.Vault

/-!
# The calls about leases

A fence that is raised, a redemption, a revocation and the expiry of leases leave the keys and the secrets as they
are: `OnlyLeases` says so, with what becomes of the leases and the fences.
-/

namespace Runtrue.Secrets

open Fallible SecretVault BTreeMap Std.ExtTreeMap

variable {aead : Aead} {s t : SecretVault} {presented : LeasePresentation} {now : U64} {plaintext : List UInt8}
  {lease : SecretLeaseMetadata} {id : String}

/-- Every lease stays, and one that is closed stays as it is. -/
def LeasesKept (leases leases' : BTreeMap String SecretLeaseMetadata) : Prop :=
  ∀ {id : String} {lease : SecretLeaseMetadata}, leases[id]? = some lease →
    ∃ state, leases'[id]? = some { lease with state } ∧ (lease.state ≠ .issued → state = lease.state)

def NoneNew (leases leases' : BTreeMap String SecretLeaseMetadata) : Prop :=
  ∀ {id : String}, leases[id]? = none → leases'[id]? = none

def FencesKept (fences fences' : BTreeMap String U64) : Prop :=
  ∀ {id : String} {generation : U64}, fences[id]? = some generation →
    ∃ generation', fences'[id]? = some generation' ∧ generation ≤ generation'

theorem leasesKept_refl (leases : BTreeMap String SecretLeaseMetadata) : LeasesKept leases leases :=
  fun hget => ⟨_, hget, fun _ => rfl⟩

theorem fencesKept_refl (fences : BTreeMap String U64) : FencesKept fences fences :=
  fun hget => ⟨_, hget, BitVec.le_refl _⟩

theorem leasesKept_closeLeases (leases : BTreeMap String SecretLeaseMetadata) (state : LeaseState)
    (p : SecretLeaseMetadata → Bool) :
    LeasesKept leases (closeLeases leases state p) ∧ NoneNew leases (closeLeases leases state p) := by
  refine ⟨fun {id lease} hget => ?_, fun {id} hnone => ?_⟩
  · rw [closeLeases, getElem?_map, hget, Option.map_some]
    split
    · rename_i hclose
      exact ⟨state, rfl, fun hne => absurd hclose.1 hne⟩
    · exact ⟨lease.state, rfl, fun _ => rfl⟩
  · rw [closeLeases, getElem?_map, hnone, Option.map_none]

/-- Only leases and fences change: leases are kept and none is new, and no fence goes back. -/
structure OnlyLeases (s t : SecretVault) : Prop where
  kek : t.kekId = s.kekId
  key : t.masterKey = s.masterKey
  secrets : t.secrets = s.secrets
  kept : LeasesKept s.leases t.leases
  new : NoneNew s.leases t.leases
  fences : FencesKept s.activeFences t.activeFences

namespace OnlyLeases

theorem refl (s : SecretVault) : OnlyLeases s s := ⟨rfl, rfl, rfl, leasesKept_refl _, id, fencesKept_refl _⟩

theorem closeLeases (s : SecretVault) (state : LeaseState) (p : SecretLeaseMetadata → Bool) :
    OnlyLeases s { s with leases := Secrets.closeLeases s.leases state p } :=
  have hclosed := leasesKept_closeLeases s.leases state p
  ⟨rfl, rfl, rfl, hclosed.1, hclosed.2, fencesKept_refl _⟩

theorem setLeaseState (hget : s.leases[id]? = some lease) (hissued : lease.state = .issued) (state : LeaseState) :
    OnlyLeases s (s.setLeaseState id lease state) := by
  refine ⟨rfl, rfl, rfl, fun {other lease'} hget' => ?_, fun {other} hnone => ?_, fencesKept_refl _⟩
  · by_cases hsame : id = other
    · subst hsame
      obtain rfl := Option.mem_unique hget hget'
      exact ⟨state, get_insert_self .., fun hne => absurd hissued hne⟩
    · refine ⟨lease'.state, ?_, fun _ => rfl⟩
      rw [SecretVault.setLeaseState, get_insert, if_neg hsame]
      exact hget'
  · rw [SecretVault.setLeaseState, get_insert, if_neg]
    · exact hnone
    · rintro rfl
      rw [hnone] at hget
      cases hget

theorem setActiveFencingGeneration {executionLeaseId : String} {generation : U64}
    (hset : s.setActiveFencingGeneration executionLeaseId generation = .ok t) : OnlyLeases s t := by
  -- The fence is raised when it was not above the new generation.
  have hraised : (∀ current, s.activeFences[executionLeaseId]? = some current → current ≤ generation) →
      OnlyLeases s { s with
        leases := Secrets.closeLeases s.leases .revoked fun lease =>
          lease.executionLeaseId = executionLeaseId ∧ lease.fencingGeneration < generation
        activeFences := s.activeFences.insert executionLeaseId generation } := by
    intro hbelow
    obtain ⟨hkept, hnew⟩ := leasesKept_closeLeases s.leases .revoked fun lease =>
      lease.executionLeaseId = executionLeaseId ∧ lease.fencingGeneration < generation
    refine ⟨rfl, rfl, rfl, hkept, hnew, fun {id generation'} hget => ?_⟩
    by_cases hsame : executionLeaseId = id
    · subst hsame
      exact ⟨generation, get_insert_self .., hbelow _ hget⟩
    · exact ⟨generation', by rw [get_insert, if_neg hsame]; exact hget, BitVec.le_refl _⟩
  unfold SecretVault.setActiveFencingGeneration at hset
  split at hset <;> simp only [bind_eq_ok, exists_unit, pure_eq_ok, rejectIf_eq_ok, BitVec.not_lt] at hset
  · rename_i hnone
    obtain ⟨-, -, rfl⟩ := hset
    refine hraised fun current hget => ?_
    rw [hnone] at hget
    cases hget
  · rename_i current hcurrent
    obtain ⟨-, -, hle, rfl⟩ := hset
    split
    · exact .refl s
    · refine hraised fun _ hget => ?_
      obtain rfl := Option.mem_unique hcurrent hget
      exact hle

theorem revokeLease {leaseId : String} (hrevoke : s.revokeLease leaseId = .ok t) : OnlyLeases s t := by
  simp only [SecretVault.revokeLease, bind_eq_ok, okOr_eq_ok] at hrevoke
  obtain ⟨_, hget, hrevoke⟩ := hrevoke
  split at hrevoke
  · rename_i hissued
    exact pure_eq_ok.mp hrevoke ▸ .setLeaseState hget hissued .revoked
  · exact pure_eq_ok.mp hrevoke ▸ .refl s
  · cases hrevoke
  · cases hrevoke

theorem settle {x : Except SecretsError SecretVault} (h : ∀ {t}, x = .ok t → OnlyLeases s t) :
    OnlyLeases s (SecretVault.settle s .done (x.map fun t => ((), t))).2 := by
  cases x with
  | error => exact .refl s
  | ok => exact h rfl

end OnlyLeases

/-- What a release has checked, and what it leaves behind. -/
structure Releases (aead : Aead) (s : SecretVault) (presented : LeasePresentation) (now : U64)
    (plaintext : List UInt8) (lease : SecretLeaseMetadata) (t : SecretVault) : Prop where
  found : s.leases[presented.leaseId]? = some lease
  execution : presented.executionLeaseId = lease.executionLeaseId
  step : presented.stepId = lease.stepId
  purpose : presented.purpose = lease.purpose
  fence : s.activeFences[lease.executionLeaseId]? = some lease.fencingGeneration
  generation : presented.fencingGeneration = lease.fencingGeneration
  unexpired : now < lease.expiresAtUnixMs
  issued : lease.state = .issued
  released : ∃ (record : SecretRecord) (encrypted : EncryptedSecretVersion),
    s.secrets[lease.identity]? = some record ∧ record.status = .active ∧
    record.versions[lease.secretVersion]? = some encrypted ∧ encrypted.decrypt aead s.masterKey = .ok plaintext
  after : t = s.setLeaseState presented.leaseId lease .consumed

theorem presentedLease_spec (hlease : s.presentedLease presented = .ok lease) :
    s.leases[presented.leaseId]? = some lease ∧ presented.executionLeaseId = lease.executionLeaseId ∧
      presented.stepId = lease.stepId ∧ presented.purpose = lease.purpose ∧
      s.activeFences[lease.executionLeaseId]? = some lease.fencingGeneration ∧
      presented.fencingGeneration = lease.fencingGeneration := by
  simp only [presentedLease, requireBinding, bind_eq_ok, exists_unit, okOr_eq_ok, rejectIf_eq_ok, pure_eq_ok, ne_eq,
    not_not] at hlease
  obtain ⟨_, hget, hexecution, hstep, hpurpose, _, hactive, hpresented, hgeneration, rfl⟩ := hlease
  refine ⟨hget, hexecution.symm, hstep.symm, hpurpose.symm, ?_, hpresented.trans hgeneration.symm⟩
  rw [hexecution, hgeneration]
  exact hactive

theorem leasedVersion_spec {leaseId : String} {encrypted : EncryptedSecretVersion}
    (hversion : s.leasedVersion leaseId lease = .ok encrypted) :
    lease.state = .issued ∧ ∃ record : SecretRecord, s.secrets[lease.identity]? = some record ∧
      record.status = .active ∧ record.versions[lease.secretVersion]? = some encrypted := by
  unfold leasedVersion at hversion
  split at hversion <;> simp only [requireActive, bind_eq_ok, exists_unit, okOr_eq_ok, rejectIf_eq_ok] at hversion
  · rename_i hissued
    obtain ⟨-, record, hget, hactive, hencrypted⟩ := hversion
    refine ⟨hissued, record, hget, ?_, hencrypted⟩
    cases hstatus : record.status with
    | active => rfl
    | tombstoned => exact absurd hstatus hactive
  · cases hversion.1
  · cases hversion.1
  · cases hversion.1

theorem redeemLease_cases (aead : Aead) (s : SecretVault) (presented : LeasePresentation) (now : U64) :
    (∃ plaintext lease, (s.redeemLease aead presented now).1 = .ok plaintext ∧
        Releases aead s presented now plaintext lease (s.redeemLease aead presented now).2) ∨
      ∃ error, (s.redeemLease aead presented now).1 = .error error ∧
        OnlyLeases s (s.redeemLease aead presented now).2 := by
  fun_cases SecretVault.redeemLease aead s presented now with
  | case1 error | case3 _ _ _ error => exact .inr ⟨error, rfl, .refl s⟩
  | case2 lease hlease =>
    refine .inr ⟨_, rfl, ?_⟩
    dsimp only
    split
    · rename_i hissued
      exact .setLeaseState (presentedLease_spec hlease).1 hissued .expired
    · exact .refl s
  | case4 _ hlease _ _ hversion error =>
    exact .inr ⟨error, rfl, .setLeaseState (presentedLease_spec hlease).1 (leasedVersion_spec hversion).1 .revoked⟩
  | case5 lease hlease hexpired encrypted hversion plaintext hdecrypt =>
    obtain ⟨hget, hexecution, hstep, hpurpose, hfence, hgeneration⟩ := presentedLease_spec hlease
    obtain ⟨hissued, record, hrecord, hactive, hencrypted⟩ := leasedVersion_spec hversion
    exact .inl ⟨plaintext, lease, rfl, hget, hexecution, hstep, hpurpose, hfence, hgeneration,
      BitVec.not_le.mp hexpired, hissued, ⟨record, encrypted, hrecord, hactive, hencrypted, hdecrypt⟩, rfl⟩

theorem OnlyLeases.redeemLease (aead : Aead) (s : SecretVault) (presented : LeasePresentation) (now : U64) :
    OnlyLeases s (s.redeemLease aead presented now).2 := by
  rcases redeemLease_cases aead s presented now with ⟨_, _, -, hreleases⟩ | ⟨_, -, hfailed⟩
  · rw [hreleases.after]
    exact .setLeaseState hreleases.found hreleases.issued .consumed
  · exact hfailed

end Runtrue.Secrets
