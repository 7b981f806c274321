import Runtrue.Secrets.Faithful

/-!
# Release leases

A lease is issued, and then consumed, revoked or expired, once and for all: `LeasesKept` says what any call but a
reload does to the leases and the fences. Over a run, every lease in the vault goes back to the call that issued it,
a lease that gave out its secret is consumed, and a released plaintext is the one stored under the version that the
lease was issued for.
-/

namespace Runtrue.Secrets

open Fallible SecretVault List BTreeMap

variable {aead : Aead} {s t : SecretVault} {h : List Event} {presented : LeasePresentation} {now : U64}
  {plaintext : List UInt8} {lease : SecretLeaseMetadata}

/-! ### What one call does -/

theorem LeasesKept.trans {a b c : BTreeMap String SecretLeaseMetadata} (hab : LeasesKept a b) (hbc : LeasesKept b c) :
    LeasesKept a c := by
  intro _ _ hget
  obtain ⟨_, hstate, hclosed⟩ := hab hget
  obtain ⟨state', hstate', hclosed'⟩ := hbc hstate
  refine ⟨state', hstate', fun hne => ?_⟩
  rw [hclosed' (hclosed hne ▸ hne), hclosed hne]

theorem FencesKept.trans {a b c : BTreeMap String U64} (hab : FencesKept a b) (hbc : FencesKept b c) :
    FencesKept a c := by
  intro _ _ hget
  obtain ⟨_, hget', hle⟩ := hab hget
  obtain ⟨generation'', hget'', hle'⟩ := hbc hget'
  exact ⟨generation'', hget'', BitVec.le_trans hle hle'⟩

/-- What a call does to the leases: it issues a new one, or there is none; those there are kept. -/
structure CallsLeases (aead : Aead) (s : SecretVault) (op : Operation) : Prop where
  kept : LeasesKept s.leases (s.step aead op).2.leases
  fences : FencesKept s.activeFences (s.step aead op).2.activeFences
  new : ∀ {id : String} {lease : SecretLeaseMetadata}, s.leases[id]? = none →
    (s.step aead op).2.leases[id]? = some lease → lease.id = id ∧ lease.state = .issued ∧
      ∃ request now candidates, op = .issueLease request now candidates ∧
        (s.step aead op).1 = .leased (.ok lease) ∧
        s.issueLease request now candidates = .ok (lease, (s.step aead op).2)

variable {op : Operation}

theorem CallsLeases.of_noneNew (hkept : LeasesKept s.leases (s.step aead op).2.leases)
    (hnew : NoneNew s.leases (s.step aead op).2.leases)
    (hfences : FencesKept s.activeFences (s.step aead op).2.activeFences) : CallsLeases aead s op := by
  refine ⟨hkept, hfences, fun hnone hsome => ?_⟩
  rw [hnew hnone] at hsome
  cases hsome

theorem OnlyLeases.callsLeases (h : OnlyLeases s (s.step aead op).2) : CallsLeases aead s op :=
  .of_noneNew h.kept h.new h.fences

theorem CallsLeases.of_same (hleases : (s.step aead op).2.leases = s.leases)
    (hfences : (s.step aead op).2.activeFences = s.activeFences) : CallsLeases aead s op := by
  refine .of_noneNew ?_ ?_ ?_
  · rw [hleases]
    exact leasesKept_refl _
  · rw [hleases]
    exact id
  · rw [hfences]
    exact fencesKept_refl _

theorem addVersion_leases (aead : Aead) (s : SecretVault) (identity : SecretIdentity) (plaintext : List UInt8)
    (draws : Draws) : (s.addVersion aead identity plaintext draws).2.leases = s.leases ∧
      (s.addVersion aead identity plaintext draws).2.activeFences = s.activeFences := by
  unfold addVersion
  split <;> exact ⟨rfl, rfl⟩

theorem rotateKek_leases (aead : Aead) (s : SecretVault) (newKekId : String) (newMasterKey : Key)
    (nonces : Nat → Option Nonce) : (s.rotateKek aead newKekId newMasterKey nonces).2.leases = s.leases ∧
      (s.rotateKek aead newKekId newMasterKey nonces).2.activeFences = s.activeFences := by
  unfold rotateKek
  split
  · exact ⟨rfl, rfl⟩
  · dsimp only
    split <;> exact ⟨rfl, rfl⟩

theorem callsLeases (aead : Aead) (s : SecretVault) (hop : op ≠ .reload) : CallsLeases aead s op := by
  cases op with
  | createSecret identity plaintext draws =>
    cases hcreate : s.createSecret aead identity plaintext draws with
    | error => refine .of_same ?_ ?_ <;> simp only [step, hcreate, settle]
    | ok =>
      have hspec := hcreate
      simp only [createSecret, bind_eq_ok, exists_unit, pure_eq_ok] at hspec
      obtain ⟨-, -, _, -, rfl⟩ := hspec
      refine .of_same ?_ ?_ <;> simp only [step, hcreate, settle]
  | addVersion identity plaintext draws =>
    obtain ⟨hleases, hfences⟩ := addVersion_leases aead s identity plaintext draws
    exact .of_same hleases hfences
  | tombstone identity =>
    cases hget : s.secrets[identity]? with
    | none => refine .of_same ?_ ?_ <;> simp only [step, SecretVault.tombstone, hget]
    | some =>
      have hclosed := leasesKept_closeLeases s.leases .revoked fun lease => lease.identity = identity
      refine .of_noneNew ?_ ?_ ?_ <;> simp only [step, SecretVault.tombstone, hget]
      · exact hclosed.1
      · exact hclosed.2
      · exact fencesKept_refl _
  | rotateKek newKekId newMasterKey nonces =>
    obtain ⟨hleases, hfences⟩ := rotateKek_leases aead s newKekId newMasterKey nonces
    exact .of_same hleases hfences
  | setActiveFencingGeneration => exact (OnlyLeases.settle .setActiveFencingGeneration).callsLeases
  | issueLease request now candidates =>
    cases hissue : s.issueLease request now candidates with
    | error => refine .of_same ?_ ?_ <;> simp only [step, hissue, settle]
    | ok issued =>
      obtain ⟨lease, t⟩ := issued
      obtain ⟨hfree, -, -, hlease, ht⟩ := issueLease_spec hissue
      have hstep : s.step aead (.issueLease request now candidates) = (.leased (.ok lease), t) := by
        simp only [step, hissue, settle]
      refine ⟨?_, ?_, fun {id lease'} hnone hsome => ?_⟩
      · rw [hstep, ht]
        exact fun hget => ⟨_, get_insert_fresh hfree hget, fun _ => rfl⟩
      · rw [hstep, ht]
        exact fencesKept_refl _
      · rw [hstep] at hsome ⊢
        have hsome' : (s.leases.insert lease.id lease)[id]? = some lease' := by rw [ht] at hsome; exact hsome
        rcases get_insert_eq_some.mp hsome' with ⟨rfl, rfl⟩ | ⟨-, hold⟩
        · exact ⟨rfl, by rw [hlease], request, now, candidates, rfl, rfl, hissue⟩
        · rw [hnone] at hold
          cases hold
  | redeemLease presented now => exact (OnlyLeases.redeemLease aead s presented now).callsLeases
  | revokeLease => exact (OnlyLeases.settle .revokeLease).callsLeases
  | expireLeases => exact (OnlyLeases.closeLeases s .expired _).callsLeases
  | reload => exact absurd rfl hop

/-! ### Runs -/

def Event.Released (e : Event) (presented : LeasePresentation) (now : U64) (plaintext : List UInt8) : Prop :=
  e.op = .redeemLease presented now ∧ e.result = .released (.ok plaintext)

def Event.Issued (e : Event) (request : SecretLeaseRequest) (lease : SecretLeaseMetadata) : Prop :=
  ∃ now candidates, e.op = .issueLease request now candidates ∧ e.result = .leased (.ok lease)

/-- What a lease says about the request it was issued for. -/
structure IssuedFor (request : SecretLeaseRequest) (lease : SecretLeaseMetadata) : Prop where
  identity : lease.identity = request.identity
  version : ∀ v, request.version = some v → lease.secretVersion = v
  execution : lease.executionLeaseId = request.executionLeaseId
  generation : lease.fencingGeneration = request.fencingGeneration
  step : lease.stepId = request.stepId
  purpose : lease.purpose = request.purpose
  expires : lease.expiresAtUnixMs = request.expiresAtUnixMs

/-- The leases, the fences and the history of a run. -/
structure LeaseTraced (h : List Event) (s : SecretVault) : Prop where
  issued : ∀ {id : String} {lease : SecretLeaseMetadata}, s.leases[id]? = some lease →
    lease.id = id ∧ ∃ e ∈ h, ∃ request, Event.Issued e request { lease with state := .issued } ∧
      IssuedFor request lease
  kept : ∀ e ∈ h, LeasesKept e.before.leases s.leases
  fences : ∀ e ∈ h, FencesKept e.before.activeFences s.activeFences
  consumed : ∀ e ∈ h, ∀ presented now plaintext, Event.Released e presented now plaintext →
    ∃ lease, s.leases[presented.leaseId]? = some lease ∧ lease.state = .consumed

theorem issuedFor_of_issueLease {request : SecretLeaseRequest} {candidates : List (Option (List UInt8))}
    (hissue : s.issueLease request now candidates = .ok (lease, t)) : IssuedFor request lease := by
  obtain ⟨-, -, ⟨_, -, -, _, -, hversion⟩, hlease, -⟩ := issueLease_spec hissue
  refine ⟨?_, fun v hv => by rw [hversion, hv]; rfl, ?_, ?_, ?_, ?_, ?_⟩ <;> rw [hlease]

theorem LeaseTraced.step (hs : LeaseTraced h s) (hop : op ≠ .reload) :
    LeaseTraced (⟨s, op, (s.step aead op).1⟩ :: h) (s.step aead op).2 := by
  have hcalls := callsLeases aead s hop
  refine ⟨fun {id lease} hget => ?_, fun e he => ?_, fun e he => ?_, fun e he presented now plaintext hreleased => ?_⟩
  · cases hold : s.leases[id]? with
    | none =>
      obtain ⟨hid, hissued, request, now, candidates, rfl, hreply, hissue⟩ := hcalls.new hold hget
      have hlease : { lease with state := .issued } = lease := by rw [← hissued]
      exact ⟨hid, _, mem_cons_self, request, ⟨now, candidates, rfl, hlease ▸ hreply⟩,
        issuedFor_of_issueLease hissue⟩
    | some =>
      obtain ⟨hid, e, he, request, hissued, hfor⟩ := hs.issued hold
      obtain ⟨state, hstate, -⟩ := hcalls.kept hold
      obtain rfl := Option.mem_unique hstate hget
      exact ⟨hid, e, mem_cons_of_mem _ he, request, hissued,
        ⟨hfor.identity, hfor.version, hfor.execution, hfor.generation, hfor.step, hfor.purpose, hfor.expires⟩⟩
  · rcases mem_cons.mp he with rfl | he
    · exact hcalls.kept
    · exact LeasesKept.trans (hs.kept e he) hcalls.kept
  · rcases mem_cons.mp he with rfl | he
    · exact hcalls.fences
    · exact FencesKept.trans (hs.fences e he) hcalls.fences
  · rcases mem_cons.mp he with rfl | he
    · obtain ⟨rfl, hresult⟩ := hreleased
      rcases redeemLease_cases aead s presented now with ⟨_, lease, -, hreleases⟩ | ⟨_, herror, -⟩
      · refine ⟨{ lease with state := .consumed }, ?_, rfl⟩
        show (s.redeemLease aead presented now).2.leases[presented.leaseId]? = _
        rw [hreleases.after]
        exact get_insert_self ..
      · have hreply : (s.redeemLease aead presented now).1 = .ok plaintext := Reply.released.inj hresult
        rw [herror] at hreply
        cases hreply
    · obtain ⟨_, hget, hconsumed⟩ := hs.consumed e he presented now plaintext hreleased
      obtain ⟨_, hstate, hclosed⟩ := hcalls.kept hget
      refine ⟨_, hstate, ?_⟩
      rw [← hconsumed]
      exact hclosed (by rw [hconsumed]; nofun)

theorem leaseTraced_of_reaches {s₀ : SecretVault} (hempty : s₀.leases = ∅) (hrun : Run.Reaches (step aead) s₀ h s)
    (hlive : ∀ e ∈ h, e.op ≠ .reload) : LeaseTraced h s := by
  induction hrun with
  | start =>
    refine ⟨fun hget => ?_, fun _ he => (nomatch he), fun _ he => (nomatch he), fun _ he => (nomatch he)⟩
    rw [hempty] at hget
    simp at hget
  | call _ _ ih =>
    obtain ⟨hop, hlive⟩ := forall_mem_cons.mp hlive
    exact (ih hlive).step hop

/-- What a release rests on: the calls before it and the vault at that moment. -/
structure Justified (earlier : List Event) (s : SecretVault) (presented : LeasePresentation) (now : U64)
    (plaintext : List UInt8) : Prop where
  once : ∀ e ∈ earlier, ∀ presented' now' plaintext', Event.Released e presented' now' plaintext' →
    presented'.leaseId ≠ presented.leaseId
  open_ : ∀ e ∈ earlier, ∀ lease : SecretLeaseMetadata, e.before.leases[presented.leaseId]? = some lease →
    lease.state = .issued
  issued : ∃ e ∈ earlier, ∃ request lease, Event.Issued e request lease ∧ lease.id = presented.leaseId ∧
    IssuedFor request lease ∧ s.leases[presented.leaseId]? = some lease ∧
    presented.executionLeaseId = request.executionLeaseId ∧ presented.stepId = request.stepId ∧
    presented.purpose = request.purpose ∧
    s.activeFences[request.executionLeaseId]? = some request.fencingGeneration ∧ now < request.expiresAtUnixMs ∧
    (∀ e' ∈ earlier, ¬Tombstones e' request.identity) ∧
    ∃ secret, stored earlier request.identity = some secret ∧ secret.status = .active ∧
      secret.plaintextAt (some lease.secretVersion) = some plaintext

theorem justified_of_releases (hinverts : aead.Inverts) {s₀ : SecretVault}
    (hstart : Refines aead s₀ (stored [])) (hrun : Run.Reaches (step aead) s₀ h s)
    (htraced : LeaseTraced h s) (hreleases : Releases aead s presented now plaintext lease t) :
    Justified h s presented now plaintext := by
  have hrefines := refines_of_reaches hinverts hstart hrun
  obtain ⟨hid, e, he, request, hissued, hfor⟩ := htraced.issued hreleases.found
  have hlease : { lease with state := .issued } = lease := by rw [← hreleases.issued]
  rw [hlease] at hissued
  obtain ⟨_, encrypted, hrecord, hactive, hencrypted, hdecrypt⟩ := hreleases.released
  obtain ⟨-, secret, hc, hholds⟩ := hrefines.held hrecord
  refine ⟨fun e' he' presented' now' plaintext' hreleased hsame => ?_, fun e' he' _ hget => ?_,
    e, he, request, lease, hissued, hid, hfor, hreleases.found, hreleases.execution.trans hfor.execution,
    hreleases.step.trans hfor.step, hreleases.purpose.trans hfor.purpose, ?_, hfor.expires ▸ hreleases.unexpired,
    fun e' he' htomb => ?_, secret, hfor.identity ▸ hc, hholds.status.symm.trans hactive,
    (hholds.decrypts_iff hinverts).mp ⟨encrypted, hencrypted, hdecrypt⟩⟩
  · obtain ⟨_, hget, hconsumed⟩ := htraced.consumed e' he' presented' now' plaintext' hreleased
    rw [hsame] at hget
    obtain rfl := Option.mem_unique hreleases.found hget
    rw [hreleases.issued] at hconsumed
    cases hconsumed
  · -- A lease that was closed before would still be so.
    obtain ⟨_, hstate, hclosed⟩ := htraced.kept e' he' hget
    obtain rfl := Option.mem_unique hreleases.found hstate
    by_contra hne
    exact hne ((hclosed hne).symm.trans hreleases.issued)
  · rw [← hfor.execution, ← hfor.generation]
    exact hreleases.fence
  · obtain ⟨_, hc', htombstoned⟩ := tombstoned_of_reaches hinverts hstart hrun he' htomb
    rw [← hfor.identity] at hc'
    obtain rfl := Option.mem_unique hc hc'
    rw [← hholds.status, hactive] at htombstoned
    cases htombstoned

/-- **Releases are justified by the calls before them**: in every run without a reload, a release is the first of
its lease, which was issued for exactly what is presented and is open, unexpired and in the active generation, with
the plaintext stored under the version of the lease. Fences never go back. -/
theorem releases_justified (aead : Aead) (hinverts : aead.Inverts) (kekId : String) (masterKey : Key)
    (s₀ : SecretVault) (hnew : SecretVault.new kekId masterKey = .ok s₀) (h : List Event) (s : SecretVault)
    (hrun : Run.Reaches (step aead) s₀ h s) (hlive : ∀ e ∈ h, e.op ≠ .reload) :
    (∀ later e earlier presented now plaintext, h = later ++ e :: earlier →
      Event.Released e presented now plaintext → Justified earlier e.before presented now plaintext) ∧
    ∀ e ∈ h, FencesKept e.before.activeFences s.activeFences := by
  have hempty : s₀.leases = ∅ := by
    simp only [SecretVault.new, bind_eq_ok, exists_unit, pure_eq_ok] at hnew
    obtain ⟨-, rfl⟩ := hnew
    rfl
  refine ⟨?_, (leaseTraced_of_reaches hempty hrun hlive).fences⟩
  rintro later e earlier presented now plaintext rfl ⟨hop, hok⟩
  obtain ⟨hbefore, hresult, -⟩ := hrun.split
  have hlive' : ∀ e' ∈ earlier, e'.op ≠ .reload := fun e' he' =>
    hlive e' (mem_append_right later (mem_cons_of_mem e he'))
  have htraced := leaseTraced_of_reaches hempty hbefore hlive'
  rw [hresult, hop] at hok
  have hredeem : (e.before.redeemLease aead presented now).1 = .ok plaintext := Reply.released.inj hok
  rcases redeemLease_cases aead e.before presented now with ⟨_, _, hok', hreleases⟩ | ⟨_, herror, -⟩
  · obtain rfl := Except.ok.inj (hredeem.symm.trans hok')
    exact justified_of_releases hinverts (refines_new hnew) hbefore htraced hreleases
  · rw [herror] at hredeem
    cases hredeem

/-! One lease, issued and redeemed after a rotation. -/

def leaseCalls : List Operation :=
  [.createSecret sampleIdentity [7] (sampleDraws 3), .setActiveFencingGeneration "exec" 1,
    .issueLease ⟨sampleIdentity, none, "exec", 1, "step", "deploy", 100⟩ 10 [some [255]],
    .rotateKek "kek2" (sampleKey 2) fun _ => some (sampleNonce 5)]

def leaseRun : List Event × SecretVault := Run.exec (step tagAead) emptyVault leaseCalls

def leasePresented : LeasePresentation := ⟨"ff", "exec", 1, "step", "deploy"⟩

theorem releases_justified_rotation : Justified leaseRun.1 leaseRun.2 leasePresented 20 [7] := by
  have hredeem : (leaseRun.2.redeemLease tagAead leasePresented 20).1.toOption = some [7] := by decide +kernel
  have hok : (leaseRun.2.redeemLease tagAead leasePresented 20).1 = .ok [7] := by
    cases hresult : (leaseRun.2.redeemLease tagAead leasePresented 20).1 with
    | error =>
      rw [hresult] at hredeem
      cases hredeem
    | ok =>
      rw [hresult] at hredeem
      exact congrArg _ (Option.some.inj hredeem)
  have hrun : Run.Reaches (step tagAead) emptyVault
      (⟨leaseRun.2, .redeemLease leasePresented 20, (leaseRun.2.step tagAead (.redeemLease leasePresented 20)).1⟩ ::
        leaseRun.1) _ :=
    .call (Run.reaches_exec (step tagAead) emptyVault leaseCalls) (.redeemLease leasePresented 20)
  refine (releases_justified tagAead tagAead_inverts "kek1" (sampleKey 1) emptyVault rfl _ _ hrun ?_).1 [] _
    leaseRun.1 leasePresented 20 [7] rfl ⟨rfl, congrArg Reply.released hok⟩
  intro e he
  rcases mem_cons.mp he with rfl | he
  · nofun
  · have hops : leaseRun.1.map Run.Event.op = leaseCalls.reverse := rfl
    have hmem := mem_map_of_mem (f := Run.Event.op) he
    rw [hops, mem_reverse] at hmem
    simp only [leaseCalls, mem_cons, not_mem_nil, or_false] at hmem
    rcases hmem with heq | heq | heq | heq <;> rw [heq] <;> nofun

end Runtrue.Secrets
