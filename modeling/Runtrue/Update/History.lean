import Runtrue.Base.Run
import Runtrue.Update.Acceptance

/-!
# Update histories

An updater that starts from a pinned root and takes over the state of every accepted bundle. Over any such history
the trusted roots form a chain of single rotations, the versions of the other roles only grow, and one version of a
role stands for one envelope, as far as SHA-256 tells the envelopes of the history apart (`never_goes_back`).

The invariant of the induction is `Follows`: the state's root and records are no older than what any accepted bundle
carried, and where they are of the same version they have the same digest.
-/

namespace Runtrue.Update

open Fallible List TrustedState Run

variable {lib : Libraries}

structure Request where
  bundle : ReleaseBundle
  targetPath : String
  now : U64

/-- The state of an accepted bundle replaces the current one. -/
def step (lib : Libraries) (state : TrustedState) (request : Request) :
    Except UpdateError VerifiedRelease × TrustedState :=
  match state.verifyReleaseMetadata lib request.bundle request.targetPath request.now with
  | .ok release => (.ok release, release.nextState)
  | .error error => (.error error, state)

abbrev UpdateEvent := Run.Event TrustedState Request (Except UpdateError VerifiedRelease)

/-! ### What a history says -/

/-- The version of each role under which a bundle was accepted. -/
def carriedVersion (request : Request) (release : VerifiedRelease) : RoleType → U64
  | .root => release.nextState.trustedRoot.signed.header.version
  | .targets => request.bundle.targets.signed.header.version
  | .snapshot => request.bundle.snapshot.signed.header.version
  | .timestamp => request.bundle.timestamp.signed.header.version

/-- The canonical bytes of each role's envelope under which a bundle was accepted. -/
def carriedBytes (lib : Libraries) (request : Request) (release : VerifiedRelease) :
    RoleType → Except UpdateError (List UInt8)
  | .root => release.nextState.trustedRoot.canonicalBytes lib
  | .targets => request.bundle.targets.canonicalBytes lib
  | .snapshot => request.bundle.snapshot.canonicalBytes lib
  | .timestamp => request.bundle.timestamp.canonicalBytes lib

/-- The envelopes, other than roots, that the accepted bundles of a history carried. -/
def carriedEnvelopes (lib : Libraries) (h : List UpdateEvent) : Set (List UInt8) :=
  { bytes | ∃ e ∈ h, ∃ release role, e.result = .ok release ∧ role ≠ .root ∧
    carriedBytes lib e.op release role = .ok bytes }

/-- The trusted roots of a history, newest first, after the root it started from. -/
def trustedRoots (root : SignedEnvelope RootMetadata) : List UpdateEvent → List (SignedEnvelope RootMetadata)
  | [] => [root]
  | e :: h =>
    match e.result with
    | .ok _ => e.op.bundle.rootRotations.reverse ++ trustedRoots root h
    | .error _ => trustedRoots root h

/-- What stands behind an accepted target. -/
structure Vouched (lib : Libraries) (request : Request) (release : VerifiedRelease) : Prop where
  listed : request.bundle.targets.signed.targets[request.targetPath]? = some release.target
  targetsPinned : Pins lib request.bundle.snapshot.signed.targets request.bundle.targets.signed.header.version
    request.bundle.targets
  snapshotPinned : Pins lib request.bundle.timestamp.signed.snapshot request.bundle.snapshot.signed.header.version
    request.bundle.snapshot
  targetsSigned : MeetsThreshold lib request.bundle.targets release.nextState.trustedRoot.signed .targets
  snapshotSigned : MeetsThreshold lib request.bundle.snapshot release.nextState.trustedRoot.signed .snapshot
  timestampSigned : MeetsThreshold lib request.bundle.timestamp release.nextState.trustedRoot.signed .timestamp
  unexpired : release.nextState.trustedRoot.signed.header.Unexpired request.now ∧
    request.bundle.targets.signed.header.Unexpired request.now ∧
    request.bundle.snapshot.signed.header.Unexpired request.now ∧
    request.bundle.timestamp.signed.header.Unexpired request.now

/-- The versions only grow, and a version stands for one envelope. -/
structure NeverBack (lib : Libraries) (root : SignedEnvelope RootMetadata) (h : List UpdateEvent)
    (s : TrustedState) : Prop where
  ordered : h.Pairwise fun later earlier => ∀ release release', earlier.result = .ok release →
    later.result = .ok release' → ∀ role,
      carriedVersion earlier.op release role ≤ carriedVersion later.op release' role ∧
      (carriedVersion earlier.op release role = carriedVersion later.op release' role →
        carriedBytes lib earlier.op release role = carriedBytes lib later.op release' role)
  current : (trustedRoots root h).head? = some s.trustedRoot
  rotations : (trustedRoots root h).IsChain fun new old => Rotates lib old new
  oneRoot : ∀ a ∈ trustedRoots root h, ∀ b ∈ trustedRoots root h,
    a.signed.header.version = b.signed.header.version → a = b
  vouched : ∀ e ∈ h, ∀ release, e.result = .ok release → Vouched lib e.op release

/-! ### One acceptance -/

/-- An accepted version is no newer than the record, and if it is that version it has its digest. -/
def Recorded {T : Type} [RoleMetadata T] (lib : Libraries) (record : Option TrustedMetadata) (version : U64)
    (envelope : SignedEnvelope T) : Prop :=
  ∃ trusted bytes, record = some trusted ∧ envelope.canonicalBytes lib = .ok bytes ∧ version ≤ trusted.version ∧
    (version = trusted.version → lib.sha256 bytes = trusted.sha256)

/-- A later envelope is of no older version, and one of the same version has the same digest. -/
def NotBefore {T : Type} [RoleMetadata T] (lib : Libraries) (version : U64) (envelope : SignedEnvelope T)
    (version' : U64) (envelope' : SignedEnvelope T) : Prop :=
  ∃ bytes bytes', envelope.canonicalBytes lib = .ok bytes ∧ envelope'.canonicalBytes lib = .ok bytes' ∧
    version ≤ version' ∧ (version = version' → lib.sha256 bytes = lib.sha256 bytes')

section
variable {T : Type} [RoleMetadata T] {envelope envelope' : SignedEnvelope T} {version version' : U64}
  {record : Option TrustedMetadata} {trusted : TrustedMetadata} {role : RoleType}

theorem fromEnvelope_eq_ok : TrustedMetadata.fromEnvelope lib version envelope = .ok trusted ↔
      ∃ bytes, envelope.canonicalBytes lib = .ok bytes ∧ trusted = ⟨version, lib.sha256 bytes⟩ := by
  simp only [TrustedMetadata.fromEnvelope, bind_eq_ok, pure_eq_ok, eq_comm (b := trusted)]

theorem recorded_of_fromEnvelope (h : TrustedMetadata.fromEnvelope lib version envelope = .ok trusted) :
    Recorded lib (some trusted) version envelope := by
  obtain ⟨bytes, hbytes, rfl⟩ := fromEnvelope_eq_ok.mp h
  exact ⟨_, bytes, rfl, hbytes, BitVec.le_refl _, fun _ => rfl⟩

theorem notBefore_of_checkRecord (hrecorded : Recorded lib record version envelope)
    (hcheck : checkRecord lib record version' envelope' role = .ok ())
    (hnew : TrustedMetadata.fromEnvelope lib version' envelope' = .ok trusted) :
    NotBefore lib version envelope version' envelope' := by
  obtain ⟨_, bytes, rfl, hbytes, hle, hsame⟩ := hrecorded
  obtain ⟨bytes', hbytes', rfl⟩ := fromEnvelope_eq_ok.mp hnew
  simp only [checkRecord, TrustedMetadata.checkNoRollback, bind_eq_ok, exists_unit, rejectIf_eq_ok] at hcheck
  obtain ⟨hnot, hcheck⟩ := hcheck
  have hle' := BitVec.not_lt.mp hnot
  refine ⟨bytes, bytes', hbytes, hbytes', BitVec.le_trans hle hle', ?_⟩
  rintro rfl
  have hversion := BitVec.le_antisymm hle hle'
  simp only [hversion, if_true, bind_eq_ok, fromEnvelope_eq_ok, rejectIf_eq_ok, not_not] at hcheck
  obtain ⟨_, ⟨_, hbytes'', rfl⟩, hdigest⟩ := hcheck
  rw [hbytes'] at hbytes''
  cases hbytes''
  exact (hsame hversion).trans hdigest.symm

theorem NotBefore.recorded (h : NotBefore lib version envelope version' envelope')
    (hnew : TrustedMetadata.fromEnvelope lib version' envelope' = .ok trusted) :
    Recorded lib (some trusted) version envelope := by
  obtain ⟨bytes, _, hbytes, hbytes', hle, hsame⟩ := h
  obtain ⟨_, hbytes'', rfl⟩ := fromEnvelope_eq_ok.mp hnew
  rw [hbytes'] at hbytes''
  cases hbytes''
  exact ⟨_, bytes, rfl, hbytes, hle, hsame⟩

theorem NotBefore.same_bytes {hashed : Set (List UInt8)} (hfree : Set.InjOn lib.sha256 hashed)
    (h : NotBefore lib version envelope version' envelope')
    (hmem : ∀ bytes, envelope.canonicalBytes lib = .ok bytes → bytes ∈ hashed)
    (hmem' : ∀ bytes, envelope'.canonicalBytes lib = .ok bytes → bytes ∈ hashed) :
    version ≤ version' ∧ (version = version' → envelope.canonicalBytes lib = envelope'.canonicalBytes lib) := by
  obtain ⟨bytes, bytes', hbytes, hbytes', hle, hsame⟩ := h
  refine ⟨hle, fun heq => ?_⟩
  rw [hbytes, hbytes', hfree (hmem bytes hbytes) (hmem' bytes' hbytes') (hsame heq)]

end

/-- A root that is no newer than another, and the same root if it is of the same version. -/
def RootNotBefore (root root' : SignedEnvelope RootMetadata) : Prop :=
  root.signed.header.version ≤ root'.signed.header.version ∧
    (root.signed.header.version = root'.signed.header.version → root = root')

/-- What an accepted bundle shows of an earlier one. -/
structure ComesAfter (lib : Libraries) (earlier : Request) (release : VerifiedRelease) (later : Request)
    (release' : VerifiedRelease) : Prop where
  root : RootNotBefore release.nextState.trustedRoot release'.nextState.trustedRoot
  targets : NotBefore lib earlier.bundle.targets.signed.header.version earlier.bundle.targets
    later.bundle.targets.signed.header.version later.bundle.targets
  snapshot : NotBefore lib earlier.bundle.snapshot.signed.header.version earlier.bundle.snapshot
    later.bundle.snapshot.signed.header.version later.bundle.snapshot
  timestamp : NotBefore lib earlier.bundle.timestamp.signed.header.version earlier.bundle.timestamp
    later.bundle.timestamp.signed.header.version later.bundle.timestamp

/-- The state is no older than an accepted bundle. -/
structure Covers (lib : Libraries) (s : TrustedState) (request : Request) (release : VerifiedRelease) : Prop where
  root : RootNotBefore release.nextState.trustedRoot s.trustedRoot
  targets : Recorded lib s.targets request.bundle.targets.signed.header.version request.bundle.targets
  snapshot : Recorded lib s.snapshot request.bundle.snapshot.signed.header.version request.bundle.snapshot
  timestamp : Recorded lib s.timestamp request.bundle.timestamp.signed.header.version request.bundle.timestamp

/-! ### Chains of roots -/

variable {roots : List (SignedEnvelope RootMetadata)}

theorem versions_of_isChain (h : roots.IsChain fun new old => Rotates lib old new) :
    roots.Pairwise fun new old => old.signed.header.version.toNat < new.signed.header.version.toNat := by
  have : IsTrans (SignedEnvelope RootMetadata) fun new old =>
      old.signed.header.version.toNat < new.signed.header.version.toNat := ⟨fun _ _ _ hab hbc => hbc.trans hab⟩
  refine isChain_iff_pairwise.mp (h.imp fun _ _ hrotates => ?_)
  rw [hrotates.version]
  exact Nat.lt_succ_self _

variable {a b : SignedEnvelope RootMetadata}

theorem eq_of_version_eq (h : roots.IsChain fun new old => Rotates lib old new) (ha : a ∈ roots)
    (hb : b ∈ roots) (hversion : a.signed.header.version = b.signed.header.version) : a = b := by
  have hnodup : (roots.map fun root => root.signed.header.version).Nodup :=
    pairwise_map.mpr ((versions_of_isChain h).imp fun hlt => ne_of_apply_ne BitVec.toNat hlt.ne')
  exact inj_on_of_nodup_map hnodup ha hb hversion

variable {root : SignedEnvelope RootMetadata}

theorem isChain_rotations {rotations older : List (SignedEnvelope RootMetadata)}
    (hnew : (root :: rotations).IsChain (Rotates lib))
    (hold : older.IsChain fun new old => Rotates lib old new) (hhead : older.head? = some root) :
    (rotations.reverse ++ older).IsChain (fun new old => Rotates lib old new) ∧
      (rotations.reverse ++ older).head? = some (rotations.getLastD root) := by
  induction rotations generalizing root older with
  | nil => exact ⟨hold, hhead⟩
  | cons rotation _ ih =>
    obtain ⟨hfirst, hrest⟩ := isChain_cons_cons.mp hnew
    have hold' : (rotation :: older).IsChain fun new old => Rotates lib old new := by
      cases older with
      | nil => exact .singleton _
      | cons head =>
        obtain rfl : head = root := Option.some.inj hhead
        exact .cons_cons hfirst hold
    rw [reverse_cons, append_assoc, getLastD_cons]
    exact ih hrest hold' rfl

/-! ### The induction -/

variable {rotations : List (SignedEnvelope RootMetadata)}

theorem rootNotBefore_rotations (h : (root :: rotations).IsChain (Rotates lib)) :
    RootNotBefore root (rotations.getLastD root) := by
  induction rotations generalizing root with
  | nil => exact ⟨BitVec.le_refl _, fun _ => rfl⟩
  | cons rotation rotations ih =>
    obtain ⟨hfirst, hrest⟩ := isChain_cons_cons.mp h
    obtain ⟨hle, -⟩ := ih hrest
    have hversion := hfirst.version
    rw [getLastD_cons]
    have hlt : root.signed.header.version < (rotations.getLastD rotation).signed.header.version := by
      rw [BitVec.lt_def]
      rw [BitVec.le_def] at hle
      omega
    exact ⟨BitVec.le_of_lt hlt, fun heq => absurd (heq ▸ hlt) (BitVec.lt_irrefl _)⟩

theorem RootNotBefore.trans {a b c : SignedEnvelope RootMetadata} (hab : RootNotBefore a b)
    (hbc : RootNotBefore b c) : RootNotBefore a c := by
  refine ⟨BitVec.le_trans hab.1 hbc.1, fun heq => ?_⟩
  have hab' := hab.2 (BitVec.le_antisymm hab.1 (heq ▸ hbc.1))
  have hbc' := hbc.2 (BitVec.le_antisymm hbc.1 (heq ▸ hab.1))
  exact hab'.trans hbc'

section
variable {state next : TrustedState} {request : Request} {target : TargetDescription}
  {timestamp snapshot targets : TrustedMetadata}

section
variable (h : Accepts lib state request.bundle request.targetPath request.now next target timestamp snapshot targets)
include h

theorem Accepts.vouched :
    Vouched lib request (accepted next request.targetPath target timestamp snapshot targets) where
  listed := h.listed
  targetsPinned := pins_of_verify h.targetsPinned
  snapshotPinned := pins_of_verify h.snapshotPinned
  targetsSigned := (thresholdPassed h.targetsSigned).meets
  snapshotSigned := (thresholdPassed h.snapshotSigned).meets
  timestampSigned := (thresholdPassed h.timestampSigned).meets
  unexpired := ⟨(RootMetadata.validateAt_spec h.rootAt).2.2, (header_of_validateAt h.targetsAt).2,
    (header_of_validateAt h.snapshotAt).2, (header_of_validateAt h.timestampAt).2⟩

theorem Accepts.covers :
    Covers lib (accepted next request.targetPath target timestamp snapshot targets).nextState request
      (accepted next request.targetPath target timestamp snapshot targets) where
  root := ⟨BitVec.le_refl _, fun _ => rfl⟩
  targets := recorded_of_fromEnvelope h.targetsRecord
  snapshot := recorded_of_fromEnvelope h.snapshotRecord
  timestamp := recorded_of_fromEnvelope h.timestampRecord

end

variable {earlier : Request} {release : VerifiedRelease}

section
variable (h : Accepts lib state request.bundle request.targetPath request.now next target timestamp snapshot targets)
include h

theorem Accepts.comesAfter (hcovers : Covers lib state earlier release) :
    ComesAfter lib earlier release request (accepted next request.targetPath target timestamp snapshot targets) := by
  obtain ⟨rfl, hchain⟩ := rotations_spec h.rotated
  exact ⟨hcovers.root.trans (rootNotBefore_rotations hchain),
    notBefore_of_checkRecord hcovers.targets h.targetsFresh h.targetsRecord,
    notBefore_of_checkRecord hcovers.snapshot h.snapshotFresh h.snapshotRecord,
    notBefore_of_checkRecord hcovers.timestamp h.timestampFresh h.timestampRecord⟩

theorem Accepts.covers_earlier (hcovers : Covers lib state earlier release) :
    Covers lib (accepted next request.targetPath target timestamp snapshot targets).nextState earlier release := by
  have hafter := h.comesAfter hcovers
  exact ⟨hafter.root, hafter.targets.recorded h.targetsRecord, hafter.snapshot.recorded h.snapshotRecord,
    hafter.timestamp.recorded h.timestampRecord⟩

end

end

/-- The invariant: the state covers every accepted bundle, and its root tops the chain of trusted roots. -/
structure Follows (lib : Libraries) (root : SignedEnvelope RootMetadata) (h : List UpdateEvent) (s : TrustedState) :
    Prop where
  covers : ∀ e ∈ h, ∀ release, e.result = .ok release → Covers lib s e.op release
  ordered : h.Pairwise fun later earlier => ∀ release release', earlier.result = .ok release →
    later.result = .ok release' → ComesAfter lib earlier.op release later.op release'
  current : (trustedRoots root h).head? = some s.trustedRoot
  rotations : (trustedRoots root h).IsChain fun new old => Rotates lib old new
  vouched : ∀ e ∈ h, ∀ release, e.result = .ok release → Vouched lib e.op release

variable {h : List UpdateEvent} {s : TrustedState}

theorem Follows.step (hf : Follows lib root h s) (request : Request) :
    Follows lib root (⟨s, request, (Update.step lib s request).1⟩ :: h) (Update.step lib s request).2 := by
  unfold Update.step
  cases hverify : s.verifyReleaseMetadata lib request.bundle request.targetPath request.now with
  | error error =>
    have hrefused : ∀ release, (Except.error error : Except UpdateError VerifiedRelease) ≠ .ok release :=
      fun _ h => by cases h
    exact ⟨forall_mem_cons.mpr ⟨fun _ hok => absurd hok (hrefused _), hf.covers⟩,
      pairwise_cons.mpr ⟨fun _ _ _ _ _ hok => absurd hok (hrefused _), hf.ordered⟩, hf.current, hf.rotations,
      forall_mem_cons.mpr ⟨fun _ hok => absurd hok (hrefused _), hf.vouched⟩⟩
  | ok release =>
    obtain ⟨next, target, timestamp, snapshot, targets, haccepts, rfl⟩ := verifyReleaseMetadata_eq_ok.mp hverify
    obtain ⟨hnext, hchain⟩ := rotations_spec haccepts.rotated
    obtain ⟨hrotations, hhead⟩ := isChain_rotations hchain hf.rotations hf.current
    refine ⟨forall_mem_cons.mpr ⟨?_, fun e he release hok => ?_⟩,
      pairwise_cons.mpr ⟨fun e he release _ hok hok' => ?_, hf.ordered⟩, ?_, hrotations,
      forall_mem_cons.mpr ⟨?_, hf.vouched⟩⟩
    · rintro release hok
      cases hok
      exact haccepts.covers
    · exact haccepts.covers_earlier (hf.covers e he release hok)
    · cases hok'
      exact haccepts.comesAfter (hf.covers e he release hok)
    · rw [show (accepted next request.targetPath target timestamp snapshot targets).nextState.trustedRoot =
        next.trustedRoot from rfl, hnext]
      exact hhead
    · rintro _ hok
      cases hok
      exact haccepts.vouched

theorem follows_of_reaches {expected : ContentDigest} {now : U64} {s₀ s : TrustedState}
    (hboot : bootstrap lib root expected now = .ok s₀)
    (hrun : Reaches (step lib) s₀ h s) : Follows lib root h s := by
  simp only [bootstrap, bind_eq_ok, exists_unit, pure_eq_ok] at hboot
  obtain ⟨_, -, -, -, -, rfl⟩ := hboot
  induction hrun with
  | start => exact ⟨by simp, .nil, rfl, .singleton root, by simp⟩
  | call _ request ih => exact ih.step request

/-- **Software updates never go back**: over every sequence of bundles, the versions of all roles only grow and a
version stands for one envelope, roots grow by single steps that both roots sign, and every accepted target is
vouched for by unexpired metadata that the current root's thresholds sign. -/
theorem never_goes_back {root : SignedEnvelope RootMetadata} {expected : ContentDigest} {now : U64}
    {s₀ s : TrustedState} {h : List UpdateEvent} (hboot : TrustedState.bootstrap lib root expected now = .ok s₀)
    (hrun : Run.Reaches (step lib) s₀ h s) (hfree : Set.InjOn lib.sha256 (carriedEnvelopes lib h)) :
    NeverBack lib root h s := by
  have hf := follows_of_reaches hboot hrun
  refine ⟨hf.ordered.imp_of_mem fun {later earlier} hlater hearlier hafter release release' hok hok' role => ?_,
    hf.current, hf.rotations, fun a ha b hb => eq_of_version_eq hf.rotations ha hb, hf.vouched⟩
  have hordered := hafter release release' hok hok'
  have hmem : ∀ role ≠ .root, ∀ bytes, carriedBytes lib earlier.op release role = .ok bytes →
      bytes ∈ carriedEnvelopes lib h :=
    fun role hrole bytes hbytes => ⟨earlier, hearlier, release, role, hok, hrole, hbytes⟩
  have hmem' : ∀ role ≠ .root, ∀ bytes, carriedBytes lib later.op release' role = .ok bytes →
      bytes ∈ carriedEnvelopes lib h :=
    fun role hrole _ hbytes => ⟨later, hlater, release', role, hok', hrole, hbytes⟩
  cases role with
  | root => exact ⟨hordered.root.1, fun heq => congrArg (SignedEnvelope.canonicalBytes · lib) (hordered.root.2 heq)⟩
  | targets => exact hordered.targets.same_bytes hfree (hmem .targets (by decide)) (hmem' .targets (by decide))
  | snapshot => exact hordered.snapshot.same_bytes hfree (hmem .snapshot (by decide)) (hmem' .snapshot (by decide))
  | timestamp => exact hordered.timestamp.same_bytes hfree (hmem .timestamp (by decide)) (hmem' .timestamp (by decide))

/-! ### A history with a rotation -/

/-- Libraries that can be evaluated: the length and the first byte in place of the hash, and signatures that repeat
their key. -/
def plainLibraries : Libraries where
  sha256 bytes := ⟨BitVec.ofNat 256 (bytes.length * 256 + (bytes.headD 0).toNat)⟩
  isVerifyingKey _ := true
  verifies key _ signature := signature.take 32 = key
  showFloat _ := ""

/-- The key of one repeated digit, and its signature. -/
def plainKey (digit : Nat) : UpdatePublicKey where
  algorithm := "ed25519"
  publicKeyHex := String.ofList (List.replicate 64 (Nat.digitChar digit))

def plainKeyId (digit : Nat) : ContentDigest := ⟨BitVec.ofNat 256 (32 * 256 + 17 * digit)⟩

def plainSignature (digit : Nat) : MetadataSignature where
  keyId := plainKeyId digit
  algorithm := "ed25519"
  signatureHex := String.ofList (List.replicate 128 (Nat.digitChar digit))

def plainHeader (role : RoleType) (version : U64) : MetadataHeader := ⟨1, role, version, 10, 20⟩

def plainRoot (version : U64) : SignedEnvelope RootMetadata where
  signed :=
    { header := plainHeader .root version
      keys := .ofList ([1, 2, 3, 4].map fun digit => (plainKeyId digit, plainKey digit))
      roles := .ofList (RoleType.all.map fun role =>
        (role, RoleAssignment.mk (.ofList [plainKeyId (role.index + 1)]) 1)) }
  signatures := [plainSignature 1]

def plainTargets : SignedEnvelope TargetsMetadata where
  signed :=
    { header := plainHeader .targets 1
      targets := .ofList [("a", TargetDescription.mk (plainKeyId 0) 1 "t" "p" "a" "v" ∅)] }
  signatures := [plainSignature 2]

def plainSnapshot : SignedEnvelope SnapshotMetadata where
  signed := { header := plainHeader .snapshot 1, targets := ⟨1, ⟨145531#256⟩, 568⟩ }
  signatures := [plainSignature 3]

def plainTimestamp : SignedEnvelope TimestampMetadata where
  signed := { header := plainHeader .timestamp 1, snapshot := ⟨1, ⟨131195#256⟩, 512⟩ }
  signatures := [plainSignature 4]

def plainBundle (rootRotations : List (SignedEnvelope RootMetadata)) : ReleaseBundle where
  rootRotations := rootRotations
  targets := plainTargets
  snapshot := plainSnapshot
  timestamp := plainTimestamp

/-- The state of an updater that trusts the first root and has accepted nothing. -/
def plainState : TrustedState := ⟨1, plainRoot 1, none, none, none⟩

/-- The request that brings the second root. -/
def rotation : Request := ⟨plainBundle [plainRoot 2], "a", 12⟩

theorem exists_rotation_accepted :
    ∃ release, plainState.verifyReleaseMetadata plainLibraries rotation.bundle rotation.targetPath rotation.now =
      .ok release := by
  have hok : (plainState.verifyReleaseMetadata plainLibraries rotation.bundle rotation.targetPath
      rotation.now).toOption.any (fun _ => true) = true := by decide +kernel
  obtain ⟨release, hrelease, -⟩ := exists_eq_ok_of_any hok
  exact ⟨release, hrelease⟩

theorem plain_length_eq {a b : List UInt8} (ha : a.length < 1024) (hb : b.length < 1024)
    (h : plainLibraries.sha256 a = plainLibraries.sha256 b) : a.length = b.length := by
  have hbits := congrArg (fun digest => digest.bits.toNat) h
  have hheadA := (a.headD 0).toNat_lt
  have hheadB := (b.headD 0).toNat_lt
  simp only [plainLibraries, BitVec.toNat_ofNat] at hbits
  omega

def plainLength : RoleType → Nat
  | .root => 0
  | .targets => 568
  | .snapshot => 512
  | .timestamp => 514

theorem plainLength_inj {role role' : RoleType} (h : plainLength role = plainLength role') : role = role' := by
  cases role <;> cases role' <;> first | rfl | exact absurd h (by decide)

variable {role : RoleType}

theorem plain_lengths {release : VerifiedRelease} {bytes : List UInt8} (hrole : role ≠ .root)
    (hvouched : Vouched plainLibraries rotation release)
    (hbytes : carriedBytes plainLibraries rotation release role = .ok bytes) : bytes.length = plainLength role := by
  cases role with
  | root => exact absurd rfl hrole
  | targets =>
    obtain ⟨bytes', hbytes', -, -, hlength⟩ := hvouched.targetsPinned
    obtain rfl := Except.ok.inj (hbytes.symm.trans hbytes')
    exact hlength.symm.trans (by rfl)
  | snapshot =>
    obtain ⟨bytes', hbytes', -, -, hlength⟩ := hvouched.snapshotPinned
    obtain rfl := Except.ok.inj (hbytes.symm.trans hbytes')
    exact hlength.symm.trans (by rfl)
  | timestamp =>
    have hany : (plainTimestamp.canonicalBytes plainLibraries).toOption.any (·.length = 514) = true := by
      decide +kernel
    obtain ⟨_, hbytes', hlength⟩ := exists_eq_ok_of_any hany
    obtain rfl := Except.ok.inj (hbytes.symm.trans hbytes')
    exact of_decide_eq_true hlength

theorem never_goes_back_rotation :
    ∃ release s, TrustedState.bootstrap plainLibraries (plainRoot 1) ⟨405371⟩ 12 = .ok plainState ∧
      s.trustedRoot = plainRoot 2 ∧
      NeverBack plainLibraries (plainRoot 1) [⟨plainState, rotation, .ok release⟩] s := by
  have hboot : bootstrap plainLibraries (plainRoot 1) ⟨405371⟩ 12 = .ok plainState := by
    have hok : (bootstrap plainLibraries (plainRoot 1) ⟨405371⟩ 12).toOption.any
        (fun _ => true) = true := by decide +kernel
    obtain ⟨_, hs, -⟩ := exists_eq_ok_of_any hok
    have hs' := hs
    simp only [bootstrap, bind_eq_ok, exists_unit, pure_eq_ok] at hs'
    obtain ⟨_, -, -, -, -, rfl⟩ := hs'
    exact hs
  obtain ⟨release, hrelease⟩ := exists_rotation_accepted
  have hstep : step plainLibraries plainState rotation = (.ok release, release.nextState) := by
    rw [step, hrelease]
  have hrun : Reaches (step plainLibraries) plainState [⟨plainState, rotation, .ok release⟩] release.nextState := by
    have hcall : Reaches (step plainLibraries) plainState
        [⟨plainState, rotation, (step plainLibraries plainState rotation).1⟩]
        (step plainLibraries plainState rotation).2 := .call .start rotation
    rwa [hstep] at hcall
  have hvouched := (follows_of_reaches hboot hrun).vouched _ mem_cons_self release rfl
  have hcurrent := (follows_of_reaches hboot hrun).current
  refine ⟨release, release.nextState, hboot, (Option.some.inj hcurrent).symm, never_goes_back hboot hrun ?_⟩
  rintro _ ⟨_, he, _, role, hok, hrole, ha⟩ _ ⟨_, he', _, role', hok', hrole', hb⟩ hab
  obtain rfl := mem_singleton.mp he
  obtain rfl := mem_singleton.mp he'
  cases hok
  cases hok'
  have hlength := plain_lengths hrole hvouched ha
  have hlength' := plain_lengths hrole' hvouched hb
  have heq := plain_length_eq (by rw [hlength]; cases role <;> decide) (by rw [hlength']; cases role' <;> decide) hab
  rw [hlength, hlength'] at heq
  obtain rfl := plainLength_inj heq
  exact Except.ok.inj (ha.symm.trans hb)

end Runtrue.Update
