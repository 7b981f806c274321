import Runtrue.Base.Encoding
import Runtrue.Base.Fallible

/-!
# The channel between host and guest

Every frame carries its direction, session and sequence number under an HMAC with the session's key. The
attacker delivers any frame, at any time, to either end. It cannot forge: a frame with the right tag was
authenticated before, by an end of this session or of another one (`Unforged`).

What is authenticated determines direction, session, sequence and payload (`authenticateFields_inj`). So the
payload an end accepts next is the one that the other end sent under that number (`Ordered`).
-/

namespace Runtrue.Guest

open Fallible Encoding List Fixed

def guestProtocolVersion : U32 := 1
def maxGuestMessageBytes : Nat := 2 * 1024 * 1024
def hostMessageDomain : List UInt8 := Text.bytes "runtrue.guest.host-command.v1\x00"
def guestMessageDomain : List UInt8 := Text.bytes "runtrue.guest.event.v1\x00"

/-- Commands go from the host to the guest, events back. -/
inductive Direction
  | command | event

def Direction.domain : Direction → List UInt8
  | .command => hostMessageDomain
  | .event => guestMessageDomain

inductive GuestError
  | unsupportedProtocol (version : U32)
  | wrongSession
  | unexpectedSequence (expected actual : U64)
  | messageSize (length : Nat)
  | json | authenticationFailed | nonCanonicalMessage | sequenceExhausted

structure AuthenticatedEnvelope where
  protocolVersion : U32
  sessionId : String
  sequence : U64
  payload : List UInt8
  authenticationTag : List UInt8

/-- The JSON text of a message, and the reading of a text. -/
structure Serde (T : Type) where
  toVec : T → Except GuestError (List UInt8)
  strictCanonicalJson : List UInt8 → Except GuestError T

/-! ### Signing and verifying -/

/-- What `authenticate_fields` feeds to the HMAC. -/
def authenticateFields (direction : Direction) (sessionId : String) (sequence : U64) (payload : List UInt8) :
    Except GuestError (List UInt8) := do
  let sessionLength ← okOr (Fixed.tryFrom 32 (Text.bytes sessionId).length) (.messageSize 0)
  let payloadLength ← okOr (Fixed.tryFrom 64 payload.length) (.messageSize 0)
  return direction.domain ++ (bigEndian 4 guestProtocolVersion.toNat ++ (bigEndian 4 sessionLength.toNat ++
    (Text.bytes sessionId ++ (u64 sequence ++ (u64 payloadLength ++ payload)))))

/-- An end of a session: `HostSessionCodec`, or the part of a guest session that its channel uses. -/
structure Codec where
  sessionId : String
  /-- `next_command_sequence` of the host, `next_guest_sequence` of the guest. -/
  nextSent : U64
  /-- `next_event_sequence` of the host, `next_host_sequence` of the guest. -/
  nextReceived : U64

section
variable (hmac : List UInt8 → List UInt8) {T : Type} (serde : Serde T) (direction : Direction)

def signEnvelope (sessionId : String) (sequence : U64) (value : T) : Except GuestError AuthenticatedEnvelope := do
  let payload ← serde.toVec value
  rejectIf (payload = [] ∨ maxGuestMessageBytes < payload.length) (.messageSize payload.length)
  let input ← authenticateFields direction sessionId sequence payload
  return ⟨guestProtocolVersion, sessionId, sequence, payload, hmac input⟩

def verifyEnvelope (sessionId : String) (expectedSequence : U64) (envelope : AuthenticatedEnvelope) :
    Except GuestError T := do
  rejectIf (envelope.protocolVersion ≠ guestProtocolVersion) (.unsupportedProtocol envelope.protocolVersion)
  rejectIf (envelope.sessionId ≠ sessionId) .wrongSession
  rejectIf (envelope.sequence ≠ expectedSequence) (.unexpectedSequence expectedSequence envelope.sequence)
  rejectIf (envelope.payload = [] ∨ maxGuestMessageBytes < envelope.payload.length)
    (.messageSize envelope.payload.length)
  let input ← authenticateFields direction sessionId envelope.sequence envelope.payload
  rejectIf (hmac input ≠ envelope.authenticationTag) .authenticationFailed
  let value ← serde.strictCanonicalJson envelope.payload
  let canonical ← serde.toVec value
  rejectIf (canonical ≠ envelope.payload) .nonCanonicalMessage
  return value

namespace Codec
variable (codec : Codec)

def send (value : T) : Except GuestError (AuthenticatedEnvelope × Codec) := do
  let envelope ← signEnvelope hmac serde direction codec.sessionId codec.nextSent value
  let next ← okOr (Fixed.checkedAdd codec.nextSent 1) .sequenceExhausted
  return (envelope, { codec with nextSent := next })

def receive (envelope : AuthenticatedEnvelope) : Except GuestError (T × Codec) := do
  let value ← verifyEnvelope hmac serde direction codec.sessionId codec.nextReceived envelope
  let next ← okOr (Fixed.checkedAdd codec.nextReceived 1) .sequenceExhausted
  return (value, { codec with nextReceived := next })

/-- Of the host. -/
def command := send hmac serde .command codec
def verifyEvent := receive hmac serde .event codec

/-- Of the guest, `accept` up to its call of `apply`: the number is used up whatever `apply` makes of the command,
and what `apply` sends goes through `emit`. -/
def accept := receive hmac serde .command codec
def emit := send hmac serde .event codec

end Codec

end

/-! ### The two ends and the wire -/

/-- Both ends, what was authenticated under their key, and the payloads each sent and accepted. -/
structure Link where
  host : Codec
  guest : Codec
  signed : List (List UInt8)
  commandsSent : List (List UInt8)
  commandsAccepted : List (List UInt8)
  eventsSent : List (List UInt8)
  eventsAccepted : List (List UInt8)

def Link.new (sessionId : String) : Link := ⟨⟨sessionId, 1, 1⟩, ⟨sessionId, 1, 1⟩, [], [], [], [], []⟩

/-- If the frame's tag is right, then what it authenticates was authenticated before. -/
def Unforged (hmac : List UInt8 → List UInt8) (signed : List (List UInt8)) (direction : Direction)
    (sessionId : String) (envelope : AuthenticatedEnvelope) : Prop :=
  ∀ input, authenticateFields direction sessionId envelope.sequence envelope.payload = .ok input →
    hmac input = envelope.authenticationTag → input ∈ signed

section
variable (hmac : List UInt8 → List UInt8) {Command Event : Type} (commands : Serde Command) (events : Serde Event)

/-- An end sends, an end accepts a frame of the attacker's choice, or the key is used in another session. -/
inductive Step (s : Link) : Link → Prop
  | command {value : Command} {envelope : AuthenticatedEnvelope} {host : Codec} {input : List UInt8}
      (hsend : s.host.command hmac commands value = .ok (envelope, host))
      (hinput : authenticateFields .command s.host.sessionId envelope.sequence envelope.payload = .ok input) :
      Step s { s with host, signed := input :: s.signed, commandsSent := s.commandsSent ++ [envelope.payload] }
  | emit {value : Event} {envelope : AuthenticatedEnvelope} {guest : Codec} {input : List UInt8}
      (hsend : s.guest.emit hmac events value = .ok (envelope, guest))
      (hinput : authenticateFields .event s.guest.sessionId envelope.sequence envelope.payload = .ok input) :
      Step s { s with guest, signed := input :: s.signed, eventsSent := s.eventsSent ++ [envelope.payload] }
  | accept {value : Command} {envelope : AuthenticatedEnvelope} {guest : Codec}
      (hunforged : Unforged hmac s.signed .command s.guest.sessionId envelope)
      (haccept : s.guest.accept hmac commands envelope = .ok (value, guest)) :
      Step s { s with guest, commandsAccepted := s.commandsAccepted ++ [envelope.payload] }
  | verifyEvent {value : Event} {envelope : AuthenticatedEnvelope} {host : Codec}
      (hunforged : Unforged hmac s.signed .event s.host.sessionId envelope)
      (haccept : s.host.verifyEvent hmac events envelope = .ok (value, host)) :
      Step s { s with host, eventsAccepted := s.eventsAccepted ++ [envelope.payload] }
  | elsewhere {direction : Direction} {input payload : List UInt8} {sessionId : String} {sequence : U64}
      (hother : sessionId ≠ s.host.sessionId)
      (hinput : authenticateFields direction sessionId sequence payload = .ok input) :
      Step s { s with signed := input :: s.signed }

end

/-! ### What is authenticated -/

section
variable {direction direction' : Direction} {sessionId sessionId' : String} {sequence sequence' : U64}
  {payload payload' input : List UInt8}

theorem domain_inj {r r' : List UInt8} (h : direction.domain ++ r = direction'.domain ++ r') :
    direction = direction' ∧ r = r' := by
  have htake : ∀ (d : Direction) (r : List UInt8), (d.domain ++ r).take 15 = d.domain.take 15 := by
    intro d r
    refine take_append_of_le_length ?_
    cases d <;> decide +kernel
  have hsame := congrArg (take 15) h
  rw [htake, htake] at hsame
  cases direction <;> cases direction'
  case command.command | event.event => exact ⟨rfl, append_cancel_left h⟩
  all_goals exact absurd hsame (by decide +kernel)

theorem authenticateFields_inj (h : authenticateFields direction sessionId sequence payload = .ok input)
    (h' : authenticateFields direction' sessionId' sequence' payload' = .ok input) :
    direction = direction' ∧ sessionId = sessionId' ∧ sequence = sequence' ∧ payload = payload' := by
  simp only [authenticateFields, bind_eq_ok, okOr_eq_ok, pure_eq_ok, tryFrom_eq_some] at h h'
  obtain ⟨length, hlength, _, -, rfl⟩ := h
  obtain ⟨length', hlength', _, -, h⟩ := h'
  obtain ⟨hdirection, h⟩ := domain_inj h
  obtain ⟨-, h⟩ := append_inj h rfl
  obtain ⟨hsize, h⟩ := append_inj h (by rw [length_bigEndian, length_bigEndian])
  have hsession := bigEndian_inj length'.isLt length.isLt hsize
  -- the session's length is known by now, so that its text ends at the same place
  obtain ⟨hid, h⟩ := append_inj h (by rw [← hlength, ← hlength', hsession])
  obtain ⟨hsequence, h⟩ := delimited_u64 trivial trivial h
  obtain ⟨-, hpayload⟩ := delimited_u64 trivial trivial h
  exact ⟨hdirection.symm, (bytes_inj hid).symm, hsequence.symm, hpayload.symm⟩

end

/-! ### One direction -/

section
variable {hmac : List UInt8 → List UInt8} {T : Type} {serde : Serde T} {direction : Direction} {codec codec' : Codec}
  {value : T} {envelope : AuthenticatedEnvelope}

theorem Codec.send_spec (h : codec.send hmac serde direction value = .ok (envelope, codec')) :
    ∃ next, codec' = { codec with nextSent := next } ∧ next.toNat = codec.nextSent.toNat + 1 ∧
      envelope.sequence = codec.nextSent := by
  simp only [send, signEnvelope, bind_eq_ok, okOr_eq_ok, pure_eq_ok, Prod.mk.injEq, exists_unit] at h
  obtain ⟨_, ⟨_, -, -, _, -, rfl⟩, next, hnext, rfl, rfl⟩ := h
  exact ⟨next, rfl, checkedAdd_eq_some.mp hnext, rfl⟩

theorem Codec.receive_spec (h : codec.receive hmac serde direction envelope = .ok (value, codec')) :
    ∃ next, codec' = { codec with nextReceived := next } ∧ next.toNat = codec.nextReceived.toNat + 1 ∧
      envelope.sequence = codec.nextReceived ∧ ∃ input, hmac input = envelope.authenticationTag ∧
        authenticateFields direction codec.sessionId envelope.sequence envelope.payload = .ok input := by
  simp only [receive, verifyEnvelope, bind_eq_ok, okOr_eq_ok, pure_eq_ok, Prod.mk.injEq, exists_unit,
    rejectIf_eq_ok, ne_eq, not_not] at h
  obtain ⟨_, ⟨-, -, hsequence, -, input, hinput, htag, -⟩, next, hnext, -, rfl⟩ := h
  exact ⟨next, rfl, checkedAdd_eq_some.mp hnext, hsequence, input, htag, hinput⟩

end

/-- The counters count the payloads, what was authenticated was sent under its number, and what was accepted was sent
first. -/
structure Ordered (direction : Direction) (sessionId : String) (signed sent accepted : List (List UInt8))
    (next expected : U64) : Prop where
  next : next.toNat = sent.length + 1
  expected : expected.toNat = accepted.length + 1
  signed : ∀ {sequence payload input}, authenticateFields direction sessionId sequence payload = .ok input →
    input ∈ signed → ∃ k, sequence.toNat = k + 1 ∧ sent[k]? = some payload
  inOrder : accepted <+: sent

section
variable {direction direction' : Direction} {sessionId sessionId' : String}
  {signed sent accepted : List (List UInt8)} {next expected sequence number : U64} {payload input : List UInt8}
  (h : Ordered direction sessionId signed sent accepted next expected)
include h

theorem Ordered.other (hother : direction' = direction → sessionId' ≠ sessionId)
    (hinput : authenticateFields direction' sessionId' sequence payload = .ok input) :
    Ordered direction sessionId (input :: signed) sent accepted next expected := by
  refine { h with signed := fun hi hmem => ?_ }
  rcases mem_cons.mp hmem with rfl | hmem
  · obtain ⟨hdirection, hsession, -, -⟩ := authenticateFields_inj hinput hi
    exact absurd hsession (hother hdirection)
  · exact h.signed hi hmem

theorem Ordered.sends (hnumber : number.toNat = next.toNat + 1) (hsequence : sequence = next)
    (hinput : authenticateFields direction sessionId sequence payload = .ok input) :
    Ordered direction sessionId (input :: signed) (sent ++ [payload]) accepted number expected := by
  refine ⟨?_, h.expected, fun hi hmem => ?_, h.inOrder.trans (prefix_append _ _)⟩
  · rw [hnumber, h.next, length_append]
    rfl
  · rcases mem_cons.mp hmem with rfl | hmem
    · obtain ⟨-, -, rfl, rfl⟩ := authenticateFields_inj hinput hi
      exact ⟨sent.length, hsequence ▸ h.next, getElem?_concat_length⟩
    · obtain ⟨k, hk, hsent⟩ := h.signed hi hmem
      exact ⟨k, hk, getElem?_append_left (List.getElem?_eq_some_iff.mp hsent).1 ▸ hsent⟩

theorem Ordered.receives (hnumber : number.toNat = expected.toNat + 1) (hsequence : sequence = expected)
    (hinput : authenticateFields direction sessionId sequence payload = .ok input) (hmem : input ∈ signed) :
    Ordered direction sessionId signed sent (accepted ++ [payload]) next number := by
  obtain ⟨k, hk, hsent⟩ := h.signed hinput hmem
  have hlast : k = accepted.length := by
    have hexpected := h.expected
    rw [hsequence] at hk
    omega
  refine ⟨h.next, ?_, h.signed, ?_⟩
  · rw [hnumber, h.expected, length_append]
    rfl
  · obtain ⟨more, rfl⟩ := h.inOrder
    rw [hlast, getElem?_append_right le_rfl, Nat.sub_self] at hsent
    cases more with
    | nil => cases hsent
    | cons _ more =>
      cases hsent
      exact ⟨more, by rw [append_assoc]; rfl⟩

end

/-! ### The session -/

structure Link.Authentic (s : Link) : Prop where
  session : s.guest.sessionId = s.host.sessionId
  commands : Ordered .command s.host.sessionId s.signed s.commandsSent s.commandsAccepted s.host.nextSent
    s.guest.nextReceived
  events : Ordered .event s.host.sessionId s.signed s.eventsSent s.eventsAccepted s.guest.nextSent
    s.host.nextReceived

section
variable {hmac : List UInt8 → List UInt8} {Command Event : Type} {commands : Serde Command} {events : Serde Event}
  {sessionId : String} {s t : Link}

theorem Link.Authentic.step (h : s.Authentic) (hstep : Step hmac commands events s t) : t.Authentic := by
  obtain ⟨hsession, hcommands, hevents⟩ := h
  cases hstep with
  | command hsend hinput =>
    obtain ⟨next, rfl, hnext, hsequence⟩ := Codec.send_spec hsend
    exact ⟨hsession, hcommands.sends hnext hsequence hinput, hevents.other (fun h => Direction.noConfusion h) hinput⟩
  | emit hsend hinput =>
    obtain ⟨next, rfl, hnext, hsequence⟩ := Codec.send_spec hsend
    rw [hsession] at hinput
    exact ⟨hsession, hcommands.other (fun h => Direction.noConfusion h) hinput, hevents.sends hnext hsequence hinput⟩
  | accept hunforged haccept =>
    obtain ⟨next, rfl, hnext, hsequence, input, htag, hinput⟩ := Codec.receive_spec haccept
    have hmem := hunforged input hinput htag
    rw [hsession] at hinput
    exact ⟨hsession, hcommands.receives hnext hsequence hinput hmem, hevents⟩
  | verifyEvent hunforged haccept =>
    obtain ⟨_, rfl, hnext, hsequence, input, htag, hinput⟩ := Codec.receive_spec haccept
    exact ⟨hsession, hcommands, hevents.receives hnext hsequence hinput (hunforged input hinput htag)⟩
  | elsewhere hother hinput =>
    exact ⟨hsession, hcommands.other (fun _ => hother) hinput, hevents.other (fun _ => hother) hinput⟩

theorem authentic_of_reaches (hrun : Relation.ReflTransGen (Step hmac commands events) (Link.new sessionId) s) :
    s.Authentic := by
  induction hrun with
  | refl =>
    have hempty : ∀ direction, Ordered direction sessionId [] [] [] 1 1 := fun _ =>
      ⟨rfl, rfl, fun _ hmem => absurd hmem not_mem_nil, prefix_rfl⟩
    exact ⟨rfl, hempty _, hempty _⟩
  | tail _ hstep ih => exact ih.step hstep

/-- **What an end has accepted is what the other end sent first**, in order, whatever the attacker delivers; and what
is authenticated for a frame is authenticated for no other frame. -/
theorem channel_authentic :
    (∀ s, Relation.ReflTransGen (Step hmac commands events) (Link.new sessionId) s →
      s.commandsAccepted <+: s.commandsSent ∧ s.eventsAccepted <+: s.eventsSent) ∧
    ∀ (direction direction' : Direction) (id id' : String) (sequence sequence' : U64)
      (payload payload' input : List UInt8), authenticateFields direction id sequence payload = .ok input →
      authenticateFields direction' id' sequence' payload' = .ok input →
      direction = direction' ∧ id = id' ∧ sequence = sequence' ∧ payload = payload' := by
  refine ⟨fun s hrun => ?_, fun _ _ _ _ _ _ _ _ _ h h' => authenticateFields_inj h h'⟩
  have hs := authentic_of_reaches hrun
  exact ⟨hs.commands.inOrder, hs.events.inOrder⟩

end

/-- Messages that are their own text. -/
def rawSerde : Serde (List UInt8) := ⟨.ok, .ok⟩

/-- A command is sent and accepted, with its whole input as the tag; its frame is refused when it comes again, and no
event is authenticated as that command is. -/
theorem channel_authentic_oneCommand :
    (∃ s, Relation.ReflTransGen (Step id rawSerde rawSerde) (Link.new "s") s ∧ s.commandsAccepted = [[7]] ∧
      s.commandsAccepted <+: s.commandsSent ∧
      ∀ frame result, frame.sequence = 1 → s.guest.accept id rawSerde frame ≠ .ok result) ∧
    authenticateFields .event "s" 1 [7] ≠ authenticateFields .command "s" 1 [7] := by
  obtain ⟨input, hinput⟩ : ∃ input, authenticateFields .command "s" 1 [7] = .ok input := ⟨_, rfl⟩
  have hsend : (Link.new "s").host.command id rawSerde [7] = .ok (⟨1, "s", 1, [7], input⟩, ⟨"s", 2, 1⟩) := by
    cases hinput
    rfl
  have haccept : (⟨"s", 1, 1⟩ : Codec).accept id rawSerde ⟨1, "s", 1, [7], input⟩ = .ok ([7], ⟨"s", 1, 2⟩) := by
    cases hinput
    rfl
  have hunforged : Unforged id [input] .command "s" ⟨1, "s", 1, [7], input⟩ :=
    fun _ _ htag => mem_singleton.mpr htag
  have hsent : Step id rawSerde rawSerde (Link.new "s")
      ⟨⟨"s", 2, 1⟩, ⟨"s", 1, 1⟩, [input], [[7]], [], [], []⟩ := .command hsend hinput
  have hrun := Relation.ReflTransGen.tail (.single hsent) (.accept hunforged haccept)
  have hchannel := @channel_authentic id _ _ rawSerde rawSerde "s"
  refine ⟨⟨_, hrun, rfl, (hchannel.1 _ hrun).1, fun frame _ hsequence h => ?_⟩, fun h => ?_⟩
  · simp only [Codec.accept, Codec.receive, verifyEnvelope, bind_eq_ok, exists_unit, rejectIf_eq_ok, ne_eq, not_not,
      hsequence] at h
    obtain ⟨_, ⟨-, -, hnext, -⟩, -⟩ := h
    exact absurd hnext (by decide)
  obtain ⟨hdirection, -⟩ := hchannel.2 _ _ _ _ _ _ _ _ _ (h.trans hinput) hinput
  exact Direction.noConfusion hdirection

end Runtrue.Guest
