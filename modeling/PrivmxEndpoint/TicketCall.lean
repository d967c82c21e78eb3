import PrivmxEndpoint.PinnedServer
import PrivmxEndpoint.RecordIntegrity

/-!
# Calls over a ticket

A call that is not forced to be plain restores the secret of a ticket, and sends its
request under the keys of the ticket.  The server keys wait until the response
switches to them.  Nothing makes the response do so: a response without the switch is
read without keys, and what it says is handed on (`call_noDowngrade_iff`).
-/

namespace PrivmxEndpoint

open Throwing

/-- `TICKETS_MIN_COUNT`. -/
def ClientEndpoint.TICKETS_MIN_COUNT : Nat := 3

/-- `TICKETS_MAX_COUNT`. -/
def ClientEndpoint.TICKETS_MAX_COUNT : Int := 256

section Call

variable {H : HandshakeCrypto}

/-- `TicketsManager::shouldAskForNewTickets`, with the default `_ttl_threshold`. -/
def shouldAskForNewTickets (now : Int) (minCount : Nat) : ClientM H Bool := do
  updateTickets fun m => { m with tickets := m.tickets.dropWhile (·.1 ≤ now) }
  let s ← get
  let m := s.1.ticketsManager
  pure (decide (m.tickets.length < minCount) ||
    (m.ticketsTtl != -1 && decide (m.ticketsTtl - 15 * 1000 < now)))

/-- The ticket handshake of `ClientEndpoint::call`. -/
def ClientEndpoint.takeTicket (draws : Draws H) : ClientM H Unit := do
  reset false
  ticketHandshake draws
  if ← shouldAskForNewTickets draws.now TICKETS_MIN_COUNT then
    ticketRequest TICKETS_MAX_COUNT
  else
    pure ()

/-- `ClientEndpoint::call`, for an encoded request.  An endpoint takes one ticket
until its requests are flushed. -/
def ClientEndpoint.call (draws : Draws H) (request : Bytes) (forcePlain ticketTaken : Bool) :
    ClientM H Unit := do
  if !forcePlain && !ticketTaken then
    takeTicket draws
  modify fun s => (s.1,
    s.2.send H.toRecordPrimitives request ContentType.APPLICATION_DATA false)

/-- What a connection is used in: the PSON decoder, an application that gets what it
has decoded, and the source of what packets draw. -/
structure Surroundings (H : HandshakeCrypto) (α : Type) where
  Var : Type
  /-- `_pson_decoder.decode`. -/
  decode : Bytes → Except RpcException Var
  applicationHandler : Var → α → α × Option RpcException
  draw : α → Draws H × α

/-- The cases of `APPLICATION_DATA` and `HANDSHAKE` in `process`: the decoder goes
first, and may throw. -/
def Surroundings.handle {α : Type} (env : Surroundings H α) (options : ConnectionOptions) :
    Handlers (Client H × α) := fun contentType data ((c, a), base) =>
  match env.decode data with
  | .error e => (((c, a), base), some e)
  | .ok value =>
      if contentType = ContentType.HANDSHAKE then
        match H.decode data with
        | .error e => (((c, a), base), some e)
        | .ok packet =>
            let (draws, a) := env.draw a
            match exec (processHandshakePacket options draws packet) (c, base) with
            | (.ok _, (c, base)) => (((c, a), base), none)
            | (.error e, (c, base)) => (((c, a), base), some e)
      else
        let (a, error) := env.applicationHandler value a
        (((c, a), base), error)

/-! ## The state that waits for the response -/

/-- The keys of the server for a ticket. -/
def SessionTicket.serverKeys (H : HandshakeCrypto) (ticket : SessionTicket) (clientRandom : Bytes) :
    RWState :=
  (getFreshRWStates H ticket.masterSecret clientRandom ticket.id).serverState

/-- The client has started no handshake. -/
structure Idle (c : Client H) : Prop where
  ecdhePrivateKey : c.ecdhePrivateKey = none
  ecdhexPrivateKey : c.ecdhexPrivateKey = none
  srp : c.srp = .empty
  privateKey : c.privateKey = none
  K : c.K = []
  sessionKey : c.sessionKey = none

/-- The connection has sent a request under the keys of a ticket. -/
structure Waiting (keys : RWState) (s : Connection H) : Prop where
  idle : Idle s.1
  readState : s.2.readState = .empty
  nextReadState : s.2.nextReadState = keys

theorem ticketHandshake_waiting {draws : Draws H} {s : Connection H} {ticket : SessionTicket}
    (hticket : s.1.ticketsManager.next draws.now = some ticket) (hidle : Idle s.1)
    (hread : s.2.readState = .empty) :
    ∃ t, exec (ticketHandshake draws) s = (.ok (), t) ∧
      Waiting (ticket.serverKeys H draws.clientRandom) t := by
  obtain ⟨tickets, hrun⟩ := exec_ticketHandshake hticket
  obtain ⟨base, hswitch, hbaseRead, hbaseNext⟩ := exec_changeCipherSpec
    (s := s.overTicket tickets ticket draws.clientRandom) (clientState_initialized _ _ _)
  refine ⟨_, hrun.trans hswitch, ⟨{ hidle with K := hidle.K }, ?_, hbaseNext⟩⟩
  exact hbaseRead.trans ((send_readState _ _ _ _ _).trans hread)

theorem Waiting.send {keys : RWState} {s : Connection H} (h : Waiting keys s) (packet : Bytes)
    (contentType : UInt8) :
    Waiting keys (s.1, s.2.send H.toRecordPrimitives packet contentType false) :=
  ⟨h.idle, (send_readState _ _ _ _ _).trans h.readState,
    (send_nextReadState _ _ _ _ _).trans h.nextReadState⟩

theorem takeTicket_waiting {draws : Draws H} {s : Connection H} {ticket : SessionTicket}
    (hticket : s.1.ticketsManager.next draws.now = some ticket)
    (hsession : s.1.sessionKey = none) :
    ∃ t, exec (ClientEndpoint.takeTicket draws) s = (.ok (), t) ∧
      Waiting (ticket.serverKeys H draws.clientRandom) t := by
  obtain ⟨t, hhandshake, hwaiting⟩ := ticketHandshake_waiting
    (s := (exec (reset false) s).2) hticket
    { ecdhePrivateKey := rfl, ecdhexPrivateKey := rfl, srp := rfl, privateKey := rfl, K := rfl,
      sessionKey := hsession } rfl
  obtain ⟨ask, u, hask, hdropped⟩ : ∃ ask u,
      exec (shouldAskForNewTickets draws.now ClientEndpoint.TICKETS_MIN_COUNT) t = (.ok ask, u) ∧
        Waiting (ticket.serverKeys H draws.clientRandom) u :=
    ⟨_, _, rfl, { hwaiting.idle with K := hwaiting.idle.K }, hwaiting.readState,
      hwaiting.nextReadState⟩
  have hrun : exec (ClientEndpoint.takeTicket draws) s = exec (if ask then
      ticketRequest ClientEndpoint.TICKETS_MAX_COUNT else pure ()) u := by
    have hreset : exec (reset false) s = (.ok (), (exec (reset false) s).2) := rfl
    rw [ClientEndpoint.takeTicket, exec_bind, hreset]
    simp only
    rw [exec_bind, hhandshake]
    simp only
    rw [exec_bind, hask]
  rw [hrun]
  cases ask with
  | true => exact ⟨_, rfl, hdropped.send _ _⟩
  | false => exact ⟨_, rfl, hdropped⟩

/-- **A call.**  It takes the next ticket, and waits for the response. -/
theorem call_waiting {draws : Draws H} {s : Connection H} {ticket : SessionTicket}
    (hticket : s.1.ticketsManager.next draws.now = some ticket)
    (hsession : s.1.sessionKey = none) (request : Bytes) :
    ∃ t, exec (ClientEndpoint.call draws request false false) s = (.ok (), t) ∧
      Waiting (ticket.serverKeys H draws.clientRandom) t := by
  obtain ⟨t, htake, hwaiting⟩ := takeTicket_waiting hticket hsession
  refine ⟨_, ?_, hwaiting.send request ContentType.APPLICATION_DATA⟩
  show exec (ClientEndpoint.takeTicket draws >>= _) s = _
  rw [exec_bind, htake]
  rfl

/-! ## Packets that reach an idle client -/

/-- A packet to a client without a handshake stores tickets, or is ignored, or
throws. -/
theorem idle_packet (options : ConnectionOptions) (draws : Draws H) (packet : HandshakePacket)
    (base : ConnectionBase) :
    Triple (fun s => Idle s.1 ∧ s.2 = base) (processHandshakePacket options draws packet)
      (fun _ s => Idle s.1 ∧ s.2 = base) fun _ => True := by
  have htrue {P : Connection H → Prop} : ∀ s, P s → True := fun _ _ => trivial
  refine getValue_bind htrue fun type _ => ?_
  split
  · refine Triple.get_bind fun s hs => ?_
    rw [hs.1.ecdhePrivateKey]
    exact Triple.throw htrue
  split
  · refine Triple.get_bind fun s hs => ?_
    rw [hs.1.ecdhexPrivateKey]
    exact Triple.throw htrue
  split
  · intro s hs
    have hsave := saveTicketsOf_triple (J := fun t : Connection H => Idle t.1 ∧ t.2 = base)
      (fun _ _ h => ⟨{ h.1 with K := h.1.K }, h.2⟩) draws packet s hs
    split at hsave
    · exact hsave
    · trivial
  split
  · refine Triple.get_bind fun s hs => ?_
    rw [if_pos (Or.inl (by rw [hs.1.srp]; rfl))]
    exact Triple.throw_bind htrue
  split
  · refine Triple.get_bind fun s hs => ?_
    rw [if_pos (Or.inr (by rw [hs.1.srp]; rfl))]
    exact Triple.throw_bind htrue
  split
  · refine getValue_bind htrue fun sessionId _ => getValue_bind htrue fun _ _ => ?_
    refine Triple.bind (Q := fun _ s => s.1.privateKey = none)
      (Triple.modify fun s hs => hs.1.privateKey) fun _ => Triple.get_bind fun s hs => ?_
    rw [hs]
    exact Triple.throw_bind htrue
  split
  · refine Triple.get_bind fun s hs => ?_
    rw [if_pos hs.1.K]
    exact Triple.throw_bind htrue
  split
  · refine getValue_bind htrue fun key _ => Triple.lift_bind htrue fun publicKey _ =>
      Triple.get_bind fun s hs => ?_
    rw [hs.1.sessionKey]
    exact Triple.throw_bind htrue
  · exact Triple.pure fun _ h => h

end Call

/-! ## What the response may do -/

/-- A handler is called with what the frame says: its payload is data or a packet, and
can be decoded. -/
def Surroundings.Delivers {H : HandshakeCrypto} {α : Type} (env : Surroundings H α)
    (f : ReadFrame) : Prop :=
  (f.contentType = ContentType.APPLICATION_DATA ∨ f.contentType = ContentType.HANDSHAKE) ∧
    ∃ value, env.decode f.data = .ok value

/-- The tags of a frame were verified under the given keys at a sequence number: the
tag of its header, and the tag of its body if it has one. -/
structure ReadFrame.VerifiedUnder (C : RecordPrimitives) (keys : RWState) (n : Nat)
    (f : ReadFrame) : Prop where
  readState : f.readState = { keys with sequenceNumber := n % 2 ^ 64 }
  header : ∃ header, header.length = 8 ∧ frameSeed f.readState header ∈ f.verified ∧
    (f.data = [] ∨ ∃ iv ciphertext, bodyMessage f.readState header iv ciphertext ∈ f.verified ∧
      C.aes256CbcPkcs7Decrypt ciphertext keys.key iv = .ok f.data)

/-- The keys were switched on before a frame, and the frame is verified under them at
the number of frames since then. -/
def ReadFrame.VerifiedAfter (C : RecordPrimitives) (keys : RWState) (before : List ReadFrame)
    (f : ReadFrame) : Prop :=
  ∃ first switch between, before = first ++ switch :: between ∧
    switch.contentType = ContentType.CHANGE_CIPHER_SPEC ∧
    (∀ g ∈ between, g.contentType ≠ ContentType.CHANGE_CIPHER_SPEC) ∧
    f.VerifiedUnder C keys between.length

section Outcome

variable {σ : Type}

/-- The exception with which a response is broken off, frame by frame: a frame that
cannot be read, or one whose case of the `switch` throws. -/
inductive BrokenOff (C : RecordPrimitives) (garbage : Bytes) (handle : Handlers σ) :
    σ × ConnectionBase → Bytes → Prop
  | unread {s : σ × ConnectionBase} {input : Bytes} {e : RpcException} (hne : input ≠ [])
      (hread : readFrame C garbage s.2.readState input = .error e) :
      BrokenOff C garbage handle s input
  | thrown {s t : σ × ConnectionBase} {input rest : Bytes} {f : ReadFrame} {e : RpcException}
      (hne : input ≠ []) (hread : readFrame C garbage s.2.readState input = .ok (f, rest))
      (hdispatch : dispatch handle f (s.1, { s.2 with readState := s.2.readState.after }) =
        (t, some e)) : BrokenOff C garbage handle s input
  | later {s t : σ × ConnectionBase} {input rest : Bytes} {f : ReadFrame} (hne : input ≠ [])
      (hread : readFrame C garbage s.2.readState input = .ok (f, rest))
      (hdispatch : dispatch handle f (s.1, { s.2 with readState := s.2.readState.after }) =
        (t, none)) (hrest : BrokenOff C garbage handle t rest) :
      BrokenOff C garbage handle s input

/-- The response starts by switching the keys. -/
def Processed.StartsBySwitching (r : Processed σ) : Prop :=
  ∃ f rest, r.frames = f :: rest ∧ f.contentType = ContentType.CHANGE_CIPHER_SPEC

/-- **No downgrade.**  What handlers get is verified under the keys, and a response
that does not start by switching to them ends in an exception. -/
structure NoDowngrade {H : HandshakeCrypto} {α : Type} (env : Surroundings H α) (keys : RWState)
    (response : Bytes) (r : Processed σ) : Prop where
  verified : ∀ before f after, r.frames = before ++ f :: after → env.Delivers f →
    f.VerifiedAfter H.toRecordPrimitives keys before
  rejected : response ≠ [] → ¬ r.StartsBySwitching → r.error ≠ none

end Outcome

/-- The fields of the first frame of a response without keys. -/
def openingFields (garbage response : Bytes) : FrameFields :=
  FrameFields.read garbage (response.take 8)

/-- The rest of the response. -/
def behindOpening (garbage response : Bytes) : Bytes :=
  (response.drop 8).drop (openingFields garbage response).frameLength

/-- The payload of the first frame of a response without keys. -/
def openingData (garbage response : Bytes) : Bytes :=
  (response.drop 8).take (openingFields garbage response).frameLength

/-- The loop has no case for the content type. -/
def Ignored (contentType : UInt8) : Prop :=
  contentType ≠ ContentType.APPLICATION_DATA ∧ contentType ≠ ContentType.HANDSHAKE ∧
    contentType ≠ ContentType.CHANGE_CIPHER_SPEC ∧ contentType ≠ ContentType.ALERT

/-- Behind frames that are ignored comes a frame of another version, an alert, a
payload that cannot be decoded, or a switch whose sequel is broken off. -/
inductive Refused (garbage : Bytes) (undecodable broken : Bytes → Prop) : Bytes → Prop
  | version {response : Bytes} (hne : response ≠ [])
      (hversion : (openingFields garbage response).version ≠ 1) :
      Refused garbage undecodable broken response
  | alert {response : Bytes} (hversion : (openingFields garbage response).version = 1)
      (htype : (openingFields garbage response).contentType = ContentType.ALERT) :
      Refused garbage undecodable broken response
  | undecoded {response : Bytes} (hversion : (openingFields garbage response).version = 1)
      (htype : (openingFields garbage response).contentType = ContentType.APPLICATION_DATA ∨
        (openingFields garbage response).contentType = ContentType.HANDSHAKE)
      (hdata : undecodable (openingData garbage response)) :
      Refused garbage undecodable broken response
  | switched {response : Bytes} (hversion : (openingFields garbage response).version = 1)
      (htype : (openingFields garbage response).contentType = ContentType.CHANGE_CIPHER_SPEC)
      (hrest : broken (behindOpening garbage response)) :
      Refused garbage undecodable broken response
  | ignored {response : Bytes} (hversion : (openingFields garbage response).version = 1)
      (htype : Ignored (openingFields garbage response).contentType)
      (hrest : Refused garbage undecodable broken (behindOpening garbage response)) :
      Refused garbage undecodable broken response

/-- The decoder throws on a payload. -/
def Surroundings.Undecodable {H : HandshakeCrypto} {α : Type} (env : Surroundings H α)
    (data : Bytes) : Prop :=
  ∃ e, env.decode data = .error e

/-- The connection once it reads under the keys that wait. -/
def Connection.switched {H : HandshakeCrypto} {α : Type} (s : Connection H) (a : α) :
    (Client H × α) × ConnectionBase :=
  ((s.1, a), { s.2 with readState := s.2.nextReadState, nextReadState := .empty })

/-- The response is empty, starts with a switch, or is refused. -/
def SafeOpening {H : HandshakeCrypto} {α : Type} (env : Surroundings H α)
    (options : ConnectionOptions) (garbage : Bytes) (s : Connection H) (a : α)
    (response : Bytes) : Prop :=
  response = [] ∨ ((openingFields garbage response).version = 1 ∧
    (openingFields garbage response).contentType = ContentType.CHANGE_CIPHER_SPEC) ∨
    Refused garbage env.Undecodable
      (BrokenOff H.toRecordPrimitives garbage (env.handle options) (s.switched a)) response

/-! ## Behind the switch -/

section Response

variable {H : HandshakeCrypto} {α : Type} {options : ConnectionOptions} {garbage : Bytes}
  {env : Surroundings H α}

/-- The first frame of an outcome, and where the others come from. -/
theorem process_frames_cons {σ : Type} {C : RecordPrimitives} {handle : Handlers σ}
    {s : σ × ConnectionBase} {input : Bytes} {f : ReadFrame} {fs : List ReadFrame}
    (h : (ConnectionBase.process C garbage handle s input).frames = f :: fs) :
    input ≠ [] ∧ ∃ rest, readFrame C garbage s.2.readState input = .ok (f, rest) ∧
      (fs = [] ∨ ∃ t, dispatch handle f
          (s.1, { s.2 with readState := s.2.readState.after }) = (t, none) ∧
        (ConnectionBase.process C garbage handle t rest).frames = fs) := by
  rcases ConnectionBase.process_cases C garbage handle s input with
    rfl | ⟨state, e, hthrown⟩ | ⟨hne, frame, rest, hread⟩
  · cases h
  · rw [hthrown] at h
    cases h
  · rw [ConnectionBase.process_of_readFrame handle hne hread] at h
    split at h
    · cases h
      exact ⟨hne, rest, hread, Or.inl rfl⟩
    · rename_i t hdispatch
      cases h
      exact ⟨hne, rest, hread, Or.inr ⟨t, hdispatch, rfl⟩⟩

/-- What an idle client does with a frame that does not end the loop. -/
theorem dispatch_idle {frame : ReadFrame} {s t : (Client H × α) × ConnectionBase}
    (hidle : Idle s.1.1) (hnext : s.2.nextReadState = .empty)
    (h : dispatch (env.handle options) frame s = (t, none)) :
    frame.contentType ≠ ContentType.CHANGE_CIPHER_SPEC ∧ Idle t.1.1 ∧ t.2 = s.2 := by
  obtain ⟨⟨c, a⟩, base⟩ := s
  unfold dispatch at h
  split at h
  · rename_i hdelivered
    have hkind : frame.contentType ≠ ContentType.CHANGE_CIPHER_SPEC := by
      rcases hdelivered with hkind | hkind
      · rw [hkind]
        decide
      · rw [hkind]
        decide
    refine ⟨hkind, ?_⟩
    unfold Surroundings.handle at h
    dsimp only at h
    split at h
    · cases h
    split at h
    · split at h
      · cases h
      · rename_i packet hpacket
        have hkeep := idle_packet options (env.draw a).1 packet base (c, base) ⟨hidle, rfl⟩
        split at h
        · rename_i hexec
          rw [hexec] at hkeep
          cases h
          exact hkeep
        · cases h
    · obtain ⟨rfl, -⟩ := Prod.mk.inj h
      exact ⟨hidle, rfl⟩
  · split at h
    · rw [hnext] at h
      cases h
    · rename_i hswitch
      split at h
      · cases h
      · cases h
        exact ⟨hswitch, hidle, rfl⟩

theorem Checked.verifiedUnder {C : RecordPrimitives} {keys : RWState} {n : Nat}
    {stream header rest : Bytes} {frame : ReadFrame}
    (h : Checked C garbage { keys with sequenceNumber := n % 2 ^ 64 } stream header frame rest) :
    frame.VerifiedUnder C keys n := by
  have hstate := h.readState
  refine ⟨hstate, header, h.header_length, ?_, ?_⟩
  · rw [hstate]
    exact h.seed_verified
  · rcases h.body with ⟨-, hdata, -⟩ | ⟨-, ciphertext, tag, -, -, hbody, hdecrypt⟩
    · exact Or.inl hdata
    · rw [hstate]
      exact Or.inr ⟨_, ciphertext, hbody, hdecrypt⟩

/-- **Behind the switch** every frame is verified, and no frame switches again. -/
theorem verified_of_switched {keys : RWState} (hkeys : keys.initialized = true) (n : Nat)
    (s : (Client H × α) × ConnectionBase) (input : Bytes) (hidle : Idle s.1.1)
    (hread : s.2.readState = { keys with sequenceNumber := n % 2 ^ 64 })
    (hnext : s.2.nextReadState = .empty) (before : List ReadFrame) (f : ReadFrame)
    (after : List ReadFrame)
    (hframes : (ConnectionBase.process H.toRecordPrimitives garbage (env.handle options) s
      input).frames = before ++ f :: after) :
    f.VerifiedUnder H.toRecordPrimitives keys (n + before.length) ∧
      ∀ g ∈ before, g.contentType ≠ ContentType.CHANGE_CIPHER_SPEC := by
  have hinit : s.2.readState.initialized = true := by
    rw [hread]
    exact hkeys
  induction before generalizing n s input with
  | nil =>
      obtain ⟨hne, rest, hframe, -⟩ := process_frames_cons hframes
      obtain ⟨header, hchecked⟩ := readFrame_checked hinit hne hframe
      rw [hread] at hchecked
      exact ⟨hchecked.verifiedUnder, fun g hg => absurd hg List.not_mem_nil⟩
  | cons g before ih =>
      obtain ⟨hne, rest, hframe, hnil | ⟨t, hdispatch, hlater⟩⟩ := process_frames_cons hframes
      · exact absurd hnil (List.append_ne_nil_of_right_ne_nil _ (List.cons_ne_nil _ _))
      · obtain ⟨hkind, hidle, hbase⟩ := dispatch_idle
          (s := (s.1, { s.2 with readState := s.2.readState.after })) hidle hnext hdispatch
        have hadvanced : t.2.readState = { keys with sequenceNumber := (n + 1) % 2 ^ 64 } := by
          rw [hbase]
          show s.2.readState.after = _
          rw [RWState.after, if_pos hinit, hread]
          simp [RWState.advance]
        obtain ⟨hverified, hothers⟩ := ih (n + 1) t rest hidle hadvanced
          (by rw [hbase]; exact hnext) hlater (by rw [hadvanced]; exact hkeys)
        refine ⟨?_, ?_⟩
        · rw [List.length_cons, Nat.add_comm before.length, ← Nat.add_assoc]
          exact hverified
        · intro g' hg'
          rcases List.mem_cons.mp hg' with rfl | hg'
          · exact hkind
          · exact hothers g' hg'

/-! ## In front of the switch -/

theorem readFrame_plain {C : RecordPrimitives} (s : RWState) (hs : s.initialized = false)
    (input : Bytes) :
    readFrame C garbage s input =
      if (openingFields garbage input).version = 1 then
        .ok (⟨s, [], (openingFields garbage input).contentType,
          (input.drop 8).take (openingFields garbage input).frameLength⟩,
          behindOpening garbage input)
      else
        .error (.unsupportedFrameVersion (openingFields garbage input).version) := by
  unfold readFrame readHeader readBody behindOpening openingFields RWState.headerLength
  simp only [hs, Bool.false_eq_true, if_false]
  by_cases hversion : (FrameFields.read garbage (input.take 8)).version = 1
  · rw [if_neg (not_not.mpr hversion), if_pos hversion]
    split
    · rfl
    · rename_i hzero
      rw [Nat.eq_zero_of_not_pos hzero]
      rfl
  · rw [if_pos hversion, if_neg hversion]

/-- The first frame of a response that is read without keys. -/
def openingFrame (garbage input : Bytes) : ReadFrame :=
  ⟨.empty, [], (openingFields garbage input).contentType, openingData garbage input⟩

section Opening

variable {σ : Type} {s : σ × ConnectionBase} {input : Bytes}
  (C : RecordPrimitives) (handle : Handlers σ)

/-- **Exceptions** of the loop, by induction on the length of the input. -/
theorem brokenOff_iff (s : σ × ConnectionBase) (input : Bytes) :
    (ConnectionBase.process C garbage handle s input).error ≠ none ↔
      BrokenOff C garbage handle s input := by
  constructor
  · intro h
    induction hlen : input.length using Nat.strong_induction_on generalizing s input with
    | _ n ih =>
      by_cases hne : input = []
      · subst hne
        exact absurd rfl h
      cases hread : readFrame C garbage s.2.readState input with
      | error e => exact .unread hne hread
      | ok result =>
          obtain ⟨f, rest⟩ := result
          rw [ConnectionBase.process_of_readFrame handle hne hread] at h
          cases hdispatch : dispatch handle f (s.1, { s.2 with readState := s.2.readState.after })
            with
          | mk t error =>
              rw [hdispatch] at h
              cases error with
              | some e => exact .thrown hne hread hdispatch
              | none =>
                  refine .later hne hread hdispatch (ih rest.length ?_ t rest h rfl)
                  rw [← hlen]
                  exact readFrame_length_lt hne hread
  · intro h
    induction h with
    | unread hne hread =>
        obtain ⟨state, hstate⟩ := ConnectionBase.process_of_error handle hne hread
        rw [hstate]
        exact Option.some_ne_none _
    | thrown hne hread hdispatch =>
        rw [ConnectionBase.process_of_readFrame handle hne hread, hdispatch]
        exact Option.some_ne_none _
    | later hne hread hdispatch _ ih =>
        rw [ConnectionBase.process_of_readFrame handle hne hread, hdispatch]
        exact ih

/-- One turn of the loop without keys. -/
theorem process_opening (hread : s.2.readState = .empty) (hne : input ≠ [])
    (hversion : (openingFields garbage input).version = 1) :
    ConnectionBase.process C garbage handle s input =
      match dispatch handle (openingFrame garbage input) s with
      | (t, some e) => ⟨t, [openingFrame garbage input], some e⟩
      | (t, none) => (ConnectionBase.process C garbage handle t
          (behindOpening garbage input)).prepend [openingFrame garbage input] := by
  have hframe : readFrame C garbage s.2.readState input =
      .ok (openingFrame garbage input, behindOpening garbage input) := by
    rw [hread, readFrame_plain .empty rfl, if_pos hversion]
    rfl
  have hsame : (s.1, { s.2 with readState := s.2.readState.after }) = s := by
    have hafter : s.2.readState.after = s.2.readState := by
      rw [hread]
      rfl
    rw [hafter]
  have hrun := ConnectionBase.process_of_readFrame handle hne hframe
  rw [hsame] at hrun
  refine hrun.trans ?_
  cases dispatch handle (openingFrame garbage input) s with
  | mk t error =>
      cases error with
      | none => rfl
      | some e => rfl

/-- A frame of another version ends the loop. -/
theorem process_otherVersion (hread : s.2.readState = .empty) (hne : input ≠ [])
    (hversion : (openingFields garbage input).version ≠ 1) :
    ∃ t e, ConnectionBase.process C garbage handle s input = ⟨t, [], some e⟩ := by
  have hframe : readFrame C garbage s.2.readState input =
      .error (.unsupportedFrameVersion (openingFields garbage input).version) := by
    rw [hread, readFrame_plain .empty rfl, if_neg hversion]
  obtain ⟨t, ht⟩ := ConnectionBase.process_of_error handle hne hframe
  exact ⟨t, _, ht⟩

/-- A response with a version is not empty. -/
theorem ne_nil_of_version (hversion : (openingFields garbage input).version = 1) : input ≠ [] := by
  rintro rfl
  have hzero : (0 : UInt8) = 1 := hversion
  exact absurd hzero (by decide)

/-- The loop comes to its end. -/
theorem behindOpening_length_lt (hne : input ≠ []) :
    (behindOpening garbage input).length < input.length := by
  have hpos := List.length_pos_of_ne_nil hne
  simp only [behindOpening, List.length_drop]
  omega

/-- A frame of an unknown type is skipped. -/
theorem dispatch_ignored (htype : Ignored (openingFields garbage input).contentType) :
    dispatch handle (openingFrame garbage input) s = (s, none) := by
  have htype : Ignored (openingFrame garbage input).contentType := htype
  obtain ⟨hdata, hhandshake, hswitch, halert⟩ := htype
  rw [dispatch, if_neg (not_or.mpr ⟨hdata, hhandshake⟩), if_neg hswitch, if_neg halert]

/-- An alert is thrown. -/
theorem dispatch_alert (htype : (openingFields garbage input).contentType = ContentType.ALERT) :
    dispatch handle (openingFrame garbage input) s =
      (s, some (.alert (openingFrame garbage input).data)) := by
  have htype : (openingFrame garbage input).contentType = ContentType.ALERT := htype
  rw [dispatch, htype, if_neg (by decide), if_neg (by decide), if_pos rfl]

end Opening

/-- A payload that cannot be decoded is thrown at. -/
theorem dispatch_undecoded {f : ReadFrame} {e : RpcException}
    (htype : f.contentType = ContentType.APPLICATION_DATA ∨ f.contentType = ContentType.HANDSHAKE)
    (hdata : env.decode f.data = .error e) (s : (Client H × α) × ConnectionBase) :
    dispatch (env.handle options) f s = (s, some e) := by
  rw [dispatch, if_pos htype, Surroundings.handle, hdata]

/-! ## Which responses are safe -/

section Safe

variable {keys : RWState} {s : Connection H} {a : α} {response : Bytes}

/-- The outcome of a connection that waits. -/
abbrev responseOf (env : Surroundings H α) (options : ConnectionOptions) (garbage : Bytes)
    (s : Connection H) (a : α) (response : Bytes) : Processed (Client H × α) :=
  ConnectionBase.process H.toRecordPrimitives garbage (env.handle options) ((s.1, a), s.2) response

/-- The switch to the keys that wait. -/
theorem response_switched (hkeys : keys.initialized = true) (hwaiting : Waiting keys s)
    (hversion : (openingFields garbage response).version = 1)
    (htype : (openingFields garbage response).contentType = ContentType.CHANGE_CIPHER_SPEC) :
    responseOf env options garbage s a response =
      (ConnectionBase.process H.toRecordPrimitives garbage (env.handle options) (s.switched a)
        (behindOpening garbage response)).prepend [openingFrame garbage response] := by
  have hread : (((s.1, a), s.2) : (Client H × α) × ConnectionBase).2.readState = .empty :=
    hwaiting.readState
  have hnext : (((s.1, a), s.2) : (Client H × α) × ConnectionBase).2.nextReadState.initialized
      = true := by
    rw [show s.2.nextReadState = keys from hwaiting.nextReadState]
    exact hkeys
  have htype : (openingFrame garbage response).contentType = ContentType.CHANGE_CIPHER_SPEC := htype
  have hdispatch : dispatch (env.handle options) _ _ = _ := dispatch_changeCipherSpec
    RWState.empty [] (openingFrame garbage response).data hnext
  rw [← htype] at hdispatch
  have hprocess := process_opening H.toRecordPrimitives
    (env.handle options) hread (ne_nil_of_version hversion) hversion
  rw [show dispatch (env.handle options) (openingFrame garbage response) _ = _ from hdispatch]
    at hprocess
  exact hprocess

/-- A frame that is not given to a handler goes first. -/
theorem verified_cons {r : Processed (Client H × α)} {f : ReadFrame}
    (hf : ¬ env.Delivers f)
    (h : ∀ before g after, r.frames = before ++ g :: after → env.Delivers g →
      g.VerifiedAfter H.toRecordPrimitives keys (f :: before)) :
    ∀ before g after, (r.prepend [f]).frames = before ++ g :: after → env.Delivers g →
      g.VerifiedAfter H.toRecordPrimitives keys before := by
  intro before g after hframes hdelivered
  cases before with
  | nil =>
      obtain ⟨rfl, -⟩ := List.cons.inj hframes
      exact absurd hdelivered hf
  | cons first before =>
      obtain ⟨rfl, hlater⟩ := List.cons.inj hframes
      exact h before g after hlater hdelivered

/-- A frame that is not given to a handler is all there is. -/
theorem verified_singleton {f : ReadFrame} (hf : ¬ env.Delivers f) :
    ∀ before g after, [f] = before ++ g :: after → env.Delivers g →
      g.VerifiedAfter H.toRecordPrimitives keys before := by
  intro before g after hframes hdelivered
  have hmem : g ∈ [f] := by
    rw [hframes]
    exact List.mem_append_right _ List.mem_cons_self
  rw [List.mem_singleton.mp hmem] at hdelivered
  exact absurd hdelivered hf

/-- What handlers get behind the switch is verified. -/
theorem verified_of_opening_switch (hkeys : keys.initialized = true)
    (hnumber : keys.sequenceNumber = 0) (hwaiting : Waiting keys s)
    (hversion : (openingFields garbage response).version = 1)
    (htype : (openingFields garbage response).contentType = ContentType.CHANGE_CIPHER_SPEC)
    (before : List ReadFrame) (f : ReadFrame) (after : List ReadFrame)
    (hframes : (responseOf env options garbage s a response).frames = before ++ f :: after)
    (hdelivered : env.Delivers f) : f.VerifiedAfter H.toRecordPrimitives keys before := by
  have htype' : (openingFrame garbage response).contentType = ContentType.CHANGE_CIPHER_SPEC :=
    htype
  rw [response_switched hkeys hwaiting hversion htype] at hframes
  refine verified_cons (fun hdelivers => ?_) (fun before f after hlater _ => ?_) before f after
    hframes hdelivered
  · rw [Surroundings.Delivers, htype'] at hdelivers
    exact absurd hdelivers.1 (by decide)
  · have hstart : keys = { keys with sequenceNumber := 0 % 2 ^ 64 } := by
      rw [Nat.zero_mod, ← hnumber]
    obtain ⟨hverified, hothers⟩ := verified_of_switched hkeys 0 _ _ hwaiting.idle
      (hwaiting.nextReadState.trans hstart) rfl before f after hlater
    rw [Nat.zero_add] at hverified
    exact ⟨[], _, before, rfl, htype', hothers, hverified⟩

/-- A frame that does not switch is no part of what was verified. -/
theorem ReadFrame.VerifiedAfter.of_cons {C : RecordPrimitives} {f g : ReadFrame}
    {before : List ReadFrame} (hf : f.contentType ≠ ContentType.CHANGE_CIPHER_SPEC)
    (h : g.VerifiedAfter C keys (f :: before)) : g.VerifiedAfter C keys before := by
  obtain ⟨first, switch, between, hbefore, hswitch, hothers, hverified⟩ := h
  cases first with
  | nil =>
      obtain ⟨rfl, -⟩ := List.cons.inj hbefore
      exact absurd hswitch hf
  | cons f' first =>
      obtain ⟨-, hrest⟩ := List.cons.inj hbefore
      exact ⟨first, switch, between, hrest, hswitch, hothers, hverified⟩

/-- What was verified stays verified behind another frame. -/
theorem ReadFrame.VerifiedAfter.cons {C : RecordPrimitives} {g : ReadFrame}
    {before : List ReadFrame} (h : g.VerifiedAfter C keys before) (f : ReadFrame) :
    g.VerifiedAfter C keys (f :: before) := by
  obtain ⟨first, switch, between, rfl, hrest⟩ := h
  exact ⟨f :: first, switch, between, rfl, hrest⟩

/-- A response without a delivery that is not verified, and with an exception, is
refused: by recursion along the frames that are skipped. -/
theorem refused_of_rejected (hkeys : keys.initialized = true) (hwaiting : Waiting keys s)
    (hverified : ∀ before f after,
      (responseOf env options garbage s a response).frames = before ++ f :: after →
        env.Delivers f → f.VerifiedAfter H.toRecordPrimitives keys before)
    (herror : (responseOf env options garbage s a response).error ≠ none) :
    Refused garbage env.Undecodable
      (BrokenOff H.toRecordPrimitives garbage (env.handle options) (s.switched a)) response := by
  have hread : (((s.1, a), s.2) : (Client H × α) × ConnectionBase).2.readState = .empty :=
    hwaiting.readState
  induction hlen : response.length using Nat.strong_induction_on generalizing response with
  | _ n ih =>
    by_cases hne : response = []
    · subst hne
      exact absurd rfl herror
    by_cases hversion : (openingFields garbage response).version = 1
    swap
    · exact .version hne hversion
    by_cases halert : (openingFields garbage response).contentType = ContentType.ALERT
    · exact .alert hversion halert
    by_cases hswitch : (openingFields garbage response).contentType = ContentType.CHANGE_CIPHER_SPEC
    · rw [response_switched hkeys hwaiting hversion hswitch] at herror
      exact .switched hversion hswitch ((brokenOff_iff _ _ _ _).mp herror)
    have hprocess := process_opening H.toRecordPrimitives (env.handle options) hread hne hversion
    by_cases hkind : (openingFields garbage response).contentType = ContentType.APPLICATION_DATA ∨
        (openingFields garbage response).contentType = ContentType.HANDSHAKE
    · cases hdata : env.decode (openingData garbage response) with
      | error e => exact .undecoded hversion hkind ⟨e, hdata⟩
      | ok value =>
          -- the frame is delivered, and nothing was read in front of it
          obtain ⟨fs, hfs⟩ : ∃ fs, (responseOf env options garbage s a response).frames =
              openingFrame garbage response :: fs := by
            unfold responseOf
            rw [hprocess]
            split
            · exact ⟨_, rfl⟩
            · exact ⟨_, rfl⟩
          obtain ⟨first, switch, between, hnil, -⟩ := hverified [] _ fs hfs ⟨hkind, value, hdata⟩
          exact absurd hnil.symm (List.append_ne_nil_of_right_ne_nil _ (List.cons_ne_nil _ _))
    · have hignored : Ignored (openingFields garbage response).contentType :=
        ⟨(not_or.mp hkind).1, (not_or.mp hkind).2, hswitch, halert⟩
      rw [dispatch_ignored (env.handle options) hignored] at hprocess
      refine .ignored hversion hignored (ih _ ?_ (fun before f after hframes hdelivered => ?_) ?_
        rfl)
      · rw [← hlen]
        exact behindOpening_length_lt hne
      · refine ReadFrame.VerifiedAfter.of_cons hswitch
          (hverified (openingFrame garbage response :: before) f after ?_ hdelivered)
        unfold responseOf
        rw [hprocess]
        exact congrArg (openingFrame garbage response :: ·) hframes
      · unfold responseOf at herror
        rw [hprocess] at herror
        exact herror

/-- A response that is refused ends in an exception, and handlers get nothing that is
not verified: by induction on the frames that are skipped. -/
theorem rejected_of_refused (hkeys : keys.initialized = true)
    (hnumber : keys.sequenceNumber = 0) (hwaiting : Waiting keys s)
    (h : Refused garbage env.Undecodable
      (BrokenOff H.toRecordPrimitives garbage (env.handle options) (s.switched a)) response) :
    (∀ before f after,
      (responseOf env options garbage s a response).frames = before ++ f :: after →
        env.Delivers f → f.VerifiedAfter H.toRecordPrimitives keys before) ∧
      (responseOf env options garbage s a response).error ≠ none := by
  have hread : (((s.1, a), s.2) : (Client H × α) × ConnectionBase).2.readState = .empty :=
    hwaiting.readState
  induction h with
  | version hne hversion =>
      obtain ⟨t, e, ht⟩ := process_otherVersion H.toRecordPrimitives (env.handle options) hread hne
        hversion
      unfold responseOf
      rw [ht]
      exact ⟨fun before f after hframes => absurd hframes (by simp), Option.some_ne_none e⟩
  | @alert response hversion htype =>
      have hprocess := process_opening H.toRecordPrimitives (env.handle options) hread
        (ne_nil_of_version hversion) hversion
      rw [dispatch_alert (env.handle options) htype] at hprocess
      unfold responseOf
      rw [hprocess]
      refine ⟨verified_singleton fun hdelivered => ?_, Option.some_ne_none _⟩
      have hkind := hdelivered.1
      rw [show (openingFrame garbage response).contentType = ContentType.ALERT from htype] at hkind
      exact absurd hkind (by decide)
  | @undecoded response hversion htype hdata =>
      obtain ⟨e, hdata⟩ := hdata
      have hdata : env.decode (openingFrame garbage response).data = .error e := hdata
      have hprocess := process_opening H.toRecordPrimitives (env.handle options) hread
        (ne_nil_of_version hversion) hversion
      rw [dispatch_undecoded htype hdata] at hprocess
      unfold responseOf
      rw [hprocess]
      refine ⟨verified_singleton fun hdelivered => ?_, Option.some_ne_none _⟩
      obtain ⟨-, value, hvalue⟩ := hdelivered
      cases hvalue.symm.trans hdata
  | switched hversion htype hrest =>
      refine ⟨verified_of_opening_switch hkeys hnumber hwaiting hversion htype, ?_⟩
      rw [response_switched hkeys hwaiting hversion htype]
      exact (brokenOff_iff _ _ _ _).mpr hrest
  | @ignored response hversion htype _ ih =>
      have hprocess := process_opening H.toRecordPrimitives (env.handle options) hread
        (ne_nil_of_version hversion) hversion
      rw [dispatch_ignored (env.handle options) htype] at hprocess
      unfold responseOf
      rw [hprocess]
      exact ⟨verified_cons (fun hdelivers => (not_or.mpr ⟨htype.1, htype.2.1⟩) hdelivers.1)
        fun before g after hframes hdelivered =>
          (ih.1 before g after hframes hdelivered).cons _, ih.2⟩

/-- A response to a connection that waits with the keys of a ticket. -/
theorem noDowngrade_iff (hkeys : keys.initialized = true) (hnumber : keys.sequenceNumber = 0)
    (hwaiting : Waiting keys s) (a : α) (response : Bytes) :
    NoDowngrade env keys response (responseOf env options garbage s a response) ↔
      SafeOpening env options garbage s a response := by
  have hread : (((s.1, a), s.2) : (Client H × α) × ConnectionBase).2.readState = .empty :=
    hwaiting.readState
  constructor
  · intro h
    by_cases hne : response = []
    · exact Or.inl hne
    by_cases hswitch : (openingFields garbage response).version = 1 ∧
        (openingFields garbage response).contentType = ContentType.CHANGE_CIPHER_SPEC
    · exact Or.inr (Or.inl hswitch)
    · refine Or.inr (Or.inr (refused_of_rejected hkeys hwaiting h.verified
        (h.rejected hne ?_)))
      rintro ⟨f, rest, hframes, htype⟩
      obtain ⟨-, more, hframe, -⟩ := process_frames_cons hframes
      rw [hread, readFrame_plain .empty rfl] at hframe
      split at hframe
      · rename_i hversion
        cases hframe
        exact hswitch ⟨hversion, htype⟩
      · cases hframe
  · rintro (rfl | ⟨hversion, htype⟩ | hrefused)
    · exact ⟨fun before f after h => absurd h (by simp [ConnectionBase.process_nil]),
        fun h => absurd rfl h⟩
    · refine ⟨verified_of_opening_switch hkeys hnumber hwaiting hversion htype, fun _ hnot => ?_⟩
      rw [response_switched hkeys hwaiting hversion htype] at hnot
      exact absurd ⟨_, _, rfl, htype⟩ hnot
    · obtain ⟨hverified, herror⟩ := rejected_of_refused hkeys hnumber hwaiting hrefused
      exact ⟨hverified, fun _ _ => herror⟩

end Safe

end Response

/-- **Calls over a ticket.**  An endpoint without a session takes a ticket, and sends
its request.  Whatever comes back, it is not downgraded if and only if it is empty,
starts with a switch to the keys of the ticket, or is refused. -/
theorem call_noDowngrade_iff {H : HandshakeCrypto} {α : Type} (options : ConnectionOptions)
    (env : Surroundings H α) (garbage : Bytes) (draws : Draws H) (request : Bytes)
    (s : Connection H) (hsession : s.1.sessionKey = none) (ticket : SessionTicket)
    (hticket : s.1.ticketsManager.next draws.now = some ticket) (a : α) (response : Bytes) :
    ∃ t, exec (ClientEndpoint.call draws request false false) s = (.ok (), t) ∧
      (NoDowngrade env (ticket.serverKeys H draws.clientRandom) response
          (ConnectionBase.process H.toRecordPrimitives garbage (env.handle options)
            ((t.1, a), t.2) response) ↔
        SafeOpening env options garbage t a response) := by
  obtain ⟨t, hcall, hwaiting⟩ := call_waiting hticket hsession request
  exact ⟨t, hcall, noDowngrade_iff (serverState_initialized _ _ _) rfl hwaiting a response⟩

/-! ## An answer without keys -/

/-- An application that keeps what it gets. -/
def sampleSurroundings : Surroundings sampleHandshakeCrypto (List Bytes) where
  Var := Bytes
  decode data := .ok data
  applicationHandler data received := (received ++ [data], none)
  draw received := (sampleDraws, received)

/-- An endpoint with a ticket. -/
def sampleCaller : Connection sampleHandshakeCrypto :=
  (Client.fresh ⟨[(1000, ⟨[7], [8]⟩)], -1⟩, sampleBase)

/-- The keys of the server for that ticket. -/
def sampleServerKeys : RWState :=
  SessionTicket.serverKeys sampleHandshakeCrypto ⟨[7], [8]⟩ sampleDraws.clientRandom

/-- A response that switches to the keys of the ticket, and then carries data. -/
def sampleResponse : Bytes :=
  plainFrame [] ContentType.CHANGE_CIPHER_SPEC ++
    encryptedFrame sampleRecordPrimitives sampleServerKeys [42] ContentType.APPLICATION_DATA

/-- A response that starts with the switch: the application gets its data. -/
theorem call_noDowngrade_sample :
    ∃ t, exec (ClientEndpoint.call sampleDraws [1] false false) sampleCaller = (.ok (), t) ∧
      NoDowngrade sampleSurroundings sampleServerKeys sampleResponse
        (ConnectionBase.process sampleHandshakeCrypto.toRecordPrimitives []
          (sampleSurroundings.handle sampleOptions) ((t.1, []), t.2) sampleResponse) ∧
      (ConnectionBase.process sampleHandshakeCrypto.toRecordPrimitives []
        (sampleSurroundings.handle sampleOptions) ((t.1, []), t.2) sampleResponse).state.1.2 =
          [[42]] := by
  obtain ⟨t, hcall, hiff⟩ := call_noDowngrade_iff sampleOptions sampleSurroundings [] sampleDraws [1]
    sampleCaller rfl ⟨[7], [8]⟩ rfl [] sampleResponse
  refine ⟨t, hcall, hiff.mpr (Or.inr (Or.inl (by decide))), ?_⟩
  obtain ⟨u, hcall', hwaiting⟩ := @call_waiting sampleHandshakeCrypto sampleDraws
    sampleCaller ⟨[7], [8]⟩ rfl rfl [1]
  obtain rfl : t = u := (Prod.mk.inj (hcall.symm.trans hcall')).2
  have hkeys : sampleServerKeys.initialized = true := serverState_initialized _ _ _
  have hswitched : responseOf sampleSurroundings sampleOptions [] t [] sampleResponse = _ :=
    response_switched hkeys hwaiting rfl rfl
  unfold responseOf at hswitched
  rw [hswitched]
  have hread : (t.switched ([] : List Bytes)).2.readState = sampleServerKeys :=
    hwaiting.nextReadState
  have hframe : behindOpening [] sampleResponse = frameOf sampleRecordPrimitives
      (t.switched ([] : List Bytes)).2.readState [42] ContentType.APPLICATION_DATA ++ [] := by
    rw [hread, frameOf, if_pos hkeys, List.append_nil]
    rfl
  have hturn : ConnectionBase.process sampleRecordPrimitives [] (sampleSurroundings.handle
      sampleOptions) (t.switched []) (frameOf sampleRecordPrimitives
        (t.switched ([] : List Bytes)).2.readState [42] ContentType.APPLICATION_DATA ++ []) = _ :=
    ConnectionBase.process_frameOf (by decide) rfl []
  rw [hframe]
  exact (congrArg (fun r => r.state.1.2) hturn).trans rfl

/-- The network answers with a frame that has no tags, and the application gets what
is in it. -/
theorem call_downgraded :
    ∃ t, exec (ClientEndpoint.call sampleDraws [1] false false) sampleCaller = (.ok (), t) ∧
      (∃ later, ConnectionBase.process sampleHandshakeCrypto.toRecordPrimitives []
          (sampleSurroundings.handle sampleOptions) ((t.1, []), t.2)
          (plainFrame [42] ContentType.APPLICATION_DATA) =
        ⟨((later, [[42]]), t.2), [⟨.empty, [], ContentType.APPLICATION_DATA, [42]⟩], none⟩) ∧
      ¬ NoDowngrade sampleSurroundings sampleServerKeys
        (plainFrame [42] ContentType.APPLICATION_DATA)
        (ConnectionBase.process sampleHandshakeCrypto.toRecordPrimitives []
          (sampleSurroundings.handle sampleOptions) ((t.1, []), t.2)
          (plainFrame [42] ContentType.APPLICATION_DATA)) := by
  obtain ⟨t, hcall, hwaiting⟩ := @call_waiting sampleHandshakeCrypto sampleDraws
    sampleCaller ⟨[7], [8]⟩ rfl rfl [1]
  have hopening : openingFrame [] (plainFrame [42] ContentType.APPLICATION_DATA) =
      ⟨.empty, [], ContentType.APPLICATION_DATA, [42]⟩ := rfl
  have hprocess := @process_opening [] _ ((t.1, ([] : List Bytes)), t.2)
    (plainFrame [42] ContentType.APPLICATION_DATA) sampleHandshakeCrypto.toRecordPrimitives
    (sampleSurroundings.handle sampleOptions) hwaiting.readState (List.cons_ne_nil _ _) rfl
  rw [hopening] at hprocess
  refine ⟨t, hcall, ⟨t.1, ?_⟩, fun h => ?_⟩
  · rw [hprocess]
    rfl
  · rw [hprocess] at h
    obtain ⟨first, switch, between, hbefore, -⟩ := h.verified [] _ [] rfl
      ⟨Or.inl rfl, [42], rfl⟩
    exact absurd hbefore.symm (List.append_ne_nil_of_right_ne_nil _ (List.cons_ne_nil _ _))

end PrivmxEndpoint
