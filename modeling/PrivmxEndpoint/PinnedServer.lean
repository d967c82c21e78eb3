import PrivmxEndpoint.SessionTickets

/-!
# What a pinned server key stands for

A client that pins a server key sends a challenge, and accepts a reply only with a
signature of this challenge by the pinned key.  So the genuine server has seen the
challenge (`pinned_reply`).  The signature covers nothing else: the key, the host and
the configuration of an accepted reply can be replaced, and the client then shares
its secret with whoever has replaced the key (`pinned_reply_replaced`).
-/

namespace PrivmxEndpoint

open Throwing

/-- The signature of a packet, if it verifies at all, is one of the given messages
that the owner of the key has signed. -/
def HandshakePacket.Unforged (H : HandshakeCrypto) (serverPubKey : H.PublicKey)
    (signed : Set Bytes) (packet : HandshakePacket) : Prop :=
  ∀ signature challenge result message, packet.signature = some signature →
    signature.challenge = some challenge → H.hexToString challenge = .ok result →
    H.verifyCompactSignatureWithHash serverPubKey message result = true → message ∈ signed

/-- What a client takes over from a reply. -/
structure ReplyContent (H : HandshakeCrypto) where
  publicKey : H.PublicKey
  host : Bytes
  serverConfig : ServerConfig

/-- The configuration in a packet, for a client with an older one. -/
def HandshakePacket.serverConfigOver (old : ServerConfig) (packet : HandshakePacket) :
    Option ServerConfig :=
  match packet.config with
  | none => none
  | some config =>
      match config.requestChunkSize, config.serverVersion with
      | some requestChunkSize, none => some { old with requestChunkSize := requestChunkSize }
      | some requestChunkSize, some (some serverVersion) =>
          some ⟨requestChunkSize, serverVersion⟩
      | _, _ => none

section Replies

variable {H : HandshakeCrypto}

/-- The content of a reply of type `ecdhe` or `ecdhex`; only the latter has a
host. -/
structure HandshakePacket.Offers (packet : HandshakePacket) (c : Client H)
    (content : ReplyContent H) : Prop where
  key : ∃ key, packet.key = some key ∧ H.fromDER key = .ok content.publicKey
  host : if packet.type = some "ecdhex" then packet.host = some content.host
    else content.host = c.host
  serverConfig : packet.serverConfigOver c.serverConfig = some content.serverConfig

/-- The key of the handshake that a reply belongs to. -/
def Client.handshakeKey (c : Client H) (type : Option String) : Option H.PrivateKey :=
  if type = some "ecdhex" then c.ecdhexPrivateKey else c.ecdhePrivateKey

/-- The connection after a reply that is accepted. -/
def Connection.agreed (s : Connection H) (type : Option String) (privateKey : H.PrivateKey)
    (content : ReplyContent H) : Connection H :=
  let masterSecret := masterSecretOf H (H.ecdheSecret privateKey content.publicKey)
    s.1.clientRandom s.1.serverRandom
  let states := getFreshRWStates H masterSecret s.1.clientRandom s.1.serverRandom
  ({ s.1 with
      host := content.host
      serverConfig := content.serverConfig
      ecdhePrivateKey := if type = some "ecdhex" then s.1.ecdhePrivateKey else none
      ecdhexPrivateKey := if type = some "ecdhex" then none else s.1.ecdhexPrivateKey
      masterSecret := masterSecret },
    { s.2 with nextReadState := states.serverState, nextWriteState := states.clientState })

/-! ## Which replies are accepted -/

/-- What `extractServerConfig` succeeds with, and what it leaves. -/
theorem exec_extractServerConfig {packet : HandshakePacket} {s t : Connection H} :
    exec (extractServerConfig packet) s = (.ok (), t) ↔
      ∃ serverConfig, packet.serverConfigOver s.1.serverConfig = some serverConfig ∧
        t = ({ s.1 with serverConfig := serverConfig }, s.2) := by
  unfold extractServerConfig HandshakePacket.serverConfigOver
  cases packet.config with
  | none => simp
  | some config =>
      cases hsize : config.requestChunkSize with
      | none => simp [hsize]
      | some size =>
          cases hversion : config.serverVersion with
          | none => simp [hsize, hversion, eq_comm]
          | some version =>
              cases version with
              | none => simp [hsize, hversion]
              | some v => simp [hsize, hversion, eq_comm]

/-- The challenge of a client is answered if it has pinned a server key. -/
def Client.AnsweredBy (c : Client H) (now : Int) (packet : HandshakePacket) : Prop :=
  ∀ serverPubKey, c.serverPubKey = some serverPubKey →
    ChallengeAnswered H now serverPubKey c.serverChallenge packet

/-- A reply is accepted if it has a content, belongs to a handshake, and answers the
challenge. -/
structure Accepts (s : Connection H) (draws : Draws H) (packet : HandshakePacket)
    (privateKey : H.PrivateKey) (content : ReplyContent H) (t : Connection H) : Prop where
  handshakeKey : s.1.handshakeKey packet.type = some privateKey
  offers : packet.Offers s.1 content
  answered : s.1.AnsweredBy draws.now packet
  agreed : t = s.agreed packet.type privateKey content

/-- A plain reply succeeds exactly if it is accepted. -/
theorem exec_processEcdhe {draws : Draws H} {packet : HandshakePacket} {s t : Connection H}
    (htype : packet.type = some "ecdhe") :
    exec (processEcdhe draws packet) s = (.ok (), t) ↔
      ∃ privateKey content, Accepts s draws packet privateKey content t := by
  have hne : ¬ packet.type = some "ecdhex" := by
    rw [htype]
    decide
  unfold processEcdhe
  rw [exec_get_bind]
  constructor
  · intro h
    cases hprivate : s.1.ecdhePrivateKey with
    | none => simp [hprivate] at h
    | some privateKey =>
      cases hkey : packet.key with
      | none => simp [hprivate, hkey] at h
      | some key =>
        cases hder : H.fromDER key with
        | error e => simp [hprivate, hkey, hder] at h
        | ok publicKey =>
          simp only [hprivate, hkey, exec_getValue_some_bind, hder, exec_lift_ok_bind,
            exec_seq_eq_ok, exec_extractServerConfig, exec_extractAndValidateChallenge,
            exec_updateClient] at h
          obtain ⟨u, ⟨serverConfig, hconfig, rfl⟩, v, ⟨hanswered, rfl⟩, w, hw, hend⟩ := h
          cases hw
          cases hend
          refine ⟨privateKey, ⟨publicKey, s.1.host, serverConfig⟩, ?_, ?_, hanswered, ?_⟩
          · rw [Client.handshakeKey, if_neg hne, hprivate]
          · exact ⟨⟨key, hkey, hder⟩, by rw [if_neg hne], hconfig⟩
          · simp only [Connection.agreed, if_neg hne]
  · rintro ⟨privateKey, content, hprivate, ⟨⟨key, hkey, hder⟩, hhost, hconfig⟩, hanswered, rfl⟩
    rw [Client.handshakeKey, if_neg hne] at hprivate
    rw [if_neg hne] at hhost
    simp only [hprivate, hkey, exec_getValue_some_bind, hder, exec_lift_ok_bind, exec_seq_eq_ok,
      exec_extractServerConfig, exec_extractAndValidateChallenge, exec_updateClient]
    refine ⟨_, ⟨_, hconfig, rfl⟩, _, ⟨hanswered, rfl⟩, _, rfl, ?_⟩
    simp only [Connection.agreed, if_neg hne, hhost]
    rfl

/-- So does a reply to the extended handshake. -/
theorem exec_processEcdhex {draws : Draws H} {packet : HandshakePacket} {s t : Connection H}
    (htype : packet.type = some "ecdhex") :
    exec (processEcdhex draws packet) s = (.ok (), t) ↔
      ∃ privateKey content, Accepts s draws packet privateKey content t := by
  unfold processEcdhex
  rw [exec_get_bind]
  constructor
  · intro h
    cases hprivate : s.1.ecdhexPrivateKey with
    | none => simp [hprivate] at h
    | some privateKey =>
      cases hkey : packet.key with
      | none => simp [hprivate, hkey] at h
      | some key =>
        cases hhost : packet.host with
        | none => simp [hprivate, hkey, hhost] at h
        | some host =>
          simp only [hprivate, hkey, hhost, exec_getValue_some_bind, exec_updateClient_bind,
            exec_seq_eq_ok, exec_extractServerConfig, exec_extractAndValidateChallenge] at h
          obtain ⟨u, ⟨serverConfig, hconfig, rfl⟩, v, ⟨hanswered, rfl⟩, hend⟩ := h
          cases hder : H.fromDER key with
          | error e => simp [hder] at hend
          | ok publicKey =>
            simp only [hder, exec_lift_ok_bind, exec_updateClient_bind] at hend
            cases hend
            refine ⟨privateKey, ⟨publicKey, host, serverConfig⟩, ?_, ?_, hanswered, ?_⟩
            · rw [Client.handshakeKey, if_pos htype, hprivate]
            · exact ⟨⟨key, hkey, hder⟩, by rw [if_pos htype, hhost], hconfig⟩
            · simp only [Connection.agreed, if_pos htype]
  · rintro ⟨privateKey, content, hprivate, ⟨⟨key, hkey, hder⟩, hhost, hconfig⟩, hanswered, rfl⟩
    rw [Client.handshakeKey, if_pos htype] at hprivate
    rw [if_pos htype] at hhost
    simp only [hprivate, hkey, hhost, exec_getValue_some_bind, exec_updateClient_bind,
      exec_seq_eq_ok, exec_extractServerConfig, exec_extractAndValidateChallenge]
    refine ⟨_, ⟨_, hconfig, rfl⟩, _, ⟨hanswered, rfl⟩, ?_⟩
    simp only [hder, exec_lift_ok_bind, exec_updateClient_bind, Connection.agreed, if_pos htype]
    rfl

/-- The types of the replies. -/
def HandshakePacket.IsReply (packet : HandshakePacket) : Prop :=
  packet.type = some "ecdhe" ∨ packet.type = some "ecdhex"

/-- A reply goes to one of these two. -/
theorem processHandshakePacket_of_reply (options : ConnectionOptions) (draws : Draws H)
    {packet : HandshakePacket} (hreply : packet.IsReply) :
    (packet.type = some "ecdhe" ∧
        processHandshakePacket options draws packet = processEcdhe draws packet) ∨
      (packet.type = some "ecdhex" ∧
        processHandshakePacket options draws packet = processEcdhex draws packet) := by
  rcases hreply with htype | htype
  · refine Or.inl ⟨htype, ?_⟩
    rw [processHandshakePacket, htype]
    rfl
  · refine Or.inr ⟨htype, ?_⟩
    rw [processHandshakePacket, htype]
    rfl

/-- **A reply succeeds exactly if it is accepted.** -/
theorem exec_reply {options : ConnectionOptions} {draws : Draws H} {packet : HandshakePacket}
    {s t : Connection H} (hreply : packet.IsReply) :
    exec (processHandshakePacket options draws packet) s = (.ok (), t) ↔
      ∃ privateKey content, Accepts s draws packet privateKey content t := by
  rcases processHandshakePacket_of_reply options draws hreply with
    ⟨htype, hprocess⟩ | ⟨htype, hprocess⟩
  · rw [hprocess, exec_processEcdhe htype]
  · rw [hprocess, exec_processEcdhex htype]

/-! ## Replies that are rejected -/

/-- No keys have been changed. -/
def Untouched (s t : Connection H) : Prop :=
  t.1.masterSecret = s.1.masterSecret ∧ t.2 = s.2

/-- A configuration that cannot be read changes nothing. -/
theorem extractServerConfig_untouched (s : Connection H) (packet : HandshakePacket) :
    Triple (Untouched s) (extractServerConfig packet) (fun _ => Untouched s) (Untouched s) := by
  refine getValue_bind (fun _ h => h) fun config _ =>
    getValue_bind (fun _ h => h) fun requestChunkSize _ => ?_
  refine Triple.bind (Q := fun _ => Untouched s) (Triple.modify fun t ht => ht) fun _ => ?_
  cases config.serverVersion with
  | none => exact Triple.pure fun _ h => h
  | some version => exact getValue_bind (fun _ h => h) fun _ _ => Triple.modify fun _ h => h

/-- The keys are set at the end, where nothing throws. -/
theorem agree_untouched (s : Connection H) (f : Client H → Client H) (secret : Bytes) :
    Triple (Untouched s) (do updateClient f; setPreMasterSecret secret) (fun _ _ => True)
      (Untouched s) :=
  Triple.bind (Q := fun _ _ => True) (Triple.modify fun _ _ => trivial) fun _ =>
    Triple.modify fun _ _ => trivial

/-- Where a plain reply throws, the session is as it was. -/
theorem processEcdhe_untouched (s : Connection H) (draws : Draws H) (packet : HandshakePacket) :
    Triple (Untouched s) (processEcdhe draws packet) (fun _ _ => True) (Untouched s) := by
  refine Triple.get_bind fun u hu => ?_
  have hthrow : ∀ t, t = u → Untouched s t := fun t ht => ht ▸ hu
  cases u.1.ecdhePrivateKey with
  | none => exact Triple.throw hthrow
  | some privateKey =>
      refine getValue_bind hthrow fun key _ => Triple.lift_bind hthrow fun publicKey _ => ?_
      refine Triple.bind ((extractServerConfig_untouched s packet).weaken hthrow fun _ _ h => h)
        fun _ => ?_
      exact Triple.bind (extractAndValidateChallenge_triple draws.now packet) fun _ =>
        (agree_untouched s _ _).weaken (fun _ h => h.2) fun _ _ h => h

/-- So it is where a reply to the extended handshake throws. -/
theorem processEcdhex_untouched (s : Connection H) (draws : Draws H) (packet : HandshakePacket) :
    Triple (Untouched s) (processEcdhex draws packet) (fun _ _ => True) (Untouched s) := by
  refine Triple.get_bind fun u hu => ?_
  have hthrow : ∀ t, t = u → Untouched s t := fun t ht => ht ▸ hu
  cases u.1.ecdhexPrivateKey with
  | none => exact Triple.throw hthrow
  | some privateKey =>
      refine getValue_bind hthrow fun key _ => getValue_bind hthrow fun host _ => ?_
      refine Triple.bind (Q := fun _ => Untouched s) (Triple.modify hthrow) fun _ => ?_
      refine Triple.bind (extractServerConfig_untouched s packet) fun _ => ?_
      exact Triple.bind (extractAndValidateChallenge_triple draws.now packet) fun _ =>
        Triple.lift_bind (fun _ h => h.2) fun publicKey _ =>
          (agree_untouched s _ _).weaken (fun _ h => h.2) fun _ _ h => h

/-- **A rejected reply leaves the session untouched.** -/
theorem reply_untouched {options : ConnectionOptions} {draws : Draws H} {packet : HandshakePacket}
    {s t : Connection H} {e : RpcException} (hreply : packet.IsReply)
    (h : exec (processHandshakePacket options draws packet) s = (.error e, t)) :
    Untouched s t := by
  rcases processHandshakePacket_of_reply options draws hreply with
    ⟨-, hprocess⟩ | ⟨-, hprocess⟩
  · have hkeep := processEcdhe_untouched s draws packet s ⟨rfl, rfl⟩
    rw [← hprocess, h] at hkeep
    exact hkeep
  · have hkeep := processEcdhex_untouched s draws packet s ⟨rfl, rfl⟩
    rw [← hprocess, h] at hkeep
    exact hkeep

/-! ## The pinned key of a run -/

/-- The server key that a client has pinned, with the challenge for it. -/
def Pins (pins : Option (H.PublicKey × Bytes)) (c : Client H) : Prop :=
  c.serverPubKey.map (·, c.serverChallenge) = pins

section Frame

variable {pins : Option (H.PublicKey × Bytes)} {options : ConnectionOptions} {draws : Draws H}
  {packet : HandshakePacket}

/-- A new secret unpins nothing. -/
theorem Pins.setPreMasterSecret (secret : Bytes) :
    Keeps (Pins pins) (setPreMasterSecret (H := H) secret) :=
  Triple.modify fun _ h => h

/-- Nor do stored tickets. -/
theorem Pins.saveTicketsOf : Keeps (Pins pins) (saveTicketsOf (H := H) draws packet) :=
  saveTicketsOf_triple (fun _ _ h => h) draws packet

/-- Nor does a ticket that is used, or that is missing. -/
theorem Pins.useTicket (now : Int) : Keeps (Pins pins) (useTicket (H := H) now) := by
  refine Keeps.bind (Keeps.updateClient fun _ h => h) fun _ => Keeps.get_bind fun s _ => ?_
  cases s.1.ticketsManager.tickets with
  | nil => exact Keeps.throw _
  | cons ticket tickets =>
      exact Keeps.bind (Keeps.updateClient fun _ h => h) fun _ => Keeps.pure _

/-- A handshake over a ticket keeps the pin. -/
theorem Pins.ticketHandshake : Keeps (Pins pins) (ticketHandshake draws) :=
  (Pins.useTicket _).bind fun _ => (Keeps.sendHandshake _).bind fun _ =>
    Keeps.bind (Triple.modify fun _ h => h) fun _ => Keeps.changeCipherSpec

/-- So does a reset of the session. -/
theorem Pins.reset (keepSession : Bool) : Keeps (Pins pins) (reset (H := H) keepSession) := by
  refine Keeps.bind (Triple.modify fun _ h => h) fun _ => ?_
  cases keepSession with
  | true => exact Keeps.pure _
  | false => exact Keeps.updateClient fun _ h => h

/-- The configuration of the server has nothing to do with its key. -/
theorem Pins.extractServerConfig : Keeps (Pins pins) (extractServerConfig (H := H) packet) :=
  Keeps.extractServerConfig (fun _ _ h => h) packet

/-- The challenge is validated against the pin and does not change it. -/
theorem Pins.extractAndValidateChallenge (now : Int) :
    Keeps (Pins pins) (extractAndValidateChallenge (H := H) now packet) :=
  (extractAndValidateChallenge_triple now packet).weaken (fun _ h => h) fun _ _ h => h.2

/-- A session key is agreed upon under the pin. -/
theorem Pins.newSessionKey : Keeps (Pins pins) (newSessionKey options draws) := by
  unfold PrivmxEndpoint.newSessionKey
  split
  · exact Keeps.bind (Keeps.updateClient fun _ h => h) fun _ => Keeps.pure _
  · exact Keeps.pure _

/-- An exchange that is answered over a ticket keeps the pin. -/
theorem Pins.answerOverTicket (exchange : ClientPacket) :
    Keeps (Pins pins) (answerOverTicket draws packet exchange) :=
  Pins.extractServerConfig.bind fun _ => (Pins.reset true).bind fun _ =>
    Pins.ticketHandshake.bind fun _ => Keeps.sendHandshake _

/-- The old tickets make way for the new ones, under the same pin. -/
theorem Pins.replaceTickets (secret : Bytes) :
    Keeps (Pins pins) (do
      PrivmxEndpoint.setPreMasterSecret secret
      clearTickets
      PrivmxEndpoint.saveTicketsOf draws packet : ClientM H Unit) :=
  (Pins.setPreMasterSecret _).bind fun _ =>
    Keeps.bind (Keeps.updateClient fun _ h => h) fun _ => Pins.saveTicketsOf

/-- The handlers of all packets keep the pin, one after the other. -/
theorem Pins.processEcdhe : Keeps (Pins pins) (processEcdhe draws packet) := by
  refine Keeps.get_bind fun s _ => ?_
  cases s.1.ecdhePrivateKey with
  | none => exact Keeps.throw _
  | some privateKey =>
      exact (Keeps.getValue _).bind fun _ => (Keeps.lift _).bind fun _ =>
        Pins.extractServerConfig.bind fun _ => (Pins.extractAndValidateChallenge _).bind fun _ =>
          Keeps.bind (Keeps.updateClient fun _ h => h) fun _ => Pins.setPreMasterSecret _

/-- The reply to the extended handshake. -/
theorem Pins.processEcdhex : Keeps (Pins pins) (processEcdhex draws packet) := by
  refine Keeps.get_bind fun s _ => ?_
  cases s.1.ecdhexPrivateKey with
  | none => exact Keeps.throw _
  | some privateKey =>
      refine (Keeps.getValue _).bind fun _ => (Keeps.getValue _).bind fun _ => ?_
      exact Keeps.bind (Keeps.updateClient fun _ h => h) fun _ =>
        Pins.extractServerConfig.bind fun _ => (Pins.extractAndValidateChallenge _).bind fun _ =>
          (Keeps.lift _).bind fun _ => Keeps.bind (Keeps.updateClient fun _ h => h) fun _ =>
            Pins.setPreMasterSecret _

/-- The first reply of a login with a password. -/
theorem Pins.processSrpInit : Keeps (Pins pins) (processSrpInit options draws packet) := by
  refine Keeps.get_bind fun s _ => ?_
  dsimp only
  split
  · exact Keeps.throw_bind _ _
  · exact (Keeps.lift _).bind fun _ => Keeps.bind (Keeps.updateClient fun _ h => h) fun _ =>
      Pins.newSessionKey.bind fun _ => Pins.answerOverTicket _

/-- The second reply of a login with a password. -/
theorem Pins.processSrpExchange : Keeps (Pins pins) (processSrpExchange draws packet) := by
  refine Keeps.get_bind fun s _ => ?_
  dsimp only
  split
  · exact Keeps.throw_bind _ _
  · refine (Keeps.getValue _).bind fun M2 => ?_
    split
    · exact Keeps.throw_bind _ _
    · exact Keeps.bind (Keeps.updateClient fun _ h => h) fun _ => Pins.replaceTickets _

/-- The first reply of a login with a key. -/
theorem Pins.processKeyInit : Keeps (Pins pins) (processKeyInit options draws packet) :=
  (Keeps.getValue _).bind fun _ => (Keeps.getValue _).bind fun _ =>
    Keeps.bind (Keeps.updateClient fun _ h => h) fun _ => Keeps.get_bind fun _ _ =>
      (Keeps.optionalValue _).bind fun _ => (Keeps.getValue _).bind fun _ =>
        (Keeps.lift _).bind fun _ => Pins.newSessionKey.bind fun _ => Pins.answerOverTicket _

/-- The second reply of a login with a key. -/
theorem Pins.processKeyExchange : Keeps (Pins pins) (processKeyExchange draws packet) := by
  refine Keeps.get_bind fun s _ => ?_
  dsimp only
  split
  · exact Keeps.throw_bind _ _
  · exact Keeps.bind (Keeps.updateClient fun _ h => h) fun _ => Pins.replaceTickets _

/-- The reply of a session that is resumed. -/
theorem Pins.processSession : Keeps (Pins pins) (processSession (H := H) packet) :=
  (Keeps.getValue _).bind fun _ => (Keeps.lift _).bind fun _ => Keeps.get_bind fun _ _ =>
    (Keeps.optionalValue _).bind fun _ => (Pins.setPreMasterSecret _).bind fun _ =>
      Pins.extractServerConfig

/-- **No handshake packet changes the pin.** -/
theorem Pins.processHandshakePacket :
    Keeps (Pins pins) (processHandshakePacket options draws packet) := by
  refine (Keeps.getValue _).bind fun type => ?_
  split
  · exact Pins.processEcdhe
  split
  · exact Pins.processEcdhex
  split
  · exact Pins.saveTicketsOf
  split
  · exact Pins.processSrpInit
  split
  · exact Pins.processSrpExchange
  split
  · exact Pins.processKeyInit
  split
  · exact Pins.processKeyExchange
  split
  · exact Pins.processSession
  · exact Keeps.pure _

/-- The first packet of a login with a password. -/
theorem Pins.srpHandshake2 (username host password : Bytes) (tickets : Int) :
    Keeps (Pins pins) (srpHandshake2 (H := H) options username host password tickets) :=
  (Keeps.sendHandshake _).bind fun _ => Keeps.updateClient fun _ h => h

/-- A login with a password keeps the pin, also where it throws. -/
theorem Pins.srpHandshake (hashmail password : Bytes) (tickets : Int) :
    Keeps (Pins pins) (srpHandshake (H := H) options hashmail password tickets) := by
  unfold PrivmxEndpoint.srpHandshake
  dsimp only
  split
  · exact Keeps.throw_bind _ _
  · refine Keeps.get_bind fun s _ => ?_
    split
    · exact Keeps.throw_bind _ _
    · exact Pins.srpHandshake2 _ _ _ _

/-- A handshake pins its server key, if it has one. -/
theorem Pins.startPinned (draws : Draws H) (setKey : Client H → Client H)
    (hset : ∀ c, Pins pins c → Pins pins (setKey c)) (serverPubKey : Option H.PublicKey)
    (packet : Option Bytes → ClientPacket) :
    Triple (fun s => Pins pins s.1)
      (do
        updateClient setKey
        let challenge ← pinServer serverPubKey draws
        sendHandshake (packet challenge) : ClientM H Unit)
      (fun _ s => Pins ((serverPubKey.map (·, H.hexFrom draws.challenge)).or pins) s.1)
      fun s => Pins ((serverPubKey.map (·, H.hexFrom draws.challenge)).or pins) s.1 := by
  refine Triple.bind (Q := fun _ s => Pins pins s.1) (Triple.modify fun s hs => hset s.1 hs)
    fun _ => ?_
  cases serverPubKey with
  | none => exact Keeps.bind (Keeps.pure _) fun _ => Keeps.sendHandshake _
  | some serverPubKey =>
      have hsend (challenge : Option Bytes) :
          Keeps (Pins (some (serverPubKey, H.hexFrom draws.challenge)))
            (sendHandshake (packet challenge) : ClientM H Unit) := Keeps.sendHandshake _
      exact Triple.bind
        (Triple.bind (Triple.modify fun s _ => rfl) fun _ => Triple.pure fun _ h => h) hsend

/-- **One action.** -/
theorem Pins.perform (history : History H) (action : ClientAction H) :
    Triple (fun s => Pins (pinned history) s.1) (action.perform options draws)
      (fun _ s => Pins (pinned ((action, draws) :: history)) s.1)
      fun s => Pins (pinned ((action, draws) :: history)) s.1 := by
  cases action with
  | ecdheHandshake key solution serverPubKey =>
      have h := Pins.startPinned draws
        (fun c : Client H => { c with ecdhePrivateKey := some key })
        (fun c (h : Pins (pinned history) c) => h) serverPubKey fun challenge =>
          .ecdhe (H.toDER (H.getPublicKey key)) options.agent solution challenge
      cases serverPubKey with
      | none => exact h
      | some serverPubKey => exact h
  | ecdhexHandshake key solution serverPubKey =>
      have h := Pins.startPinned draws
        (fun c : Client H => { c with ecdhexPrivateKey := some key })
        (fun c (h : Pins (pinned history) c) => h) serverPubKey fun challenge =>
          .ecdhex options.agent (H.toDER (H.getPublicKey key)) (H.base64From draws.nonce)
            (toString draws.now) (H.signToCompactSignatureWithHash key (textBytes
              ("ecdhexlogin " ++ H.base64From draws.nonce ++ " " ++ toString draws.now)))
            solution challenge
      cases serverPubKey with
      | none => exact h
      | some serverPubKey => exact h
  | srpHandshake hashmail password tickets => exact Pins.srpHandshake _ _ _
  | srpHandshake2 username host password tickets => exact Pins.srpHandshake2 _ _ _ _
  | keyHandshake2 privateKey tickets =>
      exact Keeps.bind (Keeps.updateClient fun _ h => h) fun _ => Keeps.sendHandshake _
  | sessionHandshake sessionId sessionKey =>
      exact Keeps.bind (Keeps.updateClient fun _ h => h) fun _ => Keeps.sendHandshake _
  | reset keepSession => exact Pins.reset keepSession
  | ticketHandshake => exact Pins.ticketHandshake
  | ticketRequest n => exact Keeps.sendHandshake _
  | packet p => exact Pins.processHandshakePacket

/-- **Any run.**  The client has pinned what the last handshake with a server key
has pinned. -/
theorem pins_of_run {ticketsManager : TicketsManager} {base : ConnectionBase}
    {actions : List (ClientAction H × Draws H)} {history : History H} {s : Connection H}
    (hrun : Runs.Run (connectionStep options) ([], (Client.fresh ticketsManager, base)) actions
      (history, s)) : Pins (pinned history) s.1 := by
  refine Runs.Run.preserves (fun t : History H × Connection H => Pins (pinned t.1) t.2.1) ?_ hrun
    rfl
  rintro t e u ht rfl
  exact (Pins.perform t.1 e.1).exec_snd ht

end Frame

end Replies

/-- **Replies to a pinned key.**  A run has left the client with a pinned server key
and a challenge.  A reply is accepted only if the owner of the key has signed the
challenge together with a time close to now, and then the client takes over the key,
the host and the configuration that the reply offers.  A reply that is rejected
changes no keys.  Whatever a reply of the same type offers next to the same signature
is accepted too. -/
theorem pinned_reply {H : HandshakeCrypto} (options : ConnectionOptions)
    (ticketsManager : TicketsManager) (base : ConnectionBase)
    (actions : List (ClientAction H × Draws H)) (history : History H) (s : Connection H)
    (hrun : Runs.Run (connectionStep options) ([], (Client.fresh ticketsManager, base)) actions
      (history, s))
    (serverPubKey : H.PublicKey) (serverChallenge : Bytes)
    (hpinned : pinned history = some (serverPubKey, serverChallenge))
    (draws : Draws H) (packet : HandshakePacket) (hreply : packet.IsReply) (signed : Set Bytes)
    (hunforged : packet.Unforged H serverPubKey signed) :
    (∀ t, exec (processHandshakePacket options draws packet) s = (.ok (), t) →
      (∃ serverTimestamp, |draws.now - serverTimestamp| < allowedTimeDifference ∧
        serverChallenge ++ textBytes (";" ++ toString serverTimestamp) ∈ signed) ∧
      ∃ privateKey content, s.1.handshakeKey packet.type = some privateKey ∧
        packet.Offers s.1 content ∧ t = s.agreed packet.type privateKey content ∧
        ∀ (other : HandshakePacket) (otherContent : ReplyContent H), other.type = packet.type →
          other.signature = packet.signature → other.Offers s.1 otherContent →
          exec (processHandshakePacket options draws other) s =
            (.ok (), s.agreed packet.type privateKey otherContent)) ∧
      ∀ e t, exec (processHandshakePacket options draws packet) s = (.error e, t) →
        Untouched s t := by
  have hpins : s.1.serverPubKey = some serverPubKey ∧ s.1.serverChallenge = serverChallenge := by
    have h := (pins_of_run hrun).trans hpinned
    obtain ⟨key, hkey, heq⟩ := Option.map_eq_some_iff.mp h
    cases heq
    exact ⟨hkey, rfl⟩
  refine ⟨fun t haccept => ?_, fun e t hreject => reply_untouched hreply hreject⟩
  obtain ⟨privateKey, content, hprivate, hoffers, hanswered, hagreed⟩ :=
    (exec_reply hreply).mp haccept
  refine ⟨?_, privateKey, content, hprivate, hoffers, hagreed, ?_⟩
  · obtain ⟨signature, serverTimestamp, challenge, result, hsignature, -, htime, hchallenge,
      hresult, hverify⟩ := hanswered serverPubKey hpins.1
    rw [hpins.2] at hverify
    exact ⟨serverTimestamp, htime,
      hunforged signature challenge result _ hsignature hchallenge hresult hverify⟩
  · intro other otherContent htype hsignature hother
    have hotherReply : other.IsReply := by
      rw [HandshakePacket.IsReply, htype]
      exact hreply
    refine (exec_reply hotherReply).mpr ⟨privateKey, otherContent, ?_, hother, ?_, ?_⟩
    · rw [htype, hprivate]
    · intro key hkey
      obtain ⟨signature, serverTimestamp, challenge, result, hpresent, hrest⟩ := hanswered key hkey
      exact ⟨signature, serverTimestamp, challenge, result, hsignature.trans hpresent, hrest⟩
    · rw [htype]

/-! ## A reply on its way -/

/-- The client starts a handshake with its key 8, and pins the server key 6. -/
def samplePinnedStart : ClientAction sampleHandshakeCrypto × Draws sampleHandshakeCrypto :=
  (.ecdhexHandshake (8 : UInt8) none (some (6 : UInt8)), sampleDraws)

/-- What the server signs at time zero. -/
def sampleSigned : Bytes :=
  [3] ++ textBytes (";" ++ toString (0 : Int))

/-- A reply with the signature of the server. -/
def samplePinnedReply (key host : UInt8) (requestChunkSize : Nat) : HandshakePacket :=
  { HandshakePacket.ofType "ecdhex" with
    key := some [key]
    host := some [host]
    config := some ⟨some requestChunkSize, none⟩
    signature := some ⟨some 0, some (6 :: sampleSigned)⟩ }

/-- The state of the client that waits for it. -/
def samplePinnedState : Connection sampleHandshakeCrypto :=
  (sampleNext samplePinnedStart sampleStart).2

/-- The sample reply carries no signature but the one that the server made. -/
theorem samplePinnedReply_unforged (key host : UInt8) (requestChunkSize : Nat) :
    (samplePinnedReply key host requestChunkSize).Unforged sampleHandshakeCrypto (6 : UInt8)
      {sampleSigned} := by
  intro signature challenge result message hsignature hchallenge hresult hverify
  cases hsignature
  cases hchallenge
  cases hresult
  exact (List.cons.inj (of_decide_eq_true hverify)).2.symm

/-- It is accepted, whatever configuration it brings. -/
theorem exec_samplePinnedReply (key host : UInt8) (requestChunkSize : Nat) :
    exec (processHandshakePacket sampleOptions sampleDraws
        (samplePinnedReply key host requestChunkSize)) samplePinnedState =
      (.ok (), samplePinnedState.agreed (some "ecdhex") (8 : UInt8)
        ⟨key, [host], ⟨requestChunkSize, []⟩⟩) := by
  refine (exec_reply (Or.inr rfl)).mpr ⟨(8 : UInt8), ⟨key, [host], ⟨requestChunkSize, []⟩⟩, rfl,
    ⟨⟨[key], rfl, rfl⟩, rfl, rfl⟩, ?_, rfl⟩
  intro serverPubKey hkey
  cases hkey
  exact ⟨_, 0, _, _, rfl, rfl, by decide, rfl, rfl, decide_eq_true rfl⟩

/-- The reply with the key 9 of the server. -/
theorem pinned_reply_sample :
    ∃ t, exec (processHandshakePacket sampleOptions sampleDraws (samplePinnedReply 9 1 1024))
        samplePinnedState = (.ok (), t) ∧
      ∃ serverTimestamp : Int, |0 - serverTimestamp| < allowedTimeDifference ∧
        [3] ++ textBytes (";" ++ toString serverTimestamp) ∈ ({sampleSigned} : Set Bytes) :=
  ⟨_, exec_samplePinnedReply 9 1 1024,
    ((pinned_reply sampleOptions ⟨[], -1⟩ sampleBase [samplePinnedStart] [samplePinnedStart]
      samplePinnedState (.cons rfl (.nil _)) (6 : UInt8) [3] rfl sampleDraws
      (samplePinnedReply 9 1 1024) (Or.inr rfl) {sampleSigned}
      (samplePinnedReply_unforged 9 1 1024)).1 _ (exec_samplePinnedReply 9 1 1024)).1⟩

/-- The reply is changed on its way: another key, another host, or another
configuration.  It is accepted each time, with the secret of the other key, the other
host, or the other configuration. -/
theorem pinned_reply_replaced :
    ∃ t t₁ t₂ t₃ : Connection sampleHandshakeCrypto,
      exec (processHandshakePacket sampleOptions sampleDraws (samplePinnedReply 9 1 1024))
          samplePinnedState = (.ok (), t) ∧
        exec (processHandshakePacket sampleOptions sampleDraws (samplePinnedReply 10 1 1024))
          samplePinnedState = (.ok (), t₁) ∧
        exec (processHandshakePacket sampleOptions sampleDraws (samplePinnedReply 9 2 1024))
          samplePinnedState = (.ok (), t₂) ∧
        exec (processHandshakePacket sampleOptions sampleDraws (samplePinnedReply 9 1 512))
          samplePinnedState = (.ok (), t₃) ∧
        t₁.1.masterSecret ≠ t.1.masterSecret ∧ t₂.1.host ≠ t.1.host ∧
        t₃.1.serverConfig ≠ t.1.serverConfig := by
  refine ⟨_, _, _, _, exec_samplePinnedReply 9 1 1024, exec_samplePinnedReply 10 1 1024,
    exec_samplePinnedReply 9 2 1024, exec_samplePinnedReply 9 1 512, ?_, ?_, ?_⟩
  · show masterSecretOf sampleHandshakeCrypto [18] [] [] ≠
      masterSecretOf sampleHandshakeCrypto [17] [] []
    decide
  · show ([2] : Bytes) ≠ [1]
    decide
  · show (⟨512, []⟩ : ServerConfig) ≠ ⟨1024, []⟩
    decide

end PrivmxEndpoint
