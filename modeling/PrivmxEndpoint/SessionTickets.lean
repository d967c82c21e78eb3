import PrivmxEndpoint.ConnectionClient
import PrivmxEndpoint.GuardedRuns
import PrivmxEndpoint.RecordRoundTrip

/-!
# Where the secrets of tickets come from

A ticket stands for the master secret that was current when it was stored.  The
secret is meant to be one that the client has negotiated: by a handshake that it
has started itself, and whose answer it has validated.

This holds in every run in which the server sends tickets only when a master
secret is there, and in which a packet that sets a key or a secret belongs to a
handshake of the client, is well formed, and answers the challenge of a pinned server
key (`tickets_negotiated`).  The client checks little of this: it stores a
`ticket_response` in any state, with an empty master secret if there is no other; it
draws the key of `key_init` and takes the secret of `session` before the rest of the
packet has been read; and only `ecdhe` and `ecdhex` look at the challenge.
-/

namespace PrivmxEndpoint

open Throwing

/-- What happens at a connection: calls of the client, and packets of the
server. -/
inductive ClientAction (H : HandshakeCrypto)
  | ecdheHandshake (key : H.PrivateKey) (solution : Option Bytes)
      (serverPubKey : Option H.PublicKey)
  | ecdhexHandshake (key : H.PrivateKey) (solution : Option Bytes)
      (serverPubKey : Option H.PublicKey)
  | srpHandshake (hashmail password : Bytes) (tickets : Int)
  | srpHandshake2 (username host password : Bytes) (tickets : Int)
  | keyHandshake2 (privateKey : H.PrivateKey) (tickets : Int)
  | sessionHandshake (sessionId : Bytes) (sessionKey : H.PrivateKey)
  | reset (keepSession : Bool)
  | ticketHandshake
  | ticketRequest (n : Int)
  | packet (packet : HandshakePacket)

/-- The history of a connection, with what each call has drawn; the last action
comes first. -/
abbrev History (H : HandshakeCrypto) := List (ClientAction H × Draws H)

section Actions

variable {H : HandshakeCrypto}

/-- The function behind an action. -/
def ClientAction.perform (options : ConnectionOptions) (draws : Draws H) :
    ClientAction H → ClientM H Unit
  | .ecdheHandshake key solution serverPubKey =>
      PrivmxEndpoint.ecdheHandshake options key solution serverPubKey draws
  | .ecdhexHandshake key solution serverPubKey =>
      PrivmxEndpoint.ecdhexHandshake options key solution serverPubKey draws
  | .srpHandshake hashmail password tickets =>
      PrivmxEndpoint.srpHandshake options hashmail password tickets
  | .srpHandshake2 username host password tickets =>
      PrivmxEndpoint.srpHandshake2 options username host password tickets
  | .keyHandshake2 privateKey tickets => PrivmxEndpoint.keyHandshake2 options privateKey tickets
  | .sessionHandshake sessionId sessionKey =>
      PrivmxEndpoint.sessionHandshake sessionId sessionKey draws
  | .reset keepSession => PrivmxEndpoint.reset keepSession
  | .ticketHandshake => PrivmxEndpoint.ticketHandshake draws
  | .ticketRequest n => PrivmxEndpoint.ticketRequest n
  | .packet p => processHandshakePacket options draws p

/-- The state after an action.  The connection goes on after an exception. -/
def ClientAction.next (options : ConnectionOptions) (action : ClientAction H) (draws : Draws H)
    (s : Connection H) : Connection H :=
  (exec (action.perform options draws) s).2

/-! ## Negotiated secrets -/

/-- The server key that is pinned, and the challenge for it. -/
def pinned : History H → Option (H.PublicKey × Bytes)
  | [] => none
  | (.ecdheHandshake _ _ (some serverPubKey), draws) :: _ =>
      some (serverPubKey, H.hexFrom draws.challenge)
  | (.ecdhexHandshake _ _ (some serverPubKey), draws) :: _ =>
      some (serverPubKey, H.hexFrom draws.challenge)
  | _ :: history => pinned history

/-- The packet carries a signature of the challenge by the pinned key, made at about
the given time. -/
def ChallengeAnswered (H : HandshakeCrypto) (now : Int) (serverPubKey : H.PublicKey)
    (serverChallenge : Bytes) (packet : HandshakePacket) : Prop :=
  ∃ signature serverTimestamp challenge result, packet.signature = some signature ∧
    signature.timestamp = some serverTimestamp ∧
    |now - serverTimestamp| < allowedTimeDifference ∧
    signature.challenge = some challenge ∧ H.hexToString challenge = .ok result ∧
    H.verifyCompactSignatureWithHash serverPubKey
      (serverChallenge ++ textBytes (";" ++ toString serverTimestamp)) result = true

/-- What has happened at a connection, and whether it went through without an
exception; the last action comes first. -/
abbrev Transcript (H : HandshakeCrypto) := List ((ClientAction H × Draws H) × Bool)

/-- An action of the kind has gone through. -/
def Did (transcript : Transcript H) (p : ClientAction H → Prop) : Prop :=
  ∃ e ∈ transcript, e.2 = true ∧ p e.1.1

/-- The packet answers the challenge if a server key is pinned. -/
def Answered (transcript : Transcript H) (now : Int) (packet : HandshakePacket) : Prop :=
  ∀ serverPubKey serverChallenge,
    pinned (transcript.map Prod.fst) = some (serverPubKey, serverChallenge) →
      ChallengeAnswered H now serverPubKey serverChallenge packet

/-- The client has started an SRP handshake for a user. -/
def SrpStarted (transcript : Transcript H) (username password : Bytes) : Prop :=
  Did transcript fun action =>
    (∃ host tickets, action = .srpHandshake2 username host password tickets) ∨
    ∃ hashmail tickets, action = .srpHandshake hashmail password tickets ∧
      username = hashmail.take (hashmail.idxOf 35)

/-- An answer of the server to it was accepted, and has led to an expected `M2` and a
key. -/
inductive SrpExpects : Transcript H → Int → Bytes → Prop
  | here {transcript : Transcript H} {username password : Bytes} {packet : HandshakePacket}
      {draws : Draws H} {M2 : Int} {K answer : Bytes}
      (hstarted : SrpStarted transcript username password)
      (htype : packet.type = some "srp_init")
      (hinit : H.validateSrpInit username password packet draws.srp = .ok (M2, K, answer)) :
      SrpExpects (((.packet packet, draws), true) :: transcript) M2 K
  | later {transcript : Transcript H} {M2 : Int} {K : Bytes}
      (e : (ClientAction H × Draws H) × Bool) (h : SrpExpects transcript M2 K) :
      SrpExpects (e :: transcript) M2 K

/-- The client has started a key handshake. -/
def KeyStarted (transcript : Transcript H) : Prop :=
  Did transcript fun action => ∃ privateKey tickets, action = .keyHandshake2 privateKey tickets

/-- A key was drawn at an answer to it that was accepted. -/
inductive KeyDrawn : Transcript H → Bytes → Prop
  | here {transcript : Transcript H} {packet : HandshakePacket} {draws : Draws H}
      (hstarted : KeyStarted transcript) (htype : packet.type = some "key_init") :
      KeyDrawn (((.packet packet, draws), true) :: transcript) draws.K
  | later {transcript : Transcript H} {K : Bytes} (e : (ClientAction H × Draws H) × Bool)
      (h : KeyDrawn transcript K) : KeyDrawn (e :: transcript) K

/-- A pre-master secret that comes from a handshake which the client has started
and from an answer which it has validated: the answer was accepted, and it answers
the challenge if a server key is pinned. -/
inductive Validated : Transcript H → Bytes → Prop
  | ecdhe {transcript : Transcript H} {packet : HandshakePacket} {draws : Draws H}
      {key : H.PrivateKey} {der : Bytes} {publicKey : H.PublicKey}
      (hstarted : Did transcript fun action => ∃ solution serverPubKey,
        action = .ecdheHandshake key solution serverPubKey)
      (htype : packet.type = some "ecdhe") (hkey : packet.key = some der)
      (hder : H.fromDER der = .ok publicKey) (hanswered : Answered transcript draws.now packet) :
      Validated (((.packet packet, draws), true) :: transcript) (H.ecdheSecret key publicKey)
  | ecdhex {transcript : Transcript H} {packet : HandshakePacket} {draws : Draws H}
      {key : H.PrivateKey} {der : Bytes} {publicKey : H.PublicKey}
      (hstarted : Did transcript fun action => ∃ solution serverPubKey,
        action = .ecdhexHandshake key solution serverPubKey)
      (htype : packet.type = some "ecdhex") (hkey : packet.key = some der)
      (hder : H.fromDER der = .ok publicKey) (hanswered : Answered transcript draws.now packet) :
      Validated (((.packet packet, draws), true) :: transcript) (H.ecdheSecret key publicKey)
  | srp {transcript : Transcript H} {packet : HandshakePacket} {draws : Draws H} {M2 : Int}
      {K : Bytes} (hexpects : SrpExpects transcript M2 K)
      (htype : packet.type = some "srp_exchange") (hM2 : packet.M2 = some M2)
      (hanswered : Answered transcript draws.now packet) :
      Validated (((.packet packet, draws), true) :: transcript) (fillTo32 K)
  | key {transcript : Transcript H} {packet : HandshakePacket} {draws : Draws H} {K : Bytes}
      (hdrawn : KeyDrawn transcript K) (htype : packet.type = some "key_exchange")
      (hanswered : Answered transcript draws.now packet) :
      Validated (((.packet packet, draws), true) :: transcript) (fillTo32 K)
  | session {transcript : Transcript H} {packet : HandshakePacket} {draws : Draws H}
      {sessionKey : H.PrivateKey} {der : Bytes} {publicKey : H.PublicKey}
      (hstarted : Did transcript fun action => ∃ sessionId,
        action = .sessionHandshake sessionId sessionKey)
      (htype : packet.type = some "session") (hkey : packet.key = some der)
      (hder : H.fromDER der = .ok publicKey) (hanswered : Answered transcript draws.now packet) :
      Validated (((.packet packet, draws), true) :: transcript)
        (fillTo32 (H.derive sessionKey publicKey))
  | later {transcript : Transcript H} {secret : Bytes} (e : (ClientAction H × Draws H) × Bool)
      (h : Validated transcript secret) : Validated (e :: transcript) secret

/-- A master secret of the connection, or of a ticket that was there from the
start. -/
def Negotiated (initial : List Bytes) (transcript : Transcript H) (masterSecret : Bytes) : Prop :=
  masterSecret ∈ initial ∨ ∃ secret clientRandom serverRandom, Validated transcript secret ∧
    masterSecret = masterSecretOf H secret clientRandom serverRandom

/-- The secrets of the tickets of a client. -/
def Client.ticketSecrets (c : Client H) : List Bytes :=
  c.ticketsManager.tickets.map fun t => t.2.masterSecret

/-! ## What the server may send -/

/-- The ticket that would be used next. -/
def TicketsManager.next (m : TicketsManager) (now : Int) : Option SessionTicket :=
  ((m.tickets.dropWhile (·.1 ≤ now)).head?).map (·.2)

/-- The packet carries a configuration that can be read. -/
def HandshakePacket.HasConfig (packet : HandshakePacket) : Prop :=
  ∃ config requestChunkSize, packet.config = some config ∧
    config.requestChunkSize = some requestChunkSize ∧ config.serverVersion ≠ some none

/-- The packet carries tickets that can be read. -/
def HandshakePacket.HasTickets (packet : HandshakePacket) : Prop :=
  ∃ tickets ttl, packet.tickets = some tickets ∧ none ∉ tickets ∧ packet.ttl = some ttl

/-- A `srp_init` or `key_init` can be answered: its configuration can be read, and
there is a ticket for the connection of the answer. -/
def Answerable (c : Client H) (draws : Draws H) (packet : HandshakePacket) : Prop :=
  packet.HasConfig ∧ (c.ticketsManager.next draws.now).isSome = true

/-- The server sends what the state of the client calls for, and a packet that sets a
key or a secret is well formed and answers the challenge. -/
structure SolicitedPacket (transcript : Transcript H) (c : Client H) (draws : Draws H)
    (packet : HandshakePacket) : Prop where
  ticketResponse : packet.type = some "ticket_response" → packet.tickets ≠ some [] →
    c.masterSecret ≠ []
  srpInit : packet.type = some "srp_init" → c.srp.username ≠ [] → c.srp.password ≠ [] →
    ∀ result, H.validateSrpInit c.srp.username c.srp.password packet draws.srp = .ok result →
      Answerable c draws packet
  srpExchange : packet.type = some "srp_exchange" → c.srp.M2 ≠ 0 → c.srp.K ≠ [] →
    packet.M2 = some c.srp.M2 → Answered transcript draws.now packet ∧ packet.HasTickets
  keyInit : packet.type = some "key_init" → packet.sessionId.isSome = true →
    packet.username.isSome = true →
      c.privateKey.isSome = true ∧
        (∃ pub publicKey, packet.pub = some pub ∧ H.fromBase58DER pub = .ok publicKey) ∧
        Answerable c draws packet
  keyExchange : packet.type = some "key_exchange" → c.K ≠ [] →
    Answered transcript draws.now packet ∧ packet.HasTickets
  session : packet.type = some "session" → ∀ der publicKey sessionKey, packet.key = some der →
    H.fromDER der = .ok publicKey → c.sessionKey = some sessionKey →
      (Did transcript fun action =>
        ∃ sessionId, action = .sessionHandshake sessionId sessionKey) ∧
        Answered transcript draws.now packet ∧ packet.HasConfig

@[inherit_doc SolicitedPacket]
def Solicited (transcript : Transcript H) (c : Client H) (draws : Draws H) :
    ClientAction H → Prop
  | .packet packet => SolicitedPacket transcript c draws packet
  | _ => True

/-! ## The invariant -/

/-- What the members of a client owe to its transcript. -/
structure TicketInv (initial : List Bytes) (transcript : Transcript H) (c : Client H) : Prop where
  tickets : ∀ t ∈ c.ticketsManager.tickets, Negotiated initial transcript t.2.masterSecret
  masterSecret : c.masterSecret ≠ [] → Negotiated initial transcript c.masterSecret
  ecdhe : ∀ key, c.ecdhePrivateKey = some key → Did transcript fun action =>
    ∃ solution serverPubKey, action = .ecdheHandshake key solution serverPubKey
  ecdhex : ∀ key, c.ecdhexPrivateKey = some key → Did transcript fun action =>
    ∃ solution serverPubKey, action = .ecdhexHandshake key solution serverPubKey
  privateKey : c.privateKey.isSome = true → KeyStarted transcript
  K : c.K ≠ [] → ∃ K, KeyDrawn transcript K ∧ fillTo32 c.K = fillTo32 K
  srp : c.srp.username ≠ [] → SrpStarted transcript c.srp.username c.srp.password
  srpK : c.srp.K ≠ [] → SrpExpects transcript c.srp.M2 c.srp.K
  pinned_eq : c.serverPubKey.map (·, c.serverChallenge) = pinned (transcript.map Prod.fst)

/-- What was done stays done. -/
theorem Did.later {transcript : Transcript H} {p : ClientAction H → Prop}
    (h : Did transcript p) (e : (ClientAction H × Draws H) × Bool) : Did (e :: transcript) p := by
  obtain ⟨e', he', hdone⟩ := h
  exact ⟨e', List.mem_cons_of_mem _ he', hdone⟩

/-- The last action was done. -/
theorem Did.last {transcript : Transcript H} {p : ClientAction H → Prop}
    {action : ClientAction H} (draws : Draws H) (h : p action) :
    Did (((action, draws), true) :: transcript) p :=
  ⟨_, List.mem_cons_self, rfl, h⟩

/-- A negotiated secret stays negotiated. -/
theorem Negotiated.later {initial : List Bytes} {transcript : Transcript H} {masterSecret : Bytes}
    (h : Negotiated initial transcript masterSecret) (e : (ClientAction H × Draws H) × Bool) :
    Negotiated initial (e :: transcript) masterSecret := by
  rcases h with h | ⟨secret, clientRandom, serverRandom, hsecret, heq⟩
  · exact Or.inl h
  · exact Or.inr ⟨secret, clientRandom, serverRandom, .later e hsecret, heq⟩

/-- A negotiated secret is never empty. -/
theorem Negotiated.ne_nil {initial : List Bytes} {transcript : Transcript H} {masterSecret : Bytes}
    (hinitial : ∀ secret ∈ initial, secret ≠ [])
    (h : Negotiated initial transcript masterSecret) : masterSecret ≠ [] := by
  rcases h with h | ⟨secret, clientRandom, serverRandom, -, rfl⟩
  · exact hinitial _ h
  · exact masterSecretOf_ne_nil H _ _ _

/-- Filling up is done once. -/
theorem fillTo32_fillTo32 (data : Bytes) : fillTo32 (fillTo32 data) = fillTo32 data := by
  have hlen : 32 ≤ (fillTo32 data).length := by
    unfold fillTo32
    split
    · assumption
    · rw [List.length_append, List.length_replicate]
      omega
  rw [fillTo32, if_pos hlen]

/-- A later action keeps what is owed, next to the server key that it pins. -/
theorem TicketInv.laterWith {initial : List Bytes} {transcript : Transcript H} {c : Client H}
    (h : TicketInv initial transcript c) (e : (ClientAction H × Draws H) × Bool)
    {serverPubKey : Option H.PublicKey} {serverChallenge : Bytes}
    (hpinned : serverPubKey.map (·, serverChallenge) = pinned ((e :: transcript).map Prod.fst)) :
    TicketInv initial (e :: transcript)
      { c with serverPubKey := serverPubKey, serverChallenge := serverChallenge } where
  tickets t ht := (h.tickets t ht).later e
  masterSecret hne := (h.masterSecret hne).later e
  ecdhe key hkey := (h.ecdhe key hkey).later e
  ecdhex key hkey := (h.ecdhex key hkey).later e
  privateKey hsome := (h.privateKey hsome).later e
  K hne := by
    obtain ⟨K, hK, heq⟩ := h.K hne
    exact ⟨K, .later e hK, heq⟩
  srp hne := (h.srp hne).later e
  srpK hne := .later e (h.srpK hne)
  pinned_eq := hpinned

/-- A later action that pins nothing keeps what is owed. -/
theorem TicketInv.later {initial : List Bytes} {transcript : Transcript H} {c : Client H}
    (h : TicketInv initial transcript c) (e : (ClientAction H × Draws H) × Bool)
    (hpinned : pinned ((e :: transcript).map Prod.fst) = pinned (transcript.map Prod.fst)) :
    TicketInv initial (e :: transcript) c :=
  h.laterWith e (h.pinned_eq.trans hpinned.symm)

/-- A property of clients is kept by a program, also when it throws. -/
def Keeps (I : Client H → Prop) {α : Type} (m : ClientM H α) : Prop :=
  Triple (fun s => I s.1) m (fun _ s => I s.1) fun s => I s.1

section Rules

variable {I : Client H → Prop} {α β : Type}

/-- The rule of sequence. -/
theorem Keeps.bind {m : ClientM H α} {f : α → ClientM H β} (hm : Keeps I m)
    (hf : ∀ a, Keeps I (f a)) : Keeps I (m >>= f) :=
  Triple.bind hm hf

/-- A value keeps everything. -/
theorem Keeps.pure (a : α) : Keeps I (Pure.pure a : ClientM H α) :=
  Triple.pure fun _ hs => hs

/-- So does an exception. -/
theorem Keeps.throw (e : RpcException) : Keeps I (MonadExcept.throw e : ClientM H α) :=
  Triple.throw fun _ hs => hs

/-- And one that cuts the rest off. -/
theorem Keeps.throw_bind (e : RpcException) (f : α → ClientM H β) :
    Keeps I (MonadExcept.throw e >>= f) :=
  Triple.throw_bind fun _ hs => hs

/-- Lifting a result reads no state. -/
theorem Keeps.lift (x : Except RpcException α) : Keeps I (Throwing.lift x : ClientM H α) :=
  Triple.lift (fun _ _ _ hs => hs) fun _ hs => hs

/-- What is read satisfies the invariant. -/
theorem Keeps.get_bind {f : Connection H → ClientM H β} (hf : ∀ s, I s.1 → Keeps I (f s)) :
    Keeps I (get >>= f) :=
  Triple.get_bind fun s hs => (hf s hs).weaken (fun _ ht => ht ▸ hs) fun _ _ h => h

/-- The read of an optional keeps everything. -/
theorem Keeps.getValue (x : Option α) : Keeps I (getValue (H := H) x) := by
  cases x with
  | none => exact Keeps.throw _
  | some a => exact Keeps.pure a

/-- So does the other read. -/
theorem Keeps.optionalValue (x : Option α) : Keeps I (optionalValue (H := H) x) := by
  cases x with
  | none => exact Keeps.throw _
  | some a => exact Keeps.pure a

/-- A change of the client keeps what it is shown to keep. -/
theorem Keeps.updateClient {f : Client H → Client H} (hf : ∀ c, I c → I (f c)) :
    Keeps I (updateClient f) :=
  Triple.modify fun s hs => hf s.1 hs

/-- Sending leaves the client alone. -/
theorem Keeps.sendHandshake (packet : ClientPacket) : Keeps I (sendHandshake (H := H) packet) :=
  Triple.modify fun _ hs => hs

/-- So does the change of cipher specs. -/
theorem Keeps.changeCipherSpec : Keeps I (changeCipherSpec (H := H)) :=
  Keeps.get_bind fun _ _ => (Keeps.lift _).bind fun _ => Triple.modify fun _ hs => hs

/-- The server's configuration is all that is extracted. -/
theorem Keeps.extractServerConfig
    (hI : ∀ c serverConfig, I c → I { c with serverConfig := serverConfig })
    (packet : HandshakePacket) : Keeps I (extractServerConfig (H := H) packet) := by
  refine (Keeps.getValue _).bind fun config => (Keeps.getValue _).bind fun chunkSize => ?_
  refine Keeps.bind (Keeps.updateClient fun c hc => hI c _ hc) fun _ => ?_
  cases config.serverVersion with
  | none => exact Keeps.pure _
  | some serverVersion =>
      exact (Keeps.getValue _).bind fun _ => Keeps.updateClient fun c hc => hI c _ hc

/-- A field of a packet goes first, and its value is known afterwards. -/
theorem getValue_bind {P E : Connection H → Prop} {R : β → Connection H → Prop} {x : Option α}
    {f : α → ClientM H β} (hthrow : ∀ s, P s → E s) (h : ∀ a, x = some a → Triple P (f a) R E) :
    Triple P (getValue x >>= f) R E := by
  cases x with
  | none => exact Triple.bind (Triple.throw hthrow) fun a => Triple.of_and (h a)
  | some a => exact h a rfl

/-- The challenge is answered when its check goes through, and nothing is changed. -/
theorem extractAndValidateChallenge_triple {J : Connection H → Prop} (now : Int)
    (packet : HandshakePacket) :
    Triple J (extractAndValidateChallenge (H := H) now packet)
      (fun _ s => (∀ serverPubKey, s.1.serverPubKey = some serverPubKey →
        ChallengeAnswered H now serverPubKey s.1.serverChallenge packet) ∧ J s) J := by
  refine Triple.get_bind fun s hs => ?_
  have hthrow : ∀ t, t = s → J t := fun t ht => ht ▸ hs
  cases hkey : s.1.serverPubKey with
  | none =>
      refine Triple.pure fun t ht => ?_
      subst ht
      exact ⟨fun pk hpk => absurd (hkey.symm.trans hpk) (by simp), hs⟩
  | some serverPubKey =>
      cases hsignature : packet.signature with
      | none => exact Triple.throw hthrow
      | some signature =>
          refine getValue_bind hthrow fun serverTimestamp htimestamp => ?_
          dsimp only
          split
          · exact Triple.throw_bind hthrow
          · rename_i htime
            refine getValue_bind hthrow fun challenge hchallenge =>
              Triple.lift_bind hthrow fun result hresult => ?_
            split
            · exact Triple.throw hthrow
            · rename_i hverify
              refine Triple.pure fun t ht => ?_
              subst ht
              refine ⟨fun pk hpk => ?_, hs⟩
              rw [← Option.some.inj (hkey.symm.trans hpk)]
              exact ⟨signature, serverTimestamp, challenge, result, hsignature, htimestamp,
                not_not.mp htime, hchallenge, hresult, by simpa using hverify⟩

/-- What does not look at the tickets is kept when they change. -/
theorem saveTicketsOf_triple {J : Connection H → Prop}
    (hJ : ∀ s ticketsManager, J s → J ({ s.1 with ticketsManager := ticketsManager }, s.2))
    (draws : Draws H) (packet : HandshakePacket) :
    Triple J (PrivmxEndpoint.saveTicketsOf draws packet) (fun _ => J) J := by
  have hupdate (f : TicketsManager → TicketsManager) :
      Triple J (PrivmxEndpoint.updateTickets f) (fun _ => J) J :=
    Triple.modify fun s hs => hJ s _ hs
  have heach (expiry : Int) (masterSecret : Bytes) (tickets : List (Option Bytes)) :
      Triple J (PrivmxEndpoint.saveEach expiry masterSecret tickets) (fun _ => J) J := by
    induction tickets with
    | nil => exact Triple.pure fun _ h => h
    | cons ticket tickets ih =>
        cases ticket with
        | none => exact Triple.throw fun _ h => h
        | some id => exact Triple.bind (hupdate _) fun _ => ih
  refine getValue_bind (fun _ h => h) fun tickets _ => getValue_bind (fun _ h => h) fun ttl _ =>
    Triple.get_bind fun s hs => ?_
  exact (Triple.bind (heach _ _ _) fun _ => hupdate _).weaken (fun _ ht => ht ▸ hs) fun _ _ h => h

end Rules

section TicketRules

variable {initial : List Bytes} {transcript : Transcript H} {α β : Type}

/-- A secret that is owed may become the master secret. -/
theorem TicketInv.withSecret {c : Client H} (h : TicketInv initial transcript c) {secret : Bytes}
    (hsecret : Validated transcript secret) :
    TicketInv initial transcript
      { c with masterSecret := masterSecretOf H secret c.clientRandom c.serverRandom } :=
  { h with masterSecret := fun _ => Or.inr ⟨secret, c.clientRandom, c.serverRandom, hsecret, rfl⟩ }

/-- A validated secret is set. -/
theorem Keeps.setPreMasterSecret {secret : Bytes} (hsecret : Validated transcript secret) :
    Keeps (TicketInv initial transcript) (setPreMasterSecret (H := H) secret) :=
  Triple.modify fun _ hs => hs.withSecret hsecret

/-- The secret of a ticket is set. -/
theorem Keeps.restoreState {ticketId masterSecret clientRandom : Bytes}
    (hsecret : Negotiated initial transcript masterSecret) :
    Keeps (TicketInv initial transcript)
      (restoreState (H := H) ticketId masterSecret clientRandom) := by
  refine Keeps.bind ?_ fun _ => Keeps.changeCipherSpec
  exact Triple.modify fun _ hs => { hs with masterSecret := fun _ => hsecret }

/-- What is in a multimap after `emplace`. -/
theorem mem_emplace {ttl : Int} {ticket : SessionTicket} {t : Int × SessionTicket}
    {tickets : List (Int × SessionTicket)}
    (ht : t ∈ TicketsManager.emplace ttl ticket tickets) : t = (ttl, ticket) ∨ t ∈ tickets := by
  induction tickets with
  | nil => exact Or.inl (List.mem_singleton.mp ht)
  | cons u tickets ih =>
      rw [TicketsManager.emplace] at ht
      split at ht
      · exact List.mem_cons.mp ht
      · rcases List.mem_cons.mp ht with rfl | ht
        · exact Or.inr List.mem_cons_self
        · exact (ih ht).imp_right (List.mem_cons_of_mem _)

/-- Tickets may be removed. -/
theorem Keeps.updateTickets {f : TicketsManager → TicketsManager}
    (hf : ∀ m, ∀ t ∈ (f m).tickets, t ∈ m.tickets) :
    Keeps (TicketInv initial transcript) (updateTickets (H := H) f) :=
  Keeps.updateClient fun _ hc => { hc with tickets := fun t ht => hc.tickets t (hf _ t ht) }

/-- Tickets with an owed secret may be added, by induction on the list of their
ids. -/
theorem Keeps.saveEach {masterSecret : Bytes} (hsecret : Negotiated initial transcript masterSecret)
    (expiry : Int) (tickets : List (Option Bytes)) :
    Keeps (TicketInv initial transcript) (saveEach (H := H) expiry masterSecret tickets) := by
  induction tickets with
  | nil => exact Keeps.pure _
  | cons t tickets ih =>
      cases t with
      | none => exact Keeps.throw _
      | some id =>
          refine Keeps.bind (Keeps.updateClient fun c hc => ?_) fun _ => ih
          refine { hc with tickets := fun t ht => ?_ }
          rcases mem_emplace ht with rfl | ht
          · exact hsecret
          · exact hc.tickets t ht

/-- Tickets are stored with an owed secret, if there are any. -/
theorem Keeps.saveTickets {masterSecret : Bytes} {tickets : List (Option Bytes)}
    (hsecret : tickets ≠ [] → Negotiated initial transcript masterSecret) (now ttl : Int) :
    Keeps (TicketInv initial transcript)
      (saveTickets (H := H) now tickets ttl masterSecret) := by
  refine Keeps.bind ?_ fun _ => Keeps.updateTickets fun _ _ ht => ht
  by_cases hne : tickets = []
  · rw [hne]
    exact Keeps.pure _
  · exact Keeps.saveEach (hsecret hne) _ _

/-- A ticket that is used has a secret that is owed. -/
theorem useTicket_triple (now : Int) :
    Triple (fun s => TicketInv initial transcript s.1) (useTicket (H := H) now)
      (fun ticket s => Negotiated initial transcript ticket.masterSecret ∧
        TicketInv initial transcript s.1)
      fun s => TicketInv initial transcript s.1 := by
  refine Triple.bind (Keeps.updateTickets fun m t ht => List.dropWhile_sublist _ |>.subset ht)
    fun _ => Triple.get_bind fun s hs => ?_
  cases htickets : s.1.ticketsManager.tickets with
  | nil => exact Triple.throw fun t ht => ht ▸ hs
  | cons first tickets =>
      have hfirst : Negotiated initial transcript first.2.masterSecret :=
        hs.tickets first (by rw [htickets]; exact List.mem_cons_self)
      refine Triple.bind (Triple.modify fun t ht => ?_)
        fun _ => Triple.pure fun t ht => ⟨hfirst, ht⟩
      subst ht
      refine { hs with tickets := fun u hu => hs.tickets u ?_ }
      rw [htickets]
      exact List.mem_cons_of_mem _ hu

/-- A ticket handshake restores an owed secret. -/
theorem Keeps.ticketHandshake (draws : Draws H) :
    Keeps (TicketInv initial transcript) (ticketHandshake draws) := by
  refine Triple.bind (useTicket_triple draws.now) fun ticket => ?_
  intro s hs
  exact Keeps.bind (Keeps.sendHandshake _) (fun _ => Keeps.restoreState hs.1) s hs.2

/-- A reset leaves nothing but tickets and a pinned key. -/
theorem Keeps.reset (keepSession : Bool) :
    Keeps (TicketInv initial transcript) (reset (H := H) keepSession) := by
  refine Keeps.bind ?_ fun _ => ?_
  · exact Triple.modify fun _ hs => { hs with masterSecret := fun hne => absurd rfl hne }
  · split
    · exact Keeps.pure _
    · refine Keeps.updateClient fun c hc => ?_
      exact
        { hc with
          ecdhe := fun _ h => absurd h (by simp)
          ecdhex := fun _ h => absurd h (by simp)
          privateKey := fun h => absurd h (by simp)
          K := fun h => absurd rfl h
          srp := fun h => absurd rfl h
          srpK := fun h => absurd rfl h }

/-- What a client owes does not depend on the server's configuration. -/
theorem TicketInv.serverConfig {c : Client H} (serverConfig : ServerConfig)
    (h : TicketInv initial transcript c) :
    TicketInv initial transcript { c with serverConfig := serverConfig } :=
  { h with tickets := h.tickets }

/-- The pinned server key has answered when its check goes through. -/
theorem answered_triple (now : Int) (packet : HandshakePacket) :
    Triple (fun s => TicketInv initial transcript s.1)
      (extractAndValidateChallenge (H := H) now packet)
      (fun _ s => Answered transcript now packet ∧ TicketInv initial transcript s.1)
      fun s => TicketInv initial transcript s.1 := by
  refine (extractAndValidateChallenge_triple now packet).weaken (fun _ h => h) fun _ s hs => ?_
  refine ⟨fun pk ch h => ?_, hs.2⟩
  have hpinned := hs.2.pinned_eq
  cases hkey : s.1.serverPubKey with
  | none =>
      rw [hkey, h] at hpinned
      cases hpinned
  | some serverPubKey =>
      have hanswer := hs.1 serverPubKey hkey
      rw [hkey, h] at hpinned
      cases hpinned
      exact hanswer

end TicketRules

/-! ## What does not throw -/

section Total

/-- Keys of a key block are there. -/
theorem RWState.initialized_of_length {s : RWState} (h : s.key.length = 32) :
    s.initialized = true := by
  rcases s.valid with ⟨hkey, hmac⟩ | ⟨hkey, -⟩
  · simp only [RWState.initialized, Bool.and_eq_true, Bool.not_eq_true', List.isEmpty_eq_false_iff]
    exact ⟨List.ne_nil_of_length_pos (by omega), List.ne_nil_of_length_pos (by omega)⟩
  · rw [hkey] at h
    cases h

/-- The fresh keys of the server are there. -/
theorem serverState_initialized (masterSecret clientRandom serverRandom : Bytes) :
    (getFreshRWStates H masterSecret clientRandom serverRandom).serverState.initialized = true :=
  RWState.initialized_of_length (length_keyBlock_part H _ _ (by decide))

/-- The fresh keys of the client are there. -/
theorem clientState_initialized (masterSecret clientRandom serverRandom : Bytes) :
    (getFreshRWStates H masterSecret clientRandom serverRandom).clientState.initialized = true :=
  RWState.initialized_of_length (length_keyBlock_part H _ _ (by decide))

/-- Sending does not change how frames are read. -/
@[simp] theorem send_readState (C : RecordPrimitives) (base : ConnectionBase) (packet : Bytes)
    (contentType : UInt8) (forcePlaintext : Bool) :
    (base.send C packet contentType forcePlaintext).readState = base.readState := by
  unfold ConnectionBase.send
  split
  · rfl
  · rfl

/-- Sending does not change how frames will be read. -/
@[simp] theorem send_nextReadState (C : RecordPrimitives) (base : ConnectionBase) (packet : Bytes)
    (contentType : UInt8) (forcePlaintext : Bool) :
    (base.send C packet contentType forcePlaintext).nextReadState = base.nextReadState := by
  unfold ConnectionBase.send
  split
  · rfl
  · rfl

/-- A field that is missing. -/
@[simp] theorem exec_getValue_none_bind {α β : Type} (f : α → ClientM H β) (s : Connection H) :
    exec (getValue none >>= f) s = (.error .malformedPacket, s) := rfl

/-- A field that is there. -/
@[simp] theorem exec_getValue_some_bind {α β : Type} (a : α) (f : α → ClientM H β)
    (s : Connection H) : exec (getValue (some a) >>= f) s = exec (f a) s := rfl

/-- An optional that is set. -/
@[simp] theorem exec_optionalValue_some_bind {α β : Type} (a : α) (f : α → ClientM H β)
    (s : Connection H) : exec (optionalValue (some a) >>= f) s = exec (f a) s := rfl

/-- The members are changed first. -/
@[simp] theorem exec_updateClient_bind {β : Type} (g : Client H → Client H) (f : Unit → ClientM H β)
    (s : Connection H) : exec (updateClient g >>= f) s = exec (f ()) (g s.1, s.2) := rfl

/-- The members are changed. -/
@[simp] theorem exec_updateClient (g : Client H → Client H) (s : Connection H) :
    exec (updateClient g) s = (.ok (), (g s.1, s.2)) := rfl

/-- The next ticket is the one that is used. -/
theorem useTicket_of_next {now : Int} {s : Connection H} {ticket : SessionTicket}
    (h : s.1.ticketsManager.next now = some ticket) :
    ∃ tickets, exec (useTicket now) s =
      (.ok ticket, ({ s.1 with ticketsManager := { s.1.ticketsManager with tickets := tickets } },
        s.2)) := by
  unfold TicketsManager.next at h
  unfold useTicket updateTickets
  rw [exec_updateClient_bind, exec_get_bind]
  cases htickets : s.1.ticketsManager.tickets.dropWhile (·.1 ≤ now) with
  | nil => simp [htickets] at h
  | cons first tickets =>
      rw [htickets] at h
      refine ⟨tickets, ?_⟩
      cases h
      simp only [htickets]
      rfl

/-- The write keys are switched if there are new ones. -/
theorem exec_changeCipherSpec {s : Connection H} (h : s.2.nextWriteState.initialized = true) :
    ∃ base, exec changeCipherSpec s = (.ok (), (s.1, base)) ∧ base.readState = s.2.readState ∧
      base.nextReadState = s.2.nextReadState := by
  obtain ⟨base, hbase, hread, hnext⟩ : ∃ base,
      s.2.changeCipherSpec H.toRecordPrimitives = .ok base ∧ base.readState = s.2.readState ∧
        base.nextReadState = s.2.nextReadState := by
    refine ⟨_, by rw [ConnectionBase.changeCipherSpec, h]; rfl, ?_, ?_⟩
    · exact send_readState _ s.2 _ _ _
    · exact send_nextReadState _ s.2 _ _ _
  refine ⟨base, ?_, hread, hnext⟩
  rw [changeCipherSpec, exec_get_bind, hbase]
  rfl

/-- The connection with the keys of a ticket, before it switches to them. -/
def Connection.overTicket (s : Connection H) (tickets : List (Int × SessionTicket))
    (ticket : SessionTicket) (clientRandom : Bytes) : Connection H :=
  let states := getFreshRWStates H ticket.masterSecret clientRandom ticket.id
  ({ s.1 with
      ticketsManager := { s.1.ticketsManager with tickets := tickets }
      clientRandom := clientRandom
      serverRandom := ticket.id
      masterSecret := ticket.masterSecret },
    { s.2.send H.toRecordPrimitives (H.encode (.ticket ticket.id clientRandom))
        ContentType.HANDSHAKE false with
      nextReadState := states.serverState
      nextWriteState := states.clientState })

/-- A ticket handshake is a switch to the keys of the next ticket. -/
theorem exec_ticketHandshake {draws : Draws H} {s : Connection H} {ticket : SessionTicket}
    (h : s.1.ticketsManager.next draws.now = some ticket) :
    ∃ tickets, exec (ticketHandshake draws) s =
      exec changeCipherSpec (s.overTicket tickets ticket draws.clientRandom) := by
  obtain ⟨tickets, huse⟩ := useTicket_of_next h
  refine ⟨tickets, ?_⟩
  rw [ticketHandshake, exec_bind, huse]
  rfl

/-- A configuration that can be read is taken over. -/
theorem exec_extractServerConfig_of_hasConfig {packet : HandshakePacket} (h : packet.HasConfig)
    (s : Connection H) :
    ∃ serverConfig, exec (extractServerConfig packet) s =
      (.ok (), ({ s.1 with serverConfig := serverConfig }, s.2)) := by
  obtain ⟨config, requestChunkSize, hconfig, hsize, hversion⟩ := h
  unfold extractServerConfig
  rw [hconfig, exec_getValue_some_bind, hsize, exec_getValue_some_bind, exec_updateClient_bind]
  cases hserver : config.serverVersion with
  | none => exact ⟨_, rfl⟩
  | some serverVersion =>
      cases serverVersion with
      | none => exact absurd hserver hversion
      | some serverVersion => exact ⟨_, rfl⟩

/-- Tickets that can be read are all stored, by induction on their list. -/
theorem exec_saveEach {tickets : List (Option Bytes)} (h : none ∉ tickets) (expiry : Int)
    (masterSecret : Bytes) (s : Connection H) :
    ∃ t, exec (saveEach expiry masterSecret tickets) s = (.ok (), t) := by
  induction tickets generalizing s with
  | nil => exact ⟨s, rfl⟩
  | cons ticket tickets ih =>
      cases ticket with
      | none => exact absurd List.mem_cons_self h
      | some id => exact ih (fun hmem => h (List.mem_cons_of_mem _ hmem)) _

/-- The tickets of a packet are stored if they can be read. -/
theorem exec_saveTicketsOf {packet : HandshakePacket} (h : packet.HasTickets) (draws : Draws H)
    (s : Connection H) : ∃ t, exec (saveTicketsOf draws packet) s = (.ok (), t) := by
  obtain ⟨tickets, ttl, htickets, hread, httl⟩ := h
  obtain ⟨t, ht⟩ := exec_saveEach hread (TicketsManager.newTicketsTtl draws.now ttl)
    s.1.masterSecret s
  unfold saveTicketsOf saveTickets
  rw [htickets, exec_getValue_some_bind, httl, exec_getValue_some_bind, exec_get_bind, exec_bind,
    ht]
  exact ⟨_, rfl⟩

/-- The answer to a packet is sent if there is a ticket for it. -/
theorem exec_answerOverTicket {draws : Draws H} {packet : HandshakePacket} {s : Connection H}
    (h : Answerable s.1 draws packet) (exchange : ClientPacket) :
    ∃ t, exec (answerOverTicket draws packet exchange) s = (.ok (), t) := by
  obtain ⟨serverConfig, hconfig⟩ := exec_extractServerConfig_of_hasConfig h.1 s
  obtain ⟨ticket, hticket⟩ := Option.isSome_iff_exists.mp h.2
  obtain ⟨u, hreset, hnext⟩ : ∃ u,
      exec (reset true) (({ s.1 with serverConfig := serverConfig }, s.2) : Connection H) =
        (.ok (), u) ∧ u.1.ticketsManager.next draws.now = some ticket :=
    ⟨_, rfl, hticket⟩
  obtain ⟨tickets, hhandshake⟩ := exec_ticketHandshake hnext
  obtain ⟨base, hswitch, -, -⟩ := exec_changeCipherSpec
    (s := u.overTicket tickets ticket draws.clientRandom) (clientState_initialized _ _ _)
  unfold answerOverTicket
  rw [exec_bind, hconfig]
  simp only
  rw [exec_bind, hreset]
  simp only
  rw [exec_bind, hhandshake, hswitch]
  exact ⟨_, rfl⟩

/-- The challenge is accepted exactly if it is answered. -/
theorem exec_extractAndValidateChallenge {now : Int} {packet : HandshakePacket}
    {s t : Connection H} :
    exec (extractAndValidateChallenge now packet) s = (.ok (), t) ↔
      (∀ serverPubKey, s.1.serverPubKey = some serverPubKey →
        ChallengeAnswered H now serverPubKey s.1.serverChallenge packet) ∧ t = s := by
  constructor
  · intro h
    have hpassed := extractAndValidateChallenge_triple (J := fun u => u = s) now packet s rfl
    rw [h] at hpassed
    obtain ⟨hanswered, rfl⟩ := hpassed
    exact ⟨hanswered, rfl⟩
  · rintro ⟨hanswered, rfl⟩
    unfold extractAndValidateChallenge
    rw [exec_get_bind]
    cases hkey : t.1.serverPubKey with
    | none => rfl
    | some serverPubKey =>
        obtain ⟨signature, serverTimestamp, challenge, result, hsignature, htimestamp, htime,
          hchallenge, hresult, hverify⟩ := hanswered serverPubKey hkey
        simp only [hsignature]
        rw [htimestamp, exec_getValue_some_bind, if_neg (not_not.mpr htime)]
        rw [hchallenge]
        show exec (getValue (some challenge) >>= _) t = _
        rw [exec_getValue_some_bind, hresult, exec_lift_ok_bind, hverify]
        rfl

/-- A packet `ecdhe` that answers the handshake is accepted, and its key is agreed on. -/
theorem exec_agreed_of_ecdhe {draws : Draws H} {packet : HandshakePacket} {s : Connection H}
    {key : H.PrivateKey} {der : Bytes} {publicKey : H.PublicKey}
    (hstarted : s.1.ecdhePrivateKey = some key) (hkey : packet.key = some der)
    (hder : H.fromDER der = .ok publicKey) (hconfig : packet.HasConfig)
    (hanswered : ∀ serverPubKey, s.1.serverPubKey = some serverPubKey →
      ChallengeAnswered H draws.now serverPubKey s.1.serverChallenge packet) :
    ∃ serverConfig, exec (processEcdhe draws packet) s =
      exec (setPreMasterSecret (H.ecdheSecret key publicKey))
        ({ s.1 with serverConfig := serverConfig, ecdhePrivateKey := none }, s.2) := by
  obtain ⟨serverConfig, hexec⟩ := exec_extractServerConfig_of_hasConfig hconfig s
  have hchallenge : exec (extractAndValidateChallenge draws.now packet)
      (({ s.1 with serverConfig := serverConfig }, s.2) : Connection H) =
        (.ok (), ({ s.1 with serverConfig := serverConfig }, s.2)) :=
    exec_extractAndValidateChallenge.mpr ⟨hanswered, rfl⟩
  refine ⟨serverConfig, ?_⟩
  unfold processEcdhe
  rw [exec_get_bind, hstarted, hkey]
  simp only
  rw [exec_getValue_some_bind, hder, exec_lift_ok_bind, exec_bind, hexec]
  simp only
  rw [exec_bind, hchallenge]
  rfl

end Total

/-! ## One packet -/

section Packets

variable {initial : List Bytes} {transcript : Transcript H} {draws : Draws H}
  {packet : HandshakePacket} {options : ConnectionOptions}

/-- The transcript with a packet that has gone through. -/
abbrev Transcript.withPacket (transcript : Transcript H) (packet : HandshakePacket)
    (draws : Draws H) : Transcript H :=
  ((.packet packet, draws), true) :: transcript

/-- From what was owed before a solicited packet to what is owed with it.  A packet
that throws has changed nothing that counts. -/
def Takes (initial : List Bytes) (transcript : Transcript H) (packet : HandshakePacket)
    (draws : Draws H) (m : ClientM H Unit) : Prop :=
  Triple (fun s => TicketInv initial transcript s.1 ∧ SolicitedPacket transcript s.1 draws packet)
    m (fun _ s => TicketInv initial (transcript.withPacket packet draws) s.1)
    fun s => TicketInv initial transcript s.1

/-- A packet pins nothing. -/
theorem TicketInv.withPacket {c : Client H} (h : TicketInv initial transcript c) :
    TicketInv initial (transcript.withPacket packet draws) c :=
  h.later _ rfl

/-- The end of a packet keeps what is owed with it, and does not throw. -/
theorem Triple.takes {P : Connection H → Prop} {m : ClientM H Unit}
    (hkeeps : Triple P m (fun _ s => TicketInv initial (transcript.withPacket packet draws) s.1)
      fun s => TicketInv initial (transcript.withPacket packet draws) s.1)
    (hok : ∀ s, P s → ∃ t, exec m s = (.ok (), t)) :
    Triple P m (fun _ s => TicketInv initial (transcript.withPacket packet draws) s.1)
      fun s => TicketInv initial transcript s.1 := by
  intro s hs
  obtain ⟨t, ht⟩ := hok s hs
  have h := hkeeps s hs
  rw [ht] at h ⊢
  exact h

/-- The secret is the last thing that is set, and the key of the handshake goes. -/
theorem takes_agreed {f : Client H → Client H} {secret : Bytes}
    (hf : ∀ c, TicketInv initial (transcript.withPacket packet draws) c →
      TicketInv initial (transcript.withPacket packet draws) (f c))
    (hsecret : Validated (transcript.withPacket packet draws) secret) :
    Triple (fun s => TicketInv initial transcript s.1)
      (do
        updateClient f
        setPreMasterSecret secret : ClientM H Unit)
      (fun _ s => TicketInv initial (transcript.withPacket packet draws) s.1)
      fun s => TicketInv initial transcript s.1 :=
  Triple.bind
    (Triple.modify (Q := fun _ s => TicketInv initial (transcript.withPacket packet draws) s.1)
      fun s hs => hf s.1 hs.withPacket)
    fun _ => Triple.modify fun _ hs => hs.withSecret hsecret

/-- The packet `ecdhe`. -/
theorem Takes.processEcdhe (htype : packet.type = some "ecdhe") :
    Takes initial transcript packet draws (processEcdhe draws packet) := by
  refine Triple.get_bind fun s hs => ?_
  refine Triple.weaken (P := fun t => TicketInv initial transcript t.1) ?_
    (fun _ ht => ht ▸ hs.1) fun _ _ h => h
  cases hkey : s.1.ecdhePrivateKey with
  | none => exact Triple.throw fun _ h => h
  | some privateKey =>
      refine getValue_bind (fun _ h => h) fun der hder =>
        Triple.lift_bind (fun _ h => h) fun publicKey hpublicKey =>
          Triple.bind (Keeps.extractServerConfig (fun _ _ h => h.serverConfig _) packet) fun _ => ?_
      refine Triple.bind (answered_triple draws.now packet) fun _ =>
        Triple.of_and fun hanswered => ?_
      refine takes_agreed ?_ (.ecdhe (hs.1.ecdhe privateKey hkey) htype hder hpublicKey hanswered)
      exact fun c hc => { hc with ecdhe := fun _ h => absurd h (by simp) }

/-- The packet `ecdhex`. -/
theorem Takes.processEcdhex (htype : packet.type = some "ecdhex") :
    Takes initial transcript packet draws (processEcdhex draws packet) := by
  refine Triple.get_bind fun s hs => ?_
  refine Triple.weaken (P := fun t => TicketInv initial transcript t.1) ?_
    (fun _ ht => ht ▸ hs.1) fun _ _ h => h
  cases hkey : s.1.ecdhexPrivateKey with
  | none => exact Triple.throw fun _ h => h
  | some privateKey =>
      refine getValue_bind (fun _ h => h) fun der hder =>
        Triple.bind (Keeps.getValue _) fun host => ?_
      refine Triple.bind (Keeps.updateClient ?_) fun _ =>
        Triple.bind (Keeps.extractServerConfig (fun _ _ h => h.serverConfig _) packet) fun _ => ?_
      · exact fun _ hc => { hc with tickets := hc.tickets }
      · refine Triple.bind (answered_triple draws.now packet) fun _ =>
          Triple.of_and fun hanswered => Triple.lift_bind (fun _ h => h) fun publicKey hpublicKey =>
            ?_
        refine takes_agreed ?_
          (.ecdhex (hs.1.ecdhex privateKey hkey) htype hder hpublicKey hanswered)
        exact fun c hc => { hc with ecdhex := fun _ h => absurd h (by simp) }

/-- Tickets are stored with the master secret of the client. -/
theorem Keeps.saveTicketsOf :
    Triple (fun s => TicketInv initial transcript s.1 ∧
        (packet.tickets ≠ some [] → s.1.masterSecret ≠ []))
      (saveTicketsOf (H := H) draws packet)
      (fun _ s => TicketInv initial transcript s.1) fun s => TicketInv initial transcript s.1 := by
  refine getValue_bind (fun _ h => h.1) fun tickets htickets =>
    getValue_bind (fun _ h => h.1) fun ttl _ => Triple.get_bind fun s hs => ?_
  refine (Keeps.saveTickets (fun hne => hs.1.masterSecret (hs.2 ?_)) draws.now ttl).weaken
    (fun _ ht => ht ▸ hs.1) fun _ _ h => h
  rw [htickets]
  exact fun h => hne (Option.some.inj h)

/-- The packet `ticket_response`. -/
theorem Takes.ticketResponse (htype : packet.type = some "ticket_response") :
    Takes initial transcript packet draws (PrivmxEndpoint.saveTicketsOf draws packet) :=
  Keeps.saveTicketsOf.weaken (fun _ hs => ⟨hs.1, hs.2.ticketResponse htype⟩)
    fun _ _ h => h.withPacket

/-- A secret is set, and the tickets of the packet are stored with it. -/
theorem Keeps.replaceTickets {secret : Bytes} (hsecret : Validated transcript secret) :
    Keeps (TicketInv initial transcript) (do
      PrivmxEndpoint.setPreMasterSecret secret
      clearTickets
      PrivmxEndpoint.saveTicketsOf draws packet : ClientM H Unit) := by
  refine Triple.bind (Q := fun _ s => TicketInv initial transcript s.1 ∧ s.1.masterSecret ≠ [])
    (Triple.modify fun s hs => ⟨hs.withSecret hsecret, masterSecretOf_ne_nil H _ _ _⟩) fun _ =>
      Triple.bind (Q := fun _ s => TicketInv initial transcript s.1 ∧ s.1.masterSecret ≠ [])
        (Triple.modify fun s hs => ⟨?_, hs.2⟩) fun _ =>
          Keeps.saveTicketsOf.weaken (fun s hs => ⟨hs.1, fun _ => hs.2⟩) fun _ _ h => h
  exact { hs.1 with tickets := fun _ ht => absurd ht List.not_mem_nil }

/-- It does not throw if the tickets can be read. -/
theorem exec_replaceTickets (secret : Bytes) (h : packet.HasTickets) (s : Connection H) :
    ∃ t, exec (do
      PrivmxEndpoint.setPreMasterSecret secret
      clearTickets
      PrivmxEndpoint.saveTicketsOf draws packet : ClientM H Unit) s = (.ok (), t) :=
  exec_saveTicketsOf h draws _

/-- A session key is no secret that counts. -/
theorem Keeps.newSessionKey :
    Keeps (TicketInv initial transcript) (newSessionKey (H := H) options draws) := by
  unfold PrivmxEndpoint.newSessionKey
  split
  · refine Keeps.bind (Keeps.updateClient ?_) fun _ => Keeps.pure _
    exact fun _ hc => { hc with tickets := hc.tickets }
  · exact Keeps.pure _

/-- A session key is drawn, and the tickets are as before. -/
theorem exec_newSessionKey (options : ConnectionOptions) (draws : Draws H) (s : Connection H) :
    ∃ key c, exec (newSessionKey options draws) s = (.ok key, (c, s.2)) ∧
      c.ticketsManager = s.1.ticketsManager := by
  unfold newSessionKey
  split
  · exact ⟨_, _, rfl, rfl⟩
  · exact ⟨_, _, rfl, rfl⟩

/-- The answer to a packet is sent over a ticket. -/
theorem Keeps.answerOverTicket (exchange : ClientPacket) :
    Keeps (TicketInv initial transcript) (answerOverTicket (H := H) draws packet exchange) :=
  (Keeps.extractServerConfig (fun _ _ h => h.serverConfig _) packet).bind fun _ =>
    (Keeps.reset true).bind fun _ => (Keeps.ticketHandshake draws).bind fun _ =>
      Keeps.sendHandshake exchange

/-- A packet is answered over a ticket, with a new session key. -/
theorem exec_answerWithKey {s : Connection H} (h : Answerable s.1 draws packet)
    (exchange : Option Bytes → ClientPacket) :
    ∃ t, exec (do
      let sessionKey ← newSessionKey options draws
      PrivmxEndpoint.answerOverTicket draws packet (exchange sessionKey) : ClientM H Unit) s =
        (.ok (), t) := by
  obtain ⟨key, c, hkey, htickets⟩ := exec_newSessionKey options draws s
  have hanswerable : Answerable (c, s.2).1 draws packet := by
    refine ⟨h.1, ?_⟩
    rw [htickets]
    exact h.2
  obtain ⟨t, ht⟩ := exec_answerOverTicket hanswerable (exchange key)
  refine ⟨t, ?_⟩
  rw [exec_bind, hkey]
  exact ht

/-- The packet `srp_init`. -/
theorem Takes.processSrpInit (htype : packet.type = some "srp_init") :
    Takes initial transcript packet draws (processSrpInit options draws packet) := by
  refine Triple.get_bind fun s hs => ?_
  have hthrow : ∀ t : Connection H, t = s → TicketInv initial transcript t.1 :=
    fun _ ht => ht ▸ hs.1
  dsimp only
  split
  · exact Triple.throw_bind hthrow
  · rename_i hstarted
    obtain ⟨husername, hpassword⟩ := not_or.mp hstarted
    refine Triple.lift_bind hthrow fun result hresult => Triple.takes ?_ fun t ht => ?_
    · refine Triple.bind
        (Q := fun _ (t : Connection H) =>
          TicketInv initial (transcript.withPacket packet draws) t.1)
        (Triple.modify fun t ht => ?_)
        fun _ => Keeps.newSessionKey.bind fun _ => Keeps.answerOverTicket _
      subst ht
      have hexpects : SrpExpects (transcript.withPacket packet draws) result.1 result.2.1 :=
        .here (hs.1.srp husername) htype hresult
      exact { hs.1.withPacket with srpK := fun _ => hexpects }
    · subst ht
      rw [exec_updateClient_bind]
      refine exec_answerWithKey ?_ fun sessionKey => .srpExchange result.2.2 sessionKey
      exact hs.2.srpInit htype husername hpassword result hresult

/-- The packet `srp_exchange`. -/
theorem Takes.processSrpExchange (htype : packet.type = some "srp_exchange") :
    Takes initial transcript packet draws (processSrpExchange draws packet) := by
  refine Triple.get_bind fun s hs => ?_
  have hthrow : ∀ t : Connection H, t = s → TicketInv initial transcript t.1 :=
    fun _ ht => ht ▸ hs.1
  dsimp only
  split
  · exact Triple.throw_bind hthrow
  · rename_i hready
    obtain ⟨hM2ne, hK⟩ := not_or.mp hready
    refine getValue_bind hthrow fun M2 hM2 => ?_
    split
    · exact Triple.throw_bind hthrow
    · rename_i hsame
      rw [← not_not.mp hsame] at hM2
      obtain ⟨hanswered, htickets⟩ := hs.2.srpExchange htype hM2ne hK hM2
      refine Triple.takes ?_ fun t _ => exec_replaceTickets _ htickets _
      refine Triple.bind
        (Q := fun _ (t : Connection H) =>
          TicketInv initial (transcript.withPacket packet draws) t.1)
        (Triple.modify fun t ht => ?_)
        fun _ => Keeps.replaceTickets (.srp (hs.1.srpK hK) htype hM2 hanswered)
      subst ht
      exact { hs.1.withPacket with srpK := fun h => absurd rfl h }

/-- The packet `key_init`.  The key is drawn for a client that has a private key, and
the packet is answered. -/
theorem Takes.processKeyInit (htype : packet.type = some "key_init") :
    Takes initial transcript packet draws (processKeyInit options draws packet) := by
  intro s hs
  refine getValue_bind
    (P := fun t => t = s)
    (E := fun t => TicketInv initial transcript t.1) (fun _ ht => ht ▸ hs.1)
    (fun sessionId hsessionId => getValue_bind (fun _ ht => ht ▸ hs.1) fun username husername =>
      Triple.takes ?_ fun t ht => ?_) s rfl
  · refine Triple.bind
      (Q := fun _ (t : Connection H) =>
          TicketInv initial (transcript.withPacket packet draws) t.1)
      (Triple.modify fun t ht => ?_) fun _ => ?_
    · subst ht
      obtain ⟨hprivate, -, -⟩ := hs.2.keyInit htype (by rw [hsessionId]; rfl)
        (by rw [husername]; rfl)
      have hdrawn : KeyDrawn (transcript.withPacket packet draws) draws.K :=
        .here (hs.1.privateKey hprivate) htype
      exact { hs.1.withPacket with K := fun _ => ⟨draws.K, hdrawn, rfl⟩ }
    · exact Keeps.get_bind fun s _ => (Keeps.optionalValue _).bind fun privateKey =>
        (Keeps.getValue _).bind fun pub => (Keeps.lift _).bind fun publicKey =>
          Keeps.newSessionKey.bind fun _ => Keeps.answerOverTicket _
  · subst ht
    obtain ⟨hprivate, ⟨pub, publicKey, hpub, hkey⟩, hanswerable⟩ := hs.2.keyInit htype
      (by rw [hsessionId]; rfl) (by rw [husername]; rfl)
    obtain ⟨privateKey, hprivateKey⟩ := Option.isSome_iff_exists.mp hprivate
    rw [exec_updateClient_bind, exec_get_bind]
    simp only [hprivateKey, hpub]
    rw [exec_optionalValue_some_bind, exec_getValue_some_bind, hkey, exec_lift_ok_bind]
    refine exec_answerWithKey ?_ fun sessionKey =>
      .keyExchange sessionId _ _ _ _ _ sessionKey
    exact hanswerable

/-- The packet `session`.  The secret is derived from the key of the session that was
started. -/
theorem Takes.processSession (htype : packet.type = some "session") :
    Takes initial transcript packet draws (processSession (H := H) packet) := by
  intro s hs
  refine getValue_bind
    (P := fun t => t = s)
    (E := fun t => TicketInv initial transcript t.1) (fun _ ht => ht ▸ hs.1)
    (fun der hder => Triple.lift_bind (fun _ ht => ht ▸ hs.1) fun publicKey hpublicKey =>
      Triple.get_bind fun u hu => ?_) s rfl
  obtain rfl := hu
  cases hkey : u.1.sessionKey with
  | none => exact Triple.throw_bind fun _ ht => ht ▸ hs.1
  | some sessionKey =>
      obtain ⟨hstarted, hanswered, hconfig⟩ :=
        hs.2.session htype der publicKey sessionKey hder hpublicKey hkey
      have hsecret : Validated (transcript.withPacket packet draws)
          (fillTo32 (H.derive sessionKey publicKey)) :=
        .session hstarted htype hder hpublicKey hanswered
      refine Triple.takes ?_ fun t _ => ?_
      · refine Triple.weaken
          (P := fun t => TicketInv initial (transcript.withPacket packet draws) t.1) ?_
          (fun _ ht => ht ▸ hs.1.withPacket) fun _ _ h => h
        exact (Keeps.setPreMasterSecret hsecret).bind fun _ =>
          Keeps.extractServerConfig (fun _ _ h => h.serverConfig _) packet
      · obtain ⟨serverConfig, ht⟩ := exec_extractServerConfig_of_hasConfig hconfig
          (exec (setPreMasterSecret (fillTo32 (H.derive sessionKey publicKey))) t).2
        exact ⟨_, ht⟩

/-- The packet `key_exchange`. -/
theorem Takes.processKeyExchange (htype : packet.type = some "key_exchange") :
    Takes initial transcript packet draws (processKeyExchange draws packet) := by
  refine Triple.get_bind fun s hs => ?_
  have hthrow : ∀ t : Connection H, t = s → TicketInv initial transcript t.1 :=
    fun _ ht => ht ▸ hs.1
  dsimp only
  split
  · exact Triple.throw_bind hthrow
  · rename_i hK
    obtain ⟨K, hdrawn, hfill⟩ := hs.1.K hK
    obtain ⟨hanswered, htickets⟩ := hs.2.keyExchange htype hK
    refine Triple.takes ?_ fun t _ => exec_replaceTickets _ htickets _
    refine Triple.bind
      (Q := fun _ (t : Connection H) =>
          TicketInv initial (transcript.withPacket packet draws) t.1)
      (Triple.modify fun t ht => ?_) fun _ => Keeps.replaceTickets ?_
    · subst ht
      refine { hs.1.withPacket with K := fun _ => ⟨K, .later _ hdrawn, ?_⟩ }
      rw [fillTo32_fillTo32, hfill]
    · rw [hfill]
      exact .key hdrawn htype hanswered

/-- A packet that the state calls for. -/
theorem Takes.processHandshakePacket :
    Takes initial transcript packet draws (processHandshakePacket options draws packet) := by
  refine getValue_bind (fun s hs => hs.1) fun type htype => ?_
  split
  · rename_i heq
    exact Takes.processEcdhe (heq ▸ htype)
  split
  · rename_i heq
    exact Takes.processEcdhex (heq ▸ htype)
  split
  · rename_i heq
    exact Takes.ticketResponse (heq ▸ htype)
  split
  · rename_i heq
    exact Takes.processSrpInit (heq ▸ htype)
  split
  · rename_i heq
    exact Takes.processSrpExchange (heq ▸ htype)
  split
  · rename_i heq
    exact Takes.processKeyInit (heq ▸ htype)
  split
  · rename_i heq
    exact Takes.processKeyExchange (heq ▸ htype)
  split
  · rename_i heq
    exact Takes.processSession (heq ▸ htype)
  · exact Triple.pure fun s hs => hs.1.withPacket

end Packets

/-! ## One call of the client -/

section Calls

variable {initial : List Bytes} {transcript : Transcript H} {draws : Draws H}
  {options : ConnectionOptions}

/-- From what was owed before an action to what is owed with it, whether or not it
throws. -/
def Adds (initial : List Bytes) (transcript : Transcript H) (draws : Draws H)
    (action : ClientAction H) (m : ClientM H Unit) : Prop :=
  Triple (fun s => TicketInv initial transcript s.1) m
    (fun _ s => TicketInv initial (((action, draws), true) :: transcript) s.1)
    fun s => TicketInv initial (((action, draws), false) :: transcript) s.1

/-- A handshake that may pin a server key. -/
theorem Adds.startPinned (action : ClientAction H) {setKey : Client H → Client H}
    {serverPubKey : Option H.PublicKey} (packet : Option Bytes → ClientPacket)
    (hpinned : pinned ((action, draws) :: transcript.map Prod.fst) =
      (serverPubKey.map (·, H.hexFrom draws.challenge)).or (pinned (transcript.map Prod.fst)))
    (hset : ∀ c, TicketInv initial transcript c → ∀ pk ch,
      pk.map (·, ch) = pinned ((action, draws) :: transcript.map Prod.fst) →
        TicketInv initial (((action, draws), true) :: transcript)
          { setKey c with serverPubKey := pk, serverChallenge := ch })
    (hkeep : ∀ c, (setKey c).serverPubKey = c.serverPubKey ∧
      (setKey c).serverChallenge = c.serverChallenge) :
    Adds initial transcript draws action
      (do
        updateClient setKey
        let challenge ← pinServer serverPubKey draws
        sendHandshake (packet challenge)) := by
  refine Triple.bind (Q := fun _ s => ∃ c, TicketInv initial transcript c ∧ s.1 = setKey c)
    (Triple.modify fun s hs => ⟨s.1, hs, rfl⟩) fun _ => ?_
  refine Triple.bind
    (Q := fun _ (s : Connection H) => TicketInv initial (((action, draws), true) :: transcript) s.1)
    ?_ fun _ => Triple.modify fun _ hs => hs
  cases serverPubKey with
  | none =>
      refine Triple.pure ?_
      rintro s ⟨c, hc, hs⟩
      have h := hset c hc c.serverPubKey c.serverChallenge
        (by rw [hc.pinned_eq, hpinned]; rfl)
      rw [← (hkeep c).1, ← (hkeep c).2] at h
      rw [hs]
      exact h
  | some pk =>
      refine Triple.bind
        (Q := fun _ s => TicketInv initial (((action, draws), true) :: transcript) s.1)
        (Triple.modify ?_) fun _ => Triple.pure fun _ h => h
      rintro s ⟨c, hc, hs⟩
      have h := hset c hc (some pk) (H.hexFrom draws.challenge) (by rw [hpinned]; rfl)
      rw [← hs] at h
      exact h

/-- `ecdheHandshake`. -/
theorem Adds.ecdheHandshake (key : H.PrivateKey) (solution : Option Bytes)
    (serverPubKey : Option H.PublicKey) :
    Adds initial transcript draws (.ecdheHandshake key solution serverPubKey)
      (ecdheHandshake options key solution serverPubKey draws) := by
  refine Adds.startPinned (.ecdheHandshake key solution serverPubKey)
    (fun challenge => .ecdhe (H.toDER (H.getPublicKey key)) options.agent solution challenge) ?_ ?_
    fun c => ⟨rfl, rfl⟩
  · cases serverPubKey with
    | none => rfl
    | some pk => rfl
  · intro c hc pk ch hpin
    have hlater := hc.laterWith ((.ecdheHandshake key solution serverPubKey, draws), true) hpin
    exact { hlater with
      ecdhe := fun k hk => .last draws ⟨solution, serverPubKey, by rw [Option.some.inj hk]⟩ }

/-- `ecdhexHandshake`. -/
theorem Adds.ecdhexHandshake (key : H.PrivateKey) (solution : Option Bytes)
    (serverPubKey : Option H.PublicKey) :
    Adds initial transcript draws (.ecdhexHandshake key solution serverPubKey)
      (ecdhexHandshake options key solution serverPubKey draws) := by
  refine Adds.startPinned (.ecdhexHandshake key solution serverPubKey)
    (fun challenge => .ecdhex options.agent (H.toDER (H.getPublicKey key)) (H.base64From draws.nonce)
      (toString draws.now) (H.signToCompactSignatureWithHash key (textBytes
        ("ecdhexlogin " ++ H.base64From draws.nonce ++ " " ++ toString draws.now)))
      solution challenge) ?_ ?_ fun c => ⟨rfl, rfl⟩
  · cases serverPubKey with
    | none => rfl
    | some pk => rfl
  · intro c hc pk ch hpin
    have hlater := hc.laterWith ((.ecdhexHandshake key solution serverPubKey, draws), true) hpin
    exact { hlater with
      ecdhex := fun k hk => .last draws ⟨solution, serverPubKey, by rw [Option.some.inj hk]⟩ }

/-- The user of an SRP handshake is set at its end. -/
theorem Adds.srpHandshake2 {action : ClientAction H} {username password : Bytes}
    (hpinned : pinned ((action, draws) :: transcript.map Prod.fst) =
      pinned (transcript.map Prod.fst))
    (hstarted : SrpStarted (((action, draws), true) :: transcript) username password)
    (host : Bytes) (tickets : Int) :
    Adds initial transcript draws action
      (srpHandshake2 (H := H) options username host password tickets) := by
  refine Triple.bind (Q := fun _ s => TicketInv initial transcript s.1)
    (Triple.modify fun _ hs => hs) fun _ => Triple.modify fun s hs => ?_
  have hlater := hs.later ((action, draws), true) hpinned
  exact { hlater with srp := fun _ => hstarted, srpK := hlater.srpK }

/-- `srpHandshake`. -/
theorem Adds.srpHandshake (hashmail password : Bytes) (tickets : Int) :
    Adds initial transcript draws (.srpHandshake hashmail password tickets)
      (srpHandshake (H := H) options hashmail password tickets) := by
  unfold PrivmxEndpoint.srpHandshake
  dsimp only
  split
  · exact Triple.throw_bind fun _ h => h.later _ rfl
  · refine Triple.get_bind fun s hs => ?_
    split
    · exact Triple.throw_bind fun _ ht => ht ▸ hs.later _ rfl
    · refine Triple.weaken (P := fun t => TicketInv initial transcript t.1) ?_
        (fun _ ht => ht ▸ hs) fun _ _ h => h
      exact Adds.srpHandshake2 rfl (.last draws (Or.inr ⟨hashmail, tickets, rfl, rfl⟩)) _ _

/-- `keyHandshake2`. -/
theorem Adds.keyHandshake2 (privateKey : H.PrivateKey) (tickets : Int) :
    Adds initial transcript draws (.keyHandshake2 privateKey tickets)
      (keyHandshake2 (H := H) options privateKey tickets) := by
  refine Triple.bind
    (Q := fun _ s => TicketInv initial
      (((.keyHandshake2 privateKey tickets, draws), true) :: transcript) s.1)
    (Triple.modify fun s hs => ?_) fun _ => Triple.modify fun _ hs => hs
  exact { hs.later ((.keyHandshake2 privateKey tickets, draws), true) rfl with
    privateKey := fun _ => .last draws ⟨privateKey, tickets, rfl⟩ }

/-- A session key that the client starts with is no secret that counts. -/
theorem Keeps.sessionHandshake (sessionId : Bytes) (sessionKey : H.PrivateKey) :
    Keeps (TicketInv initial transcript) (sessionHandshake sessionId sessionKey draws) := by
  refine Keeps.bind (Keeps.updateClient ?_) fun _ => Keeps.sendHandshake _
  exact fun _ hc => { hc with tickets := hc.tickets }

/-- **One action.**  What was owed to the transcript before it is owed to the
transcript with it, if the server sends nothing that the state does not call for. -/
theorem perform_triple (action : ClientAction H) :
    Triple (fun s => TicketInv initial transcript s.1 ∧ Solicited transcript s.1 draws action)
      (action.perform options draws)
      (fun _ s => TicketInv initial (((action, draws), true) :: transcript) s.1)
      fun s => TicketInv initial (((action, draws), false) :: transcript) s.1 := by
  have hadds {m : ClientM H Unit} (h : Adds initial transcript draws action m) :
      Triple (fun s => TicketInv initial transcript s.1 ∧ Solicited transcript s.1 draws action) m
        (fun _ s => TicketInv initial (((action, draws), true) :: transcript) s.1)
        fun s => TicketInv initial (((action, draws), false) :: transcript) s.1 :=
    h.weaken (fun _ hs => hs.1) fun _ _ h => h
  have hkeeps {m : ClientM H Unit} (h : Keeps (TicketInv initial transcript) m)
      (hpinned : pinned ((action, draws) :: transcript.map Prod.fst) =
        pinned (transcript.map Prod.fst)) : Adds initial transcript draws action m :=
    (h.weaken (fun _ hs => hs) fun _ _ hs => hs.later ((action, draws), true) hpinned).weakenError
      fun _ hs => hs.later ((action, draws), false) hpinned
  cases action with
  | ecdheHandshake key solution serverPubKey => exact hadds (Adds.ecdheHandshake _ _ _)
  | ecdhexHandshake key solution serverPubKey => exact hadds (Adds.ecdhexHandshake _ _ _)
  | srpHandshake hashmail password tickets => exact hadds (Adds.srpHandshake _ _ _)
  | srpHandshake2 username host password tickets =>
      exact hadds (Adds.srpHandshake2 rfl (.last draws (Or.inl ⟨host, tickets, rfl⟩)) _ _)
  | keyHandshake2 privateKey tickets => exact hadds (Adds.keyHandshake2 _ _)
  | sessionHandshake sessionId sessionKey =>
      exact hadds (hkeeps (Keeps.sessionHandshake sessionId sessionKey) rfl)
  | reset keepSession => exact hadds (hkeeps (Keeps.reset keepSession) rfl)
  | ticketHandshake => exact hadds (hkeeps (Keeps.ticketHandshake draws) rfl)
  | ticketRequest n => exact hadds (hkeeps (Keeps.sendHandshake _) rfl)
  | packet p => exact Takes.processHandshakePacket.weakenError fun _ hs => hs.later _ rfl

end Calls

/-! ## Runs -/

/-- A client that has done nothing, with the tickets of others. -/
def Client.fresh (ticketsManager : TicketsManager) : Client H where
  clientRandom := []
  serverRandom := []
  masterSecret := []
  ecdhePrivateKey := none
  ecdhexPrivateKey := none
  srp := .empty
  privateKey := none
  K := []
  ticketsCount := 0
  sessionKey := none
  host := []
  serverConfig := ⟨0, []⟩
  serverPubKey := none
  serverChallenge := []
  ticketsManager := ticketsManager

/-- A step of a connection. -/
def connectionStep (options : ConnectionOptions) (s : History H × Connection H)
    (e : ClientAction H × Draws H) (t : History H × Connection H) : Prop :=
  t = (e :: s.1, e.1.next options e.2 s.2)

/-- A step of a connection, with a transcript. -/
def recordedStep (options : ConnectionOptions) (s : Transcript H × Connection H)
    (e : ClientAction H × Draws H) (t : Transcript H × Connection H) : Prop :=
  t = ((e, (exec (e.1.perform options e.2) s.2).1.isOk) :: s.1, e.1.next options e.2 s.2)

/-- The step is one that the state calls for. -/
def solicitedStep (s : Transcript H × Connection H) (e : ClientAction H × Draws H) : Prop :=
  Solicited s.1 s.2.1 e.2 e.1

/-- A new client owes nothing. -/
theorem ticketInv_fresh (ticketsManager : TicketsManager) :
    TicketInv (Client.fresh (H := H) ticketsManager).ticketSecrets []
      (Client.fresh (H := H) ticketsManager) where
  tickets _ ht := Or.inl (List.mem_map_of_mem ht)
  masterSecret h := absurd rfl h
  ecdhe _ h := absurd h (by simp [Client.fresh])
  ecdhex _ h := absurd h (by simp [Client.fresh])
  privateKey h := absurd h (by simp [Client.fresh])
  K h := absurd rfl h
  srp h := absurd rfl h
  srpK h := absurd rfl h
  pinned_eq := rfl

/-- **One step.**  A step that the state calls for keeps what is owed. -/
theorem TicketInv.recordedStep {initial : List Bytes} {options : ConnectionOptions}
    {s t : Transcript H × Connection H} {e : ClientAction H × Draws H}
    (hs : TicketInv initial s.1 s.2.1) (hsolicited : solicitedStep s e)
    (hstep : recordedStep options s e t) : TicketInv initial t.1 t.2.1 := by
  subst hstep
  have h := @perform_triple H initial s.1 e.2 options e.1 s.2 ⟨hs, hsolicited⟩
  unfold ClientAction.next
  cases hexec : exec (e.1.perform options e.2) s.2 with
  | mk result u =>
      rw [hexec] at h
      cases result with
      | ok a => exact h
      | error error => exact h

end Actions

/-- **Tickets carry negotiated secrets.**  A new connection, over tickets whose
secrets are not empty, takes any run of calls of the client and packets of the
server in which the server sends nothing unsolicited.  In the state that is
reached, the secret of every ticket is one that the connection has negotiated or
that was there from the start, and it is not empty; the same goes for the ticket
that `useTicket` returns. -/
theorem tickets_negotiated {H : HandshakeCrypto} (options : ConnectionOptions)
    (ticketsManager : TicketsManager)
    (hinitial : ∀ secret ∈ (Client.fresh (H := H) ticketsManager).ticketSecrets, secret ≠ [])
    (base : ConnectionBase) (actions : List (ClientAction H × Draws H))
    (transcript : Transcript H) (s : Connection H)
    (hrun : Runs.Run (Runs.guarded solicitedStep (recordedStep options))
      ([], (Client.fresh ticketsManager, base)) actions (transcript, s)) :
    (∀ secret ∈ s.1.ticketSecrets,
      Negotiated (Client.fresh (H := H) ticketsManager).ticketSecrets transcript secret ∧
        secret ≠ []) ∧
      ∀ now ticket s', exec (useTicket now) s = (.ok ticket, s') →
        Negotiated (Client.fresh (H := H) ticketsManager).ticketSecrets transcript
          ticket.masterSecret ∧ ticket.masterSecret ≠ [] := by
  have hinv : TicketInv (Client.fresh (H := H) ticketsManager).ticketSecrets transcript s.1 := by
    refine Runs.Run.preserves
      (fun t => TicketInv (Client.fresh (H := H) ticketsManager).ticketSecrets t.1 t.2.1)
      ?_ hrun (ticketInv_fresh ticketsManager)
    rintro t e u ht ⟨hsolicited, hstep⟩
    exact ht.recordedStep hsolicited hstep
  constructor
  · intro secret hsecret
    obtain ⟨t, ht, rfl⟩ := List.mem_map.mp hsecret
    exact ⟨hinv.tickets t ht, (hinv.tickets t ht).ne_nil hinitial⟩
  · intro now ticket s' huse
    have hticket := useTicket_triple now s hinv
    rw [huse] at hticket
    exact ⟨hticket.1, hticket.1.ne_nil hinitial⟩

/-! ## Two runs -/

/-- Keys that are bytes: the shared secret is their sum, and a signature is the key
in front of the message. -/
def sampleHandshakeCrypto : HandshakeCrypto where
  toRecordPrimitives := sampleRecordPrimitives
  PrivateKey := UInt8
  PublicKey := UInt8
  getPublicKey k := k
  toDER p := [p]
  fromDER
    | [p] => .ok p
    | _ => .error .malformedPacket
  toBase58DER p := [p]
  fromBase58DER
    | [p] => .ok p
    | _ => .error .malformedPacket
  ecdheSecret k p := [k + p]
  derive k p := [k + p]
  signToCompactSignatureWithHash k message := k :: message
  verifyCompactSignatureWithHash p message signature := signature = p :: message
  eciesEncrypt _ _ d := d
  hexFrom d := d
  hexToString d := .ok d
  validateSrpInit _ _ _ _ := .error .malformedPacket
  encode _ := []
  decode _ := .error .malformedPacket

/-- Options without a restorable session. -/
def sampleOptions : ConnectionOptions := ⟨[], false⟩

/-- Draws at time zero. -/
def sampleDraws : Draws sampleHandshakeCrypto where
  now := 0
  clientRandom := [1]
  nonce := [2]
  challenge := [3]
  K := [4]
  sessionKey := (5 : UInt8)
  srp := [6]

/-- A connection without keys. -/
def sampleBase : ConnectionBase := ⟨.empty, .empty, .empty, .empty, []⟩

/-- The client starts a handshake with its key 8. -/
def sampleEcdheStart : ClientAction sampleHandshakeCrypto × Draws sampleHandshakeCrypto :=
  (.ecdheHandshake (8 : UInt8) none none, sampleDraws)

/-- The server sends a ticket for an hour. -/
def sampleTicketResponse : ClientAction sampleHandshakeCrypto × Draws sampleHandshakeCrypto :=
  (.packet
    { HandshakePacket.ofType "ticket_response" with tickets := some [some [7]], ttl := some 3600 },
    sampleDraws)

/-- The state after an action of the sample. -/
def sampleNext (e : ClientAction sampleHandshakeCrypto × Draws sampleHandshakeCrypto)
    (s : History sampleHandshakeCrypto × Connection sampleHandshakeCrypto) :
    History sampleHandshakeCrypto × Connection sampleHandshakeCrypto :=
  (e :: s.1, e.1.next sampleOptions e.2 s.2)

/-- The start of the sample. -/
def sampleStart : History sampleHandshakeCrypto × Connection sampleHandshakeCrypto :=
  ([], (Client.fresh ⟨[], -1⟩, sampleBase))

/-- The client starts a handshake with its key 8, and pins the server key 6. -/
def sampleChallengeStart : ClientAction sampleHandshakeCrypto × Draws sampleHandshakeCrypto :=
  (.ecdheHandshake (8 : UInt8) none (some (6 : UInt8)), sampleDraws)

/-- The server answers with its key 9, and signs the challenge. -/
def sampleChallengePacket : HandshakePacket :=
  { HandshakePacket.ofType "ecdhe" with
    key := some [9]
    config := some ⟨some 1024, none⟩
    signature := some ⟨some 0, some (6 :: [3] ++ textBytes (";" ++ toString (0 : Int)))⟩ }

@[inherit_doc sampleChallengePacket]
def sampleChallengeReply : ClientAction sampleHandshakeCrypto × Draws sampleHandshakeCrypto :=
  (.packet sampleChallengePacket, sampleDraws)

/-- The state of the client that waits for it. -/
def sampleChallengeState : Connection sampleHandshakeCrypto :=
  (sampleNext sampleChallengeStart sampleStart).2

/-- The reply is accepted, and sets a master secret. -/
theorem exec_sampleChallengeReply :
    ∃ t, exec (sampleChallengeReply.1.perform sampleOptions sampleChallengeReply.2)
        sampleChallengeState = (.ok (), t) ∧ t.1.masterSecret ≠ [] ∧
      t.1.ticketsManager = sampleChallengeState.1.ticketsManager := by
  have hagreed : ∃ serverConfig, exec (processEcdhe sampleDraws sampleChallengePacket)
      sampleChallengeState = exec (setPreMasterSecret (H := sampleHandshakeCrypto)
        (sampleHandshakeCrypto.ecdheSecret (8 : UInt8) (9 : UInt8)))
        ({ sampleChallengeState.1 with serverConfig := serverConfig, ecdhePrivateKey := none },
          sampleChallengeState.2) := by
    refine exec_agreed_of_ecdhe (H := sampleHandshakeCrypto) rfl rfl rfl
      ⟨_, _, rfl, rfl, by decide⟩ fun serverPubKey hpinned => ?_
    rw [← Option.some.inj hpinned]
    exact ⟨_, 0, _, _, rfl, rfl, by decide, rfl, rfl, decide_eq_true rfl⟩
  obtain ⟨serverConfig, hexec⟩ := hagreed
  exact ⟨_, hexec, masterSecretOf_ne_nil sampleHandshakeCrypto [17] [] [], rfl⟩

/-- The ticket of a server that has answered the challenge. -/
theorem tickets_negotiated_sample :
    ∃ s : Connection sampleHandshakeCrypto,
      Runs.Run (Runs.guarded solicitedStep (recordedStep sampleOptions))
        ([], (Client.fresh ⟨[], -1⟩, sampleBase))
        [sampleChallengeStart, sampleChallengeReply, sampleTicketResponse]
        ([(sampleTicketResponse, true), (sampleChallengeReply, true),
          (sampleChallengeStart, true)], s) ∧
      s.1.ticketSecrets ≠ [] ∧ ∀ secret ∈ s.1.ticketSecrets,
        Negotiated []
          [(sampleTicketResponse, true), (sampleChallengeReply, true), (sampleChallengeStart, true)]
          secret ∧ secret ≠ [] := by
  obtain ⟨t, hreply, hready, htickets⟩ := exec_sampleChallengeReply
  have hrun : Runs.Run (Runs.guarded solicitedStep (recordedStep sampleOptions))
      ([], (Client.fresh ⟨[], -1⟩, sampleBase))
      [sampleChallengeStart, sampleChallengeReply, sampleTicketResponse]
      ([(sampleTicketResponse, true), (sampleChallengeReply, true), (sampleChallengeStart, true)],
        sampleTicketResponse.1.next sampleOptions sampleTicketResponse.2 t) := by
    refine .cons ⟨trivial, rfl⟩ (.cons (t := (_, t)) ⟨?_, ?_⟩ (.cons ⟨?_, rfl⟩ (.nil _)))
    · exact ⟨fun h => absurd h (by decide), fun h => absurd h (by decide),
        fun h => absurd h (by decide), fun h => absurd h (by decide), fun h => absurd h (by decide),
        fun h => absurd h (by decide)⟩
    · show _ = (_, _)
      rw [ClientAction.next]
      show _ = ((_, (exec _ sampleChallengeState).1.isOk) :: _, (exec _ sampleChallengeState).2)
      rw [hreply]
      rfl
    · exact ⟨fun _ _ => hready, fun h => absurd h (by decide), fun h => absurd h (by decide),
        fun h => absurd h (by decide), fun h => absurd h (by decide), fun h => absurd h (by decide)⟩
  refine ⟨_, hrun, ?_, (tickets_negotiated sampleOptions ⟨[], -1⟩
    (fun _ h => absurd h List.not_mem_nil) sampleBase _ _ _ hrun).1⟩
  show (TicketsManager.emplace _ _ t.1.ticketsManager.tickets).map _ ≠ []
  rw [htickets]
  exact List.cons_ne_nil _ _

/-- The server sends its tickets first, and they are stored with no secret at
all. -/
theorem tickets_not_negotiated_when_unsolicited :
    Runs.Run (connectionStep sampleOptions) sampleStart [sampleEcdheStart, sampleTicketResponse]
        (sampleNext sampleTicketResponse (sampleNext sampleEcdheStart sampleStart)) ∧
      [] ∈ (sampleNext sampleTicketResponse
        (sampleNext sampleEcdheStart sampleStart)).2.1.ticketSecrets ∧
      ∃ s', exec (useTicket 0)
        (sampleNext sampleTicketResponse (sampleNext sampleEcdheStart sampleStart)).2 =
          (.ok ⟨[7], []⟩, s') :=
  ⟨.cons rfl (.cons rfl (.nil _)), List.mem_cons_self, _, rfl⟩

end PrivmxEndpoint
