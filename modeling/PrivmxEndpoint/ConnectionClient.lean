import PrivmxEndpoint.CryptoTypes
import PrivmxEndpoint.RecordLayer
import PrivmxEndpoint.ThrowingPrograms

/-!
# The client side of a connection

`ConnectionClient` starts handshakes, answers the packets of the server, and
keeps session tickets with the master secret that was current when they arrived.
A ticket restores the secret on a later connection.

A packet that throws leaves the members behind as they were at that point, so the
functions of the client are programs over its state (`ThrowingPrograms`).  Random
values and the time are arguments (`Draws`), and so are elliptic curves, SRP and
the PSON encoding (`HandshakeCrypto`).
-/

namespace PrivmxEndpoint

open Throwing

/-- `SessionTicket`. -/
structure SessionTicket where
  id : Bytes
  masterSecret : Bytes
  deriving Repr, DecidableEq

/-- `TicketsManager`: a multimap from expiry times, in ascending order, and
`_tickets_ttl`. -/
structure TicketsManager where
  tickets : List (Int × SessionTicket)
  ticketsTtl : Int
  deriving Repr, DecidableEq

/-- `std::multimap::emplace`. -/
def TicketsManager.emplace (ttl : Int) (ticket : SessionTicket) :
    List (Int × SessionTicket) → List (Int × SessionTicket)
  | [] => [(ttl, ticket)]
  | t :: tickets =>
      if ttl < t.1 then
        (ttl, ticket) :: t :: tickets
      else
        t :: TicketsManager.emplace ttl ticket tickets

/-- The `config` of a packet. -/
structure ConfigJson where
  requestChunkSize : Option Nat
  /-- The field may be missing, or not be a string. -/
  serverVersion : Option (Option Bytes)
  deriving Repr, DecidableEq

/-- The `signature` of a packet. -/
structure SignatureJson where
  timestamp : Option Int
  challenge : Option Bytes
  deriving Repr, DecidableEq

/-- A handshake packet of the server.  A field is missing if it is not there or
if it has not the type that is asked for. -/
structure HandshakePacket where
  type : Option String
  key : Option Bytes
  host : Option Bytes
  config : Option ConfigJson
  signature : Option SignatureJson
  tickets : Option (List (Option Bytes))
  ttl : Option Int
  sessionId : Option Bytes
  username : Option Bytes
  pub : Option Bytes
  M2 : Option Int
  /-- The fields that SRP reads: `s`, `B`, `N`, `g`, `k` and `loginData`. -/
  srp : Bytes
  deriving Repr, DecidableEq

/-- A packet with a type and no other fields. -/
def HandshakePacket.ofType (type : String) : HandshakePacket where
  type := some type
  key := none
  host := none
  config := none
  signature := none
  tickets := none
  ttl := none
  sessionId := none
  username := none
  pub := none
  M2 := none
  srp := []

/-- A handshake packet of the client. -/
inductive ClientPacket
  | ecdhe (key agent : Bytes) (solution challenge : Option Bytes)
  | ecdhex (agent key : Bytes) (nonce timestamp : String) (signature : Bytes)
      (solution challenge : Option Bytes)
  | srpInit (username host agent : Bytes)
  | srpExchange (body : Bytes) (sessionKey : Option Bytes)
  | keyInit (pub agent : Bytes)
  | keyExchange (sessionId : Bytes) (nonce timestamp : String) (signature : Bytes) (K : String)
      (tickets : Int) (sessionKey : Option Bytes)
  | session (sessionId sessionKey : Bytes) (nonce timestamp : String) (signature : Bytes)
  | ticket (ticketId clientRandom : Bytes)
  | ticketRequest (count : Int)
  deriving Repr, DecidableEq

/-- The operations behind the handshakes. -/
structure HandshakeCrypto extends RecordPrimitives where
  PrivateKey : Type
  PublicKey : Type
  getPublicKey : PrivateKey → PublicKey
  toDER : PublicKey → Bytes
  fromDER : Bytes → Except RpcException PublicKey
  toBase58DER : PublicKey → Bytes
  fromBase58DER : Bytes → Except RpcException PublicKey
  /-- `ECDHE::getSecret`. -/
  ecdheSecret : PrivateKey → PublicKey → Bytes
  /-- `PrivateKey::derive`. -/
  derive : PrivateKey → PublicKey → Bytes
  signToCompactSignatureWithHash : PrivateKey → Bytes → Bytes
  verifyCompactSignatureWithHash : PublicKey → Bytes → Bytes → Bool
  eciesEncrypt : PrivateKey → PublicKey → Bytes → Bytes
  hexFrom : Bytes → Bytes
  hexToString : Bytes → Except RpcException Bytes
  /-- `SRP::validateSrpInit` for a user name, a password, the packet and random
  bytes: the expected `M2`, the key and the answer. -/
  validateSrpInit : Bytes → Bytes → HandshakePacket → Bytes →
    Except RpcException (Int × Bytes × Bytes)
  encode : ClientPacket → Bytes
  decode : Bytes → Except RpcException HandshakePacket

/-- The bytes of a text. -/
def textBytes (s : String) : Bytes :=
  s.toUTF8.toList

/-! ## Keys -/

section Keys

variable (H : HandshakeCrypto)

/-- The loop in `prf_tls12`, for a number of rounds. -/
def prfRounds (key seed : Bytes) : Nat → Bytes → Bytes
  | 0, _ => []
  | n + 1, a =>
      let a := H.hmacSha256 key a
      H.hmacSha256 key (a ++ seed) ++ prfRounds key seed n a

/-- `Crypto::prf_tls12`.  A round appends 32 bytes. -/
def prfTls12 (key seed : Bytes) (length : Nat) : Bytes :=
  (prfRounds H key seed ((length + 31) / 32) seed).take length

theorem length_prfRounds (key seed : Bytes) (n : Nat) (a : Bytes) :
    (prfRounds H key seed n a).length = 32 * n := by
  induction n generalizing a with
  | zero => rfl
  | succ n ih =>
      rw [prfRounds, List.length_append, H.hmacSha256_length, ih]
      omega

@[simp] theorem length_prfTls12 (key seed : Bytes) (length : Nat) :
    (prfTls12 H key seed length).length = length := by
  rw [prfTls12, List.length_take, length_prfRounds]
  omega

/-- The part of a key block. -/
theorem length_keyBlock_part (key seed : Bytes) {i : Nat} (hi : i ≤ 96) :
    (((prfTls12 H key seed 128).drop i).take 32).length = 32 := by
  rw [List.length_take, List.length_drop, length_prfTls12]
  omega

/-- `StatePairCS`. -/
structure StatePairCS where
  clientState : RWState
  serverState : RWState
  deriving DecidableEq

/-- `getFreshRWStates`, before the sides are assigned. -/
def getFreshRWStates (masterSecret clientRandom serverRandom : Bytes) : StatePairCS :=
  let seed := textBytes "key expansion" ++ serverRandom ++ clientRandom
  let part (i : Nat) := ((prfTls12 H masterSecret seed 128).drop i).take 32
  { clientState := .ofKeys (part 64) (part 0) (length_keyBlock_part H _ _ (by omega))
      (length_keyBlock_part H _ _ (by omega))
    serverState := .ofKeys (part 96) (part 32) (length_keyBlock_part H _ _ (by omega))
      (length_keyBlock_part H _ _ (by omega)) }

/-- The master secret of `setPreMasterSecret`. -/
def masterSecretOf (preMasterSecret clientRandom serverRandom : Bytes) : Bytes :=
  prfTls12 H preMasterSecret (textBytes "master secret" ++ clientRandom ++ serverRandom) 48

theorem masterSecretOf_ne_nil (preMasterSecret clientRandom serverRandom : Bytes) :
    masterSecretOf H preMasterSecret clientRandom serverRandom ≠ [] := by
  apply List.ne_nil_of_length_pos
  rw [masterSecretOf, length_prfTls12]
  decide

end Keys

/-! ## The client -/

/-- The members of `SRP` that the client's functions depend on. -/
structure Srp where
  isInitialized : Bool
  username : Bytes
  password : Bytes
  tickets : Int
  M2 : Int
  K : Bytes
  deriving Repr, DecidableEq

/-- `SRP()`, and the state after `SRP::clear`. -/
def Srp.empty : Srp := ⟨false, [], [], 0, 0, []⟩

/-- `ServerConfig`. -/
structure ServerConfig where
  requestChunkSize : Nat
  serverVersion : Bytes
  deriving Repr, DecidableEq

/-- The members of `ConnectionClient` and the secrets of `ConnectionBase`.  The
results of handshakes that only the getters return are left out. -/
structure Client (H : HandshakeCrypto) where
  clientRandom : Bytes
  serverRandom : Bytes
  masterSecret : Bytes
  ecdhePrivateKey : Option H.PrivateKey
  ecdhexPrivateKey : Option H.PrivateKey
  srp : Srp
  privateKey : Option H.PrivateKey
  K : Bytes
  ticketsCount : Int
  sessionKey : Option H.PrivateKey
  host : Bytes
  serverConfig : ServerConfig
  serverPubKey : Option H.PublicKey
  serverChallenge : Bytes
  ticketsManager : TicketsManager

/-- The options that handshakes depend on. -/
structure ConnectionOptions where
  agent : Bytes
  restorableSession : Bool
  deriving Repr, DecidableEq

/-- What a call draws: the time and random values. -/
structure Draws (H : HandshakeCrypto) where
  now : Int
  /-- `Crypto::randomBytes(12)` of `ticketHandshake`. -/
  clientRandom : Bytes
  /-- `Crypto::randomBytes(32)`, in the order of the calls. -/
  nonce : Bytes
  challenge : Bytes
  K : Bytes
  /-- `PrivateKey::generateRandom()`. -/
  sessionKey : H.PrivateKey
  /-- The exponent of SRP. -/
  srp : Bytes

/-- The client and the record layer it stands on. -/
abbrev Connection (H : HandshakeCrypto) := Client H × ConnectionBase

/-- Functions of the client. -/
abbrev ClientM (H : HandshakeCrypto) := Prog RpcException (Connection H)

section Functions

variable {H : HandshakeCrypto}

/-- The members of the client are changed. -/
def updateClient (f : Client H → Client H) : ClientM H Unit :=
  modify fun s => (f s.1, s.2)

/-- `getValue`: a missing field is an exception. -/
def getValue {α : Type} : Option α → ClientM H α
  | none => throw .malformedPacket
  | some a => pure a

/-- `optional::value`. -/
def optionalValue {α : Type} : Option α → ClientM H α
  | none => throw .badOptionalAccess
  | some a => pure a

/-- `send(_pson_encoder.encode(packet), HANDSHAKE)`. -/
def sendHandshake (packet : ClientPacket) : ClientM H Unit :=
  modify fun s => (s.1,
    s.2.send H.toRecordPrimitives (H.encode packet) ContentType.HANDSHAKE false)

/-- `setPreMasterSecret`. -/
def setPreMasterSecret (preMasterSecret : Bytes) : ClientM H Unit :=
  modify fun s =>
    let masterSecret := masterSecretOf H preMasterSecret s.1.clientRandom s.1.serverRandom
    let states := getFreshRWStates H masterSecret s.1.clientRandom s.1.serverRandom
    ({ s.1 with masterSecret := masterSecret },
      { s.2 with nextReadState := states.serverState, nextWriteState := states.clientState })

/-- `changeCipherSpec`. -/
def changeCipherSpec : ClientM H Unit := do
  let s ← get
  let base ← lift (s.2.changeCipherSpec H.toRecordPrimitives)
  modify fun s => (s.1, base)

/-- `restoreState`. -/
def restoreState (ticketId masterSecret clientRandom : Bytes) : ClientM H Unit := do
  modify fun s =>
    let states := getFreshRWStates H masterSecret clientRandom ticketId
    ({ s.1 with
        clientRandom := clientRandom
        serverRandom := ticketId
        masterSecret := masterSecret },
      { s.2 with nextReadState := states.serverState, nextWriteState := states.clientState })
  changeCipherSpec

/-- The tickets are changed. -/
def updateTickets (f : TicketsManager → TicketsManager) : ClientM H Unit :=
  updateClient fun c => { c with ticketsManager := f c.ticketsManager }

/-- The loop in `saveTickets`. -/
def saveEach (expiry : Int) (masterSecret : Bytes) : List (Option Bytes) → ClientM H Unit
  | [] => pure ()
  | none :: _ => throw .malformedPacket
  | some id :: tickets => do
      updateTickets fun m =>
        { m with tickets := TicketsManager.emplace expiry ⟨id, masterSecret⟩ m.tickets }
      saveEach expiry masterSecret tickets

/-- `now + (ttl * 1000) - _min_ticket_ttl`, with its default.  The product is one of
`int`s, and wraps. -/
def TicketsManager.newTicketsTtl (now ttl : Int) : Int :=
  now + (ttl * 1000).bmod (2 ^ 32) - 5000

/-- `TicketsManager::saveTickets`. -/
def saveTickets (now : Int) (tickets : List (Option Bytes)) (ttl : Int) (masterSecret : Bytes) :
    ClientM H Unit := do
  let newTicketsTtl := TicketsManager.newTicketsTtl now ttl
  saveEach newTicketsTtl masterSecret tickets
  updateTickets fun m => { m with ticketsTtl := max m.ticketsTtl newTicketsTtl }

/-- `TicketsManager::useTicket`.  The callback `on_tickets_equal_zero` is never
set. -/
def useTicket (now : Int) : ClientM H SessionTicket := do
  updateTickets fun m => { m with tickets := m.tickets.dropWhile (·.1 ≤ now) }
  let s ← get
  match s.1.ticketsManager.tickets with
  | [] => throw .ticketsCountIsEqualZero
  | (_, ticket) :: tickets =>
      updateTickets fun m => { m with tickets := tickets }
      pure ticket

/-- `reset`. -/
def reset (keepSession : Bool) : ClientM H Unit := do
  modify fun s =>
    ({ s.1 with clientRandom := [], serverRandom := [], masterSecret := [] },
      { s.2 with
        readState := .empty
        writeState := .empty
        nextReadState := .empty
        nextWriteState := .empty })
  if keepSession then
    pure ()
  else
    updateClient fun c =>
      { c with
        ecdhePrivateKey := none
        ecdhexPrivateKey := none
        privateKey := none
        srp := .empty
        K := [] }

/-- `ticketHandshake`. -/
def ticketHandshake (draws : Draws H) : ClientM H Unit := do
  let ticket ← useTicket draws.now
  sendHandshake (.ticket ticket.id draws.clientRandom)
  restoreState ticket.id ticket.masterSecret draws.clientRandom

/-- `ticketRequest`. -/
def ticketRequest (n : Int) : ClientM H Unit :=
  sendHandshake (.ticketRequest n)

/-! ## Starting a handshake -/

/-- The end of `ecdheHandshake` and `ecdhexHandshake`: a server key is pinned with
a new challenge. -/
def pinServer (serverPubKey : Option H.PublicKey) (draws : Draws H) : ClientM H (Option Bytes) :=
  match serverPubKey with
  | none => pure none
  | some serverPubKey => do
      updateClient fun c =>
        { c with serverPubKey := some serverPubKey, serverChallenge := H.hexFrom draws.challenge }
      pure (some (H.hexFrom draws.challenge))

/-- `ecdheHandshake`. -/
def ecdheHandshake (options : ConnectionOptions) (key : H.PrivateKey) (solution : Option Bytes)
    (serverPubKey : Option H.PublicKey) (draws : Draws H) : ClientM H Unit := do
  updateClient fun c => { c with ecdhePrivateKey := some key }
  let challenge ← pinServer serverPubKey draws
  sendHandshake (.ecdhe (H.toDER (H.getPublicKey key)) options.agent solution challenge)

/-- `ecdhexHandshake`. -/
def ecdhexHandshake (options : ConnectionOptions) (key : H.PrivateKey) (solution : Option Bytes)
    (serverPubKey : Option H.PublicKey) (draws : Draws H) : ClientM H Unit := do
  updateClient fun c => { c with ecdhexPrivateKey := some key }
  let timestamp := toString draws.now
  let nonce := H.base64From draws.nonce
  let signature := H.signToCompactSignatureWithHash key
    (textBytes ("ecdhexlogin " ++ nonce ++ " " ++ timestamp))
  let challenge ← pinServer serverPubKey draws
  sendHandshake (.ecdhex options.agent (H.toDER (H.getPublicKey key)) nonce timestamp signature
    solution challenge)

/-- `srpHandshake2`. -/
def srpHandshake2 (options : ConnectionOptions) (username host password : Bytes) (tickets : Int) :
    ClientM H Unit := do
  sendHandshake (.srpInit username host options.agent)
  updateClient fun c =>
    { c with
      srp := { c.srp with
        isInitialized := true
        username := username
        password := password
        tickets := tickets } }

/-- `srpHandshake`: the user name and the host are on the two sides of a `#`. -/
def srpHandshake (options : ConnectionOptions) (hashmail password : Bytes) (tickets : Int) :
    ClientM H Unit := do
  let hashPos := hashmail.idxOf 35
  if hashPos = hashmail.length ∨ hashmail.length < hashPos + 2 then
    throw .incorrectHashmail
  let s ← get
  if s.1.srp.isInitialized then
    throw .invalidHandshakeState
  srpHandshake2 options (hashmail.take hashPos) (hashmail.drop (hashPos + 1)) password tickets

/-- `keyHandshake2`, and `keyHandshake` behind the parsing of its key. -/
def keyHandshake2 (options : ConnectionOptions) (privateKey : H.PrivateKey) (tickets : Int) :
    ClientM H Unit := do
  updateClient fun c => { c with privateKey := some privateKey, ticketsCount := tickets }
  sendHandshake (.keyInit (H.toBase58DER (H.getPublicKey privateKey)) options.agent)

/-- `sessionHandshake`. -/
def sessionHandshake (sessionId : Bytes) (sessionKey : H.PrivateKey) (draws : Draws H) :
    ClientM H Unit := do
  updateClient fun c => { c with sessionKey := some sessionKey }
  let nonce := H.base64From draws.nonce
  let timestamp := toString draws.now
  let signature := H.signToCompactSignatureWithHash sessionKey
    (textBytes "restore_" ++ sessionId ++ textBytes (" " ++ nonce ++ " " ++ timestamp))
  sendHandshake (.session sessionId (H.toBase58DER (H.getPublicKey sessionKey)) nonce timestamp
    signature)

/-! ## Packets of the server -/

/-- `extractServerConfig`. -/
def extractServerConfig (packet : HandshakePacket) : ClientM H Unit := do
  let config ← getValue packet.config
  let requestChunkSize ← getValue config.requestChunkSize
  updateClient fun c =>
    { c with serverConfig := { c.serverConfig with requestChunkSize := requestChunkSize } }
  match config.serverVersion with
  | none => pure ()
  | some serverVersion => do
      let serverVersion ← getValue serverVersion
      updateClient fun c =>
        { c with serverConfig := { c.serverConfig with serverVersion := serverVersion } }

/-- `ALLOWED_TIME_DIFFERENCE_BETWEEN_SERVER_AND_CLIENT`, in milliseconds. -/
def allowedTimeDifference : Int := 150 * 1000

/-- `extractAndValidateChallenge`. -/
def extractAndValidateChallenge (now : Int) (packet : HandshakePacket) : ClientM H Unit := do
  let s ← get
  match s.1.serverPubKey with
  | none => pure ()
  | some serverPubKey =>
      match packet.signature with
      | none => throw .serverChallengeMissingSignature
      | some signature => do
          let serverTimestamp ← getValue signature.timestamp
          if ¬ |now - serverTimestamp| < allowedTimeDifference then
            throw .timeDifferenceBetweenServerAndClientBiggerThanAllowed
          let challenge ← getValue signature.challenge
          let challengeResult ← lift (H.hexToString challenge)
          if H.verifyCompactSignatureWithHash serverPubKey
              (s.1.serverChallenge ++ textBytes (";" ++ toString serverTimestamp))
              challengeResult = false then
            throw .serverChallengeFailed

/-- The packet `ecdhe`. -/
def processEcdhe (draws : Draws H) (packet : HandshakePacket) : ClientM H Unit := do
  let s ← get
  match s.1.ecdhePrivateKey with
  | none => throw .unexpectedEcdhePacketFromServer
  | some privateKey => do
      let key ← getValue packet.key
      let publicKey ← lift (H.fromDER key)
      extractServerConfig packet
      extractAndValidateChallenge draws.now packet
      updateClient fun c => { c with ecdhePrivateKey := none }
      setPreMasterSecret (H.ecdheSecret privateKey publicKey)

/-- The packet `ecdhex`. -/
def processEcdhex (draws : Draws H) (packet : HandshakePacket) : ClientM H Unit := do
  let s ← get
  match s.1.ecdhexPrivateKey with
  | none => throw .unexpectedEcdhexPacketFromServer
  | some privateKey => do
      let key ← getValue packet.key
      let host ← getValue packet.host
      updateClient fun c => { c with host := host }
      extractServerConfig packet
      extractAndValidateChallenge draws.now packet
      let publicKey ← lift (H.fromDER key)
      updateClient fun c => { c with ecdhexPrivateKey := none }
      setPreMasterSecret (H.ecdheSecret privateKey publicKey)

/-- `saveTickets` for the fields of a packet and the current master secret. -/
def saveTicketsOf (draws : Draws H) (packet : HandshakePacket) : ClientM H Unit := do
  let tickets ← getValue packet.tickets
  let ttl ← getValue packet.ttl
  let s ← get
  saveTickets draws.now tickets ttl s.1.masterSecret

/-- `TicketsManager::clear`. -/
def clearTickets : ClientM H Unit :=
  updateTickets fun m => { m with tickets := [] }

/-- The session key of a restorable session, and its public key for the server. -/
def newSessionKey (options : ConnectionOptions) (draws : Draws H) : ClientM H (Option Bytes) := do
  if options.restorableSession then
    updateClient fun c => { c with sessionKey := some draws.sessionKey }
    pure (some (H.toBase58DER (H.getPublicKey draws.sessionKey)))
  else
    pure none

/-- The end of the packets `srp_init` and `key_init`. -/
def answerOverTicket (draws : Draws H) (packet : HandshakePacket) (exchange : ClientPacket) :
    ClientM H Unit := do
  extractServerConfig packet
  reset true
  ticketHandshake draws
  sendHandshake exchange

/-- The packet `srp_init`. -/
def processSrpInit (options : ConnectionOptions) (draws : Draws H) (packet : HandshakePacket) :
    ClientM H Unit := do
  let s ← get
  if s.1.srp.username = [] ∨ s.1.srp.password = [] then
    throw .invalidHandshakeState
  let (M2, K, answer) ← lift
    (H.validateSrpInit s.1.srp.username s.1.srp.password packet draws.srp)
  updateClient fun c => { c with srp := { c.srp with M2 := M2, K := K } }
  let sessionKey ← newSessionKey options draws
  answerOverTicket draws packet (.srpExchange answer sessionKey)

/-- The packet `srp_exchange`. -/
def processSrpExchange (draws : Draws H) (packet : HandshakePacket) : ClientM H Unit := do
  let s ← get
  if s.1.srp.M2 = 0 ∨ s.1.srp.K = [] then
    throw .invalidHandshakeState
  let M2 ← getValue packet.M2
  if s.1.srp.M2 ≠ M2 then
    throw .invalidM2
  updateClient fun c => { c with srp := { c.srp with K := [] } }
  setPreMasterSecret (fillTo32 s.1.srp.K)
  clearTickets
  saveTicketsOf draws packet

/-- The packet `key_init`.  The key `_K` is there before the private key is looked
at. -/
def processKeyInit (options : ConnectionOptions) (draws : Draws H) (packet : HandshakePacket) :
    ClientM H Unit := do
  let sessionId ← getValue packet.sessionId
  let _ ← getValue packet.username
  updateClient fun c => { c with K := draws.K }
  let s ← get
  let privateKey ← optionalValue s.1.privateKey
  let pub ← getValue packet.pub
  let publicKey ← lift (H.fromBase58DER pub)
  let K := H.base64From (H.eciesEncrypt privateKey publicKey draws.K)
  let nonce := H.base64From draws.nonce
  let timestamp := toString draws.now
  let signature := H.signToCompactSignatureWithHash privateKey
    (textBytes ("login" ++ K ++ " " ++ nonce ++ " " ++ timestamp))
  let sessionKey ← newSessionKey options draws
  answerOverTicket draws packet
    (.keyExchange sessionId nonce timestamp signature K s.1.ticketsCount sessionKey)

/-- The packet `key_exchange`. -/
def processKeyExchange (draws : Draws H) (packet : HandshakePacket) : ClientM H Unit := do
  let s ← get
  if s.1.K = [] then
    throw .invalidHandshakeState
  updateClient fun c => { c with K := fillTo32 s.1.K }
  setPreMasterSecret (fillTo32 s.1.K)
  clearTickets
  saveTicketsOf draws packet

/-- The packet `session`. -/
def processSession (packet : HandshakePacket) : ClientM H Unit := do
  let key ← getValue packet.key
  let publicKey ← lift (H.fromDER key)
  let s ← get
  let sessionKey ← optionalValue s.1.sessionKey
  setPreMasterSecret (fillTo32 (H.derive sessionKey publicKey))
  extractServerConfig packet

/-- `processHandshakePacket`. -/
def processHandshakePacket (options : ConnectionOptions) (draws : Draws H)
    (packet : HandshakePacket) : ClientM H Unit := do
  let type ← getValue packet.type
  if type = "ecdhe" then processEcdhe draws packet
  else if type = "ecdhex" then processEcdhex draws packet
  else if type = "ticket_response" then saveTicketsOf draws packet
  else if type = "srp_init" then processSrpInit options draws packet
  else if type = "srp_exchange" then processSrpExchange draws packet
  else if type = "key_init" then processKeyInit options draws packet
  else if type = "key_exchange" then processKeyExchange draws packet
  else if type = "session" then processSession packet

end Functions

end PrivmxEndpoint
