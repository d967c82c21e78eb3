import PrivmxEndpoint.BigEndian
import PrivmxEndpoint.CryptoPrimitives

/-!
# The record layer of a connection

`ConnectionBase` cuts a stream into frames.  As long as it has no keys a frame
is a header of eight bytes and the packet.  With keys, the header and eight
bytes of its tag are one AES block, the packet is encrypted with this block as
its initialization vector, and sixteen bytes of a second tag follow.  Both tags
cover the sequence number and the header.  A frame of type
`CHANGE_CIPHER_SPEC` switches to the next keys and to sequence number zero.

What is done with a packet is left to handlers, which may change the connection
and may throw.
-/

namespace PrivmxEndpoint

/-- The exceptions of a connection. -/
inductive RpcException
  | frameHeaderTagsAreNotEqual
  | frameMacsAreNotEqual
  | unsupportedFrameVersion (version : UInt8)
  | invalidNextReadState
  | writeStateIsNotInitialized
  | alert (message : Bytes)
  | unexpectedEcdhePacketFromServer
  | unexpectedEcdhexPacketFromServer
  | invalidHandshakeState
  | incorrectHashmail
  | invalidM2
  | serverChallengeMissingSignature
  | serverChallengeFailed
  | timeDifferenceBetweenServerAndClientBiggerThanAllowed
  | ticketsCountIsEqualZero
  /-- Exceptions of the cryptographic library. -/
  | crypto (e : StoreError)
  /-- `std::out_of_range` and `std::bad_optional_access`. -/
  | outOfRange
  | badOptionalAccess
  /-- Exceptions of the PSON decoder and of the JSON objects. -/
  | malformedPacket
  deriving Repr, DecidableEq

/-- The primitives of the record layer.  Without padding, AES-ECB refuses data
that is not made of whole blocks. -/
structure RecordPrimitives extends Primitives where
  /-- Arguments are the data and the key. -/
  aes256EcbEncrypt : Bytes → Bytes → Bytes
  aes256EcbDecrypt : Bytes → Bytes → Except StoreError Bytes
  ecb_length : ∀ d k, k.length = 32 → d.length = 16 → (aes256EcbEncrypt d k).length = 16
  ecb_decrypt_encrypt : ∀ d k, k.length = 32 → d.length = 16 →
    aes256EcbDecrypt (aes256EcbEncrypt d k) k = .ok d
  ecb_decrypt_length : ∀ d k p, aes256EcbDecrypt d k = .ok p →
    d.length % 16 = 0 ∧ p.length = d.length

/-- `ContentType`. -/
def ContentType.CHANGE_CIPHER_SPEC : UInt8 := 20

@[inherit_doc ContentType.CHANGE_CIPHER_SPEC]
def ContentType.ALERT : UInt8 := 21

@[inherit_doc ContentType.CHANGE_CIPHER_SPEC]
def ContentType.HANDSHAKE : UInt8 := 22

@[inherit_doc ContentType.CHANGE_CIPHER_SPEC]
def ContentType.APPLICATION_DATA : UInt8 := 23

/-- `RWState`.  Its keys are both missing, or they are two parts of a key
block. -/
structure RWState where
  key : Bytes
  macKey : Bytes
  sequenceNumber : Nat
  valid : (key.length = 32 ∧ macKey.length = 32) ∨ (key = [] ∧ macKey = [])
  deriving DecidableEq

namespace RWState

/-- `RWState()`. -/
def empty : RWState := ⟨[], [], 0, Or.inr ⟨rfl, rfl⟩⟩

/-- `RWState(key, mac_key)`. -/
def ofKeys (key macKey : Bytes) (hkey : key.length = 32) (hmac : macKey.length = 32) : RWState :=
  ⟨key, macKey, 0, Or.inl ⟨hkey, hmac⟩⟩

/-- `RWState::initialized`. -/
def initialized (s : RWState) : Bool :=
  !s.key.isEmpty && !s.macKey.isEmpty

/-- The state after a frame. -/
def advance (s : RWState) : RWState :=
  { s with sequenceNumber := (s.sequenceNumber + 1) % 2 ^ 64 }

@[simp] theorem advance_key (s : RWState) : s.advance.key = s.key := rfl

@[simp] theorem advance_macKey (s : RWState) : s.advance.macKey = s.macKey := rfl

@[simp] theorem advance_initialized (s : RWState) : s.advance.initialized = s.initialized := rfl

@[simp] theorem empty_initialized : empty.initialized = false := rfl

theorem key_length {s : RWState} (h : s.initialized = true) : s.key.length = 32 := by
  rcases s.valid with hs | ⟨hkey, -⟩
  · exact hs.1
  · simp [initialized, hkey] at h

end RWState

/-- The members of `ConnectionBase` that frames use, and what was written to
`_output`. -/
structure ConnectionBase where
  writeState : RWState
  readState : RWState
  nextWriteState : RWState
  nextReadState : RWState
  output : Bytes
  deriving DecidableEq

/-- The eight bytes in front of a frame. -/
def frameHeader (contentType : UInt8) (frameLength : Nat) : Bytes :=
  [1, contentType] ++ BigEndian.bytes 4 frameLength ++ [0, 0]

@[simp] theorem length_frameHeader (contentType : UInt8) (frameLength : Nat) :
    (frameHeader contentType frameLength).length = 8 := by
  simp [frameHeader]

/-- The length of an encrypted packet, in 32-bit arithmetic. -/
def paddedFrameLength (packet : Bytes) : Nat :=
  let frameLength := packet.length % 2 ^ 32
  if 0 < frameLength then (frameLength + 16) % 2 ^ 32 / 16 * 16 else 0

/-- The bytes that both tags of a frame start with. -/
def frameSeed (s : RWState) (header : Bytes) : Bytes :=
  BigEndian.bytes 8 s.sequenceNumber ++ header

@[simp] theorem length_frameSeed (s : RWState) (header : Bytes) :
    (frameSeed s header).length = 8 + header.length := by
  simp [frameSeed]

section Frames

variable (C : RecordPrimitives)

/-- `frame_header_tag`, and the expected tag of a header. -/
def headerTag (s : RWState) (header : Bytes) : Bytes :=
  (C.hmacSha256 s.macKey (frameSeed s header)).take 8

/-- The message of the second tag. -/
def bodyMessage (s : RWState) (header iv ciphertext : Bytes) : Bytes :=
  frameSeed s header ++ iv ++ ciphertext

/-- `frame_mac`, and the expected one. -/
def bodyTag (s : RWState) (header iv ciphertext : Bytes) : Bytes :=
  (C.hmacSha256 s.macKey (bodyMessage s header iv ciphertext)).take 16

/-- The encrypted header of a frame. -/
def encryptedHeader (s : RWState) (header : Bytes) : Bytes :=
  C.aes256EcbEncrypt (header ++ headerTag C s header) s.key

/-- A frame under a state with keys. -/
def encryptedFrame (s : RWState) (packet : Bytes) (contentType : UInt8) : Bytes :=
  let frameLength := paddedFrameLength packet
  let header := frameHeader contentType frameLength
  let iv := encryptedHeader C s header
  if 0 < frameLength then
    let frameData := C.aes256CbcPkcs7Encrypt packet s.key iv
    iv ++ frameData ++ bodyTag C s header iv frameData
  else
    iv

/-- A frame without keys. -/
def plainFrame (packet : Bytes) (contentType : UInt8) : Bytes :=
  frameHeader contentType (packet.length % 2 ^ 32) ++ packet

/-- `ConnectionBase::send`. -/
def ConnectionBase.send (c : ConnectionBase) (packet : Bytes) (contentType : UInt8)
    (forcePlaintext : Bool) : ConnectionBase :=
  if !forcePlaintext && c.writeState.initialized then
    { c with
      writeState := c.writeState.advance
      output := c.output ++ encryptedFrame C c.writeState packet contentType }
  else
    { c with output := c.output ++ plainFrame packet contentType }

/-- `ConnectionBase::changeCipherSpec`. -/
def ConnectionBase.changeCipherSpec (c : ConnectionBase) : Except RpcException ConnectionBase :=
  if !c.nextWriteState.initialized then
    .error .writeStateIsNotInitialized
  else
    let c := c.send C [] ContentType.CHANGE_CIPHER_SPEC false
    .ok { c with writeState := c.nextWriteState, nextWriteState := .empty }

/-! ## Reading -/

/-- What is read off the header of a frame: the version, the content type and
the length. -/
structure FrameFields where
  version : UInt8
  contentType : UInt8
  frameLength : Nat
  deriving Repr, DecidableEq

/-- The fields of a header.  Without keys a header may be short; the variables
that nothing was read into then hold what was in memory. -/
def FrameFields.read (garbage header : Bytes) : FrameFields :=
  let memory := header ++ garbage.drop header.length
  { version := header.getD 0 0
    contentType := memory.getD 1 0
    frameLength := BigEndian.value ((memory.drop 2).take 4) }

/-- A frame that was read: the state it was read with, the messages whose tags
were compared with success, and its content. -/
structure ReadFrame where
  readState : RWState
  verified : List Bytes
  contentType : UInt8
  data : Bytes
  deriving DecidableEq

/-- The header of a frame behind its tag, and the rest of the input. -/
def readHeader (s : RWState) (input : Bytes) : Except RpcException Bytes :=
  if s.initialized then
    match C.aes256EcbDecrypt (input.take 16) s.key with
    | .error e => .error (.crypto e)
    | .ok plain =>
        if plain.length < 8 then
          .error .outOfRange
        else if plain.drop 8 ≠ headerTag C s (plain.take 8) then
          .error .frameHeaderTagsAreNotEqual
        else
          .ok (plain.take 8)
  else
    .ok (input.take 8)

/-- The number of bytes that are read for a header. -/
def RWState.headerLength (s : RWState) : Nat :=
  if s.initialized then 16 else 8

/-- The state behind the header of a frame: the sequence number advances once
the header is decrypted. -/
def RWState.afterHeader (s : RWState) (input : Bytes) : RWState :=
  if s.initialized then
    match C.aes256EcbDecrypt (input.take 16) s.key with
    | .error _ => s
    | .ok plain => if plain.length < 8 then s else s.advance
  else
    s

/-- The body of a frame behind its tag, with the messages of the tags. -/
def readBody (s : RWState) (header iv : Bytes) (fields : FrameFields) (input : Bytes) :
    Except RpcException (ReadFrame × Bytes) :=
  let seeds := if s.initialized then [frameSeed s header] else []
  if 0 < fields.frameLength then
    let ciphertext := input.take fields.frameLength
    let input := input.drop fields.frameLength
    if s.initialized then
      if input.take 16 ≠ bodyTag C s header iv ciphertext then
        .error .frameMacsAreNotEqual
      else
        match C.aes256CbcPkcs7Decrypt ciphertext s.key iv with
        | .error e => .error (.crypto e)
        | .ok data =>
            .ok (⟨s, seeds ++ [bodyMessage s header iv ciphertext], fields.contentType, data⟩,
              input.drop 16)
    else
      .ok (⟨s, seeds, fields.contentType, ciphertext⟩, input)
  else
    .ok (⟨s, seeds, fields.contentType, []⟩, input)

/-- One frame of the loop in `ConnectionBase::process`, up to the `switch`. -/
def readFrame (garbage : Bytes) (s : RWState) (input : Bytes) :
    Except RpcException (ReadFrame × Bytes) :=
  match readHeader C s input with
  | .error e => .error e
  | .ok header =>
      let fields := FrameFields.read garbage header
      if fields.version ≠ 1 then
        .error (.unsupportedFrameVersion fields.version)
      else
        readBody C s header (input.take s.headerLength) fields (input.drop s.headerLength)

end Frames

/-- What handlers do with a packet of a content type: they change the connection
and their own state, and they may throw. -/
abbrev Handlers (σ : Type) :=
  UInt8 → Bytes → σ × ConnectionBase → (σ × ConnectionBase) × Option RpcException

/-- The `switch` over the content type of a frame. -/
def dispatch {σ : Type} (handle : Handlers σ) (frame : ReadFrame) (state : σ × ConnectionBase) :
    (σ × ConnectionBase) × Option RpcException :=
  if frame.contentType = ContentType.APPLICATION_DATA ∨
      frame.contentType = ContentType.HANDSHAKE then
    handle frame.contentType frame.data state
  else if frame.contentType = ContentType.CHANGE_CIPHER_SPEC then
    if !state.2.nextReadState.initialized then
      (state, some .invalidNextReadState)
    else
      ((state.1, { state.2 with
          readState := state.2.nextReadState
          nextReadState := .empty }), none)
  else if frame.contentType = ContentType.ALERT then
    (state, some (.alert frame.data))
  else
    (state, none)

/-- The outcome of `process`: the state, the frames that were read, and the
exception that ended it. -/
structure Processed (σ : Type) where
  state : σ × ConnectionBase
  frames : List ReadFrame
  error : Option RpcException

/-- The loop in `ConnectionBase::process`.  A read that comes up short leaves
nothing behind, so the loop ends at its next turn whether or not the stream has
noticed its end. -/
def processFrames {σ : Type} (C : RecordPrimitives) (garbage : Bytes) (handle : Handlers σ) :
    Nat → σ × ConnectionBase → Bytes → Processed σ
  | 0, state, _ => ⟨state, [], none⟩
  | fuel + 1, state, input =>
      if input = [] then
        ⟨state, [], none⟩
      else
        let connection :=
          { state.2 with readState := state.2.readState.afterHeader C input }
        match readFrame C garbage state.2.readState input with
        | .error e => ⟨(state.1, connection), [], some e⟩
        | .ok (frame, rest) =>
            match dispatch handle frame (state.1, connection) with
            | (state, some e) => ⟨state, [frame], some e⟩
            | (state, none) =>
                let later := processFrames C garbage handle fuel state rest
                { later with frames := frame :: later.frames }

/-- `ConnectionBase::process`.  Every frame takes a byte at least. -/
def ConnectionBase.process {σ : Type} (C : RecordPrimitives) (garbage : Bytes)
    (handle : Handlers σ) (state : σ × ConnectionBase) (input : Bytes) : Processed σ :=
  processFrames C garbage handle (input.length + 1) state input

/-- The packets that were given to handlers. -/
def ReadFrame.delivered (frames : List ReadFrame) : List (UInt8 × Bytes) :=
  (frames.filter fun f =>
    f.contentType = ContentType.APPLICATION_DATA ∨ f.contentType = ContentType.HANDSHAKE).map
      fun f => (f.contentType, f.data)

/-! ## The loop -/

section Loop

variable {σ : Type} {C : RecordPrimitives} {garbage : Bytes} {handle : Handlers σ}

theorem readBody_length_le {s : RWState} {header iv : Bytes} {fields : FrameFields}
    {input rest : Bytes} {frame : ReadFrame}
    (h : readBody C s header iv fields input = .ok (frame, rest)) :
    rest.length ≤ input.length := by
  unfold readBody at h
  simp only at h
  split at h
  · split at h
    · split at h
      · cases h
      · split at h
        · cases h
        · cases h
          simp only [List.length_drop]
          omega
    · cases h
      simp only [List.length_drop]
      omega
  · cases h
    exact le_refl _

/-- A frame takes a byte at least. -/
theorem readFrame_length_lt {s : RWState} {input rest : Bytes} {frame : ReadFrame}
    (hne : input ≠ []) (h : readFrame C garbage s input = .ok (frame, rest)) :
    rest.length < input.length := by
  have hpos : 0 < input.length := List.length_pos_of_ne_nil hne
  unfold readFrame at h
  split at h
  · cases h
  · simp only at h
    split at h
    · cases h
    · have hle := readBody_length_le h
      rw [List.length_drop] at hle
      have hheader : 8 ≤ s.headerLength := by
        unfold RWState.headerLength
        split
        · omega
        · omega
      omega

theorem processFrames_fuel {n m : Nat} {state : σ × ConnectionBase} {input : Bytes}
    (hn : input.length < n) (hm : input.length < m) :
    processFrames C garbage handle n state input = processFrames C garbage handle m state input := by
  induction n generalizing m state input with
  | zero => omega
  | succ n ih =>
      cases m with
      | zero => omega
      | succ m =>
          simp only [processFrames]
          split
          · rfl
          · rename_i hne
            split
            · rfl
            · rename_i frame rest hread
              have hlt := readFrame_length_lt hne hread
              split
              · rfl
              · rw [ih (m := m) (by omega) (by omega)]

theorem ConnectionBase.process_nil (state : σ × ConnectionBase) :
    ConnectionBase.process C garbage handle state [] = ⟨state, [], none⟩ := rfl

/-- One turn of the loop. -/
theorem ConnectionBase.process_eq (state : σ × ConnectionBase) {input : Bytes} (hne : input ≠ []) :
    ConnectionBase.process C garbage handle state input =
      let connection := { state.2 with readState := state.2.readState.afterHeader C input }
      match readFrame C garbage state.2.readState input with
      | .error e => ⟨(state.1, connection), [], some e⟩
      | .ok (frame, rest) =>
          match dispatch handle frame (state.1, connection) with
          | (state, some e) => ⟨state, [frame], some e⟩
          | (state, none) =>
              let later := ConnectionBase.process C garbage handle state rest
              { later with frames := frame :: later.frames } := by
  rw [ConnectionBase.process, processFrames, if_neg hne]
  simp only
  split
  · rfl
  · rename_i frame rest hread
    have hlt := readFrame_length_lt hne hread
    split
    · rfl
    · rw [ConnectionBase.process, processFrames_fuel (n := input.length) hlt (Nat.lt_succ_self _)]

end Loop

end PrivmxEndpoint
