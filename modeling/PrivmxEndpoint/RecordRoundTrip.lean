import PrivmxEndpoint.RecordLayer

/-!
# Frames are read as they were sent

A sender writes packets, sets its next keys and changes to them with
`changeCipherSpec`, in any order.  A peer that starts with the sender's keys as
its read keys, and whose handlers set up the same next keys, reads exactly the
packets that were sent, however the bytes are cut at frame boundaries
(`ConnectionBase.process_sendSegments`).
-/

namespace PrivmxEndpoint

/-! ## One frame -/

/-- The state after a frame was sent or read. -/
def RWState.after (s : RWState) : RWState :=
  if s.initialized then s.advance else s

section Frame

variable (C : RecordPrimitives)

/-- The frame that a state makes of a packet. -/
def frameOf (s : RWState) (packet : Bytes) (contentType : UInt8) : Bytes :=
  if s.initialized then encryptedFrame C s packet contentType else plainFrame packet contentType

/-- The messages that are tagged for the frame. -/
def taggedMessages (s : RWState) (packet : Bytes) (contentType : UInt8) : List Bytes :=
  if s.initialized then
    let header := frameHeader contentType (paddedFrameLength packet)
    let iv := encryptedHeader C s header
    if 0 < paddedFrameLength packet then
      [frameSeed s header,
        bodyMessage s header iv (C.aes256CbcPkcs7Encrypt packet s.key iv)]
    else
      [frameSeed s header]
  else
    []

end Frame

section Frame

variable {C : RecordPrimitives} {s : RWState} {packet : Bytes} {contentType : UInt8}

/-- What `send` leaves: a frame behind the others and the next number. -/
theorem ConnectionBase.send_eq (c : ConnectionBase) (packet : Bytes) (contentType : UInt8) :
    c.send C packet contentType false =
      { c with
        writeState := c.writeState.after
        output := c.output ++ frameOf C c.writeState packet contentType } := by
  cases h : c.writeState.initialized with
  | true => simp [ConnectionBase.send, RWState.after, frameOf, h]
  | false => simp [ConnectionBase.send, RWState.after, frameOf, h]

/-- The fields are read as they were written. -/
theorem FrameFields.read_frameHeader (garbage : Bytes) (contentType : UInt8) {n : Nat}
    (hn : n < 2 ^ 32) :
    FrameFields.read garbage (frameHeader contentType n) = ⟨1, contentType, n⟩ := by
  have hfour : (BigEndian.bytes 4 n).length = 4 := BigEndian.length_bytes 4 n
  have hlength : (((frameHeader contentType n ++
      garbage.drop (frameHeader contentType n).length).drop 2).take 4) = BigEndian.bytes 4 n := by
    simp only [frameHeader, List.cons_append, List.nil_append, List.drop_succ_cons, List.drop_zero,
      List.append_assoc]
    rw [List.take_append_of_le_length (le_of_eq hfour.symm), List.take_of_length_le (le_of_eq hfour)]
  simp only [FrameFields.read, hlength, BigEndian.value_bytes_of_lt (show n < 256 ^ 4 by omega)]
  rfl

/-- The tag of a header is eight bytes. -/
theorem length_headerTag (s : RWState) (header : Bytes) : (headerTag C s header).length = 8 := by
  simp [headerTag, C.hmacSha256_length]

/-- The tag of a body is sixteen bytes. -/
theorem length_bodyTag (s : RWState) (header iv ciphertext : Bytes) :
    (bodyTag C s header iv ciphertext).length = 16 := by
  simp [bodyTag, C.hmacSha256_length]

/-- An encrypted header is sixteen bytes. -/
theorem length_encryptedHeader (hs : s.initialized = true) {header : Bytes}
    (hheader : header.length = 8) : (encryptedHeader C s header).length = 16 :=
  C.ecb_length _ _ (RWState.key_length hs) (by simp [hheader, length_headerTag])

/-- The length of a body is written in 32 bits. -/
theorem paddedFrameLength_lt (packet : Bytes) : paddedFrameLength packet < 2 ^ 32 := by
  unfold paddedFrameLength
  simp only
  split
  · omega
  · omega

/-- The predicted length is the one of the padded packet. -/
theorem paddedFrameLength_eq (hpacket : packet.length < 2 ^ 32 - 16) (hne : packet ≠ []) :
    paddedFrameLength packet = packet.length + (16 - packet.length % 16) := by
  have hpos : 0 < packet.length := List.length_pos_of_ne_nil hne
  simp only [paddedFrameLength]
  rw [if_pos (by omega)]
  omega

/-- An empty packet has no body. -/
theorem paddedFrameLength_nil : paddedFrameLength [] = 0 := rfl

/-- A header is read back. -/
theorem readHeader_encrypted (hs : s.initialized = true) {header : Bytes}
    (hheader : header.length = 8) (rest : Bytes) :
    readHeader C s (encryptedHeader C s header ++ rest) = .ok header := by
  have hlen := length_encryptedHeader (C := C) hs hheader
  have hplain : C.aes256EcbDecrypt (encryptedHeader C s header) s.key =
      .ok (header ++ headerTag C s header) :=
    C.ecb_decrypt_encrypt _ _ (RWState.key_length hs) (by simp [hheader, length_headerTag])
  have htake : (header ++ headerTag C s header).take 8 = header := by
    rw [← hheader, List.take_left]
  have hdrop : (header ++ headerTag C s header).drop 8 = headerTag C s header := by
    rw [← hheader, List.drop_left]
  have hinput : (encryptedHeader C s header ++ rest).take 16 = encryptedHeader C s header := by
    rw [← hlen, List.take_left]
  simp only [readHeader, hs, if_true, hinput, hplain, htake, hdrop, ne_eq, not_true_eq_false,
    if_false]
  rw [if_neg (by rw [List.length_append, hheader]; omega)]

/-- What follows the header of an encrypted frame. -/
def encryptedBody (C : RecordPrimitives) (s : RWState) (header iv packet : Bytes) : Bytes :=
  if 0 < paddedFrameLength packet then
    C.aes256CbcPkcs7Encrypt packet s.key iv ++
      bodyTag C s header iv (C.aes256CbcPkcs7Encrypt packet s.key iv)
  else
    []

/-- With keys, a frame is an encrypted header and an encrypted body. -/
theorem frameOf_of_initialized (hs : s.initialized = true) :
    frameOf C s packet contentType =
      encryptedHeader C s (frameHeader contentType (paddedFrameLength packet)) ++
        encryptedBody C s (frameHeader contentType (paddedFrameLength packet))
          (encryptedHeader C s (frameHeader contentType (paddedFrameLength packet))) packet := by
  simp only [frameOf, hs, if_true, encryptedFrame, encryptedBody]
  split
  · exact List.append_assoc _ _ _
  · exact (List.append_nil _).symm

/-- A body is read back. -/
theorem readBody_encrypted (hs : s.initialized = true) {iv : Bytes} (hiv : iv.length = 16)
    (hpacket : packet.length < 2 ^ 32 - 16) (header rest : Bytes) :
    readBody C s header iv ⟨1, contentType, paddedFrameLength packet⟩
        (encryptedBody C s header iv packet ++ rest) =
      .ok (⟨s,
        if 0 < paddedFrameLength packet then
          [frameSeed s header, bodyMessage s header iv (C.aes256CbcPkcs7Encrypt packet s.key iv)]
        else
          [frameSeed s header],
        contentType, packet⟩, rest) := by
  by_cases hne : packet = []
  · subst hne
    simp [readBody, encryptedBody, paddedFrameLength_nil, hs]
  · have hlen : (C.aes256CbcPkcs7Encrypt packet s.key iv).length = paddedFrameLength packet := by
      rw [C.aes_length _ _ _ (RWState.key_length hs) hiv, paddedFrameLength_eq hpacket hne]
    have hpos : 0 < paddedFrameLength packet := by
      rw [paddedFrameLength_eq hpacket hne]
      omega
    have htag := length_bodyTag (C := C) s header iv (C.aes256CbcPkcs7Encrypt packet s.key iv)
    have htake : (encryptedBody C s header iv packet ++ rest).take (paddedFrameLength packet) =
        C.aes256CbcPkcs7Encrypt packet s.key iv := by
      rw [encryptedBody, if_pos hpos, List.append_assoc, ← hlen, List.take_left]
    have hdrop : (encryptedBody C s header iv packet ++ rest).drop (paddedFrameLength packet) =
        bodyTag C s header iv (C.aes256CbcPkcs7Encrypt packet s.key iv) ++ rest := by
      rw [encryptedBody, if_pos hpos, List.append_assoc, ← hlen, List.drop_left]
    have hmac : (bodyTag C s header iv (C.aes256CbcPkcs7Encrypt packet s.key iv) ++ rest).take 16 =
        bodyTag C s header iv (C.aes256CbcPkcs7Encrypt packet s.key iv) := by
      rw [← htag, List.take_left]
    have hrest : (bodyTag C s header iv (C.aes256CbcPkcs7Encrypt packet s.key iv) ++ rest).drop 16 =
        rest := by
      rw [← htag, List.drop_left]
    simp only [readBody, hpos, if_true, hs, htake, hdrop, hmac, hrest, ne_eq, not_true_eq_false,
      if_false, C.aes_decrypt_encrypt _ _ _ (RWState.key_length hs) hiv, List.cons_append,
      List.nil_append]

/-- A frame is never shorter than a plain header. -/
theorem le_length_frameOf (s : RWState) (packet : Bytes) (contentType : UInt8) :
    8 ≤ (frameOf C s packet contentType).length := by
  cases hs : s.initialized with
  | false => simp [frameOf, hs, plainFrame]
  | true =>
      have hiv := length_encryptedHeader (C := C) hs
        (length_frameHeader contentType (paddedFrameLength packet))
      rw [frameOf_of_initialized hs, List.length_append, hiv]
      omega

/-- **Reading a frame** gives the packet, the messages that were tagged for it,
and what follows it. -/
theorem readFrame_frameOf (garbage : Bytes) (hpacket : packet.length < 2 ^ 32 - 16)
    (rest : Bytes) :
    readFrame C garbage s (frameOf C s packet contentType ++ rest) =
      .ok (⟨s, taggedMessages C s packet contentType, contentType, packet⟩, rest) := by
  cases hs : s.initialized with
  | false =>
      have hlt : packet.length % 2 ^ 32 = packet.length := Nat.mod_eq_of_lt (by omega)
      have hheader : (frameHeader contentType packet.length).length = 8 := length_frameHeader _ _
      have hframe : frameOf C s packet contentType ++ rest =
          frameHeader contentType packet.length ++ (packet ++ rest) := by
        simp only [frameOf, hs, Bool.false_eq_true, if_false, plainFrame, hlt, List.append_assoc]
      have htake : (frameHeader contentType packet.length ++ (packet ++ rest)).take 8 =
          frameHeader contentType packet.length := by rw [← hheader, List.take_left]
      have hdrop : (frameHeader contentType packet.length ++ (packet ++ rest)).drop 8 =
          packet ++ rest := by rw [← hheader, List.drop_left]
      rw [hframe]
      simp only [readFrame, readHeader, hs, Bool.false_eq_true, if_false, htake,
        FrameFields.read_frameHeader garbage contentType (show packet.length < 2 ^ 32 by omega),
        ne_eq, not_true_eq_false, RWState.headerLength, hdrop, readBody, List.take_left,
        List.drop_left, taggedMessages]
      split
      · rfl
      · rename_i hzero
        have hnil : packet = [] := List.eq_nil_of_length_eq_zero (by omega)
        simp [hnil]
  | true =>
      have hheader : (frameHeader contentType (paddedFrameLength packet)).length = 8 :=
        length_frameHeader _ _
      have hiv := length_encryptedHeader (C := C) hs hheader
      rw [frameOf_of_initialized hs, List.append_assoc]
      rw [readFrame, readHeader_encrypted hs hheader]
      simp only [FrameFields.read_frameHeader garbage contentType (paddedFrameLength_lt packet),
        ne_eq, not_true_eq_false, if_false, RWState.headerLength, hs, if_true]
      rw [List.take_append_of_le_length (le_of_eq hiv.symm), List.take_of_length_le (le_of_eq hiv),
        List.drop_append_of_le_length (le_of_eq hiv.symm), List.drop_of_length_le (le_of_eq hiv),
        List.nil_append, readBody_encrypted hs hiv hpacket]
      simp only [taggedMessages, hs, if_true]

/-- A header that was sent is counted by the reader. -/
theorem afterHeader_frameOf (rest : Bytes) :
    s.afterHeader C (frameOf C s packet contentType ++ rest) = s.after := by
  cases hs : s.initialized with
  | false => simp [RWState.afterHeader, RWState.after, hs]
  | true =>
      have hheader : (frameHeader contentType (paddedFrameLength packet)).length = 8 :=
        length_frameHeader _ _
      have hiv := length_encryptedHeader (C := C) hs hheader
      have hplain := C.ecb_decrypt_encrypt
        (frameHeader contentType (paddedFrameLength packet) ++
          headerTag C s (frameHeader contentType (paddedFrameLength packet)))
        s.key (RWState.key_length hs) (by simp [length_headerTag])
      rw [frameOf_of_initialized hs, List.append_assoc]
      simp only [RWState.afterHeader, RWState.after, hs, if_true]
      rw [List.take_append_of_le_length (le_of_eq hiv.symm), List.take_of_length_le (le_of_eq hiv),
        encryptedHeader, hplain]
      simp only
      rw [if_neg (by simp)]

end Frame

/-! ## Runs of a sender -/

/-- The two kinds of packets. -/
inductive PacketKind
  | applicationData
  | handshake
  deriving Repr, DecidableEq

def PacketKind.contentType : PacketKind → UInt8
  | .applicationData => ContentType.APPLICATION_DATA
  | .handshake => ContentType.HANDSHAKE

/-- What a sender does. -/
inductive SendAction
  | packet (kind : PacketKind) (data : Bytes)
  /-- The next write state is set, by `setPreMasterSecret` or `restoreState`. -/
  | keyChange (next : RWState)
  | changeCipherSpec
  deriving DecidableEq

section Sender

variable (C : RecordPrimitives)

/-- The actions of a sender, one after the other. -/
def sendActions : ConnectionBase → List SendAction → Except RpcException ConnectionBase
  | c, [] => .ok c
  | c, .packet kind data :: actions => sendActions (c.send C data kind.contentType false) actions
  | c, .keyChange next :: actions => sendActions { c with nextWriteState := next } actions
  | c, .changeCipherSpec :: actions =>
      match c.changeCipherSpec C with
      | .error e => .error e
      | .ok c => sendActions c actions

/-- The bytes of each segment of actions.  The output is flushed before a
segment. -/
def sendSegments : ConnectionBase → List (List SendAction) →
    Except RpcException (ConnectionBase × List Bytes)
  | c, [] => .ok (c, [])
  | c, segment :: segments =>
      match sendActions C { c with output := [] } segment with
      | .error e => .error e
      | .ok c' =>
          match sendSegments c' segments with
          | .error e => .error e
          | .ok (last, chunks) => .ok (last, c'.output :: chunks)

/-- `process` is called with one chunk after the other. -/
def processChunks {σ : Type} (garbage : Bytes) (handle : Handlers σ) :
    σ × ConnectionBase → List Bytes → Processed σ
  | state, [] => ⟨state, [], none⟩
  | state, chunk :: chunks =>
      let first := ConnectionBase.process C garbage handle state chunk
      match first.error with
      | some _ => first
      | none =>
          let later := processChunks garbage handle first.state chunks
          { later with frames := first.frames ++ later.frames }

end Sender

/-- The packets of a run. -/
def SendAction.packets (actions : List SendAction) : List (UInt8 × Bytes) :=
  actions.filterMap fun
    | .packet kind data => some (kind.contentType, data)
    | _ => none

/-- The peer's key changes mirror the sender's: its handlers accept the packets
and leave the read state alone, and whenever the sender changes the cipher, the
peer's next read state is the sender's next write state, `next`. -/
def Mirrored {σ : Type} (handle : Handlers σ) :
    RWState → σ × ConnectionBase → List SendAction → Prop
  | _, _, [] => True
  | next, peer, .packet kind data :: actions =>
      let received := { peer.2 with readState := peer.2.readState.after }
      let reaction := handle kind.contentType data (peer.1, received)
      reaction.2 = none ∧ reaction.1.2.readState = received.readState ∧
        Mirrored handle next reaction.1 actions
  | _, peer, .keyChange next :: actions => Mirrored handle next peer actions
  | next, peer, .changeCipherSpec :: actions =>
      next.initialized = true ∧ peer.2.nextReadState = next ∧
        Mirrored handle .empty
          (peer.1, { peer.2 with readState := next, nextReadState := .empty }) actions

/-- Packets have the lengths that the record layer can carry. -/
def SendAction.Fits : SendAction → Prop
  | .packet _ data => data.length < 2 ^ 32 - 16
  | _ => True

section Runs

variable {σ : Type} {C : RecordPrimitives} {garbage : Bytes} {handle : Handlers σ}

/-- The frames are put in front of a later outcome. -/
def Processed.prepend (frames : List ReadFrame) (p : Processed σ) : Processed σ :=
  { p with frames := frames ++ p.frames }

/-- Reading a frame that was sent is one turn of the loop. -/
theorem ConnectionBase.process_frameOf {peer peer' : σ × ConnectionBase} {packet : Bytes}
    {contentType : UInt8} (hpacket : packet.length < 2 ^ 32 - 16)
    (hdispatch : dispatch handle
      ⟨peer.2.readState, taggedMessages C peer.2.readState packet contentType, contentType, packet⟩
      (peer.1, { peer.2 with readState := peer.2.readState.after }) = (peer', none))
    (more : Bytes) :
    ConnectionBase.process C garbage handle peer
        (frameOf C peer.2.readState packet contentType ++ more) =
      (ConnectionBase.process C garbage handle peer' more).prepend
        [⟨peer.2.readState, taggedMessages C peer.2.readState packet contentType, contentType,
          packet⟩] := by
  have hne : frameOf C peer.2.readState packet contentType ++ more ≠ [] := by
    intro h
    have hnil := (List.append_eq_nil_iff.mp h).1
    have hlen := le_length_frameOf (C := C) peer.2.readState packet contentType
    rw [hnil] at hlen
    exact absurd hlen (by decide)
  rw [ConnectionBase.process_eq _ hne, readFrame_frameOf garbage hpacket, afterHeader_frameOf]
  simp only [hdispatch]
  rfl

/-- Data and packets go to their handler. -/
theorem dispatch_packet (kind : PacketKind) (s : RWState) (verified : List Bytes) (data : Bytes)
    (state : σ × ConnectionBase) :
    dispatch handle ⟨s, verified, kind.contentType, data⟩ state =
      handle kind.contentType data state := by
  rw [dispatch, if_pos]
  cases kind with
  | applicationData => exact Or.inl rfl
  | handshake => exact Or.inr rfl

/-- A change of cipher specs goes to no handler, and the next keys are taken. -/
theorem dispatch_changeCipherSpec (s : RWState) (verified : List Bytes) (data : Bytes)
    {state : σ × ConnectionBase} (hnext : state.2.nextReadState.initialized = true) :
    dispatch handle ⟨s, verified, ContentType.CHANGE_CIPHER_SPEC, data⟩ state =
      ((state.1, { state.2 with
        readState := state.2.nextReadState
        nextReadState := .empty }), none) := by
  rw [dispatch, if_neg (show ¬ (ContentType.CHANGE_CIPHER_SPEC = ContentType.APPLICATION_DATA ∨
    ContentType.CHANGE_CIPHER_SPEC = ContentType.HANDSHAKE) by decide), if_pos rfl, hnext]
  rfl

/-- What is delivered, of two parts. -/
theorem ReadFrame.delivered_append (a b : List ReadFrame) :
    ReadFrame.delivered (a ++ b) = ReadFrame.delivered a ++ ReadFrame.delivered b := by
  simp [ReadFrame.delivered]

/-- A packet is delivered with its type. -/
theorem ReadFrame.delivered_packet (kind : PacketKind) (s : RWState) (verified : List Bytes)
    (data : Bytes) :
    ReadFrame.delivered [⟨s, verified, kind.contentType, data⟩] = [(kind.contentType, data)] := by
  cases kind with
  | applicationData => rfl
  | handshake => rfl

/-- What has been read before comes in front. -/
theorem Processed.prepend_prepend (a b : List ReadFrame) (p : Processed σ) :
    (p.prepend b).prepend a = p.prepend (a ++ b) := by
  simp [Processed.prepend]

/-- What the actions of a sender do to both sides: the sender writes `bytes`, and
the peer reads them as `frames`. -/
structure Carries (C : RecordPrimitives) (handle : Handlers σ) (sender : ConnectionBase)
    (peer : σ × ConnectionBase) (actions : List SendAction) (sender' : ConnectionBase)
    (peer' : σ × ConnectionBase) (bytes : Bytes) (frames : List ReadFrame) : Prop where
  sent : ∀ output, sendActions C { sender with output := output } actions =
    .ok { sender' with output := output ++ bytes }
  keys : peer'.2.readState = sender'.writeState
  delivered : ReadFrame.delivered frames = SendAction.packets actions
  read : ∀ garbage more, ConnectionBase.process C garbage handle peer (bytes ++ more) =
    (ConnectionBase.process C garbage handle peer' more).prepend frames

/-- **One run.**  By induction on the actions: the peer's read state is the
sender's write state throughout. -/
theorem carries_of_mirrored {actions rest : List SendAction} (sender : ConnectionBase)
    {peer : σ × ConnectionBase} (hkeys : peer.2.readState = sender.writeState)
    (hmirror : Mirrored handle sender.nextWriteState peer (actions ++ rest))
    (hfits : ∀ a ∈ actions, a.Fits) :
    ∃ sender' peer' bytes frames,
      Carries C handle sender peer actions sender' peer' bytes frames ∧
        Mirrored handle sender'.nextWriteState peer' rest := by
  induction actions generalizing sender peer with
  | nil =>
      refine ⟨sender, peer, [], [], ⟨fun output => ?_, hkeys, rfl, fun garbage more => rfl⟩,
        hmirror⟩
      rw [List.append_nil]
      rfl
  | cons action actions ih =>
      have hrest := fun a ha => hfits a (List.mem_cons_of_mem _ ha)
      cases action with
      | packet kind data =>
          obtain ⟨hnone, hread, hmirror⟩ := hmirror
          have hfit : data.length < 2 ^ 32 - 16 := hfits _ List.mem_cons_self
          obtain ⟨sender', peer', bytes, frames, hcarries, hlater⟩ :=
            ih (sender.send C data kind.contentType false)
              (by rw [hread, ConnectionBase.send_eq, hkeys])
              (by rw [ConnectionBase.send_eq]; exact hmirror) hrest
          refine ⟨sender', peer', frameOf C sender.writeState data kind.contentType ++ bytes,
            ⟨peer.2.readState, taggedMessages C peer.2.readState data kind.contentType,
              kind.contentType, data⟩ :: frames, ⟨fun output => ?_, hcarries.keys, ?_, ?_⟩, hlater⟩
          · have hsent := hcarries.sent
              (output ++ frameOf C sender.writeState data kind.contentType)
            rw [sendActions, ConnectionBase.send_eq, ← List.append_assoc]
            rw [ConnectionBase.send_eq] at hsent
            exact hsent
          · have hcons := ReadFrame.delivered_append [⟨peer.2.readState,
              taggedMessages C peer.2.readState data kind.contentType, kind.contentType, data⟩] frames
            rw [List.singleton_append] at hcons
            rw [hcons, ReadFrame.delivered_packet, hcarries.delivered]
            rfl
          · intro garbage more
            rw [List.append_assoc, ← hkeys, ConnectionBase.process_frameOf hfit
              (by rw [dispatch_packet]; exact Prod.ext rfl hnone), hcarries.read,
              Processed.prepend_prepend]
            rfl
      | keyChange next =>
          obtain ⟨sender', peer', bytes, frames, hcarries, hlater⟩ :=
            ih { sender with nextWriteState := next } hkeys hmirror hrest
          exact ⟨sender', peer', bytes, frames,
            ⟨hcarries.sent, hcarries.keys, hcarries.delivered, hcarries.read⟩, hlater⟩
      | changeCipherSpec =>
          obtain ⟨hinit, hnext, hmirror⟩ := hmirror
          obtain ⟨sender', peer', bytes, frames, hcarries, hlater⟩ :=
            ih { sender with
                writeState := sender.nextWriteState
                nextWriteState := .empty } rfl hmirror hrest
          refine ⟨sender', peer', frameOf C sender.writeState [] ContentType.CHANGE_CIPHER_SPEC ++
              bytes,
            ⟨peer.2.readState, taggedMessages C peer.2.readState [] ContentType.CHANGE_CIPHER_SPEC,
              ContentType.CHANGE_CIPHER_SPEC, []⟩ :: frames,
            ⟨fun output => ?_, hcarries.keys, ?_, ?_⟩, hlater⟩
          · have hsent := hcarries.sent
              (output ++ frameOf C sender.writeState [] ContentType.CHANGE_CIPHER_SPEC)
            rw [← List.append_assoc, ← hsent]
            simp only [sendActions, ConnectionBase.changeCipherSpec, hinit, ConnectionBase.send_eq]
            rfl
          · exact hcarries.delivered
          · intro garbage more
            rw [List.append_assoc, ← hkeys, ConnectionBase.process_frameOf (by decide)
              (dispatch_changeCipherSpec _ _ _ (by rw [hnext]; exact hinit)), hnext, hcarries.read,
              Processed.prepend_prepend]
            rfl

/-- What is sent in two parts. -/
theorem sendActions_append (c : ConnectionBase) (first later : List SendAction) :
    sendActions C c (first ++ later) =
      match sendActions C c first with
      | .error e => .error e
      | .ok c' => sendActions C c' later := by
  induction first generalizing c with
  | nil => rfl
  | cons action first ih =>
      cases action with
      | packet kind data => exact ih _
      | keyChange next => exact ih _
      | changeCipherSpec =>
          simp only [List.cons_append, sendActions]
          split
          · rfl
          · exact ih _

end Runs

/-- **The record layer carries packets.**  Segments of send actions, with key
changes that the peer mirrors, arrive as the packets that were sent, in order,
whether the peer is given all the bytes at once or segment by segment.  The
bytes are read to their end (whatever follows them is read from its start), and
the peer's read state is the sender's write state, its sequence number
included. -/
theorem ConnectionBase.process_sendSegments {σ : Type} (C : RecordPrimitives) (garbage : Bytes)
    (handle : Handlers σ) (sender : ConnectionBase) (peer : σ × ConnectionBase)
    (segments : List (List SendAction)) (hkeys : peer.2.readState = sender.writeState)
    (hmirror : Mirrored handle sender.nextWriteState peer segments.flatten)
    (hfits : ∀ a ∈ segments.flatten, a.Fits) :
    ∃ sender' chunks peer' frames,
      sendSegments C sender segments = .ok (sender', chunks) ∧
        sendActions C { sender with output := [] } segments.flatten =
          .ok { sender' with output := chunks.flatten } ∧
        ConnectionBase.process C garbage handle peer chunks.flatten = ⟨peer', frames, none⟩ ∧
        processChunks C garbage handle peer chunks = ⟨peer', frames, none⟩ ∧
        (∀ more, ConnectionBase.process C garbage handle peer (chunks.flatten ++ more) =
          (ConnectionBase.process C garbage handle peer' more).prepend frames) ∧
        ReadFrame.delivered frames = SendAction.packets segments.flatten ∧
        peer'.2.readState = sender'.writeState := by
  suffices h : ∃ sender' chunks peer' frames,
      sendSegments C sender segments = .ok (sender', chunks) ∧
        processChunks C garbage handle peer chunks = ⟨peer', frames, none⟩ ∧
        Carries C handle sender peer segments.flatten sender' peer' chunks.flatten frames by
    obtain ⟨sender', chunks, peer', frames, hsegments, hchunks, hcarries⟩ := h
    refine ⟨sender', chunks, peer', frames, hsegments, hcarries.sent [], ?_, hchunks,
      hcarries.read garbage, hcarries.delivered, hcarries.keys⟩
    have hread := hcarries.read garbage []
    rw [List.append_nil, ConnectionBase.process_nil] at hread
    rw [hread]
    simp [Processed.prepend]
  induction segments generalizing sender peer with
  | nil =>
      refine ⟨sender, [], peer, [], rfl, rfl, fun output => ?_, hkeys, rfl, fun _ _ => rfl⟩
      rw [List.flatten_nil, List.flatten_nil, List.append_nil]
      rfl
  | cons segment segments ih =>
      rw [List.flatten_cons] at hmirror hfits
      obtain ⟨middle, peerM, bytes, frames, hfirst, hmirror⟩ := carries_of_mirrored (C := C) sender hkeys
        hmirror fun a ha => hfits a (List.mem_append_left _ ha)
      obtain ⟨last, chunks, peer', later, hsegments, hchunks, hcarries⟩ :=
        ih { middle with output := bytes } peerM hfirst.keys hmirror
          fun a ha => hfits a (List.mem_append_right _ ha)
      refine ⟨last, bytes :: chunks, peer', frames ++ later, ?_, ?_, ?_, hcarries.keys, ?_, ?_⟩
      · simp only [sendSegments, hfirst.sent [], List.nil_append, hsegments]
      · have hread := hfirst.read garbage []
        rw [List.append_nil, ConnectionBase.process_nil] at hread
        simp only [processChunks, hread, Processed.prepend, hchunks, List.append_nil]
      · intro output
        have hlater := hcarries.sent (output ++ bytes)
        rw [List.flatten_cons, sendActions_append, hfirst.sent output]
        simp only
        rw [List.flatten_cons, ← List.append_assoc]
        exact hlater
      · rw [ReadFrame.delivered_append, hfirst.delivered, hcarries.delivered]
        simp [SendAction.packets]
      · intro g more
        rw [List.flatten_cons, List.append_assoc, hfirst.read, hcarries.read,
          Processed.prepend_prepend]

/-! ## A run -/

/-- Blocks are left as they are. -/
def sampleRecordPrimitives : RecordPrimitives where
  toPrimitives := samplePrimitives
  aes256EcbEncrypt d _ := d
  aes256EcbDecrypt d _ := if d.length % 16 = 0 then .ok d else .error .crypto
  ecb_length _ _ _ hd := hd
  ecb_decrypt_encrypt d _ _ hd := if_pos (by rw [hd])
  ecb_decrypt_length d k p h := by
    split at h
    · rename_i hd
      cases h
      exact ⟨hd, rfl⟩
    · cases h

/-- Keys made of one byte. -/
def sampleRWState (b : UInt8) : RWState :=
  .ofKeys (List.replicate 32 b) (List.replicate 32 b) List.length_replicate List.length_replicate

/-- A connection with keys for both directions. -/
def sampleSecureConnection (b : UInt8) : ConnectionBase :=
  ⟨sampleRWState b, sampleRWState b, .empty, .empty, []⟩

/-- A handshake packet sets the next read keys to the byte in it. -/
def sampleHandlers : Handlers Unit := fun contentType data state =>
  if contentType = ContentType.HANDSHAKE then
    ((state.1, { state.2 with nextReadState := sampleRWState (data.headD 0) }), none)
  else
    (state, none)

/-- Two segments, with a change of the keys in the second one. -/
theorem ConnectionBase.process_sendSegments_sample :
    ∃ sender' chunks peer' frames,
      sendSegments sampleRecordPrimitives (sampleSecureConnection 1)
          [[.packet .handshake [2], .keyChange (sampleRWState 2)],
            [.changeCipherSpec, .packet .applicationData [5, 6], .packet .applicationData []]] =
          .ok (sender', chunks) ∧
        processChunks sampleRecordPrimitives [] sampleHandlers ((), sampleSecureConnection 1) chunks =
          ⟨peer', frames, none⟩ ∧
        ReadFrame.delivered frames =
          [(ContentType.HANDSHAKE, [2]), (ContentType.APPLICATION_DATA, [5, 6]),
            (ContentType.APPLICATION_DATA, [])] ∧
        peer'.2.readState = sender'.writeState := by
  obtain ⟨sender', chunks, peer', frames, hsegments, -, -, hchunks, -, hdelivered, hkeys⟩ :=
    ConnectionBase.process_sendSegments sampleRecordPrimitives [] sampleHandlers
      (sampleSecureConnection 1) ((), sampleSecureConnection 1)
      [[.packet .handshake [2], .keyChange (sampleRWState 2)],
        [.changeCipherSpec, .packet .applicationData [5, 6], .packet .applicationData []]]
      rfl ⟨rfl, rfl, rfl, rfl, rfl, rfl, rfl, rfl, trivial⟩
      (by
        intro a ha
        fin_cases ha
        · exact (by decide : 1 < 2 ^ 32 - 16)
        · trivial
        · trivial
        · exact (by decide : 2 < 2 ^ 32 - 16)
        · exact (by decide : 0 < 2 ^ 32 - 16))
  exact ⟨sender', chunks, peer', frames, hsegments, hchunks, hdelivered, hkeys⟩

end PrivmxEndpoint
