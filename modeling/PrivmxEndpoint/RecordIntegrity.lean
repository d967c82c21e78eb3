import PrivmxEndpoint.RecordRoundTrip

/-!
# Nobody changes the frames on their way

The tags of frames are taken to be ideal: a tag that `process` accepts is one
that the sender made for the same message, under the same key.  Then whatever
stream the peer gets, it is given a prefix of the packets that were sent
(`ConnectionBase.process_integrity`), and a stream that ends inside a frame ends
in an exception.

Two things are needed of the sender.  No key and sequence number may be used for
two frames, and no packet may be so long that its padded length is zero in 32
bits: such a packet is sent without its body and arrives empty.
-/

namespace PrivmxEndpoint

/-- A frame that was sent, with the write state before it. -/
structure SentFrame where
  state : RWState
  contentType : UInt8
  packet : Bytes
  deriving DecidableEq

/-- The frames of a run, from a write state and a next write state. -/
def sentFrames : RWState → RWState → List SendAction → List SentFrame
  | _, _, [] => []
  | write, next, .packet kind data :: actions =>
      ⟨write, kind.contentType, data⟩ :: sentFrames write.after next actions
  | write, _, .keyChange next :: actions => sentFrames write next actions
  | write, next, .changeCipherSpec :: actions =>
      ⟨write, ContentType.CHANGE_CIPHER_SPEC, []⟩ :: sentFrames next .empty actions

/-- The write state after a run. -/
def finalState : RWState → RWState → List SendAction → RWState
  | write, _, [] => write
  | write, next, .packet _ _ :: actions => finalState write.after next actions
  | write, _, .keyChange next :: actions => finalState write next actions
  | _, next, .changeCipherSpec :: actions => finalState next .empty actions

/-- What a tag depends on besides the frame. -/
def RWState.position (s : RWState) : Bytes × Nat :=
  (s.macKey, s.sequenceNumber % 2 ^ 64)

/-- The positions of the frames of a run and of the frame that would come
next. -/
def positions (write next : RWState) (actions : List SendAction) : List (Bytes × Nat) :=
  (sentFrames write next actions).map (fun f => f.state.position) ++
    [(finalState write next actions).position]

/-- The bytes of a frame. -/
def SentFrame.bytes (C : RecordPrimitives) (f : SentFrame) : Bytes :=
  frameOf C f.state f.packet f.contentType

/-- The messages that were tagged for it. -/
def SentFrame.tagged (C : RecordPrimitives) (f : SentFrame) : List Bytes :=
  taggedMessages C f.state f.packet f.contentType

/-- **Ideal tags.**  Every tag that was accepted was made by the sender for the
same message under the same key. -/
def Unforged (C : RecordPrimitives) (sent : List SentFrame) (frames : List ReadFrame) : Prop :=
  ∀ f ∈ frames, ∀ m ∈ f.verified, ∃ g ∈ sent, g.state.macKey = f.readState.macKey ∧ m ∈ g.tagged C

/-- The packet is sent with its body. -/
def SendAction.Kept : SendAction → Prop
  | .packet _ data => paddedFrameLength data = 0 → data = []
  | _ => True

/-- As `Mirrored`, for handlers that may throw. -/
def Follows {σ : Type} (handle : Handlers σ) :
    RWState → σ × ConnectionBase → List SendAction → Prop
  | _, _, [] => True
  | next, peer, .packet kind data :: actions =>
      let received := { peer.2 with readState := peer.2.readState.after }
      let reaction := handle kind.contentType data (peer.1, received)
      reaction.2 = none → reaction.1.2.readState = received.readState ∧
        Follows handle next reaction.1 actions
  | _, peer, .keyChange next :: actions => Follows handle next peer actions
  | next, peer, .changeCipherSpec :: actions =>
      next.initialized = true ∧ peer.2.nextReadState = next ∧
        Follows handle .empty
          (peer.1, { peer.2 with readState := next, nextReadState := .empty }) actions

/-! ## Messages -/

section Messages

variable {C : RecordPrimitives} {s t : RWState}

/-- A message tells the position and the header of its frame. -/
theorem frameSeed_inj {header header' rest rest' : Bytes} (hheader : header.length = 8)
    (hheader' : header'.length = 8)
    (h : frameSeed s header ++ rest = frameSeed t header' ++ rest') :
    s.sequenceNumber % 2 ^ 64 = t.sequenceNumber % 2 ^ 64 ∧ header = header' ∧ rest = rest' := by
  obtain ⟨hseed, hrest⟩ := List.append_inj h (by simp [hheader, hheader'])
  obtain ⟨hnumber, hheaders⟩ := List.append_inj hseed (by simp)
  have hvalue := congrArg BigEndian.value hnumber
  rw [BigEndian.value_bytes, BigEndian.value_bytes] at hvalue
  exact ⟨by simpa using hvalue, hheaders, hrest⟩

/-- The header of a frame that was sent. -/
def SentFrame.header (g : SentFrame) : Bytes :=
  frameHeader g.contentType (paddedFrameLength g.packet)

/-- Its initialization vector. -/
def SentFrame.iv (C : RecordPrimitives) (g : SentFrame) : Bytes :=
  encryptedHeader C g.state g.header

/-- Its encrypted packet. -/
def SentFrame.ciphertext (C : RecordPrimitives) (g : SentFrame) : Bytes :=
  C.aes256CbcPkcs7Encrypt g.packet g.state.key (g.iv C)

/-- A plain header is eight bytes. -/
theorem SentFrame.length_header (g : SentFrame) : g.header.length = 8 :=
  length_frameHeader _ _

/-- What is tagged with the keys of a frame: its header, and its body if it has one. -/
theorem SentFrame.mem_tagged {g : SentFrame} {m : Bytes} (h : m ∈ g.tagged C) :
    g.state.initialized = true ∧ (m = frameSeed g.state g.header ∨
      (0 < paddedFrameLength g.packet ∧
        m = frameSeed g.state g.header ++ g.iv C ++ g.ciphertext C)) := by
  unfold SentFrame.tagged taggedMessages at h
  split at h
  · rename_i hs
    refine ⟨hs, ?_⟩
    split at h
    · rename_i hpos
      rcases List.mem_cons.mp h with h | h
      · exact Or.inl h
      · exact Or.inr ⟨hpos, List.mem_singleton.mp h⟩
    · exact Or.inl (List.mem_singleton.mp h)
  · exact absurd h List.not_mem_nil

/-- A message of sixteen bytes is the seed of a frame. -/
theorem SentFrame.of_frameSeed_mem {g : SentFrame} {header : Bytes} (hheader : header.length = 8)
    (h : frameSeed s header ∈ g.tagged C) :
    s.sequenceNumber % 2 ^ 64 = g.state.sequenceNumber % 2 ^ 64 ∧ header = g.header := by
  obtain ⟨hs, hseed | ⟨-, hbody⟩⟩ := SentFrame.mem_tagged h
  · have hboth : frameSeed s header ++ [] = frameSeed g.state g.header ++ [] := by rw [hseed]
    obtain ⟨hnumber, hheaders, -⟩ := frameSeed_inj hheader g.length_header hboth
    exact ⟨hnumber, hheaders⟩
  · have hlen := congrArg List.length hbody
    have hiv : (g.iv C).length = 16 := length_encryptedHeader hs g.length_header
    simp only [length_frameSeed, List.length_append, hheader, g.length_header, hiv] at hlen
    omega

/-- A longer message is the one for the body of a frame. -/
theorem SentFrame.of_bodyMessage_mem {g : SentFrame} {header iv ciphertext : Bytes}
    (hheader : header.length = 8) (hiv : iv.length = 16)
    (h : bodyMessage s header iv ciphertext ∈ g.tagged C) :
    s.sequenceNumber % 2 ^ 64 = g.state.sequenceNumber % 2 ^ 64 ∧ iv = g.iv C ∧
      ciphertext = g.ciphertext C := by
  obtain ⟨hs, hseed | ⟨-, hbody⟩⟩ := SentFrame.mem_tagged h
  · have hlen := congrArg List.length hseed
    simp only [bodyMessage, length_frameSeed, List.length_append, hheader, g.length_header,
      hiv] at hlen
    omega
  · rw [bodyMessage, List.append_assoc, List.append_assoc] at hbody
    obtain ⟨hnumber, -, hrest⟩ := frameSeed_inj hheader g.length_header hbody
    obtain ⟨hivs, hciphertexts⟩ := List.append_inj hrest
      (by rw [hiv, SentFrame.iv, length_encryptedHeader hs g.length_header])
    exact ⟨hnumber, hivs, hciphertexts⟩

/-- The length of a frame. -/
theorem SentFrame.length_bytes {g : SentFrame} (hs : g.state.initialized = true) :
    (g.bytes C).length =
      16 + if 0 < paddedFrameLength g.packet then (g.ciphertext C).length + 16 else 0 := by
  have hiv : (g.iv C).length = 16 := length_encryptedHeader hs g.length_header
  rw [SentFrame.bytes, frameOf_of_initialized hs, List.length_append, encryptedBody]
  congr 1
  split
  · rw [List.length_append, length_bodyTag]
    rfl
  · rfl

end Messages

/-! ## One frame -/

section Frame

variable {C : RecordPrimitives} {garbage : Bytes} {s : RWState} {stream rest : Bytes}
  {frame : ReadFrame}

/-- What reading a frame has checked, for a state with keys. -/
structure Checked (C : RecordPrimitives) (garbage : Bytes) (s : RWState) (stream header : Bytes)
    (frame : ReadFrame) (rest : Bytes) : Prop where
  header_length : header.length = 8
  iv_length : (stream.take 16).length = 16
  readState : frame.readState = s
  seed_verified : frameSeed s header ∈ frame.verified
  contentType : frame.contentType = (FrameFields.read garbage header).contentType
  body : ((FrameFields.read garbage header).frameLength = 0 ∧ frame.data = [] ∧
      rest = stream.drop 16) ∨
    (0 < (FrameFields.read garbage header).frameLength ∧ ∃ ciphertext tag,
      stream.drop 16 = ciphertext ++ (tag ++ rest) ∧ tag.length = 16 ∧
        bodyMessage s header (stream.take 16) ciphertext ∈ frame.verified ∧
        C.aes256CbcPkcs7Decrypt ciphertext s.key (stream.take 16) = .ok frame.data)

/-- The header that was decrypted. -/
theorem readHeader_ok (hs : s.initialized = true) (hne : stream ≠ []) {header : Bytes}
    (h : readHeader C s stream = .ok header) :
    header.length = 8 ∧ (stream.take 16).length = 16 := by
  unfold readHeader at h
  rw [if_pos hs] at h
  split at h
  · cases h
  · rename_i plain hplain
    obtain ⟨hblocks, hlen⟩ := C.ecb_decrypt_length _ _ _ hplain
    split at h
    · cases h
    · rename_i hlong
      split at h
      · cases h
      · cases h
        have hpos := List.length_pos_of_ne_nil hne
        rw [List.length_take] at hblocks hlen ⊢
        rw [List.length_take]
        omega

/-- A body that is accepted bears the tag of its header, of its vector and of its text. -/
theorem readBody_ok (hs : s.initialized = true) {header iv : Bytes} {fields : FrameFields}
    {input : Bytes} (h : readBody C s header iv fields input = .ok (frame, rest)) :
    frame.readState = s ∧ frameSeed s header ∈ frame.verified ∧
      frame.contentType = fields.contentType ∧
      ((fields.frameLength = 0 ∧ frame.data = [] ∧ rest = input) ∨
        (0 < fields.frameLength ∧ ∃ ciphertext tag, input = ciphertext ++ (tag ++ rest) ∧
          tag.length = 16 ∧ bodyMessage s header iv ciphertext ∈ frame.verified ∧
          C.aes256CbcPkcs7Decrypt ciphertext s.key iv = .ok frame.data)) := by
  unfold readBody at h
  simp only [hs, if_true] at h
  split at h
  · rename_i hpos
    split at h
    · cases h
    · rename_i htag
      split at h
      · cases h
      · rename_i data hdata
        cases h
        refine ⟨rfl, by simp, rfl, Or.inr ⟨hpos, input.take fields.frameLength,
          (input.drop fields.frameLength).take 16, ?_, ?_, by simp, hdata⟩⟩
        · rw [List.take_append_drop, List.take_append_drop]
        · rw [not_not.mp htag, length_bodyTag]
  · rename_i hzero
    cases h
    exact ⟨rfl, by simp, rfl, Or.inl ⟨by omega, rfl, rfl⟩⟩

/-- A frame that is accepted has been checked. -/
theorem readFrame_checked (hs : s.initialized = true) (hne : stream ≠ [])
    (h : readFrame C garbage s stream = .ok (frame, rest)) :
    ∃ header, Checked C garbage s stream header frame rest := by
  unfold readFrame at h
  split at h
  · cases h
  · rename_i header hheader
    obtain ⟨hheaderLength, hiv⟩ := readHeader_ok hs hne hheader
    simp only at h
    split at h
    · cases h
    · simp only [RWState.headerLength, hs, if_true] at h
      obtain ⟨hstate, hseed, htype, hbody⟩ := readBody_ok hs h
      exact ⟨header, hheaderLength, hiv, hstate, hseed, htype, hbody⟩

/-- The seed of a frame is the one of a frame that was sent from the same
position. -/
theorem Checked.seed {header : Bytes} (h : Checked C garbage s stream header frame rest)
    {all : List SentFrame} (hunforged : Unforged C all [frame]) :
    ∃ g ∈ all, g.state.position = s.position ∧ g.state.initialized = true ∧ header = g.header := by
  obtain ⟨g, hg, hkey, hmem⟩ := hunforged frame List.mem_cons_self _ h.seed_verified
  obtain ⟨hnumber, hheader⟩ := SentFrame.of_frameSeed_mem h.header_length hmem
  refine ⟨g, hg, ?_, (SentFrame.mem_tagged hmem).1, hheader⟩
  rw [RWState.position, RWState.position, hkey, h.readState, hnumber]

/-- **One frame is authentic.**  If the tags of a frame are the sender's, and only
`sent` was sent under the key and the sequence number of the state, then the
frame is `sent`. -/
theorem Checked.authentic {header : Bytes} (h : Checked C garbage s stream header frame rest)
    {all : List SentFrame} (sent : SentFrame) (hsent : sent.state = s)
    (hunforged : Unforged C all [frame])
    (hunique : ∀ g ∈ all, g.state.position = s.position → g = sent)
    (hkept : paddedFrameLength sent.packet = 0 → sent.packet = []) :
    frame.contentType = sent.contentType ∧ frame.data = sent.packet ∧
      stream.length = (sent.bytes C).length + rest.length := by
  obtain ⟨g, hg, hposition, hinit, hheader⟩ := h.seed hunforged
  have hgs := hunique g hg hposition
  subst hgs
  have hfields : FrameFields.read garbage header =
      ⟨1, g.contentType, paddedFrameLength g.packet⟩ := by
    rw [hheader]
    exact FrameFields.read_frameHeader garbage g.contentType (paddedFrameLength_lt g.packet)
  have hsplit : stream.length = 16 + (stream.drop 16).length := by
    have hiv := h.iv_length
    rw [List.length_take] at hiv
    rw [List.length_drop]
    omega
  have hlength := SentFrame.length_bytes (C := C) hinit
  have htype := h.contentType
  rw [hfields] at htype
  refine ⟨htype, ?_⟩
  rcases h.body with ⟨hzero, hdata, hrest⟩ | ⟨hpos, ciphertext, tag, hinput, htag, hmem, hdecrypt⟩
  · rw [hfields] at hzero
    have hzero : paddedFrameLength g.packet = 0 := hzero
    refine ⟨by rw [hdata, hkept hzero], ?_⟩
    rw [hlength, if_neg (by omega), hrest, hsplit]
  · rw [hfields] at hpos
    have hpos : 0 < paddedFrameLength g.packet := hpos
    obtain ⟨g', hg', hkey, hmem⟩ := hunforged frame List.mem_cons_self _ hmem
    obtain ⟨hnumber, hiv, hciphertext⟩ :=
      SentFrame.of_bodyMessage_mem h.header_length h.iv_length hmem
    have hgg : g' = g := by
      refine hunique g' hg' ?_
      rw [RWState.position, RWState.position, hkey, h.readState, hnumber]
    subst hgg
    have hplain : C.aes256CbcPkcs7Decrypt (g'.ciphertext C) g'.state.key (g'.iv C) =
        .ok g'.packet :=
      C.aes_decrypt_encrypt _ _ _ (RWState.key_length hinit)
        (length_encryptedHeader hinit g'.length_header)
    rw [hiv, hciphertext, ← hsent, hplain] at hdecrypt
    refine ⟨(Except.ok.inj hdecrypt).symm, ?_⟩
    rw [hlength, if_pos hpos, hsplit, hinput]
    simp only [List.length_append, htag, hciphertext]
    omega

end Frame

/-! ## Runs -/

section Runs

variable {σ : Type} {C : RecordPrimitives} {garbage : Bytes} {handle : Handlers σ}

/-- Counting does not lose the keys. -/
theorem initialized_after {s : RWState} (h : s.initialized = true) :
    s.after.initialized = true := by
  rw [RWState.after, if_pos h]
  exact h

/-- The first position is one of those that are used. -/
theorem position_mem (write next : RWState) (actions : List SendAction) :
    write.position ∈ positions write next actions := by
  induction actions generalizing next with
  | nil => exact List.mem_singleton_self _
  | cons action actions ih =>
      cases action with
      | packet kind data => exact List.mem_cons_self
      | keyChange n => exact ih n
      | changeCipherSpec => exact List.mem_cons_self

/-- What is shown of an outcome: a prefix of the packets was delivered, and without
an exception the stream has the length of whole frames. -/
structure Sound (C : RecordPrimitives) (write next : RWState) (actions : List SendAction)
    (stream : Bytes) (outcome : Processed σ) : Prop where
  delivered : ReadFrame.delivered outcome.frames <+: SendAction.packets actions
  length_eq : outcome.error = none → ∃ k, stream.length =
    (((sentFrames write next actions).take k).flatMap (SentFrame.bytes C)).length

/-- Where an exception comes first, nothing was delivered. -/
theorem sound_of_error {write next : RWState} {actions : List SendAction} {stream : Bytes}
    {state : σ × ConnectionBase} {e : RpcException} :
    Sound C write next actions stream (⟨state, [], some e⟩ : Processed σ) :=
  ⟨List.nil_prefix, fun h => absurd h (by simp)⟩

/-- At the end of the stream there is nothing to deliver. -/
theorem sound_of_nil {write next : RWState} {actions : List SendAction}
    {state : σ × ConnectionBase} :
    Sound C write next actions [] (⟨state, [], none⟩ : Processed σ) :=
  ⟨List.nil_prefix, fun _ => ⟨0, rfl⟩⟩

/-- A header that was read is counted. -/
theorem afterHeader_of_readFrame {s : RWState} {stream rest : Bytes} {frame : ReadFrame}
    (h : readFrame C garbage s stream = .ok (frame, rest)) :
    s.afterHeader C stream = s.after := by
  cases hs : s.initialized with
  | false => simp [RWState.afterHeader, RWState.after, hs]
  | true =>
      simp only [RWState.afterHeader, RWState.after, hs, if_true]
      unfold readFrame readHeader at h
      rw [if_pos hs] at h
      split at h
      · cases h
      · rename_i header hheader
        split at hheader
        · cases hheader
        · rename_i plain hplain
          split at hheader
          · cases hheader
          · rename_i hlong
            simp only [if_neg hlong]

/-- One turn of the loop whose frame was read. -/
theorem ConnectionBase.process_of_readFrame (handle : Handlers σ) {peer : σ × ConnectionBase} {stream rest : Bytes}
    {frame : ReadFrame} (hne : stream ≠ [])
    (h : readFrame C garbage peer.2.readState stream = .ok (frame, rest)) :
    ConnectionBase.process C garbage handle peer stream =
      match dispatch handle frame
        (peer.1, { peer.2 with readState := peer.2.readState.after }) with
      | (state, some e) => ⟨state, [frame], some e⟩
      | (state, none) =>
          (ConnectionBase.process C garbage handle state rest).prepend [frame] := by
  rw [ConnectionBase.process_eq _ hne, h, afterHeader_of_readFrame h]
  rfl

/-- A frame that cannot be read ends the stream. -/
theorem ConnectionBase.process_of_error (handle : Handlers σ) {peer : σ × ConnectionBase} {stream : Bytes}
    {e : RpcException} (hne : stream ≠ [])
    (h : readFrame C garbage peer.2.readState stream = .error e) :
    ∃ state, ConnectionBase.process C garbage handle peer stream = ⟨state, [], some e⟩ := by
  rw [ConnectionBase.process_eq _ hne, h]
  exact ⟨_, rfl⟩

/-- If no tag of a stream is forged, none of its first frame is. -/
theorem unforged_head {peer : σ × ConnectionBase} {stream rest : Bytes} {frame : ReadFrame}
    {all : List SentFrame} (hne : stream ≠ [])
    (h : readFrame C garbage peer.2.readState stream = .ok (frame, rest))
    (hunforged : Unforged C all (ConnectionBase.process C garbage handle peer stream).frames) :
    Unforged C all [frame] := by
  intro f hf
  refine hunforged f ?_
  rw [List.mem_singleton.mp hf, ConnectionBase.process_of_readFrame handle hne h]
  split
  · exact List.mem_cons_self
  · exact List.mem_cons_self

/-- Only one frame was sent from its position. -/
theorem unique_of_nodup {before later : List SentFrame} {sent : SentFrame}
    {tail : List (Bytes × Nat)}
    (hnodup : (before.map (fun f => f.state.position) ++
      sent.state.position :: (later.map (fun f => f.state.position) ++ tail)).Nodup) :
    ∀ g ∈ before ++ sent :: later, g.state.position = sent.state.position → g = sent := by
  intro g hg hposition
  obtain ⟨-, htail, hdisjoint⟩ := List.nodup_append'.mp hnodup
  rcases List.mem_append.mp hg with hg | hg
  · refine absurd (List.mem_cons_self) (hdisjoint (a := sent.state.position) ?_)
    rw [← hposition]
    exact List.mem_map_of_mem hg
  · rcases List.mem_cons.mp hg with rfl | hg
    · rfl
    · refine absurd ?_ (List.nodup_cons.mp htail).1
      rw [← hposition]
      exact List.mem_append_left _ (List.mem_map_of_mem hg)

/-- **One frame more.** The first frame is the next one that was sent, and the rest is sound.
-/
theorem Sound.cons {write next write' next' : RWState} {actions actions' : List SendAction}
    {sent : SentFrame} {stream rest : Bytes} {frame : ReadFrame} {outcome : Processed σ}
    (hsent : sentFrames write next actions = sent :: sentFrames write' next' actions')
    (hpackets : SendAction.packets actions =
      ReadFrame.delivered [frame] ++ SendAction.packets actions')
    (hlength : stream.length = (sent.bytes C).length + rest.length)
    (h : Sound C write' next' actions' rest outcome) :
    Sound C write next actions stream (outcome.prepend [frame]) where
  delivered := by
    have hcons := ReadFrame.delivered_append [frame] outcome.frames
    rw [Processed.prepend, hcons, hpackets]
    exact (List.prefix_append_right_inj _).mpr h.delivered
  length_eq herror := by
    obtain ⟨k, hk⟩ := h.length_eq herror
    refine ⟨k + 1, ?_⟩
    rw [hsent, List.take_succ_cons, List.flatMap_cons, List.length_append, ← hk, hlength]

/-- The handler has thrown at the first frame. -/
theorem Sound.of_thrown {write next : RWState} {actions actions' : List SendAction}
    {stream : Bytes} {frame : ReadFrame} {state : σ × ConnectionBase} {e : RpcException}
    (hpackets : SendAction.packets actions =
      ReadFrame.delivered [frame] ++ SendAction.packets actions') :
    Sound C write next actions stream (⟨state, [frame], some e⟩ : Processed σ) :=
  ⟨by rw [hpackets]; exact List.prefix_append _ _, fun h => absurd h (by simp)⟩

/-- If no tag of a stream is forged, none of the frames behind the first one is. -/
theorem unforged_tail {peer peer' : σ × ConnectionBase} {stream rest : Bytes} {frame : ReadFrame}
    {all : List SentFrame}
    (h : ConnectionBase.process C garbage handle peer stream =
      (ConnectionBase.process C garbage handle peer' rest).prepend [frame])
    (hunforged : Unforged C all (ConnectionBase.process C garbage handle peer stream).frames) :
    Unforged C all (ConnectionBase.process C garbage handle peer' rest).frames := by
  intro f hf
  refine hunforged f ?_
  rw [h]
  exact List.mem_cons_of_mem _ hf

/-- A stream is empty, or its first frame throws, or is read. -/
theorem ConnectionBase.process_cases (C : RecordPrimitives) (garbage : Bytes)
    (handle : Handlers σ) (peer : σ × ConnectionBase) (stream : Bytes) :
    stream = [] ∨
      (∃ state e, ConnectionBase.process C garbage handle peer stream = ⟨state, [], some e⟩) ∨
      (stream ≠ [] ∧ ∃ frame rest,
        readFrame C garbage peer.2.readState stream = .ok (frame, rest)) := by
  by_cases hne : stream = []
  · exact Or.inl hne
  · cases hread : readFrame C garbage peer.2.readState stream with
    | error e =>
        obtain ⟨state, hstate⟩ := ConnectionBase.process_of_error handle hne hread
        exact Or.inr (Or.inl ⟨state, e, hstate⟩)
    | ok result => exact Or.inr (Or.inr ⟨hne, result.1, result.2, rfl⟩)

/-- A stream that brings no frame is sound, whatever was sent. -/
theorem sound_or_read (write next : RWState) (actions : List SendAction)
    (peer : σ × ConnectionBase) (stream : Bytes) :
    Sound C write next actions stream (ConnectionBase.process C garbage handle peer stream) ∨
      (stream ≠ [] ∧ ∃ frame rest,
        readFrame C garbage peer.2.readState stream = .ok (frame, rest)) := by
  rcases ConnectionBase.process_cases C garbage handle peer stream with
    rfl | ⟨state, e, hthrown⟩ | hread
  · exact Or.inl sound_of_nil
  · rw [hthrown]
    exact Or.inl sound_of_error
  · exact Or.inr hread

/-- The first frame that is read is the next one that was sent. -/
theorem first_frame_authentic (sent : SentFrame) {before later : List SentFrame}
    {tail : List (Bytes × Nat)} {peer : σ × ConnectionBase} {stream rest : Bytes}
    {frame : ReadFrame} (hkeys : peer.2.readState = sent.state)
    (hinit : sent.state.initialized = true) (hne : stream ≠ [])
    (hread : readFrame C garbage peer.2.readState stream = .ok (frame, rest))
    (hunforged : Unforged C (before ++ sent :: later)
      (ConnectionBase.process C garbage handle peer stream).frames)
    (hnodup : (before.map (fun f => f.state.position) ++
      sent.state.position :: (later.map (fun f => f.state.position) ++ tail)).Nodup)
    (hkept : paddedFrameLength sent.packet = 0 → sent.packet = []) :
    frame.contentType = sent.contentType ∧ frame.data = sent.packet ∧
      stream.length = (sent.bytes C).length + rest.length := by
  have hhead := unforged_head hne hread hunforged
  rw [hkeys] at hread
  obtain ⟨header, hchecked⟩ := readFrame_checked hinit hne hread
  exact hchecked.authentic sent rfl hhead (unique_of_nodup hnodup) hkept

/-- **A whole run.**  By induction on the actions: the peer reads with the state
that the next frame was sent with, and no earlier frame had its position. -/
theorem sound_of_unforged (before : List SentFrame) {write next : RWState}
    {actions : List SendAction} {stream : Bytes} {peer : σ × ConnectionBase} (hkeys : peer.2.readState = write)
    (hinit : write.initialized = true) (hfollows : Follows handle next peer actions)
    (hnodup : (before.map (fun f => f.state.position) ++ positions write next actions).Nodup)
    (hkept : ∀ a ∈ actions, a.Kept)
    (hunforged : Unforged C (before ++ sentFrames write next actions)
      (ConnectionBase.process C garbage handle peer stream).frames) :
    Sound C write next actions stream (ConnectionBase.process C garbage handle peer stream) := by
  induction actions generalizing write next stream peer before with
  | nil =>
      rcases sound_or_read write next [] peer stream with hsound | ⟨hne, frame, rest, hread⟩
      · exact hsound
      · -- no frame has been sent from the position of the state
        rw [hkeys] at hread
        obtain ⟨header, hchecked⟩ := readFrame_checked hinit hne hread
        obtain ⟨g, hg, hposition, -⟩ :=
          hchecked.seed (unforged_head hne (by rw [hkeys]; exact hread) hunforged)
        rw [sentFrames, List.append_nil] at hg
        have hbefore : write.position ∈ before.map (fun f => f.state.position) := by
          rw [← hposition]
          exact List.mem_map_of_mem hg
        exact absurd (position_mem write next []) ((List.nodup_append'.mp hnodup).2.2 hbefore)
  | cons action actions ih =>
      have hlater := fun a ha => hkept a (List.mem_cons_of_mem _ ha)
      cases action with
      | keyChange n =>
          have hsame := ih before hkeys hinit hfollows hnodup hlater hunforged
          exact ⟨hsame.delivered, hsame.length_eq⟩
      | packet kind data =>
          rcases sound_or_read write next (.packet kind data :: actions) peer stream with
            hsound | ⟨hne, frame, rest, hread⟩
          · exact hsound
          · have hstep := ConnectionBase.process_of_readFrame handle hne hread
            obtain ⟨htype, hdata, hlength⟩ := first_frame_authentic
              ⟨write, kind.contentType, data⟩ hkeys hinit hne hread hunforged hnodup
              (hkept _ List.mem_cons_self)
            obtain ⟨readState, verified, contentType, packet⟩ := frame
            obtain rfl : contentType = kind.contentType := htype
            obtain rfl : packet = data := hdata
            have hpackets : SendAction.packets (.packet kind packet :: actions) =
                ReadFrame.delivered [⟨readState, verified, kind.contentType, packet⟩] ++
                  SendAction.packets actions := by
              rw [ReadFrame.delivered_packet]
              rfl
            rw [dispatch_packet] at hstep
            split at hstep
            · rw [hstep]
              exact Sound.of_thrown hpackets
            · rename_i state hreaction
              obtain ⟨hreadState, hfollows⟩ := hfollows (by rw [hreaction])
              rw [hreaction] at hreadState hfollows
              rw [hstep]
              refine Sound.cons rfl hpackets hlength (ih
                (before ++ [⟨write, kind.contentType, packet⟩]) ?_ ?_ hfollows ?_ hlater ?_)
              · rw [hreadState, hkeys]
              · exact initialized_after hinit
              · rw [List.map_append, List.append_assoc]
                exact hnodup
              · rw [List.append_assoc]
                exact unforged_tail hstep hunforged
      | changeCipherSpec =>
          obtain ⟨hnext, hmirror, hfollows⟩ := hfollows
          rcases sound_or_read write next (.changeCipherSpec :: actions) peer stream with
            hsound | ⟨hne, frame, rest, hread⟩
          · exact hsound
          · have hstep := ConnectionBase.process_of_readFrame handle hne hread
            obtain ⟨htype, hdata, hlength⟩ := first_frame_authentic
              ⟨write, ContentType.CHANGE_CIPHER_SPEC, []⟩ hkeys hinit hne hread
              hunforged hnodup fun _ => rfl
            obtain ⟨readState, verified, contentType, packet⟩ := frame
            obtain rfl : contentType = ContentType.CHANGE_CIPHER_SPEC := htype
            rw [dispatch_changeCipherSpec _ _ _ (by rw [hmirror]; exact hnext), hmirror] at hstep
            rw [hstep]
            refine Sound.cons rfl rfl hlength (ih
              (before ++ [⟨write, ContentType.CHANGE_CIPHER_SPEC, []⟩]) rfl hnext hfollows ?_ hlater ?_)
            · rw [List.map_append, List.append_assoc]
              exact hnodup
            · rw [List.append_assoc]
              exact unforged_tail hstep hunforged

/-- The bytes of a run are those of its frames. -/
theorem sendActions_output {c c' : ConnectionBase} {actions : List SendAction}
    (h : sendActions C c actions = .ok c') :
    c'.output = c.output ++
      (sentFrames c.writeState c.nextWriteState actions).flatMap (SentFrame.bytes C) := by
  induction actions generalizing c with
  | nil =>
      cases h
      exact (List.append_nil _).symm
  | cons action actions ih =>
      cases action with
      | packet kind data =>
          rw [sendActions, ConnectionBase.send_eq] at h
          rw [ih h, sentFrames, List.flatMap_cons, ← List.append_assoc]
          rfl
      | keyChange n => exact ih h
      | changeCipherSpec =>
          simp only [sendActions, ConnectionBase.changeCipherSpec, ConnectionBase.send_eq] at h
          split at h
          · cases h
          · rename_i c₁ hc₁
            split at hc₁
            · cases hc₁
            · cases hc₁
              rw [ih h, sentFrames, List.flatMap_cons, ← List.append_assoc]
              rfl

end Runs

/-- **Integrity.**  The peer starts with the sender's keys, nothing resets them,
and no key and sequence number is used twice.  If no packet is sent without its
body, then on every stream whose accepted tags are the sender's, `process`
delivers a prefix of the packets that were sent.  Without an exception the
stream has the length of whole frames, so a stream that is cut inside a frame
ends in an exception. -/
theorem ConnectionBase.process_integrity {σ : Type} (C : RecordPrimitives) (garbage : Bytes)
    (handle : Handlers σ) (sender sender' : ConnectionBase) (peer : σ × ConnectionBase)
    (actions : List SendAction)
    (hsent : sendActions C { sender with output := [] } actions = .ok sender')
    (hinit : sender.writeState.initialized = true) (hkeys : peer.2.readState = sender.writeState)
    (hfollows : Follows handle sender.nextWriteState peer actions)
    (hfresh : (positions sender.writeState sender.nextWriteState actions).Nodup)
    (hkept : ∀ a ∈ actions, a.Kept) (stream : Bytes)
    (hunforged : Unforged C (sentFrames sender.writeState sender.nextWriteState actions)
      (ConnectionBase.process C garbage handle peer stream).frames) :
    ReadFrame.delivered (ConnectionBase.process C garbage handle peer stream).frames <+:
        SendAction.packets actions ∧
      sender'.output = (sentFrames sender.writeState sender.nextWriteState actions).flatMap
        (SentFrame.bytes C) ∧
      ((ConnectionBase.process C garbage handle peer stream).error = none →
        ∃ k, stream.length = (((sentFrames sender.writeState sender.nextWriteState
          actions).take k).flatMap (SentFrame.bytes C)).length) ∧
      ∀ cut, stream = sender'.output.take cut → cut ≤ sender'.output.length →
        (∀ k, cut ≠ (((sentFrames sender.writeState sender.nextWriteState
          actions).take k).flatMap (SentFrame.bytes C)).length) →
        (ConnectionBase.process C garbage handle peer stream).error ≠ none := by
  have hsound : Sound C sender.writeState sender.nextWriteState actions stream
      (ConnectionBase.process C garbage handle peer stream) :=
    sound_of_unforged [] hkeys hinit hfollows hfresh hkept hunforged
  refine ⟨hsound.delivered, sendActions_output hsent, hsound.length_eq, fun cut hstream hcut hinside hnone => ?_⟩
  obtain ⟨k, hk⟩ := hsound.length_eq hnone
  rw [hstream, List.length_take, min_eq_left hcut] at hk
  exact hinside k hk

/-! ## A frame and a half -/

/-- The frame of a packet that was sent. -/
def SentFrame.asRead (C : RecordPrimitives) (f : SentFrame) : ReadFrame :=
  ⟨f.state, f.tagged C, f.contentType, f.packet⟩

/-- Where all frames were sent, no tag is forged. -/
theorem unforged_of_forall {C : RecordPrimitives} {all : List SentFrame}
    {frames : List ReadFrame} (h : ∀ f ∈ frames, ∃ g ∈ all, f = g.asRead C) :
    Unforged C all frames := by
  intro f hf m hm
  obtain ⟨g, hg, rfl⟩ := h f hf
  exact ⟨g, hg, rfl, hm⟩

/-- The frame of the first packet, and a byte. -/
def sampleStream : Bytes :=
  frameOf sampleRecordPrimitives (sampleRWState 1) [5] ContentType.APPLICATION_DATA ++ [0]

/-- The sample stream has the one frame that was sent. -/
theorem frames_sampleStream :
    (ConnectionBase.process sampleRecordPrimitives [] sampleHandlers ((), sampleSecureConnection 1)
      sampleStream).frames =
        [SentFrame.asRead sampleRecordPrimitives
          ⟨sampleRWState 1, ContentType.APPLICATION_DATA, [5]⟩] := by
  have hne : sampleStream ≠ [] := List.append_ne_nil_of_right_ne_nil _ (List.cons_ne_nil _ _)
  have hread : readFrame sampleRecordPrimitives [] (sampleRWState 1) sampleStream =
      .ok (SentFrame.asRead sampleRecordPrimitives
        ⟨sampleRWState 1, ContentType.APPLICATION_DATA, [5]⟩, [0]) :=
    readFrame_frameOf [] (by decide) [0]
  rw [ConnectionBase.process_of_readFrame sampleHandlers hne hread]
  rfl

/-- A packet arrives, and the first byte of the next one leads to an
exception. -/
theorem ConnectionBase.process_integrity_sample :
    ReadFrame.delivered (ConnectionBase.process sampleRecordPrimitives [] sampleHandlers
      ((), sampleSecureConnection 1) sampleStream).frames <+:
        [(ContentType.APPLICATION_DATA, [5]), (ContentType.APPLICATION_DATA, [6])] := by
  refine (ConnectionBase.process_integrity sampleRecordPrimitives [] sampleHandlers
    (sampleSecureConnection 1) _ ((), sampleSecureConnection 1)
    [.packet .applicationData [5], .packet .applicationData [6]] rfl rfl rfl
    (fun _ => ⟨rfl, fun _ => ⟨rfl, trivial⟩⟩) (by decide) ?_ sampleStream ?_).1
  · intro a ha
    fin_cases ha
    · exact fun h => absurd h (by decide)
    · exact fun h => absurd h (by decide)
  · apply unforged_of_forall
    rw [frames_sampleStream]
    intro f hf
    exact ⟨_, List.mem_cons_self, List.mem_singleton.mp hf⟩

/-! ## A packet of almost four gigabytes -/

/-- A packet whose padded length is zero in 32 bits is read as an empty one. -/
theorem readFrame_of_paddedFrameLength_eq_zero {C : RecordPrimitives} {s : RWState}
    (hs : s.initialized = true) {packet : Bytes} (hzero : paddedFrameLength packet = 0)
    (garbage : Bytes) (contentType : UInt8) :
    readFrame C garbage s (frameOf C s packet contentType) =
      .ok (⟨s, taggedMessages C s packet contentType, contentType, []⟩, []) := by
  have hsame : frameOf C s packet contentType = frameOf C s [] contentType := by
    rw [frameOf_of_initialized hs, frameOf_of_initialized hs, encryptedBody, encryptedBody, hzero,
      paddedFrameLength_nil]
    rfl
  have htagged : taggedMessages C s packet contentType = taggedMessages C s [] contentType := by
    simp only [taggedMessages, hzero, paddedFrameLength_nil, lt_irrefl, if_false]
  have hread : readFrame C garbage s (frameOf C s [] contentType ++ []) =
      .ok (⟨s, taggedMessages C s [] contentType, contentType, []⟩, []) :=
    readFrame_frameOf garbage (by decide) []
  rw [List.append_nil] at hread
  rw [hsame, htagged, hread]

/-- A run with such a packet. -/
theorem ConnectionBase.process_of_paddedFrameLength_eq_zero {packet : Bytes}
    (hzero : paddedFrameLength packet = 0) :
    ∃ state, ConnectionBase.process sampleRecordPrimitives [] sampleHandlers
        ((), sampleSecureConnection 1)
        (frameOf sampleRecordPrimitives (sampleRWState 1) packet ContentType.APPLICATION_DATA) =
      ⟨state, [⟨sampleRWState 1,
        taggedMessages sampleRecordPrimitives (sampleRWState 1) packet ContentType.APPLICATION_DATA,
        ContentType.APPLICATION_DATA, []⟩], none⟩ := by
  have hne : frameOf sampleRecordPrimitives (sampleRWState 1) packet
      ContentType.APPLICATION_DATA ≠ [] := by
    intro hnil
    have hlen := le_length_frameOf (C := sampleRecordPrimitives) (sampleRWState 1) packet
      ContentType.APPLICATION_DATA
    rw [hnil] at hlen
    exact absurd hlen (by decide)
  have hread := readFrame_of_paddedFrameLength_eq_zero (C := sampleRecordPrimitives)
    (s := sampleRWState 1) rfl hzero [] ContentType.APPLICATION_DATA
  rw [ConnectionBase.process_of_readFrame sampleHandlers hne hread]
  exact ⟨_, rfl⟩

/-- A packet of 2^32 - 16 bytes. -/
def longPacket : Bytes := List.replicate (2 ^ 32 - 16) 0

/-- The length of the long packet wraps to zero. -/
theorem paddedFrameLength_longPacket : paddedFrameLength longPacket = 0 := by
  simp only [paddedFrameLength, longPacket, List.length_replicate]
  decide

/-- But the packet is not empty. -/
theorem longPacket_ne_nil : longPacket ≠ [] := by
  apply List.ne_nil_of_length_pos
  rw [longPacket, List.length_replicate]
  decide

/-- The packet is sent, nobody touches the stream, and an empty packet is
delivered without an exception. -/
theorem ConnectionBase.process_drops_body :
    ∃ sender',
      sendActions sampleRecordPrimitives (sampleSecureConnection 1)
          [.packet .applicationData longPacket] = .ok sender' ∧
        Unforged sampleRecordPrimitives
          (sentFrames (sampleRWState 1) .empty [.packet .applicationData longPacket])
          (ConnectionBase.process sampleRecordPrimitives [] sampleHandlers ((), sampleSecureConnection 1)
            sender'.output).frames ∧
        (ConnectionBase.process sampleRecordPrimitives [] sampleHandlers ((), sampleSecureConnection 1)
          sender'.output).error = none ∧
        ReadFrame.delivered (ConnectionBase.process sampleRecordPrimitives [] sampleHandlers
          ((), sampleSecureConnection 1) sender'.output).frames = [(ContentType.APPLICATION_DATA, [])] ∧
        ¬ ReadFrame.delivered (ConnectionBase.process sampleRecordPrimitives [] sampleHandlers
            ((), sampleSecureConnection 1) sender'.output).frames <+:
          SendAction.packets [.packet .applicationData longPacket] := by
  have hzero := paddedFrameLength_longPacket
  have hlong := longPacket_ne_nil
  generalize longPacket = packet at hzero hlong ⊢
  obtain ⟨state, hprocess⟩ := ConnectionBase.process_of_paddedFrameLength_eq_zero hzero
  obtain ⟨sender', hsend⟩ : ∃ sender', sendActions sampleRecordPrimitives (sampleSecureConnection 1)
      [.packet .applicationData packet] = .ok sender' :=
    ⟨_, by rw [sendActions, ConnectionBase.send_eq, sendActions]⟩
  have houtput : sender'.output = frameOf sampleRecordPrimitives (sampleRWState 1) packet
      ContentType.APPLICATION_DATA := by
    rw [sendActions_output hsend, sentFrames, sentFrames, List.flatMap_cons, List.flatMap_nil,
      List.append_nil]
    exact List.nil_append _
  refine ⟨sender', hsend, ?_⟩
  rw [houtput, hprocess]
  refine ⟨?_, rfl, rfl, ?_⟩
  · intro f hf m hm
    rw [List.mem_singleton.mp hf] at hm ⊢
    exact ⟨⟨sampleRWState 1, ContentType.APPLICATION_DATA, packet⟩, List.mem_cons_self, rfl, hm⟩
  · rintro ⟨rest, hrest⟩
    have hhead := (List.cons_eq_cons.mp hrest).1
    exact hlong (congrArg Prod.snd hhead).symm

end PrivmxEndpoint
