import PushStreamer.Socket.ReadFrame

/-!
# Frames

What the bytes on the wire stand for: frames, and the protocol that puts them
together to messages. `accept` is this protocol, over whole frames; the processor
refines it.

* `read_frame` — the bytes of one frame do what the protocol says of it.
* `read_frames` — the bytes of some frames, in any pieces.
* `read_iff` — the bytes that are read without an error up to the end of a frame
  are those of frames that the protocol accepts.
-/

namespace PushStreamer.Wire

open Endpoint (Bytes Opcode)
open Endpoint.Opcode (isControl)
open Outcome (ok error)

-- ---------------------------------------------------------------------------
-- The protocol
-- ---------------------------------------------------------------------------

/-- A frame, with its masking key if it is masked. -/
structure Frame where
  opcode : Opcode
  fin : Bool
  rsv1 : Bool
  rsv2 : Bool
  rsv3 : Bool
  key : Option ℕ
  payload : Bytes
  -- sizes have 64 bits
  fits : payload.length < 2 ^ 64

namespace Frame

def basicHeader (f : Frame) : BasicHeader :=
  .new f.opcode f.payload.length f.fin f.key.isSome f.rsv1 f.rsv2 f.rsv3

/-- The bytes of a frame. -/
def encode (f : Frame) : Bytes :=
  prepareHeader f.basicHeader (.new f.payload.length f.key) ++
    mask (Words.toBytes 4 (f.key.getD 0)) 0 f.payload

/-- The frame with the header `h`, `r` and the masked payload `enc`. -/
def ofWire (h : BasicHeader) (r enc : Bytes) (hSize : getPayloadSize h (.write .empty 0 r) < 2 ^ 64)
    (hEnc : enc.length = getPayloadSize h (.write .empty 0 r)) : Frame where
  opcode := h.getOpcode
  fin := h.getFin
  rsv1 := h.getRsv1
  rsv2 := h.getRsv2
  rsv3 := h.getRsv3
  key := readKey h (.write .empty 0 r)
  payload := mask (getMaskingKey h (.write .empty 0 r)) 0 enc
  fits := by rw [length_mask, hEnc]; exact hSize

/-- A header and a payload as they came are the encoding of their frame. -/
theorem encode_ofWire {h : BasicHeader} {r enc : Bytes} (hLength : r.length + 2 = h.getHeaderLen)
    (hMin : Minimal h (.write .empty 0 r))
    (hSize : getPayloadSize h (.write .empty 0 r) < 2 ^ 64)
    (hEnc : enc.length = getPayloadSize h (.write .empty 0 r)) :
    (ofWire h r enc hSize hEnc).encode = h.b0 :: h.b1 :: r ++ enc := by
  have hBytes : (ExtendedHeader.empty.write 0 r).bytes.length = maxExtendedHeaderLength := by
    have hLen := Processor.getHeaderLen_le h
    refine length_write ?_
    show 0 + r.length ≤ 12
    omega
  have hKey := Processor.toBytes_readKey h hBytes
  unfold encode basicHeader ofWire
  dsimp only
  rw [hKey, mask_mask, length_mask, hEnc, wire_eq hLength hMin]

end Frame

/-- A data message of which some fragments have come. -/
structure Fragments where
  msg : Message
  validator : Validator
deriving DecidableEq

/-- The message as it is kept while a payload is read, with the masking key. -/
def Fragments.metadata (m : Fragments) (k : Bytes) : MsgMetadata :=
  ⟨m.msg, prepared k 0, m.validator⟩

/-- What is expected of a frame, whether or not it begins a message. -/
def checkFrame (server new_msg : Bool) (f : Frame) : Option ErrorCode :=
  validateIncomingBasicHeader f.basicHeader server new_msg

/-- The message that a data frame belongs to. -/
def message (a : Option Fragments) (op : Opcode) : Fragments := a.getD ⟨⟨op, []⟩, .new⟩

/-- A message with one more fragment. -/
def extend (m : Fragments) (opcode : Opcode) (fin : Bool) (payload : Bytes) :
    Outcome Message ErrorCode (Option Fragments) :=
  let msg : Message := ⟨m.msg.opcode, m.msg.payload ++ payload⟩
  let c := if m.msg.opcode = .text then m.validator.decode payload else (true, m.validator)
  if !c.1 then error .invalidUtf8
  else if !fin then ok (some ⟨msg, c.2⟩)
  -- only the opcode of the last frame is looked at
  else if opcode = .text ∧ !c.2.complete then error .invalidUtf8
  else ⟨[msg], .ok none⟩

/-- The protocol: the messages that are complete with this frame, and the one that
goes on. -/
def accept (server : Bool) (maxMessageSize : ℕ) (a : Option Fragments) (f : Frame) :
    Outcome Message ErrorCode (Option Fragments) :=
  match checkFrame server a.isNone f with
  | some ec => error ec
  | none =>
    if isControl f.opcode then ⟨[⟨f.opcode, f.payload⟩], .ok a⟩
    else
      let m := message a f.opcode
      -- the size of a message that goes on is a `size_t`
      if maxMessageSize < (m.msg.payload.length + f.payload.length) % 2 ^ 64 then
        error .messageTooBig
      else extend m f.opcode f.fin f.payload

namespace Processor

/-- What is left of the message that goes on. -/
def fragments (p : Processor) : Option Fragments :=
  p.dataMsg.map fun m => ⟨m.msg, m.validator⟩

/-- Between two frames. -/
structure AtFrame (p : Processor) (a : Option Fragments) : Prop where
  state : p.state = .headerBasic
  needed : p.bytesNeeded = 2
  empty : p.extendedHeader = .empty
  fragments : p.fragments = a
  data : ∀ m, a = some m → isControl m.msg.opcode = false

section

variable {server : Bool} {maxMessageSize : ℕ} {p p' : Processor} {a : Option Fragments}
  {f : Frame} {buf : Bytes} {ec : ErrorCode}

theorem AtFrame.inv (h : AtFrame p a) : Inv p :=
  inv_of_header h.state (Nat.le_of_eq h.needed) h.empty

theorem AtFrame.waits (h : AtFrame p a) : p.Waits :=
  ⟨by rw [h.state]; decide, by rw [h.needed]; decide⟩

theorem AtFrame.idle (h : AtFrame p a) : p.Idle := ⟨h.inv, h.waits⟩

/-- A message is under way just when fragments were read. -/
theorem AtFrame.isNone (h : AtFrame p a) : p.dataMsg.isNone = a.isNone := by
  rw [← h.fragments, Processor.fragments]
  cases p.dataMsg <;> rfl

theorem atFrame_new : AtFrame new none := ⟨rfl, rfl, rfl, rfl, fun _ h => by cases h⟩

-- ---------------------------------------------------------------------------
-- The header of a frame
-- ---------------------------------------------------------------------------

/-- The processor after the first two bytes. -/
def afterBasic (p : Processor) (h : BasicHeader) : Processor :=
  { p with
    state := .headerExtended
    basicHeader := h
    bytesNeeded := h.getHeaderLen - basicHeaderLength
    cursor := 0 }

variable (server maxMessageSize) in
/-- The first turn of a frame: the basic header is checked. -/
theorem turn_twoBytes (h : AtFrame p a) (b0 b1 : UInt8) (rest : Bytes) :
    turn server maxMessageSize (p, b0 :: b1 :: rest) =
      match validateIncomingBasicHeader ⟨b0, b1⟩ server a.isNone with
      | some ec => .error ec
      | none => .ok (p.afterBasic ⟨b0, b1⟩, rest) := by
  rw [turn_basic h.state, basicTurn, copyBasicHeaderBytes_two h.needed, ← h.isNone]
  rfl

/-- The processor after the whole header `h`, `r`, and before `openMessage`. -/
def afterHeader (p : Processor) (h : BasicHeader) (r : Bytes) : Processor :=
  { p with
    state := .application
    basicHeader := h
    extendedHeader := .write .empty 0 r
    cursor := r.length
    bytesNeeded := getPayloadSize h (.write .empty 0 r) }

variable (server maxMessageSize) in
/-- The second turn: the extended header is checked, and the payload begins. -/
theorem turn_header (h : AtFrame p a) (bh : BasicHeader) {r : Bytes}
    (hLength : r.length + 2 = bh.getHeaderLen) (rest : Bytes) :
    turn server maxMessageSize (p.afterBasic bh, r ++ rest) =
      match validateIncomingExtendedHeader bh (.write .empty 0 r) with
      | some ec => .error ec
      | none => ((p.afterHeader bh r).openMessage maxMessageSize).map (·, rest) := by
  have hNeeded : (p.afterBasic bh).bytesNeeded = r.length := by
    show bh.getHeaderLen - 2 = r.length
    omega
  have hCopy : (p.afterBasic bh).copyExtendedHeaderBytes (r ++ rest) =
      ({ p.afterBasic bh with
          extendedHeader := .write .empty 0 r
          cursor := r.length
          bytesNeeded := 0 }, rest) := by
    -- all of `r` is asked for, and nothing more
    have hMin : min r.length (r ++ rest).length = r.length := by
      rw [List.length_append]
      omega
    unfold copyExtendedHeaderBytes
    dsimp only
    rw [hNeeded, hMin, List.take_left, List.drop_left, Nat.sub_self]
    show (({ p.afterBasic bh with
      extendedHeader := p.extendedHeader.write 0 r
      cursor := 0 + r.length
      bytesNeeded := 0 } : Processor), rest) = _
    rw [h.empty, Nat.zero_add]
  rw [turn_extended rfl, extendedTurn, hCopy]
  rfl

variable (server maxMessageSize) in
/-- A header that is not all there. -/
theorem pump_header_short (h : AtFrame p a) (bh : BasicHeader) {r : Bytes}
    (hLength : r.length + 2 < bh.getHeaderLen) :
    ∃ p', pump server maxMessageSize (p.afterBasic bh, r) = ok p' ∧ p'.state = .headerExtended := by
  have hInv : Inv (p.afterBasic bh) := {
    size := h.inv.size
    basic := fun h' => by cases h'
    extended := fun _ => by
      have hLen := getHeaderLen_le bh
      show 0 + (bh.getHeaderLen - 2) ≤ 12
      omega
    payload := fun h' => by cases h'
    ready := fun h' => by cases h' }
  have hLt : r.length < (p.afterBasic bh).bytesNeeded := by
    show r.length < bh.getHeaderLen - 2
    omega
  obtain ⟨p', hTurn, hState, hNeeded, -⟩ := extendedTurn_part maxMessageSize hInv rfl hLt
  have hWaits : p'.Waits := ⟨by rw [hState]; decide, hNeeded⟩
  by_cases hNil : r = []
  · refine ⟨p.afterBasic bh, ?_, rfl⟩
    rw [hNil, pump_wait ⟨by rw [afterBasic]; exact State.noConfusion, by omega⟩]
  · have hGo : goesOn (p.afterBasic bh, r) = true := by
      simp [goesOn, hNil, afterBasic]
    refine ⟨p', ?_, hState⟩
    rw [pump_ok hGo ((turn_extended rfl).trans hTurn), pump_wait hWaits]

-- ---------------------------------------------------------------------------
-- The payload of a frame
-- ---------------------------------------------------------------------------

/-- The processor is about to read a payload for `m`. -/
structure Opened (p : Processor) (bh : BasicHeader) (size : ℕ) (k : Bytes) (m : Fragments) :
    Prop where
  inv : Inv p
  state : p.state = .application
  header : p.basicHeader = bh
  needed : p.bytesNeeded = size
  key : p.key = k
  current : p.current = some (m.metadata k)

variable (maxMessageSize) in
/-- The message of a control frame. -/
theorem openMessage_control (h : AtFrame p a) {bh : BasicHeader} {r : Bytes}
    (hFits : r.length ≤ 12) (hControl : isControl bh.getOpcode = true) :
    ∃ p', (p.afterHeader bh r).openMessage maxMessageSize = .ok p' ∧
      Opened p' bh (getPayloadSize bh (.write .empty 0 r))
        (getMaskingKey bh (.write .empty 0 r)) ⟨⟨bh.getOpcode, []⟩, .new⟩ ∧
      p'.fragments = a ∧ p'.currentMsg = .controlMsg := by
  have hSize : (ExtendedHeader.empty.write 0 r).bytes.length = maxExtendedHeaderLength :=
    length_write (by rw [Nat.zero_add]; exact hFits)
  have hPrepared := prepareMaskingKey_eq (length_getMaskingKey bh hSize)
  refine ⟨_, if_pos hControl, ?_, h.fragments, rfl⟩
  have hCurrent : ∃ m, some (⟨⟨bh.getOpcode, []⟩,
      prepareMaskingKey (getMaskingKey bh (.write .empty 0 r)), .new⟩ : MsgMetadata) = some m ∧
      m.preparedKey = prepared (getMaskingKey bh (.write .empty 0 r)) 0 := ⟨_, rfl, hPrepared⟩
  exact {
    inv := {
      size := hSize
      basic := fun h' => by cases h'
      extended := fun h' => by cases h'
      payload := fun _ => ⟨_, 0, hCurrent.choose_spec⟩
      ready := fun h' => by cases h' }
    state := rfl
    header := rfl
    needed := rfl
    key := rfl
    current := by rw [Fragments.metadata, ← hPrepared]; rfl }

variable (maxMessageSize) in
/-- The message of a data frame. -/
theorem openMessage_data (h : AtFrame p a) {bh : BasicHeader} {r : Bytes}
    (hFits : r.length ≤ 12) (hData : isControl bh.getOpcode = false)
    (hSize64 : getPayloadSize bh (.write .empty 0 r) < 2 ^ 64) :
    let size := getPayloadSize bh (.write .empty 0 r)
    let m := message a bh.getOpcode
    if maxMessageSize < (m.msg.payload.length + size) % 2 ^ 64 then
      (p.afterHeader bh r).openMessage maxMessageSize = .error .messageTooBig
    else ∃ p', (p.afterHeader bh r).openMessage maxMessageSize = .ok p' ∧
      Opened p' bh size (getMaskingKey bh (.write .empty 0 r)) m ∧ p'.currentMsg = .dataMsg := by
  have hSize : (ExtendedHeader.empty.write 0 r).bytes.length = maxExtendedHeaderLength :=
    length_write (by rw [Nat.zero_add]; exact hFits)
  have hPrepared := prepareMaskingKey_eq (length_getMaskingKey bh hSize)
  have hNot : ¬ isControl bh.getOpcode = true := by rw [hData]; decide
  -- the state after a header whose size is accepted
  have hOpened : ∀ (m : Fragments) (p' : Processor),
      p' = { p.afterHeader bh r with
        dataMsg := some ⟨m.msg, prepareMaskingKey (getMaskingKey bh (.write .empty 0 r)),
          m.validator⟩
        currentMsg := .dataMsg } →
      Opened p' bh (getPayloadSize bh (.write .empty 0 r))
        (getMaskingKey bh (.write .empty 0 r)) m := by
    rintro m p' rfl
    have hCurrent : ∃ m', some (⟨m.msg,
        prepareMaskingKey (getMaskingKey bh (.write .empty 0 r)), m.validator⟩ : MsgMetadata) =
        some m' ∧ m'.preparedKey = prepared (getMaskingKey bh (.write .empty 0 r)) 0 :=
      ⟨_, rfl, hPrepared⟩
    exact {
      inv := {
        size := hSize
        basic := fun h' => by cases h'
        extended := fun h' => by cases h'
        payload := fun _ => ⟨_, 0, hCurrent.choose_spec⟩
        ready := fun h' => by cases h' }
      state := rfl
      header := rfl
      needed := rfl
      key := rfl
      current := by rw [Fragments.metadata, ← hPrepared]; rfl }
  have hFragments := h.fragments
  unfold Processor.fragments at hFragments
  unfold openMessage
  dsimp only
  rw [if_neg (show ¬ isControl (p.afterHeader bh r).basicHeader.getOpcode = true from hNot)]
  -- a first fragment starts from nothing, a later one from what is stored
  cases hMsg : p.dataMsg with
  | none =>
    rw [hMsg] at hFragments
    subst hFragments
    have hMod : (([] : Bytes).length + getPayloadSize bh (.write .empty 0 r)) % 2 ^ 64 =
        getPayloadSize bh (.write .empty 0 r) := by
      rw [List.length_nil, Nat.zero_add, Nat.mod_eq_of_lt hSize64]
    show if maxMessageSize < (([] : Bytes).length + _) % 2 ^ 64 then _ else _
    rw [hMod, show (p.afterHeader bh r).dataMsg = none from hMsg]
    split
    next hBig => exact if_pos hBig
    next hSmall => exact ⟨_, if_neg hSmall, hOpened _ _ rfl, rfl⟩
  | some m =>
    rw [hMsg] at hFragments
    subst hFragments
    rw [show (p.afterHeader bh r).dataMsg = some m from hMsg]
    show if maxMessageSize < (m.msg.payload.length + _) % 2 ^ 64 then _ else _
    split
    next hBig => exact if_pos hBig
    next hSmall => exact ⟨_, if_neg hSmall, hOpened ⟨m.msg, m.validator⟩ _ rfl, rfl⟩

variable {bh : BasicHeader} {size : ℕ} {k enc : Bytes} {m : Fragments}

theorem checkUtf8_nil (m : MsgMetadata) : checkUtf8 m [] = (true, m.validator) := by
  unfold checkUtf8
  split <;> rfl

theorem setCurrent_self (p : Processor) : p.setCurrent p.current = p := by
  unfold setCurrent current
  rcases p with ⟨_, _, _, _, _, _, _, _ | _⟩ <;> rfl

/-- No bytes add nothing. -/
theorem added_nil {m : MsgMetadata} {offset : ℕ} (hCurrent : p.current = some m)
    (hPrepared : m.preparedKey = prepared p.key offset) : p.added m offset [] = p := by
  have hSame : MsgMetadata.add m p.key offset [] = m := by
    rw [MsgMetadata.add, checkUtf8_nil, List.append_nil, List.length_nil, Nat.add_zero, ← hPrepared]
  rw [added, hSame, ← hCurrent, setCurrent_self]
  rfl

variable (server maxMessageSize) in
/-- What a whole payload does. -/
theorem turn_payload (h : Opened p bh size k m) (hLength : enc.length = size) :
    turn server maxMessageSize (p, enc) =
      if (checkUtf8 (m.metadata k) (mask k 0 enc)).1 then
        (p.added (m.metadata k) 0 (mask k 0 enc)).endOfFrame.map (·, [])
      else .error .invalidUtf8 := by
  have hPrepared : (m.metadata k).preparedKey = prepared p.key 0 := by rw [h.key]; rfl
  have hMin : min p.bytesNeeded enc.length = enc.length := by rw [h.needed, hLength, Nat.min_self]
  have hResult : (if 0 < enc.length then p.processPayloadBytes enc else .ok p) =
      if (checkUtf8 (m.metadata k) (mask k 0 enc)).1 then
        .ok (p.added (m.metadata k) 0 (mask k 0 enc))
      else .error .invalidUtf8 := by
    by_cases hSome : 0 < enc.length
    · rw [if_pos hSome, processPayloadBytes_eq h.inv.size h.current hPrepared, h.key]
    · obtain rfl : enc = [] := List.length_eq_zero_iff.mp (by omega)
      rw [if_neg hSome, mask_nil, checkUtf8_nil, if_pos rfl, added_nil h.current hPrepared]
  rw [turn_application h.state]
  unfold applicationTurn
  dsimp only
  rw [hMin, List.take_length, List.drop_length, hResult]
  by_cases hCheck : (checkUtf8 (m.metadata k) (mask k 0 enc)).1 = true
  · have hDone : ¬ 0 < (p.added (m.metadata k) 0 (mask k 0 enc)).bytesNeeded := by
      rw [added_bytesNeeded, h.needed, length_mask, hLength, Nat.sub_self]
      exact Nat.lt_irrefl 0
    rw [if_pos hCheck, if_pos hCheck]
    exact if_neg hDone
  · rw [if_neg hCheck, if_neg hCheck]

/-- The processor with the whole payload. -/
theorem added_finalize (h : Opened p bh size k m) (plain : Bytes) :
    (p.added (m.metadata k) 0 plain).finalizeMessage =
      if bh.getOpcode = .text ∧ !(checkUtf8 (m.metadata k) plain).2.complete then
        .error .invalidUtf8
      else .ok { p.added (m.metadata k) 0 plain with state := .ready } := by
  have hHeader : (p.added (m.metadata k) 0 plain).basicHeader.getOpcode = bh.getOpcode := by
    rw [added_basicHeader, h.header]
  unfold finalizeMessage
  rw [added_current]
  dsimp only
  rw [hHeader]
  rfl

theorem added_currentMsg (p : Processor) (m : MsgMetadata) (offset : ℕ) (plain : Bytes) :
    (p.added m offset plain).currentMsg = p.currentMsg := by
  unfold added setCurrent
  cases p.currentMsg <;> rfl

/-- The payload of a control frame does not touch the message that is under way. -/
theorem added_dataMsg (hWhich : p.currentMsg = .controlMsg) (m : MsgMetadata) (offset : ℕ)
    (plain : Bytes) : (p.added m offset plain).dataMsg = p.dataMsg := by
  unfold added setCurrent
  rw [hWhich]

variable (server maxMessageSize) in
/-- A message that is ready is taken out of the processor. -/
theorem pump_message {q : Processor} {m : MsgMetadata} (hState : q.state = .ready)
    (hCurrent : q.current = some m)
    (hWhich : q.currentMsg = if isControl m.msg.opcode then .controlMsg else .dataMsg)
    (hData : isControl m.msg.opcode = true →
      ∀ m', q.fragments = some m' → isControl m'.msg.opcode = false) :
    ∃ p', pump server maxMessageSize (q, []) = ⟨[m.msg], .ok p'⟩ ∧
      AtFrame p' (if isControl m.msg.opcode then q.fragments else none) := by
  have hMessage : q.getMessage.1 = some m.msg ∧
      AtFrame q.getMessage.2 (if isControl m.msg.opcode then q.fragments else none) := by
    unfold getMessage
    rw [if_neg (not_not.mpr hState), hCurrent]
    refine ⟨rfl, ?_⟩
    dsimp only
    split at hWhich
    next hControl =>
      rw [if_pos hControl, if_pos hControl]
      refine ⟨rfl, rfl, rfl, ?_, hData hControl⟩
      unfold setCurrent
      rw [hWhich]
      rfl
    next hNot =>
      rw [if_neg hNot, if_neg hNot]
      exact ⟨rfl, rfl, rfl, rfl, fun _ h => by cases h⟩
  refine ⟨q.getMessage.2, ?_, hMessage.2⟩
  rw [pump_ready hState, hMessage.1, pump_wait hMessage.2.waits]
  rfl

/-- The loop goes on while the payload is there. -/
theorem goesOn_payload (h : Opened p bh size k m) (hLength : enc.length = size) :
    goesOn (p, enc) = true := by
  have hBytes : enc ≠ [] ∨ p.bytesNeeded = 0 := by
    rw [h.needed, ← hLength]
    cases enc with
    | nil => exact .inr rfl
    | cons b enc => exact .inl (List.cons_ne_nil b enc)
  simp [goesOn, h.state, hBytes]

variable (server maxMessageSize) in
/-- **A control frame** is a message, and leaves the fragments alone. -/
theorem pump_control (h : Opened p bh size k m) (hLength : enc.length = size)
    (hWhich : p.currentMsg = .controlMsg) (hControl : isControl m.msg.opcode = true)
    (hFin : bh.getFin = true) (hOp : bh.getOpcode = m.msg.opcode) (hFragments : p.fragments = a)
    (hData : ∀ m', a = some m' → isControl m'.msg.opcode = false) :
    ∃ p', pump server maxMessageSize (p, enc) =
        ⟨[⟨m.msg.opcode, m.msg.payload ++ mask k 0 enc⟩], .ok p'⟩ ∧ AtFrame p' a := by
  -- a control message is not checked as text
  have hNotText : m.msg.opcode ≠ .text := by
    intro hText
    rw [hText] at hControl
    cases hControl
  have hCheck : (checkUtf8 (m.metadata k) (mask k 0 enc)).1 = true := by
    rw [checkUtf8, if_neg (show ¬ (m.metadata k).msg.opcode = .text from hNotText)]
  have hTurn : turn server maxMessageSize (p, enc) =
      .ok ({ p.added (m.metadata k) 0 (mask k 0 enc) with state := .ready }, []) := by
    rw [turn_payload _ _ h hLength, if_pos hCheck, endOfFrame, added_basicHeader, h.header,
      if_pos hFin, added_finalize h, if_neg (by rw [hOp]; exact fun hText => hNotText hText.1)]
    rfl
  -- what is stored of a message in fragments stays
  have hSame : (p.added (m.metadata k) 0 (mask k 0 enc)).fragments = a := by
    unfold Processor.fragments at hFragments ⊢
    rw [added_dataMsg hWhich, hFragments]
  obtain ⟨p', hPump, hAt⟩ := pump_message server maxMessageSize
    (q := { p.added (m.metadata k) 0 (mask k 0 enc) with state := .ready }) rfl
    (added_current p (m.metadata k) 0 (mask k 0 enc))
    ((added_currentMsg p _ _ _).trans (hWhich.trans (if_pos hControl).symm))
    (fun _ m' hm' => hData m' (hSame.symm.trans hm'))
  refine ⟨p', ?_, ?_⟩
  · rw [pump_ok (goesOn_payload h hLength) hTurn, hPump, h.key]
    rfl
  · rw [if_pos (show isControl (MsgMetadata.add (m.metadata k) p.key 0 (mask k 0 enc)).msg.opcode
      = true from hControl)] at hAt
    exact ⟨hAt.state, hAt.needed, hAt.empty, hAt.fragments.trans hSame, hData⟩

/-- **A data frame** extends its message. -/
theorem pump_data (h : Opened p bh size k m) (hLength : enc.length = size)
    (hWhich : p.currentMsg = .dataMsg) (hData : isControl m.msg.opcode = false) :
    Outcome.Rel AtFrame (pump server maxMessageSize (p, enc))
      (extend m bh.getOpcode bh.getFin (mask k 0 enc)) := by
  have hGo := goesOn_payload h hLength
  have hTurn := turn_payload server maxMessageSize h hLength
  have hFinal := added_finalize h (mask k 0 enc)
  have hCheck : checkUtf8 (m.metadata k) (mask k 0 enc) =
      if m.msg.opcode = .text then m.validator.decode (mask k 0 enc) else (true, m.validator) := rfl
  have hNot : ¬ isControl m.msg.opcode = true := by rw [hData]; decide
  unfold extend
  dsimp only
  rw [← hCheck]
  -- the bytes are checked before the frame ends
  by_cases hOk : (checkUtf8 (m.metadata k) (mask k 0 enc)).1 = true
  · rw [if_pos hOk, endOfFrame, added_basicHeader, h.header] at hTurn
    rw [if_neg (by rw [hOk]; decide)]
    by_cases hFin : bh.getFin = true
    · rw [if_pos hFin, hFinal] at hTurn
      rw [if_neg (by rw [hFin]; decide)]
      -- a text that ends inside a character is refused only when the last frame is a TEXT frame
      split at hTurn
      next hBad =>
        rw [if_pos hBad, pump_error hGo hTurn]
        exact ⟨rfl, rfl⟩
      next hGood =>
        rw [if_neg hGood, pump_ok hGo hTurn]
        obtain ⟨p', hPump, hAt⟩ := pump_message server maxMessageSize
          (q := { p.added (m.metadata k) 0 (mask k 0 enc) with state := .ready }) rfl
          (added_current p (m.metadata k) 0 (mask k 0 enc))
          ((added_currentMsg p _ _ _).trans (hWhich.trans (if_neg hNot).symm))
          (fun hControl => absurd hControl hNot)
        rw [if_neg (show ¬ isControl
          (MsgMetadata.add (m.metadata k) p.key 0 (mask k 0 enc)).msg.opcode = true
            from hNot)] at hAt
        dsimp only
        rw [hPump]
        exact ⟨rfl, hAt⟩
    · rw [if_neg hFin] at hTurn
      -- between two frames of a message its bytes and the validator are stored
      have hAt : AtFrame (p.added (m.metadata k) 0 (mask k 0 enc)).resetHeaders
          (some ⟨⟨m.msg.opcode, m.msg.payload ++ mask k 0 enc⟩,
            (checkUtf8 (m.metadata k) (mask k 0 enc)).2⟩) := by
        refine ⟨rfl, rfl, rfl, ?_, ?_⟩
        · unfold Processor.fragments
          rw [resetHeaders_dataMsg]
          unfold added setCurrent
          rw [hWhich]
          rfl
        · rintro _ ⟨⟩
          exact hData
      rw [if_pos (by simpa using hFin), pump_ok hGo hTurn]
      exact pump_wait hAt.waits ▸ Outcome.rel_ok hAt
  · rw [if_neg hOk] at hTurn
    rw [if_pos (by simpa using hOk), pump_error hGo hTurn]
    exact ⟨rfl, rfl⟩

-- ---------------------------------------------------------------------------
-- Whole frames
-- ---------------------------------------------------------------------------

/-- The header is accepted when its size is minimally encoded. -/
theorem validateIncomingExtendedHeader_eq_none_iff (bh : BasicHeader) (e : ExtendedHeader) :
    validateIncomingExtendedHeader bh e = none ↔ Minimal bh e := by
  unfold validateIncomingExtendedHeader Minimal
  dsimp only
  split
  next h => simp [h.1, Nat.not_lt.mpr h.2]
  next h16 =>
    split
    next h => simp [h.1, Nat.not_lt.mpr h.2]
    next h64 =>
      simp only [not_and, Nat.not_le] at h16 h64
      exact iff_of_true rfl ⟨h16, h64⟩

/-- A control frame that is accepted is not a fragment. -/
theorem getFin_of_control {new_msg : Bool}
    (h : validateIncomingBasicHeader bh server new_msg = none)
    (hControl : isControl bh.getOpcode = true) : bh.getFin = true := by
  by_contra hFin
  have hFragment : isControl bh.getOpcode ∧ !bh.getFin := ⟨hControl, by simpa using hFin⟩
  unfold validateIncomingBasicHeader at h
  dsimp only at h
  split at h
  · cases h
  split at h
  · cases h
  split at h
  · cases h
  split at h
  · cases h
  · cases h

/-- A frame is written with the shortest form of its length. -/
theorem minimal_encode (f : Frame) : Minimal f.basicHeader
    (.write .empty 0 (ExtendedHeader.payloadField f.payload.length ++ keyField f.key)) := by
  have hSize : f.basicHeader.getBasicSize = BasicHeader.basicValue f.payload.length :=
    getBasicSize_new
  unfold Minimal
  rw [payloadSize_new hSize f.fits, hSize]
  rcases basicValue_cases f.payload.length with ⟨h1, hv, -⟩ | ⟨h1, -, hv, -⟩ | ⟨h1, hv, -⟩
  · rw [hv]
    exact ⟨fun h => absurd h (ofNat_size h1).2.1, fun h => absurd h (ofNat_size h1).2.2⟩
  · rw [hv]
    exact ⟨fun _ => h1, fun h => absurd h (by decide)⟩
  · rw [hv]
    exact ⟨fun h => absurd h (by decide), fun _ => h1⟩

/-- A data frame belongs to a data message. -/
theorem isControl_message (h : AtFrame p a) (hData : isControl bh.getOpcode = false) :
    isControl (message a bh.getOpcode).msg.opcode = false := by
  cases a with
  | none => exact hData
  | some m => exact h.data m rfl

/-- The loop goes on while the extended header is there. -/
theorem goesOn_afterBasic {r : Bytes} (hLength : r.length + 2 = bh.getHeaderLen) (enc : Bytes) :
    goesOn (p.afterBasic bh, r ++ enc) = true := by
  have hBytes : r ++ enc ≠ [] ∨ (p.afterBasic bh).bytesNeeded = 0 := by
    cases r with
    | nil =>
      right
      show bh.getHeaderLen - 2 = 0
      rw [← hLength]
      rfl
    | cons b r => exact .inl (List.cons_ne_nil b _)
  exact decide_eq_true ⟨State.noConfusion, hBytes⟩

variable (server maxMessageSize) in
/-- The frame of an accepted header. -/
theorem pump_frame (h : AtFrame p a) {r : Bytes} (hLength : r.length + 2 = bh.getHeaderLen)
    (hBasic : validateIncomingBasicHeader bh server a.isNone = none)
    (hMin : Minimal bh (.write .empty 0 r))
    (hEnc : enc.length = getPayloadSize bh (.write .empty 0 r)) :
    Outcome.Rel AtFrame (pump server maxMessageSize (p, bh.b0 :: bh.b1 :: (r ++ enc)))
      (let m := message a bh.getOpcode
      let plain := mask (getMaskingKey bh (.write .empty 0 r)) 0 enc
      if isControl bh.getOpcode then ⟨[⟨bh.getOpcode, plain⟩], .ok a⟩
      else if maxMessageSize < (m.msg.payload.length + plain.length) % 2 ^ 64 then
        error .messageTooBig
      else extend m bh.getOpcode bh.getFin plain) := by
  have hFits : r.length ≤ 12 := by
    have hLen := getHeaderLen_le bh
    omega
  have hGo : goesOn (p, bh.b0 :: bh.b1 :: (r ++ enc)) = true := by
    exact decide_eq_true ⟨h.waits.1, .inl (List.cons_ne_nil _ _)⟩
  -- two turns read the header, and the payload decides about the rest
  have hTurn : turn server maxMessageSize (p, bh.b0 :: bh.b1 :: (r ++ enc)) =
      .ok (p.afterBasic bh, r ++ enc) := by
    rw [turn_twoBytes server maxMessageSize h]
    split
    next ec hBad => cases hBad.symm.trans hBasic
    · rfl
  have hGoNext : goesOn (p.afterBasic bh, r ++ enc) = true := goesOn_afterBasic hLength enc
  have hNext := turn_header server maxMessageSize h bh hLength enc
  rw [(validateIncomingExtendedHeader_eq_none_iff bh _).mpr hMin] at hNext
  dsimp only at hNext ⊢
  rw [pump_ok hGo hTurn, length_mask, hEnc]
  -- the opcode tells which message is opened
  by_cases hControl : isControl bh.getOpcode = true
  · obtain ⟨p₁, hOpen, hOpened, hFragments, hWhich⟩ :=
      openMessage_control maxMessageSize h hFits hControl
    rw [hOpen] at hNext
    obtain ⟨p', hPump, hAt⟩ := pump_control server maxMessageSize hOpened hEnc hWhich hControl
      (getFin_of_control hBasic hControl) rfl hFragments h.data
    rw [pump_ok hGoNext hNext, hPump, if_pos hControl]
    exact ⟨rfl, hAt⟩
  · have hData : isControl bh.getOpcode = false := Bool.eq_false_iff.mpr hControl
    have hSize64 := (size_of_wire hLength hMin).1
    have hOpen := openMessage_data maxMessageSize h hFits hData hSize64
    dsimp only at hOpen
    rw [if_neg hControl]
    split at hOpen
    next hBig =>
      rw [hOpen] at hNext
      rw [if_pos hBig, pump_error hGoNext hNext]
      exact ⟨rfl, rfl⟩
    next hSmall =>
      obtain ⟨p₁, hOpen, hOpened, hWhich⟩ := hOpen
      rw [hOpen] at hNext
      rw [if_neg hSmall, pump_ok hGoNext hNext]
      exact pump_data hOpened hEnc hWhich (isControl_message h hData)

variable (server maxMessageSize) in
/-- **One frame.** -/
theorem read_frame (h : AtFrame p a) (f : Frame) :
    Outcome.Rel AtFrame (handleReadFrame server maxMessageSize p f.encode)
      (accept server maxMessageSize a f) := by
  have hSize : f.basicHeader.getBasicSize = BasicHeader.basicValue f.payload.length :=
    getBasicSize_new
  have hMask : f.basicHeader.getMasked = f.key.isSome := getMasked_new
  have hOp : f.basicHeader.getOpcode = f.opcode := getOpcode_new
  have hFin : f.basicHeader.getFin = f.fin := getFin_new
  have hBytes : f.encode = f.basicHeader.b0 :: f.basicHeader.b1 ::
      ((ExtendedHeader.payloadField f.payload.length ++ keyField f.key) ++
        mask (Words.toBytes 4 (f.key.getD 0)) 0 f.payload) := by
    rw [Frame.encode, Frame.basicHeader, prepareHeader_new]
    rfl
  rw [handleReadFrame_waits h.waits, hBytes]
  unfold accept checkFrame
  cases hBasic : validateIncomingBasicHeader f.basicHeader server a.isNone with
  | some ec =>
    have hTurn := turn_twoBytes server maxMessageSize h
      f.basicHeader.b0 f.basicHeader.b1
      ((ExtendedHeader.payloadField f.payload.length ++ keyField f.key) ++
        mask (Words.toBytes 4 (f.key.getD 0)) 0 f.payload)
    rw [hBasic] at hTurn
    rw [pump_error (decide_eq_true ⟨h.waits.1, .inl (List.cons_ne_nil _ _)⟩) hTurn]
    exact ⟨rfl, rfl⟩
  | none =>
    have hLength : (ExtendedHeader.payloadField f.payload.length ++ keyField f.key).length + 2 =
        f.basicHeader.getHeaderLen := by
      rw [getHeaderLen_of_size hSize hMask, Nat.add_comm]
    have hEnc : (mask (Words.toBytes 4 (f.key.getD 0)) 0 f.payload).length =
        getPayloadSize f.basicHeader (.write .empty 0
          (ExtendedHeader.payloadField f.payload.length ++ keyField f.key)) := by
      rw [length_mask, payloadSize_new hSize f.fits]
    have hRead := pump_frame server maxMessageSize h hLength hBasic (minimal_encode f) hEnc
    rw [maskingKey_new hSize hMask, mask_mask, hOp, hFin] at hRead
    exact hRead

-- ---------------------------------------------------------------------------
-- Many frames
-- ---------------------------------------------------------------------------

variable (server maxMessageSize) in
/-- The bytes of frames do what the protocol says of the frames. -/
theorem run_frames (h : AtFrame p a) (fs : List Frame) {chunks : List Bytes}
    (hChunks : chunks.flatten = fs.flatMap Frame.encode) :
    Outcome.Rel AtFrame (Transducer.run (handleReadFrame server maxMessageSize) p chunks)
      (Transducer.run (accept server maxMessageSize) a fs) := by
  rw [read_chunks _ _ h.idle, hChunks, List.flatMap_def, ← read_chunks _ _ h.idle]
  exact Transducer.run_rel (fun _ _ f hAt => read_frame _ _ hAt f) h fs

/-- A payload that is not all there. -/
theorem pump_payload_short {r : Bytes}
    (hLength : r.length + 2 = bh.getHeaderLen)
    (hOpen : (p.afterHeader bh r).openMessage maxMessageSize = .ok p')
    (hEnc : enc.length < getPayloadSize bh (.write .empty 0 r)) {ms : List Message}
    {q : Processor} (hPump : pump server maxMessageSize (p', enc) = ⟨ms, .ok q⟩) :
    q.state = .application := by
  have hFits : r.length ≤ 12 := by
    have hLen := getHeaderLen_le bh
    omega
  have hSize : (ExtendedHeader.empty.write 0 r).bytes.length = maxExtendedHeaderLength :=
    length_write (by rw [Nat.zero_add]; exact hFits)
  obtain ⟨hState, hNeeded⟩ := openMessage_ok hOpen
  obtain ⟨hExt, hCurrent⟩ := openMessage_current hSize hOpen
  have hState' : p'.state = .application := hState
  have hInv : Inv p' := {
    size := by rw [hExt]; exact hSize
    basic := fun h' => by rw [hState'] at h'; cases h'
    extended := fun h' => by rw [hState'] at h'; cases h'
    payload := fun _ => ⟨_, 0, hCurrent.choose_spec⟩
    ready := fun h' => by rw [hState'] at h'; cases h' }
  have hLt : enc.length < p'.bytesNeeded := by rw [hNeeded]; exact hEnc
  have hNotReady : p'.state ≠ .ready := by rw [hState']; decide
  by_cases hNil : enc = []
  · rw [hNil, pump_wait ⟨hNotReady, by omega⟩] at hPump
    rw [← Except.ok.inj (congrArg Outcome.result hPump)]
    exact hState'
  · have hGo : goesOn (p', enc) = true := decide_eq_true ⟨hNotReady, .inl hNil⟩
    rcases applicationTurn_part hInv hState' hLt hNil with
      ⟨ec, hError⟩ | ⟨p'', hTurn, hSame, hMore, -⟩
    · have hTurn : turn server maxMessageSize (p', enc) = .error ec := by
        rw [turn_application hState', ← hError [], List.append_nil]
      rw [pump_error hGo hTurn] at hPump
      cases congrArg Outcome.result hPump
    · rw [pump_ok hGo ((turn_application hState').trans hTurn),
        pump_wait ⟨by rw [hSame]; decide, hMore⟩] at hPump
      rw [← Except.ok.inj (congrArg Outcome.result hPump)]
      exact hSame

/-- The frame that bytes begin with. -/
theorem frame_of_read (h : AtFrame p a) {ms : List Message} (hBuf : buf ≠ [])
    (hRead : handleReadFrame server maxMessageSize p buf = ⟨ms, .ok p'⟩)
    (hEnd : p'.state = .headerBasic ∧ p'.bytesNeeded = 2) :
    ∃ f : Frame, ∃ tail, buf = f.encode ++ tail := by
  rw [handleReadFrame_waits h.waits] at hRead
  have hEnds : ∀ q : Processor, (ok q : Outcome Message ErrorCode Processor) = ⟨ms, .ok p'⟩ →
      q.state = .headerBasic ∧ q.bytesNeeded = 2 := by
    intro q hq
    rw [Except.ok.inj (congrArg Outcome.result hq)]
    exact hEnd
  rcases buf with _ | ⟨b0, _ | ⟨b1, rest⟩⟩
  · exact absurd rfl hBuf
  · -- one byte
    have hTurn : turn server maxMessageSize (p, [b0]) =
        .ok ({ p with basicHeader.b0 := b0, bytesNeeded := 1 }, []) := by
      rw [turn_basic h.state, basicTurn, copyBasicHeaderBytes_first h.needed]
      rfl
    rw [pump_ok (decide_eq_true ⟨h.waits.1, .inl (List.cons_ne_nil _ _)⟩) hTurn,
      pump_wait (p := { p with basicHeader.b0 := b0, bytesNeeded := 1 })
        ⟨h.waits.1, Nat.one_ne_zero⟩] at hRead
    cases (hEnds _ hRead).2
  · have hGo : goesOn (p, b0 :: b1 :: rest) = true :=
      decide_eq_true ⟨h.waits.1, .inl (List.cons_ne_nil _ _)⟩
    have hTurn := turn_twoBytes server maxMessageSize h b0 b1 rest
    cases hBasic : validateIncomingBasicHeader ⟨b0, b1⟩ server a.isNone with
    | some ec =>
      rw [hBasic] at hTurn
      rw [pump_error hGo hTurn] at hRead
      cases congrArg Outcome.result hRead
    | none =>
      rw [hBasic] at hTurn
      rw [pump_ok hGo hTurn] at hRead
      rcases Nat.lt_or_ge (rest.length + 2) (BasicHeader.getHeaderLen ⟨b0, b1⟩) with hShort | hLong
      · obtain ⟨q, hPump, hState⟩ := pump_header_short server maxMessageSize h ⟨b0, b1⟩ hShort
        rw [hPump] at hRead
        cases hState.symm.trans (hEnds q hRead).1
      -- the rest of the header
      have hHeader : 2 ≤ BasicHeader.getHeaderLen ⟨b0, b1⟩ := by
        unfold BasicHeader.getHeaderLen basicHeaderLength
        omega
      obtain ⟨r, rest', rfl, hLength⟩ : ∃ r rest', rest = r ++ rest' ∧
          r.length + 2 = BasicHeader.getHeaderLen ⟨b0, b1⟩ := by
        refine ⟨rest.take (BasicHeader.getHeaderLen ⟨b0, b1⟩ - 2),
          rest.drop (BasicHeader.getHeaderLen ⟨b0, b1⟩ - 2),
          (List.take_append_drop _ _).symm, ?_⟩
        rw [List.length_take]
        omega
      have hNext := turn_header server maxMessageSize h ⟨b0, b1⟩ hLength rest'
      have hGoNext : goesOn (p.afterBasic ⟨b0, b1⟩, r ++ rest') = true :=
        goesOn_afterBasic hLength rest'
      cases hExt : validateIncomingExtendedHeader ⟨b0, b1⟩ (.write .empty 0 r) with
      | some ec =>
        rw [hExt] at hNext
        rw [pump_error hGoNext hNext] at hRead
        cases congrArg Outcome.result hRead
      | none =>
        have hMin := (validateIncomingExtendedHeader_eq_none_iff _ _).mp hExt
        rw [hExt] at hNext
        dsimp only at hNext
        cases hOpen : (p.afterHeader ⟨b0, b1⟩ r).openMessage maxMessageSize with
        | error ec =>
          rw [hOpen] at hNext
          rw [pump_error hGoNext hNext] at hRead
          cases congrArg Outcome.result hRead
        | ok p₁ =>
          rw [hOpen] at hNext
          rw [pump_ok hGoNext hNext] at hRead
          rcases Nat.lt_or_ge rest'.length
            (getPayloadSize ⟨b0, b1⟩ (.write .empty 0 r)) with hShort | hLong
          · have hState := pump_payload_short hLength hOpen hShort hRead
            cases hState.symm.trans hEnd.1
          · -- the frame is all there
            refine ⟨.ofWire ⟨b0, b1⟩ r (rest'.take _) (size_of_wire hLength hMin).1
              (List.length_take_of_le hLong),
              rest'.drop (getPayloadSize ⟨b0, b1⟩ (.write .empty 0 r)), ?_⟩
            rw [Frame.encode_ofWire hLength hMin, List.append_assoc, List.take_append_drop]
            rfl

/-- A frame has two bytes at least. -/
theorem two_le_length_encode (f : Frame) : 2 ≤ f.encode.length := by
  rw [Frame.encode, Frame.basicHeader, prepareHeader_new]
  show 2 ≤ (_ :: _ :: _).length
  exact Nat.le_add_left 2 _

/-- The frames that bytes consist of. -/
theorem frames_of_read (h : AtFrame p a) {ms : List Message}
    (hRead : handleReadFrame server maxMessageSize p buf = ⟨ms, .ok p'⟩)
    (hEnd : p'.state = .headerBasic ∧ p'.bytesNeeded = 2) :
    ∃ fs a', buf = fs.flatMap Frame.encode ∧
      Transducer.run (accept server maxMessageSize) a fs = ⟨ms, .ok a'⟩ := by
  induction hLength : buf.length using Nat.strongRecOn generalizing p a buf ms with
  | _ n ih =>
    subst hLength
    by_cases hNil : buf = []
    · rw [hNil, handleReadFrame_nil] at hRead
      refine ⟨[], a, hNil, ?_⟩
      obtain rfl : [] = ms := congrArg Outcome.outputs hRead
      rfl
    obtain ⟨f, tail, rfl⟩ := frame_of_read h hNil hRead hEnd
    have hTwo := two_le_length_encode f
    -- the first frame is read on its own, and the rest by induction
    have hSplit : handleReadFrame server maxMessageSize p (f.encode ++ tail) =
        (handleReadFrame server maxMessageSize p f.encode).andThen fun q =>
          handleReadFrame server maxMessageSize q tail := by
      have hChunks := read_chunks server maxMessageSize h.idle [f.encode, tail]
      rw [List.flatten_cons, List.flatten_singleton] at hChunks
      rw [← hChunks, Transducer.run_cons]
      simp only [Transducer.run_cons, Transducer.run_nil, Outcome.andThen_ok]
    have hFrame := read_frame server maxMessageSize h f
    rw [hSplit] at hRead
    rcases hFirst : handleReadFrame server maxMessageSize p f.encode with ⟨ms₁, ec | q⟩
    · rw [hFirst] at hRead
      cases congrArg Outcome.result hRead
    · rw [hFirst] at hRead hFrame
      obtain ⟨a₁, hAccept, hAt⟩ := hFrame.of_ok
      have hOutputs : ms₁ ++ (handleReadFrame server maxMessageSize q tail).outputs = ms :=
        congrArg Outcome.outputs hRead
      have hRest : handleReadFrame server maxMessageSize q tail =
          ⟨(handleReadFrame server maxMessageSize q tail).outputs, .ok p'⟩ := by
        rw [← show (handleReadFrame server maxMessageSize q tail).result = .ok p' from
          congrArg Outcome.result hRead]
      have hShorter : tail.length < (f.encode ++ tail).length := by
        rw [List.length_append]
        omega
      obtain ⟨fs, a', hTail, hRun⟩ := ih _ hShorter hAt hRest rfl
      refine ⟨f :: fs, a', ?_, ?_⟩
      · rw [List.flatMap_cons, ← hTail]
      · rw [Transducer.run_cons, hAccept, ← hOutputs]
        exact congrArg (Outcome.prepend ms₁) hRun

end

-- ---------------------------------------------------------------------------
-- From the start of a connection
-- ---------------------------------------------------------------------------

/-- **The bytes of frames**, in whatever pieces they come, do what the protocol
says of the frames. -/
theorem read_frames (server : Bool) (maxMessageSize : ℕ) (fs : List Frame) {chunks : List Bytes}
    (hChunks : chunks.flatten = fs.flatMap Frame.encode) :
    Outcome.Rel AtFrame (Transducer.run (handleReadFrame server maxMessageSize) new chunks)
      (Transducer.run (accept server maxMessageSize) none fs) :=
  run_frames server maxMessageSize atFrame_new fs hChunks

/-- Two fragments in three pieces. -/
theorem read_frames_pieces : Outcome.Rel AtFrame
    (Transducer.run (handleReadFrame false 8) new [[0x01, 0x02, 72], [105, 0x80], [0x01, 33]])
    (Transducer.run (accept false 8) none
      [⟨1, false, false, false, false, none, [72, 105], by decide⟩,
        ⟨0, true, false, false, false, none, [33], by decide⟩]) :=
  read_frames false 8 _ (by decide)

/-- **What is read to the end of a frame** is a list of frames that the protocol
accepts, and only that is. -/
theorem read_iff (server : Bool) (maxMessageSize : ℕ) (chunks : List Bytes) (ms : List Message) :
    (∃ p', Transducer.run (handleReadFrame server maxMessageSize) new chunks = ⟨ms, .ok p'⟩ ∧
      p'.state = .headerBasic ∧ p'.bytesNeeded = 2) ↔
    ∃ fs a', chunks.flatten = fs.flatMap Frame.encode ∧
      Transducer.run (accept server maxMessageSize) none fs = ⟨ms, .ok a'⟩ := by
  constructor
  · rintro ⟨p', hRead, hEnd⟩
    rw [read_chunks _ _ idle_new] at hRead
    exact frames_of_read atFrame_new hRead hEnd
  · rintro ⟨fs, a', hChunks, hRun⟩
    have hRel := run_frames server maxMessageSize atFrame_new fs hChunks
    rw [hRun] at hRel
    obtain ⟨p', hRead, hAt⟩ := hRel.to_ok
    exact ⟨p', hRead, hAt.state, hAt.needed⟩

end Processor

end PushStreamer.Wire
