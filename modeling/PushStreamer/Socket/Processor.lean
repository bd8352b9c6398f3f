import PushStreamer.Lib.Loop
import PushStreamer.Socket.Masking
import PushStreamer.Socket.Utf8Validator

/-!
# The frame processor

`hybi13.hpp`: the state machine that takes the bytes of a connection and puts
messages together, and the loop of `handle_read_frame` that runs it over what the
transport has read. `permessage_deflate` is the disabled one of the
configuration, so nothing is compressed.

* `turn_decreases` — every turn of `consume` takes a byte or comes nearer to the
  end of a frame.
* `turn_basic`, `turn_extended`, `turn_application` — a turn, by the state.
-/

namespace PushStreamer.Wire

open Endpoint (Bytes Opcode)
open Endpoint.Opcode (isControl)

-- ---------------------------------------------------------------------------
-- The processor
-- ---------------------------------------------------------------------------

/-- The error codes of the processor. -/
inductive ErrorCode where
  | general
  | messageTooBig
  | invalidPayload
  | invalidOpcode
  | controlTooBig
  | invalidRsvBit
  | fragmentedControl
  | invalidContinuation
  | maskingRequired
  | maskingForbidden
  | nonMinimalEncoding
  | invalidUtf8
  | reservedCloseCode
  | invalidCloseCode
  | badCloseCode
  | reasonRequiresCode
deriving DecidableEq

/-- A message that is received. -/
structure Message where
  opcode : Opcode
  payload : Bytes
deriving DecidableEq

/-- `msg_metadata` with its message. -/
structure MsgMetadata where
  msg : Message
  preparedKey : ℕ
  validator : Validator
deriving DecidableEq

/-- `state`; `EXTENSION` and `FATAL_ERROR` are never entered. -/
inductive State where
  | headerBasic
  | headerExtended
  | application
  | ready
deriving DecidableEq

/-- Where `m_current_msg` points to. -/
inductive Current where
  | dataMsg
  | controlMsg
deriving DecidableEq

/-- `hybi13`; a message is `none` while its `msg_ptr` is null. -/
structure Processor where
  state : State
  basicHeader : BasicHeader
  extendedHeader : ExtendedHeader
  bytesNeeded : ℕ
  cursor : ℕ
  dataMsg : Option MsgMetadata
  controlMsg : Option MsgMetadata
  currentMsg : Current
deriving DecidableEq

namespace Processor

def resetHeaders (p : Processor) : Processor :=
  { p with
    state := .headerBasic
    bytesNeeded := basicHeaderLength
    basicHeader := ⟨0, 0⟩
    extendedHeader := .empty }

/-- The constructor; `m_cursor` and `m_current_msg` are set before they are read. -/
def new : Processor where
  state := .headerBasic
  basicHeader := ⟨0, 0⟩
  extendedHeader := .empty
  bytesNeeded := basicHeaderLength
  cursor := 0
  dataMsg := none
  controlMsg := none
  currentMsg := .dataMsg

/-- `*m_current_msg`. -/
def current (p : Processor) : Option MsgMetadata :=
  match p.currentMsg with
  | .dataMsg => p.dataMsg
  | .controlMsg => p.controlMsg

def setCurrent (p : Processor) (m : Option MsgMetadata) : Processor :=
  match p.currentMsg with
  | .dataMsg => { p with dataMsg := m }
  | .controlMsg => { p with controlMsg := m }

/-- `copy_basic_header_bytes`: the processor, and the bytes that are left. -/
def copyBasicHeaderBytes (p : Processor) : Bytes → Processor × Bytes
  | [] => (p, [])
  | a :: rest =>
    if p.bytesNeeded = 0 then (p, a :: rest)
    else
      match rest with
      | b :: rest' =>
        if p.bytesNeeded = 2 then
          ({ p with basicHeader := ⟨a, b⟩, bytesNeeded := p.bytesNeeded - 2 }, rest')
        else
          ({ p with basicHeader.b1 := a, bytesNeeded := p.bytesNeeded - 1 }, b :: rest')
      | [] =>
        if p.bytesNeeded = 2 then
          ({ p with basicHeader.b0 := a, bytesNeeded := p.bytesNeeded - 1 }, [])
        else
          ({ p with basicHeader.b1 := a, bytesNeeded := p.bytesNeeded - 1 }, [])

def copyExtendedHeaderBytes (p : Processor) (buf : Bytes) : Processor × Bytes :=
  let bytes_to_read := min p.bytesNeeded buf.length
  ({ p with
      extendedHeader := p.extendedHeader.write p.cursor (buf.take bytes_to_read)
      cursor := p.cursor + bytes_to_read
      bytesNeeded := p.bytesNeeded - bytes_to_read },
    buf.drop bytes_to_read)

/-- What `process_payload_bytes` makes of its buffer, and the key for the next
bytes. -/
def unmask (h : BasicHeader) (prepared_key : ℕ) (buf : Bytes) : Bytes × ℕ :=
  if h.getMasked then byteMaskCirc buf prepared_key else (buf, prepared_key)

/-- The check of the bytes that are added to a message. -/
def checkUtf8 (m : MsgMetadata) (bytes : Bytes) : Bool × Validator :=
  if m.msg.opcode = .text then m.validator.decode bytes else (true, m.validator)

/-- `process_payload_bytes`. -/
def processPayloadBytes (p : Processor) (buf : Bytes) : Except ErrorCode Processor :=
  match p.current with
  -- `m_current_msg` has a message while a payload is read
  | none => .error .general
  | some m =>
    let r := unmask p.basicHeader m.preparedKey buf
    let out : Message := { m.msg with payload := m.msg.payload ++ r.1 }
    let c := checkUtf8 m r.1
    if c.1 then
      .ok { p.setCurrent (some ⟨out, r.2, c.2⟩) with bytesNeeded := p.bytesNeeded - buf.length }
    else .error .invalidUtf8

end Processor

/-- `validate_incoming_basic_header`; no opcode is invalid, since it has four bits. -/
def validateIncomingBasicHeader (h : BasicHeader) (is_server new_msg : Bool) : Option ErrorCode :=
  let op := h.getOpcode
  if isControl op ∧ payloadSizeBasic < h.getBasicSize.toNat then some .controlTooBig
  else if h.getRsv1 then some .invalidRsvBit
  else if h.getRsv2 ∨ h.getRsv3 then some .invalidRsvBit
  else if reserved op then some .invalidOpcode
  else if isControl op ∧ !h.getFin then some .fragmentedControl
  else if new_msg ∧ op = opContinuation then some .invalidContinuation
  else if !new_msg ∧ !isControl op ∧ op ≠ opContinuation then some .invalidContinuation
  else if is_server ∧ !h.getMasked then some .maskingRequired
  else if !is_server ∧ h.getMasked then some .maskingForbidden
  else none

/-- `validate_incoming_extended_header`, with a `size_t` of eight bytes. -/
def validateIncomingExtendedHeader (h : BasicHeader) (e : ExtendedHeader) : Option ErrorCode :=
  let basic_size := h.getBasicSize
  let payload_size := getPayloadSize h e
  if basic_size = payloadSizeCode16bit ∧ payload_size ≤ payloadSizeBasic then
    some .nonMinimalEncoding
  else if basic_size = payloadSizeCode64bit ∧ payload_size ≤ payloadSizeExtended then
    some .nonMinimalEncoding
  else none

namespace Processor

/-- `finalize_message`. -/
def finalizeMessage (p : Processor) : Except ErrorCode Processor :=
  match p.current with
  | none => .error .general
  | some m =>
    if p.basicHeader.getOpcode = .text ∧ !m.validator.complete then .error .invalidUtf8
    else .ok { p with state := .ready }

/-- The branch of `HEADER_BASIC`. -/
def basicTurn (server : Bool) (p : Processor) (buf : Bytes) :
    Except ErrorCode (Processor × Bytes) :=
  let r := p.copyBasicHeaderBytes buf
  if 0 < r.1.bytesNeeded then .ok r
  else
    match validateIncomingBasicHeader r.1.basicHeader server r.1.dataMsg.isNone with
    | some ec => .error ec
    | none =>
      .ok ({ r.1 with
              state := .headerExtended
              cursor := 0
              bytesNeeded := r.1.basicHeader.getHeaderLen - basicHeaderLength }, r.2)

/-- The message that a header begins or goes on with; sums of sizes are `size_t`. -/
def openMessage (maxMessageSize : ℕ) (p : Processor) : Except ErrorCode Processor :=
  let op := p.basicHeader.getOpcode
  let prepared_key := prepareMaskingKey (getMaskingKey p.basicHeader p.extendedHeader)
  if isControl op then
    .ok { p with controlMsg := some ⟨⟨op, []⟩, prepared_key, .new⟩, currentMsg := .controlMsg }
  else
    match p.dataMsg with
    | none =>
      if maxMessageSize < p.bytesNeeded then .error .messageTooBig
      else .ok { p with dataMsg := some ⟨⟨op, []⟩, prepared_key, .new⟩, currentMsg := .dataMsg }
    | some m =>
      if maxMessageSize < (m.msg.payload.length + p.bytesNeeded) % 2 ^ 64 then
        .error .messageTooBig
      else
        .ok { p with
              dataMsg := some { m with preparedKey := prepared_key }
              currentMsg := .dataMsg }

/-- The branch of `HEADER_EXTENDED`. -/
def extendedTurn (maxMessageSize : ℕ) (p : Processor) (buf : Bytes) :
    Except ErrorCode (Processor × Bytes) :=
  let r := p.copyExtendedHeaderBytes buf
  if 0 < r.1.bytesNeeded then .ok r
  else
    match validateIncomingExtendedHeader r.1.basicHeader r.1.extendedHeader with
    | some ec => .error ec
    | none =>
      let p :=
        { r.1 with
          state := .application
          bytesNeeded := getPayloadSize r.1.basicHeader r.1.extendedHeader }
      (p.openMessage maxMessageSize).map (·, r.2)

/-- What follows the last byte of a payload. -/
def endOfFrame (p : Processor) : Except ErrorCode Processor :=
  if p.basicHeader.getFin then p.finalizeMessage else .ok p.resetHeaders

/-- The branch of `APPLICATION`. -/
def applicationTurn (p : Processor) (buf : Bytes) : Except ErrorCode (Processor × Bytes) :=
  let bytes_to_process := min p.bytesNeeded buf.length
  let r :=
    if 0 < bytes_to_process then p.processPayloadBytes (buf.take bytes_to_process) else .ok p
  match r with
  | .error ec => .error ec
  | .ok p =>
    if 0 < p.bytesNeeded then .ok (p, buf.drop bytes_to_process)
    else p.endOfFrame.map (·, buf.drop bytes_to_process)

/-- One turn of the loop of `consume`. -/
def turn (server : Bool) (maxMessageSize : ℕ) (x : Processor × Bytes) :
    Except ErrorCode (Processor × Bytes) :=
  match x.1.state with
  | .headerBasic => x.1.basicTurn server x.2
  | .headerExtended => x.1.extendedTurn maxMessageSize x.2
  | .application => x.1.applicationTurn x.2
  | .ready => .error .general

/-- The condition of the loop of `consume`. -/
def goesOn (x : Processor × Bytes) : Bool :=
  x.1.state ≠ .ready ∧ (x.2 ≠ [] ∨ x.1.bytesNeeded = 0)

/-- `get_message`. -/
def getMessage (p : Processor) : Option Message × Processor :=
  if p.state ≠ .ready then (none, p)
  else
    match p.current with
    | none => (none, p.resetHeaders)
    | some m =>
      let p := p.setCurrent none
      (some m.msg,
        (if isControl m.msg.opcode then { p with controlMsg := none }
          else { p with dataMsg := none }).resetHeaders)

end Processor

-- ---------------------------------------------------------------------------
-- The loops
-- ---------------------------------------------------------------------------

namespace Processor

/-- How far a frame is from its end, apart from the bytes that are to come. -/
def rank (p : Processor) : ℕ :=
  match p.state with
  | .headerBasic => if p.bytesNeeded = 0 then 4 else 0
  | .headerExtended => 3
  | .application => 2
  | .ready => 1

/-- What a turn lowers. -/
def measure (x : Processor × Bytes) : ℕ := 4 * x.2.length + x.1.rank

section

variable {server : Bool} {maxMessageSize : ℕ} {p p' : Processor} {buf buf' : Bytes}

/-- What comes out of a changed result was the result of something. -/
theorem of_map_eq_ok {ε α β : Type} {x : Except ε α} {f : α → β} {b : β} (h : x.map f = .ok b) :
    ∃ a, x = .ok a ∧ f a = b := by
  cases x with
  | error e => cases h
  | ok a => exact ⟨a, rfl, Except.ok.inj h⟩

@[simp] theorem resetHeaders_state (p : Processor) : p.resetHeaders.state = .headerBasic := rfl
@[simp] theorem resetHeaders_bytesNeeded (p : Processor) : p.resetHeaders.bytesNeeded = 2 := rfl
@[simp] theorem resetHeaders_dataMsg (p : Processor) : p.resetHeaders.dataMsg = p.dataMsg := rfl

@[simp] theorem setCurrent_state (p : Processor) (m : Option MsgMetadata) :
    (p.setCurrent m).state = p.state := by
  unfold setCurrent
  cases p.currentMsg <;> rfl

@[simp] theorem setCurrent_bytesNeeded (p : Processor) (m : Option MsgMetadata) :
    (p.setCurrent m).bytesNeeded = p.bytesNeeded := by
  unfold setCurrent
  cases p.currentMsg <;> rfl

/-- A basic header byte that is asked for is taken when there is one. -/
theorem copyBasicHeaderBytes_lt (h : p.bytesNeeded = 0 ∨ buf ≠ []) :
    (p.copyBasicHeaderBytes buf).1.state = p.state ∧
      (p.bytesNeeded = 0 ∧ (p.copyBasicHeaderBytes buf) = (p, buf) ∨
        (p.copyBasicHeaderBytes buf).2.length < buf.length) := by
  unfold copyBasicHeaderBytes
  rcases buf with _ | ⟨a, _ | ⟨b, rest⟩⟩
  · rcases h with h | h
    · exact ⟨rfl, .inl ⟨h, rfl⟩⟩
    · exact absurd rfl h
  all_goals
    dsimp only
    by_cases hNeeded : p.bytesNeeded = 0
    · rw [if_pos hNeeded]
      exact ⟨rfl, .inl ⟨hNeeded, rfl⟩⟩
    · rw [if_neg hNeeded]
      split <;> exact ⟨rfl, .inr (by simp only [List.length_cons]; omega)⟩

/-- A piece of the payload is counted. -/
theorem processPayloadBytes_ok (h : p.processPayloadBytes buf = .ok p') :
    p'.state = p.state ∧ p'.bytesNeeded = p.bytesNeeded - buf.length := by
  unfold processPayloadBytes at h
  split at h
  · cases h
  · dsimp only at h
    split at h
    · rw [← Except.ok.inj h]
      exact ⟨setCurrent_state _ _, rfl⟩
    · cases h

/-- A message that is opened does not change what is to be read. -/
theorem openMessage_ok (h : p.openMessage maxMessageSize = .ok p') :
    p'.state = p.state ∧ p'.bytesNeeded = p.bytesNeeded := by
  unfold openMessage at h
  dsimp only at h
  split at h
  · rw [← Except.ok.inj h]
    exact ⟨rfl, rfl⟩
  split at h
  all_goals
    split at h
    · cases h
    · rw [← Except.ok.inj h]
      exact ⟨rfl, rfl⟩

/-- After a frame a message is ready, or the next header is read. -/
theorem endOfFrame_ok (h : p.endOfFrame = .ok p') :
    p'.state = .ready ∨ p'.state = .headerBasic ∧ p'.bytesNeeded = 2 := by
  unfold endOfFrame at h
  split at h
  · unfold finalizeMessage at h
    split at h
    · cases h
    split at h
    · cases h
    · rw [← Except.ok.inj h]
      exact .inl rfl
  · rw [← Except.ok.inj h]
    exact .inr ⟨rfl, rfl⟩

/-- A turn with a basic header makes progress if it has bytes, or nothing to wait for. -/
theorem basicTurn_measure (hState : p.state = .headerBasic) (h : p.bytesNeeded = 0 ∨ buf ≠ [])
    (hTurn : p.basicTurn server buf = .ok (p', buf')) :
    measure (p', buf') < measure (p, buf) := by
  obtain ⟨hSame, hCopy⟩ := copyBasicHeaderBytes_lt h
  unfold basicTurn at hTurn
  unfold measure
  dsimp only at hTurn ⊢
  split at hTurn
  · -- one byte of two
    next hMore =>
    rw [Except.ok.inj hTurn] at hMore hSame hCopy
    dsimp only at hMore hSame hCopy
    have hRank : p'.rank = 0 := by rw [rank, hSame, hState]; exact if_neg (by omega)
    rcases hCopy with ⟨hZero, hEq⟩ | hLess
    · rw [(Prod.mk.inj hEq).1] at hMore
      omega
    · omega
  · split at hTurn
    · cases hTurn
    · obtain ⟨rfl, rfl⟩ := Prod.mk.inj (Except.ok.inj hTurn)
      rcases hCopy with ⟨hZero, hEq⟩ | hLess
      · have hRank : p.rank = 4 := by rw [rank, hState]; exact if_pos hZero
        rw [hRank, hEq]
        exact Nat.lt_succ_self _
      · simp only [rank]
        omega

/-- The same of a turn with an extended header. -/
theorem extendedTurn_measure (hState : p.state = .headerExtended)
    (h : p.bytesNeeded = 0 ∨ buf ≠ [])
    (hTurn : p.extendedTurn maxMessageSize buf = .ok (p', buf')) :
    measure (p', buf') < measure (p, buf) := by
  have hRank : p.rank = 3 := by rw [rank, hState]
  unfold extendedTurn copyExtendedHeaderBytes at hTurn
  unfold measure
  dsimp only at hTurn ⊢
  split at hTurn
  · next hMore =>
    obtain ⟨rfl, rfl⟩ := Prod.mk.inj (Except.ok.inj hTurn)
    have hSome : 0 < buf.length := List.length_pos_iff.mpr (h.resolve_left (by omega))
    simp only [rank, hState, List.length_drop]
    omega
  · split at hTurn
    · cases hTurn
    · obtain ⟨p₁, hOpen, hPair⟩ := of_map_eq_ok hTurn
      obtain ⟨rfl, rfl⟩ := Prod.mk.inj hPair
      have hAfter := (openMessage_ok hOpen).1
      rw [hRank, rank, hAfter, List.length_drop]
      dsimp only
      omega

/-- The same of a turn with a payload. -/
theorem applicationTurn_measure (hState : p.state = .application)
    (h : p.bytesNeeded = 0 ∨ buf ≠ []) (hTurn : p.applicationTurn buf = .ok (p', buf')) :
    measure (p', buf') < measure (p, buf) := by
  have hRank : p.rank = 2 := by rw [rank, hState]
  unfold applicationTurn at hTurn
  unfold measure
  dsimp only at hTurn ⊢
  split at hTurn
  · cases hTurn
  · next p₁ hProcess =>
    have hNext : p₁.state = .application ∧
        p₁.bytesNeeded = p.bytesNeeded - min p.bytesNeeded buf.length := by
      split at hProcess
      · have hOk := processPayloadBytes_ok hProcess
        rw [List.length_take, Nat.min_assoc, Nat.min_self] at hOk
        exact ⟨hOk.1.trans hState, hOk.2⟩
      · rw [← Except.ok.inj hProcess]
        exact ⟨hState, by omega⟩
    split at hTurn
    · next hMore =>
      obtain ⟨rfl, rfl⟩ := Prod.mk.inj (Except.ok.inj hTurn)
      have hSome : 0 < buf.length := List.length_pos_iff.mpr (h.resolve_left (by omega))
      simp only [rank, hNext.1, hState, List.length_drop]
      omega
    · obtain ⟨p₂, hEnd, hPair⟩ := of_map_eq_ok hTurn
      obtain ⟨rfl, rfl⟩ := Prod.mk.inj hPair
      rw [hRank, List.length_drop]
      rcases endOfFrame_ok hEnd with hReady | ⟨hBasic, hTwo⟩
      · rw [rank, hReady]
        dsimp only
        omega
      · rw [rank, hBasic, hTwo, if_neg (by decide)]
        dsimp only
        omega

/-- What a turn is, by the state. -/
theorem turn_basic {x : Processor × Bytes} (h : x.1.state = .headerBasic) :
    turn server maxMessageSize x = x.1.basicTurn server x.2 := by
  rw [turn, h]

/-- The turn of a processor that waits for the extended header. -/
theorem turn_extended {x : Processor × Bytes} (h : x.1.state = .headerExtended) :
    turn server maxMessageSize x = x.1.extendedTurn maxMessageSize x.2 := by
  rw [turn, h]

/-- The turn of a processor that waits for a payload. -/
theorem turn_application {x : Processor × Bytes} (h : x.1.state = .application) :
    turn server maxMessageSize x = x.1.applicationTurn x.2 := by
  rw [turn, h]

/-- A processor that is ready takes no more. -/
theorem turn_ready {x : Processor × Bytes} (h : x.1.state = .ready) :
    turn server maxMessageSize x = .error .general := by
  rw [turn, h]

/-- **Every turn** takes a byte, or comes nearer to the end of the frame. -/
theorem turn_decreases (x x' : Processor × Bytes) (h : goesOn x = true)
    (hTurn : turn server maxMessageSize x = .ok x') : measure x' < measure x := by
  simp only [goesOn, decide_eq_true_eq] at h
  obtain ⟨hState, hBytes⟩ := h
  cases hWhere : x.1.state with
  | ready => exact absurd hWhere hState
  | headerBasic =>
    rw [turn_basic hWhere] at hTurn
    exact basicTurn_measure hWhere hBytes.symm hTurn
  | headerExtended =>
    rw [turn_extended hWhere] at hTurn
    exact extendedTurn_measure hWhere hBytes.symm hTurn
  | application =>
    rw [turn_application hWhere] at hTurn
    exact applicationTurn_measure hWhere hBytes.symm hTurn

end

/-- The loop of `consume`. -/
def consumeLoop (server : Bool) (maxMessageSize : ℕ) : While ErrorCode (Processor × Bytes) where
  cond := goesOn
  body := turn server maxMessageSize
  measure := measure
  decreases := turn_decreases

/-- `consume`: the processor and the bytes that are left, or the error code. After
an error nothing more is read. -/
def consume (server : Bool) (maxMessageSize : ℕ) (x : Processor × Bytes) :
    Except ErrorCode (Processor × Bytes) :=
  (consumeLoop server maxMessageSize).run x

end Processor

end PushStreamer.Wire
