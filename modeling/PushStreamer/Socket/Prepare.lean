import Mathlib.Data.List.Forall2
import PushStreamer.Socket.Frames

/-!
# Frames that are sent

`hybi13.hpp`: how a call of `send`, `ping`, `pong` or `close` becomes the bytes of
a frame, and what the other end makes of them. `permessage_deflate` is disabled.

* `prepareFrame_bytes` — what is written is a frame.
* `extract_prepareClose` — the code and the reason of a close come back from it.
* `sent_received_iff` — the calls whose messages become ready at the other end, all
  of them and in their order.
-/

namespace PushStreamer.Wire

open Endpoint (Bytes Opcode)
open Endpoint.Opcode (isControl)
open Outcome (ok error)
open Words (ofBytes toBytes swap)

-- ---------------------------------------------------------------------------
-- Preparing
-- ---------------------------------------------------------------------------

/-- A message that is prepared. -/
structure Prepared where
  opcode : Opcode
  header : Bytes
  payload : Bytes
deriving DecidableEq

/-- What is written to the transport. -/
def Prepared.bytes (m : Prepared) : Bytes := m.header ++ m.payload

/-- What `prepare_data_frame` and `prepare_control` do after their checks; `rng` is
what `m_rng` returns. -/
def prepareFrame (server : Bool) (rng : UInt32) (op : Opcode) (fin : Bool) (payload : Bytes) :
    Prepared :=
  let masked := !server
  { opcode := op
    header := prepareHeader (.new op payload.length fin masked false false false)
      (.new payload.length (if masked then some rng.toNat else none))
    payload := if masked then byteMask payload (toBytes 4 rng.toNat) 0 else payload }

def prepareDataFrame (server : Bool) (rng : UInt32) (op : Opcode) (fin : Bool) (payload : Bytes) :
    Except ErrorCode Prepared :=
  if isControl op then .error .invalidOpcode
  else if op = .text ∧ !validate payload then .error .invalidPayload
  else .ok (prepareFrame server rng op fin payload)

def prepareControl (server : Bool) (rng : UInt32) (op : Opcode) (payload : Bytes) :
    Except ErrorCode Prepared :=
  if !isControl op then .error .invalidOpcode
  else if payloadSizeBasic < payload.length then .error .controlTooBig
  else .ok (prepareFrame server rng op true payload)

def preparePing (server : Bool) (rng : UInt32) (payload : Bytes) : Except ErrorCode Prepared :=
  prepareControl server rng .ping payload

def preparePong (server : Bool) (rng : UInt32) (payload : Bytes) : Except ErrorCode Prepared :=
  prepareControl server rng .pong payload

-- ---------------------------------------------------------------------------
-- The payload of a close
-- ---------------------------------------------------------------------------

namespace Close

def noStatus : ℕ := 1005
def abnormalClose : ℕ := 1006
def protocolError : ℕ := 1002
def tlsHandshake : ℕ := 1015

/-- `close::status::reserved`. -/
def reserved (code : ℕ) : Bool := 1016 ≤ code ∧ code ≤ 2999 ∨ code = 1004

/-- `close::status::invalid`. -/
def invalid (code : ℕ) : Bool :=
  code ≤ 999 ∨ 5000 ≤ code ∨ code = noStatus ∨ code = abnormalClose ∨ code = tlsHandshake

def htons (hostshort : ℕ) : ℕ := swap 2 hostshort

/-- `extract_code`: the code, and what is wrong with it. -/
def extractCode (payload : Bytes) : ℕ × Option ErrorCode :=
  if payload.length = 0 then (noStatus, none)
  else if payload.length = 1 then (protocolError, some .badCloseCode)
  else
    let code := ntohs (ofBytes (payload.take 2))
    (code,
      if reserved code then some .reservedCloseCode
      else if invalid code then some .invalidCloseCode
      else none)

def extractReason (payload : Bytes) : Bytes × Option ErrorCode :=
  let reason := if 2 < payload.length then payload.drop 2 else []
  (reason, if !validate reason then some .invalidUtf8 else none)

end Close

/-- The payload that `prepare_close` writes. -/
def closePayload (code : UInt16) (reason : Bytes) : Bytes :=
  if code.toNat = Close.noStatus then [] else toBytes 2 (Close.htons code.toNat) ++ reason

def prepareClose (server : Bool) (rng : UInt32) (code : UInt16) (reason : Bytes) :
    Except ErrorCode Prepared :=
  if Close.reserved code.toNat then .error .reservedCloseCode
  else if Close.invalid code.toNat ∧ code.toNat ≠ Close.noStatus then .error .invalidCloseCode
  else if code.toNat = Close.noStatus ∧ 0 < reason.length then .error .reasonRequiresCode
  else if payloadSizeBasic - 2 < reason.length then .error .controlTooBig
  else prepareControl server rng opClose (closePayload code reason)

/-- `close`: the reason is cut to the size that fits. -/
def closeReasonSize : ℕ := 123

/-- The calls that write a frame. -/
inductive Call where
  -- sizes have 64 bits
  | send (op : Opcode) (payload : Bytes) (hFits : payload.length < 2 ^ 64)
  | ping (payload : Bytes)
  | pong (payload : Bytes)
  | close (code : UInt16) (reason : Bytes)

namespace Call

def prepare (server : Bool) (rng : UInt32) : Call → Except ErrorCode Prepared
  | send op payload _ => prepareDataFrame server rng op true payload
  | ping payload => preparePing server rng payload
  | pong payload => preparePong server rng payload
  | close code reason => prepareClose server rng code (reason.take closeReasonSize)

/-- The message that a call sends. -/
def message : Call → Message
  | send op payload _ => ⟨op, payload⟩
  | ping payload => ⟨.ping, payload⟩
  | pong payload => ⟨.pong, payload⟩
  | close code reason => ⟨opClose, closePayload code (reason.take closeReasonSize)⟩

end Call

-- ---------------------------------------------------------------------------
-- What is written is a frame
-- ---------------------------------------------------------------------------

/-- The frame of a whole message. -/
def sentFrame (server : Bool) (rng : UInt32) (m : Message) (hFits : m.payload.length < 2 ^ 64) :
    Frame where
  opcode := m.opcode
  fin := true
  rsv1 := false
  rsv2 := false
  rsv3 := false
  key := if server then none else some rng.toNat
  payload := m.payload
  fits := hFits

section

variable {server : Bool} {rng : UInt32} {maxMessageSize : ℕ} {m : Message}

theorem prepareFrame_bytes (hFits : m.payload.length < 2 ^ 64) :
    (prepareFrame server rng m.opcode true m.payload).bytes =
      (sentFrame server rng m hFits).encode := by
  cases server with
  | true =>
    show prepareHeader _ _ ++ m.payload = prepareHeader _ _ ++ mask (toBytes 4 0) 0 m.payload
    rw [mask_zero]
    rfl
  | false =>
    show prepareHeader _ _ ++ byteMask m.payload (toBytes 4 rng.toNat) 0 = _
    rw [byteMask_eq]
    rfl

/-- What the checks of the two functions leave. -/
structure Sendable (m : Message) : Prop where
  fits : m.payload.length < 2 ^ 64
  control : isControl m.opcode = true → reserved m.opcode = false ∧
    m.payload.length ≤ payloadSizeBasic
  text : m.opcode = .text → validate m.payload = true

theorem prepareControl_ok {op : Opcode} {payload : Bytes} {out : Prepared}
    (hReserved : reserved op = false) (h : prepareControl server rng op payload = .ok out) :
    Sendable ⟨op, payload⟩ ∧ out = prepareFrame server rng op true payload := by
  unfold prepareControl at h
  split at h
  · cases h
  next hControl =>
    split at h
    · cases h
    next hSize =>
      have hLe : payload.length ≤ 125 := Nat.le_of_not_lt hSize
      have hIs : isControl op = true := by simpa using hControl
      refine ⟨⟨by dsimp only; omega, fun _ => ⟨hReserved, hLe⟩, ?_⟩, (Except.ok.inj h).symm⟩
      intro hText
      rw [show op = .text from hText] at hIs
      cases hIs

/-- **Every call** that returns no error writes a frame of its message. -/
theorem prepare_ok {c : Call} {out : Prepared} (h : c.prepare server rng = .ok out) :
    Sendable c.message ∧ out = prepareFrame server rng c.message.opcode true c.message.payload := by
  cases c with
  | send op payload hFits =>
    change prepareDataFrame server rng op true payload = .ok out at h
    unfold prepareDataFrame at h
    split at h
    · cases h
    next hData =>
      split at h
      · cases h
      next hText =>
        refine ⟨⟨hFits, fun hControl => absurd hControl hData, fun hOp => ?_⟩,
          (Except.ok.inj h).symm⟩
        by_contra hBad
        have hInvalid : validate payload = false := Bool.eq_false_iff.mpr hBad
        exact hText ⟨hOp, by rw [hInvalid]; rfl⟩
  | ping payload => exact prepareControl_ok rfl h
  | pong payload => exact prepareControl_ok rfl h
  | close code reason =>
    change prepareClose server rng code (reason.take closeReasonSize) = .ok out at h
    unfold prepareClose at h
    split at h
    · cases h
    split at h
    · cases h
    split at h
    · cases h
    split at h
    · cases h
    exact prepareControl_ok rfl h

-- ---------------------------------------------------------------------------
-- Close codes
-- ---------------------------------------------------------------------------

/-- Two bytes that hold a code in network order. -/
theorem length_htons (code : ℕ) (reason : Bytes) :
    (toBytes 2 (Close.htons code) ++ reason).length = reason.length + 2 := by
  rw [List.length_append, Words.length_toBytes, Nat.add_comm]

theorem ntohs_htons (code : UInt16) (reason : Bytes) :
    ntohs (ofBytes ((toBytes 2 (Close.htons code.toNat) ++ reason).take 2)) = code.toNat := by
  have hLt : code.toNat < 256 ^ 2 := code.toNat_lt
  have hTake : (toBytes 2 (Close.htons code.toNat) ++ reason).take 2 =
      (toBytes 2 code.toNat).reverse := by
    rw [List.take_left' (Words.length_toBytes 2 _)]
    exact Words.toBytes_swap 2 code.toNat
  have hSwap := Words.swap_ofBytes (toBytes 2 code.toNat).reverse
  rw [List.length_reverse, Words.length_toBytes, List.reverse_reverse,
    Words.ofBytes_toBytes hLt] at hSwap
  rw [hTake]
  exact hSwap

/-- **A close that is sent** tells the other end its code and its reason; whether
the reason is well-formed is not checked before. -/
theorem extract_prepareClose {server : Bool} {rng : UInt32} {code : UInt16} {reason : Bytes}
    {out : Prepared} (h : prepareClose server rng code reason = .ok out) :
    Close.extractCode (closePayload code reason) = (code.toNat, none) ∧
      Close.extractReason (closePayload code reason) =
        (reason, if validate reason then none else some .invalidUtf8) := by
  unfold prepareClose at h
  split at h
  · cases h
  next hReserved =>
  split at h
  · cases h
  next hInvalid =>
  split at h
  · cases h
  next hNoStatus =>
  -- without a code there is no payload to be read
  by_cases hNone : code.toNat = Close.noStatus
  · have hEmpty : reason = [] := by
      rw [not_and] at hNoStatus
      exact List.length_eq_zero_iff.mp (Nat.eq_zero_of_not_pos (hNoStatus hNone))
    rw [closePayload, if_pos hNone, hNone, hEmpty]
    exact ⟨rfl, rfl⟩
  · have hValid : Close.invalid code.toNat = false := by
      rw [not_and_not_right] at hInvalid
      exact Bool.eq_false_iff.mpr fun h' => hNone (hInvalid h')
    have hFree : Close.reserved code.toNat = false := Bool.eq_false_iff.mpr hReserved
    rw [closePayload, if_neg hNone]
    constructor
    · unfold Close.extractCode
      rw [length_htons, if_neg (Nat.succ_ne_zero _), if_neg (by omega)]
      dsimp only
      rw [ntohs_htons, hFree, hValid]
      rfl
    · -- the reason is what stands behind the two bytes of the code
      have hReason : (if 2 < (toBytes 2 (Close.htons code.toNat) ++ reason).length then
          (toBytes 2 (Close.htons code.toNat) ++ reason).drop 2 else []) = reason := by
        rw [length_htons, List.drop_left' (Words.length_toBytes 2 _)]
        split
        · rfl
        next hShort => exact (List.length_eq_zero_iff.mp (by omega)).symm
      unfold Close.extractReason
      dsimp only
      rw [hReason]
      cases validate reason <;> rfl

/-- A normal close with a reason that breaks off inside a character. -/
theorem extract_prepareClose_broken :
    Close.extractCode (closePayload 1000 [0xC3]) = ((1000 : UInt16).toNat, none) ∧
      Close.extractReason (closePayload 1000 [0xC3]) =
        ([0xC3], if validate [0xC3] then none else some .invalidUtf8) := by
  have h : prepareClose true 0 1000 [0xC3] =
      .ok (prepareFrame true 0 opClose true (closePayload 1000 [0xC3])) := by decide
  exact extract_prepareClose h

-- ---------------------------------------------------------------------------
-- The other end
-- ---------------------------------------------------------------------------

/-- The other end takes control messages, and texts and binary messages that are
not too long. -/
def Deliverable (maxMessageSize : ℕ) (m : Message) : Prop :=
  isControl m.opcode = true ∨
    (m.opcode = .text ∨ m.opcode = opBinary) ∧ m.payload.length ≤ maxMessageSize

/-- The header of a frame that is sent. -/
theorem checkFrame_sent (h : Sendable m) :
    checkFrame (!server) true (sentFrame server rng m h.fits) =
      if reserved m.opcode then some .invalidOpcode
      else if m.opcode = opContinuation then some .invalidContinuation
      else none := by
  have hOp : (sentFrame server rng m h.fits).basicHeader.getOpcode = m.opcode := getOpcode_new
  have hFin : (sentFrame server rng m h.fits).basicHeader.getFin = true := getFin_new
  have hMask : (sentFrame server rng m h.fits).basicHeader.getMasked = !server := by
    refine getMasked_new.trans ?_
    cases server <;> rfl
  have hSize : (sentFrame server rng m h.fits).basicHeader.getBasicSize =
      BasicHeader.basicValue m.payload.length := getBasicSize_new
  have hSmall : ¬ (isControl m.opcode = true ∧
      payloadSizeBasic < (BasicHeader.basicValue m.payload.length).toNat) := by
    rintro ⟨hControl, hLt⟩
    have hLe := (h.control hControl).2
    rw [BasicHeader.basicValue, if_pos hLe, (ofNat_size hLe).1] at hLt
    exact absurd hLe (Nat.not_le.mpr hLt)
  unfold checkFrame validateIncomingBasicHeader
  dsimp only
  rw [hOp, hFin, hMask, hSize, if_neg hSmall, show
    (sentFrame server rng m h.fits).basicHeader.getRsv1 = false from getRsv1_new, show
    (sentFrame server rng m h.fits).basicHeader.getRsv2 = false from getRsv2_new, show
    (sentFrame server rng m h.fits).basicHeader.getRsv3 = false from getRsv3_new]
  cases server <;> simp

theorem decode_of_validate {s : Bytes} (h : validate s = true) :
    (Validator.new.decode s).1 = true ∧ (Validator.new.decode s).2.complete = true := by
  unfold validate at h
  rcases hDecode : Validator.new.decode s with ⟨ok, v⟩
  rw [hDecode] at h
  cases ok with
  | false => cases h
  | true => exact ⟨rfl, h⟩

/-- A frame that begins and ends its message. -/
theorem extend_sent (h : Sendable m) :
    extend ⟨⟨m.opcode, []⟩, .new⟩ m.opcode true m.payload = ⟨[m], .ok none⟩ := by
  unfold extend
  dsimp only
  by_cases hText : m.opcode = .text
  · obtain ⟨hOk, hComplete⟩ := decode_of_validate (h.text hText)
    rw [if_pos hText, hOk, hComplete]
    simp
  · rw [if_neg hText]
    simp [hText]

variable (server rng maxMessageSize) in
/-- **The other end** takes what it is to take, and nothing else. -/
theorem accept_sent (h : Sendable m) :
    (Deliverable maxMessageSize m →
      accept (!server) maxMessageSize none (sentFrame server rng m h.fits) = ⟨[m], .ok none⟩) ∧
    (¬ Deliverable maxMessageSize m →
      ∃ ec, accept (!server) maxMessageSize none (sentFrame server rng m h.fits) = error ec) := by
  have hLength : ([] : Bytes).length + m.payload.length = m.payload.length := Nat.zero_add _
  unfold accept
  rw [show (none : Option Fragments).isNone = true from rfl, checkFrame_sent h]
  -- the other end refuses reserved opcodes and lone continuations
  by_cases hReserved : reserved m.opcode = true
  · rw [if_pos hReserved]
    refine ⟨fun hDeliver => ?_, fun _ => ⟨_, rfl⟩⟩
    rcases hDeliver with hControl | ⟨hText | hBinary, -⟩
    · cases hReserved.symm.trans (h.control hControl).1
    · rw [hText] at hReserved
      cases hReserved
    · rw [hBinary] at hReserved
      cases hReserved
  rw [if_neg hReserved]
  by_cases hContinuation : m.opcode = opContinuation
  · rw [if_pos hContinuation]
    refine ⟨fun hDeliver => ?_, fun _ => ⟨_, rfl⟩⟩
    unfold Deliverable at hDeliver
    rw [hContinuation] at hDeliver
    rcases hDeliver with hControl | ⟨hText | hBinary, -⟩
    · cases hControl
    · cases hText
    · cases hBinary
  rw [if_neg hContinuation]
  dsimp only
  by_cases hControl : isControl m.opcode = true
  · rw [if_pos (show isControl (sentFrame server rng m h.fits).opcode = true from hControl)]
    exact ⟨fun _ => rfl, fun hNot => absurd (.inl hControl) hNot⟩
  rw [if_neg (show ¬ isControl (sentFrame server rng m h.fits).opcode = true from hControl)]
  -- what is left is text and binary
  have hOp : m.opcode = .text ∨ m.opcode = opBinary := by
    have hLt : m.opcode.val < 8 := by simpa [isControl] using hControl
    have hNot : ¬ (3 ≤ m.opcode.val ∧ m.opcode.val ≤ 7 ∨ 0xB ≤ m.opcode.val ∧ m.opcode.val ≤ 0xF) :=
      fun h' => hReserved (decide_eq_true h')
    have hNe : m.opcode.val ≠ 0 := fun h' => hContinuation (Fin.ext h')
    rcases Nat.lt_or_ge m.opcode.val 2 with hOne | hTwo
    · exact .inl (Fin.ext (by show m.opcode.val = 1; omega))
    · exact .inr (Fin.ext (by show m.opcode.val = 2; omega))
  -- without fragments before it the size is that of the message
  have hSize : maxMessageSize < (([] : Bytes).length + m.payload.length) % 2 ^ 64 ↔
      ¬ Deliverable maxMessageSize m := by
    rw [hLength, Nat.mod_eq_of_lt h.fits]
    unfold Deliverable
    rw [or_iff_right hControl, and_iff_right hOp, Nat.not_le]
  constructor
  · intro hDeliver
    exact (if_neg fun h' => hSize.mp h' hDeliver).trans (extend_sent h)
  · intro hNot
    exact ⟨_, if_pos (hSize.mpr hNot)⟩

end

/-- A message that has been sent, and the number that was drawn for it. -/
structure Sent where
  rng : UInt32
  msg : Message
  sendable : Sendable msg

def Sent.frame (server : Bool) (c : Sent) : Frame := sentFrame server c.rng c.msg c.sendable.fits

section

variable (server : Bool) {maxMessageSize : ℕ}

/-- A run that gives all messages has none that is refused. -/
theorem run_accept_sent (cs : List Sent) :
    (∃ a', Transducer.run (accept (!server) maxMessageSize) none (cs.map (Sent.frame server)) =
        ⟨cs.map Sent.msg, .ok a'⟩) ↔
      ∀ c ∈ cs, Deliverable maxMessageSize c.msg := by
  induction cs with
  | nil => exact iff_of_true ⟨none, rfl⟩ fun _ h => by cases h
  | cons c cs ih =>
    obtain ⟨hTaken, hRefused⟩ := accept_sent server c.rng maxMessageSize c.sendable
    rw [List.map_cons, List.map_cons, Transducer.run_cons, List.forall_mem_cons, ← ih]
    by_cases hDeliver : Deliverable maxMessageSize c.msg
    · rw [and_iff_right hDeliver, Sent.frame, hTaken hDeliver]
      exact exists_congr fun a' => Outcome.prepend_eq_iff _ [c.msg]
    · obtain ⟨ec, hError⟩ := hRefused hDeliver
      rw [Sent.frame, hError]
      refine iff_of_false ?_ fun h => hDeliver h.1
      rintro ⟨a', h⟩
      cases congrArg Outcome.result h

/-- The calls, as messages that have been sent. -/
theorem exists_sent {calls : List (Call × UInt32)} {outs : List Prepared}
    (h : List.Forall₂ (fun c out => c.1.prepare server c.2 = .ok out) calls outs) :
    ∃ cs : List Sent, cs.map Sent.msg = calls.map (fun c => c.1.message) ∧
      outs.flatMap Prepared.bytes = (cs.map (Sent.frame server)).flatMap Frame.encode := by
  induction h with
  | nil => exact ⟨[], rfl, rfl⟩
  | @cons c out calls outs hOut _ ih =>
    obtain ⟨cs, hMessages, hBytes⟩ := ih
    obtain ⟨hSendable, rfl⟩ := prepare_ok hOut
    refine ⟨⟨c.2, c.1.message, hSendable⟩ :: cs, ?_, ?_⟩
    · rw [List.map_cons, List.map_cons, hMessages]
    · rw [List.flatMap_cons, List.map_cons, List.flatMap_cons, hBytes,
        prepareFrame_bytes hSendable.fits]
      rfl

end

/-- Messages that are sent are read, all of them and in their order. -/
theorem read_sent_iff (server : Bool) (maxMessageSize : ℕ) (cs : List Sent) {chunks : List Bytes}
    (hChunks : chunks.flatten = (cs.map (Sent.frame server)).flatMap Frame.encode) :
    (∃ p', Transducer.run (Processor.handleReadFrame (!server) maxMessageSize) .new chunks =
        ⟨cs.map Sent.msg, .ok p'⟩) ↔ ∀ c ∈ cs, Deliverable maxMessageSize c.msg := by
  have hRel := Processor.run_frames (!server) maxMessageSize Processor.atFrame_new
    (cs.map (Sent.frame server)) hChunks
  rw [← run_accept_sent server]
  constructor
  · rintro ⟨p', hRead⟩
    rw [hRead] at hRel
    obtain ⟨a', hRun, -⟩ := hRel.of_ok
    exact ⟨a', hRun⟩
  · rintro ⟨a', hRun⟩
    rw [hRun] at hRel
    obtain ⟨p', hRead, -⟩ := hRel.to_ok
    exact ⟨p', hRead⟩

/-- **What is sent is received**: each message becomes ready at the other end once
and in the order of the calls, in whatever pieces the bytes arrive, just when the
other end takes every one. Those behind a close become ready, too. -/
theorem sent_received_iff (server : Bool) (maxMessageSize : ℕ) {calls : List (Call × UInt32)}
    {outs : List Prepared}
    (h : List.Forall₂ (fun c out => c.1.prepare server c.2 = .ok out) calls outs)
    {chunks : List Bytes} (hChunks : chunks.flatten = outs.flatMap Prepared.bytes) :
    (∃ p', Transducer.run (Processor.handleReadFrame (!server) maxMessageSize) .new chunks =
        ⟨calls.map fun c => c.1.message, .ok p'⟩) ↔
      ∀ c ∈ calls, Deliverable maxMessageSize c.1.message := by
  obtain ⟨cs, hMessages, hBytes⟩ := exists_sent server h
  have hAll : (∀ c ∈ calls, Deliverable maxMessageSize c.1.message) ↔
      ∀ c ∈ cs, Deliverable maxMessageSize c.msg := by
    rw [← List.forall_mem_map (f := fun c : Call × UInt32 => c.1.message)
      (P := Deliverable maxMessageSize), ← hMessages, List.forall_mem_map]
  rw [hAll, ← read_sent_iff server maxMessageSize cs (hChunks.trans hBytes), hMessages]

/-- A text and a ping of a client. -/
def twoCalls : List (Call × UInt32) :=
  [(.send .text [72, 105] (by decide), 0x04030201), (.ping [], 0x08070605)]

theorem sent_received_two :
    (∃ p', Transducer.run (Processor.handleReadFrame (!false) 8) .new
        [[0x81, 0x82, 1, 2], [3, 4, 73, 107, 0x89], [0x80, 5, 6, 7, 8]] =
        ⟨twoCalls.map fun c => c.1.message, .ok p'⟩) ↔
      ∀ c ∈ twoCalls, Deliverable 8 c.1.message := by
  have hPrepared : List.Forall₂ (fun c out => c.1.prepare false c.2 = .ok out) twoCalls
      [prepareFrame false 0x04030201 .text true [72, 105],
        prepareFrame false 0x08070605 .ping true []] :=
    .cons (by decide) (.cons (by decide) .nil)
  exact sent_received_iff false 8 hPrepared (by decide)

end PushStreamer.Wire
