import Mathlib.Data.List.TakeWhile
import PushStreamer.Socket.Http
import PushStreamer.Socket.Prepare

/-!
# Messages that are dispatched

`connection_impl.hpp`: what `handle_read_frame` does with the messages that become
ready. `drop_on_protocol_error` and `silent_close` are false. A close frame is
answered, and from then on the session is closing: the messages behind it in the
same buffer become ready, too, but no handler gets them.

* `dispatch_open` — on an open session a regular message reaches its handler, and a
  close ends the session.
* `react_not_open` — nothing is handed on a session that is not open.
* `handed_eq` — the handlers get what comes before the first close.

The answer to a ping is up to its handler.
-/

namespace PushStreamer.Wire

open Endpoint (Bytes Opcode SessionState)
open Endpoint.Opcode (isControl)
open Words (ofBytes toBytes)

/-- What the reading knows of the session: `m_state` and `m_was_clean`. -/
structure Reading where
  state : SessionState
  wasClean : Bool
deriving DecidableEq

/-- An open session. -/
def Reading.start : Reading where
  state := .open
  wasClean := false

/-- What a message causes. -/
inductive Reaction where
  -- `m_message_handler`, `m_ping_handler` and `m_pong_handler`
  | hand (m : Message)
  -- the frame of `send_close_ack` is put into the queue
  | closeAck (out : Prepared)
  | terminate
deriving DecidableEq

-- ---------------------------------------------------------------------------
-- The answer to a close
-- ---------------------------------------------------------------------------

namespace Close

def blank : ℕ := 0
def normal : ℕ := 1000

/-- The code and the reason of an acknowledgement: `blank` stands for those of the
other end. -/
def ackInfo (code : ℕ) (reason : Bytes) (remote_close_code : ℕ) (remote_close_reason : Bytes) :
    ℕ × Bytes :=
  if code ≠ blank then (code, reason)
  else if remote_close_code = noStatus then (normal, [])
  else (remote_close_code, remote_close_reason)

end Close

section

variable (server : Bool) (rng : UInt32)

/-- `send_close_ack`, with the close information that was read; an error is only
logged. -/
def sendCloseAck (r : Reading) (code : ℕ) (reason : Bytes) (remote : ℕ × Bytes) :
    Reading × List Reaction :=
  let info := Close.ackInfo code reason remote.1 remote.2
  match prepareClose server rng (UInt16.ofNat info.1) info.2 with
  | .error _ => (r, [])
  | .ok out => (⟨.closing, true⟩, [.closeAck out])

/-- The branch of `process_control_frame` for a close. -/
def processClose (r : Reading) (m : Message) : Reading × List Reaction :=
  let code := Close.extractCode m.payload
  if code.2.isSome then
    sendCloseAck server rng r Close.protocolError (Http.ascii "Invalid close code") (code.1, [])
  else
    let reason := Close.extractReason m.payload
    if reason.2.isSome then
      sendCloseAck server rng r Close.protocolError (Http.ascii "Invalid close reason")
        (code.1, reason.1)
    else if r.state = .open then
      sendCloseAck server rng r Close.blank [] (code.1, reason.1)
    else if r.state = .closing ∧ !r.wasClean then
      if server then (⟨.closed, true⟩, [.terminate]) else ({ r with wasClean := true }, [])
    else (r, [])

def processControlFrame (r : Reading) (m : Message) : Reading × List Reaction :=
  if r.state = .closed then (r, [])
  else if m.opcode ≠ opClose ∧ r.state ≠ .open then (r, [])
  else if m.opcode = .ping ∨ m.opcode = .pong then (r, [.hand m])
  else if m.opcode = opClose then processClose server rng r m
  else (r, [])

/-- What `handle_read_frame` does with a message. -/
def dispatch (r : Reading) (m : Message) : Reading × List Reaction :=
  if isControl m.opcode then processControlFrame server rng r m
  else if r.state ≠ .open then (r, [])
  else (r, [.hand m])

end

/-- What the messages that become ready cause, in their order; `draw` has what
`m_rng` returns for the answer to each. -/
def react (server : Bool) (draw : ℕ → UInt32) (r : Reading) : List Message → List Reaction
  | [] => []
  | m :: ms =>
    let s := dispatch server (draw 0) r m
    s.2 ++ react server (fun i => draw (i + 1)) s.1 ms

def Reaction.message? : Reaction → Option Message
  | hand m => some m
  | _ => none

/-- The messages that the handlers of an open session get. -/
def handed (server : Bool) (draw : ℕ → UInt32) (ms : List Message) : List Message :=
  (react server draw .start ms).filterMap Reaction.message?

-- ---------------------------------------------------------------------------
-- One message
-- ---------------------------------------------------------------------------

/-- What the check of the header leaves of the control messages. -/
def Regular (m : Message) : Prop :=
  isControl m.opcode = true → reserved m.opcode = false ∧ m.payload.length ≤ payloadSizeBasic

section

variable {server : Bool} {rng : UInt32} {draw : ℕ → UInt32} {r : Reading} {m : Message}

/-- A header that is accepted is that of a regular message. -/
theorem regular_of_check {new_msg : Bool} {f : Frame} (h : checkFrame server new_msg f = none) :
    Regular ⟨f.opcode, f.payload⟩ := by
  intro hControl
  have hOp : f.basicHeader.getOpcode = f.opcode := getOpcode_new
  have hSize : f.basicHeader.getBasicSize = BasicHeader.basicValue f.payload.length :=
    getBasicSize_new
  unfold checkFrame validateIncomingBasicHeader at h
  dsimp only at h
  rw [hOp, hSize] at h
  split at h
  · cases h
  next hSmall =>
  split at h
  · cases h
  split at h
  · cases h
  split at h
  · cases h
  next hFree =>
    refine ⟨Bool.eq_false_iff.mpr hFree, ?_⟩
    rw [not_and, Nat.not_lt] at hSmall
    have hLe := hSmall hControl
    -- a payload of more than 125 bytes has 126 or 127 in its header
    rcases basicValue_cases f.payload.length with ⟨h1, -⟩ | ⟨-, -, hv, -⟩ | ⟨-, hv, -⟩
    · exact h1
    · rw [hv] at hLe
      exact absurd hLe (by decide)
    · rw [hv] at hLe
      exact absurd hLe (by decide)

/-- A code that is read fits a `uint16_t`. -/
theorem extractCode_lt (payload : Bytes) : (Close.extractCode payload).1 < 2 ^ 16 := by
  unfold Close.extractCode
  split
  · decide
  split
  · decide
  · have hLength : (toBytes 2 (ofBytes (payload.take 2))).reverse.length = 2 := by
      rw [List.length_reverse, Words.length_toBytes]
    have hLt := Words.ofBytes_lt (toBytes 2 (ofBytes (payload.take 2))).reverse
    rw [hLength] at hLt
    exact hLt

/-- The control opcodes that are in use. -/
theorem opcode_control {op : Opcode} (hControl : isControl op = true)
    (hReserved : reserved op = false) (hOp : op ≠ opClose) : op = .ping ∨ op = .pong := by
  revert op
  decide

theorem length_extractReason (payload : Bytes) :
    (Close.extractReason payload).1.length = payload.length - 2 := by
  unfold Close.extractReason
  dsimp only
  split
  · exact List.length_drop
  next hShort => rw [List.length_nil]; omega

/-- A code without a fault may be sent back. -/
theorem extractCode_none {payload : Bytes} (h : (Close.extractCode payload).2 = none) :
    Close.reserved (Close.extractCode payload).1 = false ∧
      (Close.invalid (Close.extractCode payload).1 = false ∨
        (Close.extractCode payload).1 = Close.noStatus) := by
  unfold Close.extractCode at h ⊢
  split at h
  next hNil => rw [if_pos hNil]; exact ⟨rfl, .inr rfl⟩
  next hSome =>
    rw [if_neg hSome]
    split at h
    · cases h
    next hTwo =>
      rw [if_neg hTwo]
      dsimp only at h ⊢
      split at h
      · cases h
      next hFree =>
        split at h
        · cases h
        next hValid =>
          exact ⟨Bool.eq_false_iff.mpr hFree, .inl (Bool.eq_false_iff.mpr hValid)⟩

/-- An acknowledgement with a code that may be sent, and a short reason. -/
theorem sendCloseAck_ok {code : ℕ} {reason : Bytes} {remote : ℕ × Bytes} {sent : ℕ}
    {said : Bytes}
    (hInfo : Close.ackInfo code reason remote.1 remote.2 = (sent, said)) (hLt : sent < 2 ^ 16)
    (hFree : Close.reserved sent = false) (hValid : Close.invalid sent = false)
    (hShort : said.length ≤ payloadSizeBasic - 2) :
    ∃ out, sendCloseAck server rng r code reason remote = (⟨.closing, true⟩, [.closeAck out]) := by
  have hCode : (UInt16.ofNat sent).toNat = sent := by
    rw [UInt16.toNat_ofNat', Nat.mod_eq_of_lt hLt]
  have hStatus : sent ≠ Close.noStatus := by
    -- the code is neither blank nor invalid, and the reason short: nothing is refused
    intro hNone
    rw [hNone] at hValid
    cases hValid
  have hPayload : ¬ payloadSizeBasic < (closePayload (UInt16.ofNat sent) said).length := by
    rw [closePayload, hCode, if_neg hStatus, length_htons]
    exact Nat.not_lt.mpr (Nat.add_le_of_le_sub (by decide) hShort)
  have hOut : prepareClose server rng (UInt16.ofNat sent) said =
      .ok (prepareFrame server rng opClose true (closePayload (UInt16.ofNat sent) said)) := by
    unfold prepareClose prepareControl
    rw [hCode, if_neg (by rw [hFree]; decide), if_neg (by rw [hValid]; simp),
      if_neg (fun h => hStatus h.1), if_neg (Nat.not_lt.mpr hShort), if_neg (by decide),
      if_neg hPayload]
  unfold sendCloseAck
  rw [hInfo]
  dsimp only
  rw [hOut]
  exact ⟨_, rfl⟩

theorem sendCloseAck_protocolError {reason : Bytes} {remote : ℕ × Bytes}
    (hShort : reason.length ≤ payloadSizeBasic - 2) :
    ∃ out, sendCloseAck server rng r Close.protocolError reason remote =
      (⟨.closing, true⟩, [.closeAck out]) := by
  have hInfo : Close.ackInfo Close.protocolError reason remote.1 remote.2 =
      (Close.protocolError, reason) := if_pos (by decide)
  exact sendCloseAck_ok hInfo (by decide) (by decide) (by decide) hShort

/-- **A close** that is read on an open session is acknowledged, whatever it says. -/
theorem processClose_open (hOpen : r.state = .open) (hSize : m.payload.length ≤ payloadSizeBasic) :
    ∃ out, processClose server rng r m = (⟨.closing, true⟩, [.closeAck out]) := by
  unfold processClose
  dsimp only
  cases hCode : (Close.extractCode m.payload).2 with
  | some ec =>
    have hLength : (Http.ascii "Invalid close code").length ≤ payloadSizeBasic - 2 := by decide
    exact sendCloseAck_protocolError (r := r) hLength
  | none =>
    obtain ⟨hFree, hValid⟩ := extractCode_none hCode
    cases hReason : (Close.extractReason m.payload).2 with
    | some ec =>
      have hLength : (Http.ascii "Invalid close reason").length ≤ payloadSizeBasic - 2 := by decide
      exact sendCloseAck_protocolError (r := r) hLength
    | none =>
      rw [if_neg (by decide), if_neg (by decide), if_pos hOpen]
      -- the code and the reason are those that were read
      have hBlank : ¬ Close.blank ≠ Close.blank := fun h => h rfl
      by_cases hStatus : (Close.extractCode m.payload).1 = Close.noStatus
      · exact sendCloseAck_ok ((if_neg hBlank).trans (if_pos hStatus)) (by decide) rfl rfl
          (by decide)
      · refine sendCloseAck_ok ((if_neg hBlank).trans (if_neg hStatus)) (extractCode_lt m.payload)
          hFree (hValid.resolve_right hStatus) ?_
        dsimp only
        rw [length_extractReason]
        exact Nat.sub_le_sub_right hSize 2

/-- **On an open session** a regular message that is no close reaches its handler. -/
theorem dispatch_hand (hOpen : r.state = .open) (hRegular : Regular m) (hOp : m.opcode ≠ opClose) :
    dispatch server rng r m = (r, [.hand m]) := by
  unfold dispatch
  by_cases hControl : isControl m.opcode = true
  · have hKnown : m.opcode = .ping ∨ m.opcode = .pong :=
      opcode_control hControl (hRegular hControl).1 hOp
    unfold processControlFrame
    rw [if_pos hControl, if_neg (by rw [hOpen]; decide), if_neg (fun h => h.2 hOpen),
      if_pos hKnown]
  · rw [if_neg hControl, if_neg (fun h => h hOpen)]

/-- **On an open session** a close is acknowledged, and no handler gets it. -/
theorem dispatch_close (hOpen : r.state = .open) (hRegular : Regular m) (hOp : m.opcode = opClose) :
    ∃ out, dispatch server rng r m = (⟨.closing, true⟩, [.closeAck out]) := by
  have hControl : isControl m.opcode = true := by rw [hOp]; rfl
  have hOther : ¬ (m.opcode = .ping ∨ m.opcode = .pong) := by rw [hOp]; decide
  unfold dispatch processControlFrame
  rw [if_pos hControl, if_neg (by rw [hOpen]; decide), if_neg (fun h => h.1 hOp), if_neg hOther,
    if_pos hOp]
  exact processClose_open hOpen (hRegular hControl).2

theorem sendCloseAck_not_open {code : ℕ} {reason : Bytes} {remote : ℕ × Bytes}
    (h : r.state ≠ .open) :
    (sendCloseAck server rng r code reason remote).1.state ≠ .open ∧
      (sendCloseAck server rng r code reason remote).2.filterMap Reaction.message? = [] := by
  unfold sendCloseAck
  dsimp only
  split
  · exact ⟨h, rfl⟩
  · exact ⟨nofun, rfl⟩

theorem processClose_not_open (h : r.state ≠ .open) :
    (processClose server rng r m).1.state ≠ .open ∧
      (processClose server rng r m).2.filterMap Reaction.message? = [] := by
  unfold processClose
  dsimp only
  split
  · exact sendCloseAck_not_open h
  split
  · exact sendCloseAck_not_open h
  split
  · split
    · exact ⟨nofun, rfl⟩
    · exact ⟨h, rfl⟩
  · exact ⟨h, rfl⟩

/-- **Nothing is handed** on a session that is not open, and it stays so. -/
theorem dispatch_not_open (h : r.state ≠ .open) :
    (dispatch server rng r m).1.state ≠ .open ∧
      (dispatch server rng r m).2.filterMap Reaction.message? = [] := by
  unfold dispatch
  split
  · unfold processControlFrame
    split
    · exact ⟨h, rfl⟩
    split
    · exact ⟨h, rfl⟩
    next hClose =>
      have hOp : m.opcode = opClose := by
        by_contra hOther
        exact hClose ⟨hOther, h⟩
      rw [if_neg (by rw [hOp]; decide), if_pos hOp]
      exact processClose_not_open h
  · exact ⟨h, rfl⟩

-- ---------------------------------------------------------------------------
-- All messages
-- ---------------------------------------------------------------------------

theorem react_not_open (h : r.state ≠ .open) (ms : List Message) :
    (react server draw r ms).filterMap Reaction.message? = [] := by
  induction ms generalizing r draw with
  | nil => rfl
  | cons m ms ih =>
    obtain ⟨hNext, hNone⟩ := dispatch_not_open (m := m) h
    rw [react, List.filterMap_append, hNone, List.nil_append]
    exact ih hNext

end

/-- **The handlers** of an open session get the messages before the first close,
and nothing behind it. -/
theorem handed_eq (server : Bool) (draw : ℕ → UInt32) {ms : List Message}
    (hRegular : ∀ m ∈ ms, Regular m) :
    handed server draw ms = ms.takeWhile fun m => m.opcode ≠ opClose := by
  unfold handed
  induction ms generalizing draw with
  | nil => rfl
  | cons m ms ih =>
    obtain ⟨hFirst, hRest⟩ := List.forall_mem_cons.mp hRegular
    rw [react, List.filterMap_append]
    by_cases hOp : m.opcode = opClose
    · obtain ⟨out, hDispatch⟩ : ∃ out, dispatch server (draw 0) .start m =
          (⟨.closing, true⟩, [.closeAck out]) := dispatch_close rfl hFirst hOp
      rw [hDispatch, react_not_open (by simp), List.takeWhile_cons_of_neg (by simp [hOp])]
      rfl
    · rw [dispatch_hand rfl hFirst hOp, List.takeWhile_cons_of_pos (by simp [hOp])]
      exact congrArg (m :: ·) (ih _ hRest)

/-- Without a close all messages are handed. -/
theorem handed_of_no_close (server : Bool) (draw : ℕ → UInt32) {ms : List Message}
    (hRegular : ∀ m ∈ ms, Regular m) (hOp : ∀ m ∈ ms, m.opcode ≠ opClose) :
    handed server draw ms = ms := by
  rw [handed_eq server draw hRegular]
  exact List.takeWhile_eq_self_iff.2 fun m hm => decide_eq_true (hOp m hm)

end PushStreamer.Wire
