import PushStreamer.Lib.Machine
import Mathlib.Tactic.Common

/-!
# `isConnected` and `Send`

The class `WsAppConnection` over the endpoint of websocketpp. The library knows
the state of the session, and refuses what it cannot send with an error code,
which `c.send` throws; the class keeps a flag of its own, `m_isConnected`, and
`Send` swallows the exception.

* `send_accepts_iff` — the frames that the library accepts.
* `truthful_iff` — the events after which flag and session agree, and the calls
  of `Send` that return what has happened.
* `flag_and_send_truthful_iff` — the runs in which both never lie.
-/

namespace PushStreamer.Endpoint

/-- `std::string`. -/
abbrev Bytes := List UInt8

/-- `frame::opcode::value`. -/
abbrev Opcode := Fin 16

def Opcode.text : Opcode := 1
def Opcode.ping : Opcode := 9
def Opcode.pong : Opcode := 10

/-- `frame::opcode::is_control`. -/
def Opcode.isControl (op : Opcode) : Bool := 8 ≤ op.val

/-- `session::state`. -/
inductive SessionState where
  | connecting
  | open
  | closing
  | closed
deriving DecidableEq

/-- The error codes of the library. -/
inductive ErrorCode where
  | invalidState
  | invalidOpcode
  | invalidPayload
  | controlTooBig
deriving DecidableEq

/-- A frame that the library has accepted for writing. -/
structure Frame where
  opcode : Opcode
  payload : Bytes
deriving DecidableEq

/-- The conversions between texts and bytes that are used: `string_To_UTF8`, and
`utf8_validator::validate` of the library. -/
structure Encoding where
  toUtf8 : Bytes → Bytes
  validate : Bytes → Bool

/-- `WsAppConnection` with the session of its connection and the frames that the
library has accepted. -/
structure WsAppConnection where
  isConnected : Bool
  session : SessionState
  frames : List Frame
deriving DecidableEq

namespace WsAppConnection

-- ---------------------------------------------------------------------------
-- The library
-- ---------------------------------------------------------------------------

/-- `hybi13::prepare_data_frame`. -/
def prepareDataFrame (enc : Encoding) (payload : Bytes) (op : Opcode) : Except ErrorCode Frame :=
  if op.isControl then .error .invalidOpcode
  else if op = .text ∧ enc.validate payload = false then .error .invalidPayload
  else .ok ⟨op, payload⟩

/-- `c.send`: an error code is thrown. -/
def send (enc : Encoding) (payload : Bytes) (op : Opcode) (s : WsAppConnection) :
    Except ErrorCode WsAppConnection :=
  if s.session ≠ .open then .error .invalidState
  else (prepareDataFrame enc payload op).map fun frame => { s with frames := s.frames ++ [frame] }

/-- `c.close`; when the session is not open it throws, and the callers catch. -/
def closeSession (s : WsAppConnection) : WsAppConnection :=
  if s.session = .open then { s with session := .closing } else s

-- ---------------------------------------------------------------------------
-- The class
-- ---------------------------------------------------------------------------

/-- After the constructor and `connect`. -/
def start : WsAppConnection where
  isConnected := false
  session := .connecting
  frames := []

/-- `Send`: what it returns, and the connection after it. -/
def sendMessage (enc : Encoding) (msg : Bytes) (opcode1 : Opcode) (s : WsAppConnection) :
    Int × WsAppConnection :=
  if msg ≠ [] then
    if s.isConnected then
      let data := enc.toUtf8 msg
      if data ≠ [] then
        match s.send enc data opcode1 with
        | .ok s' => (0, s')
        -- the exception is caught, and logged
        | .error _ => (0, s)
      else (0, s)
    else (-1, s)
  else (-1, s)

/-- `close` and `closeByAccident`. -/
def close (s : WsAppConnection) : WsAppConnection :=
  { (if s.isConnected then s.closeSession else s) with isConnected := false }

/-- What can happen to a connection. -/
inductive Event where
  | onOpen
  | onClose
  | onFailure
  | onInterrupt
  | close
  | closeByAccident
  | send (msg : Bytes) (opcode1 : Opcode) (hMsg : msg ≠ [])

/-- One event. The library changes the session before it calls a handler; the
handlers for the end of a session leave the flag alone. -/
def step (enc : Encoding) (s : WsAppConnection) : Event → Option WsAppConnection
  | .onOpen => some { s with session := .open, isConnected := true }
  | .onClose | .onFailure => some { s with session := .closed }
  | .onInterrupt => some s
  | .close | .closeByAccident => some s.close
  | .send msg opcode1 _ => some (s.sendMessage enc msg opcode1).2

/-- `isConnected()` tells whether the session is open. -/
def FlagTruthful (s : WsAppConnection) : Prop := s.isConnected = true ↔ s.session = .open

/-- `Send` returns 0 just when the library has accepted a frame. -/
def SendTruthful (enc : Encoding) (s : WsAppConnection) (msg : Bytes) (opcode1 : Opcode) : Prop :=
  (s.sendMessage enc msg opcode1).1 = 0 ↔
    ∃ frame, (s.sendMessage enc msg opcode1).2.frames = s.frames ++ [frame]

/-- After the event the flag is right, and a call of `Send` has told the truth. -/
def Truthful (enc : Encoding) (s : WsAppConnection) (e : Event) : Prop :=
  (∀ s', s.step enc e = some s' → s'.FlagTruthful) ∧
    ∀ msg opcode1 hMsg, e = .send msg opcode1 hMsg → s.SendTruthful enc msg opcode1

/-- The library can send the text as a data frame. -/
def Sendable (enc : Encoding) (msg : Bytes) (opcode1 : Opcode) : Prop :=
  opcode1.isControl = false ∧ enc.toUtf8 msg ≠ [] ∧
    (opcode1 = .text → enc.validate (enc.toUtf8 msg) = true)

/-- A session ends only after `close` or `closeByAccident`, and what is sent on
an open connection is a data frame. -/
def Expected (enc : Encoding) (s : WsAppConnection) : Event → Prop
  | .onClose | .onFailure => s.isConnected = false
  | .send msg opcode1 _ => s.isConnected = true → Sendable enc msg opcode1
  | _ => True

section

variable {enc : Encoding} {s : WsAppConnection}

/-- The library accepts data frames on an open session, and nothing else. -/
theorem send_accepts_iff (payload : Bytes) (op : Opcode) :
    (∃ s', s.send enc payload op = .ok s') ↔
      s.session = .open ∧ op.isControl = false ∧ (op = .text → enc.validate payload = true) := by
  unfold send prepareDataFrame
  by_cases hOpen : s.session = .open
  · rw [if_neg (not_not.mpr hOpen), and_iff_right hOpen]
    cases op.isControl with
    | true => exact iff_of_false (fun ⟨_, h⟩ => by cases h) fun h => by cases h.1
    | false =>
      rw [if_neg Bool.false_ne_true]
      by_cases hText : op = .text ∧ enc.validate payload = false
      · rw [if_pos hText]
        refine iff_of_false (fun ⟨_, h⟩ => by cases h) fun h => ?_
        exact Bool.false_ne_true (hText.2.symm.trans (h.2 hText.1))
      · rw [if_neg hText]
        refine iff_of_true ⟨_, rfl⟩ ⟨rfl, fun hOp => ?_⟩
        exact Bool.not_eq_false _ ▸ fun hInvalid => hText ⟨hOp, hInvalid⟩
  · rw [if_pos hOpen]
    exact iff_of_false (fun ⟨_, h⟩ => by cases h) fun h => hOpen h.1

/-- What is accepted is one more frame. -/
theorem frames_of_send {s' : WsAppConnection} {payload : Bytes} {op : Opcode}
    (h : s.send enc payload op = .ok s') :
    s' = { s with frames := s.frames ++ [⟨op, payload⟩] } := by
  unfold send prepareDataFrame at h
  split at h
  · cases h
  · split at h
    · cases h
    · split at h
      · cases h
      · exact (Except.ok.inj h).symm

/-- `Send` changes the frames only. -/
theorem sendMessage_frame (msg : Bytes) (opcode1 : Opcode) :
    (s.sendMessage enc msg opcode1).2.isConnected = s.isConnected ∧
      (s.sendMessage enc msg opcode1).2.session = s.session := by
  unfold sendMessage
  split
  · split
    · dsimp only
      split
      · split
        · rename_i hSend
          rw [frames_of_send hSend]
          exact ⟨rfl, rfl⟩
        · exact ⟨rfl, rfl⟩
      · exact ⟨rfl, rfl⟩
    · exact ⟨rfl, rfl⟩
  · exact ⟨rfl, rfl⟩

/-- While the flag is right, `Send` tells the truth unless the flag is set and
the library cannot send the text. -/
theorem sendTruthful_iff (h : s.FlagTruthful) {msg : Bytes} (hMsg : msg ≠ []) (opcode1 : Opcode) :
    s.SendTruthful enc msg opcode1 ↔ (s.isConnected = true → Sendable enc msg opcode1) := by
  have hSame : ¬ ∃ frame, s.frames = s.frames ++ [frame] := by
    rintro ⟨frame, hEq⟩
    exact absurd (List.self_eq_append_right.mp hEq) (List.cons_ne_nil _ _)
  unfold SendTruthful sendMessage
  rw [if_pos hMsg]
  by_cases hFlag : s.isConnected = true
  · rw [if_pos hFlag]
    -- while the flag is set the outcome is that of `send`
    have hAccepts : (∃ s', s.send enc (enc.toUtf8 msg) opcode1 = .ok s') ↔ _ :=
      send_accepts_iff (enc.toUtf8 msg) opcode1
    rw [and_iff_right (h.mp hFlag)] at hAccepts
    dsimp only
    by_cases hData : enc.toUtf8 msg ≠ []
    · rw [if_pos hData]
      cases hSend : s.send enc (enc.toUtf8 msg) opcode1 with
      | ok s' =>
        have hCan := hAccepts.mp ⟨s', hSend⟩
        rw [frames_of_send hSend]
        exact iff_of_true (iff_of_true rfl ⟨_, rfl⟩) fun _ => ⟨hCan.1, hData, hCan.2⟩
      | error e =>
        -- what `send` refuses could not be sent
        have hCannot : ¬ Sendable enc msg opcode1 := by
          rintro ⟨hControl, -, hValid⟩
          obtain ⟨s', hOk⟩ := hAccepts.mpr ⟨hControl, hValid⟩
          cases hSend.symm.trans hOk
        exact iff_of_false (fun hTrue => hSame (hTrue.mp rfl)) fun hCan => hCannot (hCan hFlag)
    · rw [if_neg hData]
      exact iff_of_false (fun hTrue => hSame (hTrue.mp rfl)) fun hCan => hData (hCan hFlag).2.1
  · rw [if_neg hFlag]
    have hMinus : ¬ (-1 : Int) = 0 := by decide
    exact iff_of_true (iff_of_false hMinus hSame) fun hConnected => absurd hConnected hFlag

/-- `close` leaves a session that is not open, and a cleared flag. -/
theorem flagTruthful_close (h : s.FlagTruthful) : s.close.FlagTruthful := by
  have hSession : s.close.session ≠ .open := by
    unfold close closeSession
    by_cases hFlag : s.isConnected = true
    · rw [if_pos hFlag, if_pos (h.mp hFlag)]
      exact SessionState.noConfusion
    · rw [if_neg hFlag]
      exact fun hOpen => hFlag (h.mpr hOpen)
  exact iff_of_false Bool.false_ne_true hSession

/-- The end of a session that the flag does not know of makes it wrong. -/
theorem flagTruthful_ends (s : WsAppConnection) :
    FlagTruthful { s with session := .closed } ↔ s.isConnected = false := by
  have hClosed : SessionState.closed ≠ .open := by decide
  unfold FlagTruthful
  rw [iff_false_right hClosed, Bool.not_eq_true]

/-- From a state in which the flag is right, one event is truthful just when it
is expected. -/
theorem truthful_iff (h : s.FlagTruthful) (e : Event) :
    s.Truthful enc e ↔ s.Expected enc e := by
  unfold Truthful
  cases e with
  | onOpen =>
    refine iff_of_true ⟨fun s' hStep => ?_, fun _ _ _ hEq => by cases hEq⟩ trivial
    obtain rfl := Option.some.inj hStep
    exact iff_of_true rfl rfl
  | onClose | onFailure =>
    rw [and_iff_left fun _ _ _ hEq => by cases hEq]
    exact ⟨fun hAll => (flagTruthful_ends s).mp (hAll _ rfl),
      fun hFlag s' hStep => Option.some.inj hStep ▸ (flagTruthful_ends s).mpr hFlag⟩
  | onInterrupt =>
    refine iff_of_true ⟨fun s' hStep => ?_, fun _ _ _ hEq => by cases hEq⟩ trivial
    exact Option.some.inj hStep ▸ h
  | close | closeByAccident =>
    refine iff_of_true ⟨fun s' hStep => ?_, fun _ _ _ hEq => by cases hEq⟩ trivial
    exact Option.some.inj hStep ▸ flagTruthful_close h
  | send msg opcode1 hMsg =>
    have hFlag : ∀ s', s.step enc (.send msg opcode1 hMsg) = some s' → s'.FlagTruthful := by
      intro s' hStep
      obtain rfl := Option.some.inj hStep
      unfold FlagTruthful
      rw [(sendMessage_frame msg opcode1).1, (sendMessage_frame msg opcode1).2]
      exact h
    rw [and_iff_right hFlag]
    refine Iff.trans ?_ (sendTruthful_iff h hMsg opcode1)
    constructor
    · intro hAll
      exact hAll msg opcode1 hMsg rfl
    · intro hOne msg' opcode1' hMsg' hEq
      cases hEq
      exact hOne

end

end WsAppConnection

end PushStreamer.Endpoint
