import PushStreamer.Socket.Endpoint

/-!
# Heartbeats

What a connection does with the PING and PONG frames that it receives. The
library calls the handler of the class and then answers a PING by itself. The
handlers answer too, with control frames by way of `c.send`, which sends no
control frames: `on_ping` goes through `Send`, which catches, `on_pong` does
not, and the exception leaves the handler on the asio thread.

* `processControlFrame_ping`, `processControlFrame_pong` — one frame on an open
  connection.
* `heartbeat_iff` — the sequences of frames that the heartbeat survives.
-/

namespace PushStreamer.Endpoint

/-- A control frame whose header the library has accepted: the payload has at
most 125 bytes. -/
inductive ControlFrame where
  | ping (payload : Bytes) (hSize : payload.length ≤ 125)
  | pong (payload : Bytes) (hSize : payload.length ≤ 125)

namespace ControlFrame

def isPong : ControlFrame → Bool
  | .ping _ _ => false
  | .pong _ _ => true

/-- The payload of a PING. -/
def pingPayload : ControlFrame → Option Bytes
  | .ping payload _ => some payload
  | .pong _ _ => none

end ControlFrame

namespace WsAppConnection

/-- A literal of the source. -/
def literal (text : String) : Bytes := text.toList.map fun c => UInt8.ofNat c.toNat

/-- `on_ping`. -/
def onPing (enc : Encoding) (s : WsAppConnection) : Bool × WsAppConnection :=
  (true, (s.sendMessage enc (literal "on_ping") .pong).2)

/-- `on_pong`: there is no `try` around `c.send`. -/
def onPong (enc : Encoding) (s : WsAppConnection) : Except ErrorCode WsAppConnection :=
  s.send enc (literal "on_pong") .ping

/-- `connection::pong` with `prepare_control`; an error is returned, and logged
by the caller. -/
def pong (payload : Bytes) (s : WsAppConnection) : Except ErrorCode WsAppConnection :=
  if s.session ≠ .open then .error .invalidState
  else if payload.length > 125 then .error .controlTooBig
  else .ok { s with frames := s.frames ++ [⟨.pong, payload⟩] }

/-- `process_control_frame`: the connection after it, and the exception that
leaves it. -/
def processControlFrame (enc : Encoding) (s : WsAppConnection) (f : ControlFrame) :
    WsAppConnection × Option ErrorCode :=
  if s.session ≠ .open then (s, none)
  else
    match f with
    | .ping payload _ =>
      let (should_reply, s) := s.onPing enc
      if should_reply then
        match s.pong payload with
        | .ok s' => (s', none)
        | .error _ => (s, none)
      else (s, none)
    | .pong _ _ =>
      match s.onPong enc with
      | .ok s' => (s', none)
      | .error e => (s, some e)

/-- The frames that are received, up to an exception that ends the thread. -/
def receive (enc : Encoding) (s : WsAppConnection) :
    List ControlFrame → WsAppConnection × Option ErrorCode
  | [] => (s, none)
  | f :: fs =>
    match s.processControlFrame enc f with
    | (s', none) => receive enc s' fs
    | (s', some e) => (s', some e)

/-- The payloads of the PONG frames sent so far. -/
def pongs (s : WsAppConnection) : List Bytes :=
  (s.frames.filter (·.opcode = .pong)).map Frame.payload

/-- No exception leaves a handler, and the PINGs, and nothing else, are answered
by PONGs with their payloads, in their order. -/
def Heartbeat (enc : Encoding) (s : WsAppConnection) (fs : List ControlFrame) : Prop :=
  (s.receive enc fs).2 = none ∧
    (s.receive enc fs).1.pongs = s.pongs ++ fs.filterMap ControlFrame.pingPayload

section

variable {enc : Encoding} {s : WsAppConnection}

/-- `c.send` refuses a control frame. -/
theorem send_control (h : s.session = .open) {op : Opcode} (hControl : op.isControl = true)
    (payload : Bytes) : s.send enc payload op = .error .invalidOpcode := by
  unfold send prepareDataFrame
  rw [if_neg (not_not.mpr h), if_pos hControl]
  rfl

/-- `Send` with a control opcode does nothing. -/
theorem sendMessage_control (h : s.session = .open) {op : Opcode} (hControl : op.isControl = true)
    (msg : Bytes) : (s.sendMessage enc msg op).2 = s := by
  unfold sendMessage
  split
  · split
    · dsimp only
      rw [send_control h hControl]
      split <;> rfl
    · rfl
  · rfl

/-- A PING is answered by the library. -/
theorem processControlFrame_ping (h : s.session = .open) (payload : Bytes)
    (hSize : payload.length ≤ 125) :
    s.processControlFrame enc (.ping payload hSize) =
      ({ s with frames := s.frames ++ [⟨.pong, payload⟩] }, none) := by
  have hPing : s.onPing enc = (true, s) := congrArg _ (sendMessage_control h rfl _)
  have hPong : s.pong payload = .ok { s with frames := s.frames ++ [⟨.pong, payload⟩] } := by
    unfold pong
    rw [if_neg (not_not.mpr h), if_neg (by omega)]
  unfold processControlFrame
  rw [if_neg (not_not.mpr h)]
  dsimp only
  rw [hPing]
  dsimp only
  rw [hPong]
  rfl

/-- A PONG makes `on_pong` throw. -/
theorem processControlFrame_pong (h : s.session = .open) (payload : Bytes)
    (hSize : payload.length ≤ 125) :
    s.processControlFrame enc (.pong payload hSize) = (s, some .invalidOpcode) := by
  have hThrows : s.onPong enc = .error .invalidOpcode := send_control h rfl _
  unfold processControlFrame
  rw [if_neg (not_not.mpr h)]
  dsimp only
  rw [hThrows]

/-- Each PING adds its PONG. -/
theorem pongs_snoc (payload : Bytes) :
    pongs { s with frames := s.frames ++ [⟨.pong, payload⟩] } = s.pongs ++ [payload] := by
  unfold pongs
  rw [List.filter_append, List.map_append]
  rfl

/--
**Heartbeat.** On an open connection no exception leaves the handlers and each
PING is answered by one PONG with its payload, just when no PONG is received.
-/
theorem heartbeat_iff (h : s.session = .open) (fs : List ControlFrame) :
    s.Heartbeat enc fs ↔ ∀ f ∈ fs, f.isPong = false := by
  induction fs generalizing s with
  | nil => exact iff_of_true ⟨rfl, (List.append_nil _).symm⟩ fun _ hf => by cases hf
  | cons f fs ih =>
    rw [List.forall_mem_cons]
    cases f with
    | ping payload hSize =>
      have hReceive : s.receive enc (.ping payload hSize :: fs) =
          receive enc { s with frames := s.frames ++ [⟨.pong, payload⟩] } fs := by
        rw [receive, processControlFrame_ping h]
      have hNotPong : (ControlFrame.ping payload hSize).isPong = false := rfl
      have hPings : (ControlFrame.ping payload hSize :: fs).filterMap ControlFrame.pingPayload =
          [payload] ++ fs.filterMap ControlFrame.pingPayload := rfl
      have hSession : WsAppConnection.session
          { s with frames := s.frames ++ [⟨.pong, payload⟩] } = .open := h
      rw [and_iff_right hNotPong, ← ih hSession]
      unfold Heartbeat
      rw [hReceive, hPings, pongs_snoc, List.append_assoc]
    | pong payload hSize =>
      have hReceive : s.receive enc (.pong payload hSize :: fs) = (s, some .invalidOpcode) := by
        rw [receive, processControlFrame_pong h]
      unfold Heartbeat
      rw [hReceive]
      exact iff_of_false (fun hNone => by cases hNone.1) fun hNone => by cases hNone.1

/-- Two PINGs on an open connection. -/
theorem heartbeat_two_pings :
    Heartbeat ⟨id, fun _ => true⟩ ⟨true, .open, []⟩
      [.ping [1, 2] (by decide), .ping [] (by decide)] :=
  (heartbeat_iff rfl _).mpr (by simp [ControlFrame.isPong])

/-- A PONG ends the asio thread. -/
theorem pong_escapes :
    ¬ Heartbeat ⟨id, fun _ => true⟩ ⟨true, .open, []⟩ [.pong [] (by decide)] := by
  rintro ⟨hNone, -⟩
  revert hNone
  decide

end

end WsAppConnection

end PushStreamer.Endpoint
