import PushStreamer.Input.Consumer
import PushStreamer.Input.KeyBoardThread

/-!
# Stopping the keyboard thread

`KeyBoardThread` is a thread that connects a websocket, a key-ping timer and a
key mapper with its consumer. The owner calls `start` and `stop`; a socket that
closes or fails spawns a detached thread, which stops the thread without its
timer and starts it again. `stop` waits for the thread, not for the reconnect
threads, and does not touch the consumer.

* `stopped_step` — a step keeps the invariant, and does nothing after a stop.
* `queued_is_called` — what a stop leaves in the queue is called all the same.
* `stop_silences` — the runs in which a stopped thread makes no call any more.
-/

namespace PushStreamer

/-- Where `KeyBoardThread::run` is. -/
inductive ThreadPoint where
  | notRunning
  | closeWebsocket
  | create
  | connect
  | setCallback
  | exec
deriving DecidableEq

/-- Where a reconnect thread is: `StopAccidental`, and then `StartAccidental`. -/
inductive ReconnectPoint where
  | testRunning
  | quit
  | wait
  | closeByAccident
  | start
deriving DecidableEq

/-- Where the owner is in `start` or in `stop`. -/
inductive OwnerPoint where
  | idle
  | startThread
  | stopKeyPing
  | testRunning
  | quit
  | wait
  | closeWebsocket
deriving DecidableEq

/-- The connection as its callbacks see it. `on_open` only sends the login. -/
structure Socket where
  connected : Bool
  callback : Bool
  -- `on_close` or `on_failure` has been called
  closed : Bool
deriving DecidableEq

/-- What the object does to the world. -/
inductive Activity where
  | driver (call : DriverCall)
  | keyPing
  | connect
deriving DecidableEq

structure KeyBoardRun where
  -- the queue of its mapper holds what the message under way has still to produce
  keyBoard : KeyBoardThread
  consumer : Consumer DriverCall
  wsUrl : String
  keyPingTimer : Bool
  keyPingThread : Bool
  thread : ThreadPoint
  -- `quit` has been called on the event loop
  exited : Bool
  socket : Option Socket
  reconnects : List ReconnectPoint
  owner : OwnerPoint
  -- `stop` has returned since the last `start`
  stopped : Bool
  -- all that was done, but for the callbacks of the consumer
  done : List Activity

inductive KeyBoardStep where
  -- calls of the owner, and their next step
  | start (wsUrl loginCommand : String)
  | stop
  | owner
  | setGamePid (gamePid : Int)
  | keyPing
  -- the next step of `run`, of a reconnect thread, and of the consumer
  | run
  | reconnect (i : ℕ)
  | consume
  -- the asio thread: a message, with what the reader makes of it
  | message (message : String) (root : Option Value) (foreground : Option ℕ) (stale : Stale)
  | produce
  | push
  -- `on_close` or `on_failure`
  | close

namespace KeyBoardRun

/-- Before the first `start`, with what is in the queue of the mapper. -/
def fresh (keyBoard : KeyBoardThread) (consumer : Consumer DriverCall) : KeyBoardRun where
  keyBoard := keyBoard
  consumer := consumer
  wsUrl := ""
  keyPingTimer := false
  keyPingThread := false
  thread := .notRunning
  exited := false
  socket := none
  reconnects := []
  owner := .idle
  stopped := false
  done := []

/-- The actions that the message under way has still to produce. -/
def pending (s : KeyBoardRun) : List DriverCall := s.keyBoard.keyBoardConfig.elim [] KeyMapper.queue

/-- No message is under way. -/
def HandlerIdle (s : KeyBoardRun) : Prop := s.pending = [] ∧ s.consumer.producing = none

instance (s : KeyBoardRun) : Decidable s.HandlerIdle := by
  unfold HandlerIdle
  infer_instance

/-- `QThread::start`. -/
def startThread (s : KeyBoardRun) : KeyBoardRun :=
  if s.thread = .notRunning then { s with thread := .closeWebsocket, exited := false } else s

/-- `CloseWebsocket` and its like: the destructor of the connection joins the
asio thread, which ends the message under way. -/
def closeWebsocket (s : KeyBoardRun) : Option KeyBoardRun :=
  if s.socket = none ∨ s.HandlerIdle then some { s with socket := none } else none

/-- `start`, up to `QThread::start`. The timer is created once, and never again. The
tables that it opens are left out: they are taken to be those of `keyBoard`. -/
def callStart (s : KeyBoardRun) (wsUrl loginCommand : String) : KeyBoardRun :=
  if wsUrl = "" ∨ loginCommand = "" then s
  else { s with
    wsUrl := wsUrl
    keyPingThread := !s.keyPingTimer
    keyPingTimer := true
    stopped := false
    owner := .startThread }

/-- The next step of the owner. -/
def ownerStep (s : KeyBoardRun) : Option KeyBoardRun :=
  match s.owner with
  | .idle => none
  | .startThread => some { s.startThread with owner := .idle }
  | .stopKeyPing => some { s with keyPingThread := false, owner := .testRunning }
  | .testRunning =>
    some { s with owner := if s.thread = .notRunning then .closeWebsocket else .quit }
  | .quit => some { s with exited := true, owner := .wait }
  | .wait => if s.thread = .notRunning then some { s with owner := .closeWebsocket } else none
  | .closeWebsocket => s.closeWebsocket.map fun s => { s with owner := .idle, stopped := true }

/-- The next step of `run`; a connection that is gone is a null pointer. -/
def runStep (s : KeyBoardRun) : Option KeyBoardRun :=
  match s.thread with
  | .notRunning => none
  | .closeWebsocket => s.closeWebsocket.map fun s => { s with thread := .create }
  | .create =>
    if s.wsUrl = "" then some { s with thread := .exec }
    else some { s with socket := some ⟨false, false, false⟩, thread := .connect }
  | .connect => s.socket.map fun k => { s with
      socket := some { k with connected := true }
      done := s.done ++ [.connect]
      thread := .setCallback }
  | .setCallback => s.socket.map fun k => { s with
      socket := some { k with callback := true }
      thread := .exec }
  | .exec => if s.exited = true then some { s with thread := .notRunning } else none

/-- The next step of a reconnect thread. -/
def reconnectStep (s : KeyBoardRun) (i : ℕ) : Option KeyBoardRun :=
  match s.reconnects[i]? with
  | none => none
  | some .testRunning =>
    some { s with reconnects :=
      s.reconnects.set i (if s.thread = .notRunning then .closeByAccident else .quit) }
  | some .quit => some { s with exited := true, reconnects := s.reconnects.set i .wait }
  | some .wait =>
    if s.thread = .notRunning then some { s with reconnects := s.reconnects.set i .closeByAccident }
    else none
  | some .closeByAccident =>
    s.closeWebsocket.map fun s => { s with reconnects := s.reconnects.set i .start }
  | some .start => some { s.startThread with reconnects := s.reconnects.eraseIdx i }

/-- The asio thread can call a handler of the connection. -/
def Live (s : KeyBoardRun) (k : Socket) : Prop :=
  k.connected = true ∧ k.closed = false ∧ s.HandlerIdle

instance (s : KeyBoardRun) (k : Socket) : Decidable (s.Live k) := by
  unfold Live
  infer_instance

/-- `MessageCallback`; a fault ends the process. -/
def messageStep (s : KeyBoardRun) (message : String) (root : Option Value)
    (foreground : Option ℕ) (stale : Stale) : Option KeyBoardRun :=
  match s.socket with
  | none => none
  | some k =>
    if s.Live k ∧ k.callback = true then
      match messageCallback (fun _ => root) foreground stale message s.keyBoard with
      | .ok (keyBoard, calls) => some { s with
          keyBoard := keyBoard
          done := s.done ++ calls.map .driver }
      | .error _ => none
    else none

/-- The next action of the message goes to `Produce`. -/
def produceStep (s : KeyBoardRun) : Option KeyBoardRun :=
  match s.keyBoard.keyBoardConfig with
  | none => none
  | some config =>
    match config.queue with
    | [] => none
    | action :: rest => (s.consumer.step (.produce action)).map fun consumer => { s with
        consumer := consumer
        keyBoard := { s.keyBoard with keyBoardConfig := some { config with queue := rest } } }

/-- `AccidentalSignal` is delivered at once: a reconnect thread begins. -/
def closeStep (s : KeyBoardRun) : Option KeyBoardRun :=
  match s.socket with
  | none => none
  | some k =>
    if s.Live k then some { s with
      socket := some { k with closed := true }
      reconnects := if k.callback = true then s.reconnects ++ [.testRunning] else s.reconnects }
    else none

def step (s : KeyBoardRun) : KeyBoardStep → Option KeyBoardRun
  | .start wsUrl loginCommand =>
    if s.owner = .idle then some (s.callStart wsUrl loginCommand) else none
  | .stop => if s.owner = .idle then some { s with owner := .stopKeyPing } else none
  | .owner => s.ownerStep
  | .setGamePid gamePid =>
    some { s with keyBoard :=
      { s.keyBoard with gamePid := if gamePid ≠ 0 then gamePid else s.keyBoard.gamePid } }
  | .keyPing =>
    if s.keyPingThread = true then some { s with done := s.done ++ [.keyPing] } else none
  | .run => s.runStep
  | .reconnect i => s.reconnectStep i
  | .consume => (s.consumer.step .run).map fun consumer => { s with consumer }
  | .message message root foreground stale => s.messageStep message root foreground stale
  | .produce => s.produceStep
  | .push => (s.consumer.step .push).map fun consumer => { s with consumer }
  | .close => s.closeStep

/-- Once it is stopped, the object makes no driver call and no connection. -/
def Silent (s : KeyBoardRun) (e : KeyBoardStep) : Prop :=
  s.stopped = true → ∀ s', s.step e = some s' →
    s'.done = s.done ∧ s'.consumer.executed = s.consumer.executed

/-- Nothing is left that could become active: no callback is queued that has not
been called, no reconnect thread is alive, and `run` is not on its way to a
connection. -/
structure Settled (s : KeyBoardRun) : Prop where
  called : s.consumer.keyboardVector = s.consumer.halfDone
  reconnects : s.reconnects = []
  thread : s.thread = .notRunning ∨ s.thread = .setCallback ∨ s.thread = .exec

instance (s : KeyBoardRun) : Decidable s.Settled :=
  decidable_of_iff (s.consumer.keyboardVector = s.consumer.halfDone ∧ s.reconnects = [] ∧
      (s.thread = .notRunning ∨ s.thread = .setCallback ∨ s.thread = .exec))
    ⟨fun ⟨hCalled, hReconnects, hThread⟩ => ⟨hCalled, hReconnects, hThread⟩,
      fun ⟨hCalled, hReconnects, hThread⟩ => ⟨hCalled, hReconnects, hThread⟩⟩

/-- `stop` takes its last step when all is settled. -/
def ReturnsSettled (s : KeyBoardRun) : KeyBoardStep → Prop
  | .owner => s.owner = .closeWebsocket → s.Settled
  | _ => True

instance (s : KeyBoardRun) (e : KeyBoardStep) : Decidable (s.ReturnsSettled e) := by
  cases e <;> unfold ReturnsSettled <;> infer_instance

/-- What a stopped object is like. -/
structure Still (s : KeyBoardRun) : Prop where
  settled : s.Settled
  socket : ∀ k, s.socket = some k → k.closed = true
  handler : s.HandlerIdle
  keyPing : s.keyPingThread = false
  owner : s.owner ≠ .startThread

/-- The owner is in `stop`, behind `StopKeyPingTImer`. -/
def PingStopped (s : KeyBoardRun) : Prop :=
  s.owner = .testRunning ∨ s.owner = .quit ∨ s.owner = .wait ∨ s.owner = .closeWebsocket

structure Inv (s : KeyBoardRun) : Prop where
  consumer : ∃ done, s.consumer.InOrder done
  -- a message under way keeps its connection
  handler : s.socket = none → s.HandlerIdle
  keyPing : s.PingStopped → s.keyPingThread = false
  still : s.stopped = true → s.Still

/-- A thread that was not started has nothing running. -/
theorem inv_fresh {keyBoard : KeyBoardThread} {consumer : Consumer DriverCall}
    {cs : List (ConsumerStep DriverCall)}
    (hConsumer : Machine.run Consumer.step .start cs = some consumer)
    (hIdle : (fresh keyBoard consumer).HandlerIdle) : (fresh keyBoard consumer).Inv where
  consumer := Consumer.inOrder_run Consumer.inOrder_start hConsumer
  handler := fun _ => hIdle
  keyPing := fun _ => rfl
  still := fun hEq => by cases hEq

section

variable {s s' : KeyBoardRun}

/-- The socket is closed while its handler does nothing. -/
theorem closeWebsocket_eq (h : s.Inv) (hStep : s.closeWebsocket = some s') :
    s.HandlerIdle ∧ s' = { s with socket := none } := by
  obtain ⟨hGuard, rfl⟩ := Machine.of_guard hStep
  exact ⟨hGuard.elim h.handler id, rfl⟩

/-- A call of `start` keeps the invariant. -/
theorem inv_callStart (h : s.Inv) (wsUrl loginCommand : String) :
    (s.callStart wsUrl loginCommand).Inv := by
  unfold callStart
  split
  · exact h
  · refine ⟨h.consumer, h.handler, fun hPing => ?_, fun hEq => by cases hEq⟩
    simp [PingStopped] at hPing

/-- The owner goes on in `stop`, with the timer stopped. -/
theorem Inv.goTo (h : s.Inv) (owner : OwnerPoint) (exited : Bool) (hOwner : owner ≠ .startThread)
    (hPing : s.keyPingThread = false) : ({ s with owner, exited } : KeyBoardRun).Inv where
  consumer := h.consumer
  handler := h.handler
  keyPing := fun _ => hPing
  still := fun hStopped =>
    have hStill := h.still hStopped
    ⟨⟨hStill.settled.called, hStill.settled.reconnects, hStill.settled.thread⟩, hStill.socket,
      hStill.handler, hPing, hOwner⟩

/-- The timer may stop at any time. -/
theorem Inv.stopKeyPing (h : s.Inv) : ({ s with keyPingThread := false } : KeyBoardRun).Inv where
  consumer := h.consumer
  handler := h.handler
  keyPing := fun _ => rfl
  still := fun hStopped =>
    have hStill := h.still hStopped
    ⟨⟨hStill.settled.called, hStill.settled.reconnects, hStill.settled.thread⟩, hStill.socket,
      hStill.handler, rfl, hStill.owner⟩

/-- A stopped object is not in `start`, so the thread can be started. -/
theorem Inv.startThread (h : s.Inv) (hStopped : s.stopped ≠ true) : s.startThread.Inv := by
  unfold KeyBoardRun.startThread
  split
  · exact ⟨h.consumer, h.handler, h.keyPing, fun hEq => absurd hEq hStopped⟩
  · exact h

/-- Starting a thread changes nothing else. -/
theorem startThread_frame (s : KeyBoardRun) :
    s.startThread.stopped = s.stopped ∧ s.startThread.done = s.done ∧
      s.startThread.consumer = s.consumer := by
  unfold KeyBoardRun.startThread
  split <;> exact ⟨rfl, rfl, rfl⟩

/-- The owner itself makes no call. -/
theorem ownerStep_frame (hStep : s.ownerStep = some s') :
    s'.done = s.done ∧ s'.consumer = s.consumer := by
  unfold ownerStep at hStep
  split at hStep
  case h_1 => cases hStep
  case h_2 =>
    obtain rfl := Option.some.inj hStep
    exact (startThread_frame s).2
  case h_6 =>
    obtain ⟨-, rfl⟩ := Machine.of_guard hStep
    exact ⟨rfl, rfl⟩
  case h_7 =>
    obtain ⟨s₁, hClose, rfl⟩ := Option.map_eq_some_iff.mp hStep
    obtain ⟨-, rfl⟩ := Machine.of_guard hClose
    exact ⟨rfl, rfl⟩
  all_goals
    obtain rfl := Option.some.inj hStep
    exact ⟨rfl, rfl⟩

/-- The owner keeps the invariant, if it closes the socket when all has settled. -/
theorem inv_ownerStep (h : s.Inv) (hSettled : s.owner = .closeWebsocket → s.Settled)
    (hStep : s.ownerStep = some s') : s'.Inv := by
  unfold ownerStep at hStep
  split at hStep
  case h_1 => cases hStep
  case h_2 hOwner =>
    obtain rfl := Option.some.inj hStep
    have hRunning : s.stopped ≠ true := fun hStopped => (h.still hStopped).owner hOwner
    have hStart := h.startThread hRunning
    refine ⟨hStart.consumer, hStart.handler, fun hPing => ?_, fun hEq => ?_⟩
    · simp [PingStopped] at hPing
    · exact absurd ((startThread_frame s).1.symm.trans hEq) hRunning
  case h_3 =>
    obtain rfl := Option.some.inj hStep
    exact h.stopKeyPing.goTo .testRunning s.exited (by decide) rfl
  case h_4 hOwner =>
    obtain rfl := Option.some.inj hStep
    refine h.goTo _ s.exited ?_ (h.keyPing (Or.inl hOwner))
    split <;> decide
  case h_5 hOwner =>
    obtain rfl := Option.some.inj hStep
    exact h.goTo .wait true (by decide) (h.keyPing (Or.inr (Or.inl hOwner)))
  case h_6 hOwner =>
    obtain ⟨-, rfl⟩ := Machine.of_guard hStep
    exact h.goTo .closeWebsocket s.exited (by decide) (h.keyPing (Or.inr (Or.inr (Or.inl hOwner))))
  case h_7 hOwner =>
    -- `stop` returns
    obtain ⟨s₁, hClose, rfl⟩ := Option.map_eq_some_iff.mp hStep
    obtain ⟨hHandler, rfl⟩ := closeWebsocket_eq h hClose
    have hPing := h.keyPing (Or.inr (Or.inr (Or.inr hOwner)))
    have hAll := hSettled hOwner
    refine ⟨h.consumer, fun _ => hHandler, fun _ => hPing, fun _ => ?_⟩
    refine ⟨⟨hAll.called, hAll.reconnects, hAll.thread⟩, fun k hEq => ?_, hHandler, hPing,
      fun hEq => ?_⟩
    · cases hEq
    · cases hEq

/-- While it is on its way to a connection, the object is not stopped. -/
theorem Inv.not_stopped (h : s.Inv)
    (hThread : s.thread = .closeWebsocket ∨ s.thread = .create ∨ s.thread = .connect) :
    s.stopped ≠ true := by
  intro hStopped
  rcases (h.still hStopped).settled.thread with hAt | hAt | hAt <;>
    rcases hThread with hThread | hThread | hThread <;> cases hAt.symm.trans hThread

/-- After `stop` the thread does nothing more: its steps keep what is done. -/
theorem inv_runStep (h : s.Inv) (hStep : s.runStep = some s') :
    s'.Inv ∧ (s.stopped = true → s'.done = s.done) ∧ s'.consumer = s.consumer := by
  unfold runStep at hStep
  split at hStep
  case h_1 => cases hStep
  case h_2 hThread =>
    have hRunning := h.not_stopped (Or.inl hThread)
    obtain ⟨s₁, hClose, rfl⟩ := Option.map_eq_some_iff.mp hStep
    obtain ⟨hHandler, rfl⟩ := closeWebsocket_eq h hClose
    exact ⟨⟨h.consumer, fun _ => hHandler, h.keyPing, fun hEq => absurd hEq hRunning⟩,
      fun _ => rfl, rfl⟩
  case h_3 hThread =>
    have hRunning := h.not_stopped (Or.inr (Or.inl hThread))
    split at hStep
    · obtain rfl := Option.some.inj hStep
      exact ⟨⟨h.consumer, h.handler, h.keyPing, fun hEq => absurd hEq hRunning⟩,
        fun _ => rfl, rfl⟩
    · obtain rfl := Option.some.inj hStep
      refine ⟨⟨h.consumer, fun hNone => ?_, h.keyPing, fun hEq => absurd hEq hRunning⟩,
        fun _ => rfl, rfl⟩
      cases hNone
  case h_4 hThread =>
    -- the connection; the object is not stopped
    have hRunning := h.not_stopped (Or.inr (Or.inr hThread))
    obtain ⟨k, -, rfl⟩ := Option.map_eq_some_iff.mp hStep
    refine ⟨⟨h.consumer, fun hNone => ?_, h.keyPing, fun hEq => absurd hEq hRunning⟩,
      fun hEq => absurd hEq hRunning, rfl⟩
    cases hNone
  case h_5 =>
    obtain ⟨k, hSocket, rfl⟩ := Option.map_eq_some_iff.mp hStep
    refine ⟨⟨h.consumer, fun hNone => ?_, h.keyPing, fun hStopped => ?_⟩, fun _ => rfl, rfl⟩
    · cases hNone
    · have hStill := h.still hStopped
      refine ⟨⟨hStill.settled.called, hStill.settled.reconnects, Or.inr (Or.inr rfl)⟩, ?_,
        hStill.handler, hStill.keyPing, hStill.owner⟩
      intro k' hk'
      obtain rfl := Option.some.inj hk'
      exact hStill.socket k hSocket
  case h_6 =>
    obtain ⟨-, rfl⟩ := Machine.of_guard hStep
    refine ⟨⟨h.consumer, h.handler, h.keyPing, fun hStopped => ?_⟩, fun _ => rfl, rfl⟩
    have hStill := h.still hStopped
    exact ⟨⟨hStill.settled.called, hStill.settled.reconnects, Or.inl rfl⟩, hStill.socket,
      hStill.handler, hStill.keyPing, hStill.owner⟩

/-- A reconnect thread is alive only while the object is not stopped. -/
theorem inv_reconnectStep (h : s.Inv) {i : ℕ} (hStep : s.reconnectStep i = some s') :
    s'.Inv ∧ s'.done = s.done ∧ s'.consumer = s.consumer := by
  unfold reconnectStep at hStep
  cases hPoint : s.reconnects[i]? with
  | none =>
    rw [hPoint] at hStep
    cases hStep
  | some point =>
    -- the reconnects are gone once a stop has returned
    have hRunning : s.stopped ≠ true := by
      intro hStopped
      rw [(h.still hStopped).settled.reconnects] at hPoint
      cases hPoint
    rw [hPoint] at hStep
    cases point with
    | testRunning =>
      obtain rfl := Option.some.inj hStep
      exact ⟨⟨h.consumer, h.handler, h.keyPing, fun hEq => absurd hEq hRunning⟩, rfl, rfl⟩
    | quit =>
      obtain rfl := Option.some.inj hStep
      exact ⟨⟨h.consumer, h.handler, h.keyPing, fun hEq => absurd hEq hRunning⟩, rfl, rfl⟩
    | wait =>
      obtain ⟨-, rfl⟩ := Machine.of_guard hStep
      exact ⟨⟨h.consumer, h.handler, h.keyPing, fun hEq => absurd hEq hRunning⟩, rfl, rfl⟩
    | closeByAccident =>
      obtain ⟨s₁, hClose, rfl⟩ := Option.map_eq_some_iff.mp hStep
      obtain ⟨hHandler, rfl⟩ := closeWebsocket_eq h hClose
      exact ⟨⟨h.consumer, fun _ => hHandler, h.keyPing, fun hEq => absurd hEq hRunning⟩, rfl, rfl⟩
    | start =>
      obtain rfl := Option.some.inj hStep
      have hStart := h.startThread hRunning
      obtain ⟨hStopped, hFrame⟩ := startThread_frame s
      refine ⟨⟨hStart.consumer, hStart.handler, hStart.keyPing, fun hEq => ?_⟩, hFrame⟩
      exact absurd (hStopped.symm.trans hEq) hRunning

/-- The asio thread has no part in a stopped object. -/
theorem Inv.not_live (h : s.Inv) (hStopped : s.stopped = true) {k : Socket}
    (hSocket : s.socket = some k) : ¬ s.Live k := by
  rintro ⟨-, hOpen, -⟩
  exact Bool.false_ne_true (hOpen.symm.trans ((h.still hStopped).socket k hSocket))

/-- The same of a message. -/
theorem inv_messageStep (h : s.Inv) {message : String} {root : Option Value}
    {foreground : Option ℕ} {stale : Stale}
    (hStep : s.messageStep message root foreground stale = some s') :
    s'.Inv ∧ (s.stopped = true → s'.done = s.done) ∧ s'.consumer = s.consumer := by
  unfold messageStep at hStep
  split at hStep
  case h_1 => cases hStep
  case h_2 k hSocket =>
    obtain ⟨hLive, hStep⟩ := Option.ite_none_right_eq_some.mp hStep
    have hRunning : s.stopped ≠ true := fun hStopped => h.not_live hStopped hSocket hLive.1
    split at hStep
    · obtain rfl := Option.some.inj hStep
      refine ⟨⟨h.consumer, fun hNone => ?_, h.keyPing, fun hEq => absurd hEq hRunning⟩,
        fun hEq => absurd hEq hRunning, rfl⟩
      cases hSocket.symm.trans hNone
    · cases hStep

/-- The same of the close of a socket. -/
theorem inv_closeStep (h : s.Inv) (hStep : s.closeStep = some s') :
    s'.Inv ∧ s'.done = s.done ∧ s'.consumer = s.consumer := by
  unfold closeStep at hStep
  split at hStep
  case h_1 => cases hStep
  case h_2 k hSocket =>
    obtain ⟨hLive, rfl⟩ := Machine.of_guard hStep
    have hRunning : s.stopped ≠ true := fun hStopped => h.not_live hStopped hSocket hLive
    refine ⟨⟨h.consumer, fun hNone => ?_, h.keyPing, fun hEq => absurd hEq hRunning⟩, rfl, rfl⟩
    cases hNone

/-- A message that is under way produces its actions. -/
theorem inv_produceStep (h : s.Inv) (hStep : s.produceStep = some s') :
    s'.Inv ∧ s'.done = s.done ∧ s'.consumer.executed = s.consumer.executed := by
  unfold produceStep at hStep
  split at hStep
  case h_1 => cases hStep
  case h_2 config hConfig =>
    split at hStep
    · cases hStep
    · rename_i action rest hQueue
      obtain ⟨consumer, hConsumer, rfl⟩ := Option.map_eq_some_iff.mp hStep
      obtain ⟨done, hDone⟩ := h.consumer
      have hBusy : ¬ s.HandlerIdle := by
        rintro ⟨hPending, -⟩
        rw [pending, hConfig] at hPending
        exact List.cons_ne_nil _ _ (hQueue.symm.trans hPending)
      have hRunning : s.stopped ≠ true := fun hStopped => hBusy (h.still hStopped).handler
      refine ⟨⟨Consumer.inOrder_step hDone hConsumer, fun hNone => absurd (h.handler hNone) hBusy,
        h.keyPing, fun hEq => absurd hEq hRunning⟩, rfl, ?_⟩
      obtain ⟨-, rfl⟩ := Machine.of_guard hConsumer
      rfl

/-- A call that is handed over is not executed by that. -/
theorem inv_push (h : s.Inv)
    (hStep : ((s.consumer.step .push).map fun consumer => { s with consumer }) = some s') :
    s'.Inv ∧ s'.done = s.done ∧ s'.consumer.executed = s.consumer.executed := by
  obtain ⟨consumer, hConsumer, rfl⟩ := Option.map_eq_some_iff.mp hStep
  obtain ⟨done, hDone⟩ := h.consumer
  have hBusy : ¬ s.HandlerIdle := by
    rintro ⟨-, hProducing⟩
    rw [Consumer.step, hProducing] at hConsumer
    cases hConsumer
  have hRunning : s.stopped ≠ true := fun hStopped => hBusy (h.still hStopped).handler
  refine ⟨⟨Consumer.inOrder_step hDone hConsumer, fun hNone => absurd (h.handler hNone) hBusy,
    h.keyPing, fun hEq => absurd hEq hRunning⟩, rfl, ?_⟩
  obtain ⟨value, -, rfl⟩ := Option.map_eq_some_iff.mp hConsumer
  rfl

/-- The consumer of a stopped object has nothing to call. -/
theorem inv_consume (h : s.Inv)
    (hStep : ((s.consumer.step .run).map fun consumer => { s with consumer }) = some s') :
    s'.Inv ∧ s'.done = s.done ∧
      (s.stopped = true → s'.consumer.executed = s.consumer.executed) := by
  obtain ⟨consumer, hConsumer, rfl⟩ := Option.map_eq_some_iff.mp hStep
  obtain ⟨done, hDone⟩ := h.consumer
  have hProducing : consumer.producing = s.consumer.producing :=
    (Consumer.runStep_frame hConsumer).2
  refine ⟨⟨Consumer.inOrder_step hDone hConsumer, fun hNone => ?_, h.keyPing, fun hStopped => ?_⟩,
    rfl, fun hStopped => ?_⟩
  · exact ⟨(h.handler hNone).1, hProducing.trans (h.handler hNone).2⟩
  · have hStill := h.still hStopped
    have hCalled := Consumer.runStep_of_called hDone hStill.settled.called hConsumer
    exact ⟨⟨hCalled.1, hStill.settled.reconnects, hStill.settled.thread⟩, hStill.socket,
      ⟨hStill.handler.1, hProducing.trans hStill.handler.2⟩, hStill.keyPing, hStill.owner⟩
  · exact (Consumer.runStep_of_called hDone (h.still hStopped).settled.called hConsumer).2

/-- Each step keeps the invariant, and after a stop it does nothing. -/
theorem stopped_step (h : s.Inv) {e : KeyBoardStep} (hSettled : s.ReturnsSettled e)
    (hStep : s.step e = some s') :
    s'.Inv ∧ (s.stopped = true →
      s'.done = s.done ∧ s'.consumer.executed = s.consumer.executed) := by
  cases e with
  | start wsUrl loginCommand =>
    obtain ⟨-, rfl⟩ := Machine.of_guard hStep
    refine ⟨inv_callStart h wsUrl loginCommand, fun _ => ?_⟩
    -- `start` adds nothing to what was done, and does not touch the consumer
    unfold callStart
    split <;> exact ⟨rfl, rfl⟩
  | stop =>
    obtain ⟨-, rfl⟩ := Machine.of_guard hStep
    refine ⟨⟨h.consumer, h.handler, fun hPing => ?_, fun hStopped => ?_⟩, fun _ => ⟨rfl, rfl⟩⟩
    · -- at its first place the stop has not stopped the ping yet
      simp [PingStopped] at hPing
    · obtain ⟨hAll, hSocket, hHandler, hPing, -⟩ := h.still hStopped
      refine ⟨⟨hAll.called, hAll.reconnects, hAll.thread⟩, hSocket, hHandler, hPing, fun hEq => ?_⟩
      cases hEq
  | owner =>
    obtain ⟨hDone, hConsumer⟩ := ownerStep_frame hStep
    exact ⟨inv_ownerStep h hSettled hStep, fun _ => ⟨hDone, congrArg _ hConsumer⟩⟩
  | setGamePid gamePid =>
    obtain rfl := Option.some.inj hStep
    -- the game id is no part of the invariant
    refine ⟨⟨h.consumer, h.handler, h.keyPing, fun hStopped => ?_⟩, fun _ => ⟨rfl, rfl⟩⟩
    obtain ⟨hAll, hSocket, hHandler, hPing, hOwner⟩ := h.still hStopped
    exact ⟨⟨hAll.called, hAll.reconnects, hAll.thread⟩, hSocket, hHandler, hPing, hOwner⟩
  | keyPing =>
    obtain ⟨hPing, rfl⟩ := Machine.of_guard hStep
    -- a stopped object has no ping to run
    have hRunning : s.stopped ≠ true := fun hStopped =>
      Bool.false_ne_true ((h.still hStopped).keyPing.symm.trans hPing)
    exact ⟨⟨h.consumer, h.handler, h.keyPing, fun hEq => absurd hEq hRunning⟩,
      fun hEq => absurd hEq hRunning⟩
  | run =>
    obtain ⟨hInv, hDone, hConsumer⟩ := inv_runStep h hStep
    exact ⟨hInv, fun hStopped => ⟨hDone hStopped, congrArg _ hConsumer⟩⟩
  | reconnect i =>
    obtain ⟨hInv, hDone, hConsumer⟩ := inv_reconnectStep h hStep
    exact ⟨hInv, fun _ => ⟨hDone, congrArg _ hConsumer⟩⟩
  | consume =>
    obtain ⟨hInv, hDone, hExecuted⟩ := inv_consume h hStep
    exact ⟨hInv, fun hStopped => ⟨hDone, hExecuted hStopped⟩⟩
  | message message root foreground stale =>
    obtain ⟨hInv, hDone, hConsumer⟩ := inv_messageStep h hStep
    exact ⟨hInv, fun hStopped => ⟨hDone hStopped, congrArg _ hConsumer⟩⟩
  | produce =>
    obtain ⟨hInv, hSame⟩ := inv_produceStep h hStep
    exact ⟨hInv, fun _ => hSame⟩
  | push =>
    obtain ⟨hInv, hSame⟩ := inv_push h hStep
    exact ⟨hInv, fun _ => hSame⟩
  | close =>
    obtain ⟨hInv, hDone, hConsumer⟩ := inv_closeStep h hStep
    exact ⟨hInv, fun _ => ⟨hDone, congrArg _ hConsumer⟩⟩

end

/-- **Stop.** In a run in which `stop` returns only when all is settled, the
object makes no driver call and no connection between a stop and the next
start. -/
theorem stop_silences {keyBoard : KeyBoardThread} {consumer : Consumer DriverCall}
    {cs : List (ConsumerStep DriverCall)}
    (hConsumer : Machine.run Consumer.step .start cs = some consumer)
    (hIdle : (fresh keyBoard consumer).HandlerIdle) {es : List KeyBoardStep}
    (hSettled : Machine.MeetsTaken step ReturnsSettled (fresh keyBoard consumer) es) :
    Machine.MeetsTaken step Silent (fresh keyBoard consumer) es := by
  refine Machine.meetsTaken_mono (fun s e s' hInv hSettled hStep => ?_)
    (inv_fresh hConsumer hIdle) hSettled
  obtain ⟨hInv', hSame⟩ := stopped_step hInv hSettled hStep
  refine ⟨hInv', fun hStopped s'' hStep' => ?_⟩
  obtain rfl := Option.some.inj (hStep'.symm.trans hStep)
  exact hSame hStopped

/-- The consumer takes its steps, stopped or not. -/
theorem run_consume {s : KeyBoardRun} {n : ℕ} {consumer : Consumer DriverCall}
    (h : s.consumer.RunsTo n consumer) :
    Machine.run step s (List.replicate n .consume) = some { s with consumer } := by
  induction n generalizing s with
  | zero =>
    obtain rfl := Option.some.inj h
    rfl
  | succ n ih =>
    obtain ⟨c₁, hStep, hRest⟩ := Machine.run_cons.mp h
    refine Machine.run_cons.mpr ⟨{ s with consumer := c₁ }, ?_, ih hRest⟩
    rw [step, hStep]
    rfl

/-- What is queued when `stop` returns is called after it. -/
theorem queued_is_called {s : KeyBoardRun} (h : s.Inv)
    (hFlag : s.consumer.threadFlag = true) (hIn : ¬ s.consumer.LeftLoop)
    (hQueued : s.consumer.keyboardVector ≠ s.consumer.halfDone) :
    ∃ n s', Machine.run step s (List.replicate n .consume) = some s' ∧
      s'.consumer.executed ≠ s.consumer.executed := by
  obtain ⟨done, hDone⟩ := h.consumer
  obtain ⟨n, consumer, hRuns, -, hExecuted⟩ := Consumer.drains hDone hFlag hIn
  refine ⟨n, { s with consumer }, run_consume hRuns, fun hSame => hQueued ?_⟩
  have hAll : done ++ s.consumer.keyboardVector = done ++ s.consumer.halfDone := by
    rw [← hDone.produced, ← hDone.executed, ← hExecuted]
    exact hSame
  exact List.append_cancel_left hAll

/-- An object without tables and without a mapper. -/
def sampleKeyBoard : KeyBoardThread := ⟨none, none, false, none, 0⟩

/-- `start`, and its thread to its event loop. -/
def startAll : List KeyBoardStep :=
  [.start "ws://s" "login", .owner, .run, .run, .run, .run]

/-- `stop`, with the thread leaving its event loop. -/
def stopAll : List KeyBoardStep := [.stop, .owner, .owner, .owner, .run, .owner, .owner]

/-- A key ping before, and the consumer after. -/
def undisturbed : List KeyBoardStep :=
  startAll ++ KeyBoardStep.keyPing :: stopAll ++ List.replicate 2 KeyBoardStep.consume

/-- A stop without other calls. -/
theorem stop_silences_undisturbed :
    Machine.MeetsTaken step Silent (fresh sampleKeyBoard .start) undisturbed := by
  have hSettled : Machine.MeetsTaken step ReturnsSettled (fresh sampleKeyBoard .start)
      undisturbed := by
    rw [Machine.meetsTaken_iff]
    decide
  have hConsumer : Machine.run Consumer.step (.start : Consumer DriverCall) [] = some .start := rfl
  exact stop_silences hConsumer ⟨rfl, rfl⟩ hSettled

/-- One action is queued, and not called yet. -/
def queuedKey : Consumer DriverCall :=
  { Consumer.start with keyboardVector := [.keyDown 65], produced := [.keyDown 65] }

/-- The socket fails before `stop` is called; then its reconnect thread, and the
thread that it starts up to its connection. -/
def failsBeforeStop : List KeyBoardStep :=
  startAll ++ KeyBoardStep.close :: stopAll ++ List.replicate 3 (KeyBoardStep.reconnect 0) ++
    List.replicate 2 KeyBoardStep.run

/-- `stop` on a thread that is not running, and the consumer up to its call. -/
def queuedAtStop : List KeyBoardStep :=
  KeyBoardStep.stop :: List.replicate 3 KeyBoardStep.owner ++ List.replicate 4 KeyBoardStep.consume

/-- A step after a stop that does something. -/
theorem not_silent {s s₁ s₂ : KeyBoardRun} {es : List KeyBoardStep} {e : KeyBoardStep}
    (hRun : Machine.run step s es = some s₁) (hStopped : s₁.stopped = true)
    (hStep : s₁.step e = some s₂)
    (hActive : s₂.done ≠ s₁.done ∨ s₂.consumer.executed ≠ s₁.consumer.executed) :
    ¬ Machine.MeetsTaken step Silent s (es ++ [e]) := by
  intro h
  obtain ⟨hDone, hExecuted⟩ := Machine.Meets.at h hRun s₂ hStep hStopped s₂ hStep
  exact hActive.elim (fun hNe => hNe hDone) fun hNe => hNe hExecuted

/-- A socket that failed before the stop is connected again after it, and an
action that was queued before the stop is executed after it. -/
theorem active_after_stop :
    ¬ Machine.MeetsTaken step Silent (fresh sampleKeyBoard .start) (failsBeforeStop ++ [.run]) ∧
      ¬ Machine.MeetsTaken step Silent (fresh sampleKeyBoard queuedKey)
        (queuedAtStop ++ [.consume]) :=
  ⟨not_silent rfl rfl rfl (Or.inl (by decide)), not_silent rfl rfl rfl (Or.inr (by decide))⟩

end KeyBoardRun

end PushStreamer
