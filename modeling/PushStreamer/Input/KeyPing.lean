import PushStreamer.Lib.Machine
import Mathlib.Tactic.Common

/-!
# The key-ping timer

`KeyBoardThread::start` arms a timer on a thread of its own, after it has put
down what an earlier `start` left; `stop` only puts it down. The owner goes
through `StopKeyPingTImer` and `StartKeyPingTimer` statement by statement, and
the ping thread takes its own steps in between: `QThread::start` returns before
the thread has emitted `started()`, and this signal reaches the connections that
are there when it is emitted. `m_keyPingTimer` is tested before a timer is
created, and nothing ever sets it back to null.

* `Shape` — timer and thread at each point of the owner, as long as the signal
  is in time and the timer is created once.
* `shape_step` — each step goes from one of them to another.
* `keep_alive_armed` — the runs in which the timer is armed for each session.
-/

namespace PushStreamer

/-- The `QTimer` behind `m_keyPingTimer`. -/
structure PingTimer where
  -- `timeout()` to `OnKeyPingTimer`, `started()` to `start`, `finished()` to `deleteLater`
  timeout : Bool
  started : Bool
  finished : Bool
  running : Bool
  -- `deleteLater` has been called
  deleted : Bool
deriving DecidableEq

/-- After `new QTimer` and `setInterval`. -/
def PingTimer.new : PingTimer := ⟨false, false, false, false, false⟩

/-- How far the thread of the timer is; `started()` is emitted between
`starting` and `running`. -/
inductive PingPhase where
  | created
  | starting
  | running
  | finished
deriving DecidableEq

/-- The `QThread` behind `m_keyPingThread`. -/
structure PingThread where
  phase : PingPhase
  -- `quit` has been called
  exited : Bool
deriving DecidableEq

/-- The call that the owner makes. -/
inductive PingCall where
  | start
  | stop
deriving DecidableEq

/-- The statement that the owner comes to. -/
inductive PingPoint where
  | idle
  -- `StopKeyPingTImer`, in either call
  | testThread (call : PingCall)
  | disconnect (call : PingCall)
  | testFinished (call : PingCall)
  | testRunning (call : PingCall)
  | quit (call : PingCall)
  | wait (call : PingCall)
  | delete (call : PingCall)
  -- `StartKeyPingTimer`
  | testTimer
  | newTimer
  | newThread
  | startThread
  | moveToThread
  | connectTimeout
  | connectStarted
  | connectFinished
deriving DecidableEq

/-- What the last call has left; nothing is promised before it returns. -/
inductive PingSession where
  | none
  | running
  | stopped
deriving DecidableEq

structure KeyPing where
  -- `m_keyPingTimer` and `m_keyPingThread`
  timer : Option PingTimer
  thread : Option PingThread
  owner : PingPoint
  session : PingSession
  -- a null or deleted timer has been used
  misused : Bool
deriving DecidableEq

inductive PingEvent where
  | start (wsUrl loginCommand : String)
  | stop
  | owner
  -- the ping thread: `started()`, and the end of its event loop
  | started
  | finish

namespace KeyPing

/-- After the constructor. -/
def fresh : KeyPing := ⟨none, none, .idle, .none, false⟩

/-- A statement that uses the timer. -/
def useTimer (s : KeyPing) (f : PingTimer → PingTimer) : KeyPing :=
  match s.timer with
  | some timer => { s with timer := some (f timer), misused := s.misused || timer.deleted }
  | none => { s with misused := true }

/-- `start` returns true. -/
def returnsTrue (s : KeyPing) : KeyPing := { s with owner := .idle, session := .running }

/-- `StopKeyPingTImer` returns: `start` goes on, and `stop` has no more to do
with the timer. -/
def leavesStop (s : KeyPing) : PingCall → KeyPing
  | .start => { s with owner := .testTimer }
  | .stop => { s with owner := .idle, session := .stopped }

/-- The next statement of the owner. -/
def ownerStep (s : KeyPing) : Option KeyPing :=
  match s.owner with
  | .idle => none
  | .testThread call =>
    some (if s.thread = none then s.leavesStop call else { s with owner := .disconnect call })
  | .disconnect call =>
    some { s.useTimer fun timer => { timer with timeout := false } with
      owner := .testFinished call }
  | .testFinished call => s.thread.map fun thread =>
    { s with owner := if thread.phase = .finished then .delete call else .testRunning call }
  | .testRunning call => s.thread.map fun thread =>
    { s with
      owner := if thread.phase = .starting ∨ thread.phase = .running then .quit call
        else .delete call }
  | .quit call => s.thread.map fun thread =>
    { s with thread := some { thread with exited := true }, owner := .wait call }
  | .wait call =>
    if s.thread.map PingThread.phase = some .finished then some { s with owner := .delete call }
    else none
  | .delete call => some (leavesStop { s with thread := none } call)
  | .testTimer =>
    -- a timer that is there is neither started nor connected again
    some (if s.timer = none then { s with owner := .newTimer } else s.returnsTrue)
  | .newTimer => some { s with timer := some .new, owner := .newThread }
  | .newThread => some { s with thread := some ⟨.created, false⟩, owner := .startThread }
  | .startThread => s.thread.map fun thread =>
    { s with thread := some { thread with phase := .starting }, owner := .moveToThread }
  | .moveToThread => some { s.useTimer id with owner := .connectTimeout }
  | .connectTimeout =>
    some { s.useTimer fun timer => { timer with timeout := true } with owner := .connectStarted }
  | .connectStarted =>
    some { s.useTimer fun timer => { timer with started := true } with owner := .connectFinished }
  | .connectFinished =>
    some (s.useTimer fun timer => { timer with finished := true }).returnsTrue

/-- The thread emits `started()`, which starts a timer that is connected to it. -/
def threadStarted (s : KeyPing) : Option KeyPing :=
  match s.thread with
  | some thread =>
    if thread.phase = .starting then
      some { s with
        thread := some { thread with phase := .running }
        timer := s.timer.map fun timer =>
          if timer.started then { timer with running := true } else timer }
    else none
  | none => none

/-- The event loop has been left: no timer of the thread runs any more, and
`finished()` deletes the one that is connected to it. -/
def threadFinished (s : KeyPing) : Option KeyPing :=
  match s.thread with
  | some thread =>
    if thread.phase = .running ∧ thread.exited = true then
      some { s with
        thread := some { thread with phase := .finished }
        timer := s.timer.map fun timer =>
          { timer with running := false, deleted := timer.deleted || timer.finished } }
    else none
  | none => none

/-- One event, if it can happen. -/
def step (s : KeyPing) : PingEvent → Option KeyPing
  | .start wsUrl loginCommand =>
    if s.owner = .idle then
      -- without a url or a login command it returns false at once
      some (if wsUrl = "" ∨ loginCommand = "" then s
        else { s with owner := .testThread .start, session := .none })
    else none
  | .stop =>
    if s.owner = .idle then some { s with owner := .testThread .stop, session := .none } else none
  | .owner => s.ownerStep
  | .started => s.threadStarted
  | .finish => s.threadFinished

/-- The thread has not emitted `started()` yet. -/
def Starting (s : KeyPing) : Prop := s.thread.map PingThread.phase = some .starting

/-- After `start` has returned true, and unless the ping thread is still
starting, the timer runs and is connected to `OnKeyPingTimer`; after `stop` no
timer is connected to it; and no statement has used a timer that is null or
about to be deleted. -/
structure Armed (s : KeyPing) : Prop where
  running : s.session = .running → ¬ s.Starting →
    ∃ timer, s.timer = some timer ∧ timer.running = true ∧ timer.timeout = true
  stopped : s.session = .stopped → ∀ timer, s.timer = some timer → timer.timeout = false
  used : s.misused = false

/-- `start` is called before there is a timer, and `started()` is emitted after
it has been connected. -/
def InTime (s : KeyPing) : PingEvent → Prop
  | .start wsUrl loginCommand => wsUrl ≠ "" ∧ loginCommand ≠ "" → s.timer = none
  | .started => s.timer.map PingTimer.started = some true
  | _ => True

instance (s : KeyPing) (e : PingEvent) : Decidable (s.InTime e) := by
  cases e <;> unfold InTime <;> infer_instance

-- ---------------------------------------------------------------------------
-- Shapes
-- ---------------------------------------------------------------------------

/-- A connected timer, once it is connected to all three signals. -/
def wired (timeout up : Bool) : PingTimer := ⟨timeout, true, true, up, false⟩

/-- A timer that its thread has deleted. -/
def gone : PingTimer := ⟨false, true, true, false, true⟩

/-- The thread before and after `started()`. -/
def upThread (up exited : Bool) : PingThread := ⟨if up then .running else .starting, exited⟩

/-- Timer and thread at each point of the owner. -/
inductive Shape : KeyPing → Prop
  -- before the first `start`
  | unused (session : PingSession) (hSession : session ≠ .running) :
    Shape ⟨none, none, .idle, session, false⟩
  | unusedTest (call : PingCall) : Shape ⟨none, none, .testThread call, .none, false⟩
  -- inside the first `start`
  | testTimer : Shape ⟨none, none, .testTimer, .none, false⟩
  | newTimer : Shape ⟨none, none, .newTimer, .none, false⟩
  | newThread : Shape ⟨some .new, none, .newThread, .none, false⟩
  | startThread : Shape ⟨some .new, some ⟨.created, false⟩, .startThread, .none, false⟩
  | moveToThread : Shape ⟨some .new, some ⟨.starting, false⟩, .moveToThread, .none, false⟩
  | connectTimeout : Shape ⟨some .new, some ⟨.starting, false⟩, .connectTimeout, .none, false⟩
  | connectStarted :
    Shape ⟨some ⟨true, false, false, false, false⟩, some ⟨.starting, false⟩, .connectStarted,
      .none, false⟩
  | connectFinished (up : Bool) :
    Shape ⟨some ⟨true, true, false, up, false⟩, some (upThread up false), .connectFinished, .none,
      false⟩
  -- the session, and inside `stop`
  | live (up : Bool) :
    Shape ⟨some (wired true up), some (upThread up false), .idle, .running, false⟩
  | testThread (up : Bool) :
    Shape ⟨some (wired true up), some (upThread up false), .testThread .stop, .none, false⟩
  | disconnect (up : Bool) :
    Shape ⟨some (wired true up), some (upThread up false), .disconnect .stop, .none, false⟩
  | testFinished (up : Bool) :
    Shape ⟨some (wired false up), some (upThread up false), .testFinished .stop, .none, false⟩
  | testRunning (up : Bool) :
    Shape ⟨some (wired false up), some (upThread up false), .testRunning .stop, .none, false⟩
  | quit (up : Bool) :
    Shape ⟨some (wired false up), some (upThread up false), .quit .stop, .none, false⟩
  | wait (up : Bool) :
    Shape ⟨some (wired false up), some (upThread up true), .wait .stop, .none, false⟩
  | waited : Shape ⟨some gone, some ⟨.finished, true⟩, .wait .stop, .none, false⟩
  | delete : Shape ⟨some gone, some ⟨.finished, true⟩, .delete .stop, .none, false⟩
  -- after `stop`
  | stopped : Shape ⟨some gone, none, .idle, .stopped, false⟩
  | stoppedTest : Shape ⟨some gone, none, .testThread .stop, .none, false⟩

section

variable {s s' : KeyPing}

/-- Each statement of the owner. -/
theorem shape_owner (h : Shape s) (hStep : s.ownerStep = some s') : Shape s' := by
  cases h with
  | unused => cases hStep
  -- the owner's calls are taken in any state, its places one after the other
  | unusedTest call =>
    obtain rfl := Option.some.inj hStep
    cases call with
    | start => exact .testTimer
    | stop => exact .unused .stopped (by decide)
  | testTimer => exact Option.some.inj hStep ▸ .newTimer
  | newTimer => exact Option.some.inj hStep ▸ .newThread
  | newThread => exact Option.some.inj hStep ▸ .startThread
  | startThread => exact Option.some.inj hStep ▸ .moveToThread
  | moveToThread => exact Option.some.inj hStep ▸ .connectTimeout
  | connectTimeout => exact Option.some.inj hStep ▸ .connectStarted
  | connectStarted => exact Option.some.inj hStep ▸ .connectFinished false
  | connectFinished up => exact Option.some.inj hStep ▸ .live up
  | live => cases hStep
  | testThread up => exact Option.some.inj hStep ▸ .disconnect up
  | disconnect up => exact Option.some.inj hStep ▸ .testFinished up
  | testFinished up =>
    obtain rfl := Option.some.inj hStep
    cases up <;> exact .testRunning _
  | testRunning up =>
    obtain rfl := Option.some.inj hStep
    cases up <;> exact .quit _
  | quit up => exact Option.some.inj hStep ▸ .wait up
  | wait up => cases up <;> cases hStep
  | waited => exact Option.some.inj hStep ▸ .delete
  | delete => exact Option.some.inj hStep ▸ .stopped
  | stopped => cases hStep
  | stoppedTest => exact Option.some.inj hStep ▸ .stopped

/-- `started()` is emitted once, and starts a timer that is connected to it. -/
theorem threadStarted_upThread {timer : PingTimer} {up exited misused : Bool} {owner : PingPoint}
    {session : PingSession} (hConnected : timer.started = true)
    (hStep : threadStarted ⟨some timer, some (upThread up exited), owner, session, misused⟩ =
      some s') :
    up = false ∧ s' =
      ⟨some { timer with running := true }, some (upThread true exited), owner, session,
        misused⟩ := by
  cases up with
  | true => cases hStep
  | false =>
    have hTimer : (if timer.started then { timer with running := true } else timer) =
        { timer with running := true } := if_pos hConnected
    rw [← hTimer]
    exact ⟨rfl, (Option.some.inj hStep).symm⟩

/-- The signal starts the timer once it is connected to it. -/
theorem shape_started (h : Shape s) (hConnected : s.timer.map PingTimer.started = some true)
    (hStep : s.threadStarted = some s') : Shape s' := by
  cases h with
  | connectFinished up =>
    obtain ⟨-, rfl⟩ := threadStarted_upThread rfl hStep
    exact .connectFinished true
  | live up =>
    obtain ⟨-, rfl⟩ := threadStarted_upThread rfl hStep
    exact .live true
  | testThread up =>
    obtain ⟨-, rfl⟩ := threadStarted_upThread rfl hStep
    exact .testThread true
  | disconnect up =>
    obtain ⟨-, rfl⟩ := threadStarted_upThread rfl hStep
    exact .disconnect true
  | testFinished up =>
    obtain ⟨-, rfl⟩ := threadStarted_upThread rfl hStep
    exact .testFinished true
  | testRunning up =>
    obtain ⟨-, rfl⟩ := threadStarted_upThread rfl hStep
    exact .testRunning true
  | quit up =>
    obtain ⟨-, rfl⟩ := threadStarted_upThread rfl hStep
    exact .quit true
  | wait up =>
    obtain ⟨-, rfl⟩ := threadStarted_upThread rfl hStep
    exact .wait true
  | waited | delete | stopped | stoppedTest => cases hStep
  | _ => cases hConnected

/-- The thread ends only while `stop` waits for it. -/
theorem shape_finished (h : Shape s) (hStep : s.threadFinished = some s') : Shape s' := by
  cases h with
  | wait up =>
    cases up with
    | false => cases hStep
    | true => exact Option.some.inj hStep ▸ .waited
  | connectFinished up | live up | testThread up | disconnect up | testFinished up
  | testRunning up | quit up => cases up <;> cases hStep
  | _ => cases hStep

/-- Between the calls the owner is idle. -/
theorem shape_idle (h : Shape s) (hIdle : s.owner = .idle) :
    (∃ session, session ≠ .running ∧ s = ⟨none, none, .idle, session, false⟩) ∨
      (∃ up, s = ⟨some (wired true up), some (upThread up false), .idle, .running, false⟩) ∨
      s = ⟨some gone, none, .idle, .stopped, false⟩ := by
  cases h with
  | unused session hSession => exact Or.inl ⟨session, hSession, rfl⟩
  | live up => exact Or.inr (Or.inl ⟨up, rfl⟩)
  | stopped => exact Or.inr (Or.inr rfl)
  | _ => cases hIdle

/-- **Shapes.** A step in time goes from a shape to a shape. -/
theorem shape_step {e : PingEvent} (h : Shape s) (hInTime : s.InTime e)
    (hStep : s.step e = some s') : Shape s' := by
  cases e with
  | start wsUrl loginCommand =>
    obtain ⟨hIdle, rfl⟩ := Machine.of_guard hStep
    split
    · exact h
    · rename_i hArgs
      rw [not_or] at hArgs
      have hNone : s.timer = none := hInTime hArgs
      rcases shape_idle h hIdle with ⟨_, -, rfl⟩ | ⟨_, rfl⟩ | rfl
      · exact .unusedTest .start
      · cases hNone
      · cases hNone
  | stop =>
    obtain ⟨hIdle, rfl⟩ := Machine.of_guard hStep
    rcases shape_idle h hIdle with ⟨_, -, rfl⟩ | ⟨up, rfl⟩ | rfl
    · exact .unusedTest .stop
    · exact .testThread up
    · exact .stoppedTest
  | owner => exact shape_owner h hStep
  | started => exact shape_started h hInTime hStep
  | finish => exact shape_finished h hStep

/-- The timer is armed in every shape. -/
theorem Shape.armed (h : Shape s) : s.Armed := by
  cases h with
  | unused session hSession =>
    exact ⟨fun hRunning => absurd hRunning hSession, fun _ _ hTimer => (by cases hTimer), rfl⟩
  | live up =>
    refine ⟨fun _ hStarted => ?_, fun hStopped => (by cases hStopped), rfl⟩
    cases up with
    | false => exact absurd rfl hStarted
    | true => exact ⟨_, rfl, rfl, rfl⟩
  | stopped =>
    refine ⟨fun hRunning => (by cases hRunning), fun _ timer hTimer => ?_, rfl⟩
    obtain rfl := Option.some.inj hTimer
    rfl
  | _ => exact ⟨fun hRunning => (by cases hRunning), fun hStopped => (by cases hStopped), rfl⟩

end

/--
**The keep-alive.** In a run in which `start` is called only before there is a
timer, and the ping thread emits `started()` only after it has been connected,
the timer is armed after each step.
-/
theorem keep_alive_armed {es : List PingEvent} (h : Machine.MeetsTaken step InTime fresh es) :
    Machine.Keeps step Armed fresh es := by
  have hFresh : Shape fresh := .unused .none (by decide)
  have hShapes : Machine.MeetsTaken step (fun s e => ∀ s', s.step e = some s' → s'.Armed)
      fresh es := by
    refine Machine.meetsTaken_mono (fun s e s' hShape hInTime hStep => ?_) hFresh h
    have hNext := shape_step hShape hInTime hStep
    refine ⟨hNext, fun s'' hStep' => ?_⟩
    obtain rfl := Option.some.inj (hStep.symm.trans hStep')
    exact hNext.armed
  refine (Machine.meets_congr (fun _ _ _ _ _ => trivial) (fun s e _ => ?_) trivial).mp hShapes
  exact ⟨fun hAll s' hStep => hAll s' hStep s' hStep, fun hAll _ _ => hAll⟩

/-- `start`, statement by statement, up to the start of the thread. -/
def startsThread : List PingEvent :=
  PingEvent.start "ws://s" "login" :: List.replicate 5 PingEvent.owner

/-- A session in time, stopped again. -/
def oneSession : List PingEvent :=
  startsThread ++ List.replicate 4 PingEvent.owner ++
    PingEvent.started :: PingEvent.stop :: List.replicate 5 PingEvent.owner ++
    PingEvent.finish :: List.replicate 2 PingEvent.owner

theorem keep_alive_armed_once : Machine.Keeps step Armed fresh oneSession := by
  refine keep_alive_armed ?_
  rw [Machine.meetsTaken_iff]
  decide

/-- The thread is faster than the owner. -/
def startedEarly : List PingEvent :=
  startsThread ++ PingEvent.started :: List.replicate 4 PingEvent.owner

/-- The session is stopped, and another one started. -/
def restarted : List PingEvent :=
  oneSession ++ PingEvent.start "ws://s" "login" :: List.replicate 2 PingEvent.owner

/-- A session that has been started and whose timer does not run. -/
theorem not_armed {es : List PingEvent} {s : KeyPing} (hRun : Machine.run step fresh es = some s)
    (hRunning : s.session = .running) (hStarted : s.thread.map PingThread.phase ≠ some .starting)
    (hTimer : s.timer.map PingTimer.running = some false) :
    ¬ Machine.Keeps step Armed fresh es := by
  intro h
  have hFresh : fresh.Armed := (Shape.unused .none (by decide)).armed
  obtain ⟨timer, hSome, hUp, -⟩ := (h.good hFresh hRun).running hRunning hStarted
  rw [hSome, Option.map_some, hUp] at hTimer
  cases hTimer

/-- When `started()` comes before its connection, the timer never runs; and the
second `start` arms nothing. -/
theorem keep_alive_lost :
    ¬ Machine.Keeps step Armed fresh startedEarly ∧ ¬ Machine.Keeps step Armed fresh restarted :=
  ⟨not_armed rfl rfl (by decide) rfl, not_armed rfl rfl (by decide) rfl⟩

end KeyPing

end PushStreamer
