import PushStreamer.Lib.Machine
import Mathlib.Tactic.Common

/-!
# `WsAppConnection`

One connection, from the `make_shared` of its owner on. Three threads take
steps: the connecting thread (`StartWebSocket` of the keyboard thread, `run` of
the cloud-game thread), the asio thread of the connection, which runs its
handlers, and the key-ping timer of the keyboard thread. The handlers are live
once `connect` has been called; the callback they forward to is set after it.

* `inv_step` — the flag and the handlers in every reachable state.
* `good_iff` — the steps that lose an event or send before the login.
* `nothing_lost_iff` — the runs in which nothing is lost and the login goes
  first.
-/

namespace PushStreamer.WsApp

/-- The owner of a connection, and what its `ConnectedCallback` sends. -/
inductive Owner where
  -- `KeyBoardThread::start` refuses an empty login command
  | keyBoard (loginCommand : String) (hLogin : loginCommand ≠ "")
  | cloudGame

/-- The frames that the client sends. -/
inductive Frame where
  | login (command : String)
  -- the message of `OnKeyPingTimer`
  | ping (deviceNumber : String)
  -- the PONG with which the library answers a PING
  | control
deriving DecidableEq

inductive Handler where
  | onOpen
  | onClose
  | onFailure
deriving DecidableEq

/-- How far the connecting thread is. -/
inductive Connector where
  | created
  | initialised
  | connected
  | callbackSet
deriving DecidableEq

/-- How far the asio thread is; `opening` is inside `on_open` before it reads
`m_outter`, and `calling` is between this read and the callback. -/
inductive Asio where
  | idle
  | connecting
  | opening
  | calling
  | opened
  | done
deriving DecidableEq

/-- `session::state::open`, in which the library accepts a frame. The state
changes before the open handler is called. -/
def Asio.isOpen : Asio → Bool
  | .opening | .calling | .opened => true
  | .idle | .connecting | .done => false

structure Connection where
  connector : Connector
  asio : Asio
  -- `m_isConnected` and `m_outter`
  isConnected : Bool
  outter : Bool
  -- the device number of a key ping that has passed the check in `Send`
  ping : Option String
  -- what the client has sent
  frames : List Frame
  -- the handlers that have run, and the ones that reached the owner
  handled : List Handler
  forwarded : List Handler
  -- emitted AccidentalSignals
  signals : Nat
deriving DecidableEq

/-- After `make_shared<WsAppConnection>()`. -/
def Connection.start : Connection where
  connector := .created
  asio := .idle
  isConnected := false
  outter := false
  ping := none
  frames := []
  handled := []
  forwarded := []
  signals := 0

inductive Event where
  -- the connecting thread; `get_connection` may reject the url
  | init
  | connect (valid : Bool)
  | setCallback
  -- `on_open` in three steps
  | raiseFlag
  | readOutter
  | connectedCallback
  | onClose
  | onFailure
  -- a PING, which the library answers after `on_ping`
  | answer
  -- `OnKeyPingTimer` with this `m_deviceNumberl`, in two steps
  | checkPing (deviceNumber : String)
  | sendPing
deriving DecidableEq

namespace Connection

/-- `c.send`: it throws when the connection is not open, and `Send` catches. -/
def push (s : Connection) (f : Frame) : Connection :=
  if s.asio.isOpen then { s with frames := s.frames ++ [f] } else s

/-- `ConnectedCallback`; `Send` refuses an empty message. -/
def connectedCallback (owner : Owner) (s : Connection) : Connection :=
  match owner with
  | .keyBoard loginCommand _ =>
    if loginCommand ≠ "" ∧ s.isConnected then s.push (.login loginCommand) else s
  | .cloudGame => s

/-- `emit AccidentalSignal()`, by `DisconnectedCallback` and `FailureCallback`
of both owners. -/
def emitAccidentalSignal (s : Connection) : Connection := { s with signals := s.signals + 1 }

/-- A handler has run, and has not called the owner. -/
def note (s : Connection) (h : Handler) : Connection := { s with handled := s.handled ++ [h] }

/-- A handler has run, and has called the owner. -/
def forward (s : Connection) (h : Handler) : Connection :=
  { s with handled := s.handled ++ [h], forwarded := s.forwarded ++ [h] }

/-- `on_close` and `on_failure`. -/
def ends (s : Connection) (h : Handler) : Connection :=
  { (if s.outter then (s.forward h).emitAccidentalSignal else s.note h) with asio := .done }

/-- One event, if it can happen. -/
def step (owner : Owner) (s : Connection) : Event → Option Connection
  | .init => if s.connector = .created then some { s with connector := .initialised } else none
  | .connect valid =>
    if s.connector = .initialised then
      some { s with connector := .connected, asio := if valid then .connecting else .idle }
    else none
  | .setCallback =>
    if s.connector = .connected then some { s with connector := .callbackSet, outter := true }
    else none
  | .raiseFlag =>
    if s.asio = .connecting then some { s with asio := .opening, isConnected := true } else none
  | .readOutter =>
    if s.asio = .opening then
      -- without a callback the rest of the handler only logs
      some (if s.outter then { s with asio := .calling }
        else { s.note .onOpen with asio := .opened })
    else none
  | .connectedCallback =>
    if s.asio = .calling then
      some { (s.connectedCallback owner).forward .onOpen with asio := .opened }
    else none
  | .onClose => if s.asio = .opened then some (s.ends .onClose) else none
  | .onFailure => if s.asio = .connecting then some (s.ends .onFailure) else none
  | .answer => if s.asio = .opened then some (s.push .control) else none
  | .checkPing deviceNumber =>
    match owner, s.ping with
    | .keyBoard _ _, none =>
      -- a tick without a device number sends nothing
      some (if deviceNumber ≠ "" ∧ s.isConnected then { s with ping := some deviceNumber } else s)
    | _, _ => none
  | .sendPing =>
    match owner with
    | .keyBoard _ _ =>
      s.ping.map fun deviceNumber => { s.push (.ping deviceNumber) with ping := none }
    | .cloudGame => none

end Connection

-- ---------------------------------------------------------------------------
-- What must not happen
-- ---------------------------------------------------------------------------

/-- The handlers that must raise a signal. -/
def Handler.terminates : Handler → Bool
  | .onOpen => false
  | .onClose | .onFailure => true

/-- The login frame of the owner, if it has one, is the first frame. -/
def LoginFirst (owner : Owner) (s : Connection) : Prop :=
  match owner with
  | .keyBoard loginCommand _ => s.frames.head? = some (.login loginCommand)
  | .cloudGame => True

/-- No event is lost, and the login goes first. -/
structure Good (owner : Owner) (s : Connection) : Prop where
  forwarded : s.forwarded = s.handled
  signals : s.signals = s.handled.countP Handler.terminates
  frames : s.frames ≠ [] → LoginFirst owner s
  opened : .onOpen ∈ s.handled → LoginFirst owner s

/-- The callback is set when a handler reads it, and a key ping is sent after
the login. -/
def Ready (s : Connection) : Event → Prop
  | .readOutter | .onClose | .onFailure => s.outter = true
  | .sendPing => ∃ loginCommand, .login loginCommand ∈ s.frames
  | _ => True

/-- The flag and the handlers in a reachable state. -/
structure Inv (s : Connection) : Prop where
  early : s.connector = .created ∨ s.connector = .initialised → s.asio = .idle
  ping : s.ping ≠ none → s.isConnected = true
  isOpen : s.asio.isOpen = true → s.isConnected = true
  opened : s.asio = .opened → .onOpen ∈ s.handled
  done : s.asio = .done → s.isConnected = true → .onOpen ∈ s.handled
  closed : s.asio = .idle ∨ s.asio = .connecting → s.isConnected = false

theorem inv_start : Inv Connection.start where
  early _ := rfl
  ping h := absurd rfl h
  isOpen h := by cases h
  opened h := by cases h
  done h := by cases h
  closed _ := rfl

theorem good_start (owner : Owner) : Good owner Connection.start where
  forwarded := rfl
  signals := rfl
  frames h := absurd rfl h
  opened h := by cases h

namespace Connection

/-- Sending changes the frames only. -/
theorem push_eq (s : Connection) (f : Frame) :
    s.push f = { s with frames := if s.asio.isOpen then s.frames ++ [f] else s.frames } := by
  unfold push
  split <;> rfl

/-- So does `ConnectedCallback`. -/
theorem connectedCallback_eq (owner : Owner) (s : Connection) :
    ∃ frames, s.connectedCallback owner = { s with frames := frames } := by
  unfold connectedCallback
  split
  · split
    · exact ⟨_, s.push_eq _⟩
    · exact ⟨s.frames, rfl⟩
  · exact ⟨s.frames, rfl⟩

/-- On an open connection the login command is sent. -/
theorem connectedCallback_frames {loginCommand : String} {hLogin : loginCommand ≠ ""}
    {s : Connection} (hOpen : s.asio.isOpen = true) (hFlag : s.isConnected = true) :
    (s.connectedCallback (.keyBoard loginCommand hLogin)).frames =
      s.frames ++ [.login loginCommand] := by
  unfold connectedCallback
  dsimp only
  rw [if_pos ⟨hLogin, hFlag⟩, push_eq]
  exact if_pos hOpen

theorem ends_eq (s : Connection) (h : Handler) :
    s.ends h =
      { s with
        asio := .done
        handled := s.handled ++ [h]
        forwarded := if s.outter then s.forwarded ++ [h] else s.forwarded
        signals := if s.outter then s.signals + 1 else s.signals } := by
  unfold ends
  split <;> rfl

end Connection

/-- Once the asio thread has started, the connecting thread is past `connect`. -/
theorem Inv.not_early {s : Connection} (h : Inv s) (hAsio : s.asio ≠ .idle) :
    ¬ (s.connector = .created ∨ s.connector = .initialised) := fun hEarly =>
  hAsio (h.early hEarly)

/-- The invariant of an open connection. -/
theorem Inv.of_isOpen {s : Connection}
    (hEarly : ¬ (s.connector = .created ∨ s.connector = .initialised))
    (hOpen : s.asio.isOpen = true) (hFlag : s.isConnected = true)
    (hOpened : s.asio = .opened → .onOpen ∈ s.handled) : Inv s where
  early h := absurd h hEarly
  ping _ := hFlag
  isOpen _ := hFlag
  opened := hOpened
  done h := by rw [h] at hOpen; cases hOpen
  closed h := by rcases h with h | h <;> rw [h] at hOpen <;> cases hOpen

/-- The invariant of a connection that has ended. -/
theorem Inv.of_done {s : Connection}
    (hEarly : ¬ (s.connector = .created ∨ s.connector = .initialised))
    (hDone : s.asio = .done) (hPing : s.ping ≠ none → s.isConnected = true)
    (hOpened : s.isConnected = true → .onOpen ∈ s.handled) : Inv s where
  early h := absurd h hEarly
  ping := hPing
  isOpen h := by rw [hDone] at h; cases h
  opened h := by rw [hDone] at h; cases h
  done _ := hOpened
  closed h := by rcases h with h | h <;> rw [hDone] at h <;> cases h

/-- A raised flag outlives the connection, after `on_open` has run. -/
theorem Inv.opened_of_not_isOpen {s : Connection} (h : Inv s) (hFlag : s.isConnected = true)
    (hOpen : s.asio.isOpen = false) : .onOpen ∈ s.handled := by
  cases hAsio : s.asio with
  | idle => rw [h.closed (.inl hAsio)] at hFlag; cases hFlag
  | connecting => rw [h.closed (.inr hAsio)] at hFlag; cases hFlag
  | opening | calling | opened => rw [hAsio] at hOpen; cases hOpen
  | done => exact h.done hAsio hFlag

theorem mem_handled (hs : List Handler) (h : Handler) : h ∈ hs ++ [h] :=
  List.mem_append_right _ (List.mem_singleton.mpr rfl)

/-- **The invariant.** Every event keeps it. -/
theorem inv_step (owner : Owner) (s : Connection) (e : Event) (s' : Connection) (h : Inv s)
    (hStep : s.step owner e = some s') : Inv s' := by
  cases e with
  | init =>
    obtain ⟨hPc, rfl⟩ := Machine.of_guard hStep
    exact { h with early := fun _ => h.early (.inl hPc) }
  | connect valid =>
    obtain ⟨hPc, rfl⟩ := Machine.of_guard hStep
    -- nothing has happened on the connection before
    have hFlag := h.closed (.inl (h.early (.inr hPc)))
    constructor
    case early => rintro (hEarly | hEarly) <;> cases hEarly
    case ping => exact h.ping
    case closed => intro _; exact hFlag
    all_goals cases valid <;> intro hAsio <;> cases hAsio
  | setCallback =>
    obtain ⟨-, rfl⟩ := Machine.of_guard hStep
    exact { h with early := by rintro (hEarly | hEarly) <;> cases hEarly }
  | raiseFlag =>
    obtain ⟨hPc, rfl⟩ := Machine.of_guard hStep
    have hEarly := h.not_early (by rw [hPc]; decide)
    exact .of_isOpen hEarly rfl rfl (fun hAsio => by cases hAsio)
  | readOutter =>
    obtain ⟨hPc, rfl⟩ := Machine.of_guard hStep
    have hEarly := h.not_early (by rw [hPc]; decide)
    have hFlag := h.isOpen (by rw [hPc]; rfl)
    split
    case isTrue => exact .of_isOpen hEarly rfl hFlag (fun hAsio => by cases hAsio)
    case isFalse => exact .of_isOpen hEarly rfl hFlag (fun _ => mem_handled _ _)
  | connectedCallback =>
    obtain ⟨hPc, rfl⟩ := Machine.of_guard hStep
    have hEarly := h.not_early (by rw [hPc]; decide)
    have hFlag := h.isOpen (by rw [hPc]; rfl)
    obtain ⟨frames, hFrames⟩ := s.connectedCallback_eq owner
    rw [hFrames]
    exact .of_isOpen hEarly rfl hFlag (fun _ => mem_handled _ _)
  | onClose =>
    obtain ⟨hPc, rfl⟩ := Machine.of_guard hStep
    have hEarly := h.not_early (by rw [hPc]; decide)
    rw [Connection.ends_eq]
    exact .of_done hEarly rfl h.ping (fun _ => List.mem_append_left _ (h.opened hPc))
  | onFailure =>
    obtain ⟨hPc, rfl⟩ := Machine.of_guard hStep
    have hEarly := h.not_early (by rw [hPc]; decide)
    -- the connection has never been open
    have hFlag := h.closed (.inr hPc)
    rw [Connection.ends_eq]
    refine .of_done hEarly rfl h.ping fun hConnected => ?_
    rw [hFlag] at hConnected
    cases hConnected
  | answer =>
    obtain ⟨-, rfl⟩ := Machine.of_guard hStep
    rw [Connection.push_eq]
    exact { h with }
  | checkPing deviceNumber =>
    simp only [Connection.step] at hStep
    split at hStep
    case h_2 => cases hStep
    rw [Option.some.injEq] at hStep
    subst hStep
    split
    case isTrue hCheck => exact { h with ping := fun _ => hCheck.2 }
    case isFalse => exact h
  | sendPing =>
    cases owner with
    | cloudGame => cases hStep
    | keyBoard =>
      obtain ⟨deviceNumber, -, rfl⟩ := Option.map_eq_some_iff.mp hStep
      rw [Connection.push_eq]
      exact { h with ping := fun hPing => absurd rfl hPing }

/-- Sending one more frame keeps the first one. -/
theorem LoginFirst.append {owner : Owner} {s : Connection} (h : LoginFirst owner s)
    (fs : List Frame) : LoginFirst owner { s with frames := s.frames ++ fs } := by
  cases owner with
  | cloudGame => trivial
  | keyBoard loginCommand hLogin =>
    show (s.frames ++ fs).head? = some (.login loginCommand)
    have hHead : s.frames.head? = some (.login loginCommand) := h
    rw [List.head?_append, hHead, Option.some_or]

/-- Without frames before it, the login command of `ConnectedCallback` is the
first. -/
theorem Good.loginFirst_connectedCallback {owner : Owner} {s : Connection} (h : Good owner s)
    (hOpen : s.asio.isOpen = true) (hFlag : s.isConnected = true) :
    LoginFirst owner (s.connectedCallback owner) := by
  cases owner with
  | cloudGame => trivial
  | keyBoard loginCommand hLogin =>
    show (s.connectedCallback (.keyBoard loginCommand hLogin)).frames.head? = _
    rw [Connection.connectedCallback_frames hOpen hFlag]
    cases hFrames : s.frames with
    | nil => rfl
    | cons f fs =>
      have hFirst : s.frames.head? = some (.login loginCommand) :=
        h.frames (by rw [hFrames]; exact List.cons_ne_nil _ _)
      rw [hFrames] at hFirst
      exact hFirst

/-- A handler that called the owner and raised its signal loses nothing. -/
theorem good_ends_iff {owner : Owner} {s : Connection} (h : Good owner s) {e : Handler}
    (hEnds : e.terminates = true) : Good owner (s.ends e) ↔ s.outter = true := by
  rw [Connection.ends_eq]
  constructor
  · intro hGood
    by_contra hOutter
    have hEq : (if s.outter then s.forwarded ++ [e] else s.forwarded) = s.handled ++ [e] :=
      hGood.forwarded
    rw [if_neg hOutter, h.forwarded] at hEq
    exact absurd hEq (by simp)
  · intro hOutter
    constructor
    case forwarded =>
      show (if s.outter then s.forwarded ++ [e] else s.forwarded) = s.handled ++ [e]
      rw [if_pos hOutter, h.forwarded]
    case signals =>
      show (if s.outter then s.signals + 1 else s.signals) =
        (s.handled ++ [e]).countP Handler.terminates
      rw [if_pos hOutter, h.signals, List.countP_append, List.countP_singleton, if_pos hEnds]
    case frames => exact h.frames
    case opened =>
      intro hMem
      rcases List.mem_append.mp hMem with hMem | hMem
      · exact h.opened hMem
      · rw [List.mem_singleton] at hMem
        subst hMem
        cases hEnds

/-- A key ping that the library accepts goes after the login. -/
theorem good_sendPing_iff {loginCommand : String} {hLogin : loginCommand ≠ ""} {s : Connection}
    (hInv : Inv s) (h : Good (.keyBoard loginCommand hLogin) s) (hFlag : s.isConnected = true)
    {deviceNumber : String} :
    Good (.keyBoard loginCommand hLogin) { s.push (.ping deviceNumber) with ping := none } ↔
      Ready s .sendPing := by
  rw [Connection.push_eq]
  constructor
  · intro hGood
    have hHead : s.frames.head? = some (.login loginCommand) := by
      cases hOpen : s.asio.isOpen with
      | false => exact h.opened (hInv.opened_of_not_isOpen hFlag hOpen)
      | true =>
        have hFirst := hGood.frames (by simp [hOpen])
        simp only [LoginFirst, hOpen, if_true] at hFirst
        -- the first frame is not the ping, so it was there before
        cases hFrames : s.frames with
        | nil => rw [hFrames] at hFirst; cases hFirst
        | cons f fs => rw [hFrames] at hFirst; exact hFirst
    exact ⟨loginCommand, List.mem_of_mem_head? (Option.mem_def.mpr hHead)⟩
  · rintro ⟨command, hMem⟩
    have hFirst := h.frames (List.ne_nil_of_mem hMem)
    split
    case isTrue =>
      exact { h with frames := fun _ => hFirst.append _, opened := fun _ => hFirst.append _ }
    case isFalse => exact { h with }

/-- **One event.** It keeps the connection good just when it is taken ready. -/
theorem good_iff (owner : Owner) (s : Connection) (e : Event) (s' : Connection) (hInv : Inv s)
    (h : Good owner s) (hStep : s.step owner e = some s') : Good owner s' ↔ Ready s e := by
  cases e with
  | init | connect | setCallback | raiseFlag =>
    obtain ⟨-, rfl⟩ := Machine.of_guard hStep
    exact iff_of_true { h with } trivial
  | readOutter =>
    obtain ⟨-, rfl⟩ := Machine.of_guard hStep
    -- only `on_open` before `SetCallback` is lost
    split
    case isTrue hOutter => exact iff_of_true { h with } hOutter
    case isFalse hOutter =>
      refine iff_of_false (fun hGood => ?_) hOutter
      have hEq : s.forwarded = s.handled ++ [.onOpen] := hGood.forwarded
      rw [h.forwarded] at hEq
      exact absurd hEq (by simp)
  | connectedCallback =>
    obtain ⟨hPc, rfl⟩ := Machine.of_guard hStep
    have hOpen : s.asio.isOpen = true := by rw [hPc]; rfl
    -- the login is the first frame of an open connection
    have hFirst := h.loginFirst_connectedCallback hOpen (hInv.isOpen hOpen)
    obtain ⟨frames, hFrames⟩ := s.connectedCallback_eq owner
    rw [hFrames] at hFirst ⊢
    refine iff_of_true ?_ trivial
    constructor
    case forwarded => exact congrArg (· ++ [Handler.onOpen]) h.forwarded
    case signals =>
      show s.signals = (s.handled ++ [Handler.onOpen]).countP Handler.terminates
      rw [List.countP_append, ← h.signals]
      rfl
    case frames => exact fun _ => hFirst
    case opened => exact fun _ => hFirst
  | onClose | onFailure =>
    obtain ⟨-, rfl⟩ := Machine.of_guard hStep
    exact good_ends_iff h rfl
  | answer =>
    obtain ⟨hPc, rfl⟩ := Machine.of_guard hStep
    refine iff_of_true ?_ trivial
    have hFirst := h.opened (hInv.opened hPc)
    -- the answer comes behind the login
    rw [Connection.push_eq, if_pos (by rw [hPc]; rfl)]
    exact { h with frames := fun _ => hFirst.append _, opened := fun _ => hFirst.append _ }
  | checkPing deviceNumber =>
    refine iff_of_true ?_ trivial
    simp only [Connection.step] at hStep
    -- a check of the timer touches no frame
    split at hStep
    case h_2 => cases hStep
    rw [Option.some.injEq] at hStep
    subst hStep
    split
    case isTrue => exact { h with }
    case isFalse => exact h
  | sendPing =>
    cases owner with
    | cloudGame => cases hStep
    | keyBoard loginCommand hLogin =>
      obtain ⟨deviceNumber, hPing, rfl⟩ := Option.map_eq_some_iff.mp hStep
      exact good_sendPing_iff hInv h (hInv.ping (by rw [hPing]; exact Option.some_ne_none _))

/-- **Events and the login.** In a run no event is lost and the login goes
first just when every event is ready when it happens. -/
theorem nothing_lost_iff (owner : Owner) (es : List Event) :
    Machine.Keeps (Connection.step owner) (Good owner) Connection.start es ↔
      Machine.MeetsTaken (Connection.step owner) Ready Connection.start es :=
  Machine.keeps_iff_meets (inv_step owner) (good_iff owner) inv_start (good_start owner)

/-- The connection opens between `connect` and `SetCallback`. -/
def openBeforeCallback : List Event := [.init, .connect true, .raiseFlag]

/-- The key-ping timer fires between the two steps of `on_open`. -/
def pingBeforeLogin : List Event :=
  [.init, .connect true, .setCallback, .raiseFlag, .checkPing "1"]

/-- The first run loses `on_open`; in the second one the ping is the first
frame. -/
theorem open_lost_and_ping_first :
    let owner := Owner.keyBoard "login" (by decide)
    ¬ Machine.Keeps (Connection.step owner) (Good owner) Connection.start
        (openBeforeCallback ++ [.readOutter]) ∧
      ¬ Machine.Keeps (Connection.step owner) (Good owner) Connection.start
        (pingBeforeLogin ++ [.sendPing]) := by
  intro owner
  constructor
  · intro h
    have hGood := Machine.Meets.at h (by rfl) _ rfl
    cases hGood.forwarded
  · intro h
    have hGood := Machine.Meets.at h (by rfl) _ rfl
    cases hGood.frames (by decide)

end PushStreamer.WsApp
