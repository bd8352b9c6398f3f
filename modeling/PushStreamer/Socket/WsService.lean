import PushStreamer.Lib.Machine
import Mathlib.Tactic.Common

/-!
# `WsServiceCloudGameThread`

The owner connects and disconnects, the callbacks of the socket come from its
asio thread, and queued AccidentalSignals are processed later, on the owner's
thread. `m_activeDisconnect` is set by `DisconnectWS` and cleared by
`ConnectedCallback`, not by `ConnectWS`. `run` connects the socket before it
calls `SetCallback`, and until then the callbacks reach nobody.

* `flag_eq` — what the flag says in every reachable state.
* `callback_eq` — which sockets have a callback.
* `reconnects_iff` — when `AccidentalTermination` follows the owner's last call,
  and every failure asks for it.
-/

namespace PushStreamer.WsService

/-- The members of the thread object, and the signals in its queue. -/
structure Service where
  activeDisconnect : Bool
  -- the QThread is running
  running : Bool
  -- `m_wsSocket` exists, and with it its asio thread
  socket : Bool
  -- `SetCallback` has been called on it
  outter : Bool
  -- the owner is inside `DisconnectWS`
  disconnecting : Bool
  -- queued AccidentalSignals
  pending : Nat
deriving DecidableEq

/-- The constructor. -/
def Service.start : Service where
  activeDisconnect := false
  running := false
  socket := false
  outter := false
  disconnecting := false
  pending := 0

inductive Event where
  | connectWS
  -- `DisconnectWS` up to its first waiting call, and its return
  | disconnectWS
  | disconnected
  -- the two steps of `run` that matter here
  | createSocket
  | setCallback
  -- callbacks of the socket
  | onOpen
  | onClose
  | onFailure
  | onInterrupt
  -- the slot, for one queued signal
  | accidentalTermination
deriving DecidableEq

namespace Service

/-- `ConnectWS`: `start` does nothing to a running thread. -/
def connectWS (s : Service) : Service := { s with running := true }

/-- Quit the thread, and close and reset the socket. -/
def tearDown (s : Service) : Service :=
  { s with running := false, socket := false, outter := false }

/-- `ConnectedCallback`. -/
def connectedCallback (s : Service) : Service := { s with activeDisconnect := false }

/-- `DisconnectedCallback`, `FailureCallback` and `InterruptCallback`. -/
def emitAccidentalSignal (s : Service) : Service := { s with pending := s.pending + 1 }

/-- `AccidentalTermination`. -/
def accidentalTermination (s : Service) : Service :=
  let s := s.tearDown
  if !s.activeDisconnect then s.connectWS else s

/-- A callback reaches the owner when `m_outter` is set. -/
def callback (s : Service) (f : Service → Service) : Service := if s.outter then f s else s

/-- One event, if it can happen. The owner's calls and the slot run on one
thread; callbacks come while there is a socket. -/
def step (s : Service) : Event → Option Service
  | .connectWS => if s.disconnecting then none else some s.connectWS
  | .disconnectWS =>
    if s.disconnecting then none
    else some { s with activeDisconnect := true, disconnecting := true }
  | .disconnected =>
    if s.disconnecting then some { s.tearDown with disconnecting := false } else none
  | .createSocket =>
    if s.running ∧ ¬ s.socket then some { s with socket := true, outter := false } else none
  | .setCallback => if s.socket then some { s with outter := true } else none
  | .onOpen => if s.socket then some (s.callback connectedCallback) else none
  | .onClose | .onFailure | .onInterrupt =>
    if s.socket then some (s.callback emitAccidentalSignal) else none
  | .accidentalTermination =>
    if ¬ s.disconnecting ∧ 0 < s.pending then
      some (accidentalTermination { s with pending := s.pending - 1 })
    else none

end Service

-- ---------------------------------------------------------------------------
-- The owner's intent
-- ---------------------------------------------------------------------------

inductive OwnerCall where
  | connectWS
  | disconnectWS
deriving DecidableEq

/-- What has happened so far: the owner's last call, whether there was a
`DisconnectWS`, whether `ConnectedCallback` has run since the last one, and
whether `SetCallback` has run on the last socket that was created. -/
structure History where
  lastCall : Option OwnerCall
  disconnected : Bool
  openedSince : Bool
  callbackSet : Bool
deriving DecidableEq

/-- The history after an event in the state `s`. -/
def History.note (h : History) (s : Service) : Event → History
  | .connectWS => { h with lastCall := some .connectWS }
  | .disconnectWS =>
    { h with lastCall := some .disconnectWS, disconnected := true, openedSince := false }
  | .createSocket => { h with callbackSet := false }
  | .setCallback => { h with callbackSet := true }
  | .onOpen => { h with openedSince := h.openedSince || s.outter }
  | _ => h

/-- A run together with its history. -/
abbrev watch : Service × History → Event → Option (Service × History) :=
  Machine.beside Service.step History.note

def start : Service × History := (Service.start, ⟨none, false, false, false⟩)

/-- The callbacks that a connection ends with. -/
def Event.IsFailure (e : Event) : Prop := e ∈ [Event.onClose, .onFailure, .onInterrupt]

/-- `AccidentalTermination` connects again just when the owner's last call was
`ConnectWS`, and a failure after a `ConnectWS` asks for it. -/
def FollowsOwner (x : Service × History) (e : Event) : Prop :=
  ∀ s', x.1.step e = some s' →
    (e = .accidentalTermination → (s'.running = true ↔ x.2.lastCall = some .connectWS)) ∧
    (e.IsFailure → x.2.lastCall = some .connectWS → s'.pending = x.1.pending + 1)

/-- A signal is processed after a `ConnectWS` only when the connection has been
open since the last `DisconnectWS`, if there was one; and after a `DisconnectWS`
only when it has not. A failure after a `ConnectWS` comes only when `SetCallback`
has run. -/
def SignalInTime (x : Service × History) (e : Event) : Prop :=
  ∀ s', x.1.step e = some s' →
    (e = .accidentalTermination →
      (x.2.lastCall = some .connectWS ↔ (x.2.disconnected = true → x.2.openedSince = true))) ∧
    (e.IsFailure → x.2.lastCall = some .connectWS → x.2.callbackSet = true)

/-- What an event does to the flag. -/
theorem Service.step_activeDisconnect {s s' : Service} {e : Event} (h : s.step e = some s') :
    s'.activeDisconnect =
      match e with
      | .disconnectWS => true
      | .onOpen => s.activeDisconnect && !s.outter
      | _ => s.activeDisconnect := by
  cases e with
  -- only `DisconnectWS` sets the flag, and only `ConnectedCallback` clears it
  | connectWS | disconnectWS =>
    simp only [Service.step, Option.ite_none_left_eq_some, Option.some.injEq] at h
    obtain ⟨-, rfl⟩ := h
    rfl
  | disconnected | createSocket | setCallback =>
    obtain ⟨-, rfl⟩ := Machine.of_guard h
    rfl
  | onOpen =>
    obtain ⟨-, rfl⟩ := Machine.of_guard h
    cases hOutter : s.outter <;> simp [Service.callback, Service.connectedCallback, hOutter]
  | onClose | onFailure | onInterrupt =>
    obtain ⟨-, rfl⟩ := Machine.of_guard h
    unfold Service.callback
    split <;> rfl
  | accidentalTermination =>
    obtain ⟨-, rfl⟩ := Machine.of_guard h
    unfold Service.accidentalTermination
    dsimp only
    split <;> rfl

/-- The slot leaves the thread running just when the flag was clear. -/
theorem Service.running_of_accidentalTermination {s s' : Service}
    (h : s.step .accidentalTermination = some s') : s'.running = !s.activeDisconnect := by
  obtain ⟨-, rfl⟩ := Machine.of_guard h
  cases hFlag : s.activeDisconnect <;>
    simp [Service.accidentalTermination, Service.tearDown, Service.connectWS]

/-- What an event does to the callback of a socket. -/
theorem Service.step_outter {s s' : Service} {e : Event} (h : s.step e = some s')
    (hSocket : s'.socket = true) :
    s'.outter = match e with
      | .createSocket => false
      | .setCallback => true
      | _ => s.outter := by
  cases e with
  | connectWS | disconnectWS =>
    simp only [Service.step, Option.ite_none_left_eq_some, Option.some.injEq] at h
    obtain ⟨-, rfl⟩ := h
    rfl
  | disconnected =>
    obtain ⟨-, rfl⟩ := Machine.of_guard h
    cases hSocket
  | createSocket | setCallback =>
    obtain ⟨-, rfl⟩ := Machine.of_guard h
    rfl
  | onOpen | onClose | onFailure | onInterrupt =>
    obtain ⟨-, rfl⟩ := Machine.of_guard h
    unfold Service.callback
    split <;> rfl
  | accidentalTermination =>
    obtain ⟨-, rfl⟩ := Machine.of_guard h
    unfold Service.accidentalTermination at hSocket
    dsimp only at hSocket
    split at hSocket <;> cases hSocket

/-- Only `run` makes a socket. -/
theorem Service.socket_of_step {s s' : Service} {e : Event} (h : s.step e = some s')
    (hSocket : s'.socket = true) : s.socket = true ∨ e = .createSocket := by
  cases e with
  | connectWS | disconnectWS =>
    simp only [Service.step, Option.ite_none_left_eq_some, Option.some.injEq] at h
    obtain ⟨-, rfl⟩ := h
    exact Or.inl hSocket
  | disconnected =>
    obtain ⟨-, rfl⟩ := Machine.of_guard h
    cases hSocket
  | createSocket => exact Or.inr rfl
  | setCallback | onOpen | onClose | onFailure | onInterrupt =>
    exact Or.inl (Machine.of_guard h).1
  | accidentalTermination =>
    obtain ⟨-, rfl⟩ := Machine.of_guard h
    unfold Service.accidentalTermination at hSocket
    dsimp only at hSocket
    split at hSocket <;> cases hSocket

/-- A failure is told to the owner just when the socket has a callback. -/
theorem Service.pending_of_failure {s s' : Service} {e : Event} (h : s.step e = some s')
    (hFailure : e.IsFailure) :
    s.socket = true ∧ (s'.pending = s.pending + 1 ↔ s.outter = true) := by
  have hStep : s.socket = true ∧ s.callback emitAccidentalSignal = s' := by
    simp only [Event.IsFailure, List.mem_cons, List.not_mem_nil, or_false] at hFailure
    rcases hFailure with rfl | rfl | rfl
    all_goals exact Machine.of_guard h
  refine ⟨hStep.1, ?_⟩
  rw [← hStep.2]
  cases hOutter : s.outter <;> simp [Service.callback, emitAccidentalSignal, hOutter]

/-- The flag says that there was a `DisconnectWS` and no open connection
since. -/
def FlagEq (x : Service × History) : Prop :=
  x.1.activeDisconnect = (x.2.disconnected && !x.2.openedSince)

/-- **The flag.** Every event keeps it in step with the history. -/
theorem flag_eq (x : Service × History) (e : Event) (x' : Service × History) (h : FlagEq x)
    (hStep : watch x e = some x') : FlagEq x' := by
  obtain ⟨s', hs', rfl⟩ := Option.map_eq_some_iff.mp hStep
  unfold FlagEq at h ⊢
  rw [Service.step_activeDisconnect hs', h]
  cases e with
  | disconnectWS => rfl
  | onOpen =>
    -- the callback clears the flag, and the connection has been open
    show (x.2.disconnected && !x.2.openedSince && !x.1.outter) =
      (x.2.disconnected && !(x.2.openedSince || x.1.outter))
    rw [Bool.not_or, Bool.and_assoc]
  | _ => rfl

/-- A socket has the callback that was set on it. -/
def CallbackEq (x : Service × History) : Prop :=
  x.1.socket = true → x.1.outter = x.2.callbackSet

theorem callback_eq (x : Service × History) (e : Event) (x' : Service × History)
    (h : CallbackEq x) (hStep : watch x e = some x') : CallbackEq x' := by
  obtain ⟨s', hs', rfl⟩ := Option.map_eq_some_iff.mp hStep
  intro hSocket
  rw [Service.step_outter hs' hSocket]
  rcases Service.socket_of_step hs' hSocket with hOld | rfl
  · cases e with
    | createSocket | setCallback => rfl
    | _ => exact h hOld
  · rfl

theorem followsOwner_iff {x : Service × History} {e : Event} (hFlag : FlagEq x)
    (hCallback : CallbackEq x) : FollowsOwner x e ↔ SignalInTime x e := by
  refine forall_congr' fun s' => forall_congr' fun hs' => and_congr ?_ ?_
  · refine forall_congr' fun he => ?_
    subst he
    have hRunning : s'.running = true ↔ (x.2.disconnected = true → x.2.openedSince = true) := by
      rw [Service.running_of_accidentalTermination hs', hFlag]
      cases x.2.disconnected <;> cases x.2.openedSince <;> simp
    rw [hRunning]
    exact Iff.comm
  · refine forall_congr' fun hFailure => forall_congr' fun _ => ?_
    obtain ⟨hSocket, hPending⟩ := Service.pending_of_failure hs' hFailure
    rw [hPending, hCallback hSocket]

/-- **Reconnecting and the owner.** In a run every `AccidentalTermination`
follows the owner's last call, and every failure is told to the owner, just when
every signal is processed in time and no failure comes before `SetCallback`. -/
theorem reconnects_iff (es : List Event) :
    Machine.Meets watch FollowsOwner start es ↔ Machine.Meets watch SignalInTime start es := by
  have hInv : ∀ x e x', FlagEq x ∧ CallbackEq x → watch x e = some x' →
      FlagEq x' ∧ CallbackEq x' := fun x e x' h hStep =>
    ⟨flag_eq x e x' h.1 hStep, callback_eq x e x' h.2 hStep⟩
  exact Machine.meets_congr hInv (fun _ _ h => followsOwner_iff h.1 h.2) ⟨rfl, fun h => by cases h⟩

/-- The owner disconnects, and connects again; the new connection fails before
it has been open. -/
def earlyFailure : List Event :=
  [.connectWS, .createSocket, .setCallback, .onOpen, .disconnectWS, .disconnected,
    .connectWS, .createSocket, .setCallback, .onFailure]

/-- The failure is not retried. -/
theorem early_failure_not_retried :
    ¬ Machine.Meets watch FollowsOwner start (earlyFailure ++ [.accidentalTermination]) := by
  intro h
  have hLast := Machine.Meets.at h (by rfl)
  have hRetried := ((hLast _ rfl).1 rfl).mpr rfl
  cases hRetried

end PushStreamer.WsService
