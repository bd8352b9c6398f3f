import PushStreamer.Lib.Machine
import PushStreamer.Socket.Dispatch

/-!
# The write queue

`connection_impl.hpp`: any number of threads call `send`, `ping`, `pong` and `close`
on one connection. A call checks the state of the session under one lock, and puts
its message into the queue under another; `close` keeps the first lock until its
frame is in the queue. The asio thread takes what is there and gives it to the
transport, with one write outstanding at a time. The handler of a failed write, or
of one that ended with a terminal message, terminates the connection and keeps the
write flag. `terminate` takes no lock: it can fall between the check of `close`,
and the frame that then sets the session to closing again.

* `inv_step` — the queue, the flag and the outstanding write in every state.
* `written_in_order` — the transport gets the messages once, in the order of the
  pushes, and nothing after a terminal one.
* `queue_drains` — nothing stays in the queue for want of a call of `write_frame`.
* `close_last_iff` — the runs in which a close frame is the last.
* `received_in_order` — what the other end makes of it.
-/

namespace PushStreamer.WriteQueue

open Endpoint (Bytes Opcode SessionState)
open Wire (Call Prepared Deliverable opClose)

-- ---------------------------------------------------------------------------
-- The connection
-- ---------------------------------------------------------------------------

/-- A message that is prepared for writing. -/
structure Message (server : Bool) where
  call : Call
  rng : UInt32
  prepared : Prepared
  isPrepared : call.prepare server rng = .ok prepared
  terminal : Bool

/-- `get_payload().size()`. -/
def Message.size {server : Bool} (m : Message server) : ℕ := m.prepared.payload.length

/-- A close frame. -/
def Message.isClose {server : Bool} (m : Message server) : Bool :=
  match m.call with
  | .close _ _ => true
  | _ => false

/-- The calls that send something else. -/
def isOrdinary : Call → Bool
  | .close _ _ => false
  | _ => true

structure Connection (server : Bool) where
  -- `m_state`
  session : SessionState
  -- a call of `close` holds the lock, past the check of the state
  closeCall : Bool
  -- a close frame was begun since the last such check
  begun : Bool
  -- the messages of the calls that have passed the check of the state
  checked : List (Message server)
  -- `m_send_queue` and `m_send_buffer_size`
  queue : List (Message server)
  bufferSize : ℕ
  -- `m_write_flag` and `m_current_msgs`
  writeFlag : Bool
  currentMsgs : List (Message server)
  -- a write of the transport has not called its handler yet
  outstanding : Bool
  -- the threads that are about to call `dispatch`, and the calls that are posted
  needsWriting : ℕ
  posted : ℕ
  -- all that was put into the queue, and all that the transport got
  pushed : List (Message server)
  given : List (Message server)
  -- `terminate` was called
  terminated : Bool

/-- An open connection. -/
def Connection.start (server : Bool) : Connection server where
  session := .open
  closeCall := false
  begun := false
  checked := []
  queue := []
  bufferSize := 0
  writeFlag := false
  currentMsgs := []
  outstanding := false
  needsWriting := 0
  posted := 0
  pushed := []
  given := []
  terminated := false

inductive Event where
  -- `send`, `ping` and `pong` up to the push; `rng` is what `m_rng` will return
  | call (c : Call) (rng : UInt32)
  -- `close` by a thread of the application: its check of the state, and its frame
  | close
  | closeFrame (code : UInt16) (reason : Bytes) (rng : UInt32) (terminal : Bool)
  -- `send_close_ack` by the asio thread
  | ack (code : UInt16) (reason : Bytes) (rng : UInt32) (terminal : Bool)
  -- the push of the i-th message that is checked
  | push (i : ℕ)
  | dispatch
  | writeFrame
  -- `handle_write_frame`
  | written
  | failed
  -- `terminate`, by a timer or by the reading
  | terminate

/-- The messages that `write_frame` pops, and those that it leaves. -/
def popReady {server : Bool} : List (Message server) → List (Message server) × List (Message server)
  | [] => ([], [])
  | m :: queue =>
    if m.terminal then ([m], queue)
    else
      let r := popReady queue
      (m :: r.1, r.2)

namespace Connection

variable {server : Bool}

/-- `write_push`, and what is decided with it. -/
def writePush (s : Connection server) (m : Message server) : Connection server :=
  { s with
    queue := s.queue ++ [m]
    bufferSize := s.bufferSize + m.size
    pushed := s.pushed ++ [m]
    needsWriting := if s.writeFlag then s.needsWriting else s.needsWriting + 1 }

/-- The message of a call; a call whose message cannot be prepared returns the
error. -/
def prepared (c : Call) (rng : UInt32) (terminal : Bool) : Option (Message server) :=
  match h : c.prepare server rng with
  | .error _ => none
  | .ok out => some ⟨c, rng, out, h, terminal⟩

/-- `terminate`. -/
def terminate (s : Connection server) : Connection server :=
  { s with session := .closed, terminated := true }

/-- `send_close_frame` up to the push, in whatever state the session is by now. -/
def sendCloseFrame (s : Connection server) (code : UInt16) (reason : Bytes) (rng : UInt32)
    (terminal : Bool) : Connection server :=
  match prepared (.close code reason) rng terminal with
  | none => s
  | some m => { s with session := .closing, begun := true, checked := s.checked ++ [m] }

def writeFrame (s : Connection server) : Connection server :=
  if s.writeFlag then s
  else
    let r := popReady s.queue
    let msgs := s.currentMsgs ++ r.1
    let s := { s with
      queue := r.2
      bufferSize := s.bufferSize - (r.1.map Message.size).sum
      currentMsgs := msgs }
    if msgs.isEmpty then s
    else { s with writeFlag := true, outstanding := true, given := s.given ++ msgs }

/-- `handle_write_frame` without an error. -/
def handleWriteFrame (s : Connection server) : Connection server :=
  let terminal := (s.currentMsgs.getLast?.map Message.terminal).getD false
  let s := { s with currentMsgs := [], outstanding := false }
  if terminal then s.terminate
  else
    { s with
      writeFlag := false
      needsWriting := if s.queue.isEmpty then s.needsWriting else s.needsWriting + 1 }

end Connection

open Connection

variable {server : Bool}

def step (s : Connection server) : Event → Option (Connection server)
  | .call c rng =>
    if (s.session = .open ∧ ¬ s.closeCall) ∧ isOrdinary c then
      some { s with checked := s.checked ++ (prepared c rng false).toList }
    else none
  | .close =>
    if s.session = .open ∧ ¬ s.closeCall then some { s with closeCall := true, begun := false }
    else none
  | .closeFrame code reason rng terminal =>
    if s.closeCall then
      some ({ s with closeCall := false }.sendCloseFrame code reason rng terminal)
    else none
  -- a bad close frame is answered while closing, too
  | .ack code reason rng terminal =>
    if s.session = .open ∨ s.session = .closing then
      some (s.sendCloseFrame code reason rng terminal)
    else none
  | .push i =>
    match s.checked[i]? with
    | none => none
    | some m => some ({ s with checked := s.checked.eraseIdx i }.writePush m)
  | .dispatch =>
    if 0 < s.needsWriting then
      some { s with needsWriting := s.needsWriting - 1, posted := s.posted + 1 }
    else none
  | .writeFrame => if 0 < s.posted then some { s with posted := s.posted - 1 }.writeFrame else none
  | .written => if s.outstanding then some s.handleWriteFrame else none
  | .failed =>
    if s.outstanding then
      some { s with currentMsgs := [], outstanding := false }.terminate
    else none
  | .terminate => some s.terminate

-- ---------------------------------------------------------------------------
-- The invariant
-- ---------------------------------------------------------------------------

/-- What holds in every reachable state. -/
structure Inv (s : Connection server) : Prop where
  order : s.pushed = s.given ++ s.queue
  size : s.bufferSize = (s.queue.map Message.size).sum
  free : s.writeFlag = false → s.currentMsgs = [] ∧ s.outstanding = false
  busy : s.outstanding = true → s.writeFlag = true ∧ s.currentMsgs ≠ [] ∧ s.currentMsgs <:+ s.given
  -- whoever finds the flag free with something in the queue calls `dispatch`
  live : s.queue ≠ [] → s.writeFlag = false → 0 < s.needsWriting + s.posted
  -- a terminal message is the last one, and the flag is kept after it
  last : ∀ m ∈ s.given.dropLast, m.terminal = false
  kept : (∃ m ∈ s.given, m.terminal = true) → s.writeFlag = true
  ended : s.writeFlag = true → s.outstanding = false → s.terminated = true

/-- `write_pop` takes the front of the queue and keeps the order. -/
theorem popReady_append (queue : List (Message server)) :
    (popReady queue).1 ++ (popReady queue).2 = queue := by
  induction queue with
  | nil => rfl
  | cons m queue ih =>
    unfold popReady
    split
    · rfl
    · exact congrArg (m :: ·) ih

/-- Only the last message that is taken can be a terminal one. -/
theorem popReady_last (queue : List (Message server)) :
    ∀ m ∈ (popReady queue).1.dropLast, m.terminal = false := by
  induction queue with
  | nil => intro m h; cases h
  | cons m queue ih =>
    unfold popReady
    split
    · intro m' h; cases h
    next hMore =>
      -- `m` is followed by what is taken behind it, if anything is
      intro m' h
      cases hRest : (popReady queue).1 with
      | nil =>
        dsimp only at h
        rw [hRest] at h
        cases h
      | cons m₁ l =>
        dsimp only at h
        rw [hRest, List.dropLast_cons_cons] at h
        rcases List.mem_cons.mp h with rfl | h
        · exact Bool.eq_false_iff.mpr hMore
        · exact ih m' (by rw [hRest]; exact h)

/-- From a queue with messages at least one is taken. -/
theorem popReady_eq_nil {queue : List (Message server)} (h : (popReady queue).1 = []) :
    queue = [] := by
  cases queue with
  | nil => rfl
  | cons m queue =>
    unfold popReady at h
    split at h <;> cases h

/-- The fields that the invariant is about. -/
theorem Inv.of_eq {s s' : Connection server} (h : Inv s) (hQueue : s'.queue = s.queue)
    (hSize : s'.bufferSize = s.bufferSize) (hFlag : s'.writeFlag = s.writeFlag)
    (hMsgs : s'.currentMsgs = s.currentMsgs) (hOut : s'.outstanding = s.outstanding)
    (hCalls : s'.needsWriting + s'.posted = s.needsWriting + s.posted)
    (hPushed : s'.pushed = s.pushed) (hGiven : s'.given = s.given)
    (hEnded : s.terminated = true → s'.terminated = true) : Inv s' where
  order := by rw [hPushed, hGiven, hQueue]; exact h.order
  size := by rw [hSize, hQueue]; exact h.size
  free := by rw [hFlag, hMsgs, hOut]; exact h.free
  busy := by rw [hOut, hFlag, hMsgs, hGiven]; exact h.busy
  live := by rw [hQueue, hFlag, hCalls]; exact h.live
  last := by rw [hGiven]; exact h.last
  kept := by rw [hGiven, hFlag]; exact h.kept
  ended := by rw [hFlag, hOut]; exact fun hKept hFree => hEnded (h.ended hKept hFree)

theorem inv_start : Inv (start server) where
  order := rfl
  size := rfl
  free _ := ⟨rfl, rfl⟩
  busy h := by cases h
  live h := absurd rfl h
  last m h := by cases h
  kept := by rintro ⟨m, h, -⟩; cases h
  ended h := by cases h

variable {s s' : Connection server}

/-- A close frame is put behind all others, like a message. -/
theorem inv_sendCloseFrame (h : Inv s) (code : UInt16) (reason : Bytes) (rng : UInt32)
    (terminal : Bool) : Inv (s.sendCloseFrame code reason rng terminal) := by
  unfold sendCloseFrame
  split
  · exact h
  · exact h.of_eq rfl rfl rfl rfl rfl rfl rfl rfl id

/-- A push keeps the order: the message is behind all that were pushed. -/
theorem inv_writePush (h : Inv s) (m : Message server) : Inv (s.writePush m) where
  order := by
    show s.pushed ++ [m] = s.given ++ (s.queue ++ [m])
    rw [h.order, List.append_assoc]
  size := by
    show s.bufferSize + m.size = ((s.queue ++ [m]).map Message.size).sum
    rw [h.size, List.map_append, List.sum_append]
    rfl
  free := h.free
  busy := h.busy
  live := fun _ hFree => by
    -- the caller has seen the flag free, and dispatches
    show 0 < (if s.writeFlag then s.needsWriting else s.needsWriting + 1) + s.posted
    rw [if_neg (by rw [show s.writeFlag = false from hFree]; decide)]
    omega
  last := h.last
  kept := h.kept
  ended := h.ended

/-- `write_frame`, by whether it finds something to write. -/
theorem inv_writeFrame (h : Inv s) : Inv { s with posted := s.posted - 1 }.writeFrame := by
  unfold writeFrame
  dsimp only
  split
  next hFlag =>
    -- a write is under way: its handler will look at the queue again
    have hNot : ¬ s.writeFlag = false := by rw [hFlag]; decide
    exact { h with live := fun _ hFree => absurd hFree hNot }
  next hFree =>
    have hFlag : s.writeFlag = false := Bool.eq_false_iff.mpr hFree
    obtain ⟨hNil, -⟩ := h.free hFlag
    have hSplit := popReady_append s.queue
    rw [hNil, List.nil_append]
    split
    next hEmpty =>
      -- there was nothing to send
      have hQueue : s.queue = [] := popReady_eq_nil (List.isEmpty_iff.mp hEmpty)
      have hRest : (popReady s.queue).2 = [] := by rw [hQueue]; rfl
      have hReady : (popReady s.queue).1 = [] := List.isEmpty_iff.mp hEmpty
      rw [hReady, hRest]
      exact {
        order := by rw [← hQueue]; exact h.order
        size := by
          rw [h.size, hQueue]
          rfl
        free := fun _ => ⟨rfl, (h.free hFlag).2⟩
        busy := fun hOut => by cases hOut.symm.trans (h.free hFlag).2
        live := fun hNe => absurd rfl hNe
        last := h.last
        kept := h.kept
        ended := h.ended }
    next hSome =>
      have hNe : (popReady s.queue).1 ≠ [] := fun hEmpty => hSome (List.isEmpty_iff.mpr hEmpty)
      -- with the flag free no terminal message was given before, so that the new
      -- ones may follow
      have hNone : ∀ m ∈ s.given, m.terminal = false := fun m hm =>
        Bool.eq_false_iff.mpr fun hTerminal => hFree (h.kept ⟨m, hm, hTerminal⟩)
      exact {
        order := by
          show s.pushed = s.given ++ (popReady s.queue).1 ++ (popReady s.queue).2
          rw [List.append_assoc, hSplit]
          exact h.order
        size := by
          have hSum := congrArg (fun l => (l.map Message.size).sum) hSplit
          dsimp only at hSum ⊢
          rw [List.map_append, List.sum_append] at hSum
          rw [h.size, ← hSum, Nat.add_sub_cancel_left]
        free := fun hFree' => by cases hFree'
        busy := fun _ => ⟨rfl, hNe, List.suffix_append _ _⟩
        live := fun _ hFree' => by cases hFree'
        last := by
          intro m hm
          rw [List.dropLast_append_of_ne_nil hNe] at hm
          rcases List.mem_append.mp hm with hm | hm
          · exact hNone m hm
          · exact popReady_last s.queue m hm
        kept := fun _ => rfl
        ended := fun _ hOut => by cases hOut }

/-- The last message of the outstanding write is the last one of all. -/
theorem given_last (h : Inv s) (hOut : s.outstanding = true) :
    ∃ l m, s.given = l ++ [m] ∧
      (s.currentMsgs.getLast?.map Message.terminal).getD false = m.terminal := by
  obtain ⟨-, hNe, l, hGiven⟩ := h.busy hOut
  refine ⟨l ++ s.currentMsgs.dropLast, s.currentMsgs.getLast hNe, ?_, ?_⟩
  · rw [← hGiven, List.append_assoc, List.dropLast_append_getLast hNe]
  · rw [List.getLast?_eq_some_getLast hNe]
    rfl

/-- The end of a write drops the messages of that write, which the transport has. -/
theorem inv_handleWriteFrame (h : Inv s) (hOut : s.outstanding = true) :
    Inv s.handleWriteFrame := by
  obtain ⟨hFlag, -, -⟩ := h.busy hOut
  unfold handleWriteFrame
  dsimp only
  split
  next hTerminal =>
    -- `terminate` is called in place of another write, and the flag is never cleared
    exact {
      order := h.order
      size := h.size
      free := fun hFree => by cases hFlag.symm.trans hFree
      busy := fun h' => by cases h'
      live := fun _ hFree => by cases hFlag.symm.trans hFree
      last := h.last
      kept := h.kept
      ended := fun _ _ => rfl }
  next hMore =>
    exact {
      order := h.order
      size := h.size
      free := fun _ => ⟨rfl, rfl⟩
      busy := fun h' => by cases h'
      live := fun hQueue _ => by
        -- what came into the queue meanwhile is seen by the handler
        have hSome : ¬ s.queue.isEmpty = true := fun hEmpty => hQueue (List.isEmpty_iff.mp hEmpty)
        show 0 < (if s.queue.isEmpty then s.needsWriting else s.needsWriting + 1) + s.posted
        rw [if_neg hSome]
        omega
      last := h.last
      kept := by
        rintro ⟨m, hm, hTerminal⟩
        obtain ⟨l, m', hGiven, hLast⟩ := given_last h hOut
        rw [hLast] at hMore
        rw [hGiven, List.mem_append, List.mem_singleton] at hm
        have hDrop := h.last m
        rw [hGiven, List.dropLast_concat] at hDrop
        rcases hm with hm | rfl
        · cases (hDrop hm).symm.trans hTerminal
        · exact absurd hTerminal hMore
      ended := fun h' => by cases h' }

/-- **Every step** keeps the invariant. -/
theorem inv_step {e : Event} (h : Inv s) (hStep : step s e = some s') : Inv s' := by
  cases e with
  | call c rng =>
    obtain ⟨-, rfl⟩ := Machine.of_guard hStep
    exact h.of_eq rfl rfl rfl rfl rfl rfl rfl rfl id
  | close =>
    obtain ⟨-, rfl⟩ := Machine.of_guard hStep
    exact h.of_eq rfl rfl rfl rfl rfl rfl rfl rfl id
  | closeFrame code reason rng terminal =>
    obtain ⟨-, rfl⟩ := Machine.of_guard hStep
    -- the lock is released after the frame is queued; the queue does not see it
    have hReleased : Inv { s with closeCall := false } :=
      h.of_eq rfl rfl rfl rfl rfl rfl rfl rfl id
    exact inv_sendCloseFrame hReleased code reason rng terminal
  | ack code reason rng terminal =>
    obtain ⟨-, rfl⟩ := Machine.of_guard hStep
    exact inv_sendCloseFrame h code reason rng terminal
  | push i =>
    cases hi : s.checked[i]? with
    | none =>
      rw [step, hi] at hStep
      cases hStep
    | some m =>
      rw [step, hi] at hStep
      have hErased : Inv { s with checked := s.checked.eraseIdx i } :=
        h.of_eq rfl rfl rfl rfl rfl rfl rfl rfl id
      rw [← Option.some.inj hStep]
      exact inv_writePush hErased m
  | dispatch =>
    obtain ⟨hNeeds, rfl⟩ := Machine.of_guard hStep
    refine h.of_eq rfl rfl rfl rfl rfl ?_ rfl rfl id
    dsimp only
    omega
  | writeFrame =>
    obtain ⟨-, rfl⟩ := Machine.of_guard hStep
    exact inv_writeFrame h
  | written =>
    obtain ⟨hOut, rfl⟩ := Machine.of_guard hStep
    exact inv_handleWriteFrame h hOut
  | failed =>
    obtain ⟨hOut, rfl⟩ := Machine.of_guard hStep
    obtain ⟨hFlag, -, -⟩ := h.busy hOut
    -- the messages are dropped, and the flag stays set in a session that is over
    exact {
      order := h.order
      size := h.size
      free := fun hFree => by cases hFlag.symm.trans hFree
      busy := fun h' => by cases h'
      live := fun _ hFree => by cases hFlag.symm.trans hFree
      last := h.last
      kept := h.kept
      ended := fun _ _ => rfl }
  | terminate =>
    obtain rfl := Option.some.inj hStep
    exact h.of_eq rfl rfl rfl rfl rfl rfl rfl rfl fun _ => rfl

/-- So it holds in every state that is reached. -/
theorem inv_run {es : List Event} (hRun : Machine.run step (start server) es = some s) : Inv s :=
  Machine.inv_run (fun _ _ _ h hStep => inv_step h hStep) inv_start hRun

-- ---------------------------------------------------------------------------
-- Order and progress
-- ---------------------------------------------------------------------------

/-- **The transport gets what was pushed**, each message once and in the order of
the pushes, and nothing after a terminal message; what it has not got is in the
queue, and `get_buffered_amount` is its size. -/
theorem written_in_order {es : List Event} (hRun : Machine.run step (start server) es = some s) :
    s.pushed = s.given ++ s.queue ∧ s.bufferSize = (s.queue.map Message.size).sum ∧
      (s.outstanding = true → s.currentMsgs <:+ s.given) ∧
      ∀ m ∈ s.given.dropLast, m.terminal = false := by
  have hInv := inv_run hRun
  exact ⟨hInv.order, hInv.size, fun hOut => (hInv.busy hOut).2.2, hInv.last⟩

/-- A ping, up to its write. -/
def pingRun : List Event := [.call (.ping []) 0, .push 0, .dispatch, .writeFrame]

/-- A ping that is written. -/
theorem written_in_order_ping : ∃ s, Machine.run step (start false) pingRun = some s ∧
    s.pushed = s.given ++ s.queue ∧ s.bufferSize = (s.queue.map Message.size).sum ∧
    (s.outstanding = true → s.currentMsgs <:+ s.given) ∧
    ∀ m ∈ s.given.dropLast, m.terminal = false := by
  obtain ⟨s, hRun⟩ : ∃ s, Machine.run step (start false) pingRun = some s := ⟨_, rfl⟩
  exact ⟨s, hRun, written_in_order hRun⟩

/-- The messages up to the first terminal one. -/
def ready (l : List (Message server)) : List (Message server) := (popReady l).1

/-- Messages before the first terminal one are ready as they stand. -/
theorem ready_append {l : List (Message server)} (h : ∀ m ∈ l, m.terminal = false)
    (queue : List (Message server)) : ready (l ++ queue) = l ++ ready queue := by
  induction l with
  | nil => rfl
  | cons m l ih =>
    obtain ⟨hFirst, hRest⟩ := List.forall_mem_cons.mp h
    show (popReady (m :: (l ++ queue))).1 = m :: (l ++ ready queue)
    unfold popReady
    rw [if_neg (by rw [hFirst]; decide), ← ih hRest]
    rfl

/-- Behind a terminal message nothing is ready. -/
theorem ready_terminal {m : Message server} (h : m.terminal = true)
    (queue : List (Message server)) :
    ready (m :: queue) = [m] := by
  unfold ready popReady
  rw [if_pos h]

/-- The steps that the connection takes by itself while the transport writes. -/
def Internal (e : Event) : Prop := e = .dispatch ∨ e = .writeFrame ∨ e = .written

/-- The end of a write gives nothing to the transport. -/
theorem handleWriteFrame_frame (s : Connection server) :
    s.handleWriteFrame.given = s.given ∧ s.handleWriteFrame.pushed = s.pushed ∧
      s.handleWriteFrame.outstanding = false := by
  unfold handleWriteFrame
  dsimp only
  split <;> exact ⟨rfl, rfl, rfl⟩

/-- The handler of a write can be called while the write is outstanding. -/
theorem run_written (hOut : s.outstanding = true) :
    Machine.run step s [.written] = some s.handleWriteFrame :=
  Machine.run_cons.mpr ⟨_, if_pos hOut, rfl⟩

/-- A call of `write_frame` that finds something. -/
theorem writeFrame_some (h : Inv s) (hFree : s.writeFlag = false) (hQueue : s.queue ≠ []) :
    let s₁ := { s with posted := s.posted - 1 }.writeFrame
    s₁.given = s.given ++ ready s.queue ∧ s₁.outstanding = true := by
  have hNe : (popReady s.queue).1 ≠ [] := fun hEmpty => hQueue (popReady_eq_nil hEmpty)
  have hSome : ¬ (popReady s.queue).1.isEmpty = true := fun hEmpty =>
    hNe (List.isEmpty_iff.mp hEmpty)
  unfold writeFrame
  dsimp only
  rw [if_neg (by rw [hFree]; decide), (h.free hFree).1, List.nil_append, if_neg hSome]
  exact ⟨rfl, rfl⟩

/-- With the flag free and a call posted, everything that is ready is written. -/
theorem drains_posted (h : Inv s) (hFree : s.writeFlag = false) (hQueue : s.queue ≠ [])
    (hPosted : 0 < s.posted) :
    ∃ s', Machine.run step s [.writeFrame, .written] = some s' ∧
      s'.given = s.given ++ ready s.queue ∧ s'.outstanding = false := by
  obtain ⟨hGiven, hOut⟩ := writeFrame_some h hFree hQueue
  obtain ⟨hSame, -, hDone⟩ := handleWriteFrame_frame { s with posted := s.posted - 1 }.writeFrame
  refine ⟨_, Machine.run_cons.mpr ⟨_, if_pos hPosted, run_written hOut⟩, ?_, hDone⟩
  rw [hSame, hGiven]

/-- With the flag free, whoever found it so has called `dispatch` or will. -/
theorem drains_free (h : Inv s) (hFree : s.writeFlag = false) :
    ∃ es s', (∀ e ∈ es, Internal e) ∧ Machine.run step s es = some s' ∧
      s'.given = ready s.pushed ∧ s'.outstanding = false := by
  -- with the flag free no terminal message was given
  have hNone : ∀ m ∈ s.given, m.terminal = false := by
    intro m hm
    refine Bool.eq_false_iff.mpr fun hTerminal => ?_
    cases hFree.symm.trans (h.kept ⟨m, hm, hTerminal⟩)
  rw [h.order, ready_append hNone]
  by_cases hQueue : s.queue = []
  · refine ⟨[], s, (fun _ h' => by cases h'), rfl, ?_, (h.free hFree).2⟩
    rw [hQueue]
    exact (List.append_nil _).symm
  -- somebody has posted `write_frame`, or is about to
  rcases Nat.eq_zero_or_pos s.posted with hZero | hPos
  · have hNeeds : 0 < s.needsWriting := by
      have hLive := h.live hQueue hFree
      omega
    have hStep : step s .dispatch =
        some { s with needsWriting := s.needsWriting - 1, posted := s.posted + 1 } := if_pos hNeeds
    obtain ⟨s', hRun, hGiven, hDone⟩ :=
      drains_posted (inv_step h hStep) hFree hQueue (Nat.succ_pos s.posted)
    refine ⟨[.dispatch, .writeFrame, .written], s', ?_, Machine.run_cons.mpr ⟨_, hStep, hRun⟩,
      hGiven, hDone⟩
    simp [Internal]
  · obtain ⟨s', hRun, hGiven, hDone⟩ := drains_posted h hFree hQueue hPos
    exact ⟨[.writeFrame, .written], s', by simp [Internal], hRun, hGiven, hDone⟩

/-- **Nothing stays behind**: from every reachable state of a connection that was
not terminated, the connection goes on by itself, while the transport writes, until
it has written everything that was pushed, up to a terminal message. -/
theorem queue_drains {es : List Event} (hRun : Machine.run step (start server) es = some s)
    (hAlive : s.terminated = false) :
    ∃ es' s', (∀ e ∈ es', Internal e) ∧ Machine.run step s es' = some s' ∧
      s'.given = ready s.pushed ∧ s'.outstanding = false := by
  have h := inv_run hRun
  cases hFlag : s.writeFlag with
  | false => exact drains_free h hFlag
  | true =>
    have hOut : s.outstanding = true := by
      by_contra hNot
      cases hAlive.symm.trans (h.ended hFlag (Bool.eq_false_iff.mpr hNot))
    obtain ⟨hGiven, hPushed, hDone⟩ := handleWriteFrame_frame s
    have hAfter := inv_handleWriteFrame h hOut
    cases hStill : s.handleWriteFrame.writeFlag with
    | false =>
      obtain ⟨es', s', hInternal, hRest, hAll, hEnd⟩ := drains_free hAfter hStill
      refine ⟨.written :: es', s', ?_, Machine.run_cons.mpr ⟨_, if_pos hOut, hRest⟩, ?_, hEnd⟩
      · exact List.forall_mem_cons.mpr ⟨.inr (.inr rfl), hInternal⟩
      · rw [hAll, hPushed]
    | true =>
      -- the write ends with a terminal message
      refine ⟨[.written], _, ?_, run_written hOut, ?_, hDone⟩
      · exact fun e he => .inr (.inr (List.mem_singleton.mp he))
      · obtain ⟨l, m, hLast, hTerminal⟩ := given_last h hOut
        have hIs : m.terminal = true := by
          by_contra hNot
          unfold handleWriteFrame at hStill
          dsimp only at hStill
          rw [hTerminal, if_neg hNot] at hStill
          cases hStill
        have hNone := h.last
        rw [hLast, List.dropLast_concat] at hNone
        rw [hGiven, h.order, hLast, List.append_assoc, ready_append hNone, List.singleton_append,
          ready_terminal hIs]

/-- The queue of a ping drains. -/
theorem queue_drains_ping : ∃ s, Machine.run step (start false) pingRun = some s ∧
    ∃ es' s', (∀ e ∈ es', Internal e) ∧ Machine.run step s es' = some s' ∧
      s'.given = ready s.pushed ∧ s'.outstanding = false := by
  obtain ⟨s, hRun⟩ : ∃ s, Machine.run step (start false) pingRun = some s := ⟨_, rfl⟩
  refine ⟨s, hRun, queue_drains hRun ?_⟩
  obtain rfl := Option.some.inj hRun
  rfl

-- ---------------------------------------------------------------------------
-- Close frames
-- ---------------------------------------------------------------------------

/-- All messages that are pushed or checked, in the order in which they began. -/
def all (s : Connection server) : List (Message server) := s.pushed ++ s.checked

/-- Only the last message may be a close frame. -/
def CloseLast (s : Connection server) : Prop := ∀ m ∈ (all s).dropLast, m.isClose = false

/-- A close frame is pushed while no other call stands before its push, is answered
only while the session is open, and not between the check of a call of `close` and
its frame. -/
def Orderly (s : Connection server) : Event → Prop
  | .push i => ∀ m, s.checked[i]? = some m → m.isClose = true → s.checked.length = 1
  | .closeFrame code reason rng terminal =>
    (prepared (.close code reason) rng terminal : Option (Message server)).isSome →
      s.begun = false
  | .ack code reason rng terminal =>
    (prepared (.close code reason) rng terminal : Option (Message server)).isSome →
      s.session = .open
  | _ => True

/-- The session leaves the state in which calls are taken with the first close, and
while a call of `close` holds the lock, only an answer can begin one. -/
structure Closing (s : Connection server) : Prop where
  before : s.session = .open → ∀ m ∈ all s, m.isClose = false
  after : s.session = .closing → ∃ m ∈ all s, m.isClose = true
  fresh : s.closeCall = true → s.begun = false → ∀ m ∈ all s, m.isClose = false
  stale : s.closeCall = true → s.begun = true → ∃ m ∈ all s, m.isClose = true

/-- A message keeps the call that it was prepared for. -/
theorem prepared_isClose {c : Call} {rng : UInt32} {terminal : Bool} {m : Message server}
    (h : prepared c rng terminal = some m) : m.call = c := by
  unfold prepared at h
  split at h
  · cases h
  · rw [← Option.some.inj h]

/-- What `close` prepares is a close frame. -/
theorem isClose_sendCloseFrame {code : UInt16} {reason : Bytes} {rng : UInt32} {terminal : Bool}
    {m : Message server} (h : prepared (.close code reason) rng terminal = some m) :
    m.isClose = true := by
  unfold Message.isClose
  rw [prepared_isClose h]

/-- What `send`, `ping` and `pong` prepare is no close frame. -/
theorem not_isClose_call {c : Call} (hOrdinary : isOrdinary c = true) {rng : UInt32}
    {m : Message server} (h : prepared c rng false = some m) : m.isClose = false := by
  unfold Message.isClose
  rw [prepared_isClose h]
  cases c with
  | close code reason => cases hOrdinary
  | _ => rfl

/-- A close frame that is begun. -/
theorem sendCloseFrame_cases (s : Connection server) (code : UInt16) (reason : Bytes) (rng : UInt32)
    (terminal : Bool) :
    ((prepared (.close code reason) rng terminal : Option (Message server)) = none ∧
      s.sendCloseFrame code reason rng terminal = s) ∨
    ∃ m, prepared (.close code reason) rng terminal = some m ∧ m.isClose = true ∧
      s.sendCloseFrame code reason rng terminal =
        { s with session := .closing, begun := true, checked := s.checked ++ [m] } := by
  unfold sendCloseFrame
  split
  next hNone => exact .inl ⟨hNone, rfl⟩
  next m hSome => exact .inr ⟨m, hSome, isClose_sendCloseFrame hSome, rfl⟩

/-- A push takes a message to another place. -/
theorem all_push {i : ℕ} {m : Message server} (hi : s.checked[i]? = some m) :
    all ({ s with checked := s.checked.eraseIdx i }.writePush m) =
        s.pushed ++ m :: (s.checked.take i ++ s.checked.drop (i + 1)) ∧
      all s = s.pushed ++ s.checked.take i ++ m :: s.checked.drop (i + 1) := by
  obtain ⟨hLt, hGet⟩ := List.getElem?_eq_some_iff.mp hi
  constructor
  · show s.pushed ++ [m] ++ s.checked.eraseIdx i = _
    rw [List.append_assoc, List.singleton_append, List.eraseIdx_eq_take_drop_succ]
  · rw [all, List.append_assoc, ← hGet, List.cons_getElem_drop_succ, List.take_append_drop]

/-- A terminated session is not open, so there is nothing to show. -/
theorem closing_terminate (h : Closing s) : Closing s.terminate where
  before hOpen := by cases hOpen
  after hClosing := by cases hClosing
  fresh := h.fresh
  stale := h.stale

/-- A close frame that is begun leaves a session that is closing. -/
theorem closing_sendCloseFrame (h : Closing s) (code : UInt16) (reason : Bytes) (rng : UInt32)
    (terminal : Bool) : Closing (s.sendCloseFrame code reason rng terminal) := by
  rcases sendCloseFrame_cases s code reason rng terminal with ⟨-, hSame⟩ | ⟨m, -, hClose, hNew⟩
  · rw [hSame]
    exact h
  · rw [hNew]
    have hMem : m ∈ s.pushed ++ (s.checked ++ [m]) := by simp
    exact {
      before := fun hOpen => by cases hOpen
      after := fun _ => ⟨m, hMem, hClose⟩
      fresh := fun _ hNot => by cases hNot
      stale := fun _ _ => ⟨m, hMem, hClose⟩ }

/-- A step that begins no message. -/
theorem Closing.of_mem (h : Closing s) (hSession : s'.session = s.session)
    (hCall : s'.closeCall = s.closeCall) (hBegun : s'.begun = s.begun)
    (hAll : ∀ m, m ∈ all s' ↔ m ∈ all s) : Closing s' where
  before := by simpa only [hSession, hAll] using h.before
  after := by simpa only [hSession, hAll] using h.after
  fresh := by simpa only [hCall, hBegun, hAll] using h.fresh
  stale := by simpa only [hCall, hBegun, hAll] using h.stale

/-- An open session has begun no close frame: every step keeps this. -/
theorem closing_step (e : Event) (h : Closing s) (hStep : step s e = some s') : Closing s' := by
  cases e with
  -- a call that passes the check puts no close frame anywhere
  | call c rng =>
    obtain ⟨⟨⟨hOpen, hLock⟩, hOrdinary⟩, rfl⟩ := Machine.of_guard hStep
    exact {
      before := fun _ m hm => by
        rw [all, ← List.append_assoc] at hm
        rcases List.mem_append.mp hm with hm | hm
        · exact h.before hOpen m hm
        · exact not_isClose_call hOrdinary (Option.mem_toList.mp hm)
      after := fun hClosing => by cases hOpen.symm.trans hClosing
      fresh := fun hCall => absurd hCall hLock
      stale := fun hCall => absurd hCall hLock }
  -- the check of `close` starts its history anew
  | close =>
    obtain ⟨⟨hOpen, -⟩, rfl⟩ := Machine.of_guard hStep
    exact {
      before := h.before
      after := h.after
      fresh := fun _ _ => h.before hOpen
      stale := fun _ hBegun => by cases hBegun }
  | closeFrame code reason rng terminal =>
    obtain ⟨-, rfl⟩ := Machine.of_guard hStep
    have hReleased : Closing { s with closeCall := false } := {
      before := h.before
      after := h.after
      fresh := fun hCall => by cases hCall
      stale := fun hCall => by cases hCall }
    exact closing_sendCloseFrame hReleased code reason rng terminal
  | ack code reason rng terminal =>
    obtain ⟨-, rfl⟩ := Machine.of_guard hStep
    exact closing_sendCloseFrame h code reason rng terminal
  | push i =>
    cases hi : s.checked[i]? with
    | none =>
      rw [step, hi] at hStep
      cases hStep
    | some m =>
      rw [step, hi] at hStep
      rw [← Option.some.inj hStep]
      -- a message that is pushed changes its place only
      obtain ⟨hAfter, hBefore⟩ := all_push hi
      refine h.of_mem rfl rfl rfl fun m' => ?_
      rw [hAfter, hBefore]
      simp only [List.mem_append, List.mem_cons]
      tauto
  | dispatch =>
    obtain ⟨-, rfl⟩ := Machine.of_guard hStep
    exact h.of_mem rfl rfl rfl fun _ => Iff.rfl
  | writeFrame =>
    obtain ⟨-, rfl⟩ := Machine.of_guard hStep
    unfold writeFrame
    dsimp only
    split
    · exact h.of_mem rfl rfl rfl fun _ => Iff.rfl
    · split <;> exact h.of_mem rfl rfl rfl fun _ => Iff.rfl
  | written =>
    obtain ⟨-, rfl⟩ := Machine.of_guard hStep
    unfold handleWriteFrame
    dsimp only
    split
    · exact closing_terminate (h.of_mem rfl rfl rfl fun _ => Iff.rfl)
    · exact h.of_mem rfl rfl rfl fun _ => Iff.rfl
  | failed =>
    obtain ⟨-, rfl⟩ := Machine.of_guard hStep
    exact closing_terminate (h.of_mem rfl rfl rfl fun _ => Iff.rfl)
  | terminate =>
    obtain rfl := Option.some.inj hStep
    exact closing_terminate h

/-- A message that is appended leaves the others before it. -/
theorem closeLast_concat {m : Message server} (hAll : all s' = all s ++ [m]) :
    CloseLast s' ↔ ∀ m' ∈ all s, m'.isClose = false := by
  rw [CloseLast, hAll, List.dropLast_concat]

/-- The push of a message breaks the order just when it comes behind a close frame. -/
theorem closeLast_push_iff {i : ℕ} {m : Message server} (hi : s.checked[i]? = some m)
    (hGood : CloseLast s) :
    CloseLast ({ s with checked := s.checked.eraseIdx i }.writePush m) ↔
      (m.isClose = true → s.checked.length = 1) := by
  obtain ⟨hAfter, hBefore⟩ := all_push hi
  obtain ⟨hLt, -⟩ := List.getElem?_eq_some_iff.mp hi
  unfold CloseLast at hGood ⊢
  rw [hAfter]
  rw [hBefore] at hGood
  generalize hFront : s.checked.take i = front at *
  generalize hBack : s.checked.drop (i + 1) = back at *
  have hLength : s.checked.length = front.length + 1 + back.length := by
    rw [← hFront, ← hBack, List.length_take, List.length_drop]
    omega
  by_cases hRest : front ++ back = []
  · -- no other call is there
    obtain ⟨rfl, rfl⟩ := List.append_eq_nil_iff.mp hRest
    rw [List.append_nil, List.dropLast_concat]
    rw [List.append_nil, List.dropLast_concat] at hGood
    exact iff_of_true hGood fun _ => hLength
  · rw [List.dropLast_append_of_ne_nil (List.cons_ne_nil _ _),
      List.dropLast_cons_of_ne_nil hRest]
    have hMany : s.checked.length ≠ 1 := by
      intro hOne
      rw [hLength] at hOne
      exact hRest (List.length_eq_zero_iff.mp (by rw [List.length_append]; omega))
    constructor
    · intro hAll hClose
      have hNot := hAll m (by simp)
      cases hNot.symm.trans hClose
    · intro hOne m' hm'
      have hNot : m.isClose = false := Bool.eq_false_iff.mpr fun hClose => hMany (hOne hClose)
      rw [List.dropLast_append_of_ne_nil (List.cons_ne_nil _ _)] at hGood
      rcases List.mem_append.mp hm' with hm' | hm'
      · exact hGood m' (by simp [hm'])
      rcases List.mem_cons.mp hm' with rfl | hm'
      · exact hNot
      -- in its old place it was not the last one either
      refine hGood m' (List.mem_append.mpr ?_)
      by_cases hNil : back = []
      · rw [hNil, List.append_nil] at hm'
        exact .inl (List.mem_append_right _ (List.dropLast_subset _ hm'))
      · rw [List.dropLast_append_of_ne_nil hNil] at hm'
        rw [List.dropLast_cons_of_ne_nil hNil]
        rcases List.mem_append.mp hm' with hm' | hm'
        · exact .inl (List.mem_append_right _ hm')
        · exact .inr (List.mem_cons_of_mem _ hm')

/-- **One step** leaves a close frame the last, if it is orderly. -/
theorem closeLast_step_iff (e : Event) (h : Closing s) (hGood : CloseLast s)
    (hStep : step s e = some s') : CloseLast s' ↔ Orderly s e := by
  cases e with
  -- the checks are made in the open session, which has no close frame
  | call c rng =>
    obtain ⟨⟨⟨hOpen, -⟩, -⟩, rfl⟩ := Machine.of_guard hStep
    refine iff_of_true ?_ trivial
    cases (prepared c rng false : Option (Message server)) with
    | none =>
      unfold CloseLast all
      rw [Option.toList_none, List.append_nil]
      exact hGood
    | some m =>
      exact (closeLast_concat (s := s) (List.append_assoc _ _ _).symm).mpr (h.before hOpen)
  | close =>
    obtain ⟨-, rfl⟩ := Machine.of_guard hStep
    exact iff_of_true hGood trivial
  | closeFrame code reason rng terminal =>
    obtain ⟨hCall, rfl⟩ := Machine.of_guard hStep
    rcases sendCloseFrame_cases { s with closeCall := false } code reason rng terminal with
      ⟨hNone, hSame⟩ | ⟨m, hSome, -, hNew⟩
    · -- a close frame that cannot be prepared is not pushed
      rw [hSame]
      refine iff_of_true hGood fun hIs => ?_
      rw [hNone] at hIs
      cases hIs
    · have hOrderly : Orderly s (.closeFrame code reason rng terminal) ↔ s.begun = false := by
        show ((prepared (.close code reason) rng terminal : Option (Message server)).isSome →
          s.begun = false) ↔ _
        rw [hSome]
        exact forall_prop_of_true rfl
      rw [hNew, hOrderly]
      refine (closeLast_concat (s := s) (List.append_assoc _ _ _).symm).trans
        ⟨fun hAll => ?_, h.fresh hCall⟩
      -- a frame that was begun after the check is one before this one
      by_contra hBegun
      obtain ⟨m', hm', hClose⟩ := h.stale hCall (Bool.eq_true_of_not_eq_false hBegun)
      cases (hAll m' hm').symm.trans hClose
  | ack code reason rng terminal =>
    obtain ⟨hAlive, rfl⟩ := Machine.of_guard hStep
    rcases sendCloseFrame_cases s code reason rng terminal with ⟨hNone, hSame⟩ | ⟨m, hSome, -, hNew⟩
    · rw [hSame]
      refine iff_of_true hGood fun hIs => ?_
      rw [hNone] at hIs
      cases hIs
    · have hOrderly : Orderly s (.ack code reason rng terminal) ↔ s.session = .open := by
        show ((prepared (.close code reason) rng terminal : Option (Message server)).isSome →
          s.session = .open) ↔ _
        rw [hSome]
        exact forall_prop_of_true rfl
      rw [hNew, hOrderly]
      refine (closeLast_concat (s := s) (List.append_assoc _ _ _).symm).trans
        ⟨fun hAll => ?_, h.before⟩
      -- the answer to a close frame may come while closing, behind a close frame
      rcases hAlive with hOpen | hClosing
      · exact hOpen
      · obtain ⟨m', hm', hClose⟩ := h.after hClosing
        cases (hAll m' hm').symm.trans hClose
  | push i =>
    cases hi : s.checked[i]? with
    | none =>
      rw [step, hi] at hStep
      cases hStep
    | some m =>
      rw [step, hi] at hStep
      rw [← Option.some.inj hStep]
      -- the order of the pushes is decided here
      refine (closeLast_push_iff hi hGood).trans ⟨fun hOne m' hm' => ?_, fun hOne => hOne m hi⟩
      obtain rfl : m = m' := Option.some.inj (hi.symm.trans hm')
      exact hOne
  | dispatch =>
    obtain ⟨-, rfl⟩ := Machine.of_guard hStep
    exact iff_of_true hGood trivial
  | writeFrame =>
    obtain ⟨-, rfl⟩ := Machine.of_guard hStep
    refine iff_of_true ?_ trivial
    unfold writeFrame
    dsimp only
    split
    · exact hGood
    · split <;> exact hGood
  | written =>
    obtain ⟨-, rfl⟩ := Machine.of_guard hStep
    refine iff_of_true ?_ trivial
    unfold handleWriteFrame
    dsimp only
    split <;> exact hGood
  | failed =>
    obtain ⟨-, rfl⟩ := Machine.of_guard hStep
    exact iff_of_true hGood trivial
  | terminate =>
    obtain rfl := Option.some.inj hStep
    exact iff_of_true hGood trivial

/-- **A close frame is the last** that a connection sends, all along a run, just
when it is never pushed between the check and the push of another call, never
answered twice, and never answered between the check of a call of `close` and its
frame. -/
theorem close_last_iff (es : List Event) :
    Machine.Keeps step CloseLast (start server) es ↔
      Machine.MeetsTaken step Orderly (start server) es := by
  have hStart : Closing (start server) :=
    { before := (fun _ m hm => by cases hm), after := (fun hClosing => by cases hClosing),
      fresh := (fun hCall => by cases hCall), stale := (fun hCall => by cases hCall) }
  exact Machine.keeps_iff_meets (fun _ e _ h hStep => closing_step e h hStep)
    (fun _ e _ h hGood hStep => closeLast_step_iff e h hGood hStep) hStart
    (fun m hm => by cases hm)

-- ---------------------------------------------------------------------------
-- The other end
-- ---------------------------------------------------------------------------

/-- The message that a prepared one was made of. -/
def Message.sent (m : Message server) : Wire.Sent where
  rng := m.rng
  msg := m.call.message
  sendable := (Wire.prepare_ok m.isPrepared).1

/-- What is written of the messages is the encoding of their frames. -/
theorem bytes_sent (l : List (Message server)) :
    (l.flatMap fun m => m.prepared.bytes) =
      ((l.map Message.sent).map (Wire.Sent.frame server)).flatMap Wire.Frame.encode := by
  induction l with
  | nil => rfl
  | cons m l ih =>
    obtain ⟨hSendable, hOut⟩ := Wire.prepare_ok m.isPrepared
    rw [List.flatMap_cons, List.map_cons, List.map_cons, List.flatMap_cons, ← ih, hOut,
      Wire.prepareFrame_bytes hSendable.fits]
    rfl

/-- **End to end**: whatever the threads and the transport do, messages that were
pushed become ready at the other end, each once and in the order of the pushes, from
any part of the bytes that the transport got and in any pieces. Its handlers get
those before the first close. -/
theorem received_in_order {es : List Event} (hRun : Machine.run step (start server) es = some s)
    (maxMessageSize : ℕ) (hDeliver : ∀ m ∈ s.given, Deliverable maxMessageSize m.call.message)
    {chunks : List Bytes} (hChunks : chunks.flatten <+: s.given.flatMap fun m => m.prepared.bytes) :
    ∃ ms p', Transducer.run (Wire.Processor.handleReadFrame (!server) maxMessageSize) .new chunks =
        ⟨ms, .ok p'⟩ ∧ ms <+: (s.pushed.map fun m => m.call.message) ∧
      ∀ draw, Wire.handed (!server) draw ms = ms.takeWhile fun m => m.opcode ≠ opClose := by
  obtain ⟨rest, hRest⟩ := hChunks
  have hAll : (chunks ++ [rest]).flatten =
      ((s.given.map Message.sent).map (Wire.Sent.frame server)).flatMap Wire.Frame.encode := by
    rw [List.flatten_append, List.flatten_singleton, hRest, bytes_sent]
  have hTaken : ∀ c ∈ s.given.map Message.sent, Deliverable maxMessageSize c.msg :=
    List.forall_mem_map.mpr hDeliver
  obtain ⟨p, hRead⟩ := (Wire.read_sent_iff server maxMessageSize _ hAll).mpr hTaken
  obtain ⟨ms, p', hFirst, hPrefix⟩ := Transducer.of_run_append hRead
  refine ⟨ms, p', hFirst, hPrefix.trans ?_, fun draw => Wire.handed_eq _ draw fun m hm => ?_⟩
  · rw [(inv_run hRun).order, List.map_append, List.map_map]
    exact List.prefix_append _ _
  · obtain ⟨c, -, rfl⟩ := List.mem_map.mp (hPrefix.subset hm)
    exact c.sendable.control

/-- A ping that is read whole. -/
theorem received_in_order_ping : ∃ s, Machine.run step (start false) pingRun = some s ∧
    ∃ ms p',
      Transducer.run (Wire.Processor.handleReadFrame (!false) 8) .new
        [[0x89, 0x80], [0, 0, 0, 0]] = ⟨ms, .ok p'⟩ ∧
      ms <+: (s.pushed.map fun m => m.call.message) ∧
      ∀ draw, Wire.handed (!false) draw ms = ms.takeWhile fun m => m.opcode ≠ opClose := by
  obtain ⟨s, hRun⟩ : ∃ s, Machine.run step (start false) pingRun = some s := ⟨_, rfl⟩
  refine ⟨s, hRun, received_in_order hRun 8 ?_ ?_⟩
  · obtain rfl := Option.some.inj hRun
    exact fun m hm => .inl (by rw [List.mem_singleton.mp hm]; rfl)
  · obtain rfl := Option.some.inj hRun
    exact ⟨[], by decide⟩

end PushStreamer.WriteQueue
