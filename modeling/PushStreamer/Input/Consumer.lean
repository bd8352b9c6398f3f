import PushStreamer.Lib.Machine
import Mathlib.Data.List.Basic
import Mathlib.Data.List.Induction
import Mathlib.Tactic.Common

/-!
# The input queue

`ConsumerKeyBoardValue` is a queue of callbacks with one thread that runs them.
The thread copies the front of the queue, calls it and only then pops it; a
producer pushes at any time, and an owner lowers `m_threadFlag`. The methods of
the queue are atomic steps, and nothing else is.

Beside the queue a state keeps what was pushed and what was called. The queue
refines a history with two marks: what has been called and what has been
popped, which differ by the callback that the thread works on.

* `runStep_cases` — what a step of `run` does.
* `inOrder_step` — the queue and the histories in every reachable state.
* `queue_in_order` — the calls are a prefix of the pushes, and the queue holds
  the rest of them.
* `drains` — with the flag up the rest is called as well.
* `drained_iff` — once the queue is empty, what was pushed has been called.
-/

namespace PushStreamer

/-- Where `run` is. The callback that it copied stays with it until the front is
popped. -/
inductive RunPoint (τ : Type) where
  | testFlag
  -- the two tests of `empty()`
  | testEmpty
  | testNotEmpty
  | copyFront
  | call (func : τ)
  | erase (func : τ)
  -- the event loop behind the loop
  | exec
  | returned
deriving DecidableEq

/-- `ConsumerKeyBoardValue<T>`, and the `Produce` that has tested `empty()`. -/
structure Consumer (τ : Type) where
  threadFlag : Bool
  keyboardVector : List τ
  point : RunPoint τ
  quitCalled : Bool
  producing : Option τ
  -- what has been pushed, what has been called, and how many were popped
  produced : List τ
  executed : List τ
  finished : ℕ
deriving DecidableEq

inductive ConsumerStep (τ : Type) where
  -- `Produce` in two steps, of one producer
  | produce (value : τ)
  | push
  -- the next step of `run`
  | run
  -- `Stop`
  | lowerFlag
  | quit
deriving DecidableEq

namespace Consumer

variable {τ : Type}

/-- After `start()`. -/
def start : Consumer τ where
  threadFlag := true
  keyboardVector := []
  point := .testFlag
  quitCalled := false
  producing := none
  produced := []
  executed := []
  finished := 0

/-- One step of `run`; `none` where it waits or where the queue has no front. -/
def runStep (c : Consumer τ) : Option (Consumer τ) :=
  match c.point with
  | .testFlag => some { c with point := if c.threadFlag = true then .testEmpty else .exec }
  -- both outcomes go on to the second test
  | .testEmpty => some { c with point := .testNotEmpty }
  | .testNotEmpty =>
    some { c with point := if c.keyboardVector = [] then .testFlag else .copyFront }
  | .copyFront => c.keyboardVector.head?.map fun func => { c with point := .call func }
  | .call func => some { c with executed := c.executed ++ [func], point := .erase func }
  | .erase _ =>
    if c.keyboardVector = [] then none
    else some { c with
      keyboardVector := c.keyboardVector.tail
      finished := c.finished + 1
      point := .testFlag }
  | .exec => if c.quitCalled = true then some { c with point := .returned } else none
  | .returned => none

def step (c : Consumer τ) : ConsumerStep τ → Option (Consumer τ)
  -- the queue is pushed to whatever the test says
  | .produce value => if c.producing = none then some { c with producing := some value } else none
  | .push => c.producing.map fun value => { c with
      producing := none
      keyboardVector := c.keyboardVector ++ [value]
      produced := c.produced ++ [value] }
  | .run => c.runStep
  | .lowerFlag => some { c with threadFlag := false }
  | .quit => some { c with quitCalled := true }

/-- The callback that has been called and not yet popped. -/
def halfDone (c : Consumer τ) : List τ :=
  match c.point with
  | .erase func => [func]
  | _ => []

/-- What `run` knows of the front of the queue. -/
def AtFront (c : Consumer τ) : Prop :=
  match c.point with
  | .copyFront => c.keyboardVector ≠ []
  | .call func | .erase func => c.keyboardVector.head? = some func
  | _ => True

/-- The queue and the histories: what is popped has been called before, in order. -/
structure InOrder (c : Consumer τ) (done : List τ) : Prop where
  produced : c.produced = done ++ c.keyboardVector
  executed : c.executed = done ++ c.halfDone
  finished : c.finished = done.length
  front : c.AtFront

section

variable {c c' : Consumer τ} {done : List τ}

/-- The steps of `run` that only change where it is. -/
inductive Goes (c : Consumer τ) : RunPoint τ → Prop
  | enter (hPoint : c.point = .testFlag) (hFlag : c.threadFlag = true) : Goes c .testEmpty
  | leave (hPoint : c.point = .testFlag) (hFlag : c.threadFlag = false) : Goes c .exec
  | tested (hPoint : c.point = .testEmpty) : Goes c .testNotEmpty
  | again (hPoint : c.point = .testNotEmpty) (hEmpty : c.keyboardVector = []) : Goes c .testFlag
  | toFront (hPoint : c.point = .testNotEmpty) (hNotEmpty : c.keyboardVector ≠ []) :
    Goes c .copyFront
  | copy (func : τ) (hPoint : c.point = .copyFront) (hHead : c.keyboardVector.head? = some func) :
    Goes c (.call func)
  | back (hPoint : c.point = .exec) : Goes c .returned

/-- What a step of `run` does: it goes on, calls, or pops. -/
theorem runStep_cases (hStep : c.runStep = some c') :
    (∃ point, c.Goes point ∧ c' = { c with point }) ∨
      (∃ func, c.point = .call func ∧
        c' = { c with executed := c.executed ++ [func], point := .erase func }) ∨
      ∃ func, c.point = .erase func ∧ c' = { c with
        keyboardVector := c.keyboardVector.tail
        finished := c.finished + 1
        point := .testFlag } := by
  unfold runStep at hStep
  split at hStep
  case h_1 hPoint =>
    obtain rfl := Option.some.inj hStep
    -- the flag is tested: into the loop, or behind it
    refine Or.inl ⟨_, ?_, rfl⟩
    split
    · rename_i hFlag
      exact .enter hPoint hFlag
    · rename_i hFlag
      exact .leave hPoint (Bool.eq_false_iff.mpr hFlag)
  case h_2 hPoint =>
    obtain rfl := Option.some.inj hStep
    exact Or.inl ⟨_, .tested hPoint, rfl⟩
  case h_3 hPoint =>
    obtain rfl := Option.some.inj hStep
    -- an empty queue is tested again, without a wait
    refine Or.inl ⟨_, ?_, rfl⟩
    split
    · rename_i hEmpty
      exact .again hPoint hEmpty
    · rename_i hNotEmpty
      exact .toFront hPoint hNotEmpty
  case h_4 hPoint =>
    obtain ⟨func, hHead, rfl⟩ := Option.map_eq_some_iff.mp hStep
    exact Or.inl ⟨_, .copy func hPoint hHead, rfl⟩
  case h_5 func hPoint =>
    obtain rfl := Option.some.inj hStep
    exact Or.inr (Or.inl ⟨func, hPoint, rfl⟩)
  case h_6 func hPoint =>
    obtain ⟨-, rfl⟩ := Machine.of_guard ((ite_not ..).trans hStep)
    exact Or.inr (Or.inr ⟨func, hPoint, rfl⟩)
  case h_7 hPoint =>
    obtain ⟨-, rfl⟩ := Machine.of_guard hStep
    exact Or.inl ⟨_, .back hPoint, rfl⟩
  case h_8 => cases hStep

/-- Where `run` goes on from, it works on no callback. -/
theorem Goes.halfDone {point : RunPoint τ} (h : c.Goes point) :
    c.halfDone = [] ∧ ({ c with point } : Consumer τ).halfDone = [] := by
  unfold Consumer.halfDone
  cases h with
  | enter hPoint | leave hPoint | tested hPoint | again hPoint | toFront hPoint | copy _ hPoint
  | back hPoint => exact ⟨by rw [hPoint], rfl⟩

theorem Goes.atFront {point : RunPoint τ} (h : c.Goes point) :
    ({ c with point } : Consumer τ).AtFront := by
  cases h with
  | toFront _ hNotEmpty => exact hNotEmpty
  | copy func _ hHead => exact hHead
  | _ => trivial

theorem inOrder_runStep (h : InOrder c done) (hStep : c.runStep = some c') :
    ∃ done', InOrder c' done' := by
  have hFront := h.front
  have hExecuted := h.executed
  rcases runStep_cases hStep with ⟨point, hGoes, rfl⟩ | ⟨func, hPoint, rfl⟩ | ⟨func, hPoint, rfl⟩
  · obtain ⟨hHalf, hHalf'⟩ := hGoes.halfDone
    refine ⟨done, h.produced, ?_, h.finished, hGoes.atFront⟩
    rw [hHalf', ← hHalf]
    exact hExecuted
  · -- the callback runs, and stays in the queue
    rw [AtFront, hPoint] at hFront
    rw [halfDone, hPoint, List.append_nil] at hExecuted
    exact ⟨done, h.produced, congrArg (· ++ [func]) hExecuted, h.finished, hFront⟩
  · -- the front that is popped is the callback that ran
    rw [AtFront, hPoint] at hFront
    rw [halfDone, hPoint] at hExecuted
    obtain ⟨rest, hQueue⟩ := List.head?_eq_some_iff.mp hFront
    refine ⟨done ++ [func], ?_, ?_, ?_, trivial⟩
    · show c.produced = done ++ [func] ++ c.keyboardVector.tail
      rw [h.produced, hQueue, List.append_assoc]
      rfl
    · exact hExecuted.trans (List.append_nil _).symm
    · show c.finished + 1 = (done ++ [func]).length
      rw [h.finished, List.length_append]
      rfl

/-- A push at the back changes neither the front nor what is done. -/
theorem InOrder.push (h : InOrder c done) (value : τ) :
    InOrder { c with
      producing := none
      keyboardVector := c.keyboardVector ++ [value]
      produced := c.produced ++ [value] } done where
  produced := by
    show c.produced ++ [value] = done ++ (c.keyboardVector ++ [value])
    rw [h.produced, List.append_assoc]
  executed := h.executed
  finished := h.finished
  front := by
    have hFront := h.front
    unfold AtFront at hFront ⊢
    revert hFront
    cases c.point with
    | copyFront => exact fun _ => by simp
    | call func => exact fun hFront => List.head?_append.trans (by rw [hFront]; rfl)
    | erase func => exact fun hFront => List.head?_append.trans (by rw [hFront]; rfl)
    | _ => exact fun _ => trivial

/-- Each step keeps the queue and the histories in order. -/
theorem inOrder_step {e : ConsumerStep τ} (h : InOrder c done) (hStep : step c e = some c') :
    ∃ done', InOrder c' done' := by
  cases e with
  | produce value =>
    obtain ⟨-, rfl⟩ := Machine.of_guard hStep
    exact ⟨done, h.produced, h.executed, h.finished, h.front⟩
  | push =>
    obtain ⟨value, -, rfl⟩ := Option.map_eq_some_iff.mp hStep
    exact ⟨done, h.push value⟩
  | run => exact inOrder_runStep h hStep
  | lowerFlag =>
    obtain rfl := Option.some.inj hStep
    exact ⟨done, h.produced, h.executed, h.finished, h.front⟩
  | quit =>
    obtain rfl := Option.some.inj hStep
    exact ⟨done, h.produced, h.executed, h.finished, h.front⟩

theorem inOrder_start : InOrder (start : Consumer τ) [] := ⟨rfl, rfl, rfl, trivial⟩

theorem inOrder_run {es : List (ConsumerStep τ)} (h : InOrder c done)
    (hRun : Machine.run step c es = some c') : ∃ done', InOrder c' done' := by
  refine Machine.inv_run (I := fun c => ∃ done, InOrder c done) ?_ ⟨done, h⟩ hRun
  rintro s e s' ⟨done, h⟩ hStep
  exact inOrder_step h hStep

/-- `run` never takes the front of an empty queue: it stops only behind its loop. -/
theorem runStep_isSome {es : List (ConsumerStep τ)} (hRun : Machine.run step start es = some c)
    (hExec : c.point ≠ .exec) (hReturned : c.point ≠ .returned) : c.runStep.isSome = true := by
  obtain ⟨done, h⟩ := inOrder_run inOrder_start hRun
  have hFront := h.front
  unfold AtFront at hFront
  unfold runStep
  cases hPoint : c.point with
  | exec => exact absurd hPoint hExec
  | returned => exact absurd hPoint hReturned
  | copyFront =>
    rw [hPoint] at hFront
    exact (Option.isSome_map ..).trans (List.isSome_head?.mpr hFront)
  | erase func =>
    rw [hPoint] at hFront
    have hNotEmpty : c.keyboardVector ≠ [] := fun hEmpty => by
      rw [hEmpty] at hFront
      cases hFront
    simp [hNotEmpty]
  | _ => rfl

/-- **The queue is in order**: the callbacks that ran are a prefix of the ones
pushed, all that were popped ran and at most one more, and the queue holds what
was pushed and not popped. -/
theorem queue_in_order {es : List (ConsumerStep τ)}
    (hRun : Machine.run step start es = some c) :
    c.executed <+: c.produced ∧
      c.executed.length = c.finished + c.halfDone.length ∧
      c.keyboardVector = c.produced.drop c.finished := by
  obtain ⟨done, h⟩ := inOrder_run inOrder_start hRun
  have hPrefix : c.halfDone <+: c.keyboardVector := by
    have hFront := h.front
    unfold AtFront at hFront
    unfold halfDone
    split
    · rename_i func hPoint
      rw [hPoint] at hFront
      obtain ⟨rest, hQueue⟩ := List.head?_eq_some_iff.mp hFront
      exact ⟨rest, hQueue.symm⟩
    · exact List.nil_prefix
  refine ⟨?_, ?_, ?_⟩
  · rw [h.executed, h.produced]
    exact (List.prefix_append_right_inj done).mpr hPrefix
  · rw [h.executed, h.finished, List.length_append]
  · rw [h.produced, h.finished, List.drop_left]

/-- The first callback is called while another one is pushed. -/
def pushWhileCalled : List (ConsumerStep ℕ) :=
  [.produce 1, .push, .run, .run, .run, .run, .produce 2, .run, .push]

theorem queue_in_order_while_called : ∃ c, Machine.run step start pushWhileCalled = some c ∧
    c.executed = [1] ∧ c.keyboardVector = [1, 2] ∧ c.executed <+: c.produced ∧
      c.executed.length = c.finished + c.halfDone.length ∧
      c.keyboardVector = c.produced.drop c.finished :=
  ⟨_, rfl, rfl, rfl, queue_in_order (show Machine.run step start pushWhileCalled = _ from rfl)⟩

/-- Nothing is queued that has not been called: `run` calls nothing. -/
theorem runStep_of_called (h : InOrder c done) (hCalled : c.keyboardVector = c.halfDone)
    (hStep : c.runStep = some c') :
    c'.keyboardVector = c'.halfDone ∧ c'.executed = c.executed := by
  rcases runStep_cases hStep with ⟨point, hGoes, rfl⟩ | ⟨func, hPoint, rfl⟩ | ⟨func, hPoint, rfl⟩
  · obtain ⟨hHalf, hHalf'⟩ := hGoes.halfDone
    exact ⟨(hCalled.trans hHalf).trans hHalf'.symm, rfl⟩
  · -- there is a front to call
    have hFront := h.front
    rw [halfDone, hPoint] at hCalled
    rw [AtFront, hPoint, hCalled] at hFront
    cases hFront
  · rw [halfDone, hPoint] at hCalled
    exact ⟨congrArg List.tail hCalled, rfl⟩

/-- `run` has no part in `Produce`. -/
theorem runStep_frame (hStep : c.runStep = some c') :
    c'.produced = c.produced ∧ c'.producing = c.producing := by
  rcases runStep_cases hStep with ⟨_, _, rfl⟩ | ⟨_, _, rfl⟩ | ⟨_, _, rfl⟩ <;> exact ⟨rfl, rfl⟩

/-- What has been pushed or is about to be. -/
def handedOver (c : Consumer τ) : List τ := c.produced ++ c.producing.toList

/-- Only `Produce` hands over, at once. -/
theorem handedOver_step {e : ConsumerStep τ} (hStep : step c e = some c') :
    c'.handedOver = c.handedOver ++ match e with
      | .produce value => [value]
      | _ => [] := by
  unfold handedOver
  cases e with
  | produce value =>
    obtain ⟨hNone, rfl⟩ := Machine.of_guard hStep
    rw [hNone]
    simp
  | push =>
    obtain ⟨value, hValue, rfl⟩ := Option.map_eq_some_iff.mp hStep
    rw [hValue]
    simp
  | run =>
    obtain ⟨hProduced, hProducing⟩ := runStep_frame hStep
    rw [hProduced, hProducing, List.append_nil]
  | lowerFlag =>
    obtain rfl := Option.some.inj hStep
    exact (List.append_nil _).symm
  | quit =>
    obtain rfl := Option.some.inj hStep
    exact (List.append_nil _).symm

/-- Behind its loop. -/
def LeftLoop (c : Consumer τ) : Prop := c.point = .exec ∨ c.point = .returned

/-- Behind the loop nothing is called any more. -/
theorem leftLoop_step {e : ConsumerStep τ} (hLeft : c.LeftLoop) (hStep : step c e = some c') :
    c'.LeftLoop ∧ c'.executed = c.executed := by
  cases e with
  | produce value =>
    obtain ⟨-, rfl⟩ := Machine.of_guard hStep
    exact ⟨hLeft, rfl⟩
  | push =>
    obtain ⟨value, -, rfl⟩ := Option.map_eq_some_iff.mp hStep
    exact ⟨hLeft, rfl⟩
  | run =>
    rcases runStep_cases hStep with ⟨point, hGoes, rfl⟩ | ⟨func, hPoint, -⟩ | ⟨func, hPoint, -⟩
    · cases hGoes with
      | back => exact ⟨Or.inr rfl, rfl⟩
      | enter hPoint | leave hPoint | tested hPoint | again hPoint | toFront hPoint
      | copy _ hPoint => simp [LeftLoop, hPoint] at hLeft
    · simp [LeftLoop, hPoint] at hLeft
    · simp [LeftLoop, hPoint] at hLeft
  | lowerFlag =>
    obtain rfl := Option.some.inj hStep
    exact ⟨hLeft, rfl⟩
  | quit =>
    obtain rfl := Option.some.inj hStep
    exact ⟨hLeft, rfl⟩

/-- The loop is left where it is tested, with the flag down. -/
theorem leaves_loop {e : ConsumerStep τ} (hStep : step c e = some c') (hLeft : c'.LeftLoop)
    (hIn : ¬ c.LeftLoop) :
    e = .run ∧ c.point = .testFlag ∧ c.threadFlag = false ∧ c'.executed = c.executed := by
  cases e with
  | run =>
    rcases runStep_cases hStep with ⟨point, hGoes, rfl⟩ | ⟨func, -, rfl⟩ | ⟨func, -, rfl⟩
    · cases hGoes with
      | leave hPoint hFlag => exact ⟨rfl, hPoint, hFlag, rfl⟩
      | back hPoint => exact absurd (Or.inl hPoint) hIn
      | _ => simp [LeftLoop] at hLeft
    · simp [LeftLoop] at hLeft
    · simp [LeftLoop] at hLeft
  | produce value =>
    obtain ⟨-, rfl⟩ := Machine.of_guard hStep
    exact absurd hLeft hIn
  | push =>
    obtain ⟨value, -, rfl⟩ := Option.map_eq_some_iff.mp hStep
    exact absurd hLeft hIn
  | lowerFlag =>
    obtain rfl := Option.some.inj hStep
    exact absurd hLeft hIn
  | quit =>
    obtain rfl := Option.some.inj hStep
    exact absurd hLeft hIn

-- ---------------------------------------------------------------------------
-- Nothing stays in the queue
-- ---------------------------------------------------------------------------

/-- `run` takes `n` steps. -/
abbrev RunsTo (c : Consumer τ) (n : ℕ) (c' : Consumer τ) : Prop :=
  Machine.run step c (List.replicate n .run) = some c'

theorem RunsTo.trans {n m : ℕ} {c₁ : Consumer τ} (h : c.RunsTo n c₁) (h' : c₁.RunsTo m c') :
    c.RunsTo (n + m) c' := by
  unfold RunsTo
  rw [List.replicate_add]
  exact Machine.run_append.mpr ⟨c₁, h, h'⟩

/-- One round of the loop. -/
theorem runsTo_round (hPoint : c.point = .testFlag) (hFlag : c.threadFlag = true) {func : τ}
    {rest : List τ} (hQueue : c.keyboardVector = func :: rest) :
    c.RunsTo 6 { c with
      executed := c.executed ++ [func]
      keyboardVector := rest
      finished := c.finished + 1 } := by
  obtain ⟨threadFlag, keyboardVector, point, quitCalled, producing, produced, executed, finished⟩ :=
    c
  subst hPoint hFlag hQueue
  rfl

/-- From inside the loop `run` comes back to the test of the flag. -/
theorem runsTo_testFlag (h : InOrder c done) (hFlag : c.threadFlag = true) (hIn : ¬ c.LeftLoop) :
    ∃ n c', c.RunsTo n c' ∧ c'.point = .testFlag ∧ c'.threadFlag = true ∧
      c'.produced = c.produced := by
  have hFront := h.front
  obtain ⟨threadFlag, keyboardVector, point, quitCalled, producing, produced, executed, finished⟩ :=
    c
  subst hFlag
  -- `run` walks round its loop to the test; how far depends on where it is and on the queue
  cases keyboardVector with
  | nil =>
    cases point with
    | testFlag => exact ⟨0, _, rfl, rfl, rfl, rfl⟩
    | testEmpty => exact ⟨2, _, rfl, rfl, rfl, rfl⟩
    | testNotEmpty => exact ⟨1, _, rfl, rfl, rfl, rfl⟩
    | copyFront => exact absurd rfl hFront
    | call func => cases hFront
    | erase func => cases hFront
    | exec => exact absurd (Or.inl rfl) hIn
    | returned => exact absurd (Or.inr rfl) hIn
  | cons func rest =>
    cases point with
    | testFlag => exact ⟨0, _, rfl, rfl, rfl, rfl⟩
    | testEmpty => exact ⟨5, _, rfl, rfl, rfl, rfl⟩
    | testNotEmpty => exact ⟨4, _, rfl, rfl, rfl, rfl⟩
    | copyFront => exact ⟨3, _, rfl, rfl, rfl, rfl⟩
    | call func => exact ⟨2, _, rfl, rfl, rfl, rfl⟩
    | erase func => exact ⟨1, _, rfl, rfl, rfl, rfl⟩
    | exec => exact absurd (Or.inl rfl) hIn
    | returned => exact absurd (Or.inr rfl) hIn

/-- Round by round the queue is emptied. -/
theorem runsTo_empty (queue : List τ) : ∀ c : Consumer τ, c.point = .testFlag →
    c.threadFlag = true → c.keyboardVector = queue →
    ∃ n c', c.RunsTo n c' ∧ c'.point = .testFlag ∧ c'.keyboardVector = [] ∧
      c'.produced = c.produced := by
  induction queue with
  | nil => exact fun c hPoint _ hQueue => ⟨0, c, rfl, hPoint, hQueue, rfl⟩
  | cons func rest ih =>
    intro c hPoint hFlag hQueue
    have hRound := runsTo_round hPoint hFlag hQueue
    obtain ⟨n, c', hRuns, hRest⟩ := ih { c with
      executed := c.executed ++ [func]
      keyboardVector := rest
      finished := c.finished + 1 } hPoint hFlag rfl
    exact ⟨6 + n, c', hRound.trans hRuns, hRest⟩

/-- **The queue drains.** With the flag up, `run` alone calls everything that has
been pushed. -/
theorem drains (h : InOrder c done) (hFlag : c.threadFlag = true) (hIn : ¬ c.LeftLoop) :
    ∃ n c', c.RunsTo n c' ∧ c'.keyboardVector = [] ∧ c'.executed = c.produced := by
  obtain ⟨n, c₁, hRuns, hPoint, hFlag, hProduced⟩ := runsTo_testFlag h hFlag hIn
  obtain ⟨m, c', hRuns', hPoint', hEmpty, hProduced'⟩ := runsTo_empty _ c₁ hPoint hFlag rfl
  have hAll := hRuns.trans hRuns'
  refine ⟨n + m, c', hAll, hEmpty, ?_⟩
  obtain ⟨done', hDone⟩ := inOrder_run h hAll
  -- nothing is queued and nothing is half done
  rw [← hProduced, ← hProduced', hDone.produced, hEmpty, hDone.executed, halfDone, hPoint']

/-- With nothing queued, what has been pushed has been called. -/
theorem InOrder.executed_eq (h : InOrder c done) (hEmpty : c.keyboardVector = []) :
    c.executed = c.produced := by
  have hHalf : c.halfDone = [] := by
    have hFront := h.front
    unfold AtFront at hFront
    unfold halfDone
    split
    · rename_i func hPoint
      rw [hPoint, hEmpty] at hFront
      cases hFront
    · rfl
  rw [h.executed, h.produced, hHalf, hEmpty]

/-- The pushes of some values, before the first step of `run`. -/
theorem run_pushes (values : List τ) :
    Machine.run step start (values.flatMap fun value => [.produce value, .push]) =
      some { start with keyboardVector := values, produced := values } := by
  induction values using List.reverseRecOn with
  | nil => rfl
  | append_singleton values value ih =>
    rw [List.flatMap_append]
    exact Machine.run_append.mpr ⟨_, ih, rfl⟩

/-- In some run `values` have been pushed, the queue is empty again, and
`executed` have been called. -/
def Drained (values executed : List τ) : Prop :=
  ∃ (es : List (ConsumerStep τ)) (c : Consumer τ), Machine.run step start es = some c ∧
    c.produced = values ∧ c.keyboardVector = [] ∧ c.executed = executed

/-- **Drained.** Once the queue has drained, what was pushed has been called, in
order; and there is a run in which it has drained. -/
theorem drained_iff {values executed : List τ} : Drained values executed ↔ executed = values := by
  constructor
  · rintro ⟨es, c, hRun, rfl, hEmpty, rfl⟩
    obtain ⟨done, h⟩ := inOrder_run inOrder_start hRun
    exact h.executed_eq hEmpty
  · rintro rfl
    have hPushes := run_pushes executed
    obtain ⟨done, h⟩ := inOrder_run inOrder_start hPushes
    have hIn : ¬ ({ start with keyboardVector := executed, produced := executed } :
        Consumer τ).LeftLoop := by
      simp [LeftLoop, start]
    obtain ⟨n, c, hRuns, hEmpty, hExecuted⟩ := drains h rfl hIn
    have hRun := Machine.run_append.mpr ⟨_, hPushes, hRuns⟩
    refine ⟨_, c, hRun, ?_, hEmpty, hExecuted⟩
    obtain ⟨done', h'⟩ := inOrder_run inOrder_start hRun
    exact (h'.executed_eq hEmpty).symm.trans hExecuted

end

end Consumer

end PushStreamer
