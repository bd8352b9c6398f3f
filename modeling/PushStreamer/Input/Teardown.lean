import PushStreamer.Input.Consumer
import PushStreamer.Input.Facade

/-!
# Tearing down the key mapper

The destructor of `KeyValueTransformt` drops the tables and stops the consumer
thread: it lowers the flag and waits. The thread leaves its loop at the next test
of the flag, whatever the queue holds. Here a list of key calls is made, each
press of a key before a release of it, while the consumer runs and the destructor
is called; the driver takes every call.

* `ordered_step` — what is called, queued and still to come is what was asked
  for.
* `leftPressed_iff` — a key stays pressed just when its release is left over.
* `released_iff` — the runs after which no key is pressed.
-/

namespace PushStreamer

open KeyMapper

/-- How far `~KeyValueTransformt` is. -/
inductive Destructor where
  | notCalled
  -- the tables and the remembered keys are gone
  | tablesDropped
  -- `Stop`: the thread is running until its `wait` is over
  | flagLowered
  | waiting
  | returned
deriving DecidableEq

/-- The mapper, its consumer and the calls that are made. -/
structure Teardown where
  -- its queue holds what the call under way has still to produce
  mapper : KeyMapper
  consumer : Consumer DriverCall
  destructor : Destructor
  calls : List FacadeCall
  -- calls that returned -1 since there were no tables
  refused : List FacadeCall

inductive TeardownStep where
  -- the next call translates its key, and then produces its actions
  | call
  | produce
  | push
  | run
  -- the destructor
  | dropTables
  | lowerFlag
  | quit
  | wait
deriving DecidableEq

namespace Teardown

def start (mapper : KeyMapper) (calls : List FacadeCall) : Teardown where
  mapper := mapper
  consumer := .start
  destructor := .notCalled
  calls := calls
  refused := []

/-- A step of the consumer. -/
def consume (s : Teardown) (e : ConsumerStep DriverCall) : Option Teardown :=
  (s.consumer.step e).map fun consumer => { s with consumer }

/-- No call is under way. -/
def Idle (s : Teardown) : Prop := s.mapper.queue = [] ∧ s.consumer.producing = none

instance (s : Teardown) : Decidable s.Idle := by
  unfold Idle
  infer_instance

/-- The next call begins, with the tables or without. -/
def nextCall (s : Teardown) : Option Teardown :=
  match s.calls with
  | [] => none
  | c :: rest =>
    if s.destructor = .notCalled then
      some { s with mapper := (c.perform s.mapper).2, calls := rest }
    else some { s with refused := s.refused ++ [c], calls := rest }

def step (s : Teardown) : TeardownStep → Option Teardown
  | .call => if s.Idle ∧ s.destructor ≠ .returned then s.nextCall else none
  | .produce =>
    match s.mapper.queue with
    | [] => none
    | action :: rest =>
      if s.destructor ≠ .returned then
        { s with mapper := { s.mapper with queue := rest } }.consume (.produce action)
      else none
  | .push => if s.destructor ≠ .returned then s.consume .push else none
  | .run => s.consume .run
  | .dropTables =>
    if s.destructor = .notCalled then some { s with destructor := .tablesDropped } else none
  | .lowerFlag =>
    if s.destructor = .tablesDropped then
      { s with destructor := .flagLowered }.consume .lowerFlag
    else none
  | .quit =>
    if s.destructor = .flagLowered then { s with destructor := .waiting }.consume .quit else none
  | .wait =>
    if s.destructor = .waiting ∧ s.consumer.point = .returned then
      some { s with destructor := .returned }
    else none

end Teardown

-- ---------------------------------------------------------------------------
-- Calls and presses
-- ---------------------------------------------------------------------------

/-- Key calls, each `KeyDown_C` with a `KeyUP_C` of the same key later. -/
structure Paired (calls : List FacadeCall) : Prop where
  keyCalls : ∀ call ∈ calls, call.keyValue?.isSome = true
  released : ∀ before keyValue after, calls = before ++ .keyDown_C keyValue :: after →
    FacadeCall.keyUP_C keyValue ∈ after

/-- The key was pressed, and not released since. -/
def LeftPressed (executed : List DriverCall) (key : Int) : Prop :=
  ∃ l₁ l₂, executed = l₁ ++ .keyDown key :: l₂ ∧ DriverCall.keyUp key ∉ l₂

/-- The code page keeps what the calls translate their keys to: what is
remembered of it means the same keys. -/
def KeepsKeys (m : KeyMapper) (calls : List FacadeCall) : Prop :=
  ∀ call ∈ calls, ∀ keyValue, call.keyValue? = some keyValue →
    m.codePage.recode (m.mappedValue (toString keyValue)) ≠ "" →
      mappedKeys (m.codePage.recode (m.mappedValue (toString keyValue))) =
        mappedKeys (m.mappedValue (toString keyValue))

section

variable {translate : String → String} {calls : List FacadeCall} {c : FacadeCall} {key : Int}

theorem Paired.tail (h : Paired (c :: calls)) : Paired calls where
  keyCalls := fun call hMem => h.keyCalls call (List.mem_cons_of_mem _ hMem)
  released := fun before keyValue after hSplit =>
    h.released (c :: before) keyValue after (congrArg (c :: ·) hSplit)

/-- A press comes from `KeyDown_C` of a key that is mapped to it. -/
theorem keyDown_mem_asked (hCall : c.keyValue?.isSome = true)
    (hMem : DriverCall.keyDown key ∈ c.asked translate) :
    ∃ keyValue, c = .keyDown_C keyValue ∧
      DriverCall.keyUp key ∈ (FacadeCall.keyUP_C keyValue).asked translate := by
  cases c with
  | keyDown_C keyValue =>
    obtain ⟨key', hKey', hAction⟩ := List.mem_map.mp hMem
    unfold pressAction at hAction
    split at hAction
    · cases hAction
    · rename_i hMouse
      cases hAction
      refine ⟨keyValue, rfl, List.mem_map.mpr ⟨key, hKey', ?_⟩⟩
      rw [releaseAction, if_neg hMouse]
  | keyUP_C keyValue =>
    obtain ⟨key', -, hAction⟩ := List.mem_map.mp hMem
    unfold releaseAction at hAction
    split at hAction <;> cases hAction
  | _ => cases hCall

/-- In the actions that paired calls ask for, a release follows each press. -/
theorem keyUp_follows (h : Paired calls) {l₁ l₂ : List DriverCall}
    (hSplit : calls.flatMap (FacadeCall.asked translate) = l₁ ++ .keyDown key :: l₂) :
    DriverCall.keyUp key ∈ l₂ := by
  induction calls generalizing l₁ with
  | nil => simp at hSplit
  | cons c calls ih =>
    rw [List.flatMap_cons, List.append_eq_append_iff] at hSplit
    rcases hSplit with ⟨l, -, hRest⟩ | ⟨l, hCall, hRest⟩
    · exact ih h.tail hRest
    · cases l with
      | nil =>
        have hLater : calls.flatMap (FacadeCall.asked translate) = [] ++ .keyDown key :: l₂ :=
          hRest.symm
        exact ih h.tail hLater
      | cons action l =>
        -- the press is one of the first call
        obtain ⟨rfl, rfl⟩ := List.cons.inj hRest
        have hMem : DriverCall.keyDown key ∈ c.asked translate := by
          rw [hCall]
          exact List.mem_append_right _ (List.mem_cons_self ..)
        obtain ⟨keyValue, rfl, hUp⟩ :=
          keyDown_mem_asked (h.keyCalls c (List.mem_cons_self ..)) hMem
        have hCallUp := h.released [] keyValue calls rfl
        exact List.mem_append_right _ (List.mem_flatMap.mpr ⟨_, hCallUp, hUp⟩)

end

namespace Teardown

/-- What has been asked for and is not called yet: it is queued, about to be, or
a matter of calls that were refused or are still to come. -/
def unexecuted (translate : String → String) (s : Teardown) : List DriverCall :=
  s.consumer.keyboardVector ++ s.consumer.producing.toList ++ s.mapper.queue ++
    (s.refused ++ s.calls).flatMap (FacadeCall.asked translate)

/-- The thread does not leave its loop while the release of a key that is pressed
is left over. -/
def LeavesNoRelease (translate : String → String) (s : Teardown) (e : TeardownStep) : Prop :=
  e = .run → s.consumer.point = .testFlag → s.consumer.threadFlag = false →
    ∀ key, LeftPressed s.consumer.executed key → DriverCall.keyUp key ∉ s.unexecuted translate

/-- The calls and the consumer: what was asked for is handed over in order. -/
structure Ordered (m : KeyMapper) (calls : List FacadeCall) (s : Teardown) : Prop where
  remembers : Remembers m.mappedValue s.mapper
  codePage : s.mapper.codePage = m.codePage
  consumer : ∃ done, s.consumer.InOrder done
  asked : calls.flatMap (FacadeCall.asked m.mappedValue) =
    s.consumer.handedOver ++ s.mapper.queue ++
      (s.refused ++ s.calls).flatMap (FacadeCall.asked m.mappedValue)
  refused : s.destructor = .notCalled → s.refused = []
  calls : ∀ call ∈ s.calls, call ∈ calls
  returned : s.destructor = .returned → s.consumer.LeftLoop

section

variable {m : KeyMapper} {calls : List FacadeCall} {s s' : Teardown} {e : TeardownStep}

/-- A key call queues its actions. -/
theorem queue_perform (hPaired : Paired calls) (hKept : KeepsKeys m calls)
    (h : Ordered m calls s) {c : FacadeCall} (hMem : c ∈ calls) :
    (c.perform s.mapper).2.queue = s.mapper.queue ++ c.asked m.mappedValue := by
  have hCan : CanQueue m.mappedValue s.mapper c := by
    have hKey := hPaired.keyCalls c hMem
    refine ⟨fun x y code hEq => ?_, fun keyValue hValue _ hText => ?_⟩
    · rw [hEq] at hKey
      cases hKey
    rw [h.codePage] at hText ⊢
    have hKeys := hKept c hMem keyValue hValue hText
    cases c with
    | keyDown_C keyValue' =>
      obtain rfl := Option.some.inj hValue
      exact congrArg (List.map pressAction) hKeys
    | keyUP_C keyValue' =>
      obtain rfl := Option.some.inj hValue
      exact congrArg (List.map releaseAction) hKeys
    | _ => cases hKey
  exact (asAsked_iff h.remembers c).mpr hCan fun _ => perform_returns _ _

/-- Steps of the consumer that hand nothing over. -/
theorem Ordered.consume (h : Ordered m calls s) {e : ConsumerStep DriverCall}
    (hQuiet : ∀ value, e ≠ .produce value) (hStep : s.consume e = some s') :
    Ordered m calls s' := by
  obtain ⟨consumer, hConsumer, rfl⟩ := Option.map_eq_some_iff.mp hStep
  obtain ⟨done, hDone⟩ := h.consumer
  have hHanded : consumer.handedOver = s.consumer.handedOver := by
    have hEq := Consumer.handedOver_step hConsumer
    cases e with
    | produce value => exact absurd rfl (hQuiet value)
    | _ => exact hEq.trans (List.append_nil _)
  exact ⟨h.remembers, h.codePage, Consumer.inOrder_step hDone hConsumer, by
    rw [h.asked, ← hHanded], h.refused, h.calls,
    fun hReturned => (Consumer.leftLoop_step (h.returned hReturned) hConsumer).1⟩

theorem ordered_nextCall (hPaired : Paired calls) (hKept : KeepsKeys m calls)
    (h : Ordered m calls s) (hIdle : s.Idle) (hStep : s.nextCall = some s') :
    Ordered m calls s' := by
  have hCalls := h.calls
  have hAsked := h.asked
  unfold nextCall at hStep
  split at hStep
  case h_1 => cases hStep
  case h_2 c rest hSplit =>
    rw [hSplit] at hCalls hAsked
    have hRest : ∀ call ∈ rest, call ∈ calls := fun call hMem =>
      hCalls call (List.mem_cons_of_mem _ hMem)
    split at hStep
    · rename_i hAlive
      obtain rfl := Option.some.inj hStep
      have hQueue := queue_perform hPaired hKept h (hCalls c (List.mem_cons_self ..))
      refine ⟨remembers_perform h.remembers c, (codePage_perform _ c).trans h.codePage,
        h.consumer, ?_, h.refused, hRest, h.returned⟩
      show _ = _ ++ (c.perform s.mapper).2.queue ++ _
      rw [hAsked, hQueue, h.refused hAlive, hIdle.1]
      simp
    · rename_i hGone
      obtain rfl := Option.some.inj hStep
      refine ⟨h.remembers, h.codePage, h.consumer, ?_, fun hAlive => absurd hAlive hGone, hRest,
        h.returned⟩
      rw [hAsked, List.append_assoc s.refused]
      rfl

/-- The destructor goes on. -/
theorem Ordered.goTo (h : Ordered m calls s) (destructor : Destructor)
    (hCalled : destructor ≠ .notCalled) (hLeft : destructor = .returned → s.consumer.LeftLoop) :
    Ordered m calls { s with destructor } :=
  ⟨h.remembers, h.codePage, h.consumer, h.asked, fun hEq => absurd hEq hCalled, h.calls, hLeft⟩

theorem ordered_step (hPaired : Paired calls) (hKept : KeepsKeys m calls)
    (h : Ordered m calls s) (hStep : s.step e = some s') : Ordered m calls s' := by
  cases e with
  | call =>
    obtain ⟨⟨hIdle, -⟩, hNext⟩ := Option.ite_none_right_eq_some.mp hStep
    exact ordered_nextCall hPaired hKept h hIdle hNext
  | produce =>
    rw [step] at hStep
    split at hStep
    · cases hStep
    · -- the action goes from the queue of the caller to the consumer
      rename_i action rest hQueue
      obtain ⟨hAlive, hStep⟩ := Option.ite_none_right_eq_some.mp hStep
      obtain ⟨consumer, hConsumer, rfl⟩ := Option.map_eq_some_iff.mp hStep
      obtain ⟨done, hDone⟩ := h.consumer
      refine ⟨⟨h.remembers.tables, h.remembers.cached⟩, h.codePage,
        Consumer.inOrder_step hDone hConsumer, ?_, h.refused, h.calls,
        fun hReturned => absurd hReturned hAlive⟩
      show _ = consumer.handedOver ++ rest ++ _
      rw [h.asked, hQueue, Consumer.handedOver_step hConsumer]
      simp
  | push =>
    obtain ⟨-, hStep⟩ := Option.ite_none_right_eq_some.mp hStep
    exact h.consume (fun _ hEq => by cases hEq) hStep
  | run => exact h.consume (fun _ hEq => by cases hEq) hStep
  | dropTables =>
    -- the owner goes on to its next place in `stop`
    obtain ⟨-, rfl⟩ := Machine.of_guard hStep
    exact h.goTo _ (by decide) fun hEq => by cases hEq
  | lowerFlag =>
    obtain ⟨-, hStep⟩ := Option.ite_none_right_eq_some.mp hStep
    have hLowered := h.goTo .flagLowered (by decide) fun hEq => by cases hEq
    exact hLowered.consume (fun _ hEq => by cases hEq) hStep
  | quit =>
    obtain ⟨-, hStep⟩ := Option.ite_none_right_eq_some.mp hStep
    have hWaiting := h.goTo .waiting (by decide) fun hEq => by cases hEq
    exact hWaiting.consume (fun _ hEq => by cases hEq) hStep
  | wait =>
    obtain ⟨⟨-, hReturned⟩, rfl⟩ := Machine.of_guard hStep
    exact h.goTo _ (by decide) fun _ => Or.inr hReturned

theorem ordered_start (codePage : CodePage)
    (nameKeyTable defaultKeyBoard gameKeyBoard : DealIniFile) (calls : List FacadeCall) :
    Ordered (new codePage nameKeyTable defaultKeyBoard gameKeyBoard) calls
      (start (new codePage nameKeyTable defaultKeyBoard gameKeyBoard) calls) where
  remembers := remembers_new codePage nameKeyTable defaultKeyBoard gameKeyBoard
  codePage := rfl
  consumer := ⟨[], Consumer.inOrder_start⟩
  asked := rfl
  refused := fun _ => rfl
  calls := fun _ hMem => hMem
  returned := fun hEq => by cases hEq

/-- At the test of the flag a key stays pressed just when its release is left over. -/
theorem leftPressed_iff (hPaired : Paired calls) (h : Ordered m calls s)
    (hPoint : s.consumer.point = .testFlag) :
    (∀ key, ¬ LeftPressed s.consumer.executed key) ↔
      ∀ key, LeftPressed s.consumer.executed key →
        DriverCall.keyUp key ∉ s.unexecuted m.mappedValue := by
  constructor
  · intro hNone key hHeld
    exact absurd hHeld (hNone key)
  · rintro hLeft key ⟨l₁, l₂, hSplit, hNotUp⟩
    obtain ⟨done, hDone⟩ := h.consumer
    have hExecuted : s.consumer.executed = done := by
      rw [hDone.executed, Consumer.halfDone, hPoint, List.append_nil]
    have hAsked : calls.flatMap (FacadeCall.asked m.mappedValue) =
        l₁ ++ .keyDown key :: (l₂ ++ s.unexecuted m.mappedValue) := by
      rw [h.asked, Consumer.handedOver, hDone.produced, ← hExecuted, hSplit, unexecuted]
      simp
    rcases List.mem_append.mp (keyUp_follows hPaired hAsked) with hUp | hUp
    · exact hNotUp hUp
    · exact hLeft key ⟨l₁, l₂, hSplit, hNotUp⟩ hUp

/-- A step acts on the consumer by one of its steps, or not at all. -/
theorem step_consumer (hStep : s.step e = some s') :
    (s'.consumer = s.consumer ∧ e ≠ .run) ∨
      ∃ e', s.consumer.step e' = some s'.consumer ∧ (e' = .run ↔ e = .run) := by
  have hConsume : ∀ {s₀ : Teardown} {e'}, s₀.consume e' = some s' →
      s₀.consumer.step e' = some s'.consumer := by
    intro s₀ e' hStep
    obtain ⟨consumer, hConsumer, rfl⟩ := Option.map_eq_some_iff.mp hStep
    exact hConsumer
  cases e with
  | call =>
    obtain ⟨-, hNext⟩ := Option.ite_none_right_eq_some.mp hStep
    refine Or.inl ⟨?_, by decide⟩
    unfold nextCall at hNext
    split at hNext
    · cases hNext
    · split at hNext <;> obtain rfl := Option.some.inj hNext <;> rfl
  | produce =>
    rw [step] at hStep
    split at hStep
    · cases hStep
    · obtain ⟨-, hStep⟩ := Option.ite_none_right_eq_some.mp hStep
      have hConsumer := hConsume hStep
      exact Or.inr ⟨_, hConsumer, by simp⟩
  | push =>
    obtain ⟨-, hStep⟩ := Option.ite_none_right_eq_some.mp hStep
    have hConsumer := hConsume hStep
    exact Or.inr ⟨_, hConsumer, by simp⟩
  | run =>
    have hConsumer := hConsume hStep
    exact Or.inr ⟨_, hConsumer, by simp⟩
  | dropTables =>
    obtain ⟨-, rfl⟩ := Machine.of_guard hStep
    exact Or.inl ⟨rfl, by decide⟩
  | lowerFlag =>
    obtain ⟨-, hStep⟩ := Option.ite_none_right_eq_some.mp hStep
    have hConsumer := hConsume hStep
    exact Or.inr ⟨_, hConsumer, by simp⟩
  | quit =>
    obtain ⟨-, hStep⟩ := Option.ite_none_right_eq_some.mp hStep
    have hConsumer := hConsume hStep
    exact Or.inr ⟨_, hConsumer, by simp⟩
  | wait =>
    obtain ⟨-, rfl⟩ := Machine.of_guard hStep
    exact Or.inl ⟨rfl, by decide⟩

/-- Once the loop is left no key is pressed. -/
def Released (s : Teardown) : Prop :=
  s.consumer.LeftLoop → ∀ key, ¬ LeftPressed s.consumer.executed key

theorem released_of_step (hStep : s.step e = some s') (h : s'.Released) : s.Released := by
  intro hLeft
  rcases step_consumer hStep with ⟨hSame, -⟩ | ⟨e', hConsumer, -⟩
  · rw [← hSame]
    exact h (hSame ▸ hLeft)
  · obtain ⟨hLeft', hExecuted⟩ := Consumer.leftLoop_step hLeft hConsumer
    rw [← hExecuted]
    exact h hLeft'

/-- Only the test of the flag can leave a key pressed. -/
theorem released_step_iff (hPaired : Paired calls) (hInv : Ordered m calls s) (h : s.Released)
    (hStep : s.step e = some s') : s'.Released ↔ s.LeavesNoRelease m.mappedValue e := by
  by_cases hIn : s.consumer.LeftLoop
  · -- the thread is behind its loop already
    refine iff_of_true (fun hLeft' => ?_) fun _ hPoint _ => ?_
    · rcases step_consumer hStep with ⟨hSame, -⟩ | ⟨e', hConsumer, -⟩
      · exact hSame ▸ h hIn
      · exact (Consumer.leftLoop_step hIn hConsumer).2 ▸ h hIn
    · simp [Consumer.LeftLoop, hPoint] at hIn
  · by_cases hLeft : s'.consumer.LeftLoop
    · rcases step_consumer hStep with ⟨hSame, -⟩ | ⟨e', hConsumer, hRun⟩
      · exact absurd (hSame ▸ hLeft) hIn
      · obtain ⟨rfl, hPoint, hFlag, hExecuted⟩ := Consumer.leaves_loop hConsumer hLeft hIn
        have hIff := leftPressed_iff hPaired hInv hPoint
        rw [← hExecuted] at hIff
        constructor
        · intro hReleased _ _ _
          rw [← hExecuted]
          exact hIff.mp (hReleased hLeft)
        · intro hLeaves _
          have hNone := hLeaves (hRun.mp rfl) hPoint hFlag
          rw [← hExecuted] at hNone
          exact hIff.mpr hNone
    · refine iff_of_true (fun hLeft' => absurd hLeft' hLeft) fun hEq hPoint hFlag => ?_
      -- this step would leave the loop
      subst hEq
      obtain ⟨consumer, hConsumer, rfl⟩ := Option.map_eq_some_iff.mp hStep
      rw [Consumer.step, Consumer.runStep, hPoint] at hConsumer
      obtain rfl := Option.some.inj hConsumer
      simp [Consumer.LeftLoop, hFlag] at hLeft

end

/-- **Teardown.** When the destructor has returned no key is pressed, just when
the consumer has not left its loop while the release of a pressed key was left
over. -/
theorem released_iff {codePage : CodePage} {nameKeyTable defaultKeyBoard gameKeyBoard : DealIniFile}
    {m : KeyMapper} (hNew : m = new codePage nameKeyTable defaultKeyBoard gameKeyBoard)
    {calls : List FacadeCall} (hPaired : Paired calls) (hKept : KeepsKeys m calls)
    {es : List TeardownStep} {s : Teardown} (hRun : Machine.run step (start m calls) es = some s)
    (hReturned : s.destructor = .returned) :
    (∀ key, ¬ LeftPressed s.consumer.executed key) ↔
      Machine.MeetsTaken step (LeavesNoRelease m.mappedValue) (start m calls) es := by
  have hStart : Ordered m calls (start m calls) := hNew ▸ ordered_start ..
  have hLeft : s.consumer.LeftLoop :=
    (Machine.inv_run (fun _ _ _ h => ordered_step hPaired hKept h) hStart hRun).returned hReturned
  have hReleased : (start m calls).Released := fun hLeft => by
    rcases hLeft with hPoint | hPoint <;> cases hPoint
  have hIff : Machine.Keeps step Released (start m calls) es ↔
      Machine.MeetsTaken step (LeavesNoRelease m.mappedValue) (start m calls) es :=
    Machine.keeps_iff_meets (fun _ _ _ h hStep => ordered_step hPaired hKept h hStep)
      (fun _ _ _ hInv h hStep => released_step_iff hPaired hInv h hStep) hStart hReleased
  rw [← hIff]
  constructor
  · intro hNone
    have hLast : s.Released := fun _ => hNone
    exact (Machine.Keeps.of_last (fun _ _ _ => released_of_step) hRun hLast).2
  · intro hKeeps
    exact hKeeps.good hReleased hRun hLeft

/-- One key, the `A` of a full keyboard, mapped to itself. -/
def sampleMapper : KeyMapper :=
  new .utf8 (some ⟨[("KeyboardMapValue", [("65", "A")])]⟩)
    (some ⟨[("KeyboardMapValue", [("A", "65")])]⟩) none

/-- A press and a release of it, which are both queued. -/
def pressAndRelease : List TeardownStep :=
  [.call, .produce, .push, .call, .produce, .push]

/-- The consumer calls the front of the queue, and pops it. -/
def runOnce : List TeardownStep := List.replicate 6 .run

/-- The destructor, to its end. -/
def destroy : List TeardownStep := [.dropTables, .lowerFlag, .run, .quit, .run, .wait]

theorem paired_sample : Paired [.keyDown_C 65, .keyUP_C 65] := by
  refine ⟨by decide, fun before keyValue after hSplit => ?_⟩
  cases before with
  | nil =>
    obtain ⟨hCall, rfl⟩ := List.cons.inj hSplit
    cases hCall
    exact List.mem_singleton.mpr rfl
  | cons c before =>
    have hRest := (List.cons.inj hSplit).2
    cases before with
    | nil => cases hRest
    | cons c before => simp at hRest

theorem keepsKeys_utf8 {m : KeyMapper} (hUtf8 : m.codePage = .utf8) (calls : List FacadeCall) :
    KeepsKeys m calls := by
  intro call _ keyValue _ _
  rw [hUtf8]
  rfl

/-- Both calls are called before the destructor is. -/
theorem released_iff_in_time : ∃ s,
    Machine.run step (start sampleMapper [.keyDown_C 65, .keyUP_C 65])
        (pressAndRelease ++ runOnce ++ runOnce ++ destroy) = some s ∧
      s.consumer.executed = [.keyDown 65, .keyUp 65] ∧
      ((∀ key, ¬ LeftPressed s.consumer.executed key) ↔
        Machine.MeetsTaken step (LeavesNoRelease sampleMapper.mappedValue)
          (start sampleMapper [.keyDown_C 65, .keyUP_C 65])
          (pressAndRelease ++ runOnce ++ runOnce ++ destroy)) := by
  have hRun : ∃ s, Machine.run step (start sampleMapper [.keyDown_C 65, .keyUP_C 65])
      (pressAndRelease ++ runOnce ++ runOnce ++ destroy) = some s ∧ s.destructor = .returned ∧
        s.consumer.executed = [.keyDown 65, .keyUp 65] := ⟨_, rfl, rfl, rfl⟩
  obtain ⟨s, hRun, hReturned, hExecuted⟩ := hRun
  exact ⟨s, hRun, hExecuted, released_iff rfl paired_sample (keepsKeys_utf8 rfl _) hRun hReturned⟩

/-- The destructor is called after the press has been: its release is queued, and
dropped. -/
theorem release_dropped : Paired [.keyDown_C 65, .keyUP_C 65] ∧ ∃ s,
    Machine.run step (start sampleMapper [.keyDown_C 65, .keyUP_C 65])
        (pressAndRelease ++ runOnce ++ destroy) = some s ∧
      s.destructor = .returned ∧ s.consumer.keyboardVector = [.keyUp 65] ∧
      LeftPressed s.consumer.executed 65 :=
  ⟨paired_sample, _, rfl, rfl, rfl, [], [], rfl, List.not_mem_nil⟩

end Teardown

end PushStreamer
