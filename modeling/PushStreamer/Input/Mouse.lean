import PushStreamer.Input.Consumer
import PushStreamer.Input.Facade
import PushStreamer.Input.KeyBoardThread
import PushStreamer.Lib.Flags
import PushStreamer.Lib.Strokes

/-!
# Mouse reports

In mode 1 the keys of a gamepad press and release the buttons of a mouse, and
its stick moves it. All three become calls of the driver that carry a code, and
`libGetrtpcmd` builds a report from each: its byte `buttons` is the one of the
code. No call knows which buttons are held.

* `buttonBytes_run` — the bytes that are sent, by what the messages ask for.
* `sentByte_eq_iff` — when one of them shows the buttons that are held.
* `mouse_buttons_iff` — the sequences of messages in which each does.
-/

namespace PushStreamer

open KeyMapper
open Strokes (Stroke down)

-- ---------------------------------------------------------------------------
-- Reports
-- ---------------------------------------------------------------------------

/-- `HIDMINI_CONTROL_INFO_Mouse`. -/
structure ControlInfoMouse where
  reportId : UInt8
  commandCode : UInt8
  buttons : UInt8
  x : UInt16
  y : UInt16

namespace Hid

/-- The byte of a code. -/
def mouseButtons (code : Int) : UInt8 :=
  if code = 1 then 1 else if code = 2 then 4 else if code = 3 then 2 else 0

/-- The body that `MouseMove`, `MouseUp` and `MouseDown` share: the report they
send. -/
def mouseReport (x y code : Int) : ControlInfoMouse where
  reportId := 1
  commandCode := 2
  buttons := mouseButtons code
  x := UInt16.ofInt x
  y := UInt16.ofInt y

/-- `MouseMove`. -/
def mouseMove (x y code : Int) : ControlInfoMouse := mouseReport x y code

/-- `MouseUp`. -/
def mouseUp (x y code : Int) : ControlInfoMouse := mouseReport x y code

/-- `MouseDown`. -/
def mouseDown (x y code : Int) : ControlInfoMouse := mouseReport x y code

end Hid

/-- The mouse report that a call of the driver sends. -/
def DriverCall.mouseReport : DriverCall → Option ControlInfoMouse
  | .mouseMove x y code => some (Hid.mouseMove x y code)
  | .mouseDown x y code => some (Hid.mouseDown x y code)
  | .mouseUp x y code => some (Hid.mouseUp x y code)
  | _ => none

/-- The `buttons` byte of each mouse report. -/
def buttonBytes (calls : List DriverCall) : List UInt8 :=
  (calls.filterMap DriverCall.mouseReport).map ControlInfoMouse.buttons

-- ---------------------------------------------------------------------------
-- Buttons
-- ---------------------------------------------------------------------------

/-- A mouse button, by its code. -/
inductive MouseButton where
  | button1
  | button2
  | button3
deriving DecidableEq

/-- The bit of a button. -/
def MouseButton.bit : MouseButton → UInt8
  | .button1 => 0x01
  | .button2 => 0x04
  | .button3 => 0x02

/-- The button that a key stands for. -/
def MouseButton.ofKey (key : Int) : Option MouseButton :=
  if key = 1 then some .button1
  else if key = 2 then some .button2
  else if key = 3 then some .button3
  else none

/-- What is done with the mouse. -/
inductive MouseAction where
  | press (button : MouseButton)
  | release (button : MouseButton)
  | move
deriving DecidableEq

namespace MouseAction

def stroke : MouseAction → Option (Stroke MouseButton)
  | .press button => some (.press button)
  | .release button => some (.release button)
  | .move => none

/-- The button that it is about. -/
def button : MouseAction → Option MouseButton
  | .press button | .release button => some button
  | .move => none

/-- The byte that is sent for it. -/
def sentByte : MouseAction → UInt8
  | .press button => button.bit
  | _ => 0

end MouseAction

/-- The buttons that have been pressed and not released since. -/
def heldButtons (actions : List MouseAction) : List MouseButton :=
  down (actions.filterMap MouseAction.stroke)

/-- For each action the bits of the buttons that are held after it. -/
def heldBytes (before : List MouseAction) : List MouseAction → List UInt8
  | [] => []
  | action :: rest =>
    Flags.union MouseButton.bit (heldButtons (before ++ [action])) ::
      heldBytes (before ++ [action]) rest

/-- A button is pressed or released only while no other one is held, and the
mouse moved only while none is. -/
def OneButton (before : List MouseAction) : List MouseAction → Prop
  | [] => True
  | action :: rest =>
    (∀ button ∈ heldButtons before, action.button = some button) ∧
      OneButton (before ++ [action]) rest

instance decidableOneButton : ∀ before actions, Decidable (OneButton before actions)
  | _, [] => .isTrue trivial
  | before, action :: rest =>
    have := decidableOneButton (before ++ [action]) rest
    inferInstanceAs (Decidable (_ ∧ _))

-- ---------------------------------------------------------------------------
-- Messages
-- ---------------------------------------------------------------------------

/-- The mouse buttons that a key of the gamepad is mapped to. -/
def mappedButtons (config : KeyMapper) (keyTemp : Int) : List MouseButton :=
  if keyTemp = 0 then []
  else (mappedKeys (config.getMapKeyValue (toString keyTemp)).1).filterMap MouseButton.ofKey

/-- What a message asks of the mouse. -/
def GamepadFields.mouseActions (f : GamepadFields) (config : KeyMapper) : List MouseAction :=
  if f.ud = 1 then (mappedButtons config f.keyTemp).map .press
  else if f.ud = 2 then (mappedButtons config f.keyTemp).map .release
  else if f.ud = 4 then [.move]
  else []

/-- The call that a message makes of the mapper. -/
def GamepadFields.perform (f : GamepadFields) (config : KeyMapper) : KeyMapper :=
  if f.ud = 1 then if f.keyTemp ≠ 0 then config.keyDown_C f.keyTemp else config
  else if f.ud = 2 then if f.keyTemp ≠ 0 then config.keyUP_C f.keyTemp else config
  else if f.ud = 4 then
    config.mouseMove_C (truncate (convertMouse f.z)) (truncate (convertMouse f.rz)) 0
  else config

/-- The keyboard thread, and what the messages have asked of the mouse. -/
structure Gamepad where
  keyBoard : KeyBoardThread
  actions : List MouseAction

namespace Gamepad

/-- A mapper with the three tables is set. -/
def start (keyBoard : KeyBoardThread) (codePage : CodePage)
    (nameKeyTable defaultKeyBoard gameKeyBoard : DealIniFile) : Gamepad where
  keyBoard := { keyBoard with
    keyBoardConfig := some (.new codePage nameKeyTable defaultKeyBoard gameKeyBoard) }
  actions := []

/-- The actions that a message asks for; without a mapper it asks for none. -/
def asked (s : Gamepad) (root : Value) : List MouseAction :=
  match readGamepad root, s.keyBoard.keyBoardConfig with
  | .ok f, some config => f.mouseActions config
  | _, _ => []

/-- A message with mode 1; an exception ends the run. -/
def step (s : Gamepad) (root : Value) : Option Gamepad :=
  if readInt root "mode" = .ok 1 then
    match dealTheNormalKeyboardModel root s.keyBoard with
    | .ok (keyBoard, _) => some ⟨keyBoard, s.actions ++ s.asked root⟩
    | .error _ => none
  else none

/-- What has been handed to the queue. -/
def queue (s : Gamepad) : List DriverCall := s.keyBoard.keyBoardConfig.elim [] KeyMapper.queue

end Gamepad

-- ---------------------------------------------------------------------------
-- What is sent
-- ---------------------------------------------------------------------------

section

variable {before actions : List MouseAction} {action : MouseAction}

theorem buttonBytes_append (calls calls' : List DriverCall) :
    buttonBytes (calls ++ calls') = buttonBytes calls ++ buttonBytes calls' := by
  unfold buttonBytes
  rw [List.filterMap_append, List.map_append]

/-- A key stands for no button, or for the one whose bit is the byte of its code. -/
theorem ofKey_cases (key : Int) :
    (MouseButton.ofKey key = none ∧ isMouseKey key = false) ∨
      ∃ button, MouseButton.ofKey key = some button ∧ isMouseKey key = true ∧
        Hid.mouseButtons key = button.bit := by
  by_cases h₁ : key = 1
  · rw [h₁]
    exact Or.inr ⟨.button1, rfl, rfl, rfl⟩
  by_cases h₂ : key = 2
  · rw [h₂]
    exact Or.inr ⟨.button2, rfl, rfl, rfl⟩
  by_cases h₃ : key = 3
  · rw [h₃]
    exact Or.inr ⟨.button3, rfl, rfl, rfl⟩
  exact Or.inl (by simp [MouseButton.ofKey, isMouseKey, h₁, h₂, h₃])

/-- The press of a key sends the bit of its button. -/
theorem mouseReport_pressAction (key : Int) :
    (pressAction key).mouseReport.map ControlInfoMouse.buttons =
      (MouseButton.ofKey key).map MouseButton.bit := by
  unfold pressAction
  rcases ofKey_cases key with ⟨hOf, hMouse⟩ | ⟨button, hOf, hMouse, hBit⟩
  · rw [hOf, hMouse]
    rfl
  · rw [hOf, hMouse]
    exact congrArg some hBit

/-- The release of a key sends no bit. -/
theorem mouseReport_releaseAction (key : Int) :
    (releaseAction key).mouseReport.map ControlInfoMouse.buttons =
      (MouseButton.ofKey key).map fun _ => 0 := by
  unfold releaseAction
  rcases ofKey_cases key with ⟨hOf, hMouse⟩ | ⟨button, hOf, hMouse, -⟩ <;> rw [hOf, hMouse] <;> rfl

/-- The bytes of a key's actions, by its mouse buttons. -/
theorem buttonBytes_keys {toCall : Int → DriverCall} {toByte : MouseButton → UInt8}
    (h : ∀ key, (toCall key).mouseReport.map ControlInfoMouse.buttons =
      (MouseButton.ofKey key).map toByte) (keys : List Int) :
    buttonBytes (keys.map toCall) = (keys.filterMap MouseButton.ofKey).map toByte := by
  unfold buttonBytes
  rw [List.filterMap_map, List.map_filterMap, List.map_filterMap]
  exact List.filterMap_congr fun key _ => h key

/-- A key call adds the bytes of the buttons that the key is mapped to. -/
theorem buttonBytes_keyAction_C (config : KeyMapper) {toCall : Int → DriverCall}
    {toByte : MouseButton → UInt8}
    (h : ∀ key, (toCall key).mouseReport.map ControlInfoMouse.buttons =
      (MouseButton.ofKey key).map toByte) {keyTemp : Int} (hKey : keyTemp ≠ 0) :
    buttonBytes (config.keyAction_C toCall keyTemp).queue =
      buttonBytes config.queue ++ (mappedButtons config keyTemp).map toByte := by
  have hQueue : (config.getMapKeyValue (toString keyTemp)).2.queue = config.queue := by
    rcases getMapKeyValue_snd config (toString keyTemp) with hSame | ⟨value, hSet⟩
    · rw [hSame]
    · rw [hSet]
      rfl
  rw [keyAction_C_eq]
  show buttonBytes ((config.getMapKeyValue (toString keyTemp)).2.queue ++ _) = _
  rw [hQueue, buttonBytes_append, buttonBytes_keys h, mappedButtons, if_neg hKey]

namespace Gamepad

/-- A message that can be read makes its call of the mapper. -/
theorem gamepadMessage_eq {root : Value} {st : KeyBoardThread} {f : GamepadFields}
    {config : KeyMapper} (hRead : readGamepad root = .ok f)
    (hConfig : st.keyBoardConfig = some config) :
    gamepadMessage root st = .ok ({ st with keyBoardConfig := some (f.perform config) }, []) := by
  have hSame : st = { st with keyBoardConfig := some config } := by rw [← hConfig]
  unfold gamepadMessage GamepadFields.perform
  rw [hRead, hConfig]
  simp only [ofJson_ok]
  show (if f.ud = 1 then _ else _) = _
  split
  · rfl
  · split
    · rfl
    · split
      · rfl
      · exact congrArg (fun st => Except.ok (st, [])) hSame

/-- What a message does: nothing without a mapper, or else what its `ud` says. -/
theorem step_cases {s s' : Gamepad} {root : Value} (hStep : s.step root = some s') :
    s' = s ∨ ∃ (f : GamepadFields) (config : KeyMapper), s.keyBoard.keyBoardConfig = some config ∧
      s' = ⟨{ s.keyBoard with keyBoardConfig := some (f.perform config) },
        s.actions ++ f.mouseActions config⟩ := by
  unfold step at hStep
  split at hStep
  case isFalse => cases hStep
  rename_i hMode
  have hDeal : dealTheNormalKeyboardModel root s.keyBoard = gamepadMessage root s.keyBoard := by
    unfold dealTheNormalKeyboardModel
    rw [hMode]
    rfl
  rw [hDeal] at hStep
  cases hRead : readGamepad root with
  | error e =>
    unfold gamepadMessage at hStep
    rw [hRead] at hStep
    cases hStep
  | ok f =>
    unfold asked at hStep
    cases hConfig : s.keyBoard.keyBoardConfig with
    | none =>
      unfold gamepadMessage at hStep
      rw [hRead, hConfig] at hStep
      obtain rfl := Option.some.inj hStep
      exact Or.inl (by simp)
    | some config =>
      rw [gamepadMessage_eq hRead hConfig, hRead, hConfig] at hStep
      exact Or.inr ⟨f, config, rfl, (Option.some.inj hStep).symm⟩

/-- The bytes of the call that a message makes. -/
theorem buttonBytes_perform (f : GamepadFields) (config : KeyMapper) :
    buttonBytes (f.perform config).queue =
      buttonBytes config.queue ++ (f.mouseActions config).map MouseAction.sentByte := by
  have hNoKey : f.keyTemp = 0 → mappedButtons config f.keyTemp = [] := fun hZero =>
    if_pos hZero
  unfold GamepadFields.perform GamepadFields.mouseActions
  split
  · split
    · rename_i hKey
      rw [keyDown_C_eq, buttonBytes_keyAction_C config mouseReport_pressAction hKey, List.map_map]
      rfl
    · rename_i hKey
      rw [hNoKey (not_not.mp hKey)]
      exact (List.append_nil _).symm
  · split
    · split
      · rename_i hKey
        rw [keyUP_C_eq, buttonBytes_keyAction_C config mouseReport_releaseAction hKey, List.map_map]
        rfl
      · rename_i hKey
        rw [hNoKey (not_not.mp hKey)]
        exact (List.append_nil _).symm
    · split
      · exact buttonBytes_append config.queue _
      · exact (List.append_nil _).symm

/-- The bytes that are sent, by what the messages ask for. -/
theorem buttonBytes_run {keyBoard : KeyBoardThread} {codePage : CodePage}
    {nameKeyTable defaultKeyBoard gameKeyBoard : DealIniFile} {roots : List Value} {s : Gamepad}
    (hRun : Machine.run step (start keyBoard codePage nameKeyTable defaultKeyBoard gameKeyBoard)
      roots = some s) :
    buttonBytes s.queue = s.actions.map MouseAction.sentByte := by
  refine Machine.inv_run (I := fun s => buttonBytes s.queue = s.actions.map MouseAction.sentByte)
    (fun s root s' h hStep => ?_) rfl hRun
  rcases step_cases hStep with rfl | ⟨f, config, hConfig, rfl⟩
  · exact h
  · unfold queue at h
    rw [hConfig] at h
    rw [List.map_append, ← h]
    exact buttonBytes_perform f config

end Gamepad

-- ---------------------------------------------------------------------------
-- What is held
-- ---------------------------------------------------------------------------

theorem heldButtons_snoc (before : List MouseAction) (action : MouseAction) :
    heldButtons (before ++ [action]) = match action.stroke with
      | some s => Strokes.after (heldButtons before) s
      | none => heldButtons before := by
  unfold heldButtons
  rw [List.filterMap_append]
  cases action with
  | press button | release button => exact Strokes.down_snoc _ _
  | move => exact congrArg down (List.append_nil _)

/-- Each button has a bit, and no two the same. -/
theorem distinct_bit : Flags.Distinct MouseButton.bit fun _ => True where
  ne_zero button _ := by cases button <;> decide
  disjoint button button' _ _ := by cases button <;> cases button' <;> decide

/-- The bits of a list show the buttons that are held just when they are those of
the list. -/
theorem union_eq_held_iff {buttons : List MouseButton} (h : buttons.Nodup)
    (actions : List MouseAction) :
    Flags.union MouseButton.bit buttons = Flags.union MouseButton.bit (heldButtons actions) ↔
      ∀ button, button ∈ buttons ↔ button ∈ heldButtons actions :=
  distinct_bit.union_eq_iff (fun _ _ => trivial) (fun _ _ => trivial) h (Strokes.nodup_down _)

/-- The byte of an action shows the buttons that are held just when no other button
than its own was held before. -/
theorem sentByte_eq_iff :
    action.sentByte = Flags.union MouseButton.bit (heldButtons (before ++ [action])) ↔
      ∀ button ∈ heldButtons before, action.button = some button := by
  cases action with
  | press button =>
    have hByte : MouseAction.sentByte (.press button) = Flags.union MouseButton.bit [button] :=
      UInt8.or_zero.symm
    rw [hByte, union_eq_held_iff (List.nodup_singleton button), heldButtons_snoc]
    refine forall_congr' fun other => ?_
    show (other ∈ [button] ↔ other ∈ Strokes.after (heldButtons before) (.press button)) ↔
      (other ∈ heldButtons before → some button = some other)
    rw [List.mem_singleton, Strokes.mem_after_press, Option.some.injEq, eq_comm (a := button)]
    exact iff_comm.trans or_iff_right_iff_imp
  | release button =>
    have hByte : MouseAction.sentByte (.release button) = Flags.union MouseButton.bit [] := rfl
    rw [hByte, union_eq_held_iff List.nodup_nil, heldButtons_snoc]
    refine forall_congr' fun other => ?_
    show (other ∈ [] ↔ other ∈ Strokes.after (heldButtons before) (.release button)) ↔
      (other ∈ heldButtons before → some button = some other)
    rw [Strokes.mem_after_release, Option.some.injEq, eq_comm (a := button)]
    simp only [List.not_mem_nil, false_iff, not_and, not_not]
  | move =>
    have hByte : MouseAction.sentByte .move = Flags.union MouseButton.bit [] := rfl
    rw [hByte, union_eq_held_iff List.nodup_nil, heldButtons_snoc]
    refine forall_congr' fun other => ?_
    show (other ∈ [] ↔ other ∈ heldButtons before) ↔
      (other ∈ heldButtons before → none = some other)
    simp only [List.not_mem_nil, false_iff, reduceCtorEq, imp_false]

/-- The same for each action of a list. -/
theorem sentBytes_eq_iff : ∀ before actions : List MouseAction,
    actions.map MouseAction.sentByte = heldBytes before actions ↔ OneButton before actions := by
  intro before actions
  induction actions generalizing before with
  | nil => exact iff_of_true rfl trivial
  | cons action rest ih =>
    rw [List.map_cons, heldBytes, List.cons.injEq, sentByte_eq_iff, ih, OneButton]

end

namespace Gamepad

/--
**Mouse buttons.** Once the queue has drained, the `buttons` byte of each mouse
report is the bitwise or of the bits of the buttons that are held at that point,
just when no button is pressed or released while another one is held, and the
mouse is not moved while one is.
-/
theorem mouse_buttons_iff {keyBoard : KeyBoardThread} {codePage : CodePage}
    {nameKeyTable defaultKeyBoard gameKeyBoard : DealIniFile} {roots : List Value} {s : Gamepad}
    (hRun : Machine.run step (start keyBoard codePage nameKeyTable defaultKeyBoard gameKeyBoard)
      roots = some s) :
    (∀ executed, Consumer.Drained s.queue executed →
        buttonBytes executed = heldBytes [] s.actions) ↔
      OneButton [] s.actions := by
  simp only [Consumer.drained_iff, forall_eq, buttonBytes_run hRun]
  exact sentBytes_eq_iff [] s.actions

/-- A message with a key, and one that moves the stick. -/
def keyMessage (ud : Int) (key : String) : Value :=
  .obj [("mode", .int 1), ("ud", .int ud), ("key", .obj [("key", .str key)])]

def stickMessage (z rz : Int) : Value :=
  .obj [("mode", .int 1), ("ud", .int 4), ("key", .obj [("z", .int z), ("rz", .int rz)])]

/-- The key 102 is mapped to button 1, and the key 103 to button 2 and the key 65. -/
def twoKeys : Gamepad :=
  start ⟨none, none, false, none, 0⟩ .utf8
    (some ⟨[("KeyboardMapValue", [("102", "A"), ("103", "B")])]⟩)
    (some ⟨[("KeyboardMapValue", [("A", "1"), ("B", "2:65")])]⟩) none

/-- One button after the other, and then the stick. -/
def oneByOne : List Value :=
  [keyMessage 1 "102", keyMessage 2 "102", keyMessage 1 "103", keyMessage 2 "103",
    stickMessage 1 0]

theorem mouse_buttons_one_by_one : ∃ s, Machine.run step twoKeys oneByOne = some s ∧
    ∀ executed, Consumer.Drained s.queue executed →
      buttonBytes executed = heldBytes [] s.actions := by
  obtain ⟨s, hRun, hActions⟩ : ∃ s, Machine.run step twoKeys oneByOne = some s ∧
      s.actions = [.press .button1, .release .button1, .press .button2, .release .button2, .move] :=
    ⟨_, rfl, rfl⟩
  refine ⟨s, hRun, (mouse_buttons_iff hRun).mpr ?_⟩
  rw [hActions]
  decide

/-- The stick is moved while button 1 is held: the report says that it is not. -/
theorem stick_drops_button : ¬ ∀ roots s, Machine.run step twoKeys roots = some s →
    ∀ executed, Consumer.Drained s.queue executed →
      buttonBytes executed = heldBytes [] s.actions := by
  intro h
  obtain ⟨s, hRun, hActions⟩ : ∃ s,
      Machine.run step twoKeys [keyMessage 1 "102", stickMessage 1 0] = some s ∧
        s.actions = [.press .button1, .move] :=
    ⟨_, rfl, rfl⟩
  have hBytes := h _ s hRun s.queue (Consumer.drained_iff.mpr rfl)
  rw [buttonBytes_run hRun, hActions] at hBytes
  revert hBytes
  decide

end Gamepad

end PushStreamer
