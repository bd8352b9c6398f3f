import PushStreamer.Input.Mouse
import PushStreamer.Lib.Scale

/-!
# Axes and mouse positions

In mode 1 the axes of a joystick message and the stick of a gamepad message are
clamped to `-1 .. 1` and scaled to `0 .. 32737`. Axes are rounded to the nearest
number, mouse positions lose their fraction. The driver documents `0 .. 32737`
for an axis, but `1 .. 32767` for a position.

* `axes_scaled` — what the driver gets for the axes of a message.
* `stick_on_screen_iff` — when the stick moves the mouse as documented.
-/

namespace PushStreamer

open KeyMapper
open Scale (clamp scale)

-- ---------------------------------------------------------------------------
-- The helpers are a scaling
-- ---------------------------------------------------------------------------

/-- The two tests of `GetPercentInRange` clamp the value. -/
theorem clamp_eq (left right value : ℚ) (hLt : left ≤ right) :
    (let value := if value < left then left else value
     if value > right then right else value) = clamp left right value := by
  unfold clamp
  dsimp only
  split_ifs with hLow hHigh hHigh
  · exact absurd hLt (not_le.mpr hHigh)
  · rw [max_eq_left ((min_le_left _ _).trans hLow.le)]
  · rw [min_eq_right hHigh.le, max_eq_right hLt]
  · rw [min_eq_left (not_lt.mp hHigh), max_eq_right (not_lt.mp hLow)]

/-- The part of the range, scaled. -/
theorem getPercentInRange_eq (value : ℚ) :
    getPercentInRange value (-1) 1 * 32737 = scale (-1) 1 32737 value := by
  have hClamp := clamp_eq (-1) 1 value (by norm_num)
  rw [scale, ← hClamp]
  rfl

theorem convertMouse_eq (z : ℚ) : convertMouse z = scale (-1) 1 32737 z := getPercentInRange_eq z

/-- A number that is not negative is rounded down. -/
theorem truncate_of_nonneg {q : ℚ} (h : 0 ≤ q) : truncate q = ⌊q⌋ := if_pos h

@[simp] theorem truncate_intCast (n : ℤ) : truncate n = n := by
  unfold truncate
  split
  · exact Int.floor_intCast n
  · exact Int.ceil_intCast n

/-- From 0 on, `GetIntegerFromFloat` goes to the nearest number, and up from the
middle between two. -/
theorem getIntegerFromFloat_eq {value : ℚ} (h : 0 ≤ value) :
    getIntegerFromFloat value = (round value : ℤ) := by
  have hFloor : (⌊value⌋ : ℚ) ≤ value := Int.floor_le value
  have hNext : value < ⌊value⌋ + 1 := Int.lt_floor_add_one value
  unfold getIntegerFromFloat
  rw [truncate_of_nonneg h]
  dsimp only
  split
  · -- the part behind the point decides, as in `round`
    rename_i hHalf
    have hRound : round value = ⌊value⌋ + 1 := by
      rw [round_eq_iff, Set.mem_Ico]
      push_cast
      constructor <;> linarith
    rw [hRound]
    push_cast
    rfl
  · rename_i hHalf
    have hRound : round value = ⌊value⌋ := by
      rw [round_eq_iff, Set.mem_Ico]
      constructor <;> linarith
    rw [hRound]

-- ---------------------------------------------------------------------------
-- Axes
-- ---------------------------------------------------------------------------

/-- What the driver gets for an axis of a message with mode 1. -/
def scaledAxis (v : ℚ) : ℤ := truncate (joystickParseMode 1 v)

/-- An axis is scaled and rounded to the nearest. -/
theorem scaledAxis_eq (v : ℚ) : scaledAxis v = round (scale (-1) 1 32737 v) := by
  have hNonneg : 0 ≤ scale (-1) 1 32737 v := Scale.scale_nonneg (by norm_num) (by norm_num)
  rw [scaledAxis, joystickParseMode, if_pos rfl, getPercentInRange_eq,
    getIntegerFromFloat_eq hNonneg, truncate_intCast]

/-- The scaling that `JoystickCtrl` documents: the number nearest to the place of
the axis in its range, halves rounded up. -/
structure ScaledCorrectly (axis : ℚ → ℤ) : Prop where
  nearest : ∀ v, axis v = round (32737 * (max (-1) (min v 1) + 1) / 2)
  range : ∀ v, 0 ≤ axis v ∧ axis v ≤ 32737
  mono : Monotone axis
  low : ∀ v ≤ -1, axis v = 0
  high : ∀ v ≥ 1, axis v = 32737

/-- An axis is scaled within its range, in order, and with the right ends. -/
theorem scaledAxis_correct : ScaledCorrectly scaledAxis := by
  have hRounds : Scale.Rounds (round : ℚ → ℤ) 32737 32737 := Scale.rounds_round 32737
  have hLt : (-1 : ℚ) < 1 := by norm_num
  have hRange : (0 : ℚ) ≤ 32737 := by norm_num
  constructor
  case nearest =>
    intro v
    rw [scaledAxis_eq, scale, clamp]
    congr 1
    ring
  case range =>
    intro v
    rw [scaledAxis_eq]
    exact hRounds.between hLt hRange
  case mono =>
    intro v w h
    rw [scaledAxis_eq, scaledAxis_eq]
    exact hRounds.scaled_mono hLt hRange h
  case low =>
    intro v h
    rw [scaledAxis_eq]
    exact hRounds.low h
  case high =>
    intro v h
    rw [scaledAxis_eq]
    exact hRounds.high hLt h

/-- **Axes of mode 1.** The driver gets the six axes of a message as scaled. -/
theorem axes_scaled {root : Value} {f : JoystickFields} {stale : Stale} {args : JoystickArgs}
    (hRead : readJoystick root = .ok (some f)) (hMode : f.mode = 1)
    (hCall : dealTheJoystick root stale = .ok [.joystickCtrl args]) :
    [args.x, args.y, args.z, args.rX, args.rY, args.rZ] =
        [f.x, f.y, f.z, f.rX, f.rY, f.rZ].map scaledAxis ∧
      ScaledCorrectly scaledAxis := by
  refine ⟨?_, scaledAxis_correct⟩
  obtain ⟨btn, -, -, hCalls⟩ := (dealTheJoystick_eq_ok hRead).mp hCall
  cases hCalls
  simp only [joystickArgs, hMode]
  rfl

/-- Axes within, at and beyond the ends. -/
def axesMessage : Value := .obj [("mode", .int 1), ("key", .obj [("x", .real (1 / 2)),
  ("y", .real (-1)), ("z", .real 5), ("buttons", .str "1")])]

/-- The six axes of a message. -/
theorem axes_scaled_ends :
    ∃ args, dealTheJoystick axesMessage ⟨0, Vector.replicate 16 0⟩ = .ok [.joystickCtrl args] ∧
      [args.x, args.y, args.z, args.rX, args.rY, args.rZ] =
        [1 / 2, -1, 5, 0, 0, 0].map scaledAxis ∧
      ScaledCorrectly scaledAxis := by
  obtain ⟨args, hCall⟩ : ∃ args,
      dealTheJoystick axesMessage ⟨0, Vector.replicate 16 0⟩ = .ok [.joystickCtrl args] := ⟨_, rfl⟩
  have hRead : readJoystick axesMessage =
      .ok (some ⟨1 / 2, -1, 5, 0, 0, 0, 0, 0, 0, 0, "1", 1⟩) := rfl
  have hScaled := axes_scaled hRead rfl hCall
  exact ⟨args, hCall, hScaled⟩

-- ---------------------------------------------------------------------------
-- Mouse positions
-- ---------------------------------------------------------------------------

/-- The coordinate that `MouseMove_C` gets for a position of the stick. -/
def mouseCoordinate (z : ℚ) : ℤ := truncate (convertMouse z)

/-- A coordinate is scaled and rounded down. -/
theorem mouseCoordinate_eq (z : ℚ) : mouseCoordinate z = ⌊scale (-1) 1 32737 z⌋ := by
  have hNonneg : 0 ≤ scale (-1) 1 32737 z := Scale.scale_nonneg (by norm_num) (by norm_num)
  rw [mouseCoordinate, convertMouse_eq, truncate_of_nonneg hNonneg]

/-- The coordinate of a screen that `MouseMove` documents: from 1 to 32767, the
ends of the stick at the ends. -/
structure OnScreen (z : ℚ) (coordinate : ℤ) : Prop where
  least : 1 ≤ coordinate
  most : coordinate ≤ 32767
  low : z = -1 → coordinate = 1
  high : z = 1 → coordinate = 32767

/-- A larger coordinate is scaled to no smaller one. -/
theorem mouseCoordinate_mono : Monotone mouseCoordinate := by
  intro z w h
  rw [mouseCoordinate_eq, mouseCoordinate_eq]
  exact (Scale.rounds_floor 32737).scaled_mono (by norm_num) (by norm_num) h

/-- A coordinate is as documented just when the stick is not so near its lower
end that the fraction hides it, nor exactly at the upper. -/
theorem onScreen_iff (z : ℚ) : OnScreen z (mouseCoordinate z) ↔ 2 / 32737 - 1 ≤ z ∧ z ≠ 1 := by
  have hRounds : Scale.Rounds (fun v : ℚ => ⌊v⌋) (32737 : ℕ) 32737 := Scale.rounds_floor 32737
  have hMost : mouseCoordinate z ≤ 32737 := by
    rw [mouseCoordinate_eq]
    exact (hRounds.between (by norm_num) (by norm_num)).2
  have hLeast : 1 ≤ mouseCoordinate z ↔ 2 / 32737 - 1 ≤ z := by
    have hPlace : (-1 : ℚ) + 1 / 32737 * (1 - -1) = 2 / 32737 - 1 := by norm_num
    rw [mouseCoordinate_eq, Int.le_floor, Int.cast_one,
      Scale.le_scale_iff (by norm_num) one_pos (by norm_num), hPlace]
  constructor
  · intro h
    refine ⟨hLeast.mp h.least, fun hEnd => ?_⟩
    have hHigh := h.high hEnd
    omega
  · rintro ⟨hLow, hEnd⟩
    constructor
    case least => exact hLeast.mpr hLow
    case most => omega
    case low =>
      rintro rfl
      norm_num at hLow
    case high => exact fun h => absurd h hEnd

/-- The move that a message hands to the queue is on the screen. -/
def MovesOnScreen (root : Value) (st : KeyBoardThread) (f : GamepadFields) (config : KeyMapper) :
    Prop :=
  ∃ x y, dealTheNormalKeyboardModel root st = .ok
      ({ st with keyBoardConfig := some (config.addKeyValueToThread (.mouseMove x y 0)) }, []) ∧
    OnScreen f.z x ∧ OnScreen f.rz y

/-- **Stick moves on the screen.** The coordinates grow with the stick; they are
as documented just when neither axis is below `2 / 32737 - 1` or exactly 1. -/
theorem stick_on_screen_iff {root : Value} {st : KeyBoardThread} {f : GamepadFields}
    {config : KeyMapper} (hMode : readInt root "mode" = .ok 1)
    (hRead : readGamepad root = .ok f) (hUd : f.ud = 4)
    (hConfig : st.keyBoardConfig = some config) :
    Monotone mouseCoordinate ∧
      (MovesOnScreen root st f config ↔
        (2 / 32737 - 1 ≤ f.z ∧ f.z ≠ 1) ∧ (2 / 32737 - 1 ≤ f.rz ∧ f.rz ≠ 1)) := by
  refine ⟨mouseCoordinate_mono, ?_⟩
  have hMove : f.perform config = config.addKeyValueToThread
      (.mouseMove (mouseCoordinate f.z) (mouseCoordinate f.rz) 0) := by
    rw [GamepadFields.perform, hUd]
    rfl
  have hDeal : dealTheNormalKeyboardModel root st =
      .ok ({ st with keyBoardConfig := some (f.perform config) }, []) := by
    unfold dealTheNormalKeyboardModel
    rw [hMode]
    exact Gamepad.gamepadMessage_eq hRead hConfig
  rw [hMove] at hDeal
  rw [← onScreen_iff, ← onScreen_iff]
  constructor
  · -- the stick queues one call, so that its coordinates are those of the mouse
    rintro ⟨x, y, hQueued, hX, hY⟩
    rw [hDeal] at hQueued
    have hQueue : config.queue ++ [.mouseMove (mouseCoordinate f.z) (mouseCoordinate f.rz) 0] =
        config.queue ++ [.mouseMove x y 0] := by
      have hSame := congrArg KeyBoardThread.keyBoardConfig (Prod.mk.inj (Except.ok.inj hQueued)).1
      exact congrArg KeyMapper.queue (Option.some.inj hSame)
    obtain ⟨hFirst, hSecond, -⟩ :=
      DriverCall.mouseMove.inj (List.singleton_inj.mp (List.append_cancel_left hQueue))
    rw [hFirst, hSecond]
    exact ⟨hX, hY⟩
  · rintro ⟨hX, hY⟩
    exact ⟨_, _, hDeal, hX, hY⟩

/-- A mapper without tables, and a thread that has it. -/
def bareMapper : KeyMapper := .new .utf8 none none none

def bareThread : KeyBoardThread := ⟨none, none, false, some bareMapper, 0⟩

/-- A stick at the point `(z, rz)`. -/
def stickFields (z rz : ℤ) : GamepadFields := ⟨4, 0, 0, z, rz, "", 0⟩

theorem readGamepad_stickMessage (z rz : ℤ) :
    readGamepad (Gamepad.stickMessage z rz) = .ok (stickFields z rz) := rfl

/-- A stick at rest moves the mouse to the middle of its screen. -/
theorem stick_on_screen_at_rest :
    MovesOnScreen (Gamepad.stickMessage 0 0) bareThread (stickFields 0 0) bareMapper := by
  refine (stick_on_screen_iff rfl (readGamepad_stickMessage 0 0) rfl rfl).2.mpr ?_
  norm_num [stickFields]

/-- The ends of the stick are moved to 0 and 32737. -/
theorem stick_misses_ends :
    ¬ MovesOnScreen (Gamepad.stickMessage (-1) 1) bareThread (stickFields (-1) 1) bareMapper := by
  rintro ⟨x, y, hQueued, hX, -⟩
  have hEnd : x = mouseCoordinate (-1) := by
    cases hQueued
    norm_num [mouseCoordinate, stickFields]
  have hLeast : 2 / 32737 - 1 ≤ (-1 : ℚ) := by
    rw [hEnd] at hX
    have hOn : OnScreen (-1) (mouseCoordinate (-1)) := by
      norm_num [stickFields] at hX
      exact hX
    exact ((onScreen_iff (-1)).mp hOn).1
  norm_num at hLeast

end PushStreamer
