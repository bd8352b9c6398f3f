import PushStreamer.Input.Buttons
import Mathlib.Algebra.Order.Floor.Ring
import Mathlib.Data.Rat.Floor

/-!
# Joystick messages

`DealTheJoystick` reads the axes, the hat and the buttons of a joystick message
and makes one `JoystickCtrl` call. Axes are exact rational numbers here. The
local hat byte and the button array are not initialized by the source: their
first contents are a parameter (`Stale`). Before the call a line goes to the log
of the user interface, with the button array as a text, although nothing ends
it.

* `dealTheJoystick_eq_ok` — the call made for a message that can be read.
* `joystick_buttons_shown_iff` — when the array of that call shows the buttons
  of the message.
-/

namespace PushStreamer

/-- What stands in the memory of `hatByte` and `btn` before they are written. -/
structure Stale where
  hatByte : UInt8
  btn : Buttons

/-- The members of a joystick message, with the defaults of `DealTheJoystick`. -/
structure JoystickFields where
  x : ℚ
  y : ℚ
  z : ℚ
  rX : ℚ
  rY : ℚ
  rZ : ℚ
  slider : Int
  dial : Int
  wheel : Int
  hat : Int
  buttons : String
  mode : Int

/-- The part of `DealTheJoystick` that reads the message; `none` when it has no
object to read. -/
def readJoystick (root : Value) : Except JsonFailure (Option JoystickFields) := do
  if ← root.isMember "key" then
    if (← root.index "key").empty then pure none
    else
      let keyValue ← root.index "key"
      if keyValue.isObject then
        let x ← keyValue.memberOr "x" Value.asDouble 0
        let y ← keyValue.memberOr "y" Value.asDouble 0
        let z ← keyValue.memberOr "z" Value.asDouble 0
        let rX ← keyValue.memberOr "rx" Value.asDouble 0
        let rY ← keyValue.memberOr "ry" Value.asDouble 0
        let rZ ← keyValue.memberOr "rz" Value.asDouble 0
        let slider ← keyValue.memberOr "slider" Value.asInt 0
        let dial ← keyValue.memberOr "dial" Value.asInt 0
        let wheel ← keyValue.memberOr "wheel" Value.asInt 0
        let hat ← keyValue.memberOr "hat" Value.asInt 0
        let buttons ← keyValue.memberOr "buttons" Value.asString ""
        let mode ← root.memberOr "mode" Value.asInt 0
        pure (some { x, y, z, rX, rY, rZ, slider, dial, wheel, hat, buttons, mode })
      else pure none
  else pure none

/-- `GetPercentInRange`. -/
def getPercentInRange (value left right : ℚ) : ℚ :=
  let value := if value < left then left else value
  let value := if value > right then right else value
  (value - left) / (right - left)

/-- `GetIntegerFromFloat`: `modf`, and one more when the fraction is at least a
half. -/
def getIntegerFromFloat (value : ℚ) : ℚ :=
  let integer : ℚ := truncate value
  let decimal := value - integer
  if 0 ≤ decimal - 1 / 2 then integer + 1 else integer

/-- `JoystickParseMode` for one axis: mode 1 scales it, other modes leave it. -/
def joystickParseMode (mode : Int) (axis : ℚ) : ℚ :=
  if mode = 1 then getIntegerFromFloat (getPercentInRange axis (-1) 1 * 32737) else axis

/-- The arguments of `JoystickCtrl`. `hat` is read, but the call that would
convert it is commented out. -/
def joystickArgs (f : JoystickFields) (hatByte : UInt8) (btn : Buttons) : JoystickArgs where
  x := truncate (joystickParseMode f.mode f.x)
  y := truncate (joystickParseMode f.mode f.y)
  z := truncate (joystickParseMode f.mode f.z)
  rX := truncate (joystickParseMode f.mode f.rX)
  rY := truncate (joystickParseMode f.mode f.rY)
  rZ := truncate (joystickParseMode f.mode f.rZ)
  slider := f.slider
  dial := f.dial
  wheel := f.wheel
  hat := hatByte
  buttons := btn

/-- `DealTheJoystick`: the driver calls it makes. Of the line of `RecordSignal`
only the text `(char*)btn` is kept, which can run past the array. -/
def dealTheJoystick (root : Value) (stale : Stale) : Except Fault (List DriverCall) := do
  match ← ofJson (readJoystick root) with
  | none => pure []
  | some f =>
    let btn ← convertTwice f.buttons stale.btn
    let _ ← charText btn
    pure [.joystickCtrl (joystickArgs f stale.hatByte btn)]

/-- What was read: nothing without an object that has members, else its fields. -/
theorem readJoystick_cases {root : Value} {ms : List (String × Value)}
    (hMs : root.members = .ok ms) {r : Option JoystickFields} (h : readJoystick root = .ok r) :
    (r = none ∧ ∀ ks, Value.member ms "key" = .obj ks → ks = []) ∨
      ∃ f ks, r = some f ∧ Value.member ms "key" = .obj ks ∧ ks ≠ [] ∧
        (Value.obj ks).memberOr "hat" Value.asInt 0 = .ok f.hat ∧
        (Value.obj ks).memberOr "buttons" Value.asString "" = .ok f.buttons := by
  unfold readJoystick at h
  rw [Value.isMember_of_members hMs, Value.index_of_members hMs] at h
  obtain ⟨_, hMember, h⟩ := bind_eq_ok.mp h
  obtain rfl := Except.ok.inj hMember
  cases hKey : ms.lookup "key" with
  | none =>
    rw [hKey] at h
    refine Or.inl ⟨(Except.ok.inj h).symm, fun ks hObj => ?_⟩
    rw [Value.member, hKey] at hObj
    cases hObj
  | some v =>
    have hV : Value.member ms "key" = v := by
      rw [Value.member, hKey]
      rfl
    rw [hKey, hV, Option.isSome_some, if_pos rfl] at h
    obtain ⟨_, hIndex, h⟩ := bind_eq_ok.mp h
    obtain rfl := Except.ok.inj hIndex
    rw [hV]
    -- an empty value and one that is no object make no call
    by_cases hEmpty : v.empty = true
    · rw [hEmpty, if_pos rfl] at h
      refine Or.inl ⟨(Except.ok.inj h).symm, ?_⟩
      rintro ks rfl
      simpa [Value.empty] using hEmpty
    rw [if_neg hEmpty] at h
    obtain ⟨_, hIndex, h⟩ := bind_eq_ok.mp h
    obtain rfl := Except.ok.inj hIndex
    by_cases hObj : v.isObject = true
    · obtain ⟨ks, rfl⟩ : ∃ ks, v = .obj ks := by
        cases v with
        | null => exact absurd rfl hEmpty
        | obj ks => exact ⟨ks, rfl⟩
        | _ => cases hObj
      have hNe : ks ≠ [] := by
        rintro rfl
        exact hEmpty rfl
      rw [if_pos hObj] at h
      -- of the members that are read the hat and the buttons are kept
      obtain ⟨x, -, h⟩ := bind_eq_ok.mp h
      obtain ⟨y, -, h⟩ := bind_eq_ok.mp h
      obtain ⟨z, -, h⟩ := bind_eq_ok.mp h
      obtain ⟨rX, -, h⟩ := bind_eq_ok.mp h
      obtain ⟨rY, -, h⟩ := bind_eq_ok.mp h
      obtain ⟨rZ, -, h⟩ := bind_eq_ok.mp h
      obtain ⟨slider, -, h⟩ := bind_eq_ok.mp h
      obtain ⟨dial, -, h⟩ := bind_eq_ok.mp h
      obtain ⟨wheel, -, h⟩ := bind_eq_ok.mp h
      obtain ⟨hat, hHat, h⟩ := bind_eq_ok.mp h
      obtain ⟨buttons, hButtons, h⟩ := bind_eq_ok.mp h
      obtain ⟨mode, -, h⟩ := bind_eq_ok.mp h
      exact Or.inr ⟨_, ks, (Except.ok.inj h).symm, rfl, hNe, hHat, hButtons⟩
    · rw [if_neg hObj] at h
      refine Or.inl ⟨(Except.ok.inj h).symm, ?_⟩
      rintro ks rfl
      exact absurd rfl hObj

/-- A message that can be read leads to one call, with the array of both runs. -/
theorem dealTheJoystick_eq_ok {root : Value} {f : JoystickFields}
    (hRead : readJoystick root = .ok (some f)) {stale : Stale} {calls : List DriverCall} :
    dealTheJoystick root stale = .ok calls ↔
      ∃ btn, convertTwice f.buttons stale.btn = .ok btn ∧ Returns (charText btn) ∧
        calls = [.joystickCtrl (joystickArgs f stale.hatByte btn)] := by
  unfold dealTheJoystick
  rw [hRead, ofJson_ok]
  show (convertTwice f.buttons stale.btn >>= fun btn => charText btn >>= fun _ => _) = _ ↔ _
  rw [bind_eq_ok]
  refine exists_congr fun btn => and_congr_right fun _ => ?_
  rw [bind_eq_ok]
  constructor
  · rintro ⟨text, hText, hCalls⟩
    exact ⟨⟨text, hText⟩, (Except.ok.inj hCalls).symm⟩
  · rintro ⟨⟨text, hText⟩, rfl⟩
    exact ⟨text, hText, rfl⟩

/--
**Buttons of a joystick message.** Let the `buttons` text of a readable message
list distinct numbers from 1 to 128, as decimals separated by commas, blanks
allowed. The array of the `JoystickCtrl` call shows exactly these buttons if
and only if there are between 1 and 16 of them, none is a multiple of 8, none
but the first is below 8, and one of the 16 bytes has none of them.
-/
theorem joystick_buttons_shown_iff {root : Value} {f : JoystickFields} {ns : List Nat}
    (hRead : readJoystick root = .ok (some f))
    (hText : f.buttons.toList.filter (· ≠ ' ') = decimals ns) (hNodup : ns.Nodup)
    (hPos : ∀ n ∈ ns, 1 ≤ n ∧ n ≤ 128) (stale : Stale) :
    (∃ args, dealTheJoystick root stale = .ok [.joystickCtrl args] ∧
        ButtonsShown ns args.buttons) ↔
      ns ≠ [] ∧ ns.length ≤ 16 ∧ (∀ n ∈ ns, n % 8 ≠ 0) ∧ (∀ n ∈ ns.tail, 8 ≤ n) ∧
        ∃ i < 16, ∀ n ∈ ns, n / 8 ≠ i := by
  have hShown := convertTwice_shown hNodup hPos hText stale.btn
  constructor
  · rintro ⟨args, hCall, hButtons⟩
    obtain ⟨btn, hRuns, hLogged, hCalls⟩ := (dealTheJoystick_eq_ok hRead).mp hCall
    cases hCalls
    obtain ⟨hNe, hLen, hMod, hTail⟩ := hShown.mp ⟨btn, hRuns, hButtons⟩
    exact ⟨hNe, hLen, hMod, hTail,
      (returns_charText_of_bit hButtons fun _ _ => hMod).mp hLogged⟩
  · rintro ⟨hNe, hLen, hMod, hTail, hFree⟩
    obtain ⟨btn, hRuns, hButtons⟩ := hShown.mpr ⟨hNe, hLen, hMod, hTail⟩
    have hLogged := (returns_charText_of_bit hButtons fun _ _ => hMod).mpr hFree
    exact ⟨joystickArgs f stale.hatByte btn,
      (dealTheJoystick_eq_ok hRead).mpr ⟨btn, hRuns, hLogged, rfl⟩, hButtons⟩

/-- A message with the two buttons 1 and 9, in different bytes. -/
theorem joystick_buttons_shown_one_nine :
    ∃ args, dealTheJoystick (.obj [("key", .obj [("buttons", .str "1, 9")])])
        ⟨255, Vector.replicate 16 255⟩ = .ok [.joystickCtrl args] ∧
      ButtonsShown [1, 9] args.buttons :=
  (joystick_buttons_shown_iff (f := ⟨0, 0, 0, 0, 0, 0, 0, 0, 0, 0, "1, 9", 0⟩) rfl
    (by decide) (by decide) (by decide) _).mpr (by decide)

/-- Of the buttons 1 and 2, pressed together, only 1 reaches the driver. -/
theorem joystick_drops_second_button :
    ¬ ∃ args, dealTheJoystick (.obj [("key", .obj [("buttons", .str "1,2")])])
        ⟨0, Vector.replicate 16 0⟩ = .ok [.joystickCtrl args] ∧
      ButtonsShown [1, 2] args.buttons := by
  rintro ⟨args, hCall, hShown⟩
  have hSecond := hShown 0 (by decide) 1 (by decide)
  have hButtons : args.buttons =
      (Vector.replicate 16 0 : Buttons).set 0 1 := by
    cases hCall
    decide
  rw [hButtons] at hSecond
  revert hSecond
  decide

end PushStreamer
