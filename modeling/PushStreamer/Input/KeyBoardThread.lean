import PushStreamer.Input.Joystick
import PushStreamer.Input.KeyMapper

/-!
# The keyboard channel

`MessageCallback` of `KeyBoardThread` receives the texts of the keyboard
websocket. It drops them while the window of the game is not in the
foreground; otherwise it parses them and hands the root to one of three
handlers by its `type`: joystick, full keyboard (`keycode`), or the normal
keyboard. The vendored JSON reader is a parameter, `parse`.

Every handler reads all that it needs from the message before its driver
calls, so a fault means that no call was made.
-/

namespace PushStreamer

/-- The members of `KeyBoardThread` that its message handlers use. -/
structure KeyBoardThread where
  iniParse1 : DealIniFile
  iniParse2 : DealIniFile
  isUpperKey : Bool
  keyBoardConfig : Option KeyMapper
  gamePid : Int

/-- What a handler leaves: the new state and the driver calls made. -/
abbrev Handled := Except Fault (KeyBoardThread × List DriverCall)

/-- The key code of a message: an integer, or the text of one. -/
def readKey (v : Value) : Except JsonFailure Int := do
  let keyTemp ← if v.isInt then v.asInt else pure 0
  if v.isString then
    let key ← v.asString
    pure (atoi key)
  else pure keyTemp

/-- `root[name].asInt()`. -/
def readInt (root : Value) (name : String) : Except JsonFailure Int := do
  (← root.index name).asInt

/-- `IsLeftKeyboardNumberLetter`. -/
def isLeftKeyboardNumberLetter (keyValue : Int) : Bool :=
  (65 ≤ keyValue && 81 ≥ keyValue) || (0 ≤ keyValue && keyValue ≤ 9)

/-- A press in full keyboard mode: letters and digits go to the driver, other
keys through the two tables. -/
def fullKeyboardDown (st : KeyBoardThread) (keyTemp : Int) : KeyBoardThread × List DriverCall :=
  if isLeftKeyboardNumberLetter keyTemp then
    let keyTemp := if st.isUpperKey && (0 ≤ keyTemp && 9 ≥ keyTemp) then keyTemp + 32 else keyTemp
    (st, [.keyDown keyTemp])
  else
    let keyMapping := st.iniParse1.getValue "ValueName" (toString keyTemp)
    let keyMappingValue := st.iniParse2.getValue "ValueName" keyMapping
    if keyMapping = "" ∨ keyMappingValue = "" then (st, [])
    else
      let key := toInt keyMappingValue.toList
      (if key = 20 then { st with isUpperKey := !st.isUpperKey } else st,
        if key > 0 then [.keyDown key] else [])

/-- `DealTheFullKeyboardModel`. -/
def dealTheFullKeyboardModel (root : Value) (st : KeyBoardThread) : Handled := do
  let ud ← ofJson (readInt root "ud")
  if ud = 1 then
    let keyTemp ← ofJson (root.index "key" >>= readKey)
    pure (fullKeyboardDown st keyTemp)
  else if ud = 2 then
    let keyTemp ← ofJson (root.index "key" >>= readKey)
    pure (st, [.keyUp keyTemp])
  else pure (st, [])

/-- `AllStr[i]`. -/
def token (allStr : List String) (i : Nat) : Except Fault String :=
  match allStr[i]? with
  | some s => .ok s
  | none => .error .tokenIndex

/-- The three numbers of a mouse message. -/
def readMouse (root : Value) : Except Fault (Int × Int × Int) := do
  let keycode ← ofJson (root.index "key" >>= Value.asString)
  let allStr := split keycode "|"
  let x ← token allStr 0
  let y ← token allStr 1
  let key ← token allStr 2
  pure (atoi x, atoi y, atoi key)

/-- `DealTheNormalKeyboardModel` with mode 0: keys and the mouse. -/
def normalMessage (root : Value) (st : KeyBoardThread) : Handled := do
  let ud ← ofJson (readInt root "ud")
  if ← ofJson (root.isMember "key") then
    if ud = 1 then
      let keyTemp ← ofJson (root.index "key" >>= readKey)
      pure (st, [.keyDown keyTemp])
    else if ud = 2 then
      let keyTemp ← ofJson (root.index "key" >>= readKey)
      pure (st, [.keyUp keyTemp])
    else if ud = 4 then
      let (x, y, key) ← readMouse root
      pure (st, [.mouseMove x y key])
    else if ud = 6 then
      let (x, y, key) ← readMouse root
      pure (st, [.mouseDown x y key])
    else if ud = 7 then
      let (x, y, key) ← readMouse root
      pure (st, [.mouseUp x y key])
    else pure (st, [])
  else pure (st, [])

/-- The members of a gamepad message. -/
structure GamepadFields where
  ud : Int
  x : ℚ
  y : ℚ
  z : ℚ
  rz : ℚ
  keyStr : String
  keyTemp : Int

/-- What mode 1 reads of a message. The key code is read again, as a number,
in the branches for `ud` 1 and 2; it is 0 without a member `key`. -/
def readGamepad (root : Value) : Except JsonFailure GamepadFields := do
  let ud ← readInt root "ud"
  let keyValue ← root.index "key"
  let x ← keyValue.memberOr "x" Value.asDouble 0
  let y ← keyValue.memberOr "y" Value.asDouble 0
  let z ← keyValue.memberOr "z" Value.asDouble 0
  let rz ← keyValue.memberOr "rz" Value.asDouble 0
  let keyStr ← keyValue.memberOr "key" Value.asString ""
  let keyTemp ← keyValue.memberOr "key" readKey 0
  pure { ud, x, y, z, rz, keyStr, keyTemp }

/-- `DealTheNormalKeyboardModel` with mode 1: a gamepad as keyboard and mouse. -/
def gamepadMessage (root : Value) (st : KeyBoardThread) : Handled := do
  let f ← ofJson (readGamepad root)
  match st.keyBoardConfig with
  | none => pure (st, [])
  | some config =>
    if f.ud = 1 then
      let config := if f.keyTemp ≠ 0 then config.keyDown_C f.keyTemp else config
      pure ({ st with keyBoardConfig := some config }, [])
    else if f.ud = 2 then
      let config := if f.keyTemp ≠ 0 then config.keyUP_C f.keyTemp else config
      pure ({ st with keyBoardConfig := some config }, [])
    else if f.ud = 4 then
      let config := config.mouseMove_C (truncate (KeyMapper.convertMouse f.z))
        (truncate (KeyMapper.convertMouse f.rz)) 0
      pure ({ st with keyBoardConfig := some config }, [])
    else pure (st, [])

/-- `DealTheNormalKeyboardModel`. -/
def dealTheNormalKeyboardModel (root : Value) (st : KeyBoardThread) : Handled := do
  let controlType ← ofJson (readInt root "mode")
  if controlType = 0 then normalMessage root st
  else if controlType = 1 then gamepadMessage root st
  else pure (st, [])

/-- `IsGameWindowActive`, for the process of the foreground window (`none`
without one). -/
def isGameWindowActive (foreground : Option Nat) (st : KeyBoardThread) : Bool :=
  match foreground with
  | none => false
  | some processId => (processId : Int) = st.gamePid && st.gamePid > 0

/-- The dispatch on `type`. -/
def dealTheMessage (root : Value) (stale : Stale) (st : KeyBoardThread) : Handled := do
  let type ← ofJson (root.memberOr "type" Value.asString "")
  if type = "joystick" then
    let calls ← dealTheJoystick root stale
    pure (st, calls)
  else if type = "keycode" then dealTheFullKeyboardModel root st
  else dealTheNormalKeyboardModel root st

/-- `MessageCallback`. -/
def messageCallback (parse : String → Option Value) (foreground : Option Nat) (stale : Stale)
    (message : String) (st : KeyBoardThread) : Handled :=
  if isGameWindowActive foreground st then
    if message ≠ "" then
      match parse message with
      | some root => dealTheMessage root stale st
      | none => pure (st, [])
    else pure (st, [])
  else pure (st, [])

end PushStreamer
