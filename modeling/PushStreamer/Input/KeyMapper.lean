import PushStreamer.Input.Driver
import PushStreamer.Model.Ini
import PushStreamer.Model.Text
import Mathlib.Data.Rat.Floor

/-!
# The key mapper

`KeyValueTransformt` translates the keys of a gamepad by three ini tables (key
names, the keys of the game, the default keys), remembers translations in
`m_keyValueMap`, and hands the resulting actions to a consumer thread. The
queue holds, for each `Products` value, the driver call that its callback makes
first; a callback repeats a call that the driver refuses.
-/

namespace PushStreamer

/-- `KeyValueTransformt`; the three tables are never replaced. -/
structure KeyMapper where
  codePage : CodePage
  nameKeyTable : DealIniFile
  defaultKeyBoard : DealIniFile
  gameKeyBoard : DealIniFile
  keyValueMap : List (String × String)
  queue : List DriverCall

namespace KeyMapper

/-- `AddKeyValueToThread`. -/
def addKeyValueToThread (m : KeyMapper) (callback : DriverCall) : KeyMapper :=
  { m with queue := m.queue ++ [callback] }

/-- `GetKeyValueInMap`. -/
def getKeyValueInMap (m : KeyMapper) (orignalKey : String) : String :=
  if orignalKey = "" then ""
  else m.codePage.recode ((m.keyValueMap.lookup orignalKey).getD "")

/-- `SetKeyValueInMap`: an entry that is there is replaced. -/
def setKeyValueInMap (m : KeyMapper) (key value : String) : KeyMapper :=
  { m with keyValueMap := (key, value) :: m.keyValueMap.filter (·.1 ≠ key) }

/-- The key of the game table, or else of the default table. -/
def tableValue (m : KeyMapper) (keyName : String) : String :=
  let gameKeyValue := m.gameKeyBoard.getValue "KeyboardMapValue" keyName
  if gameKeyValue = "" then m.defaultKeyBoard.getValue "KeyboardMapValue" keyName
  else gameKeyValue

/-- `GetMapKeyValue`. -/
def getMapKeyValue (m : KeyMapper) (keyName : String) : String × KeyMapper :=
  if keyName = "" then ("", m)
  else
    let ret := m.getKeyValueInMap keyName
    if ret ≠ "" then (ret, m)
    else
      let keyName1 := m.nameKeyTable.getValue "KeyboardMapValue" keyName
      let ret := if keyName1 = "" then "" else m.tableValue keyName1
      if ret ≠ "" then (ret, m.setKeyValueInMap keyName ret) else (ret, m)

/-- The nonzero keys of a mapped value such as `17:65`. -/
def mappedKeys (value : String) : List Int :=
  ((splitParts ':' value).map toInt).filter (· ≠ 0)

/-- The keys that stand for mouse buttons. -/
def isMouseKey (key : Int) : Bool := key = 1 || key = 2 || key = 3

/-- `KeyDown_C`. -/
def keyDown_C (m : KeyMapper) (keyValue : Int) : KeyMapper :=
  let (result, m) := m.getMapKeyValue (toString keyValue)
  (mappedKeys result).foldl (fun m key =>
    m.addKeyValueToThread
      (if isMouseKey key then .mouseDown 16383 16383 key else .keyDown key)) m

/-- `KeyUP_C`. -/
def keyUP_C (m : KeyMapper) (keyValue : Int) : KeyMapper :=
  let (result, m) := m.getMapKeyValue (toString keyValue)
  (mappedKeys result).foldl (fun m key =>
    m.addKeyValueToThread
      (if isMouseKey key then .mouseUp 16383 16383 0 else .keyUp key)) m

/-- `MouseMove_C`. -/
def mouseMove_C (m : KeyMapper) (x y code : Int) : KeyMapper :=
  m.addKeyValueToThread (.mouseMove x y code)

/-- `MouseUp_C`: the callback is built, and dropped. -/
def mouseUp_C (m : KeyMapper) (_x _y _code : Int) : KeyMapper := m

/-- `MouseDown_C`. -/
def mouseDown_C (m : KeyMapper) (x y code : Int) : KeyMapper :=
  m.addKeyValueToThread (.mouseDown x y code)

/-- `GetPercentInRange` with the range of the result. -/
def percentInRange (value left right range : ℚ) : ℚ :=
  let value := if value < left then left else value
  let value := if value > right then right else value
  (value - left) / (right - left) * range

/-- `ConvertMouse` for one coordinate. -/
def convertMouse (z : ℚ) : ℚ := percentInRange z (-1) 1 32737

end KeyMapper

end PushStreamer
