import PushStreamer.Model.Json

/-!
# The input driver and what can go wrong on the way to it

The calls of the CloudGame library that the keyboard channel makes, and the
ways in which handling a message can fail: a JSON accessor that does not
return, and the operations that C++ leaves undefined (a vector or buffer
indexed out of range, a shift by an amount that the type does not have, a text
without an end).
-/

namespace PushStreamer

/-- The 16-byte array of `JoystickCtrl`, one bit for each button. -/
abbrev Buttons := Vector UInt8 16

/-- The arguments of `JoystickCtrl`. -/
structure JoystickArgs where
  x : Int
  y : Int
  z : Int
  rX : Int
  rY : Int
  rZ : Int
  slider : Int
  dial : Int
  wheel : Int
  hat : UInt8
  buttons : Buttons
deriving DecidableEq

/-- A call of the driver. -/
inductive DriverCall where
  | keyDown (key : Int)
  | keyUp (key : Int)
  | mouseMove (x y code : Int)
  | mouseDown (x y code : Int)
  | mouseUp (x y code : Int)
  | joystickCtrl (args : JoystickArgs)
deriving DecidableEq

/-- Why handling a message did not end. -/
inductive Fault where
  | json (failure : JsonFailure)
  | tokenIndex
  | byteIndex (index : Int)
  | shift (amount : Int)
  | unterminated
deriving DecidableEq

/-- A JSON accessor used by a handler. -/
def ofJson {α : Type} : Except JsonFailure α → Except Fault α
  | .ok a => .ok a
  | .error e => .error (.json e)

@[simp] theorem ofJson_ok {α : Type} (a : α) : ofJson (.ok a : Except JsonFailure α) = .ok a := rfl

@[simp] theorem ofJson_error {α : Type} (e : JsonFailure) :
    ofJson (.error e : Except JsonFailure α) = .error (.json e) := rfl

theorem ofJson_eq_ok {α : Type} {x : Except JsonFailure α} {a : α} :
    ofJson x = .ok a ↔ x = .ok a := by
  cases x with
  | error e => simp
  | ok b => simp

end PushStreamer
