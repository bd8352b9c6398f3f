import Mathlib.Data.Rat.Floor
import PushStreamer.Model.Text

/-!
# `Json::Value`

The values of the vendored JSON library and the accessors the program reads
them with. The accessors are partial: `asCString`, `isMember` and `operator[]`
assert the type they need, `asString`, `asInt` and `asDouble` throw
`std::runtime_error` for a value they cannot convert. `double` and `float` are
modelled by the rational numbers.

Beside each accessor stands the condition on a value under which it returns.
-/

namespace PushStreamer

/-- A JSON value. The members of an object are looked up by name. A `real` is
the number that a `double` stands for: an infinity stands for none, and the negative
zero for 0. -/
inductive Value where
  | null
  | int (n : Int)
  | uint (n : Nat)
  | real (q : ℚ)
  | str (s : String)
  | bool (b : Bool)
  | arr (xs : List Value)
  | obj (ms : List (String × Value))

/-- How an accessor fails: `JSON_ASSERT`, or the exception of
`JSON_ASSERT_MESSAGE`. -/
inductive JsonFailure where
  | assertion
  | runtimeError (message : String)
deriving DecidableEq

/-- Conversion of a real number to `int`: the fraction is dropped. -/
def truncate (q : ℚ) : Int := if 0 ≤ q then ⌊q⌋ else ⌈q⌉

namespace Value

def isInt : Value → Bool
  | int _ => true
  | _ => false

def isString : Value → Bool
  | str _ => true
  | _ => false

/-- `isObject` also holds of `null`. -/
def isObject : Value → Bool
  | null | obj _ => true
  | _ => false

/-- `empty`: `null`, or an array or object without elements. -/
def empty : Value → Bool
  | null => true
  | arr xs => xs.isEmpty
  | obj ms => ms.isEmpty
  | _ => false

def asCString : Value → Except JsonFailure String
  | str s => .ok s
  | _ => .error .assertion

def asString : Value → Except JsonFailure String
  | null => .ok ""
  | str s => .ok s
  | bool b => .ok (if b then "true" else "false")
  | _ => .error (.runtimeError "Type is not convertible to string")

def asInt : Value → Except JsonFailure Int
  | null => .ok 0
  | int n => .ok n
  | uint n =>
    if (n : Int) < intMax then .ok n
    else .error (.runtimeError "integer out of signed integer range")
  | real q =>
    if intMin ≤ q ∧ q ≤ intMax then .ok (truncate q)
    else .error (.runtimeError "Real out of signed integer range")
  | bool b => .ok (if b then 1 else 0)
  | str _ | arr _ | obj _ => .error (.runtimeError "Type is not convertible to int")

def asDouble : Value → Except JsonFailure ℚ
  | null => .ok 0
  | int n => .ok n
  | uint n => .ok n
  | real q => .ok q
  | bool b => .ok (if b then 1 else 0)
  | str _ | arr _ | obj _ => .error (.runtimeError "Type is not convertible to double")

/-- The members of an object; `null` counts as an object without members. -/
def members : Value → Except JsonFailure (List (String × Value))
  | null => .ok []
  | obj ms => .ok ms
  | _ => .error .assertion

/-- `isMember`. -/
def isMember (v : Value) (key : String) : Except JsonFailure Bool :=
  v.members.map fun ms => (ms.lookup key).isSome

/-- `operator[]` with a member name: `null` for a missing member. -/
def index (v : Value) (key : String) : Except JsonFailure Value :=
  v.members.map fun ms => (ms.lookup key).getD null

/-- The members after `v[key] = x`. -/
def insertMember (key : String) (x : Value) : List (String × Value) → List (String × Value)
  | [] => [(key, x)]
  | m :: ms => if m.1 = key then (key, x) :: ms else m :: insertMember key x ms

/-- `v[key] = x`. -/
def setMember (v : Value) (key : String) (x : Value) : Except JsonFailure Value :=
  v.members.map fun ms => obj (insertMember key x ms)

/-- Read an optional member: `read` of it when present, `default` otherwise
(`if(v.isMember(key)) x = v[key].read();`). -/
def memberOr {α : Type} (v : Value) (key : String) (read : Value → Except JsonFailure α)
    (default : α) : Except JsonFailure α := do
  if ← v.isMember key then read (← v.index key) else pure default

/-! ## When an accessor returns -/

/-- `asString` returns. -/
def Text : Value → Prop
  | null | str _ | bool _ => True
  | _ => False

/-- `asInt` returns. -/
def FitsInt : Value → Prop
  | null | int _ | bool _ => True
  | uint n => (n : Int) < intMax
  | real q => intMin ≤ q ∧ q ≤ intMax
  | str _ | arr _ | obj _ => False

/-- `asDouble` returns. -/
def Number : Value → Prop
  | str _ | arr _ | obj _ => False
  | _ => True

instance : DecidablePred Text := fun v => by
  cases v <;> unfold Text <;> infer_instance

instance : DecidablePred FitsInt := fun v => by
  cases v <;> unfold FitsInt <;> infer_instance

instance : DecidablePred Number := fun v => by
  cases v <;> unfold Number <;> infer_instance

/-- The named member, `null` when there is none. -/
def member (ms : List (String × Value)) (key : String) : Value :=
  (ms.lookup key).getD null

-- what the accessors return, where they return
def textOf (v : Value) : String := v.asString.toOption.getD ""

def intOf (v : Value) : Int := v.asInt.toOption.getD 0

end Value

/-- A computation that returned. -/
def Returns {ε α : Type} (x : Except ε α) : Prop := ∃ a, x = .ok a

@[simp] theorem returns_ok {ε α : Type} (a : α) : Returns (.ok a : Except ε α) := ⟨a, rfl⟩

@[simp] theorem not_returns_error {ε α : Type} (e : ε) : ¬ Returns (.error e : Except ε α) :=
  fun ⟨_, h⟩ => by cases h

/-- What does not return fails. -/
theorem error_of_not_returns {ε α : Type} {x : Except ε α} (h : ¬ Returns x) :
    ∃ e, x = .error e := by
  cases x with
  | error e => exact ⟨e, rfl⟩
  | ok a => exact absurd (returns_ok a) h

@[simp] theorem returns_pure {ε α : Type} (a : α) : Returns (pure a : Except ε α) := ⟨a, rfl⟩

/-- A composition returns when both of its parts do. -/
theorem returns_bind {ε α β : Type} {x : Except ε α} {f : α → Except ε β} :
    Returns (x >>= f) ↔ ∃ a, x = .ok a ∧ Returns (f a) := by
  cases x with
  | error e => simp [Returns, bind, Except.bind]
  | ok a => simp [Returns, bind, Except.bind]

/-- What a composition returns, its second part returns of what the first does. -/
theorem bind_eq_ok {ε α β : Type} {x : Except ε α} {f : α → Except ε β} {b : β} :
    x >>= f = .ok b ↔ ∃ a, x = .ok a ∧ f a = .ok b := by
  cases x with
  | error e => simp [bind, Except.bind]
  | ok a => simp [bind, Except.bind]

/-- Where what follows returns or not whatever the first result is. -/
theorem returns_bind_congr {ε α β : Type} {x : Except ε α} {f : α → Except ε β} {P Q : Prop}
    (hx : Returns x ↔ P) (hf : ∀ a, Returns (f a) ↔ Q) : Returns (x >>= f) ↔ P ∧ Q := by
  rw [returns_bind, ← hx]
  constructor
  · rintro ⟨a, ha, hRest⟩
    exact ⟨⟨a, ha⟩, (hf a).mp hRest⟩
  · rintro ⟨⟨a, ha⟩, hQ⟩
    exact ⟨a, ha, (hf a).mpr hQ⟩

/-- An `if` whose condition is decided by a `Prop`. -/
theorem returns_ite {ε α : Type} {c : Prop} [Decidable c] {x y : Except ε α} :
    Returns (if c then x else y) ↔ (c → Returns x) ∧ (¬ c → Returns y) := by
  split <;> simp [*]

namespace Value

/-- When the conversions return: for the values that they are made for. -/
@[simp] theorem returns_asString {v : Value} : Returns v.asString ↔ v.Text := by
  cases v <;> simp [asString, Text]

/-- `asInt` returns on what fits, and fails elsewhere. -/
@[simp] theorem returns_asInt {v : Value} : Returns v.asInt ↔ v.FitsInt := by
  cases v <;> simp [asInt, FitsInt, returns_ite]

/-- `asDouble` returns on numbers and truth values. -/
@[simp] theorem returns_asDouble {v : Value} : Returns v.asDouble ↔ v.Number := by
  cases v <;> simp [asDouble, Number]

/-- `asCString` asserts a string. -/
@[simp] theorem returns_asCString {v : Value} : Returns v.asCString ↔ ∃ s, v = str s := by
  cases v <;> simp [asCString]

/-- What they return then. -/
theorem asString_eq {v : Value} (h : v.Text) : v.asString = .ok v.textOf := by
  obtain ⟨s, hs⟩ := returns_asString.mpr h
  rw [textOf, hs]
  rfl

/-- What `asInt` gives of a value that fits. -/
theorem asInt_eq {v : Value} (h : v.FitsInt) : v.asInt = .ok v.intOf := by
  obtain ⟨n, hn⟩ := returns_asInt.mpr h
  rw [intOf, hn]
  rfl

@[simp] theorem members_obj (ms : List (String × Value)) : (obj ms).members = .ok ms := rfl

@[simp] theorem members_null : null.members = .ok [] := rfl

section

variable {v : Value} {ms : List (String × Value)} (hMs : v.members = .ok ms) (key : String)

include hMs

/-- The lookups of a value with members are those in the list of its members. -/
theorem isMember_of_members : v.isMember key = .ok (ms.lookup key).isSome := by
  rw [isMember, hMs]
  rfl

/-- The member of an object that has been looked into. -/
theorem index_of_members : v.index key = .ok (member ms key) := by
  rw [index, hMs]
  rfl

/-- A member that is missing is replaced by the default before it is read. -/
theorem memberOr_of_members {α : Type} (read : Value → Except JsonFailure α) (default : α) :
    v.memberOr key read default = if (ms.lookup key).isSome then read (member ms key)
      else .ok default := by
  rw [memberOr, isMember_of_members hMs, index_of_members hMs]
  rfl

/-- Where `read` returns on `null`, a missing member is read as `null` is. -/
theorem returns_memberOr {α : Type} {read : Value → Except JsonFailure α} {default : α}
    (hNull : Returns (read null)) :
    Returns (v.memberOr key read default) ↔ Returns (read (member ms key)) := by
  rw [memberOr_of_members hMs]
  cases hLookup : ms.lookup key with
  | none => simpa [member, hLookup] using hNull
  | some x => simp

/-- A text that is read with a default. -/
theorem memberOr_asString (h : (member ms key).Text) :
    v.memberOr key asString "" = .ok (member ms key).textOf := by
  rw [memberOr_of_members hMs]
  cases hLookup : ms.lookup key with
  | none => simp [member, hLookup, textOf, asString, Except.toOption]
  | some x => rw [if_pos Option.isSome_some, asString_eq h]

/-- A number that is read with a default. -/
theorem memberOr_asInt (h : (member ms key).FitsInt) :
    v.memberOr key asInt 0 = .ok (member ms key).intOf := by
  rw [memberOr_of_members hMs]
  cases hLookup : ms.lookup key with
  | none => simp [member, hLookup, intOf, asInt, Except.toOption]
  | some x => rw [if_pos Option.isSome_some, asInt_eq h]

end

/-- One step of a lookup. -/
theorem lookup_member {α : Type} (m : String × α) (ms : List (String × α)) (name : String) :
    (m :: ms).lookup name = if name = m.1 then some m.2 else ms.lookup name := by
  rw [List.lookup_cons]
  split
  · rename_i hEq
    rw [if_pos (beq_iff_eq.mp hEq)]
  · rename_i hEq
    rw [if_neg (beq_eq_false_iff_ne.mp hEq)]

/-- A member that is set is found, and the others stay. -/
theorem lookup_insertMember (key : String) (x : Value) (ms : List (String × Value))
    (name : String) :
    (insertMember key x ms).lookup name = if name = key then some x else ms.lookup name := by
  induction ms with
  | nil => rw [insertMember, lookup_member]
  | cons m ms ih =>
    rw [insertMember, lookup_member m]
    by_cases hKey : m.1 = key
    · -- the member that is set comes first
      rw [if_pos hKey, lookup_member, hKey]
      split
      · rfl
      · rfl
    · rw [if_neg hKey, lookup_member, ih]
      by_cases hFirst : name = m.1
      · have hNot : name ≠ key := fun hEq => hKey (hFirst.symm.trans hEq)
        rw [if_pos hFirst, if_neg hNot, if_pos hFirst]
      · rw [if_neg hFirst, if_neg hFirst]

/-- No member can be read of a value that is neither an object nor `null`. -/
theorem memberOr_of_members_error {α : Type} {v : Value} {e : JsonFailure}
    (h : v.members = .error e) (key : String) (read : Value → Except JsonFailure α) (default : α) :
    v.memberOr key read default = .error e := by
  rw [memberOr, isMember, h]
  rfl

end Value

end PushStreamer
