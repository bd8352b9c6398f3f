import Mathlib.Data.List.Basic
import Mathlib.Tactic.Common

/-!
# Ini files and the code page

`DealIniFile` reads and writes settings files through `QSettings`. A file is a list of
groups in the order in which `childGroups` lists them, each with its keys and
the texts of their values; group and key names are compared without regard to
case. A text that passes through `toLocal8Bit().data()` comes back through the
code page of the system.
-/

namespace PushStreamer

/-- The contents of a settings file. -/
structure Ini where
  groups : List (String × List (String × String))

/-- `DealIniFile`: `none` until a file has been opened. -/
abbrev DealIniFile := Option Ini

/-- Names of groups and keys are equal up to case. -/
def SameName (a b : String) : Prop := a.toList.map Char.toLower = b.toList.map Char.toLower

instance (a b : String) : Decidable (SameName a b) := by
  unfold SameName
  infer_instance

/-- The entry of a name. -/
def findName {α : Type} (name : String) (entries : List (String × α)) : Option α :=
  (entries.find? fun e => SameName e.1 name).map Prod.snd

/-- `value(topic/key)`, the empty text for a missing one. -/
def Ini.value (ini : Ini) (topic key : String) : String :=
  ((findName topic ini.groups).bind (findName key)).getD ""

/-- The entries after one of them is set; a new name comes last. -/
def setName {α : Type} (name : String) (v : α) : List (String × α) → List (String × α)
  | [] => [(name, v)]
  | e :: entries => if SameName e.1 name then (e.1, v) :: entries else e :: setName name v entries

/-- `setValue(topic/key, value)`. -/
def Ini.setValue (ini : Ini) (topic key value : String) : Ini where
  groups := setName topic (setName key value ((findName topic ini.groups).getD [])) ini.groups

section

variable {α : Type} {name other : String} {v : α}

theorem findName_cons (e : String × α) (entries : List (String × α)) :
    findName name (e :: entries) =
      if SameName e.1 name then some e.2 else findName name entries := by
  unfold findName
  by_cases h : SameName e.1 name
  · simp [h]
  · simp [h]

theorem findName_setName (entries : List (String × α)) :
    findName name (setName name v entries) = some v := by
  induction entries with
  | nil =>
    rw [setName, findName_cons]
    exact if_pos rfl
  | cons e entries ih =>
    rw [setName]
    split
    · rename_i h
      rw [findName_cons, if_pos h]
    · rename_i h
      rw [findName_cons, if_neg h, ih]

theorem findName_setName_of_ne (h : ¬ SameName other name) (entries : List (String × α)) :
    findName name (setName other v entries) = findName name entries := by
  induction entries with
  | nil =>
    rw [setName, findName_cons, if_neg h]
  | cons e entries ih =>
    rw [setName]
    split
    · -- the entry that is set has another name
      rename_i hSet
      have hNot : ¬ SameName e.1 name := fun hSame => h (hSet.symm.trans hSame)
      rw [findName_cons, if_neg hNot, findName_cons, if_neg hNot]
    · rw [findName_cons, findName_cons, ih]

end

namespace Ini

variable (ini : Ini) (topic key value : String)

theorem value_setValue : (ini.setValue topic key value).value topic key = value := by
  simp only [Ini.value, Ini.setValue, findName_setName, Option.bind_some, Option.getD_some]

theorem value_setValue_of_ne {other : String} (h : ¬ SameName key other) :
    (ini.setValue topic key value).value topic other = ini.value topic other := by
  simp only [Ini.value, Ini.setValue, findName_setName, Option.bind_some,
    findName_setName_of_ne h]
  cases findName topic ini.groups with
  | none => rfl
  | some entries => rfl

end Ini

namespace DealIniFile

/-- `GetValue(topic, key)`. -/
def getValue (file : DealIniFile) (topic key : String) : String :=
  file.elim "" fun ini => ini.value topic key

/-- `GetValue(key, keyValue, goalKey)`: `goalKey` of the first group whose
`key` is `keyValue`. -/
def getValueWhere (file : DealIniFile) (key keyValue goalKey : String) : String :=
  if key ≠ "" ∨ goalKey ≠ "" then
    file.elim "" fun ini =>
      ((ini.groups.find? fun g => ini.value g.1 key = keyValue).map
        fun g => ini.value g.1 goalKey).getD ""
  else ""

end DealIniFile

/-- What a text is after `toLocal8Bit().data()` and decoding, and what a wide text is
after `ws2s` and decoding. The code page extends ASCII; `data()` ends at a zero
character. `ws2s` reads a text that `wcstombs` refuses from a buffer without a byte:
nothing is said of the result. -/
structure CodePage where
  recode : String → String
  ascii : ∀ s, (∀ c ∈ s.toList, 0 < c.toNat ∧ c.toNat < 128) → recode s = s
  ws2s : String → String
  ws2s_ascii : ∀ s, (∀ c ∈ s.toList, 0 < c.toNat ∧ c.toNat < 128) → ws2s s = s

/-- `ascii` with a test that evaluates. -/
theorem CodePage.recode_eq (codePage : CodePage) {s : String}
    (h : s.toList.all (fun c => decide (0 < c.toNat ∧ c.toNat < 128)) = true) :
    codePage.recode s = s := by
  refine codePage.ascii s fun c hc => ?_
  exact of_decide_eq_true (List.all_eq_true.mp h c hc)

/-- `ws2s_ascii` with the same test. -/
theorem CodePage.ws2s_eq (codePage : CodePage) {s : String}
    (h : s.toList.all (fun c => decide (0 < c.toNat ∧ c.toNat < 128)) = true) :
    codePage.ws2s s = s := by
  refine codePage.ws2s_ascii s fun c hc => ?_
  exact of_decide_eq_true (List.all_eq_true.mp h c hc)

/-- `OpenFile`: an empty path and a file that does not exist are not opened. -/
def DealIniFile.openFile (files : String → DealIniFile) (filePath : String) : DealIniFile :=
  if filePath = "" then none else files filePath

/-- `SetValue`, with its result. -/
def DealIniFile.setValue (codePage : CodePage) (file : DealIniFile)
    (topic key value : String) : Bool × DealIniFile :=
  if topic ≠ "" ∧ key ≠ "" then
    match file with
    | some ini => (true, some (ini.setValue topic key (codePage.recode value)))
    | none => (false, none)
  else (false, file)

theorem DealIniFile.setValue_eq (codePage : CodePage) (file : DealIniFile)
    {topic key : String} (h : topic ≠ "" ∧ key ≠ "") (value : String) :
    file.setValue codePage topic key value =
      (file.isSome, file.map fun ini => ini.setValue topic key (codePage.recode value)) := by
  unfold DealIniFile.setValue
  rw [if_pos h]
  cases file with
  | none => rfl
  | some ini => rfl

/-- A code page that keeps every text. -/
def CodePage.utf8 : CodePage where
  recode := id
  ascii := fun _ _ => rfl
  ws2s := id
  ws2s_ascii := fun _ _ => rfl

end PushStreamer
