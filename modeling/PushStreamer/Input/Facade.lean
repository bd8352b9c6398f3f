import PushStreamer.Lib.Machine
import PushStreamer.Input.KeyMapper

/-!
# The calls of the key mapper

`KeyDown_C`, `KeyUP_C`, `MouseMove_C`, `MouseDown_C` and `MouseUp_C` queue
actions for the consumer thread. A key is translated by the tables the first
time; later its translation is the remembered text, which has passed through
the code page.

* `remembers_perform` — what is remembered is the translation by the tables.
* `asAsked_iff` — when one call queues what it was asked for.
* `queued_as_asked_iff` — the sequences of calls in which each does.
-/

namespace PushStreamer

namespace KeyMapper

/-- After the constructor, with the files it has opened. -/
def new (codePage : CodePage) (nameKeyTable defaultKeyBoard gameKeyBoard : DealIniFile) :
    KeyMapper where
  codePage := codePage
  nameKeyTable := nameKeyTable
  defaultKeyBoard := defaultKeyBoard
  gameKeyBoard := gameKeyBoard
  keyValueMap := []
  queue := []

/-- The value that the tables map a key to: by its name, in the table of the game
or else in the default table. -/
def mappedValue (m : KeyMapper) (keyName : String) : String :=
  let keyName1 := m.nameKeyTable.getValue "KeyboardMapValue" keyName
  if keyName1 = "" then "" else m.tableValue keyName1

/-- The press and the release of one key. -/
def pressAction (key : Int) : DriverCall :=
  if isMouseKey key then .mouseDown 16383 16383 key else .keyDown key

def releaseAction (key : Int) : DriverCall :=
  if isMouseKey key then .mouseUp 16383 16383 0 else .keyUp key

/-- `KeyDown_C` and `KeyUP_C` differ in the action. -/
def keyAction_C (m : KeyMapper) (action : Int → DriverCall) (keyValue : Int) : KeyMapper :=
  let (result, m) := m.getMapKeyValue (toString keyValue)
  (mappedKeys result).foldl (fun m key => m.addKeyValueToThread (action key)) m

/-- A press is one of the two actions on a key. -/
theorem keyDown_C_eq (m : KeyMapper) (keyValue : Int) :
    m.keyDown_C keyValue = m.keyAction_C pressAction keyValue := rfl

/-- A release is the other. -/
theorem keyUP_C_eq (m : KeyMapper) (keyValue : Int) :
    m.keyUP_C keyValue = m.keyAction_C releaseAction keyValue := rfl

end KeyMapper

open KeyMapper

/-- A call of the facade. -/
inductive FacadeCall where
  | keyDown_C (keyValue : Int)
  | keyUP_C (keyValue : Int)
  | mouseMove_C (x y code : Int)
  | mouseUp_C (x y code : Int)
  | mouseDown_C (x y code : Int)

namespace FacadeCall

/-- The call with what it returns; the tables are never null. -/
def perform (m : KeyMapper) : FacadeCall → Int × KeyMapper
  | .keyDown_C keyValue => (0, m.keyDown_C keyValue)
  | .keyUP_C keyValue => (0, m.keyUP_C keyValue)
  | .mouseMove_C x y code => (0, m.mouseMove_C x y code)
  | .mouseUp_C x y code => (0, m.mouseUp_C x y code)
  | .mouseDown_C x y code => (0, m.mouseDown_C x y code)

/-- The actions that a call asks for, keys being translated by `translate`. -/
def asked (translate : String → String) : FacadeCall → List DriverCall
  | .keyDown_C keyValue => (mappedKeys (translate (toString keyValue))).map pressAction
  | .keyUP_C keyValue => (mappedKeys (translate (toString keyValue))).map releaseAction
  | .mouseMove_C x y code => [.mouseMove x y code]
  | .mouseUp_C x y code => [.mouseUp x y code]
  | .mouseDown_C x y code => [.mouseDown x y code]

/-- The key of a key call. -/
def keyValue? : FacadeCall → Option Int
  | .keyDown_C keyValue | .keyUP_C keyValue => some keyValue
  | _ => none

end FacadeCall

/-- One call after the other. -/
def facadeStep (m : KeyMapper) (call : FacadeCall) : Option KeyMapper := some (call.perform m).2

/-- A key call, or a mouse call that returns 0, appends what it was asked for. -/
def AsAsked (translate : String → String) (m : KeyMapper) (call : FacadeCall) : Prop :=
  (call.keyValue? = none → (call.perform m).1 = 0) →
    (call.perform m).2.queue = m.queue ++ call.asked translate

/-- Where a call is not `MouseUp_C` and its key, if it is remembered, is so in a
text that the code page has not changed into other actions. -/
def CanQueue (translate : String → String) (m : KeyMapper) (call : FacadeCall) : Prop :=
  (∀ x y code, call ≠ .mouseUp_C x y code) ∧
    ∀ keyValue, call.keyValue? = some keyValue →
      (m.keyValueMap.lookup (toString keyValue)).isSome = true →
      m.codePage.recode (translate (toString keyValue)) ≠ "" →
        call.asked (m.codePage.recode ∘ translate) = call.asked translate

section

variable {translate : String → String} {m : KeyMapper}

/-- What is remembered of a key is its translation, and the tables are the ones
of the constructor. -/
structure Remembers (translate : String → String) (m : KeyMapper) : Prop where
  tables : m.mappedValue = translate
  cached : ∀ key value, m.keyValueMap.lookup key = some value → value = translate key

/-- Nothing is remembered at first. -/
theorem remembers_new (codePage : CodePage)
    (nameKeyTable defaultKeyBoard gameKeyBoard : DealIniFile) :
    Remembers (new codePage nameKeyTable defaultKeyBoard gameKeyBoard).mappedValue
      (new codePage nameKeyTable defaultKeyBoard gameKeyBoard) :=
  ⟨rfl, fun _ _ h => by cases h⟩

theorem lookup_filter_ne {key key' : String} (hNe : key' ≠ key) (entries : List (String × String)) :
    (entries.filter (·.1 ≠ key)).lookup key' = entries.lookup key' := by
  induction entries with
  | nil => rfl
  | cons e entries ih =>
    by_cases hKey : e.1 = key
    · have hOther : (key' == e.1) = false := beq_false_of_ne (hKey ▸ hNe)
      rw [List.filter_cons_of_neg (by simpa using hKey), List.lookup_cons, hOther, ih]
    · rw [List.filter_cons_of_pos (by simpa using hKey), List.lookup_cons, List.lookup_cons, ih]

/-- What is set is found, and the rest stays. -/
theorem lookup_setKeyValueInMap (m : KeyMapper) (key value key' : String) :
    (m.setKeyValueInMap key value).keyValueMap.lookup key' =
      if key' = key then some value else m.keyValueMap.lookup key' := by
  rw [setKeyValueInMap, List.lookup_cons]
  by_cases hKey : key' = key
  · rw [beq_iff_eq.mpr hKey, if_pos hKey]
  · rw [beq_false_of_ne hKey, lookup_filter_ne hKey, if_neg hKey]

/-- Remembering a translation, the mapper still remembers translations only. -/
theorem cached_setKeyValueInMap
    (h : ∀ key value, m.keyValueMap.lookup key = some value → value = translate key) (key : String)
    {key' value : String}
    (hLookup : (m.setKeyValueInMap key (translate key)).keyValueMap.lookup key' = some value) :
    value = translate key' := by
  rw [lookup_setKeyValueInMap] at hLookup
  split at hLookup
  · rename_i hKey
    rw [hKey]
    exact (Option.some.inj hLookup).symm
  · exact h key' value hLookup

/-- A true answer may be remembered. -/
theorem remembers_setKeyValueInMap (h : Remembers translate m) (key : String) :
    Remembers translate (m.setKeyValueInMap key (translate key)) :=
  ⟨h.tables, fun _ _ hLookup => cached_setKeyValueInMap h.cached key hLookup⟩

/-- What is remembered of a key is its translation, through the code page. -/
theorem getKeyValueInMap_eq {key translation : String}
    (h : ∀ value, m.keyValueMap.lookup key = some value → value = translation) (hKey : key ≠ "") :
    m.getKeyValueInMap key =
      if (m.keyValueMap.lookup key).isSome = true ∧ m.codePage.recode translation ≠ "" then
        m.codePage.recode translation
      else "" := by
  rw [getKeyValueInMap, if_neg hKey]
  cases hLookup : m.keyValueMap.lookup key with
  | none => exact m.codePage.recode_eq (by decide)
  | some value =>
    rw [h value hLookup]
    split
    · rfl
    · rename_i hNot
      exact not_not.mp fun hText => hNot ⟨rfl, hText⟩

/-- The answer to a key: the remembered text, or else the value of the tables,
which is remembered then. -/
theorem getMapKeyValue_eq {key translation : String} (hTables : m.mappedValue key = translation)
    (h : ∀ value, m.keyValueMap.lookup key = some value → value = translation) (hKey : key ≠ "") :
    m.getMapKeyValue key =
      if (m.keyValueMap.lookup key).isSome = true ∧ m.codePage.recode translation ≠ "" then
        (m.codePage.recode translation, m)
      else
        (translation, if translation ≠ "" then m.setKeyValueInMap key translation else m) := by
  have hTables' : translation = if m.nameKeyTable.getValue "KeyboardMapValue" key = "" then ""
      else m.tableValue (m.nameKeyTable.getValue "KeyboardMapValue" key) := by
    rw [← hTables]
    rfl
  rw [getMapKeyValue, if_neg hKey, getKeyValueInMap_eq h hKey]
  simp only [← hTables']
  by_cases hRemembered : (m.keyValueMap.lookup key).isSome = true ∧
      m.codePage.recode translation ≠ ""
  · rw [if_pos hRemembered, if_pos hRemembered, if_pos hRemembered.2]
  · rw [if_neg hRemembered, if_neg hRemembered, if_neg (not_not.mpr rfl)]
    split <;> rfl

/-- The mapper answers a key, whatever it remembers. -/
theorem getMapKeyValue_frame (h : Remembers translate m) {key : String} (hKey : key ≠ "") :
    Remembers translate (m.getMapKeyValue key).2 ∧
      (m.getMapKeyValue key).2.queue = m.queue := by
  rw [getMapKeyValue_eq (congrFun h.tables key) (h.cached key) hKey]
  split
  · exact ⟨h, rfl⟩
  · split
    · exact ⟨remembers_setKeyValueInMap h key, rfl⟩
    · exact ⟨h, rfl⟩

/-- The calls are queued in their order. -/
theorem foldl_addKeyValueToThread (action : Int → DriverCall) (keys : List Int) (m : KeyMapper) :
    keys.foldl (fun m key => m.addKeyValueToThread (action key)) m =
      { m with queue := m.queue ++ keys.map action } := by
  induction keys generalizing m with
  | nil => rw [List.foldl_nil, List.map_nil, List.append_nil]
  | cons key keys ih =>
    rw [List.foldl_cons, ih, addKeyValueToThread, List.append_assoc]
    rfl

/-- An action looks the key up and queues a call for each of its keys. -/
theorem keyAction_C_eq (m : KeyMapper) (action : Int → DriverCall) (keyValue : Int) :
    m.keyAction_C action keyValue =
      { (m.getMapKeyValue (toString keyValue)).2 with
        queue := (m.getMapKeyValue (toString keyValue)).2.queue ++
          (mappedKeys (m.getMapKeyValue (toString keyValue)).1).map action } :=
  foldl_addKeyValueToThread ..

theorem toString_ne_empty (keyValue : Int) : (toString keyValue : String) ≠ "" := by
  cases keyValue with
  | ofNat n => exact Nat.repr_ne_empty
  | negSucc n =>
    intro hEmpty
    have hLength : ("-" ++ toString (n + 1)).length = 0 := congrArg String.length hEmpty
    rw [String.length_append] at hLength
    exact absurd hLength (by simp)

/-- What a key call queues. -/
theorem keyAction_C_queue (h : Remembers translate m) (action : Int → DriverCall)
    (keyValue : Int) :
    Remembers translate (m.keyAction_C action keyValue) ∧
      (m.keyAction_C action keyValue).queue =
        m.queue ++ (mappedKeys (m.getMapKeyValue (toString keyValue)).1).map action := by
  obtain ⟨hMap, hQueue⟩ := getMapKeyValue_frame h (toString_ne_empty keyValue)
  rw [keyAction_C_eq, hQueue]
  exact ⟨⟨hMap.tables, hMap.cached⟩, rfl⟩

/-- A key call queues the actions of the tables unless the code page has changed
what is remembered into other actions. -/
theorem keyAction_C_queue_iff (h : Remembers translate m) (action : Int → DriverCall)
    (keyValue : Int) :
    (m.keyAction_C action keyValue).queue =
        m.queue ++ (mappedKeys (translate (toString keyValue))).map action ↔
      ((m.keyValueMap.lookup (toString keyValue)).isSome = true →
        m.codePage.recode (translate (toString keyValue)) ≠ "" →
        (mappedKeys (m.codePage.recode (translate (toString keyValue)))).map action =
          (mappedKeys (translate (toString keyValue))).map action) := by
  rw [(keyAction_C_queue h action keyValue).2, List.append_cancel_left_eq,
    getMapKeyValue_eq (congrFun h.tables _) (h.cached _) (toString_ne_empty keyValue)]
  split
  · rename_i hRemembered
    exact ⟨fun hEq _ _ => hEq, fun hKept => hKept hRemembered.1 hRemembered.2⟩
  · rename_i hAnew
    exact ⟨fun _ hCached hText => absurd ⟨hCached, hText⟩ hAnew, fun _ => rfl⟩

/-- Each call keeps the tables, and what is remembered is their translation. -/
theorem remembers_perform (h : Remembers translate m) (call : FacadeCall) :
    Remembers translate (call.perform m).2 := by
  cases call with
  | keyDown_C keyValue => exact (keyAction_C_queue h pressAction keyValue).1
  | keyUP_C keyValue => exact (keyAction_C_queue h releaseAction keyValue).1
  | _ => exact ⟨h.tables, h.cached⟩

/-- A call for a key queues what was asked. -/
theorem asAsked_keyCall (h : Remembers translate m) {call : FacadeCall} {keyValue : Int}
    (action : Int → DriverCall) (hKey : call.keyValue? = some keyValue)
    (hPerform : (call.perform m).2 = m.keyAction_C action keyValue)
    (hAsked : ∀ translate,
      call.asked translate = (mappedKeys (translate (toString keyValue))).map action) :
    AsAsked translate m call ↔ CanQueue translate m call := by
  have hIff := keyAction_C_queue_iff h action keyValue
  have hUp : ∀ x y code, call ≠ .mouseUp_C x y code := fun x y code hEq => by
    rw [hEq] at hKey
    cases hKey
  unfold AsAsked CanQueue
  rw [hPerform, hKey, hAsked, hAsked]
  constructor
  · intro hQueue
    refine ⟨hUp, fun keyValue' hSame => ?_⟩
    obtain rfl := Option.some.inj hSame
    exact hIff.mp (hQueue fun hNone => by cases hNone)
  · intro hCan _
    exact hIff.mpr (hCan.2 keyValue rfl)

/-- Every function of the interface returns 0. -/
theorem perform_returns (m : KeyMapper) (call : FacadeCall) : (call.perform m).1 = 0 := by
  cases call <;> rfl

/-- A single call queues what it was asked for just when it can. -/
theorem asAsked_iff (h : Remembers translate m) (call : FacadeCall) :
    AsAsked translate m call ↔ CanQueue translate m call := by
  cases call with
  | keyDown_C keyValue =>
    exact asAsked_keyCall h pressAction rfl (keyDown_C_eq m keyValue) fun _ => rfl
  | keyUP_C keyValue =>
    exact asAsked_keyCall h releaseAction rfl (keyUP_C_eq m keyValue) fun _ => rfl
  | mouseMove_C x y code =>
    refine iff_of_true (fun _ => rfl) ⟨fun _ _ _ hEq => ?_, fun _ hEq => ?_⟩ <;> cases hEq
  | mouseDown_C x y code =>
    refine iff_of_true (fun _ => rfl) ⟨fun _ _ _ hEq => ?_, fun _ hEq => ?_⟩ <;> cases hEq
  | mouseUp_C x y code =>
    -- it returns 0 and queues nothing
    refine iff_of_false (fun hAsked => ?_) fun hCan => hCan.1 x y code rfl
    have hQueue : m.queue = m.queue ++ [.mouseUp x y code] := hAsked fun _ => rfl
    exact absurd (List.self_eq_append_right.mp hQueue) (List.cons_ne_nil _ _)

/-- Answering a key, the mapper at most remembers it. -/
theorem getMapKeyValue_snd (m : KeyMapper) (key : String) :
    (m.getMapKeyValue key).2 = m ∨
      ∃ value, (m.getMapKeyValue key).2 = m.setKeyValueInMap key value := by
  unfold getMapKeyValue
  split
  · exact Or.inl rfl
  · simp only
    split
    · exact Or.inl rfl
    · split <;> split
      · exact Or.inr ⟨_, rfl⟩
      · exact Or.inl rfl
      · exact Or.inr ⟨_, rfl⟩
      · exact Or.inl rfl

/-- No call changes the code page. -/
theorem codePage_perform (m : KeyMapper) (call : FacadeCall) :
    (call.perform m).2.codePage = m.codePage := by
  have hMap : ∀ key, (m.getMapKeyValue key).2.codePage = m.codePage := by
    intro key
    rcases getMapKeyValue_snd m key with hSame | ⟨value, hSet⟩
    · rw [hSame]
    · rw [hSet]
      rfl
  have hKey : ∀ action keyValue, (m.keyAction_C action keyValue).codePage = m.codePage := by
    intro action keyValue
    rw [keyAction_C_eq]
    exact hMap (toString keyValue)
  cases call with
  | keyDown_C keyValue => exact hKey pressAction keyValue
  | keyUP_C keyValue => exact hKey releaseAction keyValue
  | _ => rfl

/-- A code page that keeps the values of the tables is in no call's way. -/
theorem canQueue_of_kept (hKept : ∀ key, m.codePage.recode (translate key) = translate key)
    {call : FacadeCall} (hUp : ∀ x y code, call ≠ .mouseUp_C x y code) :
    CanQueue translate m call := by
  refine ⟨hUp, fun keyValue _ _ _ => ?_⟩
  rw [show m.codePage.recode ∘ translate = translate from funext hKept]

end

/-- **Calls and queue.** In a sequence of calls each queues what it was asked for
just when none is `MouseUp_C` and no remembered text means other actions. -/
theorem queued_as_asked_iff (codePage : CodePage)
    (nameKeyTable defaultKeyBoard gameKeyBoard : DealIniFile) (calls : List FacadeCall) :
    let m := new codePage nameKeyTable defaultKeyBoard gameKeyBoard
    Machine.Meets facadeStep (AsAsked m.mappedValue) m calls ↔
      Machine.Meets facadeStep (CanQueue m.mappedValue) m calls := by
  refine Machine.meets_congr (fun m call m' h hStep => ?_) (fun m call h => asAsked_iff h call)
    (remembers_new codePage nameKeyTable defaultKeyBoard gameKeyBoard)
  obtain rfl := Option.some.inj hStep
  exact remembers_perform h call

/-- `MouseUp_C` returns 0 and queues nothing. -/
theorem mouseUp_not_queued :
    ¬ Machine.Meets facadeStep (AsAsked (new .utf8 none none none).mappedValue)
      (new .utf8 none none none) [.mouseUp_C 5 5 1] := by
  rintro ⟨hAsked, -⟩
  have hQueue : ([] : List DriverCall) = [.mouseUp 5 5 1] := hAsked fun _ => rfl
  cases hQueue

end PushStreamer
