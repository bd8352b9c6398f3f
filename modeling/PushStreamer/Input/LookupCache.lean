import PushStreamer.Input.Directions
import PushStreamer.Lib.Safety

/-!
# The remembered lookups

`m_keyValueMap` remembers the answers of two lookups: that of a number
(`GetMapKeyValue`, through the table of names) and that of a direction
(`GetMapKeyValueEx`). The calls are written here as programs over the two
lookups, so that the lookups that a run performs, with their answers, are in its
trace. A remembered answer has passed through the code page, and ends at a zero
character.

* `yields_performAll` — the programs compute the calls.
* `exec_recalls` — what is remembered comes from the tables, in every run.
* `cache_transparent_iff` — when every lookup answers as the tables do.
* `transparent_of_ascii` — so it does for ASCII texts without zero characters.
-/

namespace PushStreamer

open KeyMapper StickMapper

-- ---------------------------------------------------------------------------
-- The calls as programs over the lookups
-- ---------------------------------------------------------------------------

/-- The steps of a call. -/
inductive MapperOp where
  | get
  | getMapKeyValue (keyName : String)
  | getMapKeyValueEx (direction : DirectionKey)
  | addKeyValueToThread (callback : DriverCall)
  | setLast (direction : DirectionKey) (point : DirectPoint)
  | setLastDirectPoint (point : DirectPoint)

def MapperOp.Res : MapperOp → Type
  | .get => StickMapper
  | .getMapKeyValue _ => String
  | .getMapKeyValueEx _ => Int × List Int
  | _ => Unit

abbrev mapperSig : Sig := ⟨MapperOp, MapperOp.Res⟩

abbrev MProg (α : Type) := Prog mapperSig α

abbrev mact (o : MapperOp) : MProg o.Res := Prog.perform (S := mapperSig) o

/-- `AddKeyValueToThread`. -/
def addKeyValue (s : StickMapper) (callback : DriverCall) : StickMapper :=
  if s.consumerKeyboard = true then { s with mapper := s.mapper.addKeyValueToThread callback }
  else s

def execMapperOp (s : StickMapper) : (o : MapperOp) → o.Res × StickMapper
  | .get => (s, s)
  | .getMapKeyValue keyName =>
    let (ret, mapper) := s.mapper.getMapKeyValue keyName
    (ret, { s with mapper })
  | .getMapKeyValueEx direction =>
    let (ret, vector, mapper) := s.mapper.getMapKeyValueEx direction
    ((ret, vector), { s with mapper })
  | .addKeyValueToThread callback => ((), addKeyValue s callback)
  | .setLast direction point => ((), { s with lastDirect := direction, lastDirectPoint := point })
  | .setLastDirectPoint point => ((), { s with lastDirectPoint := point })

/-- Nothing depends on the environment. -/
def mapperHandler : Handler mapperSig StickMapper Unit where
  exec _ s o := execMapperOp s o

/-- A call of the owner. -/
inductive MapperCall where
  | keyDown_C (keyValue : Int)
  | keyUP_C (keyValue : Int)
  | convertXYDirection (x y : ℚ) (ud : Int)
  | directionAllUp

namespace MapperCall

/-- What a call leaves. -/
def perform (s : StickMapper) : MapperCall → StickMapper
  | .keyDown_C keyValue => { s with mapper := s.mapper.keyDown_C keyValue }
  | .keyUP_C keyValue => { s with mapper := s.mapper.keyUP_C keyValue }
  | .convertXYDirection x y ud => (s.convertXYDirection x y ud).2
  | .directionAllUp => s.directionAllUp

def addKeyValues : List DriverCall → MProg Unit
  | [] => pure ()
  | callback :: callbacks => do
    mact (.addKeyValueToThread callback)
    addKeyValues callbacks

/-- `KeyDown_C` and `KeyUP_C`. -/
def keyAction (action : Int → DriverCall) (keyValue : Int) : MProg Unit := do
  let result : String ← mact (.getMapKeyValue (toString keyValue))
  addKeyValues ((mappedKeys result).map action)

/-- `GetMapKeyValueEx` where its return value is not used. -/
def lookUp (direction : DirectionKey) : MProg (List Int) := do
  let (_, vector) : Int × List Int ← mact (.getMapKeyValueEx direction)
  pure vector

/-- One axis of `ReverseBounce`. -/
def reverseAxis (value last : ℚ) (positive negative : DirectionKey) : MProg (List Int) :=
  if ¬ SameDirect value last then lookUp (if last > 0 then positive else negative) else pure []

/-- `ReverseBounce` from the last point. -/
def reverseFrom (last : DirectPoint) (x y : ℚ) : MProg Unit := do
  if 0 = last.x ∧ 0 = last.y then pure ()
  else if SameDirect x last.x ∧ SameDirect y last.y then pure ()
  else do
    let xKeys ← reverseAxis x last.x .right .left
    let yKeys ← reverseAxis y last.y .down .top
    addKeyValues ((xKeys ++ yKeys).map .keyUp)

def reverseBounce (x y : ℚ) : MProg Unit := do
  let s : StickMapper ← mact .get
  reverseFrom s.lastDirectPoint x y

/-- `ConvertXYDirection` off the origin. -/
def moveTo (x y : ℚ) : MProg Unit := do
  let (ret, vector) : Int × List Int ← mact (.getMapKeyValueEx (octant x y))
  reverseBounce x y
  mact (.setLast (octant x y) ⟨x, y⟩)
  Prog.onlyIf (0 = ret) (addKeyValues (vector.map .keyDown))

/-- `ConvertXYDirection`. -/
def convertSample (x y : ℚ) : MProg Unit := do
  if 0 = x ∧ 0 = y then do
    mact (.setLastDirectPoint ⟨0, 0⟩)
    pure ()
  else moveTo x y

/-- `DirectionAllUp`, on what it reads. -/
def allUpFrom (s : StickMapper) : MProg Unit := do
  if s.consumerKeyboard = true then pure ()
  else do
    let vector ← lookUp s.lastDirect
    addKeyValues (vector.map .keyUp)

def allUp : MProg Unit := do
  let s : StickMapper ← mact .get
  allUpFrom s

/-- The program of a call. -/
def program : MapperCall → MProg Unit
  | .keyDown_C keyValue => keyAction pressAction keyValue
  | .keyUP_C keyValue => keyAction releaseAction keyValue
  | .convertXYDirection x y _ => convertSample x y
  | .directionAllUp => allUp

end MapperCall

open MapperCall

/-- One call after the other. -/
def performAll : List MapperCall → MProg Unit
  | [] => pure ()
  | call :: calls => do
    call.program
    performAll calls

-- ---------------------------------------------------------------------------
-- The programs compute the calls
-- ---------------------------------------------------------------------------

section

/-- The program ends in `s'` with the result `a`. -/
abbrev Computes {α : Type} (p : MProg α) (s : StickMapper) (a : α) (s' : StickMapper) : Prop :=
  Prog.Yields mapperHandler (fun _ => True) p s a s'

variable {s : StickMapper}

/-- One operation. -/
theorem computes_act (o : MapperOp) (s : StickMapper) :
    Computes (mact o) s (execMapperOp s o).1 (execMapperOp s o).2 :=
  Prog.yields_perform (H := mapperHandler) (e := ()) trivial o s

/-- The calls are handed to the consumer one by one. -/
theorem computes_addKeyValues (callbacks : List DriverCall) (s : StickMapper) :
    Computes (addKeyValues callbacks) s () (s.addKeyValuesToThread callbacks) := by
  induction callbacks generalizing s with
  | nil => exact Prog.yields_pure () s
  | cons callback callbacks ih => exact (computes_act (.addKeyValueToThread callback) s).bind (ih _)

/-- With a consumer they go into its queue. -/
theorem addKeyValuesToThread_eq (hConsumer : s.consumerKeyboard = true)
    (callbacks : List DriverCall) :
    s.addKeyValuesToThread callbacks =
      { s with mapper := { s.mapper with queue := s.mapper.queue ++ callbacks } } := by
  induction callbacks generalizing s with
  | nil =>
    rw [List.append_nil]
    rfl
  | cons callback callbacks ih =>
    have hRest := ih (s := { s with mapper := s.mapper.addKeyValueToThread callback }) hConsumer
    unfold addKeyValuesToThread at hRest ⊢
    rw [List.foldl_cons, if_pos hConsumer, hRest, addKeyValueToThread, List.append_assoc]
    rfl

/-- A press or a release of a key. -/
theorem computes_keyAction (hConsumer : s.consumerKeyboard = true) (action : Int → DriverCall)
    (keyValue : Int) :
    Computes (keyAction action keyValue) s ()
      { s with mapper := s.mapper.keyAction_C action keyValue } := by
  rw [keyAction_C_eq]
  have hAdd := computes_addKeyValues
    ((mappedKeys (s.mapper.getMapKeyValue (toString keyValue)).1).map action)
    { s with mapper := (s.mapper.getMapKeyValue (toString keyValue)).2 }
  rw [addKeyValuesToThread_eq
    (s := { s with mapper := (s.mapper.getMapKeyValue (toString keyValue)).2 }) hConsumer] at hAdd
  exact (computes_act (.getMapKeyValue (toString keyValue)) s).bind hAdd

/-- A lookup adds the key to the cache. -/
theorem computes_lookUp (direction : DirectionKey) (s : StickMapper) :
    Computes (lookUp direction) s (s.appendKeys direction []).1 (s.appendKeys direction []).2 :=
  (computes_act (.getMapKeyValueEx direction) s).bind (Prog.yields_pure _ _)

/-- The keys that are there already do not matter to the lookup. -/
theorem appendKeys_append (direction : DirectionKey) (vector : List Int) (s : StickMapper) :
    s.appendKeys direction vector =
      (vector ++ (s.appendKeys direction []).1, (s.appendKeys direction []).2) := rfl

/-- The part of a reversal for one axis: it looks up at most one direction. -/
theorem computes_reverseAxis (value last : ℚ) (positive negative : DirectionKey)
    (vector : List Int) (s : StickMapper) :
    ∃ keys s₁, Computes (reverseAxis value last positive negative) s keys s₁ ∧
      s₁.lastDirectPoint = s.lastDirectPoint ∧
      (if ¬ SameDirect value last then
        s.appendKeys (if last > 0 then positive else negative) vector
      else (vector, s)) = (vector ++ keys, s₁) := by
  unfold reverseAxis
  split
  · exact ⟨_, _, computes_lookUp _ s, rfl, appendKeys_append _ vector s⟩
  · exact ⟨[], s, Prog.yields_pure [] s, rfl, by rw [List.append_nil]⟩

/-- Both axes. -/
theorem computes_reverseBounce (x y : ℚ) (s : StickMapper) :
    Computes (MapperCall.reverseBounce x y) s () (s.reverseBounce x y) := by
  refine (computes_act .get s).bind ?_
  show Computes (reverseFrom s.lastDirectPoint x y) s () _
  unfold StickMapper.reverseBounce reverseFrom
  by_cases hOrigin : 0 = s.lastDirectPoint.x ∧ 0 = s.lastDirectPoint.y
  · rw [if_pos hOrigin, if_pos hOrigin]
    exact Prog.yields_pure () s
  rw [if_neg hOrigin, if_neg hOrigin]
  by_cases hSame : SameDirect x s.lastDirectPoint.x ∧ SameDirect y s.lastDirectPoint.y
  · rw [if_pos hSame, if_pos hSame]
    exact Prog.yields_pure () s
  rw [if_neg hSame, if_neg hSame]
  obtain ⟨xKeys, s₁, hX, hLast, hX'⟩ :=
    computes_reverseAxis x s.lastDirectPoint.x .right .left [] s
  obtain ⟨yKeys, s₂, hY, -, hY'⟩ :=
    computes_reverseAxis y s.lastDirectPoint.y .down .top ([] ++ xKeys) s₁
  rw [hX']
  simp only [hLast]
  rw [hY']
  exact hX.bind (hY.bind (computes_addKeyValues _ s₂))

/-- Calls under a condition are handed over only when it holds. -/
theorem computes_onlyIf (c : Prop) [Decidable c] (callbacks : List DriverCall) (s : StickMapper) :
    Computes (Prog.onlyIf c (addKeyValues callbacks)) s ()
      (if c then s.addKeyValuesToThread callbacks else s) := by
  unfold Prog.onlyIf
  split
  · exact computes_addKeyValues callbacks s
  · exact Prog.yields_pure () s

/-- A position of the stick. -/
theorem computes_convertSample (x y : ℚ) (ud : Int) (s : StickMapper) :
    Computes (convertSample x y) s () (s.convertXYDirection x y ud).2 := by
  unfold convertSample StickMapper.convertXYDirection
  by_cases hOrigin : 0 = x ∧ 0 = y
  · rw [if_pos hOrigin, if_pos hOrigin]
    exact (computes_act _ s).bind (Prog.yields_pure () _)
  have hDirection : .origin ≠ octant x y := fun hEq =>
    hOrigin ((octant_eq_origin_iff.mp hEq.symm).imp Eq.symm Eq.symm)
  rw [if_neg hOrigin, if_neg hOrigin]
  simp only [if_pos hDirection]
  unfold moveTo
  exact (computes_act (.getMapKeyValueEx (octant x y)) s).bind
    ((computes_reverseBounce x y _).bind ((computes_act (.setLast (octant x y) ⟨x, y⟩) _).bind
      (computes_onlyIf _ _ _)))

/-- The release of all directions. -/
theorem computes_allUp (s : StickMapper) : Computes allUp s () s.directionAllUp := by
  refine (computes_act .get s).bind ?_
  show Computes (allUpFrom s) s () _
  unfold allUpFrom StickMapper.directionAllUp
  by_cases hConsumer : s.consumerKeyboard = true
  · rw [if_pos hConsumer, if_pos hConsumer]
    exact Prog.yields_pure () s
  · rw [if_neg hConsumer, if_neg hConsumer]
    exact (computes_lookUp s.lastDirect s).bind (computes_addKeyValues _ _)

/-- The program of a call does what the call does. -/
theorem computes_program (hConsumer : s.consumerKeyboard = true) (call : MapperCall) :
    Computes call.program s () (call.perform s) := by
  cases call with
  | keyDown_C keyValue => exact computes_keyAction hConsumer pressAction keyValue
  | keyUP_C keyValue => exact computes_keyAction hConsumer releaseAction keyValue
  | convertXYDirection x y ud => exact computes_convertSample x y ud s
  | directionAllUp => exact computes_allUp s

/-- No step takes the consumer away. -/
theorem exec_consumerKeyboard (o : MapperOp) (s : StickMapper) :
    (execMapperOp s o).2.consumerKeyboard = s.consumerKeyboard := by
  cases o with
  | addKeyValueToThread callback =>
    show (addKeyValue s callback).consumerKeyboard = s.consumerKeyboard
    unfold addKeyValue
    split <;> rfl
  | _ => rfl

/-- The consumer is never taken away. -/
theorem consumerKeyboard_of_exec {α : Type} {p : MProg α} {t : List (Event mapperSig)} {a : α}
    {s' : StickMapper} (h : Prog.Exec mapperHandler (fun _ => True) p s t a s') :
    s'.consumerKeyboard = s.consumerKeyboard := by
  induction h with
  | ret a s => rfl
  | step e _ _ ih => exact ih.trans (exec_consumerKeyboard _ _)

/-- The program of a run does what its calls do, one after the other. -/
theorem yields_performAll (hConsumer : s.consumerKeyboard = true) (calls : List MapperCall) :
    Computes (performAll calls) s () (calls.foldl MapperCall.perform s) := by
  induction calls generalizing s with
  | nil => exact Prog.yields_pure () s
  | cons call calls ih =>
    obtain ⟨t, hCall⟩ := computes_program hConsumer call
    have hKept := (consumerKeyboard_of_exec hCall).trans hConsumer
    exact Prog.Yields.bind ⟨t, hCall⟩ (ih hKept)

end

-- ---------------------------------------------------------------------------
-- What is remembered
-- ---------------------------------------------------------------------------

/-- The answer of the tables to a direction. -/
def tableLookup (table : String → String) (direction : DirectionKey) : Int × List Int :=
  if direction = .origin ∨ table direction.orignalKey = "" then (-1, [])
  else (0, splitKeys (table direction.orignalKey))

/-- No number is the name of a direction. -/
theorem toString_ne_orignalKey (keyValue : Int) (direction : DirectionKey) :
    (toString keyValue : String) ≠ direction.orignalKey := by
  intro hEq
  by_cases hOrigin : direction = .origin
  · rw [hOrigin] at hEq
    exact toString_ne_empty keyValue hEq
  · have hLetter : (direction.orignalKey.toList.any fun c =>
        decide (¬ (c = '-' ∨ c.isDigit = true))) = true := by
      cases direction with
      | origin => exact absurd rfl hOrigin
      | _ => decide
    obtain ⟨c, hc, hNot⟩ := List.any_eq_true.mp hLetter
    exact of_decide_eq_true hNot (mem_toString (hEq ▸ hc))

/-- The tables are those of `m₀`, and what is remembered comes from them: for a
number by its name, for a direction directly. -/
structure Recalls (m₀ m : KeyMapper) : Prop where
  codePage : m.codePage = m₀.codePage
  mappedValue : m.mappedValue = m₀.mappedValue
  tableValue : m.tableValue = m₀.tableValue
  number : ∀ (keyValue : Int) (value : String),
    m.keyValueMap.lookup (toString keyValue) = some value →
      value = m₀.mappedValue (toString keyValue)
  name : ∀ (direction : DirectionKey) (value : String),
    m.keyValueMap.lookup direction.orignalKey = some value →
      value = m₀.tableValue direction.orignalKey

section

variable {m₀ m : KeyMapper} {s : StickMapper}

/-- What is remembered of a number is what the tables say. -/
theorem recalls_number (h : Recalls m₀ m) (keyValue : Int) :
    Recalls m₀ (m.setKeyValueInMap (toString keyValue) (m₀.mappedValue (toString keyValue))) where
  codePage := h.codePage
  mappedValue := h.mappedValue
  tableValue := h.tableValue
  number other value hLookup := by
    rw [lookup_setKeyValueInMap] at hLookup
    split at hLookup
    · rename_i hSame
      rw [hSame]
      exact (Option.some.inj hLookup).symm
    · exact h.number other value hLookup
  name direction value hLookup := by
    rw [lookup_setKeyValueInMap, if_neg (toString_ne_orignalKey keyValue direction).symm] at hLookup
    exact h.name direction value hLookup

/-- So is what is remembered of a direction. -/
theorem recalls_name (h : Recalls m₀ m) (direction : DirectionKey) :
    Recalls m₀ (m.setKeyValueInMap direction.orignalKey
      (m₀.tableValue direction.orignalKey)) where
  codePage := h.codePage
  mappedValue := h.mappedValue
  tableValue := h.tableValue
  number keyValue value hLookup := by
    rw [lookup_setKeyValueInMap, if_neg (toString_ne_orignalKey keyValue direction)] at hLookup
    exact h.number keyValue value hLookup
  name other value hLookup := by
    rw [lookup_setKeyValueInMap] at hLookup
    split at hLookup
    · rename_i hSame
      rw [hSame]
      exact (Option.some.inj hLookup).symm
    · exact h.name other value hLookup

/-- The answer to a number. -/
theorem getMapKeyValue_number (h : Recalls m₀ m) (keyValue : Int) :
    m.getMapKeyValue (toString keyValue) =
      if (m.keyValueMap.lookup (toString keyValue)).isSome = true ∧
          m₀.codePage.recode (m₀.mappedValue (toString keyValue)) ≠ "" then
        (m₀.codePage.recode (m₀.mappedValue (toString keyValue)), m)
      else (m₀.mappedValue (toString keyValue),
        if m₀.mappedValue (toString keyValue) ≠ "" then
          m.setKeyValueInMap (toString keyValue) (m₀.mappedValue (toString keyValue)) else m) := by
  rw [← h.codePage]
  exact getMapKeyValue_eq (congrFun h.mappedValue _) (h.number keyValue)
    (toString_ne_empty keyValue)

/-- The answer to a direction. -/
theorem getMapKeyValueEx_name (h : Recalls m₀ m) {direction : DirectionKey}
    (hDirection : direction ≠ .origin) :
    m.getMapKeyValueEx direction =
      if (m.keyValueMap.lookup direction.orignalKey).isSome = true ∧
          m₀.codePage.recode (m₀.tableValue direction.orignalKey) ≠ "" then
        (0, splitKeys (m₀.codePage.recode (m₀.tableValue direction.orignalKey)), m)
      else if m₀.tableValue direction.orignalKey = "" then (-1, [], m)
      else (0, splitKeys (m₀.tableValue direction.orignalKey),
        m.setKeyValueInMap direction.orignalKey (m₀.tableValue direction.orignalKey)) := by
  rw [← h.codePage]
  exact getMapKeyValueEx_eq_ite (congrFun h.tableValue _) (h.name direction) hDirection

/-- The origin has no code, and nothing is looked up. -/
theorem getMapKeyValueEx_origin (m : KeyMapper) : m.getMapKeyValueEx .origin = (-1, [], m) := rfl

/-- A number that has been looked up is remembered. -/
theorem remembers_number (h : Recalls m₀ m) {keyValue : Int}
    (hText : m₀.mappedValue (toString keyValue) ≠ "") :
    ((m.getMapKeyValue (toString keyValue)).2.keyValueMap.lookup (toString keyValue)).isSome =
      true := by
  rw [getMapKeyValue_number h keyValue]
  split
  · rename_i hRemembered
    exact hRemembered.1
  · rw [lookup_setKeyValueInMap, if_pos rfl]
    rfl

/-- A direction with a text is remembered by its first lookup. -/
theorem remembers_name (h : Recalls m₀ m) {direction : DirectionKey}
    (hDirection : direction ≠ .origin) (hText : m₀.tableValue direction.orignalKey ≠ "") :
    ((m.getMapKeyValueEx direction).2.2.keyValueMap.lookup direction.orignalKey).isSome = true := by
  rw [getMapKeyValueEx_name h hDirection]
  split
  · rename_i hRemembered
    exact hRemembered.1
  · rw [lookup_setKeyValueInMap, if_pos rfl]
    rfl

/-- The lookups keep what is remembered. -/
theorem recalls_getMapKeyValue (h : Recalls m₀ m) (keyValue : Int) :
    Recalls m₀ (m.getMapKeyValue (toString keyValue)).2 := by
  rw [getMapKeyValue_number h keyValue]
  split
  · exact h
  · split
    · exact recalls_number h keyValue
    · exact h

/-- A lookup of a direction keeps the memory true. -/
theorem recalls_getMapKeyValueEx (h : Recalls m₀ m) (direction : DirectionKey) :
    Recalls m₀ (m.getMapKeyValueEx direction).2.2 := by
  by_cases hDirection : direction = .origin
  · rw [hDirection, getMapKeyValueEx_origin]
    exact h
  · rw [getMapKeyValueEx_name h hDirection]
    split
    · exact h
    · split
      · exact h
      · exact recalls_name h direction

-- ---------------------------------------------------------------------------
-- The answers
-- ---------------------------------------------------------------------------

/-- A lookup answers as the tables do. -/
def AsTables (m₀ : KeyMapper) : Event mapperSig → Prop
  | ⟨.getMapKeyValue keyName, result⟩ => result = m₀.mappedValue keyName
  | ⟨.getMapKeyValueEx direction, result⟩ => result = tableLookup m₀.tableValue direction
  | _ => True

/-- The texts of the tables that are looked up pass the code page: they come back,
or nothing does. -/
structure Survives (m₀ : KeyMapper) : Prop where
  number : ∀ keyValue : Int,
    m₀.codePage.recode (m₀.mappedValue (toString keyValue)) = m₀.mappedValue (toString keyValue) ∨
      m₀.codePage.recode (m₀.mappedValue (toString keyValue)) = ""
  name : ∀ direction : DirectionKey, direction ≠ .origin →
    splitKeys (m₀.codePage.recode (m₀.tableValue direction.orignalKey)) =
        splitKeys (m₀.tableValue direction.orignalKey) ∨
      m₀.codePage.recode (m₀.tableValue direction.orignalKey) = ""

/-- While texts survive the memory, a lookup of a number answers as the tables do. -/
theorem getMapKeyValue_asTables (hSurvives : Survives m₀) (h : Recalls m₀ m) (keyValue : Int) :
    (m.getMapKeyValue (toString keyValue)).1 = m₀.mappedValue (toString keyValue) := by
  rw [getMapKeyValue_number h keyValue]
  split
  · rename_i hRemembered
    exact (hSurvives.number keyValue).resolve_right hRemembered.2
  · rfl

/-- The same of a direction. -/
theorem getMapKeyValueEx_asTables (hSurvives : Survives m₀) (h : Recalls m₀ m)
    (direction : DirectionKey) :
    ((m.getMapKeyValueEx direction).1, (m.getMapKeyValueEx direction).2.1) =
      tableLookup m₀.tableValue direction := by
  unfold tableLookup
  by_cases hDirection : direction = .origin
  · rw [if_pos (Or.inl hDirection), hDirection, getMapKeyValueEx_origin]
  rw [getMapKeyValueEx_name h hDirection]
  by_cases hText : m₀.tableValue direction.orignalKey = ""
  · -- the code page keeps an empty text
    have hRecode : m₀.codePage.recode "" = "" := m₀.codePage.recode_eq (by decide)
    rw [hText, hRecode, if_neg fun hBoth => hBoth.2 rfl, if_pos rfl, if_pos (Or.inr rfl)]
  · rw [if_neg (not_or.mpr ⟨hDirection, hText⟩), if_neg hText]
    split
    · rename_i hRemembered
      rw [(hSurvives.name direction hDirection).resolve_right hRemembered.2]
    · rfl

/-- The step looks up a text that is no number. -/
def LooksUpText : MapperOp → Prop
  | .getMapKeyValue keyName => ∀ keyValue : Int, keyName ≠ toString keyValue
  | _ => False

/-- The queue does not touch the memory. -/
theorem mapper_addKeyValue (h : Recalls m₀ s.mapper) (callback : DriverCall) :
    Recalls m₀ (addKeyValue s callback).mapper := by
  unfold addKeyValue
  split
  · exact ⟨h.codePage, h.mappedValue, h.tableValue, h.number, h.name⟩
  · exact h

/-- One step keeps what is remembered, and answers as the tables do if their texts
pass the code page. -/
theorem recalls_exec {o : MapperOp} (hOp : ¬ LooksUpText o) (h : Recalls m₀ s.mapper) :
    (Survives m₀ → AsTables m₀ ⟨o, (execMapperOp s o).1⟩) ∧
      Recalls m₀ (execMapperOp s o).2.mapper := by
  cases o with
  | getMapKeyValue keyName =>
    obtain ⟨keyValue, rfl⟩ : ∃ keyValue : Int, keyName = toString keyValue := by
      by_contra hNone
      exact hOp fun keyValue hEq => hNone ⟨keyValue, hEq⟩
    exact ⟨fun hSurvives => getMapKeyValue_asTables hSurvives h keyValue,
      recalls_getMapKeyValue h keyValue⟩
  | getMapKeyValueEx direction =>
    exact ⟨fun hSurvives => getMapKeyValueEx_asTables hSurvives h direction,
      recalls_getMapKeyValueEx h direction⟩
  | addKeyValueToThread callback => exact ⟨fun _ => trivial, mapper_addKeyValue h callback⟩
  | _ => exact ⟨fun _ => trivial, h⟩

end

-- ---------------------------------------------------------------------------
-- Runs
-- ---------------------------------------------------------------------------

section

variable {m₀ : KeyMapper} {s s' : StickMapper} {t : List (Event mapperSig)}

/-- An operation that looks up no text. -/
theorem avoids_act {o : MapperOp} (h : ¬ LooksUpText o) :
    Prog.Avoids (S := mapperSig) LooksUpText (mact o) := Prog.all_perform.mpr h

/-- Handing over calls looks up no text. -/
theorem avoids_addKeyValues (callbacks : List DriverCall) :
    Prog.Avoids (S := mapperSig) LooksUpText (addKeyValues callbacks) := by
  induction callbacks with
  | nil => exact Prog.all_pure ()
  | cons callback callbacks ih => exact Prog.all_bind (avoids_act id) fun _ => ih

/-- Nor does an action of a key. -/
theorem avoids_keyAction (action : Int → DriverCall) (keyValue : Int) :
    Prog.Avoids (S := mapperSig) LooksUpText (keyAction action keyValue) :=
  Prog.all_bind (avoids_act fun h => h keyValue rfl) fun _ => avoids_addKeyValues _

/-- Nor does a lookup of a direction, whose key is no text of the message. -/
theorem avoids_lookUp (direction : DirectionKey) :
    Prog.Avoids (S := mapperSig) LooksUpText (lookUp direction) :=
  Prog.all_bind (avoids_act id) fun _ => Prog.all_pure _

/-- The stick looks up no number: so each of its functions. -/
theorem avoids_reverseAxis (value last : ℚ) (positive negative : DirectionKey) :
    Prog.Avoids (S := mapperSig) LooksUpText (reverseAxis value last positive negative) := by
  unfold reverseAxis
  split
  · exact avoids_lookUp _
  · exact Prog.all_pure _

/-- A stick that goes back looks up no text. -/
theorem avoids_reverseBounce (x y : ℚ) :
    Prog.Avoids (S := mapperSig) LooksUpText (MapperCall.reverseBounce x y) := by
  refine Prog.all_bind (avoids_act id) fun s => ?_
  unfold reverseFrom
  split
  · exact Prog.all_pure ()
  split
  · exact Prog.all_pure ()
  · exact Prog.all_bind (avoids_reverseAxis ..) fun _ =>
      Prog.all_bind (avoids_reverseAxis ..) fun _ => avoids_addKeyValues _

/-- Every number that is looked up is one. -/
theorem avoids_program (call : MapperCall) :
    Prog.Avoids (S := mapperSig) LooksUpText call.program := by
  cases call with
  | keyDown_C keyValue => exact avoids_keyAction _ _
  | keyUP_C keyValue => exact avoids_keyAction _ _
  | convertXYDirection x y ud =>
    show Prog.Avoids (S := mapperSig) LooksUpText (convertSample x y)
    unfold convertSample
    split
    · exact Prog.all_bind (avoids_act id) fun _ => Prog.all_pure ()
    · exact Prog.all_bind (avoids_act id) fun _ => Prog.all_bind (avoids_reverseBounce x y)
        fun _ => Prog.all_bind (avoids_act id) fun _ => Prog.all_onlyIf (avoids_addKeyValues _)
  | directionAllUp =>
    refine Prog.all_bind (avoids_act id) fun s => ?_
    unfold allUpFrom
    split
    · exact Prog.all_pure ()
    · exact Prog.all_bind (avoids_lookUp _) fun _ => avoids_addKeyValues _

/-- Nothing that a stick asks for looks up a text. -/
theorem avoids_performAll (calls : List MapperCall) :
    Prog.Avoids (S := mapperSig) LooksUpText (performAll calls) := by
  induction calls with
  | nil => exact Prog.all_pure ()
  | cons call calls ih => exact Prog.all_bind (avoids_program call) fun _ => ih

/-- All along a run, what is remembered comes from the tables. -/
theorem exec_recalls {α : Type} {p : MProg α} {a : α}
    (hp : Prog.Avoids (S := mapperSig) LooksUpText p) (h : Recalls m₀ s.mapper)
    (hExec : Prog.Exec mapperHandler (fun _ => True) p s t a s') :
    (∀ ev ∈ t, Survives m₀ → AsTables m₀ ev) ∧ Recalls m₀ s'.mapper := by
  have hStep : ∀ (e : Unit) (s : StickMapper) (o : mapperSig.Op), True → ¬ LooksUpText o →
      Recalls m₀ s.mapper →
        (Survives m₀ → AsTables m₀ ⟨o, (mapperHandler.exec e s o).1⟩) ∧
          Recalls m₀ (mapperHandler.exec e s o).2.mapper :=
    fun _ _ _ _ hOp h => recalls_exec hOp h
  have hRule := hExec.events (Q := fun ev => Survives m₀ → AsTables m₀ ev) hStep hp
  exact hRule h

/-- A lookup of a direction remembers one text, or nothing. -/
theorem getMapKeyValueEx_snd (m : KeyMapper) (direction : DirectionKey) :
    (m.getMapKeyValueEx direction).2.2 = m ∨
      ∃ key value, (m.getMapKeyValueEx direction).2.2 = m.setKeyValueInMap key value := by
  unfold KeyMapper.getMapKeyValueEx
  simp only
  split
  · exact Or.inl rfl
  · split
    · exact Or.inl rfl
    · split
      · exact Or.inl rfl
      · exact Or.inr ⟨_, _, rfl⟩

/-- What is remembered is never forgotten. -/
theorem isSome_exec (o : MapperOp) {key : String}
    (h : (s.mapper.keyValueMap.lookup key).isSome = true) :
    ((execMapperOp s o).2.mapper.keyValueMap.lookup key).isSome = true := by
  -- a text that is remembered is never forgotten
  have hSet : ∀ key' value,
      ((s.mapper.setKeyValueInMap key' value).keyValueMap.lookup key).isSome = true := by
    intro key' value
    rw [lookup_setKeyValueInMap]
    split
    · rfl
    · exact h
  cases o with
  | getMapKeyValue keyName =>
    show ((s.mapper.getMapKeyValue keyName).2.keyValueMap.lookup key).isSome = true
    rcases getMapKeyValue_snd s.mapper keyName with hSame | ⟨value, hNew⟩
    · rw [hSame]
      exact h
    · rw [hNew]
      exact hSet _ _
  | getMapKeyValueEx direction =>
    show ((s.mapper.getMapKeyValueEx direction).2.2.keyValueMap.lookup key).isSome = true
    rcases getMapKeyValueEx_snd s.mapper direction with hSame | ⟨key', value, hNew⟩
    · rw [hSame]
      exact h
    · rw [hNew]
      exact hSet _ _
  | addKeyValueToThread callback =>
    show ((addKeyValue s callback).mapper.keyValueMap.lookup key).isSome = true
    unfold addKeyValue
    split <;> exact h
  | _ => exact h

/-- A call that starts with a lookup, made twice: the second time the lookup finds
what the first has remembered. -/
theorem second_lookup {call : MapperCall} {o : MapperOp} {f : o.Res → MProg Unit} {key : String}
    {u : Unit} (hProgram : call.program = (mact o >>= f)) (h : Recalls m₀ s.mapper)
    (hKey : ((execMapperOp s o).2.mapper.keyValueMap.lookup key).isSome = true)
    (hExec : Prog.Exec mapperHandler (fun _ => True) (performAll [call, call]) s t u s') :
    ∃ s₁, Recalls m₀ s₁.mapper ∧ (s₁.mapper.keyValueMap.lookup key).isSome = true ∧
      ⟨o, (execMapperOp s₁ o).1⟩ ∈ t := by
  obtain ⟨t₁, tRest, _, s₁, rfl, hFirst, hRest⟩ := Prog.exec_bind.mp hExec
  obtain ⟨t₂, t₃, _, s₂, rfl, hSecond, -⟩ := Prog.exec_bind.mp hRest
  refine ⟨s₁, (exec_recalls (avoids_program call) h hFirst).2, ?_, ?_⟩
  · -- nothing after the first lookup forgets it
    have hAvoids := avoids_program call
    rw [hProgram] at hFirst hAvoids
    obtain ⟨e, tAfter, -, -, hAfter⟩ := Prog.exec_then.mp hFirst
    have hStep : ∀ (e : Unit) (s : StickMapper) (o : mapperSig.Op), True → ¬ LooksUpText o →
        (s.mapper.keyValueMap.lookup key).isSome = true →
          True ∧ ((mapperHandler.exec e s o).2.mapper.keyValueMap.lookup key).isSome = true :=
      fun _ _ o _ _ hKey => ⟨trivial, isSome_exec o hKey⟩
    have hRule := hAfter.events (Q := fun _ => True) hStep (hAvoids.2 _)
    exact (hRule hKey).2
  · rw [hProgram] at hSecond
    obtain ⟨e, tAfter, -, rfl, -⟩ := Prog.exec_then.mp hSecond
    exact List.mem_append_right _ (List.mem_append_left _ (List.mem_cons_self ..))

end

-- ---------------------------------------------------------------------------
-- Transparency
-- ---------------------------------------------------------------------------

section

variable (codePage : CodePage) (nameKeyTable defaultKeyBoard gameKeyBoard : DealIniFile)

/-- In every sequence of calls, each lookup that is performed answers as the tables
do; and no number is the name of a direction. -/
def Transparent : Prop :=
  let s := StickMapper.new codePage nameKeyTable defaultKeyBoard gameKeyBoard
  (∀ calls : List MapperCall, ∃ t,
    Prog.Exec mapperHandler (fun _ => True) (performAll calls) s t ()
      (calls.foldl MapperCall.perform s) ∧
    ∀ ev ∈ t, AsTables s.mapper ev) ∧
  ∀ (keyValue : Int) (direction : DirectionKey),
    (toString keyValue : String) ≠ direction.orignalKey

variable {codePage nameKeyTable defaultKeyBoard gameKeyBoard}

/-- Nothing is remembered at first. -/
theorem recalls_new :
    Recalls (KeyMapper.new codePage nameKeyTable defaultKeyBoard gameKeyBoard)
      (KeyMapper.new codePage nameKeyTable defaultKeyBoard gameKeyBoard) :=
  ⟨rfl, rfl, rfl, fun _ _ h => (nomatch h), fun _ _ h => (nomatch h)⟩

/-- A memory that texts survive answers as the tables do in every run. -/
theorem transparent_of_survives
    (h : Survives (KeyMapper.new codePage nameKeyTable defaultKeyBoard gameKeyBoard)) :
    Transparent codePage nameKeyTable defaultKeyBoard gameKeyBoard := by
  refine ⟨fun calls => ?_, toString_ne_orignalKey⟩
  obtain ⟨t, hExec⟩ := yields_performAll
    (s := .new codePage nameKeyTable defaultKeyBoard gameKeyBoard) rfl calls
  have hRun := exec_recalls (avoids_performAll calls) recalls_new hExec
  exact ⟨t, hExec, fun ev hMem => hRun.1 ev hMem h⟩

/-- Every direction is that of a point. -/
theorem exists_octant (direction : DirectionKey) : ∃ x y, octant x y = direction := by
  cases direction with
  | origin => exact ⟨0, 0, octant_origin⟩
  | right => exact ⟨1, 0, by decide⟩
  | rightDown => exact ⟨1, 1, by decide⟩
  | down => exact ⟨0, 1, by decide⟩
  | leftDown => exact ⟨-1, 1, by decide⟩
  | left => exact ⟨-1, 0, by decide⟩
  | leftTop => exact ⟨-1, -1, by decide⟩
  | top => exact ⟨0, -1, by decide⟩
  | topRight => exact ⟨1, -1, by decide⟩

/-- A key pressed twice shows what the code page makes of its text. -/
theorem number_of_transparent (h : Transparent codePage nameKeyTable defaultKeyBoard gameKeyBoard)
    (keyValue : Int) :
    let m := KeyMapper.new codePage nameKeyTable defaultKeyBoard gameKeyBoard
    codePage.recode (m.mappedValue (toString keyValue)) = m.mappedValue (toString keyValue) ∨
      codePage.recode (m.mappedValue (toString keyValue)) = "" := by
  intro m
  by_cases hText : m.mappedValue (toString keyValue) = ""
  · rw [hText]
    exact Or.inr (codePage.recode_eq (by decide))
  refine or_iff_not_imp_right.mpr fun hRecode => ?_
  obtain ⟨t, hExec, hAll⟩ := h.1 [.keyDown_C keyValue, .keyDown_C keyValue]
  have hFirst := remembers_number recalls_new hText
  obtain ⟨s₁, hRecalls, hKey, hMem⟩ := second_lookup
    (o := .getMapKeyValue (toString keyValue)) rfl recalls_new hFirst hExec
  have hAnswer : (s₁.mapper.getMapKeyValue (toString keyValue)).1 =
      m.mappedValue (toString keyValue) := hAll _ hMem
  rw [getMapKeyValue_number hRecalls keyValue, if_pos ⟨hKey, hRecode⟩] at hAnswer
  exact hAnswer

/-- So does a sample taken twice. -/
theorem name_of_transparent (h : Transparent codePage nameKeyTable defaultKeyBoard gameKeyBoard)
    {direction : DirectionKey} (hDirection : direction ≠ .origin) :
    let m := KeyMapper.new codePage nameKeyTable defaultKeyBoard gameKeyBoard
    splitKeys (codePage.recode (m.tableValue direction.orignalKey)) =
        splitKeys (m.tableValue direction.orignalKey) ∨
      codePage.recode (m.tableValue direction.orignalKey) = "" := by
  intro m
  by_cases hText : m.tableValue direction.orignalKey = ""
  · rw [hText]
    exact Or.inr (codePage.recode_eq (by decide))
  refine or_iff_not_imp_right.mpr fun hRecode => ?_
  obtain ⟨x, y, rfl⟩ := exists_octant direction
  obtain ⟨t, hExec, hAll⟩ := h.1 [.convertXYDirection x y 0, .convertXYDirection x y 0]
  have hPoint : ¬ (0 = x ∧ 0 = y) := fun hOrigin =>
    hDirection (octant_eq_origin_iff.mpr (hOrigin.imp Eq.symm Eq.symm))
  have hProgram : (MapperCall.convertXYDirection x y 0).program =
      (mact (.getMapKeyValueEx (octant x y)) >>= _) := if_neg hPoint
  have hFirst := remembers_name recalls_new hDirection hText
  obtain ⟨s₁, hRecalls, hKey, hMem⟩ := second_lookup hProgram recalls_new hFirst hExec
  have hAnswer : ((s₁.mapper.getMapKeyValueEx (octant x y)).1,
      (s₁.mapper.getMapKeyValueEx (octant x y)).2.1) = tableLookup m.tableValue (octant x y) :=
    hAll _ hMem
  rw [getMapKeyValueEx_name hRecalls hDirection, if_pos ⟨hKey, hRecode⟩, tableLookup,
    if_neg (not_or.mpr ⟨hDirection, hText⟩)] at hAnswer
  exact (Prod.mk.inj hAnswer).2

/-- **The lookups are transparent** just when the texts of the tables pass the code
page. -/
theorem cache_transparent_iff (codePage : CodePage)
    (nameKeyTable defaultKeyBoard gameKeyBoard : DealIniFile) :
    Transparent codePage nameKeyTable defaultKeyBoard gameKeyBoard ↔
      Survives (KeyMapper.new codePage nameKeyTable defaultKeyBoard gameKeyBoard) :=
  ⟨fun h => ⟨number_of_transparent h, fun _ => name_of_transparent h⟩, transparent_of_survives⟩

/-- ASCII texts without zero characters pass every code page. -/
theorem transparent_of_ascii
    (hGame : ∀ key, ∀ c ∈ (gameKeyBoard.getValue "KeyboardMapValue" key).toList, IsAscii c)
    (hDefault : ∀ key, ∀ c ∈ (defaultKeyBoard.getValue "KeyboardMapValue" key).toList, IsAscii c) :
    Transparent codePage nameKeyTable defaultKeyBoard gameKeyBoard := by
  have hTable : ∀ key, codePage.recode
      ((KeyMapper.new codePage nameKeyTable defaultKeyBoard gameKeyBoard).tableValue key) =
        (KeyMapper.new codePage nameKeyTable defaultKeyBoard gameKeyBoard).tableValue key := by
    intro key
    refine codePage.ascii _ ?_
    simp only [tableValue]
    split
    · exact hDefault key
    · exact hGame key
  refine transparent_of_survives ⟨fun keyValue => Or.inl ?_, fun direction _ => Or.inl ?_⟩
  · simp only [mappedValue]
    split
    · exact codePage.recode_eq (by decide)
    · exact hTable _
  · exact congrArg splitKeys (hTable direction.orignalKey)

end

-- ---------------------------------------------------------------------------
-- A text with a zero character
-- ---------------------------------------------------------------------------

/-- A code page that keeps every text up to its first zero character. -/
def CodePage.upToZero : CodePage where
  recode s := String.ofList (cString s.toList)
  ascii s h := by rw [cString_of_isAscii h, String.ofList_toList]
  ws2s s := String.ofList (cString s.toList)
  ws2s_ascii s h := by rw [cString_of_isAscii h, String.ofList_toList]

-- the key 65 is called `A`, and `A` is mapped to a text with a zero character
def letterNames : Ini where
  groups := [("KeyboardMapValue", [("65", "A")])]

def zeroInText : Ini where
  groups := [("KeyboardMapValue", [("A", "65\x00")])]

/-- The first lookup of the key answers with the whole text, the second with what is
before the zero. -/
theorem remembered_text_is_cut :
    ¬ Transparent .upToZero (some letterNames) (some zeroInText) none := by
  intro h
  rcases number_of_transparent h 65 with hSame | hEmpty
  · exact absurd hSame (by decide)
  · exact absurd hEmpty (by decide)

end PushStreamer
