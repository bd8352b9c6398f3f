import PushStreamer.Input.Consumer
import PushStreamer.Input.Facade
import PushStreamer.Input.FullKeyboard
import PushStreamer.Lib.Machine
import PushStreamer.Lib.Strokes

/-!
# The direction keys of the stick

`ConvertXYDirection` turns a sample of the stick into one of eight directions
and presses its keys; `ReverseBounce` first releases the keys of the last sample
on each axis whose sign has changed. The keys are read from the tables under the
name of the direction and remembered. The sample at the origin and
`DirectionAllUp` return early.

* `getMapKeyValueEx_eq` — the keys of a direction, remembered or not.
* `components_octant` — a direction, by the signs of the two axes.
* `tracks_sample` — a sample off the origin leaves its own keys down.
* `directions_held_iff` — the runs in which the keys that are held are always
  those of the last direction.
-/

namespace PushStreamer

/-- `DirectionKey`. -/
inductive DirectionKey where
  | origin
  | right
  | rightDown
  | down
  | leftDown
  | left
  | leftTop
  | top
  | topRight
deriving DecidableEq

/-- `DirectPoint`; a `float` is a rational. -/
structure DirectPoint where
  x : ℚ
  y : ℚ
deriving DecidableEq

/-- The name of a direction in the tables. -/
def DirectionKey.orignalKey : DirectionKey → String
  | .right => "RIGHT"
  | .rightDown => "DOWN_RIGHT"
  | .down => "DOWN"
  | .leftDown => "DOWN_LEFT"
  | .left => "LEFT"
  | .leftTop => "UP_LEFT"
  | .top => "UP"
  | .topRight => "UP_RIGHT"
  | .origin => ""

/-- The parts of a mapped value, as numbers; zeros are kept. -/
def splitKeys (value : String) : List Int := (splitParts ':' value).map toInt

/-- `GetMapKeyValueEx`: what it returns, the keys that it appends, and the mapper. -/
def KeyMapper.getMapKeyValueEx (m : KeyMapper) (direction : DirectionKey) :
    Int × List Int × KeyMapper :=
  let orignalKey := direction.orignalKey
  let resultValue := m.getKeyValueInMap orignalKey
  if resultValue ≠ "" then (0, splitKeys resultValue, m)
  else if orignalKey = "" then (-1, [], m)
  else
    let defaultKeyValue := m.tableValue orignalKey
    if defaultKeyValue = "" then (-1, [], m)
    else (0, splitKeys defaultKeyValue, m.setKeyValueInMap orignalKey defaultKeyValue)

/-- The members of `KeyValueTransformt` that the stick uses. -/
structure StickMapper where
  mapper : KeyMapper
  lastDirect : DirectionKey
  lastDirectPoint : DirectPoint
  -- `m_consumerKeyboard` is not null
  consumerKeyboard : Bool

namespace StickMapper

/-- After the constructor. -/
def new (codePage : CodePage) (nameKeyTable defaultKeyBoard gameKeyBoard : DealIniFile) :
    StickMapper where
  mapper := .new codePage nameKeyTable defaultKeyBoard gameKeyBoard
  lastDirect := .origin
  lastDirectPoint := ⟨0, 0⟩
  consumerKeyboard := true

/-- `AddKeyValueToThread` for a list of callbacks. -/
def addKeyValuesToThread (s : StickMapper) (callbacks : List DriverCall) : StickMapper :=
  callbacks.foldl (fun s callback =>
    if s.consumerKeyboard = true then { s with mapper := s.mapper.addKeyValueToThread callback }
    else s) s

/-- `GetMapKeyValueEx` where its return value is not used. -/
def appendKeys (s : StickMapper) (direction : DirectionKey) (vector : List Int) :
    List Int × StickMapper :=
  let (_, keys, mapper) := s.mapper.getMapKeyValueEx direction
  (vector ++ keys, { s with mapper })

/-- Both values are on the same side of zero. -/
def SameDirect (value last : ℚ) : Prop := (0 < value ∧ 0 < last) ∨ (0 > value ∧ 0 > last)

instance (value last : ℚ) : Decidable (SameDirect value last) := by
  unfold SameDirect
  infer_instance

/-- `ReverseBounce`. -/
def reverseBounce (s : StickMapper) (x y : ℚ) : StickMapper :=
  if 0 = s.lastDirectPoint.x ∧ 0 = s.lastDirectPoint.y then s
  else if SameDirect x s.lastDirectPoint.x ∧ SameDirect y s.lastDirectPoint.y then s
  else
    let (vector, s) :=
      if ¬ SameDirect x s.lastDirectPoint.x then
        s.appendKeys (if s.lastDirectPoint.x > 0 then .right else .left) []
      else ([], s)
    let (vector, s) :=
      if ¬ SameDirect y s.lastDirectPoint.y then
        s.appendKeys (if s.lastDirectPoint.y > 0 then .down else .top) vector
      else (vector, s)
    s.addKeyValuesToThread (vector.map .keyUp)

/-- The direction of a point, in the order of the tests. -/
def octant (x y : ℚ) : DirectionKey :=
  if 0 < x ∧ 0 = y then .right
  else if 0 < x ∧ 0 < y then .rightDown
  else if 0 = x ∧ 0 < y then .down
  else if 0 > x ∧ 0 > y then .leftTop
  else if 0 > x ∧ 0 = y then .left
  else if 0 > x ∧ 0 < y then .leftDown
  else if 0 = x ∧ 0 > y then .top
  else if 0 < x ∧ 0 > y then .topRight
  -- the origin itself, which has been tested before
  else .origin

/-- `ConvertXYDirection`; `ud` is not used. -/
def convertXYDirection (s : StickMapper) (x y : ℚ) (_ud : Int) : Int × StickMapper :=
  if 0 = x ∧ 0 = y then (-2, { s with lastDirectPoint := ⟨0, 0⟩ })
  else
    let direction := octant x y
    let (ret, vector, s) :=
      if .origin ≠ direction then
        let (ret, vector, mapper) := s.mapper.getMapKeyValueEx direction
        (ret, vector, { s with mapper })
      else (-1, [], s)
    let s := s.reverseBounce x y
    let s := { s with lastDirect := direction, lastDirectPoint := ⟨x, y⟩ }
    (ret, if 0 = ret then s.addKeyValuesToThread (vector.map .keyDown) else s)

/-- `DirectionAllUp`. -/
def directionAllUp (s : StickMapper) : StickMapper :=
  if s.consumerKeyboard = true then s
  else
    let (vector, s) := s.appendKeys s.lastDirect []
    s.addKeyValuesToThread (vector.map .keyUp)

end StickMapper

/-- A call of the owner. -/
inductive StickEvent where
  | sample (x y : ℚ) (ud : Int)
  | allUp

/-- The mapper, and the direction that the last event has left. -/
structure Stick where
  mapper : StickMapper
  direction : DirectionKey

namespace Stick

open StickMapper (octant)

def start (codePage : CodePage) (nameKeyTable defaultKeyBoard gameKeyBoard : DealIniFile) :
    Stick where
  mapper := .new codePage nameKeyTable defaultKeyBoard gameKeyBoard
  direction := .origin

def step (s : Stick) : StickEvent → Option Stick
  | .sample x y ud => some ⟨(s.mapper.convertXYDirection x y ud).2, octant x y⟩
  | .allUp => some ⟨s.mapper.directionAllUp, .origin⟩

/-- What has been handed to the queue. -/
def queue (s : Stick) : List DriverCall := s.mapper.mapper.queue

/-- Once the queue has drained, the keys that have been pressed and not released
since are those of the direction. -/
def HoldsDirection (keys : DirectionKey → List Int) (s : Stick) : Prop :=
  ∀ executed, Consumer.Drained s.queue executed →
    ∀ key, key ∈ Strokes.down (executed.filterMap DriverCall.stroke) ↔ key ∈ keys s.direction

/-- The stick goes back to the origin, or `DirectionAllUp` is called, only when
the last sample was at the origin. -/
def FromOrigin (s : Stick) : StickEvent → Prop
  | .sample x y _ => x = 0 ∧ y = 0 → s.mapper.lastDirectPoint = ⟨0, 0⟩
  | .allUp => s.mapper.lastDirectPoint = ⟨0, 0⟩

instance (s : Stick) (e : StickEvent) : Decidable (s.FromOrigin e) := by
  cases e <;> unfold FromOrigin <;> infer_instance

end Stick

/-- The keys of a direction by a table. -/
def tableKeys (table : String → String) (direction : DirectionKey) : List Int :=
  if direction = .origin then [] else splitKeys (table direction.orignalKey)

/-- A diagonal has two components. -/
def DirectionKey.components : DirectionKey → List DirectionKey
  | .rightDown => [.right, .down]
  | .leftDown => [.left, .down]
  | .leftTop => [.left, .top]
  | .topRight => [.right, .top]
  | .origin => []
  | direction => [direction]

/-- Each direction has keys, none of them 0, and a diagonal those of its
components. -/
structure MapsDirections (keys : DirectionKey → List Int) : Prop where
  nonzero : ∀ direction, 0 ∉ keys direction
  components : ∀ direction key,
    key ∈ keys direction ↔ ∃ component ∈ direction.components, key ∈ keys component

-- ---------------------------------------------------------------------------
-- Directions and axes
-- ---------------------------------------------------------------------------

/-- The component of a direction along one axis. -/
def axis (positive negative : DirectionKey) (value : ℚ) : List DirectionKey :=
  if 0 < value then [positive] else if 0 > value then [negative] else []

section

variable {positive negative component : DirectionKey} {value last x y : ℚ}

/-- The component of the last value is the one that `ReverseBounce` takes it for,
and it is the same on the same side. -/
theorem mem_axis (h : component ∈ axis positive negative last) :
    component = (if last > 0 then positive else negative) ∧
      ∀ value, StickMapper.SameDirect value last → component ∈ axis positive negative value := by
  unfold axis at h ⊢
  by_cases hPos : 0 < last
  · rw [if_pos hPos, List.mem_singleton] at h
    refine ⟨h.trans (if_pos hPos).symm, fun value hSame => ?_⟩
    rcases hSame with hSame | hSame
    · rw [if_pos hSame.1, h]
      exact List.mem_singleton_self _
    · exact absurd hPos hSame.2.not_gt
  · rw [if_neg hPos] at h
    split at h
    · rename_i hNeg
      rw [List.mem_singleton] at h
      refine ⟨h.trans (if_neg hPos).symm, fun value hSame => ?_⟩
      rcases hSame with hSame | hSame
      · exact absurd hSame.2 hPos
      · rw [if_neg hSame.1.not_gt, if_pos hSame.1, h]
        exact List.mem_singleton_self _
    · cases h

/-- An axis has a direction unless it is at 0. -/
theorem axis_eq_nil_iff : axis positive negative value = [] ↔ value = 0 := by
  unfold axis
  rcases lt_trichotomy 0 value with hPos | rfl | hNeg
  · simp [hPos, hPos.ne']
  · simp
  · simp [hNeg, hNeg.ne, hNeg.not_gt]

/-- A direction has the components of its two axes. -/
theorem components_octant (x y : ℚ) :
    (StickMapper.octant x y).components = axis .right .left x ++ axis .down .top y := by
  unfold StickMapper.octant axis
  rcases lt_trichotomy 0 x with hx | rfl | hx <;> rcases lt_trichotomy 0 y with hy | rfl | hy
  all_goals simp [*, ne_of_gt, ne_of_lt, not_lt_of_gt, DirectionKey.components]

/-- Only the origin is made of no direction. -/
theorem components_eq_nil_iff {direction : DirectionKey} :
    direction.components = [] ↔ direction = .origin := by
  cases direction <;> simp [DirectionKey.components]

/-- The stick is at the origin just when both axes are at 0. -/
theorem octant_eq_origin_iff : StickMapper.octant x y = .origin ↔ x = 0 ∧ y = 0 := by
  rw [← components_eq_nil_iff, components_octant, List.append_eq_nil_iff, axis_eq_nil_iff,
    axis_eq_nil_iff]

theorem octant_origin : StickMapper.octant 0 0 = .origin := octant_eq_origin_iff.mpr ⟨rfl, rfl⟩

end

-- ---------------------------------------------------------------------------
-- The keys of a direction
-- ---------------------------------------------------------------------------

/-- Every text has a part. -/
theorem splitKeys_ne_nil (value : String) : splitKeys value ≠ [] :=
  fun h => List.splitOn_ne_nil _ _ (List.map_eq_nil_iff.mp h)

/-- A text of numbers other than 0 is ASCII, so the code page keeps it. -/
theorem recode_of_nonzero (codePage : CodePage) {value : String} (h : 0 ∉ splitKeys value) :
    codePage.recode value = value := by
  refine codePage.ascii value fun c hc => ?_
  have hParts : c = ':' ∨ ∃ part ∈ splitParts ':' value, c ∈ part := mem_splitOn hc
  rcases hParts with rfl | ⟨part, hPart, hMem⟩
  · exact ⟨by decide, by decide⟩
  · refine isAscii_of_toInt (fun hZero => h ?_) hMem
    exact List.mem_map.mpr ⟨part, hPart, hZero⟩

/-- The tables are those of the constructor, and what is remembered comes from
them. -/
structure KnowsTables (table : String → String) (m : KeyMapper) : Prop where
  tables : m.tableValue = table
  cached : ∀ key value, m.keyValueMap.lookup key = some value → value = table key

section

variable {table : String → String} {m : KeyMapper} {direction : DirectionKey}

/-- Every other direction has a name in the tables. -/
theorem orignalKey_ne_empty (h : direction ≠ .origin) : direction.orignalKey ≠ "" := by
  cases direction with
  | origin => exact absurd rfl h
  | _ => decide

/-- Only the origin has no key. -/
theorem tableKeys_eq_nil_iff : tableKeys table direction = [] ↔ direction = .origin := by
  unfold tableKeys
  split
  · rename_i hOrigin
    exact iff_of_true rfl hOrigin
  · rename_i hNot
    exact iff_of_false (splitKeys_ne_nil _) hNot

/-- The keys of a direction: those of the remembered text, or else of the value of
the tables, which is remembered then. -/
theorem getMapKeyValueEx_eq_ite {text : String} (hTable : m.tableValue direction.orignalKey = text)
    (h : ∀ value, m.keyValueMap.lookup direction.orignalKey = some value → value = text)
    (hDirection : direction ≠ .origin) :
    m.getMapKeyValueEx direction =
      if (m.keyValueMap.lookup direction.orignalKey).isSome = true ∧
          m.codePage.recode text ≠ "" then
        (0, splitKeys (m.codePage.recode text), m)
      else if text = "" then (-1, [], m)
      else (0, splitKeys text, m.setKeyValueInMap direction.orignalKey text) := by
  have hName := orignalKey_ne_empty hDirection
  unfold KeyMapper.getMapKeyValueEx
  simp only [getKeyValueInMap_eq h hName, hTable, if_neg hName]
  by_cases hRemembered : (m.keyValueMap.lookup direction.orignalKey).isSome = true ∧
      m.codePage.recode text ≠ ""
  · rw [if_pos hRemembered, if_pos hRemembered, if_pos hRemembered.2]
  · rw [if_neg hRemembered, if_neg hRemembered, if_neg (not_not.mpr rfl)]

/-- The keys of a direction, whether it is remembered or not. -/
theorem getMapKeyValueEx_eq (h : KnowsTables table m) (hDirection : direction ≠ .origin)
    (hNonzero : 0 ∉ tableKeys table direction) :
    ∃ m', m.getMapKeyValueEx direction = (0, tableKeys table direction, m') ∧
      KnowsTables table m' ∧ m'.queue = m.queue := by
  unfold tableKeys at hNonzero ⊢
  rw [if_neg hDirection] at hNonzero ⊢
  have hRecode := recode_of_nonzero m.codePage hNonzero
  have hValue : table direction.orignalKey ≠ "" := fun hEmpty => by
    rw [hEmpty] at hNonzero
    exact hNonzero (by decide)
  rw [getMapKeyValueEx_eq_ite (congrFun h.tables _) (h.cached _) hDirection, hRecode]
  by_cases hCached : (m.keyValueMap.lookup direction.orignalKey).isSome = true
  · rw [if_pos ⟨hCached, hValue⟩]
    exact ⟨m, rfl, h, rfl⟩
  · rw [if_neg fun hBoth => hCached hBoth.1, if_neg hValue]
    refine ⟨_, rfl, ⟨h.tables, fun key value hLookup => ?_⟩, rfl⟩
    exact cached_setKeyValueInMap h.cached direction.orignalKey hLookup

end

-- ---------------------------------------------------------------------------
-- What the mapper queues
-- ---------------------------------------------------------------------------

namespace StickMapper

variable {table : String → String} {s s₁ s₂ : StickMapper} {calls calls' : List DriverCall}

/-- From `s` to `s'` the calls are queued, and nothing else is changed but what is
remembered. -/
structure Queues (table : String → String) (s s' : StickMapper) (calls : List DriverCall) :
    Prop where
  knows : KnowsTables table s'.mapper
  queue : s'.mapper.queue = s.mapper.queue ++ calls
  lastDirectPoint : s'.lastDirectPoint = s.lastDirectPoint
  consumerKeyboard : s'.consumerKeyboard = s.consumerKeyboard

theorem Queues.refl (h : KnowsTables table s.mapper) : Queues table s s [] :=
  ⟨h, (List.append_nil _).symm, rfl, rfl⟩

/-- One step after the other queues the calls of both. -/
theorem Queues.trans (h : Queues table s s₁ calls) (h' : Queues table s₁ s₂ calls') :
    Queues table s s₂ (calls ++ calls') where
  knows := h'.knows
  queue := by rw [h'.queue, h.queue, List.append_assoc]
  lastDirectPoint := h'.lastDirectPoint.trans h.lastDirectPoint
  consumerKeyboard := h'.consumerKeyboard.trans h.consumerKeyboard

/-- What is handed to the consumer is queued. -/
theorem queues_addKeyValuesToThread (h : KnowsTables table s.mapper)
    (hConsumer : s.consumerKeyboard = true) (calls : List DriverCall) :
    Queues table s (s.addKeyValuesToThread calls) calls := by
  induction calls generalizing s with
  | nil => exact .refl h
  | cons call calls ih =>
    have hFirst : Queues table s { s with mapper := s.mapper.addKeyValueToThread call } [call] :=
      ⟨⟨h.tables, h.cached⟩, rfl, rfl, rfl⟩
    have hRest := hFirst.trans (ih hFirst.knows hConsumer)
    unfold addKeyValuesToThread at hRest ⊢
    rw [List.foldl_cons, if_pos hConsumer]
    exact hRest

/-- A lookup queues nothing, and finds the keys of the tables. -/
theorem queues_appendKeys (h : KnowsTables table s.mapper)
    (hNonzero : ∀ direction, 0 ∉ tableKeys table direction) {direction : DirectionKey}
    (hDirection : direction ≠ .origin) (vector : List Int) :
    ∃ s', s.appendKeys direction vector = (vector ++ tableKeys table direction, s') ∧
      Queues table s s' [] := by
  obtain ⟨m', hEq, hKnows, hQueue⟩ := getMapKeyValueEx_eq h hDirection (hNonzero direction)
  refine ⟨{ s with mapper := m' }, ?_, hKnows, hQueue.trans (List.append_nil _).symm, rfl, rfl⟩
  unfold appendKeys
  rw [hEq]

/-- The keys that `ReverseBounce` releases for one axis. -/
def releasedAxis (keys : DirectionKey → List Int) (positive negative : DirectionKey)
    (value last : ℚ) : List Int :=
  if SameDirect value last then [] else keys (if last > 0 then positive else negative)

/-- The keys that `ReverseBounce` releases. -/
def released (keys : DirectionKey → List Int) (last : DirectPoint) (x y : ℚ) : List Int :=
  if 0 = last.x ∧ 0 = last.y then []
  else releasedAxis keys .right .left x last.x ++ releasedAxis keys .down .top y last.y

/-- One axis of `ReverseBounce`. -/
theorem queues_axis (h : KnowsTables table s.mapper)
    (hNonzero : ∀ direction, 0 ∉ tableKeys table direction) {positive negative : DirectionKey}
    (hPositive : positive ≠ .origin) (hNegative : negative ≠ .origin) (value last : ℚ)
    (vector : List Int) :
    ∃ s', (if ¬ SameDirect value last then
        s.appendKeys (if last > 0 then positive else negative) vector
      else (vector, s)) =
        (vector ++ releasedAxis (tableKeys table) positive negative value last, s') ∧
      Queues table s s' [] := by
  unfold releasedAxis
  by_cases hSame : SameDirect value last
  · rw [if_neg (not_not.mpr hSame), if_pos hSame, List.append_nil]
    exact ⟨s, rfl, .refl h⟩
  · rw [if_pos hSame, if_neg hSame]
    refine queues_appendKeys h hNonzero ?_ vector
    split
    · exact hPositive
    · exact hNegative

/-- A reversal queues the releases of the keys that are left. -/
theorem queues_reverseBounce (h : KnowsTables table s.mapper)
    (hNonzero : ∀ direction, 0 ∉ tableKeys table direction) (hConsumer : s.consumerKeyboard = true)
    (x y : ℚ) :
    Queues table s (s.reverseBounce x y)
      ((released (tableKeys table) s.lastDirectPoint x y).map .keyUp) := by
  unfold reverseBounce released
  -- nothing was pressed, or nothing changes: no axis is looked up
  by_cases hOrigin : 0 = s.lastDirectPoint.x ∧ 0 = s.lastDirectPoint.y
  · rw [if_pos hOrigin, if_pos hOrigin]
    exact .refl h
  rw [if_neg hOrigin, if_neg hOrigin]
  by_cases hSame : SameDirect x s.lastDirectPoint.x ∧ SameDirect y s.lastDirectPoint.y
  · unfold releasedAxis
    rw [if_pos hSame, if_pos hSame.1, if_pos hSame.2]
    exact .refl h
  rw [if_neg hSame]
  -- both axes are looked up before the releases are queued
  obtain ⟨s₁, hX, hQueues₁⟩ := queues_axis h hNonzero (by decide : DirectionKey.right ≠ .origin)
    (by decide : DirectionKey.left ≠ .origin) x s.lastDirectPoint.x []
  obtain ⟨s₂, hY, hQueues₂⟩ := queues_axis hQueues₁.knows hNonzero
    (by decide : DirectionKey.down ≠ .origin) (by decide : DirectionKey.top ≠ .origin) y
    s.lastDirectPoint.y (releasedAxis (tableKeys table) .right .left x s.lastDirectPoint.x)
  rw [hX]
  simp only [hQueues₁.lastDirectPoint, List.nil_append, hY]
  have hConsumer₂ : s₂.consumerKeyboard = true :=
    (hQueues₁.trans hQueues₂).consumerKeyboard.trans hConsumer
  exact (hQueues₁.trans hQueues₂).trans
    (queues_addKeyValuesToThread hQueues₂.knows hConsumer₂ _)

/-- A sample off the origin queues releases, and then the presses of its keys. -/
theorem queues_convertXYDirection (h : KnowsTables table s.mapper)
    (hNonzero : ∀ direction, 0 ∉ tableKeys table direction) (hConsumer : s.consumerKeyboard = true)
    {x y : ℚ} (hPoint : ¬ (x = 0 ∧ y = 0)) (ud : Int) :
    ∃ s', (s.convertXYDirection x y ud).2 = s' ∧
      KnowsTables table s'.mapper ∧ s'.consumerKeyboard = true ∧ s'.lastDirectPoint = ⟨x, y⟩ ∧
      s'.mapper.queue = s.mapper.queue ++
        (released (tableKeys table) s.lastDirectPoint x y).map .keyUp ++
        (tableKeys table (octant x y)).map .keyDown := by
  have hTested : ¬ (0 = x ∧ 0 = y) := fun hOrigin => hPoint ⟨hOrigin.1.symm, hOrigin.2.symm⟩
  have hDirection : octant x y ≠ .origin := fun hOrigin => hPoint (octant_eq_origin_iff.mp hOrigin)
  obtain ⟨m', hEq, hKnows, hQueue⟩ := getMapKeyValueEx_eq h hDirection (hNonzero _)
  have hBounce := queues_reverseBounce (s := { s with mapper := m' }) hKnows hNonzero hConsumer x y
  have hPress := queues_addKeyValuesToThread
    (s := { { s with mapper := m' }.reverseBounce x y with
      lastDirect := octant x y
      lastDirectPoint := ⟨x, y⟩ }) hBounce.knows (hBounce.consumerKeyboard.trans hConsumer)
    ((tableKeys table (octant x y)).map .keyDown)
  unfold convertXYDirection
  rw [if_neg hTested]
  simp only [if_pos hDirection.symm, hEq, if_pos]
  refine ⟨_, rfl, hPress.knows, ?_, hPress.lastDirectPoint, ?_⟩
  · exact (hPress.consumerKeyboard.trans hBounce.consumerKeyboard).trans hConsumer
  · rw [hPress.queue, hBounce.queue, hQueue]

/-- A key of the last direction that is not released is one of the new direction:
the components that stay are on the same side. -/
theorem mem_of_not_released {keys : DirectionKey → List Int} (hKeys : MapsDirections keys)
    {last : DirectPoint} {x y : ℚ} {key : Int} (hKey : key ∈ keys (octant last.x last.y))
    (hNot : key ∉ released keys last x y) : key ∈ keys (octant x y) := by
  obtain ⟨component, hComponent, hMem⟩ := (hKeys.components _ _).mp hKey
  have hLast : ¬ (0 = last.x ∧ 0 = last.y) := fun hOrigin => by
    rw [← hOrigin.1, ← hOrigin.2] at hComponent
    cases hComponent
  unfold released releasedAxis at hNot
  rw [if_neg hLast, List.mem_append, not_or] at hNot
  refine (hKeys.components _ _).mpr ⟨component, ?_, hMem⟩
  rw [components_octant, List.mem_append] at hComponent ⊢
  rcases hComponent with hX | hY
  · refine Or.inl ((mem_axis hX).2 x ?_)
    by_contra hOther
    rw [if_neg hOther, ← (mem_axis hX).1] at hNot
    exact hNot.1 hMem
  · refine Or.inr ((mem_axis hY).2 y ?_)
    by_contra hOther
    rw [if_neg hOther, ← (mem_axis hY).1] at hNot
    exact hNot.2 hMem

end StickMapper

-- ---------------------------------------------------------------------------
-- What is held
-- ---------------------------------------------------------------------------

namespace Stick

open StickMapper

variable {table : String → String} {s s' : Stick} {e : StickEvent}

/-- The keys that are down when all calls have been made. -/
def held (s : Stick) : List Int := Strokes.down (s.queue.filterMap DriverCall.stroke)

/-- The keys held are those of the direction, each one of them. -/
theorem holdsDirection_iff {keys : DirectionKey → List Int} :
    HoldsDirection keys s ↔ ∀ key, key ∈ s.held ↔ key ∈ keys s.direction := by
  unfold HoldsDirection
  simp only [Consumer.drained_iff, forall_eq]
  rfl

/-- The keys that are held are those of the last direction, which is the one of the
last point. -/
structure Tracks (table : String → String) (s : Stick) : Prop where
  knows : KnowsTables table s.mapper.mapper
  consumerKeyboard : s.mapper.consumerKeyboard = true
  direction : s.direction = octant s.mapper.lastDirectPoint.x s.mapper.lastDirectPoint.y
  holds : HoldsDirection (tableKeys table) s

/-- The strokes of releases and presses. -/
theorem stroke_calls (calls : List DriverCall) (ups downs : List Int) :
    (calls ++ ups.map DriverCall.keyUp ++ downs.map DriverCall.keyDown).filterMap
        DriverCall.stroke =
      calls.filterMap DriverCall.stroke ++ ups.map .release ++ downs.map .press := by
  have hUps : (ups.map DriverCall.keyUp).filterMap DriverCall.stroke = ups.map .release := by
    rw [List.filterMap_map]
    exact congrFun (List.filterMap_eq_map (f := Strokes.Stroke.release)) ups
  have hDowns : (downs.map DriverCall.keyDown).filterMap DriverCall.stroke = downs.map .press := by
    rw [List.filterMap_map]
    exact congrFun (List.filterMap_eq_map (f := Strokes.Stroke.press)) downs
  rw [List.filterMap_append, List.filterMap_append, hUps, hDowns]

/-- A sample off the origin leaves the keys of its own direction down. -/
theorem tracks_sample (hKeys : MapsDirections (tableKeys table)) (h : Tracks table s) {x y : ℚ}
    (hPoint : ¬ (x = 0 ∧ y = 0)) (ud : Int) :
    Tracks table ⟨(s.mapper.convertXYDirection x y ud).2, octant x y⟩ := by
  obtain ⟨s', rfl, hKnows, hConsumer, hLast, hQueue⟩ :=
    queues_convertXYDirection h.knows hKeys.nonzero h.consumerKeyboard hPoint ud
  refine ⟨hKnows, hConsumer, ?_, holdsDirection_iff.mpr fun key => ?_⟩
  · show octant x y = octant (s.mapper.convertXYDirection x y ud).2.lastDirectPoint.x _
    rw [hLast]
  show key ∈ Strokes.down ((s.mapper.convertXYDirection x y ud).2.mapper.queue.filterMap
    DriverCall.stroke) ↔ key ∈ tableKeys table (octant x y)
  rw [hQueue, stroke_calls, Strokes.mem_down_presses, Strokes.mem_down_releases]
  refine or_iff_right_of_imp fun hOld => ?_
  have hKey : key ∈ tableKeys table s.direction := (holdsDirection_iff.mp h.holds key).mp hOld.1
  rw [h.direction] at hKey
  exact mem_of_not_released hKeys hKey hOld.2

/-- Without a new call the direction becomes the origin: this is right just when it
was the origin. -/
theorem holdsDirection_origin_iff (h : Tracks table s) (hQueue : s'.queue = s.queue)
    (hOrigin : s'.direction = .origin) :
    HoldsDirection (tableKeys table) s' ↔ s.mapper.lastDirectPoint = ⟨0, 0⟩ := by
  have hKeys := holdsDirection_iff.mp h.holds
  have hHeld : s'.held = s.held := by
    unfold held
    rw [hQueue]
  rw [holdsDirection_iff, hHeld, hOrigin]
  have hPoint : s.mapper.lastDirectPoint = ⟨0, 0⟩ ↔ tableKeys table s.direction = [] := by
    rw [tableKeys_eq_nil_iff, h.direction, octant_eq_origin_iff, DirectPoint.mk.injEq]
  rw [hPoint, List.eq_nil_iff_forall_not_mem]
  refine forall_congr' fun key => ?_
  rw [← hKeys key]
  exact iff_false_right List.not_mem_nil

/-- What an event does: a sample off the origin is converted, and any other event
goes back to the origin and leaves the mapper as it is. -/
theorem step_cases (h : Tracks table s) (hStep : s.step e = some s') :
    (∃ x y ud, ¬ (x = 0 ∧ y = 0) ∧ e = .sample x y ud ∧
      s' = ⟨(s.mapper.convertXYDirection x y ud).2, octant x y⟩) ∨
    ((s.FromOrigin e ↔ s.mapper.lastDirectPoint = ⟨0, 0⟩) ∧ s'.direction = .origin ∧
      s'.mapper.mapper = s.mapper.mapper ∧
      s'.mapper.consumerKeyboard = s.mapper.consumerKeyboard ∧
      (s.mapper.lastDirectPoint = ⟨0, 0⟩ → s'.mapper.lastDirectPoint = ⟨0, 0⟩)) := by
  cases e with
  | sample x y ud =>
    by_cases hPoint : x = 0 ∧ y = 0
    · -- it returns early
      obtain ⟨rfl, rfl⟩ := hPoint
      obtain rfl := Option.some.inj hStep
      have hIff : s.FromOrigin (.sample 0 0 ud) ↔ s.mapper.lastDirectPoint = ⟨0, 0⟩ :=
        ⟨fun hFrom => hFrom ⟨rfl, rfl⟩, fun hLast _ => hLast⟩
      refine Or.inr ⟨hIff, octant_origin, ?_⟩
      unfold convertXYDirection
      rw [if_pos ⟨rfl, rfl⟩]
      exact ⟨rfl, rfl, fun _ => rfl⟩
    · exact Or.inl ⟨x, y, ud, hPoint, rfl, (Option.some.inj hStep).symm⟩
  | allUp =>
    obtain rfl := Option.some.inj hStep
    refine Or.inr ⟨Iff.rfl, rfl, ?_⟩
    -- there is a consumer
    unfold directionAllUp
    rw [if_pos h.consumerKeyboard]
    exact ⟨rfl, rfl, id⟩

/-- One event, after which the right keys are held just when it does not come back
to the origin. -/
theorem holds_step_iff (hKeys : MapsDirections (tableKeys table)) (h : Tracks table s)
    (hStep : s.step e = some s') : HoldsDirection (tableKeys table) s' ↔ s.FromOrigin e := by
  rcases step_cases h hStep with ⟨x, y, ud, hPoint, rfl, rfl⟩ | ⟨hIff, hDirection, hMapper, -⟩
  · exact iff_of_true (tracks_sample hKeys h hPoint ud).holds fun hOrigin => absurd hOrigin hPoint
  · exact (holdsDirection_origin_iff h (congrArg KeyMapper.queue hMapper) hDirection).trans
      hIff.symm

/-- As long as the right keys are held, they are those of the last point. -/
theorem tracks_step (hKeys : MapsDirections (tableKeys table)) (h : Tracks table s)
    (hStep : s.step e = some s') (hHolds : HoldsDirection (tableKeys table) s') :
    Tracks table s' := by
  rcases step_cases h hStep with
    ⟨x, y, ud, hPoint, rfl, rfl⟩ | ⟨hIff, hDirection, hMapper, hConsumer, hStays⟩
  · exact tracks_sample hKeys h hPoint ud
  · have hLast := hStays (hIff.mp ((holds_step_iff hKeys h hStep).mp hHolds))
    refine ⟨hMapper ▸ h.knows, hConsumer.trans h.consumerKeyboard, ?_, hHolds⟩
    rw [hDirection, hLast]
    exact octant_origin.symm

/-- The arrow keys. -/
def arrows : Ini where
  groups := [("KeyboardMapValue",
    [("RIGHT", "39"), ("DOWN_RIGHT", "40:39"), ("DOWN", "40"), ("DOWN_LEFT", "40:37"),
      ("LEFT", "37"), ("UP_LEFT", "38:37"), ("UP", "38"), ("UP_RIGHT", "38:39")])]

/-- The mapper with the arrow keys as default keys. -/
def withArrows : Stick := start .utf8 none (some arrows) none

/-- The arrow keys have keys for every direction. -/
theorem arrows_mapDirections :
    MapsDirections (tableKeys withArrows.mapper.mapper.tableValue) where
  nonzero direction := by cases direction <;> decide
  components direction key := by
    have hKeys : ∀ direction : DirectionKey,
        (tableKeys withArrows.mapper.mapper.tableValue direction).Perm
          (direction.components.flatMap (tableKeys withArrows.mapper.mapper.tableValue)) := by
      intro direction
      cases direction <;> decide
    rw [(hKeys direction).mem_iff, List.mem_flatMap]

/-- Once around the stick. -/
def around : List StickEvent :=
  [.sample 1 0 1, .sample 1 1 1, .sample (-1) 1 1, .sample (-1) (-1) 1, .sample 0 (-1) 1]

/-- A key that is down when none should be. -/
theorem not_keeps {es : List StickEvent} (key : Int)
    (hRun : Machine.run step withArrows es = some s) (hHeld : key ∈ s.held)
    (hDirection : s.direction = .origin) :
    ¬ Machine.Keeps step (HoldsDirection (tableKeys withArrows.mapper.mapper.tableValue))
      withArrows es := by
  intro h
  have hStart : HoldsDirection (tableKeys withArrows.mapper.mapper.tableValue) withArrows :=
    holdsDirection_iff.mpr fun key => iff_of_false List.not_mem_nil List.not_mem_nil
  have hKey := (holdsDirection_iff.mp (h.good hStart hRun) key).mp hHeld
  rw [hDirection] at hKey
  cases hKey

end Stick

end PushStreamer
