import PushStreamer.Lib.Machine
import Mathlib.Data.List.Basic
import Mathlib.Tactic.Common

/-!
# The HID keyboard of `libGetrtpcmd`

`KeyDown` and `KeyUp` keep up to five held keys in `keycodelist` and one
modifier in `Modkeycodelist`, and send the driver a report of them. Codes are
translated by the tables `KeyCode` and `ModifiersKeyCodes`, two `std::map`s
that `KeyCodeInit` fills; `operator[]` on such a map inserts a missing code, so
the maps are part of the state.

The state is well formed (`WellFormed`) after `KeyCodeInit` and every call
keeps it so: the maps never change again and the five slots hold codes of the
`KeyCode` table. What a call reports follows from this:

* `keyDown_eq`, `keyUp_eq` — one call in a well-formed state, and its report.
* `reports_truthful_iff` — the reports of a run show the slots of
  `keycodelist` exactly when every press of a code outside `KeyCode` finds all
  slots free.
-/

namespace PushStreamer.Hid

/-- `map<int, BYTE>`. -/
abbrev CodeMap := List (Int × UInt8)

/-- `insert(pair(k, v))`: a code that is there keeps its value. -/
def CodeMap.insert (m : CodeMap) (k : Int) (v : UInt8) : CodeMap :=
  if (m.lookup k).isSome then m else m ++ [(k, v)]

/-- `m[k]`: the value of `k`, inserted as `0` when missing. -/
def CodeMap.index (m : CodeMap) (k : Int) : UInt8 × CodeMap :=
  match m.lookup k with
  | some v => (v, m)
  | none => (0, m ++ [(k, 0)])

/-- `m[k]` for each code of a list, in order. -/
def CodeMap.indexAll : CodeMap → List Int → List UInt8 × CodeMap
  | m, [] => ([], m)
  | m, k :: ks =>
    let (v, m) := m.index k
    let (vs, m) := m.indexAll ks
    (v :: vs, m)

/-- The globals of `libGetrtpcmd_copy.cpp`; `keycodelist` has five slots, `0`
is a free one. -/
structure HidState where
  keycodelist : List Int
  modkeycodelist : Int
  keyCode : CodeMap
  modifiersKeyCodes : CodeMap
deriving DecidableEq

/-- `HIDMINI_CONTROL_INFO` with its member initializers; `keys` are `key0` to
`key4`. -/
structure ControlInfo where
  reportId : UInt8 := 1
  commandCode : UInt8 := 2
  timeout : Nat := 1000
  modifier : UInt8 := 0
  padding : UInt8 := 0
  keys : List UInt8 := [0, 0, 0, 0, 0]
  key5 : UInt8 := 0
deriving DecidableEq

/-- The pairs that `KeyCodeInit` inserts into `KeyCode`. -/
def keyCodeTable : CodeMap :=
  [(0, 0), (48, 39), (49, 30), (50, 31), (51, 32), (52, 33), (53, 34), (54, 35), (55, 36),
   (56, 37), (57, 38), (65, 4), (66, 5), (67, 6), (68, 7), (69, 8), (70, 9), (71, 10),
   (72, 11), (73, 12), (74, 13), (75, 14), (76, 15), (77, 16), (78, 17), (79, 18),
   (80, 19), (81, 20), (82, 21), (83, 22), (84, 23), (85, 24), (86, 25), (87, 26),
   (88, 27), (89, 28), (90, 29), (96, 98), (97, 89), (98, 90), (99, 91), (100, 92),
   (101, 93), (102, 94), (103, 95), (104, 96), (105, 97), (106, 85), (107, 87), (108, 88),
   (109, 86), (110, 99), (111, 84), (112, 58), (113, 59), (114, 60), (115, 61), (116, 62),
   (117, 63), (118, 64), (119, 65), (120, 66), (121, 67), (122, 68), (123, 69), (8, 42),
   (9, 43), (13, 40), (20, 57), (27, 41), (32, 44), (33, 75), (34, 78), (35, 77), (36, 74),
   (37, 80), (38, 82), (39, 79), (40, 81), (45, 73), (46, 76), (144, 83), (186, 51),
   (187, 46), (188, 54), (189, 45), (190, 55), (191, 56), (192, 53), (219, 47), (220, 49),
   (221, 48), (222, 50)]

/-- The pairs that `KeyCodeInit` inserts into `ModifiersKeyCodes`. -/
def modifiersTable : CodeMap :=
  [(0, 0), (17, 1), (16, 2), (18, 4), (91, 8), (317, 16), (316, 32), (318, 64), (391, 128)]

/-- The globals when the program starts. -/
def start : HidState :=
  { keycodelist := [], modkeycodelist := 0, keyCode := [], modifiersKeyCodes := [] }

/-- `KeyCodeInit`. -/
def keyCodeInit (s : HidState) : HidState :=
  { s with
    keycodelist := [0, 0, 0, 0, 0]
    keyCode := keyCodeTable.foldl (fun m x => m.insert x.1 x.2) s.keyCode
    modifiersKeyCodes := modifiersTable.foldl (fun m x => m.insert x.1 x.2) s.modifiersKeyCodes }

/-- Put `k` into the first free slot; nothing happens when there is none. -/
def fillFreeSlot (k : Int) : List Int → List Int
  | [] => []
  | slot :: slots => if slot = 0 then k :: slots else slot :: fillFreeSlot k slots

/-- `KeyDown`: the state after the call and the report it sends. -/
def keyDown (jskeycode : Int) (s : HidState) : HidState × ControlInfo :=
  let (s, keyinfo) :=
    if (s.keyCode.lookup jskeycode).isSome then
      let keycodelist :=
        if jskeycode ∈ s.keycodelist then s.keycodelist else fillFreeSlot jskeycode s.keycodelist
      let (keys, keyCode) := s.keyCode.indexAll keycodelist
      ({ s with keycodelist, keyCode }, { keys : ControlInfo })
    else (s, {})
  let s :=
    if (s.modifiersKeyCodes.lookup jskeycode).isSome then { s with modkeycodelist := jskeycode }
    else s
  let (modifier, modifiersKeyCodes) := s.modifiersKeyCodes.index s.modkeycodelist
  ({ s with modifiersKeyCodes }, { keyinfo with modifier })

/-- `KeyUp`: the state after the call and the report it sends. -/
def keyUp (jskeycode : Int) (s : HidState) : HidState × ControlInfo :=
  let keycodelist := s.keycodelist.map fun slot => if slot = jskeycode then 0 else slot
  let modkeycodelist := if s.modkeycodelist = jskeycode then 0 else s.modkeycodelist
  let (modifier, modifiersKeyCodes) := s.modifiersKeyCodes.index modkeycodelist
  let (keys, keyCode) := s.keyCode.indexAll keycodelist
  ({ keycodelist, modkeycodelist, keyCode, modifiersKeyCodes }, { modifier, keys })

/-- A call of the keyboard functions. -/
inductive Call where
  | keyDown (jskeycode : Int)
  | keyUp (jskeycode : Int)
deriving DecidableEq

def Call.exec : Call → HidState → HidState × ControlInfo
  | .keyDown k => Hid.keyDown k
  | .keyUp k => Hid.keyUp k

/-- The keyboard as a machine over calls. -/
def step (s : HidState) (c : Call) : Option HidState := some (c.exec s).1

/-! ## The tables -/

/-- The byte that the `KeyCode` table gives a code, `0` for a code outside it. -/
def keyByte (k : Int) : UInt8 := (keyCodeTable.lookup k).getD 0

/-- `k` is a code of the `KeyCode` table. -/
def InKeyCode (k : Int) : Prop := (keyCodeTable.lookup k).isSome = true

instance : DecidablePred InKeyCode := fun k => by unfold InKeyCode; infer_instance

/-- A look for a key that is there inserts nothing. -/
theorem index_of_isSome {m : CodeMap} {k : Int} (h : (m.lookup k).isSome = true) :
    m.index k = ((m.lookup k).getD 0, m) := by
  obtain ⟨v, hv⟩ := Option.isSome_iff_exists.mp h
  simp [CodeMap.index, hv]

/-- The same of all the slots. -/
theorem indexAll_of_isSome {m : CodeMap} {ks : List Int}
    (h : ∀ k ∈ ks, (m.lookup k).isSome = true) :
    m.indexAll ks = (ks.map fun k => (m.lookup k).getD 0, m) := by
  induction ks with
  | nil => rfl
  | cons k ks ih =>
    rw [CodeMap.indexAll, index_of_isSome (h k (List.mem_cons_self ..))]
    simp only [ih fun x hx => h x (List.mem_cons_of_mem _ hx), List.map_cons]

/-- Only the code `0` has the byte `0`. -/
theorem keyByte_eq_zero {k : Int} (h : InKeyCode k) : keyByte k = 0 ↔ k = 0 := by
  have hTable : ∀ x ∈ keyCodeTable, x.2 = 0 ↔ x.1 = 0 := by decide
  obtain ⟨v, hv⟩ := Option.isSome_iff_exists.mp h
  have hMem : (k, v) ∈ keyCodeTable := by
    obtain ⟨l₁, l₂, hl, -⟩ := List.lookup_eq_some_iff.mp hv
    rw [hl]
    simp
  rw [keyByte, hv]
  exact hTable _ hMem

/-! ## The invariant -/

/-- The maps are as `KeyCodeInit` left them, and the slots hold codes of them. -/
structure WellFormed (s : HidState) : Prop where
  keyCode : s.keyCode = keyCodeTable
  modifiersKeyCodes : s.modifiersKeyCodes = modifiersTable
  length : s.keycodelist.length = 5
  slots : ∀ k ∈ s.keycodelist, InKeyCode k
  modifier : (modifiersTable.lookup s.modkeycodelist).isSome = true

theorem inKeyCode_zero : InKeyCode 0 := by decide

/-- The tables are filled before the first call. -/
theorem wellFormed_keyCodeInit : WellFormed (keyCodeInit start) where
  keyCode := by decide +kernel
  modifiersKeyCodes := by decide +kernel
  length := rfl
  slots := by decide
  modifier := by decide

/-- The number of slots stays. -/
theorem length_fillFreeSlot (k : Int) (slots : List Int) :
    (fillFreeSlot k slots).length = slots.length := by
  induction slots with
  | nil => rfl
  | cons slot slots ih =>
    rw [fillFreeSlot]
    split
    · rfl
    · rw [List.length_cons, ih, List.length_cons]

/-- A slot holds the new key or one that it held. -/
theorem mem_fillFreeSlot {k x : Int} {slots : List Int} (h : x ∈ fillFreeSlot k slots) :
    x = k ∨ x ∈ slots := by
  induction slots with
  | nil => simp [fillFreeSlot] at h
  | cons slot slots ih =>
    rw [fillFreeSlot] at h
    split at h
    · rcases List.mem_cons.mp h with rfl | hx
      · exact Or.inl rfl
      · exact Or.inr (List.mem_cons_of_mem _ hx)
    · rcases List.mem_cons.mp h with rfl | hx
      · exact Or.inr (List.mem_cons_self ..)
      · exact (ih hx).imp_right (List.mem_cons_of_mem _)

/-- The slots after `KeyDown`. -/
def pressSlots (k : Int) (slots : List Int) : List Int :=
  if InKeyCode k then if k ∈ slots then slots else fillFreeSlot k slots else slots

/-- The slots after `KeyUp`. -/
def releaseSlots (k : Int) (slots : List Int) : List Int :=
  slots.map fun slot => if slot = k then 0 else slot

/-- A press puts keys of the table into the slots only. -/
theorem inKeyCode_of_mem_pressSlots {k x : Int} {slots : List Int}
    (h : ∀ k ∈ slots, InKeyCode k) (hx : x ∈ pressSlots k slots) : InKeyCode x := by
  unfold pressSlots at hx
  split at hx
  · rename_i hk
    split at hx
    · exact h x hx
    · rcases mem_fillFreeSlot hx with rfl | hx
      · exact hk
      · exact h x hx
  · exact h x hx

/-- A release puts no new key into them. -/
theorem inKeyCode_of_mem_releaseSlots {k x : Int} {slots : List Int}
    (h : ∀ k ∈ slots, InKeyCode k) (hx : x ∈ releaseSlots k slots) : InKeyCode x := by
  obtain ⟨slot, hSlot, rfl⟩ := List.mem_map.mp hx
  split
  · exact inKeyCode_zero
  · exact h slot hSlot

/-- The bytes of the slots are those of the table. -/
theorem indexAll_keyCodeTable {ks : List Int} (h : ∀ k ∈ ks, InKeyCode k) :
    CodeMap.indexAll keyCodeTable ks = (ks.map keyByte, keyCodeTable) :=
  indexAll_of_isSome h

/-- The modifier after `KeyDown`. -/
def pressModifier (k modkeycodelist : Int) : Int :=
  if (modifiersTable.lookup k).isSome then k else modkeycodelist

/-- What `KeyDown` does to a well-formed state, and what it reports: the slots
only when the code is in the `KeyCode` table. -/
theorem keyDown_eq {s : HidState} (h : WellFormed s) (k : Int) :
    keyDown k s =
      ({ s with
          keycodelist := pressSlots k s.keycodelist
          modkeycodelist := pressModifier k s.modkeycodelist },
        { modifier := (modifiersTable.lookup (pressModifier k s.modkeycodelist)).getD 0
          keys :=
            if InKeyCode k then (pressSlots k s.keycodelist).map keyByte
            else [0, 0, 0, 0, 0] }) := by
  obtain ⟨keycodelist, modkeycodelist, keyCode, modifiersKeyCodes⟩ := s
  obtain ⟨rfl, rfl, -, hSlots, hMod⟩ := h
  have hModAfter : (modifiersTable.lookup (pressModifier k modkeycodelist)).isSome = true := by
    unfold pressModifier
    split <;> assumption
  have hAll := indexAll_keyCodeTable fun x hx => inKeyCode_of_mem_pressSlots (k := k) hSlots hx
  by_cases hk : InKeyCode k
  · have hk' : (List.lookup k keyCodeTable).isSome = true := hk
    simp only [pressSlots, if_pos hk] at hAll
    simp only [keyDown, hk', if_true, hAll, pressSlots, if_pos hk]
    by_cases hm : (List.lookup k modifiersTable).isSome = true
    · simp [hm, pressModifier, index_of_isSome hm]
    · simp [hm, pressModifier, index_of_isSome hMod]
  · have hk' : ¬ (List.lookup k keyCodeTable).isSome = true := hk
    simp only [keyDown, hk', pressSlots, if_neg hk]
    by_cases hm : (List.lookup k modifiersTable).isSome = true
    · simp [hm, pressModifier, index_of_isSome hm]
    · simp [hm, pressModifier, index_of_isSome hMod]

/-- The modifier after `KeyUp`. -/
def releaseModifier (k modkeycodelist : Int) : Int :=
  if modkeycodelist = k then 0 else modkeycodelist

/-- A modifier that is released leaves a code of the table. -/
theorem isSome_releaseModifier {k m : Int} (h : (modifiersTable.lookup m).isSome = true) :
    (modifiersTable.lookup (releaseModifier k m)).isSome = true := by
  unfold releaseModifier
  split
  · decide
  · exact h

/-- What `KeyUp` does to a well-formed state, and what it reports: always the
slots. -/
theorem keyUp_eq {s : HidState} (h : WellFormed s) (k : Int) :
    keyUp k s =
      ({ s with
          keycodelist := releaseSlots k s.keycodelist
          modkeycodelist := releaseModifier k s.modkeycodelist },
        { modifier := (modifiersTable.lookup (releaseModifier k s.modkeycodelist)).getD 0
          keys := (releaseSlots k s.keycodelist).map keyByte }) := by
  obtain ⟨keycodelist, modkeycodelist, keyCode, modifiersKeyCodes⟩ := s
  obtain ⟨rfl, rfl, -, hSlots, hMod⟩ := h
  have hAll := indexAll_keyCodeTable fun x hx => inKeyCode_of_mem_releaseSlots (k := k) hSlots hx
  simp only [releaseSlots] at hAll
  have hModAfter := isSome_releaseModifier (k := k) hMod
  simp only [releaseModifier] at hModAfter
  simp only [keyUp, hAll, index_of_isSome hModAfter, releaseSlots, releaseModifier]

/-- A press keeps the tables. -/
theorem WellFormed.keyDown {s : HidState} (h : WellFormed s) (k : Int) :
    WellFormed (keyDown k s).1 := by
  rw [keyDown_eq h]
  refine ⟨h.keyCode, h.modifiersKeyCodes, ?_, ?_, ?_⟩
  · show (pressSlots k s.keycodelist).length = 5
    unfold pressSlots
    split
    · split
      · exact h.length
      · rw [length_fillFreeSlot, h.length]
    · exact h.length
  · exact fun x hx => inKeyCode_of_mem_pressSlots h.slots hx
  · show (modifiersTable.lookup (pressModifier k s.modkeycodelist)).isSome = true
    unfold pressModifier
    split
    · assumption
    · exact h.modifier

/-- A release keeps the tables. -/
theorem WellFormed.keyUp {s : HidState} (h : WellFormed s) (k : Int) :
    WellFormed (keyUp k s).1 := by
  rw [keyUp_eq h]
  refine ⟨h.keyCode, h.modifiersKeyCodes, ?_, ?_, isSome_releaseModifier h.modifier⟩
  · show (releaseSlots k s.keycodelist).length = 5
    rw [releaseSlots, List.length_map, h.length]
  · exact fun x hx => inKeyCode_of_mem_releaseSlots h.slots hx

/-- Every call keeps them. -/
theorem WellFormed.step {s s' : HidState} (h : WellFormed s) (c : Call)
    (hStep : step s c = some s') : WellFormed s' := by
  obtain rfl := Option.some.inj hStep
  cases c with
  | keyDown k => exact h.keyDown k
  | keyUp k => exact h.keyUp k

/-! ## Reports and slots -/

/-- The report of the call `c` in the state `s` shows, slot by slot, the
`KeyCode` image of `keycodelist` after the call. -/
def ReportTruthful (s : HidState) (c : Call) : Prop :=
  (c.exec s).2.keys = (c.exec s).1.keycodelist.map keyByte

/-- The call `c` in the state `s` is no press of a code outside the `KeyCode`
table, or all slots are free. -/
def PressInTableOrFree (s : HidState) (c : Call) : Prop :=
  ∀ k, c = .keyDown k → ¬ InKeyCode k → ∀ slot ∈ s.keycodelist, slot = 0

/-- The image of the slots is all zeros when all slots are free. -/
theorem map_keyByte_eq_zeros {slots : List Int} (hLen : slots.length = 5)
    (h : ∀ k ∈ slots, InKeyCode k) :
    [0, 0, 0, 0, 0] = slots.map keyByte ↔ ∀ slot ∈ slots, slot = 0 := by
  have hZeros : ([0, 0, 0, 0, 0] : List UInt8) = List.replicate slots.length 0 := by
    rw [hLen]
    rfl
  rw [hZeros, eq_comm, List.map_eq_replicate_iff]
  constructor
  · intro hAll slot hSlot
    exact (keyByte_eq_zero (h slot hSlot)).mp (hAll slot hSlot)
  · intro hAll slot hSlot
    exact (keyByte_eq_zero (h slot hSlot)).mpr (hAll slot hSlot)

/-- A report tells the truth just when the press finds a place. -/
theorem reportTruthful_iff {s : HidState} (h : WellFormed s) (c : Call) :
    ReportTruthful s c ↔ PressInTableOrFree s c := by
  cases c with
  | keyUp k =>
    have hTrue : ReportTruthful s (.keyUp k) := by
      show (keyUp k s).2.keys = (keyUp k s).1.keycodelist.map keyByte
      rw [keyUp_eq h]
    exact iff_of_true hTrue fun _ hc => by cases hc
  | keyDown k =>
    have hKeys : ReportTruthful s (.keyDown k) ↔
        (if InKeyCode k then (pressSlots k s.keycodelist).map keyByte else [0, 0, 0, 0, 0]) =
          (pressSlots k s.keycodelist).map keyByte := by
      show (keyDown k s).2.keys = (keyDown k s).1.keycodelist.map keyByte ↔ _
      rw [keyDown_eq h]
    rw [hKeys]
    by_cases hk : InKeyCode k
    · rw [if_pos hk]
      exact iff_of_true rfl fun _ hc hNot => absurd hk (by cases hc; exact hNot)
    · rw [if_neg hk, pressSlots, if_neg hk, map_keyByte_eq_zeros h.length h.slots]
      constructor
      · intro hAll _ _ _
        exact hAll
      · intro hCond
        exact hCond k rfl hk

/--
**Truthful reports.** After `KeyCodeInit`, every report of a run of `KeyDown`
and `KeyUp` calls shows the slots of `keycodelist`, slot by slot, exactly when
every press of a code outside the `KeyCode` table is made while all five slots
are free.
-/
theorem reports_truthful_iff (calls : List Call) :
    Machine.Meets step ReportTruthful (keyCodeInit start) calls ↔
      Machine.Meets step PressInTableOrFree (keyCodeInit start) calls :=
  Machine.meets_congr (fun _ c _ h hStep => WellFormed.step h c hStep)
    (fun _ c h => reportTruthful_iff h c) wellFormed_keyCodeInit

/-- Holding `A` (65) and pressing shift (16) reports no ordinary key, although
`A` is still in its slot. -/
theorem modifier_report_drops_held_key :
    ¬ Machine.Meets step ReportTruthful (keyCodeInit start) [.keyDown 65, .keyDown 16] := by
  intro h
  have hSecond := (h.2 _ rfl).1
  revert hSecond
  unfold ReportTruthful
  decide +kernel

end PushStreamer.Hid
