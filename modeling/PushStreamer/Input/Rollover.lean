import PushStreamer.Input.Hid
import PushStreamer.Lib.Strokes
import Mathlib.Data.List.Infix
import Mathlib.Data.List.Perm.Subperm

/-!
# The rollover table

The five slots of `keycodelist` against the calls made so far. A call is a
stroke of its code (`Call.stroke`), and a code is down when the last call for it
was `KeyDown`. `Recorded` is the state of the keyboard with its history.

* `mem_pressSlots`, `mem_releaseSlots` — what one call does to the slots.
* `inv_step` — each slot holds a code that is down, and no two the same.
* `complete_step` — while at most five codes of the table are down, each has a
  slot.
* `rollover_table` — the slots in every reachable state.
-/

namespace PushStreamer.Hid

-- ---------------------------------------------------------------------------
-- Slots
-- ---------------------------------------------------------------------------

section

variable {k x : Int} {slots : List Int}

/-- A key finds a place just when one is free. -/
theorem mem_fillFreeSlot_iff (hx : x ≠ 0) :
    x ∈ fillFreeSlot k slots ↔ x ∈ slots ∨ x = k ∧ 0 ∈ slots := by
  induction slots with
  | nil => simp [fillFreeSlot]
  | cons slot slots ih =>
    rw [fillFreeSlot]
    by_cases hFree : slot = 0
    · rw [if_pos hFree, hFree, List.mem_cons, List.mem_cons, or_iff_right hx]
      simp [or_comm]
    · have hSlot : ¬ (0 : Int) = slot := fun hEq => hFree hEq.symm
      rw [if_neg hFree, List.mem_cons, List.mem_cons, List.mem_cons, ih, or_iff_right hSlot,
        or_assoc]

/-- What is in a slot after `KeyDown`. -/
theorem mem_pressSlots (hx : x ≠ 0) :
    x ∈ pressSlots k slots ↔ x ∈ slots ∨ x = k ∧ InKeyCode k ∧ 0 ∈ slots := by
  unfold pressSlots
  by_cases hk : InKeyCode k
  · rw [if_pos hk, and_iff_right hk]
    split
    · rename_i hMem
      exact (or_iff_left_of_imp fun h => h.1 ▸ hMem).symm
    · exact mem_fillFreeSlot_iff hx
  · rw [if_neg hk]
    exact (or_iff_left fun h => hk h.2.1).symm

/-- What is in a slot after `KeyUp`. -/
theorem mem_releaseSlots (hx : x ≠ 0) : x ∈ releaseSlots k slots ↔ x ∈ slots ∧ x ≠ k := by
  rw [releaseSlots, List.mem_map]
  constructor
  · rintro ⟨slot, hSlot, rfl⟩
    by_cases hk : slot = k
    · rw [if_pos hk] at hx
      exact absurd rfl hx
    · rw [if_neg hk]
      exact ⟨hSlot, hk⟩
  · rintro ⟨hMem, hNe⟩
    exact ⟨x, hMem, if_neg hNe⟩

/-- A new key is in one slot only. -/
theorem nodup_fillFreeSlot (hNew : k ∉ slots) (h : (slots.filter (· ≠ 0)).Nodup) :
    ((fillFreeSlot k slots).filter (· ≠ 0)).Nodup := by
  induction slots with
  | nil => exact List.nodup_nil
  | cons slot slots ih =>
    rw [List.mem_cons, not_or] at hNew
    rw [fillFreeSlot]
    by_cases hFree : slot = 0
    · rw [List.filter_cons_of_neg (by simpa using hFree)] at h
      have hk : k ≠ 0 := fun hEq => hNew.1 (hEq.trans hFree.symm)
      rw [if_pos hFree, List.filter_cons_of_pos (by simpa using hk), List.nodup_cons]
      exact ⟨fun hMem => hNew.2 (List.mem_filter.mp hMem).1, h⟩
    · rw [List.filter_cons_of_pos (by simpa using hFree), List.nodup_cons] at h
      rw [if_neg hFree, List.filter_cons_of_pos (by simpa using hFree), List.nodup_cons]
      refine ⟨fun hMem => ?_, ih hNew.2 h.2⟩
      rcases mem_fillFreeSlot (List.mem_filter.mp hMem).1 with hEq | hOld
      · exact hNew.1 hEq.symm
      · exact h.1 (List.mem_filter.mpr ⟨hOld, decide_eq_true hFree⟩)

/-- A press puts no key into a second slot. -/
theorem nodup_pressSlots (h : (slots.filter (· ≠ 0)).Nodup) :
    ((pressSlots k slots).filter (· ≠ 0)).Nodup := by
  unfold pressSlots
  split
  · split
    · exact h
    · rename_i hNew
      exact nodup_fillFreeSlot hNew h
  · exact h

/-- A release empties the slot of its code. -/
theorem filter_releaseSlots :
    (releaseSlots k slots).filter (· ≠ 0) = (slots.filter (· ≠ 0)).filter (· ≠ k) := by
  induction slots with
  | nil => rfl
  | cons slot slots ih =>
    have ih' : (slots.map fun slot => if slot = k then 0 else slot).filter (· ≠ 0) =
      (slots.filter (· ≠ 0)).filter (· ≠ k) := ih
    rw [releaseSlots, List.map_cons]
    by_cases hk : slot = k <;> by_cases hZero : slot = 0 <;> simp_all

end

-- ---------------------------------------------------------------------------
-- The history
-- ---------------------------------------------------------------------------

/-- The stroke of a call. -/
def Call.stroke : Call → Strokes.Stroke Int
  | .keyDown k => .press k
  | .keyUp k => .release k

/-- The codes whose last call was `KeyDown`. -/
def codesDown (calls : List Call) : List Int := Strokes.down (calls.map Call.stroke)

/-- The codes that are down, after one more call. -/
theorem codesDown_snoc (calls : List Call) (c : Call) :
    codesDown (calls ++ [c]) = Strokes.after (codesDown calls) c.stroke := by
  rw [codesDown, List.map_append]
  exact Strokes.down_snoc _ _

theorem mem_codesDown_keyDown {calls : List Call} {k j : Int} :
    j ∈ codesDown (calls ++ [.keyDown k]) ↔ j ∈ codesDown calls ∨ j = k := by
  rw [codesDown_snoc]
  exact Strokes.mem_after_press

theorem mem_codesDown_keyUp {calls : List Call} {k j : Int} :
    j ∈ codesDown (calls ++ [.keyUp k]) ↔ j ∈ codesDown calls ∧ j ≠ k := by
  rw [codesDown_snoc]
  exact Strokes.mem_after_release

theorem nodup_codesDown (calls : List Call) : (codesDown calls).Nodup := Strokes.nodup_down _

/-- The keyboard with the calls made since `KeyCodeInit`. -/
structure Recorded where
  hid : HidState
  calls : List Call

namespace Recorded

def start : Recorded := ⟨keyCodeInit Hid.start, []⟩

def step (s : Recorded) (c : Call) : Option Recorded := some ⟨(c.exec s.hid).1, s.calls ++ [c]⟩

end Recorded

/-- The history is the calls of the run. -/
theorem calls_of_run {calls : List Call} {s s' : Recorded}
    (hRun : Machine.run Recorded.step s calls = some s') : s'.calls = s.calls ++ calls := by
  induction calls generalizing s with
  | nil =>
    obtain rfl := Option.some.inj hRun
    exact (List.append_nil _).symm
  | cons c calls ih =>
    obtain ⟨s₁, hStep, hRest⟩ := Machine.run_cons.mp hRun
    obtain rfl := Option.some.inj hStep
    rw [ih hRest, List.append_assoc, List.singleton_append]

-- ---------------------------------------------------------------------------
-- The invariant
-- ---------------------------------------------------------------------------

/-- The slots of a reachable state: codes that are down, each once. -/
structure Inv (s : Recorded) : Prop where
  wellFormed : WellFormed s.hid
  nodup : (s.hid.keycodelist.filter (· ≠ 0)).Nodup
  down : ∀ k ∈ s.hid.keycodelist, k ≠ 0 → k ∈ codesDown s.calls

/-- Each code of the table that is down has a slot. -/
def Complete (s : Recorded) : Prop :=
  ∀ k, k ≠ 0 → InKeyCode k → k ∈ codesDown s.calls → k ∈ s.hid.keycodelist

/-- The codes of the table that are down; `0` means a free slot. -/
def tableCodesDown (calls : List Call) : List Int :=
  (codesDown calls).filter fun k => k ≠ 0 ∧ InKeyCode k

theorem inv_start : Inv .start where
  wellFormed := wellFormed_keyCodeInit
  nodup := by decide
  down := by decide

theorem complete_start : Complete .start := fun _ _ _ hDown => by cases hDown

/-- **The invariant.** Every call keeps it. -/
theorem inv_step (s : Recorded) (c : Call) (s' : Recorded) (h : Inv s)
    (hStep : s.step c = some s') : Inv s' := by
  obtain rfl := Option.some.inj hStep
  cases c with
  | keyDown k =>
    have hSlots : (keyDown k s.hid).1.keycodelist = pressSlots k s.hid.keycodelist := by
      rw [keyDown_eq h.wellFormed]
    refine ⟨h.wellFormed.keyDown k, ?_, fun x hx hNe => ?_⟩
    · show ((keyDown k s.hid).1.keycodelist.filter (· ≠ 0)).Nodup
      rw [hSlots]
      exact nodup_pressSlots h.nodup
    · have hPress : x ∈ pressSlots k s.hid.keycodelist := hSlots ▸ hx
      rw [mem_codesDown_keyDown]
      rcases (mem_pressSlots hNe).mp hPress with hOld | ⟨rfl, -⟩
      · exact Or.inl (h.down x hOld hNe)
      · exact Or.inr rfl
  | keyUp k =>
    have hSlots : (keyUp k s.hid).1.keycodelist = releaseSlots k s.hid.keycodelist := by
      rw [keyUp_eq h.wellFormed]
    refine ⟨h.wellFormed.keyUp k, ?_, fun x hx hNe => ?_⟩
    · show ((keyUp k s.hid).1.keycodelist.filter (· ≠ 0)).Nodup
      rw [hSlots, filter_releaseSlots]
      exact h.nodup.filter _
    · have hRelease : x ∈ releaseSlots k s.hid.keycodelist := hSlots ▸ hx
      obtain ⟨hOld, hOther⟩ := (mem_releaseSlots hNe).mp hRelease
      exact mem_codesDown_keyUp.mpr ⟨h.down x hOld hNe, hOther⟩

/-- With five other codes of the table in the slots, a sixth is down. -/
theorem free_slot {s : Recorded} (h : Inv s) {k : Int} (hk : k ≠ 0) (hTable : InKeyCode k)
    (hNew : k ∉ s.hid.keycodelist)
    (hFew : (tableCodesDown (s.calls ++ [.keyDown k])).length ≤ 5) :
    0 ∈ s.hid.keycodelist := by
  by_contra hFull
  have hNonzero : ∀ x ∈ s.hid.keycodelist, x ≠ 0 := fun x hx hZero => hFull (hZero ▸ hx)
  have hNodup : s.hid.keycodelist.Nodup := by
    have hAll : s.hid.keycodelist.filter (· ≠ 0) = s.hid.keycodelist :=
      List.filter_eq_self.mpr fun x hx => decide_eq_true (hNonzero x hx)
    exact hAll ▸ h.nodup
  have hSub : k :: s.hid.keycodelist ⊆ tableCodesDown (s.calls ++ [.keyDown k]) := by
    intro x hx
    rw [tableCodesDown, List.mem_filter, mem_codesDown_keyDown, decide_eq_true_eq]
    rcases List.mem_cons.mp hx with rfl | hOld
    · exact ⟨Or.inr rfl, hk, hTable⟩
    · exact ⟨Or.inl (h.down x hOld (hNonzero x hOld)), hNonzero x hOld, h.wellFormed.slots x hOld⟩
  have hSix := (List.Nodup.subperm (List.nodup_cons.mpr ⟨hNew, hNodup⟩) hSub).length_le
  rw [List.length_cons, h.wellFormed.length] at hSix
  omega

/-- A call after which at most five codes of the table are down leaves none of
them without a slot. -/
theorem complete_step {s s' : Recorded} {c : Call} (h : Inv s) (hComplete : Complete s)
    (hStep : s.step c = some s') (hFew : (tableCodesDown (s.calls ++ [c])).length ≤ 5) :
    Complete s' := by
  obtain rfl := Option.some.inj hStep
  intro x hx hTable hDown
  cases c with
  | keyDown k =>
    have hSlots : (keyDown k s.hid).1.keycodelist = pressSlots k s.hid.keycodelist := by
      rw [keyDown_eq h.wellFormed]
    show x ∈ (keyDown k s.hid).1.keycodelist
    rw [hSlots, mem_pressSlots hx]
    rcases mem_codesDown_keyDown.mp hDown with hOld | rfl
    · exact Or.inl (hComplete x hx hTable hOld)
    · by_cases hSlot : x ∈ s.hid.keycodelist
      · exact Or.inl hSlot
      · exact Or.inr ⟨rfl, hTable, free_slot h hx hTable hSlot hFew⟩
  | keyUp k =>
    have hSlots : (keyUp k s.hid).1.keycodelist = releaseSlots k s.hid.keycodelist := by
      rw [keyUp_eq h.wellFormed]
    show x ∈ (keyUp k s.hid).1.keycodelist
    rw [hSlots, mem_releaseSlots hx]
    obtain ⟨hOld, hOther⟩ := mem_codesDown_keyUp.mp hDown
    exact ⟨hComplete x hx hTable hOld, hOther⟩

/-- With five keys at most, each one that is down has its slot. -/
theorem complete_run {calls : List Call} {s : Recorded}
    (hFew : ∀ p, p <+: calls → (tableCodesDown p).length ≤ 5)
    (hRun : Machine.run Recorded.step .start calls = some s) : Complete s := by
  induction calls using List.reverseRecOn generalizing s with
  | nil =>
    obtain rfl := Option.some.inj hRun
    exact complete_start
  | append_singleton calls c ih =>
    obtain ⟨s₁, hBefore, hLast⟩ := Machine.run_append.mp hRun
    obtain ⟨s₂, hStep, hEnd⟩ := Machine.run_cons.mp hLast
    obtain rfl := Option.some.inj hEnd
    have hCalls : s₁.calls = calls := calls_of_run hBefore
    have hBeforeFew : ∀ p, p <+: calls → (tableCodesDown p).length ≤ 5 := fun p hp =>
      hFew p (hp.trans (List.prefix_append calls [c]))
    refine complete_step (Machine.inv_run inv_step inv_start hBefore) (ih hBeforeFew hBefore)
      hStep ?_
    rw [hCalls]
    exact hFew _ List.prefix_rfl

/--
**The rollover table.** After any sequence of `KeyDown` and `KeyUp` calls the
codes in the slots are distinct codes of the `KeyCode` table whose last call was
`KeyDown`, and the tables have the keys of `KeyCodeInit`. If at most five codes
of the table are down all along, the slots hold all of them.
-/
theorem rollover_table {calls : List Call} {s : Recorded}
    (hRun : Machine.run Recorded.step .start calls = some s) :
    (s.hid.keycodelist.filter (· ≠ 0)).Nodup ∧
      (∀ k ∈ s.hid.keycodelist, k ≠ 0 →
        (s.hid.keyCode.lookup k).isSome = true ∧ k ∈ codesDown calls) ∧
      s.hid.keyCode.map Prod.fst = keyCodeTable.map Prod.fst ∧
      s.hid.modifiersKeyCodes.map Prod.fst = modifiersTable.map Prod.fst ∧
      ((∀ p, p <+: calls → (tableCodesDown p).length ≤ 5) → ∀ k, k ≠ 0 →
        (k ∈ s.hid.keycodelist ↔
          (s.hid.keyCode.lookup k).isSome = true ∧ k ∈ codesDown calls)) := by
  have hInv : Inv s := Machine.inv_run inv_step inv_start hRun
  have hCalls : s.calls = calls := calls_of_run hRun
  have hMem : ∀ k ∈ s.hid.keycodelist, k ≠ 0 → InKeyCode k ∧ k ∈ codesDown calls := fun k hk hNe =>
    ⟨hInv.wellFormed.slots k hk, hCalls ▸ hInv.down k hk hNe⟩
  rw [hInv.wellFormed.keyCode, hInv.wellFormed.modifiersKeyCodes]
  refine ⟨hInv.nodup, hMem, rfl, rfl, fun hFew k hNe => ⟨fun hk => hMem k hk hNe, ?_⟩⟩
  rintro ⟨hTable, hDown⟩
  exact complete_run hFew hRun k hNe hTable (hCalls ▸ hDown)

/-- `A` and shift are pressed, `B` is pressed and released. -/
def shiftAndA : List Call := [.keyDown 65, .keyDown 16, .keyDown 66, .keyUp 66]

/-- At most two codes of the table are down at once. -/
theorem rollover_table_shift_a :
    ∃ s, Machine.run Recorded.step .start shiftAndA = some s ∧ ∀ k, k ≠ 0 →
      (k ∈ s.hid.keycodelist ↔
        (s.hid.keyCode.lookup k).isSome = true ∧ k ∈ codesDown shiftAndA) := by
  have hFew : ∀ p ∈ shiftAndA.inits, (tableCodesDown p).length ≤ 5 := by decide
  obtain ⟨s, hRun⟩ : ∃ s, Machine.run Recorded.step .start shiftAndA = some s := ⟨_, rfl⟩
  exact ⟨s, hRun, (rollover_table hRun).2.2.2.2 fun p hp => hFew p ((List.mem_inits p _).mpr hp)⟩

end PushStreamer.Hid
