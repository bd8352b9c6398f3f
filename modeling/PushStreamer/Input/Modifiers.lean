import PushStreamer.Input.Rollover
import PushStreamer.Lib.Flags

/-!
# The modifier byte

`Modkeycodelist` holds one modifier code, and a report shows the byte of this
code. The byte that shows all modifiers that are down is `modifierBits`.

* `distinct_modifierByte` — no two modifiers share a bit.
* `inFull_iff` — a report is right just when the one code stands for all
  modifiers that are down.
* `tracked_step` — the calls that keep it so.
* `modifiers_in_full_iff` — the runs in which every report is right.
-/

namespace PushStreamer.Hid

/-- The byte that the `ModifiersKeyCodes` table gives a code. -/
def modifierByte (k : Int) : UInt8 := (modifiersTable.lookup k).getD 0

/-- A code of a modifier key; the table has `0` for no modifier. -/
def IsModifier (k : Int) : Prop := k ≠ 0 ∧ (modifiersTable.lookup k).isSome = true

instance : DecidablePred IsModifier := fun k => by unfold IsModifier; infer_instance

/-- The modifiers that are down. -/
def modifiersDown (calls : List Call) : List Int := (codesDown calls).filter (IsModifier ·)

/-- The bitwise or of the bytes. -/
def modifierBits (ks : List Int) : UInt8 := Flags.union modifierByte ks

/-- The modifier byte of the report shows the modifiers that are down after the
call. -/
def ModifiersInFull (s : Recorded) (c : Call) : Prop :=
  (c.exec s.hid).2.modifier = modifierBits (modifiersDown (s.calls ++ [c]))

/-- At most one modifier is down after the call, and none if it is `KeyDown` of
the code 0. -/
def OneModifier (s : Recorded) (c : Call) : Prop :=
  (modifiersDown (s.calls ++ [c])).length ≤ 1 ∧ (c = .keyDown 0 → modifiersDown s.calls = [])

-- ---------------------------------------------------------------------------
-- Bits
-- ---------------------------------------------------------------------------

/-- The modifiers are the keys of their table but 0. -/
theorem isModifier_mem {k : Int} (h : IsModifier k) :
    k ∈ (modifiersTable.map Prod.fst).filter (· ≠ 0) := by
  obtain ⟨v, hv⟩ := Option.isSome_iff_exists.mp h.2
  obtain ⟨l₁, l₂, hTable, -⟩ := List.lookup_eq_some_iff.mp hv
  have hMem : k ∈ modifiersTable.map Prod.fst := by
    rw [hTable]
    simp
  exact List.mem_filter.mpr ⟨hMem, decide_eq_true h.1⟩

/-- Each modifier has a bit, and no two the same. -/
theorem distinct_modifierByte : Flags.Distinct modifierByte IsModifier where
  ne_zero k hk := by
    have hAll : ∀ k ∈ (modifiersTable.map Prod.fst).filter (· ≠ 0), modifierByte k ≠ 0 := by decide
    exact hAll k (isModifier_mem hk)
  disjoint k j hk hj := by
    have hAll : ∀ k ∈ (modifiersTable.map Prod.fst).filter (· ≠ 0),
        ∀ j ∈ (modifiersTable.map Prod.fst).filter (· ≠ 0),
          k ≠ j → modifierByte k &&& modifierByte j = 0 := by
      decide
    exact hAll k (isModifier_mem hk) j (isModifier_mem hj)

/-- One code as a list of modifiers. -/
def oneCode (m : Int) : List Int := if m = 0 then [] else [m]

theorem mem_oneCode {m j : Int} : j ∈ oneCode m ↔ j ≠ 0 ∧ j = m := by
  unfold oneCode
  split
  · rename_i hZero
    exact iff_of_false List.not_mem_nil fun h => h.1 (h.2.trans hZero)
  · rename_i hNe
    rw [List.mem_singleton]
    exact ⟨fun hEq => ⟨hEq ▸ hNe, hEq⟩, fun h => h.2⟩

/-- One modifier sets its own bits. -/
theorem modifierBits_oneCode (m : Int) : modifierBits (oneCode m) = modifierByte m := by
  unfold oneCode
  split
  · rename_i hZero
    rw [hZero]
    rfl
  · exact UInt8.or_zero

theorem nodup_oneCode (m : Int) : (oneCode m).Nodup := by
  unfold oneCode
  split
  · exact List.nodup_nil
  · exact List.nodup_singleton m

/-- The byte of one code shows a list of modifiers just when it has no other. -/
theorem modifierByte_eq_iff {ks : List Int} (h : ∀ k ∈ ks, IsModifier k) (hNodup : ks.Nodup)
    {m : Int} (hm : (modifiersTable.lookup m).isSome = true) :
    modifierByte m = modifierBits ks ↔ ∀ j, j ∈ ks ↔ j ∈ oneCode m := by
  have hOne : ∀ k ∈ oneCode m, IsModifier k := by
    intro k hk
    obtain ⟨hNe, rfl⟩ := mem_oneCode.mp hk
    exact ⟨hNe, hm⟩
  rw [← modifierBits_oneCode, eq_comm]
  exact distinct_modifierByte.union_eq_iff h hOne hNodup (nodup_oneCode m)

-- ---------------------------------------------------------------------------
-- The one code
-- ---------------------------------------------------------------------------

section

variable {calls : List Call} {k j : Int}

/-- The modifiers that are down are codes that are down. -/
theorem mem_modifiersDown : j ∈ modifiersDown calls ↔ j ∈ codesDown calls ∧ IsModifier j := by
  rw [modifiersDown, List.mem_filter, decide_eq_true_eq]

/-- A press adds its code, if it is a modifier. -/
theorem mem_modifiersDown_keyDown :
    j ∈ modifiersDown (calls ++ [.keyDown k]) ↔
      j ∈ modifiersDown calls ∨ j = k ∧ IsModifier j := by
  rw [mem_modifiersDown, mem_modifiersDown, mem_codesDown_keyDown, or_and_right]

/-- A release takes its code away. -/
theorem mem_modifiersDown_keyUp :
    j ∈ modifiersDown (calls ++ [.keyUp k]) ↔ j ∈ modifiersDown calls ∧ j ≠ k := by
  rw [mem_modifiersDown, mem_modifiersDown, mem_codesDown_keyUp, and_right_comm]

theorem nodup_modifiersDown (calls : List Call) : (modifiersDown calls).Nodup :=
  (nodup_codesDown calls).filter _

end

/-- The code `m` stands for the modifiers that are down. -/
def StandsFor (m : Int) (calls : List Call) : Prop :=
  ∀ j, j ∈ modifiersDown calls ↔ j ∈ oneCode m

section

variable {m k : Int} {calls : List Call}

/-- One byte stands for one modifier at most. -/
theorem StandsFor.length_le (h : StandsFor m calls) : (modifiersDown calls).length ≤ 1 := by
  have hSub : modifiersDown calls ⊆ [m] := fun j hj =>
    List.mem_singleton.mpr (mem_oneCode.mp ((h j).mp hj)).2
  exact ((nodup_modifiersDown _).subperm hSub).length_le

/-- The released code is out of both. -/
theorem StandsFor.keyUp (h : StandsFor m calls) (k : Int) :
    StandsFor (releaseModifier k m) (calls ++ [.keyUp k]) := by
  intro j
  rw [mem_modifiersDown_keyUp, h j, mem_oneCode, mem_oneCode, releaseModifier]
  split
  · rename_i hk
    exact iff_of_false (fun hBoth => hBoth.2 (hBoth.1.2.trans hk)) fun hBoth => hBoth.1 hBoth.2
  · rename_i hk
    exact and_iff_left_of_imp fun hBoth hEq => hk (hBoth.2.symm.trans hEq)

/-- Another key does not matter. -/
theorem StandsFor.keyDown (h : StandsFor m calls)
    (hk : ¬ (modifiersTable.lookup k).isSome = true) :
    StandsFor m (calls ++ [.keyDown k]) := by
  intro j
  rw [mem_modifiersDown_keyDown, h j]
  exact or_iff_left fun hBoth => hk (hBoth.1 ▸ hBoth.2.2)

/-- The code 0 takes the place of any modifier. -/
theorem standsFor_keyDown_zero :
    StandsFor 0 (calls ++ [.keyDown 0]) ↔ modifiersDown calls = [] := by
  rw [List.eq_nil_iff_forall_not_mem]
  refine forall_congr' fun j => ?_
  rw [mem_modifiersDown_keyDown, or_iff_left fun hBoth => hBoth.2.1 hBoth.1]
  exact iff_false_right List.not_mem_nil

/-- A modifier that is pressed is down, so it has to be the only one. -/
theorem standsFor_keyDown_modifier (hk : IsModifier k) :
    StandsFor k (calls ++ [.keyDown k]) ↔
      (modifiersDown (calls ++ [.keyDown k])).length ≤ 1 := by
  refine ⟨StandsFor.length_le, fun hOne j => ?_⟩
  have hDown : k ∈ modifiersDown (calls ++ [.keyDown k]) :=
    mem_modifiersDown_keyDown.mpr (Or.inr ⟨rfl, hk⟩)
  obtain ⟨x, hx⟩ :=
    List.length_eq_one_iff.mp (Nat.le_antisymm hOne (List.length_pos_of_mem hDown))
  rw [hx, List.mem_singleton] at hDown
  rw [hx, List.mem_singleton, mem_oneCode, ← hDown]
  exact (and_iff_right_of_imp fun hEq => hEq ▸ hk.1).symm

end

/-- `Modkeycodelist` stands for the modifiers that are down. -/
def Tracked (s : Recorded) : Prop := StandsFor s.hid.modkeycodelist s.calls

theorem tracked_start : Tracked .start := fun _ => Iff.rfl

/-- What one call leaves in `Modkeycodelist`. -/
theorem modkeycodelist_exec {s : HidState} (h : WellFormed s) (c : Call) :
    (c.exec s).1.modkeycodelist =
        (match c with
        | .keyDown k => pressModifier k s.modkeycodelist
        | .keyUp k => releaseModifier k s.modkeycodelist) ∧
      (c.exec s).2.modifier = modifierByte (c.exec s).1.modkeycodelist := by
  cases c with
  | keyDown k =>
    show (keyDown k s).1.modkeycodelist = _ ∧ (keyDown k s).2.modifier = _
    rw [keyDown_eq h]
    exact ⟨rfl, by rw [Call.exec, keyDown_eq h]; rfl⟩
  | keyUp k =>
    show (keyUp k s).1.modkeycodelist = _ ∧ (keyUp k s).2.modifier = _
    rw [keyUp_eq h]
    exact ⟨rfl, by rw [Call.exec, keyUp_eq h]; rfl⟩

/-- A report is right just when the one code stands for all modifiers. -/
theorem inFull_iff {s s' : Recorded} {c : Call} (h : Inv s) (hStep : s.step c = some s') :
    ModifiersInFull s c ↔ Tracked s' := by
  have hInv := inv_step s c s' h hStep
  obtain rfl := Option.some.inj hStep
  unfold ModifiersInFull
  rw [(modkeycodelist_exec h.wellFormed c).2]
  exact modifierByte_eq_iff (fun j hj => (mem_modifiersDown.mp hj).2) (nodup_modifiersDown _)
    hInv.wellFormed.modifier

/-- A call that leaves one modifier keeps the one code right, and no other. -/
theorem tracked_step {s s' : Recorded} {c : Call} (h : Inv s) (hTracked : Tracked s)
    (hStep : s.step c = some s') : Tracked s' ↔ OneModifier s c := by
  have hCode := (modkeycodelist_exec h.wellFormed c).1
  obtain rfl := Option.some.inj hStep
  show StandsFor (c.exec s.hid).1.modkeycodelist (s.calls ++ [c]) ↔ _
  rw [hCode]
  cases c with
  | keyUp k =>
    have hNext := StandsFor.keyUp hTracked k
    exact iff_of_true hNext ⟨hNext.length_le, fun hEq => by cases hEq⟩
  | keyDown k =>
    unfold OneModifier
    by_cases hZero : k = 0
    · subst hZero
      show StandsFor 0 _ ↔ _
      rw [and_iff_right_of_imp fun hNil => (standsFor_keyDown_zero.mpr (hNil rfl)).length_le,
        standsFor_keyDown_zero]
      exact ⟨fun hNil _ => hNil, fun hNil => hNil rfl⟩
    · have hNotZero : Call.keyDown k = .keyDown 0 → modifiersDown s.calls = [] := fun hEq =>
        absurd (Call.keyDown.inj hEq) hZero
      rw [and_iff_left hNotZero]
      by_cases hk : (modifiersTable.lookup k).isSome = true
      · show StandsFor (pressModifier k _) _ ↔ _
        rw [pressModifier, if_pos hk]
        exact standsFor_keyDown_modifier ⟨hZero, hk⟩
      · show StandsFor (pressModifier k _) _ ↔ _
        rw [pressModifier, if_neg hk]
        have hNext := StandsFor.keyDown hTracked hk
        exact iff_of_true hNext hNext.length_le

/--
**Modifiers.** In a sequence of `KeyDown` and `KeyUp` calls every report shows
all modifiers that are down just when after each call at most one is down, and
the code 0 is pressed only while none is.
-/
theorem modifiers_in_full_iff (calls : List Call) :
    Machine.Meets Recorded.step ModifiersInFull .start calls ↔
      Machine.Meets Recorded.step OneModifier .start calls := by
  have hReports : Machine.Meets Recorded.step ModifiersInFull .start calls ↔
      Machine.Keeps Recorded.step Tracked .start calls := by
    refine Machine.meets_congr inv_step (fun s c hInv => ?_) inv_start
    exact ⟨fun hFull s' hStep => (inFull_iff hInv hStep).mp hFull,
      fun hNext => (inFull_iff hInv rfl).mpr (hNext _ rfl)⟩
  have hCalls : Machine.MeetsTaken Recorded.step OneModifier .start calls ↔
      Machine.Meets Recorded.step OneModifier .start calls := by
    refine Machine.meets_congr inv_step (fun s c _ => ?_) inv_start
    exact ⟨fun hTaken => hTaken _ rfl, fun hOne _ _ => hOne⟩
  rw [hReports, ← hCalls]
  exact Machine.keeps_iff_meets inv_step
    (fun _ _ _ hInv hTracked hStep => tracked_step hInv hTracked hStep) inv_start tracked_start

/-- Control and shift together are reported as shift. -/
theorem control_shift_reported_as_shift :
    ¬ Machine.Meets Recorded.step ModifiersInFull .start [.keyDown 17, .keyDown 16] := by
  intro h
  have hSecond := (h.2 _ rfl).1
  revert hSecond
  unfold ModifiersInFull
  decide +kernel

end PushStreamer.Hid
