import PushStreamer.Lib.Occurrences
import PushStreamer.Model.Text

/-!
# Replacing in place

`replaceAllDistinct` edits its string where it stands and moves its position
behind the text that it has put in. What it still has to scan is what was behind
the occurrence, so the loop ends however long the new text is.

* `replaceInPlace_eq` — the loop on the string and the position.
* `replaceLoop_eq` — the loop on what is done and what is left.
* `replaceAllDistinct_leftmost` — both put the new text between the parts that
  one scan of the old string finds.
-/

namespace PushStreamer

open Occurrences

/-- `str.find(old, pos)`: the first position from `pos` on at which `old` stands. -/
def findFrom (old str : List Char) (pos : ℕ) : Option ℕ :=
  (List.range' pos (str.length + 1 - pos)).find? fun k => old.isPrefixOf (str.drop k)

/-- `str.replace(pos, count, new)`. -/
def replaceAt (str : List Char) (pos count : ℕ) (new : List Char) : List Char :=
  str.take pos ++ (new ++ str.drop (pos + count))

/-- The loop of `replaceAllDistinct` from `pos` on, for at most `fuel` passes. -/
def replaceInPlace (old new : List Char) : ℕ → ℕ → List Char → Option (List Char)
  | 0, _, _ => none
  | fuel + 1, pos, str =>
    match findFrom old str pos with
    | none => some str
    | some pos =>
      replaceInPlace old new fuel (pos + new.length) (replaceAt str pos old.length new)

section

variable {old new part rest : List Char} {parts : List (List Char)}

-- ---------------------------------------------------------------------------
-- The string and the position
-- ---------------------------------------------------------------------------

/-- From the end of `done` on, the occurrences are those of what follows it. -/
theorem prefix_drop_of_done {done str : List Char} {k : ℕ} (hk : done.length ≤ k) :
    old.isPrefixOf ((done ++ str).drop k) = true ↔ old <+: str.drop (k - done.length) := by
  rw [List.isPrefixOf_iff_prefix, List.drop_append, List.drop_eq_nil_of_le hk, List.nil_append]

/-- The last part has no occurrence. -/
theorem findFrom_last (done : List Char) (hNone : ∀ k, ¬ old <+: part.drop k) :
    findFrom old (done ++ part) done.length = none := by
  rw [findFrom, List.find?_eq_none]
  intro k hk
  rw [prefix_drop_of_done (List.mem_range'_1.mp hk).1]
  exact hNone _

/-- Otherwise the first occurrence is behind the first part. -/
theorem findFrom_next (done : List Char)
    (hFirst : ∀ k < part.length, ¬ old <+: (part ++ old).drop k) :
    findFrom old (done ++ (part ++ (old ++ rest))) done.length =
      some (done.length + part.length) := by
  obtain ⟨hHere, hBefore⟩ := first_occurrence rest hFirst
  rw [findFrom, List.find?_range'_eq_some]
  refine ⟨?_, ?_, fun k hLe hLt => ?_⟩
  · rw [prefix_drop_of_done (Nat.le_add_right _ _), Nat.add_sub_cancel_left]
    exact hHere
  · rw [List.mem_range'_1]
    simp only [List.length_append]
    omega
  · rw [Bool.not_eq_true', Bool.eq_false_iff]
    intro hPrefix
    exact hBefore (k - done.length) (by omega) ((prefix_drop_of_done hLe).mp hPrefix)

/-- The occurrence gives way to the new text; what stands before and behind it
stays. -/
theorem replaceAt_next (done : List Char) :
    replaceAt (done ++ (part ++ (old ++ rest))) (done.length + part.length) old.length new =
      done ++ part ++ new ++ rest := by
  have hBefore : (done ++ (part ++ (old ++ rest))).take (done.length + part.length) =
      done ++ part := by
    rw [← List.append_assoc, ← List.length_append, List.take_left]
  have hBehind : (done ++ (part ++ (old ++ rest))).drop
      (done.length + part.length + old.length) = rest := by
    rw [← List.append_assoc, ← List.append_assoc, ← List.length_append, ← List.length_append,
      List.drop_left]
  rw [replaceAt, hBefore, hBehind, List.append_assoc (done ++ part)]

/-- **The loop in place.** `done` is what stands before the position. The
induction is on the parts that are left, so it is they that run out. -/
theorem replaceInPlace_eq (h : Leftmost old parts) {fuel : ℕ} (hFuel : parts.length ≤ fuel)
    (done : List Char) :
    replaceInPlace old new fuel done.length (done ++ old.intercalate parts) =
      some (done ++ new.intercalate parts) := by
  induction h generalizing fuel done with
  | @last part hNone =>
    obtain ⟨fuel, rfl⟩ := Nat.exists_eq_succ_of_ne_zero (Nat.ne_of_gt hFuel)
    rw [List.intercalate_singleton, List.intercalate_singleton, replaceInPlace,
      findFrom_last done hNone]
  | @next part parts hFirst hRest ih =>
    rw [List.length_cons] at hFuel
    obtain ⟨fuel, rfl⟩ : ∃ n, fuel = n + 1 := ⟨fuel - 1, by omega⟩
    have hLater := ih (Nat.le_of_succ_le_succ hFuel) (done ++ part ++ new)
    have hPos : done.length + part.length + new.length = (done ++ part ++ new).length := by
      simp only [List.length_append]
    rw [intercalate_next hRest, intercalate_next hRest, replaceInPlace, findFrom_next done hFirst]
    show replaceInPlace old new fuel (done.length + part.length + new.length)
      (replaceAt _ (done.length + part.length) old.length new) = _
    rw [replaceAt_next, hPos, hLater]
    simp only [List.append_assoc]

-- ---------------------------------------------------------------------------
-- What is done and what is left
-- ---------------------------------------------------------------------------

theorem breakOn_last (hOld : old ≠ []) (hNone : ∀ k, ¬ old <+: part.drop k) :
    breakOn old part = none := by
  induction part with
  | nil => rw [breakOn, if_neg hOld]
  | cons c part ih =>
    have hHere : ¬ old.isPrefixOf (c :: part) = true := by
      rw [List.isPrefixOf_iff_prefix]
      exact hNone 0
    rw [breakOn, if_neg hHere, ih fun k => hNone (k + 1)]
    rfl

theorem breakOn_next (hOld : old ≠ [])
    (hFirst : ∀ k < part.length, ¬ old <+: (part ++ old).drop k) :
    breakOn old (part ++ (old ++ rest)) = some (part, rest) := by
  induction part with
  | nil =>
    obtain ⟨c, old', rfl⟩ := List.exists_cons_of_ne_nil hOld
    have hHere : (c :: old').isPrefixOf (c :: (old' ++ rest)) = true :=
      List.isPrefixOf_iff_prefix.mpr (List.prefix_append (c :: old') rest)
    show breakOn (c :: old') (c :: (old' ++ rest)) = _
    rw [breakOn, if_pos hHere]
    show some ([], (c :: old' ++ rest).drop (c :: old').length) = _
    rw [List.drop_left]
  | cons c part ih =>
    have hHere : ¬ old.isPrefixOf (c :: (part ++ (old ++ rest))) = true := by
      rw [List.isPrefixOf_iff_prefix]
      exact (first_occurrence rest hFirst).2 0 (Nat.succ_pos _)
    have hLater : ∀ k < part.length, ¬ old <+: (part ++ old).drop k := fun k hk =>
      hFirst (k + 1) (Nat.succ_lt_succ hk)
    rw [List.cons_append, breakOn, if_neg hHere, ih hLater]
    rfl

/-- The loop that keeps what is done apart does the same. -/
theorem replaceLoop_eq (h : Leftmost old parts) (hOld : old ≠ []) {fuel : ℕ}
    (hFuel : parts.length ≤ fuel) (done : List Char) :
    replaceLoop old new fuel done (old.intercalate parts) =
      some (done ++ new.intercalate parts) := by
  induction h generalizing fuel done with
  | @last part hNone =>
    obtain ⟨fuel, rfl⟩ := Nat.exists_eq_succ_of_ne_zero (Nat.ne_of_gt hFuel)
    rw [List.intercalate_singleton, List.intercalate_singleton, replaceLoop,
      breakOn_last hOld hNone]
  | @next part parts hFirst hRest ih =>
    rw [List.length_cons] at hFuel
    obtain ⟨fuel, rfl⟩ : ∃ n, fuel = n + 1 := ⟨fuel - 1, by omega⟩
    have hLater := ih (Nat.le_of_succ_le_succ hFuel) (done ++ part ++ new)
    rw [intercalate_next hRest, intercalate_next hRest, replaceLoop, breakOn_next hOld hFirst]
    show replaceLoop old new fuel (done ++ part ++ new) _ = _
    rw [hLater]
    simp only [List.append_assoc]

/-- **Replacing from left to right.** One scan of `str` for `old` finds parts,
and no other parts are found by such a scan. With any new text, both loops end
and put it between these parts: every occurrence that the scan finds gives way to
it, and no occurrence is looked for in it. -/
theorem replaceAllDistinct_leftmost (hOld : old ≠ []) (str : List Char) :
    ∃ parts, (Leftmost old parts ∧ old.intercalate parts = str) ∧
      (∀ parts', Leftmost old parts' → old.intercalate parts' = str → parts' = parts) ∧
      ∀ new, (∀ fuel, str.length < fuel →
          replaceInPlace old new fuel 0 str = some (new.intercalate parts)) ∧
        replaceAllDistinct str old new = some (new.intercalate parts) := by
  obtain ⟨parts, hParts, rfl⟩ := exists_leftmost hOld str
  have hShort := hParts.length_le hOld
  refine ⟨parts, ⟨hParts, rfl⟩, fun parts' hParts' hSame => hParts'.unique hParts hSame,
    fun new => ⟨fun fuel hFuel => ?_, ?_⟩⟩
  · exact replaceInPlace_eq hParts (by omega) []
  · exact replaceLoop_eq hParts hOld hShort []

end

/-- The new text has the old one twice, and neither is replaced again. -/
theorem replaceAllDistinct_leftmost_longer : ∃ parts,
    Leftmost ['a', 'a'] parts ∧ ['a', 'a'].intercalate parts = ['b', 'a', 'a', 'a'] ∧
    replaceInPlace ['a', 'a'] ['a', 'a', 'a'] 5 0 ['b', 'a', 'a', 'a'] =
      some (['a', 'a', 'a'].intercalate parts) ∧
    ['a', 'a', 'a'].intercalate parts = ['b', 'a', 'a', 'a', 'a'] := by
  have hOld : ['a', 'a'] ≠ [] := List.cons_ne_nil _ _
  obtain ⟨parts, ⟨hParts, hJoin⟩, -, hLoops⟩ :=
    replaceAllDistinct_leftmost hOld ['b', 'a', 'a', 'a']
  obtain ⟨hInPlace, -⟩ := hLoops ['a', 'a', 'a']
  have hFive := hInPlace 5 (by decide)
  have hResult : replaceInPlace ['a', 'a'] ['a', 'a', 'a'] 5 0 ['b', 'a', 'a', 'a'] =
      some ['b', 'a', 'a', 'a', 'a'] := by decide
  exact ⟨parts, hParts, hJoin, hFive, Option.some.inj (hFive.symm.trans hResult)⟩

end PushStreamer
