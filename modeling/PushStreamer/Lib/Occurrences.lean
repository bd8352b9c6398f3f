import Mathlib.Data.List.Basic
import Mathlib.Data.Nat.Find

/-!
# The leftmost occurrences of a pattern

A list is scanned once from left to right for a pattern `old`, each time from
behind the occurrence found before. What is found is given by what stands
between: `Leftmost old parts` says that the parts, put together with `old`
between them, have no occurrence of `old` that begins earlier than the next
separator.

* `exists_leftmost` — every list is put together from such parts.
* `Leftmost.unique` — and from these only.
* `Leftmost.length_le` — there are no more separators than elements.
-/

namespace Occurrences

variable {α : Type*} {old : List α}

/-- The parts of a scan: the first occurrence is the separator behind the first
part, and there is none in the last part. -/
inductive Leftmost (old : List α) : List (List α) → Prop
  | last {part : List α} (hNone : ∀ k, ¬ old <+: part.drop k) : Leftmost old [part]
  | next {part : List α} {parts : List (List α)}
      (hFirst : ∀ k < part.length, ¬ old <+: (part ++ old).drop k) (hRest : Leftmost old parts) :
      Leftmost old (part :: parts)

theorem Leftmost.ne_nil {parts : List (List α)} (h : Leftmost old parts) : parts ≠ [] := by
  cases h with
  | last hNone => exact List.cons_ne_nil _ _
  | next hFirst hRest => exact List.cons_ne_nil _ _

/-- A part, and what follows it. -/
theorem intercalate_next {part : List α} {parts : List (List α)} (h : Leftmost old parts)
    (new : List α) : new.intercalate (part :: parts) = part ++ (new ++ new.intercalate parts) := by
  rw [List.intercalate_cons_of_ne_nil h.ne_nil, List.append_assoc]

/-- Whether an occurrence begins in the first part does not depend on what
follows the separator. -/
theorem prefix_drop_iff {part : List α} (rest : List α) {k : ℕ} (hk : k ≤ part.length) :
    old <+: (part ++ (old ++ rest)).drop k ↔ old <+: (part ++ old).drop k := by
  have hShort : k ≤ (part ++ old).length := by
    rw [List.length_append]
    omega
  have hLonger : (part ++ (old ++ rest)).drop k = (part ++ old).drop k ++ rest := by
    rw [← List.append_assoc, List.drop_append_of_le_length hShort]
  rw [hLonger]
  constructor
  · intro h
    refine List.prefix_of_prefix_length_le h (List.prefix_append _ _) ?_
    rw [List.length_drop, List.length_append]
    omega
  · intro h
    exact h.trans (List.prefix_append _ _)

/-- The first occurrence is where the first part ends. -/
theorem first_occurrence {part : List α} (rest : List α)
    (hFirst : ∀ k < part.length, ¬ old <+: (part ++ old).drop k) :
    old <+: (part ++ (old ++ rest)).drop part.length ∧
      ∀ k < part.length, ¬ old <+: (part ++ (old ++ rest)).drop k := by
  constructor
  · rw [List.drop_left]
    exact List.prefix_append _ _
  · intro k hk h
    exact hFirst k hk ((prefix_drop_iff rest (Nat.le_of_lt hk)).mp h)

/-- Every list has a scan. The induction is on what is left of it. -/
theorem exists_leftmost (hOld : old ≠ []) (l : List α) :
    ∃ parts, Leftmost old parts ∧ old.intercalate parts = l := by
  induction hLength : l.length using Nat.strong_induction_on generalizing l with
  | _ n ih =>
    by_cases hSome : ∃ k, old <+: l.drop k
    · obtain ⟨k, ⟨rest, hRest⟩, hMin⟩ :
          ∃ k, old <+: l.drop k ∧ ∀ j < k, ¬ old <+: l.drop j := by
        classical
        exact ⟨Nat.find hSome, Nat.find_spec hSome, fun j hj => Nat.find_min hSome hj⟩
      have hPos : 0 < old.length := List.length_pos_of_ne_nil hOld
      have hDrop := congrArg List.length hRest
      rw [List.length_append, List.length_drop] at hDrop
      have hk : (l.take k).length = k := by
        rw [List.length_take]
        omega
      have hWhole : l.take k ++ (old ++ rest) = l := by
        rw [hRest, List.take_append_drop]
      obtain ⟨parts, hParts, hJoin⟩ := ih rest.length (by omega) rest rfl
      refine ⟨l.take k :: parts, .next (fun j hj => ?_) hParts, ?_⟩
      · rw [← prefix_drop_iff rest (Nat.le_of_lt hj), hWhole]
        exact hMin j (hk ▸ hj)
      · rw [intercalate_next hParts, hJoin, hWhole]
    · exact ⟨[l], .last fun k hk => hSome ⟨k, hk⟩, List.intercalate_singleton⟩

/-- A list with a separator is not the last part of a scan. -/
theorem not_last {part rest : List α} (hNone : ∀ k, ¬ old <+: (part ++ (old ++ rest)).drop k) :
    False := by
  refine hNone part.length ?_
  rw [List.drop_left]
  exact List.prefix_append _ _

/-- Of two scans of one list neither has the shorter first part. -/
theorem length_le_of_first {part part' rest rest' : List α}
    (hFirst : ∀ k < part'.length, ¬ old <+: (part' ++ old).drop k)
    (hSame : part ++ (old ++ rest) = part' ++ (old ++ rest')) : part'.length ≤ part.length := by
  by_contra hLt
  refine (first_occurrence rest' hFirst).2 part.length (Nat.lt_of_not_le hLt) ?_
  rw [← hSame, List.drop_left]
  exact List.prefix_append _ _

/-- **One scan.** -/
theorem Leftmost.unique {parts parts' : List (List α)} (h : Leftmost old parts)
    (h' : Leftmost old parts') (hSame : old.intercalate parts = old.intercalate parts') :
    parts = parts' := by
  induction h generalizing parts' with
  | @last part hNone =>
    rw [List.intercalate_singleton] at hSame
    cases h' with
    | last _ => rw [hSame, List.intercalate_singleton]
    | next hFirst hRest =>
      rw [intercalate_next hRest] at hSame
      exact (not_last (hSame ▸ hNone)).elim
  | @next part parts hFirst hRest ih =>
    rw [intercalate_next hRest] at hSame
    cases h' with
    | last hNone =>
      rw [List.intercalate_singleton] at hSame
      exact (not_last (hSame ▸ hNone)).elim
    | @next part' parts' hFirst' hRest' =>
      rw [intercalate_next hRest'] at hSame
      have hLength : part.length = part'.length :=
        Nat.le_antisymm (length_le_of_first hFirst hSame.symm) (length_le_of_first hFirst' hSame)
      obtain ⟨rfl, hTails⟩ := List.append_inj hSame hLength
      rw [ih hRest' (List.append_cancel_left hTails)]

/-- There are no more separators than elements. -/
theorem Leftmost.length_le {parts : List (List α)} (h : Leftmost old parts) (hOld : old ≠ []) :
    parts.length ≤ (old.intercalate parts).length + 1 := by
  have hPos : 0 < old.length := List.length_pos_of_ne_nil hOld
  induction h with
  | last hNone => simp
  | next hFirst hRest ih =>
    rw [intercalate_next hRest, List.length_append, List.length_append, List.length_cons]
    omega

end Occurrences
