import Mathlib.Data.List.Basic
import Mathlib.Tactic.Common

/-!
# Lines

A list that is read line by line: a line goes up to the first occurrence of a
delimiter, and a head up to the first empty line.

* `cut_append` — what is found does not depend on what comes behind it.
* `cut_line` — a line, whatever follows it.
* `Head.of_cut` — the rest of a head.
* `head_headText`, `Head.eq_headText` — heads are the texts of lines.
* `behind_flatten`, `exists_behind` — what follows the first elements of a list in
  pieces.
-/

namespace Lines

variable {α : Type*} [DecidableEq α] {d : List α}

/-- What stands before the first occurrence of `d`, and what after it. -/
def cut (d : List α) : List α → Option (List α × List α)
  | [] => if d = [] then some ([], []) else none
  | a :: as =>
    if d <+: a :: as then some ([], (a :: as).drop d.length)
    else (cut d as).map fun x => (a :: x.1, x.2)

/-- The delimiter behind a line is the first one. -/
def IsLine (d line : List α) : Prop := cut d (line ++ d) = some (line, [])

instance (line : List α) : Decidable (IsLine d line) :=
  inferInstanceAs (Decidable (_ = _))

/-- A list with the lines of a head, an empty line, and what follows it. -/
inductive Head (d : List α) : List (List α) → List α → List α → Prop
  | blank (rest : List α) : Head d [] rest (d ++ rest)
  | line {line rest s : List α} {lines : List (List α)} (hLine : IsLine d line)
      (hNe : line ≠ []) (h : Head d lines rest s) : Head d (line :: lines) rest (line ++ (d ++ s))

/-- The length of a head, with its delimiters. -/
def headLength (d : List α) : List (List α) → ℕ
  | [] => d.length
  | line :: lines => line.length + (d.length + headLength d lines)

/-- A head before its rest. -/
def headText (d : List α) : List (List α) → List α
  | [] => d
  | line :: lines => line ++ (d ++ headText d lines)

-- ---------------------------------------------------------------------------
-- The first line
-- ---------------------------------------------------------------------------

section

variable {s t l r : List α}

theorem cut_eq_some (h : cut d s = some (l, r)) : l ++ (d ++ r) = s := by
  induction s generalizing l with
  | nil =>
    rw [cut] at h
    split at h
    · next hEmpty =>
      obtain ⟨rfl, rfl⟩ := Prod.mk.inj (Option.some.inj h)
      rw [hEmpty]
      rfl
    · cases h
  | cons a as ih =>
    rw [cut] at h
    split at h
    · next hPrefix =>
      obtain ⟨rfl, rfl⟩ := Prod.mk.inj (Option.some.inj h)
      exact List.prefix_iff_eq_append.mp hPrefix
    · obtain ⟨⟨l', r'⟩, hCut, hEq⟩ := Option.map_eq_some_iff.mp h
      obtain ⟨rfl, rfl⟩ := Prod.mk.inj hEq
      rw [List.cons_append, ih hCut]

/-- What is found is found with more behind it. -/
theorem cut_append (h : cut d s = some (l, r)) (t : List α) :
    cut d (s ++ t) = some (l, r ++ t) := by
  induction s generalizing l with
  | nil =>
    rw [cut] at h
    split at h
    · next hEmpty =>
      obtain ⟨rfl, rfl⟩ := Prod.mk.inj (Option.some.inj h)
      subst hEmpty
      cases t with
      | nil => rfl
      | cons a t => rw [List.nil_append, cut, if_pos List.nil_prefix]; rfl
    · cases h
  | cons a as ih =>
    rw [cut] at h
    rw [List.cons_append, cut]
    split at h
    · -- the delimiter is here, and still the first one
      next hPrefix =>
      obtain ⟨rfl, rfl⟩ := Prod.mk.inj (Option.some.inj h)
      have hLength := hPrefix.length_le
      rw [← List.cons_append, if_pos (hPrefix.trans (List.prefix_append _ _)),
        List.drop_append_of_le_length hLength]
    · -- it is further on, and what comes behind cannot bring it forward
      next hNot =>
      obtain ⟨⟨l', r'⟩, hCut, hEq⟩ := Option.map_eq_some_iff.mp h
      obtain ⟨rfl, rfl⟩ := Prod.mk.inj hEq
      have hLength : d.length ≤ (a :: as).length := by
        have hSame := congrArg List.length (cut_eq_some hCut)
        rw [List.length_append, List.length_append] at hSame
        rw [List.length_cons]
        omega
      have hStill : ¬ d <+: a :: (as ++ t) := fun hMore =>
        hNot (List.prefix_of_prefix_length_le hMore (List.prefix_append (a :: as) t) hLength)
      rw [if_neg hStill, ih hCut]
      rfl

/-- A line, whatever follows it. -/
theorem cut_line (h : IsLine d l) (r : List α) : cut d (l ++ (d ++ r)) = some (l, r) := by
  rw [← List.append_assoc]
  exact cut_append h r

/-- What stands before the first delimiter is a line. -/
theorem isLine_of_cut (h : cut d s = some (l, r)) : IsLine d l := by
  have hSame := cut_eq_some h
  cases hLine : cut d (l ++ d) with
  | none =>
    exfalso
    clear h hSame
    induction l with
    | nil =>
      cases d with
      | nil => cases hLine
      | cons a d =>
        rw [List.nil_append, cut, if_pos (List.prefix_refl _)] at hLine
        cases hLine
    | cons a l ih =>
      rw [List.cons_append, cut] at hLine
      split at hLine
      · cases hLine
      · exact ih (Option.map_eq_none_iff.mp hLine)
  | some x =>
    obtain ⟨l', r'⟩ := x
    have hMore := cut_append hLine r
    rw [List.append_assoc, hSame, h] at hMore
    obtain ⟨rfl, hRest⟩ := Prod.mk.inj (Option.some.inj hMore)
    have hNil : r' = [] := by
      have hLength := congrArg List.length hRest
      rw [List.length_append] at hLength
      exact List.length_eq_zero_iff.mp (by omega)
    rw [IsLine, hLine, hNil]

end

-- ---------------------------------------------------------------------------
-- Heads
-- ---------------------------------------------------------------------------

section

variable {s t l r rest : List α} {lines : List (List α)}

theorem isLine_nil (d : List α) : IsLine d [] := by
  unfold IsLine
  rw [List.nil_append]
  cases d with
  | nil => rfl
  | cons a d =>
    rw [cut, if_pos (List.prefix_refl _), List.drop_length]

/-- What the first line of a head says about the others. -/
theorem Head.of_cut (h : Head d lines rest s) (hCut : cut d s = some (l, r)) :
    l = [] ∧ lines = [] ∧ r = rest ∨
      ∃ more, l ≠ [] ∧ lines = l :: more ∧ Head d more rest r := by
  cases h with
  | blank =>
    have hFirst := cut_line (isLine_nil d) rest
    rw [List.nil_append, hCut] at hFirst
    obtain ⟨rfl, rfl⟩ := Prod.mk.inj (Option.some.inj hFirst)
    exact .inl ⟨rfl, rfl, rfl⟩
  | line hLine hNe hMore =>
    rw [cut_line hLine] at hCut
    obtain ⟨rfl, rfl⟩ := Prod.mk.inj (Option.some.inj hCut)
    exact .inr ⟨_, hNe, rfl, hMore⟩

omit [DecidableEq α] in
theorem length_le_headLength (d : List α) (lines : List (List α)) :
    d.length ≤ headLength d lines := by
  cases lines with
  | nil => exact Nat.le_refl _
  | cons line lines => exact Nat.le_trans (Nat.le_add_right _ _) (Nat.le_add_left _ line.length)

omit [DecidableEq α] in
theorem length_headText (d : List α) (lines : List (List α)) :
    (headText d lines).length = headLength d lines := by
  induction lines with
  | nil => rfl
  | cons line lines ih =>
    rw [headText, headLength, List.length_append, List.length_append, ih]

/-- The text of some lines is their head. -/
theorem head_headText (h : ∀ line ∈ lines, IsLine d line ∧ line ≠ []) (rest : List α) :
    Head d lines rest (headText d lines ++ rest) := by
  induction lines with
  | nil => exact .blank rest
  | cons line lines ih =>
    obtain ⟨hLine, hNe⟩ := h line List.mem_cons_self
    rw [headText, List.append_assoc, List.append_assoc]
    exact .line hLine hNe (ih fun l hl => h l (List.mem_cons_of_mem line hl))

/-- A head is the text of its lines. -/
theorem Head.eq_headText (h : Head d lines rest s) : s = headText d lines ++ rest := by
  induction h with
  | blank rest => rfl
  | line hLine hNe h ih => rw [ih, headText, List.append_assoc, List.append_assoc]

theorem Head.isLine (h : Head d lines rest s) : ∀ line ∈ lines, IsLine d line ∧ line ≠ [] := by
  induction h with
  | blank rest => exact List.forall_mem_nil _
  | line hLine hNe h ih => exact List.forall_mem_cons.mpr ⟨⟨hLine, hNe⟩, ih⟩

theorem Head.length_eq (h : Head d lines rest s) :
    s.length = headLength d lines + rest.length := by
  rw [h.eq_headText, List.length_append, length_headText]

/-- A head with more behind it. -/
theorem Head.append (h : Head d lines rest s) (t : List α) : Head d lines (rest ++ t) (s ++ t) := by
  rw [h.eq_headText, List.append_assoc]
  exact head_headText h.isLine (rest ++ t)

/-- What follows a head. -/
theorem Head.drop (h : Head d lines rest s) : s.drop (headLength d lines) = rest := by
  rw [h.eq_headText, ← length_headText, List.drop_left]

/-- A head does not depend on what comes after it. -/
theorem Head.of_append (h : Head d lines rest (s ++ t)) (hLength : headLength d lines ≤ s.length) :
    Head d lines (s.drop (headLength d lines)) s := by
  rw [← length_headText] at hLength ⊢
  have hPrefix : headText d lines <+: s :=
    List.prefix_of_prefix_length_le ⟨rest, h.eq_headText.symm⟩ (List.prefix_append s t) hLength
  obtain ⟨rest', rfl⟩ := hPrefix
  rw [List.drop_left]
  exact head_headText h.isLine rest'

/-- Before a delimiter of two elements that differ, whatever has none in it is a
line. -/
theorem isLine_of_cut_none {a b : α} (hNe : a ≠ b) (h : cut [a, b] s = none) :
    IsLine [a, b] s := by
  induction s with
  | nil => exact isLine_nil _
  | cons c s ih =>
    rw [cut] at h
    split at h
    · cases h
    · next hNot =>
      have hStill : ¬ [a, b] <+: c :: (s ++ [a, b]) := by
        intro hPrefix
        obtain ⟨rfl, hTail⟩ := List.cons_prefix_cons.mp hPrefix
        cases s with
        | nil => exact hNe (List.cons_prefix_cons.mp hTail).1.symm
        | cons c' s =>
          obtain ⟨rfl, -⟩ := List.cons_prefix_cons.mp hTail
          exact hNot ⟨s, rfl⟩
      have hRest : cut [a, b] (s ++ [a, b]) = some (s, []) := ih (Option.map_eq_none_iff.mp h)
      rw [IsLine, List.cons_append, cut, if_neg hStill, hRest]
      rfl

/-- Behind anything there can be the end of a head. -/
theorem exists_head {a b : α} (hNe : a ≠ b) (s : List α) :
    ∃ lines rest, Head [a, b] lines rest (s ++ ([a, b] ++ [a, b])) := by
  induction hLength : s.length using Nat.strongRecOn generalizing s with
  | _ n ih =>
    subst hLength
    cases hCut : cut [a, b] s with
    | none =>
      by_cases hNil : s = []
      · subst hNil
        exact ⟨[], [a, b], .blank _⟩
      · exact ⟨[s], [], .line (isLine_of_cut_none hNe hCut) hNil (.blank [])⟩
    | some x =>
      obtain ⟨l, r⟩ := x
      have hSame := cut_eq_some hCut
      have hShort : r.length < s.length := by
        rw [← hSame, List.length_append, List.length_append]
        exact Nat.lt_of_lt_of_le (Nat.lt_add_of_pos_left Nat.two_pos) (Nat.le_add_left _ _)
      rw [← hSame, List.append_assoc, List.append_assoc]
      by_cases hNil : l = []
      · subst hNil
        exact ⟨[], _, .blank _⟩
      · obtain ⟨lines, rest, hHead⟩ := ih r.length hShort r rfl
        exact ⟨l :: lines, rest, .line (isLine_of_cut hCut) hNil hHead⟩

end

-- ---------------------------------------------------------------------------
-- Pieces
-- ---------------------------------------------------------------------------

section

variable {β : Type*} {n : ℕ}

/-- How many pieces end before there are `n` elements. -/
def waits : ℕ → List (List β) → ℕ
  | _, [] => 0
  | n, c :: cs => if n ≤ c.length then 0 else waits (n - c.length) cs + 1

/-- What is left of the piece in which there are `n` elements, and the pieces behind
it. -/
def behind : ℕ → List (List β) → List β × List (List β)
  | _, [] => ([], [])
  | n, c :: cs => if n ≤ c.length then (c.drop n, cs) else behind (n - c.length) cs

theorem behind_flatten (cs : List (List β)) (h : n ≤ cs.flatten.length) :
    (behind n cs).1 ++ (behind n cs).2.flatten = cs.flatten.drop n := by
  induction cs generalizing n with
  | nil => exact List.drop_nil.symm
  | cons c cs ih =>
    rw [List.flatten_cons, List.length_append] at h
    rw [behind, List.flatten_cons]
    split
    · next hFirst => rw [List.drop_append_of_le_length hFirst]
    · next hLater =>
      have hNone : c.drop n = [] := List.drop_eq_nil_of_le (by omega)
      rw [ih (n := n - c.length) (by omega), List.drop_append, hNone, List.nil_append]

/-- The piece in which there are `n` elements, with the pieces around it. -/
theorem exists_behind (cs : List (List β)) (hPos : 0 < n) (h : n ≤ cs.flatten.length) :
    ∃ done last, cs = done ++ (last ++ (behind n cs).1) :: (behind n cs).2 ∧
      done.flatten ++ last = cs.flatten.take n ∧ done.flatten.length < n := by
  induction cs generalizing n with
  | nil => exact absurd h (Nat.not_le.mpr hPos)
  | cons c cs ih =>
    rw [List.flatten_cons, List.length_append] at h
    rw [behind, List.flatten_cons]
    split
    · next hFirst =>
      refine ⟨[], c.take n, ?_, ?_, hPos⟩
      · rw [List.take_append_drop, List.nil_append]
      · rw [List.flatten_nil, List.nil_append, List.take_append_of_le_length hFirst]
    · next hLater =>
      obtain ⟨done, last, hPieces, hTake, hLt⟩ := ih (n := n - c.length) (by omega) (by omega)
      refine ⟨c :: done, last, ?_, ?_, ?_⟩
      · rw [List.cons_append, ← hPieces]
      · rw [List.flatten_cons, List.append_assoc, hTake, List.take_append,
          List.take_of_length_le (by omega : c.length ≤ n)]
      · rw [List.flatten_cons, List.length_append]
        omega

end

end Lines
