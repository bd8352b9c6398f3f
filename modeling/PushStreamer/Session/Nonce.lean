import Mathlib.Data.Fintype.Basic
import Mathlib.Data.Fintype.Card
import PushStreamer.Lib.Machine

/-!
# The random number of a signature

`generateRandomNumber` draws digits until its accumulator `four` has four of
them; a digit that was drawn before is ignored. Each accepted digit is added and
then moved to the left, so that `four` reaches 1000 with three digits, or with
four when the first is 0.

A run of the machine is the list of the numbers that `qrand` returns.

* `drawn_run` — `four` and the tags are those of the accepted digits, which are
  distinct, and all but the last are worth less than 1000.
* `generateRandomNumber_total` — four different digits are enough for a result.
* `generateRandomNumber_range` — the state of the loop, and its result.
-/

namespace PushStreamer

-- ---------------------------------------------------------------------------
-- The loop
-- ---------------------------------------------------------------------------

/-- The variables of the loop. -/
structure Draw where
  tag : Fin 10 → Bool
  four : ℕ

namespace Draw

def start : Draw where
  tag _ := false
  four := 0

/-- `temp`: the digit made of what `qrand` returns. -/
def temp (rand : ℕ) : Fin 10 := Fin.ofNat 10 rand

/-- The body of the loop. -/
def pass (s : Draw) (rand : ℕ) : Draw :=
  if s.tag (temp rand) = false then
    { tag := Function.update s.tag (temp rand) true
      four := (s.four + temp rand) * 10 }
  else s

/-- One pass, while the loop goes on. -/
def step (s : Draw) (rand : ℕ) : Option Draw := if s.four < 1000 then some (s.pass rand) else none

/-- The digits that the passes accept, in order. -/
def accepted : Draw → List ℕ → List (Fin 10)
  | _, [] => []
  | s, rand :: rands =>
    if s.tag (temp rand) = false then temp rand :: accepted (s.pass rand) rands
    else accepted (s.pass rand) rands

/-- The loop, for as long as there are numbers. -/
def loop : Draw → List ℕ → Option ℕ
  | s, [] => if s.four < 1000 then none else some s.four
  | s, rand :: rands => if s.four < 1000 then loop (s.pass rand) rands else some s.four

end Draw

/-- `generateRandomNumber`, when `qrand` returns the numbers of `rands`. -/
def generateRandomNumber (rands : List ℕ) : Option ℕ := Draw.start.loop rands

example : generateRandomNumber [0, 10, 17, 3, 7, 8] = some 7380 := by decide

-- ---------------------------------------------------------------------------
-- The accepted digits
-- ---------------------------------------------------------------------------

/-- What the accumulator makes of its digits. -/
def fourOf (ds : List (Fin 10)) : ℕ := ds.foldl (fun (four : ℕ) (d : Fin 10) => (four + d) * 10) 0

theorem fourOf_concat (ds : List (Fin 10)) (d : Fin 10) :
    fourOf (ds ++ [d]) = (fourOf ds + d) * 10 := by
  rw [fourOf, List.foldl_append]
  rfl

/-- The digits `ds` have been accepted, and none of them too late. -/
structure Drawn (s : Draw) (ds : List (Fin 10)) : Prop where
  nodup : ds.Nodup
  tag : ∀ d, s.tag d = true ↔ d ∈ ds
  four : s.four = fourOf ds
  before : fourOf ds.dropLast < 1000

theorem drawn_start : Drawn .start [] where
  nodup := List.nodup_nil
  tag d := by simp [Draw.start]
  four := rfl
  before := by decide

theorem Drawn.pass {s : Draw} {ds : List (Fin 10)} (h : Drawn s ds) (hGoesOn : s.four < 1000)
    (rand : ℕ) : Drawn (s.pass rand)
      (if s.tag (Draw.temp rand) = false then ds ++ [Draw.temp rand] else ds) := by
  rw [Draw.pass]
  -- a digit that is tagged is drawn again
  by_cases hTag : s.tag (Draw.temp rand) = false
  · rw [if_pos hTag, if_pos hTag]
    have hNew : Draw.temp rand ∉ ds := by
      rw [← h.tag, hTag]
      exact Bool.false_ne_true
    refine ⟨?_, fun d => ?_, ?_, ?_⟩
    · exact List.nodup_append.mpr ⟨h.nodup, List.nodup_singleton _, by
        intro a ha b hb hEq
        rw [List.mem_singleton.mp hb] at hEq
        exact hNew (hEq ▸ ha)⟩
    · show Function.update s.tag (Draw.temp rand) true d = true ↔ _
      rw [List.mem_append, List.mem_singleton]
      by_cases hd : d = Draw.temp rand
      · rw [hd, Function.update_self]
        exact iff_of_true rfl (Or.inr rfl)
      · rw [Function.update_of_ne hd, h.tag, or_iff_left hd]
    · rw [fourOf_concat, ← h.four]
    · rw [List.dropLast_concat, ← h.four]
      exact hGoesOn
  · rw [if_neg hTag, if_neg hTag]
    exact h

/-- The digits that a run accepts are added to those before it. -/
theorem drawn_run {rands : List ℕ} {s s' : Draw} {ds : List (Fin 10)} (h : Drawn s ds)
    (hRun : Machine.run Draw.step s rands = some s') : Drawn s' (ds ++ s.accepted rands) := by
  induction rands generalizing s ds with
  | nil =>
    rw [Machine.run_nil, Option.some.injEq] at hRun
    rw [Draw.accepted, List.append_nil, ← hRun]
    exact h
  | cons rand rands ih =>
    obtain ⟨s₁, hStep, hRest⟩ := Machine.run_cons.mp hRun
    obtain ⟨hGoesOn, rfl⟩ := Machine.of_guard hStep
    have hPass := h.pass hGoesOn rand
    rw [Draw.accepted]
    by_cases hTag : s.tag (Draw.temp rand) = false
    · rw [if_pos hTag] at hPass ⊢
      have hAll := ih hPass hRest
      rwa [List.append_assoc] at hAll
    · rw [if_neg hTag] at hPass ⊢
      exact ih hPass hRest

-- ---------------------------------------------------------------------------
-- What the digits are worth
-- ---------------------------------------------------------------------------

/-- More digits are not worth less. -/
theorem fourOf_le_append (ds es : List (Fin 10)) : fourOf ds ≤ fourOf (ds ++ es) := by
  induction es using List.reverseRecOn with
  | nil => rw [List.append_nil]
  | append_singleton es d ih =>
    rw [← List.append_assoc, fourOf_concat]
    omega

theorem fourOf_three (a b c : Fin 10) : fourOf [a, b, c] = 1000 * a + 100 * b + 10 * c := by
  simp only [fourOf, List.foldl_cons, List.foldl_nil]
  omega

theorem fourOf_four (a b c d : Fin 10) :
    fourOf [a, b, c, d] = 10000 * a + 1000 * b + 100 * c + 10 * d := by
  simp only [fourOf, List.foldl_cons, List.foldl_nil]
  omega

/-- Four digits are always enough: only one of the first two is 0. -/
theorem thousand_le_fourOf {a b : Fin 10} (hab : a ≠ b) (c d : Fin 10) (rest : List (Fin 10)) :
    1000 ≤ fourOf (a :: b :: c :: d :: rest) := by
  have hMore := fourOf_le_append [a, b, c, d] rest
  have hNe : (a : ℕ) ≠ b := fun hEq => hab (Fin.ext hEq)
  rw [fourOf_four] at hMore
  show 1000 ≤ fourOf ([a, b, c, d] ++ rest)
  omega

section

variable {s : Draw} {ds : List (Fin 10)}

/-- No more than four digits are accepted, and no more than three while the loop
goes on. -/
theorem Drawn.length_le (h : Drawn s ds) :
    ds.length ≤ 4 ∧ (s.four < 1000 → ds.length ≤ 3) := by
  obtain ⟨hNodup, -, hFour, hBefore⟩ := h
  rcases ds with _ | ⟨a, _ | ⟨b, _ | ⟨c, _ | ⟨d, _ | ⟨e, rest⟩⟩⟩⟩⟩
  · exact ⟨by simp, by simp⟩
  · exact ⟨by simp, by simp⟩
  · exact ⟨by simp, by simp⟩
  · exact ⟨by simp, by simp⟩
  · have hab : a ≠ b := fun hEq => by simp [hEq] at hNodup
    have hEnough := thousand_le_fourOf hab c d []
    exact ⟨by simp, fun hLt => by omega⟩
  · -- the fifth digit came too late
    have hab : a ≠ b := fun hEq => by simp [hEq] at hNodup
    have hEnough := thousand_le_fourOf hab c d (e :: rest).dropLast
    rw [List.dropLast_cons_cons, List.dropLast_cons_cons, List.dropLast_cons_cons,
      List.dropLast_cons_cons] at hBefore
    omega

/-- The result has three different digits before its last one, which is 0. -/
def IsDrawn (n : ℕ) : Prop :=
  10 ∣ n ∧ 1020 ≤ n ∧ n ≤ 9870 ∧ [n / 1000 % 10, n / 100 % 10, n / 10 % 10].Nodup

theorem isDrawn_of_digits {x y z : Fin 10} (hxy : x ≠ y) (hxz : x ≠ z) (hyz : y ≠ z)
    (hx : 0 < (x : ℕ)) : IsDrawn (1000 * x + 100 * y + 10 * z) := by
  have hxy' : (x : ℕ) ≠ y := fun hEq => hxy (Fin.ext hEq)
  have hxz' : (x : ℕ) ≠ z := fun hEq => hxz (Fin.ext hEq)
  have hyz' : (y : ℕ) ≠ z := fun hEq => hyz (Fin.ext hEq)
  have hThousands : (1000 * (x : ℕ) + 100 * y + 10 * z) / 1000 % 10 = x := by omega
  have hHundreds : (1000 * (x : ℕ) + 100 * y + 10 * z) / 100 % 10 = y := by omega
  have hTens : (1000 * (x : ℕ) + 100 * y + 10 * z) / 10 % 10 = z := by omega
  unfold IsDrawn
  rw [hThousands, hHundreds, hTens]
  refine ⟨by omega, by omega, by omega, ?_⟩
  simp [hxy', hxz', hyz']

/-- Whenever the loop ends: with three digits, or with four after a 0. -/
theorem Drawn.isDrawn (h : Drawn s ds) (hEnd : 1000 ≤ s.four) : IsDrawn s.four := by
  have hLength := h.length_le.1
  obtain ⟨hNodup, -, hFour, hBefore⟩ := h
  rcases ds with _ | ⟨a, _ | ⟨b, _ | ⟨c, _ | ⟨d, _ | ⟨e, rest⟩⟩⟩⟩⟩
  · rw [hFour] at hEnd
    exact absurd hEnd (by decide)
  · rw [hFour] at hEnd
    simp only [fourOf, List.foldl_cons, List.foldl_nil] at hEnd
    omega
  · rw [hFour] at hEnd
    simp only [fourOf, List.foldl_cons, List.foldl_nil] at hEnd
    omega
  · simp only [List.nodup_cons, List.mem_cons, List.not_mem_nil, or_false, not_or] at hNodup
    obtain ⟨⟨hab, hac⟩, hbc, -⟩ := hNodup
    rw [hFour, fourOf_three] at hEnd ⊢
    exact isDrawn_of_digits hab hac hbc (by omega)
  · simp only [List.nodup_cons, List.mem_cons, List.not_mem_nil, or_false, not_or] at hNodup
    obtain ⟨⟨hab, -, -⟩, ⟨hbc, hbd⟩, hcd, -⟩ := hNodup
    -- the first three were worth less than 1000, so the first is 0
    change fourOf [a, b, c] < 1000 at hBefore
    rw [fourOf_three] at hBefore
    have hZero : (a : ℕ) = 0 := by omega
    have hNe : (a : ℕ) ≠ b := fun hEq => hab (Fin.ext hEq)
    rw [hFour, fourOf_four, hZero, Nat.mul_zero, Nat.zero_add]
    exact isDrawn_of_digits hbc hbd hcd (by omega)
  · simp only [List.length_cons] at hLength
    omega

/-- While the loop goes on some digit is not yet tagged. -/
theorem Drawn.untagged (h : Drawn s ds) : ∃ d, s.tag d = false := by
  by_contra hNone
  have hAll : ∀ d, d ∈ ds := by
    intro d
    rw [← h.tag]
    by_contra hFalse
    exact hNone ⟨d, Bool.eq_false_iff.mpr hFalse⟩
  have hTen : (List.finRange 10).length ≤ ds.length :=
    (List.nodup_finRange 10).length_le_of_subset fun d _ => hAll d
  have hFew := h.length_le.1
  rw [List.length_finRange] at hTen
  omega

end

-- ---------------------------------------------------------------------------
-- The function
-- ---------------------------------------------------------------------------

/-- The loop returns what a run ends with that has left the loop. -/
theorem loop_eq_some {rands : List ℕ} {s : Draw} {n : ℕ} (h : s.loop rands = some n) :
    ∃ used s', used <+: rands ∧ Machine.run Draw.step s used = some s' ∧ 1000 ≤ s'.four ∧
      s'.four = n := by
  induction rands generalizing s with
  | nil =>
    rw [Draw.loop] at h
    by_cases hGoesOn : s.four < 1000
    · rw [if_pos hGoesOn] at h
      cases h
    · rw [if_neg hGoesOn, Option.some.injEq] at h
      exact ⟨[], s, List.prefix_rfl, rfl, Nat.le_of_not_lt hGoesOn, h⟩
  | cons rand rands ih =>
    rw [Draw.loop] at h
    by_cases hGoesOn : s.four < 1000
    · rw [if_pos hGoesOn] at h
      obtain ⟨used, s', hPrefix, hRun, hEnd, hValue⟩ := ih h
      have hStep : Draw.step s rand = some (s.pass rand) := if_pos hGoesOn
      exact ⟨rand :: used, s', List.prefix_cons_inj rand |>.mpr hPrefix,
        Machine.run_cons.mpr ⟨_, hStep, hRun⟩, hEnd, hValue⟩
    · rw [if_neg hGoesOn, Option.some.injEq] at h
      exact ⟨[], s, List.nil_prefix, rfl, Nat.le_of_not_lt hGoesOn, h⟩

/-- Without a result the loop has used all the numbers and still goes on. -/
theorem loop_eq_none {rands : List ℕ} {s : Draw} (h : s.loop rands = none) :
    ∃ s', Machine.run Draw.step s rands = some s' ∧ s'.four < 1000 := by
  induction rands generalizing s with
  | nil =>
    rw [Draw.loop] at h
    by_cases hGoesOn : s.four < 1000
    · exact ⟨s, rfl, hGoesOn⟩
    · rw [if_neg hGoesOn] at h
      cases h
  | cons rand rands ih =>
    rw [Draw.loop] at h
    by_cases hGoesOn : s.four < 1000
    · rw [if_pos hGoesOn] at h
      obtain ⟨s', hRun, hLast⟩ := ih h
      have hStep : Draw.step s rand = some (s.pass rand) := if_pos hGoesOn
      exact ⟨s', Machine.run_cons.mpr ⟨_, hStep, hRun⟩, hLast⟩
    · rw [if_neg hGoesOn] at h
      cases h

/-- A pass tags its digit, and no pass takes a tag away. -/
theorem tag_pass {s : Draw} {rand : ℕ} {d : Fin 10} (h : d = Draw.temp rand ∨ s.tag d = true) :
    (s.pass rand).tag d = true := by
  rw [Draw.pass]
  by_cases hTag : s.tag (Draw.temp rand) = false
  · rw [if_pos hTag]
    show Function.update s.tag (Draw.temp rand) true d = true
    by_cases hd : d = Draw.temp rand
    · rw [hd, Function.update_self]
    · rw [Function.update_of_ne hd]
      exact h.resolve_left hd
  · rw [if_neg hTag]
    rcases h with rfl | hOld
    · exact Bool.eq_true_of_not_eq_false hTag
    · exact hOld

/-- After a run all digits that came are tagged. -/
theorem tag_run {rands : List ℕ} {s s' : Draw} (hRun : Machine.run Draw.step s rands = some s')
    {d : Fin 10} (h : d ∈ rands.map Draw.temp ∨ s.tag d = true) : s'.tag d = true := by
  induction rands generalizing s with
  | nil =>
    rw [Machine.run_nil, Option.some.injEq] at hRun
    rw [← hRun]
    exact h.resolve_left List.not_mem_nil
  | cons rand rands ih =>
    obtain ⟨s₁, hStep, hRest⟩ := Machine.run_cons.mp hRun
    obtain ⟨-, rfl⟩ := Machine.of_guard hStep
    refine ih hRest ?_
    rw [List.map_cons, List.mem_cons] at h
    rcases h with (hNow | hLater) | hOld
    · exact Or.inr (tag_pass (Or.inl hNow))
    · exact Or.inl hLater
    · exact Or.inr (tag_pass (Or.inr hOld))

/-- Four different digits are enough for a result. -/
theorem generateRandomNumber_total {rands : List ℕ} {ds : List (Fin 10)} (hNodup : ds.Nodup)
    (hFour : 4 ≤ ds.length) (hCame : ∀ d ∈ ds, d ∈ rands.map Draw.temp) :
    (generateRandomNumber rands).isSome = true := by
  cases hResult : generateRandomNumber rands with
  | some n => rfl
  | none =>
    obtain ⟨s, hRun, hGoesOn⟩ := loop_eq_none hResult
    have hDrawn := drawn_run drawn_start hRun
    have hTagged : ∀ d ∈ ds, d ∈ [] ++ Draw.start.accepted rands := fun d hd =>
      (hDrawn.tag d).mp (tag_run hRun (Or.inl (hCame d hd)))
    have hLe := hNodup.length_le_of_subset hTagged
    have hThree := hDrawn.length_le.2 hGoesOn
    omega

/-- **No wedge, and the result in range.** In every state of the loop four digits
have been accepted at most, and while it goes on some digit is not tagged; four
different digits are enough for it to end. Whenever it ends, `four` is a multiple
of 10 between 1020 and 9870 with three different digits before the 0, and that is
the result. -/
theorem generateRandomNumber_range (rands : List ℕ) :
    (∀ s, Machine.run Draw.step .start rands = some s →
      (Draw.start.accepted rands).length ≤ 4 ∧ (s.four < 1000 → ∃ d, s.tag d = false) ∧
      (1000 ≤ s.four → IsDrawn s.four)) ∧
    (∀ n, generateRandomNumber rands = some n → IsDrawn n) ∧
    ∀ ds : List (Fin 10), ds.Nodup → 4 ≤ ds.length → (∀ d ∈ ds, d ∈ rands.map Draw.temp) →
      (generateRandomNumber rands).isSome = true := by
  refine ⟨fun s hRun => ?_, fun n hResult => ?_, fun ds => generateRandomNumber_total⟩
  · have hDrawn := drawn_run drawn_start hRun
    exact ⟨hDrawn.length_le.1, fun _ => hDrawn.untagged, hDrawn.isDrawn⟩
  · obtain ⟨used, s, -, hRun, hEnd, rfl⟩ := loop_eq_some hResult
    exact (drawn_run drawn_start hRun).isDrawn hEnd

end PushStreamer
