import Mathlib.Algebra.Order.Field.Basic
import Mathlib.Algebra.Order.Round
import Mathlib.Data.Int.ConditionallyCompleteOrder
import Mathlib.Tactic.Linarith

/-!
# Scaling an interval to whole numbers

`clamp left right v` is the point of an interval that is nearest to `v`, and
`scale left right range v` its place in the interval, stretched to `0 .. range`.
A monotone rounding `f` that keeps both ends (`Rounds`) makes whole numbers of
it.

* `scale_mono`, `Rounds.scaled_mono` — larger values are scaled to larger numbers.
* `Rounds.between`, `Rounds.low`, `Rounds.high` — the numbers reach from 0 to
  the end of the range, and both ends are reached at the ends of the interval.
* `le_scale_iff` — from which value on a place is reached.
-/

namespace Scale

section

variable {α : Type*} [LinearOrder α] {left right v w : α}

def clamp (left right v : α) : α := max left (min v right)

/-- A clamp keeps the order. -/
theorem clamp_mono (h : v ≤ w) : clamp left right v ≤ clamp left right w :=
  max_le_max (le_refl left) (min_le_min_right right h)

theorem clamp_of_le (h : v ≤ left) : clamp left right v = left :=
  max_eq_left ((min_le_left _ _).trans h)

theorem clamp_of_ge (hLt : left ≤ right) (h : right ≤ v) : clamp left right v = right := by
  rw [clamp, min_eq_right h, max_eq_right hLt]

end

variable {K : Type*} [Field K] [LinearOrder K] {left right range v w : K}

def scale (left right range v : K) : K := (clamp left right v - left) / (right - left) * range

theorem scale_low (h : v ≤ left) : scale left right range v = 0 := by
  rw [scale, clamp_of_le h, sub_self, zero_div, zero_mul]

/-- `f` rounds the numbers from 0 to `range` to whole ones from 0 to `top`. -/
structure Rounds (f : K → ℤ) (range : K) (top : ℤ) : Prop where
  mono : Monotone f
  zero : f 0 = 0
  top : f range = top

/-- Below the range the result is 0. -/
theorem Rounds.low {f : K → ℤ} {top : ℤ} (h : Rounds f range top) (hv : v ≤ left) :
    f (scale left right range v) = 0 := by
  rw [scale_low hv, h.zero]

variable [IsStrictOrderedRing K]

section

variable (hLt : left < right)

include hLt

/-- Scaling keeps the order. -/
theorem scale_mono (hRange : 0 ≤ range) (h : v ≤ w) :
    scale left right range v ≤ scale left right range w := by
  have hWidth : 0 < right - left := sub_pos.mpr hLt
  have hClamp : clamp left right v ≤ clamp left right w := clamp_mono h
  unfold scale
  gcongr

theorem scale_high (h : right ≤ v) : scale left right range v = range := by
  rw [scale, clamp_of_ge hLt.le h, div_self (sub_pos.mpr hLt).ne', one_mul]

theorem scale_nonneg (hRange : 0 ≤ range) : 0 ≤ scale left right range v := by
  have hLow : scale left right range (min v left) = 0 := scale_low (min_le_right _ _)
  rw [← hLow]
  exact scale_mono hLt hRange (min_le_left _ _)

theorem scale_le (hRange : 0 ≤ range) : scale left right range v ≤ range := by
  have hHigh : scale left right range (max v right) = range := scale_high hLt (le_max_right _ _)
  calc scale left right range v
      ≤ scale left right range (max v right) := scale_mono hLt hRange (le_max_left _ _)
    _ = range := hHigh

/-- A place above 0 is reached from the value on that stands there. -/
theorem le_scale_iff {place : K} (hPos : 0 < place) (hLe : place ≤ range) :
    place ≤ scale left right range v ↔ left + place / range * (right - left) ≤ v := by
  have hRange : 0 < range := hPos.trans_le hLe
  have hWidth : 0 < right - left := sub_pos.mpr hLt
  have hPart : place / range * (right - left) ≤ right - left :=
    mul_le_of_le_one_left hWidth.le ((div_le_one hRange).mpr hLe)
  have hPartPos : 0 < place / range * (right - left) := mul_pos (div_pos hPos hRange) hWidth
  calc place ≤ scale left right range v
      ↔ place / range * (right - left) ≤ clamp left right v - left := by
        rw [scale, ← div_le_iff₀ hRange, le_div_iff₀ hWidth]
    _ ↔ left + place / range * (right - left) ≤ clamp left right v := le_sub_iff_add_le'
    _ ↔ left + place / range * (right - left) ≤ v := by
        rw [clamp, le_max_iff, le_min_iff]
        constructor
        · rintro (hLeft | ⟨h, -⟩)
          · linarith
          · exact h
        · intro h
          exact Or.inr ⟨h, by linarith⟩

end

namespace Rounds

variable {f : K → ℤ} {top : ℤ} (h : Rounds f range top) (hLt : left < right) (hRange : 0 ≤ range)

include h hLt

theorem high (hv : right ≤ v) : f (scale left right range v) = top := by
  rw [scale_high hLt hv, h.top]

include hRange

/-- So does rounding what is scaled. -/
theorem scaled_mono : Monotone fun v => f (scale left right range v) :=
  fun _ _ hvw => h.mono (scale_mono hLt hRange hvw)

/-- The result is within its range. -/
theorem between : 0 ≤ f (scale left right range v) ∧ f (scale left right range v) ≤ top := by
  constructor
  · rw [← h.zero]
    exact h.mono (scale_nonneg hLt hRange)
  · rw [← h.top]
    exact h.mono (scale_le hLt hRange)

end Rounds

variable [FloorRing K]

/-- Dropping the fraction. -/
theorem rounds_floor (n : ℕ) : Rounds (fun v : K => ⌊v⌋) n n where
  mono := Int.floor_mono
  zero := Int.floor_zero
  top := Int.floor_natCast n

/-- Going to the nearest whole number. -/
theorem rounds_round (n : ℕ) : Rounds (round : K → ℤ) n n where
  mono v w h := by
    rw [round_eq, round_eq]
    exact Int.floor_mono (add_le_add_left h _)
  zero := round_zero
  top := round_natCast n

end Scale
