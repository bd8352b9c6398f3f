import Mathlib.Tactic.Common

/-!
# `while` loops

A `while` loop whose body may leave it with an error. A measure that each turn
lowers is part of the loop, so it runs to its end with the fuel that the measure
gives.

* `run_of_not`, `run_of_error`, `run_of_ok` — the loop is what its first turn
  says.
* `run_induct` — what each turn keeps, the loop keeps.
* `error_run` — an error of a loop is an error of a turn.
* `measure_run_le` — the loop lowers the measure too.
-/

/-- `while (cond s) { body }`; an error is a `break`. -/
structure While (ε σ : Type*) where
  cond : σ → Bool
  body : σ → Except ε σ
  measure : σ → ℕ
  decreases : ∀ s s', cond s = true → body s = .ok s' → measure s' < measure s

namespace While

variable {ε σ : Type*} (w : While ε σ)

/-- The loop, for so many turns at most. -/
def runFor : ℕ → σ → Except ε σ
  | 0, s => .ok s
  | fuel + 1, s =>
    if w.cond s then
      match w.body s with
      | .error e => .error e
      | .ok s' => runFor fuel s'
    else .ok s

/-- The loop. -/
def run (s : σ) : Except ε σ := w.runFor (w.measure s + 1) s

variable {w} {s s' : σ} {e : ε}

/-- Fuel above the measure does not matter. -/
theorem runFor_eq {m n : ℕ} (hm : w.measure s < m) (hn : w.measure s < n) :
    w.runFor m s = w.runFor n s := by
  induction m generalizing s n with
  | zero => exact absurd hm (Nat.not_lt_zero _)
  | succ m ih =>
    cases n with
    | zero => exact absurd hn (Nat.not_lt_zero _)
    | succ n =>
      by_cases hCond : w.cond s = true
      · rw [runFor, runFor, if_pos hCond, if_pos hCond]
        cases hBody : w.body s with
        | error e => rfl
        | ok s' =>
          have hLt := w.decreases s s' hCond hBody
          exact ih (by omega) (by omega)
      · rw [runFor, runFor, if_neg hCond, if_neg hCond]

theorem run_of_not (h : w.cond s = false) : w.run s = .ok s := by
  rw [run, runFor, if_neg (Bool.eq_false_iff.mp h)]

theorem run_of_error (h : w.cond s = true) (hBody : w.body s = .error e) :
    w.run s = .error e := by
  rw [run, runFor, if_pos h, hBody]

theorem run_of_ok (h : w.cond s = true) (hBody : w.body s = .ok s') : w.run s = w.run s' := by
  have hLt := w.decreases s s' h hBody
  rw [run, runFor, if_pos h, hBody]
  exact runFor_eq hLt (Nat.lt_succ_self _)

/-- The induction over the turns of a loop: a statement about all states holds
when it follows, for each state, from the statement about the next one. -/
theorem induct {P : σ → Prop}
    (hStep : ∀ s, (∀ s', w.cond s = true → w.body s = .ok s' → P s') → P s) (s : σ) : P s := by
  induction hMeasure : w.measure s using Nat.strongRecOn generalizing s with
  | _ n ih =>
    apply hStep
    intro s' hCond hBody
    have hLt := w.decreases s s' hCond hBody
    exact ih _ (hMeasure ▸ hLt) s' rfl

/-- What each turn keeps, the loop keeps. -/
theorem run_induct {P : σ → Prop} (hStep : ∀ s s', w.cond s = true → P s → w.body s = .ok s' → P s')
    (h : P s) (hRun : w.run s = .ok s') : P s' := by
  induction s using w.induct with
  | hStep s ih =>
    by_cases hCond : w.cond s = true
    · cases hBody : w.body s with
      | error e =>
        rw [run_of_error hCond hBody] at hRun
        cases hRun
      | ok s'' =>
        rw [run_of_ok hCond hBody] at hRun
        exact ih s'' hCond hBody (hStep s s'' hCond h hBody) hRun
    · rw [run_of_not (Bool.eq_false_iff.mpr hCond)] at hRun
      exact Except.ok.inj hRun ▸ h

/-- An error of a loop is an error of a turn. -/
theorem error_run (h : w.run s = .error e) : ∃ s', w.cond s' = true ∧ w.body s' = .error e := by
  induction s using w.induct with
  | hStep s ih =>
    by_cases hCond : w.cond s = true
    · cases hBody : w.body s with
      | error e' =>
        rw [run_of_error hCond hBody] at h
        exact ⟨s, hCond, Except.error.inj h ▸ hBody⟩
      | ok s' =>
        rw [run_of_ok hCond hBody] at h
        exact ih s' hCond hBody h
    · rw [run_of_not (Bool.eq_false_iff.mpr hCond)] at h
      cases h

theorem measure_run_le (h : w.run s = .ok s') : w.measure s' ≤ w.measure s := by
  have hStep : ∀ x y, w.cond x = true → w.measure x ≤ w.measure s → w.body x = .ok y →
      w.measure y ≤ w.measure s := fun x y hCond hLe hBody =>
    Nat.le_trans (Nat.le_of_lt (w.decreases x y hCond hBody)) hLe
  exact run_induct (P := fun x => w.measure x ≤ w.measure s) hStep (Nat.le_refl _) h

/-- A loop that takes a turn lowers the measure. -/
theorem measure_run_lt (hCond : w.cond s = true) (h : w.run s = .ok s') :
    w.measure s' < w.measure s := by
  cases hBody : w.body s with
  | error e =>
    rw [run_of_error hCond hBody] at h
    cases h
  | ok s'' =>
    rw [run_of_ok hCond hBody] at h
    exact Nat.lt_of_le_of_lt (measure_run_le h) (w.decreases s s'' hCond hBody)

end While
