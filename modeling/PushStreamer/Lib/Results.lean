import Mathlib.Tactic.Common

/-!
# Results and errors

What a computation comes to that returns a result or fails with an error: a
condition on its results together with one on its errors, and the rules that
carry them through a composition.
-/

namespace Results

variable {ε α β : Type}

/-- The results of `x` satisfy `P` and its errors `E`. -/
def Meets (P : α → Prop) (E : ε → Prop) : Except ε α → Prop
  | .ok a => P a
  | .error e => E e

variable {P : α → Prop} {Q : β → Prop} {E : ε → Prop} {x : Except ε α}

theorem meets_pure {a : α} (h : P a) : Meets P E (pure a) := h

theorem meets_error {e : ε} (h : E e) : Meets P E (.error e) := h

theorem meets_trivial (x : Except ε α) : Meets (fun _ => True) (fun _ => True) x := by
  cases x with
  | error e => trivial
  | ok a => trivial

/-- The rule for a composition: the second part starts from what the first one
has ended with. -/
theorem meets_bind {f : α → Except ε β} (hx : Meets P E x) (hf : ∀ a, P a → Meets Q E (f a)) :
    Meets Q E (x >>= f) := by
  cases x with
  | error e => exact hx
  | ok a => exact hf a hx

theorem meets_map {f : α → β} (h : Meets (fun a => Q (f a)) E x) : Meets Q E (x.map f) := by
  cases x with
  | error e => exact h
  | ok a => exact h

section

variable {P' : α → Prop} {E' : ε → Prop} (h : Meets P E x)

include h

theorem Meets.mono (hP : ∀ a, P a → P' a) (hE : ∀ e, E e → E' e) : Meets P' E' x := by
  cases x with
  | error e => exact hE e h
  | ok a => exact hP a h

theorem Meets.of_ok {a : α} (hOk : x = .ok a) : P a := by
  rw [hOk] at h
  exact h

theorem Meets.of_error {e : ε} (hError : x = .error e) : E e := by
  rw [hError] at h
  exact h

end

/-- What a computation returns first. -/
theorem ok_bind (a : α) (f : α → Except ε β) : (.ok a >>= f) = f a := rfl

end Results
