import Mathlib.Logic.Function.Basic

/-!
# A lock and its critical section

Each of any number of threads is at a point of its program; `inside` tells the
points of the critical section. `Held inside pc holder` says that just the
thread that holds the lock is inside.

* `Held.unique` — mutual exclusion.
* `Held.move`, `Held.lock`, `Held.unlock` — the steps that keep it.
-/

namespace Mutex

open Function

variable {ι P : Type*} {inside : P → Prop} {pc : ι → P} {holder : Option ι} {i : ι} {p q : P}

/-- Just the holder of the lock is inside. -/
def Held (inside : P → Prop) (pc : ι → P) (holder : Option ι) : Prop :=
  ∀ i, inside (pc i) ↔ holder = some i

/-- **Mutual exclusion.** -/
theorem Held.unique (h : Held inside pc holder) {j : ι} (hi : inside (pc i))
    (hj : inside (pc j)) : i = j := by
  have hHolder : holder = some i := (h i).mp hi
  exact Option.some.inj (hHolder.symm.trans ((h j).mp hj))

/-- Nobody is inside at first. -/
theorem held_start (hOut : ¬ inside p) : Held inside (fun _ : ι => p) none := fun _ =>
  iff_of_false hOut nofun

variable [DecidableEq ι]

/-- A step that neither enters nor leaves. -/
theorem Held.move (h : Held inside pc holder) (hPc : pc i = q) (hSame : inside p ↔ inside q) :
    Held inside (update pc i p) holder := by
  intro j
  by_cases hj : j = i
  · subst hj
    rw [update_self, hSame, ← hPc]
    exact h j
  · rw [update_of_ne hj]
    exact h j

/-- A thread enters by taking the free lock. -/
theorem Held.lock (h : Held inside pc none) (hIn : inside p) :
    Held inside (update pc i p) (some i) := by
  intro j
  by_cases hj : j = i
  · subst hj
    rw [update_self]
    exact iff_of_true hIn rfl
  · rw [update_of_ne hj]
    refine iff_of_false (fun hInside => nomatch (h j).mp hInside) fun hSome => ?_
    exact hj (Option.some.inj hSome).symm

/-- A thread leaves and gives the lock back. -/
theorem Held.unlock (h : Held inside pc holder) (hPc : pc i = q) (hIn : inside q)
    (hOut : ¬ inside p) : Held inside (update pc i p) none := by
  rw [← hPc] at hIn
  intro j
  by_cases hj : j = i
  · subst hj
    rw [update_self]
    exact iff_of_false hOut nofun
  · rw [update_of_ne hj]
    exact iff_of_false (fun hInside => hj (h.unique hInside hIn)) nofun

end Mutex
