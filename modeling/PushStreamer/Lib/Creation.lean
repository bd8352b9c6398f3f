import Mathlib.Data.List.Basic
import PushStreamer.Lib.Mutex

/-!
# Creation by need, under a lock

Any number of threads call a function that constructs an object unless there is
one, publishes it in a shared pointer and returns the pointer. Objects are
numbered in the order in which they are constructed, and none is released.

`Stages` names the points of the function that matter: those inside the lock,
the points at which an object is constructed but not published, and those past
the publication. `Inv` is what every function of this kind keeps.

* `Inv.goTo`, `Inv.create`, `Inv.publish`, `Inv.return` — its steps.
* `Inv.createdOnce_iff` — every call returns the first object, so only the
  number of objects is left to ask for.
* `Inv.goesOn` — calls that wait for nothing but the lock do not get stuck.
-/

namespace Creation

open Function

/-- What the calls share, and where each of the threads `ι` is in its call. -/
structure State (ι P : Type*) where
  pc : ι → P
  mutex : Option ι
  -- the shared pointer
  object : Option ℕ
  constructed : ℕ
  -- what the calls have returned, in order
  returned : List (Option ℕ)

/-- One object has been constructed at most, and every call has returned it. -/
def CreatedOnce {ι P : Type*} (s : State ι P) : Prop :=
  s.constructed ≤ 1 ∧ ∀ r ∈ s.returned, s.constructed = 1 ∧ r = some 0

/-- The points of a function that creates its object by need. -/
structure Stages (P : Type*) where
  idle : P
  Inside : P → Prop
  -- the object is constructed and not published
  pending : ℕ → P
  -- the pointer has been found set, or has been set
  Done : P → Prop
  idle_ne : ∀ o, idle ≠ pending o
  idle_out : ¬ Inside idle
  idle_not_done : ¬ Done idle
  pending_inj : Injective pending
  pending_inside : ∀ o, Inside (pending o)
  pending_not_done : ∀ o, ¬ Done (pending o)

section

variable {ι P : Type*}

/-- No call has begun. -/
def start (idle : P) : State ι P where
  pc _ := idle
  mutex := none
  object := none
  constructed := 0
  returned := []

/-- Thread `i` goes on at `p`. -/
def State.goTo [DecidableEq ι] (s : State ι P) (i : ι) (p : P) : State ι P :=
  { s with pc := update s.pc i p }

/-- The first object that is constructed is the one that is published. -/
structure Inv (stages : Stages P) (s : State ι P) : Prop where
  held : Mutex.Held stages.Inside s.pc s.mutex
  notReturned : s.object = none → s.returned = []
  notDone : s.object = none → ∀ i, ¬ stages.Done (s.pc i)
  first : s.object = none → ∀ i o, s.pc i = stages.pending o → o = 0 ∧ s.constructed = 1
  unused : s.object = none → s.constructed = 0 ∨ ∃ i, s.pc i = stages.pending 0
  published : s.object ≠ none →
    s.object = some 0 ∧ 0 < s.constructed ∧ ∀ r ∈ s.returned, r = some 0

variable {stages : Stages P} {s : State ι P} {i : ι} {p q : P}

theorem inv_start : Inv stages (start stages.idle : State ι P) where
  held := Mutex.held_start stages.idle_out
  notReturned _ := rfl
  notDone _ _ := stages.idle_not_done
  first _ _ o hPc := absurd hPc (stages.idle_ne o)
  unused _ := Or.inl rfl
  published hSome := absurd rfl hSome

theorem createdOnce_start : CreatedOnce (start p : State ι P) := ⟨Nat.zero_le 1, nofun⟩

/-- A thread past the publication knows that there is an object. -/
theorem Inv.some_of_done (h : Inv stages s) (hPc : s.pc i = q) (hDone : stages.Done q) :
    s.object ≠ none := by
  intro hNone
  rw [← hPc] at hDone
  exact h.notDone hNone i hDone

/-- While the pointer is null, a thread inside that has constructed nothing finds
nothing constructed. -/
theorem Inv.constructed_eq_zero (h : Inv stages s) (hPc : s.pc i = q) (hIn : stages.Inside q)
    (hNot : ∀ o, q ≠ stages.pending o) (hNone : s.object = none) : s.constructed = 0 := by
  refine (h.unused hNone).resolve_right ?_
  rintro ⟨j, hj⟩
  rw [← hPc] at hIn hNot
  have hInJ : stages.Inside (s.pc j) := hj ▸ stages.pending_inside 0
  rw [← h.held.unique hIn hInJ] at hj
  exact hNot 0 hj

/-- What is left to ask is how many objects there are. -/
theorem Inv.createdOnce_iff (h : Inv stages s) : CreatedOnce s ↔ s.constructed ≤ 1 := by
  refine and_iff_left_of_imp fun hOne r hr => ?_
  have hSome : s.object ≠ none := fun hNone => by
    rw [h.notReturned hNone] at hr
    cases hr
  obtain ⟨-, hPos, hReturned⟩ := h.published hSome
  exact ⟨by omega, hReturned r hr⟩

/-- While a call is under way, the step `step` can be taken in some call. -/
def GoesOn (stages : Stages P) (step : State ι P → ι → Option (State ι P)) (s : State ι P) :
    Prop :=
  ∀ i, s.pc i ≠ stages.idle → ∃ j, s.pc j ≠ stages.idle ∧ (step s j).isSome = true

/-- A function that waits for nothing but the lock never gets stuck: the holder
of the lock can go on. -/
theorem Inv.goesOn (h : Inv stages s) {step : State ι P → ι → Option (State ι P)} {lock : P}
    (hOut : ¬ stages.Inside lock)
    (hStep : ∀ i, (s.pc i = lock → s.mutex = none) → (step s i).isSome = true) :
    GoesOn stages step s := by
  intro i hBusy
  by_cases hWait : s.pc i = lock → s.mutex = none
  · exact ⟨i, hBusy, hStep i hWait⟩
  · obtain ⟨-, hTaken⟩ := Classical.not_imp.mp hWait
    obtain ⟨j, hj⟩ := Option.ne_none_iff_exists'.mp hTaken
    have hInside : stages.Inside (s.pc j) := (h.held j).mpr hj
    refine ⟨j, ?_, hStep j fun hLock => absurd (hLock ▸ hInside) hOut⟩
    intro hIdle
    rw [hIdle] at hInside
    exact stages.idle_out hInside

variable [DecidableEq ι]

/-- A step that only goes on, and may take the lock or give it back. -/
theorem Inv.goTo (h : Inv stages s) (hPc : s.pc i = q) {m : Option ι}
    (hHeld : Mutex.Held stages.Inside (update s.pc i p) m)
    (hDone : s.object = none → ¬ stages.Done p) (hNew : ∀ o, p ≠ stages.pending o)
    (hOld : ∀ o, q ≠ stages.pending o) : Inv stages { s.goTo i p with mutex := m } where
  held := hHeld
  notReturned := h.notReturned
  notDone hNone := (forall_update_iff s.pc fun _ q => ¬ stages.Done q).mpr
    ⟨hDone hNone, fun j _ => h.notDone hNone j⟩
  first hNone := (forall_update_iff s.pc fun _ q =>
      ∀ o, q = stages.pending o → o = 0 ∧ s.constructed = 1).mpr
    ⟨fun o hp => absurd hp (hNew o), fun j _ => h.first hNone j⟩
  unused hNone := by
    refine (h.unused hNone).imp_right ?_
    rintro ⟨j, hj⟩
    have hNe : j ≠ i := by
      rintro rfl
      exact hOld 0 (hPc.symm.trans hj)
    refine ⟨j, ?_⟩
    show update s.pc i p j = _
    rw [update_of_ne hNe, hj]
  published := h.published

/-- The construction of an object. -/
theorem Inv.create (h : Inv stages s) (hPc : s.pc i = q) (hIn : stages.Inside q)
    (hNot : ∀ o, q ≠ stages.pending o) :
    Inv stages
      { s.goTo i (stages.pending s.constructed) with constructed := s.constructed + 1 } where
  held := h.held.move hPc (iff_of_true (stages.pending_inside _) hIn)
  notReturned := h.notReturned
  notDone hNone := (forall_update_iff s.pc fun _ q => ¬ stages.Done q).mpr
    ⟨stages.pending_not_done _, fun j _ => h.notDone hNone j⟩
  first hNone := by
    have hZero := h.constructed_eq_zero hPc hIn hNot hNone
    refine (forall_update_iff s.pc fun _ q =>
      ∀ o, q = stages.pending o → o = 0 ∧ s.constructed + 1 = 1).mpr ⟨?_, ?_⟩
    · intro o ho
      have hSame : s.constructed = o := stages.pending_inj ho
      omega
    · intro j hj o ho
      -- only one thread is inside
      have hInJ : stages.Inside (s.pc j) := ho ▸ stages.pending_inside o
      exact absurd (h.held.unique hInJ (hPc ▸ hIn)) hj
  unused hNone := by
    refine Or.inr ⟨i, ?_⟩
    show update s.pc i _ i = _
    rw [update_self, h.constructed_eq_zero hPc hIn hNot hNone]
  published hSome := by
    obtain ⟨hObject, -, hReturned⟩ := h.published hSome
    exact ⟨hObject, Nat.succ_pos _, hReturned⟩

/-- The publication of the object, unless there is one. -/
theorem Inv.publish (h : Inv stages s) {object : ℕ} (hPc : s.pc i = stages.pending object)
    (hIn : stages.Inside p) :
    Inv stages { s.goTo i p with
      object := if s.object = none then some object else s.object } := by
  have hHeld : Mutex.Held stages.Inside (update s.pc i p) s.mutex :=
    h.held.move hPc (iff_of_true hIn (stages.pending_inside object))
  have hPublished : (if s.object = none then some object else s.object) = some 0 ∧
      0 < s.constructed ∧ ∀ r ∈ s.returned, r = some 0 := by
    by_cases hNone : s.object = none
    · obtain ⟨rfl, hOne⟩ := h.first hNone i object hPc
      rw [if_pos hNone, h.notReturned hNone, hOne]
      exact ⟨rfl, Nat.one_pos, nofun⟩
    · rw [if_neg hNone]
      exact h.published hNone
  have hSome : (if s.object = none then some object else s.object) ≠ none := by
    rw [hPublished.1]
    exact Option.some_ne_none 0
  exact ⟨hHeld, fun hNone => absurd hNone hSome, fun hNone => absurd hNone hSome,
    fun hNone => absurd hNone hSome, fun hNone => absurd hNone hSome, fun _ => hPublished⟩

/-- The return of the pointer. -/
theorem Inv.return (h : Inv stages s) (hHeld : Mutex.Held stages.Inside (update s.pc i p) s.mutex)
    (hSome : s.object ≠ none) :
    Inv stages { s.goTo i p with returned := s.returned ++ [s.object] } := by
  obtain ⟨hObject, hPos, hReturned⟩ := h.published hSome
  refine ⟨hHeld, fun hNone => absurd hNone hSome, fun hNone => absurd hNone hSome,
    fun hNone => absurd hNone hSome, fun hNone => absurd hNone hSome,
    fun _ => ⟨hObject, hPos, ?_⟩⟩
  rw [List.forall_mem_append]
  exact ⟨hReturned, by simp [hObject]⟩

end

end Creation
