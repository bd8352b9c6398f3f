import PushStreamer.Lib.Prog
import Mathlib.Data.Nat.Find
import Mathlib.Data.List.Range

/-!
# Programs that poll for ever

Under an environment for every step (`es : ℕ → E`) a program either ends or
repeats one operation for ever, since everything else in it is finite.
`PollsForever H K p es s` says that it is an operation of the kind `K` that is
repeated.

* `ends_or_polls` — a program ends, or polls for ever.
* `PollsForever.not_ends` — and not both.
* `Stops.eval` — a program that stops whatever the environment does ends under
  every sequence of environments; `Stops.bind` composes such programs.
-/

namespace Prog

variable {S : Sig} {σ E α : Type}

section

variable (H : Handler S σ E) (o : S.Op) (es : ℕ → E) (s : σ)

/-- The state after `n` repetitions of `o`. -/
def pollState : ℕ → σ
  | 0 => s
  | n + 1 => (H.exec (es n) (pollState n) o).2

/-- The result of repetition number `n`. -/
def pollRes (n : ℕ) : S.Res o := (H.exec (es n) (pollState H o es s n) o).1

end

/-- The environments from step `n` on. -/
def later (es : ℕ → E) (n : ℕ) : ℕ → E := fun i => es (n + i)

/-- The first `n` environments. -/
def first (es : ℕ → E) (n : ℕ) : List E := (List.range n).map es

/-- The program repeats one operation of the kind `K` for ever. -/
def PollsForever (H : Handler S σ E) (K : S.Op → Prop) : Prog S α → (ℕ → E) → σ → Prop
  | ret _, _, _ => False
  | step o again k, es, s =>
    (K o ∧ ∀ n, again (pollRes H o es s n) = true) ∨
    ∃ n, (∀ m < n, again (pollRes H o es s m) = true) ∧ again (pollRes H o es s n) = false ∧
      PollsForever H K (k (pollRes H o es s n)) (later es (n + 1)) (pollState H o es s (n + 1))

variable {H : Handler S σ E} {K : S.Op → Prop}

theorem first_succ (es : ℕ → E) (n : ℕ) : first es (n + 1) = es 0 :: first (later es 1) n := by
  rw [first, List.range_succ_eq_map, List.map_cons, List.map_map]
  congr 1
  refine List.map_congr_left fun i _ => ?_
  rw [Function.comp_apply, later, Nat.add_comm]

theorem later_later (es : ℕ → E) (m n : ℕ) : later (later es m) n = later es (m + n) := by
  funext i
  simp only [later, Nat.add_assoc]

/-- The first poll, and then the others. -/
theorem pollState_succ (o : S.Op) (es : ℕ → E) (s : σ) (n : ℕ) :
    pollState H o es s (n + 1) = pollState H o (later es 1) (H.exec (es 0) s o).2 n := by
  induction n with
  | zero => rfl
  | succ n ih =>
    rw [pollState, ih, pollState]
    congr 2
    rw [later, Nat.add_comm]

theorem pollRes_succ (o : S.Op) (es : ℕ → E) (s : σ) (n : ℕ) :
    pollRes H o es s (n + 1) = pollRes H o (later es 1) (H.exec (es 0) s o).2 n := by
  rw [pollRes, pollState_succ, pollRes]
  congr 2
  rw [later, Nat.add_comm]

/-- A loop that ends with repetition number `n` goes on with what follows it. -/
theorem eval_loop {o : S.Op} {again : S.Res o → Bool} {k : S.Res o → Prog S α} (n m : ℕ)
    {es : ℕ → E} {s : σ} (hAgain : ∀ i < n, again (pollRes H o es s i) = true)
    (hStop : again (pollRes H o es s n) = false) :
    (eval H (first es (n + 1 + m)) (step o again k) s).isSome =
      (eval H (first (later es (n + 1)) m) (k (pollRes H o es s n))
        (pollState H o es s (n + 1))).isSome := by
  induction n generalizing es s with
  | zero =>
    have hStop' : again (H.exec (es 0) s o).1 = false := hStop
    rw [Nat.zero_add, Nat.add_comm, first_succ, eval, next, if_neg (by simp [hStop'])]
    rw [Option.isSome_map]
    rfl
  | succ n ih =>
    have hFirst : again (H.exec (es 0) s o).1 = true := hAgain 0 (Nat.succ_pos n)
    have hRest : ∀ i < n, again (pollRes H o (later es 1) (H.exec (es 0) s o).2 i) = true := by
      intro i hi
      rw [← pollRes_succ]
      exact hAgain (i + 1) (by omega)
    rw [pollRes_succ] at hStop
    have hLen : n + 1 + 1 + m = n + 1 + m + 1 := by omega
    rw [hLen, first_succ, eval, next, if_pos hFirst, Option.isSome_map, ih hRest hStop,
      pollRes_succ, pollState_succ _ _ _ (n + 1), later_later, Nat.add_comm 1 (n + 1)]

/-- A loop that goes on has not ended. -/
theorem eval_loop_none {o : S.Op} {again : S.Res o → Bool} {k : S.Res o → Prog S α} (n : ℕ)
    {es : ℕ → E} {s : σ} (hAgain : ∀ i < n, again (pollRes H o es s i) = true) :
    eval H (first es n) (step o again k) s = none := by
  induction n generalizing es s with
  | zero => rfl
  | succ n ih =>
    have hFirst : again (H.exec (es 0) s o).1 = true := hAgain 0 (Nat.succ_pos n)
    rw [first_succ, eval, next, if_pos hFirst, Option.map_eq_none_iff]
    refine ih fun i hi => ?_
    rw [← pollRes_succ]
    exact hAgain (i + 1) (by omega)

/-- **Progress.** A program that does not end polls for ever. -/
theorem ends_or_polls (p : Prog S α) (es : ℕ → E) (s : σ) :
    (∃ n x, eval H (first es n) p s = some x) ∨ PollsForever H (fun _ => True) p es s := by
  induction p generalizing es s with
  | ret a => exact Or.inl ⟨0, _, rfl⟩
  | step o again k ih =>
    by_cases hAgain : ∀ n, again (pollRes H o es s n) = true
    · exact Or.inr (Or.inl ⟨trivial, hAgain⟩)
    -- the first repetition that stops the loop
    have hEx : ∃ n, again (pollRes H o es s n) = false := by simpa using hAgain
    have hBefore : ∀ m < Nat.find hEx, again (pollRes H o es s m) = true := fun m hm => by
      simpa using Nat.find_min hEx hm
    rcases ih _ (later es (Nat.find hEx + 1)) (pollState H o es s (Nat.find hEx + 1)) with
      ⟨m, x, hEval⟩ | hPolls
    · refine Or.inl ⟨Nat.find hEx + 1 + m, ?_⟩
      rw [← Option.isSome_iff_exists, eval_loop _ m hBefore (Nat.find_spec hEx), hEval]
      rfl
    · exact Or.inr (Or.inr ⟨_, hBefore, Nat.find_spec hEx, hPolls⟩)

/-- A program that polls for ever does not end. -/
theorem PollsForever.not_ends {p : Prog S α} {es : ℕ → E} {s : σ}
    (h : PollsForever H K p es s) (n : ℕ) : eval H (first es n) p s = none := by
  induction p generalizing es s n with
  | ret a => exact h.elim
  | step o again k ih =>
    rcases h with ⟨-, hAgain⟩ | ⟨i, hBefore, hStop, hRest⟩
    · exact eval_loop_none n fun i _ => hAgain i
    · by_cases hLe : n ≤ i
      · exact eval_loop_none n fun j hj => hBefore j (by omega)
      · obtain ⟨m, rfl⟩ : ∃ m, n = i + 1 + m := ⟨n - (i + 1), by omega⟩
        rw [← Option.not_isSome_iff_eq_none, eval_loop i m hBefore hStop, ih _ hRest]
        simp

/-- What comes to an end does not poll for ever. -/
theorem not_pollsForever_of_eval {p : Prog S α} {es : ℕ → E} {s : σ} {n : ℕ}
    (h : (eval H (first es n) p s).isSome = true) : ¬ PollsForever H K p es s := by
  intro hPolls
  rw [hPolls.not_ends n] at h
  cases h

-- ---------------------------------------------------------------------------
-- Which operations a program can repeat
-- ---------------------------------------------------------------------------

/-- Every operation that the program can repeat is of the kind `K`. -/
abbrev Loops (K : S.Op → Prop) (p : Prog S α) : Prop :=
  All (fun o again => (∃ r, again r = true) → K o) p

/-- A program that polls for ever does so with an operation that it can
repeat. -/
theorem PollsForever.of_loops {L : S.Op → Prop} {p : Prog S α} {es : ℕ → E} {s : σ}
    (h : PollsForever H (fun _ => True) p es s) (hLoops : Loops (fun o => K o ∨ L o) p) :
    PollsForever H K p es s ∨ PollsForever H L p es s := by
  induction p generalizing es s with
  | ret a => exact h.elim
  | step o again k ih =>
    rcases h with ⟨-, hAgain⟩ | ⟨n, hBefore, hStop, hRest⟩
    · rcases hLoops.1 ⟨_, hAgain 0⟩ with hK | hL
      · exact Or.inl (Or.inl ⟨hK, hAgain⟩)
      · exact Or.inr (Or.inl ⟨hL, hAgain⟩)
    · rcases ih _ hRest (hLoops.2 _) with hK | hL
      · exact Or.inl (Or.inr ⟨n, hBefore, hStop, hK⟩)
      · exact Or.inr (Or.inr ⟨n, hBefore, hStop, hL⟩)

-- ---------------------------------------------------------------------------
-- Programs that always stop
-- ---------------------------------------------------------------------------

/-- Every execution of the program from `s` under environments that satisfy `A`
comes to an end. -/
inductive Stops (H : Handler S σ E) (A : E → Prop) : Prog S α → σ → Prop
  | ret (a : α) (s : σ) : Stops H A (ret a) s
  | step {o : S.Op} {again : S.Res o → Bool} {k : S.Res o → Prog S α} {s : σ}
      (h : ∀ e, A e → Stops H A (next o again k (H.exec e s o).1) (H.exec e s o).2) :
      Stops H A (step o again k) s

section

variable {A : E → Prop} {β : Type} {s : σ}

theorem stops_pure (a : α) : Stops H A (pure a : Prog S α) s := .ret a s

/-- An operation stops, also in a loop, where its result says so. -/
theorem stops_repeatWhile {o : S.Op} {again : S.Res o → Bool}
    (hStop : ∀ e, A e → again (H.exec e s o).1 = false) :
    Stops H A (repeatWhile o again) s := by
  refine .step fun e he => ?_
  rw [next, if_neg (by simp [hStop e he])]
  exact .ret _ _

theorem stops_perform (o : S.Op) : Stops H A (perform o) s := stops_repeatWhile fun _ _ => rfl

/-- A program that repeats nothing stops. -/
theorem Loops.stops {p : Prog S α} (h : Loops (fun _ => False) p) (s : σ) : Stops H A p s := by
  induction p generalizing s with
  | ret a => exact .ret a s
  | step o again k ih =>
    refine .step fun e he => ?_
    have hOnce : again (H.exec e s o).1 = false :=
      Bool.eq_false_iff.mpr fun hAgain => h.1 ⟨_, hAgain⟩
    rw [next, if_neg (by simp [hOnce])]
    exact ih _ (h.2 _) _

/-- The rule of a composition. -/
theorem Stops.bind {p : Prog S α} {f : α → Prog S β} (hp : Stops H A p s)
    (hf : ∀ t a s', Exec H A p s t a s' → Stops H A (f a) s') : Stops H A (p >>= f) s := by
  induction hp with
  | ret a s => exact hf [] a s (.ret a s)
  | @step o again k s _ ih =>
    refine Stops.step (k := fun r => (k r).bind f) fun e he => ?_
    rw [next_bind]
    exact ih e he fun t a s' hExec => hf _ a s' (.step e he hExec)

theorem stops_onlyIf {c : Prop} [Decidable c] {p : Prog S Unit} (hp : c → Stops H A p s) :
    Stops H A (onlyIf c p) s := by
  unfold onlyIf
  split
  · rename_i hc
    exact hp hc
  · exact stops_pure ()

/-- What stops does so within some number of steps, whatever the environment does. -/
theorem Stops.eval {p : Prog S α} (h : Stops H A p s) {es : ℕ → E} (hes : ∀ n, A (es n)) :
    ∃ n x, Prog.eval H (first es n) p s = some x := by
  induction h generalizing es with
  | ret a s => exact ⟨0, _, rfl⟩
  | step _ ih =>
    have hLater : ∀ n, A (later es 1 n) := fun n => hes (1 + n)
    obtain ⟨n, x, hEval⟩ := ih (es 0) (hes 0) hLater
    refine ⟨n + 1, ?_⟩
    rw [first_succ, Prog.eval, hEval]
    exact ⟨_, rfl⟩

end

end Prog
