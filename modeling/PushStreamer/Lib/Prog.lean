import Mathlib.Logic.Function.Basic
import Mathlib.Data.List.Basic

/-!
# Programs over atomic operations, alone and interleaved

A program `Prog S α` is a tree of atomic operations of a signature `S`: it
performs an operation, receives its result and goes on, or repeats the same
operation for as long as `again` says so (a polling loop). A `Handler` gives
the operations their meaning on a shared state; the part of a result that the
program does not control is chosen by an environment value at each step.

* `Path p t a` — `t` is the trace of one complete execution of `p`, whatever
  the results of its operations are; `a` is what it returns.
* `Exec H A p s t a s'` — a complete execution of `p` alone from `s` to `s'`,
  under environments that satisfy `A`.
* `Run H s ts log s' ts'` — some steps of several programs that share a state,
  interleaved in any order; `log` lists their events in the order taken.

The rules that proofs about concrete programs use: `path_bind` and
`exec_bind` (composition), `Run.path` (the events of one thread in a log form a
trace of its program), `Exec.fold` and `Run.fold` (a component that every
operation changes in a known way is a fold over the trace), and `Avoids` for
programs that never perform some kind of operation.
-/

/-- A signature: operations and the type of each operation's result. -/
structure Sig where
  Op : Type
  Res : Op → Type

/-- One performed operation with its result. -/
structure Event (S : Sig) where
  op : S.Op
  res : S.Res op

/-- Programs over the operations of `S` that return an `α`. -/
inductive Prog (S : Sig) (α : Type) where
  | ret (a : α)
  | step (o : S.Op) (again : S.Res o → Bool) (k : S.Res o → Prog S α)

namespace Prog

variable {S : Sig} {α β : Type}

/-- What is left of `step o again k` once `o` has returned `r`. -/
def next (o : S.Op) (again : S.Res o → Bool) (k : S.Res o → Prog S α) (r : S.Res o) :
    Prog S α :=
  if again r then step o again k else k r

/-- Run `p`, then the program that `f` makes of what it returned. -/
def bind : Prog S α → (α → Prog S β) → Prog S β
  | ret a, f => f a
  | step o again k, f => step o again fun r => bind (k r) f

instance : Monad (Prog S) where
  pure := ret
  bind := bind

/-- Perform one operation. -/
def perform (o : S.Op) : Prog S (S.Res o) := step o (fun _ => false) ret

/-- Perform an operation until its result says to stop, and return that result. -/
def repeatWhile (o : S.Op) (again : S.Res o → Bool) : Prog S (S.Res o) := step o again ret

/-- Run `p` only if `c` holds. -/
def onlyIf (c : Prop) [Decidable c] (p : Prog S Unit) : Prog S Unit := if c then p else pure ()

theorem onlyIf_pos {c : Prop} [Decidable c] (h : c) (p : Prog S Unit) : onlyIf c p = p := if_pos h

theorem onlyIf_neg {c : Prop} [Decidable c] (h : ¬ c) (p : Prog S Unit) :
    onlyIf c p = pure () := if_neg h

/-- What comes next in a composition is what comes next in its first part, composed. -/
theorem next_bind (o : S.Op) (again : S.Res o → Bool) (k : S.Res o → Prog S α)
    (f : α → Prog S β) (r : S.Res o) :
    next o again (fun r => (k r).bind f) r = (next o again k r).bind f := by
  unfold next
  split <;> rfl

/-! ## Traces of one program -/

/-- `t` is the trace of a complete execution of a program that returns `a`. -/
inductive Path : Prog S α → List (Event S) → α → Prop
  | ret (a : α) : Path (ret a) [] a
  | step {o : S.Op} {again : S.Res o → Bool} {k : S.Res o → Prog S α} (r : S.Res o)
      {t : List (Event S)} {a : α} (h : Path (next o again k r) t a) :
      Path (step o again k) (⟨o, r⟩ :: t) a

/-- A program that is over has one path. -/
theorem path_ret {a b : α} {t : List (Event S)} :
    Path (ret a) t b ↔ t = [] ∧ b = a := by
  constructor
  · intro h
    cases h
    exact ⟨rfl, rfl⟩
  · rintro ⟨rfl, rfl⟩
    exact .ret _

@[simp] theorem path_pure {a b : α} {t : List (Event S)} :
    Path (pure a : Prog S α) t b ↔ t = [] ∧ b = a := path_ret

/-- A trace of `step o again k` starts with `o`. -/
theorem path_step {o : S.Op} {again : S.Res o → Bool} {k : S.Res o → Prog S α}
    {t : List (Event S)} {a : α} :
    Path (step o again k) t a ↔
      ∃ r t', t = ⟨o, r⟩ :: t' ∧ Path (next o again k r) t' a := by
  constructor
  · intro h
    cases h with
    | step r h' => exact ⟨r, _, rfl, h'⟩
  · rintro ⟨r, t', rfl, h'⟩
    exact .step r h'

/-- Traces of a composition are traces of its parts, one after the other. -/
theorem path_bind {p : Prog S α} {f : α → Prog S β} {t : List (Event S)} {b : β} :
    Path (p >>= f) t b ↔ ∃ t₁ t₂ a, t = t₁ ++ t₂ ∧ Path p t₁ a ∧ Path (f a) t₂ b := by
  constructor
  · intro h
    induction t generalizing p with
    | nil =>
      cases p with
      | ret a => exact ⟨[], [], a, rfl, .ret a, h⟩
      | step o again k =>
        obtain ⟨r, t', hNil, -⟩ := path_step.mp h
        simp at hNil
    | cons ev t ih =>
      cases p with
      | ret a => exact ⟨[], ev :: t, a, rfl, .ret a, h⟩
      | step o again k =>
        obtain ⟨r, t', hCons, hRest⟩ := path_step.mp h
        obtain ⟨rfl, rfl⟩ := List.cons.inj hCons
        rw [next_bind] at hRest
        obtain ⟨t₁, t₂, a, rfl, h₁, h₂⟩ := ih hRest
        exact ⟨⟨o, r⟩ :: t₁, t₂, a, rfl, .step r h₁, h₂⟩
  · rintro ⟨t₁, t₂, a, rfl, h₁, h₂⟩
    induction h₁ with
    | ret a => exact h₂
    | @step o again k r t a _ ih =>
      refine Path.step (k := fun r => (k r).bind f) r ?_
      rw [next_bind]
      exact ih h₂

/-- One operation returns its own result. -/
@[simp] theorem path_perform {o : S.Op} {r : S.Res o} {t : List (Event S)} :
    Path (perform o) t r ↔ t = [⟨o, r⟩] := by
  simp [perform, path_step, next, path_ret]

/-- A composition that starts with a single operation. -/
theorem path_then {o : S.Op} {f : S.Res o → Prog S β} {t : List (Event S)} {b : β} :
    Path (perform o >>= f) t b ↔ ∃ r t', t = ⟨o, r⟩ :: t' ∧ Path (f r) t' b := by
  rw [path_bind]
  constructor
  · rintro ⟨t₁, t₂, r, rfl, h₁, h₂⟩
    obtain rfl := path_perform.mp h₁
    exact ⟨r, t₂, rfl, h₂⟩
  · rintro ⟨r, t', rfl, h⟩
    exact ⟨_, t', r, rfl, path_perform.mpr rfl, h⟩

/-- A loop that never stops has no complete trace. -/
theorem not_path_forever {o : S.Op} {t : List (Event S)} {r : S.Res o} :
    ¬ Path (repeatWhile o fun _ => true) t r := by
  intro h
  induction t with
  | nil =>
    obtain ⟨r', t', hNil, -⟩ := path_step.mp h
    cases hNil
  | cons ev t ih =>
    obtain ⟨r', t', hCons, hRest⟩ := path_step.mp h
    obtain ⟨-, rfl⟩ := List.cons.inj hCons
    exact ih hRest

/-- Under a condition that holds there are the paths of the part. -/
theorem path_onlyIf {c : Prop} [Decidable c] (h : c) {p : Prog S Unit} {t : List (Event S)}
    {u : Unit} : Path (onlyIf c p) t u ↔ Path p t u := by
  rw [onlyIf_pos h]

/-- Every operation of `p`, with the test that repeats it, meets `P`. -/
def All (P : (o : S.Op) → (S.Res o → Bool) → Prop) : Prog S α → Prop
  | ret _ => True
  | step o again k => P o again ∧ ∀ r, All P (k r)

section

variable {P : (o : S.Op) → (S.Res o → Bool) → Prop}

@[simp] theorem all_pure (a : α) : All P (pure a : Prog S α) := trivial

@[simp] theorem all_perform {o : S.Op} : All P (perform o) ↔ P o fun _ => false :=
  and_iff_left fun _ => trivial

@[simp] theorem all_repeatWhile {o : S.Op} {again : S.Res o → Bool} :
    All P (repeatWhile o again) ↔ P o again :=
  and_iff_left fun _ => trivial

/-- What holds of the operations of both parts holds of the composition. -/
theorem all_bind {p : Prog S α} {f : α → Prog S β} (hp : All P p) (hf : ∀ a, All P (f a)) :
    All P (p >>= f) := by
  induction p with
  | ret a => exact hf a
  | step o again k ih => exact ⟨hp.1, fun r => ih r (hp.2 r)⟩

/-- A part under a condition is no worse than the part. -/
theorem all_onlyIf {c : Prop} [Decidable c] {p : Prog S Unit} (hp : All P p) :
    All P (onlyIf c p) := by
  unfold onlyIf
  split
  · exact hp
  · exact all_pure ()

/-- A weaker property of the operations. -/
theorem All.mono {Q : (o : S.Op) → (S.Res o → Bool) → Prop} {p : Prog S α} (h : All P p)
    (hPQ : ∀ o again, P o again → Q o again) : All Q p := by
  induction p with
  | ret a => trivial
  | step o again k ih => exact ⟨hPQ o again h.1, fun r => ih r (h.2 r)⟩

end

/-- `p` never performs an operation of the kind `K`. -/
abbrev Avoids (K : S.Op → Prop) (p : Prog S α) : Prop := All (fun o _ => ¬ K o) p

/-- The property stays with what is left of the program. -/
theorem All.next {P : (o : S.Op) → (S.Res o → Bool) → Prop} {o : S.Op}
    {again : S.Res o → Bool} {k : S.Res o → Prog S α} (h : All P (step o again k))
    (r : S.Res o) : All P (next o again k r) := by
  unfold Prog.next
  split
  · exact h
  · exact h.2 r

/-- The trace of a program that avoids a kind of operation has none of it. -/
theorem Path.avoids {K : S.Op → Prop} {p : Prog S α} {t : List (Event S)} {a : α}
    (h : Path p t a) (hp : Avoids K p) : ∀ ev ∈ t, ¬ K ev.op := by
  induction h with
  | ret a => simp
  | @step o again k r t a _ ih => exact List.forall_mem_cons.mpr ⟨hp.1, ih (hp.next r)⟩

end Prog

/-! ## One program on a shared state -/

/-- The meaning of the operations on states `σ`: the environment `e : E`
decides what the program does not control. -/
structure Handler (S : Sig) (σ E : Type) where
  exec : E → σ → (o : S.Op) → S.Res o × σ

namespace Prog

variable {S : Sig} {σ E α β : Type} {H : Handler S σ E} {A : E → Prop}

/-- A complete execution of `p` alone, under environments that satisfy `A`. -/
inductive Exec (H : Handler S σ E) (A : E → Prop) :
    Prog S α → σ → List (Event S) → α → σ → Prop
  | ret (a : α) (s : σ) : Exec H A (ret a) s [] a s
  | step {o : S.Op} {again : S.Res o → Bool} {k : S.Res o → Prog S α} {s : σ} (e : E)
      (hA : A e) {t : List (Event S)} {a : α} {s' : σ}
      (h : Exec H A (next o again k (H.exec e s o).1) (H.exec e s o).2 t a s') :
      Exec H A (step o again k) s (⟨o, (H.exec e s o).1⟩ :: t) a s'

/-- A program that is over changes nothing. -/
theorem exec_ret {a b : α} {s s' : σ} {t : List (Event S)} :
    Exec H A (ret a) s t b s' ↔ t = [] ∧ b = a ∧ s' = s := by
  constructor
  · intro h
    cases h
    exact ⟨rfl, rfl, rfl⟩
  · rintro ⟨rfl, rfl, rfl⟩
    exact .ret _ _

@[simp] theorem exec_pure {a b : α} {s s' : σ} {t : List (Event S)} :
    Exec H A (pure a : Prog S α) s t b s' ↔ t = [] ∧ b = a ∧ s' = s := exec_ret

/-- An execution of a step is one step, and an execution of what comes next. -/
theorem exec_step {o : S.Op} {again : S.Res o → Bool} {k : S.Res o → Prog S α} {s s' : σ}
    {t : List (Event S)} {a : α} :
    Exec H A (step o again k) s t a s' ↔
      ∃ e t', A e ∧ t = ⟨o, (H.exec e s o).1⟩ :: t' ∧
        Exec H A (next o again k (H.exec e s o).1) (H.exec e s o).2 t' a s' := by
  constructor
  · intro h
    cases h with
    | step e hA h' => exact ⟨e, _, hA, rfl, h'⟩
  · rintro ⟨e, t', hA, rfl, h'⟩
    exact .step e hA h'

/-- An execution of a composition is an execution of its first part followed
by one of its second. -/
theorem exec_bind {p : Prog S α} {f : α → Prog S β} {s s' : σ} {t : List (Event S)} {b : β} :
    Exec H A (p >>= f) s t b s' ↔ ∃ t₁ t₂ a s₁, t = t₁ ++ t₂ ∧ Exec H A p s t₁ a s₁ ∧
      Exec H A (f a) s₁ t₂ b s' := by
  constructor
  · intro h
    -- over the trace: its events belong to `p` until `p` returns
    induction t generalizing p s with
    | nil =>
      cases p with
      | ret a => exact ⟨[], [], a, s, rfl, .ret a s, h⟩
      | step o again k =>
        obtain ⟨e, t', -, hNil, -⟩ := exec_step.mp h
        simp at hNil
    | cons ev t ih =>
      cases p with
      | ret a => exact ⟨[], ev :: t, a, s, rfl, .ret a s, h⟩
      | step o again k =>
        obtain ⟨e, t', hA, hCons, hRest⟩ := exec_step.mp h
        obtain ⟨rfl, rfl⟩ := List.cons.inj hCons
        rw [next_bind] at hRest
        obtain ⟨t₁, t₂, a, s₁, rfl, h₁, h₂⟩ := ih hRest
        exact ⟨_ :: t₁, t₂, a, s₁, rfl, .step e hA h₁, h₂⟩
  · rintro ⟨t₁, t₂, a, s₁, rfl, h₁, h₂⟩
    induction h₁ with
    | ret a s => exact h₂
    | @step o again k s e hA t a s₁ _ ih =>
      refine Exec.step (k := fun r => (k r).bind f) e hA ?_
      rw [next_bind]
      exact ih h₂

/-- One operation, in an environment that is allowed. -/
@[simp] theorem exec_perform {o : S.Op} {r : S.Res o} {s s' : σ} {t : List (Event S)} :
    Exec H A (perform o) s t r s' ↔
      ∃ e, A e ∧ t = [⟨o, r⟩] ∧ H.exec e s o = (r, s') := by
  constructor
  · intro h
    obtain ⟨e, t', hA, rfl, hRest⟩ := exec_step.mp h
    rw [next, if_neg (by simp)] at hRest
    obtain ⟨rfl, rfl, rfl⟩ := exec_ret.mp hRest
    exact ⟨e, hA, rfl, rfl⟩
  · rintro ⟨e, hA, rfl, hExec⟩
    refine exec_step.mpr ⟨e, [], hA, by rw [hExec], ?_⟩
    rw [next, if_neg (by simp), hExec]
    exact .ret r s'

/-- A composition that starts with a single operation. -/
theorem exec_then {o : S.Op} {f : S.Res o → Prog S β} {s s' : σ} {t : List (Event S)} {b : β} :
    Exec H A (perform o >>= f) s t b s' ↔ ∃ e t', A e ∧ t = ⟨o, (H.exec e s o).1⟩ :: t' ∧
      Exec H A (f (H.exec e s o).1) (H.exec e s o).2 t' b s' := by
  rw [exec_bind]
  constructor
  · rintro ⟨t₁, t₂, r, s₁, rfl, h₁, h₂⟩
    obtain ⟨e, hA, rfl, hExec⟩ := exec_perform.mp h₁
    obtain ⟨rfl, rfl⟩ := Prod.mk.inj hExec
    exact ⟨e, t₂, hA, rfl, h₂⟩
  · rintro ⟨e, t', hA, rfl, h⟩
    exact ⟨_, t', _, _, rfl, exec_perform.mpr ⟨e, hA, rfl, rfl⟩, h⟩

/-- What an execution does is a trace of the program. -/
theorem Exec.path {p : Prog S α} {s s' : σ} {t : List (Event S)} {a : α}
    (h : Exec H A p s t a s') : Path p t a := by
  induction h with
  | ret a s => exact .ret a
  | step e _ _ ih => exact .step _ ih

/-- A component `π` that every operation changes as `upd` says is, after an
execution, the fold of `upd` over its trace. -/
theorem Exec.fold {τ : Type} {π : σ → τ} {upd : τ → Event S → τ}
    (hUpd : ∀ e s o, π (H.exec e s o).2 = upd (π s) ⟨o, (H.exec e s o).1⟩)
    {p : Prog S α} {s s' : σ} {t : List (Event S)} {a : α}
    (h : Exec H A p s t a s') : π s' = t.foldl upd (π s) := by
  induction h with
  | ret a s => rfl
  | step e _ _ ih => rw [ih, hUpd, List.foldl_cons]

/-- A program that avoids the operations that change `π` keeps it. -/
theorem Exec.keeps {τ : Type} {π : σ → τ} {K : S.Op → Prop}
    (hKeep : ∀ e s o, ¬ K o → π (H.exec e s o).2 = π s)
    {p : Prog S α} {s s' : σ} {t : List (Event S)} {a : α}
    (h : Exec H A p s t a s') (hp : Avoids K p) : π s' = π s := by
  induction h with
  | ret a s => rfl
  | @step o again k s e _ t a s' _ ih => rw [ih (hp.next _), hKeep e s o hp.1]

/-- What every step guarantees, given an invariant that operations outside `K`
keep, holds of all events of an execution without `K`. -/
theorem Exec.events {Inv : σ → Prop} {Q : Event S → Prop} {K : S.Op → Prop}
    (hStep : ∀ e s o, A e → ¬ K o → Inv s → Q ⟨o, (H.exec e s o).1⟩ ∧ Inv (H.exec e s o).2)
    {p : Prog S α} {s s' : σ} {t : List (Event S)} {a : α} (h : Exec H A p s t a s')
    (hp : Avoids K p) (hInv : Inv s) : (∀ ev ∈ t, Q ev) ∧ Inv s' := by
  induction h with
  | ret a s => exact ⟨by simp, hInv⟩
  | @step o again k s e hA t a s' _ ih =>
    obtain ⟨hQ, hNext⟩ := hStep e s o hA hp.1 hInv
    obtain ⟨hRest, hLast⟩ := ih (hp.next _) hNext
    exact ⟨List.forall_mem_cons.mpr ⟨hQ, hRest⟩, hLast⟩

/-- A loop on an operation that changes nothing ends where it began. -/
theorem exec_repeatWhile {o : S.Op} (hKeep : ∀ e s, A e → (H.exec e s o).2 = s)
    {again : S.Res o → Bool} {s s' : σ} {t : List (Event S)} {r : S.Res o}
    (h : Exec H A (repeatWhile o again) s t r s') : s' = s := by
  induction t with
  | nil =>
    obtain ⟨e, t', -, hNil, -⟩ := exec_step.mp h
    cases hNil
  | cons ev t ih =>
    obtain ⟨e, t', hA, hCons, hRest⟩ := exec_step.mp h
    obtain ⟨rfl, rfl⟩ := List.cons.inj hCons
    rw [hKeep e s hA] at hRest
    by_cases hAgain : again (H.exec e s o).1 = true
    · rw [next, if_pos hAgain] at hRest
      exact ih hRest
    · rw [next, if_neg hAgain] at hRest
      exact (exec_ret.mp hRest).2.2

/-- The handler without state whose environment decides every result. -/
def freeHandler (S : Sig) : Handler S Unit ((o : S.Op) → S.Res o) where
  exec e _ o := (e o, ())

/-- Every trace of a program is an execution under some environments. -/
theorem Path.exec_free [∀ o, Nonempty (S.Res o)] {p : Prog S α} {t : List (Event S)} {a : α}
    (h : Path p t a) : Exec (freeHandler S) (fun _ => True) p () t a () := by
  classical
  induction h with
  | ret a => exact .ret a ()
  | @step o again k r t a _ ih =>
    -- the environment that returns `r` for `o`
    let e : (o : S.Op) → S.Res o := fun o' =>
      if h : o = o' then h ▸ r else Classical.choice inferInstance
    have he : e o = r := dif_pos rfl
    refine exec_step.mpr ⟨e, t, trivial, ?_, ?_⟩
    · show _ = Event.mk o (e o) :: t
      rw [he]
    · show Exec _ _ (next o again k (e o)) () t a ()
      rw [he]
      exact ih

/-- Run a program under the given environments, one for each step. -/
def eval (H : Handler S σ E) : List E → Prog S α → σ → Option (List (Event S) × α × σ)
  | _, ret a, s => some ([], a, s)
  | [], step .., _ => none
  | e :: es, step o again k, s =>
    (eval H es (next o again k (H.exec e s o).1) (H.exec e s o).2).map fun x =>
      (⟨o, (H.exec e s o).1⟩ :: x.1, x.2)

/-- What is evaluated is an execution. -/
theorem exec_of_eval {es : List E} (hA : ∀ e ∈ es, A e) {p : Prog S α} {s s' : σ}
    {t : List (Event S)} {a : α} (h : eval H es p s = some (t, a, s')) :
    Exec H A p s t a s' := by
  induction es generalizing p s t with
  | nil =>
    cases p with
    | ret b =>
      simp only [eval, Option.some.injEq, Prod.mk.injEq] at h
      obtain ⟨rfl, rfl, rfl⟩ := h
      exact .ret _ _
    | step o again k => simp [eval] at h
  | cons e es ih =>
    cases p with
    | ret b =>
      simp only [eval, Option.some.injEq, Prod.mk.injEq] at h
      obtain ⟨rfl, rfl, rfl⟩ := h
      exact .ret _ _
    | step o again k =>
      rw [eval, Option.map_eq_some_iff] at h
      obtain ⟨⟨t', a', s''⟩, hEval, hEq⟩ := h
      simp only [Prod.mk.injEq] at hEq
      obtain ⟨rfl, rfl, rfl⟩ := hEq
      exact .step e (hA e (List.mem_cons_self ..))
        (ih (fun e' he' => hA e' (List.mem_cons_of_mem _ he')) hEval)

end Prog

/-! ## Several programs on one state -/

namespace Prog

variable {S : Sig} {σ E ι α : Type} [DecidableEq ι] {H : Handler S σ E}

/-- Some steps of the programs `ts`, interleaved in any order: from the state
`s` and the programs `ts` to `s'` and what is left of them. -/
inductive Run (H : Handler S σ E) :
    σ → (ι → Prog S α) → List (ι × Event S) → σ → (ι → Prog S α) → Prop
  | nil (s : σ) (ts : ι → Prog S α) : Run H s ts [] s ts
  | cons {s : σ} {ts : ι → Prog S α} (i : ι) {o : S.Op} {again : S.Res o → Bool}
      {k : S.Res o → Prog S α} (e : E) (hi : ts i = step o again k)
      {log : List (ι × Event S)} {s' : σ} {ts' : ι → Prog S α}
      (h : Run H (H.exec e s o).2 (Function.update ts i (next o again k (H.exec e s o).1))
        log s' ts') :
      Run H s ts ((i, ⟨o, (H.exec e s o).1⟩) :: log) s' ts'

/-- The events of thread `i` in a log. -/
def threadTrace (i : ι) (log : List (ι × Event S)) : List (Event S) :=
  log.filterMap fun x => if x.1 = i then some x.2 else none

/-- The trace of a thread has its own events only. -/
theorem mem_of_mem_threadTrace {i : ι} {log : List (ι × Event S)} {ev : Event S}
    (h : ev ∈ threadTrace i log) : (i, ev) ∈ log := by
  obtain ⟨x, hx, hSome⟩ := List.mem_filterMap.mp h
  split at hSome
  · rename_i hi
    obtain rfl := Option.some.inj hSome
    rw [← hi]
    exact hx
  · cases hSome

/-- The trace of a thread has all of its events. -/
theorem mem_threadTrace {log : List (ι × Event S)} {x : ι × Event S} (h : x ∈ log) :
    x.2 ∈ threadTrace x.1 log :=
  List.mem_filterMap.mpr ⟨x, h, if_pos rfl⟩

/-- **Projection.** The events of a finished thread form a trace of its
program. -/
theorem Run.path {s s' : σ} {ts ts' : ι → Prog S α} {log : List (ι × Event S)}
    (h : Run H s ts log s' ts') {i : ι} {a : α} (hi : ts' i = ret a) :
    Path (ts i) (threadTrace i log) a := by
  induction h with
  | nil s ts => rw [hi]; exact .ret a
  | @cons s ts j o again k e hj log s' ts' _ ih =>
    have hRest := ih hi
    by_cases hji : j = i
    · subst hji
      rw [Function.update_self] at hRest
      rw [hj, threadTrace, List.filterMap_cons, if_pos rfl]
      exact .step _ hRest
    · rw [Function.update_of_ne (Ne.symm hji)] at hRest
      rw [threadTrace, List.filterMap_cons, if_neg hji]
      exact hRest

/-- A component that every operation changes as `upd` says is, after a run, the
fold of `upd` over its log. -/
theorem Run.fold {τ : Type} {π : σ → τ} {upd : τ → Event S → τ}
    (hUpd : ∀ e s o, π (H.exec e s o).2 = upd (π s) ⟨o, (H.exec e s o).1⟩)
    {s s' : σ} {ts ts' : ι → Prog S α} {log : List (ι × Event S)}
    (h : Run H s ts log s' ts') : π s' = (log.map Prod.snd).foldl upd (π s) := by
  induction h with
  | nil s ts => rfl
  | cons i e _ _ ih => rw [ih, hUpd, List.map_cons, List.foldl_cons]

/-- What every step of a run guarantees, given an invariant, holds of all events
in its log. It need only hold of the operations that occur in the log. -/
theorem Run.events_avoiding {Inv : σ → Prop} {Q : Event S → Prop} {K : S.Op → Prop}
    (hStep : ∀ e s o, ¬ K o → Inv s → Q ⟨o, (H.exec e s o).1⟩ ∧ Inv (H.exec e s o).2)
    {s s' : σ} {ts ts' : ι → Prog S α} {log : List (ι × Event S)} (h : Run H s ts log s' ts')
    (hInv : Inv s) (hAvoid : ∀ x ∈ log, ¬ K x.2.op) : ∀ x ∈ log, Q x.2 := by
  induction h with
  | nil s ts => simp
  | @cons s ts i o again k e _ log s' ts' _ ih =>
    obtain ⟨hFirst, hRest⟩ := List.forall_mem_cons.mp hAvoid
    obtain ⟨hQ, hNext⟩ := hStep e s o hFirst hInv
    exact List.forall_mem_cons.mpr ⟨hQ, ih hNext hRest⟩

/-- The rule for events when no kind of operation is to be avoided. -/
theorem Run.events {Inv : σ → Prop} {Q : Event S → Prop}
    (hStep : ∀ e s o, Inv s → Q ⟨o, (H.exec e s o).1⟩ ∧ Inv (H.exec e s o).2)
    {s s' : σ} {ts ts' : ι → Prog S α} {log : List (ι × Event S)} (h : Run H s ts log s' ts')
    (hInv : Inv s) : ∀ x ∈ log, Q x.2 :=
  h.events_avoiding (K := fun _ => False) (fun e s o _ => hStep e s o) hInv fun _ _ hNo => hNo

/-- A run goes through a state between any two parts of its log. -/
theorem Run.split {l₁ l₂ : List (ι × Event S)} {s s' : σ} {ts ts' : ι → Prog S α}
    (h : Run H s ts (l₁ ++ l₂) s' ts') :
    ∃ s₁ ts₁, Run H s ts l₁ s₁ ts₁ ∧ Run H s₁ ts₁ l₂ s' ts' := by
  induction l₁ generalizing s ts with
  | nil => exact ⟨s, ts, .nil s ts, h⟩
  | cons x l₁ ih =>
    cases h with
    | cons i e hi hRest =>
      obtain ⟨s₁, ts₁, hLeft, hRight⟩ := ih hRest
      exact ⟨s₁, ts₁, .cons i e hi hLeft, hRight⟩

/-- The trace of a thread is taken piece by piece. -/
theorem threadTrace_append (i : ι) (l₁ l₂ : List (ι × Event S)) :
    threadTrace i (l₁ ++ l₂) = threadTrace i l₁ ++ threadTrace i l₂ := List.filterMap_append

/-- An event of one thread stands somewhere in the log. -/
theorem threadTrace_eq_append_cons {i : ι} {log : List (ι × Event S)} {t₁ t₂ : List (Event S)}
    {ev : Event S} (h : threadTrace i log = t₁ ++ ev :: t₂) :
    ∃ l₁ l₂, log = l₁ ++ (i, ev) :: l₂ ∧ threadTrace i l₁ = t₁ ∧ threadTrace i l₂ = t₂ := by
  obtain ⟨l₁, l, rfl, hLeft, hRest⟩ := List.filterMap_eq_append_iff.mp h
  obtain ⟨l₂, x, l₃, rfl, hSkipped, hx, hRight⟩ := List.filterMap_eq_cons_iff.mp hRest
  rw [Option.ite_none_right_eq_some, Option.some.injEq] at hx
  obtain ⟨rfl, rfl⟩ := hx
  refine ⟨l₁ ++ l₂, l₃, (List.append_assoc ..).symm, ?_, hRight⟩
  rw [threadTrace_append, threadTrace, threadTrace, hLeft, List.filterMap_eq_nil_iff.mpr hSkipped,
    List.append_nil]

/-- The state right after an event of a run. -/
theorem Run.after {l₁ l₂ : List (ι × Event S)} {i : ι} {ev : Event S} {s s' : σ}
    {ts ts' : ι → Prog S α} (h : Run H s ts (l₁ ++ (i, ev) :: l₂) s' ts') :
    ∃ e s₁ ts₂, Run H (H.exec e s₁ ev.op).2 ts₂ l₂ s' ts' := by
  obtain ⟨s₁, ts₁, -, hRight⟩ := h.split
  cases hRight with
  | cons i e hi hRest => exact ⟨e, s₁, _, hRest⟩

/-- What a finished program has returned. -/
def ended : Prog S α → Option α
  | ret a => some a
  | step .. => none

/-- A program is over when it returns. -/
theorem ended_eq_some {p : Prog S α} {a : α} : ended p = some a ↔ p = ret a := by
  cases p with
  | ret b => simp [ended]
  | step o again k => simp [ended]

/-- Run the threads as a schedule says: each entry names the thread that steps
and its environment. Entries of finished threads are skipped. -/
def runSchedule (H : Handler S σ E) :
    List (ι × E) → σ → (ι → Prog S α) → List (ι × Event S) × σ × (ι → Prog S α)
  | [], s, ts => ([], s, ts)
  | (i, e) :: sched, s, ts =>
    match ts i with
    | ret _ => runSchedule H sched s ts
    | step o again k =>
      let x := runSchedule H sched (H.exec e s o).2
        (Function.update ts i (next o again k (H.exec e s o).1))
      ((i, ⟨o, (H.exec e s o).1⟩) :: x.1, x.2)

/-- A schedule gives a run. -/
theorem run_runSchedule (sched : List (ι × E)) (s : σ) (ts : ι → Prog S α) :
    Run H s ts (runSchedule H sched s ts).1 (runSchedule H sched s ts).2.1
      (runSchedule H sched s ts).2.2 := by
  induction sched generalizing s ts with
  | nil => exact .nil s ts
  | cons x sched ih =>
    obtain ⟨i, e⟩ := x
    rw [runSchedule]
    split
    · exact ih s ts
    · rename_i o again k hi
      exact .cons i e hi (ih _ _)

end Prog
