import Mathlib.Data.List.Basic
import Mathlib.Tactic.Common

/-!
# Transducers

A machine that takes its inputs one after the other, gives outputs as it goes,
and may stop with an error.

* `andThen_assoc` — outcomes in a row.
* `run_append`, `run_flatten` — the inputs of a run in pieces.
* `run_map` — a machine under other names.
* `run_rel` — two machines whose steps agree.
-/

/-- The outputs of some steps, and the state or the error they end with. -/
structure Outcome (ω ε σ : Type*) where
  outputs : List ω
  result : Except ε σ

namespace Outcome

variable {ω ε σ τ υ : Type*}

/-- Nothing has happened yet. -/
def ok (s : σ) : Outcome ω ε σ := ⟨[], .ok s⟩

/-- Stopped without an output. -/
def error (e : ε) : Outcome ω ε σ := ⟨[], .error e⟩

/-- Outputs that came before. -/
def prepend (os : List ω) (o : Outcome ω ε σ) : Outcome ω ε σ := ⟨os ++ o.outputs, o.result⟩

/-- Go on from the state that `o` ends with. -/
def andThen (o : Outcome ω ε σ) (f : σ → Outcome ω ε τ) : Outcome ω ε τ :=
  match o.result with
  | .ok s => (f s).prepend o.outputs
  | .error e => ⟨o.outputs, .error e⟩

/-- The same outcome under other names. -/
def map {ω' ε' : Type*} (f : ω → ω') (g : ε → ε') (h : σ → τ) (o : Outcome ω ε σ) :
    Outcome ω' ε' τ where
  outputs := o.outputs.map f
  result :=
    match o.result with
    | .ok s => .ok (h s)
    | .error e => .error (g e)

/-- The same outputs, and related ends. -/
def Rel (R : σ → τ → Prop) (o : Outcome ω ε σ) (o' : Outcome ω ε τ) : Prop :=
  o.outputs = o'.outputs ∧
    match o.result, o'.result with
    | .ok s, .ok t => R s t
    | .error e, .error e' => e = e'
    | _, _ => False

section

variable (o : Outcome ω ε σ) (os os' : List ω) (s : σ) (e : ε) (f : σ → Outcome ω ε τ)
  (g : τ → Outcome ω ε υ)

@[simp] theorem prepend_nil : o.prepend [] = o := rfl

/-- Outputs may be put in front in two steps. -/
@[simp] theorem prepend_prepend : (o.prepend os').prepend os = o.prepend (os ++ os') := by
  rw [prepend, prepend, prepend, List.append_assoc]

/-- What is prepended can be taken away again. -/
theorem prepend_eq_iff {r : Except ε σ} {l : List ω} :
    o.prepend os = ⟨os ++ l, r⟩ ↔ o = ⟨l, r⟩ := by
  rcases o with ⟨l', r'⟩
  rw [prepend, Outcome.mk.injEq, Outcome.mk.injEq, List.append_cancel_left_eq]

@[simp] theorem ok_andThen : (ok s : Outcome ω ε σ).andThen f = f s := rfl

@[simp] theorem error_andThen : (error e : Outcome ω ε σ).andThen f = error e := rfl

/-- The outputs so far stay in front of what follows. -/
@[simp] theorem prepend_andThen : (o.prepend os).andThen f = (o.andThen f).prepend os := by
  rcases o with ⟨l, e | s⟩
  · rfl
  · exact (prepend_prepend (f s) os l).symm

/-- Names may be changed before or after. -/
theorem map_prepend {ω' ε' : Type*} (h : ω → ω') (k : ε → ε') (l : σ → τ) :
    (o.prepend os).map h k l = (o.map h k l).prepend (os.map h) :=
  congrArg (Outcome.mk · _) List.map_append

/-- The order of brackets does not matter. -/
theorem andThen_assoc : (o.andThen f).andThen g = o.andThen fun s => (f s).andThen g := by
  rcases o with ⟨l, e | s⟩
  · rfl
  · exact prepend_andThen (f s) l g

/-- Nothing more changes nothing. -/
@[simp] theorem andThen_ok : o.andThen ok = o := by
  rcases o with ⟨l, e | s⟩
  · rfl
  · exact congrArg (Outcome.mk · _) (List.append_nil l)

end

variable {R : σ → τ → Prop} {os : List ω} {o : Outcome ω ε σ} {o' : Outcome ω ε τ}

theorem rel_ok {s : σ} {t : τ} (h : R s t) : Rel R (ok s : Outcome ω ε σ) (ok t) := ⟨rfl, h⟩

/-- The outputs so far do not matter to a relation of the ends. -/
theorem Rel.prepend (h : Rel R o o') (os : List ω) : Rel R (o.prepend os) (o'.prepend os) :=
  ⟨congrArg (os ++ ·) h.1, h.2⟩

/-- Related outcomes go on in related ways. -/
theorem Rel.andThen {σ' τ' : Type*} {R' : σ' → τ' → Prop} {f : σ → Outcome ω ε σ'}
    {g : τ → Outcome ω ε τ'} (h : Rel R o o') (hNext : ∀ s t, R s t → Rel R' (f s) (g t)) :
    Rel R' (o.andThen f) (o'.andThen g) := by
  rcases o with ⟨l, e | s⟩ <;> rcases o' with ⟨l', e' | t⟩ <;> obtain ⟨hOut, hEnd⟩ := h
  · exact ⟨hOut, hEnd⟩
  · cases hEnd
  · cases hEnd
  · obtain rfl : l = l' := hOut
    exact (hNext s t hEnd).prepend l

/-- Related outcomes under other names. -/
theorem Rel.map {ω' ε' σ' τ' : Type*} {R' : σ' → τ' → Prop} {f : ω → ω'} {g : ε → ε'} {k : σ → σ'}
    {l : τ → τ'} (h : Rel R o o') (hEnd : ∀ s t, R s t → R' (k s) (l t)) :
    Rel R' (o.map f g k) (o'.map f g l) := by
  rcases o with ⟨os, e | s⟩ <;> rcases o' with ⟨os', e' | t⟩ <;> obtain ⟨hOut, hResult⟩ := h
  · exact ⟨congrArg (List.map f) hOut, congrArg g hResult⟩
  · cases hResult
  · cases hResult
  · exact ⟨congrArg (List.map f) hOut, hEnd s t hResult⟩

/-- Whatever ends the first run, the second one ends alike. -/
theorem Rel.of_ok {l : List ω} {s : σ} (h : Rel R ⟨l, .ok s⟩ o') :
    ∃ t, o' = ⟨l, .ok t⟩ ∧ R s t := by
  rcases o' with ⟨l', e | t⟩ <;> obtain ⟨hOut, hEnd⟩ := h
  · cases hEnd
  · exact ⟨t, by rw [show l' = l from hOut.symm], hEnd⟩

/-- And the other way round. -/
theorem Rel.to_ok {l : List ω} {t : τ} (h : Rel R o ⟨l, .ok t⟩) :
    ∃ s, o = ⟨l, .ok s⟩ ∧ R s t := by
  rcases o with ⟨l', e | s⟩ <;> obtain ⟨hOut, hEnd⟩ := h
  · cases hEnd
  · exact ⟨s, by rw [show l' = l from hOut], hEnd⟩

end Outcome

namespace Transducer

open Outcome

variable {α β ω ε σ τ : Type*}

/-- The inputs, one after the other, up to an error. -/
def run (step : σ → α → Outcome ω ε σ) (s : σ) : List α → Outcome ω ε σ
  | [] => ok s
  | a :: as => (step s a).andThen fun s' => run step s' as

section

variable {step : σ → α → Outcome ω ε σ} {s : σ}

@[simp] theorem run_nil : run step s [] = ok s := rfl

@[simp] theorem run_cons (a : α) (as : List α) :
    run step s (a :: as) = (step s a).andThen fun s' => run step s' as := rfl

/-- A run over two lists is one after the other. -/
theorem run_append (as bs : List α) :
    run step s (as ++ bs) = (run step s as).andThen fun s' => run step s' bs := by
  induction as generalizing s with
  | nil => rfl
  | cons a as ih => rw [List.cons_append, run_cons, run_cons, andThen_assoc]; simp only [ih]

/-- The first part of a run without an error. -/
theorem of_run_append {as bs : List α} {os : List ω} {s' : σ}
    (h : run step s (as ++ bs) = ⟨os, .ok s'⟩) :
    ∃ os₁ s₁, run step s as = ⟨os₁, .ok s₁⟩ ∧ os₁ <+: os := by
  rw [run_append] at h
  rcases hFirst : run step s as with ⟨os₁, e | s₁⟩
  · rw [hFirst] at h
    cases congrArg Outcome.result h
  · rw [hFirst] at h
    exact ⟨os₁, s₁, rfl, _, congrArg Outcome.outputs h⟩

end

/-- A machine over lists whose steps may be split takes its inputs in any pieces. -/
theorem run_flatten {step : σ → List β → Outcome ω ε σ} {P : σ → Prop}
    (hKeep : ∀ s l os s', P s → step s l = ⟨os, .ok s'⟩ → P s')
    (hNil : ∀ s, P s → step s [] = ok s)
    (hAppend : ∀ s l l', P s → step s (l ++ l') = (step s l).andThen fun s' => step s' l')
    {s : σ} (h : P s) (ls : List (List β)) : run step s ls = step s ls.flatten := by
  induction ls generalizing s with
  | nil => exact (hNil s h).symm
  | cons l ls ih =>
    rw [run_cons, List.flatten_cons, hAppend s l _ h]
    rcases hStep : step s l with ⟨os, e | s'⟩
    · rfl
    · exact congrArg (Outcome.prepend os) (ih (hKeep s l os s' h hStep))

/-- A machine under other names. -/
theorem run_map {ω' ε' : Type*} {step : σ → α → Outcome ω ε σ} {step' : τ → α → Outcome ω' ε' τ}
    {f : ω → ω'} {g : ε → ε'} {h : σ → τ} (hStep : ∀ s a, step' (h s) a = (step s a).map f g h)
    (s : σ) (as : List α) : run step' (h s) as = (run step s as).map f g h := by
  induction as generalizing s with
  | nil => rfl
  | cons a as ih =>
    rw [run_cons, run_cons, hStep]
    rcases step s a with ⟨os, e | s'⟩
    · rfl
    · show (run step' (h s') as).prepend (os.map f) = ((run step s' as).prepend os).map f g h
      rw [ih s', map_prepend]

/-- Machines whose steps agree on related states agree on runs. -/
theorem run_rel {step : σ → α → Outcome ω ε σ} {step' : τ → β → Outcome ω ε τ} {R : σ → τ → Prop}
    {f : β → α} (hStep : ∀ s t b, R s t → Rel R (step s (f b)) (step' t b)) {s : σ} {t : τ}
    (h : R s t) (bs : List β) : Rel R (run step s (bs.map f)) (run step' t bs) := by
  induction bs generalizing s t with
  | nil => exact rel_ok h
  | cons b bs ih => exact (hStep s t b h).andThen fun s' t' h' => ih h'

end Transducer
