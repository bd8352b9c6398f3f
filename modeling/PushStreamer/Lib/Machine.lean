import Mathlib.Logic.Basic

/-!
# Labelled machines

A machine is a partial step function `step : σ → ε → Option σ`: `step s e` is
the state after the event `e`, and `none` when `e` cannot happen in `s`. A run
is a list of events.

`Meets step C s es` says that every step of the run `es` from `s` is taken in a
state that meets `C`; the condition sees the state *before* the step and the
event. Properties of each step of a run and conditions on a run are both stated
with it, so comparing the two is one lemma about single steps
(`meets_congr`).

* `inv_run` — invariants of steps are invariants of runs.
* `keeps_iff_meets` — a property of states holds all along a run just when the
  run meets the condition under which single steps keep it.
* `meetsTaken_iff` — a condition on a run, by the list of steps that it takes.
* `meets_congr_while`, `meets_congr` — two step conditions that agree wherever an
  invariant holds agree on whole runs.
* `beside` — a machine with a history beside its states; `keeps_beside`: the
  history changes nothing about them.
-/

namespace Machine

variable {σ ε : Type*} (step : σ → ε → Option σ)

/-- The state after a run, if every event of it can happen. -/
def run : σ → List ε → Option σ
  | s, [] => some s
  | s, e :: es => (step s e).bind fun s' => run s' es

/-- A step behind a guard happens only when the guard holds. -/
theorem of_guard {c : Prop} [Decidable c] {s s' : σ}
    (h : (if c then some s else none) = some s') : c ∧ s = s' := by
  rw [Option.ite_none_right_eq_some, Option.some.injEq] at h
  exact h

/-- Every step of the run `es` from `s` is taken in a state that meets `C`. -/
def Meets (C : σ → ε → Prop) : σ → List ε → Prop
  | _, [] => True
  | s, e :: es => C s e ∧ ∀ s', step s e = some s' → Meets C s' es

variable {step}

@[simp] theorem run_nil (s : σ) : run step s [] = some s := rfl

theorem run_cons {s : σ} {e : ε} {es : List ε} {s' : σ} :
    run step s (e :: es) = some s' ↔
      ∃ s₁, step s e = some s₁ ∧ run step s₁ es = some s' := by
  rw [run, Option.bind_eq_some_iff]

theorem run_append {s s' : σ} {es fs : List ε} :
    run step s (es ++ fs) = some s' ↔
      ∃ s₁, run step s es = some s₁ ∧ run step s₁ fs = some s' := by
  induction es generalizing s with
  | nil => simp
  | cons e es ih =>
    rw [List.cons_append, run_cons]
    constructor
    · rintro ⟨s₂, hStep, hRest⟩
      obtain ⟨s₁, hLeft, hRight⟩ := ih.mp hRest
      exact ⟨s₁, run_cons.mpr ⟨s₂, hStep, hLeft⟩, hRight⟩
    · rintro ⟨s₁, hLeft, hRight⟩
      obtain ⟨s₂, hStep, hLeft⟩ := run_cons.mp hLeft
      exact ⟨s₂, hStep, ih.mpr ⟨s₁, hLeft, hRight⟩⟩

/-- A property that every step keeps holds after a run. -/
theorem inv_run {I : σ → Prop} (hInv : ∀ s e s', I s → step s e = some s' → I s')
    {es : List ε} {s s' : σ} (hs : I s) (hRun : run step s es = some s') : I s' := by
  induction es generalizing s with
  | nil =>
    rw [run_nil, Option.some.injEq] at hRun
    exact hRun ▸ hs
  | cons e es ih =>
    obtain ⟨s₁, hStep, hRest⟩ := run_cons.mp hRun
    exact ih (hInv s e s₁ hs hStep) hRest

/-- Two step conditions that agree wherever `Good` holds agree on every run that
starts in it, when a step that meets the first one keeps `Good`. -/
theorem meets_congr_while {Good : σ → Prop} {C D : σ → ε → Prop}
    (hGood : ∀ s e s', Good s → C s e → step s e = some s' → Good s')
    (hIff : ∀ s e, Good s → (C s e ↔ D s e)) :
    ∀ {es : List ε} {s : σ}, Good s → (Meets step C s es ↔ Meets step D s es) := by
  intro es
  induction es with
  | nil => intro s _; exact Iff.rfl
  | cons e es ih =>
    intro s hs
    constructor
    · rintro ⟨hFirst, hRest⟩
      refine ⟨(hIff s e hs).mp hFirst, fun s' hs' => ?_⟩
      exact (ih (hGood s e s' hs hFirst hs')).mp (hRest s' hs')
    · rintro ⟨hFirst, hRest⟩
      have hC := (hIff s e hs).mpr hFirst
      exact ⟨hC, fun s' hs' => (ih (hGood s e s' hs hC hs')).mpr (hRest s' hs')⟩

/-- Two step conditions that agree in every state of an invariant agree on
every run that starts in it. -/
theorem meets_congr {Inv : σ → Prop} {C D : σ → ε → Prop}
    (hInv : ∀ s e s', Inv s → step s e = some s' → Inv s')
    (hIff : ∀ s e, Inv s → (C s e ↔ D s e)) :
    ∀ {es : List ε} {s : σ}, Inv s → (Meets step C s es ↔ Meets step D s es) := fun hs =>
  meets_congr_while (fun s e s' hs _ hStep => hInv s e s' hs hStep) hIff hs

/-- What a run meets, it meets at each of its steps. -/
theorem Meets.at {C : σ → ε → Prop} {es fs : List ε} {e : ε} {s s' : σ}
    (h : Meets step C s (es ++ e :: fs)) (hRun : run step s es = some s') : C s' e := by
  induction es generalizing s with
  | nil =>
    rw [run_nil, Option.some.injEq] at hRun
    exact hRun ▸ h.1
  | cons e' es ih =>
    obtain ⟨s₁, hs₁, hRest⟩ := run_cons.mp hRun
    exact ih (h.2 s₁ hs₁) hRest

/-- Every step of the run that can happen leads to a state with the property
`Good`. -/
abbrev Keeps (step : σ → ε → Option σ) (Good : σ → Prop) (s : σ) (es : List ε) : Prop :=
  Meets step (fun s e => ∀ s', step s e = some s' → Good s') s es

theorem Keeps.good {Good : σ → Prop} {es : List ε} {s s' : σ} (h : Keeps step Good s es)
    (hGood : Good s) (hRun : run step s es = some s') : Good s' := by
  induction es generalizing s with
  | nil =>
    rw [run_nil, Option.some.injEq] at hRun
    exact hRun ▸ hGood
  | cons e es ih =>
    obtain ⟨s₁, hStep, hRest⟩ := run_cons.mp hRun
    exact ih (h.2 s₁ hStep) (h.1 s₁ hStep) hRest

/-- A property that never comes back once it is lost holds all along a run at
whose end it holds. -/
theorem Keeps.of_last {Good : σ → Prop}
    (hLost : ∀ s e s', step s e = some s' → Good s' → Good s) {es : List ε} {s s' : σ}
    (hRun : run step s es = some s') (hLast : Good s') : Good s ∧ Keeps step Good s es := by
  induction es generalizing s with
  | nil =>
    rw [run_nil, Option.some.injEq] at hRun
    exact ⟨hRun ▸ hLast, trivial⟩
  | cons e es ih =>
    obtain ⟨s₁, hStep, hRest⟩ := run_cons.mp hRun
    obtain ⟨hGood, hKeeps⟩ := ih hRest
    have hOnly : ∀ s₂, step s e = some s₂ → s₂ = s₁ := fun s₂ h =>
      Option.some.inj (h.symm.trans hStep)
    refine ⟨hLost s e s₁ hStep hGood, fun s₂ h => ?_, fun s₂ h => ?_⟩
    · exact hOnly s₂ h ▸ hGood
    · exact hOnly s₂ h ▸ hKeeps

/-- Every step of the run that can happen is taken in a state that meets `C`. -/
abbrev MeetsTaken (step : σ → ε → Option σ) (C : σ → ε → Prop) (s : σ) (es : List ε) : Prop :=
  Meets step (fun s e => ∀ s', step s e = some s' → C s e) s es

/-- A property that single steps keep under the condition `C`, and only then,
holds all along a run just when the run meets `C`. -/
theorem keeps_iff_meets {Inv Good : σ → Prop} {C : σ → ε → Prop}
    (hInv : ∀ s e s', Inv s → step s e = some s' → Inv s')
    (hIff : ∀ s e s', Inv s → Good s → step s e = some s' → (Good s' ↔ C s e)) :
    ∀ {es : List ε} {s : σ}, Inv s → Good s →
      (Keeps step Good s es ↔ MeetsTaken step C s es) := by
  intro es s hs hGood
  refine @meets_congr_while σ ε step (fun s => Inv s ∧ Good s) _ _ ?_ ?_ es s ⟨hs, hGood⟩
  · intro s e s' h hKeeps hStep
    exact ⟨hInv s e s' h.1 hStep, hKeeps s' hStep⟩
  · intro s e h
    exact forall_congr' fun s' => forall_congr' fun hStep => hIff s e s' h.1 h.2 hStep

/-- A condition `C` under which the invariant `I` is kept gives `D` all along a
run, when it does so at each step. -/
theorem meetsTaken_mono {I : σ → Prop} {C D : σ → ε → Prop}
    (hStep : ∀ s e s', I s → C s e → step s e = some s' → I s' ∧ D s e)
    {es : List ε} {s : σ} (hs : I s) (h : MeetsTaken step C s es) : MeetsTaken step D s es := by
  induction es generalizing s with
  | nil => trivial
  | cons e es ih =>
    refine ⟨fun s' hs' => ?_, fun s' hs' => ih ?_ (h.2 s' hs')⟩
    · exact (hStep s e s' hs (h.1 s' hs') hs').2
    · exact (hStep s e s' hs (h.1 s' hs') hs').1

/-- The steps that a run takes, each with the state before it. -/
def taken (step : σ → ε → Option σ) : σ → List ε → List (σ × ε)
  | _, [] => []
  | s, e :: es =>
    match step s e with
    | some s' => (s, e) :: taken step s' es
    | none => []

/-- A step condition is met just when every step that is taken meets it. -/
theorem meetsTaken_iff {C : σ → ε → Prop} {es : List ε} {s : σ} :
    MeetsTaken step C s es ↔ ∀ p ∈ taken step s es, C p.1 p.2 := by
  induction es generalizing s with
  | nil => exact iff_of_true trivial fun _ h => by cases h
  | cons e es ih =>
    show ((∀ s', step s e = some s' → C s e) ∧ ∀ s', step s e = some s' →
      MeetsTaken step C s' es) ↔ _
    rw [taken]
    cases hStep : step s e with
    | none => simp
    | some s' =>
      rw [List.forall_mem_cons]
      constructor
      · rintro ⟨hFirst, hRest⟩
        exact ⟨hFirst s' rfl, ih.mp (hRest s' rfl)⟩
      · rintro ⟨hFirst, hRest⟩
        refine ⟨fun _ _ => hFirst, fun s₁ hs₁ => ?_⟩
        obtain rfl := Option.some.inj hs₁
        exact ih.mpr hRest

section

variable {γ : Type*}

/-- A machine with a history beside its state: `note` sees the state before the
step. -/
def beside (step : σ → ε → Option σ) (note : γ → σ → ε → γ) (x : σ × γ) (e : ε) :
    Option (σ × γ) :=
  (step x.1 e).map fun s' => (s', note x.2 x.1 e)

theorem beside_eq_some {note : γ → σ → ε → γ} {x x' : σ × γ} {e : ε} :
    beside step note x e = some x' ↔ step x.1 e = some x'.1 ∧ x'.2 = note x.2 x.1 e := by
  rw [beside, Option.map_eq_some_iff]
  constructor
  · rintro ⟨s', hStep, rfl⟩
    exact ⟨hStep, rfl⟩
  · rintro ⟨hStep, hNote⟩
    exact ⟨_, hStep, Prod.ext rfl hNote.symm⟩

/-- What the states keep does not depend on the history. -/
theorem keeps_beside {note : γ → σ → ε → γ} {Good : σ → Prop} {es : List ε} {s : σ} {g : γ} :
    Keeps (beside step note) (fun x => Good x.1) (s, g) es ↔ Keeps step Good s es := by
  induction es generalizing s g with
  | nil => exact Iff.rfl
  | cons e es ih =>
    constructor
    · rintro ⟨hFirst, hRest⟩
      refine ⟨fun s' hs' => hFirst (s', note g s e) ?_, fun s' hs' =>
        ih.mp (hRest (s', note g s e) ?_)⟩
      · exact beside_eq_some.mpr ⟨hs', rfl⟩
      · exact beside_eq_some.mpr ⟨hs', rfl⟩
    · rintro ⟨hFirst, hRest⟩
      refine ⟨fun x' hx' => hFirst _ (beside_eq_some.mp hx').1, fun x' hx' => ?_⟩
      exact ih.mpr (hRest _ (beside_eq_some.mp hx').1)

end

end Machine
