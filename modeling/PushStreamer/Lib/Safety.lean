import PushStreamer.Lib.Polling

/-!
# Safety of programs

`Begins H A p s t s'` — the first steps of an execution of `p`, which need not
come to an end. A safety property is one of every beginning.

* `Begins.safe` — the rule: an invariant under which every operation of the
  program is allowed, given what the operations before it can return
  (`AllOn`); `Gives` says what a part of the program returns then.
* `Begins.bind_left`, `Begins.bind_right`, `begins_bind` — composition.
* `begins_past` — an event of a kind that the first part never performs is one
  of the second part, and the first part has come to an end.
* `Ends` — some execution comes to an end; programs without loops do, and what
  always stops. `Yields` also says what it returns and where it ends.
* `EndsOn` — a program returns a given result right after an event of a kind,
  and only then.
-/

namespace Prog

variable {S : Sig} {σ E α β : Type} {H : Handler S σ E} {A : E → Prop}

/-- The first steps of an execution of `p`. -/
inductive Begins (H : Handler S σ E) (A : E → Prop) :
    Prog S α → σ → List (Event S) → σ → Prop
  | stop (p : Prog S α) (s : σ) : Begins H A p s [] s
  | step {o : S.Op} {again : S.Res o → Bool} {k : S.Res o → Prog S α} {s : σ} (e : E)
      (hA : A e) {t : List (Event S)} {s' : σ}
      (h : Begins H A (next o again k (H.exec e s o).1) (H.exec e s o).2 t s') :
      Begins H A (step o again k) s (⟨o, (H.exec e s o).1⟩ :: t) s'

/-- A beginning with an event has done the first step. -/
theorem begins_step {o : S.Op} {again : S.Res o → Bool} {k : S.Res o → Prog S α} {s s' : σ}
    {ev : Event S} {t : List (Event S)} (h : Begins H A (step o again k) s (ev :: t) s') :
    ∃ e, A e ∧ ev = ⟨o, (H.exec e s o).1⟩ ∧
      Begins H A (next o again k (H.exec e s o).1) (H.exec e s o).2 t s' := by
  cases h with
  | step e hA h' => exact ⟨e, hA, rfl, h'⟩

/-- A complete execution is a beginning. -/
theorem Exec.begins {p : Prog S α} {s s' : σ} {t : List (Event S)} {a : α}
    (h : Exec H A p s t a s') : Begins H A p s t s' := by
  induction h with
  | ret a s => exact .stop _ _
  | step e hA _ ih => exact .step e hA ih

/-- A beginning of the first part is one of the composition. -/
theorem Begins.bind_left {p : Prog S α} {s s' : σ} {t : List (Event S)}
    (h : Begins H A p s t s') (f : α → Prog S β) : Begins H A (p >>= f) s t s' := by
  induction h with
  | stop p s => exact .stop _ _
  | @step o again k s e hA t s' _ ih =>
    refine Begins.step (k := fun r => (k r).bind f) e hA ?_
    rw [next_bind]
    exact ih

/-- The whole first part with a beginning of the second is one of the composition. -/
theorem Begins.bind_right {p : Prog S α} {f : α → Prog S β} {s s₁ s' : σ}
    {t₁ t₂ : List (Event S)} {a : α} (h₁ : Exec H A p s t₁ a s₁)
    (h₂ : Begins H A (f a) s₁ t₂ s') : Begins H A (p >>= f) s (t₁ ++ t₂) s' := by
  induction h₁ with
  | ret a s => exact h₂
  | @step o again k s e hA t a s₁ _ ih =>
    refine Begins.step (k := fun r => (k r).bind f) e hA ?_
    rw [next_bind]
    exact ih h₂

/-- A beginning of a composition stops in its first part or in its second. -/
theorem begins_bind {p : Prog S α} {f : α → Prog S β} {s s' : σ} {t : List (Event S)}
    (h : Begins H A (p >>= f) s t s') :
    Begins H A p s t s' ∨ ∃ t₁ t₂ a s₁, t = t₁ ++ t₂ ∧ Exec H A p s t₁ a s₁ ∧
      Begins H A (f a) s₁ t₂ s' := by
  induction t generalizing p s with
  | nil =>
    cases p with
    | ret a => exact Or.inr ⟨[], [], a, s, rfl, .ret a s, h⟩
    | step o again k =>
      cases h with
      | stop => exact Or.inl (.stop _ _)
  | cons ev t ih =>
    cases p with
    | ret a => exact Or.inr ⟨[], ev :: t, a, s, rfl, .ret a s, h⟩
    | step o again k =>
      obtain ⟨e, hA, rfl, hRest⟩ := begins_step h
      rw [next_bind] at hRest
      rcases ih hRest with hLeft | ⟨t₁, t₂, a, s₁, rfl, h₁, h₂⟩
      · exact Or.inl (.step e hA hLeft)
      · exact Or.inr ⟨_ :: t₁, t₂, a, s₁, rfl, .step e hA h₁, h₂⟩

/-- What is over has no further steps. -/
theorem begins_pure {a : α} {s s' : σ} {t : List (Event S)}
    (h : Begins H A (pure a : Prog S α) s t s') : t = [] ∧ s' = s := by
  cases h with
  | stop => exact ⟨rfl, rfl⟩

/-- A beginning of a composition that starts with a single operation. -/
theorem begins_then {o : S.Op} {f : S.Res o → Prog S β} {s s' : σ} {ev : Event S}
    {t : List (Event S)} (h : Begins H A (perform o >>= f) s (ev :: t) s') :
    ∃ e, A e ∧ ev = ⟨o, (H.exec e s o).1⟩ ∧
      Begins H A (f (H.exec e s o).1) (H.exec e s o).2 t s' := begins_step h

/-- A beginning of a program that avoids a kind of operation has none of it. -/
theorem Begins.avoids {K : S.Op → Prop} {p : Prog S α} {s s' : σ} {t : List (Event S)}
    (h : Begins H A p s t s') (hp : Avoids K p) : ∀ ev ∈ t, ¬ K ev.op := by
  induction h with
  | stop p s => simp
  | @step o again k s e _ t s' _ ih => exact List.forall_mem_cons.mpr ⟨hp.1, ih (hp.next _)⟩

/-- A beginning of a program that avoids the operations that change `π` keeps
it. -/
theorem Begins.keeps {τ : Type} {π : σ → τ} {K : S.Op → Prop}
    (hKeep : ∀ e s o, ¬ K o → π (H.exec e s o).2 = π s) {p : Prog S α} {s s' : σ}
    {t : List (Event S)} (h : Begins H A p s t s') (hp : Avoids K p) : π s' = π s := by
  induction h with
  | stop p s => rfl
  | @step o again k s e _ t s' _ ih => rw [ih (hp.next _), hKeep e s o hp.1]

/-- An event of a kind that the first part of a composition avoids comes after
the end of that part. -/
theorem begins_past {K : S.Op → Prop} {p : Prog S α} {f : α → Prog S β} {s s' : σ}
    {t t' : List (Event S)} {ev : Event S} (h : Begins H A (p >>= f) s (t ++ ev :: t') s')
    (hp : Avoids K p) (hK : K ev.op) :
    ∃ t₁ t₂ a s₁, t = t₁ ++ t₂ ∧ Exec H A p s t₁ a s₁ ∧
      Begins H A (f a) s₁ (t₂ ++ ev :: t') s' := by
  rcases begins_bind h with hLeft | ⟨u, v, a, s₁, hSplit, h₁, h₂⟩
  · exact absurd hK (hLeft.avoids hp ev (by simp))
  · rcases List.append_eq_append_iff.mp hSplit with ⟨w, rfl, hRest⟩ | ⟨w, rfl, rfl⟩
    · -- the event would be one of the first part, unless nothing is left of it
      cases w with
      | nil =>
        rw [List.nil_append] at hRest
        exact ⟨t, [], a, s₁, by simp, by simpa using h₁, by rwa [List.nil_append, hRest]⟩
      | cons x w =>
        obtain ⟨rfl, -⟩ := List.cons.inj hRest
        exact absurd hK (h₁.path.avoids hp ev (by simp))
    · exact ⟨u, w, a, s₁, rfl, h₁, h₂⟩

/-- A loop ends with a step whose result says to stop. -/
theorem exec_repeatWhile_last {o : S.Op} {again : S.Res o → Bool} {s s' : σ}
    {t : List (Event S)} {r : S.Res o} (h : Exec H A (repeatWhile o again) s t r s') :
    again r = false ∧ (⟨o, r⟩ : Event S) ∈ t ∧ ∃ e s₁, A e ∧ H.exec e s₁ o = (r, s') := by
  induction t generalizing s with
  | nil =>
    obtain ⟨e, t', -, hNil, -⟩ := exec_step.mp h
    cases hNil
  | cons ev t ih =>
    obtain ⟨e, t', hA, hCons, hRest⟩ := exec_step.mp h
    obtain ⟨rfl, rfl⟩ := List.cons.inj hCons
    by_cases hAgain : again (H.exec e s o).1 = true
    · rw [next, if_pos hAgain] at hRest
      obtain ⟨hStop, hMem, hLast⟩ := ih hRest
      exact ⟨hStop, List.mem_cons_of_mem _ hMem, hLast⟩
    · rw [next, if_neg hAgain] at hRest
      obtain ⟨rfl, rfl, rfl⟩ := exec_ret.mp hRest
      exact ⟨Bool.eq_false_iff.mpr hAgain, List.mem_cons_self, e, s, hA, rfl⟩

/-! ## The rule for safety -/

/-- Every operation of `p` that can be reached while the results are as `Ok`
says meets `P`. -/
def AllOn (Ok : (o : S.Op) → S.Res o → Prop) (P : S.Op → Prop) : Prog S α → Prop
  | ret _ => True
  | step o again k => P o ∧ ∀ r, Ok o r → again r = false → AllOn Ok P (k r)

/-- What `p` returns while the results are as `Ok` says meets `Q`. -/
def Gives (Ok : (o : S.Op) → S.Res o → Prop) (Q : α → Prop) : Prog S α → Prop
  | ret a => Q a
  | step o again k => ∀ r, Ok o r → again r = false → Gives Ok Q (k r)

section

variable {Ok : (o : S.Op) → S.Res o → Prop} {P : S.Op → Prop}

theorem allOn_pure (a : α) : AllOn Ok P (pure a : Prog S α) := trivial

theorem allOn_perform {o : S.Op} (h : P o) : AllOn Ok P (perform o) :=
  ⟨h, fun _ _ _ => trivial⟩

theorem allOn_repeatWhile {o : S.Op} (h : P o) (again : S.Res o → Bool) :
    AllOn Ok P (repeatWhile o again) := ⟨h, fun _ _ _ => trivial⟩

/-- Every program returns something. -/
theorem gives_true (p : Prog S α) : Gives Ok (fun _ => True) p := by
  induction p with
  | ret a => trivial
  | step o again k ih => exact fun r _ _ => ih r

/-- A loop returns a result that says to stop. -/
theorem gives_repeatWhile {o : S.Op} {again : S.Res o → Bool} {Q : S.Res o → Prop}
    (h : ∀ r, Ok o r → again r = false → Q r) : Gives Ok Q (repeatWhile o again) := h

/-- A composition returns what its second part returns, for what the first gives. -/
theorem gives_bind {p : Prog S α} {f : α → Prog S β} {Q : α → Prop} {Q' : β → Prop}
    (hp : Gives Ok Q p) (hf : ∀ a, Q a → Gives Ok Q' (f a)) : Gives Ok Q' (p >>= f) := by
  induction p with
  | ret a => exact hf a hp
  | step o again k ih => exact fun r hr hStop => ih r (hp r hr hStop)

/-- What follows need only be safe for what the first part returns. -/
theorem allOn_bind_gives {p : Prog S α} {f : α → Prog S β} {Q : α → Prop} (hp : AllOn Ok P p)
    (hq : Gives Ok Q p) (hf : ∀ a, Q a → AllOn Ok P (f a)) : AllOn Ok P (p >>= f) := by
  induction p with
  | ret a => exact hf a hq
  | step o again k ih =>
    exact ⟨hp.1, fun r hr hStop => ih r (hp.2 r hr hStop) (hq r hr hStop)⟩

/-- The rule of a composition, when the second part is safe whatever the first returns. -/
theorem allOn_bind {p : Prog S α} {f : α → Prog S β} (hp : AllOn Ok P p)
    (hf : ∀ a, AllOn Ok P (f a)) : AllOn Ok P (p >>= f) :=
  allOn_bind_gives hp (gives_true p) fun a _ => hf a

/-- A part under a condition is looked at only where the condition holds. -/
theorem allOn_onlyIf {c : Prop} [Decidable c] {p : Prog S Unit} (hp : c → AllOn Ok P p) :
    AllOn Ok P (onlyIf c p) := by
  unfold onlyIf
  split
  · rename_i hc
    exact hp hc
  · exact allOn_pure ()

/-- A program that avoids what is not allowed is safe. -/
theorem AllOn.of_avoids {p : Prog S α} (h : Avoids (fun o => ¬ P o) p) : AllOn Ok P p := by
  induction p with
  | ret a => trivial
  | step o again k ih => exact ⟨not_not.mp h.1, fun r _ _ => ih r (h.2 r)⟩

/-- **Safety.** When the invariant holds and an operation is allowed, its result
is as `Ok` says and the invariant is kept: then every beginning of the program
performs allowed operations only, and keeps the invariant. -/
theorem Begins.safe {Inv : σ → Prop}
    (hStep : ∀ e s o, A e → Inv s → P o → Ok o (H.exec e s o).1 ∧ Inv (H.exec e s o).2)
    {p : Prog S α} {s s' : σ} {t : List (Event S)} (h : Begins H A p s t s')
    (hp : AllOn Ok P p) (hInv : Inv s) : (∀ ev ∈ t, P ev.op) ∧ Inv s' := by
  induction h with
  | stop p s => exact ⟨by simp, hInv⟩
  | @step o again k s e hA t s' _ ih =>
    obtain ⟨hOk, hInv'⟩ := hStep e s o hA hInv hp.1
    have hNext : AllOn Ok P (next o again k (H.exec e s o).1) := by
      unfold next
      split
      · exact hp
      next hStop => exact hp.2 _ hOk (Bool.eq_false_iff.mpr hStop)
    obtain ⟨hOps, hLast⟩ := ih hNext hInv'
    exact ⟨List.forall_mem_cons.mpr ⟨hp.1, hOps⟩, hLast⟩

end

/-- More environments allow more executions. -/
theorem Exec.mono {B : E → Prop} (hAB : ∀ e, A e → B e) {p : Prog S α} {s s' : σ}
    {t : List (Event S)} {a : α} (h : Exec H A p s t a s') : Exec H B p s t a s' := by
  induction h with
  | ret a s => exact .ret a s
  | step e hA _ ih => exact .step e (hAB e hA) ih

/-! ## Programs that come to an end -/

/-- Some execution of `p` from `s` comes to an end. -/
def Ends (H : Handler S σ E) (A : E → Prop) (p : Prog S α) (s : σ) : Prop :=
  ∃ t a s', Exec H A p s t a s'

theorem ends_pure (a : α) (s : σ) : Ends H A (pure a : Prog S α) s := ⟨[], a, s, .ret a s⟩

/-- One operation ends when some environment is allowed. -/
theorem ends_perform {e : E} (hA : A e) (o : S.Op) (s : σ) : Ends H A (perform o) s :=
  ⟨_, _, _, exec_perform.mpr ⟨e, hA, rfl, rfl⟩⟩

/-- Some execution of `p` from `s` returns `a` and ends in `s'`. -/
def Yields (H : Handler S σ E) (A : E → Prop) (p : Prog S α) (s : σ) (a : α) (s' : σ) : Prop :=
  ∃ t, Exec H A p s t a s'

theorem yields_pure (a : α) (s : σ) : Yields H A (pure a : Prog S α) s a s := ⟨[], .ret a s⟩

/-- One operation yields what its environment gives. -/
theorem yields_perform {e : E} (hA : A e) (o : S.Op) (s : σ) :
    Yields H A (perform o) s (H.exec e s o).1 (H.exec e s o).2 :=
  ⟨_, exec_perform.mpr ⟨e, hA, rfl, rfl⟩⟩

/-- The rule of a composition. -/
theorem Yields.bind {p : Prog S α} {f : α → Prog S β} {s s₁ s' : σ} {a : α} {b : β}
    (hp : Yields H A p s a s₁) (hf : Yields H A (f a) s₁ b s') : Yields H A (p >>= f) s b s' := by
  obtain ⟨t₁, h₁⟩ := hp
  obtain ⟨t₂, h₂⟩ := hf
  exact ⟨t₁ ++ t₂, exec_bind.mpr ⟨t₁, t₂, a, s₁, rfl, h₁, h₂⟩⟩

/-- A loop ends when its operation says to stop. -/
theorem ends_repeatWhile {e : E} (hA : A e) {o : S.Op} {again : S.Res o → Bool} {s : σ}
    (hStop : again (H.exec e s o).1 = false) : Ends H A (repeatWhile o again) s := by
  have hLast : Exec H A (next o again ret (H.exec e s o).1) (H.exec e s o).2 []
      (H.exec e s o).1 (H.exec e s o).2 := by
    rw [next, if_neg (by simp [hStop])]
    exact .ret _ _
  exact ⟨_, _, _, Exec.step e hA hLast⟩

/-- A composition ends when its first part can, and the second part after each of these ends. -/
theorem ends_bind {p : Prog S α} {f : α → Prog S β} {s : σ} (hp : Ends H A p s)
    (hf : ∀ t a s₁, Exec H A p s t a s₁ → Ends H A (f a) s₁) : Ends H A (p >>= f) s := by
  obtain ⟨t₁, a, s₁, h₁⟩ := hp
  obtain ⟨t₂, b, s', h₂⟩ := hf t₁ a s₁ h₁
  exact ⟨t₁ ++ t₂, b, s', exec_bind.mpr ⟨t₁, t₂, a, s₁, rfl, h₁, h₂⟩⟩

/-- A part under a condition ends when it ends where the condition holds. -/
theorem ends_onlyIf {c : Prop} [Decidable c] {p : Prog S Unit} {s : σ}
    (hp : c → Ends H A p s) : Ends H A (onlyIf c p) s := by
  unfold onlyIf
  split
  · rename_i hc
    exact hp hc
  · exact ends_pure () s

/-- What always stops comes to an end. -/
theorem Stops.ends {e : E} (hA : A e) {p : Prog S α} {s : σ} (h : Stops H A p s) :
    Ends H A p s := by
  induction h with
  | ret a s => exact ends_pure a s
  | step _ ih =>
    obtain ⟨t, a, s', hRest⟩ := ih e hA
    exact ⟨_, a, s', .step e hA hRest⟩

/-- What ends in some environments ends in more of them. -/
theorem Ends.mono {B : E → Prop} (hAB : ∀ e, A e → B e) {p : Prog S α} {s : σ}
    (h : Ends H A p s) : Ends H B p s := by
  obtain ⟨t, a, s', hExec⟩ := h
  exact ⟨t, a, s', hExec.mono hAB⟩

/-- A program without loops comes to an end. -/
theorem ends_of_all {e : E} (hA : A e) {p : Prog S α}
    (hp : All (fun _ again => ∀ r, again r = false) p) (s : σ) : Ends H A p s := by
  have hLoops : Loops (fun _ => False) p := hp.mono fun _ _ hOnce ⟨r, hAgain⟩ => by
    rw [hOnce r] at hAgain
    cases hAgain
  exact (hLoops.stops s).ends hA

/-! ## Programs that end on an event -/

/-- `p` returns `last` right after an event that `stop` tells, and only then; it
has no loop. -/
def EndsOn (stop : Event S → Bool) (last : α) : Prog S α → Prop
  | ret a => a ≠ last
  | step o again k => ∀ r, again r = false ∧
      if stop ⟨o, r⟩ = true then k r = ret last else EndsOn stop last (k r)

section

variable {stop : Event S → Bool} {last : α}

theorem endsOn_pure {a : α} (h : a ≠ last) : EndsOn stop last (pure a : Prog S α) := h

/-- An operation that may be the last one. -/
theorem endsOn_perform {o : S.Op} {f : S.Res o → Prog S α}
    (hStop : ∀ r, stop ⟨o, r⟩ = true → f r = ret last)
    (hGo : ∀ r, stop ⟨o, r⟩ = false → EndsOn stop last (f r)) :
    EndsOn stop last (perform o >>= f) := by
  intro r
  refine ⟨rfl, ?_⟩
  by_cases h : stop ⟨o, r⟩ = true
  · rw [if_pos h]
    exact hStop r h
  · rw [if_neg h]
    exact hGo r (Bool.eq_false_iff.mpr h)

/-- A first part without the last event, and without loops. -/
theorem endsOn_bind {p : Prog S β} {f : β → Prog S α}
    (hp : All (fun o again => ∀ r, again r = false ∧ stop ⟨o, r⟩ = false) p)
    (hf : ∀ b, EndsOn stop last (f b)) : EndsOn stop last (p >>= f) := by
  induction p with
  | ret b => exact hf b
  | step o again k ih =>
    intro r
    obtain ⟨hAgain, hStop⟩ := hp.1 r
    refine ⟨hAgain, ?_⟩
    rw [if_neg (by simp [hStop])]
    exact ih r (hp.2 r)

/-- One step of a program that ends on an event: it is over, or goes on as such. -/
theorem EndsOn.next {o : S.Op} {again : S.Res o → Bool} {k : S.Res o → Prog S α}
    (h : EndsOn stop last (step o again k)) (r : S.Res o) :
    (stop ⟨o, r⟩ = true ∧ Prog.next o again k r = ret last) ∨
      (stop ⟨o, r⟩ = false ∧ EndsOn stop last (Prog.next o again k r)) := by
  obtain ⟨hAgain, hRest⟩ := h r
  have hNext : Prog.next o again k r = k r := if_neg (by simp [hAgain])
  rw [hNext]
  by_cases hStop : stop ⟨o, r⟩ = true
  · rw [if_pos hStop] at hRest
    exact Or.inl ⟨hStop, hRest⟩
  · rw [if_neg hStop] at hRest
    exact Or.inr ⟨Bool.eq_false_iff.mpr hStop, hRest⟩

end

end Prog
