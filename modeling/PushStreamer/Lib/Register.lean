import PushStreamer.Lib.Prog
import Mathlib.Data.List.Induction

/-!
# Registers

A register is a component of the state that some operations overwrite: `w ev`
is the value that an event writes to it, if it does.

* `Writes w p xs` — whatever the results of its operations are, `p` writes the
  values `xs` in this order; one rule for each way to build a program.
* `lastWrite w log` — the last write of a log of several threads, with the
  thread that made it.
* `Run.register` — after a run a register holds what was written last.
-/

namespace Prog

variable {S : Sig} {ι α β τ : Type}

/-! ## What one program writes -/

/-- Every complete trace of `p` writes `xs`. -/
def Writes (w : Event S → Option τ) (p : Prog S α) (xs : List τ) : Prop :=
  ∀ t a, Path p t a → t.filterMap w = xs

section

variable {w : Event S → Option τ} {xs ys : List τ}

theorem writesNil_pure (a : α) : Writes w (pure a : Prog S α) [] := by
  intro t b hPath
  obtain ⟨rfl, -⟩ := path_pure.mp hPath
  rfl

/-- An operation writes the same value whatever it returns, or nothing. -/
theorem writes_perform {o : S.Op} {x : Option τ} (h : ∀ r, w ⟨o, r⟩ = x) :
    Writes w (perform o) x.toList := by
  intro t r hPath
  obtain rfl := path_perform.mp hPath
  have hOne : w ⟨o, r⟩ = x := h r
  cases x with
  | none => rw [List.filterMap_cons_none hOne]; rfl
  | some v => rw [List.filterMap_cons_some hOne]; rfl

theorem Writes.bind {p : Prog S α} {f : α → Prog S β} (hp : Writes w p xs)
    (hf : ∀ a, Writes w (f a) ys) : Writes w (p >>= f) (xs ++ ys) := by
  intro t b hPath
  obtain ⟨t₁, t₂, a, rfl, h₁, h₂⟩ := path_bind.mp hPath
  rw [List.filterMap_append, hp t₁ a h₁, hf a t₂ b h₂]

/-- What follows a program that writes nothing. -/
theorem Writes.bind_nil {p : Prog S α} {f : α → Prog S β} (hp : Writes w p [])
    (hf : ∀ a, Writes w (f a) ys) : Writes w (p >>= f) ys := by
  have hAll := hp.bind hf
  rwa [List.nil_append] at hAll

/-- A program without operations that write. -/
theorem Writes.of_avoids {K : S.Op → Prop} {p : Prog S α} (hp : Avoids K p)
    (hw : ∀ ev : Event S, ¬ K ev.op → w ev = none) : Writes w p [] := by
  intro t a hPath
  have hNone : ∀ ev ∈ t, w ev = none := fun ev hev => hw ev (hPath.avoids hp ev hev)
  exact List.filterMap_eq_nil_iff.mpr hNone

end

/-! ## What a log leaves in a register -/

/-- A component that the events of a list write is, after them, what was written
last. -/
theorem foldl_write {ε : Type} {w : ε → Option τ} (events : List ε) (v : τ) :
    events.foldl (fun v ev => (w ev).getD v) v = ((events.filterMap w).getLast?).getD v := by
  induction events generalizing v with
  | nil => rfl
  | cons ev events ih =>
    rw [List.foldl_cons, ih, List.filterMap_cons]
    cases w ev with
    | none => rfl
    | some u =>
      dsimp only [Option.getD_some]
      rw [List.getLast?_cons, Option.getD_some]

/-- The same for a component that may be missing. -/
theorem foldl_write_map {ε : Type} {w : ε → Option τ} (events : List ε) (v : Option τ) :
    events.foldl (fun v ev => v.map (w ev).getD) v =
      v.map ((events.filterMap w).getLast?).getD := by
  cases v with
  | none => exact List.foldl_fixed' (fun _ => rfl) events
  | some v =>
    rw [Option.map_some, ← foldl_write]
    exact List.foldl_hom some (fun _ _ => rfl)

/-- The last write of a log and the thread that made it. -/
def lastWrite (w : Event S → Option τ) (log : List (ι × Event S)) : Option (ι × τ) :=
  (log.filterMap fun x => (w x.2).map fun v => (x.1, v)).getLast?

theorem getLast?_writes (w : Event S → Option τ) (log : List (ι × Event S)) :
    ((log.map Prod.snd).filterMap w).getLast? = (lastWrite w log).map Prod.snd := by
  have hValues : (log.map Prod.snd).filterMap w =
      (log.filterMap fun x => (w x.2).map fun v => (x.1, v)).map Prod.snd := by
    rw [List.filterMap_map, List.map_filterMap]
    refine List.filterMap_congr fun x _ => ?_
    rw [Option.map_map]
    exact (Option.map_id' (x := w x.2)).symm
  rw [hValues, List.getLast?_map, lastWrite]

section

variable [DecidableEq ι] {w : Event S → Option τ} {log : List (ι × Event S)} {i : ι}

/-- The last write of all is the last write of its thread. -/
theorem lastWrite_thread {v : τ} (h : lastWrite w log = some (i, v)) :
    ((threadTrace i log).filterMap w).getLast? = some v := by
  induction log using List.reverseRecOn with
  | nil => cases h
  | append_singleton log x ih =>
    have hTrace : threadTrace i (log ++ [x]) =
        threadTrace i log ++ (if x.1 = i then some x.2 else none).toList := by
      rw [threadTrace, List.filterMap_append, ← threadTrace]
      by_cases hx : x.1 = i
      · simp [hx]
      · simp [hx]
    rw [lastWrite, List.filterMap_append] at h
    rw [hTrace, List.filterMap_append]
    cases hw : w x.2 with
    | none =>
      rw [List.filterMap_cons_none (by rw [hw]; rfl), List.filterMap_nil, List.append_nil] at h
      have hNothing : ((if x.1 = i then some x.2 else none).toList).filterMap w = [] := by
        split
        · simp [hw]
        · rfl
      rw [hNothing, List.append_nil]
      exact ih h
    | some u =>
      rw [List.filterMap_cons_some (by rw [hw]; rfl), List.filterMap_nil, List.getLast?_concat,
        Option.some.injEq, Prod.mk.injEq] at h
      obtain ⟨hi, rfl⟩ := h
      rw [if_pos hi, Option.toList_some, List.filterMap_cons_some hw, List.filterMap_nil,
        List.getLast?_concat]

/-- A thread that writes is not the only one that may have written last. -/
theorem lastWrite_of_write {v : τ} (h : v ∈ (threadTrace i log).filterMap w) :
    ∃ j u, lastWrite w log = some (j, u) := by
  obtain ⟨ev, hev, hw⟩ := List.mem_filterMap.mp h
  have hMem : (i, v) ∈ log.filterMap fun x => (w x.2).map fun v => (x.1, v) :=
    List.mem_filterMap.mpr ⟨(i, ev), mem_of_mem_threadTrace hev, by rw [hw]; rfl⟩
  have hSome := List.getLast?_eq_some_getLast (List.ne_nil_of_mem hMem)
  exact ⟨_, _, hSome⟩

/-- A register after one program alone. -/
theorem Exec.register {σ E : Type} {H : Handler S σ E} {A : E → Prop} {π : σ → τ}
    (hWrite : ∀ e s o, π (H.exec e s o).2 = (w ⟨o, (H.exec e s o).1⟩).getD (π s))
    {p : Prog S α} {s s' : σ} {t : List (Event S)} {a : α} (h : Exec H A p s t a s') :
    π s' = ((t.filterMap w).getLast?).getD (π s) := by
  have hFold : π s' = t.foldl (fun v ev => (w ev).getD v) (π s) := h.fold hWrite
  rw [hFold, foldl_write]

theorem Exec.register_map {σ E : Type} {H : Handler S σ E} {A : E → Prop} {π : σ → Option τ}
    (hWrite : ∀ e s o, π (H.exec e s o).2 = (π s).map (w ⟨o, (H.exec e s o).1⟩).getD)
    {p : Prog S α} {s s' : σ} {t : List (Event S)} {a : α} (h : Exec H A p s t a s') :
    π s' = (π s).map ((t.filterMap w).getLast?).getD := by
  have hFold : π s' = t.foldl (fun v ev => v.map (w ev).getD) (π s) := h.fold hWrite
  rw [hFold, foldl_write_map]

/-- **Registers.** A component that every operation overwrites as `w` says holds
the last write of a run. -/
theorem Run.register {σ E : Type} {H : Handler S σ E} {π : σ → τ}
    (hWrite : ∀ e s o, π (H.exec e s o).2 = (w ⟨o, (H.exec e s o).1⟩).getD (π s))
    {s s' : σ} {ts ts' : ι → Prog S α} (hRun : Run H s ts log s' ts') :
    π s' = ((lastWrite w log).map Prod.snd).getD (π s) := by
  have hFold : π s' = (log.map Prod.snd).foldl (fun v ev => (w ev).getD v) (π s) :=
    hRun.fold hWrite
  rw [hFold, foldl_write, getLast?_writes]

/-- The same for a component that may be missing. -/
theorem Run.register_map {σ E : Type} {H : Handler S σ E} {π : σ → Option τ}
    (hWrite : ∀ e s o, π (H.exec e s o).2 = (π s).map (w ⟨o, (H.exec e s o).1⟩).getD)
    {s s' : σ} {ts ts' : ι → Prog S α} (hRun : Run H s ts log s' ts') :
    π s' = (π s).map ((lastWrite w log).map Prod.snd).getD := by
  have hFold : π s' = (log.map Prod.snd).foldl (fun v ev => v.map (w ev).getD) (π s) :=
    hRun.fold hWrite
  rw [hFold, foldl_write_map, getLast?_writes]

end

end Prog
