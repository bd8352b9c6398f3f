import PushStreamer.Lib.Register

/-!
# The last writer

`w ev` says what an event writes to a switch: on (`true`), off (`false`) or
nothing (`none`). After a log the switch is as the last write left it
(`foldl_write`). Two threads write to the switch; one of them, `off`, turns it
off once, and the other turns it on with its last write if at all.

* `last_write_off_iff` — the switch is off in the end just when the other thread
  does not turn it on after `off` has turned it off.
-/

namespace Prog

variable {S : Sig} {ι : Type}

/-- The writes in a log, in their order. -/
def writes (w : Event S → Option Bool) (log : List (ι × Event S)) : List Bool :=
  log.filterMap fun x => w x.2

/-- An event that writes nothing does not count. -/
theorem writes_cons_none {w : Event S → Option Bool} {x : ι × Event S} (h : w x.2 = none)
    (log : List (ι × Event S)) : writes w (x :: log) = writes w log := List.filterMap_cons_none h

theorem writes_cons_some {w : Event S → Option Bool} {x : ι × Event S} {b : Bool}
    (h : w x.2 = some b) (log : List (ι × Event S)) :
    writes w (x :: log) = b :: writes w log := List.filterMap_cons_some h

theorem mem_writes {w : Event S → Option Bool} {b : Bool} {log : List (ι × Event S)} :
    b ∈ writes w log ↔ ∃ x ∈ log, w x.2 = some b := List.mem_filterMap

/-- No thread but `off` turns the switch on after `off` has turned it off. -/
def StaysOff (w : Event S → Option Bool) (off : ι) (log : List (ι × Event S)) : Prop :=
  log.Pairwise fun x y => ¬ (x.1 = off ∧ w x.2 = some false ∧ y.1 ≠ off ∧ w y.2 = some true)

instance [DecidableEq ι] (w : Event S → Option Bool) (off : ι) (log : List (ι × Event S)) :
    Decidable (StaysOff w off log) := by
  unfold StaysOff
  infer_instance

/-- The threads do not matter to the order of the writes. -/
theorem writes_eq (w : Event S → Option Bool) (log : List (ι × Event S)) :
    (log.map Prod.snd).filterMap w = writes w log := List.filterMap_map

section

variable [DecidableEq ι] {w : Event S → Option Bool} {off : ι}

/-- The writes of the threads other than `off`. -/
def writesOfOthers (w : Event S → Option Bool) (off : ι) (log : List (ι × Event S)) : List Bool :=
  writes w (log.filter fun x => x.1 ≠ off)

/-- The writes of the other threads. -/
theorem mem_writesOfOthers {b : Bool} {log : List (ι × Event S)} :
    b ∈ writesOfOthers w off log ↔ ∃ x ∈ log, x.1 ≠ off ∧ w x.2 = some b := by
  rw [writesOfOthers, mem_writes]
  simp only [List.mem_filter, decide_eq_true_eq, and_assoc]

/-- The trace of a thread begins with its own event. -/
theorem threadTrace_cons_self {x : ι × Event S} (hx : x.1 = off) (log : List (ι × Event S)) :
    threadTrace off (x :: log) = x.2 :: threadTrace off log := by
  rw [threadTrace, List.filterMap_cons, if_pos hx]
  rfl

/-- An event of another thread is not in it. -/
theorem threadTrace_cons_of_ne {x : ι × Event S} (hx : x.1 ≠ off) (log : List (ι × Event S)) :
    threadTrace off (x :: log) = threadTrace off log := by
  rw [threadTrace, List.filterMap_cons, if_neg hx]
  rfl

theorem writesOfOthers_cons_self {x : ι × Event S} (hx : x.1 = off) (log : List (ι × Event S)) :
    writesOfOthers w off (x :: log) = writesOfOthers w off log := by
  rw [writesOfOthers, List.filter_cons_of_neg (by simpa using hx), writesOfOthers]

theorem writesOfOthers_cons_of_ne {x : ι × Event S} (hx : x.1 ≠ off) (log : List (ι × Event S)) :
    writesOfOthers w off (x :: log) = writes w (x :: log.filter fun x => x.1 ≠ off) := by
  rw [writesOfOthers, List.filter_cons_of_pos (by simpa using hx)]

/-- With two threads, the others are the other one. -/
theorem writesOfOthers_eq {on : ι} (h : ∀ i, i ≠ off ↔ i = on) (log : List (ι × Event S)) :
    writesOfOthers w off log = (threadTrace on log).filterMap w := by
  induction log with
  | nil => rfl
  | cons x log ih =>
    by_cases hx : x.1 = off
    · rw [writesOfOthers_cons_self hx, ih, threadTrace_cons_of_ne fun hOn => (h _).mpr hOn hx]
    · have ih' : writes w (log.filter fun x => x.1 ≠ off) = (threadTrace on log).filterMap w := ih
      rw [writesOfOthers_cons_of_ne hx, threadTrace_cons_self ((h _).mp hx)]
      cases hw : w x.2 with
      | none => rw [writes_cons_none hw, List.filterMap_cons_none hw, ih']
      | some b => rw [writes_cons_some hw, List.filterMap_cons_some hw, ih']

/-- Without writes of `off` all writes are those of the others. -/
theorem writes_of_no_off {log : List (ι × Event S)}
    (h : (threadTrace off log).filterMap w = []) : writes w log = writesOfOthers w off log := by
  induction log with
  | nil => rfl
  | cons x log ih =>
    by_cases hx : x.1 = off
    · rw [threadTrace_cons_self hx, List.filterMap_cons] at h
      cases hw : w x.2 with
      | some b =>
        rw [hw] at h
        cases h
      | none =>
        rw [hw] at h
        rw [writes_cons_none hw, writesOfOthers_cons_self hx, ih h]
    · rw [threadTrace_cons_of_ne hx] at h
      rw [writesOfOthers_cons_of_ne hx]
      have hRest : writes w log = writes w (log.filter fun x => x.1 ≠ off) := ih h
      cases hw : w x.2 with
      | none => rw [writes_cons_none hw, writes_cons_none hw, hRest]
      | some b => rw [writes_cons_some hw, writes_cons_some hw, hRest]

/-- A thread that writes has written. -/
theorem writes_ne_nil {log : List (ι × Event S)}
    (h : (threadTrace off log).filterMap w = [false]) : writes w log ≠ [] := by
  have hMem : false ∈ (threadTrace off log).filterMap w := by rw [h]; exact List.mem_cons_self
  obtain ⟨ev, hEv, hw⟩ := List.mem_filterMap.mp hMem
  obtain ⟨x, hx, hSome⟩ := List.mem_filterMap.mp hEv
  split at hSome
  · obtain rfl := Option.some.inj hSome
    exact List.ne_nil_of_mem (mem_writes.mpr ⟨x, hx, hw⟩)
  · cases hSome

/-- After the only write of `off`, the switch is off just when it is turned on
no more. -/
theorem last_write_after_off {log : List (ι × Event S)}
    (hNone : writes w log = writesOfOthers w off log)
    (hOn : true ∈ writesOfOthers w off log → (writesOfOthers w off log).getLast? = some true) :
    (false :: writes w log).getLast? = some false ↔ true ∉ writesOfOthers w off log := by
  rw [hNone, List.getLast?_cons, Option.some.injEq]
  constructor
  · intro hLast hTrue
    rw [hOn hTrue] at hLast
    cases hLast
  · intro hNoTrue
    cases hLast : (writesOfOthers w off log).getLast? with
    | none => rfl
    | some b =>
      cases b with
      | false => rfl
      | true => exact absurd (List.mem_of_getLast? hLast) hNoTrue

/-- **The last writer.** The switch is off after a log just when no other thread
has turned it on after `off` has turned it off. -/
theorem last_write_off_iff {log : List (ι × Event S)}
    (hOff : (threadTrace off log).filterMap w = [false])
    (hOn : true ∈ writesOfOthers w off log → (writesOfOthers w off log).getLast? = some true) :
    (writes w log).getLast? = some false ↔ StaysOff w off log := by
  induction log with
  | nil => cases hOff
  | cons x log ih =>
    rw [StaysOff, List.pairwise_cons]
    by_cases hx : x.1 = off
    · rw [threadTrace_cons_self hx] at hOff
      rw [writesOfOthers_cons_self hx] at hOn
      cases hw : w x.2 with
      | none =>
        rw [List.filterMap_cons_none hw] at hOff
        rw [writes_cons_none hw, ih hOff hOn, StaysOff]
        exact (and_iff_right fun y _ hBoth => nomatch hBoth.2.1).symm
      | some b =>
        -- the write of `off`: all later ones are those of the others
        rw [List.filterMap_cons_some hw, List.cons.injEq] at hOff
        obtain ⟨rfl, hNoMore⟩ := hOff
        have hNone := writes_of_no_off hNoMore
        rw [writes_cons_some hw, last_write_after_off hNone hOn]
        constructor
        · intro hNoTrue
          have hNot : ∀ y ∈ log, ¬ (y.1 ≠ off ∧ w y.2 = some true) := fun y hy hBoth =>
            hNoTrue (mem_writesOfOthers.mpr ⟨y, hy, hBoth⟩)
          exact ⟨fun y hy hAll => hNot y hy hAll.2.2,
            List.pairwise_of_forall_mem_list fun _ _ y hy hAll => hNot y hy hAll.2.2⟩
        · rintro ⟨hHead, -⟩ hTrue
          obtain ⟨y, hy, hNe, hOn'⟩ := mem_writesOfOthers.mp hTrue
          exact hHead y hy ⟨hx, rfl, hNe, hOn'⟩
    · rw [threadTrace_cons_of_ne hx] at hOff
      rw [writesOfOthers_cons_of_ne hx] at hOn
      have hHead : ∀ y ∈ log, ¬ (x.1 = off ∧ w x.2 = some false ∧ y.1 ≠ off ∧ w y.2 = some true) :=
        fun y _ hBoth => hx hBoth.1
      have hNonempty := writes_ne_nil hOff
      rw [and_iff_right hHead, ← StaysOff]
      cases hw : w x.2 with
      | none =>
        rw [writes_cons_none hw] at hOn
        rw [writes_cons_none hw]
        exact ih hOff hOn
      | some b =>
        rw [writes_cons_some hw] at hOn
        rw [writes_cons_some hw, List.getLast?_cons_of_ne_nil hNonempty]
        refine ih hOff fun hTrue => ?_
        have hLast := hOn (List.mem_cons_of_mem _ hTrue)
        exact (List.getLast?_cons_of_ne_nil (List.ne_nil_of_mem hTrue)).symm.trans hLast

end

end Prog
