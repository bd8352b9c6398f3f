import Mathlib.Data.List.Induction
import Mathlib.Data.List.Nodup
import Mathlib.Tactic.Common

/-!
# Presses and releases

A log of presses and releases of keys, of any type. A key is *down* after a log
when its last stroke is a press; pressing it again changes nothing.

* `mem_down_iff` — what is down: pressed, and not released since.
* `mem_down_append` — logs one after the other.
* `mem_down_presses`, `mem_down_releases` — the strokes of several keys.
* `down_eq_nil_iff` — nothing stays down just when each press is followed by a
  release of its key.
-/

namespace Strokes

/-- A press or a release of a key. -/
inductive Stroke (κ : Type*) where
  | press (k : κ)
  | release (k : κ)
deriving DecidableEq

variable {κ : Type*} [DecidableEq κ]

/-- The keys that are down after one more stroke. -/
def after (keys : List κ) : Stroke κ → List κ
  | .press k => if k ∈ keys then keys else keys ++ [k]
  | .release k => keys.filter (· ≠ k)

/-- The keys that are down after a log, each once. -/
def down (log : List (Stroke κ)) : List κ := log.foldl after []

@[simp] theorem down_nil : down ([] : List (Stroke κ)) = [] := rfl

theorem down_snoc (log : List (Stroke κ)) (s : Stroke κ) :
    down (log ++ [s]) = after (down log) s := by
  rw [down, List.foldl_append]
  rfl

section

variable {k j : κ} {keys : List κ} {log : List (Stroke κ)}

theorem mem_after_press : j ∈ after keys (.press k) ↔ j ∈ keys ∨ j = k := by
  rw [after]
  split
  · rename_i hMem
    exact (or_iff_left_of_imp fun hEq => hEq ▸ hMem).symm
  · rw [List.mem_append, List.mem_singleton]

theorem mem_after_release : j ∈ after keys (.release k) ↔ j ∈ keys ∧ j ≠ k := by
  rw [after, List.mem_filter, decide_eq_true_eq]

theorem mem_down_press : j ∈ down (log ++ [.press k]) ↔ j ∈ down log ∨ j = k := by
  rw [down_snoc, mem_after_press]

theorem mem_down_release : j ∈ down (log ++ [.release k]) ↔ j ∈ down log ∧ j ≠ k := by
  rw [down_snoc, mem_after_release]

/-- After the presses of some keys these are down as well. -/
theorem mem_down_presses (ks : List κ) :
    k ∈ down (log ++ ks.map .press) ↔ k ∈ down log ∨ k ∈ ks := by
  induction ks generalizing log with
  | nil => simp
  | cons j ks ih =>
    rw [List.map_cons, List.append_cons, ih, mem_down_press, List.mem_cons, or_assoc]

/-- After the releases of some keys these are no longer down. -/
theorem mem_down_releases (ks : List κ) :
    k ∈ down (log ++ ks.map .release) ↔ k ∈ down log ∧ k ∉ ks := by
  induction ks generalizing log with
  | nil => simp
  | cons j ks ih =>
    rw [List.map_cons, List.append_cons, ih, mem_down_release, List.mem_cons, not_or, and_assoc]

theorem nodup_after (h : keys.Nodup) (s : Stroke κ) : (after keys s).Nodup := by
  cases s with
  | press k =>
    rw [after]
    split
    · exact h
    · rename_i hNew
      refine h.append (List.nodup_singleton k) fun x hx hk => ?_
      rw [List.mem_singleton] at hk
      exact hNew (hk ▸ hx)
  | release k => exact h.filter _

theorem nodup_down (log : List (Stroke κ)) : (down log).Nodup := by
  induction log using List.reverseRecOn with
  | nil => exact List.nodup_nil
  | append_singleton log s ih =>
    rw [down_snoc]
    exact nodup_after ih s

end

/-- After one log and then another, a key is down that the second leaves down,
or that the first leaves down and the second does not release. -/
theorem mem_down_append {k : κ} (first second : List (Stroke κ)) :
    k ∈ down (first ++ second) ↔
      k ∈ down second ∨ k ∈ down first ∧ .release k ∉ second := by
  induction second using List.reverseRecOn with
  | nil => simp
  | append_singleton second s ih =>
    rw [← List.append_assoc]
    cases s with
    | press j =>
      rw [mem_down_press, mem_down_press, ih, List.mem_append]
      simp only [List.mem_singleton, reduceCtorEq, or_false]
      exact or_right_comm
    | release j =>
      rw [mem_down_release, mem_down_release, ih, List.mem_append, List.mem_singleton,
        Stroke.release.injEq, or_and_right, not_or, and_assoc]

/-- **Down.** A key is down just when it has been pressed and not released
since. -/
theorem mem_down_iff {k : κ} {log : List (Stroke κ)} :
    k ∈ down log ↔ ∃ before since, log = before ++ .press k :: since ∧ .release k ∉ since := by
  constructor
  · intro hDown
    induction log using List.reverseRecOn with
    | nil => cases hDown
    | append_singleton log s ih =>
      cases s with
      | press j =>
        rcases mem_down_press.mp hDown with hBefore | rfl
        · obtain ⟨before, since, rfl, hSince⟩ := ih hBefore
          refine ⟨before, since ++ [.press j], by simp, ?_⟩
          simpa using hSince
        · exact ⟨log, [], rfl, List.not_mem_nil⟩
      | release j =>
        obtain ⟨hBefore, hNe⟩ := mem_down_release.mp hDown
        obtain ⟨before, since, rfl, hSince⟩ := ih hBefore
        refine ⟨before, since ++ [.release j], by simp, ?_⟩
        simpa [hNe] using hSince
  · rintro ⟨before, since, rfl, hSince⟩
    rw [List.append_cons, mem_down_append]
    exact Or.inr ⟨mem_down_press.mpr (Or.inr rfl), hSince⟩

/-- Each press of the log is followed by a release of its key. -/
def AllReleased (log : List (Stroke κ)) : Prop :=
  ∀ before k since, log = before ++ .press k :: since → .release k ∈ since

/-- Nothing stays down just when each press is followed by a release of its
key. -/
theorem down_eq_nil_iff {log : List (Stroke κ)} : down log = [] ↔ AllReleased log := by
  rw [List.eq_nil_iff_forall_not_mem]
  constructor
  · intro hUp before k since hLog
    by_contra hSince
    exact hUp k (mem_down_iff.mpr ⟨before, since, hLog, hSince⟩)
  · intro hAll k hDown
    obtain ⟨before, since, hLog, hSince⟩ := mem_down_iff.mp hDown
    exact hSince (hAll before k since hLog)

end Strokes
