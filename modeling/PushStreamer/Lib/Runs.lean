import Mathlib.Data.List.Basic
import Mathlib.Data.List.TakeWhile

/-!
# Maximal runs

A run of `p` in a list is a stretch of elements that all meet `p`; it is maximal
when neither the element before it nor the one after it does. Runs are given by
their positions: `(i, j)` stands for the elements from `i` on and before `j`.

* `mem_runs_iff` — `runs p l` lists just the maximal runs that are not empty.
* `runs_ordered` — from left to right, with an element between any two.
* `flatMap_piece_runs` — their elements are those of `l` that meet `p`, in order.
* `runs_eq_nil_iff` — there are none just when no element meets `p`.
-/

namespace Runs

variable {α : Type*}

/-- `(r.1, r.2)` is a maximal run of `p` in `l` that is not empty. -/
structure IsRun (p : α → Bool) (l : List α) (r : ℕ × ℕ) : Prop where
  lt : r.1 < r.2
  le : r.2 ≤ l.length
  inside : ∀ k c, r.1 ≤ k → k < r.2 → l[k]? = some c → p c = true
  before : ∀ k c, k + 1 = r.1 → l[k]? = some c → p c = false
  after : ∀ c, l[r.2]? = some c → p c = false

/-- The elements of a run. -/
def piece (l : List α) (r : ℕ × ℕ) : List α := (l.drop r.1).take (r.2 - r.1)

-- ---------------------------------------------------------------------------
-- Scanning from a position
-- ---------------------------------------------------------------------------

/-- The first position from `n` on whose element does not meet `q`. -/
def scan (q : α → Bool) (l : List α) (n : ℕ) : ℕ := n + ((l.drop n).takeWhile q).length

section

variable {q : α → Bool} {l : List α} {n : ℕ}

theorem le_scan : n ≤ scan q l n := Nat.le_add_right _ _

/-- A scan passes what the test holds of. -/
theorem drop_scan : l.drop (scan q l n) = (l.drop n).dropWhile q := by
  have hLeft : ((l.drop n).takeWhile q ++ (l.drop n).dropWhile q).drop
      ((l.drop n).takeWhile q).length = (l.drop n).dropWhile q := List.drop_left
  rw [List.takeWhile_append_dropWhile] at hLeft
  rw [scan, ← List.drop_drop, hLeft]

theorem scan_le (h : n ≤ l.length) : scan q l n ≤ l.length := by
  have hPrefix := (List.takeWhile_prefix q (l := l.drop n)).length_le
  rw [List.length_drop] at hPrefix
  unfold scan
  omega

/-- The elements that are passed over meet `q`. -/
theorem of_lt_scan {k : ℕ} {c : α} (hLe : n ≤ k) (hLt : k < scan q l n) (hc : l[k]? = some c) :
    q c = true := by
  obtain ⟨m, rfl⟩ := Nat.exists_eq_add_of_le hLe
  have hm : m < ((l.drop n).takeWhile q).length := Nat.lt_of_add_lt_add_left hLt
  rw [← List.getElem?_drop, ← List.takeWhile_append_dropWhile (p := q) (l := l.drop n),
    List.getElem?_append_left hm] at hc
  exact List.mem_takeWhile_imp (List.mem_of_getElem? hc)

/-- The element at which a scan stops does not. -/
theorem at_scan {c : α} (hc : l[scan q l n]? = some c) : q c = false := by
  rw [← List.head?_drop, drop_scan] at hc
  have hNot := List.head?_dropWhile_not q (l.drop n)
  rw [hc] at hNot
  exact hNot

end

-- ---------------------------------------------------------------------------
-- The runs of a list
-- ---------------------------------------------------------------------------

variable (p : α → Bool)

/-- Where the first run from `n` on begins. -/
def runStart (l : List α) (n : ℕ) : ℕ := scan (fun c => !p c) l n

/-- The runs from `n` on, found by scanning for their begin and their end. -/
def runsFrom (l : List α) : ℕ → ℕ → List (ℕ × ℕ)
  | 0, _ => []
  | fuel + 1, n =>
    let i := runStart p l n
    if i < l.length then (i, scan p l i) :: runsFrom l fuel (scan p l i + 1) else []

/-- The maximal runs of `p` in `l`. -/
def runs (l : List α) : List (ℕ × ℕ) := runsFrom p l (l.length + 1) 0

variable {p} {l : List α} {n fuel : ℕ}

/-- The element before `n` does not meet `p`. -/
def Boundary (p : α → Bool) (l : List α) (n : ℕ) : Prop :=
  ∀ k c, k + 1 = n → l[k]? = some c → p c = false

/-- A run can begin behind the end of another. -/
theorem boundary_after_scan {i : ℕ} : Boundary p l (scan p l i + 1) := by
  intro k c hk hc
  obtain rfl := Nat.succ.inj hk
  exact at_scan hc

/-- No run begins before the next element that meets `p`. -/
theorem IsRun.runStart_le {r : ℕ × ℕ} (h : IsRun p l r) (hn : n ≤ r.1) : runStart p l n ≤ r.1 := by
  by_contra hLt
  have hBound : r.1 < l.length := Nat.lt_of_lt_of_le h.lt h.le
  have hSkipped := of_lt_scan hn (Nat.lt_of_not_le hLt) (List.getElem?_eq_getElem hBound)
  rw [h.inside r.1 l[r.1] (Nat.le_refl _) h.lt (List.getElem?_eq_getElem hBound)] at hSkipped
  cases hSkipped

/-- A run has an element. -/
theorem runStart_lt_scan (h : runStart p l n < l.length) :
    runStart p l n < scan p l (runStart p l n) := by
  rcases Nat.lt_or_ge (runStart p l n) (scan p l (runStart p l n)) with hLt | hGe
  · exact hLt
  · -- the first element of the run would not meet `p`
    have hSame : scan p l (runStart p l n) = runStart p l n := Nat.le_antisymm hGe le_scan
    have hc := List.getElem?_eq_getElem h
    have hMeets := at_scan (q := fun c => !p c) hc
    have hStop : l[scan p l (runStart p l n)]? = some l[runStart p l n] := hSame.symm ▸ hc
    rw [at_scan hStop] at hMeets
    cases hMeets

/-- The first run from a place where one can begin. -/
theorem isRun_runStart (hBoundary : Boundary p l n) (h : runStart p l n < l.length) :
    IsRun p l (runStart p l n, scan p l (runStart p l n)) where
  lt := runStart_lt_scan h
  le := scan_le (Nat.le_of_lt h)
  inside _ _ hLe hLt hc := of_lt_scan hLe hLt hc
  before k c hk hc := by
    rcases Nat.lt_or_ge k n with hLt | hGe
    · have hLe : n ≤ runStart p l n := le_scan
      exact hBoundary k c (by omega) hc
    · have hSkipped := of_lt_scan hGe (by omega : k < runStart p l n) hc
      simpa using hSkipped
  after _ hc := at_scan hc

/-- A run that begins with the first one is the first one; the others begin
after the element at which it ends. -/
theorem IsRun.eq_or_after {r : ℕ × ℕ} (h : IsRun p l r) (hn : n ≤ r.1) :
    r = (runStart p l n, scan p l (runStart p l n)) ∨ scan p l (runStart p l n) + 1 ≤ r.1 := by
  have hStart : runStart p l n ≤ r.1 := h.runStart_le hn
  rcases Nat.eq_or_lt_of_le hStart with hEq | hLt
  · left
    have hEnd : scan p l (runStart p l n) = r.2 := by
      rcases Nat.lt_trichotomy (scan p l (runStart p l n)) r.2 with hLt | hSame | hGt
      · have hBound : scan p l (runStart p l n) < l.length := Nat.lt_of_lt_of_le hLt h.le
        have hc := List.getElem?_eq_getElem hBound
        have hLe : r.1 ≤ scan p l (runStart p l n) := hEq ▸ le_scan
        have hInside := h.inside _ _ hLe hLt hc
        rw [at_scan hc] at hInside
        cases hInside
      · exact hSame
      · have hBound : r.2 < l.length := by
          have hLe : scan p l (runStart p l n) ≤ l.length := by
            have hlt := h.lt
            have hle := h.le
            exact scan_le (by omega)
          omega
        have hc := List.getElem?_eq_getElem hBound
        have hPassed := of_lt_scan (hEq ▸ Nat.le_of_lt h.lt) hGt hc
        rw [h.after _ hc] at hPassed
        cases hPassed
    rw [hEnd, hEq]
  · right
    by_contra hNot
    -- the element before the run is one of the first run
    obtain ⟨k, hk⟩ : ∃ k, k + 1 = r.1 := ⟨r.1 - 1, by omega⟩
    have hBound : k < l.length := by
      have hlt := h.lt
      have hle := h.le
      omega
    have hc := List.getElem?_eq_getElem hBound
    have hPassed := of_lt_scan (n := runStart p l n) (q := p) (by omega) (by omega) hc
    rw [h.before k _ hk hc] at hPassed
    cases hPassed

/-- The runs from a place on are found, and nothing else. -/
theorem mem_runsFrom_iff (hBoundary : Boundary p l n) (hFuel : l.length < fuel + n) {r : ℕ × ℕ} :
    r ∈ runsFrom p l fuel n ↔ IsRun p l r ∧ n ≤ r.1 := by
  induction fuel generalizing n with
  | zero =>
    refine iff_of_false (by simp [runsFrom]) ?_
    rintro ⟨hRun, hn⟩
    have hlt := hRun.lt
    have hle := hRun.le
    omega
  | succ fuel ih =>
    rw [runsFrom]
    by_cases hStart : runStart p l n < l.length
    · have hLe : n ≤ runStart p l n := le_scan
      have hLt := runStart_lt_scan hStart
      rw [if_pos hStart, List.mem_cons, ih boundary_after_scan (by omega)]
      constructor
      · rintro (rfl | ⟨hRun, hAfter⟩)
        · exact ⟨isRun_runStart hBoundary hStart, hLe⟩
        · exact ⟨hRun, by omega⟩
      · rintro ⟨hRun, hn⟩
        exact (hRun.eq_or_after hn).imp_right fun hAfter => ⟨hRun, hAfter⟩
    · rw [if_neg hStart]
      refine iff_of_false (by simp) ?_
      rintro ⟨hRun, hn⟩
      have hLe := hRun.runStart_le hn
      have hlt := hRun.lt
      have hle := hRun.le
      omega

theorem boundary_zero : Boundary p l 0 := fun k _ hk => absurd hk (Nat.succ_ne_zero k)

/-- **Just the maximal runs.** -/
theorem mem_runs_iff {r : ℕ × ℕ} : r ∈ runs p l ↔ IsRun p l r := by
  rw [runs, mem_runsFrom_iff boundary_zero (by omega), and_iff_left (Nat.zero_le _)]

/-- Runs are listed in order, with a gap between. -/
theorem runsFrom_ordered : (runsFrom p l fuel n).Pairwise (fun r r' => r.2 < r'.1) ∧
    ∀ r ∈ runsFrom p l fuel n, n ≤ r.1 := by
  induction fuel generalizing n with
  | zero => exact ⟨List.Pairwise.nil, by simp [runsFrom]⟩
  | succ fuel ih =>
    have hStart : n ≤ runStart p l n := le_scan
    have hEnd : runStart p l n ≤ scan p l (runStart p l n) := le_scan
    obtain ⟨hRest, hAfter⟩ := ih (n := scan p l (runStart p l n) + 1)
    rw [runsFrom]
    split
    · refine ⟨List.pairwise_cons.mpr ⟨hAfter, hRest⟩, List.forall_mem_cons.mpr ⟨hStart, ?_⟩⟩
      intro r hr
      have hLe := hAfter r hr
      omega
    · exact ⟨List.Pairwise.nil, by simp⟩

/-- Between two runs there is an element. -/
theorem runs_ordered : (runs p l).Pairwise fun r r' => r.2 < r'.1 := runsFrom_ordered.1

/-- The elements of the first run. -/
theorem piece_runStart : piece l (runStart p l n, scan p l (runStart p l n)) =
    (l.drop (runStart p l n)).takeWhile p := by
  rw [piece, scan, Nat.add_sub_cancel_left]
  exact (List.prefix_iff_eq_take.mp (List.takeWhile_prefix p)).symm

/-- What is passed over before a run is not kept. -/
theorem filter_drop_runStart : (l.drop n).filter p = (l.drop (runStart p l n)).filter p := by
  have hSkipped : ((l.drop n).takeWhile fun c => !p c).filter p = [] := by
    rw [List.filter_eq_nil_iff]
    intro c hc
    simpa using List.mem_takeWhile_imp hc
  rw [runStart, drop_scan]
  nth_rewrite 1 [← List.takeWhile_append_dropWhile (p := fun c => !p c) (l := l.drop n)]
  rw [List.filter_append, hSkipped, List.nil_append]

/-- A run is kept, and the element at which it ends is not. -/
theorem filter_drop_scan {i : ℕ} :
    (l.drop i).filter p = (l.drop i).takeWhile p ++ (l.drop (scan p l i + 1)).filter p := by
  have hKept : ((l.drop i).takeWhile p).filter p = (l.drop i).takeWhile p :=
    List.filter_eq_self.mpr fun c hc => List.mem_takeWhile_imp hc
  have hEnd : (l.drop (scan p l i)).filter p = (l.drop (scan p l i + 1)).filter p := by
    rcases Nat.lt_or_ge (scan p l i) l.length with hLt | hGe
    · have hNot : p l[scan p l i] = false := at_scan (List.getElem?_eq_getElem hLt)
      rw [List.drop_eq_getElem_cons hLt, List.filter_cons_of_neg (by simp [hNot])]
    · rw [List.drop_eq_nil_of_le hGe, List.drop_eq_nil_of_le (by omega)]
  nth_rewrite 1 [← List.takeWhile_append_dropWhile (p := p) (l := l.drop i)]
  rw [List.filter_append, hKept, ← drop_scan, hEnd]

/-- Together the pieces are what the test holds of. -/
theorem flatMap_piece_runsFrom (hFuel : l.length < fuel + n) :
    (runsFrom p l fuel n).flatMap (piece l) = (l.drop n).filter p := by
  induction fuel generalizing n with
  | zero =>
    rw [runsFrom, List.drop_eq_nil_of_le (by omega)]
    rfl
  | succ fuel ih =>
    have hStart : n ≤ runStart p l n := le_scan
    rw [runsFrom, filter_drop_runStart]
    by_cases hLt : runStart p l n < l.length
    · have hEnd := runStart_lt_scan hLt
      rw [if_pos hLt, List.flatMap_cons, ih (by omega), piece_runStart, ← filter_drop_scan]
    · rw [if_neg hLt, List.drop_eq_nil_of_le (Nat.le_of_not_lt hLt)]
      rfl

/-- The runs hold the elements that meet `p`, in order. -/
theorem flatMap_piece_runs : (runs p l).flatMap (piece l) = l.filter p := by
  rw [runs, flatMap_piece_runsFrom (by omega), List.drop_zero]

/-- The test holds of every element of a piece. -/
theorem mem_piece {r : ℕ × ℕ} {c : α} (h : IsRun p l r) (hc : c ∈ piece l r) : p c = true := by
  obtain ⟨k, hk⟩ := List.mem_iff_getElem?.mp hc
  rw [piece, List.getElem?_take] at hk
  split at hk
  · rw [List.getElem?_drop] at hk
    exact h.inside _ c (Nat.le_add_right _ _) (by omega) hk
  · cases hk

theorem length_piece {r : ℕ × ℕ} (h : IsRun p l r) : (piece l r).length = r.2 - r.1 := by
  have hle := h.le
  rw [piece, List.length_take, List.length_drop]
  omega

/-- There is no run just when the test holds of nothing. -/
theorem runs_eq_nil_iff : runs p l = [] ↔ ∀ c ∈ l, p c = false := by
  have hKeep : l.filter p = [] ↔ ∀ c ∈ l, p c = false := by
    simp [List.filter_eq_nil_iff]
  rw [← hKeep, ← flatMap_piece_runs, List.flatMap_eq_nil_iff]
  constructor
  · intro hNil r hr
    rw [hNil] at hr
    cases hr
  · intro hPieces
    refine List.eq_nil_iff_forall_not_mem.mpr fun r hr => ?_
    have hRun := mem_runs_iff.mp hr
    have hLength := length_piece hRun
    rw [hPieces r hr] at hLength
    have hlt := hRun.lt
    simp only [List.length_nil] at hLength
    omega

end Runs
