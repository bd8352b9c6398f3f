import PushStreamer.Lib.Runs
import PushStreamer.Model.Text

/-!
# The tokenizer on its buffer

`split` copies its text into a buffer and calls `strtok` on it until there is no
token left. `strtok` keeps a position between its calls and writes a zero at the
end of each token.

* `splitInPlace_eq` — with the buffer and the position, `split` returns the
  tokens that `strtok` finds in the text from left to right.
* `strtok_eq_runs` — these are the maximal runs of characters that end no token.
* `split_maximal_runs` — the two together.
-/

namespace PushStreamer

-- ---------------------------------------------------------------------------
-- The buffer
-- ---------------------------------------------------------------------------

/-- What `strtok` keeps between its calls: the buffer, with the zeros of earlier
calls, and where the next call goes on. -/
structure Strtok where
  buffer : List Char
  next : ℕ

namespace Strtok

/-- One call of `strtok`: where the token begins, if there is one. -/
def call (delim : List Char) (s : Strtok) : Option ℕ × Strtok :=
  let start := Runs.scan (fun c => decide (c ∈ delim)) s.buffer s.next
  if s.buffer.getD start '\x00' = '\x00' then (none, { s with next := start })
  else
    let stop := Runs.scan (fun c => decide (c ∉ delim ∧ c ≠ '\x00')) s.buffer start
    if s.buffer.getD stop '\x00' = '\x00' then (some start, { s with next := stop })
    else (some start, { buffer := s.buffer.set stop '\x00', next := stop + 1 })

end Strtok

/-- The loop of `split`, for at most `fuel` calls of `strtok`. `res` are the
tokens so far. -/
def splitLoop (delim : List Char) : ℕ → List (List Char) → Strtok → Option (List (List Char))
  | 0, _, _ => none
  | fuel + 1, res, s =>
    match s.call delim with
    | (none, _) => some res
    | (some p, s) => splitLoop delim fuel (res ++ [cString (s.buffer.drop p)]) s

/-- `split` on its buffer, for at most `fuel` calls of `strtok`. -/
def splitInPlace (fuel : ℕ) (str delim : String) : Option (List String) :=
  if str = "" then some []
  else (splitLoop (cString delim.toList) fuel [] ⟨cString str.toList ++ ['\x00'], 0⟩).map
    fun res => res.map String.ofList

-- ---------------------------------------------------------------------------
-- What one call finds
-- ---------------------------------------------------------------------------

section

variable {delim sep cs tail rest : List Char}

/-- What is left of a text: characters that end tokens, one token, or a token and
more. -/
theorem next_token (delim rest : List Char) :
    (∀ c ∈ rest, c ∈ delim) ∨ ∃ sep cs tail, rest = sep ++ (cs ++ tail) ∧
      (∀ c ∈ sep, c ∈ delim) ∧ cs ≠ [] ∧ (∀ c ∈ cs, c ∉ delim) ∧
        (tail = [] ∨ ∃ d tail', tail = d :: tail' ∧ d ∈ delim) := by
  have hSep : ∀ c ∈ rest.takeWhile (fun c => decide (c ∈ delim)), c ∈ delim := fun c hc =>
    of_decide_eq_true (List.mem_takeWhile_imp (p := fun c => decide (c ∈ delim)) hc)
  have hSplit := List.takeWhile_append_dropWhile (p := fun c => decide (c ∈ delim)) (l := rest)
  have hHead := List.head?_dropWhile_not (fun c => decide (c ∈ delim)) rest
  cases hTail : rest.dropWhile (fun c => decide (c ∈ delim)) with
  | nil =>
    rw [hTail, List.append_nil] at hSplit
    exact Or.inl (hSplit ▸ hSep)
  | cons c tl =>
    rw [hTail] at hSplit hHead
    have hc : c ∉ delim := of_decide_eq_false hHead
    have hToken : ∀ x ∈ (c :: tl).takeWhile (fun c => decide (c ∉ delim)), x ∉ delim :=
      fun x hx =>
        of_decide_eq_true (List.mem_takeWhile_imp (p := fun c => decide (c ∉ delim)) hx)
    have hRest := List.takeWhile_append_dropWhile (p := fun c => decide (c ∉ delim)) (l := c :: tl)
    have hEnd := List.head?_dropWhile_not (fun c => decide (c ∉ delim)) (c :: tl)
    refine Or.inr ⟨_, _, (c :: tl).dropWhile fun c => decide (c ∉ delim), ?_, hSep, ?_, hToken, ?_⟩
    · rw [hRest, hSplit]
    · simp [hc]
    · cases hAfter : (c :: tl).dropWhile fun c => decide (c ∉ delim) with
      | nil => exact Or.inl rfl
      | cons d tail' =>
        rw [hAfter] at hEnd
        exact Or.inr ⟨d, tail', rfl, by simpa using hEnd⟩

/-- The character at a position begins what stands from there on. -/
theorem getD_of_drop {buffer : List Char} {k : ℕ} {c : Char} (h : buffer.drop k = c :: rest) :
    buffer.getD k '\x00' = c := by
  rw [List.getD_eq_getElem?_getD, ← List.head?_drop, h]
  rfl

/-- Where nothing but characters that end tokens is left, there is no token. -/
theorem call_none {s : Strtok} (hZero : '\x00' ∉ delim)
    (hBuffer : s.buffer.drop s.next = sep ++ ['\x00']) (hSep : ∀ c ∈ sep, c ∈ delim) :
    (s.call delim).1 = none := by
  have hStart : s.buffer.drop (Runs.scan (fun c => decide (c ∈ delim)) s.buffer s.next) =
      ['\x00'] := by
    rw [Runs.drop_scan, hBuffer,
      List.dropWhile_append_of_pos fun c hc => decide_eq_true (hSep c hc),
      List.dropWhile_cons_of_neg (by simpa using hZero)]
  rw [Strtok.call, if_pos (getD_of_drop hStart)]

/-- The token ends where the characters that end tokens, or the text, begin. -/
theorem dropWhile_token {x : Char} (rest : List Char) (hCs : ∀ c ∈ cs, c ∉ delim ∧ c ≠ '\x00')
    (hx : x ∈ delim ∨ x = '\x00') :
    (cs ++ x :: rest).takeWhile (fun c => decide (c ∉ delim ∧ c ≠ '\x00')) = cs ∧
      (cs ++ x :: rest).dropWhile (fun c => decide (c ∉ delim ∧ c ≠ '\x00')) = x :: rest := by
  have hAll : ∀ c ∈ cs, decide (c ∉ delim ∧ c ≠ '\x00') = true := fun c hc =>
    decide_eq_true (hCs c hc)
  have hStop : decide (x ∉ delim ∧ x ≠ '\x00') = false := by
    rw [decide_eq_false_iff_not]
    rintro ⟨hNot, hNe⟩
    exact hx.elim hNot hNe
  rw [List.takeWhile_append_of_pos hAll, List.dropWhile_append_of_pos hAll, List.takeWhile_cons,
    List.dropWhile_cons, hStop]
  exact ⟨List.append_nil cs, rfl⟩

/-- A token is read up to the zero that ends it. -/
theorem cString_append_zero (hCs : ∀ c ∈ cs, c ≠ '\x00') :
    cString (cs ++ '\x00' :: rest) = cs := by
  rw [cString, List.takeWhile_append_of_pos fun c hc => decide_eq_true (hCs c hc),
    List.takeWhile_cons_of_neg (by simp), List.append_nil]

/-- A call finds the next token, and the next one goes on after what ends it. -/
theorem call_token {s : Strtok} (hZero : '\x00' ∉ delim)
    (hBuffer : s.buffer.drop s.next = sep ++ (cs ++ (tail ++ ['\x00'])))
    (hSep : ∀ c ∈ sep, c ∈ delim) (hNe : cs ≠ []) (hCs : ∀ c ∈ cs, c ∉ delim ∧ c ≠ '\x00')
    (hTail : tail = [] ∨ ∃ d tail', tail = d :: tail' ∧ d ∈ delim) :
    ∃ start s', s.call delim = (some start, s') ∧ cString (s'.buffer.drop start) = cs ∧
      s'.buffer.drop s'.next = tail.tail ++ ['\x00'] := by
  obtain ⟨c, cs', rfl⟩ := List.exists_cons_of_ne_nil hNe
  obtain ⟨hc, hcNe⟩ := hCs c List.mem_cons_self
  -- the characters in front are passed over, and a token is found
  have hStart : s.buffer.drop (Runs.scan (fun c => decide (c ∈ delim)) s.buffer s.next) =
      c :: (cs' ++ (tail ++ ['\x00'])) := by
    rw [Runs.drop_scan, hBuffer,
      List.dropWhile_append_of_pos fun c hc => decide_eq_true (hSep c hc), List.cons_append,
      List.dropWhile_cons_of_neg (by simpa using hc)]
  have hFirst : s.buffer.getD (Runs.scan (fun c => decide (c ∈ delim)) s.buffer s.next) '\x00' ≠
      '\x00' := by
    rw [getD_of_drop hStart]
    exact hcNe
  rw [Strtok.call, if_neg hFirst]
  generalize Runs.scan (fun c => decide (c ∈ delim)) s.buffer s.next = start at hStart
  rw [← List.cons_append] at hStart
  -- the text ends with the token, or a character that delimits follows it
  rcases hTail with rfl | ⟨d, tail', rfl, hd⟩
  · obtain ⟨-, hDrop⟩ := dropWhile_token [] hCs (Or.inr rfl)
    have hStop : s.buffer.drop (Runs.scan (fun c => decide (c ∉ delim ∧ c ≠ '\x00')) s.buffer
        start) = ['\x00'] := by
      rw [Runs.drop_scan, hStart, List.nil_append, hDrop]
    rw [if_pos (getD_of_drop hStop)]
    refine ⟨start, _, rfl, ?_, hStop⟩
    rw [hStart]
    exact cString_append_zero fun x hx => (hCs x hx).2
  · change s.buffer.drop start = c :: cs' ++ d :: (tail' ++ ['\x00']) at hStart
    obtain ⟨hTake, hDrop⟩ := dropWhile_token (tail' ++ ['\x00']) hCs (Or.inl hd)
    have hStop : s.buffer.drop (Runs.scan (fun c => decide (c ∉ delim ∧ c ≠ '\x00')) s.buffer
        start) = d :: (tail' ++ ['\x00']) := by
      rw [Runs.drop_scan, hStart, hDrop]
    have hLength : Runs.scan (fun c => decide (c ∉ delim ∧ c ≠ '\x00')) s.buffer start =
        start + (c :: cs').length := by
      rw [Runs.scan, hStart, hTake]
    have hdNe : d ≠ '\x00' := by
      rintro rfl
      exact hZero hd
    rw [if_neg (by rw [getD_of_drop hStop]; exact hdNe)]
    refine ⟨start, _, rfl, ?_, ?_⟩
    · -- the zero is written right after the token
      show cString ((s.buffer.set _ '\x00').drop start) = c :: cs'
      rw [hLength, List.drop_set, if_neg (by omega), hStart, Nat.add_sub_cancel_left,
        List.set_append_right _ _ (Nat.le_refl _), Nat.sub_self]
      exact cString_append_zero fun x hx => (hCs x hx).2
    · show (s.buffer.set _ '\x00').drop (_ + 1) = tail' ++ ['\x00']
      rw [List.drop_set_of_lt (Nat.lt_add_one _), ← List.drop_drop, hStop]
      rfl

/-- The same token is the next one of the text. -/
theorem strtok_token (hSep : ∀ c ∈ sep, c ∈ delim) (hNe : cs ≠ []) (hCs : ∀ c ∈ cs, c ∉ delim)
    (hTail : tail = [] ∨ ∃ d tail', tail = d :: tail' ∧ d ∈ delim) :
    strtok delim [] (sep ++ (cs ++ tail)) = cs :: strtok delim [] tail.tail := by
  rw [strtok_skip hSep]
  rcases hTail with rfl | ⟨d, tail', rfl, hd⟩
  · rw [List.append_nil, strtok_last hNe hCs]
    rfl
  · have hOne : ∀ c ∈ [d], c ∈ delim := by simpa using hd
    have hField : strtok delim [] (cs ++ ([d] ++ tail')) = cs :: strtok delim [] tail' :=
      strtok_field hNe hCs (List.cons_ne_nil _ _) hOne
    exact hField

/-- **The loop of `split`** finds what is left of the text. The induction is on
the calls; what is not yet scanned of the buffer is what is left. -/
theorem splitLoop_eq (hZero : '\x00' ∉ delim) {fuel : ℕ} {res : List (List Char)} {s : Strtok}
    (hRest : '\x00' ∉ rest) (hBuffer : s.buffer.drop s.next = rest ++ ['\x00'])
    (hFuel : rest.length < fuel) :
    splitLoop delim fuel res s = some (res ++ strtok delim [] rest) := by
  induction fuel generalizing rest res s with
  | zero => exact absurd hFuel (Nat.not_lt_zero _)
  | succ fuel ih =>
    rw [splitLoop]
    -- either nothing is left but delimiters, or one more token
    rcases next_token delim rest with hAll | ⟨sep, cs, tail, rfl, hSep, hNe, hCs, hTail⟩
    · have hCall : s.call delim = (none, (s.call delim).2) :=
        Prod.ext (call_none hZero hBuffer hAll) rfl
      rw [hCall, strtok_eq_nil.mpr hAll, List.append_nil]
    · have hPlain : ∀ c ∈ cs, c ∉ delim ∧ c ≠ '\x00' := by
        intro c hc
        refine ⟨hCs c hc, ?_⟩
        rintro rfl
        exact hRest (by simp [hc])
      rw [List.append_assoc, List.append_assoc] at hBuffer
      obtain ⟨start, s', hCall, hText, hNext⟩ := call_token hZero hBuffer hSep hNe hPlain hTail
      -- what is left is shorter, so that the fuel is enough
      have hShorter : tail.tail.length < fuel := by
        have hPos := List.length_pos_of_ne_nil hNe
        rw [List.length_append, List.length_append] at hFuel
        rw [List.length_tail]
        omega
      have hLeft : '\x00' ∉ tail.tail := fun hMem => hRest (by simp [List.mem_of_mem_tail hMem])
      rw [hCall]
      show splitLoop delim fuel (res ++ [cString (s'.buffer.drop start)]) s' = _
      rw [hText, ih hLeft hNext hShorter, strtok_token hSep hNe hCs hTail, List.append_assoc]
      rfl

end

-- ---------------------------------------------------------------------------
-- The maximal runs
-- ---------------------------------------------------------------------------

/-- The character ends no token. -/
def endsNoToken (delim : List Char) (c : Char) : Bool := decide (c ∉ delim)

section

variable {delim l : List Char}

theorem strtok_drop_eq_runs {n fuel : ℕ} (hFuel : l.length < fuel + n) :
    strtok delim [] (l.drop n) =
      (Runs.runsFrom (endsNoToken delim) l fuel n).map (Runs.piece l) := by
  induction fuel generalizing n with
  | zero =>
    rw [List.drop_eq_nil_of_le (by omega)]
    rfl
  | succ fuel ih =>
    have hSkip : l.drop n = (l.drop n).takeWhile (fun c => !endsNoToken delim c) ++
        l.drop (Runs.runStart (endsNoToken delim) l n) := by
      rw [Runs.runStart, Runs.drop_scan, List.takeWhile_append_dropWhile]
    have hSep : ∀ c ∈ (l.drop n).takeWhile (fun c => !endsNoToken delim c), c ∈ delim := by
      intro c hc
      simpa [endsNoToken] using List.mem_takeWhile_imp hc
    rw [Runs.runsFrom]
    -- another run begins in what is left, or the rest is delimiters
    by_cases hLt : Runs.runStart (endsNoToken delim) l n < l.length
    · generalize hStart : Runs.runStart (endsNoToken delim) l n = i at hSkip hLt
      have hToken : l.drop i = (l.drop i).takeWhile (endsNoToken delim) ++
          l.drop (Runs.scan (endsNoToken delim) l i) := by
        rw [Runs.drop_scan, List.takeWhile_append_dropWhile]
      have hCs : ∀ c ∈ (l.drop i).takeWhile (endsNoToken delim), c ∉ delim := fun c hc =>
        of_decide_eq_true (List.mem_takeWhile_imp (p := endsNoToken delim) hc)
      have hNe : (l.drop i).takeWhile (endsNoToken delim) ≠ [] := by
        intro hNil
        have hPos := Runs.runStart_lt_scan (p := endsNoToken delim) (n := n) (hStart ▸ hLt)
        rw [hStart, Runs.scan, hNil] at hPos
        exact absurd hPos (Nat.lt_irrefl i)
      have hTail : l.drop (Runs.scan (endsNoToken delim) l i) = [] ∨ ∃ d tail',
          l.drop (Runs.scan (endsNoToken delim) l i) = d :: tail' ∧ d ∈ delim := by
        cases hRest : l.drop (Runs.scan (endsNoToken delim) l i) with
        | nil => exact Or.inl rfl
        | cons d tail' =>
          refine Or.inr ⟨d, tail', rfl, ?_⟩
          have hEnd : l[Runs.scan (endsNoToken delim) l i]? = some d := by
            rw [← List.head?_drop, hRest]
            rfl
          simpa [endsNoToken] using Runs.at_scan hEnd
      have hLater : n ≤ i := hStart ▸ Runs.le_scan
      have hEnd : i ≤ Runs.scan (endsNoToken delim) l i := Runs.le_scan
      rw [if_pos hLt, hSkip, hToken, strtok_token hSep hNe hCs hTail, List.tail_drop,
        ih (by omega), List.map_cons, ← hStart, Runs.piece_runStart]
    · rw [if_neg hLt, hSkip, List.drop_eq_nil_of_le (Nat.le_of_not_lt hLt), List.append_nil]
      exact strtok_eq_nil.mpr hSep

/-- The tokens are the maximal runs of characters that end none. -/
theorem strtok_eq_runs :
    strtok delim [] l = (Runs.runs (endsNoToken delim) l).map (Runs.piece l) :=
  strtok_drop_eq_runs (n := 0) (Nat.lt_succ_self _)

end

-- ---------------------------------------------------------------------------
-- split
-- ---------------------------------------------------------------------------

section

variable {str delim : String}

theorem zero_not_mem_cString (cs : List Char) : '\x00' ∉ cString cs := fun hMem =>
  of_decide_eq_true (List.mem_takeWhile_imp (p := fun c => decide (c ≠ '\x00')) hMem) rfl

/-- **On its buffer** `split` finds the same tokens. Each call finds one, so there
are no more calls than characters, and one that finds none. -/
theorem splitInPlace_eq {fuel : ℕ} (hFuel : str.length < fuel) :
    splitInPlace fuel str delim = some (split str delim) := by
  rw [splitInPlace]
  split
  case isTrue hEmpty =>
    rw [hEmpty]
    rfl
  case isFalse hNe =>
    have hPrefix : cString str.toList <+: str.toList := List.takeWhile_prefix _
    have hShort : (cString str.toList).length < fuel :=
      Nat.lt_of_le_of_lt hPrefix.length_le (by rwa [String.length_toList])
    have hLoop : splitLoop (cString delim.toList) fuel [] ⟨cString str.toList ++ ['\x00'], 0⟩ =
        some ([] ++ strtok (cString delim.toList) [] (cString str.toList)) :=
      splitLoop_eq (zero_not_mem_cString delim.toList) (zero_not_mem_cString str.toList) rfl hShort
    rw [hLoop]
    rfl

theorem split_eq_runs (hStr : '\x00' ∉ str.toList) (hDelim : '\x00' ∉ delim.toList) :
    split str delim = ((Runs.runs (endsNoToken delim.toList) str.toList).map
      (Runs.piece str.toList)).map String.ofList := by
  have hSame : ∀ {text : String}, '\x00' ∉ text.toList → cString text.toList = text.toList :=
    fun h => cString_eq fun c hc hZero => h (hZero ▸ hc)
  rw [split, hSame hStr, hSame hDelim, strtok_eq_runs]

/-- **The tokenizer is exact.** In texts without zero characters, `split` returns
on its buffer the maximal runs of characters that `delim` does not have, from
left to right. So every token has a character and none of `delim`, together they
are the text without the characters of `delim`, and there are none when nothing
else is in the text. -/
theorem split_maximal_runs (hStr : '\x00' ∉ str.toList) (hDelim : '\x00' ∉ delim.toList) :
    (∀ fuel, str.length < fuel → splitInPlace fuel str delim = some (split str delim)) ∧
    (∃ rs : List (ℕ × ℕ), rs.Pairwise (fun r r' => r.2 < r'.1) ∧
      (∀ r, r ∈ rs ↔ Runs.IsRun (endsNoToken delim.toList) str.toList r) ∧
      split str delim = rs.map fun r => String.ofList (Runs.piece str.toList r)) ∧
    (∀ token ∈ split str delim, token ≠ "" ∧ ∀ c ∈ token.toList, c ∉ delim.toList) ∧
    (String.join (split str delim)).toList = str.toList.filter (endsNoToken delim.toList) ∧
    (split str delim = [] ↔ ∀ c ∈ str.toList, c ∈ delim.toList) := by
  have hRuns := split_eq_runs hStr hDelim
  -- the runs themselves are the cut of the text
  refine ⟨fun fuel hFuel => splitInPlace_eq hFuel, ⟨_, Runs.runs_ordered,
    fun r => Runs.mem_runs_iff, by rw [hRuns, List.map_map]; rfl⟩, ?_, ?_, ?_⟩
  · intro token hToken
    rw [hRuns, List.map_map] at hToken
    obtain ⟨r, hr, rfl⟩ := List.mem_map.mp hToken
    have hRun := Runs.mem_runs_iff.mp hr
    constructor
    · intro hEmpty
      have hLength := Runs.length_piece hRun
      have hlt := hRun.lt
      have hNil : Runs.piece str.toList r = [] := String.ofList_eq_empty_iff.mp hEmpty
      rw [hNil, List.length_nil] at hLength
      omega
    · intro c hc
      have hMeets : endsNoToken delim.toList c = true :=
        Runs.mem_piece hRun (by simpa using hc)
      exact of_decide_eq_true hMeets
  · rw [hRuns, String.toList_join, ← Runs.flatMap_piece_runs, List.map_map, List.flatMap_map]
    simp
  · rw [hRuns, List.map_eq_nil_iff, List.map_eq_nil_iff, Runs.runs_eq_nil_iff]
    simp [endsNoToken]

end

/-- Leading, trailing and repeated delimiters, and two of them. -/
theorem split_maximal_runs_path :
    splitInPlace 12 "&&a|b&c|" "&|" = some (split "&&a|b&c|" "&|") ∧
    split "&&a|b&c|" "&|" = ["a", "b", "c"] ∧
    (String.join (split "&&a|b&c|" "&|")).toList =
      "&&a|b&c|".toList.filter (endsNoToken "&|".toList) := by
  have hStr : '\x00' ∉ "&&a|b&c|".toList := by decide
  have hDelim : '\x00' ∉ "&|".toList := by decide
  have hExact := split_maximal_runs hStr hDelim
  exact ⟨hExact.1 12 (by decide), by decide, hExact.2.2.2.1⟩

end PushStreamer
