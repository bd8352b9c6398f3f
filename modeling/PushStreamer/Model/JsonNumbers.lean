import Mathlib.Algebra.Order.Floor.Ring
import Mathlib.Tactic.Positivity
import Mathlib.Tactic.NormNum
import PushStreamer.Model.JsonReader
import PushStreamer.Model.JsonWriter

/-!
# Numbers in JSON

The texts that `Json::FastWriter` writes of numbers, and what `Json::Reader`
makes of them.

* `length_doubleToString` — the text of a `double` fits the buffer of the
  reader.
* `decodeNumber_integer` — a whole number comes back, but for those near the
  ends of the range, which come back as `double`.
-/

namespace PushStreamer

namespace Reader

open FastWriter Results

/-- The finite values of `double`. -/
def IsDouble (q : ℚ) : Prop :=
  ∃ m e : ℤ, |m| < 2 ^ 53 ∧ -1074 ≤ e ∧ e ≤ 971 ∧ q = m * 2 ^ e

/-- `sscanf` reads the whole numbers of 32 bits exactly. -/
def ScansIntegers (scan : List Char → Option ℚ) : Prop :=
  ∀ n : ℤ, |n| ≤ 2 ^ 32 → scan (toString n : String).toList = some (n : ℚ)

/-- A `double`, and `sscanf` reads the text that is written of it. The largest
ones are written with sixteen digits that are too large to be read. -/
def Rereadable (scan : List Char → Option ℚ) (q : ℚ) : Prop :=
  IsDouble q ∧ (scan (doubleToString q)).isSome

-- ---------------------------------------------------------------------------
-- The token of a number
-- ---------------------------------------------------------------------------

/-- Characters that `readNumber` takes. -/
def AllNumeric (cs : List Char) : Prop := ∀ c ∈ cs, isNumberChar c = true

/-- A text that is read as one number. -/
structure Numeral (text : List Char) : Prop where
  first : ∃ c, text.head? = some c ∧ (c.isDigit ∨ c = '-')
  all : AllNumeric text

/-- What follows is no part of a number. -/
def Delimited (rest : List Char) : Prop := ∀ c, rest.head? = some c → isNumberChar c = false

section

variable {cs ds text rest current : List Char} {c : Char}

theorem isNumberChar_of_isDigit (h : c.isDigit = true) : isNumberChar c = true := by
  rw [isNumberChar, h, Bool.true_or]

/-- A number is read up to the first character that no number has. -/
theorem readNumber_append (h : AllNumeric cs) (hRest : Delimited rest) :
    readNumber (cs ++ rest) = rest := by
  unfold readNumber
  rw [List.dropWhile_append_of_pos h]
  cases rest with
  | nil => rfl
  | cons c rest =>
    rw [List.dropWhile_cons, hRest c rfl, if_neg Bool.false_ne_true]

/-- A digit or a minus begins a number. -/
theorem tokenAt_of_first (h : c.isDigit ∨ c = '-') :
    tokenAt c current = (.tokenNumber, readNumber current) := by
  have hNe : ∀ d : Char, d.isDigit = false → d ≠ '-' → c ≠ d := by
    rintro d hDigit hSign rfl
    rcases h with hIs | hIs
    · rw [hDigit] at hIs
      cases hIs
    · exact hSign hIs
  unfold tokenAt
  rw [if_neg (hNe '{' (by decide) (by decide)), if_neg (hNe '}' (by decide) (by decide)),
    if_neg (hNe '[' (by decide) (by decide)), if_neg (hNe ']' (by decide) (by decide)),
    if_neg (hNe '"' (by decide) (by decide)), if_neg (hNe '/' (by decide) (by decide)), if_pos h]

theorem isBlank_of_first (h : c.isDigit ∨ c = '-') : isBlank c = false := by
  rcases h with hDigit | rfl
  · have hNe : ∀ d : Char, d.isDigit = false → c ≠ d := by
      rintro d hD rfl
      rw [hD] at hDigit
      cases hDigit
    simp only [isBlank, hNe ' ' (by decide), hNe '\t' (by decide), hNe '\r' (by decide),
      hNe '\n' (by decide), decide_false, Bool.or_self]
  · decide

/-- A character that is not skipped starts the token. -/
theorem readToken_cons (h : isBlank c = false) :
    readToken (c :: current) = ⟨(tokenAt c current).1, c :: current, (tokenAt c current).2⟩ := by
  have hSkip : skipSpaces (c :: current) = c :: current := by
    unfold skipSpaces
    rw [List.dropWhile_cons, h, if_neg Bool.false_ne_true]
  unfold readToken
  rw [hSkip]

/-- The token of a number that stands in a text. -/
theorem readToken_numeral (h : Numeral text) (hRest : Delimited rest) :
    readToken (text ++ rest) = ⟨.tokenNumber, text ++ rest, rest⟩ := by
  obtain ⟨c, hHead, hFirst⟩ := h.first
  obtain ⟨cs, rfl⟩ : ∃ cs, text = c :: cs := List.head?_eq_some_iff.mp hHead
  have hAll : AllNumeric cs := (List.forall_mem_cons.mp h.all).2
  rw [List.cons_append, readToken_cons (isBlank_of_first hFirst), tokenAt_of_first hFirst,
    readNumber_append hAll hRest]

theorem delimited_cons (h : isNumberChar c = false) (rest : List Char) :
    Delimited (c :: rest) := by
  intro d hD
  exact Option.some.inj hD ▸ h

/-- A number is what `decodeNumber` makes of it. -/
theorem readValue_numeral (scan : List Char → Option ℚ) (h : Numeral text)
    (hRest : Delimited rest) (fuel : ℕ) :
    readValue scan (fuel + 1) (text ++ rest) =
      (decodeNumber scan ⟨.tokenNumber, text ++ rest, rest⟩).map fun x => (x, rest) := by
  rw [readValue, skipCommentTokens_eq (readToken_numeral h hRest) (by simp), ok_bind]
  dsimp only
  cases decodeNumber scan ⟨.tokenNumber, text ++ rest, rest⟩ with
  | error e => rfl
  | ok x => rfl

end

-- ---------------------------------------------------------------------------
-- Whole numbers
-- ---------------------------------------------------------------------------

/-- The digits of a number that fits, the last of them aside. -/
theorem decodeInteger_concat {token : Token} {limit value : ℕ} {ds : List Char} {c : Char}
    (hC : c.isDigit = true) :
    decodeInteger token limit value (ds ++ [c]) = (do
      match ← decodeInteger token limit value ds with
      | none => pure none
      | some n => pure (if limit ≤ n then none else some (n * 10 + (c.toNat - '0'.toNat)))) := by
  induction ds generalizing value with
  | nil =>
    rw [List.nil_append, decodeInteger, decodeInteger, if_neg (not_not.mpr hC), ok_bind]
    dsimp only
    split
    · rfl
    · rw [decodeInteger]
      rfl
  | cons d ds ih =>
    rw [List.cons_append, decodeInteger, decodeInteger]
    split
    · rfl
    split
    · rfl
    · exact ih

/-- The digits of a number behind its sign. -/
def unsigned (text : List Char) : List Char := if text.head? = some '-' then text.tail else text

/-- `decodeNumber` leaves the number to `decodeDouble`. -/
def LeftForDouble (text : List Char) : Prop :=
  isDouble text = true ∨
    threshold (text.head? = some '-') ≤ Nat.ofDigitChars 10 (unsigned text).dropLast 0

/-- The loop stops at the first digit for which there is no room. -/
theorem decodeInteger_digits {token : Token} {limit : ℕ} (hLimit : 0 < limit) {ds : List Char}
    (hDigits : ∀ c ∈ ds, c.isDigit = true) :
    decodeInteger token limit 0 ds =
      .ok (if limit ≤ Nat.ofDigitChars 10 ds.dropLast 0 then none
        else some (Nat.ofDigitChars 10 ds 0)) := by
  induction ds using List.reverseRecOn with
  | nil => rw [decodeInteger, List.dropLast_nil, Nat.ofDigitChars_nil, if_neg (by omega)]
  | append_singleton ds c ih =>
    obtain ⟨hDs, hC⟩ := List.forall_mem_append.mp hDigits
    rw [decodeInteger_concat (hC c (List.mem_singleton_self c)), ih hDs, ok_bind,
      List.dropLast_concat]
    by_cases hFull : limit ≤ Nat.ofDigitChars 10 ds.dropLast 0
    · -- there was no room for the last digit but one
      have hMore : Nat.ofDigitChars 10 ds.dropLast 0 ≤ Nat.ofDigitChars 10 ds 0 := by
        cases ds using List.reverseRecOn with
        | nil => exact Nat.le_refl _
        | append_singleton ds d =>
          rw [List.dropLast_concat, Nat.ofDigitChars_append, Nat.ofDigitChars_cons,
            Nat.ofDigitChars_nil]
          omega
      rw [if_pos hFull, if_pos (Nat.le_trans hFull hMore)]
      rfl
    · rw [if_neg hFull]
      dsimp only
      rw [Nat.ofDigitChars_append, Nat.ofDigitChars_cons, Nat.ofDigitChars_nil, Nat.mul_comm 10]
      rfl

/-- **The digits of a number** that is less than ten times the limit. -/
theorem decodeInteger_toDigits {token : Token} {limit : ℕ} (hLimit : 0 < limit) (n : ℕ) :
    decodeInteger token limit 0 (Nat.toDigits 10 n) =
      .ok (if n < limit * 10 then some n else none) := by
  have hTenth : Nat.ofDigitChars 10 (Nat.toDigits 10 n).dropLast 0 = n / 10 := by
    by_cases hSmall : n < 10
    · rw [Nat.toDigits_of_lt_base hSmall, Nat.div_eq_of_lt hSmall]
      rfl
    · rw [Nat.toDigits_of_base_le (by decide) (Nat.not_lt.mp hSmall), List.dropLast_concat,
        Nat.ofDigitChars_ten_toDigits]
  rw [decodeInteger_digits hLimit fun _ => isDigit_of_mem_decimal, hTenth,
    Nat.ofDigitChars_ten_toDigits]
  by_cases hLess : n < limit * 10
  · rw [if_pos hLess, if_neg (by omega)]
  · rw [if_neg hLess, if_pos (by omega)]

/-- What a whole number is read back as: `decodeDouble` reads those that the
reader does not count up to. -/
def rereadNumber (n : ℤ) : Value :=
  if n < -2147483639 ∨ 4294967289 < n then .real n
  else if n ≤ intMax then .int n
  else .uint n.toNat

section

variable {n : ℤ}

/-- What is written for an integer is a number text. -/
theorem numeral_toString : Numeral (toString n : String).toList := by
  have hMem : ∀ c ∈ (toString n : String).toList, c.isDigit ∨ c = '-' := fun c h =>
    (mem_toString h).symm
  constructor
  · obtain ⟨c, cs, hText⟩ := List.exists_cons_of_ne_nil (toString_toList_ne_nil n)
    exact ⟨c, by rw [hText]; rfl, hMem c (by rw [hText]; exact List.mem_cons_self)⟩
  · intro c h
    rcases hMem c h with hDigit | rfl
    · exact isNumberChar_of_isDigit hDigit
    · decide

/-- An integer is written without a point. -/
theorem not_isDouble_toString : isDouble (toString n : String).toList = false := by
  have hDigits : ∀ m : ℕ, ∀ c ∈ Nat.toDigits 10 m, ∀ d : Char, d.isDigit = false → c ≠ d := by
    rintro m c hC d hD rfl
    rw [isDigit_of_mem_decimal hC] at hD
    cases hD
  have hTail : ∀ c ∈ (toString n : String).toList.tail, c ≠ '-' := by
    rw [toList_toString]
    split
    · exact fun c hC => hDigits _ c (List.mem_of_mem_tail hC) '-' (by decide)
    · exact fun c hC => hDigits _ c hC '-' (by decide)
  have hAny : ∀ c ∈ (toString n : String).toList, c ∉ ['.', 'e', 'E', '+'] := by
    intro c hC hMem
    rcases mem_toString hC with rfl | hDigit
    · exact absurd hMem (by decide)
    · have hNone : ∀ d ∈ ['.', 'e', 'E', '+'], d.isDigit = false := by simp
      rw [hNone c hMem] at hDigit
      cases hDigit
  unfold isDouble
  rw [Bool.or_eq_false_iff, List.any_eq_false, List.any_eq_false]
  exact ⟨fun c hC => by simpa using hAny c hC, fun c hC => by simpa using hTail c hC⟩

/-- An integer of 33 bits takes at most eleven characters. -/
theorem length_toString (hLower : -4294967296 ≤ n) (hUpper : n ≤ 4294967296) :
    (toString n : String).toList.length ≤ 11 := by
  have hLength : ∀ m : ℕ, m ≤ 4294967296 → (Nat.toDigits 10 m).length ≤ 10 := fun m hM =>
    (Nat.length_toDigits_le_iff (by decide) (by decide)).mpr (by omega)
  rw [toList_toString]
  split
  · exact Nat.le_succ_of_le (hLength _ (by omega))
  · rw [List.length_cons]
    exact Nat.succ_le_succ (hLength _ (by omega))

/-- The digits of a number, and its sign. -/
theorem decodeInteger_toString (n : ℤ) (token : Token) :
    (let text := (toString n : String).toList
    let isNegative : Bool := text.head? = some '-'
    (isNegative = decide (n < 0)) ∧
      decodeInteger token (threshold isNegative) 0 (if isNegative then text.tail else text) =
        .ok (if n < -2147483639 ∨ 4294967289 < n then none else some n.natAbs)) := by
  dsimp only
  rw [toList_toString]
  by_cases hSign : 0 ≤ n
  · have hFirst : (Nat.toDigits 10 n.toNat).head? ≠ some '-' := by
      intro hHead
      obtain ⟨cs, hCs⟩ := List.head?_eq_some_iff.mp hHead
      have hDigit := isDigit_of_mem_decimal (n := n.toNat) (c := '-') (by rw [hCs]; simp)
      simp at hDigit
    rw [if_pos hSign, decide_eq_false hFirst, decide_eq_false (Int.not_lt.mpr hSign),
      if_neg Bool.false_ne_true, decodeInteger_toDigits (by decide)]
    refine ⟨rfl, ?_⟩
    -- the threshold is that of an unsigned number, whatever the number is to become
    have hLimit : threshold false * 10 = 4294967290 := by decide
    rw [hLimit]
    by_cases hLess : n.toNat < 4294967290
    · have hAbs : n.toNat = n.natAbs := by omega
      rw [if_pos hLess, if_neg (by omega), hAbs]
    · rw [if_neg hLess, if_pos (by omega)]
  · rw [if_neg hSign]
    have hHead : ('-' :: Nat.toDigits 10 (-n).toNat).head? = some '-' := rfl
    rw [hHead, decide_eq_true rfl, decide_eq_true (Int.not_le.mp hSign), if_pos rfl,
      List.tail_cons, decodeInteger_toDigits (by decide)]
    refine ⟨rfl, ?_⟩
    -- with a sign it is a tenth of the largest signed number
    have hLimit : threshold true * 10 = 2147483640 := by decide
    rw [hLimit]
    by_cases hLess : (-n).toNat < 2147483640
    · have hAbs : (-n).toNat = n.natAbs := by omega
      rw [if_pos hLess, if_neg (by omega), hAbs]
    · rw [if_neg hLess, if_pos (by omega)]

/-- **What a whole number is read back as.** -/
theorem decodeNumber_integer {scan : List Char → Option ℚ} (hScan : ScansIntegers scan)
    {token : Token} (hText : token.text = (toString n : String).toList) (hLower : intMin ≤ n)
    (hUpper : n ≤ 4294967295) : decodeNumber scan token = .ok (rereadNumber n) := by
  unfold intMin at hLower
  have hLength := length_toString (n := n) (by omega) (by omega)
  have hAbs : |n| ≤ 2 ^ 32 := abs_le.mpr ⟨by omega, by omega⟩
  -- a whole number of this size is read exactly as a double, too
  have hDouble : decodeDouble scan token = .ok (.real n) := by
    unfold decodeDouble
    rw [hText, if_neg (by omega), hScan n hAbs]
  obtain ⟨hNegative, hInteger⟩ := decodeInteger_toString n token
  unfold decodeNumber
  rw [hText, not_isDouble_toString, if_neg Bool.false_ne_true]
  dsimp only
  rw [hInteger, ok_bind, hNegative]
  unfold rereadNumber
  by_cases hFar : n < -2147483639 ∨ 4294967289 < n
  · rw [if_pos hFar, if_pos hFar]
    exact hDouble
  rw [if_neg hFar, if_neg hFar]
  dsimp only
  by_cases hSign : n < 0
  · have hMax : n ≤ intMax := by unfold intMax; omega
    have hEq : -(n.natAbs : ℤ) = n := by omega
    rw [decide_eq_true hSign, if_pos rfl, if_pos hMax, hEq]
    rfl
  · have hEq : (n.natAbs : ℤ) = n := by omega
    have hNat : n.natAbs = n.toNat := by omega
    rw [decide_eq_false hSign, if_neg Bool.false_ne_true, hEq, hNat]
    rfl

end

/-- `sscanf` on a text without an exponent. -/
def scanDecimal (text : List Char) : Option ℚ :=
  let (negative, cs) := takeSign text
  let whole := cs.takeWhile Char.isDigit
  let fraction := match cs.drop whole.length with
    | '.' :: ds => ds.takeWhile Char.isDigit
    | _ => []
  if whole = [] ∧ fraction = [] then none
  else
    let value : ℚ := Nat.ofDigitChars 10 (whole ++ fraction) 0 / 10 ^ fraction.length
    some (if negative then -value else value)

/-- The decimal reader reads integers. -/
theorem scansIntegers_scanDecimal : ScansIntegers scanDecimal := by
  have hDigits : ∀ (negative : Bool) (m : ℕ) (text : List Char),
      takeSign text = (negative, Nat.toDigits 10 m) →
      scanDecimal text = some (if negative then -(m : ℚ) else m) := by
    intro negative m text hSign
    have hTake : (Nat.toDigits 10 m).takeWhile Char.isDigit = Nat.toDigits 10 m :=
      List.takeWhile_eq_self_iff.mpr fun c hC => isDigit_of_mem_decimal hC
    unfold scanDecimal
    rw [hSign]
    dsimp only
    rw [hTake, List.drop_length, if_neg fun h => Nat.toDigits_ne_nil h.1]
    dsimp only
    rw [List.append_nil, Nat.ofDigitChars_ten_toDigits, List.length_nil, pow_zero, div_one]
  intro n _
  rw [toList_toString]
  by_cases hSign : 0 ≤ n
  · rw [if_pos hSign, hDigits false n.toNat _ (takeSign_decimal fun _ => isDigit_of_mem_decimal)]
    have hCast : ((n.toNat : ℤ) : ℚ) = n := by rw [Int.toNat_of_nonneg hSign]
    rw [if_neg Bool.false_ne_true, ← hCast, Int.cast_natCast]
  · have hCast : (((-n).toNat : ℤ) : ℚ) = -n := by
      rw [Int.toNat_of_nonneg (by omega), Int.cast_neg]
    rw [if_neg hSign, hDigits true (-n).toNat _ rfl, if_pos rfl, ← Int.cast_natCast, hCast, neg_neg]

-- ---------------------------------------------------------------------------
-- Real numbers
-- ---------------------------------------------------------------------------

/-- A number with a point in it. -/
structure Pointed (text : List Char) : Prop where
  numeral : Numeral text
  point : ∃ whole fraction, text = whole ++ '.' :: fraction ∧ whole ≠ []

section

variable {text cs : List Char}

/-- A point makes a number a double for the reader. -/
theorem Pointed.isDouble (h : Pointed text) : isDouble text = true := by
  obtain ⟨whole, fraction, rfl, -⟩ := h.point
  unfold Reader.isDouble
  rw [Bool.or_eq_true, List.any_eq_true]
  exact Or.inl ⟨'.', by simp, by decide⟩

/-- A part that still has the point. -/
theorem Pointed.change {whole fraction tail : List Char} (h : Pointed (whole ++ '.' :: fraction))
    (hWhole : whole ≠ []) (hTail : AllNumeric tail) : Pointed (whole ++ '.' :: tail) := by
  obtain ⟨c, cs, rfl⟩ := List.exists_cons_of_ne_nil hWhole
  obtain ⟨d, hHead, hFirst⟩ := h.numeral.first
  refine ⟨⟨⟨d, hHead, hFirst⟩, ?_⟩, _, _, rfl, hWhole⟩
  intro e hMem
  rcases List.mem_append.mp hMem with hOld | hNew
  · exact h.numeral.all e (List.mem_append_left _ hOld)
  · rcases List.mem_cons.mp hNew with rfl | hRest
    · decide
    · exact hTail e hRest

/-- What comes behind does not take the point away. -/
theorem Pointed.append (h : Pointed text) (hCs : AllNumeric cs) : Pointed (text ++ cs) := by
  obtain ⟨whole, fraction, rfl, hWhole⟩ := h.point
  have hFraction : AllNumeric fraction := fun c hC =>
    h.numeral.all c (List.mem_append_right _ (List.mem_cons_of_mem _ hC))
  rw [List.append_assoc, List.cons_append]
  exact h.change hWhole (List.forall_mem_append.mpr ⟨hFraction, hCs⟩)

/-- A sign does not take the point away. -/
theorem Pointed.negative (h : Pointed text) : Pointed ('-' :: text) := by
  obtain ⟨whole, fraction, hText, hWhole⟩ := h.point
  refine ⟨⟨⟨'-', rfl, Or.inr rfl⟩, List.forall_mem_cons.mpr ⟨by decide, h.numeral.all⟩⟩,
    '-' :: whole, fraction, by rw [hText, List.cons_append], List.cons_ne_nil _ _⟩

/-- Zeros in front are digits, too. -/
theorem isDigit_padded {width n : ℕ} {c : Char} (h : c ∈ padded width n) : c.isDigit = true := by
  unfold padded List.leftpad at h
  rcases List.mem_append.mp h with hZero | hDigit
  · rw [(List.mem_replicate.mp hZero).2]
    decide
  · exact isDigit_of_mem_decimal hDigit

theorem length_padded (width n : ℕ) :
    (padded width n).length = max width (Nat.toDigits 10 n).length := by
  unfold padded
  exact List.length_leftpad

theorem allNumeric_padded (width n : ℕ) : AllNumeric (padded width n) := fun _ h =>
  isNumberChar_of_isDigit (isDigit_padded h)

/-- A point that is put into digits stays in them. -/
theorem pointed_padded (k width n : ℕ) : Pointed (pointAfter (k + 1) (padded width n)) := by
  have hPos : 0 < (padded width n).length := by
    rw [length_padded]
    exact lt_max_of_lt_right Nat.length_toDigits_pos
  obtain ⟨c, cs, hPadded⟩ := List.exists_cons_of_length_pos hPos
  have hDigits : ∀ d ∈ c :: cs, d.isDigit = true := fun d hD => isDigit_padded (hPadded ▸ hD)
  rw [hPadded]
  unfold pointAfter
  rw [List.take_succ_cons]
  refine ⟨⟨⟨c, rfl, Or.inl (hDigits c List.mem_cons_self)⟩, ?_⟩, _, _, rfl, List.cons_ne_nil _ _⟩
  intro d hD
  rcases List.mem_append.mp hD with hTake | hDrop
  · have hMem : d ∈ (c :: cs).take (k + 1) := by rwa [List.take_succ_cons]
    exact isNumberChar_of_isDigit (hDigits d (List.mem_of_mem_take hMem))
  · rcases List.mem_cons.mp hDrop with rfl | hRest
    · decide
    · exact isNumberChar_of_isDigit (hDigits d (List.mem_of_mem_drop hRest))

/-- What is written for a real has a point, in both notations. -/
theorem pointed_sprintfPositive (x : ℚ) : Pointed (sprintfPositive x) := by
  unfold sprintfPositive
  split
  · exact pointed_padded 0 16 0
  dsimp only
  split
  · refine (pointed_padded 0 _ _).append (List.forall_mem_cons.mpr ⟨by decide, ?_⟩)
    refine List.forall_mem_cons.mpr ⟨?_, allNumeric_padded _ _⟩
    split
    · decide
    · decide
  split
  · exact pointed_padded 0 _ _
  · exact pointed_padded _ _ _

/-- So has it with a sign. -/
theorem pointed_sprintf (q : ℚ) : Pointed (sprintf q) := by
  unfold sprintf
  split
  · exact (pointed_sprintfPositive _).negative
  · exact pointed_sprintfPositive _

/-- Nothing before the point is dropped. -/
theorem rdropWhile_point (whole fraction : List Char) :
    (whole ++ '.' :: fraction).rdropWhile (· = '0') =
      whole ++ '.' :: fraction.rdropWhile (· = '0') := by
  induction fraction using List.reverseRecOn with
  | nil =>
    rw [List.rdropWhile_concat_neg _ _ _ (by decide)]
    rfl
  | append_singleton fraction c ih =>
    have hConcat : whole ++ '.' :: (fraction ++ [c]) = (whole ++ '.' :: fraction) ++ [c] := by simp
    rw [hConcat, List.rdropWhile_concat, List.rdropWhile_concat]
    split
    · exact ih
    · exact hConcat.symm

/-- **The text of a real number** is read as one number, a `double`. -/
theorem pointed_doubleToString (q : ℚ) : Pointed (doubleToString q) := by
  have hSprintf := pointed_sprintf q
  obtain ⟨whole, fraction, hText, hWhole⟩ := hSprintf.point
  unfold doubleToString
  dsimp only
  split
  · exact hSprintf
  split
  · rw [hText, rdropWhile_point]
    rw [hText] at hSprintf
    refine (hSprintf.change hWhole ?_).append (List.forall_mem_singleton.mpr (by decide))
    intro c hC
    have hMem := (List.rdropWhile_prefix (· = '0') fraction).subset hC
    exact hSprintf.numeral.all c (List.mem_append_right _ (List.mem_cons_of_mem _ hMem))
  · exact hSprintf

end

-- ---------------------------------------------------------------------------
-- The length of a real number
-- ---------------------------------------------------------------------------

theorem length_pointAfter (n : ℕ) (digits : List Char) :
    (pointAfter n digits).length = digits.length + 1 := by
  unfold pointAfter
  rw [List.length_append, List.length_cons, List.length_take, List.length_drop]
  omega

/-- Rounding does not pass an integer. -/
theorem roundHalfEven_le {x : ℚ} {n : ℕ} (hPos : 0 ≤ x) (h : x < n) : roundHalfEven x ≤ n := by
  have hFloor : ⌊x⌋ < n := Int.floor_lt.mpr (by exact_mod_cast h)
  have hNonneg : 0 ≤ ⌊x⌋ := Int.floor_nonneg.mpr hPos
  have hNat : ⌊x⌋.toNat + 1 ≤ n := by omega
  unfold roundHalfEven
  split_ifs
  all_goals omega

theorem ten_zpow_pos (e : ℤ) : (0 : ℚ) < 10 ^ e := zpow_pos (by norm_num) e

/-- Sixteen digits are sixteen digits. -/
theorem significand_lt {x : ℚ} (h : 0 < x) : (significand x).1 < 10 ^ 16 := by
  have hLess : x * 10 ^ (15 - Int.log 10 x) < ((10 ^ 16 : ℕ) : ℚ) := by
    have hUpper := Int.lt_zpow_succ_log_self (b := 10) (by decide) x
    have hPow : (0 : ℚ) < 10 ^ (15 - Int.log 10 x) := ten_zpow_pos _
    have hSum : Int.log 10 x + 1 + (15 - Int.log 10 x) = 16 := by ring
    calc x * 10 ^ (15 - Int.log 10 x)
        < (10 : ℕ) ^ (Int.log 10 x + 1) * 10 ^ (15 - Int.log 10 x) :=
          mul_lt_mul_of_pos_right hUpper hPow
      _ = ((10 ^ 16 : ℕ) : ℚ) := by
          rw [Nat.cast_ofNat, ← zpow_add₀ (by norm_num), hSum]
          norm_num
  have hLe := roundHalfEven_le (mul_nonneg h.le (ten_zpow_pos _).le) hLess
  unfold significand
  dsimp only
  split
  · norm_num
  · exact lt_of_le_of_ne hLe ‹_›

/-- The exponent, for the magnitudes of `double`. -/
theorem natAbs_exponent_lt {x : ℚ} (hLower : (10 : ℚ) ^ (-400 : ℤ) ≤ x)
    (hUpper : x < (10 : ℚ) ^ (400 : ℤ)) : (significand x).2.natAbs < 1000 := by
  have hPos : 0 < x := lt_of_lt_of_le (ten_zpow_pos _) hLower
  have hLogLower := (Int.zpow_le_iff_le_log (b := 10) (x := -400) (by decide) hPos).mp
    (by exact_mod_cast hLower)
  have hLogUpper := (Int.lt_zpow_iff_log_lt (b := 10) (x := 400) (by decide) hPos).mp
    (by exact_mod_cast hUpper)
  unfold significand
  dsimp only
  split
  all_goals
    dsimp only
    omega

/-- Eight is at most ten, in every power. -/
theorem two_zpow_le (k : ℕ) : (2 : ℚ) ^ (3 * k : ℤ) ≤ 10 ^ (k : ℤ) := by
  rw [zpow_mul, zpow_natCast, zpow_natCast]
  exact pow_le_pow_left₀ (by norm_num) (by norm_num) k

/-- The magnitude of a `double`. -/
theorem IsDouble.magnitude {q : ℚ} (h : IsDouble q) (hNe : q ≠ 0) :
    (10 : ℚ) ^ (-400 : ℤ) ≤ |q| ∧ |q| < (10 : ℚ) ^ (400 : ℤ) := by
  obtain ⟨m, e, hM, hLower, hUpper, rfl⟩ := h
  have hTwo : ∀ e : ℤ, (0 : ℚ) < 2 ^ e := fun e => zpow_pos (by norm_num) e
  have hAbs : |(m : ℚ) * 2 ^ e| = ((|m| : ℤ) : ℚ) * 2 ^ e := by
    rw [abs_mul, abs_of_pos (hTwo e), Int.cast_abs]
  have hM0 : m ≠ 0 := by
    rintro rfl
    exact hNe (by simp)
  have hOne : (1 : ℚ) ≤ ((|m| : ℤ) : ℚ) := by exact_mod_cast Int.one_le_abs hM0
  have hTop : ((|m| : ℤ) : ℚ) < 2 ^ (53 : ℤ) := by exact_mod_cast hM
  rw [hAbs]
  constructor
  · calc (10 : ℚ) ^ (-400 : ℤ)
        ≤ 10 ^ (-(358 : ℕ) : ℤ) := zpow_le_zpow_right₀ (by norm_num) (by decide)
      _ ≤ 2 ^ (-(3 * (358 : ℕ)) : ℤ) := by
          rw [zpow_neg, zpow_neg]
          exact inv_anti₀ (hTwo _) (two_zpow_le 358)
      _ ≤ 2 ^ e := zpow_le_zpow_right₀ (by norm_num) hLower
      _ ≤ ((|m| : ℤ) : ℚ) * 2 ^ e := le_mul_of_one_le_left (hTwo e).le hOne
  · calc ((|m| : ℤ) : ℚ) * 2 ^ e
        < 2 ^ (53 : ℤ) * 2 ^ e := mul_lt_mul_of_pos_right hTop (hTwo e)
      _ = 2 ^ (53 + e) := (zpow_add₀ (by norm_num) _ _).symm
      _ ≤ 2 ^ (3 * (342 : ℕ) : ℤ) := zpow_le_zpow_right₀ (by norm_num) (by push_cast; omega)
      _ ≤ 10 ^ ((342 : ℕ) : ℤ) := two_zpow_le 342
      _ < (10 : ℚ) ^ (400 : ℤ) := zpow_lt_zpow_right₀ (by norm_num) (by decide)

/-- A double takes at most twenty-two characters. -/
theorem length_sprintfPositive {x : ℚ} (h : x = 0 ∨ (10 : ℚ) ^ (-400 : ℤ) ≤ x ∧
    x < (10 : ℚ) ^ (400 : ℤ)) : (sprintfPositive x).length ≤ 22 := by
  unfold sprintfPositive
  split
  · rw [length_pointAfter]
    decide
  rename_i hNe
  obtain ⟨hLower, hUpper⟩ := h.resolve_left hNe
  have hPos : 0 < x := lt_of_lt_of_le (ten_zpow_pos _) hLower
  -- the digits are sixteen at most, and the exponent has three
  have hDigits : ∀ width, (padded width (significand x).1).length ≤ max width 16 := fun width => by
    rw [length_padded]
    exact max_le_max_left _
      ((Nat.length_toDigits_le_iff (by decide) (by decide)).mpr (significand_lt hPos))
  have hExponent : (padded 2 (significand x).2.natAbs).length ≤ 3 := by
    rw [length_padded]
    exact max_le (by decide) ((Nat.length_toDigits_le_iff (by decide) (by decide)).mpr
      (natAbs_exponent_lt hLower hUpper))
  dsimp only
  split
  · have hSixteen := hDigits 16
    rw [List.length_append, length_pointAfter, List.length_cons, List.length_cons]
    omega
  split
  · have hWide := hDigits (16 + (significand x).2.natAbs)
    rw [length_pointAfter]
    omega
  · have hSixteen := hDigits 16
    rw [length_pointAfter]
    omega

/-- **The text of a `double`** is shorter than the buffer of the reader. -/
theorem length_doubleToString {q : ℚ} (h : IsDouble q) : (doubleToString q).length ≤ 24 := by
  have hSprintf : (sprintf q).length ≤ 23 := by
    have hPositive : (sprintfPositive |q|).length ≤ 22 := by
      refine length_sprintfPositive ?_
      by_cases hZero : q = 0
      · exact Or.inl (by rw [hZero, abs_zero])
      · exact Or.inr (h.magnitude hZero)
    unfold sprintf
    split
    · rename_i hNegative
      rw [abs_of_neg hNegative] at hPositive
      rw [List.length_cons]
      omega
    · rename_i hSign
      rw [abs_of_nonneg (not_lt.mp hSign)] at hPositive
      omega
  -- the zeros at the end are only taken away, but for one
  have hKept := (List.rdropWhile_prefix (· = '0') (sprintf q)).length_le
  unfold doubleToString
  dsimp only
  split
  · omega
  split
  · rw [List.length_append, List.length_singleton]
    omega
  · omega

/-- **What a real number is read back as.** -/
theorem decodeNumber_double {scan : List Char → Option ℚ} {token : Token} {q : ℚ}
    (hText : token.text = doubleToString q) (h : Rereadable scan q) :
    decodeNumber scan token = .ok (.real ((scan (doubleToString q)).getD 0)) := by
  obtain ⟨q', hQ⟩ := Option.isSome_iff_exists.mp h.2
  have hLength := length_doubleToString h.1
  unfold decodeNumber
  rw [hText, (pointed_doubleToString q).isDouble, if_pos rfl]
  unfold decodeDouble
  rw [hText, if_neg (by omega), hQ]
  rfl

-- ---------------------------------------------------------------------------
-- Numbers that are written past the buffer
-- ---------------------------------------------------------------------------

/-- The buffer on the stack is overrun by a text of just its length: the zero goes behind it. -/
theorem decodeDouble_overrun_iff {scan : List Char → Option ℚ} {token : Token} :
    decodeDouble scan token = .error .overrun ↔ token.text.length = 32 := by
  unfold decodeDouble
  split
  · exact iff_of_true rfl ‹_›
  · refine iff_of_false ?_ ‹_›
    split
    · exact nofun
    · exact nofun

/-- A number without points, exponents and further signs is digits. -/
theorem isDigit_unsigned {text : List Char} (h : Numeral text) (hInteger : isDouble text = false) :
    ∀ c ∈ unsigned text, c.isDigit = true := by
  obtain ⟨first, hHead, hFirst⟩ := h.first
  obtain ⟨cs, rfl⟩ := List.head?_eq_some_iff.mp hHead
  unfold isDouble at hInteger
  rw [Bool.or_eq_false_iff, List.any_eq_false, List.any_eq_false] at hInteger
  have hTail : ∀ c ∈ cs, c.isDigit = true := by
    intro c hC
    have hNumber := h.all c (List.mem_cons_of_mem _ hC)
    have hPoint := hInteger.1 c (List.mem_cons_of_mem _ hC)
    have hSign := hInteger.2 c hC
    simp only [isNumberChar, Bool.or_eq_true, decide_eq_true_eq, List.mem_cons,
      List.not_mem_nil, or_false] at hNumber hPoint hSign
    tauto
  unfold unsigned
  split
  · exact hTail
  · rename_i hSign
    refine List.forall_mem_cons.mpr ⟨hFirst.resolve_right ?_, hTail⟩
    rintro rfl
    exact hSign rfl

/-- **The overrun.** The reader writes past its buffer on a number of 32
characters that is read as a `double`, and on no other number. -/
theorem overrun_iff (scan : List Char → Option ℚ) {text : List Char} (h : Numeral text) :
    parse scan (String.ofList text) = .error .overrun ↔
      text.length = 32 ∧ LeftForDouble text := by
  have hText : Token.text ⟨.tokenNumber, text, []⟩ = text := by
    have hAppend := text_append .tokenNumber text []
    rwa [List.append_nil] at hAppend
  have hRead : readValue scan (2 * text.length + 2) text =
      (decodeNumber scan ⟨.tokenNumber, text, []⟩).map fun x => (x, []) := by
    have hEnd : Delimited [] := fun _ hC => nomatch hC
    have hAppend := readValue_numeral scan h hEnd (2 * text.length + 1)
    rwa [List.append_nil] at hAppend
  have hMap : ∀ x : Except Failure Value, (x.map fun v => (v, ([] : List Char))).map Prod.fst = x :=
    fun x => by cases x <;> rfl
  unfold parse
  rw [String.toList_ofList, hRead, hMap]
  unfold decodeNumber LeftForDouble
  rw [hText]
  cases hDouble : isDouble text with
  | true =>
    rw [if_pos rfl, decodeDouble_overrun_iff, hText]
    exact ⟨fun hLength => ⟨hLength, Or.inl rfl⟩, And.left⟩
  | false =>
    have hUnsigned : (if decide (text.head? = some '-') = true then text.tail else text) =
        unsigned text := by
      unfold unsigned
      simp only [decide_eq_true_eq]
    dsimp only
    rw [if_neg Bool.false_ne_true, hUnsigned,
      decodeInteger_digits (by unfold threshold; split <;> decide) (isDigit_unsigned h hDouble),
      ok_bind]
    -- an integer is left for `decodeDouble` when its digits without the last reach the threshold
    by_cases hFull : threshold (text.head? = some '-') ≤
        Nat.ofDigitChars 10 (unsigned text).dropLast 0
    · rw [if_pos hFull]
      dsimp only
      rw [decodeDouble_overrun_iff, hText]
      exact ⟨fun hLength => ⟨hLength, Or.inr hFull⟩, And.left⟩
    · rw [if_neg hFull]
      refine iff_of_false nofun ?_
      rintro ⟨-, hDouble | hMore⟩
      · cases hDouble
      · exact hFull hMore

/-- A number of 32 characters that is written past the buffer. -/
theorem overrun_pi :
    parse scanDecimal (String.ofList "3.141592653589793238462643383279".toList) =
      .error .overrun := by
  refine (overrun_iff scanDecimal ⟨⟨'3', rfl, Or.inl rfl⟩, ?_⟩).mpr ⟨rfl, Or.inl ?_⟩
  · exact List.all_eq_true.mp (by decide)
  · decide

end Reader

end PushStreamer
