import Mathlib.Data.List.Basic
import Mathlib.Data.List.TakeWhile
import Mathlib.Tactic.Common

/-!
# Texts and numbers in texts

The string helpers of `cloudstreamer.cpp` (`split`, `replaceAllDistinct`) and
the library conversions they are used with: `atoi`, `QString::toInt` and
`QString::split`. A text is its list of characters where it is scanned and a
`String` elsewhere; `int` is 32 bits wide.
-/

namespace PushStreamer

/-- Smallest and largest `int`. -/
def intMin : Int := -2147483648

def intMax : Int := 2147483647

/-- `isspace` in the C locale. -/
def isSpace (c : Char) : Bool :=
  c = ' ' || c = '\t' || c = '\n' || c = '\x0b' || c = '\x0c' || c = '\r'

/-- An optional sign: whether the number is negative, and what follows. -/
def takeSign : List Char → Bool × List Char
  | '-' :: cs => (true, cs)
  | '+' :: cs => (false, cs)
  | cs => (false, cs)

/-- The number a sign and decimal digits stand for. -/
def signed (negative : Bool) (digits : List Char) : Int :=
  if negative then -(Nat.ofDigitChars 10 digits 0 : Int) else Nat.ofDigitChars 10 digits 0

/-- `atoi`: the longest numeric prefix after leading blanks, `0` without one.
Values outside `int` saturate, as in the Microsoft runtime. -/
def atoi (s : String) : Int :=
  let (negative, cs) := takeSign (s.toList.dropWhile isSpace)
  max intMin (min intMax (signed negative (cs.takeWhile Char.isDigit)))

/-- `QString::toInt`: the value of a text that is one decimal number in the
range of `int`, blanks around it ignored; `0` for any other text. -/
def toInt (cs : List Char) : Int :=
  let trimmed := ((cs.dropWhile isSpace).reverse.dropWhile isSpace).reverse
  let (negative, digits) := takeSign trimmed
  let value := signed negative digits
  if digits ≠ [] ∧ digits.all Char.isDigit ∧ intMin ≤ value ∧ value ≤ intMax then value else 0

/-- `QString::split` at one character; empty parts are kept. -/
def splitParts (separator : Char) (s : String) : List (List Char) :=
  s.toList.splitOn separator

/-- `c_str()`, read as a text: it ends at a zero character. -/
def cString (str : List Char) : List Char := str.takeWhile (· ≠ '\x00')

/-! ## The tokenizer -/

/-- `strtok` until it returns no more tokens: `token` is the token being read,
the characters of `delim` end it, and empty tokens are skipped. -/
def strtok (delim : List Char) : List Char → List Char → List (List Char)
  | [], [] => []
  | token, [] => [token]
  | token, c :: cs =>
    if c ∈ delim then
      if token = [] then strtok delim [] cs else token :: strtok delim [] cs
    else strtok delim (token ++ [c]) cs

/-- `split`: the tokens of a copy of `str` that `strcpy` has made, as it has made
one of `delim`. -/
def split (str delim : String) : List String :=
  (strtok (cString delim.toList) [] (cString str.toList)).map String.ofList

example : split "16|20||3" "|" = ["16", "20", "3"] := by decide

/-! ## Replacing -/

/-- `str.find(old)`: what stands before the first occurrence of `old`, and what
after it. -/
def breakOn (old : List Char) : List Char → Option (List Char × List Char)
  | [] => if old = [] then some ([], []) else none
  | c :: cs =>
    if old.isPrefixOf (c :: cs) then some ([], (c :: cs).drop old.length)
    else (breakOn old cs).map fun x => (c :: x.1, x.2)

/-- The loop of `replaceAllDistinct`. `done` is the text before `pos`, which
the search no longer looks at, and `rest` the text from `pos` on. -/
def replaceLoop (old new : List Char) : Nat → List Char → List Char → Option (List Char)
  | 0, _, _ => none
  | fuel + 1, done, rest =>
    match breakOn old rest with
    | none => some (done ++ rest)
    | some (before, after) => replaceLoop old new fuel (done ++ before ++ new) after

/-- `replaceAllDistinct`, run for as many passes as `str` has characters and
one more. -/
def replaceAllDistinct (str old new : List Char) : Option (List Char) :=
  replaceLoop old new (str.length + 1) [] str

/-! ## Lemmas -/

/-- The decimal text of a natural number reads back as that number. -/
theorem signed_toDigits (n : Nat) : signed false (Nat.toDigits 10 n) = n := by
  rw [signed, if_neg (by simp), Nat.ofDigitChars_toDigits (by decide) (by decide)]

/-- A number is written in digits. -/
theorem isDigit_of_mem_decimal {n : Nat} {c : Char} (h : c ∈ Nat.toDigits 10 n) :
    c.isDigit = true :=
  Nat.isDigit_of_mem_toDigits (by decide) (by decide) h

/-- A digit is no space. -/
theorem isSpace_of_isDigit {c : Char} (h : c.isDigit = true) : isSpace c = false := by
  by_contra hSpace
  simp only [isSpace, Bool.or_eq_true, decide_eq_true_eq, Bool.not_eq_false] at hSpace
  rcases hSpace with ((((rfl | rfl) | rfl) | rfl) | rfl) | rfl <;> simp at h

/-- Digits are neither blanks nor signs. -/
theorem takeSign_decimal {cs : List Char} (h : ∀ c ∈ cs, c.isDigit = true) :
    takeSign cs = (false, cs) := by
  unfold takeSign
  split
  · have := h '-' (by simp)
    simp at this
  · have := h '+' (by simp)
    simp at this
  · rfl

theorem dropWhile_isSpace_decimal {cs : List Char} (h : ∀ c ∈ cs, c.isDigit = true) :
    cs.dropWhile isSpace = cs := by
  cases cs with
  | nil => rfl
  | cons c cs =>
    rw [List.dropWhile_cons, if_neg]
    rw [isSpace_of_isDigit (h c (by simp))]
    simp

/-- `toInt` of the decimal text of a number in range. -/
theorem toInt_toDigits {n : Nat} (h : (n : Int) ≤ intMax) : toInt (Nat.toDigits 10 n) = n := by
  have hDigits : ∀ c ∈ Nat.toDigits 10 n, c.isDigit = true := fun _ => isDigit_of_mem_decimal
  have hReverse : ∀ c ∈ (Nat.toDigits 10 n).reverse, c.isDigit = true := by
    simpa using hDigits
  have hMin : intMin ≤ (n : Int) := by unfold intMin; omega
  simp only [toInt, dropWhile_isSpace_decimal hDigits, dropWhile_isSpace_decimal hReverse,
    List.reverse_reverse, takeSign_decimal hDigits, signed_toDigits]
  rw [if_pos ⟨Nat.toDigits_ne_nil, List.all_eq_true.mpr hDigits, hMin, h⟩]

/-- A text without zero characters is not cut. -/
theorem cString_eq {str : List Char} (h : ∀ c ∈ str, c ≠ '\x00') : cString str = str := by
  rw [cString, List.takeWhile_eq_self_iff]
  exact fun c hc => decide_eq_true (h c hc)

/-- The decimal text of an integer. -/
theorem toList_toString (n : Int) : (toString n : String).toList =
    if 0 ≤ n then Nat.toDigits 10 n.toNat else '-' :: Nat.toDigits 10 (-n).toNat := by
  rw [Int.toString_eq_repr, Int.repr_eq_if]
  split
  · rw [Nat.toList_repr]
  · rw [String.toList_append, Nat.toList_repr]
    rfl

/-- An integer is written with digits and a minus. -/
theorem mem_toString {n : Int} {c : Char} (h : c ∈ (toString n : String).toList) :
    c = '-' ∨ c.isDigit = true := by
  rw [toList_toString] at h
  split at h
  · exact Or.inr (isDigit_of_mem_decimal h)
  · exact (List.mem_cons.mp h).imp_right isDigit_of_mem_decimal

theorem toString_toList_ne_nil (n : Int) : (toString n : String).toList ≠ [] := by
  rw [toList_toString]
  split
  · exact Nat.toDigits_ne_nil
  · exact List.cons_ne_nil _ _

/-- `atoi` reads a number of 32 bits back from its decimal text. -/
theorem atoi_toString {n : Int} (hMin : intMin ≤ n) (hMax : n ≤ intMax) :
    atoi (toString n) = n := by
  have hDigits : ∀ m : Nat, ∀ c ∈ Nat.toDigits 10 m, c.isDigit = true :=
    fun m _ => isDigit_of_mem_decimal
  have hTake : ∀ m : Nat, (Nat.toDigits 10 m).takeWhile Char.isDigit = Nat.toDigits 10 m :=
    fun m => List.takeWhile_eq_self_iff.mpr (hDigits m)
  unfold atoi
  rw [toList_toString]
  by_cases hNonneg : 0 ≤ n
  · rw [if_pos hNonneg, dropWhile_isSpace_decimal (hDigits _), takeSign_decimal (hDigits _)]
    dsimp only
    rw [hTake, signed_toDigits, Int.toNat_of_nonneg hNonneg, Int.min_eq_right hMax,
      Int.max_eq_right hMin]
  · have hSpace : ('-' :: Nat.toDigits 10 (-n).toNat).dropWhile isSpace =
        '-' :: Nat.toDigits 10 (-n).toNat := by
      rw [List.dropWhile_cons, if_neg (by decide)]
    have hValue : -(Nat.ofDigitChars 10 (Nat.toDigits 10 (-n).toNat) 0 : Int) = n := by
      rw [Nat.ofDigitChars_toDigits (by decide) (by decide), Int.toNat_of_nonneg (by omega)]
      omega
    rw [if_neg hNonneg, hSpace]
    show max intMin (min intMax (signed true ((Nat.toDigits 10 (-n).toNat).takeWhile _))) = n
    rw [hTake, signed, if_pos rfl, hValue, Int.min_eq_right hMax,
      Int.max_eq_right hMin]

/-! ## Tokens -/

section

variable {delim token cs sep rest : List Char}

/-- One character of `strtok`. -/
theorem strtok_cons (c : Char) : strtok delim token (c :: cs) =
    if c ∈ delim then if token = [] then strtok delim [] cs else token :: strtok delim [] cs
    else strtok delim (token ++ [c]) cs := by
  rw [strtok]

/-- Characters that delimit nothing are added to the token. -/
theorem strtok_append (token : List Char) (h : ∀ c ∈ cs, c ∉ delim) (rest : List Char) :
    strtok delim token (cs ++ rest) = strtok delim (token ++ cs) rest := by
  induction cs generalizing token with
  | nil => rw [List.nil_append, List.append_nil]
  | cons c cs ih =>
    rw [List.forall_mem_cons] at h
    rw [List.cons_append, strtok_cons, if_neg h.1, ih _ h.2, List.append_assoc]
    rfl

/-- Characters that end tokens are skipped between them. -/
theorem strtok_skip (h : ∀ c ∈ sep, c ∈ delim) :
    strtok delim [] (sep ++ rest) = strtok delim [] rest := by
  induction sep with
  | nil => rfl
  | cons c sep ih =>
    rw [List.forall_mem_cons] at h
    rw [List.cons_append, strtok_cons, if_pos h.1, if_pos rfl, ih h.2]

/-- The end of the text ends the last token. -/
theorem strtok_last (hNe : cs ≠ []) (h : ∀ c ∈ cs, c ∉ delim) : strtok delim [] cs = [cs] := by
  have hAppend := strtok_append [] h []
  rw [List.append_nil, List.nil_append] at hAppend
  rw [hAppend]
  cases cs with
  | nil => exact absurd rfl hNe
  | cons c cs => rfl

/-- A token ends before the first characters that end tokens. -/
theorem strtok_field (hNe : cs ≠ []) (h : ∀ c ∈ cs, c ∉ delim) (hSepNe : sep ≠ [])
    (hSep : ∀ c ∈ sep, c ∈ delim) :
    strtok delim [] (cs ++ (sep ++ rest)) = cs :: strtok delim [] rest := by
  rw [strtok_append [] h, List.nil_append]
  obtain ⟨d, sep, rfl⟩ := List.exists_cons_of_ne_nil hSepNe
  rw [List.forall_mem_cons] at hSep
  rw [List.cons_append, strtok_cons, if_pos hSep.1, if_neg hNe, strtok_skip hSep.2]

/-- There are no tokens where every character ends one. -/
theorem strtok_eq_nil : strtok delim [] cs = [] ↔ ∀ c ∈ cs, c ∈ delim := by
  have hToken : ∀ {token cs : List Char}, token ≠ [] → strtok delim token cs ≠ [] := by
    intro token cs hNe
    induction cs generalizing token with
    | nil =>
      obtain ⟨c, token, rfl⟩ := List.exists_cons_of_ne_nil hNe
      exact List.cons_ne_nil _ _
    | cons d cs ih =>
      rw [strtok_cons, if_neg hNe]
      split
      · exact List.cons_ne_nil _ _
      · exact ih (by simp)
  induction cs with
  | nil => simp [strtok]
  | cons c cs ih =>
    rw [strtok_cons, List.forall_mem_cons]
    by_cases hc : c ∈ delim
    · rw [if_pos hc, if_pos rfl]
      exact ih.trans (and_iff_right hc).symm
    · rw [if_neg hc]
      exact iff_of_false (hToken (by simp)) fun h => hc h.1

/-- There are fewer than two tokens when no character that ends tokens stands
between two others. -/
theorem strtok_length_lt_two : (strtok delim token cs).length < 2 ↔
    ∀ a d b, cs = a ++ d :: b → d ∈ delim →
      (token = [] ∧ ∀ c ∈ a, c ∈ delim) ∨ ∀ c ∈ b, c ∈ delim := by
  induction cs generalizing token with
  | nil =>
    refine iff_of_true ?_ (by simp)
    cases token with
    | nil => exact Nat.zero_lt_two
    | cons c token => exact Nat.one_lt_two
  | cons c cs ih =>
    rw [strtok_cons]
    by_cases hc : c ∈ delim
    · rw [if_pos hc]
      by_cases hToken : token = []
      · -- nothing is read yet, and nothing is lost
        rw [if_pos hToken, ih]
        constructor
        · rintro h (_ | ⟨c', a⟩) d b hEq hd
          · exact Or.inl ⟨hToken, by simp⟩
          · obtain ⟨rfl, rfl⟩ := List.cons.inj hEq
            exact (h a d b rfl hd).imp_left fun hLeft =>
              ⟨hToken, List.forall_mem_cons.mpr ⟨hc, hLeft.2⟩⟩
        · rintro h a d b rfl hd
          refine (h (c :: a) d b rfl hd).imp_left fun hLeft => ⟨rfl, ?_⟩
          exact (List.forall_mem_cons.mp hLeft.2).2
      · -- the token ends here, and must be the last
        have hLast : (token :: strtok delim [] cs).length < 2 ↔ strtok delim [] cs = [] := by
          rw [List.length_cons, ← List.length_eq_zero_iff]
          omega
        rw [if_neg hToken, hLast, strtok_eq_nil]
        constructor
        · intro h a d b hEq _
          refine Or.inr fun x hx => ?_
          cases a with
          | nil =>
            obtain ⟨-, rfl⟩ := List.cons.inj hEq
            exact h x hx
          | cons c' a =>
            obtain ⟨-, rfl⟩ := List.cons.inj hEq
            exact h x (by simp [hx])
        · intro h
          exact (h [] c cs rfl hc).resolve_left fun hLeft => hToken hLeft.1
    · -- a character of the token moves into it
      rw [if_neg hc, ih]
      constructor
      · rintro h (_ | ⟨c', a⟩) d b hEq hd
        · obtain ⟨rfl, -⟩ := List.cons.inj hEq
          exact absurd hd hc
        · obtain ⟨-, rfl⟩ := List.cons.inj hEq
          exact Or.inr ((h a d b rfl hd).resolve_left fun hLeft => by simp at hLeft)
      · rintro h a d b rfl hd
        refine Or.inr ((h (c :: a) d b rfl hd).resolve_left fun hLeft => ?_)
        exact hc (hLeft.2 c (List.mem_cons_self ..))

/-- A token has no character that ends tokens, and only characters of the text. -/
theorem mem_strtok {t : List Char} (ht : t ∈ strtok delim token cs)
    (hToken : ∀ c ∈ token, c ∉ delim) : ∀ c ∈ t, c ∉ delim ∧ (c ∈ token ∨ c ∈ cs) := by
  -- the induction goes over the text, with any token begun
  induction cs generalizing token with
  | nil =>
    have hSame : t = token := by
      cases token with
      | nil => cases ht
      | cons c token => exact List.mem_singleton.mp ht
    rw [hSame]
    exact fun c hc => ⟨hToken c hc, Or.inl hc⟩
  | cons d cs ih =>
    rw [strtok_cons] at ht
    split at ht
    · -- the token ends here: `t` is it, or one of the rest
      have hRest : t ∈ strtok delim [] cs → ∀ c ∈ t, c ∉ delim ∧ (c ∈ token ∨ c ∈ d :: cs) := by
        intro hMem c hc
        obtain ⟨hNot, hNil | hIn⟩ := ih hMem (by simp) c hc
        · cases hNil
        · exact ⟨hNot, Or.inr (List.mem_cons_of_mem d hIn)⟩
      split at ht
      · exact hRest ht
      · rcases List.mem_cons.mp ht with rfl | hMem
        · exact fun c hc => ⟨hToken c hc, Or.inl hc⟩
        · exact hRest hMem
    · rename_i hd
      have hLonger : ∀ c ∈ token ++ [d], c ∉ delim := by
        intro c hc
        rcases List.mem_append.mp hc with hOld | hNew
        · exact hToken c hOld
        · rw [List.mem_singleton.mp hNew]
          exact hd
      intro c hc
      obtain ⟨hNot, hIn⟩ := ih ht hLonger c hc
      refine ⟨hNot, ?_⟩
      rw [List.mem_append, List.mem_singleton, or_assoc] at hIn
      rwa [List.mem_cons]

end

/-- A text is its only part when the separator is not in it. -/
theorem splitOn_eq_singleton_iff {separator : Char} {cs part : List Char} :
    cs.splitOn separator = [part] ↔ part = cs ∧ separator ∉ cs := by
  constructor
  · intro h
    have hSame : [separator].intercalate (cs.splitOn separator) = cs :=
      List.intercalate_splitOn separator
    rw [h, List.intercalate_singleton] at hSame
    refine ⟨hSame, fun hMem => ?_⟩
    obtain ⟨a, b, rfl⟩ := List.append_of_mem hMem
    rw [List.splitOn_append_cons_self] at h
    have hLength := congrArg List.length h
    have hLeft := List.length_pos_of_ne_nil (List.splitOn_ne_nil separator a)
    have hRight := List.length_pos_of_ne_nil (List.splitOn_ne_nil separator b)
    rw [List.length_append, List.length_singleton] at hLength
    omega
  · rintro ⟨rfl, hNot⟩
    exact List.splitOn_eq_singleton hNot

/-- A character of the first 128, other than zero. -/
def IsAscii (c : Char) : Prop := 0 < c.toNat ∧ c.toNat < 128

/-- An ASCII text is not cut. -/
theorem cString_of_isAscii {str : List Char} (h : ∀ c ∈ str, IsAscii c) : cString str = str :=
  cString_eq fun c hc hZero => absurd (h c hc).1 (by rw [hZero]; decide)

theorem isAscii_of_isSpace {c : Char} (h : isSpace c = true) : IsAscii c := by
  simp only [isSpace, Bool.or_eq_true, decide_eq_true_eq] at h
  rcases h with ((((rfl | rfl) | rfl) | rfl) | rfl) | rfl <;> exact ⟨by decide, by decide⟩

theorem isAscii_of_isDigit {c : Char} (h : c.isDigit = true) : IsAscii c := by
  rw [Char.isDigit_iff_toNat] at h
  unfold IsAscii
  simp at h
  omega

/-- What stands before the rest of `dropWhile` are characters that it drops. -/
theorem mem_dropWhile_or {p : Char → Bool} {c : Char} {cs : List Char} (h : c ∈ cs) :
    p c = true ∨ c ∈ cs.dropWhile p := by
  rw [← List.takeWhile_append_dropWhile (p := p) (l := cs), List.mem_append] at h
  exact h.imp_left fun hc => List.all_eq_true.mp List.all_takeWhile c hc

/-- What is not behind the sign is the sign. -/
theorem mem_takeSign_or {c : Char} {cs : List Char} (h : c ∈ cs) :
    c = '-' ∨ c = '+' ∨ c ∈ (takeSign cs).2 := by
  unfold takeSign
  split
  · rcases List.mem_cons.mp h with rfl | hRest
    · exact Or.inl rfl
    · exact Or.inr (Or.inr hRest)
  · rcases List.mem_cons.mp h with rfl | hRest
    · exact Or.inr (Or.inl rfl)
    · exact Or.inr (Or.inr hRest)
  · exact Or.inr (Or.inr h)

/-- A text that is a number other than 0 is ASCII. -/
theorem isAscii_of_toInt {cs : List Char} (h : toInt cs ≠ 0) {c : Char} (hc : c ∈ cs) :
    IsAscii c := by
  unfold toInt at h
  simp only [ne_eq, ite_eq_right_iff, not_forall] at h
  obtain ⟨⟨-, hDigits, -⟩, -⟩ := h
  rcases mem_dropWhile_or (p := isSpace) hc with hSpace | hc
  · exact isAscii_of_isSpace hSpace
  rcases mem_dropWhile_or (p := isSpace) (List.mem_reverse.mpr hc) with hSpace | hc
  · exact isAscii_of_isSpace hSpace
  rcases mem_takeSign_or (List.mem_reverse.mpr hc) with rfl | rfl | hc
  · exact ⟨by decide, by decide⟩
  · exact ⟨by decide, by decide⟩
  · exact isAscii_of_isDigit (List.all_eq_true.mp hDigits c hc)

/-- Each character is a separator or in one of the parts. -/
theorem mem_splitOn {separator c : Char} {cs : List Char} (h : c ∈ cs) :
    c = separator ∨ ∃ part ∈ cs.splitOn separator, c ∈ part := by
  induction cs with
  | nil => cases h
  | cons d cs ih =>
    rw [List.splitOn_cons_eq_if_modifyHead]
    obtain ⟨part, parts, hParts⟩ := List.exists_cons_of_ne_nil (List.splitOn_ne_nil separator cs)
    rw [hParts] at ih ⊢
    split
    · rename_i hEq
      rcases List.mem_cons.mp h with rfl | hRest
      · exact Or.inl (beq_iff_eq.mp hEq)
      · exact (ih hRest).imp_right fun ⟨x, hx, hMem⟩ => ⟨x, List.mem_cons_of_mem _ hx, hMem⟩
    · rcases List.mem_cons.mp h with rfl | hRest
      · exact Or.inr ⟨_, List.mem_cons_self .., List.mem_cons_self ..⟩
      · refine (ih hRest).imp_right fun ⟨x, hx, hMem⟩ => ?_
        rcases List.mem_cons.mp hx with rfl | hx
        · exact ⟨_, List.mem_cons_self .., List.mem_cons_of_mem _ hMem⟩
        · exact ⟨x, List.mem_cons_of_mem _ hx, hMem⟩

/-- Without a blank there is nothing to remove; with one, the text before it has
none. -/
theorem breakOn_blank (rest : List Char) :
    (breakOn [' '] rest = none ∧ rest.filter (· ≠ ' ') = rest) ∨
      ∃ before after, breakOn [' '] rest = some (before, after) ∧ after.length < rest.length ∧
        rest.filter (· ≠ ' ') = before ++ after.filter (· ≠ ' ') := by
  induction rest with
  | nil => exact Or.inl ⟨rfl, rfl⟩
  | cons c cs ih =>
    by_cases hc : c = ' '
    · subst hc
      exact Or.inr ⟨[], cs, by simp [breakOn], by simp, by simp⟩
    · have hNot : [' '].isPrefixOf (c :: cs) = false := by
        simp [List.isPrefixOf, Ne.symm hc]
      have hKept : (c :: cs).filter (· ≠ ' ') = c :: cs.filter (· ≠ ' ') :=
        List.filter_cons_of_pos (by simpa using hc)
      rcases ih with ⟨hNone, hFilter⟩ | ⟨before, after, hSome, hLen, hFilter⟩
      · exact Or.inl ⟨by simp [breakOn, hNot, hNone], by rw [hKept, hFilter]⟩
      · refine Or.inr ⟨c :: before, after, by simp [breakOn, hNot, hSome], ?_, ?_⟩
        · rw [List.length_cons]
          omega
        · rw [hKept, hFilter, List.cons_append]

/-- Replacing blanks by nothing removes them. -/
theorem replaceLoop_blanks (fuel : Nat) (done rest : List Char) (h : rest.length < fuel) :
    replaceLoop [' '] [] fuel done rest = some (done ++ rest.filter (· ≠ ' ')) := by
  induction fuel generalizing done rest with
  | zero => omega
  | succ fuel ih =>
    rcases breakOn_blank rest with ⟨hNone, hFilter⟩ | ⟨before, after, hSome, hLen, hFilter⟩
    · rw [replaceLoop, hNone, hFilter]
    · rw [replaceLoop, hSome]
      simp only [List.append_nil]
      rw [ih _ _ (by omega), hFilter, List.append_assoc]

/-- Blanks are taken out, in one pass. -/
theorem replaceAllDistinct_blanks (str : List Char) :
    replaceAllDistinct str [' '] [] = some (str.filter (· ≠ ' ')) := by
  rw [replaceAllDistinct, replaceLoop_blanks _ _ _ (Nat.lt_succ_self _), List.nil_append]

end PushStreamer
