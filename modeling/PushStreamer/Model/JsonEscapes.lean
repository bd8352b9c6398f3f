import PushStreamer.Lib.Utf8
import PushStreamer.Model.JsonRoundTrip

/-!
# Spellings of a text in JSON

JSON lets the characters of a text stand for themselves or be escaped, by a
letter, by a number, or by a pair of numbers beyond the first 2^16 characters.
A `char` of the reader is a byte, so what it decodes is the UTF-8 of the text.

* `decode_spelled` — whatever way a text is spelled, it is decoded to its UTF-8.
-/

namespace PushStreamer

namespace Reader

open FastWriter Results

-- ---------------------------------------------------------------------------
-- Characters and bytes
-- ---------------------------------------------------------------------------

/-- The UTF-8 of a character, each byte as a `char`. -/
def bytesOf (c : Char) : List Char :=
  (String.utf8EncodeChar c).map fun b => Char.ofNat b.toNat

/-- A byte of a sequence: the mark in its high bits, and the low bits of a
number. -/
theorem marked (bits mark n : ℕ) :
    2 ^ bits * mark ||| ((2 ^ bits - 1) &&& n) = n % 2 ^ bits + 2 ^ bits * mark := by
  rw [Nat.and_comm, Nat.and_two_pow_sub_one_eq_mod,
    ← Nat.two_pow_add_eq_or_of_lt (Nat.mod_lt n (Nat.two_pow_pos bits)), Nat.add_comm]

theorem codePointToUTF8_eq (c : Char) : codePointToUTF8 c.toNat = bytesOf c := by
  have hByte : ∀ n < 256, Char.ofNat (UInt8.ofNat n).toNat = Char.ofNat n := fun n h => by
    rw [Utf8.toNat_ofNat_of_lt h]
  have hTail : ∀ n, 0x80 ||| (0x3F &&& n) = n % 0x40 + 0x80 := marked 6 2
  have hTwoLead : ∀ n, 0xC0 ||| (0x1F &&& n) = n % 0x20 + 0xC0 := marked 5 6
  have hThreeLead : ∀ n, 0xE0 ||| (0xF &&& n) = n % 0x10 + 0xE0 := marked 4 14
  have hFourLead : ∀ n, 0xF0 ||| (0x7 &&& n) = n % 0x08 + 0xF0 := marked 3 30
  have hValid := Utf8.toNat_valid c
  unfold codePointToUTF8 bytesOf
  simp only [hTail, hTwoLead, hThreeLead, hFourLead, Nat.shiftRight_eq_div_pow]
  by_cases hOne : c.toNat ≤ 0x7F
  · rw [if_pos hOne, Utf8.encode_one hOne, List.map_cons, hByte _ (by omega)]
    rfl
  by_cases hTwo : c.toNat ≤ 0x7FF
  · rw [if_neg hOne, if_pos hTwo, Utf8.encode_two (by omega) hTwo]
    simp only [List.map_cons, List.map_nil]
    rw [hByte _ (by omega), hByte _ (by omega)]
  by_cases hThree : c.toNat ≤ 0xFFFF
  · rw [if_neg hOne, if_neg hTwo, if_pos hThree, Utf8.encode_three (by omega) hThree]
    simp only [List.map_cons, List.map_nil]
    rw [hByte _ (by omega), hByte _ (by omega), hByte _ (by omega)]
  · rw [if_neg hOne, if_neg hTwo, if_neg hThree, if_pos (by omega), Utf8.encode_four (by omega)]
    simp only [List.map_cons, List.map_nil]
    rw [hByte _ (by omega), hByte _ (by omega), hByte _ (by omega), hByte _ (by omega)]

/-- A byte that is a quote or a backslash is the character itself. -/
theorem plain_bytesOf {c : Char} (hQuote : c ≠ '"') (hSlash : c ≠ '\\') :
    ∀ d ∈ bytesOf c, d ≠ '"' ∧ d ≠ '\\' := by
  by_cases hAscii : c.toNat ≤ 0x7F
  · rw [← codePointToUTF8_eq, codePointToUTF8_ascii hAscii, List.forall_mem_singleton]
    exact ⟨hQuote, hSlash⟩
  intro d hD
  obtain ⟨b, hB, rfl⟩ := List.mem_map.mp hD
  have hHigh := Utf8.high_encode (Nat.not_le.mp hAscii) b hB
  have hNat : (Char.ofNat b.toNat).toNat = b.toNat := by
    rw [Char.ofNat, dif_pos (Or.inl (Nat.lt_trans b.toNat_lt (by decide)))]
    rfl
  constructor
  · intro hEq
    rw [hEq] at hNat
    exact absurd hHigh (hNat ▸ by decide)
  · intro hEq
    rw [hEq] at hNat
    exact absurd hHigh (hNat ▸ by decide)

-- ---------------------------------------------------------------------------
-- Spellings
-- ---------------------------------------------------------------------------

/-- Four hexadecimal digits for a number. -/
def Digits (n : ℕ) (digits : List Char) : Prop :=
  digits.length = 4 ∧ ∃ values : List ℕ, digits.map hexValue = values.map some ∧
    values.foldl (fun n d => n * 16 + d) 0 = n

/-- A part of a text in JSON that stands for a character. -/
inductive Spells : Char → List Char → Prop
  | copied {c : Char} (hQuote : c ≠ '"') (hSlash : c ≠ '\\') : Spells c (bytesOf c)
  | letter {c letter : Char} (h : shortEscapes.lookup letter = some c) : Spells c ['\\', letter]
  | number {c : Char} {digits : List Char} (h : Digits c.toNat digits) :
      Spells c ('\\' :: 'u' :: digits)
  | pair {c : Char} {high low : List Char} (h : 0x10000 ≤ c.toNat)
      (hHigh : Digits (0xD800 + (c.toNat - 0x10000) / 0x400) high)
      (hLow : Digits (0xDC00 + (c.toNat - 0x10000) % 0x400) low) :
      Spells c ('\\' :: 'u' :: high ++ '\\' :: 'u' :: low)

section

variable {token : Token} {digits : List Char} {n : ℕ}

theorem Digits.decode (h : Digits n digits) (current : List Char) :
    decodeUnicodeEscapeSequence token (digits ++ current) = .ok (n, current) := by
  obtain ⟨hLength, values, hValues, rfl⟩ := h
  exact decodeUnicodeEscapeSequence_append hValues hLength current

theorem Digits.plain (h : Digits n digits) : ∀ d ∈ digits, d ≠ '"' ∧ d ≠ '\\' := by
  obtain ⟨-, values, hValues, -⟩ := h
  intro d hD
  have hMem : hexValue d ∈ values.map some := hValues ▸ List.mem_map_of_mem hD
  have hNone : hexValue '"' = none ∧ hexValue '\\' = none := by decide
  constructor
  · rintro rfl
    rw [hNone.1] at hMem
    simp at hMem
  · rintro rfl
    rw [hNone.2] at hMem
    simp at hMem

/-- A pair of numbers is read as the character beyond 2^16. -/
theorem decodeUnicodeCodePoint_pair {c : Char} {high low : List Char} (h : 0x10000 ≤ c.toNat)
    (hHigh : Digits (0xD800 + (c.toNat - 0x10000) / 0x400) high)
    (hLow : Digits (0xDC00 + (c.toNat - 0x10000) % 0x400) low) (current : List Char) :
    decodeUnicodeCodePoint token (high ++ '\\' :: 'u' :: (low ++ current)) =
      .ok (c.toNat, current) := by
  have hValid := Utf8.toNat_valid c
  have hLength : ¬ ('\\' :: 'u' :: (low ++ current)).length < 6 := by
    rw [List.length_cons, List.length_cons, List.length_append, hLow.1]
    omega
  have hBits : ∀ n, n &&& 0x3FF = n % 0x400 := fun n => Nat.and_two_pow_sub_one_eq_mod n 10
  have hSum : 0x10000 + ((0xD800 + (c.toNat - 0x10000) / 0x400) % 0x400) <<< 10 +
      (0xDC00 + (c.toNat - 0x10000) % 0x400) % 0x400 = c.toNat := by
    rw [Nat.shiftLeft_eq]
    omega
  unfold decodeUnicodeCodePoint
  rw [hHigh.decode, ok_bind]
  dsimp only
  rw [if_pos (by omega), if_neg hLength, if_neg (by simp), if_neg (by simp)]
  have hDrop : ('\\' :: 'u' :: (low ++ current)).drop 2 = low ++ current := rfl
  rw [hDrop, hLow.decode, ok_bind]
  dsimp only
  rw [hBits, hBits, hSum]
  rfl

end

-- ---------------------------------------------------------------------------
-- What a spelling is decoded to
-- ---------------------------------------------------------------------------

/-- Characters that are no quotes and no backslashes do not end a text. -/
theorem readString_plain {ds : List Char} (h : ∀ d ∈ ds, d ≠ '"' ∧ d ≠ '\\')
    (current : List Char) : readString (ds ++ current) = readString current := by
  induction ds with
  | nil => rfl
  | cons d ds ih =>
    obtain ⟨hD, hDs⟩ := List.forall_mem_cons.mp h
    rw [List.cons_append, readString_other hD.1 hD.2, ih hDs]

/-- A part does not end the text. -/
theorem Spells.readString {c : Char} {part : List Char} (h : Spells c part)
    (current : List Char) : readString (part ++ current) = Reader.readString current := by
  cases h with
  | copied hQuote hSlash => exact readString_plain (plain_bytesOf hQuote hSlash) current
  | letter h => exact readString_escape _ current
  | number h =>
    rw [List.cons_append, List.cons_append, readString_escape, readString_plain h.plain]
  | pair _ hHigh hLow =>
    rw [List.append_assoc, List.cons_append, List.cons_append, List.cons_append, List.cons_append,
      readString_escape, readString_plain hHigh.plain, readString_escape,
      readString_plain hLow.plain]

section

variable {token : Token}

/-- One pass of the loop of `decodeString`. -/
theorem run_pass {text rest piece : List Char} {c : Char} (hHead : text.head? = some c)
    (hQuote : c ≠ '"') (hChar : decodeChar token text = .ok (piece, rest)) (decoded : List Char) :
    (decodeLoop token).run (decoded, text) = (decodeLoop token).run (decoded ++ piece, rest) := by
  refine While.run_of_ok ?_ ?_
  · show text.head?.any (· ≠ '"') = true
    rw [hHead]
    exact decide_eq_true hQuote
  · show (decodeChar token text).map _ = _
    rw [hChar]
    rfl

/-- Characters that are copied, one in each pass. -/
theorem run_plain {ds : List Char} (h : ∀ d ∈ ds, d ≠ '"' ∧ d ≠ '\\')
    (decoded rest : List Char) :
    (decodeLoop token).run (decoded, ds ++ rest) =
      (decodeLoop token).run (decoded ++ ds, rest) := by
  induction ds generalizing decoded with
  | nil => rw [List.nil_append, List.append_nil]
  | cons d ds ih =>
    obtain ⟨hD, hDs⟩ := List.forall_mem_cons.mp h
    have hChar : decodeChar token (d :: (ds ++ rest)) = .ok ([d], ds ++ rest) := by
      rw [decodeChar, if_neg hD.2]
    rw [List.cons_append, run_pass rfl hD.1 hChar, ih hDs, List.append_assoc,
      List.singleton_append]

/-- **A part is decoded** to the UTF-8 of its character. -/
theorem Spells.run {c : Char} {part : List Char} (h : Spells c part) (decoded rest : List Char) :
    (decodeLoop token).run (decoded, part ++ rest) =
      (decodeLoop token).run (decoded ++ bytesOf c, rest) := by
  -- both spellings with numbers end in the same character
  have hNumber : ∀ current, decodeUnicodeCodePoint token current = .ok (c.toNat, rest) →
      (decodeLoop token).run (decoded, '\\' :: 'u' :: current) =
        (decodeLoop token).run (decoded ++ bytesOf c, rest) := by
    intro current hPoint
    refine run_pass rfl (by decide) ?_ decoded
    have hNone : shortEscapes.lookup 'u' = none := by decide
    rw [decodeChar, if_pos rfl, decodeEscape, hNone, if_pos rfl, hPoint, ok_bind]
    dsimp only
    rw [codePointToUTF8_eq]
    rfl
  -- one case for each way to write a character
  cases h with
  | copied hQuote hSlash => exact run_plain (plain_bytesOf hQuote hSlash) decoded rest
  | @letter letter h =>
    have hAscii : ∀ pair ∈ shortEscapes, pair.2.toNat ≤ 0x7F := by decide
    have hMem : (letter, c) ∈ shortEscapes := by
      obtain ⟨before, after, hSplit, -⟩ := List.lookup_eq_some_iff.mp h
      rw [hSplit]
      simp
    rw [← codePointToUTF8_eq, codePointToUTF8_ascii (hAscii _ hMem)]
    refine run_pass rfl (by decide) ?_ decoded
    rw [List.cons_append, decodeChar, if_pos rfl, List.singleton_append, decodeEscape, h]
  | number h =>
    have hValid := Utf8.toNat_valid c
    rw [List.cons_append, List.cons_append]
    exact hNumber _ (decodeUnicodeCodePoint_single (h.decode rest) (by omega))
  | pair hLarge hHigh hLow =>
    rw [List.append_assoc, List.cons_append, List.cons_append, List.cons_append, List.cons_append]
    exact hNumber _ (decodeUnicodeCodePoint_pair hLarge hHigh hLow rest)

end

section

variable {cs : List Char} {parts : List (List Char)} (h : List.Forall₂ Spells cs parts)

include h

theorem readString_spelled (rest : List Char) :
    readString (parts.flatten ++ '"' :: rest) = (true, rest) := by
  induction h with
  | nil => exact readString_quote rest
  | cons hPart _ ih => rw [List.flatten_cons, List.append_assoc, hPart.readString, ih]

theorem run_spelled {token : Token} (decoded : List Char) :
    (decodeLoop token).run (decoded, parts.flatten) = .ok (decoded ++ cs.flatMap bytesOf, []) := by
  induction h generalizing decoded with
  | nil =>
    rw [List.flatMap_nil, List.append_nil]
    exact While.run_of_not rfl
  | cons hPart _ ih =>
    rw [List.flatten_cons, hPart.run, ih, List.flatMap_cons, List.append_assoc]

/-- **Spellings of a text**: whatever way it is spelled, a text in JSON is read
to its end, and decoded to the UTF-8 of the text. -/
theorem decode_spelled (scan : List Char → Option ℚ) (rest : List Char) :
    parse scan (String.ofList ('"' :: (parts.flatten ++ '"' :: rest))) =
      .ok (.str (kept (cs.flatMap bytesOf))) := by
  have hToken : readToken ('"' :: (parts.flatten ++ '"' :: rest)) =
      ⟨.tokenString, '"' :: (parts.flatten ++ '"' :: rest), rest⟩ := by
    rw [readToken_cons rfl, tokenAt_quote (readString_spelled h rest)]
  have hText : Token.text ⟨.tokenString, '"' :: (parts.flatten ++ '"' :: rest), rest⟩ =
      '"' :: parts.flatten ++ ['"'] := by
    have hAppend := text_append .tokenString ('"' :: parts.flatten ++ ['"']) rest
    rwa [List.append_assoc, List.cons_append, List.singleton_append] at hAppend
  unfold parse
  rw [String.toList_ofList, readValue, skipCommentTokens_eq hToken (by simp), ok_bind]
  dsimp only
  unfold decodeString
  rw [hText, List.cons_append, List.tail_cons, List.dropLast_concat, run_spelled h []]
  rfl

end

/-- A text with an escape, a pair and a character that stands for itself. -/
theorem decode_spelled_clef :
    parse scanDecimal (String.ofList ('"' :: (["\\u00E9".toList, "\\ud834\\udd1e".toList,
      ['x']].flatten ++ '"' :: []))) =
      .ok (.str (kept (['\u00e9', Char.ofNat 0x1D11E, 'x'].flatMap bytesOf))) := by
  have hNumber : Spells '\u00e9' "\\u00E9".toList :=
    .number ⟨rfl, [0, 0, 14, 9], by decide, by decide⟩
  have hPair : Spells (Char.ofNat 0x1D11E) "\\ud834\\udd1e".toList :=
    @Spells.pair _ "d834".toList "dd1e".toList (by decide)
      ⟨rfl, [13, 8, 3, 4], by decide, by decide⟩ ⟨rfl, [13, 13, 1, 14], by decide, by decide⟩
  have hCopied : Spells 'x' ['x'] := .copied (by decide) (by decide)
  exact decode_spelled (.cons hNumber (.cons hPair (.cons hCopied .nil))) scanDecimal []

end Reader

end PushStreamer
