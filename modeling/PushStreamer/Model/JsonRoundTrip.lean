import PushStreamer.Model.JsonNumbers

/-!
# Writing and reading JSON

What `Json::Reader` reads of a text that `Json::FastWriter` has written. Texts
come back as they were, members in the order of their names, and whole numbers
near the ends of their range as `double`.

* `parse_write` — what is written of a value is read as `reread` of it.
* `parse_rewrite` — a value that was read comes back, up to its real numbers.
-/

namespace PushStreamer

namespace Reader

open FastWriter Results

-- ---------------------------------------------------------------------------
-- Texts
-- ---------------------------------------------------------------------------

/-- Hexadecimal digits that are read one after the other. -/
theorem decodeDigits_append {token : Token} {digits : List Char} {values : List ℕ} (unicode : ℕ)
    (h : digits.map hexValue = values.map some) (current : List Char) :
    decodeDigits token digits.length unicode (digits ++ current) =
      .ok (values.foldl (fun n d => n * 16 + d) unicode, current) := by
  induction digits generalizing values unicode with
  | nil =>
    cases values with
    | nil => rfl
    | cons d values => cases h
  | cons c digits ih =>
    cases values with
    | nil => cases h
    | cons d values =>
      obtain ⟨hHead, hTail⟩ := List.cons.inj h
      rw [List.length_cons, List.cons_append, decodeDigits, hHead]
      exact ih _ hTail

/-- Four digits. -/
theorem decodeUnicodeEscapeSequence_append {token : Token} {digits : List Char}
    {values : List ℕ} (h : digits.map hexValue = values.map some) (hLength : digits.length = 4)
    (current : List Char) :
    decodeUnicodeEscapeSequence token (digits ++ current) =
      .ok (values.foldl (fun n d => n * 16 + d) 0, current) := by
  unfold decodeUnicodeEscapeSequence
  rw [if_neg (by rw [List.length_append]; omega), ← hLength]
  exact decodeDigits_append 0 h current

/-- A number of up to four hexadecimal digits that is no first half of a pair. -/
theorem decodeUnicodeCodePoint_single {token : Token} {digits : List Char} {n : ℕ}
    {current : List Char} (h : decodeUnicodeEscapeSequence token digits = .ok (n, current))
    (hSingle : ¬ (0xD800 ≤ n ∧ n ≤ 0xDBFF)) :
    decodeUnicodeCodePoint token digits = .ok (n, current) := by
  unfold decodeUnicodeCodePoint
  rw [h, ok_bind]
  dsimp only
  rw [if_neg hSingle]
  rfl

/-- The digits that the writer writes for a control character. -/
theorem hexValue_hex {n : ℕ} (h : n < 32) :
    (hex n).map hexValue = [0, 0, n / 16, n % 16].map some := by
  have hAll : ∀ n < 32, (hex n).map hexValue = [0, 0, n / 16, n % 16].map some := by decide
  exact hAll n h

/-- The code of a control character has four digits. -/
theorem length_hex {n : ℕ} (h : n < 32) : (hex n).length = 4 := by
  have hAll : ∀ n < 32, (hex n).length = 4 := by decide
  exact hAll n h

/-- An ASCII character is its own encoding. -/
theorem codePointToUTF8_ascii {c : Char} (h : c.toNat ≤ 0x7F) : codePointToUTF8 c.toNat = [c] := by
  unfold codePointToUTF8
  rw [if_pos h, Char.ofNat_toNat]

/-- The escapes that the reader has a character for. -/
theorem escape_special {c : Char} (h : c ∈ specials) :
    ∃ letter, escape c = ['\\', letter] ∧ shortEscapes.lookup letter = some c := by
  have hAll : specials = ['"', '\\', '\x08', '\x0c', '\n', '\r', '\t'] := by decide
  rw [hAll] at h
  simp only [List.mem_cons, List.not_mem_nil, or_false] at h
  rcases h with rfl | rfl | rfl | rfl | rfl | rfl | rfl
  · exact ⟨'"', rfl, rfl⟩
  · exact ⟨'\\', rfl, rfl⟩
  · exact ⟨'b', rfl, rfl⟩
  · exact ⟨'f', rfl, rfl⟩
  · exact ⟨'n', rfl, rfl⟩
  · exact ⟨'r', rfl, rfl⟩
  · exact ⟨'t', rfl, rfl⟩

/-- How a character is written: by a short escape, by its number, or as it is. -/
theorem escape_cases {P : List Char → Prop} {c : Char}
    (hShort : ∀ letter, shortEscapes.lookup letter = some c → P ['\\', letter])
    (hNumber : 0 < c.toNat → c.toNat < 32 → P ('\\' :: 'u' :: hex c.toNat))
    (hCopy : c ≠ '"' → c ≠ '\\' → P [c]) : P (escape c) := by
  by_cases hMem : c ∈ specials
  · obtain ⟨letter, hEscape, hLookup⟩ := escape_special hMem
    rw [hEscape]
    exact hShort letter hLookup
  rw [escape_of_not_mem hMem]
  split
  · rename_i hControl
    simp only [isControlCharacter, Bool.and_eq_true, decide_eq_true_eq] at hControl
    exact hNumber hControl.1 (by omega)
  · refine hCopy ?_ ?_
    · rintro rfl
      exact hMem (by decide)
    · rintro rfl
      exact hMem (by decide)

/-- **An escape of the writer** is read as its character. -/
theorem decodeChar_escape {token : Token} {c : Char} (current : List Char) :
    decodeChar token (escape c ++ current) = .ok ([c], current) := by
  refine escape_cases (P := fun text => decodeChar token (text ++ current) = .ok ([c], current))
    ?_ ?_ ?_
  · intro letter hLookup
    rw [List.cons_append, decodeChar, if_pos rfl, List.singleton_append, decodeEscape, hLookup]
  · intro hPos hLess
    have hDigits : decodeUnicodeEscapeSequence token (hex c.toNat ++ current) = _ :=
      decodeUnicodeEscapeSequence_append (hexValue_hex hLess) (length_hex hLess) current
    have hValue : [0, 0, c.toNat / 16, c.toNat % 16].foldl (fun n d => n * 16 + d) 0 = c.toNat := by
      simp only [List.foldl_cons, List.foldl_nil]
      omega
    rw [hValue] at hDigits
    have hPoint := decodeUnicodeCodePoint_single hDigits (by omega)
    rw [List.cons_append, List.cons_append, decodeChar, if_pos rfl, decodeEscape]
    have hNone : shortEscapes.lookup 'u' = none := by decide
    rw [hNone, if_pos rfl, hPoint, ok_bind]
    dsimp only
    rw [codePointToUTF8_ascii (by omega)]
    rfl
  · intro _ hSlash
    rw [List.singleton_append, decodeChar, if_neg hSlash]

/-- A `\u` escape has neither a quote nor a backslash in it. -/
theorem not_mem_hex : ∀ n < 32, '"' ∉ hex n ∧ '\\' ∉ hex n := by
  decide

/-- Characters that are neither quotes nor backslashes are skipped. -/
theorem readString_skip {cs : List Char} (hQuote : '"' ∉ cs) (hSlash : '\\' ∉ cs)
    (rest : List Char) : readString (cs ++ rest) = readString rest := by
  induction cs with
  | nil => rfl
  | cons c cs ih =>
    rw [List.mem_cons, not_or] at hQuote hSlash
    rw [List.cons_append, readString_other (Ne.symm hQuote.1) (Ne.symm hSlash.1),
      ih hQuote.2 hSlash.2]

/-- The quote of a text is escaped. -/
theorem readString_escapes (cs rest : List Char) :
    readString (cs.flatMap escape ++ '"' :: rest) = (true, rest) := by
  induction cs with
  | nil => exact readString_quote rest
  | cons c cs ih =>
    rw [List.flatMap_cons, List.append_assoc]
    refine escape_cases (P := fun text => readString (text ++ _) = _) ?_ ?_ ?_
    · intro letter _
      rw [List.cons_append, List.singleton_append, readString_escape, ih]
    · intro _ hLess
      obtain ⟨hQuote, hSlash⟩ := not_mem_hex _ hLess
      rw [List.cons_append, List.cons_append, readString_escape, readString_skip hQuote hSlash, ih]
    · intro hQuote hSlash
      rw [List.singleton_append, readString_other hQuote hSlash, ih]

/-- What is written for a character begins with no quote, which would end the string. -/
theorem head_escape (c : Char) : ∀ d, (escape c).head? = some d → d ≠ '"' := by
  refine escape_cases (P := fun text => ∀ d, text.head? = some d → d ≠ '"') ?_ ?_ ?_
  · rintro letter _ d h rfl
    cases h
  · rintro _ _ d h rfl
    cases h
  · rintro hQuote _ d h rfl
    exact hQuote (Option.some.inj h)

/-- Every character is written. -/
theorem escape_ne_nil (c : Char) : escape c ≠ [] :=
  escape_cases (P := fun text => text ≠ []) (fun _ _ => List.cons_ne_nil _ _)
    (fun _ _ => List.cons_ne_nil _ _) (fun _ _ => List.cons_ne_nil _ _)

/-- The loop of `decodeString` on a text that was escaped. -/
theorem run_decodeLoop {token : Token} (decoded cs : List Char) :
    (decodeLoop token).run (decoded, cs.flatMap escape) = .ok (decoded ++ cs, []) := by
  induction cs generalizing decoded with
  | nil =>
    rw [While.run_of_not rfl, List.append_nil]
    rfl
  | cons c cs ih =>
    have hCond : (decodeLoop token).cond (decoded, (c :: cs).flatMap escape) = true := by
      obtain ⟨d, ds, hEscape⟩ := List.exists_cons_of_ne_nil (escape_ne_nil c)
      have hQuote := head_escape c d (by rw [hEscape]; rfl)
      show ((c :: cs).flatMap escape).head?.any (· ≠ '"') = true
      rw [List.flatMap_cons, hEscape, List.cons_append, List.head?_cons]
      exact decide_eq_true hQuote
    have hBody : (decodeLoop token).body (decoded, (c :: cs).flatMap escape) =
        .ok (decoded ++ [c], cs.flatMap escape) := by
      show (decodeChar token ((c :: cs).flatMap escape)).map _ = _
      rw [List.flatMap_cons, decodeChar_escape]
      rfl
    rw [While.run_of_ok hCond hBody, ih, List.append_assoc, List.singleton_append]

/-- A quote starts a text. -/
theorem tokenAt_quote {current rest : List Char} (h : readString current = (true, rest)) :
    tokenAt '"' current = (.tokenString, rest) := by
  unfold tokenAt
  rw [h]
  rfl

/-- **A quoted text** is read as one token, which is decoded to the text. -/
theorem readToken_quoted (value : String) (rest : List Char) :
    ∃ token, readToken (valueToQuotedString value ++ rest) = token ∧ token.type = .tokenString ∧
      token.stop = rest ∧ decodeString token = .ok (cString value.toList) := by
  refine ⟨_, rfl, ?_⟩
  have hText : valueToQuotedString value ++ rest =
      '"' :: ((cString value.toList).flatMap escape ++ '"' :: rest) := by
    rw [valueToQuotedString_eq, List.cons_append, List.cons_append, List.append_assoc,
      List.singleton_append]
  have hToken : readToken (valueToQuotedString value ++ rest) =
      ⟨.tokenString, valueToQuotedString value ++ rest, rest⟩ := by
    rw [hText, readToken_cons rfl, tokenAt_quote (readString_escapes _ _)]
  rw [hToken]
  refine ⟨rfl, rfl, ?_⟩
  unfold decodeString
  rw [text_append, valueToQuotedString_eq, List.cons_append, List.tail_cons,
    List.dropLast_concat, run_decodeLoop]
  rfl

-- ---------------------------------------------------------------------------
-- Values
-- ---------------------------------------------------------------------------

section

variable (scan : List Char → Option ℚ)

mutual

/-- What a value is read back as, from the text that is written of it. -/
def reread : Value → Value
  | .null => .null
  | .int n => rereadNumber n
  | .uint n => rereadNumber n
  | .real q => .real ((scan (doubleToString q)).getD 0)
  | .str s => .str s
  | .bool b => .bool b
  | .arr xs => .arr (rereadElements xs)
  | .obj ms => .obj ((getMemberNames ms).map fun name =>
      (name, ((rereadMembers ms).lookup name).getD .null))

def rereadElements : List Value → List Value
  | [] => []
  | x :: xs => reread x :: rereadElements xs

def rereadMembers : List (String × Value) → List (String × Value)
  | [] => []
  | (name, x) :: ms => (name, reread x) :: rereadMembers ms

end

/-- A value as `Json::Value` can hold it, with real numbers whose texts can be
read. -/
inductive Storable : Value → Prop
  | null : Storable .null
  | int {n : ℤ} (hLower : intMin ≤ n) (hUpper : n ≤ intMax) : Storable (.int n)
  | uint {n : ℕ} (hUpper : n ≤ 4294967295) : Storable (.uint n)
  | real {q : ℚ} (h : Rereadable scan q) : Storable (.real q)
  | str {s : String} (h : ZeroFree s) : Storable (.str s)
  | bool (b : Bool) : Storable (.bool b)
  | arr {xs : List Value} (h : ∀ x ∈ xs, Storable x) : Storable (.arr xs)
  | obj {ms : List (String × Value)} (hNames : ∀ name x, ms.lookup name = some x → ZeroFree name)
      (h : ∀ name x, ms.lookup name = some x → Storable x) : Storable (.obj ms)

/-- The text is read as the value, whatever number of levels is left that is
enough for it, and whatever follows that is no part of a number. -/
def ReadAs (text : List Char) (x : Value) : Prop :=
  ∀ fuel rest, 2 * text.length + 1 ≤ fuel → Delimited rest →
    readValue scan fuel (text ++ rest) = .ok (x, rest)

variable {scan}

/-- The elements are read again one by one. -/
theorem rereadElements_eq (xs : List Value) : rereadElements scan xs = xs.map (reread scan) := by
  induction xs with
  | nil => rfl
  | cons x xs ih => rw [rereadElements, ih, List.map_cons]

/-- Members are read back one by one. -/
theorem lookup_rereadMembers (ms : List (String × Value)) (name : String) :
    (rereadMembers scan ms).lookup name = (ms.lookup name).map (reread scan) := by
  induction ms with
  | nil => rfl
  | cons m ms ih =>
    rw [rereadMembers, Value.lookup_member, Value.lookup_member, ih]
    split
    · rfl
    · rfl

/-- A name is found once with what is written for it. -/
theorem lookup_map_names (names : List String) (g : String → Value) (name : String) :
    (names.map fun name => (name, g name)).lookup name =
      if name ∈ names then some (g name) else none := by
  induction names with
  | nil => rfl
  | cons first names ih =>
    rw [List.map_cons, Value.lookup_member, ih]
    by_cases hFirst : name = first
    · rw [if_pos hFirst, if_pos (hFirst ▸ List.mem_cons_self), hFirst]
    · simp only [if_neg hFirst, List.mem_cons, or_iff_right hFirst]

/-- The members of an object that is read back. -/
theorem lookup_reread (scan : List Char → Option ℚ) (ms : List (String × Value)) :
    ∃ ks, reread scan (.obj ms) = .obj ks ∧
      ∀ name, ks.lookup name = (ms.lookup name).map (reread scan) := by
  refine ⟨_, rfl, fun name => ?_⟩
  rw [lookup_map_names, lookup_rereadMembers]
  cases hLookup : ms.lookup name with
  | none =>
    have hNot : name ∉ getMemberNames ms := by
      rw [mem_getMemberNames, hLookup]
      decide
    rw [if_neg hNot]
    rfl
  | some x =>
    have hMem : name ∈ getMemberNames ms := by
      rw [mem_getMemberNames, hLookup]
      rfl
    rw [if_pos hMem]
    rfl

/-- Nothing is lost of a text without zero characters. -/
theorem kept_cString {s : String} (h : ZeroFree s) : kept (cString s.toList) = s := by
  have hAll : ∀ c ∈ s.toList, c ≠ '\x00' := by
    rintro c hC rfl
    exact h hC
  unfold kept
  rw [cString_eq hAll, cString_eq hAll, String.ofList_toList]

section

variable {text : List Char} {fuel : ℕ}

/-- A number text is read back when its decoder gives the value. -/
theorem readAs_number {x : Value} (hText : Numeral text)
    (h : ∀ token : Token, token.text = text → decodeNumber scan token = .ok x) :
    ReadAs scan text x := by
  intro fuel rest hFuel hRest
  obtain ⟨fuel, rfl⟩ : ∃ n, fuel = n + 1 := ⟨fuel - 1, by omega⟩
  rw [readValue_numeral scan hText hRest, h _ (text_append _ _ _)]
  rfl

/-- A string in quotes is read back, with all its escapes. -/
theorem readAs_quoted {s : String} (h : ZeroFree s) :
    ReadAs scan (valueToQuotedString s) (.str s) := by
  intro fuel rest hFuel _
  obtain ⟨fuel, rfl⟩ : ∃ n, fuel = n + 1 := ⟨fuel - 1, by omega⟩
  obtain ⟨token, hToken, hType, hStop, hDecode⟩ := readToken_quoted s rest
  rw [readValue, skipCommentTokens_eq hToken (by rw [hType]; decide), ok_bind, hType]
  dsimp only
  rw [hDecode, ok_bind, kept_cString h, hStop]
  rfl

/-- What is written for a null is read as one. -/
theorem readAs_null : ReadAs scan "null".toList .null := by
  intro fuel rest hFuel _
  obtain ⟨fuel, rfl⟩ : ∃ n, fuel = n + 1 := ⟨fuel - 1, by omega⟩
  have hToken : readToken ("null".toList ++ rest) =
    ⟨.tokenNull, "null".toList ++ rest, rest⟩ := rfl
  rw [readValue, skipCommentTokens_eq hToken (by simp)]
  rfl

/-- What is written for a truth value is read as one. -/
theorem readAs_bool (b : Bool) :
    ReadAs scan (if b then "true" else "false").toList (.bool b) := by
  intro fuel rest hFuel _
  obtain ⟨fuel, rfl⟩ : ∃ n, fuel = n + 1 := ⟨fuel - 1, by omega⟩
  cases b with
  | true =>
    have hToken : readToken ("true".toList ++ rest) =
      ⟨.tokenTrue, "true".toList ++ rest, rest⟩ := rfl
    rw [if_pos rfl, readValue, skipCommentTokens_eq hToken (by simp)]
    rfl
  | false =>
    have hToken : readToken ("false".toList ++ rest) =
      ⟨.tokenFalse, "false".toList ++ rest, rest⟩ := rfl
    rw [if_neg Bool.false_ne_true, readValue, skipCommentTokens_eq hToken (by simp)]
    rfl

end

-- ---------------------------------------------------------------------------
-- Arrays
-- ---------------------------------------------------------------------------

/-- The text can stand at the start of an array: it is not skipped, and it does
not end the array. -/
def Starts (text : List Char) : Prop :=
  ∃ c cs, text = c :: cs ∧ isBlank c = false ∧ c ≠ ']'

/-- One token before the text `next`, of any type but two, perhaps behind blanks. It
ends a number before it. -/
def Separator (separator next : List Char) : Prop :=
  ∀ rest, ∃ type start, readToken (separator ++ (next ++ rest)) = ⟨type, start, next ++ rest⟩ ∧
    type ≠ .tokenArrayEnd ∧ type ≠ .tokenComment ∧ Delimited (separator ++ (next ++ rest))

/-- The elements of an array, each but the first behind its separator. -/
def separated : List Char → List (List Char × List Char) → List Char
  | text, [] => text
  | text, (separator, next) :: more => text ++ (separator ++ separated next more)

/-- Elements that are read behind separators. -/
def Elements (scan : List Char → Option ℚ) : List (List Char × List Char) → List Value → Prop :=
  List.Forall₂ fun element x => Separator element.1 element.2 ∧ ReadAs scan element.2 x

/-- The first text stands at the front. -/
theorem separated_eq_append (next : List Char) (more : List (List Char × List Char)) :
    ∃ tail, separated next more = next ++ tail := by
  cases more with
  | nil => exact ⟨[], (List.append_nil next).symm⟩
  | cons element more => exact ⟨_, rfl⟩

/-- A text is read as one value. -/
theorem ReadAs.unique {text : List Char} {x y : Value} (hX : ReadAs scan text x)
    (hY : ReadAs scan text y) : x = y := by
  have hRest : Delimited [] := fun c h => by cases h
  have hSame := (hX _ [] le_rfl hRest).symm.trans (hY _ [] le_rfl hRest)
  exact (Prod.ext_iff.mp (Except.ok.inj hSame)).1

/-- What is read back is not empty. -/
theorem ReadAs.length_pos {text : List Char} {x : Value} (h : ReadAs scan text x) :
    0 < text.length := by
  by_contra hZero
  obtain rfl := List.eq_nil_of_length_eq_zero (Nat.eq_zero_of_not_pos hZero)
  exact nomatch h 1 [] (by decide) fun _ hC => nomatch hC

/-- The elements of an array, after those that were read before. -/
theorem readArray_separated {text : List Char} {x : Value} {more : List (List Char × List Char)}
    {values : List Value} (hX : ReadAs scan text x) (hMore : Elements scan more values)
    (xs : List Value) {fuel : ℕ} (rest : List Char)
    (hFuel : 2 * (separated text more).length + 2 ≤ fuel) :
    readArray scan fuel xs (separated text more ++ ']' :: rest) =
      .ok (.arr (xs ++ x :: values), rest) := by
  unfold Elements at hMore
  induction hMore generalizing text x xs fuel with
  | nil =>
    obtain ⟨fuel, rfl⟩ : ∃ n, fuel = n + 1 := ⟨fuel - 1, by omega⟩
    rw [separated] at hFuel ⊢
    have hToken : readToken (']' :: rest) = ⟨.tokenArrayEnd, ']' :: rest, rest⟩ := rfl
    rw [readArray, hX fuel (']' :: rest) (by omega) (delimited_cons (by decide) rest), ok_bind]
    dsimp only
    rw [skipCommentTokens_eq hToken (by simp)]
    rfl
  | @cons element y more values hElement _ ih =>
    obtain ⟨separator, next⟩ := element
    obtain ⟨hSeparator, hNext⟩ : Separator separator next ∧ ReadAs scan next y := hElement
    obtain ⟨fuel, rfl⟩ : ∃ n, fuel = n + 1 := ⟨fuel - 1, by omega⟩
    have hPos := hX.length_pos
    rw [separated, List.length_append, List.length_append] at hFuel
    obtain ⟨tail, hTail⟩ := separated_eq_append next more
    obtain ⟨type, start, hToken, hEnd, hComment, hDelimited⟩ := hSeparator (tail ++ ']' :: rest)
    rw [← List.append_assoc next, ← hTail] at hToken hDelimited
    have hFirst := hX fuel (separator ++ (separated next more ++ ']' :: rest)) (by omega) hDelimited
    have hRest : readArray scan fuel (xs ++ [x]) (separated next more ++ ']' :: rest) = _ :=
      ih hNext (xs ++ [x]) (by omega)
    rw [List.append_assoc, List.singleton_append] at hRest
    rw [readArray, separated, List.append_assoc, List.append_assoc, hFirst, ok_bind]
    dsimp only
    rw [skipCommentTokens_eq hToken hComment, ok_bind]
    dsimp only
    -- the check that never fails
    rw [if_neg (by
      rw [decide_eq_true_eq]
      exact fun h => hEnd h.2), if_neg hEnd]
    exact hRest

/-- **Any token separates** the elements of an array. -/
theorem readAs_separated {text : List Char} {x : Value} {more : List (List Char × List Char)}
    {values : List Value} (hStarts : Starts text) (hX : ReadAs scan text x)
    (hMore : Elements scan more values) :
    ReadAs scan ('[' :: separated text more ++ [']']) (.arr (x :: values)) := by
  intro fuel rest hFuel _
  obtain ⟨fuel, rfl⟩ : ∃ n, fuel = n + 1 := ⟨fuel - 1, by omega⟩
  obtain ⟨c, cs, rfl, hBlank, hEnd⟩ := hStarts
  -- the first element starts at once: no blank is skipped, and the array is not empty
  obtain ⟨tail, hTail⟩ : ∃ tail, separated (c :: cs) more = c :: tail := by
    cases more with
    | nil => exact ⟨cs, rfl⟩
    | cons element more => exact ⟨_, rfl⟩
  have hText : '[' :: separated (c :: cs) more ++ [']'] ++ rest =
      '[' :: (separated (c :: cs) more ++ ']' :: rest) := by
    rw [List.append_assoc, List.cons_append, List.singleton_append]
  have hToken : readToken ('[' :: (separated (c :: cs) more ++ ']' :: rest)) =
    ⟨.tokenArrayBegin, '[' :: (separated (c :: cs) more ++ ']' :: rest),
      separated (c :: cs) more ++ ']' :: rest⟩ := rfl
  have hSkip : skipSpaces (separated (c :: cs) more ++ ']' :: rest) =
      separated (c :: cs) more ++ ']' :: rest := by
    rw [hTail, List.cons_append, skipSpaces, List.dropWhile_cons, hBlank,
      if_neg Bool.false_ne_true]
  have hFirst : (separated (c :: cs) more ++ ']' :: rest).head? ≠ some ']' := by
    rw [hTail, List.cons_append, List.head?_cons]
    exact fun hEq => hEnd (Option.some.inj hEq)
  have hLength : ('[' :: separated (c :: cs) more ++ [']']).length =
      (separated (c :: cs) more).length + 2 := by
    rw [List.length_append, List.length_cons]
    rfl
  rw [hText, readValue, skipCommentTokens_eq hToken (by simp), ok_bind]
  dsimp only
  rw [hSkip, if_neg hFirst]
  exact readArray_separated hX hMore [] rest (by omega)

/-- A comma separates without anything around it. -/
theorem separator_comma (next : List Char) : Separator [','] next := fun rest =>
  ⟨.tokenArraySeparator, ',' :: (next ++ rest), rfl, nofun, nofun,
    delimited_cons (by decide) (next ++ rest)⟩

/-- Elements that are written are separated by commas. -/
theorem commas_eq_separated (text : List Char) (texts : List (List Char)) :
    commas (text :: texts) = separated text (texts.map fun next => ([','], next)) := by
  induction texts generalizing text with
  | nil => rfl
  | cons next texts ih =>
    have hStep : commas (text :: next :: texts) = text ++ ',' :: commas (next :: texts) := rfl
    rw [hStep, ih, List.map_cons, separated, List.singleton_append]

/-- An array is read back when its elements are. -/
theorem readAs_arr {texts : List (List Char)} {values : List Value}
    (hRead : List.Forall₂ (ReadAs scan) texts values) (hStarts : ∀ text ∈ texts, Starts text) :
    ReadAs scan ('[' :: commas texts ++ [']']) (.arr values) := by
  cases hRead with
  | nil =>
    intro fuel rest hFuel _
    obtain ⟨fuel, rfl⟩ : ∃ n, fuel = n + 1 := ⟨fuel - 1, by omega⟩
    have hToken : readToken ('[' :: ']' :: rest) =
      ⟨.tokenArrayBegin, '[' :: ']' :: rest, ']' :: rest⟩ := rfl
    have hText : '[' :: commas [] ++ [']'] ++ rest = '[' :: ']' :: rest := rfl
    rw [hText, readValue, skipCommentTokens_eq hToken (by simp)]
    rfl
  | @cons text x texts values hX hRest =>
    rw [commas_eq_separated]
    refine readAs_separated (hStarts text List.mem_cons_self) hX ?_
    unfold Elements
    rw [List.forall₂_map_left_iff]
    exact hRest.imp fun _ _ h => ⟨separator_comma _, h⟩

-- ---------------------------------------------------------------------------
-- Objects
-- ---------------------------------------------------------------------------

/-- A new last member. -/
theorem setMapped_last {name : String} {x : Value} {ms : List (String × Value)}
    (h : ∀ m ∈ ms, m.1 < name) : setMapped name x ms = ms ++ [(name, x)] := by
  induction ms with
  | nil => rfl
  | cons m ms ih =>
    obtain ⟨hHead, hTail⟩ := List.forall_mem_cons.mp h
    have hNe : name ≠ m.1 := ne_of_gt hHead
    rw [setMapped, if_neg (lt_asymm hHead), if_neg hNe, ih hTail, List.cons_append]

section

variable {f : String → List Char} {g : String → Value} {names : List String}

/-- A member of an object, with its name. -/
def entryText (f : String → List Char) (name : String) : List Char :=
  valueToQuotedString name ++ ':' :: f name

/-- The text of the first member, and what stands behind it. -/
theorem commas_entries (f : String → List Char) (name : String) (names : List String)
    (rest : List Char) :
    ∃ tail, commas ((name :: names).map (entryText f)) ++ '}' :: rest =
        valueToQuotedString name ++ ':' :: (f name ++ tail) ∧ Delimited tail ∧
      (names = [] ∧ tail = '}' :: rest ∨ names ≠ [] ∧
        tail = ',' :: (commas (names.map (entryText f)) ++ '}' :: rest)) ∧
      (commas (names.map (entryText f))).length + (f name).length + 1 ≤
        (commas ((name :: names).map (entryText f))).length := by
  -- the entry is the last one, or a comma follows it
  cases names with
  | nil =>
    refine ⟨'}' :: rest, ?_, delimited_cons (by decide) rest, Or.inl ⟨rfl, rfl⟩, ?_⟩
    · show entryText f name ++ '}' :: rest = _
      rw [entryText, List.append_assoc, List.cons_append]
    · show 0 + (f name).length + 1 ≤ (entryText f name).length
      rw [entryText, List.length_append, List.length_cons]
      omega
  | cons next names =>
    have hStep : commas ((name :: next :: names).map (entryText f)) =
      entryText f name ++ ',' :: commas ((next :: names).map (entryText f)) := rfl
    refine ⟨_, ?_, delimited_cons (by decide) _, Or.inr ⟨List.cons_ne_nil _ _, rfl⟩, ?_⟩
    · rw [hStep, entryText, List.append_assoc, List.append_assoc, List.cons_append,
        List.cons_append]
    · rw [hStep, entryText, List.length_append, List.length_append, List.length_cons,
        List.length_cons]
      omega

/-- The members of an object, after those that were read before. -/
theorem readObject_commas (hNames : ∀ name ∈ names, ZeroFree name)
    (hRead : ∀ name ∈ names, ReadAs scan (f name) (g name)) (hNe : names ≠ [])
    (hSorted : names.Pairwise (· < ·)) (ms : List (String × Value))
    (hMs : ∀ m ∈ ms, ∀ name ∈ names, m.1 < name) (last : List Char) (fuel : ℕ) (rest : List Char)
    (hFuel : 2 * (commas (names.map (entryText f))).length + 1 ≤ fuel) :
    readObject scan fuel last ms (commas (names.map (entryText f)) ++ '}' :: rest) =
      .ok (.obj (ms ++ names.map fun name => (name, g name)), rest) := by
  induction names generalizing ms last fuel with
  | nil => exact absurd rfl hNe
  | cons name names ih =>
    obtain ⟨fuel, rfl⟩ : ∃ n, fuel = n + 1 := ⟨fuel - 1, by omega⟩
    obtain ⟨hName, hNames⟩ := List.forall_mem_cons.mp hNames
    obtain ⟨hX, hRead⟩ := List.forall_mem_cons.mp hRead
    obtain ⟨hLess, hSorted⟩ := List.pairwise_cons.mp hSorted
    obtain ⟨tail, hText, hTail, hMore, hLength⟩ := commas_entries f name names rest
    -- the name is read as it was written, and the value behind its colon
    obtain ⟨token, hToken, hType, hStop, hDecode⟩ :=
      readToken_quoted name (':' :: (f name ++ tail))
    have hColon : readToken (':' :: (f name ++ tail)) =
      ⟨.tokenMemberSeparator, ':' :: (f name ++ tail), f name ++ tail⟩ := rfl
    have hValue := hX fuel tail (by omega) hTail
    -- in the order of the names each one is new, and put at the end
    have hSet : setMapped name (g name) ms = ms ++ [(name, g name)] :=
      setMapped_last fun m hM => hMs m hM name List.mem_cons_self
    rw [readObject, hText, skipCommentTokens_eq hToken (by rw [hType]; decide), ok_bind,
      if_neg (by rw [hType]; exact fun h => absurd h.1 (by decide)), if_neg (not_not.mpr hType),
      hDecode, ok_bind, hStop, hColon]
    dsimp only
    rw [if_neg (not_not.mpr rfl), hValue, ok_bind, kept_cString hName]
    dsimp only
    rw [hSet]
    -- the object ends here, or the next member is read
    rcases hMore with ⟨rfl, rfl⟩ | ⟨hNe, rfl⟩
    · have hEnd : readToken ('}' :: rest) = ⟨.tokenObjectEnd, '}' :: rest, rest⟩ := rfl
      rw [hEnd]
      rfl
    · have hComma : readToken (',' :: (commas (names.map (entryText f)) ++ '}' :: rest)) =
        ⟨.tokenArraySeparator, ',' :: (commas (names.map (entryText f)) ++ '}' :: rest),
          commas (names.map (entryText f)) ++ '}' :: rest⟩ := rfl
      rw [hComma]
      have hRest := ih hNames hRead hNe hSorted (ms ++ [(name, g name)]) ?_
        (cString name.toList) fuel (by omega)
      · rw [List.append_assoc, List.singleton_append] at hRest
        exact hRest
      · intro m hM other hOther
        rcases List.mem_append.mp hM with hOld | hNew
        · exact hMs m hOld other (List.mem_cons_of_mem _ hOther)
        · rw [List.mem_singleton.mp hNew]
          exact hLess other hOther

/-- An object is read back when its members are, and their names are in order. -/
theorem readAs_obj (hNames : ∀ name ∈ names, ZeroFree name)
    (hRead : ∀ name ∈ names, ReadAs scan (f name) (g name)) (hSorted : names.Pairwise (· < ·)) :
    ReadAs scan ('{' :: commas (names.map (entryText f)) ++ ['}'])
      (.obj (names.map fun name => (name, g name))) := by
  intro fuel rest hFuel _
  obtain ⟨fuel, rfl⟩ : ∃ n, fuel = n + 1 := ⟨fuel - 1, by omega⟩
  have hText : '{' :: commas (names.map (entryText f)) ++ ['}'] ++ rest =
      '{' :: (commas (names.map (entryText f)) ++ '}' :: rest) := by
    rw [List.append_assoc, List.cons_append, List.singleton_append]
  have hLength : ('{' :: commas (names.map (entryText f)) ++ ['}']).length =
      (commas (names.map (entryText f))).length + 2 := by
    rw [List.length_append, List.length_cons]
    rfl
  have hToken : readToken ('{' :: (commas (names.map (entryText f)) ++ '}' :: rest)) =
    ⟨.tokenObjectBegin, '{' :: (commas (names.map (entryText f)) ++ '}' :: rest),
      commas (names.map (entryText f)) ++ '}' :: rest⟩ := rfl
  rw [hText, readValue, skipCommentTokens_eq hToken (by simp), ok_bind]
  dsimp only
  -- an object without members ends at once
  by_cases hNe : names = []
  · subst hNe
    obtain ⟨fuel, rfl⟩ : ∃ n, fuel = n + 1 := ⟨fuel - 1, by omega⟩
    have hEnd : readToken ('}' :: rest) = ⟨.tokenObjectEnd, '}' :: rest, rest⟩ := rfl
    have hNil : commas ([].map (entryText f)) ++ '}' :: rest = '}' :: rest := rfl
    rw [hNil, readObject, skipCommentTokens_eq hEnd (by simp), ok_bind, if_pos ⟨rfl, rfl⟩]
    rfl
  · have hRest := readObject_commas hNames hRead hNe hSorted [] (List.forall_mem_nil _) []
      fuel rest (by omega)
    rw [List.nil_append] at hRest
    exact hRest

end

-- ---------------------------------------------------------------------------
-- What is written is read
-- ---------------------------------------------------------------------------

/-- The names of an object are in order, each once. -/
theorem pairwise_getMemberNames {α : Type} (ms : List (String × α)) :
    (getMemberNames ms).Pairwise (· < ·) := by
  have hSorted : (getMemberNames ms).Pairwise (· ≤ ·) := List.pairwise_insertionSort _ _
  have hNodup : (getMemberNames ms).Nodup :=
    (List.perm_insertionSort _ _).nodup_iff.mpr (List.nodup_dedup _)
  exact hSorted.imp₂ (fun _ _ hLe hNe => lt_of_le_of_ne hLe hNe) hNodup

/-- What is written begins with the first character of a value. -/
theorem starts_writeValue (v : Value) : Starts (writeValue v) := by
  have hNumeral : ∀ text, Numeral text → Starts text := by
    intro text h
    obtain ⟨c, hHead, hFirst⟩ := h.first
    obtain ⟨cs, rfl⟩ := List.head?_eq_some_iff.mp hHead
    refine ⟨c, cs, rfl, isBlank_of_first hFirst, ?_⟩
    rintro rfl
    simp at hFirst
  cases v with
  | null => exact ⟨'n', "ull".toList, rfl, by decide, by decide⟩
  | int n => exact hNumeral _ numeral_toString
  | uint n => exact hNumeral _ (numeral_toString (n := n))
  | real q => exact hNumeral _ (pointed_doubleToString q).numeral
  | str s =>
    rw [writeValue, valueToQuotedString_eq]
    exact ⟨'"', _, rfl, by decide, by decide⟩
  | bool b =>
    cases b with
    | true => exact ⟨'t', "rue".toList, rfl, by decide, by decide⟩
    | false => exact ⟨'f', "alse".toList, rfl, by decide, by decide⟩
  | arr xs => exact ⟨'[', _, rfl, by decide, by decide⟩
  | obj ms => exact ⟨'{', _, rfl, by decide, by decide⟩

/-- **What is written of a value** is read as `reread` of it. -/
theorem readAs_writeValue (hScan : ScansIntegers scan) {v : Value} (h : Storable scan v) :
    ReadAs scan (writeValue v) (reread scan v) := by
  induction h with
  | null => exact readAs_null
  | int hLower hUpper =>
    -- an integer is a number text, and decoded as such within its bounds
    refine readAs_number numeral_toString fun token hText => ?_
    exact decodeNumber_integer hScan hText hLower (by unfold intMax at hUpper; omega)
  | @uint n hUpper =>
    refine readAs_number (numeral_toString (n := n)) fun token hText => ?_
    exact decodeNumber_integer hScan hText (by unfold intMin; omega) (by omega)
  | @real q h =>
    refine readAs_number (pointed_doubleToString q).numeral fun token hText => ?_
    exact decodeNumber_double hText h
  | str h => exact readAs_quoted h
  | bool b => exact readAs_bool b
  | @arr xs h ih =>
    rw [writeValue, reread, writeElements_eq, rereadElements_eq]
    refine readAs_arr ?_ ?_
    · rw [List.forall₂_map_left_iff, List.forall₂_map_right_iff, List.forall₂_same]
      exact ih
    · intro text hText
      obtain ⟨x, -, rfl⟩ := List.mem_map.mp hText
      exact starts_writeValue x
  | @obj ms hNames h ih =>
    -- the writer lists the same names, whatever it writes for them
    have hSame : getMemberNames (writeMembers ms) = getMemberNames ms :=
      getMemberNames_congr fun name => by rw [lookup_writeMembers, Option.isSome_map]
    rw [writeValue, reread, objectText, hSame]
    refine readAs_obj (f := fun name => ((writeMembers ms).lookup name).getD []) ?_ ?_
      (pairwise_getMemberNames ms)
    · intro name hMem
      obtain ⟨x, hX⟩ := Option.isSome_iff_exists.mp (mem_getMemberNames.mp hMem)
      exact hNames name x hX
    · intro name hMem
      obtain ⟨x, hX⟩ := Option.isSome_iff_exists.mp (mem_getMemberNames.mp hMem)
      rw [lookup_writeMembers, lookup_rereadMembers, hX]
      exact ih name x hX

/-- The document that is written, with anything behind it. -/
theorem parse_of_readAs {v x : Value} (h : ReadAs scan (writeValue v) x) (rest : String) :
    parse scan (write v ++ rest) = .ok x := by
  have hText : (write v ++ rest).toList = writeValue v ++ '\n' :: rest.toList := by
    rw [String.toList_append, write, String.toList_ofList, List.append_assoc,
      List.singleton_append]
  unfold parse
  rw [hText, h _ _ ?_ (delimited_cons (by decide) _)]
  · rfl
  · rw [List.length_append]
    omega

/-- **The round trip**: what is written of a value is read as `reread` of it,
whatever follows. -/
theorem parse_write (hScan : ScansIntegers scan) {v : Value} (h : Storable scan v)
    (rest : String) : parse scan (write v ++ rest) = .ok (reread scan v) :=
  parse_of_readAs (readAs_writeValue hScan h) rest

/-- A text that is a document of its own. -/
theorem ReadAs.parse {text : List Char} {x : Value} (h : ReadAs scan text x) :
    parse scan (String.ofList text) = .ok x := by
  have hRead := h (2 * text.length + 2) [] (by omega) fun _ hC => nomatch hC
  rw [List.append_nil] at hRead
  unfold Reader.parse
  rw [String.toList_ofList, hRead]
  rfl

/-- **The separators of an array**: whatever token stands between two elements, and
does not go on with a number before it, they are read as with commas. -/
theorem any_separator {text : List Char} {x : Value} {more : List (List Char × List Char)}
    {values : List Value} (hStarts : Starts text) (hX : ReadAs scan text x)
    (hMore : Elements scan more values) :
    parse scan (String.ofList ('[' :: separated text more ++ [']'])) =
      parse scan (String.ofList ('[' :: commas (text :: more.map Prod.snd) ++ [']'])) := by
  have hCommas : Elements scan (more.map fun element => ([','], element.2)) values := by
    unfold Elements at hMore ⊢
    rw [List.forall₂_map_left_iff]
    exact hMore.imp fun _ _ h => ⟨separator_comma _, h.2⟩
  rw [commas_eq_separated, List.map_map, (readAs_separated hStarts hX hMore).parse]
  exact (readAs_separated hStarts hX hCommas).parse.symm

/-- An array with a colon and a number for its commas. -/
theorem any_separator_colon :
    parse (fun _ => none) (String.ofList ('[' :: separated "null".toList
      [([':'], "true".toList), ([' ', '5'], "false".toList)] ++ [']'])) =
      parse (fun _ => none) (String.ofList "[null,true,false]".toList) := by
  have hColon : Separator [':'] "true".toList := fun rest =>
    ⟨.tokenMemberSeparator, ':' :: ("true".toList ++ rest), rfl, nofun, nofun,
      delimited_cons (by decide) ("true".toList ++ rest)⟩
  have hNumber : Separator [' ', '5'] "false".toList := fun rest =>
    ⟨.tokenNumber, '5' :: ("false".toList ++ rest), rfl, nofun, nofun,
      delimited_cons (by decide) ('5' :: ("false".toList ++ rest))⟩
  exact any_separator ⟨'n', "ull".toList, rfl, by decide, by decide⟩ readAs_null
    (.cons ⟨hColon, readAs_bool true⟩ (.cons ⟨hNumber, readAs_bool false⟩ .nil))

-- ---------------------------------------------------------------------------
-- What was read
-- ---------------------------------------------------------------------------

/-- The real numbers of the value are all of a kind. -/
inductive AllReals (P : ℚ → Prop) : Value → Prop
  | null : AllReals P .null
  | int (n : ℤ) : AllReals P (.int n)
  | uint (n : ℕ) : AllReals P (.uint n)
  | real {q : ℚ} (h : P q) : AllReals P (.real q)
  | str (s : String) : AllReals P (.str s)
  | bool (b : Bool) : AllReals P (.bool b)
  | arr {xs : List Value} (h : ∀ x ∈ xs, AllReals P x) : AllReals P (.arr xs)
  | obj {ms : List (String × Value)} (h : ∀ m ∈ ms, AllReals P m.2) : AllReals P (.obj ms)

/-- A `double` that is read back from what is written of it. -/
def Settled (scan : List Char → Option ℚ) (q : ℚ) : Prop :=
  IsDouble q ∧ scan (doubleToString q) = some q

/-- A real that is settled can be read back. -/
theorem Settled.rereadable {q : ℚ} (h : Settled scan q) : Rereadable scan q :=
  ⟨h.1, by rw [h.2]; rfl⟩

/-- A weaker property of the reals. -/
theorem AllReals.mono {P Q : ℚ → Prop} (hImp : ∀ q, P q → Q q) {v : Value} (h : AllReals P v) :
    AllReals Q v := by
  induction h with
  | null => exact .null
  | int n => exact .int n
  | uint n => exact .uint n
  | real h => exact .real (hImp _ h)
  | str s => exact .str s
  | bool b => exact .bool b
  | arr _ ih => exact .arr ih
  | obj _ ih => exact .obj ih

/-- A member that is found is one of the members. -/
theorem mem_of_lookup {ms : List (String × Value)} {name : String} {x : Value}
    (h : ms.lookup name = some x) : (name, x) ∈ ms := by
  obtain ⟨before, after, rfl, -⟩ := List.lookup_eq_some_iff.mp h
  simp

/-- What the reader has built can be stored, if its reals can be read back. -/
theorem storable_of_parsed {v : Value} (h : Parsed scan v) (hReals : AllReals (Rereadable scan) v) :
    Storable scan v := by
  induction h with
  | null => exact .null
  | int hLower hUpper => exact .int (by unfold intMin; omega) hUpper
  | uint hLower hUpper => exact .uint (by omega)
  | real h =>
    cases hReals with
    | real hQ => exact .real hQ
  | str h => exact .str h
  | bool b => exact .bool b
  | arr _ ih =>
    cases hReals with
    | arr hReals => exact .arr fun x hX => ih x hX (hReals x hX)
  | obj _ hNames _ ih =>
    cases hReals with
    | obj hReals =>
      refine .obj (fun name x hLookup => hNames (name, x) (mem_of_lookup hLookup)) ?_
      intro name x hLookup
      exact ih (name, x) (mem_of_lookup hLookup) (hReals _ (mem_of_lookup hLookup))

/-- The members of a map that is in order. -/
theorem lookup_of_mem {ms : List (String × Value)} (hSorted : ms.Pairwise fun m k => m.1 < k.1)
    {m : String × Value} (hMem : m ∈ ms) : ms.lookup m.1 = some m.2 := by
  induction ms with
  | nil => cases hMem
  | cons k ms ih =>
    obtain ⟨hHead, hTail⟩ := List.pairwise_cons.mp hSorted
    rw [Value.lookup_member]
    rcases List.mem_cons.mp hMem with rfl | hRest
    · rw [if_pos rfl]
    · rw [if_neg (ne_of_gt (hHead m hRest)), ih hTail hRest]

/-- Names in order are listed as they stand. -/
theorem getMemberNames_of_sorted {ms : List (String × Value)}
    (hSorted : ms.Pairwise fun m k => m.1 < k.1) : getMemberNames ms = ms.map Prod.fst := by
  have hLess : (ms.map Prod.fst).Pairwise (· < ·) := List.pairwise_map.mpr hSorted
  unfold getMemberNames
  rw [List.dedup_eq_self.mpr (hLess.imp ne_of_lt)]
  exact (hLess.imp le_of_lt).insertionSort_eq

/-- **A value that was read** is read again as it was, when its real numbers
are. -/
theorem reread_of_parsed {v : Value} (h : Parsed scan v) (hReals : AllReals (Settled scan) v) :
    reread scan v = v := by
  induction h with
  | null => rfl
  | @int n hLower hUpper =>
    rw [reread, rereadNumber, if_neg (by unfold intMax at hUpper; omega), if_pos hUpper]
  | @uint n hLower hUpper =>
    unfold intMax at hLower
    rw [reread, rereadNumber, if_neg (by omega), if_neg (by unfold intMax; omega),
      Int.toNat_natCast]
  | real h =>
    cases hReals with
    | real hSettled => rw [reread, hSettled.2, Option.getD_some]
  | str h => rfl
  | bool b => rfl
  | @arr xs h ih =>
    cases hReals with
    | arr hReals =>
      rw [reread, rereadElements_eq, List.map_congr_left fun x hX => ih x hX (hReals x hX),
        List.map_id']
  | @obj ms hSorted hNames h ih =>
    cases hReals with
    | obj hReals =>
      have hMember : ∀ m ∈ ms, (m.1, ((rereadMembers scan ms).lookup m.1).getD .null) = m := by
        intro m hMem
        rw [lookup_rereadMembers, lookup_of_mem hSorted hMem, Option.map_some, Option.getD_some,
          ih m hMem (hReals m hMem)]
      rw [reread, getMemberNames_of_sorted hSorted, List.map_map]
      exact congrArg Value.obj ((List.map_congr_left hMember).trans (List.map_id' ms))

/-- **Writing what was read**: it is read again, as the value that it was when
its real numbers come back. -/
theorem parse_rewrite (hScan : ScansIntegers scan) {document : String} {v : Value}
    (h : parse scan document = .ok v) (hReals : AllReals (Rereadable scan) v) (rest : String) :
    parse scan (write v ++ rest) = .ok (reread scan v) ∧
      (AllReals (Settled scan) v → parse scan (write v ++ rest) = .ok v) := by
  have hParsed : Parsed scan v := (meets_parse scan document).of_ok h
  have hRead := parse_of_readAs (readAs_writeValue hScan (storable_of_parsed hParsed hReals)) rest
  refine ⟨hRead, fun hSettled => ?_⟩
  rw [hRead, reread_of_parsed hParsed hSettled]

end

-- ---------------------------------------------------------------------------
-- A value that is written and read
-- ---------------------------------------------------------------------------

/-- A number that the reader leaves for `sscanf`, and a real number. -/
def sampleValue : Value :=
  .obj [("ratio", .real (3 / 2)), ("id", .uint 4294967295), ("name", .str "a\"b\n")]

/-- One and a half is settled. -/
theorem settled_scanDecimal : Settled scanDecimal (3 / 2) :=
  ⟨⟨3, -1, by norm_num⟩, by decide +kernel⟩

/-- The sample can be stored. -/
theorem storable_sampleValue : Storable scanDecimal sampleValue := by
  have hMembers : ∀ m ∈ [("ratio", Value.real (3 / 2)), ("id", .uint 4294967295),
      ("name", .str "a\"b\n")], ZeroFree m.1 ∧ Storable scanDecimal m.2 := by
    simp only [List.forall_mem_cons]
    exact ⟨⟨by decide, .real settled_scanDecimal.rereadable⟩, ⟨by decide, .uint (by decide)⟩,
      ⟨by decide, .str (by decide)⟩, fun _ h => nomatch h⟩
  exact .obj (fun name x h => (hMembers _ (mem_of_lookup h)).1)
    fun name x h => (hMembers _ (mem_of_lookup h)).2

/-- The sample is read again from in front of something else. -/
theorem parse_write_sample :
    parse scanDecimal (write sampleValue ++ "junk") = .ok (reread scanDecimal sampleValue) :=
  parse_write scansIntegers_scanDecimal storable_sampleValue "junk"

/-- The array that is read, when its first element was written as a whole number. -/
def sampleArray : Value := .arr [.real 4294967295, .real (3 / 2)]

/-- The reals of the sample are read as they were written. -/
theorem settled_sampleArray : AllReals (Settled scanDecimal) sampleArray := by
  have hLarge : Settled scanDecimal 4294967295 :=
    ⟨⟨4294967295, 0, by norm_num⟩, by decide +kernel⟩
  refine .arr (List.forall_mem_cons.mpr ⟨.real hLarge, ?_⟩)
  exact List.forall_mem_cons.mpr ⟨.real settled_scanDecimal, fun _ h => nomatch h⟩

/-- The sample comes back whole. -/
theorem parse_rewrite_sample :
    parse scanDecimal (write sampleArray ++ "") = .ok sampleArray := by
  have hStorable : Storable scanDecimal (.arr [.uint 4294967295, .real (3 / 2)]) := by
    refine .arr (List.forall_mem_cons.mpr ⟨.uint (by decide), ?_⟩)
    exact List.forall_mem_cons.mpr ⟨.real settled_scanDecimal.rereadable, fun _ h => nomatch h⟩
  have hRead := readAs_writeValue scansIntegers_scanDecimal hStorable
  have hReread : reread scanDecimal (.arr [.uint 4294967295, .real (3 / 2)]) = sampleArray := by
    have hHalves := settled_scanDecimal.2
    simp only [reread, rereadElements, rereadNumber, hHalves]
    rfl
  have hParse := parse_of_readAs (hReread ▸ hRead) ""
  exact (parse_rewrite scansIntegers_scanDecimal hParse
    (settled_sampleArray.mono fun _ h => h.rereadable) "").2 settled_sampleArray

end Reader

end PushStreamer
