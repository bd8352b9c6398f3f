import Mathlib.Data.String.Basic
import PushStreamer.Lib.Loop
import PushStreamer.Lib.Results
import PushStreamer.Model.Json

/-!
# `Json::Reader`

The reader of the vendored JSON library, with the features that the program
reads with: comments are allowed, and the root may be any value. A document is
its list of `char`s; a position in it is what stands from there to its end.

`sscanf` is the parameter `scan`: the value of the text of a `double`, if it has
one. Comments are not kept, and what the reader skips to recover from an error
is not modelled: `parse` has failed by then.

* `parse_ends` — the reader comes to an end on every document.
* `never_missing_comma` — an error that is never reported.
-/

namespace PushStreamer

open Results

namespace Reader

-- ---------------------------------------------------------------------------
-- Tokens
-- ---------------------------------------------------------------------------

inductive TokenType where
  | tokenEndOfStream
  | tokenObjectBegin
  | tokenObjectEnd
  | tokenArrayBegin
  | tokenArrayEnd
  | tokenString
  | tokenNumber
  | tokenTrue
  | tokenFalse
  | tokenNull
  | tokenArraySeparator
  | tokenMemberSeparator
  | tokenComment
  | tokenError
deriving DecidableEq

/-- A token, from the position `start` to the position `stop`. -/
structure Token where
  type : TokenType
  start : List Char
  stop : List Char
deriving DecidableEq

/-- The text of a token. -/
def Token.text (t : Token) : List Char := t.start.take (t.start.length - t.stop.length)

/-- What `skipSpaces` skips. -/
def isBlank (c : Char) : Bool := c = ' ' || c = '\t' || c = '\r' || c = '\n'

def skipSpaces (current : List Char) : List Char := current.dropWhile isBlank

/-- `match`: whether `pattern` comes next, and the position after it. -/
def matchPattern (pattern current : List Char) : Bool × List Char :=
  if pattern.isPrefixOf current then (true, current.drop pattern.length) else (false, current)

/-- `readCStyleComment`: `*current_` at the end is the zero of `c_str`. -/
def readCStyleComment : List Char → Bool × List Char
  | [] => (false, [])
  | c :: current =>
    if c = '*' ∧ current.head? = some '/' then (true, current.tail) else readCStyleComment current

def readCppStyleComment : List Char → Bool × List Char
  | [] => (true, [])
  | c :: current => if c = '\r' ∨ c = '\n' then (true, current) else readCppStyleComment current

def readComment : List Char → Bool × List Char
  | [] => (false, [])
  | c :: current =>
    if c = '*' then readCStyleComment current
    else if c = '/' then readCppStyleComment current
    else (false, current)

/-- A character that `readNumber` takes. -/
def isNumberChar (c : Char) : Bool := c.isDigit || c ∈ ['.', 'e', 'E', '+', '-']

def readNumber (current : List Char) : List Char := current.dropWhile isNumberChar

/-- `readString`: a backslash takes the next character with it. -/
def readString : List Char → Bool × List Char
  | [] => (false, [])
  | c :: current =>
    if c = '"' then (true, current)
    else if c = '\\' then
      match current with
      | [] => (false, [])
      | _ :: current => readString current
    else readString current

/-- The type of the token that starts with `c`, and the position after it. -/
def tokenAt (c : Char) (current : List Char) : TokenType × List Char :=
  let checked (type : TokenType) (read : Bool × List Char) : TokenType × List Char :=
    (if read.1 then type else .tokenError, read.2)
  if c = '{' then (.tokenObjectBegin, current)
  else if c = '}' then (.tokenObjectEnd, current)
  else if c = '[' then (.tokenArrayBegin, current)
  else if c = ']' then (.tokenArrayEnd, current)
  else if c = '"' then checked .tokenString (readString current)
  else if c = '/' then checked .tokenComment (readComment current)
  else if c.isDigit ∨ c = '-' then (.tokenNumber, readNumber current)
  else if c = 't' then checked .tokenTrue (matchPattern "rue".toList current)
  else if c = 'f' then checked .tokenFalse (matchPattern "alse".toList current)
  else if c = 'n' then checked .tokenNull (matchPattern "ull".toList current)
  else if c = ',' then (.tokenArraySeparator, current)
  else if c = ':' then (.tokenMemberSeparator, current)
  else if c = '\x00' then (.tokenEndOfStream, current)
  else (.tokenError, current)

/-- `readToken`. -/
def readToken (current : List Char) : Token :=
  match skipSpaces current with
  | [] => ⟨.tokenEndOfStream, [], []⟩
  | c :: current => ⟨(tokenAt c current).1, c :: current, (tokenAt c current).2⟩

-- ---------------------------------------------------------------------------
-- Errors
-- ---------------------------------------------------------------------------

/-- An entry of `errors_`: `extra` is the position that the error is at, when
that is not the start of its token. -/
structure ErrorInfo where
  message : String
  token : Token
  extra : Option (List Char)
deriving DecidableEq

/-- How reading fails: with an error, by a write past the end of the buffer of
`decodeDouble`, or because the fuel of the model is used up. -/
inductive Failure where
  | error (info : ErrorInfo)
  | overrun
  | outOfFuel
deriving DecidableEq

/-- `addError`. -/
def addError {α : Type} (message : String) (token : Token) (extra : Option (List Char)) :
    Except Failure α := .error (.error ⟨message, token, extra⟩)

-- ---------------------------------------------------------------------------
-- Texts
-- ---------------------------------------------------------------------------

/-- `codePointToUTF8`: nothing for a number that is no code point. -/
def codePointToUTF8 (cp : ℕ) : List Char :=
  if cp ≤ 0x7F then [Char.ofNat cp]
  else if cp ≤ 0x7FF then
    [Char.ofNat (0xC0 ||| (0x1F &&& (cp >>> 6))), Char.ofNat (0x80 ||| (0x3F &&& cp))]
  else if cp ≤ 0xFFFF then
    [Char.ofNat (0xE0 ||| (0xF &&& (cp >>> 12))), Char.ofNat (0x80 ||| (0x3F &&& (cp >>> 6))),
      Char.ofNat (0x80 ||| (0x3F &&& cp))]
  else if cp ≤ 0x10FFFF then
    [Char.ofNat (0xF0 ||| (0x7 &&& (cp >>> 18))), Char.ofNat (0x80 ||| (0x3F &&& (cp >>> 12))),
      Char.ofNat (0x80 ||| (0x3F &&& (cp >>> 6))), Char.ofNat (0x80 ||| (0x3F &&& cp))]
  else []

/-- The value of a hexadecimal digit. -/
def hexValue (c : Char) : Option ℕ :=
  if '0' ≤ c ∧ c ≤ '9' then some (c.toNat - '0'.toNat)
  else if 'a' ≤ c ∧ c ≤ 'f' then some (c.toNat - 'a'.toNat + 10)
  else if 'A' ≤ c ∧ c ≤ 'F' then some (c.toNat - 'A'.toNat + 10)
  else none

/-- The loop of `decodeUnicodeEscapeSequence`, with `n` digits to go. -/
def decodeDigits (token : Token) : ℕ → ℕ → List Char → Except Failure (ℕ × List Char)
  | n + 1, unicode, c :: current =>
    match hexValue c with
    | some digit => decodeDigits token n (unicode * 16 + digit) current
    | none => addError "Bad unicode escape sequence in string: hexadecimal digit expected." token
        (some current)
  | _, unicode, current => .ok (unicode, current)

/-- `decodeUnicodeEscapeSequence`. -/
def decodeUnicodeEscapeSequence (token : Token) (current : List Char) :
    Except Failure (ℕ × List Char) :=
  if current.length < 4 then
    addError "Bad unicode escape sequence in string: four digits expected." token (some current)
  else decodeDigits token 4 0 current

/-- `decodeUnicodeCodePoint`: the second half of a pair may be any number. -/
def decodeUnicodeCodePoint (token : Token) (current : List Char) :
    Except Failure (ℕ × List Char) := do
  let (unicode, current) ← decodeUnicodeEscapeSequence token current
  if 0xD800 ≤ unicode ∧ unicode ≤ 0xDBFF then
    if current.length < 6 then
      addError "additional six characters expected to parse unicode surrogate pair." token
        (some current)
    else if current.head? ≠ some '\\' then
      addError "expecting another \\u token to begin the second half of a unicode surrogate pair"
        token (some (current.drop 1))
    else if current.tail.head? ≠ some 'u' then
      addError "expecting another \\u token to begin the second half of a unicode surrogate pair"
        token (some (current.drop 2))
    else
      let (surrogatePair, current) ← decodeUnicodeEscapeSequence token (current.drop 2)
      pure (0x10000 + ((unicode &&& 0x3FF) <<< 10) + (surrogatePair &&& 0x3FF), current)
  else pure (unicode, current)

/-- The escapes of one character, and the characters that they stand for. -/
def shortEscapes : List (Char × Char) :=
  [('"', '"'), ('/', '/'), ('\\', '\\'), ('b', '\x08'), ('f', '\x0c'), ('n', '\n'), ('r', '\r'),
    ('t', '\t')]

/-- An escape sequence, after its backslash. -/
def decodeEscape (token : Token) : List Char → Except Failure (List Char × List Char)
  | [] => addError "Empty escape sequence in string" token (some [])
  | escape :: current =>
    match shortEscapes.lookup escape with
    | some c => .ok ([c], current)
    | none =>
      if escape = 'u' then do
        let (unicode, current) ← decodeUnicodeCodePoint token current
        pure (codePointToUTF8 unicode, current)
      else addError "Bad escape sequence in string" token (some current)

/-- One pass of the loop of `decodeString`: what it adds, and the next position. -/
def decodeChar (token : Token) : List Char → Except Failure (List Char × List Char)
  | [] => .ok ([], [])
  | c :: current => if c = '\\' then decodeEscape token current else .ok ([c], current)

/-- The digits of an escape are taken from what is left. -/
theorem length_decodeDigits {token : Token} {n unicode : ℕ} {current : List Char}
    {x : ℕ × List Char} (h : decodeDigits token n unicode current = .ok x) :
    x.2.length ≤ current.length := by
  induction n generalizing unicode current with
  | zero =>
    cases h
    exact Nat.le_refl _
  | succ n ih =>
    cases current with
    | nil =>
      cases h
      exact Nat.le_refl _
    | cons c current =>
      rw [decodeDigits] at h
      split at h
      · exact Nat.le_succ_of_le (ih h)
      · cases h

/-- Four digits are taken from what is left. -/
theorem length_decodeUnicodeEscapeSequence {token : Token} {current : List Char}
    {x : ℕ × List Char} (h : decodeUnicodeEscapeSequence token current = .ok x) :
    x.2.length ≤ current.length := by
  unfold decodeUnicodeEscapeSequence at h
  split at h
  · cases h
  · exact length_decodeDigits h

/-- A pair of surrogates is taken from what is left, too. -/
theorem length_decodeUnicodeCodePoint {token : Token} {current : List Char} {x : ℕ × List Char}
    (h : decodeUnicodeCodePoint token current = .ok x) : x.2.length ≤ current.length := by
  unfold decodeUnicodeCodePoint at h
  obtain ⟨first, hFirst, h⟩ := bind_eq_ok.mp h
  have hLe := length_decodeUnicodeEscapeSequence hFirst
  simp only at h
  split at h
  · split at h
    · cases h
    split at h
    · cases h
    split at h
    · cases h
    obtain ⟨second, hSecond, h⟩ := bind_eq_ok.mp h
    have hLe' := length_decodeUnicodeEscapeSequence hSecond
    cases h
    rw [List.length_drop] at hLe'
    exact Nat.le_trans hLe' (Nat.le_trans (Nat.sub_le _ _) hLe)
  · cases h
    exact hLe

/-- Each pass takes a character at least. -/
theorem length_decodeChar {token : Token} {current : List Char} {x : List Char × List Char}
    (hNe : current ≠ []) (h : decodeChar token current = .ok x) : x.2.length < current.length := by
  cases current with
  | nil => exact absurd rfl hNe
  | cons c current =>
    rw [List.length_cons, Nat.lt_succ_iff]
    rw [decodeChar] at h
    split at h
    · cases current with
      | nil => cases h
      | cons escape current =>
        rw [decodeEscape] at h
        refine Nat.le_trans ?_ (Nat.le_succ _)
        split at h
        · cases h
          exact Nat.le_refl _
        split at h
        · obtain ⟨y, hY, h⟩ := bind_eq_ok.mp h
          cases h
          exact length_decodeUnicodeCodePoint hY
        · cases h
    · cases h
      exact Nat.le_refl _

/-- The loop of `decodeString`, on what is decoded and what is not. -/
def decodeLoop (token : Token) : While Failure (List Char × List Char) where
  cond := fun s => s.2.head?.any (· ≠ '"')
  body := fun s => (decodeChar token s.2).map fun x => (s.1 ++ x.1, x.2)
  measure := fun s => s.2.length
  decreases := by
    intro s s' hCond hBody
    have hNe : s.2 ≠ [] := by
      intro hNil
      rw [hNil] at hCond
      cases hCond
    cases hChar : decodeChar token s.2 with
    | error e =>
      rw [hChar] at hBody
      cases hBody
    | ok x =>
      rw [hChar] at hBody
      obtain rfl := Except.ok.inj hBody
      have hLess : x.2.length < s.2.length := length_decodeChar hNe hChar
      exact hLess

/-- `decodeString`: what stands between the quotes of the token. -/
def decodeString (token : Token) : Except Failure (List Char) :=
  ((decodeLoop token).run ([], token.text.tail.dropLast)).map Prod.fst

-- ---------------------------------------------------------------------------
-- Numbers
-- ---------------------------------------------------------------------------

section

variable (scan : List Char → Option ℚ)

/-- `decodeDouble`: a text of 32 characters is copied to the buffer of 32, and
the zero behind it is written past the end. -/
def decodeDouble (token : Token) : Except Failure Value :=
  if token.text.length = 32 then .error .overrun
  else
    match scan token.text with
    | some value => .ok (.real value)
    | none => addError ("'" ++ String.ofList token.text ++ "' is not a number.") token none

/-- The number is read as a `double` from the start. -/
def isDouble (text : List Char) : Bool :=
  text.any (· ∈ ['.', 'e', 'E', '+']) || text.tail.any (· = '-')

/-- A tenth of what fits: `UInt(-minInt)` or `maxUInt`. -/
def threshold (isNegative : Bool) : ℕ := (if isNegative then 2 ^ 31 else 2 ^ 32 - 1) / 10

/-- The loop of `decodeNumber`: the number that the digits make, or `none` when
it is left for `decodeDouble`. -/
def decodeInteger (token : Token) (limit : ℕ) : ℕ → List Char → Except Failure (Option ℕ)
  | value, [] => .ok (some value)
  | value, c :: current =>
    if ¬ c.isDigit then
      addError ("'" ++ String.ofList token.text ++ "' is not a number.") token none
    else if limit ≤ value then .ok none
    else decodeInteger token limit (value * 10 + (c.toNat - '0'.toNat)) current

/-- `decodeNumber`. -/
def decodeNumber (token : Token) : Except Failure Value :=
  if isDouble token.text then decodeDouble scan token
  else do
    let isNegative : Bool := token.text.head? = some '-'
    let current := if isNegative then token.text.tail else token.text
    match ← decodeInteger token (threshold isNegative) 0 current with
    | none => decodeDouble scan token
    | some value =>
      pure (if isNegative then .int (-value) else if (value : ℤ) ≤ intMax then .int value
        else .uint value)

end

-- ---------------------------------------------------------------------------
-- What a token takes
-- ---------------------------------------------------------------------------

/-- Every function of the tokens leaves an end of what it is given. -/
theorem skipSpaces_suffix (current : List Char) : skipSpaces current <:+ current :=
  List.dropWhile_suffix _

/-- A pattern takes from the front. -/
theorem matchPattern_suffix (pattern current : List Char) :
    (matchPattern pattern current).2 <:+ current := by
  unfold matchPattern
  split
  · exact List.drop_suffix _ _
  · exact List.suffix_refl _

/-- So does a comment between its marks. -/
theorem readCStyleComment_suffix (current : List Char) :
    (readCStyleComment current).2 <:+ current := by
  induction current with
  | nil => exact List.suffix_refl _
  | cons c current ih =>
    rw [readCStyleComment]
    split
    · exact (List.tail_suffix _).trans (List.suffix_cons _ _)
    · exact ih.trans (List.suffix_cons _ _)

/-- A comment ends where its line does. -/
theorem readCppStyleComment_suffix (current : List Char) :
    (readCppStyleComment current).2 <:+ current := by
  induction current with
  | nil => exact List.suffix_refl _
  | cons c current ih =>
    rw [readCppStyleComment]
    split
    · exact List.suffix_cons _ _
    · exact ih.trans (List.suffix_cons _ _)

/-- A comment of either kind takes from the front. -/
theorem readComment_suffix (current : List Char) : (readComment current).2 <:+ current := by
  cases current with
  | nil => exact List.suffix_refl _
  | cons c current =>
    rw [readComment]
    refine List.IsSuffix.trans ?_ (List.suffix_cons c current)
    split
    · exact readCStyleComment_suffix current
    split
    · exact readCppStyleComment_suffix current
    · exact List.suffix_refl _

/-- A quote ends the string. -/
theorem readString_quote (current : List Char) : readString ('"' :: current) = (true, current) := by
  rw [readString.eq_def]
  rfl

/-- The character behind a backslash is passed over. -/
theorem readString_escape (c : Char) (current : List Char) :
    readString ('\\' :: c :: current) = readString current := by
  rw [readString.eq_def]
  rfl

/-- Others are read one by one. -/
theorem readString_other {c : Char} (hQuote : c ≠ '"') (hEscape : c ≠ '\\')
    (current : List Char) : readString (c :: current) = readString current := by
  rw [readString.eq_def]
  simp only [if_neg hQuote, if_neg hEscape]

/-- A string takes from the front, also one that does not end. -/
theorem readString_suffix (current : List Char) : (readString current).2 <:+ current := by
  fun_induction readString current with
  | case1 => exact List.suffix_refl _
  | case2 current => exact List.suffix_cons _ _
  | case3 => exact List.nil_suffix
  | case4 next current hQuote ih =>
    exact ih.trans ((List.suffix_cons _ _).trans (List.suffix_cons _ _))
  | case5 c current hQuote hEscape ih => exact ih.trans (List.suffix_cons _ _)

/-- What a token can be: one character, a part that is read with success or
not, or a number. -/
theorem tokenAt_cases {c : Char} {current : List Char} {P : TokenType × List Char → Prop}
    (hOne : ∀ type : TokenType, type ≠ .tokenNumber → P (type, current))
    (hRead : ∀ type : TokenType, type ≠ .tokenNumber → ∀ (ok : Bool) (stop : List Char),
      stop <:+ current → P (if ok then type else .tokenError, stop))
    (hNumber : c.isDigit ∨ c = '-' → P (.tokenNumber, readNumber current)) :
    P (tokenAt c current) := by
  have hIf : ∀ {p : Prop} [Decidable p] {x y : TokenType × List Char},
      P x → P y → P (if p then x else y) := fun hX hY =>
    iteInduction (fun _ => hX) (fun _ => hY)
  have hWord : ∀ type : TokenType, type ≠ .tokenNumber → ∀ pattern,
      P (if (matchPattern pattern current).1 then type else .tokenError,
        (matchPattern pattern current).2) := fun type hType pattern =>
    hRead type hType _ _ (matchPattern_suffix pattern current)
  unfold tokenAt
  refine hIf (hOne _ (by decide)) <| hIf (hOne _ (by decide)) <| hIf (hOne _ (by decide)) <|
    hIf (hOne _ (by decide)) <| hIf (hRead _ (by decide) _ _ (readString_suffix current)) <|
    hIf (hRead _ (by decide) _ _ (readComment_suffix current)) <|
    iteInduction hNumber fun _ => ?_
  exact hIf (hWord _ (by decide) _) <| hIf (hWord _ (by decide) _) <|
    hIf (hWord _ (by decide) _) <| hIf (hOne _ (by decide)) <| hIf (hOne _ (by decide)) <|
    hIf (hOne _ (by decide)) (hOne _ (by decide))

/-- So does every token. -/
theorem tokenAt_suffix (c : Char) (current : List Char) : (tokenAt c current).2 <:+ current :=
  tokenAt_cases (P := fun x => x.2 <:+ current) (fun _ _ => List.suffix_refl _)
    (fun _ _ _ _ hStop => hStop) (fun _ => List.dropWhile_suffix _)

/-- A token takes a character, but at the end. -/
theorem length_readToken (current : List Char) :
    (readToken current).stop.length < current.length ∨
      readToken current = ⟨.tokenEndOfStream, [], []⟩ := by
  unfold readToken
  cases hSkip : skipSpaces current with
  | nil => exact Or.inr rfl
  | cons c rest =>
    have hRest : (c :: rest).length ≤ current.length :=
      hSkip ▸ (skipSpaces_suffix current).length_le
    have hStop : (tokenAt c rest).2.length ≤ rest.length := (tokenAt_suffix c rest).length_le
    rw [List.length_cons] at hRest
    exact Or.inl (by dsimp only; omega)

/-- A token that is not the end of the document takes a character. -/
theorem length_readToken_lt {current : List Char}
    (h : (readToken current).type ≠ .tokenEndOfStream) :
    (readToken current).stop.length < current.length := by
  rcases length_readToken current with hLess | hEnd
  · exact hLess
  · exact absurd (by rw [hEnd]) h

/-- `readToken` while there are comments. -/
def commentLoop : While Failure Token where
  cond := fun token => token.type = .tokenComment
  body := fun token => .ok (readToken token.stop)
  measure := fun token => if token.type = .tokenComment then token.stop.length + 1 else 0
  decreases := by
    intro token token' hCond hBody
    obtain rfl := Except.ok.inj hBody
    rw [if_pos (of_decide_eq_true hCond)]
    split
    · rename_i hComment
      have hLess : (readToken token.stop).stop.length < token.stop.length :=
        length_readToken_lt (by rw [hComment]; decide)
      omega
    · omega

/-- `skipCommentTokens`. -/
def skipCommentTokens (current : List Char) : Except Failure Token :=
  commentLoop.run (readToken current)

-- ---------------------------------------------------------------------------
-- Values
-- ---------------------------------------------------------------------------

/-- `operator[]` on the map of an object: it keeps its members in the order of
their names. -/
def setMapped (name : String) (x : Value) : List (String × Value) → List (String × Value)
  | [] => [(name, x)]
  | m :: ms =>
    if name < m.1 then (name, x) :: m :: ms
    else if name = m.1 then (name, x) :: ms
    else m :: setMapped name x ms

/-- A `std::string` as it is kept: by its `c_str`. -/
def kept (decoded : List Char) : String := String.ofList (cString decoded)

section

variable (scan : List Char → Option ℚ)

mutual

/-- `readValue`: the value, and the position after it. -/
def readValue : ℕ → List Char → Except Failure (Value × List Char)
  | 0, _ => .error .outOfFuel
  | fuel + 1, current => do
    let token ← skipCommentTokens current
    match token.type with
    | .tokenObjectBegin => readObject fuel [] [] token.stop
    | .tokenArrayBegin =>
      -- only blanks may stand between the brackets of an empty array
      let current := skipSpaces token.stop
      if current.head? = some ']' then pure (.arr [], (readToken current).stop)
      else readArray fuel [] current
    | .tokenNumber => do pure (← decodeNumber scan token, token.stop)
    | .tokenString => do pure (.str (kept (← decodeString token)), token.stop)
    | .tokenTrue => pure (.bool true, token.stop)
    | .tokenFalse => pure (.bool false, token.stop)
    | .tokenNull => pure (.null, token.stop)
    | _ => addError "Syntax error: value, object or array expected." token none

/-- The loop of `readObject`: `name` is the last name that was read, and `ms`
are the members so far. -/
def readObject : ℕ → List Char → List (String × Value) → List Char →
    Except Failure (Value × List Char)
  | 0, _, _, _ => .error .outOfFuel
  | fuel + 1, name, ms, current => do
    let tokenName ← skipCommentTokens current
    if tokenName.type = .tokenObjectEnd ∧ name = [] then pure (.obj ms, tokenName.stop)
    else if tokenName.type ≠ .tokenString then
      addError "Missing '\x7d' or object member name" tokenName none
    else
      let name ← decodeString tokenName
      let colon := readToken tokenName.stop
      if colon.type ≠ .tokenMemberSeparator then
        addError "Missing ':' after object member name" colon none
      else
        let (x, current) ← readValue fuel colon.stop
        let ms := setMapped (kept name) x ms
        let comma := readToken current
        if comma.type ∉ [.tokenObjectEnd, .tokenArraySeparator, .tokenComment] then
          addError "Missing ',' or '\x7d' in object declaration" comma none
        else
          -- behind a comment any token does for the comma
          let comma ← commentLoop.run comma
          if comma.type = .tokenObjectEnd then pure (.obj ms, comma.stop)
          else readObject fuel name ms comma.stop

/-- The loop of `readArray`: `xs` are the elements so far. The check of the
separator asks for one token of two types and never fails. -/
def readArray : ℕ → List Value → List Char → Except Failure (Value × List Char)
  | 0, _, _ => .error .outOfFuel
  | fuel + 1, xs, current => do
    let (x, current) ← readValue fuel current
    let token ← skipCommentTokens current
    let badTokenType : Bool := token.type = .tokenArraySeparator ∧ token.type = .tokenArrayEnd
    if badTokenType then addError "Missing ',' or ']' in array declaration" token none
    else if token.type = .tokenArrayEnd then pure (.arr (xs ++ [x]), token.stop)
    else readArray fuel (xs ++ [x]) token.stop

end

/-- `parse`: the root, or why there is none. What follows the root is ignored. -/
def parse (document : String) : Except Failure Value :=
  (readValue scan (2 * document.toList.length + 2) document.toList).map Prod.fst

end

-- ---------------------------------------------------------------------------
-- How reading ends
-- ---------------------------------------------------------------------------

/-- A token starts in what is left. -/
theorem readToken_start_suffix (current : List Char) : (readToken current).start <:+ current := by
  have hSkip := skipSpaces_suffix current
  unfold readToken
  cases h : skipSpaces current with
  | nil => exact List.nil_suffix
  | cons c rest =>
    rw [h] at hSkip
    exact hSkip

/-- A token ends in what is left. -/
theorem readToken_stop_suffix (current : List Char) : (readToken current).stop <:+ current := by
  refine List.IsSuffix.trans ?_ (readToken_start_suffix current)
  unfold readToken
  cases skipSpaces current with
  | nil => exact List.nil_suffix
  | cons c rest => exact (tokenAt_suffix c rest).trans (List.suffix_cons c rest)

/-- The loop over comments ends with a token that is none. -/
theorem commentLoop_ok (current : List Char) :
    ∃ s, s <:+ current ∧ commentLoop.run (readToken current) = .ok (readToken s) ∧
      (readToken s).type ≠ .tokenComment := by
  induction hLength : current.length using Nat.strongRecOn generalizing current with
  | _ n ih =>
    by_cases hComment : (readToken current).type = .tokenComment
    · have hLess : (readToken current).stop.length < current.length :=
        length_readToken_lt (by rw [hComment]; decide)
      obtain ⟨s, hSuffix, hRun, hType⟩ := ih _ (hLength ▸ hLess) (readToken current).stop rfl
      refine ⟨s, hSuffix.trans (readToken_stop_suffix current), ?_, hType⟩
      rw [While.run_of_ok (decide_eq_true hComment) rfl, hRun]
    · refine ⟨current, List.suffix_refl _, ?_, hComment⟩
      exact While.run_of_not (decide_eq_false hComment)

/-- There is a token behind the comments. -/
theorem skipCommentTokens_ok (current : List Char) :
    ∃ s, s <:+ current ∧ skipCommentTokens current = .ok (readToken s) ∧
      (readToken s).type ≠ .tokenComment := commentLoop_ok current

/-- A token that is no comment is the next one. -/
theorem skipCommentTokens_eq {current : List Char} {token : Token}
    (hToken : readToken current = token) (hType : token.type ≠ .tokenComment) :
    skipCommentTokens current = .ok token := by
  subst hToken
  exact While.run_of_not (decide_eq_false hType)

/-- The text of a token is what stands before its end. -/
@[simp] theorem text_append (type : TokenType) (text stop : List Char) :
    Token.text ⟨type, text ++ stop, stop⟩ = text := by
  simp [Token.text]

/-- The text of a number that is read. -/
theorem text_of_number {current : List Char} (h : (readToken current).type = .tokenNumber) :
    (readToken current).text <:+: current ∧ ∀ c ∈ (readToken current).text, isNumberChar c := by
  constructor
  · exact (List.take_prefix _ _).isInfix.trans (readToken_start_suffix current).isInfix
  unfold readToken at h ⊢
  cases hSkip : skipSpaces current with
  | nil =>
    rw [hSkip] at h
    cases h
  | cons c rest =>
    rw [hSkip] at h
    dsimp only at h ⊢
    revert h
    refine tokenAt_cases (P := fun x => x.1 = .tokenNumber →
      ∀ d ∈ Token.text ⟨x.1, c :: rest, x.2⟩, isNumberChar d) ?_ ?_ ?_
    · intro type hType h
      exact absurd h hType
    · intro type hType ok stop _ h
      cases ok with
      | false => cases h
      | true => exact absurd h hType
    · -- a number starts with a digit or a minus, and goes on with characters of a number
      intro hFirst _
      have hSplit : c :: rest = (c :: rest.takeWhile isNumberChar) ++ readNumber rest := by
        rw [List.cons_append, readNumber, List.takeWhile_append_dropWhile]
      rw [hSplit, text_append]
      refine List.forall_mem_cons.mpr ⟨?_, fun d hd => List.mem_takeWhile_imp hd⟩
      unfold isNumberChar
      rcases hFirst with hDigit | rfl
      · rw [hDigit, Bool.true_or]
      · rfl

/-- There is no zero character in the text. -/
def ZeroFree (s : String) : Prop := '\x00' ∉ s.toList

instance (s : String) : Decidable (ZeroFree s) := inferInstanceAs (Decidable ('\x00' ∉ s.toList))

/-- A value as the reader makes it: whole numbers up to those that it leaves for
`decodeDouble`, texts that end at a zero, and members in the order of their
names. -/
inductive Parsed (scan : List Char → Option ℚ) : Value → Prop
  | null : Parsed scan .null
  | int {n : ℤ} (hLower : -2147483639 ≤ n) (hUpper : n ≤ intMax) : Parsed scan (.int n)
  | uint {n : ℕ} (hLower : intMax < n) (hUpper : n ≤ 4294967289) : Parsed scan (.uint n)
  | real {q : ℚ} {text : List Char} (h : scan text = some q) : Parsed scan (.real q)
  | str {s : String} (h : ZeroFree s) : Parsed scan (.str s)
  | bool (b : Bool) : Parsed scan (.bool b)
  | arr {xs : List Value} (h : ∀ x ∈ xs, Parsed scan x) : Parsed scan (.arr xs)
  | obj {ms : List (String × Value)} (hSorted : ms.Pairwise fun m k => m.1 < k.1)
      (hNames : ∀ m ∈ ms, ZeroFree m.1) (h : ∀ m ∈ ms, Parsed scan m.2) : Parsed scan (.obj ms)

/-- What is kept of a string ends before its first zero. -/
theorem zeroFree_kept (decoded : List Char) : ZeroFree (kept decoded) := by
  unfold ZeroFree kept cString
  rw [String.toList_ofList]
  intro hMem
  have hNe := List.mem_takeWhile_imp hMem
  simp at hNe

/-- A member is the new one or one that was there. -/
theorem mem_setMapped {name : String} {x : Value} {ms : List (String × Value)}
    {m : String × Value} (h : m ∈ setMapped name x ms) : m = (name, x) ∨ m ∈ ms := by
  induction ms with
  | nil => exact Or.inl (List.mem_singleton.mp h)
  | cons k ms ih =>
    rw [setMapped] at h
    split at h
    · exact List.mem_cons.mp h
    split at h
    · exact (List.mem_cons.mp h).imp_right (List.mem_cons_of_mem _)
    · rcases List.mem_cons.mp h with rfl | hMem
      · exact Or.inr List.mem_cons_self
      · exact (ih hMem).imp_right (List.mem_cons_of_mem _)

/-- The map stays in order. -/
theorem pairwise_setMapped {name : String} {x : Value} {ms : List (String × Value)}
    (h : ms.Pairwise fun m k => m.1 < k.1) :
    (setMapped name x ms).Pairwise fun m k => m.1 < k.1 := by
  induction ms with
  | nil => exact List.pairwise_singleton _ _
  | cons k ms ih =>
    have hCons := List.pairwise_cons.mp h
    rw [setMapped]
    split
    · -- a new name before this one, the same name, or a name further on
      rename_i hLess
      refine List.pairwise_cons.mpr ⟨?_, h⟩
      intro m hMem
      rcases List.mem_cons.mp hMem with rfl | hRest
      · exact hLess
      · exact lt_trans hLess (hCons.1 m hRest)
    split
    · rename_i hEq
      refine List.pairwise_cons.mpr ⟨?_, hCons.2⟩
      intro m hMem
      exact hEq ▸ hCons.1 m hMem
    · rename_i hNotLess hNe
      refine List.pairwise_cons.mpr ⟨?_, ih hCons.2⟩
      intro m hMem
      rcases mem_setMapped hMem with rfl | hRest
      · exact lt_of_le_of_ne (not_lt.mp hNotLess) fun hEq => hNe hEq.symm
      · exact hCons.1 m hRest

/-- What an object is read to with a member more. -/
theorem parsed_setMapped {scan : List Char → Option ℚ} {ms : List (String × Value)}
    {decoded : List Char} {x : Value} (hMs : Parsed scan (.obj ms)) (hX : Parsed scan x) :
    Parsed scan (.obj (setMapped (kept decoded) x ms)) := by
  cases hMs with
  | obj hSorted hNames h =>
    refine .obj (pairwise_setMapped hSorted) ?_ ?_
    · intro m hMem
      rcases mem_setMapped hMem with rfl | hRest
      · exact zeroFree_kept decoded
      · exact hNames m hRest
    · intro m hMem
      rcases mem_setMapped hMem with rfl | hRest
      · exact hX
      · exact h m hRest

/-- An object without members is one that the reader makes. -/
theorem parsed_empty {scan : List Char → Option ℚ} : Parsed scan (.obj []) :=
  .obj List.Pairwise.nil (fun _ h => nomatch h) (fun _ h => nomatch h)

/-- One more element. -/
theorem parsed_concat {scan : List Char → Option ℚ} {xs : List Value} {x : Value}
    (hXs : ∀ y ∈ xs, Parsed scan y) (hX : Parsed scan x) : ∀ y ∈ xs ++ [x], Parsed scan y := by
  intro y hMem
  rcases List.mem_append.mp hMem with hOld | hNew
  · exact hXs y hOld
  · exact List.mem_singleton.mp hNew ▸ hX

/-- There is a run of 32 characters of numbers in the document. -/
def Overrunning (document : List Char) : Prop :=
  ∃ text, text <:+: document ∧ text.length = 32 ∧ ∀ c ∈ text, isNumberChar c

/-- The failures that reading a document can end with. -/
def Reported (document : List Char) : Failure → Prop
  | .error info => info.message ≠ "Missing ',' or ']' in array declaration"
  | .overrun => Overrunning document
  | .outOfFuel => False

section

variable {document : List Char} {token : Token}

/-- What reads a text fails with an error of its own. -/
def TextError (e : Failure) : Prop :=
  ∃ info, e = .error info ∧ info.message ≠ "Missing ',' or ']' in array declaration"

/-- An error in a string is one that is reported. -/
theorem TextError.reported {e : Failure} (h : TextError e) : Reported document e := by
  obtain ⟨info, rfl, hMessage⟩ := h
  exact hMessage

/-- Every message but that of the check that never fails. -/
theorem textError_addError {α : Type} {P : α → Prop} {message : String}
    {extra : Option (List Char)} (h : message ≠ "Missing ',' or ']' in array declaration") :
    Meets P TextError (addError message token extra) := meets_error ⟨_, rfl, h⟩

/-- Every message but one is reported where its token stands. -/
theorem reported_addError {α : Type} {P : α → Prop} {message : String}
    {extra : Option (List Char)} (h : message ≠ "Missing ',' or ']' in array declaration") :
    Meets P (Reported document) (addError message token extra) := meets_error h

/-- The errors of the digits are those of a text. -/
theorem textError_decodeDigits {n unicode : ℕ} {current : List Char} :
    Meets (fun _ => True) TextError (decodeDigits token n unicode current) := by
  induction n generalizing unicode current with
  | zero => exact meets_pure trivial
  | succ n ih =>
    cases current with
    | nil => exact meets_pure trivial
    | cons c current =>
      rw [decodeDigits]
      split
      · exact ih
      · exact textError_addError (by decide)

/-- The errors of an escape are those of a text. -/
theorem textError_decodeUnicodeEscapeSequence {current : List Char} :
    Meets (fun _ => True) TextError (decodeUnicodeEscapeSequence token current) := by
  unfold decodeUnicodeEscapeSequence
  split
  · exact textError_addError (by decide)
  · exact textError_decodeDigits

/-- The errors of a pair of surrogates are those of a text. -/
theorem textError_decodeUnicodeCodePoint {current : List Char} :
    Meets (fun _ => True) TextError (decodeUnicodeCodePoint token current) := by
  unfold decodeUnicodeCodePoint
  refine meets_bind textError_decodeUnicodeEscapeSequence fun first _ => ?_
  dsimp only
  split
  · split
    · exact textError_addError (by decide)
    split
    · exact textError_addError (by decide)
    split
    · exact textError_addError (by decide)
    refine meets_bind textError_decodeUnicodeEscapeSequence fun second _ => ?_
    exact meets_pure trivial
  · exact meets_pure trivial

/-- The errors of a character are those of a text. -/
theorem textError_decodeChar {current : List Char} :
    Meets (fun _ => True) TextError (decodeChar token current) := by
  cases current with
  | nil => exact meets_pure trivial
  | cons c current =>
    rw [decodeChar]
    split
    · cases current with
      | nil => exact textError_addError (by decide)
      | cons escape current =>
        rw [decodeEscape]
        split
        · exact meets_pure trivial
        split
        · refine meets_bind textError_decodeUnicodeCodePoint fun x _ => ?_
          exact meets_pure trivial
        · exact textError_addError (by decide)
    · exact meets_pure trivial

/-- The errors of a string are those of a text. -/
theorem textError_decodeString : Meets (fun _ => True) TextError (decodeString token) := by
  unfold decodeString
  apply meets_map
  cases hRun : (decodeLoop token).run ([], token.text.tail.dropLast) with
  | ok s => exact meets_pure trivial
  | error e =>
    obtain ⟨s, -, hBody⟩ := While.error_run hRun
    have hMap : (decodeChar token s.2).map (fun x => (s.1 ++ x.1, x.2)) = .error e := hBody
    exact (meets_map (Q := fun _ => True) textError_decodeChar).of_error hMap

/-- The message about a number is not that of the check that never fails. -/
theorem reported_notNumber {text : List Char} :
    ("'" ++ String.ofList text ++ "' is not a number.") ≠
      "Missing ',' or ']' in array declaration" := by
  intro h
  have hFirst := congrArg (fun s => s.toList.head?) h
  simp at hFirst

variable (scan : List Char → Option ℚ)

/-- A number with a point: the double that `sscanf` reads, or the report that it reads none. -/
theorem meets_decodeDouble (hText : token.text <:+: document)
    (hNumber : ∀ c ∈ token.text, isNumberChar c) :
    Meets (Parsed scan) (Reported document) (decodeDouble scan token) := by
  unfold decodeDouble
  split
  · rename_i hLength
    exact meets_error ⟨token.text, hText, hLength, hNumber⟩
  split
  · rename_i q hScan
    exact meets_pure (.real hScan)
  · exact reported_addError reported_notNumber

/-- A number that is not left for `decodeDouble` is less than ten times the
limit. -/
theorem meets_decodeInteger {limit value : ℕ} {current : List Char} (hValue : value < limit * 10) :
    Meets (fun r => ∀ n, r = some n → n < limit * 10) (Reported document)
      (decodeInteger token limit value current) := by
  induction current generalizing value with
  | nil => exact meets_pure fun n h => Option.some.inj h ▸ hValue
  | cons c current ih =>
    rw [decodeInteger]
    split
    · exact reported_addError reported_notNumber
    rename_i hDigit
    split
    · exact meets_pure fun n h => nomatch h
    · rename_i hLimit
      have hNine : c.toNat - '0'.toNat ≤ 9 := by
        simp only [not_not, Char.isDigit, Bool.and_eq_true, decide_eq_true_eq] at hDigit
        have hUpper : c.toNat ≤ '9'.toNat := hDigit.2
        have hNum : '9'.toNat = '0'.toNat + 9 := by decide
        omega
      exact ih (by omega)

/-- A number: an integer in the range of `int` or `unsigned`, a double, or a report. -/
theorem meets_decodeNumber (hText : token.text <:+: document)
    (hNumber : ∀ c ∈ token.text, isNumberChar c) :
    Meets (Parsed scan) (Reported document) (decodeNumber scan token) := by
  unfold decodeNumber
  split
  · exact meets_decodeDouble scan hText hNumber
  refine meets_bind (meets_decodeInteger (by unfold threshold; split <;> decide)) fun value h => ?_
  cases value with
  | none => exact meets_decodeDouble scan hText hNumber
  | some value =>
    have hLess := h value rfl
    refine meets_pure ?_
    split
    · -- the sign and the threshold bound what is decoded
      rename_i hNegative
      rw [hNegative] at hLess
      have hLimit : threshold true = 214748364 := by decide
      exact .int (by omega) (by unfold intMax; omega)
    split
    · rename_i hFits
      exact .int (by omega) hFits
    · rename_i hPositive hFits
      rw [Bool.eq_false_iff.mpr hPositive] at hLess
      have hLimit : threshold false = 429496729 := by decide
      exact .uint (Int.not_le.mp hFits) (by omega)

/-- A value that is read, and less left behind it. -/
structure Read (current : List Char) (r : Value × List Char) : Prop where
  suffix : r.2 <:+ current
  shorter : r.2.length < current.length
  parsed : Parsed scan r.1

variable {scan}

/-- What is read behind blanks is read of the whole. -/
theorem Read.of_suffix {s current : List Char} {r : Value × List Char} (h : Read scan s r)
    (hSuffix : s <:+ current) : Read scan current r :=
  ⟨h.suffix.trans hSuffix, Nat.lt_of_lt_of_le h.shorter hSuffix.length_le, h.parsed⟩

/-- A token that is not the end takes a character. -/
theorem read_stop {s : List Char} {x : Value} (h : (readToken s).type ≠ .tokenEndOfStream)
    (hX : Parsed scan x) : Read scan s (x, (readToken s).stop) :=
  ⟨readToken_stop_suffix s, length_readToken_lt h, hX⟩

variable (document scan)

/-- `readValue` with this fuel, where it is enough for what is left: a value with
less left behind it, or a failure that is reported. -/
def ReadsValue (fuel : ℕ) : Prop :=
  ∀ current, current <:+ document → 2 * current.length + 1 ≤ fuel →
    Meets (Read scan current) (Reported document) (readValue scan fuel current)

/-- The same of `readObject`, behind members that were read. -/
def ReadsObject (fuel : ℕ) : Prop :=
  ∀ name ms current, Parsed scan (.obj ms) → current <:+ document →
    2 * current.length + 1 ≤ fuel →
    Meets (Read scan current) (Reported document) (readObject scan fuel name ms current)

/-- The same of `readArray`, behind elements that were read. -/
def ReadsArray (fuel : ℕ) : Prop :=
  ∀ xs current, (∀ x ∈ xs, Parsed scan x) → current <:+ document →
    2 * current.length + 2 ≤ fuel →
    Meets (Read scan current) (Reported document) (readArray scan fuel xs current)

variable {document scan} {fuel : ℕ}

/-- A value is an object, an array, or one token. -/
theorem ReadsValue.of_parts (hObject : ReadsObject document scan fuel)
    (hArray : ReadsArray document scan fuel) : ReadsValue document scan (fuel + 1) := by
  intro current hSuffix hFuel
  obtain ⟨s, hS, hToken, -⟩ := skipCommentTokens_ok current
  rw [readValue, hToken, ok_bind]
  refine Meets.mono (P := Read scan s) ?_ (fun r hR => hR.of_suffix hS) fun _ h => h
  -- what is read is an end of what is left, and shorter with every token
  have hLe := hS.length_le
  have hStop := (readToken_stop_suffix s).trans (hS.trans hSuffix)
  cases hType : (readToken s).type with
  | tokenObjectBegin =>
    have hLess : (readToken s).stop.length < s.length :=
      length_readToken_lt (by rw [hType]; decide)
    refine Meets.mono (hObject [] [] _ parsed_empty hStop (by omega)) ?_ fun _ h => h
    exact fun r hR => hR.of_suffix (readToken_stop_suffix s)
  | tokenArrayBegin =>
    have hLess : (readToken s).stop.length < s.length :=
      length_readToken_lt (by rw [hType]; decide)
    have hSkip := skipSpaces_suffix (readToken s).stop
    have hSkipLe := hSkip.length_le
    dsimp only
    split
    · have hEnd := readToken_stop_suffix (skipSpaces (readToken s).stop)
      have hEndLe := hEnd.length_le
      refine meets_pure ⟨(hEnd.trans hSkip).trans (readToken_stop_suffix s), ?_,
        .arr fun _ h => nomatch h⟩
      dsimp only
      omega
    · refine Meets.mono (hArray [] _ (fun _ h => nomatch h) (hSkip.trans hStop) (by omega)) ?_
        fun _ h => h
      exact fun r hR => hR.of_suffix (hSkip.trans (readToken_stop_suffix s))
  | tokenNumber =>
    obtain ⟨hText, hNumber⟩ := text_of_number hType
    have hInfix := hText.trans (hS.trans hSuffix).isInfix
    refine meets_bind (meets_decodeNumber scan hInfix hNumber) fun x hX => ?_
    exact meets_pure (read_stop (by rw [hType]; decide) hX)
  | tokenString =>
    refine meets_bind (textError_decodeString.mono (fun _ h => h) fun _ h => h.reported) ?_
    intro decoded _
    exact meets_pure (read_stop (by rw [hType]; decide) (.str (zeroFree_kept decoded)))
  | tokenTrue => exact meets_pure (read_stop (by rw [hType]; decide) (.bool true))
  | tokenFalse => exact meets_pure (read_stop (by rw [hType]; decide) (.bool false))
  | tokenNull => exact meets_pure (read_stop (by rw [hType]; decide) .null)
  | _ => exact reported_addError (by decide)

/-- A member, and the rest of the object behind its comma. -/
theorem ReadsObject.of_parts (hValue : ReadsValue document scan fuel)
    (hObject : ReadsObject document scan fuel) : ReadsObject document scan (fuel + 1) := by
  intro name ms current hMs hSuffix hFuel
  obtain ⟨s, hS, hToken, -⟩ := skipCommentTokens_ok current
  rw [readObject, hToken, ok_bind]
  refine Meets.mono (P := Read scan s) ?_ (fun r hR => hR.of_suffix hS) fun _ h => h
  have hLe := hS.length_le
  have hStop := (readToken_stop_suffix s).trans (hS.trans hSuffix)
  -- the object ends, or a name, a colon and a value follow
  split
  · rename_i hEnd
    exact meets_pure (read_stop (by rw [hEnd.1]; decide) hMs)
  split
  · exact reported_addError (by decide)
  rename_i hString
  have hName : (readToken s).stop.length < s.length :=
    length_readToken_lt (by rw [not_not.mp hString]; decide)
  refine meets_bind (textError_decodeString.mono (fun _ h => h) fun _ h => h.reported) ?_
  intro decoded _
  dsimp only
  split
  · exact reported_addError (by decide)
  have hColon := readToken_stop_suffix (readToken s).stop
  have hColonLe := hColon.length_le
  refine meets_bind (hValue _ (hColon.trans hStop) (by omega)) ?_
  rintro ⟨x, rest⟩ ⟨hRest, hShorter, hX⟩
  dsimp only at hRest hShorter hX ⊢
  split
  · exact reported_addError (by decide)
  have hRestS := hRest.trans (hColon.trans (readToken_stop_suffix s))
  -- the token behind the value, past the comments
  obtain ⟨s', hS', hComma, -⟩ := commentLoop_ok rest
  have hComma' := (readToken_stop_suffix s').trans hS'
  have hCommaLe := hComma'.length_le
  rw [hComma, ok_bind]
  have hMore : Parsed scan (.obj (setMapped (kept decoded) x ms)) := parsed_setMapped hMs hX
  split
  · exact meets_pure ⟨hComma'.trans hRestS, by dsimp only; omega, hMore⟩
  · refine Meets.mono (hObject _ _ _ hMore ((hComma'.trans hRestS).trans (hS.trans hSuffix))
      (by omega)) ?_ fun _ h => h
    exact fun r hR => hR.of_suffix (hComma'.trans hRestS)

/-- An element, and the rest of the array behind its separator. -/
theorem ReadsArray.of_parts (hValue : ReadsValue document scan fuel)
    (hArray : ReadsArray document scan fuel) : ReadsArray document scan (fuel + 1) := by
  intro xs current hXs hSuffix hFuel
  rw [readArray]
  refine meets_bind (hValue current hSuffix (by omega)) ?_
  rintro ⟨x, rest⟩ ⟨hRest, hShorter, hX⟩
  dsimp only at hRest hShorter hX ⊢
  obtain ⟨s, hS, hToken, -⟩ := skipCommentTokens_ok rest
  have hStop := ((readToken_stop_suffix s).trans hS).trans hRest
  have hStopLe := ((readToken_stop_suffix s).trans hS).length_le
  rw [hToken, ok_bind]
  -- the check that never fails
  rw [if_neg (by
    rw [decide_eq_true_eq]
    rintro ⟨hSeparator, hEnd⟩
    rw [hSeparator] at hEnd
    cases hEnd)]
  have hMore := parsed_concat hXs hX
  split
  · exact meets_pure ⟨hStop, by dsimp only; omega, .arr hMore⟩
  · refine Meets.mono (hArray _ _ hMore (hStop.trans hSuffix) (by omega)) ?_ fun _ h => h
    exact fun r hR => hR.of_suffix hStop

variable (scan)

/-- **What reading comes to**, by the fuel: each of the three loops spends one of it
for what the others do with the rest. -/
theorem meets_read (fuel : ℕ) : ReadsValue document scan fuel ∧ ReadsObject document scan fuel ∧
    ReadsArray document scan fuel := by
  induction fuel with
  | zero =>
    exact ⟨fun _ _ h => absurd h (by omega), fun _ _ _ _ _ h => absurd h (by omega),
      fun _ _ _ _ h => absurd h (by omega)⟩
  | succ fuel ih =>
    obtain ⟨hValue, hObject, hArray⟩ := ih
    exact ⟨.of_parts hObject hArray, .of_parts hValue hObject, .of_parts hValue hArray⟩

end

variable (scan : List Char → Option ℚ) (document : String)

/-- The reader gives its loops fuel enough. -/
theorem meets_parse :
    Meets (Parsed scan) (Reported document.toList) (parse scan document) := by
  have h : Meets (Read scan document.toList) (Reported document.toList)
      (readValue scan (2 * document.toList.length + 2) document.toList) :=
    (meets_read scan _).1 document.toList (List.suffix_refl _) (by omega)
  exact meets_map (h.mono (fun r hR => hR.parsed) fun _ h => h)

/-- **The reader comes to an end**, and it writes past its buffer only in a
document with a run of 32 characters of numbers. -/
theorem parse_ends :
    parse scan document ≠ .error .outOfFuel ∧
      (parse scan document = .error .overrun → Overrunning document.toList) := by
  refine ⟨fun h => ?_, fun h => ?_⟩
  · exact (meets_parse scan document).of_error h
  · exact (meets_parse scan document).of_error h

/-- **An error that is never reported**: the reader does not miss a comma
between the elements of an array. -/
theorem never_missing_comma (token : Token) (extra : Option (List Char)) :
    parse scan document ≠
      .error (.error ⟨"Missing ',' or ']' in array declaration", token, extra⟩) := by
  intro h
  exact (meets_parse scan document).of_error h rfl

end Reader

end PushStreamer
