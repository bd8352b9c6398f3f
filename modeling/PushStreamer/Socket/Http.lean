import PushStreamer.Lib.Lines
import PushStreamer.Lib.Loop
import PushStreamer.Socket.Endpoint

/-!
# HTTP messages

The part of the HTTP parser of websocketpp that requests and responses share:
the list of headers, the lines that fill it, and lists of parameters.
-/

namespace PushStreamer.Http

open Endpoint (Bytes)
open Lines (cut)

/-- The bytes of a text of the source. -/
def ascii (s : String) : Bytes := s.toList.map fun c => UInt8.ofNat c.toNat

/-- `http::exception`: what it says, and its status code. -/
structure HttpException where
  msg : String
  errorCode : ℕ
deriving DecidableEq

-- ---------------------------------------------------------------------------
-- Characters
-- ---------------------------------------------------------------------------

def headerDelimiter : Bytes := ascii "\r\n"
def headerSeparator : Bytes := ascii ":"

/-- The terminating zero counts. -/
def sizeofHeaderDelimiter : ℕ := headerDelimiter.length + 1

def maxHeaderSize : ℕ := 16000

/-- `header_token`. -/
def headerToken : List ℕ :=
  List.replicate 32 0 ++
  [0,1,0,1,1,1,1,1,0,0,1,1,0,1,1,0,
   1,1,1,1,1,1,1,1,1,1,0,0,0,0,0,0,
   0,1,1,1,1,1,1,1,1,1,1,1,1,1,1,1,
   1,1,1,1,1,1,1,1,1,1,1,0,0,0,1,1,
   1,1,1,1,1,1,1,1,1,1,1,1,1,1,1,1,
   1,1,1,1,1,1,1,1,1,1,1,0,1,0,1,0] ++
  List.replicate 128 0

def isTokenChar (c : UInt8) : Bool := headerToken.getD c.toNat 0 = 1

def isWhitespaceChar (c : UInt8) : Bool := c = 9 ∨ c = 32

/-- `tolower` and `toupper`, in the C locale. -/
def toLower (c : UInt8) : UInt8 := if 65 ≤ c ∧ c ≤ 90 then c + 32 else c

def toUpper (c : UInt8) : UInt8 := if 97 ≤ c ∧ c ≤ 122 then c - 32 else c

/-- `ci_find_substr`: whether the search comes to something else than the end. -/
def ciFindSubstr (haystack needle : Bytes) : Bool :=
  (cut (needle.map toUpper) (haystack.map toUpper)).isSome

-- ---------------------------------------------------------------------------
-- White space
-- ---------------------------------------------------------------------------

/-- `extract_lws`: what is left behind one unit of white space. -/
def extractLws (cs : Bytes) : Bytes :=
  let it := match cs with
    | a :: b :: c :: rest => if a = 13 ∧ b = 10 ∧ isWhitespaceChar c then rest else cs
    | _ => cs
  it.dropWhile isWhitespaceChar

/-- What is extracted leaves an end of what it is given. -/
theorem extractLws_suffix (cs : Bytes) : extractLws cs <:+ cs := by
  unfold extractLws
  refine (List.dropWhile_suffix _).trans ?_
  split
  · split
    · exact ⟨[_, _, _], rfl⟩
    · exact List.suffix_refl _
  · exact List.suffix_refl _

/-- The loop of `extract_all_lws`: the old and the new iterator. -/
def allLwsLoop : While Empty (Bytes × Bytes) where
  cond x := x.2 ≠ [] ∧ x.1 ≠ x.2
  body x := .ok (x.2, extractLws x.2)
  measure x := if x.1 = x.2 then 0 else x.2.length + 1
  decreases := by
    rintro ⟨old, new⟩ x' hCond hBody
    simp only [decide_eq_true_eq] at hCond
    obtain rfl := Except.ok.inj hBody
    dsimp only at hCond ⊢
    rw [if_neg hCond.2]
    split
    · exact Nat.succ_pos _
    · next hNe =>
      have hShort : (extractLws new).length < new.length :=
        Nat.lt_of_le_of_ne (extractLws_suffix new).length_le fun hSame =>
          hNe ((extractLws_suffix new).eq_of_length hSame).symm
      omega

/-- `extract_all_lws`. -/
def extractAllLws (cs : Bytes) : Bytes :=
  match allLwsLoop.run (cs, extractLws cs) with
  | .ok x => x.2

/-- `strip_lws`. -/
def stripLws (input : Bytes) : Bytes :=
  let start := extractAllLws input
  if start = [] then []
  else
    let rbegin := extractAllLws input.reverse
    if rbegin = [] then []
    else (input.take rbegin.length).drop (input.length - start.length)

-- ---------------------------------------------------------------------------
-- Headers
-- ---------------------------------------------------------------------------

/-- `header_list`, in the order of `ci_less`. -/
abbrev HeaderList := List (Bytes × Bytes)

/-- Names that differ in the case of letters are one. -/
def foldCase (key : Bytes) : Bytes := key.map toLower

/-- `m_headers[key] = val`. -/
def setHeader (key val : Bytes) : HeaderList → HeaderList
  | [] => [(key, val)]
  | h :: hs =>
    if foldCase key = foldCase h.1 then (h.1, val) :: hs
    else if foldCase key < foldCase h.1 then (key, val) :: h :: hs
    else h :: setHeader key val hs

/-- `get_header`. -/
def getHeader (headers : HeaderList) (key : Bytes) : Bytes :=
  ((headers.find? fun h => foldCase h.1 = foldCase key).map Prod.snd).getD []

/-- `append_header`. -/
def appendHeader (headers : HeaderList) (key val : Bytes) : Except HttpException HeaderList :=
  if key.any fun c => !isTokenChar c then .error ⟨"Invalid header name", 400⟩
  else if getHeader headers key = [] then .ok (setHeader key val headers)
  else .ok (setHeader key (getHeader headers key ++ (ascii ", " ++ val)) headers)

/-- `process_header`. -/
def processHeader (headers : HeaderList) (line : Bytes) : Except HttpException HeaderList :=
  match cut headerSeparator line with
  | none => .error ⟨"Invalid header line", 400⟩
  | some (key, val) => appendHeader headers (stripLws key) (stripLws val)

-- ---------------------------------------------------------------------------
-- Lists of parameters
-- ---------------------------------------------------------------------------

theorem length_extractAllLws (cs : Bytes) : (extractAllLws cs).length ≤ cs.length := by
  unfold extractAllLws
  split
  next x hRun =>
    have hKeep : x.2 <:+ cs := by
      refine While.run_induct (w := allLwsLoop) (P := fun x => x.2 <:+ cs) ?_
        (extractLws_suffix cs) hRun
      rintro ⟨old, new⟩ x' - hSuffix hBody
      obtain rfl := Except.ok.inj hBody
      exact (extractLws_suffix new).trans hSuffix
    exact hKeep.length_le

/-- `extract_token`. -/
def extractToken (cs : Bytes) : Bytes × Bytes :=
  (cs.takeWhile isTokenChar, cs.dropWhile isTokenChar)

/-- A token takes a character. -/
theorem length_extractToken {cs : Bytes} (h : (extractToken cs).1 ≠ []) :
    (extractToken cs).2.length < cs.length := by
  have hParts := congrArg List.length (List.takeWhile_append_dropWhile (p := isTokenChar) (l := cs))
  have hPos := List.length_pos_iff.mpr h
  rw [List.length_append] at hParts
  unfold extractToken at hPos ⊢
  dsimp only at hPos ⊢
  omega

/-- The search for the closing quote: `s` is what has been read, and `prev` the
character before. -/
def findQuote (s : Bytes) (prev : UInt8) : Bytes → Option (Bytes × Bytes)
  | [] => none
  | c :: cs =>
    if c = 34 then
      if prev = 92 then findQuote (s.dropLast ++ [34]) c cs else some (s, cs)
    else findQuote (s ++ [c]) c cs

/-- `extract_quoted_string`. -/
def extractQuotedString : Bytes → Bytes × Bytes
  | [] => ([], [])
  | c :: cs => if c = 34 then (findQuote [] c cs).getD ([], c :: cs) else ([], c :: cs)

/-- The search for a quote goes forward. -/
theorem length_findQuote {s : Bytes} {prev : UInt8} {cs : Bytes} {x : Bytes × Bytes}
    (h : findQuote s prev cs = some x) : x.2.length ≤ cs.length := by
  induction cs generalizing s prev with
  | nil => cases h
  | cons c cs ih =>
    rw [findQuote] at h
    split at h
    · split at h
      · exact Nat.le_trans (ih h) (Nat.le_succ _)
      · rw [← Option.some.inj h]
        exact Nat.le_succ _
    · exact Nat.le_trans (ih h) (Nat.le_succ _)

theorem length_extractQuotedString (cs : Bytes) :
    (extractQuotedString cs).2.length ≤ cs.length := by
  cases cs with
  | nil => exact Nat.le_refl _
  | cons c cs =>
    rw [extractQuotedString]
    split
    · cases hFind : findQuote [] c cs with
      | none => exact Nat.le_refl _
      | some x => exact Nat.le_trans (length_findQuote hFind) (Nat.le_succ _)
    · exact Nat.le_refl _

/-- Where a loop over parameters or attributes stands. -/
structure Cursor where
  cursor : Bytes
  first : Bool
  broken : Bool

/-- The value behind an equals sign; an error is `return begin`. -/
def attributeValue (cs : Bytes) : Except Unit Bytes :=
  let cursor := extractAllLws cs
  if cursor = [] then .error ()
  else
    let ret := extractQuotedString cursor
    if ret.2 ≠ cursor then .ok ret.2
    else
      let ret := extractToken cursor
      if ret.1 = [] then .error () else .ok ret.2

/-- A token, and a value if there is an equals sign. -/
def nameAndValue (cs : Bytes) : Except Unit Bytes :=
  let ret := extractToken (extractAllLws cs)
  if ret.1 = [] then .error ()
  else
    match extractAllLws ret.2 with
    | [] => .ok []
    | c :: rest => if c ≠ 61 then .ok (c :: rest) else attributeValue rest

/-- A turn of the loop of `extract_attributes`; what it reads goes into a map that
nothing looks at. -/
def attributesTurn (x : Cursor) : Except Unit Cursor :=
  match extractAllLws x.cursor with
  | [] => .ok ⟨[], x.first, true⟩
  | c :: rest =>
    -- the first attribute has no semicolon before it
    if x.first ∨ c = 59 then
      match nameAndValue (if x.first then c :: rest else rest) with
      | .error e => .error e
      | .ok cursor => .ok ⟨cursor, false, false⟩
    else .ok ⟨c :: rest, x.first, true⟩

theorem length_attributeValue {cs cs' : Bytes} (h : attributeValue cs = .ok cs') :
    cs'.length ≤ cs.length := by
  have hLws := length_extractAllLws cs
  unfold attributeValue at h
  dsimp only at h
  split at h
  · cases h
  split at h
  · rw [← Except.ok.inj h]
    exact Nat.le_trans (length_extractQuotedString _) hLws
  split at h
  · cases h
  · next hToken =>
    rw [← Except.ok.inj h]
    exact Nat.le_trans (Nat.le_of_lt (length_extractToken hToken)) hLws

/-- An attribute takes a character. -/
theorem length_nameAndValue {cs cs' : Bytes} (h : nameAndValue cs = .ok cs') :
    cs'.length < cs.length := by
  have hLws := length_extractAllLws cs
  unfold nameAndValue at h
  dsimp only at h
  split at h
  · cases h
  next hToken =>
  have hShort := length_extractToken hToken
  have hNext := length_extractAllLws (extractToken (extractAllLws cs)).2
  split at h
  · rw [← Except.ok.inj h, List.length_nil]
    omega
  · next c rest hRest =>
    rw [hRest, List.length_cons] at hNext
    split at h
    · rw [← Except.ok.inj h, List.length_cons]
      omega
    · have hValue := length_attributeValue h
      omega

/-- A turn that does not end the loop reads something. -/
theorem length_attributesTurn {x x' : Cursor} (h : attributesTurn x = .ok x') :
    x'.cursor.length ≤ x.cursor.length ∧
      (x'.broken = false → x'.cursor.length < x.cursor.length) := by
  have hLws := length_extractAllLws x.cursor
  unfold attributesTurn at h
  split at h
  · obtain rfl := Except.ok.inj h
    exact ⟨Nat.zero_le _, fun hNot => nomatch hNot⟩
  · next c rest hRest =>
    rw [hRest] at hLws
    split at h
    · split at h
      · cases h
      · next cursor' hRead =>
        have hShort := length_nameAndValue hRead
        have hAll : (if x.first then c :: rest else rest).length ≤ (c :: rest).length := by
          split
          · exact Nat.le_refl _
          · exact Nat.le_succ _
        obtain rfl := Except.ok.inj h
        dsimp only
        omega
    · obtain rfl := Except.ok.inj h
      exact ⟨hLws, fun hNot => nomatch hNot⟩

/-- What is left of a list, until the loop is broken. -/
def Cursor.left (x : Cursor) : ℕ := if x.broken then 0 else x.cursor.length + 1

/-- A turn makes progress, or breaks the loop. -/
theorem left_lt {x x' : Cursor} (h : x.broken = false)
    (hShort : x'.broken = false → x'.cursor.length < x.cursor.length) : x'.left < x.left := by
  unfold Cursor.left
  rw [h, if_neg Bool.false_ne_true]
  cases hBroken : x'.broken with
  | true => exact Nat.succ_pos _
  | false => exact Nat.succ_lt_succ (hShort hBroken)

def attributesLoop : While Unit Cursor where
  cond x := !x.broken && x.cursor ≠ []
  body := attributesTurn
  measure := Cursor.left
  decreases x x' hCond hBody := by
    rw [Bool.and_eq_true, Bool.not_eq_true'] at hCond
    exact left_lt hCond.1 (length_attributesTurn hBody).2

/-- `extract_attributes`: what is left, or everything for an error. -/
def extractAttributes (cs : Bytes) : Bytes :=
  match attributesLoop.run ⟨cs, true, false⟩ with
  | .error _ => cs
  | .ok x => x.cursor

theorem length_extractAttributes (cs : Bytes) : (extractAttributes cs).length ≤ cs.length := by
  unfold extractAttributes
  split
  · exact Nat.le_refl _
  · next x hRun =>
    refine While.run_induct (P := fun x => x.cursor.length ≤ cs.length) ?_ (Nat.le_refl _) hRun
    exact fun x x' _ hLe hBody => Nat.le_trans (length_attributesTurn hBody).1 hLe

/-- An attribute list behind a semicolon, if there is one. -/
def parameterAttributes : Bytes → Except Unit Bytes
  | [] => .ok []
  | c :: rest =>
    if c = 59 then
      let acursor := extractAttributes rest
      if acursor = rest then .error () else .ok acursor
    else .ok (c :: rest)

/-- What stands behind a parameter: the end, a comma with more behind it, or
something that ends the list. -/
def parameterEnd : Bytes → Except Unit Cursor
  | [] => .ok ⟨[], false, true⟩
  | c :: rest =>
    if c ≠ 44 then .ok ⟨c :: rest, false, true⟩
    else if rest = [] then .error ()
    else .ok ⟨rest, false, false⟩

/-- A turn of the loop of `extract_parameters`; the names go into a list that
nothing looks at. -/
def parametersTurn (x : Cursor) : Except Unit Cursor :=
  match extractAllLws x.cursor with
  | [] => .ok ⟨[], false, true⟩
  | c :: rest =>
    let ret := extractToken (c :: rest)
    if ret.1 = [] then .error ()
    else
      match parameterAttributes (extractAllLws ret.2) with
      | .error e => .error e
      | .ok cursor => parameterEnd (extractAllLws cursor)

theorem length_parameterAttributes {cs cs' : Bytes} (h : parameterAttributes cs = .ok cs') :
    cs'.length ≤ cs.length := by
  cases cs with
  | nil =>
    obtain rfl := Except.ok.inj h
    exact Nat.le_refl _
  | cons c rest =>
    unfold parameterAttributes at h
    dsimp only at h
    split at h
    · split at h
      · cases h
      · obtain rfl := Except.ok.inj h
        exact Nat.le_trans (length_extractAttributes rest) (Nat.le_succ _)
    · obtain rfl := Except.ok.inj h
      exact Nat.le_refl _

theorem length_parameterEnd {cs : Bytes} {x : Cursor} (h : parameterEnd cs = .ok x) :
    x.cursor.length ≤ cs.length := by
  cases cs with
  | nil =>
    obtain rfl := Except.ok.inj h
    exact Nat.le_refl _
  | cons c rest =>
    unfold parameterEnd at h
    dsimp only at h
    split at h
    · obtain rfl := Except.ok.inj h
      exact Nat.le_refl _
    split at h
    · cases h
    · obtain rfl := Except.ok.inj h
      exact Nat.le_succ _

/-- A parameter takes a character. -/
theorem length_parametersTurn {x x' : Cursor} (h : parametersTurn x = .ok x') :
    x'.broken = false → x'.cursor.length < x.cursor.length := by
  have hLws := length_extractAllLws x.cursor
  unfold parametersTurn at h
  split at h
  · obtain rfl := Except.ok.inj h
    exact fun hNot => nomatch hNot
  · next c rest hRest =>
    rw [hRest] at hLws
    dsimp only at h
    split at h
    · cases h
    next hToken =>
    split at h
    · cases h
    · next cursor hRead =>
      have hShort := length_extractToken hToken
      have hNext := length_extractAllLws (extractToken (c :: rest)).2
      have hAttributes := length_parameterAttributes hRead
      have hBlanks := length_extractAllLws cursor
      have hEnd := length_parameterEnd h
      intro _
      omega

def parametersLoop : While Unit Cursor where
  cond x := !x.broken && x.cursor ≠ []
  body := parametersTurn
  measure := Cursor.left
  decreases x x' hCond hBody := by
    rw [Bool.and_eq_true, Bool.not_eq_true'] at hCond
    exact left_lt hCond.1 (length_parametersTurn hBody)

/-- `extract_parameters`: what is left, or everything for an error. -/
def extractParameters (cs : Bytes) : Bytes :=
  match parametersLoop.run ⟨cs, false, false⟩ with
  | .error _ => cs
  | .ok x => x.cursor

/-- `get_header_as_plist`: whether the value cannot be parsed. -/
def getHeaderAsPlist (headers : HeaderList) (key : Bytes) : Bool :=
  getHeader headers key ≠ [] ∧
    extractParameters (getHeader headers key) = getHeader headers key

end PushStreamer.Http
