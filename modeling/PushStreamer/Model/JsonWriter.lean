import Mathlib.Data.Int.Log
import Mathlib.Data.List.Dedup
import Mathlib.Data.List.DropRight
import Mathlib.Data.List.Sort
import Mathlib.Data.String.Basic
import PushStreamer.Model.Json

/-!
# `Json::FastWriter`

The writer of the vendored JSON library. An object is written in the order of
its map, a text up to its first zero character. Quotes, backslashes and control
characters are escaped; every other character is copied, also one that the
reader has decoded from an escape.

* `write_congr` — what is written of an object depends on its members by name.
* `ascii_writeValue_iff` — when the written text is ASCII.
-/

namespace PushStreamer

namespace FastWriter

-- ---------------------------------------------------------------------------
-- Numbers
-- ---------------------------------------------------------------------------

/-- The nearest whole number, the even one of two. -/
def roundHalfEven (x : ℚ) : ℕ :=
  if 2 * (x - ⌊x⌋) < 1 then ⌊x⌋.toNat
  else if 2 * (x - ⌊x⌋) > 1 then ⌊x⌋.toNat + 1
  else if ⌊x⌋.toNat % 2 = 0 then ⌊x⌋.toNat else ⌊x⌋.toNat + 1

/-- The sixteen digits of a positive number, and its decimal exponent. -/
def significand (x : ℚ) : ℕ × ℤ :=
  let exponent := Int.log 10 x
  let digits := roundHalfEven (x * 10 ^ (15 - exponent))
  if digits = 10 ^ 16 then (10 ^ 15, exponent + 1) else (digits, exponent)

/-- At least `width` decimal digits. -/
def padded (width n : ℕ) : List Char := (Nat.toDigits 10 n).leftpad width '0'

/-- The digits, with a point after the first `n` of them. -/
def pointAfter (n : ℕ) (digits : List Char) : List Char :=
  digits.take n ++ '.' :: digits.drop n

/-- `sprintf("%#.16g", value)` for a value that is not negative. -/
def sprintfPositive (x : ℚ) : List Char :=
  if x = 0 then pointAfter 1 (padded 16 0)
  else
    let (digits, exponent) := significand x
    if exponent < -4 ∨ 16 ≤ exponent then
      pointAfter 1 (padded 16 digits) ++
        'e' :: (if exponent < 0 then '-' else '+') :: padded 2 exponent.natAbs
    else if exponent < 0 then
      pointAfter 1 (padded (16 + exponent.natAbs) digits)
    else pointAfter (exponent.toNat + 1) (padded 16 digits)

/-- `sprintf("%#.16g", value)`. -/
def sprintf (value : ℚ) : List Char :=
  if value < 0 then '-' :: sprintfPositive (-value) else sprintfPositive value

/-- `valueToString` of a `double`: the zeros at the end go, but for one. -/
def doubleToString (value : ℚ) : List Char :=
  let buffer := sprintf value
  if buffer.getLast? ≠ some '0' then buffer
  else
    let kept := buffer.rdropWhile (· = '0')
    if (kept.rdropWhile Char.isDigit).getLast? = some '.' then kept ++ ['0'] else buffer

-- ---------------------------------------------------------------------------
-- Texts
-- ---------------------------------------------------------------------------

/-- `isControlCharacter`. -/
def isControlCharacter (c : Char) : Bool := 0 < c.toNat && c.toNat ≤ 0x1f

/-- Four hexadecimal digits. -/
def hex (n : ℕ) : List Char := ((Nat.toDigits 16 n).map Char.toUpper).leftpad 4 '0'

/-- The characters that have escapes of their own. -/
def specials : List Char := "\"\\\x08\x0c\n\r\t".toList

/-- What `valueToQuotedString` writes for a character. -/
def escape (c : Char) : List Char :=
  if c = '"' then "\\\"".toList
  else if c = '\\' then "\\\\".toList
  else if c = '\x08' then "\\b".toList
  else if c = '\x0c' then "\\f".toList
  else if c = '\n' then "\\n".toList
  else if c = '\r' then "\\r".toList
  else if c = '\t' then "\\t".toList
  else if isControlCharacter c then "\\u".toList ++ hex c.toNat
  else [c]

/-- `valueToQuotedString`. -/
def valueToQuotedString (value : String) : List Char :=
  let cs := cString value.toList
  if cs.all fun c => c ∉ specials && !isControlCharacter c then
    '"' :: cs ++ ['"']
  else '"' :: cs.flatMap escape ++ ['"']

-- ---------------------------------------------------------------------------
-- Values
-- ---------------------------------------------------------------------------

/-- The texts one after the other, with commas between them. -/
def commas : List (List Char) → List Char
  | [] => []
  | [text] => text
  | text :: texts => text ++ ',' :: commas texts

/-- `getMemberNames`: the names in the order of the map, each once. -/
def getMemberNames {α : Type} (ms : List (String × α)) : List String :=
  (ms.map Prod.fst).dedup.insertionSort (· ≤ ·)

/-- An object, from the texts of its members. -/
def objectText (texts : List (String × List Char)) : List Char :=
  '{' :: commas ((getMemberNames texts).map fun name =>
    valueToQuotedString name ++ ':' :: (texts.lookup name).getD []) ++ ['}']

mutual

/-- `writeValue`. -/
def writeValue : Value → List Char
  | .null => "null".toList
  | .int n => (toString n : String).toList
  | .uint n => (toString n : String).toList
  | .real q => doubleToString q
  | .str s => valueToQuotedString s
  | .bool b => (if b then "true" else "false").toList
  | .arr xs => '[' :: commas (writeElements xs) ++ [']']
  | .obj ms => objectText (writeMembers ms)

def writeElements : List Value → List (List Char)
  | [] => []
  | x :: xs => writeValue x :: writeElements xs

def writeMembers : List (String × Value) → List (String × List Char)
  | [] => []
  | (name, x) :: ms => (name, writeValue x) :: writeMembers ms

end

/-- `write`. -/
def write (root : Value) : String := String.ofList (writeValue root ++ ['\n'])

-- ---------------------------------------------------------------------------
-- Objects are maps
-- ---------------------------------------------------------------------------

section

variable {α : Type}

/-- The names are those that a lookup finds. -/
theorem mem_getMemberNames {ms : List (String × α)} {name : String} :
    name ∈ getMemberNames ms ↔ (ms.lookup name).isSome = true := by
  unfold getMemberNames
  rw [List.mem_insertionSort, List.mem_dedup]
  induction ms with
  | nil => simp
  | cons m ms ih =>
    rw [List.map_cons, List.mem_cons, ih, Value.lookup_member]
    by_cases hName : name = m.1
    · rw [if_pos hName]
      exact iff_of_true (Or.inl hName) rfl
    · rw [if_neg hName]
      exact or_iff_right hName

/-- The names that are written depend on the members by name. -/
theorem getMemberNames_congr {β : Type} {ms : List (String × α)} {ks : List (String × β)}
    (h : ∀ name, (ms.lookup name).isSome = (ks.lookup name).isSome) :
    getMemberNames ms = getMemberNames ks := by
  have hPerm : (ms.map Prod.fst).dedup.Perm (ks.map Prod.fst).dedup := by
    refine (List.perm_ext_iff_of_nodup (List.nodup_dedup _) (List.nodup_dedup _)).mpr ?_
    intro name
    have hMs : name ∈ getMemberNames ms ↔ _ := mem_getMemberNames
    have hKs : name ∈ getMemberNames ks ↔ _ := mem_getMemberNames
    unfold getMemberNames at hMs hKs
    rw [List.mem_insertionSort] at hMs hKs
    rw [hMs, hKs, h name]
  unfold getMemberNames
  refine List.Perm.eq_of_pairwise' (r := (· ≤ ·)) (List.pairwise_insertionSort _ _)
    (List.pairwise_insertionSort _ _) ?_
  exact ((List.perm_insertionSort _ _).trans hPerm).trans (List.perm_insertionSort _ _).symm

end

/-- The elements are written one by one. -/
theorem writeElements_eq (xs : List Value) : writeElements xs = xs.map writeValue := by
  induction xs with
  | nil => rfl
  | cons x xs ih => rw [writeElements, ih, List.map_cons]

/-- The text of a member is that of its value. -/
theorem lookup_writeMembers (ms : List (String × Value)) (name : String) :
    (writeMembers ms).lookup name = (ms.lookup name).map writeValue := by
  induction ms with
  | nil => rfl
  | cons m ms ih =>
    rw [writeMembers, Value.lookup_member, Value.lookup_member, ih]
    split
    · rfl
    · rfl

/-- **What is written of an object** depends on its members by name. -/
theorem write_congr {ms ks : List (String × Value)} (h : ∀ name, ms.lookup name = ks.lookup name) :
    write (.obj ms) = write (.obj ks) := by
  have hLookup : ∀ name, (writeMembers ms).lookup name = (writeMembers ks).lookup name := by
    intro name
    rw [lookup_writeMembers, lookup_writeMembers, h name]
  have hNames : getMemberNames (writeMembers ms) = getMemberNames (writeMembers ks) :=
    getMemberNames_congr fun name => congrArg Option.isSome (hLookup name)
  unfold write
  rw [writeValue, writeValue, objectText, objectText, hNames]
  simp only [hLookup]

example : write (.obj [("b", .real (3 / 2)), ("a", .arr [.str "x\"", .real 1000000])]) =
    "\x7b\"a\":[\"x\\\"\",1000000.0],\"b\":1.50\x7d\n" := by decide +kernel

-- ---------------------------------------------------------------------------
-- ASCII
-- ---------------------------------------------------------------------------

/-- Every character is ASCII. -/
def AllAscii (cs : List Char) : Prop := ∀ c ∈ cs, IsAscii c

instance (c : Char) : Decidable (IsAscii c) :=
  inferInstanceAs (Decidable (0 < c.toNat ∧ c.toNat < 128))

instance (cs : List Char) : Decidable (AllAscii cs) := List.decidableBAll _ cs

section

variable {cs ds : List Char} {c : Char}

@[simp] theorem allAscii_nil : AllAscii [] := fun _ h => nomatch h

@[simp] theorem allAscii_cons : AllAscii (c :: cs) ↔ IsAscii c ∧ AllAscii cs :=
  List.forall_mem_cons

@[simp] theorem allAscii_append : AllAscii (cs ++ ds) ↔ AllAscii cs ∧ AllAscii ds :=
  List.forall_mem_append

/-- A part of an ASCII text. -/
theorem AllAscii.of_subset (h : AllAscii cs) (hSub : ds ⊆ cs) : AllAscii ds :=
  fun c hc => h c (hSub hc)

/-- Zeros in front are ASCII. -/
theorem allAscii_leftpad (n : ℕ) (h : AllAscii cs) : AllAscii (cs.leftpad n '0') := by
  unfold List.leftpad
  rw [allAscii_append]
  refine ⟨fun c hc => ?_, h⟩
  rw [(List.mem_replicate.mp hc).2]
  exact ⟨by decide, by decide⟩

/-- Digits are ASCII: so the texts of numbers. -/
theorem allAscii_padded (width n : ℕ) : AllAscii (padded width n) :=
  allAscii_leftpad width fun _ hc => isAscii_of_isDigit (isDigit_of_mem_decimal hc)

/-- So is a point between digits. -/
theorem allAscii_pointAfter (n : ℕ) (h : AllAscii cs) : AllAscii (pointAfter n cs) := by
  unfold pointAfter
  rw [allAscii_append, allAscii_cons]
  exact ⟨h.of_subset (List.take_subset _ _), ⟨by decide, by decide⟩,
    h.of_subset (List.drop_subset _ _)⟩

/-- A double is written in ASCII. -/
theorem allAscii_sprintf (value : ℚ) : AllAscii (sprintf value) := by
  have hPositive : ∀ x, AllAscii (sprintfPositive x) := by
    intro x
    unfold sprintfPositive
    split
    · exact allAscii_pointAfter _ (allAscii_padded _ _)
    simp only
    split
    · rw [allAscii_append, allAscii_cons, allAscii_cons]
      refine ⟨allAscii_pointAfter _ (allAscii_padded _ _), ⟨by decide, by decide⟩, ?_,
        allAscii_padded _ _⟩
      split <;> exact ⟨by decide, by decide⟩
    split
    · exact allAscii_pointAfter _ (allAscii_padded _ _)
    · exact allAscii_pointAfter _ (allAscii_padded _ _)
  unfold sprintf
  split
  · exact allAscii_cons.mpr ⟨⟨by decide, by decide⟩, hPositive _⟩
  · exact hPositive _

/-- A double without its last zeros is of the kind, too. -/
theorem allAscii_doubleToString (value : ℚ) : AllAscii (doubleToString value) := by
  have hBuffer := allAscii_sprintf value
  unfold doubleToString
  simp only
  split
  · exact hBuffer
  split
  · rw [allAscii_append]
    exact ⟨hBuffer.of_subset (List.rdropWhile_prefix _ _).subset, by simp [IsAscii]⟩
  · exact hBuffer

/-- An integer is written in ASCII, too. -/
theorem allAscii_toString (n : ℤ) : AllAscii (toString n : String).toList := by
  intro c hc
  rcases mem_toString hc with rfl | hDigit
  · exact ⟨by decide, by decide⟩
  · exact isAscii_of_isDigit hDigit

/-- Control characters are ASCII; the zero counts as none. -/
theorem isAscii_of_isControlCharacter (h : isControlCharacter c = true) : IsAscii c := by
  simp only [isControlCharacter, Bool.and_eq_true, decide_eq_true_eq] at h
  unfold IsAscii
  omega

/-- Escapes are ASCII. -/
theorem allAscii_hex {n : ℕ} (h : n < 32) : AllAscii (hex n) := by
  have hAll : ∀ n < 32, AllAscii (hex n) := by decide
  exact hAll n h

/-- A character without a short escape is written as it is, or in `\u` form. -/
theorem escape_of_not_mem (h : c ∉ specials) :
    escape c = if isControlCharacter c then "\\u".toList ++ hex c.toNat else [c] := by
  have hNe : ∀ d ∈ specials, c ≠ d := fun d hd hEq => h (hEq ▸ hd)
  unfold escape
  rw [if_neg (hNe '"' (by decide)), if_neg (hNe '\\' (by decide)), if_neg (hNe '\x08' (by decide)),
    if_neg (hNe '\x0c' (by decide)), if_neg (hNe '\n' (by decide)), if_neg (hNe '\r' (by decide)),
    if_neg (hNe '\t' (by decide))]

/-- An escape is ASCII; what is not escaped is copied. -/
theorem allAscii_escape_iff : AllAscii (escape c) ↔ IsAscii c := by
  have hSpecial : AllAscii (specials ++ specials.flatMap escape) := by decide
  by_cases hMem : c ∈ specials
  · rw [allAscii_append] at hSpecial
    refine iff_of_true (hSpecial.2.of_subset fun d hd => ?_) (hSpecial.1 c hMem)
    exact List.mem_flatMap_of_mem hMem hd
  rw [escape_of_not_mem hMem]
  split
  · rename_i hControl
    have hAscii := isAscii_of_isControlCharacter hControl
    simp only [isControlCharacter, Bool.and_eq_true, decide_eq_true_eq] at hControl
    exact iff_of_true (allAscii_append.mpr ⟨by decide, allAscii_hex (by omega)⟩) hAscii
  · rw [allAscii_cons, and_iff_left allAscii_nil]

/-- Texts without such characters are copied. -/
theorem valueToQuotedString_eq (value : String) :
    valueToQuotedString value = '"' :: (cString value.toList).flatMap escape ++ ['"'] := by
  unfold valueToQuotedString
  simp only
  split
  · rename_i hPlain
    have hCopy : ∀ c ∈ cString value.toList, escape c = [c] := by
      intro c hc
      have hChar := List.all_eq_true.mp hPlain c hc
      rw [Bool.and_eq_true, decide_eq_true_eq, Bool.not_eq_true'] at hChar
      rw [escape_of_not_mem hChar.1, hChar.2, if_neg Bool.false_ne_true]
    rw [List.flatMap_congr hCopy, List.flatMap_singleton']
  · rfl

/-- A text is ASCII, as far as it is written. -/
def AsciiText (s : String) : Prop := AllAscii (cString s.toList)

instance (s : String) : Decidable (AsciiText s) :=
  inferInstanceAs (Decidable (AllAscii (cString s.toList)))

theorem isAscii_quote : IsAscii '"' := ⟨by decide, by decide⟩

/-- A string in quotes is ASCII just when the text up to its first zero is. -/
theorem allAscii_valueToQuotedString {value : String} :
    AllAscii (valueToQuotedString value) ↔ AsciiText value := by
  rw [valueToQuotedString_eq, List.cons_append, allAscii_cons, allAscii_append, allAscii_cons,
    and_iff_right isAscii_quote, and_iff_left ⟨isAscii_quote, allAscii_nil⟩]
  unfold AsciiText AllAscii
  rw [List.forall_mem_flatMap]
  exact forall₂_congr fun c _ => allAscii_escape_iff

/-- Commas add nothing else. -/
theorem allAscii_commas {texts : List (List Char)} :
    AllAscii (commas texts) ↔ ∀ text ∈ texts, AllAscii text := by
  induction texts with
  | nil => exact iff_of_true allAscii_nil (List.forall_mem_nil _)
  | cons text texts ih =>
    rw [List.forall_mem_cons]
    cases texts with
    | nil => exact (and_iff_left (List.forall_mem_nil _)).symm
    | cons next texts =>
      have hComma : IsAscii ',' := ⟨by decide, by decide⟩
      have hStep : commas (text :: next :: texts) = text ++ ',' :: commas (next :: texts) := rfl
      rw [hStep, allAscii_append, allAscii_cons, ih, and_iff_right hComma]

/-- An object is ASCII when its names and its members are. -/
theorem allAscii_objectText {texts : List (String × List Char)} :
    AllAscii (objectText texts) ↔
      ∀ name text, texts.lookup name = some text → AsciiText name ∧ AllAscii text := by
  have hOpen : IsAscii '\x7b' := ⟨by decide, by decide⟩
  have hClose : AllAscii ['\x7d'] := allAscii_cons.mpr ⟨⟨by decide, by decide⟩, allAscii_nil⟩
  have hColon : IsAscii ':' := ⟨by decide, by decide⟩
  unfold objectText
  rw [List.cons_append, allAscii_cons, allAscii_append, and_iff_right hOpen, and_iff_left hClose,
    allAscii_commas, List.forall_mem_map]
  refine forall_congr' fun name => ?_
  rw [mem_getMemberNames, allAscii_append, allAscii_valueToQuotedString, allAscii_cons,
    and_iff_right hColon]
  cases texts.lookup name with
  | none => simp
  | some text => simp

end

/-- A text or a name of the value is not ASCII. -/
inductive Foreign : Value → Prop
  | text {s : String} (h : ¬ AsciiText s) : Foreign (.str s)
  | element {xs : List Value} {x : Value} (hMem : x ∈ xs) (h : Foreign x) : Foreign (.arr xs)
  | name {ms : List (String × Value)} {name : String} {x : Value}
      (hLookup : ms.lookup name = some x) (h : ¬ AsciiText name) : Foreign (.obj ms)
  | member {ms : List (String × Value)} {name : String} {x : Value}
      (hLookup : ms.lookup name = some x) (h : Foreign x) : Foreign (.obj ms)

/-- A string is foreign unless its text is ASCII. -/
theorem not_foreign_str_iff {s : String} : ¬ Foreign (.str s) ↔ AsciiText s := by
  rw [← not_not (a := AsciiText s)]
  refine not_congr ⟨?_, .text⟩
  rintro ⟨h⟩
  exact h

/-- An object is foreign unless its names and its members are ASCII. -/
theorem not_foreign_obj_iff {ms : List (String × Value)} : ¬ Foreign (.obj ms) ↔
    ∀ name x, ms.lookup name = some x → AsciiText name ∧ ¬ Foreign x := by
  constructor
  · intro h name x hLookup
    refine ⟨?_, fun hForeign => h (.member hLookup hForeign)⟩
    by_contra hName
    exact h (.name hLookup hName)
  · rintro h (_ | _ | ⟨hLookup, hName⟩ | ⟨hLookup, hForeign⟩)
    · exact hName (h _ _ hLookup).1
    · exact (h _ _ hLookup).2 hForeign

/-- A member is smaller than its object: the recursion goes down. -/
theorem sizeOf_lt_of_lookup {ms : List (String × Value)} {name : String} {x : Value}
    (h : ms.lookup name = some x) : sizeOf x < sizeOf ms := by
  obtain ⟨before, after, rfl, -⟩ := List.lookup_eq_some_iff.mp h
  have hMem : (name, x) ∈ before ++ (name, x) :: after := by simp
  have hPair : sizeOf (name, x) = 1 + sizeOf name + sizeOf x := rfl
  have hLt := List.sizeOf_lt_of_mem hMem
  omega

/-- **The written text is ASCII** just when no text of the value is foreign. -/
theorem ascii_writeValue_iff (v : Value) : AllAscii (writeValue v) ↔ ¬ Foreign v := by
  cases v with
  | null => exact iff_of_true (by rw [writeValue]; decide) nofun
  | int n => exact iff_of_true (by rw [writeValue]; exact allAscii_toString n) nofun
  | uint n => exact iff_of_true (by rw [writeValue]; exact allAscii_toString n) nofun
  | real q => exact iff_of_true (by rw [writeValue]; exact allAscii_doubleToString q) nofun
  | bool b =>
    refine iff_of_true ?_ nofun
    rw [writeValue]
    cases b with
    | false => decide
    | true => decide
  | str s => rw [writeValue, allAscii_valueToQuotedString, not_foreign_str_iff]
  | arr xs =>
    have hOpen : IsAscii '[' := ⟨by decide, by decide⟩
    have hClose : AllAscii [']'] := allAscii_cons.mpr ⟨⟨by decide, by decide⟩, allAscii_nil⟩
    rw [writeValue, List.cons_append, allAscii_cons, allAscii_append, and_iff_right hOpen,
      and_iff_left hClose, allAscii_commas, writeElements_eq, List.forall_mem_map]
    constructor
    · rintro h (_ | ⟨hMem, hForeign⟩)
      exact (ascii_writeValue_iff _).mp (h _ hMem) hForeign
    · exact fun h x hMem => (ascii_writeValue_iff x).mpr fun hForeign => h (.element hMem hForeign)
  | obj ms =>
    rw [writeValue, allAscii_objectText, not_foreign_obj_iff]
    refine forall_congr' fun name => ?_
    rw [lookup_writeMembers]
    cases hLookup : ms.lookup name with
    | none => simp
    | some x =>
      have hSize : sizeOf x < sizeOf ms := sizeOf_lt_of_lookup hLookup
      have hMember := ascii_writeValue_iff x
      simp [hMember]
termination_by sizeOf v

/-- A value is written in ASCII just when nothing foreign is in it. -/
theorem ascii_write_iff (v : Value) : AllAscii (write v).toList ↔ ¬ Foreign v := by
  have hNewline : AllAscii ['\n'] := allAscii_cons.mpr ⟨⟨by decide, by decide⟩, allAscii_nil⟩
  rw [write, String.toList_ofList, allAscii_append, and_iff_left hNewline, ascii_writeValue_iff]

/-- What is written is never empty: it ends its line. -/
theorem write_ne (v : Value) : write v ≠ "" := by
  intro h
  have hList := congrArg String.toList h
  rw [write, String.toList_ofList] at hList
  simp at hList

/-- ASCII texts are ASCII as far as they are written. -/
theorem asciiText_of_allAscii {s : String} (h : AllAscii s.toList) : AsciiText s :=
  h.of_subset (List.takeWhile_subset _)

end FastWriter

end PushStreamer
