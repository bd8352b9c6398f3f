import PushStreamer.Input.Facade
import PushStreamer.Input.KeyBoardThread
import PushStreamer.Model.JsonRoundTrip

/-!
# Keys and coordinates as texts

A key message holds a key as a number or as its decimal text, a mouse message
holds three decimals joined by bars. Mode 1 reads the key as a text before it
looks at its type, and a number is none. The JSON reader makes a `double` of the
nine lowest numbers of 32 bits, and a `double` is no key.

* `mouse_coordinates_survive` — the three numbers reach the driver as they were
  sent.
* `number_and_text_agree_iff` — in which mode, and which keys may be sent both
  ways.
-/

namespace PushStreamer

open Value

section

variable {root : Value} {ms : List (String × Value)}

theorem member_of_lookup {name : String} {v : Value} (h : ms.lookup name = some v) :
    member ms name = v := by
  rw [member, h]
  rfl

theorem readInt_of_lookup (hMs : root.members = .ok ms) {name : String} {n : Int}
    (h : ms.lookup name = some (.int n)) : readInt root name = .ok n := by
  rw [readInt, index_of_members hMs, member_of_lookup h]
  rfl

/-- The `key` of a message. -/
theorem index_key (hMs : root.members = .ok ms) {v : Value} (h : ms.lookup "key" = some v) :
    root.isMember "key" = .ok true ∧ root.index "key" = .ok v := by
  rw [isMember_of_members hMs, index_of_members hMs, member_of_lookup h, h]
  exact ⟨rfl, rfl⟩

end

-- ---------------------------------------------------------------------------
-- Coordinates
-- ---------------------------------------------------------------------------

/-- The text of three coordinates, `x|y|key`. -/
def mouseText (x y key : Int) : String :=
  toString x ++ "|" ++ toString y ++ "|" ++ toString key

/-- A number of 32 bits. -/
def IsInt (n : Int) : Prop := intMin ≤ n ∧ n ≤ intMax

/-- The tokens of the text are the three decimals. -/
theorem split_mouseText (x y key : Int) :
    split (mouseText x y key) "|" = [toString x, toString y, toString key] := by
  -- neither digits nor a sign end a token or a string
  have hBar : ∀ n : Int, ∀ c ∈ (toString n : String).toList, c ∉ "|".toList := by
    intro n c hc hMem
    have hEq : c = '|' := by simpa using hMem
    rcases mem_toString hc with rfl | hDigit
    · exact absurd hEq (by decide)
    · rw [hEq] at hDigit
      exact absurd hDigit (by decide)
  have hZero : ∀ n : Int, ∀ c ∈ (toString n : String).toList, c ≠ '\x00' := by
    rintro n c hc rfl
    rcases mem_toString hc with hSign | hDigit
    · exact absurd hSign (by decide)
    · exact absurd hDigit (by decide)
  have hList : (mouseText x y key).toList = (toString x : String).toList ++ (['|'] ++
      ((toString y : String).toList ++ (['|'] ++ (toString key : String).toList))) := by
    simp only [mouseText, String.toList_append, List.append_assoc]
    rfl
  have hString : cString (mouseText x y key).toList = (mouseText x y key).toList := by
    refine cString_eq fun c hc => ?_
    rw [hList] at hc
    simp only [List.mem_append, List.mem_singleton] at hc
    rcases hc with hX | rfl | hY | rfl | hKey
    · exact hZero x c hX
    · decide
    · exact hZero y c hY
    · decide
    · exact hZero key c hKey
  have hSep : ∀ c ∈ ['|'], c ∈ "|".toList := by simp
  have hDelim : cString "|".toList = "|".toList := by decide
  rw [split, hDelim, hString, hList,
    strtok_field (toString_toList_ne_nil x) (hBar x) (by simp) hSep,
    strtok_field (toString_toList_ne_nil y) (hBar y) (by simp) hSep,
    strtok_last (toString_toList_ne_nil key) (hBar key)]
  simp only [List.map_cons, List.map_nil, String.ofList_toList]

/-- The three numbers of a mouse message are those of its text. -/
theorem readMouse_mouseText {root : Value} {ms : List (String × Value)} {x y key : Int}
    (hMs : root.members = .ok ms) (hKey : ms.lookup "key" = some (.str (mouseText x y key)))
    (hx : IsInt x) (hy : IsInt y) (hk : IsInt key) : readMouse root = .ok (x, y, key) := by
  have hRead : (root.index "key" >>= Value.asString) = .ok (mouseText x y key) := by
    rw [(index_key hMs hKey).2]
    rfl
  rw [readMouse, hRead, ofJson_ok]
  show (token (split (mouseText x y key) "|") 0 >>= _) = _
  rw [split_mouseText]
  show Except.ok (atoi (toString x), atoi (toString y), atoi (toString key)) = _
  rw [atoi_toString hx.1 hx.2, atoi_toString hy.1 hy.2, atoi_toString hk.1 hk.2]

/-- **Coordinates survive the wire.** A mouse message of mode 0 makes exactly one
call, with exactly the numbers of its text. -/
theorem mouse_coordinates_survive {root : Value} {ms : List (String × Value)} {ud x y key : Int}
    (hMs : root.members = .ok ms) (hMode : ms.lookup "mode" = some (.int 0))
    (hUd : ms.lookup "ud" = some (.int ud))
    (hKey : ms.lookup "key" = some (.str (mouseText x y key)))
    (hx : IsInt x) (hy : IsInt y) (hk : IsInt key) (st : KeyBoardThread) :
    (ud = 4 → dealTheNormalKeyboardModel root st = .ok (st, [.mouseMove x y key])) ∧
    (ud = 6 → dealTheNormalKeyboardModel root st = .ok (st, [.mouseDown x y key])) ∧
    (ud = 7 → dealTheNormalKeyboardModel root st = .ok (st, [.mouseUp x y key])) := by
  have hDeal : dealTheNormalKeyboardModel root st = normalMessage root st := by
    unfold dealTheNormalKeyboardModel
    rw [readInt_of_lookup hMs hMode]
    rfl
  rw [hDeal]
  unfold normalMessage
  rw [readInt_of_lookup hMs hUd, (index_key hMs hKey).1, readMouse_mouseText hMs hKey hx hy hk]
  refine ⟨?_, ?_, ?_⟩
  · rintro rfl
    rfl
  · rintro rfl
    rfl
  · rintro rfl
    rfl

/-- The text of three numbers, one of them negative and one zero. -/
def mouseMessage (ud x y key : Int) : Value :=
  .obj [("mode", .int 0), ("ud", .int ud), ("key", .str (mouseText x y key))]

theorem mouse_coordinates_survive_negative :
    dealTheNormalKeyboardModel (mouseMessage 4 (-16383) 20 0) ⟨none, none, false, none, 0⟩ =
      .ok (⟨none, none, false, none, 0⟩, [.mouseMove (-16383) 20 0]) :=
  (mouse_coordinates_survive rfl rfl rfl rfl ⟨by decide, by decide⟩ ⟨by decide, by decide⟩
    ⟨by decide, by decide⟩ _).1 rfl

-- ---------------------------------------------------------------------------
-- Keys
-- ---------------------------------------------------------------------------

/-- A message of mode 0 or 1 whose key is `key`: the member of the root, or of
the key object in mode 1. -/
inductive HasKey (key : Value) (ms : List (String × Value)) : Int → Prop
  | normal (h : ms.lookup "key" = some key) : HasKey key ms 0
  | gamepad {keys : List (String × Value)} (hKeys : ms.lookup "key" = some (.obj keys))
      (h : keys.lookup "key" = some key) : HasKey key ms 1

/-- Both messages end normally, with the same state and the same calls. -/
def Agree (root root' : Value) (st : KeyBoardThread) : Prop :=
  ∃ r, dealTheNormalKeyboardModel root st = .ok r ∧ dealTheNormalKeyboardModel root' st = .ok r

/-- What the JSON reader makes of a number is the number as an integer or as a
`double`. -/
theorem number_cases {scan : List Char → Option ℚ} (hScan : Reader.ScansIntegers scan) {n : Int}
    (hn : IsInt n) {number : Value}
    (hSent : Reader.ReadAs scan (toString n : String).toList number) :
    (number = .int n ∧ -2147483640 < n) ∨ (number = .real n ∧ n ≤ -2147483640) := by
  have hLower : intMin ≤ n := hn.1
  have hUpper : n ≤ intMax := hn.2
  have hNumber : number = Reader.rereadNumber n :=
    hSent.unique (Reader.readAs_number Reader.numeral_toString fun token hText =>
      Reader.decodeNumber_integer hScan hText hLower (by unfold intMax at hUpper; omega))
  unfold Reader.rereadNumber at hNumber
  unfold intMax at hUpper
  by_cases hLow : n ≤ -2147483640
  · rw [if_pos (Or.inl (by omega))] at hNumber
    exact Or.inr ⟨hNumber, hLow⟩
  · rw [if_neg (by omega), if_pos (by unfold intMax; omega)] at hNumber
    exact Or.inl ⟨hNumber, by omega⟩

/-- A `double` is taken for the key 0. -/
theorem readKey_real (q : ℚ) : readKey (.real q) = .ok 0 := rfl

theorem readKey_int (n : Int) : readKey (.int n) = .ok n := rfl

/-- A number and its text are the same key. -/
theorem readKey_text {n : Int} (hn : IsInt n) : readKey (.str (toString n)) = .ok n := by
  show Except.ok (atoi (toString n)) = _
  rw [atoi_toString hn.1 hn.2]

/-- In mode 0 the key goes to the driver. -/
theorem deal_key {ms : List (String × Value)} {ud n : Int} {key : Value}
    (hMode : ms.lookup "mode" = some (.int 0)) (hUd : ms.lookup "ud" = some (.int ud))
    (hKey : ms.lookup "key" = some key) (hRead : readKey key = .ok n) (hPress : ud = 1 ∨ ud = 2)
    (st : KeyBoardThread) : dealTheNormalKeyboardModel (.obj ms) st =
      .ok (st, [if ud = 1 then .keyDown n else .keyUp n]) := by
  have hMs := members_obj ms
  have hIndex : ((Value.obj ms).index "key" >>= readKey) = .ok n := by
    rw [(index_key hMs hKey).2]
    exact hRead
  unfold dealTheNormalKeyboardModel
  rw [readInt_of_lookup hMs hMode]
  show normalMessage (.obj ms) st = _
  unfold normalMessage
  rw [readInt_of_lookup hMs hUd, (index_key hMs hKey).1, hIndex]
  rcases hPress with rfl | rfl
  · rfl
  · rfl

/-- In mode 1 a number is no text, and the message is not read to its end. -/
theorem not_returns_readGamepad {root number : Value} {ms keys : List (String × Value)}
    (hMs : root.members = .ok ms) (hKey : ms.lookup "key" = some (.obj keys))
    (hNumber : keys.lookup "key" = some number) (hText : ∀ s, number.asString ≠ .ok s) :
    ¬ Returns (readGamepad root) := by
  rintro ⟨f, hRead⟩
  unfold readGamepad at hRead
  rw [(index_key hMs hKey).2] at hRead
  obtain ⟨ud, -, hRead⟩ := bind_eq_ok.mp hRead
  obtain ⟨keyValue, hObj, hRead⟩ := bind_eq_ok.mp hRead
  obtain rfl := Except.ok.inj hObj
  obtain ⟨x, -, hRead⟩ := bind_eq_ok.mp hRead
  obtain ⟨y, -, hRead⟩ := bind_eq_ok.mp hRead
  obtain ⟨z, -, hRead⟩ := bind_eq_ok.mp hRead
  obtain ⟨rz, -, hRead⟩ := bind_eq_ok.mp hRead
  obtain ⟨keyStr, hStr, -⟩ := bind_eq_ok.mp hRead
  rw [memberOr_of_members (members_obj keys), member_of_lookup hNumber, hNumber] at hStr
  exact hText keyStr hStr

/-- **Numbers and texts.** A key of 32 bits means the same as a number and as a
text just in mode 0 and above the numbers that the JSON reader makes a `double`
of. -/
theorem number_and_text_agree_iff {scan : List Char → Option ℚ}
    (hScan : Reader.ScansIntegers scan) {ms ms' : List (String × Value)} {n mode ud : Int}
    {number : Value} (hn : IsInt n) (hPress : ud = 1 ∨ ud = 2)
    (hSent : Reader.ReadAs scan (toString n : String).toList number)
    (hMode : ms.lookup "mode" = some (.int mode) ∧ ms'.lookup "mode" = some (.int mode))
    (hUd : ms.lookup "ud" = some (.int ud) ∧ ms'.lookup "ud" = some (.int ud))
    (hNumber : HasKey number ms mode) (hText : HasKey (.str (toString n)) ms' mode)
    (st : KeyBoardThread) : Agree (.obj ms) (.obj ms') st ↔ mode = 0 ∧ -2147483640 < n := by
  cases hNumber with
  | normal hKey =>
    cases hText with
    | normal hStr =>
      have hCall' := deal_key hMode.2 hUd.2 hStr (readKey_text hn) hPress st
      -- the reader makes an integer of `n`, or a double of one of the nine lowest
      rcases number_cases hScan hn hSent with ⟨rfl, hHigh⟩ | ⟨rfl, hLow⟩
      · have hCall := deal_key hMode.1 hUd.1 hKey (readKey_int n) hPress st
        exact iff_of_true ⟨_, hCall, hCall'⟩ ⟨rfl, hHigh⟩
      · -- the driver is given the key 0 once, and the key `n` once
        have hCall := deal_key hMode.1 hUd.1 hKey (readKey_real n) hPress st
        refine iff_of_false ?_ (by omega)
        rintro ⟨r, hEnds, hEnds'⟩
        have hSame := (hCall.symm.trans hEnds).trans (hEnds'.symm.trans hCall')
        rcases hPress with rfl | rfl
        · simp at hSame
          omega
        · simp at hSame
          omega
  | gamepad hKeys hKey =>
    refine iff_of_false ?_ (by simp)
    rintro ⟨r, hEnds, -⟩
    unfold dealTheNormalKeyboardModel at hEnds
    rw [readInt_of_lookup (members_obj ms) hMode.1] at hEnds
    have hGamepad : Returns (gamepadMessage (.obj ms) st) := ⟨r, hEnds⟩
    unfold gamepadMessage at hGamepad
    obtain ⟨f, hRead, -⟩ := returns_bind.mp hGamepad
    refine not_returns_readGamepad (members_obj ms) hKeys hKey ?_ ⟨f, ofJson_eq_ok.mp hRead⟩
    -- `asString` throws on both
    rcases number_cases hScan hn hSent with ⟨rfl, -⟩ | ⟨rfl, -⟩
    · simp [Value.asString]
    · simp [Value.asString]

/-- A press of the key 65 in either mode. -/
def pressMessage (mode : Int) (key : Value) : List (String × Value) :=
  [("mode", .int mode), ("ud", .int 1), ("key", if mode = 0 then key else .obj [("key", key)])]

theorem number_and_text_agree_at_65 :
    Agree (.obj (pressMessage 0 (.int 65))) (.obj (pressMessage 0 (.str (toString (65 : Int)))))
      ⟨none, none, false, none, 0⟩ :=
  (number_and_text_agree_iff Reader.scansIntegers_scanDecimal ⟨by decide, by decide⟩ (Or.inl rfl)
    (Reader.readAs_number Reader.numeral_toString fun _ hText =>
      Reader.decodeNumber_integer Reader.scansIntegers_scanDecimal hText (by decide) (by decide))
    ⟨rfl, rfl⟩ ⟨rfl, rfl⟩ (.normal rfl) (.normal rfl) _).mpr ⟨rfl, by decide⟩

/-- In mode 1 the number ends the handler. -/
theorem number_fails_in_gamepad_mode :
    ¬ Agree (.obj (pressMessage 1 (.int 65))) (.obj (pressMessage 1 (.str (toString (65 : Int)))))
      ⟨none, none, false, some (.new .utf8 none none none), 0⟩ := by
  rintro ⟨r, hEnds, -⟩
  cases hEnds

end PushStreamer
