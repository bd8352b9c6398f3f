import PushStreamer.Input.Driver
import PushStreamer.Model.Text
import Mathlib.Data.List.TakeWhile
import Mathlib.Data.Nat.Bitwise

/-!
# The button array of a joystick message

`ConvertTheSpecialString` reads a text of comma-separated button numbers into a
byte array, with the 1-based bit setter `BitSet`. `DealTheJoystick` runs it
twice on the same 16 bytes, first for all of them and then for the first byte
only.

* `pressButtons_bit` — which bits a list of numbers sets.
* `pressButtons_returns` — for which numbers `BitSet` has a bit to set.
* `convertTwice_shown` — when the array after both runs shows a list of
  distinct button numbers.
* `returns_charText_of_bit` — when the array ends as a text, as the log line
  takes it.
-/

namespace PushStreamer

/-- `BitSet` on one byte: the mask is `1 << (position - 1)`, computed as an
`int` of 32 bits; its low eight bits are used. -/
def bitSet (byte position : UInt8) (flag : Bool) : Except Fault UInt8 :=
  let amount : Int := position.toNat - 1
  if 0 ≤ amount ∧ amount < 32 then
    let mask := UInt8.ofNat (1 <<< amount.toNat)
    .ok (if flag then byte ||| mask else byte &&& ~~~mask)
  else .error (.shift amount)

/-- `BitSet(&(result[keyValue / 8]), keyValue % 8, 1)`; the remainder becomes
an unsigned byte. -/
def pressButton (result : Buttons) (keyValue : Int) : Except Fault Buttons :=
  let temp1 := keyValue.tdiv 8
  let temp2 := keyValue.tmod 8
  if h : 0 ≤ temp1 ∧ temp1.toNat < 16 then
    (bitSet result[temp1.toNat] (UInt8.ofInt temp2) true).map fun byte =>
      result.set temp1.toNat byte h.2
  else .error (.byteIndex temp1)

/-- `replaceAllDistinct(str, " ", "")`, which always ends
(`replaceAllDistinct_blanks`). -/
def removeBlanks (str : List Char) : List Char :=
  (replaceAllDistinct str [' '] []).getD str

/-- The numbers that `ConvertTheSpecialString` presses. -/
def buttonNumbers (str : String) (size1 : Nat) : List Int :=
  let array := (cString (removeBlanks str.toList)).splitOn ','
  (array.take size1).map toInt

/-- `memset(result, 0, size1)`. -/
def clearBytes (result : Buttons) (size1 : Nat) : Buttons :=
  Vector.ofFn fun i => if i.val < size1 then 0 else result[i]

/-- `ConvertTheSpecialString`. -/
def convertTheSpecialString (str : String) (result : Buttons) (size1 : Nat) :
    Except Fault Buttons :=
  (buttonNumbers str size1).foldlM pressButton (clearBytes result size1)

/-! ## Bits of the array -/

/-- Bit `j` of byte `i`. -/
def Buttons.bit (b : Buttons) (i : Nat) (hi : i < 16) (j : Nat) : Bool := b[i].toNat.testBit j

/-- The array shows the buttons of `ns`: bit `(n - 1) % 8` of byte
`(n - 1) / 8` is set exactly for the `n` in `ns`. -/
def ButtonsShown (ns : List Nat) (b : Buttons) : Prop :=
  ∀ i (hi : i < 16), ∀ j < 8, b.bit i hi j = decide (8 * i + j + 1 ∈ ns)

instance (ns : List Nat) (b : Buttons) : Decidable (ButtonsShown ns b) := by
  unfold ButtonsShown
  infer_instance

theorem bit_clearBytes (b : Buttons) (size1 i : Nat) (hi : i < 16) (j : Nat) :
    (clearBytes b size1).bit i hi j = (!decide (i < size1) && b.bit i hi j) := by
  unfold Buttons.bit clearBytes
  rw [Vector.getElem_ofFn]
  by_cases h : i < size1
  · simp [h]
  · simp [h]

theorem ofInt_natCast (n : Nat) : UInt8.ofInt n = UInt8.ofNat n := by
  apply UInt8.toNat.inj
  simp only [UInt8.ofInt, UInt8.toNat_ofNat']
  omega

/-- `BitSet` at a position from 1 to 8 sets that bit and no other. -/
theorem bitSet_ok {p : Nat} (hPos : 1 ≤ p) (hLe : p ≤ 8) (byte : UInt8) :
    ∃ byte', bitSet byte (UInt8.ofNat p) true = .ok byte' ∧ ∀ j < 8,
      byte'.toNat.testBit j = (byte.toNat.testBit j || decide (j + 1 = p)) := by
  have hToNat : (UInt8.ofNat p).toNat = p := by
    rw [UInt8.toNat_ofNat']
    omega
  have hAmount : ((p : Int) - 1).toNat = p - 1 := by omega
  refine ⟨byte ||| UInt8.ofNat (1 <<< (p - 1)), ?_, fun j hj => ?_⟩
  · simp only [bitSet, hToNat, hAmount, if_true]
    rw [if_pos (by omega)]
  · rw [UInt8.toNat_or, Nat.testBit_or, UInt8.toNat_ofNat', Nat.testBit_mod_two_pow,
      Nat.one_shiftLeft, Nat.testBit_two_pow, decide_eq_true hj, Bool.true_and]
    congr 2
    exact propext (by omega)

/-- `BitSet` at position 0 shifts by a negative amount. -/
theorem bitSet_zero (byte : UInt8) (flag : Bool) :
    bitSet byte (UInt8.ofNat 0) flag = .error (.shift (-1)) := rfl

/-- A button number that is no multiple of 8 sets its own bit and no other. -/
theorem pressButton_ok {n : Nat} (hn : n < 128) (hMod : n % 8 ≠ 0) (b : Buttons) :
    ∃ b', pressButton b n = .ok b' ∧ ∀ i (hi : i < 16), ∀ j < 8,
      b'.bit i hi j = (b.bit i hi j || decide (8 * i + j + 1 = n)) := by
  have hDiv : (n : Int).tdiv 8 = ((n / 8 : Nat) : Int) := (Int.ofNat_tdiv n 8).symm
  have hRem : (n : Int).tmod 8 = ((n % 8 : Nat) : Int) := (Int.ofNat_tmod n 8).symm
  have hByte : n / 8 < 16 := by omega
  obtain ⟨byte, hSet, hBits⟩ := bitSet_ok (p := n % 8) (by omega) (by omega) b[n / 8]
  refine ⟨b.set (n / 8) byte hByte, ?_, fun i hi j hj => ?_⟩
  · simp only [pressButton, hDiv, hRem, Int.toNat_natCast, ofInt_natCast, hSet]
    rw [dif_pos ⟨by omega, hByte⟩]
    rfl
  · unfold Buttons.bit
    rw [Vector.getElem_set]
    by_cases hi' : n / 8 = i
    · -- the byte of `n`: its bit is the remainder, counted from 1
      subst hi'
      rw [if_pos rfl, hBits j hj]
      congr 2
      exact propext (by omega)
    · rw [if_neg hi', decide_eq_false (by omega), Bool.or_false]

/-- For a multiple of 8 there is no bit to set: the position is 0, and for 128
the byte is past the end. -/
theorem pressButton_multiple {n : Nat} (hMod : n % 8 = 0) (b : Buttons) :
    ¬ Returns (pressButton b n) := by
  have hDiv : (n : Int).tdiv 8 = ((n / 8 : Nat) : Int) := (Int.ofNat_tdiv n 8).symm
  have hRem : (n : Int).tmod 8 = ((n % 8 : Nat) : Int) := (Int.ofNat_tmod n 8).symm
  simp only [pressButton, hDiv, hRem, Int.toNat_natCast, ofInt_natCast, hMod, bitSet_zero]
  split
  · exact not_returns_error _
  · exact not_returns_error _

/-! ## Lists of numbers -/

/-- A list that is pressed completely has a press that returned for each number. -/
theorem press_of_mem {ns : List Int} {b : Buttons} (h : Returns (ns.foldlM pressButton b)) :
    ∀ n ∈ ns, ∃ b', Returns (pressButton b' n) := by
  induction ns generalizing b with
  | nil => simp
  | cons n ns ih =>
    rw [List.foldlM_cons] at h
    obtain ⟨b', hPress, hRest⟩ := returns_bind.mp h
    exact List.forall_mem_cons.mpr ⟨⟨b, b', hPress⟩, ih hRest⟩

/-- The setter has a bit for each number of a list that it presses completely. -/
theorem pressButtons_returns {ns : List Nat} {b : Buttons}
    (h : Returns ((ns.map Int.ofNat).foldlM pressButton b)) : ∀ n ∈ ns, n % 8 ≠ 0 := by
  intro n hn hMod
  obtain ⟨b', hPress⟩ := press_of_mem h n (List.mem_map_of_mem hn)
  exact pressButton_multiple hMod b' hPress

/-- Pressing numbers that are no multiples of 8 adds exactly their bits. -/
theorem pressButtons_bit {ns : List Nat} (hRange : ∀ n ∈ ns, n < 128)
    (hMod : ∀ n ∈ ns, n % 8 ≠ 0) (b : Buttons) :
    ∃ b', (ns.map Int.ofNat).foldlM pressButton b = .ok b' ∧ ∀ i (hi : i < 16), ∀ j < 8,
      b'.bit i hi j = (b.bit i hi j || decide (8 * i + j + 1 ∈ ns)) := by
  induction ns generalizing b with
  | nil => exact ⟨b, rfl, by simp⟩
  | cons n ns ih =>
    rw [List.forall_mem_cons] at hRange hMod
    obtain ⟨b₁, hPress, hBits₁⟩ := pressButton_ok hRange.1 hMod.1 b
    obtain ⟨b₂, hRest, hBits₂⟩ := ih hRange.2 hMod.2 b₁
    refine ⟨b₂, ?_, fun i hi j hj => ?_⟩
    · rw [List.map_cons, List.foldlM_cons]
      show (pressButton b n >>= fun b' => (ns.map Int.ofNat).foldlM pressButton b') = _
      rw [hPress]
      exact hRest
    · rw [hBits₂ i hi j hj, hBits₁ i hi j hj, Bool.or_assoc, ← Bool.decide_or]
      congr 2
      exact propext List.mem_cons.symm

/-! ## Texts of button numbers -/

/-- The decimal texts of `ns`, separated by commas. -/
def decimals (ns : List Nat) : List Char :=
  [','].intercalate (ns.map (Nat.toDigits 10))

theorem removeBlanks_eq (str : List Char) : removeBlanks str = str.filter (· ≠ ' ') := by
  rw [removeBlanks, replaceAllDistinct_blanks, Option.getD_some]

/-- Decimals and commas have no zero character. -/
theorem cString_decimals (ns : List Nat) : cString (decimals ns) = decimals ns := by
  refine cString_eq fun c hc => ?_
  induction ns with
  | nil => cases hc
  | cons n ns ih =>
    have hDigit : c ∈ Nat.toDigits 10 n → c ≠ '\x00' := by
      rintro hMem rfl
      have hNot := isDigit_of_mem_decimal hMem
      simp at hNot
    cases ns with
    | nil =>
      rw [decimals, List.map_singleton, List.intercalate_singleton] at hc
      exact hDigit hc
    | cons m ns =>
      rw [decimals, List.map_cons, List.map_cons, List.intercalate_cons_cons, List.append_assoc,
        List.mem_append, List.mem_append] at hc
      rcases hc with hFirst | hComma | hRest
      · exact hDigit hFirst
      · rw [List.mem_singleton] at hComma
        rw [hComma]
        decide
      · exact ih hRest

/-- The decimal texts read back as the numbers. -/
theorem buttonNumbers_decimals {ns : List Nat} {str : String} (hNe : ns ≠ [])
    (hRange : ∀ n ∈ ns, n ≤ 128) (hText : str.toList.filter (· ≠ ' ') = decimals ns)
    (size1 : Nat) : buttonNumbers str size1 = (ns.take size1).map Int.ofNat := by
  have hComma : ∀ l ∈ ns.map (Nat.toDigits 10), ',' ∉ l := by
    intro l hl hMem
    obtain ⟨n, -, rfl⟩ := List.mem_map.mp hl
    have := isDigit_of_mem_decimal hMem
    simp at this
  have hSplit : (decimals ns).splitOn ',' = ns.map (Nat.toDigits 10) :=
    List.splitOn_intercalate ',' hComma (by simpa using hNe)
  simp only [buttonNumbers, removeBlanks_eq, hText, cString_decimals, hSplit, ← List.map_take,
    List.map_map]
  refine List.map_congr_left fun n hn => ?_
  have hLe : n ≤ 128 := hRange n (List.mem_of_mem_take hn)
  exact toInt_toDigits (by unfold intMax; omega)

/-- The empty text has one part, which reads as 0. -/
theorem buttonNumbers_empty {str : String} (hText : str.toList.filter (· ≠ ' ') = decimals []) :
    buttonNumbers str 16 = [0] := by
  unfold buttonNumbers
  rw [removeBlanks_eq, hText]
  decide

/-! ## Both runs -/

/-- The two runs that `DealTheJoystick` makes. -/
def convertTwice (buttons : String) (btn : Buttons) : Except Fault Buttons := do
  let btn ← convertTheSpecialString buttons btn 16
  convertTheSpecialString buttons btn 1

/-- The numbers that byte `i` shows after both runs. -/
def remaining (ns : List Nat) (i : Nat) : List Nat := if i = 0 then ns.take 1 else ns.take 16

section

variable {ns : List Nat} {str : String}

/-- The second run clears the first byte and presses the first number again. -/
theorem convertTwice_bit
    (hNumbers : ∀ size1 ≤ 16, buttonNumbers str size1 = (ns.take size1).map Int.ofNat)
    (hLt : ∀ n ∈ ns.take 16, n < 128) (hMod : ∀ n ∈ ns.take 16, n % 8 ≠ 0) (btn : Buttons) :
    ∃ b, convertTwice str btn = .ok b ∧ ∀ i (hi : i < 16), ∀ j < 8,
      b.bit i hi j = decide (8 * i + j + 1 ∈ remaining ns i) := by
  have hSub : ns.take 1 ⊆ ns.take 16 := List.take_subset_take_left ns (by omega)
  obtain ⟨b₁, hRun₁, hBits₁⟩ := pressButtons_bit hLt hMod (clearBytes btn 16)
  obtain ⟨b₂, hRun₂, hBits₂⟩ := pressButtons_bit (fun n hn => hLt n (hSub hn))
    (fun n hn => hMod n (hSub hn)) (clearBytes b₁ 1)
  refine ⟨b₂, ?_, fun i hi j hj => ?_⟩
  · unfold convertTwice convertTheSpecialString
    rw [hNumbers 16 le_rfl, hNumbers 1 (by omega), hRun₁]
    exact hRun₂
  · rw [hBits₂ i hi j hj, bit_clearBytes, hBits₁ i hi j hj, bit_clearBytes, decide_eq_true hi]
    by_cases h0 : i = 0
    · simp [remaining, h0]
    · have hNot : ¬ i < 1 := by omega
      rw [remaining, if_neg h0, decide_eq_false hNot, Bool.not_true, Bool.false_and,
        Bool.false_or, Bool.not_false, Bool.true_and, ← Bool.decide_or]
      congr 1
      exact propext (or_iff_left_of_imp fun h => hSub h)

/-- What both runs show of a text of decimals. -/
theorem convertTwice_decimals (hNe : ns ≠ []) (hRange : ∀ n ∈ ns, n ≤ 128)
    (hText : str.toList.filter (· ≠ ' ') = decimals ns)
    (hMod : ∀ n ∈ ns.take 16, n % 8 ≠ 0) (btn : Buttons) :
    ∃ b, convertTwice str btn = .ok b ∧ ∀ i (hi : i < 16), ∀ j < 8,
      b.bit i hi j = decide (8 * i + j + 1 ∈ remaining ns i) := by
  refine convertTwice_bit (fun size1 _ => buttonNumbers_decimals hNe hRange hText size1) ?_ hMod btn
  intro n hn
  have hLe := hRange n (List.mem_of_mem_take hn)
  have hNot := hMod n hn
  omega

/-- Both runs end only if no number that they press is a multiple of 8. -/
theorem mod_of_convertTwice (hNe : ns ≠ []) (hRange : ∀ n ∈ ns, n ≤ 128)
    (hText : str.toList.filter (· ≠ ' ') = decimals ns) {btn : Buttons}
    (h : Returns (convertTwice str btn)) : ∀ n ∈ ns.take 16, n % 8 ≠ 0 := by
  obtain ⟨b, hFirst, -⟩ := returns_bind.mp h
  refine pressButtons_returns (b := clearBytes btn 16) ⟨b, ?_⟩
  rw [← buttonNumbers_decimals hNe hRange hText]
  exact hFirst

/-- A number past the first 16 is in no byte. -/
theorem length_le_of_remaining (hNodup : ns.Nodup)
    (h : ∀ n ∈ ns, n ∈ remaining ns ((n - 1) / 8)) : ns.length ≤ 16 := by
  by_contra hLen
  have hLt : 16 < ns.length := by omega
  have hDrop : ns[16] ∈ ns.drop 16 := by
    rw [List.drop_eq_getElem_cons hLt]
    exact List.mem_cons_self
  have hTake : ns[16] ∈ ns.take 16 := by
    have hMem := h _ (List.getElem_mem hLt)
    unfold remaining at hMem
    split at hMem
    · exact List.take_subset_take_left ns (by omega) hMem
    · exact hMem
  exact List.disjoint_take_drop hNodup (Nat.le_refl 16) hTake hDrop

/-- A number below 8 after the first is lost with the first byte. -/
theorem tail_of_remaining (hNodup : ns.Nodup)
    (h : ∀ n ∈ ns, n ∈ remaining ns ((n - 1) / 8)) : ∀ n ∈ ns.tail, 8 ≤ n := by
  intro n hn
  by_contra hLt
  have hHead := h n (List.mem_of_mem_tail hn)
  rw [remaining, if_pos (by omega)] at hHead
  rw [← List.drop_one] at hn
  exact List.disjoint_take_drop hNodup (Nat.le_refl 1) hHead hn

/-- The bytes show exactly the numbers of a list without repetitions when all
of them are among the first 16 and only the first is below 8. -/
theorem remaining_iff (hNodup : ns.Nodup) (hPos : ∀ n ∈ ns, 1 ≤ n ∧ n ≤ 128)
    (hMod : ∀ n ∈ ns.take 16, n % 8 ≠ 0) :
    (∀ i < 16, ∀ j < 8, (8 * i + j + 1 ∈ remaining ns i ↔ 8 * i + j + 1 ∈ ns)) ↔
      ns.length ≤ 16 ∧ ∀ n ∈ ns.tail, 8 ≤ n := by
  constructor
  · intro h
    -- each number is in the byte of its own bit
    have hRemaining : ∀ n ∈ ns, n ∈ remaining ns ((n - 1) / 8) := by
      intro n hn
      obtain ⟨h1, h128⟩ := hPos n hn
      have hn' : 8 * ((n - 1) / 8) + (n - 1) % 8 + 1 = n := by omega
      have hShown := h ((n - 1) / 8) (by omega) ((n - 1) % 8) (by omega)
      rw [hn'] at hShown
      exact hShown.mpr hn
    exact ⟨length_le_of_remaining hNodup hRemaining, tail_of_remaining hNodup hRemaining⟩
  · rintro ⟨hLen, hTail⟩ i - j hj
    rw [List.take_of_length_le hLen] at hMod
    unfold remaining
    split
    · rename_i h0
      refine ⟨List.mem_of_mem_take, fun hMem => ?_⟩
      cases ns with
      | nil => exact hMem
      | cons n rest =>
        rcases List.mem_cons.mp hMem with hHead | hRest
        · simp [hHead]
        · -- only 8 is in byte 0 and not below 8, and it is a multiple of 8
          have hLe := hTail _ hRest
          have hNot := hMod _ hMem
          omega
    · rw [List.take_of_length_le hLen]

/-- **Shown buttons.** For the comma-separated decimals of distinct numbers from
1 to 128, blanks allowed, the array after both runs shows these numbers exactly
when there are between 1 and 16 of them, none is a multiple of 8, and none but
the first is below 8. -/
theorem convertTwice_shown (hNodup : ns.Nodup) (hPos : ∀ n ∈ ns, 1 ≤ n ∧ n ≤ 128)
    (hText : str.toList.filter (· ≠ ' ') = decimals ns) (btn : Buttons) :
    (∃ b, convertTwice str btn = .ok b ∧ ButtonsShown ns b) ↔
      ns ≠ [] ∧ ns.length ≤ 16 ∧ (∀ n ∈ ns, n % 8 ≠ 0) ∧ ∀ n ∈ ns.tail, 8 ≤ n := by
  by_cases hNe : ns = []
  · subst hNe
    refine iff_of_false ?_ fun h => h.1 rfl
    rintro ⟨b, hRuns, -⟩
    obtain ⟨b₁, hFirst, -⟩ := returns_bind.mp ⟨b, hRuns⟩
    rw [convertTheSpecialString, buttonNumbers_empty hText] at hFirst
    have hReturns : Returns (([0].map Int.ofNat).foldlM pressButton (clearBytes btn 16)) :=
      ⟨b₁, hFirst⟩
    exact pressButtons_returns hReturns 0 (by simp) rfl
  have hRange : ∀ n ∈ ns, n ≤ 128 := fun n hn => (hPos n hn).2
  constructor
  · rintro ⟨b, hRuns, hShown⟩
    have hMod := mod_of_convertTwice hNe hRange hText ⟨b, hRuns⟩
    obtain ⟨b', hRuns', hBits⟩ := convertTwice_decimals hNe hRange hText hMod btn
    obtain rfl := Except.ok.inj (hRuns.symm.trans hRuns')
    obtain ⟨hLen, hTail⟩ := (remaining_iff hNodup hPos hMod).mp fun i hi j hj => by
      rw [← decide_eq_decide, ← hBits i hi j hj, hShown i hi j hj]
    rw [List.take_of_length_le hLen] at hMod
    exact ⟨hNe, hLen, hMod, hTail⟩
  · rintro ⟨-, hLen, hMod, hTail⟩
    rw [← List.take_of_length_le hLen] at hMod
    obtain ⟨b, hRuns, hBits⟩ := convertTwice_decimals hNe hRange hText hMod btn
    refine ⟨b, hRuns, fun i hi j hj => ?_⟩
    rw [hBits i hi j hj, decide_eq_decide]
    exact (remaining_iff hNodup hPos hMod).mpr ⟨hLen, hTail⟩ i hi j hj

end

/-! ## The array as a text -/

/-- `(char*)btn`: the bytes before the first zero. Without one the array is read
past its end. -/
def charText (btn : Buttons) : Except Fault (List UInt8) :=
  if 0 ∈ btn.toList then .ok (btn.toList.takeWhile (· ≠ 0)) else .error .unterminated

theorem returns_charText {btn : Buttons} :
    Returns (charText btn) ↔ ∃ i, ∃ hi : i < 16, btn[i] = 0 := by
  rw [← Vector.mem_iff_getElem, ← Vector.mem_toList_iff]
  unfold charText
  split
  case isTrue h => exact iff_of_true (returns_ok _) h
  case isFalse h => exact iff_of_false (not_returns_error _) h

/-- A byte is zero when none of its bits is set. -/
theorem getElem_eq_zero_iff {b : Buttons} {i : Nat} (hi : i < 16) :
    b[i] = 0 ↔ ∀ j < 8, b.bit i hi j = false := by
  constructor
  · intro hZero j _
    rw [Buttons.bit, hZero]
    exact Nat.zero_testBit j
  · intro hBits
    apply UInt8.toNat.inj
    refine Nat.eq_of_testBit_eq fun j => (?_ : b[i].toNat.testBit j = Nat.testBit 0 j)
    rw [Nat.zero_testBit]
    by_cases hj : j < 8
    · exact hBits j hj
    · have hByte : b[i].toNat < 2 ^ j :=
        (UInt8.toNat_lt b[i]).trans_le (Nat.pow_le_pow_right (by decide) (Nat.le_of_not_lt hj))
      exact Nat.testBit_eq_false_of_lt hByte

/-- An array ends as a text when there is a byte without a number. -/
theorem returns_charText_of_bit {b : Buttons} {shown : Nat → List Nat}
    (hBits : ∀ i (hi : i < 16), ∀ j < 8, b.bit i hi j = decide (8 * i + j + 1 ∈ shown i))
    (hMod : ∀ i < 16, ∀ n ∈ shown i, n % 8 ≠ 0) :
    Returns (charText b) ↔ ∃ i < 16, ∀ n ∈ shown i, n / 8 ≠ i := by
  have hByte : ∀ i (hi : i < 16), b[i] = 0 ↔ ∀ n ∈ shown i, n / 8 ≠ i := by
    intro i hi
    rw [getElem_eq_zero_iff hi]
    constructor
    · rintro hZero n hn rfl
      -- the bit of `n` is the remainder, counted from 1
      have hNot := hMod _ hi n hn
      have hBit := hZero (n % 8 - 1) (by omega)
      have hEq : 8 * (n / 8) + (n % 8 - 1) + 1 = n := by omega
      rw [hBits _ hi _ (by omega), hEq, decide_eq_false_iff_not] at hBit
      exact hBit hn
    · intro hFree j hj
      rw [hBits i hi j hj, decide_eq_false_iff_not]
      intro hMem
      have hNot := hMod i hi _ hMem
      have hByte := hFree _ hMem
      omega
  rw [returns_charText]
  constructor
  · rintro ⟨i, hi, hZero⟩
    exact ⟨i, hi, (hByte i hi).mp hZero⟩
  · rintro ⟨i, hi, hFree⟩
    exact ⟨i, hi, (hByte i hi).mpr hFree⟩

end PushStreamer
