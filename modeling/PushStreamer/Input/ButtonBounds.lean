import PushStreamer.Input.Joystick

/-!
# The bounds of the button decoder

`ConvertTheSpecialString` cuts the list of numbers off after `size1` entries,
not the numbers themselves: each of them is divided by 8, and the quotient is
the byte and the remainder the position that `BitSet` gets.

* `inBounds_iff` — the numbers for which a call of `BitSet` stays in bounds.
* `returns_of_inBounds` — calls in bounds leave no undefined behaviour.
* `returns_convertTwice_iff`, `returns_logged_iff` — the texts that both runs
  decode, and whose array then ends as a text for the log.
* `decoder_in_bounds_iff` — the texts for which both runs of `DealTheJoystick`
  stay in bounds.
-/

namespace PushStreamer

/-- The call `BitSet(&(result[index]), position, 1)`. -/
structure BitSetCall where
  index : Int
  position : UInt8
deriving DecidableEq

/-- The call for one number. -/
def bitSetCall (keyValue : Int) : BitSetCall where
  index := keyValue.tdiv 8
  position := UInt8.ofInt (keyValue.tmod 8)

/-- The calls of `BitSet` that `ConvertTheSpecialString` makes. -/
def bitSetCalls (str : String) (size1 : Nat) : List BitSetCall :=
  (buttonNumbers str size1).map bitSetCall

namespace BitSetCall

/-- The shift amount that `BitSet` computes. -/
def amount (call : BitSetCall) : Int := call.position.toNat - 1

/-- The byte is one of the first `size1`, and the shift stays in the byte. -/
def InBounds (size1 : Nat) (call : BitSetCall) : Prop :=
  (0 ≤ call.index ∧ call.index < size1) ∧ 0 ≤ call.amount ∧ call.amount ≤ 7

instance (size1 : Nat) (call : BitSetCall) : Decidable (call.InBounds size1) := by
  unfold InBounds
  infer_instance

end BitSetCall

/-- Pressing one number is its call of `BitSet`. -/
theorem pressButton_eq (result : Buttons) (keyValue : Int) :
    pressButton result keyValue =
      if h : 0 ≤ (bitSetCall keyValue).index ∧ (bitSetCall keyValue).index.toNat < 16 then
        (bitSet result[(bitSetCall keyValue).index.toNat] (bitSetCall keyValue).position true).map
          fun byte => result.set (bitSetCall keyValue).index.toNat byte h.2
      else .error (.byteIndex (bitSetCall keyValue).index) := rfl

theorem bitSet_of_amount {call : BitSetCall} (h : 0 ≤ call.amount ∧ call.amount ≤ 7)
    (byte : UInt8) (flag : Bool) : Returns (bitSet byte call.position flag) := by
  have hShift : 0 ≤ (call.position.toNat : Int) - 1 ∧ (call.position.toNat : Int) - 1 < 32 := by
    unfold BitSetCall.amount at h
    omega
  unfold bitSet
  rw [if_pos hShift]
  exact ⟨_, rfl⟩

/-- A call in bounds has a bit to set. -/
theorem pressButton_of_inBounds {keyValue : Int} (h : (bitSetCall keyValue).InBounds 16)
    (result : Buttons) : Returns (pressButton result keyValue) := by
  obtain ⟨⟨hLow, hHigh⟩, hAmount⟩ := h
  have hByte : (bitSetCall keyValue).index.toNat < 16 := by omega
  obtain ⟨byte, hSet⟩ := bitSet_of_amount hAmount result[(bitSetCall keyValue).index.toNat] true
  rw [pressButton_eq, dif_pos ⟨hLow, hByte⟩, hSet]
  exact ⟨_, rfl⟩

/-- The numbers of a text are pressed one after the other while their calls are in
bounds. -/
theorem pressButtons_of_inBounds {ns : List Int} (h : ∀ n ∈ ns, (bitSetCall n).InBounds 16)
    (b : Buttons) : Returns (ns.foldlM pressButton b) := by
  induction ns generalizing b with
  | nil => exact ⟨b, rfl⟩
  | cons n ns ih =>
    rw [List.forall_mem_cons] at h
    obtain ⟨b', hPress⟩ := pressButton_of_inBounds h.1 b
    rw [List.foldlM_cons]
    exact returns_bind.mpr ⟨b', hPress, ih h.2 b'⟩

theorem amount_of_bitSet {call : BitSetCall} {byte : UInt8} {flag : Bool}
    (h : Returns (bitSet byte call.position flag)) : 0 ≤ call.amount ∧ call.amount < 32 := by
  unfold bitSet at h
  dsimp only at h
  split at h
  case isTrue hShift => exact hShift
  case isFalse => exact absurd h (not_returns_error _)

/-- The remainder of a positive number is the position; zero and negative
remainders, as an unsigned byte, are no position. -/
theorem amount_iff (keyValue : Int) :
    0 ≤ (bitSetCall keyValue).amount ∧ (bitSetCall keyValue).amount ≤ 7 ↔
      0 < keyValue.tmod 8 := by
  have hLow : -8 < keyValue.tmod 8 := Int.lt_tmod_of_pos keyValue (by decide)
  have hHigh : keyValue.tmod 8 < 8 := Int.tmod_lt_of_pos keyValue (by decide)
  have hPosition : ((bitSetCall keyValue).position.toNat : Int) = keyValue.tmod 8 % 256 := by
    simp only [bitSetCall, UInt8.ofInt, UInt8.toNat_ofNat']
    omega
  unfold BitSetCall.amount
  rw [hPosition]
  omega

/-- A call stays in bounds just for a positive number that is no multiple of 8
and whose byte is there. -/
theorem inBounds_iff (keyValue : Int) (size1 : Nat) :
    (bitSetCall keyValue).InBounds size1 ↔
      0 < keyValue ∧ keyValue < 8 * size1 ∧ keyValue % 8 ≠ 0 := by
  unfold BitSetCall.InBounds
  rw [amount_iff]
  rcases lt_or_ge 0 keyValue with hPos | hNeg
  · -- both divisions are the ones of natural numbers
    have hDiv : (bitSetCall keyValue).index = keyValue / 8 :=
      Int.tdiv_eq_ediv_of_nonneg (Int.le_of_lt hPos)
    have hMod : keyValue.tmod 8 = keyValue % 8 := Int.tmod_eq_emod_of_nonneg (Int.le_of_lt hPos)
    rw [hDiv, hMod]
    omega
  · -- the remainder has the sign of the number
    have hMod : 0 ≤ (-keyValue).tmod 8 := Int.tmod_nonneg 8 (by omega)
    rw [Int.neg_tmod] at hMod
    omega

/-- `BitSet` has a bit to set just for a call in bounds. -/
theorem returns_pressButton_iff {keyValue : Int} {result : Buttons} :
    Returns (pressButton result keyValue) ↔ (bitSetCall keyValue).InBounds 16 := by
  refine ⟨fun h => ?_, fun h => pressButton_of_inBounds h result⟩
  have hLow : -8 < keyValue.tmod 8 := Int.lt_tmod_of_pos keyValue (by decide)
  have hHigh : keyValue.tmod 8 < 8 := Int.tmod_lt_of_pos keyValue (by decide)
  have hPosition : ((bitSetCall keyValue).position.toNat : Int) = keyValue.tmod 8 % 256 := by
    simp only [bitSetCall, UInt8.ofInt, UInt8.toNat_ofNat']
    omega
  rw [pressButton_eq] at h
  by_cases hIndex : 0 ≤ (bitSetCall keyValue).index ∧ (bitSetCall keyValue).index.toNat < 16
  · rw [dif_pos hIndex] at h
    cases hSet : bitSet result[(bitSetCall keyValue).index.toNat]
        (bitSetCall keyValue).position true with
    | error fault =>
      rw [hSet] at h
      exact absurd h (not_returns_error _)
    | ok byte =>
      -- a remainder that is negative makes a position from 249 on
      have hAmount := amount_of_bitSet ⟨byte, hSet⟩
      refine ⟨⟨hIndex.1, by omega⟩, hAmount.1, ?_⟩
      unfold BitSetCall.amount at hAmount ⊢
      omega
  · rw [dif_neg hIndex] at h
    exact absurd h (not_returns_error _)

/-- The numbers that both runs press, all of them before the first byte is
cleared. -/
theorem returns_convertTwice_iff {str : String} {btn : Buttons} :
    Returns (convertTwice str btn) ↔
      ∀ n ∈ buttonNumbers str 16, 0 < n ∧ n < 128 ∧ n % 8 ≠ 0 := by
  have hSub : buttonNumbers str 1 ⊆ buttonNumbers str 16 :=
    List.map_subset _ (List.take_subset_take_left _ (by omega))
  constructor
  · intro h n hn
    obtain ⟨b, hFirst, -⟩ := returns_bind.mp h
    obtain ⟨b', hPress⟩ := press_of_mem ⟨b, hFirst⟩ n hn
    exact (inBounds_iff n 16).mp (returns_pressButton_iff.mp hPress)
  · intro h
    have hBounds : ∀ n ∈ buttonNumbers str 16, (bitSetCall n).InBounds 16 := fun n hn =>
      (inBounds_iff n 16).mpr (h n hn)
    obtain ⟨b, hFirst⟩ := pressButtons_of_inBounds hBounds (clearBytes btn 16)
    exact returns_bind.mpr
      ⟨b, hFirst, pressButtons_of_inBounds (fun n hn => hBounds n (hSub hn)) _⟩

theorem buttonNumbers_take (str : String) {size1 : Nat} (h : size1 ≤ 16) :
    buttonNumbers str size1 = (buttonNumbers str 16).take size1 := by
  unfold buttonNumbers
  rw [← List.map_take, List.take_take, Nat.min_eq_left h]

/-- After both runs the array ends as a text when one byte has none of the
numbers: of the first byte's only the first number of the text is left. -/
theorem returns_logged_iff {str : String} {btn b : Buttons}
    (hRuns : convertTwice str btn = .ok b) :
    Returns (charText b) ↔
      ∃ i : Nat, i < 16 ∧ ∀ n ∈ buttonNumbers str (if i = 0 then 1 else 16), n / 8 ≠ i := by
  have hBounds := returns_convertTwice_iff.mp ⟨b, hRuns⟩
  -- the numbers of the text are natural numbers
  obtain ⟨ns, hNs⟩ : ∃ ns : List Nat, buttonNumbers str 16 = ns.map Int.ofNat := by
    refine ⟨(buttonNumbers str 16).map Int.toNat, ?_⟩
    rw [List.map_map]
    refine ((List.map_congr_left fun n hn => ?_).trans (List.map_id _)).symm
    exact Int.toNat_of_nonneg (hBounds n hn).1.le
  have hNumbers : ∀ size1 ≤ 16, buttonNumbers str size1 = (ns.take size1).map Int.ofNat := by
    intro size1 h
    rw [buttonNumbers_take str h, hNs, List.map_take]
  rw [hNs, List.forall_mem_map] at hBounds
  have hBound : ∀ n ∈ ns, n < 128 ∧ n % 8 ≠ 0 := by
    intro n hn
    have h := hBounds n hn
    simp only [Int.ofNat_eq_natCast] at h
    omega
  obtain ⟨b', hRuns', hBits⟩ := convertTwice_bit hNumbers
    (fun n hn => (hBound n (List.mem_of_mem_take hn)).1)
    (fun n hn => (hBound n (List.mem_of_mem_take hn)).2) btn
  obtain rfl := Except.ok.inj (hRuns.symm.trans hRuns')
  have hRemaining : ∀ i, remaining ns i = ns.take (if i = 0 then 1 else 16) := by
    intro i
    unfold remaining
    split
    · rfl
    · rfl
  rw [returns_charText_of_bit hBits fun i _ n hn => (hBound n ?_).2]
  · refine exists_congr fun i => and_congr_right fun _ => ?_
    rw [hRemaining, hNumbers _ (by split <;> omega), List.forall_mem_map]
    refine forall_congr' fun n => forall_congr' fun _ => ?_
    simp only [Int.ofNat_eq_natCast]
    omega
  · rw [hRemaining] at hn
    exact List.mem_of_mem_take hn

/--
**The decoder and its buffer.** In both runs that `DealTheJoystick` makes, every
byte and every shift that `BitSet` gets is in bounds if and only if each of the
first sixteen numbers of the text is one from 1 to 127 that is no multiple of 8,
and the first number is below 8.
-/
theorem decoder_in_bounds_iff (str : String) :
    (∀ size1 ∈ [16, 1], ∀ call ∈ bitSetCalls str size1, call.InBounds size1) ↔
      (∀ n ∈ buttonNumbers str 16, 0 < n ∧ n < 128 ∧ n % 8 ≠ 0) ∧
        ∀ n ∈ buttonNumbers str 1, n < 8 := by
  have hRun : ∀ size1, (∀ call ∈ bitSetCalls str size1, call.InBounds size1) ↔
      ∀ n ∈ buttonNumbers str size1, 0 < n ∧ n < 8 * size1 ∧ n % 8 ≠ 0 := by
    intro size1
    simp only [bitSetCalls, List.forall_mem_map, inBounds_iff]
  -- the first number is among the first sixteen
  have hSub : buttonNumbers str 1 ⊆ buttonNumbers str 16 :=
    List.map_subset _ (List.take_subset_take_left _ (by omega))
  rw [List.forall_mem_cons, List.forall_mem_singleton, hRun, hRun]
  constructor
  · rintro ⟨hAll, hFirst⟩
    exact ⟨hAll, fun n hn => (hFirst n hn).2.1⟩
  · rintro ⟨hAll, hFirst⟩
    refine ⟨hAll, fun n hn => ?_⟩
    obtain ⟨hPos, -, hMod⟩ := hAll n (hSub hn)
    exact ⟨hPos, hFirst n hn, hMod⟩

/-- Button 129 is in the byte after the array. -/
theorem decoder_leaves_buffer :
    ¬ ∀ size1 ∈ [16, 1], ∀ call ∈ bitSetCalls "129" size1, call.InBounds size1 := by
  decide

end PushStreamer
