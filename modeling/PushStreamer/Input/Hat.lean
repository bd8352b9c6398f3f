import PushStreamer.Input.Joystick

/-!
# The hat of a joystick message

`ConvertTheSpecialStringEx` writes the low bits of a number into a byte, one
`BitSet` for each of the last nine characters of a `bitset<10>`. The call of it in
`DealTheJoystick` is commented out, and the local byte that `JoystickCtrl`
gets is never written.

* `convertTheSpecialStringEx_eq` — the loop leaves the number modulo 256,
  whatever the byte held.
* `hat_reaches_driver_iff` — when the hat of a message reaches the driver.
-/

namespace PushStreamer

-- ---------------------------------------------------------------------------
-- `ConvertTheSpecialStringEx`
-- ---------------------------------------------------------------------------

/-- `bitset<10>(value).to_string()`: the highest bit comes first. -/
def bitString (value : Int) : List Bool :=
  (List.range 10).map fun i => (BitVec.ofInt 10 value).getMsbD i

/-- The loop of `ConvertTheSpecialStringEx`, from `index` on. -/
def setBits (size : Nat) : Nat → List Bool → UInt8 → Except Fault UInt8
  | _, [], result => .ok result
  | index, value1 :: rest, result => do
    let result ← bitSet result (UInt8.ofNat (size - index)) value1
    setBits size (index + 1) rest result

/-- `ConvertTheSpecialStringEx`, with the byte that it leaves. -/
def convertTheSpecialStringEx (value : Int) (result : UInt8) : Except Fault UInt8 :=
  let str := (bitString value).drop 1
  setBits str.length 0 str result

/-- `BitSet` at a position from 1 on gives that bit the value of the flag and
keeps the others; the ninth bit is none of the byte's. -/
theorem bitSet_flag {p : Nat} (hPos : 1 ≤ p) (hLe : p ≤ 32) (byte : UInt8) (flag : Bool) :
    ∃ byte', bitSet byte (UInt8.ofNat p) flag = .ok byte' ∧ ∀ j < 8,
      byte'.toNat.testBit j = if j + 1 = p then flag else byte.toNat.testBit j := by
  have hToNat : (UInt8.ofNat p).toNat = p := by
    rw [UInt8.toNat_ofNat']
    omega
  have hAmount : ((p : Int) - 1).toNat = p - 1 := by omega
  -- the mask has the one bit
  have hMask : ∀ j < 8, (UInt8.ofNat (1 <<< (p - 1))).toNat.testBit j = decide (j + 1 = p) := by
    intro j hj
    rw [UInt8.toNat_ofNat', Nat.testBit_mod_two_pow, Nat.one_shiftLeft, Nat.testBit_two_pow,
      decide_eq_true hj, Bool.true_and, decide_eq_decide]
    omega
  refine ⟨if flag then byte ||| UInt8.ofNat (1 <<< (p - 1))
    else byte &&& ~~~UInt8.ofNat (1 <<< (p - 1)), ?_, fun j hj => ?_⟩
  · simp only [bitSet, hToNat, hAmount]
    rw [if_pos (by omega)]
  · have hBit : (UInt8.ofNat (1 <<< (p - 1))).toBitVec.getLsbD j = decide (j + 1 = p) := hMask j hj
    cases flag with
    | true =>
      show (byte ||| UInt8.ofNat (1 <<< (p - 1))).toBitVec.getLsbD j = _
      rw [UInt8.toBitVec_or, BitVec.getLsbD_or, hBit]
      by_cases h : j + 1 = p
      · rw [if_pos h, decide_eq_true h, Bool.or_true]
      · rw [if_neg h, decide_eq_false h, Bool.or_false]
        rfl
    | false =>
      show (byte &&& ~~~UInt8.ofNat (1 <<< (p - 1))).toBitVec.getLsbD j = _
      rw [UInt8.toBitVec_and, UInt8.toBitVec_not, BitVec.getLsbD_and, BitVec.getLsbD_not, hBit,
        decide_eq_true hj, Bool.true_and]
      by_cases h : j + 1 = p
      · rw [if_pos h, decide_eq_true h, Bool.not_true, Bool.and_false]
      · rw [if_neg h, decide_eq_false h, Bool.not_false, Bool.and_true]
        rfl

/-- The loop puts the rest of the text into the low bits, its last character
into the lowest. -/
theorem setBits_bit {size : Nat} (index : Nat) (rest : List Bool)
    (hSize : size = index + rest.length) (hLe : rest.length ≤ 32) (byte : UInt8) :
    ∃ byte', setBits size index rest byte = .ok byte' ∧ ∀ j < 8,
      byte'.toNat.testBit j = rest.reverse.getD j (byte.toNat.testBit j) := by
  induction rest generalizing index byte with
  | nil => exact ⟨byte, rfl, fun j _ => rfl⟩
  | cons value1 rest ih =>
    rw [List.length_cons] at hSize hLe
    obtain ⟨byte₁, hSet, hBits₁⟩ :=
      bitSet_flag (p := size - index) (by omega) (by omega) byte value1
    obtain ⟨byte₂, hRest, hBits₂⟩ := ih (index + 1) (by omega) (by omega) byte₁
    refine ⟨byte₂, ?_, fun j hj => ?_⟩
    · rw [setBits, hSet]
      exact hRest
    · rw [hBits₂ j hj, hBits₁ j hj, List.reverse_cons]
      -- the text is read from its end, the bit of the lowest number first
      by_cases hIn : j < rest.reverse.length
      · rw [List.getD_append _ _ _ _ hIn, List.getD_eq_getElem _ _ hIn,
          List.getD_eq_getElem _ _ hIn]
      · rw [List.getD_append_right _ _ _ _ (by omega), List.getD_eq_default _ _ (by omega)]
        rw [List.length_reverse] at hIn ⊢
        split
        · have hAt : j - rest.length = 0 := by omega
          rw [hAt]
          rfl
        · rw [List.getD_eq_default]
          rw [List.length_singleton]
          omega

/-- The last nine characters, read from the end, are the nine low bits. -/
theorem bitString_reverse (value : Int) :
    ((bitString value).drop 1).reverse = (List.range 9).map fun j =>
      (BitVec.ofInt 10 value).getLsbD j := by
  rfl

/-- The low eight bits are those of the number modulo 256. -/
theorem getLsbD_ofInt_low (value : Int) {j : Nat} (hj : j < 8) :
    (BitVec.ofInt 10 value).getLsbD j = (UInt8.ofInt value).toNat.testBit j := by
  have hMod : (value % 2 ^ 8).toNat = (value % 2 ^ 10).toNat % 2 ^ 8 := by omega
  show (BitVec.ofInt 10 value).toNat.testBit j = _
  rw [BitVec.toNat_ofInt, UInt8.ofInt, UInt8.toNat_ofNat', hMod, Nat.testBit_mod_two_pow,
    Nat.testBit_mod_two_pow, decide_eq_true hj, Bool.true_and, Bool.true_and]
  rfl

/-- **The bit loop reduces modulo 256**, whatever the byte held before. -/
theorem convertTheSpecialStringEx_eq (value : Int) (result : UInt8) :
    convertTheSpecialStringEx value result = .ok (UInt8.ofInt value) := by
  have hLength : ((bitString value).drop 1).length = 9 := rfl
  obtain ⟨byte, hLoop, hBits⟩ := setBits_bit 0 ((bitString value).drop 1)
    (Nat.zero_add _).symm (by omega) result
  have hByte : byte = UInt8.ofInt value := by
    refine UInt8.eq_iff_toBitVec_eq.mpr (BitVec.eq_of_getLsbD_eq fun j hj => ?_)
    show byte.toNat.testBit j = (UInt8.ofInt value).toNat.testBit j
    rw [hBits j hj, bitString_reverse, List.getD_eq_getElem _ _ (by simp; omega), List.getElem_map,
      List.getElem_range, getLsbD_ofInt_low value hj]
  rw [← hByte]
  exact hLoop

-- ---------------------------------------------------------------------------
-- `DealTheJoystick`
-- ---------------------------------------------------------------------------

/-- The message has the integer `n` as the hat of its key object. -/
def HatMember (root : Value) (n : Int) : Prop :=
  ∃ ms keys, root.members = .ok ms ∧ Value.member ms "key" = .obj keys ∧
    keys.lookup "hat" = some (.int n)

/-- The array is cleared before it is read. -/
theorem clearBytes_all (b b' : Buttons) : clearBytes b 16 = clearBytes b' 16 := by
  refine Vector.ext fun i hi => ?_
  simp [clearBytes]

/-- The buttons do not depend on what the array held. -/
theorem convertTwice_congr (buttons : String) (b b' : Buttons) :
    convertTwice buttons b = convertTwice buttons b' := by
  rw [convertTwice, convertTheSpecialString, clearBytes_all b b']
  rfl

section

variable {root : Value} {n : Int}

/-- A member that is there is read. -/
theorem memberOr_of_lookup {α : Type} {v x : Value} {ms : List (String × Value)} {key : String}
    (hMs : v.members = .ok ms) (hLookup : ms.lookup key = some x)
    (read : Value → Except JsonFailure α) (default : α) :
    v.memberOr key read default = read x := by
  rw [Value.memberOr_of_members hMs, Value.member, hLookup]
  rfl

/-- A message with a hat, if it can be read, has fields, and its hat among them. -/
theorem readJoystick_hat (hHat : HatMember root n) {r : Option JoystickFields}
    (h : readJoystick root = .ok r) : ∃ f, r = some f ∧ f.hat = n := by
  obtain ⟨ms, keys, hMs, hKey, hLookup⟩ := hHat
  have hNe : keys ≠ [] := by
    rintro rfl
    cases hLookup
  rcases readJoystick_cases hMs h with ⟨-, hNone⟩ | ⟨f, ks, rfl, hKs, -, hRead, -⟩
  · exact absurd (hNone keys hKey) hNe
  · obtain rfl := Value.obj.inj (hKey.symm.trans hKs)
    rw [memberOr_of_lookup (Value.members_obj keys) hLookup] at hRead
    exact ⟨f, rfl, (Except.ok.inj hRead).symm⟩

/-- The two runs on a message from different memory: the same arguments, with the
hat that the message has. -/
def HatDelivered (root : Value) (n : Int) (stale stale' : Stale) : Prop :=
  ∃ args args', dealTheJoystick root stale = .ok [.joystickCtrl args] ∧
    dealTheJoystick root stale' = .ok [.joystickCtrl args'] ∧
    args.hat = UInt8.ofInt n ∧ args'.hat = UInt8.ofInt n ∧ args = args'

/-- **The hat reaches the driver** just when the byte that is never written
happens to hold it. -/
theorem hat_reaches_driver_iff (hHat : HatMember root n) {stale : Stale}
    (hEnds : Returns (dealTheJoystick root stale)) (stale' : Stale) :
    HatDelivered root n stale stale' ↔
      stale.hatByte = UInt8.ofInt n ∧ stale'.hatByte = UInt8.ofInt n := by
  obtain ⟨r, hRead, hRest⟩ := returns_bind.mp hEnds
  have hOk : readJoystick root = .ok r := ofJson_eq_ok.mp hRead
  obtain ⟨f, rfl, -⟩ := readJoystick_hat hHat hOk
  obtain ⟨btn, hButtons, hRest⟩ := returns_bind.mp hRest
  obtain ⟨text, hLogged, -⟩ := returns_bind.mp hRest
  have hCall : ∀ memory : Stale, dealTheJoystick root memory =
      .ok [.joystickCtrl (joystickArgs f memory.hatByte btn)] := by
    intro memory
    refine (dealTheJoystick_eq_ok hOk).mpr ⟨btn, ?_, ⟨text, hLogged⟩, rfl⟩
    rw [convertTwice_congr f.buttons memory.btn stale.btn, hButtons]
  constructor
  · rintro ⟨args, args', hFirst, hSecond, hHat₁, hHat₂, -⟩
    rw [hCall] at hFirst hSecond
    cases hFirst
    cases hSecond
    exact ⟨hHat₁, hHat₂⟩
  · rintro ⟨h, h'⟩
    refine ⟨_, _, hCall stale, hCall stale', h, h', ?_⟩
    rw [h, h']

end

/-- A message with the hat 3 and the button 1. -/
def hatMessage : Value := .obj [("key", .obj [("hat", .int 3), ("buttons", .str "1")])]

theorem hatMember_hatMessage : HatMember hatMessage 3 := ⟨_, _, rfl, rfl, rfl⟩

/-- From memory that holds the hat already, it is delivered. -/
theorem hat_reaches_driver_by_chance :
    HatDelivered hatMessage 3 ⟨3, Vector.replicate 16 0⟩ ⟨3, Vector.replicate 16 255⟩ := by
  obtain ⟨args, hCall⟩ : ∃ args, dealTheJoystick hatMessage ⟨3, Vector.replicate 16 0⟩ =
      .ok [.joystickCtrl args] := ⟨_, rfl⟩
  exact (hat_reaches_driver_iff hatMember_hatMessage ⟨_, hCall⟩ _).mpr ⟨by decide, by decide⟩

/-- From other memory the driver gets what stood there, and two runs differ. -/
theorem hat_never_written :
    ¬ ∀ stale stale', HatDelivered hatMessage 3 stale stale' := by
  intro h
  obtain ⟨args, args', hFirst, hSecond, -, -, hSame⟩ :=
    h ⟨7, Vector.replicate 16 0⟩ ⟨9, Vector.replicate 16 0⟩
  cases hFirst
  cases hSecond
  have hHat := congrArg JoystickArgs.hat hSame
  revert hHat
  decide

end PushStreamer
