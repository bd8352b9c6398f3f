import Mathlib.Data.List.Rotate
import Mathlib.Data.Nat.Bitwise
import Mathlib.Tactic.Common

/-!
# Little-endian words

The number that a list of bytes stands for in the memory of a little-endian
machine, the least significant byte first, and the bytes of a number.

* `ofBytes_toBytes`, `toBytes_ofBytes` — the two conversions.
* `swap_ofBytes` — the other byte order.
* `ofBytes_xor` — xor of words is xor of their bytes.
* `ofBytes_rotate` — turning a word by whole bytes turns its bytes.
-/

namespace Words

/-- The word with these bytes. -/
def ofBytes : List UInt8 → ℕ
  | [] => 0
  | b :: l => b.toNat + 256 * ofBytes l

/-- The first `n` bytes of a number. -/
def toBytes : ℕ → ℕ → List UInt8
  | 0, _ => []
  | n + 1, v => UInt8.ofNat v :: toBytes n (v / 256)

@[simp] theorem ofBytes_nil : ofBytes [] = 0 := rfl

@[simp] theorem ofBytes_cons (b : UInt8) (l : List UInt8) :
    ofBytes (b :: l) = b.toNat + 256 * ofBytes l := rfl

@[simp] theorem length_toBytes (n v : ℕ) : (toBytes n v).length = n := by
  induction n generalizing v with
  | zero => rfl
  | succ n ih => rw [toBytes, List.length_cons, ih]

/-- A word is below the power for its bytes. -/
theorem ofBytes_lt (l : List UInt8) : ofBytes l < 256 ^ l.length := by
  induction l with
  | nil => exact Nat.one_pos
  | cons b l ih =>
    have hByte := b.toNat_lt
    rw [ofBytes_cons, List.length_cons, Nat.pow_succ]
    omega

-- ---------------------------------------------------------------------------
-- The two conversions
-- ---------------------------------------------------------------------------

/-- The bytes beyond the first `n` are lost. -/
theorem ofBytes_toBytes_mod (n v : ℕ) : ofBytes (toBytes n v) = v % 256 ^ n := by
  induction n generalizing v with
  | zero => rw [Nat.pow_zero, Nat.mod_one, toBytes, ofBytes_nil]
  | succ n ih =>
    have hByte : (UInt8.ofNat v).toNat = v % 256 := UInt8.toNat_ofNat'
    rw [toBytes, ofBytes_cons, ih, hByte, Nat.pow_succ', Nat.mod_mul]

/-- A number that fits is read back from its bytes. -/
theorem ofBytes_toBytes {n v : ℕ} (h : v < 256 ^ n) : ofBytes (toBytes n v) = v := by
  rw [ofBytes_toBytes_mod, Nat.mod_eq_of_lt h]

/-- The bytes of a word that is stored. -/
theorem toBytes_ofBytes_take {n : ℕ} {l : List UInt8} (h : n ≤ l.length) :
    toBytes n (ofBytes l) = l.take n := by
  induction n generalizing l with
  | zero => rfl
  | succ n ih =>
    cases l with
    | nil => exact absurd h (Nat.not_succ_le_zero n)
    | cons b l =>
      have hByte := b.toNat_lt
      have hLow : UInt8.ofNat (ofBytes (b :: l)) = b := by
        apply UInt8.toNat_inj.mp
        rw [UInt8.toNat_ofNat', ofBytes_cons]
        omega
      have hHigh : ofBytes (b :: l) / 256 = ofBytes l := by
        rw [ofBytes_cons]
        omega
      rw [toBytes, hLow, hHigh, ih (Nat.le_of_succ_le_succ h), List.take_succ_cons]

/-- Bytes are read back from their number. -/
theorem toBytes_ofBytes (l : List UInt8) : toBytes l.length (ofBytes l) = l := by
  rw [toBytes_ofBytes_take (Nat.le_refl _), List.take_length]

/-- The first bytes are those of a shorter word. -/
theorem take_toBytes {m n : ℕ} (v : ℕ) (h : m ≤ n) : (toBytes n v).take m = toBytes m v := by
  induction m generalizing n v with
  | zero => rfl
  | succ m ih =>
    cases n with
    | zero => exact absurd h (Nat.not_succ_le_zero m)
    | succ n => rw [toBytes, List.take_succ_cons, ih _ (Nat.le_of_succ_le_succ h), toBytes]

/-- A word of `n` bytes in the other byte order. -/
def swap (n v : ℕ) : ℕ := ofBytes (toBytes n v).reverse

/-- A swap turns the bytes around. -/
theorem swap_ofBytes (l : List UInt8) : swap l.length (ofBytes l) = ofBytes l.reverse := by
  rw [swap, toBytes_ofBytes]

/-- The bytes of a word in the other order are its bytes, the other way round. -/
theorem toBytes_swap (n v : ℕ) : toBytes n (swap n v) = (toBytes n v).reverse := by
  have hLength : (toBytes n v).reverse.length = n := by rw [List.length_reverse, length_toBytes]
  have h := toBytes_ofBytes (toBytes n v).reverse
  rwa [hLength] at h

/-- Bytes behind others count higher. -/
theorem ofBytes_append (k l : List UInt8) :
    ofBytes (k ++ l) = ofBytes k + 256 ^ k.length * ofBytes l := by
  induction k with
  | nil => rw [List.nil_append, ofBytes_nil, List.length_nil, Nat.pow_zero]; omega
  | cons b k ih =>
    rw [List.cons_append, ofBytes_cons, ih, ofBytes_cons, List.length_cons, Nat.pow_succ',
      Nat.mul_add, Nat.mul_assoc, Nat.add_assoc]

theorem ofBytes_replicate_zero (n : ℕ) : ofBytes (List.replicate n 0) = 0 := by
  induction n with
  | zero => rfl
  | succ n ih => rw [List.replicate_succ, ofBytes_cons, ih]; rfl

-- ---------------------------------------------------------------------------
-- Operations on words
-- ---------------------------------------------------------------------------

/-- The low byte and the others do not meet. -/
theorem xor_add_mul {a b : ℕ} (x y : ℕ) (ha : a < 2 ^ 8) (hb : b < 2 ^ 8) :
    (a + 256 * x) ^^^ (b + 256 * y) = (a ^^^ b) + 256 * (x ^^^ y) := by
  have hOr : ∀ {c : ℕ} (z : ℕ), c < 2 ^ 8 → c + 256 * z = z <<< 8 ||| c := by
    intro c z hc
    rw [← Nat.shiftLeft_add_eq_or_of_lt hc, Nat.shiftLeft_eq]
    omega
  rw [hOr x ha, hOr y hb, hOr (x ^^^ y) (Nat.xor_lt_two_pow ha hb)]
  apply Nat.eq_of_testBit_eq
  intro i
  simp only [Nat.testBit_xor, Nat.testBit_or, Nat.testBit_shiftLeft]
  rcases Nat.lt_or_ge i 8 with hi | hi
  · simp [Nat.not_le.mpr hi]
  · have hPow : 2 ^ 8 ≤ 2 ^ i := Nat.pow_le_pow_right (by decide) hi
    rw [Nat.testBit_lt_two_pow (Nat.lt_of_lt_of_le ha hPow),
      Nat.testBit_lt_two_pow (Nat.lt_of_lt_of_le hb hPow)]
    simp [hi]

/-- Xor of two words, byte by byte. -/
theorem ofBytes_xor {k l : List UInt8} (h : k.length = l.length) :
    ofBytes (List.zipWith (· ^^^ ·) k l) = ofBytes k ^^^ ofBytes l := by
  induction k generalizing l with
  | nil =>
    obtain rfl := List.length_eq_zero_iff.mp h.symm
    rfl
  | cons a k ih =>
    cases l with
    | nil => cases h
    | cons b l =>
      rw [List.zipWith_cons_cons, ofBytes_cons, ih (Nat.succ.inj h), ofBytes_cons, ofBytes_cons,
        UInt8.toNat_xor, xor_add_mul _ _ a.toNat_lt b.toNat_lt]

/-- A shift drops the first bytes. -/
theorem ofBytes_shiftRight {k : ℕ} {l : List UInt8} (h : k ≤ l.length) :
    ofBytes l >>> (k * 8) = ofBytes (l.drop k) := by
  have hPow : (2 : ℕ) ^ (k * 8) = 256 ^ k := by rw [Nat.mul_comm, Nat.pow_mul]
  have hLength : (l.take k).length = k := List.length_take_of_le h
  have hLow := ofBytes_lt (l.take k)
  have hSplit := ofBytes_append (l.take k) (l.drop k)
  rw [List.take_append_drop, hLength] at hSplit
  rw [hLength] at hLow
  rw [Nat.shiftRight_eq_div_pow, hPow, hSplit, Nat.add_mul_div_left _ _ (Nat.pow_pos (by decide)),
    Nat.div_eq_of_lt hLow, Nat.zero_add]

/-- Turning a word of `l.length` bytes by `k` bytes to the right. -/
theorem ofBytes_rotate {k : ℕ} {l : List UInt8} (h : k ≤ l.length) :
    ofBytes l >>> (k * 8) ||| ofBytes l <<< ((l.length - k) * 8) % 256 ^ l.length =
      ofBytes (l.rotate k) := by
  have hPow : ∀ j, (2 : ℕ) ^ (j * 8) = 256 ^ j := fun j => by rw [Nat.mul_comm, Nat.pow_mul]
  have hLength : (l.take k).length = k := List.length_take_of_le h
  have hRest : (l.drop k).length = l.length - k := List.length_drop
  have hHigh := ofBytes_lt (l.drop k)
  have hLow := ofBytes_lt (l.take k)
  have hSplit := ofBytes_append (l.take k) (l.drop k)
  rw [List.take_append_drop, hLength] at hSplit
  rw [hLength] at hLow
  rw [hRest, ← hPow] at hHigh
  -- the bytes that leave on the right come in on the left
  have hShift : ofBytes l <<< ((l.length - k) * 8) % 256 ^ l.length =
      ofBytes (l.take k) <<< ((l.length - k) * 8) := by
    have hWhole : 256 ^ l.length = 256 ^ k * 256 ^ (l.length - k) := by
      rw [← Nat.pow_add, Nat.add_sub_cancel' h]
    rw [Nat.shiftLeft_eq, Nat.shiftLeft_eq, hPow, hSplit, hWhole, Nat.mul_mod_mul_right,
      Nat.add_mul_mod_self_left, Nat.mod_eq_of_lt hLow]
  rw [ofBytes_shiftRight h, hShift, Nat.or_comm, ← Nat.shiftLeft_add_eq_or_of_lt hHigh,
    Nat.shiftLeft_eq, hPow, List.rotate_eq_drop_append_take h, ofBytes_append, hRest]
  rw [Nat.add_comm, Nat.mul_comm]

end Words
