import Mathlib.Data.List.Basic
import Mathlib.Data.List.GetD
import Mathlib.Data.Nat.Bitwise
import Mathlib.Tactic.Common

/-!
# SHA-1

The hash function as its standard has it: a message is padded to blocks of 64
bytes, the sixteen words of a block are extended to eighty, one for each round,
and the rounds of all blocks are run one after the other.

* `prefix_extend` — the schedule only grows.
* `rounds_append`, `foldBlocks_append` — rounds and blocks in two parts.
* `words_congr` — zeros behind a block do not matter.
* `word_bytes` — the bytes of a number make its word.
-/

namespace Sha1

/-- The five words of a hash. -/
structure State where
  a : UInt32
  b : UInt32
  c : UInt32
  d : UInt32
  e : UInt32
deriving DecidableEq

def rotl (x n : UInt32) : UInt32 := (x <<< n) ||| (x >>> (32 - n))

/-- The function of a round. -/
def func (t : ℕ) (s : State) : UInt32 :=
  if t < 20 then (s.b &&& s.c) ||| (~~~s.b &&& s.d)
  else if t < 40 then s.b ^^^ s.c ^^^ s.d
  else if t < 60 then (s.b &&& s.c) ||| (s.b &&& s.d) ||| (s.c &&& s.d)
  else s.b ^^^ s.c ^^^ s.d

/-- The constant of a round. -/
def const (t : ℕ) : UInt32 :=
  if t < 20 then 0x5a827999
  else if t < 40 then 0x6ed9eba1
  else if t < 60 then 0x8f1bbcdc
  else 0xca62c1d6

/-- A round, with its word of the schedule. -/
def round (t : ℕ) (w : UInt32) (s : State) : State where
  a := rotl s.a 5 + func t s + s.e + const t + w
  b := s.a
  c := rotl s.b 30
  d := s.c
  e := s.d

/-- The schedule with `n` more words. -/
def extend (ws : List UInt32) : ℕ → List UInt32
  | 0 => ws
  | n + 1 =>
    let l := extend ws n
    let t := l.length
    l ++ [rotl (l.getD (t - 3) 0 ^^^ l.getD (t - 8) 0 ^^^ l.getD (t - 14) 0 ^^^
      l.getD (t - 16) 0) 1]

/-- The rounds from `start` on. -/
def rounds (ws : List UInt32) (start n : ℕ) (s : State) : State :=
  (List.range' start n).foldl (fun s t => round t (ws.getD t 0) s) s

def State.add (s s' : State) : State where
  a := s.a + s'.a
  b := s.b + s'.b
  c := s.c + s'.c
  d := s.d + s'.d
  e := s.e + s'.e

/-- A block of sixteen words. -/
def compress (s : State) (ws : List UInt32) : State := s.add (rounds (extend ws 64) 0 80 s)

/-- Four bytes, the highest one first. -/
def word (a b c d : UInt8) : UInt32 :=
  d.toUInt32 ||| (c.toUInt32 <<< 8) ||| (b.toUInt32 <<< 16) ||| (a.toUInt32 <<< 24)

/-- The words of a block of 64 bytes; one that is shorter is filled with zeros. -/
def words (block : List UInt8) : List UInt32 :=
  (List.range 16).map fun k => word (block.getD (4 * k) 0) (block.getD (4 * k + 1) 0)
    (block.getD (4 * k + 2) 0) (block.getD (4 * k + 3) 0)

/-- The first `n` blocks of `k` elements. -/
def foldBlocks {σ β : Type*} (f : σ → List β → σ) (k : ℕ) (s : σ) (l : List β) : ℕ → σ
  | 0 => s
  | n + 1 => foldBlocks f k (f s (l.take k)) (l.drop k) n

/-- A block of 64 bytes. -/
def hashBlock (s : State) (block : List UInt8) : State := compress s (words block)

/-- A number in eight bytes, the highest one first. -/
def bytes64 (n : ℕ) : List UInt8 := (List.range 8).map fun i => UInt8.ofNat (n / 256 ^ (7 - i))

/-- A message, a bit, zeros, and the number of its bits. -/
def pad (m : List UInt8) : List UInt8 :=
  m ++ (0x80 :: (List.replicate ((119 - m.length % 64) % 64) 0 ++ bytes64 (8 * m.length)))

def initial : State := ⟨0x67452301, 0xefcdab89, 0x98badcfe, 0x10325476, 0xc3d2e1f0⟩

/-- The bytes of a hash. -/
def State.bytes (s : State) : List UInt8 :=
  [s.a, s.b, s.c, s.d, s.e].flatMap fun w : UInt32 =>
    [(w >>> 24).toUInt8, (w >>> 16).toUInt8, (w >>> 8).toUInt8, w.toUInt8]

/-- The hash of a message. -/
def sha1 (m : List UInt8) : List UInt8 :=
  (foldBlocks hashBlock 64 initial (pad m) ((pad m).length / 64)).bytes

example : sha1 [97, 98, 99] =
    [0xa9, 0x99, 0x3e, 0x36, 0x47, 0x06, 0x81, 0x6a, 0xba, 0x3e,
      0x25, 0x71, 0x78, 0x50, 0xc2, 0x6c, 0x9c, 0xd0, 0xd8, 0x9d] := by
  decide +kernel

-- ---------------------------------------------------------------------------
-- The schedule and the rounds
-- ---------------------------------------------------------------------------

section

variable (ws : List UInt32) (s : State) (m n : ℕ)

theorem length_extend : (extend ws n).length = ws.length + n := by
  induction n with
  | zero => rfl
  | succ n ih => rw [extend, List.length_append, ih, List.length_singleton, Nat.add_assoc]

/-- The schedule only grows. -/
theorem prefix_extend (h : m ≤ n) : extend ws m <+: extend ws n := by
  induction n with
  | zero =>
    obtain rfl := Nat.le_zero.mp h
    exact List.prefix_refl _
  | succ n ih =>
    by_cases hEq : m = n + 1
    · subst hEq
      exact List.prefix_refl _
    · exact (ih (by omega)).trans (List.prefix_append _ _)

/-- Rounds are done one after the other. -/
theorem rounds_append (start : ℕ) :
    rounds ws start (m + n) s = rounds ws (start + m) n (rounds ws start m s) := by
  rw [rounds, ← List.range'_append_1, List.foldl_append]
  rfl

theorem rounds_succ (start : ℕ) :
    rounds ws start (n + 1) s =
      round (start + n) (ws.getD (start + n) 0) (rounds ws start n s) := by
  rw [rounds_append]
  rfl

theorem length_words (block : List UInt8) : (words block).length = 16 := by
  rw [words, List.length_map, List.length_range]

/-- A word has four bytes of the block. -/
theorem getD_words {block : List UInt8} {k : ℕ} (h : k < 16) :
    (words block).getD k 0 = word (block.getD (4 * k) 0) (block.getD (4 * k + 1) 0)
      (block.getD (4 * k + 2) 0) (block.getD (4 * k + 3) 0) := by
  simp [words, List.getD, h]

/-- Blocks that agree, filled with zeros, have the same words. -/
theorem words_congr {block block' : List UInt8}
    (h : ∀ j, j < 64 → block.getD j 0 = block'.getD j 0) : words block = words block' := by
  refine List.map_congr_left fun k hk => ?_
  have hLt := List.mem_range.mp hk
  rw [h (4 * k) (by omega), h (4 * k + 1) (by omega), h (4 * k + 2) (by omega),
    h (4 * k + 3) (by omega)]

/-- Words that a buffer begins with. -/
theorem take_eq_words {w : List UInt32} {block : List UInt8} (h : 16 ≤ w.length)
    (hWords : ∀ k, k < 16 → w.getD k 0 = (words block).getD k 0) : w.take 16 = words block := by
  refine List.ext_getElem (by rw [List.length_take, length_words]; omega) fun k hk hk' => ?_
  have hLt : k < 16 := length_words block ▸ hk'
  have hSame := hWords k hLt
  rw [List.getD_eq_getElem _ _ (Nat.lt_of_lt_of_le hLt h), List.getD_eq_getElem _ _ hk'] at hSame
  rw [List.getElem_take, hSame]

/-- A word that is written byte by byte. -/
theorem word_or (a b c d : UInt8) :
    word 0 0 0 0 ||| (a.toUInt32 <<< 24) = word a 0 0 0 ∧
      word a 0 0 0 ||| (b.toUInt32 <<< 16) = word a b 0 0 ∧
      word a b 0 0 ||| (c.toUInt32 <<< 8) = word a b c 0 ∧
      word a b c 0 ||| d.toUInt32 = word a b c d := by
  refine ⟨?_, ?_, ?_, ?_⟩
  · simp [word]
  · simp [word, UInt32.or_comm]
  · have hLow : word a b 0 0 = (b.toUInt32 <<< 16) ||| (a.toUInt32 <<< 24) := by simp [word]
    have hAll : word a b c 0 =
        (c.toUInt32 <<< 8) ||| (b.toUInt32 <<< 16) ||| (a.toUInt32 <<< 24) := by simp [word]
    rw [hLow, hAll, UInt32.or_comm, ← UInt32.or_assoc]
  · have hLow : word a b c 0 =
        (c.toUInt32 <<< 8) ||| (b.toUInt32 <<< 16) ||| (a.toUInt32 <<< 24) := by simp [word]
    rw [hLow, word, UInt32.or_comm, ← UInt32.or_assoc, ← UInt32.or_assoc]

/-- The bits of a word are those of its bytes. -/
theorem getLsbD_word (a b c d : UInt8) {i : ℕ} (h : i < 32) :
    (word a b c d).toBitVec.getLsbD i =
      (d.toBitVec.getLsbD i || !decide (i < 8) && c.toBitVec.getLsbD (i - 8) ||
        !decide (i < 16) && b.toBitVec.getLsbD (i - 16) ||
        !decide (i < 24) && a.toBitVec.getLsbD (i - 24)) := by
  simp [word, h]

/-- Four bytes of a number. -/
theorem word_bytes (n : ℕ) : word (UInt8.ofNat (n / 256 ^ 3)) (UInt8.ofNat (n / 256 ^ 2))
    (UInt8.ofNat (n / 256 ^ 1)) (UInt8.ofNat (n / 256 ^ 0)) = UInt32.ofNat n := by
  have hBit : ∀ k i, (UInt8.ofNat (n / 256 ^ k)).toBitVec.getLsbD i =
      (decide (i < 8) && n.testBit (i + 8 * k)) := by
    intro k i
    have hByte : (UInt8.ofNat (n / 256 ^ k)).toBitVec = BitVec.ofNat 8 (n / 256 ^ k) := rfl
    rw [hByte, BitVec.getLsbD_ofNat, show 256 = 2 ^ 8 from rfl, ← Nat.pow_mul,
      Nat.testBit_div_two_pow]
  have hWord : ∀ i, (UInt32.ofNat n).toBitVec.getLsbD i = (decide (i < 32) && n.testBit i) :=
    fun i => BitVec.getLsbD_ofNat 32 n i
  apply UInt32.toBitVec_inj.mp
  apply BitVec.eq_of_getLsbD_eq
  intro i hi
  rw [getLsbD_word _ _ _ _ hi, hWord, hBit, hBit, hBit, hBit, decide_eq_true hi, Bool.true_and,
    Nat.mul_zero, Nat.add_zero]
  by_cases h1 : i < 8
  · simp [h1, show i < 16 by omega, show i < 24 by omega]
  by_cases h2 : i < 16
  · simp [h1, h2, show i < 24 by omega, show i - 8 < 8 by omega, show i - 8 + 8 = i by omega]
  by_cases h3 : i < 24
  · simp [h1, h2, h3, show i - 16 < 8 by omega, show ¬ i - 8 < 8 by omega,
      show i - 16 + 16 = i by omega]
  · simp [h1, h2, h3, show ¬ i - 16 < 8 by omega, show ¬ i - 8 < 8 by omega,
      show i - 24 < 8 by omega, show i - 24 + 24 = i by omega]

/-- Blocks are done one after the other. -/
theorem foldBlocks_append {σ β : Type*} (f : σ → List β → σ) (k : ℕ) (s : σ) (l : List β) :
    foldBlocks f k s l (m + n) = foldBlocks f k (foldBlocks f k s l m) (l.drop (k * m)) n := by
  induction m generalizing s l with
  | zero => rw [Nat.zero_add]; rfl
  | succ m ih =>
    have hDrop : (l.drop k).drop (k * m) = l.drop (k * (m + 1)) := by
      rw [List.drop_drop, Nat.mul_succ, Nat.add_comm]
    rw [Nat.add_right_comm, foldBlocks, foldBlocks, ih, hDrop]

theorem length_bytes64 : (bytes64 n).length = 8 := by
  rw [bytes64, List.length_map, List.length_range]

/-- The length is written from the highest byte on. -/
theorem getD_bytes64 {i : ℕ} (h : i < 8) :
    (bytes64 n).getD i 0 = UInt8.ofNat (n / 256 ^ (7 - i)) := by
  simp [bytes64, List.getD, h]

/-- A padded message fills its last block. -/
theorem length_pad (m : List UInt8) :
    (pad m).length = m.length + 9 + (119 - m.length % 64) % 64 := by
  rw [pad, List.length_append, List.length_cons, List.length_append, List.length_replicate,
    length_bytes64]
  omega

end

end Sha1
