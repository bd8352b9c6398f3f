import PushStreamer.Lib.Sha1
import PushStreamer.Socket.HandshakeKey

/-!
# The hash of a handshake

`sha1::calc` writes the schedule of each block over the words of the last one, and
the last bytes of a message with its length into words of zeros.

* `innerHash_spec` — a block.
* `fullBlocks_spec`, `written_lastBlock` — the blocks of a message, and what is left.
* `sha1Calc_eq` — the hash, for messages whose bits can be counted in 32 bits.
-/

namespace PushStreamer.Http.Sha1Calc

open Endpoint (Bytes)
open Sha1 (extend words)

def Words.state (x : Words) : Sha1.State := ⟨x.a, x.b, x.c, x.d, x.e⟩

-- ---------------------------------------------------------------------------
-- The rounds of a block
-- ---------------------------------------------------------------------------

section

variable {w ws : List UInt32} {x : Words} {func : Words → UInt32} {val : UInt32} {start n t : ℕ}

/-- A macro is one round of the hash. -/
theorem sha1Macro_state (hFunc : func x = Sha1.func t x.state) (hVal : val = Sha1.const t) :
    (sha1Macro (func x) val w t x).state = Sha1.round t (w.getD t 0) x.state := by
  rw [hFunc, hVal]
  rfl

/-- The words up to round `t` are those of the schedule. -/
structure Scheduled (ws w : List UInt32) (t : ℕ) : Prop where
  size : w.length = 80
  first : ws.length = 16
  low : 16 ≤ t
  high : t ≤ 80
  same : w.take t = extend ws (t - 16)

/-- The words so far are those of the schedule. -/
theorem Scheduled.getD (h : Scheduled ws w t) {i : ℕ} (hLt : i < t) :
    w.getD i 0 = (extend ws (t - 16)).getD i 0 := by
  rw [← h.same]
  simp [List.getD, hLt]

/-- Each word that a round reads is the one of the schedule. -/
theorem Scheduled.getD_all (h : Scheduled ws w t) {i : ℕ} (hLt : i < t) :
    w.getD i 0 = (extend ws 64).getD i 0 := by
  have hHigh := h.high
  have hLow := h.low
  obtain ⟨more, hMore⟩ := Sha1.prefix_extend ws (t - 16) 64 (by omega)
  have hShort : i < (extend ws (t - 16)).length := by
    rw [Sha1.length_extend, h.first]
    omega
  rw [h.getD hLt, ← hMore]
  simp [List.getD, List.getElem?_append_left hShort]

/-- One more word of the schedule is written in its place. -/
theorem Scheduled.extendW (h : Scheduled ws w t) (hLt : t < 80) :
    Scheduled ws (extendW w t) (t + 1) := by
  have hLow := h.low
  have hLength : (extend ws (t - 16)).length = t := by
    rw [Sha1.length_extend, h.first]
    omega
  refine ⟨by rw [Sha1Calc.extendW, List.length_set, h.size], h.first, by omega, hLt, ?_⟩
  have hNext : t + 1 - 16 = t - 16 + 1 := by omega
  have hWords : ∀ k, 0 < k → k ≤ 16 →
      w.getD (t - k) 0 = (extend ws (t - 16)).getD (t - k) 0 :=
    fun k hPos hLe => h.getD (by omega)
  rw [Sha1Calc.extendW, List.set_eq_take_append_cons_drop, if_pos (h.size ▸ hLt), h.same, hNext,
    Sha1.extend, hLength, hWords 3 (by omega) (by omega), hWords 8 (by omega) (by omega),
    hWords 14 (by omega) (by omega), hWords 16 (by omega) (by omega),
    List.take_append, hLength, List.take_of_length_le (by omega),
    Nat.add_sub_cancel_left]
  rfl

/-- A loop of `innerHash`. -/
theorem rounds_spec (func : Words → UInt32) (val : UInt32) (n : ℕ) {y : Words × List UInt32}
    (h : Scheduled ws y.2 start) (hEnd : start + n ≤ 80)
    (hFunc : ∀ t x, start ≤ t → t < start + n → func x = Sha1.func t x.state)
    (hVal : ∀ t, start ≤ t → t < start + n → val = Sha1.const t) :
    (rounds func val start n y).1.state = Sha1.rounds (extend ws 64) start n y.1.state ∧
      Scheduled ws (rounds func val start n y).2 (start + n) := by
  induction n with
  | zero => exact ⟨rfl, h⟩
  | succ n ih =>
    obtain ⟨hState, hSame⟩ := ih (by omega) (fun t x hLe hLt => hFunc t x hLe (by omega))
      fun t hLe hLt => hVal t hLe (by omega)
    have hSame' := hSame.extendW (by omega)
    have hSucc : rounds func val start (n + 1) y =
        (sha1Macro (func (rounds func val start n y).1) val
          (Sha1Calc.extendW (rounds func val start n y).2 (start + n)) (start + n)
          (rounds func val start n y).1,
        Sha1Calc.extendW (rounds func val start n y).2 (start + n)) := by
      rw [rounds, List.range'_1_concat, List.foldl_append]
      rfl
    rw [hSucc]
    refine ⟨?_, hSame'⟩
    rw [sha1Macro_state (hFunc _ _ (Nat.le_add_right _ _) (by omega))
      (hVal _ (Nat.le_add_right _ _) (by omega)), hSame'.getD_all (by omega), hState,
      Sha1.rounds_succ]

/-- The loop over the words of the block. -/
theorem firstRounds_spec (h : Scheduled ws w 16) (hEnd : n ≤ 16) :
    ((List.range n).foldl (fun x round => sha1Macro (loop1 x) 0x5a827999 w round x) x).state =
      Sha1.rounds (extend ws 64) 0 n x.state := by
  induction n with
  | zero => rfl
  | succ n ih =>
    have hLess : n < 20 := by omega
    rw [List.range_succ, List.foldl_append, List.foldl_cons, List.foldl_nil,
      sha1Macro_state (t := n) (by rw [Sha1.func, if_pos hLess]; rfl)
        (by rw [Sha1.const, if_pos hLess]),
      h.getD_all (by omega), ih (by omega), Sha1.rounds_succ, Nat.zero_add]

/-- The rounds of a block, loop by loop. -/
theorem rounds_loops (W : List UInt32) (s : Sha1.State) :
    Sha1.rounds W 0 80 s = Sha1.rounds W 60 20 (Sha1.rounds W 40 20 (Sha1.rounds W 20 20
      (Sha1.rounds W 16 4 (Sha1.rounds W 0 16 s)))) := by
  rw [show 80 = 16 + 4 + 20 + 20 + 20 from rfl, Sha1.rounds_append, Sha1.rounds_append,
    Sha1.rounds_append, Sha1.rounds_append]

/-- **A block.** -/
theorem innerHash_spec (result : Words) (h : w.length = 80) :
    (innerHash result w).1.state = Sha1.compress result.state (w.take 16) ∧
      (innerHash result w).2.length = 80 := by
  have hStart : Scheduled (w.take 16) w 16 :=
    ⟨h, by rw [List.length_take, h]; rfl, Nat.le_refl _, by omega, rfl⟩
  -- sixteen rounds with the words of the block, sixty-four with words made of them
  have hFirst := firstRounds_spec (x := result) hStart (Nat.le_refl 16)
  generalize hSum : (List.range 16).foldl
    (fun x round => sha1Macro (loop1 x) 0x5a827999 w round x) result = x at hFirst
  obtain ⟨hOne, hStart⟩ := rounds_spec loop1 0x5a827999 4 (y := (x, w))
    hStart (by omega)
    (fun t x _ _ => by rw [Sha1.func, if_pos (by omega)]; rfl)
    (fun t _ _ => by rw [Sha1.const, if_pos (by omega)])
  replace hStart : Scheduled (w.take 16) _ 20 := hStart
  obtain ⟨hTwo, hStart⟩ := rounds_spec loop2 0x6ed9eba1 20
    hStart (by omega)
    (fun t x _ _ => by rw [Sha1.func, if_neg (by omega), if_pos (by omega)]; rfl)
    (fun t _ _ => by rw [Sha1.const, if_neg (by omega), if_pos (by omega)])
  replace hStart : Scheduled (w.take 16) _ 40 := hStart
  obtain ⟨hThree, hStart⟩ := rounds_spec loop3 0x8f1bbcdc 20
    hStart (by omega)
    (fun t x _ _ => by rw [Sha1.func, if_neg (by omega), if_neg (by omega), if_pos (by omega)]; rfl)
    (fun t _ _ => by rw [Sha1.const, if_neg (by omega), if_neg (by omega), if_pos (by omega)])
  replace hStart : Scheduled (w.take 16) _ 60 := hStart
  obtain ⟨hFour, hStart⟩ := rounds_spec loop2 0xca62c1d6 20
    hStart (by omega)
    (fun t x _ _ => by rw [Sha1.func, if_neg (by omega), if_neg (by omega), if_neg (by omega)]; rfl)
    (fun t _ _ => by rw [Sha1.const, if_neg (by omega), if_neg (by omega), if_neg (by omega)])
  rw [innerHash, hSum]
  dsimp only
  refine ⟨?_, hStart.size⟩
  rw [Sha1.compress, rounds_loops, ← hFirst, ← hOne, ← hTwo, ← hThree, ← hFour]
  rfl

end

-- ---------------------------------------------------------------------------
-- The words of a block
-- ---------------------------------------------------------------------------

section

variable {w : List UInt32} {m block : Bytes} {n : ℕ}

theorem length_foldl_set (f : ℕ → UInt32) (l : List ℕ) (w : List UInt32) :
    (l.foldl (fun w i => w.set i (f i)) w).length = w.length := by
  induction l generalizing w with
  | nil => rfl
  | cons i l ih => rw [List.foldl_cons, ih, List.length_set]

/-- The first words of the buffer, written one after the other. -/
theorem getD_foldl_set (f : ℕ → UInt32) (h : n ≤ w.length) (k : ℕ) :
    ((List.range n).foldl (fun w i => w.set i (f i)) w).getD k 0 =
      if k < n then f k else w.getD k 0 := by
  induction n with
  | zero => rfl
  | succ n ih =>
    have hLength := length_foldl_set f (List.range n) w
    rw [List.range_succ, List.foldl_append, List.foldl_cons, List.foldl_nil]
    by_cases hEq : k = n
    · subst hEq
      rw [if_pos (Nat.lt_succ_self k)]
      simp [List.getD, hLength, Nat.lt_of_succ_le h]
    · have hIff : k < n + 1 ↔ k < n := by omega
      have hOther : (((List.range n).foldl (fun w i => w.set i (f i)) w).set n (f n)).getD k 0 =
          ((List.range n).foldl (fun w i => w.set i (f i)) w).getD k 0 := by
        simp [List.getD, List.getElem?_set_ne (Ne.symm hEq)]
      rw [hOther, ih (Nat.le_of_succ_le h)]
      simp only [hIff]

/-- A buffer that begins with the words of a block. -/
structure Written (block : Bytes) (w : List UInt32) : Prop where
  size : w.length = 80
  same : ∀ k, k < 16 → w.getD k 0 = (words block).getD k 0

/-- The first sixteen words are those of the block. -/
theorem Written.take (h : Written block w) : w.take 16 = words block :=
  Sha1.take_eq_words (by rw [h.size]; decide) h.same

/-- A full block is filled from the message. -/
theorem written_fillBlock (m : Bytes) (n : ℕ) (h : w.length = 80) :
    Written ((m.drop n).take 64) (fillBlock m n w) := by
  refine ⟨by rw [fillBlock, length_foldl_set, h], fun k hk => ?_⟩
  have hByte : ∀ i, i < 4 → ((m.drop n).take 64).getD (4 * k + i) 0 = m.getD (n + 4 * k + i) 0 := by
    intro i hi
    have hLt : 4 * k + i < 64 := by omega
    simp [List.getD, hLt, Nat.add_assoc]
  rw [fillBlock, getD_foldl_set _ (by rw [h]; decide), if_pos hk, Sha1.getD_words hk,
    hByte 1 (by omega), hByte 2 (by omega), hByte 3 (by omega), ← Nat.add_zero (4 * k),
    hByte 0 (by omega)]
  rfl

/-- **The full blocks of a message**, whatever stands behind it. -/
theorem fullBlocks_spec (tail : Bytes) {y : Words × List UInt32} (h : y.2.length = 80)
    (hBlocks : 64 * n ≤ m.length) :
    ((List.range n).foldl (fun y j => innerHash y.1 (fillBlock m (64 * j) y.2)) y).1.state =
        Sha1.foldBlocks Sha1.hashBlock 64 y.1.state (m ++ tail) n ∧
      ((List.range n).foldl (fun y j => innerHash y.1 (fillBlock m (64 * j) y.2)) y).2.length =
        80 := by
  induction n with
  | zero => exact ⟨rfl, h⟩
  | succ n ih =>
    obtain ⟨hState, hLength⟩ := ih (by omega)
    rw [List.range_succ, List.foldl_append, List.foldl_cons, List.foldl_nil]
    have hFill := written_fillBlock m (64 * n) hLength
    obtain ⟨hInner, hLength'⟩ := innerHash_spec
      ((List.range n).foldl (fun y j => innerHash y.1 (fillBlock m (64 * j) y.2)) y).1 hFill.size
    refine ⟨?_, hLength'⟩
    have hBlock : ((m ++ tail).drop (64 * n)).take 64 = (m.drop (64 * n)).take 64 := by
      rw [List.drop_append_of_le_length (by omega), List.take_append_of_le_length]
      rw [List.length_drop]
      omega
    rw [hInner, hState, hFill.take, Sha1.foldBlocks_append, ← hBlock]
    rfl

end

-- ---------------------------------------------------------------------------
-- The last block
-- ---------------------------------------------------------------------------

section

variable {w : List UInt32} {m block : Bytes} {n : ℕ}

theorem getD_append_zeros (l : Bytes) (n j : ℕ) :
    (l ++ List.replicate n 0).getD j 0 = l.getD j 0 := by
  by_cases h : j < l.length
  · simp [List.getD, List.getElem?_append_left h]
  · have hLe := Nat.le_of_not_lt h
    simp only [List.getD, List.getElem?_append_right hLe, List.getElem?_replicate,
      List.getElem?_eq_none hLe]
    split
    · rfl
    · rfl

/-- A byte that is put at the end changes no other. -/
theorem getD_snoc_of_ne {l : Bytes} {j : ℕ} (b : UInt8) (h : j ≠ l.length) :
    (l ++ [b]).getD j 0 = l.getD j 0 := by
  by_cases hLt : j < l.length
  · simp [List.getD, List.getElem?_append_left hLt]
  · rw [List.getD_eq_default _ _ (by rw [List.length_append, List.length_singleton]; omega),
      List.getD_eq_default _ _ (Nat.le_of_not_lt hLt)]

theorem getD_snoc_self (l : Bytes) (b : UInt8) : (l ++ [b]).getD l.length 0 = b := by
  simp [List.getD]

/-- A cleared buffer holds the empty block. -/
theorem written_clearWBuffert (h : w.length = 80) : Written [] (clearWBuffert w) := by
  refine ⟨by rw [clearWBuffert, length_foldl_set, h], fun k hk => ?_⟩
  rw [clearWBuffert, getD_foldl_set _ (by rw [h]; decide), if_pos hk, Sha1.getD_words hk]
  simp only [List.getD_nil]
  rfl

/-- A byte behind those that are written. -/
theorem Written.orByte (h : Written block w) (b : UInt8) :
    Written (block ++ [b]) (orByte w block.length b) := by
  refine ⟨by rw [Sha1Calc.orByte, List.length_set, h.size], fun k hk => ?_⟩
  rw [Sha1Calc.orByte, Sha1.getD_words hk]
  by_cases hEq : k = block.length / 4
  · have hSet : ∀ v, (w.set (block.length / 4) v).getD k 0 = v := by
      intro v
      simp [List.getD, ← hEq, h.size, show k < 80 by omega]
    have hByte : ∀ i, (block ++ [b]).getD (4 * k + i) 0 =
        if 4 * k + i = block.length then b else block.getD (4 * k + i) 0 := by
      intro i
      split
      · next hLast => rw [hLast, getD_snoc_self]
      · next hNe => exact getD_snoc_of_ne b hNe
    have hAfter : ∀ i, block.length ≤ 4 * k + i → block.getD (4 * k + i) 0 = 0 :=
      fun i hLe => List.getD_eq_default _ _ hLe
    have hFirst := hByte 0
    have hFirst' := hAfter 0
    rw [Nat.add_zero] at hFirst hFirst'
    rw [hSet, ← hEq, h.same k hk, Sha1.getD_words hk, hFirst, hByte, hByte, hByte]
    -- the byte goes to the place in its word that its number says
    have hRest : block.length % 4 = 0 ∨ block.length % 4 = 1 ∨ block.length % 4 = 2 ∨
        block.length % 4 = 3 := by omega
    rcases hRest with hMod | hMod | hMod | hMod
    · rw [hMod, hFirst' (by omega), hAfter 1 (by omega), hAfter 2 (by omega), hAfter 3 (by omega),
        if_pos (by omega), if_neg (by omega), if_neg (by omega), if_neg (by omega)]
      exact (Sha1.word_or b 0 0 0).1
    · rw [hMod, hAfter 1 (by omega), hAfter 2 (by omega), hAfter 3 (by omega),
        if_neg (by omega), if_pos (by omega), if_neg (by omega), if_neg (by omega)]
      exact (Sha1.word_or _ b 0 0).2.1
    · rw [hMod, hAfter 2 (by omega), hAfter 3 (by omega),
        if_neg (by omega), if_neg (by omega), if_pos (by omega), if_neg (by omega)]
      exact (Sha1.word_or _ _ b 0).2.2.1
    · rw [hMod, hAfter 3 (by omega),
        if_neg (by omega), if_neg (by omega), if_neg (by omega), if_pos (by omega),
        show UInt32.ofNat ((3 - 3) * 8) = 0 from rfl, UInt32.shiftLeft_zero]
      exact (Sha1.word_or _ _ _ b).2.2.2
  · -- the other words stay
    have hOther : ∀ i, i < 4 → (block ++ [b]).getD (4 * k + i) 0 = block.getD (4 * k + i) 0 :=
      fun i hi => getD_snoc_of_ne b (by omega)
    rw [hOther 1 (by omega), hOther 2 (by omega), hOther 3 (by omega), ← Nat.add_zero (4 * k),
      hOther 0 (by omega)]
    simp only [Nat.add_zero]
    rw [← Sha1.getD_words hk, ← h.same k hk]
    simp [List.getD, List.getElem?_set_ne (Ne.symm hEq)]

/-- **The last bytes of a message**, and the bit behind them. -/
theorem written_lastBlock (m : Bytes) (h : w.length = 80) :
    Written (m.drop (m.length / 64 * 64) ++ [0x80]) (lastBlock m w) := by
  generalize hDrop : m.drop (m.length / 64 * 64) = rest
  have hBytes : ∀ n, n ≤ rest.length → Written (rest.take n)
      ((List.range n).foldl (fun w i => Sha1Calc.orByte w i (rest.getD i 0))
        (clearWBuffert w)) := by
    intro n hLe
    induction n with
    | zero => exact written_clearWBuffert h
    | succ n ih =>
      have hNext := (ih (by omega)).orByte (rest.getD n 0)
      have hTake : rest.take n ++ [rest.getD n 0] = rest.take (n + 1) := by
        rw [List.getD_eq_getElem _ _ hLe, List.take_append_getElem]
      have hLength : (rest.take n).length = n := by
        rw [List.length_take]
        omega
      rw [hTake, hLength] at hNext
      rw [List.range_succ, List.foldl_append]
      exact hNext
  have hAll := (hBytes rest.length (Nat.le_refl _)).orByte 0x80
  rw [List.take_length] at hAll
  rw [lastBlock, hDrop]
  exact hAll

/-- The length behind what is written. -/
theorem written_length (h : Written block w) (hLe : block.length ≤ 56) (hSmall : n < 2 ^ 32) :
    Written (block ++ (List.replicate (56 - block.length) 0 ++ Sha1.bytes64 n))
      (w.set 15 (UInt32.ofNat n)) := by
  -- the length stands in the last eight bytes
  have hLength : (block ++ List.replicate (56 - block.length) 0).length = 56 := by
    rw [List.length_append, List.length_replicate]
    omega
  have hFirst : ∀ j, j < 56 → (block ++ (List.replicate (56 - block.length) 0 ++
      Sha1.bytes64 n)).getD j 0 = block.getD j 0 := by
    intro j hj
    rw [← List.append_assoc, List.getD_append _ _ _ _ (by rw [hLength]; exact hj),
      getD_append_zeros]
  have hLast : ∀ i, i < 8 → (block ++ (List.replicate (56 - block.length) 0 ++
      Sha1.bytes64 n)).getD (56 + i) 0 = UInt8.ofNat (n / 256 ^ (7 - i)) := by
    intro i hi
    rw [← List.append_assoc, List.getD_append_right _ _ _ _ (by omega), hLength,
      Nat.add_sub_cancel_left, Sha1.getD_bytes64 n hi]
  refine ⟨by rw [List.length_set, h.size], fun k hk => ?_⟩
  rw [Sha1.getD_words hk]
  -- the code writes the low word, and leaves the high one at 0
  by_cases hSet : k = 15
  · subst hSet
    rw [hLast 4 (by decide), hLast 5 (by decide), hLast 6 (by decide), hLast 7 (by decide),
      Sha1.word_bytes]
    simp [List.getD, h.size]
  · have hOther : (w.set 15 (UInt32.ofNat n)).getD k 0 = w.getD k 0 := by
      simp [List.getD, List.getElem?_set_ne (Ne.symm hSet)]
    rw [hOther, h.same k hk, Sha1.getD_words hk]
    by_cases hZero : k = 14
    · subst hZero
      have hHigh : ∀ i, i < 4 → UInt8.ofNat (n / 256 ^ (7 - i)) = 0 := by
        intro i hi
        have hPow : 256 ^ 4 ≤ 256 ^ (7 - i) := Nat.pow_le_pow_right (by decide) (by omega)
        rw [Nat.div_eq_of_lt (Nat.lt_of_lt_of_le hSmall hPow)]
        rfl
      have hNone : ∀ i, block.getD (56 + i) 0 = 0 := fun i =>
        List.getD_eq_default _ _ (by omega)
      rw [hLast 0 (by decide), hLast 1 (by decide), hLast 2 (by decide), hLast 3 (by decide),
        hHigh 0 (by decide), hHigh 1 (by decide), hHigh 2 (by decide), hHigh 3 (by decide),
        hNone 0, hNone 1, hNone 2, hNone 3]
    · rw [hFirst _ (by omega), hFirst _ (by omega), hFirst _ (by omega), hFirst _ (by omega)]

/-- A block that is written is hashed. -/
theorem Written.innerHash (h : Written block w) (x : Words) :
    (innerHash x w).1.state = Sha1.hashBlock x.state block ∧ (innerHash x w).2.length = 80 := by
  obtain ⟨hState, hLength⟩ := innerHash_spec x h.size
  rw [hState, h.take]
  exact ⟨rfl, hLength⟩

/-- The bytes of the result are those of the state. -/
theorem map_hashByte (x : Words) : (List.range 20).map (hashByte x) = x.state.bytes := by
  simp [hashByte, List.range_succ, Sha1.State.bytes, Words.state]

/-- What `pad` puts behind the last bytes, in one block or in two. -/
theorem drop_pad (m : Bytes) :
    (Sha1.pad m).drop (64 * (m.length / 64)) = (m.drop (m.length / 64 * 64) ++ [0x80]) ++
      (List.replicate ((119 - m.length % 64) % 64) 0 ++ Sha1.bytes64 (8 * m.length)) := by
  rw [Sha1.pad, List.drop_append_of_le_length (by omega), Nat.mul_comm, List.append_assoc]
  rfl

/-- **`sha1::calc` is SHA-1**, for messages whose bits can be counted in 32 bits. -/
theorem sha1Calc_eq (m : Bytes) (h : 8 * m.length < 2 ^ 32) : sha1Calc m = Sha1.sha1 m := by
  have hPad := Sha1.length_pad m
  have hDrop := drop_pad m
  obtain ⟨hFull, hLength⟩ := fullBlocks_spec (m := m) (n := m.length / 64)
    (0x80 :: (List.replicate ((119 - m.length % 64) % 64) 0 ++ Sha1.bytes64 (8 * m.length)))
    (y := (⟨0x67452301, 0xefcdab89, 0x98badcfe, 0x10325476, 0xc3d2e1f0⟩, List.replicate 80 0))
    List.length_replicate (by omega)
  have hLast := written_lastBlock m hLength
  have hBlock : (m.drop (m.length / 64 * 64) ++ [0x80]).length = m.length % 64 + 1 := by
    rw [List.length_append, List.length_drop, List.length_singleton]
    omega
  rw [sha1Calc, fullBlocks]
  dsimp only
  rw [map_hashByte, Sha1.sha1, Nat.mul_comm m.length 8]
  generalize (List.range (m.length / 64)).foldl
    (fun y j => innerHash y.1 (fillBlock m (64 * j) y.2))
    (⟨0x67452301, 0xefcdab89, 0x98badcfe, 0x10325476, 0xc3d2e1f0⟩, List.replicate 80 0) = y
    at hFull hLength hLast ⊢
  generalize m.drop (m.length / 64 * 64) ++ [0x80] = block at hDrop hLast hBlock
  refine congrArg Sha1.State.bytes ?_
  by_cases hTwo : 56 ≤ m.length % 64
  · -- the bit is in one block, and the length in the next one
    have hZeros : (119 - m.length % 64) % 64 = 64 - block.length + 56 := by omega
    have hBlocks : (Sha1.pad m).length / 64 = m.length / 64 + 2 := by omega
    have hFilled : (block ++ List.replicate (64 - block.length) (0 : UInt8)).length = 64 := by
      rw [List.length_append, List.length_replicate]
      omega
    have hSecond : (List.replicate 56 (0 : UInt8) ++ Sha1.bytes64 (8 * m.length)).length = 64 := by
      rw [List.length_append, List.length_replicate, Sha1.length_bytes64]
    obtain ⟨hInner, hLength'⟩ := hLast.innerHash y.1
    have hWritten := written_length (written_clearWBuffert hLength') (by decide) h
    rw [if_pos hTwo, hBlocks, Sha1.foldBlocks_append, hDrop, hZeros, List.replicate_add,
      List.append_assoc, ← List.append_assoc block]
    dsimp only
    rw [(hWritten.innerHash _).1, hInner, hFull, Sha1.foldBlocks, Sha1.foldBlocks,
      List.take_left' hFilled, List.drop_left' hFilled, Sha1.foldBlocks,
      List.take_of_length_le (Nat.le_of_eq hSecond)]
    have hZeros' : ∀ s, Sha1.hashBlock s (block ++ List.replicate (64 - block.length) 0) =
        Sha1.hashBlock s block := fun s =>
      congrArg (Sha1.compress s) (Sha1.words_congr fun j _ => getD_append_zeros block _ j)
    rw [hZeros']
    rfl
  · have hZeros : (119 - m.length % 64) % 64 = 56 - block.length := by omega
    have hBlocks : (Sha1.pad m).length / 64 = m.length / 64 + 1 := by omega
    have hWritten := written_length hLast (by omega) h
    have hWhole : (block ++ (List.replicate (56 - block.length) 0 ++
        Sha1.bytes64 (8 * m.length))).length = 64 := by
      rw [List.length_append, List.length_append, List.length_replicate, Sha1.length_bytes64]
      omega
    rw [if_neg hTwo, hBlocks, Sha1.foldBlocks_append, hDrop, hZeros]
    dsimp only
    rw [(hWritten.innerHash y.1).1, hFull, Sha1.foldBlocks, Sha1.foldBlocks,
      List.take_of_length_le (Nat.le_of_eq hWhole)]
    rfl

/-- The hash of `abc`. -/
theorem sha1Calc_eq_abc : sha1Calc (ascii "abc") = Sha1.sha1 (ascii "abc") :=
  sha1Calc_eq (ascii "abc") (by decide)

end

end PushStreamer.Http.Sha1Calc
