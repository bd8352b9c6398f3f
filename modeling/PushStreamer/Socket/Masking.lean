import PushStreamer.Socket.FrameHeader

/-!
# Masking

The functions of `frame.hpp` that mask a payload: byte by byte, and word by word
with a key that is turned between the pieces of a payload. A word has eight
bytes.

* `mask_append`, `mask_mask` — what masking is.
* `byteMask_eq`, `wordMaskExact_eq` — a whole payload.
* `byteMaskCirc_eq`, `wordMaskCirc_eq` — a payload piece by piece.
-/

namespace PushStreamer.Wire

open Endpoint (Bytes)
open Words

-- ---------------------------------------------------------------------------
-- The functions
-- ---------------------------------------------------------------------------

/-- `prepare_masking_key`: the four bytes of the key, twice. -/
def prepareMaskingKey (key : Bytes) : ℕ :=
  let low_bits := ofBytes key
  let high_bits := ofBytes key
  high_bits <<< 32 % 2 ^ 64 ||| low_bits

def circshiftPreparedKey (prepared_key offset : ℕ) : ℕ :=
  if offset = 0 then prepared_key
  else
    let temp := prepared_key <<< ((8 - offset) * 8) % 2 ^ 64
    prepared_key >>> (offset * 8) ||| temp

/-- The loop of `byte_mask`. -/
def byteMaskFrom (key : Bytes) : ℕ → Bytes → Bytes
  | _, [] => []
  | key_index, b :: rest =>
    (b ^^^ key.getD key_index 0) :: byteMaskFrom key ((key_index + 1) % 4) rest

def byteMask (data key : Bytes) (key_offset : ℕ) : Bytes := byteMaskFrom key (key_offset % 4) data

/-- The loop over whole words. -/
def maskWords (prepared_key : ℕ) : ℕ → Bytes → Bytes
  | 0, _ => []
  | n + 1, input =>
    toBytes 8 (ofBytes (input.take 8) ^^^ prepared_key) ++ maskWords prepared_key n (input.drop 8)

def wordMaskExact (input key : Bytes) : Bytes :=
  let n := input.length / 8
  maskWords (prepareMaskingKey key) n input ++
    (input.drop (n * 8)).mapIdx fun i b => b ^^^ key.getD ((n * 8 + i) % 4) 0

/-- `word_mask_circ`: the output, and the key for the next piece. -/
def wordMaskCirc (input : Bytes) (prepared_key : ℕ) : Bytes × ℕ :=
  let n := input.length / 8
  let l := input.length - n * 8
  let byte_key := toBytes 8 prepared_key
  (maskWords prepared_key n input ++
      (input.drop (n * 8)).mapIdx fun i b => b ^^^ byte_key.getD i 0,
    circshiftPreparedKey prepared_key l)

/-- `byte_mask_circ`: the output, and the key for the next piece. -/
def byteMaskCirc (input : Bytes) (prepared_key : ℕ) : Bytes × ℕ :=
  -- `key.i` has 32 bits
  let key := toBytes 4 (prepared_key % 2 ^ 32)
  (input.mapIdx fun i b => b ^^^ key.getD (i % 4) 0,
    circshiftPreparedKey prepared_key (input.length % 4))

-- ---------------------------------------------------------------------------
-- Masking
-- ---------------------------------------------------------------------------

/-- A payload masked with a key, from the byte of the key at `offset` on. -/
def mask (key : Bytes) (offset : ℕ) (data : Bytes) : Bytes :=
  data.mapIdx fun i b => b ^^^ key.getD ((offset + i) % 4) 0

section

variable {key : Bytes} {offset : ℕ} {data : Bytes}

@[simp] theorem mask_nil (key : Bytes) (offset : ℕ) : mask key offset [] = [] := rfl

/-- One byte is masked with the byte of the key for its place. -/
theorem mask_cons (key : Bytes) (offset : ℕ) (b : UInt8) (data : Bytes) :
    mask key offset (b :: data) =
      (b ^^^ key.getD (offset % 4) 0) :: mask key (offset + 1) data := by
  rw [mask, List.mapIdx_cons, mask]
  simp only [Nat.add_zero, Nat.add_assoc, Nat.add_comm 1]

@[simp] theorem length_mask (key : Bytes) (offset : ℕ) (data : Bytes) :
    (mask key offset data).length = data.length := List.length_mapIdx

/-- A payload may be masked in pieces. -/
theorem mask_append (key : Bytes) (offset : ℕ) (data rest : Bytes) :
    mask key offset (data ++ rest) =
      mask key offset data ++ mask key (offset + data.length) rest := by
  rw [mask, mask, mask, List.mapIdx_append]
  simp only [Nat.add_assoc, Nat.add_comm data.length]

/-- Masking twice gives the payload back. -/
@[simp] theorem mask_mask (key : Bytes) (offset : ℕ) (data : Bytes) :
    mask key offset (mask key offset data) = data := by
  induction data generalizing offset with
  | nil => rfl
  | cons b data ih =>
    rw [mask_cons, mask_cons, ih, UInt8.xor_assoc, UInt8.xor_self, UInt8.xor_zero]

/-- The key repeats after four bytes. -/
theorem mask_mod (key : Bytes) (offset : ℕ) (data : Bytes) :
    mask key (offset % 4) data = mask key offset data := by
  simp only [mask, Nat.mod_add_mod]

/-- The key of frames that are not masked. -/
theorem mask_zero (offset : ℕ) (data : Bytes) : mask (toBytes 4 0) offset data = data := by
  induction data generalizing offset with
  | nil => rfl
  | cons b data ih =>
    have hZero : ∀ i < 4, (toBytes 4 0).getD i 0 = 0 := by decide
    rw [mask_cons, ih, hZero _ (Nat.mod_lt _ (by decide)), UInt8.xor_zero]

/-- **`byte_mask`.** -/
theorem byteMask_eq (data key : Bytes) (key_offset : ℕ) :
    byteMask data key key_offset = mask key key_offset data := by
  unfold byteMask
  induction data generalizing key_offset with
  | nil => rfl
  | cons b data ih =>
    rw [byteMaskFrom, mask_cons, Nat.mod_add_mod, ih]

-- ---------------------------------------------------------------------------
-- The prepared key
-- ---------------------------------------------------------------------------

/-- The prepared key for what follows the first `offset` bytes of a payload. -/
def prepared (key : Bytes) (offset : ℕ) : ℕ := ofBytes ((key ++ key).rotate offset)

theorem length_key_key (hKey : key.length = 4) (n : ℕ) : ((key ++ key).rotate n).length = 8 := by
  rw [List.length_rotate, List.length_append, hKey]

/-- The prepared key has the key twice. -/
theorem prepareMaskingKey_eq (hKey : key.length = 4) : prepareMaskingKey key = prepared key 0 := by
  have hLt : ofBytes key < 2 ^ 32 := by
    have h := ofBytes_lt key
    rwa [hKey] at h
  have hPow : 256 ^ key.length = 2 ^ 32 := by rw [hKey]; rfl
  rw [prepareMaskingKey, prepared, List.rotate_zero, ofBytes_append, hPow,
    Nat.mod_eq_of_lt (by rw [Nat.shiftLeft_eq]; omega), ← Nat.shiftLeft_add_eq_or_of_lt hLt,
    Nat.shiftLeft_eq]
  omega

/-- Turning the prepared key. -/
theorem circshift_prepared (hKey : key.length = 4) (offset : ℕ) {n : ℕ} (h : n < 8) :
    circshiftPreparedKey (prepared key offset) n = prepared key (offset + n) := by
  have hLength := length_key_key hKey offset
  unfold circshiftPreparedKey
  split
  next hZero => rw [hZero, Nat.add_zero]
  · have hRotate := ofBytes_rotate (k := n) (l := (key ++ key).rotate offset) (by omega)
    rw [hLength, List.rotate_rotate] at hRotate
    exact hRotate

/-- The key begins again after four bytes. -/
theorem prepared_mod (hKey : key.length = 4) (offset n : ℕ) :
    prepared key (offset + n % 4) = prepared key (offset + n) := by
  have hFour : (key ++ key).rotate 4 = key ++ key := by
    rw [List.rotate_eq_drop_append_take (by rw [List.length_append]; omega), List.drop_left' hKey,
      List.take_left' hKey]
  have hTimes : ∀ m, (key ++ key).rotate (4 * m) = key ++ key := by
    intro m
    induction m with
    | zero => exact List.rotate_zero _
    | succ m ih => rw [Nat.mul_succ, ← List.rotate_rotate, ih, hFour]
  have hSplit : offset + n = 4 * (n / 4) + (offset + n % 4) := by omega
  rw [prepared, prepared, hSplit, ← List.rotate_rotate _ (4 * (n / 4)), hTimes]

/-- The bytes of the prepared key are those of the key, over and over. -/
theorem getElem?_prepared (hKey : key.length = 4) (offset : ℕ) {i : ℕ} (h : i < 8) :
    ((key ++ key).rotate offset)[i]? = key[(offset + i) % 4]? := by
  have hLength : (key ++ key).length = 8 := by rw [List.length_append, hKey]
  rw [List.getElem?_rotate (by omega), hLength, Nat.add_comm i offset]
  rcases Nat.lt_or_ge ((offset + i) % 8) 4 with hLt | hGe
  · rw [List.getElem?_append_left (by omega)]
    congr 1
    omega
  · rw [List.getElem?_append_right (by omega), hKey]
    congr 1
    omega

/-- The prepared key turns with the place. -/
theorem toBytes_prepared (hKey : key.length = 4) (offset : ℕ) {n : ℕ} (h : n ≤ 8) :
    toBytes n (prepared key offset) = ((key ++ key).rotate offset).take n :=
  toBytes_ofBytes_take (by rw [length_key_key hKey]; exact h)

/-- The bytes of a piece that is masked with the bytes of the prepared key. -/
theorem getD_prepared (hKey : key.length = 4) (offset : ℕ) {n i : ℕ} (hn : n ≤ 8) (hi : i < n) :
    (toBytes n (prepared key offset)).getD i 0 = key.getD ((offset + i) % 4) 0 := by
  rw [toBytes_prepared hKey offset hn, List.getD_eq_getElem?_getD, List.getElem?_take_of_lt hi,
    getElem?_prepared hKey offset (by omega), List.getD_eq_getElem?_getD]

/-- The prepared key of frames that are not masked. -/
theorem prepared_zero (offset : ℕ) : prepared (toBytes 4 0) offset = 0 := by
  have hZeros : toBytes 4 0 ++ toBytes 4 0 = List.replicate 8 0 := rfl
  rw [prepared, hZeros, List.rotate_replicate, ofBytes_replicate_zero]

/-- **`byte_mask_circ`** masks the next piece, and returns the key for the one after
it. -/
theorem byteMaskCirc_eq (hKey : key.length = 4) (offset : ℕ) (data : Bytes) :
    byteMaskCirc data (prepared key offset) =
      (mask key offset data, prepared key (offset + data.length)) := by
  have hWord : toBytes 4 (prepared key offset % 2 ^ 32) = toBytes 4 (prepared key offset) := by
    have hLow := ofBytes_toBytes_mod 4 (prepared key offset)
    have hPow : (256 : ℕ) ^ 4 = 2 ^ 32 := rfl
    rw [hPow] at hLow
    have hLength : (toBytes 4 (prepared key offset)).length = 4 := length_toBytes _ _
    have hBack := toBytes_ofBytes (toBytes 4 (prepared key offset))
    rwa [hLength, hLow] at hBack
  have hMask : (data.mapIdx fun i b => b ^^^ (toBytes 4 (prepared key offset)).getD (i % 4) 0) =
      mask key offset data := by
    unfold mask
    congr 1
    funext i b
    rw [getD_prepared hKey offset (by decide) (Nat.mod_lt i (by decide)), Nat.add_mod_mod]
  have hNext : circshiftPreparedKey (prepared key offset) (data.length % 4) =
      prepared key (offset + data.length) := by
    rw [circshift_prepared hKey offset (by omega), prepared_mod hKey]
  rw [byteMaskCirc, hWord, hMask, hNext]

-- ---------------------------------------------------------------------------
-- Word by word
-- ---------------------------------------------------------------------------

/-- A word is masked as its bytes are. -/
theorem maskWord_eq (hKey : key.length = 4) (offset : ℕ) (hData : data.length = 8) :
    toBytes 8 (ofBytes data ^^^ prepared key offset) = mask key offset data := by
  have hLength : data.length = ((key ++ key).rotate offset).length := by
    rw [length_key_key hKey, hData]
  have hZip : List.zipWith (· ^^^ ·) data ((key ++ key).rotate offset) = mask key offset data := by
    apply List.ext_getElem?
    intro i
    rw [mask, List.getElem?_mapIdx, List.getElem?_zipWith]
    rcases Nat.lt_or_ge i 8 with hi | hi
    · rw [getElem?_prepared hKey offset hi, List.getD_eq_getElem?_getD,
        List.getElem?_eq_getElem (by omega : i < data.length),
        List.getElem?_eq_getElem (by omega : (offset + i) % 4 < key.length)]
      rfl
    · rw [List.getElem?_eq_none (by omega : data.length ≤ i)]
      rfl
  have hEight : (mask key offset data).length = 8 := by rw [length_mask, hData]
  have hBack := toBytes_ofBytes (mask key offset data)
  rwa [hEight, ← hZip, ofBytes_xor hLength, hZip] at hBack

/-- Masking by words is masking by bytes. -/
theorem maskWords_eq (hKey : key.length = 4) (offset : ℕ) {n : ℕ} (h : n * 8 ≤ data.length) :
    maskWords (prepared key offset) n data = mask key offset (data.take (n * 8)) := by
  induction n generalizing data with
  | zero => rw [Nat.zero_mul]; rfl
  | succ n ih =>
    have hTake : (data.take 8).length = 8 := List.length_take_of_le (by omega)
    have hDrop : n * 8 ≤ (data.drop 8).length := by
      rw [List.length_drop]
      omega
    have hSplit : data.take ((n + 1) * 8) = data.take 8 ++ (data.drop 8).take (n * 8) := by
      rw [Nat.succ_mul, Nat.add_comm, List.take_add]
    have hMod : (offset + 8) % 4 = offset % 4 := by omega
    rw [maskWords, maskWord_eq hKey offset hTake, ih hDrop, hSplit, mask_append, hTake,
      ← mask_mod key (offset + 8), hMod, mask_mod]

/-- **`word_mask_exact`** masks a whole payload. -/
theorem wordMaskExact_eq (hKey : key.length = 4) (data : Bytes) :
    wordMaskExact data key = mask key 0 data := by
  have hWords : data.length / 8 * 8 ≤ data.length := Nat.div_mul_le_self _ _
  have hLength : (data.take (data.length / 8 * 8)).length = data.length / 8 * 8 :=
    List.length_take_of_le hWords
  have hRest : ((data.drop (data.length / 8 * 8)).mapIdx
      fun i b => b ^^^ key.getD ((data.length / 8 * 8 + i) % 4) 0) =
      mask key (0 + data.length / 8 * 8) (data.drop (data.length / 8 * 8)) := by
    rw [Nat.zero_add, mask]
  have hAppend := mask_append key 0 (data.take (data.length / 8 * 8))
    (data.drop (data.length / 8 * 8))
  rw [hLength, List.take_append_drop] at hAppend
  rw [wordMaskExact, prepareMaskingKey_eq hKey, maskWords_eq hKey 0 hWords, hRest, ← hAppend]

/-- **`word_mask_circ`** does what `byte_mask_circ` does. -/
theorem wordMaskCirc_eq (hKey : key.length = 4) (offset : ℕ) (data : Bytes) :
    wordMaskCirc data (prepared key offset) = byteMaskCirc data (prepared key offset) := by
  have hWords : data.length / 8 * 8 ≤ data.length := Nat.div_mul_le_self _ _
  have hLength : (data.take (data.length / 8 * 8)).length = data.length / 8 * 8 :=
    List.length_take_of_le hWords
  have hDrop : (data.drop (data.length / 8 * 8)).length < 8 := by
    rw [List.length_drop]
    omega
  have hRest : ((data.drop (data.length / 8 * 8)).mapIdx
      fun i b => b ^^^ (toBytes 8 (prepared key offset)).getD i 0) =
      mask key (offset + data.length / 8 * 8) (data.drop (data.length / 8 * 8)) := by
    apply List.ext_getElem?
    intro i
    rw [mask, List.getElem?_mapIdx, List.getElem?_mapIdx]
    rcases Nat.lt_or_ge i 8 with hi | hi
    · rw [getD_prepared hKey offset (by decide) hi]
      have hMod : (offset + data.length / 8 * 8 + i) % 4 = (offset + i) % 4 := by omega
      rw [hMod]
    · rw [List.getElem?_eq_none (by omega)]
      rfl
  have hNext : circshiftPreparedKey (prepared key offset) (data.length - data.length / 8 * 8) =
      prepared key (offset + data.length) := by
    rw [circshift_prepared hKey offset (by omega), ← prepared_mod hKey,
      ← prepared_mod hKey offset data.length]
    congr 2
    omega
  have hAppend := mask_append key offset (data.take (data.length / 8 * 8))
    (data.drop (data.length / 8 * 8))
  rw [hLength, List.take_append_drop] at hAppend
  rw [byteMaskCirc_eq hKey, wordMaskCirc, maskWords_eq hKey offset hWords, hRest, hNext, ← hAppend]

end

/-- A payload that is masked piece by piece. -/
def maskPieces (f : Bytes → ℕ → Bytes × ℕ) : ℕ → List Bytes → Bytes
  | _, [] => []
  | prepared_key, piece :: pieces =>
    let r := f piece prepared_key
    r.1 ++ maskPieces f r.2 pieces

/-- A key that turns masks the pieces as one. -/
theorem maskPieces_byteMaskCirc {key : Bytes} (hKey : key.length = 4) (offset : ℕ)
    (pieces : List Bytes) :
    maskPieces byteMaskCirc (prepared key offset) pieces = mask key offset pieces.flatten := by
  induction pieces generalizing offset with
  | nil => rfl
  | cons piece pieces ih =>
    rw [maskPieces, byteMaskCirc_eq hKey, List.flatten_cons, mask_append]
    dsimp only
    rw [ih]

/-- Masking pieces by words is masking them by bytes. -/
theorem maskPieces_wordMaskCirc {key : Bytes} (hKey : key.length = 4) (offset : ℕ)
    (pieces : List Bytes) : maskPieces wordMaskCirc (prepared key offset) pieces =
      maskPieces byteMaskCirc (prepared key offset) pieces := by
  induction pieces generalizing offset with
  | nil => rfl
  | cons piece pieces ih =>
    rw [maskPieces, maskPieces, wordMaskCirc_eq hKey, byteMaskCirc_eq hKey]
    dsimp only
    rw [ih]

/-- **The four maskings agree**: the one for a whole payload and those that carry a
prepared key over its pieces, byte by byte and word by word. -/
theorem masks_agree {key : Bytes} (hKey : key.length = 4) (pieces : List Bytes) :
    maskPieces byteMaskCirc (prepareMaskingKey key) pieces = byteMask pieces.flatten key 0 ∧
      maskPieces wordMaskCirc (prepareMaskingKey key) pieces = byteMask pieces.flatten key 0 ∧
      wordMaskExact pieces.flatten key = byteMask pieces.flatten key 0 := by
  rw [prepareMaskingKey_eq hKey, maskPieces_wordMaskCirc hKey, maskPieces_byteMaskCirc hKey,
    byteMask_eq, wordMaskExact_eq hKey]
  exact ⟨rfl, rfl, rfl⟩

theorem masks_agree_pieces :
    maskPieces byteMaskCirc (prepareMaskingKey [1, 2, 3, 4]) [[5, 6, 7], [8, 9]] =
        byteMask [[5, 6, 7], [8, 9]].flatten [1, 2, 3, 4] 0 ∧
      maskPieces wordMaskCirc (prepareMaskingKey [1, 2, 3, 4]) [[5, 6, 7], [8, 9]] =
        byteMask [[5, 6, 7], [8, 9]].flatten [1, 2, 3, 4] 0 ∧
      wordMaskExact [[5, 6, 7], [8, 9]].flatten [1, 2, 3, 4] =
        byteMask [[5, 6, 7], [8, 9]].flatten [1, 2, 3, 4] 0 :=
  masks_agree rfl _

end PushStreamer.Wire
