import PushStreamer.Lib.Words
import PushStreamer.Socket.Endpoint

/-!
# The header of a frame

`frame.hpp`: the two bytes that every frame begins with, and the up to twelve
bytes of payload size and masking key after them. The machine is little-endian.

* `payloadSize_new`, `maskingKey_new` — what is written into a header is read
  back from it.
* `eq_new`, `wire_eq` — the other way: a header whose size is minimally encoded
  is the one that is written for its fields.
-/

namespace PushStreamer.Wire

open Endpoint (Bytes Opcode)
open Words

-- ---------------------------------------------------------------------------
-- Opcodes and limits
-- ---------------------------------------------------------------------------

def opContinuation : Opcode := ⟨0, by decide⟩
def opBinary : Opcode := ⟨2, by decide⟩
def opClose : Opcode := ⟨8, by decide⟩

/-- `opcode::reserved`. -/
def reserved (v : Opcode) : Bool := 3 ≤ v.val ∧ v.val ≤ 7 ∨ 0xB ≤ v.val ∧ v.val ≤ 0xF

def basicHeaderLength : ℕ := 2
def maxExtendedHeaderLength : ℕ := 12

/-- `limits::payload_size_basic`. -/
def payloadSizeBasic : ℕ := 125
/-- `limits::payload_size_extended`. -/
def payloadSizeExtended : ℕ := 0xFFFF

def payloadSizeCode16bit : UInt8 := 0x7E
def payloadSizeCode64bit : UInt8 := 0x7F

-- ---------------------------------------------------------------------------
-- The two parts of a header
-- ---------------------------------------------------------------------------

structure BasicHeader where
  b0 : UInt8
  b1 : UInt8
deriving DecidableEq

namespace BasicHeader

/-- The size field of a payload of this size. -/
def basicValue (size : ℕ) : UInt8 :=
  if size ≤ payloadSizeBasic then UInt8.ofNat size
  else if size ≤ payloadSizeExtended then payloadSizeCode16bit
  else payloadSizeCode64bit

/-- `basic_header(op, size, fin, mask, rsv1, rsv2, rsv3)`. -/
def new (op : Opcode) (size : ℕ) (fin mask rsv1 rsv2 rsv3 : Bool) : BasicHeader where
  b0 := (if fin then 0x80 else 0) ||| (if rsv1 then 0x40 else 0) ||| (if rsv2 then 0x20 else 0) |||
    (if rsv3 then 0x10 else 0) ||| (UInt8.ofNat op.val &&& 0x0F)
  b1 := (if mask then 0x80 else 0) ||| basicValue size

def getFin (h : BasicHeader) : Bool := h.b0 &&& 0x80 = 0x80
def getRsv1 (h : BasicHeader) : Bool := h.b0 &&& 0x40 = 0x40
def getRsv2 (h : BasicHeader) : Bool := h.b0 &&& 0x20 = 0x20
def getRsv3 (h : BasicHeader) : Bool := h.b0 &&& 0x10 = 0x10

def getOpcode (h : BasicHeader) : Opcode :=
  ⟨(h.b0 &&& 0x0F).toNat, Nat.lt_succ_of_le (Nat.and_le_right (m := 0x0F))⟩

def getMasked (h : BasicHeader) : Bool := h.b1 &&& 0x80 = 0x80

def getBasicSize (h : BasicHeader) : UInt8 := h.b1 &&& 0x7F

def getMaskingKeyOffset (h : BasicHeader) : ℕ :=
  if h.getBasicSize = payloadSizeCode16bit then 2
  else if h.getBasicSize = payloadSizeCode64bit then 8
  else 0

def getHeaderLen (h : BasicHeader) : ℕ :=
  basicHeaderLength + h.getMaskingKeyOffset + if h.getMasked then 4 else 0

end BasicHeader

/-- `_htonll`, and `_ntohll`. -/
def htonll (src : ℕ) : ℕ := swap 8 src

def ntohs (netshort : ℕ) : ℕ := swap 2 netshort

structure ExtendedHeader where
  bytes : Bytes
deriving DecidableEq

namespace ExtendedHeader

/-- `extended_header()`. -/
def empty : ExtendedHeader where
  bytes := List.replicate maxExtendedHeaderLength 0

/-- `std::copy` of `l` to `bytes + offset`. -/
def write (e : ExtendedHeader) (offset : ℕ) (l : Bytes) : ExtendedHeader where
  bytes := e.bytes.take offset ++ l ++ e.bytes.drop (offset + l.length)

/-- `copy_payload`; the size field begins after `payload_offset` bytes. -/
def payloadOffset (payload_size : ℕ) : ℕ :=
  if payload_size ≤ payloadSizeBasic then 8
  else if payload_size ≤ payloadSizeExtended then 6
  else 0

/-- The bytes that `copy_payload` copies. -/
def payloadField (payload_size : ℕ) : Bytes :=
  (toBytes 8 (htonll payload_size)).drop (payloadOffset payload_size)

/-- `extended_header(payload_size)`, and with a masking key. -/
def new (payload_size : ℕ) (masking_key : Option ℕ) : ExtendedHeader :=
  let e := empty.write 0 (payloadField payload_size)
  match masking_key with
  | none => e
  | some key => e.write (8 - payloadOffset payload_size) (toBytes 4 key)

def getExtendedSize (e : ExtendedHeader) : ℕ := ntohs (ofBytes (e.bytes.take 2))

def getJumboSize (e : ExtendedHeader) : ℕ := htonll (ofBytes (e.bytes.take 8))

end ExtendedHeader

open BasicHeader ExtendedHeader

/-- `prepare_header`. -/
def prepareHeader (h : BasicHeader) (e : ExtendedHeader) : Bytes :=
  h.b0 :: h.b1 :: e.bytes.take (h.getHeaderLen - basicHeaderLength)

/-- The bytes of `masking_key_type`. -/
def getMaskingKey (h : BasicHeader) (e : ExtendedHeader) : Bytes :=
  if !h.getMasked then toBytes 4 0
  else (e.bytes.drop h.getMaskingKeyOffset).take 4

def getPayloadSize (h : BasicHeader) (e : ExtendedHeader) : ℕ :=
  let val := h.getBasicSize
  if val.toNat ≤ payloadSizeBasic then val.toNat
  else if val = payloadSizeCode16bit then e.getExtendedSize
  else e.getJumboSize

-- ---------------------------------------------------------------------------
-- The bits of the first two bytes
-- ---------------------------------------------------------------------------

section

variable {op : Opcode} {size : ℕ} {fin mask rsv1 rsv2 rsv3 : Bool}

/-- The fields of the first byte are where its accessors look for them. -/
theorem bits_b0 : ∀ (op : Opcode) (fin rsv1 rsv2 rsv3 : Bool),
    let h := BasicHeader.new op 0 fin false rsv1 rsv2 rsv3
    h.getOpcode = op ∧ h.getFin = fin ∧ h.getRsv1 = rsv1 ∧ h.getRsv2 = rsv2 ∧
      h.getRsv3 = rsv3 := by
  decide +kernel

/-- The fields of the second byte are where its accessors look for them. -/
theorem bits_b1 : ∀ (v : Fin 128) (mask : Bool),
    let b1 := (if mask then 0x80 else 0) ||| UInt8.ofNat v.val
    (decide (b1 &&& 0x80 = 0x80) = mask) ∧ b1 &&& 0x7F = UInt8.ofNat v.val := by
  decide +kernel

/-- The short length takes seven bits. -/
theorem basicValue_eq (size : ℕ) : ∃ v : Fin 128, basicValue size = UInt8.ofNat v.val := by
  unfold basicValue payloadSizeBasic
  split
  next h => exact ⟨⟨size, by omega⟩, rfl⟩
  split
  · exact ⟨126, rfl⟩
  · exact ⟨127, rfl⟩

@[simp] theorem getOpcode_new : (BasicHeader.new op size fin mask rsv1 rsv2 rsv3).getOpcode = op :=
  (bits_b0 op fin rsv1 rsv2 rsv3).1

@[simp] theorem getFin_new : (BasicHeader.new op size fin mask rsv1 rsv2 rsv3).getFin = fin :=
  (bits_b0 op fin rsv1 rsv2 rsv3).2.1

@[simp] theorem getRsv1_new : (BasicHeader.new op size fin mask rsv1 rsv2 rsv3).getRsv1 = rsv1 :=
  (bits_b0 op fin rsv1 rsv2 rsv3).2.2.1

@[simp] theorem getRsv2_new : (BasicHeader.new op size fin mask rsv1 rsv2 rsv3).getRsv2 = rsv2 :=
  (bits_b0 op fin rsv1 rsv2 rsv3).2.2.2.1

@[simp] theorem getRsv3_new : (BasicHeader.new op size fin mask rsv1 rsv2 rsv3).getRsv3 = rsv3 :=
  (bits_b0 op fin rsv1 rsv2 rsv3).2.2.2.2

@[simp] theorem getMasked_new :
    (BasicHeader.new op size fin mask rsv1 rsv2 rsv3).getMasked = mask := by
  obtain ⟨v, hv⟩ := basicValue_eq size
  have h := (bits_b1 v mask).1
  rwa [← hv] at h

@[simp] theorem getBasicSize_new :
    (BasicHeader.new op size fin mask rsv1 rsv2 rsv3).getBasicSize = basicValue size := by
  obtain ⟨v, hv⟩ := basicValue_eq size
  have h := (bits_b1 v mask).2
  rwa [← hv] at h

/-- Every first byte is the one that is written for its fields. -/
theorem b0_eq : ∀ b0 : Fin 256,
    let h : BasicHeader := ⟨UInt8.ofNat b0.val, 0⟩
    UInt8.ofNat b0.val = (BasicHeader.new h.getOpcode 0 h.getFin false h.getRsv1 h.getRsv2
      h.getRsv3).b0 := by
  decide +kernel

/-- Every second byte is the one that is written for its fields. -/
theorem b1_eq : ∀ b1 : Fin 256,
    let h : BasicHeader := ⟨0, UInt8.ofNat b1.val⟩
    UInt8.ofNat b1.val = (if h.getMasked then 0x80 else 0) ||| h.getBasicSize := by
  decide +kernel

/-- A header is the one that is written for its fields. -/
theorem eq_new (h : BasicHeader) (hSize : h.getBasicSize = basicValue size) :
    h = .new h.getOpcode size h.getFin h.getMasked h.getRsv1 h.getRsv2 h.getRsv3 := by
  obtain ⟨b0, b1⟩ := h
  have h0 := b0_eq ⟨b0.toNat, b0.toNat_lt⟩
  have h1 := b1_eq ⟨b1.toNat, b1.toNat_lt⟩
  rw [UInt8.ofNat_toNat] at h0 h1
  have hLeft : b0 = (BasicHeader.new (BasicHeader.getOpcode ⟨b0, b1⟩) size
      (BasicHeader.getFin ⟨b0, b1⟩) (BasicHeader.getMasked ⟨b0, b1⟩) (BasicHeader.getRsv1 ⟨b0, b1⟩)
      (BasicHeader.getRsv2 ⟨b0, b1⟩) (BasicHeader.getRsv3 ⟨b0, b1⟩)).b0 := h0
  have hRight : b1 = (if BasicHeader.getMasked ⟨b0, b1⟩ then 0x80 else 0) ||| basicValue size :=
    hSize ▸ h1
  exact congrArg₂ BasicHeader.mk hLeft hRight

end

-- ---------------------------------------------------------------------------
-- The bytes after them
-- ---------------------------------------------------------------------------

section

variable {e : ExtendedHeader} {k l : Bytes} {size offset : ℕ}

/-- A write inside of the extended header keeps its size. -/
theorem length_write (h : offset + l.length ≤ e.bytes.length) :
    (e.write offset l).bytes.length = e.bytes.length := by
  simp only [write, List.length_append, List.length_take, List.length_drop]
  omega

/-- Two pieces that are copied one after the other. -/
theorem write_write (h : offset + (k.length + l.length) ≤ e.bytes.length) :
    (e.write offset k).write (offset + k.length) l = e.write offset (k ++ l) := by
  have hTake : (e.bytes.take offset).length = offset := List.length_take_of_le (by omega)
  have hHead : (e.bytes.take offset ++ k).length = offset + k.length := by
    rw [List.length_append, hTake]
  simp only [write]
  congr 1
  rw [List.take_left' hHead, ← List.drop_drop, List.drop_left' hHead, List.drop_drop,
    List.length_append, List.append_assoc, List.append_assoc, List.append_assoc, Nat.add_assoc,
    List.append_assoc]

/-- What is written at the front is followed by zeros. -/
theorem bytes_write_empty (l : Bytes) :
    (empty.write 0 l).bytes = l ++ List.replicate (12 - l.length) 0 := by
  rw [write, empty, List.take_zero, List.nil_append, Nat.zero_add, List.drop_replicate]
  rfl

/-- What is written at the front can be read again. -/
theorem take_write_empty (l : Bytes) : (empty.write 0 l).bytes.take l.length = l := by
  rw [bytes_write_empty, List.take_left]

/-- The size field is the size in network byte order. -/
theorem payloadField_eq (size : ℕ) :
    payloadField size = (toBytes (8 - payloadOffset size) size).reverse := by
  rw [payloadField, htonll, toBytes_swap, List.drop_reverse, length_toBytes,
    take_toBytes _ (Nat.sub_le _ _)]

/-- The length of the payload begins in the first eight bytes. -/
theorem payloadOffset_le (size : ℕ) : payloadOffset size ≤ 8 := by
  unfold payloadOffset
  split
  · exact Nat.le_refl _
  · split <;> decide

@[simp] theorem length_payloadField (size : ℕ) :
    (payloadField size).length = 8 - payloadOffset size := by
  rw [payloadField_eq, List.length_reverse, length_toBytes]

/-- The bytes of a masking key that is written. -/
def keyField : Option ℕ → Bytes
  | none => []
  | some key => toBytes 4 key

/-- A key takes four bytes, if there is one. -/
theorem length_keyField (key : Option ℕ) : (keyField key).length = if key.isSome then 4 else 0 := by
  cases key with
  | none => rfl
  | some key => exact length_toBytes 4 key

/-- An extended header holds the size field, the key and zeros. -/
theorem new_eq (size : ℕ) (key : Option ℕ) :
    ExtendedHeader.new size key = empty.write 0 (payloadField size ++ keyField key) := by
  have hOffset := payloadOffset_le size
  have hLength := length_payloadField size
  cases key with
  | none => rw [keyField, List.append_nil]; rfl
  | some key =>
    have hFits : 0 + ((payloadField size).length + (toBytes 4 key).length) ≤
        empty.bytes.length := by
      rw [hLength, length_toBytes]
      show _ ≤ 12
      omega
    rw [keyField, ← write_write hFits, Nat.zero_add, hLength]
    rfl

-- ---------------------------------------------------------------------------
-- What is written is read
-- ---------------------------------------------------------------------------

variable {op : Opcode} {fin rsv1 rsv2 rsv3 : Bool} {key : Option ℕ}

/-- The cases of the size of a payload. -/
theorem basicValue_cases (size : ℕ) :
    size ≤ 125 ∧ basicValue size = UInt8.ofNat size ∧ payloadOffset size = 8 ∨
      125 < size ∧ size ≤ 65535 ∧ basicValue size = 0x7E ∧ payloadOffset size = 6 ∨
      65535 < size ∧ basicValue size = 0x7F ∧ payloadOffset size = 0 := by
  unfold basicValue payloadOffset payloadSizeBasic payloadSizeExtended
  by_cases h1 : size ≤ 125
  · exact .inl ⟨h1, if_pos h1, if_pos h1⟩
  rw [if_neg h1, if_neg h1]
  by_cases h2 : size ≤ 65535
  · exact .inr (.inl ⟨Nat.lt_of_not_le h1, h2, if_pos h2, if_pos h2⟩)
  · exact .inr (.inr ⟨Nat.lt_of_not_le h2, if_neg h2, if_neg h2⟩)

/-- A size that is written into the first two bytes is no code. -/
theorem ofNat_size (h : size ≤ 125) : (UInt8.ofNat size).toNat = size ∧
    UInt8.ofNat size ≠ payloadSizeCode16bit ∧ UInt8.ofNat size ≠ payloadSizeCode64bit := by
  have hByte : (UInt8.ofNat size).toNat = size := by
    rw [UInt8.toNat_ofNat']
    exact Nat.mod_eq_of_lt (by omega)
  have hNe : ∀ code : UInt8, 125 < code.toNat → UInt8.ofNat size ≠ code := by
    intro code hCode hEq
    rw [hEq] at hByte
    omega
  exact ⟨hByte, hNe _ (by decide), hNe _ (by decide)⟩

/-- The key follows the length of the payload. -/
theorem getMaskingKeyOffset_of_size {h : BasicHeader} (hSize : h.getBasicSize = basicValue size) :
    h.getMaskingKeyOffset = 8 - payloadOffset size := by
  unfold getMaskingKeyOffset
  rw [hSize]
  rcases basicValue_cases size with ⟨h1, hv, ho⟩ | ⟨-, -, hv, ho⟩ | ⟨-, hv, ho⟩
  · rw [hv, ho, if_neg (ofNat_size h1).2.1, if_neg (ofNat_size h1).2.2]
  · rw [hv, ho]; rfl
  · rw [hv, ho]; rfl

/-- The size of a header that is written. -/
theorem getHeaderLen_of_size {h : BasicHeader} (hSize : h.getBasicSize = basicValue size)
    (hMask : h.getMasked = key.isSome) :
    h.getHeaderLen = 2 + (payloadField size ++ keyField key).length := by
  unfold getHeaderLen
  rw [getMaskingKeyOffset_of_size hSize, hMask, List.length_append, length_payloadField,
    length_keyField, basicHeaderLength, Nat.add_assoc]

/-- The length in two bytes is read from the highest byte on. -/
theorem getExtendedSize_write {l r : Bytes} (h : l.length = 2) :
    (empty.write 0 (l ++ r)).getExtendedSize = ofBytes l.reverse := by
  rw [getExtendedSize, bytes_write_empty, List.append_assoc, List.take_left' h, ntohs, ← h,
    swap_ofBytes]

/-- The length in eight bytes is read from the highest byte on. -/
theorem getJumboSize_write {l r : Bytes} (h : l.length = 8) :
    (empty.write 0 (l ++ r)).getJumboSize = ofBytes l.reverse := by
  rw [getJumboSize, bytes_write_empty, List.append_assoc, List.take_left' h, htonll, ← h,
    swap_ofBytes]

/-- **The size** that is written is read back. -/
theorem payloadSize_new {h : BasicHeader} (hSize : h.getBasicSize = basicValue size)
    (hLt : size < 2 ^ 64) (r : Bytes) :
    getPayloadSize h (empty.write 0 (payloadField size ++ r)) = size := by
  have hField : ofBytes (payloadField size).reverse = size % 256 ^ (8 - payloadOffset size) := by
    rw [payloadField_eq, List.reverse_reverse, ofBytes_toBytes_mod]
  have hLength := length_payloadField size
  simp only [getPayloadSize]
  rw [hSize]
  rcases basicValue_cases size with ⟨h1, hv, ho⟩ | ⟨-, h2, hv, ho⟩ | ⟨-, hv, ho⟩
  · rw [hv, (ofNat_size h1).1]
    exact if_pos h1
  · rw [ho] at hField hLength
    rw [hv, if_neg (by decide), if_pos (by decide), getExtendedSize_write hLength, hField]
    exact Nat.mod_eq_of_lt (by omega)
  · rw [ho] at hField hLength
    rw [hv, if_neg (by decide), if_neg (by decide), getJumboSize_write hLength, hField]
    exact Nat.mod_eq_of_lt hLt

/-- **The masking key** that is written is read back. -/
theorem maskingKey_new {h : BasicHeader} (hSize : h.getBasicSize = basicValue size)
    (hMask : h.getMasked = key.isSome) :
    getMaskingKey h (empty.write 0 (payloadField size ++ keyField key)) =
      toBytes 4 (key.getD 0) := by
  unfold getMaskingKey
  cases key with
  | none => rw [hMask]; rfl
  | some key =>
    have hKey : (keyField (some key)).length = 4 := length_toBytes 4 key
    rw [hMask, getMaskingKeyOffset_of_size hSize, ← length_payloadField, bytes_write_empty,
      List.append_assoc, List.drop_left, List.take_left' hKey]
    rfl

/-- The bytes of a header on the wire. -/
theorem prepareHeader_new :
    prepareHeader (.new op size fin key.isSome rsv1 rsv2 rsv3) (.new size key) =
      (BasicHeader.new op size fin key.isSome rsv1 rsv2 rsv3).b0 ::
        (BasicHeader.new op size fin key.isSome rsv1 rsv2 rsv3).b1 ::
        (payloadField size ++ keyField key) := by
  rw [prepareHeader, getHeaderLen_of_size getBasicSize_new getMasked_new, new_eq,
    basicHeaderLength, Nat.add_sub_cancel_left, take_write_empty]

-- ---------------------------------------------------------------------------
-- What is read was written
-- ---------------------------------------------------------------------------

/-- The size is not encoded in more bytes than it needs. -/
def Minimal (h : BasicHeader) (e : ExtendedHeader) : Prop :=
  (h.getBasicSize = payloadSizeCode16bit → payloadSizeBasic < getPayloadSize h e) ∧
    (h.getBasicSize = payloadSizeCode64bit → payloadSizeExtended < getPayloadSize h e)

/-- The masking key of a header that is read. -/
def readKey (h : BasicHeader) (e : ExtendedHeader) : Option ℕ :=
  if h.getMasked then some (ofBytes (getMaskingKey h e)) else none

/-- There is a key just when the header says so. -/
theorem isSome_readKey (h : BasicHeader) (e : ExtendedHeader) :
    (readKey h e).isSome = h.getMasked := by
  unfold readKey
  cases h.getMasked <;> rfl

/-- The size field of a header, from the bytes that are read. -/
theorem size_of_wire {h : BasicHeader} {r : Bytes} (hLength : r.length + 2 = h.getHeaderLen)
    (hMin : Minimal h (empty.write 0 r)) :
    let size := getPayloadSize h (empty.write 0 r)
    size < 2 ^ 64 ∧ h.getBasicSize = basicValue size ∧
      r.take h.getMaskingKeyOffset = payloadField size := by
  have hOffset : h.getMaskingKeyOffset ≤ r.length := by
    unfold getHeaderLen basicHeaderLength at hLength
    omega
  have hTake : (r.take h.getMaskingKeyOffset).length = h.getMaskingKeyOffset :=
    List.length_take_of_le hOffset
  have hSplit := List.take_append_drop h.getMaskingKeyOffset r
  have hRead := ofBytes_lt (r.take h.getMaskingKeyOffset).reverse
  rw [List.length_reverse, hTake] at hRead
  have hBack := toBytes_ofBytes (r.take h.getMaskingKeyOffset).reverse
  rw [List.length_reverse, hTake] at hBack
  obtain ⟨hMin16, hMin64⟩ := hMin
  -- a field of `n` bytes that is read as `size` is the one that is written for it
  have hField : ∀ {size : ℕ}, size = ofBytes (r.take h.getMaskingKeyOffset).reverse →
      8 - payloadOffset size = h.getMaskingKeyOffset →
      r.take h.getMaskingKeyOffset = payloadField size := by
    intro size hSize hn
    rw [payloadField_eq, hn, hSize, hBack, List.reverse_reverse]
  by_cases h16 : h.getBasicSize = payloadSizeCode16bit
  · have hn : h.getMaskingKeyOffset = 2 := if_pos h16
    have hSize : getPayloadSize h (empty.write 0 r) =
        ofBytes (r.take h.getMaskingKeyOffset).reverse := by
      rw [hn] at hTake ⊢
      rw [← getExtendedSize_write (r := r.drop 2) hTake, List.take_append_drop]
      simp only [getPayloadSize, h16]
      rfl
    have hAbove := hMin16 h16
    have hBound : 256 ^ h.getMaskingKeyOffset = 65536 := hn ▸ rfl
    rcases basicValue_cases (getPayloadSize h (empty.write 0 r)) with
      ⟨h1, -⟩ | ⟨-, h2, hv, ho⟩ | ⟨h3, -⟩
    · exact absurd hAbove (Nat.not_lt.mpr h1)
    · exact ⟨by omega, h16.trans hv.symm, hField hSize (by rw [ho, hn])⟩
    · omega
  by_cases h64 : h.getBasicSize = payloadSizeCode64bit
  · have hn : h.getMaskingKeyOffset = 8 := by rw [getMaskingKeyOffset, if_neg h16, if_pos h64]
    have hSize : getPayloadSize h (empty.write 0 r) =
        ofBytes (r.take h.getMaskingKeyOffset).reverse := by
      rw [hn] at hTake ⊢
      rw [← getJumboSize_write (r := r.drop 8) hTake, List.take_append_drop]
      simp only [getPayloadSize, h64]
      rfl
    have hAbove := hMin64 h64
    have hBound : 256 ^ h.getMaskingKeyOffset = 2 ^ 64 := hn ▸ rfl
    unfold payloadSizeExtended at hAbove
    rcases basicValue_cases (getPayloadSize h (empty.write 0 r)) with
      ⟨h1, -⟩ | ⟨-, h2, -⟩ | ⟨-, hv, ho⟩
    · omega
    · omega
    · exact ⟨by omega, h64.trans hv.symm, hField hSize (by rw [ho, hn])⟩
  · have hn : h.getMaskingKeyOffset = 0 := by rw [getMaskingKeyOffset, if_neg h16, if_neg h64]
    have hSmall : h.getBasicSize.toNat ≤ 125 := by
      have hLe : h.getBasicSize.toNat ≤ 0x7F := Nat.and_le_right
      have hNe16 : h.getBasicSize.toNat ≠ 126 := fun h' => h16 (UInt8.toNat_inj.mp h')
      have hNe64 : h.getBasicSize.toNat ≠ 127 := fun h' => h64 (UInt8.toNat_inj.mp h')
      omega
    have hSize : getPayloadSize h (empty.write 0 r) = h.getBasicSize.toNat := if_pos hSmall
    rw [hSize]
    rcases basicValue_cases h.getBasicSize.toNat with ⟨-, hv, ho⟩ | ⟨h2, -⟩ | ⟨h3, -⟩
    · refine ⟨by omega, ?_, ?_⟩
      · rw [hv, UInt8.ofNat_toNat]
      · rw [hn, List.take_zero, payloadField_eq, ho]
        rfl
    · omega
    · omega

/-- **A header that is read**, with its size minimally encoded, is the one that
is written for its fields. -/
theorem wire_eq {h : BasicHeader} {r : Bytes} (hLength : r.length + 2 = h.getHeaderLen)
    (hMin : Minimal h (empty.write 0 r)) :
    h.b0 :: h.b1 :: r = prepareHeader
      (.new h.getOpcode (getPayloadSize h (empty.write 0 r)) h.getFin
        (readKey h (empty.write 0 r)).isSome h.getRsv1 h.getRsv2 h.getRsv3)
      (.new (getPayloadSize h (empty.write 0 r)) (readKey h (empty.write 0 r))) := by
  obtain ⟨-, hSize, hField⟩ := size_of_wire hLength hMin
  have hKey : r.drop h.getMaskingKeyOffset = keyField (readKey h (empty.write 0 r)) := by
    have hRest : (r.drop h.getMaskingKeyOffset).length = if h.getMasked then 4 else 0 := by
      rw [List.length_drop]
      unfold getHeaderLen basicHeaderLength at hLength
      omega
    unfold readKey
    -- a frame has a key just when its mask bit is set
    cases hMasked : h.getMasked with
    | false =>
      rw [hMasked] at hRest
      exact List.length_eq_zero_iff.mp hRest
    | true =>
      rw [hMasked] at hRest
      have hOffset : h.getMaskingKeyOffset ≤ r.length := by
        unfold getHeaderLen basicHeaderLength at hLength
        omega
      have hRead : getMaskingKey h (empty.write 0 r) = r.drop h.getMaskingKeyOffset := by
        rw [getMaskingKey, hMasked, bytes_write_empty, List.drop_append_of_le_length hOffset]
        exact List.take_left' hRest
      have hFour : (r.drop h.getMaskingKeyOffset).length = 4 := hRest
      rw [if_pos rfl, hRead, keyField, ← hFour, toBytes_ofBytes]
  rw [prepareHeader_new, isSome_readKey, ← eq_new h hSize, ← hField, ← hKey,
    List.take_append_drop]

end

end PushStreamer.Wire
