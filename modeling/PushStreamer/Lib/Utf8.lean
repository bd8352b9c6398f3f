import Mathlib.Data.List.Basic
import Mathlib.Tactic.Common

/-!
# UTF-8

The byte sequences of single characters, given by the ranges of their bytes, and
the texts that are made of them.

* `sequence_encode`, `exists_encode` — the sequences of the ranges are the
  encodings of the characters.
* `WellFormed` — a text is the encodings of characters one after the other.
-/

namespace Utf8

/-- A continuation byte. -/
def Tail (b : UInt8) : Prop := 0x80 ≤ b.toNat ∧ b.toNat ≤ 0xBF

/-- What the first byte asks of the second one beyond being a continuation byte:
no overlong form, no surrogate, nothing past the last character. -/
def Second (a b : UInt8) : Prop :=
  Tail b ∧ (a.toNat = 0xE0 → 0xA0 ≤ b.toNat) ∧ (a.toNat = 0xED → b.toNat ≤ 0x9F) ∧
    (a.toNat = 0xF0 → 0x90 ≤ b.toNat) ∧ (a.toNat = 0xF4 → b.toNat ≤ 0x8F)

/-- The bytes of one character. -/
inductive Sequence : List UInt8 → Prop
  | one {a : UInt8} (ha : a.toNat ≤ 0x7F) : Sequence [a]
  | two {a b : UInt8} (ha : 0xC2 ≤ a.toNat ∧ a.toNat ≤ 0xDF) (hb : Tail b) : Sequence [a, b]
  | three {a b c : UInt8} (ha : 0xE0 ≤ a.toNat ∧ a.toNat ≤ 0xEF) (hb : Second a b) (hc : Tail c) :
      Sequence [a, b, c]
  | four {a b c d : UInt8} (ha : 0xF0 ≤ a.toNat ∧ a.toNat ≤ 0xF4) (hb : Second a b) (hc : Tail c)
      (hd : Tail d) : Sequence [a, b, c, d]

/-- The encodings of characters, one after the other. -/
def WellFormed (s : List UInt8) : Prop := ∃ cs : List Char, s = cs.flatMap String.utf8EncodeChar

/-- There is a character for every scalar value. -/
theorem exists_char {v : ℕ} (h : v.isValidChar) : ∃ c : Char, c.toNat = v := by
  refine ⟨Char.ofNat v, ?_⟩
  rw [Char.ofNat, dif_pos h]
  rfl

/-- The encodings by their length, as bytes. -/
theorem encode_one {c : Char} (h : c.toNat ≤ 0x7F) :
    String.utf8EncodeChar c = [UInt8.ofNat c.toNat] := by
  have hv : c.val.toNat ≤ 0x7F := h
  rw [String.utf8EncodeChar]
  simp only [if_pos hv]
  rfl

theorem encode_two {c : Char} (h : 0x7F < c.toNat) (h' : c.toNat ≤ 0x7FF) :
    String.utf8EncodeChar c =
      [UInt8.ofNat (c.toNat / 64 % 0x20 + 0xC0), UInt8.ofNat (c.toNat % 0x40 + 0x80)] := by
  have hv : ¬ c.val.toNat ≤ 0x7F := Nat.not_le.mpr h
  have hv' : c.val.toNat ≤ 0x7FF := h'
  rw [String.utf8EncodeChar]
  simp only [if_neg hv, if_pos hv']
  rfl

theorem encode_three {c : Char} (h : 0x7FF < c.toNat) (h' : c.toNat ≤ 0xFFFF) :
    String.utf8EncodeChar c =
      [UInt8.ofNat (c.toNat / 4096 % 0x10 + 0xE0), UInt8.ofNat (c.toNat / 64 % 0x40 + 0x80),
        UInt8.ofNat (c.toNat % 0x40 + 0x80)] := by
  have hv : ¬ c.val.toNat ≤ 0x7F := Nat.not_le.mpr (Nat.lt_trans (by decide) h)
  have hv' : ¬ c.val.toNat ≤ 0x7FF := Nat.not_le.mpr h
  have hv'' : c.val.toNat ≤ 0xFFFF := h'
  rw [String.utf8EncodeChar]
  simp only [if_neg hv, if_neg hv', if_pos hv'']
  rfl

theorem encode_four {c : Char} (h : 0xFFFF < c.toNat) :
    String.utf8EncodeChar c =
      [UInt8.ofNat (c.toNat / 262144 % 0x08 + 0xF0), UInt8.ofNat (c.toNat / 4096 % 0x40 + 0x80),
        UInt8.ofNat (c.toNat / 64 % 0x40 + 0x80), UInt8.ofNat (c.toNat % 0x40 + 0x80)] := by
  have hv : ¬ c.val.toNat ≤ 0x7F := Nat.not_le.mpr (Nat.lt_trans (by decide) h)
  have hv' : ¬ c.val.toNat ≤ 0x7FF := Nat.not_le.mpr (Nat.lt_trans (by decide) h)
  have hv'' : ¬ c.val.toNat ≤ 0xFFFF := Nat.not_le.mpr h
  rw [String.utf8EncodeChar]
  simp only [if_neg hv, if_neg hv', if_neg hv'']
  rfl

theorem ofNat_eq {n : ℕ} {b : UInt8} (h : n = b.toNat) : UInt8.ofNat n = b := by
  rw [h, UInt8.ofNat_toNat]

theorem toNat_ofNat_of_lt {n : ℕ} (h : n < 256) : (UInt8.ofNat n).toNat = n := by
  rw [UInt8.toNat_ofNat']
  exact Nat.mod_eq_of_lt h

/-- Six bits make a byte that continues a character. -/
theorem tail_ofNat (n : ℕ) : Tail (UInt8.ofNat (n % 0x40 + 0x80)) := by
  unfold Tail
  rw [toNat_ofNat_of_lt (by omega)]
  omega

/-- A character is no surrogate. -/
theorem toNat_valid (c : Char) : c.toNat < 0xD800 ∨ 0xDFFF < c.toNat ∧ c.toNat < 0x110000 :=
  c.valid

/-- The encoding of a character is in the ranges. -/
theorem sequence_encode (c : Char) : Sequence (String.utf8EncodeChar c) := by
  have hValid := toNat_valid c
  rcases Nat.lt_or_ge 0xFFFF c.toNat with h4 | h4
  · rw [encode_four h4]
    refine .four ?_ ⟨tail_ofNat _, ?_⟩ (tail_ofNat _) (tail_ofNat _)
    · rw [toNat_ofNat_of_lt (by omega)]
      omega
    · rw [toNat_ofNat_of_lt (by omega), toNat_ofNat_of_lt (by omega)]
      omega
  rcases Nat.lt_or_ge 0x7FF c.toNat with h3 | h3
  · rw [encode_three h3 h4]
    refine .three ?_ ⟨tail_ofNat _, ?_⟩ (tail_ofNat _)
    · rw [toNat_ofNat_of_lt (by omega)]
      omega
    · rw [toNat_ofNat_of_lt (by omega), toNat_ofNat_of_lt (by omega)]
      omega
  rcases Nat.lt_or_ge 0x7F c.toNat with h2 | h2
  · rw [encode_two h2 h3]
    refine .two ?_ (tail_ofNat _)
    rw [toNat_ofNat_of_lt (by omega)]
    omega
  · rw [encode_one h2]
    refine .one ?_
    rw [toNat_ofNat_of_lt (by omega)]
    exact h2

/-- The bytes of the ranges are the encoding of a character. -/
theorem exists_encode {w : List UInt8} (h : Sequence w) : ∃ c, String.utf8EncodeChar c = w := by
  -- each shape has a number, and the ranges of its bytes make it one of a character
  cases h with
  | @one a ha =>
    obtain ⟨c, hc⟩ := exists_char (v := a.toNat) (Or.inl (by omega))
    refine ⟨c, ?_⟩
    rw [encode_one (by omega), ofNat_eq hc]
  | @two a b ha hb =>
    unfold Tail at hb
    obtain ⟨c, hc⟩ := exists_char (v := (a.toNat - 0xC0) * 64 + (b.toNat - 0x80))
      (Or.inl (by omega))
    refine ⟨c, ?_⟩
    rw [encode_two (by omega) (by omega), ofNat_eq (b := a) (by omega),
      ofNat_eq (b := b) (by omega)]
  | @three a b d ha hb hd =>
    obtain ⟨hTail, hSecond⟩ := hb
    unfold Tail at hTail hd
    obtain ⟨c, hc⟩ := exists_char
      (v := (a.toNat - 0xE0) * 4096 + (b.toNat - 0x80) * 64 + (d.toNat - 0x80)) (by
        unfold Nat.isValidChar
        omega)
    refine ⟨c, ?_⟩
    rw [encode_three (by omega) (by omega), ofNat_eq (b := a) (by omega),
      ofNat_eq (b := b) (by omega), ofNat_eq (b := d) (by omega)]
  | @four a b d e ha hb hd he =>
    obtain ⟨hTail, hSecond⟩ := hb
    unfold Tail at hTail hd he
    obtain ⟨c, hc⟩ := exists_char (v := (a.toNat - 0xF0) * 262144 + (b.toNat - 0x80) * 4096 +
      (d.toNat - 0x80) * 64 + (e.toNat - 0x80)) (by
        unfold Nat.isValidChar
        omega)
    refine ⟨c, ?_⟩
    rw [encode_four (by omega), ofNat_eq (b := a) (by omega), ofNat_eq (b := b) (by omega),
      ofNat_eq (b := d) (by omega), ofNat_eq (b := e) (by omega)]

/-- No byte of a character beyond ASCII is an ASCII one. -/
theorem high_encode {c : Char} (h : 0x7F < c.toNat) :
    ∀ b ∈ String.utf8EncodeChar c, 0x80 ≤ b.toNat := by
  have hByte : ∀ n, 0x80 ≤ n → n < 256 → 0x80 ≤ (UInt8.ofNat n).toNat := fun n hLe hLt => by
    rw [toNat_ofNat_of_lt hLt]
    exact hLe
  have hValid := toNat_valid c
  by_cases hTwo : c.toNat ≤ 0x7FF
  · rw [encode_two h hTwo]
    simp only [List.forall_mem_cons]
    exact ⟨hByte _ (by omega) (by omega), hByte _ (by omega) (by omega), fun _ h => nomatch h⟩
  by_cases hThree : c.toNat ≤ 0xFFFF
  · rw [encode_three (by omega) hThree]
    simp only [List.forall_mem_cons]
    exact ⟨hByte _ (by omega) (by omega), hByte _ (by omega) (by omega),
      hByte _ (by omega) (by omega), fun _ h => nomatch h⟩
  · rw [encode_four (by omega)]
    simp only [List.forall_mem_cons]
    exact ⟨hByte _ (by omega) (by omega), hByte _ (by omega) (by omega),
      hByte _ (by omega) (by omega), hByte _ (by omega) (by omega), fun _ h => nomatch h⟩

-- ---------------------------------------------------------------------------
-- Texts
-- ---------------------------------------------------------------------------

theorem wellFormed_nil : WellFormed [] := ⟨[], rfl⟩

/-- Well-formed texts may be put together. -/
theorem WellFormed.append {s t : List UInt8} (hs : WellFormed s) (ht : WellFormed t) :
    WellFormed (s ++ t) := by
  obtain ⟨cs, rfl⟩ := hs
  obtain ⟨ds, rfl⟩ := ht
  exact ⟨cs ++ ds, List.flatMap_append.symm⟩

/-- Every character is encoded well. -/
theorem wellFormed_encode (c : Char) : WellFormed (String.utf8EncodeChar c) :=
  ⟨[c], by rw [List.flatMap_singleton]⟩

/-- A text that is not empty is one character and a text. -/
theorem wellFormed_cons_iff {a : UInt8} {s : List UInt8} :
    WellFormed (a :: s) ↔ ∃ w t, a :: s = w ++ t ∧ Sequence w ∧ WellFormed t := by
  constructor
  · rintro ⟨cs, h⟩
    cases cs with
    | nil => cases h
    | cons c cs => exact ⟨_, _, h, sequence_encode c, cs, rfl⟩
  · rintro ⟨w, t, h, hw, ht⟩
    obtain ⟨c, rfl⟩ := exists_encode hw
    rw [h]
    exact (wellFormed_encode c).append ht

end Utf8
