import Mathlib.Data.Nat.Bitwise
import PushStreamer.Lib.Utf8
import PushStreamer.Socket.Endpoint

/-!
# `utf8_validator`

The machine of websocketpp that checks the payload of text frames, one byte at a
time, with its table. Its states are 0 (between two characters), 1 (the text is
refused) and those inside a character.

* `next_eq` — the table, as ranges.
* `decode_complete_iff` — what takes the machine from a state to the end of a
  character.
* `decode_encode` — the machine computes the code point.
* `validate_iff`, `refuses_iff` — it accepts the well-formed texts, and refuses
  at the first byte that rules the text out: `validator_exact`.
-/

namespace PushStreamer

open Endpoint (Bytes)

-- ---------------------------------------------------------------------------
-- The machine
-- ---------------------------------------------------------------------------

def utf8Accept : ℕ := 0

def utf8Reject : ℕ := 1

/-- The type of each byte, then the next states: a row of 16 types for each state. -/
def utf8d : List ℕ := [
  0,0,0,0,0,0,0,0,0,0,0,0,0,0,0,0,0,0,0,0,0,0,0,0,0,0,0,0,0,0,0,0, -- 00..1f
  0,0,0,0,0,0,0,0,0,0,0,0,0,0,0,0,0,0,0,0,0,0,0,0,0,0,0,0,0,0,0,0, -- 20..3f
  0,0,0,0,0,0,0,0,0,0,0,0,0,0,0,0,0,0,0,0,0,0,0,0,0,0,0,0,0,0,0,0, -- 40..5f
  0,0,0,0,0,0,0,0,0,0,0,0,0,0,0,0,0,0,0,0,0,0,0,0,0,0,0,0,0,0,0,0, -- 60..7f
  1,1,1,1,1,1,1,1,1,1,1,1,1,1,1,1,9,9,9,9,9,9,9,9,9,9,9,9,9,9,9,9, -- 80..9f
  7,7,7,7,7,7,7,7,7,7,7,7,7,7,7,7,7,7,7,7,7,7,7,7,7,7,7,7,7,7,7,7, -- a0..bf
  8,8,2,2,2,2,2,2,2,2,2,2,2,2,2,2,2,2,2,2,2,2,2,2,2,2,2,2,2,2,2,2, -- c0..df
  0xa,0x3,0x3,0x3,0x3,0x3,0x3,0x3,0x3,0x3,0x3,0x3,0x3,0x4,0x3,0x3, -- e0..ef
  0xb,0x6,0x6,0x6,0x5,0x8,0x8,0x8,0x8,0x8,0x8,0x8,0x8,0x8,0x8,0x8, -- f0..ff
  0x0,0x1,0x2,0x3,0x5,0x8,0x7,0x1,0x1,0x1,0x4,0x6,0x1,0x1,0x1,0x1, -- s0..s0
  1,1,1,1,1,1,1,1,1,1,1,1,1,1,1,1,1,0,1,1,1,1,1,0,1,0,1,1,1,1,1,1, -- s1..s2
  1,2,1,1,1,1,1,2,1,2,1,1,1,1,1,1,1,1,1,1,1,1,1,2,1,1,1,1,1,1,1,1, -- s3..s4
  1,2,1,1,1,1,1,1,1,2,1,1,1,1,1,1,1,1,1,1,1,1,1,3,1,3,1,1,1,1,1,1, -- s5..s6
  1,3,1,1,1,1,1,3,1,3,1,1,1,1,1,1,1,3,1,1,1,1,1,1,1,1,1,1,1,1,1,1] -- s7..s8

/-- `validator`; the members are `uint32_t`. -/
structure Validator where
  state : ℕ
  codepoint : ℕ
deriving DecidableEq

namespace Validator

/-- The constructor, and `reset`. -/
def new : Validator where
  state := utf8Accept
  codepoint := 0

/-- `utf8_validator::decode`: one byte. -/
def step (v : Validator) (byte : UInt8) : Validator where
  state := utf8d.getD (256 + v.state * 16 + utf8d.getD byte.toNat 0) 0
  codepoint :=
    if v.state ≠ utf8Accept then (byte.toNat &&& 0x3f ||| v.codepoint <<< 6) % 2 ^ 32
    else (0xff >>> utf8d.getD byte.toNat 0) &&& byte.toNat

/-- `validator::decode`: whether no byte was refused, and the validator after
it, which stops at a byte that is refused. -/
def decode (v : Validator) : Bytes → Bool × Validator
  | [] => (true, v)
  | byte :: rest =>
    let v' := v.step byte
    if v'.state = utf8Reject then (false, v') else v'.decode rest

def complete (v : Validator) : Bool := v.state = utf8Accept

end Validator

/-- `utf8_validator::validate`. -/
def validate (s : Bytes) : Bool :=
  let (ok, v) := Validator.new.decode s
  if !ok then false else v.complete

-- ---------------------------------------------------------------------------
-- The table
-- ---------------------------------------------------------------------------

/-- The type of a byte, by its range. -/
def byteType (b : ℕ) : ℕ :=
  if b ≤ 0x7F then 0
  else if b ≤ 0x8F then 1
  else if b ≤ 0x9F then 9
  else if b ≤ 0xBF then 7
  else if b ≤ 0xC1 then 8
  else if b ≤ 0xDF then 2
  else if b = 0xE0 then 0xa
  else if b = 0xED then 4
  else if b ≤ 0xEF then 3
  else if b = 0xF0 then 0xb
  else if b ≤ 0xF3 then 6
  else if b = 0xF4 then 5
  else 8

/-- The next state, by the range of the byte. -/
def Validator.nextState : ℕ → ℕ → ℕ
  | 0, b =>
    if b ≤ 0x7F then 0
    else if b < 0xC2 then 1
    else if b ≤ 0xDF then 2
    else if b = 0xE0 then 4
    else if b = 0xED then 5
    else if b ≤ 0xEF then 3
    else if b = 0xF0 then 6
    else if b ≤ 0xF3 then 7
    else if b = 0xF4 then 8
    else 1
  | 2, b => if 0x80 ≤ b ∧ b ≤ 0xBF then 0 else 1
  | 3, b => if 0x80 ≤ b ∧ b ≤ 0xBF then 2 else 1
  | 4, b => if 0xA0 ≤ b ∧ b ≤ 0xBF then 2 else 1
  | 5, b => if 0x80 ≤ b ∧ b ≤ 0x9F then 2 else 1
  | 6, b => if 0x90 ≤ b ∧ b ≤ 0xBF then 3 else 1
  | 7, b => if 0x80 ≤ b ∧ b ≤ 0xBF then 3 else 1
  | 8, b => if 0x80 ≤ b ∧ b ≤ 0x8F then 3 else 1
  | _, _ => 1

/-- The first half of the table has the types of the bytes. -/
theorem type_eq : ∀ b < 256, utf8d.getD b 0 = byteType b := by decide +kernel

/-- The second half has the next states. -/
theorem row_eq : ∀ state < 9, ∀ b < 256,
    (utf8d.drop 256).getD (state * 16 + byteType b) 0 = Validator.nextState state b := by
  decide +kernel

/-- **The table** holds the ranges of UTF-8. -/
theorem next_eq {state b : ℕ} (hState : state < 9) (hb : b < 256) :
    utf8d.getD (256 + state * 16 + utf8d.getD b 0) 0 = Validator.nextState state b := by
  rw [← row_eq state hState b hb, type_eq b hb, List.getD_eq_getElem?_getD,
    List.getD_eq_getElem?_getD, List.getElem?_drop, Nat.add_assoc]

namespace Validator

open Utf8

variable {v : Validator} {b : UInt8} {s t : Bytes}

/-- A step of the validator is one of the table. -/
theorem step_state (h : v.state < 9) : (v.step b).state = nextState v.state b.toNat :=
  next_eq h b.toNat_lt

/-- The states are nine. -/
theorem nextState_lt (state b : ℕ) : nextState state b < 9 := by
  unfold nextState
  split <;> (repeat' split) <;> omega

-- ---------------------------------------------------------------------------
-- What may follow a state
-- ---------------------------------------------------------------------------

/-- The rest of the character that the machine is in. -/
def Rest : ℕ → Bytes → Prop
  | 0, r => r = []
  | 2, r => ∃ b, r = [b] ∧ Tail b
  | 3, r => ∃ b c, r = [b, c] ∧ Tail b ∧ Tail c
  | 4, r => ∃ b c, r = [b, c] ∧ (0xA0 ≤ b.toNat ∧ b.toNat ≤ 0xBF) ∧ Tail c
  | 5, r => ∃ b c, r = [b, c] ∧ (0x80 ≤ b.toNat ∧ b.toNat ≤ 0x9F) ∧ Tail c
  | 6, r => ∃ b c d, r = [b, c, d] ∧ (0x90 ≤ b.toNat ∧ b.toNat ≤ 0xBF) ∧ Tail c ∧ Tail d
  | 7, r => ∃ b c d, r = [b, c, d] ∧ Tail b ∧ Tail c ∧ Tail d
  | 8, r => ∃ b c d, r = [b, c, d] ∧ (0x80 ≤ b.toNat ∧ b.toNat ≤ 0x8F) ∧ Tail c ∧ Tail d
  | _, _ => False

/-- The texts that take the machine from a state to the end of a character. -/
def Follows (state : ℕ) (s : Bytes) : Prop :=
  ∃ r t, s = r ++ t ∧ Rest state r ∧ WellFormed t

/-- What a first byte leads to. -/
theorem nextState_first (a : ℕ) :
    (a ≤ 0x7F ∧ nextState 0 a = 0) ∨ (0xC2 ≤ a ∧ a ≤ 0xDF ∧ nextState 0 a = 2) ∨
    (a = 0xE0 ∧ nextState 0 a = 4) ∨ (a = 0xED ∧ nextState 0 a = 5) ∨
    (0xE0 < a ∧ a ≤ 0xEF ∧ a ≠ 0xED ∧ nextState 0 a = 3) ∨ (a = 0xF0 ∧ nextState 0 a = 6) ∨
    (0xF0 < a ∧ a ≤ 0xF3 ∧ nextState 0 a = 7) ∨ (a = 0xF4 ∧ nextState 0 a = 8) ∨
    ((0x7F < a ∧ a < 0xC2 ∨ 0xF4 < a) ∧ nextState 0 a = 1) := by
  generalize hNext : nextState 0 a = next
  rw [nextState] at hNext
  split_ifs at hNext <;> omega

/-- The state after the first byte of a character tells the others. -/
theorem sequence_cons_iff (a : UInt8) (r : Bytes) :
    Sequence (a :: r) ↔ Rest (nextState 0 a.toNat) r := by
  constructor
  · intro h
    cases h with
    | one ha =>
      have hNext : nextState 0 a.toNat = 0 := by rcases nextState_first a.toNat with h | h <;> omega
      rw [hNext]
      rfl
    | two ha hb =>
      have hNext : nextState 0 a.toNat = 2 := by
        rcases nextState_first a.toNat with h | h <;> omega
      rw [hNext]
      exact ⟨_, rfl, hb⟩
    | three ha hb hc =>
      obtain ⟨hTail, hE0, hED, -⟩ := hb
      unfold Tail at hTail
      -- the first byte alone gives the state; the other states ask for other first bytes
      rcases nextState_first a.toNat with
        h | h | ⟨h, hNext⟩ | ⟨h, hNext⟩ | ⟨h, h', h'', hNext⟩ | h | h | h | h
      · omega
      · omega
      · rw [hNext]
        exact ⟨_, _, rfl, ⟨hE0 h, hTail.2⟩, hc⟩
      · rw [hNext]
        exact ⟨_, _, rfl, ⟨hTail.1, hED h⟩, hc⟩
      · rw [hNext]
        exact ⟨_, _, rfl, hTail, hc⟩
      all_goals omega
    | four ha hb hc hd =>
      obtain ⟨hTail, -, -, hF0, hF4⟩ := hb
      unfold Tail at hTail
      -- so do these, of four bytes
      rcases nextState_first a.toNat with
        h | h | h | h | h | ⟨h, hNext⟩ | ⟨h, h', hNext⟩ | ⟨h, hNext⟩ | h
      iterate 5 omega
      · rw [hNext]
        exact ⟨_, _, _, rfl, ⟨hF0 h, hTail.2⟩, hc, hd⟩
      · rw [hNext]
        exact ⟨_, _, _, rfl, hTail, hc, hd⟩
      · rw [hNext]
        exact ⟨_, _, _, rfl, ⟨hTail.1, hF4 h⟩, hc, hd⟩
      · omega
  · intro h
    -- each state but the last is entered by the first bytes of one kind of sequence
    rcases nextState_first a.toNat with ⟨ha, hNext⟩ | ⟨ha, ha', hNext⟩ | ⟨ha, hNext⟩ | ⟨ha, hNext⟩ |
      ⟨ha, ha', ha'', hNext⟩ | ⟨ha, hNext⟩ | ⟨ha, ha', hNext⟩ | ⟨ha, hNext⟩ | ⟨ha, hNext⟩
    all_goals rw [hNext] at h
    · obtain rfl := h
      exact .one ha
    · obtain ⟨b, rfl, hb⟩ := h
      exact .two ⟨ha, ha'⟩ hb
    · obtain ⟨b, c, rfl, hb, hc⟩ := h
      exact .three (by omega) ⟨by unfold Tail; omega, by omega⟩ hc
    · obtain ⟨b, c, rfl, hb, hc⟩ := h
      exact .three (by omega) ⟨by unfold Tail; omega, by omega⟩ hc
    · obtain ⟨b, c, rfl, hb, hc⟩ := h
      exact .three (by omega) ⟨hb, by omega⟩ hc
    · obtain ⟨b, c, d, rfl, hb, hc, hd⟩ := h
      exact .four (by omega) ⟨by unfold Tail; omega, by omega⟩ hc hd
    · obtain ⟨b, c, d, rfl, hb, hc, hd⟩ := h
      exact .four (by omega) ⟨hb, by omega⟩ hc hd
    · obtain ⟨b, c, d, rfl, hb, hc, hd⟩ := h
      exact .four (by omega) ⟨by unfold Tail; omega, by omega⟩ hc hd
    · exact h.elim

/-- A state that expects one byte of a range. -/
theorem rest_ite {lo hi next : ℕ} (b : UInt8) (r : Bytes) :
    Rest (if lo ≤ b.toNat ∧ b.toNat ≤ hi then next else 1) r ↔
      (lo ≤ b.toNat ∧ b.toNat ≤ hi) ∧ Rest next r := by
  split
  · rename_i h
    exact (and_iff_right h).symm
  · rename_i h
    exact iff_of_false id fun hAnd => h hAnd.1

/-- Inside a character, the state after a byte tells what is left. -/
theorem rest_cons_iff {state : ℕ} (h : state ≠ 0) (a : UInt8) (r : Bytes) :
    Rest state (a :: r) ↔ Rest (nextState state a.toNat) r := by
  -- the states count what is to come: one byte, two, or three
  match state with
  | 0 => exact absurd rfl h
  | 1 => exact iff_of_false id id
  | 2 =>
    rw [nextState, rest_ite]
    constructor
    · rintro ⟨b, hEq, hb⟩
      obtain ⟨rfl, rfl⟩ := List.cons.inj hEq
      exact ⟨hb, rfl⟩
    · rintro ⟨ha, rfl⟩
      exact ⟨a, rfl, ha⟩
  | 3 | 4 | 5 =>
    rw [nextState, rest_ite]
    constructor
    · rintro ⟨b, c, hEq, hb, hc⟩
      obtain ⟨rfl, rfl⟩ := List.cons.inj hEq
      exact ⟨hb, c, rfl, hc⟩
    · rintro ⟨ha, c, rfl, hc⟩
      exact ⟨a, c, rfl, ha, hc⟩
  | 6 | 7 | 8 =>
    rw [nextState, rest_ite]
    constructor
    · rintro ⟨b, c, d, hEq, hb, hc, hd⟩
      obtain ⟨rfl, rfl⟩ := List.cons.inj hEq
      exact ⟨hb, c, d, rfl, hc, hd⟩
    · rintro ⟨ha, c, d, rfl, hc, hd⟩
      exact ⟨a, c, d, rfl, ha, hc, hd⟩
  | _ + 9 => exact iff_of_false id id

theorem rest_nil_iff {state : ℕ} : Rest state [] ↔ state = 0 := by
  match state with
  | 0 => exact iff_of_true rfl rfl
  | 1 => exact iff_of_false id (by decide)
  | 2 => exact iff_of_false (by rintro ⟨b, h, -⟩; cases h) (by decide)
  | 3 | 4 | 5 => exact iff_of_false (by rintro ⟨b, c, h, -⟩; cases h) (by decide)
  | 6 | 7 | 8 => exact iff_of_false (by rintro ⟨b, c, d, h, -⟩; cases h) (by decide)
  | n + 9 => exact iff_of_false id (by omega)

/-- What may follow a state, split at its first byte. -/
theorem follows_cons_iff (state : ℕ) (a : UInt8) (s : Bytes) :
    Follows state (a :: s) ↔ Follows (nextState state a.toNat) s := by
  by_cases hZero : state = 0
  · subst hZero
    constructor
    · rintro ⟨r, t, hEq, rfl, ht⟩
      rw [List.nil_append] at hEq
      obtain ⟨w, t', hSplit, hw, ht'⟩ := wellFormed_cons_iff.mp (hEq ▸ ht)
      cases w with
      | nil => cases hw
      | cons b r =>
        obtain ⟨rfl, rfl⟩ := List.cons.inj hSplit
        exact ⟨r, t', rfl, (sequence_cons_iff _ _).mp hw, ht'⟩
    · rintro ⟨r, t, rfl, hr, ht⟩
      refine ⟨[], a :: (r ++ t), rfl, rfl, ?_⟩
      exact wellFormed_cons_iff.mpr ⟨a :: r, t, rfl, (sequence_cons_iff _ _).mpr hr, ht⟩
  · constructor
    · rintro ⟨r, t, hEq, hr, ht⟩
      cases r with
      | nil => exact absurd (rest_nil_iff.mp hr) hZero
      | cons b r =>
        obtain ⟨rfl, rfl⟩ := List.cons.inj hEq
        exact ⟨r, t, rfl, (rest_cons_iff hZero _ _).mp hr, ht⟩
    · rintro ⟨r, t, rfl, hr, ht⟩
      exact ⟨a :: r, t, rfl, (rest_cons_iff hZero _ _).mpr hr, ht⟩

theorem follows_nil_iff {state : ℕ} : Follows state [] ↔ state = 0 := by
  constructor
  · rintro ⟨r, t, hEq, hr, -⟩
    obtain ⟨rfl, -⟩ := List.append_eq_nil_iff.mp hEq.symm
    exact rest_nil_iff.mp hr
  · rintro rfl
    exact ⟨[], [], rfl, rfl, wellFormed_nil⟩

/-- Nothing need follow in the first state, and anything well formed can. -/
theorem follows_zero_iff : Follows 0 s ↔ WellFormed s := by
  constructor
  · rintro ⟨r, t, rfl, rfl, ht⟩
    exact ht
  · exact fun h => ⟨[], s, rfl, rfl, h⟩

/-- Nothing may follow the refusal. -/
theorem not_follows_one : ¬ Follows 1 s := fun ⟨_, _, _, hr, _⟩ => hr

/-- Every other state can be left at the end of a character. -/
theorem exists_follows {state : ℕ} (h : state < 9) (hNe : state ≠ 1) : ∃ t, Follows state t := by
  have hTail : Tail 0x80 := ⟨by decide, by decide⟩
  have hRest : ∃ r, Rest state r := by
    match state with
    | 0 => exact ⟨[], rfl⟩
    | 1 => exact absurd rfl hNe
    | 2 => exact ⟨[0x80], _, rfl, hTail⟩
    | 3 => exact ⟨[0x80, 0x80], _, _, rfl, hTail, hTail⟩
    | 4 => exact ⟨[0xA0, 0x80], _, _, rfl, by decide, hTail⟩
    | 5 => exact ⟨[0x80, 0x80], _, _, rfl, by decide, hTail⟩
    | 6 => exact ⟨[0x90, 0x80, 0x80], _, _, _, rfl, by decide, hTail, hTail⟩
    | 7 => exact ⟨[0x80, 0x80, 0x80], _, _, _, rfl, hTail, hTail, hTail⟩
    | 8 => exact ⟨[0x80, 0x80, 0x80], _, _, _, rfl, by decide, hTail, hTail⟩
    | n + 9 => omega
  obtain ⟨r, hr⟩ := hRest
  exact ⟨r, r, [], (List.append_nil r).symm, hr, wellFormed_nil⟩

-- ---------------------------------------------------------------------------
-- Runs
-- ---------------------------------------------------------------------------

/-- A byte that is rejected ends the check. -/
theorem decode_cons_of_reject (h : (v.step b).state = 1) :
    v.decode (b :: s) = (false, v.step b) := by
  rw [decode]
  exact if_pos h

/-- A byte that is not rejected is passed. -/
theorem decode_cons (h : (v.step b).state ≠ 1) : v.decode (b :: s) = (v.step b).decode s := by
  rw [decode]
  exact if_neg h

/-- A text in two parts is decoded one after the other. -/
theorem decode_append : v.decode (s ++ t) =
    if (v.decode s).1 = true then (v.decode s).2.decode t else v.decode s := by
  induction s generalizing v with
  | nil => rfl
  | cons b s ih =>
    rw [List.cons_append]
    by_cases h : (v.step b).state = 1
    · rw [decode_cons_of_reject h, decode_cons_of_reject h]
      rfl
    · rw [decode_cons h, decode_cons h, ih]

/-- **From a state**, the machine ends between two characters just after what may
follow the state. -/
theorem decode_complete_iff (h : v.state < 9) :
    ((v.decode s).1 = true ∧ (v.decode s).2.state = 0) ↔ Follows v.state s := by
  induction s generalizing v with
  | nil => rw [decode, follows_nil_iff, and_iff_right rfl]
  | cons b s ih =>
    rw [follows_cons_iff, ← step_state h]
    by_cases hReject : (v.step b).state = 1
    · rw [decode_cons_of_reject hReject, hReject]
      exact iff_of_false (fun hAnd => Bool.false_ne_true hAnd.1) not_follows_one
    · rw [decode_cons hReject]
      exact ih (step_state h ▸ nextState_lt _ _)

/-- The machine refuses no byte as long as something may follow. -/
theorem decode_fst_iff (h : v.state < 9) (hNe : v.state ≠ 1) :
    (v.decode s).1 = true ↔ ∃ t, Follows v.state (s ++ t) := by
  induction s generalizing v with
  | nil => exact iff_of_true rfl (exists_follows h hNe)
  | cons b s ih =>
    have hCons : ∀ t, Follows v.state (b :: s ++ t) ↔ Follows (v.step b).state (s ++ t) := by
      intro t
      rw [List.cons_append, follows_cons_iff, ← step_state h]
    rw [exists_congr hCons]
    by_cases hReject : (v.step b).state = 1
    · rw [decode_cons_of_reject hReject, hReject]
      exact iff_of_false Bool.false_ne_true fun ⟨_, ht⟩ => not_follows_one ht
    · rw [decode_cons hReject]
      exact ih (step_state h ▸ nextState_lt _ _) hReject

/-- A text is complete in the first state. -/
theorem complete_iff : v.complete = true ↔ v.state = 0 := decide_eq_true_iff

-- ---------------------------------------------------------------------------
-- The code point
-- ---------------------------------------------------------------------------

/-- What the first byte of a character adds to its code point. -/
theorem lead_eq : ∀ b < 256, (b ≤ 0x7F → (0xff >>> byteType b) &&& b = b) ∧
    (0xC2 ≤ b ∧ b ≤ 0xDF → (0xff >>> byteType b) &&& b = b - 0xC0) ∧
    (0xE0 ≤ b ∧ b ≤ 0xEF → (0xff >>> byteType b) &&& b = b - 0xE0) ∧
    (0xF0 ≤ b ∧ b ≤ 0xF4 → (0xff >>> byteType b) &&& b = b - 0xF0) := by
  decide +kernel

/-- What another byte adds to it. -/
def addTail (codepoint : ℕ) (byte : UInt8) : ℕ :=
  (byte.toNat &&& 0x3f ||| codepoint <<< 6) % 2 ^ 32

/-- A byte that continues a character adds six bits. -/
theorem addTail_eq {codepoint : ℕ} (h : codepoint < 2 ^ 26) (byte : UInt8) :
    addTail codepoint byte = codepoint * 64 + byte.toNat % 64 := by
  have hMask : byte.toNat &&& 0x3f = byte.toNat % 64 := Nat.and_two_pow_sub_one_eq_mod _ 6
  have hLt : byte.toNat % 64 < 2 ^ 6 := Nat.mod_lt _ (by decide)
  have hShift : codepoint <<< 6 = codepoint * 64 := Nat.shiftLeft_eq codepoint 6
  rw [addTail, hMask, Nat.or_comm, ← Nat.shiftLeft_add_eq_or_of_lt hLt, hShift,
    Nat.mod_eq_of_lt (by omega)]

/-- Inside a character the machine only adds to the code point. -/
theorem decode_rest {r : Bytes} (h : v.state < 9) (hRest : Rest v.state r) :
    v.decode r = (true, ⟨0, r.foldl addTail v.codepoint⟩) := by
  induction r generalizing v with
  | nil =>
    rw [decode, List.foldl_nil, ← rest_nil_iff.mp hRest]
  | cons b r ih =>
    have hInside : v.state ≠ 0 := by
      intro hZero
      rw [hZero] at hRest
      cases hRest
    have hNext : Rest (v.step b).state r := by
      rw [step_state h]
      exact (rest_cons_iff hInside _ _).mp hRest
    have hOk : (v.step b).state ≠ 1 := by
      intro hReject
      rw [hReject] at hNext
      exact hNext
    have hCode : (v.step b).codepoint = addTail v.codepoint b := if_pos hInside
    rw [decode_cons hOk, ih (step_state h ▸ nextState_lt _ _) hNext, hCode, List.foldl_cons]

/-- The first byte of a character, and the others. -/
theorem decode_sequence {a : UInt8} {r : Bytes} (h : v.state = 0) (hSeq : Sequence (a :: r)) :
    v.decode (a :: r) = (true, ⟨0, r.foldl addTail ((0xff >>> byteType a.toNat) &&& a.toNat)⟩) := by
  have hLt : v.state < 9 := by omega
  have hRest : Rest (v.step a).state r := by
    rw [step_state hLt, h]
    exact (sequence_cons_iff a r).mp hSeq
  have hOk : (v.step a).state ≠ 1 := by
    intro hReject
    rw [hReject] at hRest
    exact hRest
  have hCode : (v.step a).codepoint = (0xff >>> byteType a.toNat) &&& a.toNat := by
    rw [← type_eq a.toNat a.toNat_lt]
    exact if_neg (not_not.mpr h)
  rw [decode_cons hOk, decode_rest (step_state hLt ▸ nextState_lt _ _) hRest, hCode]

/-- One more byte of a character turns a number short of its last six bits into
the number. -/
theorem addTail_div {n : ℕ} (h : n < 2 ^ 32) :
    addTail (n / 64) (UInt8.ofNat (n % 64 + 128)) = n := by
  rw [addTail_eq (by omega), toNat_ofNat_of_lt (by omega)]
  omega

/-- **The code point** of a character is what the machine has computed after its
bytes. -/
theorem decode_encode (h : v.state = 0) (c : Char) :
    v.decode (String.utf8EncodeChar c) = (true, ⟨0, c.toNat⟩) := by
  have hSeq := sequence_encode c
  have hLt : c.toNat < 2 ^ 32 := by have := toNat_valid c; omega
  have hTop : c.toNat < 0x110000 := by have := toNat_valid c; omega
  -- the number as it stands before its last byte, its last two and its last three
  have hLast := addTail_div hLt
  have hTwo : addTail (c.toNat / 4096) (UInt8.ofNat (c.toNat / 64 % 64 + 128)) = c.toNat / 64 := by
    rw [show c.toNat / 4096 = c.toNat / 64 / 64 by omega]
    exact addTail_div (by omega)
  have hThree : addTail (c.toNat / 262144) (UInt8.ofNat (c.toNat / 4096 % 64 + 128)) =
      c.toNat / 4096 := by
    rw [show c.toNat / 262144 = c.toNat / 4096 / 64 by omega]
    exact addTail_div (by omega)
  rcases Nat.lt_or_ge 0xFFFF c.toNat with h4 | h4
  · rw [encode_four h4] at hSeq ⊢
    have hByte := toNat_ofNat_of_lt (show c.toNat / 262144 % 8 + 240 < 256 by omega)
    have hLead := (lead_eq _ (UInt8.toNat_lt (UInt8.ofNat (c.toNat / 262144 % 8 + 240)))).2.2.2
      (by rw [hByte]; omega)
    rw [decode_sequence h hSeq, hLead, hByte,
      show c.toNat / 262144 % 8 + 240 - 0xF0 = c.toNat / 262144 by omega]
    simp only [List.foldl_cons, List.foldl_nil, hThree, hTwo, hLast]
  rcases Nat.lt_or_ge 0x7FF c.toNat with h3 | h3
  · rw [encode_three h3 h4] at hSeq ⊢
    have hByte := toNat_ofNat_of_lt (show c.toNat / 4096 % 16 + 224 < 256 by omega)
    have hLead := (lead_eq _ (UInt8.toNat_lt (UInt8.ofNat (c.toNat / 4096 % 16 + 224)))).2.2.1
      (by rw [hByte]; omega)
    rw [decode_sequence h hSeq, hLead, hByte,
      show c.toNat / 4096 % 16 + 224 - 0xE0 = c.toNat / 4096 by omega]
    simp only [List.foldl_cons, List.foldl_nil, hTwo, hLast]
  rcases Nat.lt_or_ge 0x7F c.toNat with h2 | h2
  · rw [encode_two h2 h3] at hSeq ⊢
    have hByte := toNat_ofNat_of_lt (show c.toNat / 64 % 32 + 192 < 256 by omega)
    have hLead := (lead_eq _ (UInt8.toNat_lt (UInt8.ofNat (c.toNat / 64 % 32 + 192)))).2.1
      (by rw [hByte]; omega)
    rw [decode_sequence h hSeq, hLead, hByte,
      show c.toNat / 64 % 32 + 192 - 0xC0 = c.toNat / 64 by omega]
    simp only [List.foldl_cons, List.foldl_nil, hLast]
  · rw [encode_one h2] at hSeq ⊢
    rw [decode_sequence h hSeq, List.foldl_nil,
      (lead_eq _ (UInt8.toNat_lt _)).1 (by rw [toNat_ofNat_of_lt (by omega)]; exact h2),
      toNat_ofNat_of_lt (by omega)]

end Validator

open Utf8 Validator

/-- **The validator accepts** the well-formed texts, the encodings of characters
one after the other, and no others. -/
theorem validate_iff (s : Bytes) : validate s = true ↔ WellFormed s := by
  have hState : Validator.new.state < 9 := by decide
  rw [← follows_zero_iff, show 0 = Validator.new.state from rfl, ← decode_complete_iff hState]
  unfold validate
  rcases Validator.new.decode s with ⟨ok, v⟩
  cases ok with
  | false => simp
  | true => simp [complete_iff]

/-- **It refuses** at the first byte that no well-formed text goes on with. -/
theorem refuses_iff (s : Bytes) :
    (Validator.new.decode s).1 = false ↔ ¬ ∃ t, WellFormed (s ++ t) := by
  have hFst := decode_fst_iff (v := Validator.new) (s := s) (by decide) (by decide)
  have hZero : ∀ t, Follows Validator.new.state (s ++ t) ↔ WellFormed (s ++ t) :=
    fun t => follows_zero_iff
  rw [← exists_congr hZero, ← hFst, Bool.not_eq_true]

/-- **The table is UTF-8**: the validator accepts a text when it is well-formed, and
stops at the first byte after which it could not become so. -/
theorem validator_exact (s : Bytes) :
    (validate s = true ↔ WellFormed s) ∧
      ((Validator.new.decode s).1 = false ↔ ¬ ∃ t, WellFormed (s ++ t)) :=
  ⟨validate_iff s, refuses_iff s⟩

end PushStreamer
