import Mathlib.Data.List.Nodup
import Mathlib.Data.List.Perm.Basic
import Mathlib.Tactic.Common

/-!
# Sets of keys as the bits of a byte

`flag k` is the byte of a key, and `union flag ks` the bitwise or of the bytes
of some keys. When no two keys have a bit in common (`Distinct`), the byte tells
which keys they are.

* `mem_iff_union` — a key is in the list just when its bits are in the byte.
* `union_eq_iff` — two lists have the same byte just when they have the same
  keys.
-/

namespace Flags

variable {κ : Type*} {flag : κ → UInt8} {K : κ → Prop}

/-- The keys in `K` have bits, and no two have one in common. -/
structure Distinct (flag : κ → UInt8) (K : κ → Prop) : Prop where
  ne_zero : ∀ k, K k → flag k ≠ 0
  disjoint : ∀ k j, K k → K j → k ≠ j → flag k &&& flag j = 0

/-- The bitwise or of the bytes. -/
def union (flag : κ → UInt8) (ks : List κ) : UInt8 := ks.foldr (fun k byte => flag k ||| byte) 0

@[simp] theorem union_nil : union flag [] = 0 := rfl

@[simp] theorem union_cons (k : κ) (ks : List κ) :
    union flag (k :: ks) = flag k ||| union flag ks := rfl

theorem or_and_distrib (a b c : UInt8) : (a ||| b) &&& c = (a &&& c) ||| (b &&& c) :=
  UInt8.toBitVec_inj.mp BitVec.and_or_distrib_right

/-- The order of the keys does not matter. -/
theorem union_perm {ks js : List κ} (h : ks.Perm js) : union flag ks = union flag js := by
  induction h with
  | nil => rfl
  | cons k _ ih => rw [union_cons, union_cons, ih]
  | swap k j ks =>
    rw [union_cons, union_cons, union_cons, union_cons, ← UInt8.or_assoc, ← UInt8.or_assoc,
      UInt8.or_comm (flag j)]
  | trans _ _ ih₁ ih₂ => exact ih₁.trans ih₂

namespace Distinct

variable {k : κ} {ks js : List κ}

theorem union_and_of_not_mem (h : Distinct flag K) (hks : ∀ j ∈ ks, K j) (hk : K k)
    (hMem : k ∉ ks) : union flag ks &&& flag k = 0 := by
  induction ks with
  | nil => exact UInt8.zero_and
  | cons j ks ih =>
    rw [List.forall_mem_cons] at hks
    rw [List.mem_cons, not_or] at hMem
    rw [union_cons, or_and_distrib, ih hks.2 hMem.2,
      h.disjoint j k hks.1 hk fun hEq => hMem.1 hEq.symm, UInt8.or_self]

theorem union_and_of_mem (h : Distinct flag K) (hks : ∀ j ∈ ks, K j) (hMem : k ∈ ks) :
    union flag ks &&& flag k = flag k := by
  induction ks with
  | nil => cases hMem
  | cons j ks ih =>
    have hk := hks k hMem
    rw [List.forall_mem_cons] at hks
    rw [union_cons, or_and_distrib]
    by_cases hRest : k ∈ ks
    · rw [ih hks.2 hRest]
      by_cases hEq : j = k
      · rw [hEq, UInt8.and_self, UInt8.or_self]
      · rw [h.disjoint j k hks.1 hk hEq, UInt8.zero_or]
    · obtain rfl := (List.mem_cons.mp hMem).resolve_right hRest
      rw [h.union_and_of_not_mem hks.2 hk hRest, UInt8.and_self, UInt8.or_zero]

/-- A key is in the list just when its bits are in the byte. -/
theorem mem_iff_union (h : Distinct flag K) (hks : ∀ j ∈ ks, K j) (hk : K k) :
    k ∈ ks ↔ union flag ks &&& flag k ≠ 0 := by
  by_cases hMem : k ∈ ks
  · rw [h.union_and_of_mem hks hMem]
    exact iff_of_true hMem (h.ne_zero k hk)
  · rw [h.union_and_of_not_mem hks hk hMem]
    exact iff_of_false hMem (not_not.mpr rfl)

/-- **Byte and keys.** Two lists without repetitions have the same byte just when
they have the same keys. -/
theorem union_eq_iff (h : Distinct flag K) (hks : ∀ k ∈ ks, K k) (hjs : ∀ k ∈ js, K k)
    (hksNodup : ks.Nodup) (hjsNodup : js.Nodup) :
    union flag ks = union flag js ↔ ∀ k, k ∈ ks ↔ k ∈ js := by
  constructor
  · intro hEq k
    by_cases hk : K k
    · rw [h.mem_iff_union hks hk, h.mem_iff_union hjs hk, hEq]
    · exact iff_of_false (fun hMem => hk (hks k hMem)) fun hMem => hk (hjs k hMem)
  · intro hMem
    exact union_perm ((List.perm_ext_iff_of_nodup hksNodup hjsNodup).mpr hMem)

end Distinct

end Flags
