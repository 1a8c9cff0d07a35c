import RustDds.Lib.Panic
import Mathlib.Data.List.Basic
import Mathlib.Data.Nat.Bitwise
import Mathlib.Tactic.Lemma

/-!
# Bitmaps of one word

A set of at most 32 small numbers as a `UInt32`: `set` is `b |= 1 << n` and `test` is
`b & (1 << n) != 0`.  `members` lists the numbers in the set, in ascending order.
-/

namespace Bitmap

/-- `b | (1 << n)`. -/
def set (b : UInt32) (n : ℕ) : UInt32 := b ||| (1 <<< UInt32.ofNat n)

/-- `b | (1 << n)`, with overflow checks. -/
def checkedSet (b : UInt32) (n : ℕ) : Except Panic UInt32 :=
  if n < 32 then .ok (set b n) else .error .overflow

lemma checkedSet_of_lt {n : ℕ} (h : n < 32) (b : UInt32) : checkedSet b n = .ok (set b n) :=
  if_pos h

/-- `b & (1 << n) != 0`. -/
def test (b : UInt32) (n : ℕ) : Bool := b &&& (1 <<< UInt32.ofNat n) != 0

/-- The numbers below 32 in the set. -/
def members (b : UInt32) : List ℕ := (List.range 32).filter fun n => test b n

lemma toNat_one_shiftLeft {n : ℕ} (h : n < 32) :
    ((1 : UInt32) <<< UInt32.ofNat n).toNat = 2 ^ n := by
  have hn : (UInt32.ofNat n).toNat = n := UInt32.toNat_ofNat_of_lt' (by
    have : (32 : ℕ) ≤ UInt32.size := by decide
    omega)
  have hlt : 2 ^ n < 2 ^ 32 := Nat.pow_lt_pow_right (by decide) h
  rw [UInt32.toNat_shiftLeft, hn, Nat.mod_eq_of_lt h, Nat.shiftLeft_eq]
  simpa using hlt

lemma test_eq_testBit {b : UInt32} {n : ℕ} (h : n < 32) : test b n = b.toNat.testBit n := by
  have hand : (b &&& (1 <<< UInt32.ofNat n)).toNat = (b.toNat.testBit n).toNat * 2 ^ n := by
    rw [UInt32.toNat_and, toNat_one_shiftLeft h, Nat.and_two_pow]
  have hpos : 0 < 2 ^ n := Nat.two_pow_pos n
  rw [test]
  cases hbit : b.toNat.testBit n
  · rw [hbit] at hand
    have : b &&& (1 <<< UInt32.ofNat n) = 0 := UInt32.toNat_inj.mp (by simpa using hand)
    simp [this]
  · rw [hbit] at hand
    have : b &&& (1 <<< UInt32.ofNat n) ≠ 0 := by
      intro h0
      rw [h0, Bool.toNat_true, Nat.one_mul, UInt32.toNat_zero] at hand
      omega
    simpa using this

@[simp] lemma test_zero {n : ℕ} (h : n < 32) : test 0 n = false := by
  rw [test_eq_testBit h]
  exact Nat.zero_testBit n

/-- Setting a bit sets it and no other. -/
lemma test_set {b : UInt32} {n m : ℕ} (hn : n < 32) (hm : m < 32) :
    test (set b n) m = (test b m || decide (n = m)) := by
  rw [test_eq_testBit hm, test_eq_testBit hm, set, UInt32.toNat_or, toNat_one_shiftLeft hn,
    Nat.testBit_or, Nat.testBit_two_pow]

lemma mem_members {b : UInt32} {n : ℕ} : n ∈ members b ↔ n < 32 ∧ test b n = true := by
  rw [members, List.mem_filter, List.mem_range]

end Bitmap
