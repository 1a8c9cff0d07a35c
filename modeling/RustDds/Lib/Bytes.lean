import Mathlib.Data.List.Basic
import Mathlib.Algebra.Order.Group.Nat
import Mathlib.Tactic.Ring
import Mathlib.Tactic.Lemma

/-!
# Byte strings and little-endian fields

A wire format of fixed-width little-endian fields is read back by cutting a byte string at
constant offsets.  `ofNatLE w n` writes the `w` low bytes of `n`, least significant first, and
`toNatLE` reads any byte string as a number; `toNatLE_ofNatLE` is the round trip, exact modulo
`256 ^ w`, so that a truncating cast on the sending side needs no separate treatment.

`slice b i j` is the half-open cut `b[i..j]`.  The two laws a decoder's proof uses are
`slice_append_left`, which reads the first field of a concatenation, and
`slice_append_right`, which skips it; between them they walk any right-nested concatenation
whose fields have known widths.  `readU16` and `readU32` read a field in place and come with
the same two laws.

`getRange` is the cut that may leave the string.  `readU16BE` and `ofU16BE` are the big-endian
fields.

`FixedBytes n` is a byte array whose length is part of its type.
-/

/-- A byte string. -/
abbrev Bytes := List UInt8

namespace Bytes

/-! ## Little-endian numbers -/

/-- The `w` low bytes of `n`, least significant first. -/
def ofNatLE : ℕ → ℕ → Bytes
  | 0, _ => []
  | w + 1, n => UInt8.ofNat n :: ofNatLE w (n / 256)

/-- The number a byte string denotes, least significant byte first. -/
def toNatLE : Bytes → ℕ
  | [] => 0
  | b :: bs => b.toNat + 256 * toNatLE bs

@[simp] lemma length_ofNatLE (w n : ℕ) : (ofNatLE w n).length = w := by
  induction w generalizing n with
  | zero => rfl
  | succ w ih => simp [ofNatLE, ih]

/-- Writing `w` bytes and reading them back keeps the value modulo `256 ^ w`. -/
@[simp] lemma toNatLE_ofNatLE (w n : ℕ) : toNatLE (ofNatLE w n) = n % 256 ^ w := by
  induction w generalizing n with
  | zero => simp [ofNatLE, toNatLE, Nat.mod_one]
  | succ w ih =>
    have hbyte : (UInt8.ofNat n).toNat = n % 256 := by simp
    rw [ofNatLE, toNatLE, ih, hbyte, pow_succ, Nat.mul_comm (256 ^ w) 256, Nat.mod_mul]

/-- A machine integer survives its bytes. -/
lemma uint16_toNatLE (n : UInt16) : UInt16.ofNat (toNatLE (ofNatLE 2 n.toNat)) = n := by
  rw [toNatLE_ofNatLE, Nat.mod_eq_of_lt (by simpa using n.toNat_lt), UInt16.ofNat_toNat]

lemma uint32_toNatLE (n : UInt32) : UInt32.ofNat (toNatLE (ofNatLE 4 n.toNat)) = n := by
  rw [toNatLE_ofNatLE, Nat.mod_eq_of_lt (by simpa using n.toNat_lt), UInt32.ofNat_toNat]

lemma uint64_toNatLE (n : UInt64) : UInt64.ofNat (toNatLE (ofNatLE 8 n.toNat)) = n := by
  rw [toNatLE_ofNatLE, Nat.mod_eq_of_lt (by simpa using n.toNat_lt), UInt64.ofNat_toNat]

/-! ## Slices -/

/-- `b[i..j]`, empty where the range leaves the string. -/
def slice {α : Type*} (b : List α) (i j : ℕ) : List α := (b.drop i).take (j - i)

@[simp] lemma length_slice {α : Type*} (b : List α) (i j : ℕ) :
    (slice b i j).length = min (j - i) (b.length - i) := by
  simp [slice]

/-- The first field of a concatenation. -/
lemma slice_append_left {α : Type*} {a b : List α} {j : ℕ} (h : a.length = j) :
    slice (a ++ b) 0 j = a := by
  subst h
  simp [slice]

/-- Skipping the first field of a concatenation. -/
lemma slice_append_right {α : Type*} {a b : List α} {i j : ℕ} (h : a.length ≤ i) :
    slice (a ++ b) i j = slice b (i - a.length) (j - a.length) := by
  have hj : j - a.length - (i - a.length) = j - i := by omega
  rw [slice, slice, List.drop_append, List.drop_eq_nil_of_le h, List.nil_append, hj]

lemma drop_append_right {α : Type*} {a b : List α} {i : ℕ} (h : a.length ≤ i) :
    (a ++ b).drop i = b.drop (i - a.length) := by
  rw [List.drop_append, List.drop_eq_nil_of_le h, List.nil_append]

lemma getElem?_slice {α : Type*} (b : List α) (i j k : ℕ) (h : i + k < j) :
    (slice b i j)[k]? = b[i + k]? := by
  rw [slice, List.getElem?_take_of_lt (by omega), List.getElem?_drop]

/-! ## Reading fields -/

/-- The byte at `i`. -/
def readU8 (b : Bytes) (i : ℕ) : UInt8 := b.getD i 0

/-- `u16::from_le_bytes` of the two bytes at `i`. -/
def readU16 (b : Bytes) (i : ℕ) : UInt16 := UInt16.ofNat (toNatLE (slice b i (i + 2)))

/-- `u32::from_le_bytes` of the four bytes at `i`. -/
def readU32 (b : Bytes) (i : ℕ) : UInt32 := UInt32.ofNat (toNatLE (slice b i (i + 4)))

/-- `to_le_bytes` of a `u16`. -/
def ofU16 (n : UInt16) : Bytes := ofNatLE 2 n.toNat

/-- `to_le_bytes` of a `u32`. -/
def ofU32 (n : UInt32) : Bytes := ofNatLE 4 n.toNat

@[simp] lemma length_ofU16 (n : UInt16) : (ofU16 n).length = 2 := length_ofNatLE 2 _

@[simp] lemma length_ofU32 (n : UInt32) : (ofU32 n).length = 4 := length_ofNatLE 4 _

/-- Reading a field behind a prefix. -/
lemma readU16_append_right {a b : Bytes} {i : ℕ} (h : a.length ≤ i) :
    readU16 (a ++ b) i = readU16 b (i - a.length) := by
  rw [readU16, readU16, slice_append_right h, show i + 2 - a.length = i - a.length + 2 by omega]

lemma readU32_append_right {a b : Bytes} {i : ℕ} (h : a.length ≤ i) :
    readU32 (a ++ b) i = readU32 b (i - a.length) := by
  rw [readU32, readU32, slice_append_right h, show i + 4 - a.length = i - a.length + 4 by omega]

@[simp] lemma readU16_ofU16_append (n : UInt16) (b : Bytes) : readU16 (ofU16 n ++ b) 0 = n := by
  rw [readU16, slice_append_left (by simp), ofU16, uint16_toNatLE]

@[simp] lemma readU32_ofU32_append (n : UInt32) (b : Bytes) : readU32 (ofU32 n ++ b) 0 = n := by
  rw [readU32, slice_append_left (by simp), ofU32, uint32_toNatLE]

@[simp] lemma readU32_ofU32 (n : UInt32) : readU32 (ofU32 n) 0 = n := by
  simpa using readU32_ofU32_append n []

lemma readU8_append_right {a b : Bytes} {i : ℕ} (h : a.length ≤ i) :
    readU8 (a ++ b) i = readU8 b (i - a.length) := by
  rw [readU8, readU8, List.getD_eq_getElem?_getD, List.getElem?_append_right h,
    ← List.getD_eq_getElem?_getD]

/-! ## Big-endian numbers -/

/-- `to_be_bytes` of a `u16`. -/
def ofU16BE (n : UInt16) : Bytes := [UInt8.ofNat (n.toNat / 256), UInt8.ofNat n.toNat]

/-- `u16::from_be_bytes` of the two bytes at `i`. -/
def readU16BE (b : Bytes) (i : ℕ) : UInt16 :=
  UInt16.ofNat ((readU8 b i).toNat * 256 + (readU8 b (i + 1)).toNat)

@[simp] lemma length_ofU16BE (n : UInt16) : (ofU16BE n).length = 2 := rfl

lemma readU16BE_append_right {a b : Bytes} {i : ℕ} (h : a.length ≤ i) :
    readU16BE (a ++ b) i = readU16BE b (i - a.length) := by
  rw [readU16BE, readU16BE, readU8_append_right h, readU8_append_right (by omega),
    show i + 1 - a.length = i - a.length + 1 by omega]

@[simp] lemma readU16BE_ofU16BE_append (n : UInt16) (b : Bytes) :
    readU16BE (ofU16BE n ++ b) 0 = n := by
  have hn := n.toNat_lt
  have hhigh : (readU8 (ofU16BE n ++ b) 0).toNat = n.toNat / 256 := by
    rw [show readU8 (ofU16BE n ++ b) 0 = UInt8.ofNat (n.toNat / 256) from rfl,
      UInt8.toNat_ofNat']
    omega
  have hlow : (readU8 (ofU16BE n ++ b) (0 + 1)).toNat = n.toNat % 256 := by
    rw [show readU8 (ofU16BE n ++ b) (0 + 1) = UInt8.ofNat n.toNat from rfl, UInt8.toNat_ofNat']
  rw [readU16BE, hhigh, hlow, Nat.div_add_mod', UInt16.ofNat_toNat]

/-! ## Ranges that may not be there -/

/-- `b.get(i..j)`. -/
def getRange (b : Bytes) (i j : ℕ) : Option Bytes :=
  if i ≤ j ∧ j ≤ b.length then some (slice b i j) else none

lemma getRange_eq_some {b s : Bytes} {i j : ℕ} :
    getRange b i j = some s ↔ i ≤ j ∧ j ≤ b.length ∧ slice b i j = s := by
  rw [getRange]
  split_ifs with h
  · simp [h]
  · simp only [false_iff]
    exact fun h' => h ⟨h'.1, h'.2.1⟩

/-- A part of a concatenation. -/
lemma getRange_append {a b c : Bytes} {i j : ℕ} (hi : a.length = i) (hj : i + b.length = j) :
    getRange (a ++ (b ++ c)) i j = some b := by
  subst hi hj
  refine getRange_eq_some.mpr ⟨Nat.le_add_right _ _, by simp, ?_⟩
  rw [slice_append_right le_rfl, Nat.sub_self, Nat.add_sub_cancel_left]
  exact slice_append_left rfl

/-- A slice of a slice. -/
lemma slice_slice {b : Bytes} {i j k l : ℕ} (hl : i + l ≤ j) :
    slice (slice b i j) k l = slice b (i + k) (i + l) := by
  rw [slice, slice, slice, List.drop_take, List.drop_drop, List.take_take]
  congr 1
  omega

/-- A field of a slice. -/
lemma readU32_slice {b : Bytes} {i j k : ℕ} (h : i + (k + 4) ≤ j) :
    readU32 (slice b i j) k = readU32 b (i + k) := by
  rw [readU32, readU32, slice_slice h, Nat.add_assoc]

end Bytes

/-! ## Byte arrays of fixed length -/

/-- A byte array `[u8; n]`. -/
@[ext] structure FixedBytes (n : ℕ) where
  bytes : Bytes
  length_eq : bytes.length = n
  deriving DecidableEq

namespace FixedBytes

variable {n : ℕ}

@[simp] lemma length_bytes (a : FixedBytes n) : a.bytes.length = n := a.length_eq

/-- `[0u8; n]`. -/
def zero (n : ℕ) : FixedBytes n := ⟨List.replicate n 0, List.length_replicate⟩

/-- A byte string long enough for an array begins with one. -/
lemma exists_eq_append {b : Bytes} (h : n ≤ b.length) :
    ∃ (a : FixedBytes n) (rest : Bytes), b = a.bytes ++ rest :=
  ⟨⟨b.take n, List.length_take_of_le h⟩, b.drop n, (List.take_append_drop n b).symm⟩

/-- And it ends with one. -/
lemma exists_append_eq {b : Bytes} (h : n ≤ b.length) :
    ∃ (rest : Bytes) (a : FixedBytes n), b = rest ++ a.bytes := by
  have hdrop : (b.drop (b.length - n)).length = n := by
    rw [List.length_drop]
    omega
  exact ⟨b.take (b.length - n), ⟨_, hdrop⟩, (List.take_append_drop _ b).symm⟩

end FixedBytes
