import Mathlib.Algebra.Order.Floor.Div
import Mathlib.Data.Finset.Card
import Mathlib.Tactic.Lemma
import RustDds.Lib.Bytes

/-!
# Cutting a range into cells

A range of `size` places cut into cells of `width` has `size ⌈/⌉ width` of them, the last one
possibly short: cell `i` is `[i * width, min ((i + 1) * width) size)`.  `mem_cell_div` says
that every place lies in a cell, so a set of cells that is as large as the number of cells
covers the range (`covered_of_card_le`).  That is what a receiver which merely counts distinct
cells relies on.  `flatMap_cells` is the same for a list cut along the cells: put together in
order, its pieces are the list.
-/

namespace Tiling

variable {size width : ℕ}

/-- The first place of cell `i`. -/
def cellStart (width i : ℕ) : ℕ := i * width

/-- The place behind cell `i`. -/
def cellEnd (size width i : ℕ) : ℕ := min ((i + 1) * width) size

/-- Cell `i` exists exactly if its first place does. -/
lemma lt_ceilDiv_iff (h : 0 < width) {i : ℕ} : i < size ⌈/⌉ width ↔ i * width < size := by
  rw [← not_le, ceilDiv_le_iff_le_mul h, not_le, Nat.mul_comm]

lemma ceilDiv_le_self (h : 0 < width) : size ⌈/⌉ width ≤ size := by
  rw [ceilDiv_le_iff_le_mul h]
  exact Nat.le_mul_of_pos_left size h

/-- Every place lies in the cell of its quotient. -/
lemma mem_cell_div (h : 0 < width) {k : ℕ} (hk : k < size) :
    k / width < size ⌈/⌉ width ∧ cellStart width (k / width) ≤ k ∧
      k < cellEnd size width (k / width) := by
  have hle : k / width * width ≤ k := Nat.div_mul_le_self k width
  have hlt : k < (k / width + 1) * width := by
    have := Nat.lt_mul_div_succ k h
    rwa [Nat.mul_comm] at this
  exact ⟨(lt_ceilDiv_iff h).mpr (by omega), hle, lt_min hlt hk⟩

/-- As many distinct cells as there are, all of them existing, are all the cells. -/
lemma mem_of_card_le {s : Finset ℕ} (hs : ∀ i ∈ s, i < size ⌈/⌉ width)
    (hcard : size ⌈/⌉ width ≤ s.card) {i : ℕ} (hi : i < size ⌈/⌉ width) : i ∈ s := by
  have hsub : s ⊆ Finset.range (size ⌈/⌉ width) := fun i hi => Finset.mem_range.mpr (hs i hi)
  have heq : s = Finset.range (size ⌈/⌉ width) :=
    Finset.eq_of_subset_of_card_le hsub (by rwa [Finset.card_range])
  rw [heq]
  exact Finset.mem_range.mpr hi

/-- A property of places that holds on each cell of a set as large as the number of cells
holds of the whole range. -/
lemma covered_of_card_le (h : 0 < width) {s : Finset ℕ} {P : ℕ → Prop}
    (hs : ∀ i ∈ s, i < size ⌈/⌉ width) (hcard : size ⌈/⌉ width ≤ s.card)
    (hP : ∀ i ∈ s, ∀ k, cellStart width i ≤ k → k < cellEnd size width i → P k)
    {k : ℕ} (hk : k < size) : P k := by
  obtain ⟨hcell, hstart, hend⟩ := mem_cell_div h hk
  exact hP _ (mem_of_card_le hs hcard hcell) k hstart hend

/-- The pieces of a list along its first `k` cells are its first `k * width` entries. -/
lemma flatMap_range_cells {α : Type*} (l : List α) (width k : ℕ) :
    (List.range k).flatMap
        (fun i => Bytes.slice l (cellStart width i) (cellEnd l.length width i)) =
      l.take (k * width) := by
  induction k with
  | zero => simp
  | succ k ih =>
    have hpiece : Bytes.slice l (cellStart width k) (cellEnd l.length width k) =
        (l.drop (k * width)).take width := by
      rw [Bytes.slice, cellStart, cellEnd, List.take_eq_take_iff, List.length_drop, Nat.succ_mul]
      omega
    rw [List.range_succ, List.flatMap_append, ih, List.flatMap_singleton, hpiece, Nat.succ_mul,
      List.take_add]

/-- **A list is its pieces**, one for each cell. -/
lemma flatMap_cells {α : Type*} (l : List α) (h : 0 < width) :
    (List.range (l.length ⌈/⌉ width)).flatMap
        (fun i => Bytes.slice l (cellStart width i) (cellEnd l.length width i)) = l := by
  rw [flatMap_range_cells]
  apply List.take_of_length_le
  have hle : l.length ≤ width * (l.length ⌈/⌉ width) := (ceilDiv_le_iff_le_mul h).mp le_rfl
  rwa [Nat.mul_comm] at hle

end Tiling
