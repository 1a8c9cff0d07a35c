import Mathlib.Algebra.BigOperators.Group.Finset.Basic
import Mathlib.Algebra.GroupWithZero.Nat
import Mathlib.Algebra.Order.BigOperators.Group.List
import Mathlib.Data.List.FinRange
import Mathlib.Data.List.Perm.Basic
import Mathlib.Tactic.Lemma

/-!
# Tallies

An accounting argument compares a count of what has happened with a sum over what there is now.
The sum is over a list of which a step updates one element, or over tasks of which a step moves
one; the lemmas here say what such a step does to it.  `countP_eq_of_nodup` compares a count of
positions with a count of what stands there, and `exists_perm_of_perm_map` rearranges a list that is
known up to order by what is mapped to it.
-/

namespace List

variable {α : Type*}

/-- An update changes a sum by what it does to the element it is of. -/
lemma sum_map_modify {l : List α} {i : ℕ} {a : α} (h : l[i]? = some a) (f : α → α) (g : α → ℕ) :
    ((l.modify i f).map g).sum + g a = (l.map g).sum + g (f a) := by
  induction l generalizing i with
  | nil => simp at h
  | cons b l ih =>
    cases i with
    | zero =>
      obtain rfl : b = a := by simpa using h
      simp only [modify_zero_cons, map_cons, sum_cons]
      omega
    | succ i =>
      have hrest := ih (i := i) (by simpa using h)
      simp only [modify_succ_cons, map_cons, sum_cons]
      omega

/-- An update that leaves what is summed as it was. -/
lemma sum_map_modify_of_eq (l : List α) (i : ℕ) {f : α → α} {g : α → ℕ}
    (h : ∀ a, l[i]? = some a → g (f a) = g a) : ((l.modify i f).map g).sum = (l.map g).sum := by
  cases hi : l[i]? with
  | none => rw [modify_eq_self (getElem?_eq_none_iff.mp hi)]
  | some a =>
    have hsum := sum_map_modify hi f g
    rw [h a hi] at hsum
    exact Nat.add_right_cancel hsum

/-- A list of distinct positions counts the elements that stand at them. -/
lemma countP_eq_of_nodup {l : List ℕ} (hl : l.Nodup) {as : List α} {p : ℕ → Bool} {q : α → Bool}
    (hiff : ∀ r, r ∈ l ∧ p r = true ↔ ∃ a, as[r]? = some a ∧ q a = true) :
    l.countP p = as.countP q := by
  set at' : List ℕ := ((finRange as.length).filter fun i => q (as.get i)).map Fin.val
  have hnodup : at'.Nodup :=
    ((nodup_finRange as.length).filter _).map Fin.val_injective
  have hmem : ∀ r, r ∈ l.filter p ↔ r ∈ at' := by
    intro r
    rw [mem_filter, hiff, mem_map]
    constructor
    · rintro ⟨a, hr, ha⟩
      obtain ⟨hlt, rfl⟩ := getElem?_eq_some_iff.mp hr
      exact ⟨⟨r, hlt⟩, mem_filter.mpr ⟨mem_finRange _, ha⟩, rfl⟩
    · rintro ⟨i, hi, rfl⟩
      exact ⟨as.get i, getElem?_eq_getElem i.isLt, (mem_filter.mp hi).2⟩
  calc l.countP p = (l.filter p).length := countP_eq_length_filter
    _ = at'.length :=
      ((perm_ext_iff_of_nodup (hl.filter p) hnodup).mpr hmem).length_eq
    _ = (finRange as.length).countP fun i => q (as.get i) := by
      rw [length_map, countP_eq_length_filter]
    _ = as.countP q := by
      conv_rhs => rw [← ofFn_get as, ofFn_eq_map, countP_map]
      rfl

/-- A permutation of a mapped list is the map of a permutation. -/
lemma exists_perm_of_perm_map {β : Type*} {f : α → β} {l : List β} {as : List α}
    (h : l.Perm (as.map f)) : ∃ bs : List α, bs.Perm as ∧ l = bs.map f := by
  have hforall : Forall₂ (fun b a => b = f a) (as.map f) as :=
    forall₂_map_left_iff.mpr (forall₂_same.mpr fun _ _ => rfl)
  obtain ⟨bs, hbs, hperm⟩ := perm_comp_forall₂ h hforall
  refine ⟨bs, hperm, ?_⟩
  have hmap : Forall₂ Eq l (bs.map f) := forall₂_map_right_iff.mpr hbs
  rwa [forall₂_eq_eq_eq] at hmap

end List

/-- A sum over tasks, of which one moves, and the others count for what they did. -/
lemma Finset.sum_update_add {τ : Type*} {s : Finset ℕ} {i : ℕ} (hi : i ∈ s) {task : ℕ → τ}
    (t : τ) {f g : τ → ℕ} (hothers : ∀ j ≠ i, g (task j) = f (task j)) :
    ∑ j ∈ s, g (Function.update task i t j) + f (task i) = ∑ j ∈ s, f (task j) + g t := by
  have hrest : ∑ j ∈ s.erase i, g (Function.update task i t j) =
      ∑ j ∈ s.erase i, f (task j) := by
    refine sum_congr rfl fun j hj => ?_
    rw [Function.update_of_ne (ne_of_mem_erase hj), hothers j (ne_of_mem_erase hj)]
  rw [← add_sum_erase s _ hi, ← add_sum_erase s (fun j => f (task j)) hi, hrest,
    Function.update_self]
  omega
