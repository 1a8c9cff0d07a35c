import Mathlib.Data.List.DropRight
import Mathlib.Data.List.Infix
import Mathlib.Tactic.Lemma

/-!
# The last entries of a list

A buffer of bounded size that drops its oldest entry for a new one holds the last entries of all
that was put into it (`rtake_bounded`), and still does when it is given many (`foldl_bounded`).
A suffix is known by its length (`eq_rtake_of_suffix`).
-/

namespace List

variable {α : Type*} {n : ℕ} {l l' : List α}

lemma rtake_suffix (n : ℕ) (l : List α) : l.rtake n <:+ l := drop_suffix _ l

lemma length_rtake (n : ℕ) (l : List α) : (l.rtake n).length = min n l.length := by
  rw [rtake, length_drop]
  omega

/-- A suffix is known by its length. -/
lemma eq_rtake_of_suffix (h : l' <:+ l) (hlength : l'.length = min n l.length) :
    l' = l.rtake n := by
  rw [suffix_iff_eq_drop.1 h, rtake, hlength]
  congr 1
  omega

/-- What a bounded buffer holds after one more entry. -/
def bounded (n : ℕ) (buffer : List α) (x : α) : List α :=
  (if buffer.length ≥ n then buffer.tail else buffer) ++ [x]

/-- **A bounded buffer** holds the last entries. -/
lemma rtake_bounded (hn : 0 < n) (l : List α) (x : α) :
    bounded n (l.rtake n) x = (l ++ [x]).rtake n := by
  refine eq_rtake_of_suffix ?_ ?_
  · rw [bounded]
    obtain ⟨front, hfront⟩ := rtake_suffix n l
    split
    · refine ((tail_suffix _).trans ⟨front, hfront⟩).elim fun front' hfront' => ⟨front', ?_⟩
      rw [← append_assoc, hfront']
    · exact ⟨front, by rw [← append_assoc, hfront]⟩
  · have hlength := length_rtake n l
    rw [bounded]
    split <;> simp only [length_append, length_tail, length_singleton] <;> omega

lemma foldl_bounded (hn : 0 < n) (l xs : List α) :
    xs.foldl (bounded n) (l.rtake n) = (l ++ xs).rtake n := by
  induction xs generalizing l with
  | nil => rw [foldl_nil, append_nil]
  | cons x xs ih => rw [foldl_cons, rtake_bounded hn, ih, append_assoc, singleton_append]

end List
