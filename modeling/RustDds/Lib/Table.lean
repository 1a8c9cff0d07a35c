import Mathlib.Data.List.AList

/-!
# Finite tables

A `HashMap` as a list of entries with pairwise distinct keys (Mathlib's `AList`), with the
operations code performs on one: `AList.insert`, `AList.erase`, `AList.lookup`, and the three
defined here.  `retain` keeps the entries a predicate accepts, `adjust` updates one entry in
place, and `values` lists the values.  A proof about a table needs nothing beyond what each
operation does to `lookup`.
-/

/-- A finite map from `κ` to `ν`. -/
abbrev Table (κ ν : Type*) := AList (fun _ : κ => ν)

namespace Table

variable {κ ν : Type*}

/-- `HashMap::retain`: the entries `p` accepts. -/
def retain (p : κ → ν → Bool) (m : Table κ ν) : Table κ ν :=
  ⟨m.entries.filter fun e => p e.1 e.2,
    (List.filter_sublist.map Sigma.fst).nodup m.nodupKeys⟩

/-- The values, in iteration order. -/
def values (m : Table κ ν) : List ν := m.entries.map Sigma.snd

variable [DecidableEq κ]

/-- Update the value of `k`, if there is one, in place. -/
def adjust (k : κ) (f : ν → ν) (m : Table κ ν) : Table κ ν :=
  ⟨m.entries.map fun e => if e.1 = k then ⟨e.1, f e.2⟩ else e, by
    have hkeys : (m.entries.map fun e => if e.1 = k then (⟨e.1, f e.2⟩ : Sigma _) else e).keys =
        m.entries.keys := by
      simp only [List.keys, List.map_map]
      refine List.map_congr_left fun e _ => ?_
      simp only [Function.comp]
      split <;> rfl
    rw [List.NodupKeys, hkeys]
    exact m.nodupKeys⟩

lemma mem_entries_iff {m : Table κ ν} {k : κ} {v : ν} :
    (⟨k, v⟩ : Sigma fun _ : κ => ν) ∈ m.entries ↔ m.lookup k = some v :=
  AList.mem_lookup_iff.symm

lemma mem_values_iff {m : Table κ ν} {v : ν} : v ∈ m.values ↔ ∃ k, m.lookup k = some v := by
  simp only [values, List.mem_map, ← mem_entries_iff]
  exact ⟨fun ⟨e, he, hv⟩ => ⟨e.1, hv ▸ he⟩, fun ⟨k, hk⟩ => ⟨_, hk, rfl⟩⟩

/-- Where no two keys have one value, no value is there twice. -/
lemma nodup_values {m : Table κ ν}
    (h : ∀ k k' v, m.lookup k = some v → m.lookup k' = some v → k = k') : m.values.Nodup := by
  refine List.Nodup.map_on (fun e he e' he' heq => ?_) m.nodupKeys.nodup
  obtain ⟨k, v⟩ := e
  obtain ⟨k', v'⟩ := e'
  dsimp only at heq
  subst heq
  rw [h k k' v (mem_entries_iff.mp he) (mem_entries_iff.mp he')]

lemma mem_keys_iff {m : Table κ ν} {k : κ} : k ∈ m.keys ↔ ∃ v, m.lookup k = some v := by
  rw [← Option.isSome_iff_exists, AList.lookup_isSome, AList.mem_keys]

lemma lookup_eq_none_iff {m : Table κ ν} {k : κ} : m.lookup k = none ↔ k ∉ m.keys := by
  rw [AList.lookup_eq_none, AList.mem_keys]

lemma mem_keys_insert {m : Table κ ν} {k k' : κ} {v : ν} :
    k ∈ (m.insert k' v).keys ↔ k = k' ∨ k ∈ m.keys := by
  rw [← AList.mem_keys, AList.mem_insert, AList.mem_keys]

/-- A value of a function that was changed at one place. -/
lemma update_eq {f : κ → ν} {k k' : κ} {v w : ν} :
    Function.update f k' v k = w ↔ k = k' ∧ v = w ∨ k ≠ k' ∧ f k = w := by
  by_cases hk : k = k'
  · subst hk
    simp
  · rw [Function.update_of_ne hk]
    simp [hk]

/-- A value that differs from the one at the place that is changed stays. -/
lemma update_of_value_ne {f : κ → ν} {k k' : κ} {v w : ν} (hk : f k = w) (hne : f k' ≠ w) :
    Function.update f k' v k = w := by
  refine update_eq.mpr (.inr ⟨?_, hk⟩)
  rintro rfl
  exact hne hk

lemma lookup_insert_eq_some {m : Table κ ν} {k k' : κ} {v w : ν} :
    (m.insert k' v).lookup k = some w ↔ k = k' ∧ w = v ∨ k ≠ k' ∧ m.lookup k = some w := by
  by_cases hk : k = k'
  · subst hk
    rw [AList.lookup_insert, Option.some.injEq]
    simp [eq_comm]
  · rw [AList.lookup_insert_ne hk]
    simp [hk]

lemma mem_values_of_insert {m : Table κ ν} {k : κ} {v w : ν} (h : w ∈ values (m.insert k v)) :
    w = v ∨ w ∈ m.values := by
  obtain ⟨k', hk'⟩ := mem_values_iff.mp h
  exact (lookup_insert_eq_some.mp hk').imp And.right fun hold => mem_values_iff.mpr ⟨k', hold.2⟩

@[simp] lemma lookup_retain (p : κ → ν → Bool) (m : Table κ ν) (k : κ) :
    (m.retain p).lookup k = (m.lookup k).filter (p k) := by
  ext v
  rw [Option.filter_eq_some_iff, ← mem_entries_iff, ← mem_entries_iff, retain, List.mem_filter]

omit [DecidableEq κ] in
lemma mem_values_of_retain {p : κ → ν → Bool} {m : Table κ ν} {v : ν}
    (h : v ∈ Table.values (m.retain p)) : v ∈ m.values := by
  obtain ⟨e, he, rfl⟩ := List.mem_map.mp h
  exact List.mem_map_of_mem (List.mem_of_mem_filter he)

lemma retain_eq_self {p : κ → ν → Bool} {m : Table κ ν}
    (h : ∀ k v, m.lookup k = some v → p k v = true) : m.retain p = m := by
  refine AList.ext (List.filter_eq_self.mpr fun e he => ?_)
  exact h e.1 e.2 (mem_entries_iff.mp he)

lemma lookup_adjust (k k' : κ) (f : ν → ν) (m : Table κ ν) :
    (m.adjust k f).lookup k' = if k' = k then (m.lookup k').map f else m.lookup k' := by
  ext v
  rw [← mem_entries_iff, adjust, List.mem_map]
  constructor
  · rintro ⟨⟨j, w⟩, hmem, he⟩
    have hlook := mem_entries_iff.mp hmem
    by_cases hj : j = k
    · simp only [hj, if_true] at he
      cases he
      rw [if_pos rfl, ← hj, hlook]
      rfl
    · simp only [hj, if_false] at he
      cases he
      rw [if_neg hj, hlook]
  · intro h
    split at h
    · rename_i hk
      obtain ⟨w, hw, rfl⟩ := Option.map_eq_some_iff.mp h
      exact ⟨⟨k', w⟩, mem_entries_iff.mpr hw, by simp [hk]⟩
    · rename_i hk
      exact ⟨⟨k', v⟩, mem_entries_iff.mpr h, by simp [hk]⟩

@[simp] lemma lookup_adjust_self (k : κ) (f : ν → ν) (m : Table κ ν) :
    (m.adjust k f).lookup k = (m.lookup k).map f := by
  rw [lookup_adjust, if_pos rfl]

lemma lookup_adjust_of_ne {k k' : κ} (h : k' ≠ k) (f : ν → ν) (m : Table κ ν) :
    (m.adjust k f).lookup k' = m.lookup k' := by
  rw [lookup_adjust, if_neg h]

lemma mem_adjust {k k' : κ} {f : ν → ν} {m : Table κ ν} : k' ∈ m.adjust k f ↔ k' ∈ m := by
  rw [← AList.lookup_isSome, ← AList.lookup_isSome, lookup_adjust]
  split
  · rename_i hk
    rw [hk, Option.isSome_map]
  · rfl

end Table
