import RustDds.Lib.Cmd
import RustDds.Lib.Table

/-!
# Visiting every entry of a table

The loop `for (k, v) in table` whose body may change `v`, emit outputs and panic.  `Table.visit`
runs the body on each entry in iteration order; a panic ends the loop, and leaves the entry it
happened at changed and the later ones unvisited.

A body sees its own entry only, so what the loop does to an entry is what the body does to it
(`lookup_visit`), the loop returns if every body does (`panic_visit`), and outputs that only one
key can emit are those of its body (`filterMap_out_visit`).
-/

namespace Table

variable {κ ν ο π γ : Type*}

/-- The loop over a list of entries. -/
def visitEntries (f : κ → ν → Outcome ν ο π) :
    List (Sigma fun _ : κ => ν) → Outcome (List (Sigma fun _ : κ => ν)) ο π
  | [] => ⟨[], [], none⟩
  | e :: es =>
    match f e.1 e.2 with
    | ⟨v, out, some p⟩ => ⟨⟨e.1, v⟩ :: es, out, some p⟩
    | ⟨v, out, none⟩ =>
      let rest := visitEntries f es
      ⟨⟨e.1, v⟩ :: rest.state, out ++ rest.out, rest.panic⟩

section
variable {f : κ → ν → Outcome ν ο π} {k : κ} {v : ν}

/-- One turn of the loop. -/
lemma visitEntries_cons (f : κ → ν → Outcome ν ο π) (e : Sigma fun _ : κ => ν)
    (es : List (Sigma fun _ : κ => ν)) :
    (∃ p, (f e.1 e.2).panic = some p ∧
      visitEntries f (e :: es) = ⟨⟨e.1, (f e.1 e.2).state⟩ :: es, (f e.1 e.2).out, some p⟩) ∨
    (f e.1 e.2).panic = none ∧
      visitEntries f (e :: es) =
        ⟨⟨e.1, (f e.1 e.2).state⟩ :: (visitEntries f es).state,
          (f e.1 e.2).out ++ (visitEntries f es).out, (visitEntries f es).panic⟩ := by
  rw [visitEntries]
  rcases f e.1 e.2 with ⟨v, out, _ | p⟩
  · exact .inr ⟨rfl, rfl⟩
  · exact .inl ⟨p, rfl, rfl⟩

lemma keys_visitEntries (f : κ → ν → Outcome ν ο π) (es : List (Sigma fun _ : κ => ν)) :
    (visitEntries f es).state.keys = es.keys := by
  induction es with
  | nil => rfl
  | cons e es ih =>
    rcases visitEntries_cons f e es with ⟨p, -, h⟩ | ⟨-, h⟩
    · rw [h]
      rfl
    · rw [h, List.keys_cons, ih, List.keys_cons]

lemma panic_visitEntries {es : List (Sigma fun _ : κ => ν)} :
    (visitEntries f es).panic = none ↔ ∀ e ∈ es, (f e.1 e.2).panic = none := by
  induction es with
  | nil => simp [visitEntries]
  | cons e es ih =>
    rcases visitEntries_cons f e es with ⟨p, hp, h⟩ | ⟨hp, h⟩
    · simp [h, hp]
    · simp [h, hp, ih]

/-- Every visited entry is what its body made of it, and every other is as it was. -/
lemma mem_state_visitEntries {es : List (Sigma fun _ : κ => ν)} {e' : Sigma fun _ : κ => ν}
    (h : e' ∈ (visitEntries f es).state) :
    e' ∈ es ∧ (visitEntries f es).panic ≠ none ∨ ∃ e ∈ es, e' = ⟨e.1, (f e.1 e.2).state⟩ := by
  induction es with
  | nil => simp [visitEntries] at h
  | cons e es ih =>
    rcases visitEntries_cons f e es with ⟨p, hp, heq⟩ | ⟨hp, heq⟩
    · rw [heq] at h ⊢
      rcases List.mem_cons.mp h with rfl | h
      · exact .inr ⟨e, List.mem_cons_self, rfl⟩
      · exact .inl ⟨List.mem_cons_of_mem _ h, by simp⟩
    · rw [heq] at h ⊢
      rcases List.mem_cons.mp h with rfl | h
      · exact .inr ⟨e, List.mem_cons_self, rfl⟩
      · rcases ih h with ⟨hmem, hpanic⟩ | ⟨d, hd, hd'⟩
        · exact .inl ⟨List.mem_cons_of_mem _ hmem, hpanic⟩
        · exact .inr ⟨d, List.mem_cons_of_mem _ hd, hd'⟩

/-- Outputs that no entry but one can emit. -/
lemma filterMap_out_visitEntries {es : List (Sigma fun _ : κ => ν)} (g : ο → Option γ) (k : κ)
    (hnodup : es.NodupKeys)
    (hother : ∀ k' v', k' ≠ k → (f k' v').out.filterMap g = []) :
    (visitEntries f es).out.filterMap g = [] ∧
        ((visitEntries f es).panic = none → k ∈ es.keys → ∃ v, (⟨k, v⟩ : Sigma _) ∈ es ∧
          (f k v).out.filterMap g = []) ∨
      ∃ v, (⟨k, v⟩ : Sigma _) ∈ es ∧
        (visitEntries f es).out.filterMap g = (f k v).out.filterMap g := by
  induction es with
  | nil => exact .inl ⟨rfl, fun _ h => by cases h⟩
  | cons e es ih =>
    obtain ⟨k', v'⟩ := e
    obtain ⟨hnot, hnodup⟩ := List.nodupKeys_cons.mp hnodup
    by_cases hk : k' = k
    · subst hk
      -- the entry itself: what follows it cannot emit
      have hrest : (visitEntries f es).out.filterMap g = [] := by
        rcases ih hnodup with ⟨h, -⟩ | ⟨v, hmem, -⟩
        · exact h
        · exact absurd (List.mem_keys_of_mem hmem) hnot
      refine .inr ⟨v', List.mem_cons_self, ?_⟩
      rcases visitEntries_cons f ⟨k', v'⟩ es with ⟨p, -, heq⟩ | ⟨-, heq⟩
      · rw [heq]
      · rw [heq, List.filterMap_append, hrest, List.append_nil]
    · have hnone := hother k' v' hk
      rcases visitEntries_cons f ⟨k', v'⟩ es with ⟨p, -, heq⟩ | ⟨-, heq⟩
      · rw [heq]
        exact .inl ⟨hnone, fun h => by cases h⟩
      · rw [heq, List.filterMap_append, hnone, List.nil_append]
        rcases ih hnodup with ⟨h, hnil⟩ | ⟨v, hmem, h⟩
        · refine .inl ⟨h, fun hp hkeys => ?_⟩
          obtain ⟨v, hmem, hv⟩ := hnil hp
            ((List.mem_cons.mp hkeys).resolve_left fun he => hk he.symm)
          exact ⟨v, List.mem_cons_of_mem _ hmem, hv⟩
        · exact .inr ⟨v, List.mem_cons_of_mem _ hmem, h⟩

lemma mem_out_visitEntries {es : List (Sigma fun _ : κ => ν)} {o : ο}
    (h : o ∈ (visitEntries f es).out) : ∃ e ∈ es, o ∈ (f e.1 e.2).out := by
  induction es with
  | nil => simp [visitEntries] at h
  | cons e es ih =>
    rcases visitEntries_cons f e es with ⟨p, -, heq⟩ | ⟨-, heq⟩
    · rw [heq] at h
      exact ⟨e, List.mem_cons_self, h⟩
    · rw [heq] at h
      rcases List.mem_append.mp h with h | h
      · exact ⟨e, List.mem_cons_self, h⟩
      · obtain ⟨d, hd, ho⟩ := ih h
        exact ⟨d, List.mem_cons_of_mem _ hd, ho⟩

/-- In a loop that returns, every entry emits what its body does. -/
lemma mem_out_visitEntries_of_mem {es : List (Sigma fun _ : κ => ν)} {e : Sigma fun _ : κ => ν}
    {o : ο} (h : (visitEntries f es).panic = none) (he : e ∈ es) (ho : o ∈ (f e.1 e.2).out) :
    o ∈ (visitEntries f es).out := by
  induction es with
  | nil => cases he
  | cons d es ih =>
    rcases visitEntries_cons f d es with ⟨p, hp, heq⟩ | ⟨hp, heq⟩
    · rw [heq] at h
      cases h
    · rw [heq] at h ⊢
      rcases List.mem_cons.mp he with rfl | he
      · exact List.mem_append_left _ ho
      · exact List.mem_append_right _ (ih h he)

end

/-- Run `f` on every entry, in iteration order, up to the first panic. -/
def visit (f : κ → ν → Outcome ν ο π) : Cmd (Table κ ν) ο π := fun m =>
  ⟨⟨(visitEntries f m.entries).state, by
      rw [List.NodupKeys, keys_visitEntries]
      exact m.nodupKeys⟩,
    (visitEntries f m.entries).out, (visitEntries f m.entries).panic⟩

@[simp] lemma keys_visit (f : κ → ν → Outcome ν ο π) (m : Table κ ν) :
    (visit f m).state.keys = m.keys := keys_visitEntries f m.entries

variable [DecidableEq κ] {f : κ → ν → Outcome ν ο π} {m : Table κ ν} {k : κ}

/-- The loop returns if the body returns at every entry. -/
lemma panic_visit :
    (visit f m).panic = none ↔ ∀ k v, m.lookup k = some v → (f k v).panic = none := by
  refine panic_visitEntries.trans ⟨fun h k v hv => h ⟨k, v⟩ (mem_entries_iff.mpr hv), ?_⟩
  exact fun h e he => h e.1 e.2 (mem_entries_iff.mp he)

/-- What the loop leaves at a key: what the body makes of the entry, or the entry itself if the
loop did not get there. -/
lemma lookup_visit_cases {v : ν} (hv : m.lookup k = some v) :
    (visit f m).state.lookup k = some (f k v).state ∨
      (visit f m).state.lookup k = some v ∧ (visit f m).panic ≠ none := by
  have hkey : k ∈ (visit f m).state.keys := by
    rw [keys_visit]
    exact mem_keys_iff.mpr ⟨v, hv⟩
  obtain ⟨v', hv'⟩ := mem_keys_iff.mp hkey
  rcases mem_state_visitEntries (mem_entries_iff.mpr hv') with ⟨hmem, hpanic⟩ | ⟨e, he, heq⟩
  · rw [mem_entries_iff, hv, Option.some.injEq] at hmem
    exact .inr ⟨hmem ▸ hv', hpanic⟩
  · obtain ⟨k₀, v₀⟩ := e
    cases heq
    have hv₀ := mem_entries_iff.mp he
    rw [hv, Option.some.injEq] at hv₀
    exact .inl (hv₀ ▸ hv')

/-- What a loop that returns leaves at a key. -/
lemma lookup_visit (h : (visit f m).panic = none) (k : κ) :
    (visit f m).state.lookup k = (m.lookup k).map fun v => (f k v).state := by
  cases hv : m.lookup k with
  | none =>
    rw [Option.map_none, lookup_eq_none_iff, keys_visit, ← lookup_eq_none_iff]
    exact hv
  | some v =>
    rcases lookup_visit_cases (f := f) hv with h' | ⟨-, hp⟩
    · exact h'
    · exact absurd h hp

/-- The loop adds no key and removes none. -/
lemma lookup_visit_eq_none (f : κ → ν → Outcome ν ο π) (hv : m.lookup k = none) :
    (visit f m).state.lookup k = none := by
  rw [lookup_eq_none_iff, keys_visit, ← lookup_eq_none_iff]
  exact hv

/-- Where an entry comes from. -/
lemma exists_of_lookup_visit {v' : ν} (h : (visit f m).state.lookup k = some v') :
    ∃ v, m.lookup k = some v ∧ (v' = (f k v).state ∨ v' = v ∧ (visit f m).panic ≠ none) := by
  cases hv : m.lookup k with
  | none =>
    rw [lookup_visit_eq_none f hv] at h
    cases h
  | some v =>
    refine ⟨v, rfl, (lookup_visit_cases (f := f) hv).imp (fun heq => ?_) fun heq => ?_⟩
    · exact Option.some.inj (h.symm.trans heq)
    · exact ⟨Option.some.inj (h.symm.trans heq.1), heq.2⟩

/-- Every output is the output of the body at some entry. -/
lemma mem_out_visit {o : ο} (h : o ∈ (visit f m).out) :
    ∃ k v, m.lookup k = some v ∧ o ∈ (f k v).out := by
  obtain ⟨e, he, ho⟩ := mem_out_visitEntries h
  exact ⟨e.1, e.2, mem_entries_iff.mp he, ho⟩

lemma mem_out_visit_of_lookup {o : ο} {v : ν} (h : (visit f m).panic = none)
    (hv : m.lookup k = some v) (ho : o ∈ (f k v).out) : o ∈ (visit f m).out :=
  mem_out_visitEntries_of_mem (e := ⟨k, v⟩) h (mem_entries_iff.mpr hv) ho

/-- Outputs that only the entry of `k` can emit: there are none, or they are those of its body. -/
lemma filterMap_out_visit (g : ο → Option γ)
    (hother : ∀ k' v', k' ≠ k → (f k' v').out.filterMap g = []) :
    (visit f m).out.filterMap g = [] ∨
      ∃ v, m.lookup k = some v ∧ (visit f m).out.filterMap g = (f k v).out.filterMap g := by
  rcases filterMap_out_visitEntries g k m.nodupKeys hother with ⟨h, -⟩ | ⟨v, hmem, h⟩
  · exact .inl h
  · exact .inr ⟨v, mem_entries_iff.mp hmem, h⟩

/-- In a loop that returns they are those of the body at `k`. -/
lemma filterMap_out_visit_of_panic_eq_none (g : ο → Option γ)
    (hother : ∀ k' v', k' ≠ k → (f k' v').out.filterMap g = []) (h : (visit f m).panic = none)
    {v : ν} (hv : m.lookup k = some v) : (visit f m).out.filterMap g = (f k v).out.filterMap g := by
  rcases filterMap_out_visitEntries g k m.nodupKeys hother with ⟨hnil, hbody⟩ | ⟨v', hmem, heq⟩
  · obtain ⟨v', hmem, hv'⟩ := hbody h (mem_keys_iff.mpr ⟨v, hv⟩)
    rw [mem_entries_iff, hv, Option.some.injEq] at hmem
    rw [hmem, hv']
    exact hnil
  · rw [mem_entries_iff, hv, Option.some.injEq] at hmem
    rw [hmem]
    exact heq

end Table
