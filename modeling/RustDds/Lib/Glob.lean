import Mathlib.Data.List.Forall2
import Mathlib.Tactic.Lemma

/-!
# Glob patterns

A glob pattern is a list of chunks with a star before each but the first.  A chunk is a list of
tests, one for each symbol it consumes; a star consumes any run of symbols that are not separators
(`gap`).

`Matches` says that a string can be cut up accordingly.  A matcher that never revises a choice looks
for the leftmost place for each chunk in turn: `matchGlob` does that, and `matchGlob_iff` says what
it decides, which is `Leftmost`.  That is always a match (`Leftmost.matches`), but a match need not
be leftmost: a chunk further to the right may consume a separator that the star after it could not.
`leftmost_of_matches` is the condition under which nothing is lost: every test of a chunk that
stands between two stars admits separators only, or none.
-/

namespace Glob

variable {α : Type*}

/-- One test for each symbol that is consumed. -/
abbrev Chunk (α : Type*) := List (α → Bool)

/-- What is left of a string after a chunk has consumed the front of it. -/
def strip : Chunk α → List α → Option (List α)
  | [], as => some as
  | _ :: _, [] => none
  | p :: ps, a :: as => if p a then strip ps as else none

/-- What is left after the chunk, at the first place where what is left is `good`, with only gap
symbols before that place. -/
def find (gap : α → Bool) (chunk : Chunk α) (good : List α → Bool) : List α → Option (List α)
  | [] => (strip chunk []).filter good
  | a :: as =>
    ((strip chunk (a :: as)).filter good).or (if gap a then find gap chunk good as else none)

/-- Match chunks that each have a star before them, each but the last at its leftmost place. -/
def matchStars (gap : α → Bool) : List (Chunk α) → List α → Bool
  | [], as => as.isEmpty
  | chunk :: chunks, as =>
    match find gap chunk (fun rest => rest.isEmpty || !chunks.isEmpty) as with
    | some rest => matchStars gap chunks rest
    | none => false

/-- Match a chunk, and then chunks that each have a star before them. -/
def matchGlob (gap : α → Bool) (head : Chunk α) (chunks : List (Chunk α)) (as : List α) : Bool :=
  match strip head as with
  | some rest => matchStars gap chunks rest
  | none => false

variable {gap : α → Bool} {chunk : Chunk α} {chunks : List (Chunk α)} {as rest : List α}

/-! ## Chunks -/

/-- A chunk consumes as many symbols as it has tests, each admitted by its own. -/
lemma strip_eq_some : strip chunk as = some rest ↔
    ∃ w, as = w ++ rest ∧ List.Forall₂ (fun p a => p a = true) chunk w := by
  induction chunk generalizing as with
  | nil =>
    rw [strip, Option.some.injEq]
    constructor
    · exact fun h => ⟨[], h, .nil⟩
    · rintro ⟨w, heq, hw⟩
      cases hw
      exact heq
  | cons p ps ih =>
    cases as with
    | nil =>
      rw [strip]
      constructor
      · nofun
      · rintro ⟨w, heq, hw⟩
        cases hw
        cases heq
    | cons a as =>
      rw [strip]
      constructor
      · intro h
        split at h
        · rename_i hp
          obtain ⟨w, rfl, hw⟩ := ih.mp h
          exact ⟨a :: w, rfl, .cons hp hw⟩
        · cases h
      · rintro ⟨w, heq, hw⟩
        cases hw with
        | cons hp hw =>
          obtain ⟨rfl, rfl⟩ := List.cons.inj heq
          rw [if_pos hp]
          exact ih.mpr ⟨_, rfl, hw⟩

/-- **The search**: it stops behind the shortest run after which the chunk is good. -/
lemma find_eq_some {good : List α → Bool} : find gap chunk good as = some rest ↔
    ∃ run x, as = run ++ x ∧ (∀ a ∈ run, gap a = true) ∧ strip chunk x = some rest ∧
      good rest = true ∧ ∀ run₁ run₂, run = run₁ ++ run₂ → run₂ ≠ [] →
        ∀ rest', strip chunk (run₂ ++ x) = some rest' → good rest' = false := by
  induction as with
  | nil =>
    rw [find, Option.filter_eq_some_iff]
    constructor
    · rintro ⟨hstrip, hgood⟩
      refine ⟨[], [], rfl, nofun, hstrip, hgood, fun run₁ run₂ heq hne => ?_⟩
      exact absurd (List.append_eq_nil_iff.mp heq.symm).2 hne
    · rintro ⟨run, x, heq, -, hstrip, hgood, -⟩
      obtain ⟨rfl, rfl⟩ := List.append_eq_nil_iff.mp heq.symm
      exact ⟨hstrip, hgood⟩
  | cons a as ih =>
    rw [find, Option.or_eq_some_iff, Option.filter_eq_some_iff]
    constructor
    · rintro (⟨hstrip, hgood⟩ | ⟨hnone, hlater⟩)
      · refine ⟨[], a :: as, rfl, nofun, hstrip, hgood, fun run₁ run₂ heq hne => ?_⟩
        exact absurd (List.append_eq_nil_iff.mp heq.symm).2 hne
      · split at hlater
        · rename_i ha
          obtain ⟨run, x, rfl, hrun, hstrip, hgood, hfirst⟩ := ih.mp hlater
          refine ⟨a :: run, x, rfl, List.forall_mem_cons.mpr ⟨ha, hrun⟩, hstrip, hgood, ?_⟩
          intro run₁ run₂ heq hne rest' hstrip'
          cases run₁ with
          | nil =>
            obtain rfl : a :: run = run₂ := heq
            simpa using Option.filter_eq_none_iff.mp hnone rest' hstrip'
          | cons b run₁ => exact hfirst run₁ run₂ (List.cons.inj heq).2 hne rest' hstrip'
        · cases hlater
    · rintro ⟨run, x, heq, hrun, hstrip, hgood, hfirst⟩
      cases run with
      | nil =>
        obtain rfl : a :: as = x := heq
        exact .inl ⟨hstrip, hgood⟩
      | cons b run =>
        obtain ⟨rfl, rfl⟩ := List.cons.inj heq
        obtain ⟨hb, hrun⟩ := List.forall_mem_cons.mp hrun
        refine .inr ⟨?_, ?_⟩
        · rw [Option.filter_eq_none_iff]
          intro rest' hstrip'
          simpa using hfirst [] (a :: run) rfl (List.cons_ne_nil _ _) rest' hstrip'
        · rw [if_pos hb]
          refine ih.mpr ⟨run, x, rfl, hrun, hstrip, hgood, fun run₁ run₂ hrun' => ?_⟩
          exact hfirst (a :: run₁) run₂ (by rw [hrun']; rfl)

/-! ## What is matched -/

/-- The string is cut into the runs of the stars and what the chunks consume. -/
inductive Matches (gap : α → Bool) : List (Chunk α) → List α → Prop
  | nil : Matches gap [] []
  | cons {chunk : Chunk α} {chunks : List (Chunk α)} {run as rest : List α}
      (hrun : ∀ a ∈ run, gap a = true) (hstrip : strip chunk as = some rest)
      (h : Matches gap chunks rest) : Matches gap (chunk :: chunks) (run ++ as)

/-- The same, where each star but the last takes the shortest run after which the next chunk
fits. -/
inductive Leftmost (gap : α → Bool) : List (Chunk α) → List α → Prop
  | nil : Leftmost gap [] []
  | last {chunk : Chunk α} {run as : List α} (hrun : ∀ a ∈ run, gap a = true)
      (hstrip : strip chunk as = some []) : Leftmost gap [chunk] (run ++ as)
  | cons {chunk next : Chunk α} {chunks : List (Chunk α)} {run as rest : List α}
      (hrun : ∀ a ∈ run, gap a = true) (hstrip : strip chunk as = some rest)
      (hfirst : ∀ run₁ run₂, run = run₁ ++ run₂ → run₂ ≠ [] → strip chunk (run₂ ++ as) = none)
      (h : Leftmost gap (next :: chunks) rest) : Leftmost gap (chunk :: next :: chunks) (run ++ as)

/-- A chunk that is last has one place only. -/
lemma strip_eq_some_nil (h : strip chunk as = some []) : as.length = chunk.length := by
  obtain ⟨w, rfl, hw⟩ := strip_eq_some.mp h
  rw [List.append_nil, hw.length_eq]

lemma matchStars_cons : matchStars gap (chunk :: chunks) as =
    (find gap chunk (fun rest => rest.isEmpty || !chunks.isEmpty) as).elim false
      (matchStars gap chunks) := by
  rw [matchStars]
  split
  · rename_i hfind
    rw [hfind]
    rfl
  · rename_i hfind
    rw [hfind]
    rfl

/-- **What the matcher decides.** -/
lemma matchStars_iff : matchStars gap chunks as = true ↔ Leftmost gap chunks as := by
  induction chunks generalizing as with
  | nil =>
    rw [matchStars, List.isEmpty_iff]
    constructor
    · rintro rfl
      exact .nil
    · intro h
      cases h
      rfl
  | cons chunk chunks ih =>
    rw [matchStars]
    cases chunks with
    | nil =>
      constructor
      · intro h
        split at h
        · rename_i rest hfind
          obtain ⟨run, x, rfl, hrun, hstrip, -, -⟩ := find_eq_some.mp hfind
          rw [matchStars, List.isEmpty_iff] at h
          subst h
          exact .last hrun hstrip
        · cases h
      · intro h
        cases h with
        | @last _ run as hrun hstrip =>
          have hfind : find gap chunk (fun rest => rest.isEmpty || !([] : List (Chunk α)).isEmpty)
              (run ++ as) = some [] := by
            refine find_eq_some.mpr ⟨run, as, rfl, hrun, hstrip, rfl, ?_⟩
            intro run₁ run₂ heq hne rest' hstrip'
            -- a chunk that fits further to the left does not reach the end
            obtain ⟨w, hw, hforall⟩ := strip_eq_some.mp hstrip'
            have hlength := congrArg List.length hw
            rw [List.length_append, List.length_append, strip_eq_some_nil hstrip,
              ← hforall.length_eq] at hlength
            have hpos := List.length_pos_iff.mpr hne
            have hrest : rest' ≠ [] := List.ne_nil_of_length_pos (by omega)
            simp [hrest]
          rw [hfind]
          rfl
    | cons next chunks =>
      constructor
      · intro h
        split at h
        · rename_i rest hfind
          obtain ⟨run, x, rfl, hrun, hstrip, -, hfirst⟩ := find_eq_some.mp hfind
          refine .cons hrun hstrip (fun run₁ run₂ heq hne => ?_) (ih.mp h)
          refine Option.eq_none_iff_forall_ne_some.mpr fun rest' hstrip' => ?_
          simpa using hfirst run₁ run₂ heq hne rest' hstrip'
        · cases h
      · intro h
        cases h with
        | @cons _ _ _ run as rest hrun hstrip hfirst h =>
          have hfind : find gap chunk (fun rest => rest.isEmpty || !(next :: chunks).isEmpty)
              (run ++ as) = some rest := by
            refine find_eq_some.mpr ⟨run, as, rfl, hrun, hstrip, by simp, ?_⟩
            intro run₁ run₂ heq hne rest' hstrip'
            rw [hfirst run₁ run₂ heq hne] at hstrip'
            cases hstrip'
          rw [hfind]
          exact ih.mpr h

/-- A star may as well be written twice. -/
lemma matchStars_nil_cons : matchStars gap ([] :: chunk :: chunks) as =
    matchStars gap (chunk :: chunks) as := by
  have hfind : find gap [] (fun rest => rest.isEmpty || !(chunk :: chunks).isEmpty) as =
      some as := by
    cases as <;> simp [find, strip]
  rw [matchStars, hfind]

/-- Nothing is found that is not there. -/
lemma Leftmost.matches (h : Leftmost gap chunks as) : Matches gap chunks as := by
  induction h with
  | nil => exact .nil
  | last hrun hstrip => exact .cons hrun hstrip .nil
  | cons hrun hstrip _ _ ih => exact .cons hrun hstrip ih

/-! ## When nothing is lost -/

/-- The test admits separators only, or none. -/
def Rigid (gap : α → Bool) (p : α → Bool) : Prop :=
  (∀ a, p a = true → gap a = true) ∨ ∀ a, p a = true → gap a = false

/-- A star can take more. -/
lemma Matches.extend (h : Matches gap (chunk :: chunks) as) {run : List α}
    (hrun : ∀ a ∈ run, gap a = true) : Matches gap (chunk :: chunks) (run ++ as) := by
  cases h with
  | cons hrun' hstrip h =>
    rw [← List.append_assoc]
    exact .cons (List.forall_mem_append.mpr ⟨hrun, hrun'⟩) hstrip h

/-- Two strings that a chunk of rigid tests consumes have their separators in the same places. -/
lemma gap_eq_of_forall₂ (hrigid : ∀ p ∈ chunk, Rigid gap p) {w w' : List α}
    (hw : List.Forall₂ (fun p a => p a = true) chunk w)
    (hw' : List.Forall₂ (fun p a => p a = true) chunk w') : w.map gap = w'.map gap := by
  induction hw generalizing w' with
  | nil =>
    cases hw'
    rfl
  | cons hp _ ih =>
    cases hw' with
    | cons hp' hw' =>
      obtain ⟨hrigid₁, hrigid⟩ := List.forall_mem_cons.mp hrigid
      rw [List.map_cons, List.map_cons, ih hrigid hw']
      rcases hrigid₁ with hgap | hgap
      · rw [hgap _ hp, hgap _ hp']
      · rw [hgap _ hp, hgap _ hp']

/-- A string that begins with what is true throughout, and repeats itself with that distance, is
true throughout. -/
lemma all_of_append_eq {d w e : List Bool} (hd : ∀ b ∈ d, b = true) (hne : d ≠ [])
    (heq : d ++ w = w ++ e) : ∀ b ∈ e, b = true := by
  have hpos := List.length_pos_iff.mpr hne
  have hall : ∀ (i : ℕ) (b : Bool), (d ++ w)[i]? = some b → b = true := by
    intro i
    induction i using Nat.strongRecOn with
    | _ i ih =>
      intro b hb
      rcases Nat.lt_or_ge i d.length with hi | hi
      · rw [List.getElem?_append_left hi] at hb
        exact hd b (List.mem_of_getElem? hb)
      · obtain ⟨hlt, -⟩ := List.getElem?_eq_some_iff.mp hb
        rw [List.length_append] at hlt
        rw [List.getElem?_append_right hi] at hb
        refine ih (i - d.length) (by omega) b ?_
        rw [heq, List.getElem?_append_left (by omega), hb]
  intro b hb
  obtain ⟨i, hi⟩ := List.mem_iff_getElem?.mp hb
  refine hall (w.length + i) b ?_
  rw [heq, List.getElem?_append_right (Nat.le_add_right _ _), Nat.add_sub_cancel_left, hi]

/-- What a chunk of rigid tests leaves at a place further to the left differs by gap symbols. -/
lemma exists_run_of_strip (hrigid : ∀ p ∈ chunk, Rigid gap p) {d x rest' : List α}
    (hd : ∀ a ∈ d, gap a = true) (hstrip : strip chunk x = some rest)
    (hstrip' : strip chunk (d ++ x) = some rest') :
    ∃ e, rest' = e ++ rest ∧ ∀ a ∈ e, gap a = true := by
  by_cases hne : d = []
  · subst hne
    rw [List.nil_append, hstrip, Option.some.injEq] at hstrip'
    exact ⟨[], hstrip'.symm, nofun⟩
  obtain ⟨w, rfl, hw⟩ := strip_eq_some.mp hstrip
  obtain ⟨w', heq, hw'⟩ := strip_eq_some.mp hstrip'
  have hlength : w'.length = w.length := hw'.length_eq.symm.trans hw.length_eq
  rw [← List.append_assoc] at heq
  -- `w'` is the front of `d ++ w`
  have hfront : w' = (d ++ w).take w'.length := by
    have := congrArg (List.take w'.length) heq
    rw [List.take_append_of_le_length (by simp [hlength]), List.take_left] at this
    exact this.symm
  have hsplit : d ++ w = w' ++ (d ++ w).drop w'.length := by
    conv_lhs => rw [← List.take_append_drop w'.length (d ++ w)]
    rw [← hfront]
  refine ⟨(d ++ w).drop w'.length, ?_, fun a ha => ?_⟩
  · rw [hsplit, List.append_assoc] at heq
    exact (List.append_cancel_left heq).symm
  · have hgaps := congrArg (List.map gap) hsplit
    rw [List.map_append, List.map_append, gap_eq_of_forall₂ hrigid hw' hw] at hgaps
    refine all_of_append_eq ?_ (by simpa using hne) hgaps _
      (List.mem_map_of_mem ha)
    intro b hb
    obtain ⟨a, ha, rfl⟩ := List.mem_map.mp hb
    exact hd a ha

/-- The search stops at any place where the chunk fits, at the latest. -/
lemma exists_find {run : List α} (hrun : ∀ a ∈ run, gap a = true)
    (hstrip : strip chunk as = some rest) :
    ∃ rest', find gap chunk (fun _ => true) (run ++ as) = some rest' := by
  induction run with
  | nil => cases as <;> simp [find, hstrip]
  | cons a run ih =>
    obtain ⟨ha, hrun⟩ := List.forall_mem_cons.mp hrun
    obtain ⟨rest', hrest'⟩ := ih hrun
    rw [List.cons_append, find, if_pos ha, hrest']
    cases strip chunk (a :: (run ++ as)) <;> simp

/-- **When nothing is lost.** -/
lemma leftmost_of_matches (hrigid : ∀ chunk ∈ chunks.dropLast, ∀ p ∈ chunk, Rigid gap p)
    (h : Matches gap chunks as) : Leftmost gap chunks as := by
  induction chunks generalizing as with
  | nil =>
    cases h
    exact .nil
  | cons chunk chunks ih =>
    cases h with
    | @cons _ _ run as rest hrun hstrip h =>
      cases chunks with
      | nil =>
        cases h
        exact .last hrun hstrip
      | cons next chunks =>
        rw [List.dropLast_cons_cons] at hrigid
        obtain ⟨hchunk, hrigid⟩ := List.forall_mem_cons.mp hrigid
        obtain ⟨rest', hfind⟩ := exists_find hrun hstrip
        obtain ⟨run', x, heq, hrun', hstrip', -, hfirst⟩ := find_eq_some.mp hfind
        have hfirst' : ∀ run₁ run₂, run' = run₁ ++ run₂ → run₂ ≠ [] →
            strip chunk (run₂ ++ x) = none := by
          refine fun run₁ run₂ heq hne => Option.eq_none_iff_forall_ne_some.mpr fun r hr => ?_
          cases hfirst run₁ run₂ heq hne r hr
        rw [heq]
        refine .cons hrun' hstrip' hfirst' (ih hrigid ?_)
        rcases List.append_eq_append_iff.mp heq with ⟨d, rfl, rfl⟩ | ⟨d, rfl, rfl⟩
        · by_cases hd : d = []
          · subst hd
            rw [List.nil_append, hstrip', Option.some.injEq] at hstrip
            exact hstrip ▸ h
          · rw [hfirst' run d rfl hd] at hstrip
            cases hstrip
        · obtain ⟨e, rfl, he⟩ := exists_run_of_strip hchunk
            (fun a ha => hrun a (List.mem_append_right _ ha)) hstrip hstrip'
          exact h.extend he

/-! ## The whole pattern -/

/-- The head consumes the front, and the rest matches the chunks behind the stars. -/
lemma matchGlob_iff {head : Chunk α} : matchGlob gap head chunks as = true ↔
    ∃ rest, strip head as = some rest ∧ Leftmost gap chunks rest := by
  rw [matchGlob]
  cases strip head as with
  | none => simp
  | some rest => simp [matchStars_iff]

end Glob
