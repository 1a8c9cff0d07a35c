import Mathlib.Data.List.Forall2

/-!
# Topic wildcards

A reader's topic may be a pattern: `+` stands for one level, `#` for any number of remaining
ones.

`TopicMatches` says which topics a pattern stands for, on the levels themselves: without a `#`
level the two agree level by level, and otherwise the levels before the first `#` agree with
the first levels of the topic.  `matchSegments_iff` is that the source's recursion decides it,
and `topicMatches_iff` carries it to strings.
-/

namespace RustDds

/-- `matchSegments` on topics that are already split into levels. -/
def matchSegments : List (List Char) → List (List Char) → Bool
  | [], tSegs => tSegs.isEmpty
  | pHead :: pRest, tSegs =>
    if pHead = ['#'] then true
    else match tSegs with
      | [] => false
      | tHead :: tRest =>
        if pHead = ['+'] ∨ pHead = tHead then matchSegments pRest tRest else false

/-- Whether `pattern` matches the concrete topic name `topic`. -/
def topicMatches (pattern topic : String) : Bool :=
  matchSegments (pattern.toList.splitOn '/') (topic.toList.splitOn '/')

/-! ## What a pattern stands for -/

/-- The levels of a topic or of a pattern. -/
def levels (topic : String) : List (List Char) := topic.toList.splitOn '/'

/-- A level of a pattern against a level of a topic. -/
def LevelMatches (pLevel tLevel : List Char) : Prop := pLevel = ['+'] ∨ pLevel = tLevel

/-- The topics, as lists of levels, that a pattern stands for.  A pattern with a `#` level is
cut at the first one: what stands behind it does not matter. -/
inductive TopicMatches (pSegs tSegs : List (List Char)) : Prop
  /-- No `#` level: the levels correspond one to one. -/
  | exact (hhash : ['#'] ∉ pSegs) (hlevels : List.Forall₂ LevelMatches pSegs tSegs)
  /-- The levels before the first `#` match the first levels of the topic, possibly all. -/
  | upTo (before after matched rest : List (List Char)) (hp : pSegs = before ++ ['#'] :: after)
      (hfirst : ['#'] ∉ before) (ht : tSegs = matched ++ rest)
      (hlevels : List.Forall₂ LevelMatches before matched)

namespace TopicMatches

/-- An empty pattern stands for an empty topic only. -/
lemma nil_left {tSegs : List (List Char)} : TopicMatches [] tSegs ↔ tSegs = [] := by
  constructor
  · rintro (⟨-, hlevels⟩ | ⟨before, after, -, -, hp, -, -, -⟩)
    · exact List.forall₂_nil_left_iff.mp hlevels
    · simp at hp
  · rintro rfl
    exact .exact List.not_mem_nil .nil

/-- A pattern that starts with `#` stands for every topic. -/
lemma hash (pRest tSegs : List (List Char)) : TopicMatches (['#'] :: pRest) tSegs :=
  .upTo [] pRest [] tSegs rfl List.not_mem_nil rfl .nil

/-- A pattern that starts otherwise does not stand for a topic without levels. -/
lemma nil_right {pHead : List Char} {pRest : List (List Char)} (hhash : pHead ≠ ['#']) :
    ¬ TopicMatches (pHead :: pRest) [] := by
  rintro (⟨-, hlevels⟩ | ⟨before, after, matched, rest, hp, -, ht, hlevels⟩)
  · simp at hlevels
  · obtain ⟨rfl, -⟩ := List.append_eq_nil_iff.mp ht.symm
    rw [List.forall₂_nil_right_iff.mp hlevels, List.nil_append, List.cons.injEq] at hp
    exact hhash hp.1

/-- The first levels are compared with each other, and the rest of the pattern with the rest
of the topic. -/
lemma cons {pHead tHead : List Char} {pRest tRest : List (List Char)} (hhash : pHead ≠ ['#']) :
    TopicMatches (pHead :: pRest) (tHead :: tRest) ↔
      LevelMatches pHead tHead ∧ TopicMatches pRest tRest := by
  constructor
  · rintro (⟨hnot, hlevels⟩ | ⟨before, after, matched, rest, hp, hfirst, ht, hlevels⟩)
    · rw [List.forall₂_cons] at hlevels
      exact ⟨hlevels.1, .exact (fun hmem => hnot (List.mem_cons_of_mem _ hmem)) hlevels.2⟩
    · -- the cut is not at the first level, so both sides lose one
      rcases hlevels with _ | @⟨p, t, before, matched, hhead, htail⟩
      · rw [List.nil_append, List.cons.injEq] at hp
        exact absurd hp.1 hhash
      · rw [List.cons_append, List.cons.injEq] at hp ht
        rw [hp.1, ht.1]
        exact ⟨hhead, .upTo before after matched rest hp.2
          (fun hmem => hfirst (List.mem_cons_of_mem _ hmem)) ht.2 htail⟩
  · rintro ⟨hhead, hnot, hlevels⟩
    · exact .exact (List.not_mem_cons_of_ne_of_not_mem (Ne.symm hhash) hnot)
        (.cons hhead hlevels)
    · rename_i before after matched rest hp hfirst ht hlevels
      exact .upTo (pHead :: before) after (tHead :: matched) rest (by rw [hp, List.cons_append])
        (List.not_mem_cons_of_ne_of_not_mem (Ne.symm hhash) hfirst)
        (by rw [ht, List.cons_append]) (.cons hhead hlevels)

end TopicMatches

/-- The recursion over the two lists of levels decides what the pattern stands for. -/
lemma matchSegments_iff {pSegs tSegs : List (List Char)} :
    matchSegments pSegs tSegs = true ↔ TopicMatches pSegs tSegs := by
  induction pSegs generalizing tSegs with
  | nil => rw [matchSegments, TopicMatches.nil_left, List.isEmpty_iff]
  | cons pHead pRest ih =>
    by_cases hhash : pHead = ['#']
    · rw [matchSegments.eq_def]
      dsimp only
      rw [if_pos hhash, hhash]
      exact iff_of_true rfl (TopicMatches.hash pRest tSegs)
    · cases tSegs with
      | nil =>
        rw [matchSegments, if_neg hhash]
        exact iff_of_false Bool.false_ne_true (TopicMatches.nil_right hhash)
      | cons tHead tRest =>
        rw [matchSegments, if_neg hhash, TopicMatches.cons hhash, ← ih, LevelMatches]
        split_ifs with hlevel
        · exact (and_iff_right hlevel).symm
        · exact iff_of_false not_false fun h => hlevel h.1

/-- A pattern without wildcard levels stands for itself. -/
lemma TopicMatches.literal {pSegs tSegs : List (List Char)} (hplus : ['+'] ∉ pSegs)
    (hhash : ['#'] ∉ pSegs) : TopicMatches pSegs tSegs ↔ pSegs = tSegs := by
  constructor
  · rintro (⟨-, hlevels⟩ | ⟨before, after, -, -, hp, -, -, -⟩)
    · rw [← List.forall₂_eq_eq_eq]
      rw [List.forall₂_iff_zip] at hlevels ⊢
      refine ⟨hlevels.1, fun {a b} hmem => (hlevels.2 hmem).resolve_left fun h => hplus ?_⟩
      rw [← h]
      exact (List.of_mem_zip hmem).1
    · exact absurd (by simp [hp]) hhash
  · rintro rfl
    exact .exact hhash (List.forall₂_same.mpr fun _ _ => Or.inr rfl)

/-- A name is given by its levels: joined with slashes they are the name again. -/
lemma levels_injective : Function.Injective levels := by
  intro s t h
  apply String.toList_injective
  calc s.toList = ['/'].intercalate (levels s) := (List.intercalate_splitOn '/').symm
    _ = ['/'].intercalate (levels t) := by rw [h]
    _ = t.toList := List.intercalate_splitOn '/'

/-- **The topic filter decides its specification.**  It is true exactly when the levels match;
a pattern without wildcard levels matches itself and nothing else; and `#` matches every
topic. -/
theorem topicMatches_iff (pattern topic : String) :
    (topicMatches pattern topic = true ↔ TopicMatches (levels pattern) (levels topic)) ∧
      (['+'] ∉ levels pattern → ['#'] ∉ levels pattern →
        (topicMatches pattern topic = true ↔ pattern = topic)) ∧
      topicMatches "#" topic = true := by
  have hspec : ∀ p t, topicMatches p t = true ↔ TopicMatches (levels p) (levels t) :=
    fun _ _ => matchSegments_iff
  refine ⟨hspec pattern topic, fun hplus hhash => ?_, ?_⟩
  · rw [hspec, TopicMatches.literal hplus hhash, levels_injective.eq_iff]
  · rw [hspec]
    exact TopicMatches.hash [] _

-- `+` is one level, never none and never two, and an empty level is a level
example : topicMatches "a/+/c" "a//c" = true ∧ topicMatches "a/+" "a" = false ∧
    topicMatches "+" "a/b" = false ∧ topicMatches "a/#" "a" = true := by decide

end RustDds
