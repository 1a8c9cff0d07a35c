import Mathlib.Data.List.Basic
import Mathlib.Tactic.Lemma

/-!
# Paths

A path is its characters.  `components` are the parts between its separators, the empty ones
left out; `resolve` reads them from the left, where `.` stays, `..` goes back over the part
before it, and any other part is a name one level down.  Nothing above the root is reached, and a
relative path keeps the `..` that have nothing to go back over.

`resolve_join` is the rule for `join`: the parts of what is joined are read after those that were
there.  A plain name (`IsName`) is then one level more (`names_join_name`).
-/

/-- A path, or a part of one. -/
abbrev PathBuf := List Char

namespace PathBuf

/-- A leading separator makes a path absolute. -/
def isAbsolute (p : PathBuf) : Bool := p.head? == some '/'

/-- `Path::join`: an absolute `q` replaces `p`, and no separator is doubled. -/
def join (p q : PathBuf) : PathBuf :=
  if isAbsolute q then q
  else if p = [] ∨ p.getLast? = some '/' then p ++ q
  else p ++ '/' :: q

/-- The parts of a path. -/
def components (p : PathBuf) : List PathBuf := (p.splitOn '/').filter (· ≠ [])

/-- One part more, on a stack whose top is the part read last. -/
def push (absolute : Bool) (stack : List PathBuf) (part : PathBuf) : List PathBuf :=
  if part = ['.'] then stack
  else if part = ['.', '.'] then
    match stack with
    | [] => if absolute then [] else [part]
    | top :: rest => if top = ['.', '.'] then part :: top :: rest else rest
  else part :: stack

/-- The stack that the parts of a path leave. -/
def stack (p : PathBuf) : List PathBuf := (components p).foldl (push (isAbsolute p)) []

/-- Where a path leads: whether from the root, and through which names. -/
def resolve (p : PathBuf) : Bool × List PathBuf := (isAbsolute p, (stack p).reverse)

/-- `q` lies strictly inside the directory `p`. -/
def StrictlyInside (p q : PathBuf) : Prop :=
  isAbsolute q = isAbsolute p ∧ ∃ rest ≠ [], (resolve q).2 = (resolve p).2 ++ rest

/-- A part that names something: no separator in it, and neither `.` nor `..`. -/
structure IsName (part : PathBuf) : Prop where
  ne_nil : part ≠ []
  noSeparator : '/' ∉ part
  ne_dot : part ≠ ['.']
  ne_dotdot : part ≠ ['.', '.']

/-! ## Joining -/

lemma components_join {p q : PathBuf} (hq : isAbsolute q = false) :
    components (join p q) = components p ++ components q := by
  rw [join, if_neg (by simp [hq])]
  by_cases hp : p = []
  · simp [hp, components]
  by_cases hlast : p.getLast? = some '/'
  · -- a trailing separator only adds an empty part
    obtain ⟨init, rfl⟩ := List.getLast?_eq_some_iff.1 hlast
    rw [if_pos (Or.inr hlast)]
    simp [components, List.splitOn_eq_splitOnP, List.splitOnP_append_cons]
  · rw [if_neg (by simp [hp, hlast])]
    simp [components, List.splitOn_eq_splitOnP, List.splitOnP_append_cons]

lemma isAbsolute_join {p q : PathBuf} (hq : isAbsolute q = false) :
    isAbsolute (join p q) = isAbsolute p := by
  rw [join, if_neg (by simp [hq])]
  cases p with
  | nil => simpa [isAbsolute] using hq
  | cons c p => split <;> simp [isAbsolute]

/-- **What is joined is read after what was there.** -/
theorem stack_join {p q : PathBuf} (hq : isAbsolute q = false) :
    stack (join p q) = (components q).foldl (push (isAbsolute p)) (stack p) := by
  rw [stack, isAbsolute_join hq, components_join hq, List.foldl_append, stack]

lemma isAbsolute_of_noSeparator {q : PathBuf} (hq : '/' ∉ q) : isAbsolute q = false := by
  cases q with
  | nil => rfl
  | cons c q =>
    have hne : c ≠ '/' := fun h => hq (by simp [h])
    simp [isAbsolute, hne]

/-- A part without a separator is read as it is. -/
lemma components_of_noSeparator {q : PathBuf} (hq : '/' ∉ q) (hne : q ≠ []) :
    components q = [q] := by
  simp [components, List.splitOn_eq_singleton hq, hne]

lemma stack_join_part {p q : PathBuf} (hq : '/' ∉ q) (hne : q ≠ []) :
    stack (join p q) = push (isAbsolute p) (stack p) q := by
  simp [stack_join (isAbsolute_of_noSeparator hq), components_of_noSeparator hq hne]

lemma push_name {absolute : Bool} {stack : List PathBuf} {part : PathBuf} (h : IsName part) :
    push absolute stack part = part :: stack := by
  simp [push, h.ne_dot, h.ne_dotdot]

@[simp]
lemma isAbsolute_join_name {p q : PathBuf} (hq : IsName q) :
    isAbsolute (join p q) = isAbsolute p :=
  isAbsolute_join (isAbsolute_of_noSeparator hq.noSeparator)

@[simp]
lemma stack_join_name {p q : PathBuf} (hq : IsName q) : stack (join p q) = q :: stack p := by
  rw [stack_join_part hq.noSeparator hq.ne_nil, push_name hq]

/-- Two names in one directory lead to the same place exactly if they are the same. -/
lemma resolve_join_name_inj {p q r : PathBuf} (hq : IsName q) (hr : IsName r) :
    resolve (join p q) = resolve (join p r) ↔ q = r := by
  simp [resolve, hq, hr]

/-- What lies strictly inside a directory leads through more names than the directory. -/
lemma StrictlyInside.length_lt {p q : PathBuf} (h : StrictlyInside p q) :
    (stack p).length < (stack q).length := by
  obtain ⟨-, rest, hne, hrest⟩ := h
  have hlen := congrArg List.length hrest
  have hpos := List.length_pos_of_ne_nil hne
  simp only [resolve, List.length_append, List.length_reverse] at hlen
  omega

lemma strictlyInside_of_stack {p q : PathBuf} (habs : isAbsolute q = isAbsolute p)
    {above : List PathBuf} (hne : above ≠ []) (h : stack q = above ++ stack p) :
    StrictlyInside p q :=
  ⟨habs, above.reverse, by simpa using hne, by simp [resolve, h]⟩

end PathBuf
