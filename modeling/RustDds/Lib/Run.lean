import Mathlib.Data.List.Basic
import Mathlib.Tactic.Lemma

/-!
# Runs of a step function

A run of `step : σ → ι → σ` over inputs `is` from `s` is the fold `is.foldl step s`.  `Each P`
says that `P` holds at every step of the run, of the state the step finds and the input it is
given.  Both the guarantees of a component and the conditions under which it gives them are of
this form.

`Each.foldl` is the invariant rule: what each step of the run preserves, the run preserves.
`Each.imp` uses an invariant to turn one property of every step into another.

`trace f` is the list of what `f` says of each step, and two traces compare as their steps do.

A log is a list that grows at its end.  `Log P` says `P` of every entry and of those before it,
so that a step that adds an entry owes `P` of that one only (`log_concat`).
-/

namespace Run

variable {σ ι : Type*} {step : σ → ι → σ} {P Q : σ → ι → Prop} {I : σ → Prop}

/-- `P` holds at every step of the run. -/
def Each (step : σ → ι → σ) (P : σ → ι → Prop) : σ → List ι → Prop
  | _, [] => True
  | s, i :: is => P s i ∧ Each step P (step s i) is

instance decidableEach [∀ s i, Decidable (P s i)] :
    ∀ (s : σ) (is : List ι), Decidable (Each step P s is)
  | _, [] => inferInstanceAs (Decidable True)
  | s, i :: is =>
    have := decidableEach (step s i) is
    inferInstanceAs (Decidable (P s i ∧ Each step P (step s i) is))

lemma each_append {s : σ} {is js : List ι} :
    Each step P s (is ++ js) ↔ Each step P s is ∧ Each step P (is.foldl step s) js := by
  induction is generalizing s with
  | nil => simp [Each]
  | cons i is ih => simp only [List.cons_append, Each, ih, List.foldl_cons, and_assoc]

/-- `P` at every step is `P` of every state the run passes and the input it meets there. -/
lemma each_iff {s : σ} {is : List ι} :
    Each step P s is ↔ ∀ pre i post, is = pre ++ i :: post → P (pre.foldl step s) i := by
  constructor
  · rintro h pre i post rfl
    exact (each_append.mp h).2.1
  · intro h
    induction is generalizing s with
    | nil => trivial
    | cons i is ih =>
      refine ⟨h [] i is rfl, ih fun pre j post hsplit => ?_⟩
      exact h (i :: pre) j post (by rw [hsplit, List.cons_append])

lemma each_congr (h : ∀ s i, P s i ↔ Q s i) {s : σ} {is : List ι} :
    Each step P s is ↔ Each step Q s is := by
  simp only [each_iff, h]

lemma Each.and {s : σ} {is : List ι} (hp : Each step P s is) (hq : Each step Q s is) :
    Each step (fun s i => P s i ∧ Q s i) s is := by
  induction is generalizing s with
  | nil => trivial
  | cons i is ih => exact ⟨⟨hp.1, hq.1⟩, ih hp.2 hq.2⟩

/-- **The invariant rule.**  What each step of the run preserves, the run preserves. -/
lemma Each.foldl (hstep : ∀ s i, I s → P s i → I (step s i)) {s : σ} {is : List ι}
    (h : Each step P s is) (hs : I s) : I (is.foldl step s) := by
  induction is generalizing s with
  | nil => exact hs
  | cons i is ih => exact ih h.2 (hstep s i hs h.1)

/-- Under an invariant that its steps preserve, a run has `Q` at every step if it has `P`. -/
lemma Each.imp (hstep : ∀ s i, I s → P s i → I (step s i)) (himp : ∀ s i, I s → P s i → Q s i)
    {s : σ} {is : List ι} (h : Each step P s is) (hs : I s) : Each step Q s is := by
  induction is generalizing s with
  | nil => trivial
  | cons i is ih => exact ⟨himp s i hs h.1, ih h.2 (hstep s i hs h.1)⟩

/-- Under an invariant that good steps preserve, two properties of a step that agree make the same
runs good. -/
lemma each_iff_of_inv (hiff : ∀ s i, I s → (P s i ↔ Q s i))
    (hstep : ∀ s i, I s → P s i → I (step s i)) {s : σ} {is : List ι} (hs : I s) :
    Each step P s is ↔ Each step Q s is := by
  constructor
  · exact fun h => h.imp hstep (fun s i hs => (hiff s i hs).mp) hs
  · exact fun h => h.imp (fun s i hs hq => hstep s i hs ((hiff s i hs).mpr hq))
      (fun s i hs => (hiff s i hs).mpr) hs

/-- Inputs that are good in every state make good steps. -/
lemma each_of_forall {s : σ} {is : List ι} (h : ∀ i ∈ is, ∀ s, P s i) : Each step P s is := by
  induction is generalizing s with
  | nil => trivial
  | cons i is ih =>
    exact ⟨h i List.mem_cons_self s, ih fun j hj => h j (List.mem_cons_of_mem _ hj)⟩

/-! ### Traces -/

variable {α : Type*} {f g : σ → ι → List α}

/-- What `f` lists at the steps of the run, in order. -/
def trace (step : σ → ι → σ) (f : σ → ι → List α) : σ → List ι → List α
  | _, [] => []
  | s, i :: is => f s i ++ trace step f (step s i) is

lemma trace_append (s : σ) (is js : List ι) :
    trace step f s (is ++ js) = trace step f s is ++ trace step f (is.foldl step s) js := by
  induction is generalizing s with
  | nil => rfl
  | cons i is ih => rw [List.cons_append, trace, trace, ih, List.append_assoc, List.foldl_cons]

lemma trace_sublist (h : ∀ s i, (f s i).Sublist (g s i)) (s : σ) (is : List ι) :
    (trace step f s is).Sublist (trace step g s is) := by
  induction is generalizing s with
  | nil => exact .refl _
  | cons i is ih => exact (h s i).append (ih _)

lemma Each.trace_eq (h : ∀ s i, P s i → f s i = g s i) {s : σ} {is : List ι}
    (hrun : Each step P s is) : trace step f s is = trace step g s is := by
  induction is generalizing s with
  | nil => rfl
  | cons i is ih => rw [trace, trace, h s i hrun.1, ih hrun.2]

lemma Each.trace_flatMap {β : Type*} {g : σ → ι → List β} {h : β → List α}
    (hf : ∀ s i, P s i → f s i = (g s i).flatMap h) {s : σ} {is : List ι}
    (hrun : Each step P s is) : trace step f s is = (trace step g s is).flatMap h := by
  induction is generalizing s with
  | nil => rfl
  | cons i is ih => rw [trace, trace, List.flatMap_append, hf s i hrun.1, ih hrun.2]

/-- **The invariant rule, with a trace.**  An invariant may speak of all that has been listed. -/
lemma Each.foldl_trace {J : σ → List α → Prop}
    (hstep : ∀ s i l, J s l → P s i → J (step s i) (l ++ f s i)) {s : σ} {is : List ι}
    (h : Each step P s is) {l : List α} (hs : J s l) :
    J (is.foldl step s) (l ++ trace step f s is) := by
  induction is generalizing s l with
  | nil => simpa [trace] using hs
  | cons i is ih =>
    have hnext := ih h.2 (hstep s i l hs h.1)
    rwa [List.append_assoc] at hnext

/-- The rule with two traces. -/
lemma Each.foldl_traces {β : Type*} {g : σ → ι → List β} {J : σ → List α → List β → Prop}
    (hstep : ∀ s i l m, J s l m → P s i → J (step s i) (l ++ f s i) (m ++ g s i)) {s : σ}
    {is : List ι} (h : Each step P s is) {l : List α} {m : List β} (hs : J s l m) :
    J (is.foldl step s) (l ++ trace step f s is) (m ++ trace step g s is) := by
  induction is generalizing s l m with
  | nil => simpa [trace] using hs
  | cons i is ih =>
    have hnext := ih h.2 (hstep s i l m hs h.1)
    rwa [List.append_assoc, List.append_assoc] at hnext

/-- Where no step lists more than one, there is no more on the list than there are steps. -/
lemma length_trace_le (h : ∀ s i, (f s i).length ≤ 1) (s : σ) (is : List ι) :
    (trace step f s is).length ≤ is.length := by
  induction is generalizing s with
  | nil => exact Nat.le_refl _
  | cons i is ih =>
    rw [trace, List.length_append, List.length_cons, Nat.add_comm]
    exact Nat.add_le_add (ih _) (h s i)

/-- **The unwinding rule.**  `R` relates what is ahead of a run, its state, and the state of the run
that has only the visible inputs.  If hidden inputs keep the relation, and visible ones list the
same in both, then the visible part of the one list is the whole of the other. -/
lemma trace_filter {visible : ι → Bool} {R : List ι → σ → σ → Prop}
    (hhidden : ∀ i is s t, visible i = false → R (i :: is) s t → R is (step s i) t)
    (hvisible : ∀ i is s t, visible i = true → R (i :: is) s t →
      f s i = f t i ∧ R is (step s i) (step t i))
    {s t : σ} {is : List ι} (h : R is s t) :
    trace step (fun s i => if visible i then f s i else []) s is =
      trace step f t (is.filter visible) := by
  induction is generalizing s t with
  | nil => rfl
  | cons i is ih =>
    cases hi : visible i with
    | false =>
      rw [trace, List.filter_cons_of_neg (by simp [hi]), if_neg (by simp [hi]), List.nil_append]
      exact ih (hhidden i is s t hi h)
    | true =>
      obtain ⟨hf, hnext⟩ := hvisible i is s t hi h
      rw [trace, List.filter_cons_of_pos hi, if_pos hi, trace, hf, ih hnext]

/-- **The simulation rule.**  `R` relates what is ahead of a run to its state and to the state of
another run, whose inputs are the images of its own.  If every step lists the same in both and
keeps the relation, the runs list the same. -/
lemma trace_eq_of_rel {τ κ : Type*} {step' : τ → κ → τ} {g : τ → κ → List α} {φ : ι → κ}
    {R : List ι → σ → τ → Prop}
    (hstep : ∀ i is s t, R (i :: is) s t → f s i = g t (φ i) ∧ R is (step s i) (step' t (φ i)))
    {s : σ} {t : τ} {is : List ι} (h : R is s t) :
    trace step f s is = trace step' g t (is.map φ) ∧
      R [] (is.foldl step s) ((is.map φ).foldl step' t) := by
  induction is generalizing s t with
  | nil => exact ⟨rfl, h⟩
  | cons i is ih =>
    obtain ⟨hf, hnext⟩ := hstep i is s t h
    obtain ⟨htrace, hend⟩ := ih hnext
    rw [List.map_cons, trace, trace, hf, htrace]
    exact ⟨rfl, hend⟩

/-! ### Logs -/

/-- `P` holds of every entry, given the ones before it. -/
def Log (P : List α → α → Prop) (l : List α) : Prop :=
  ∀ pre x post, l = pre ++ x :: post → P pre x

variable {R S : List α → α → Prop} {l : List α}

@[simp] lemma log_nil : Log R [] := fun _ _ _ h => by simp at h

/-- The places of a log with one more entry are those it had, and the new one. -/
lemma forall_split_concat {P : List α → α → List α → Prop} {x : α} :
    (∀ pre y post, l ++ [x] = pre ++ y :: post → P pre y post) ↔
      (∀ pre y post, l = pre ++ y :: post → P pre y (post ++ [x])) ∧ P l x [] := by
  constructor
  · intro h
    exact ⟨fun pre y post hl => h pre y (post ++ [x]) (by simp [hl]), h l x [] rfl⟩
  · rintro ⟨hl, hx⟩ pre y post hsplit
    rcases List.eq_nil_or_concat post with rfl | ⟨post, z, rfl⟩
    · obtain ⟨rfl, hlast⟩ := List.append_inj' hsplit rfl
      obtain rfl : x = y := by simpa using hlast
      exact hx
    · have hsplit' : l ++ [x] = (pre ++ y :: post) ++ [z] := by simpa using hsplit
      obtain ⟨hl', hlast⟩ := List.append_inj' hsplit' rfl
      obtain rfl : x = z := by simpa using hlast
      rw [List.concat_eq_append]
      exact hl pre y post hl'

/-- **One more entry.** -/
@[simp]
lemma log_concat {x : α} : Log R (l ++ [x]) ↔ Log R l ∧ R l x :=
  forall_split_concat

/-- Two places of a log are the same, or one comes before the other. -/
lemma split_cases {pre post pre' post' : List α} {x y : α}
    (h : pre ++ x :: post = pre' ++ y :: post') :
    (pre = pre' ∧ x = y) ∨ (∃ mid, pre' = pre ++ x :: mid) ∨ ∃ mid, pre = pre' ++ y :: mid := by
  rcases List.append_eq_append_iff.1 h with ⟨as, hpre, has⟩ | ⟨as, hpre, has⟩
  · cases as with
    | nil => exact Or.inl ⟨by simpa using hpre.symm, (List.cons.inj has).1⟩
    | cons a as => exact Or.inr (Or.inl ⟨as, by rw [hpre, (List.cons.inj has).1]⟩)
  · cases as with
    | nil => exact Or.inl ⟨by simpa using hpre, (List.cons.inj has).1.symm⟩
    | cons a as => exact Or.inr (Or.inr ⟨as, by rw [hpre, (List.cons.inj has).1]⟩)

end Run
