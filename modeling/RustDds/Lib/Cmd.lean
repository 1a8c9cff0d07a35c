import Mathlib.Data.List.Basic
import Mathlib.Tactic.Lemma

/-!
# Commands that emit, update a state, and may panic

`Cmd σ ο π` is a computation on a state `σ` that appends to a trace of outputs `ο` and either
returns or unwinds with a panic `π`.  Unwinding keeps the state and the trace reached so far:
a caller that catches the panic, or another task on the same shared state, goes on from there.

Commands compose by `andThen`, which stops at the first panic, and `forEach`, the loop over a
list.  `calls` is the other loop: independent calls, where a panic ends its own call and no
other.  A run of a service is a `calls`.

The proof rules are of two kinds.  `Keeps I O c` is the invariant rule: from a state in `I`,
`c` ends in `I` and emits only outputs in `O`; it is closed under every combinator, so an
invariant of the loop bodies is an invariant of the run.  `Returns` and the `_eq` lemmas
compute the composite where the parts are known exactly.
-/

/-- What a command leaves behind: the state, the outputs in order, and the panic it died of. -/
structure Outcome (σ ο π : Type*) where
  state : σ
  out : List ο
  panic : Option π

/-- A command on a state `σ` with outputs `ο` and panics `π`. -/
abbrev Cmd (σ ο π : Type*) := σ → Outcome σ ο π

namespace Cmd

variable {σ ο π ι : Type*}

/-! ## Combinators -/

/-- Do nothing. -/
def skip : Cmd σ ο π := fun s => ⟨s, [], none⟩

/-- Emit some outputs. -/
def emit (os : List ο) : Cmd σ ο π := fun s => ⟨s, os, none⟩

/-- Replace the state. -/
def modify (f : σ → σ) : Cmd σ ο π := fun s => ⟨f s, [], none⟩

/-- Unwind. -/
def fail (p : π) : Cmd σ ο π := fun s => ⟨s, [], some p⟩

/-- Run `c`, then `d` unless `c` unwound. -/
def andThen (c d : Cmd σ ο π) : Cmd σ ο π := fun s =>
  match (c s).panic with
  | some p => ⟨(c s).state, (c s).out, some p⟩
  | none => ⟨(d (c s).state).state, (c s).out ++ (d (c s).state).out, (d (c s).state).panic⟩

/-- Run `f i` for each `i` in turn, up to the first panic. -/
def forEach (f : ι → Cmd σ ο π) : List ι → Cmd σ ο π
  | [] => skip
  | i :: is => (f i).andThen (forEach f is)

/-- Catch a panic. -/
def attempt (c : Cmd σ ο π) : Cmd σ ο π := fun s => ⟨(c s).state, (c s).out, none⟩

/-- Independent calls: a panic ends its own call and no other. -/
def calls (f : ι → Cmd σ ο π) : List ι → Cmd σ ο π := forEach fun i => attempt (f i)

/-! ## Computing a composite -/

@[simp] lemma skip_apply (s : σ) : (skip : Cmd σ ο π) s = ⟨s, [], none⟩ := rfl

@[simp] lemma emit_apply (os : List ο) (s : σ) : (emit os : Cmd σ ο π) s = ⟨s, os, none⟩ := rfl

@[simp] lemma modify_apply (f : σ → σ) (s : σ) :
    (modify f : Cmd σ ο π) s = ⟨f s, [], none⟩ := rfl

@[simp] lemma fail_apply (p : π) (s : σ) : (fail p : Cmd σ ο π) s = ⟨s, [], some p⟩ := rfl

@[simp] lemma attempt_apply (c : Cmd σ ο π) (s : σ) :
    attempt c s = ⟨(c s).state, (c s).out, none⟩ := rfl

lemma andThen_of_none {c d : Cmd σ ο π} {s : σ} (h : (c s).panic = none) :
    c.andThen d s =
      ⟨(d (c s).state).state, (c s).out ++ (d (c s).state).out, (d (c s).state).panic⟩ := by
  simp [andThen, h]

lemma andThen_of_some {c d : Cmd σ ο π} {s : σ} {p : π} (h : (c s).panic = some p) :
    c.andThen d s = c s := by
  simp only [andThen, h]
  rw [← h]

/-- What the first of two commands emits comes first. -/
lemma sublist_out_andThen (c d : Cmd σ ο π) (s : σ) :
    (c s).out.Sublist (c.andThen d s).out := by
  cases h : (c s).panic with
  | none =>
    rw [andThen_of_none h]
    exact List.sublist_append_left _ _
  | some p => rw [andThen_of_some h]

@[simp] lemma andThen_skip (c : Cmd σ ο π) : c.andThen skip = c := by
  funext s
  cases h : (c s).panic with
  | none => rw [andThen_of_none h]; simp [← h]
  | some p => rw [andThen_of_some h]

@[simp] lemma skip_andThen (c : Cmd σ ο π) : (skip : Cmd σ ο π).andThen c = c := by
  funext s
  rw [andThen_of_none rfl]
  rfl

lemma andThen_assoc (c d e : Cmd σ ο π) :
    (c.andThen d).andThen e = c.andThen (d.andThen e) := by
  funext s
  cases hc : (c s).panic with
  | some p => simp [andThen, hc]
  | none => cases hd : (d (c s).state).panic <;> simp [andThen, hc, hd]

lemma panic_andThen {c d : Cmd σ ο π} {s : σ} :
    (c.andThen d s).panic = none ↔ (c s).panic = none ∧ (d (c s).state).panic = none := by
  cases h : (c s).panic with
  | none => simp [andThen_of_none h]
  | some p => simp [andThen_of_some h, h]

@[simp] lemma forEach_nil (f : ι → Cmd σ ο π) : forEach f [] = skip := rfl

lemma forEach_cons (f : ι → Cmd σ ο π) (i : ι) (is : List ι) :
    forEach f (i :: is) = (f i).andThen (forEach f is) := rfl

lemma forEach_append (f : ι → Cmd σ ο π) (is js : List ι) :
    forEach f (is ++ js) = (forEach f is).andThen (forEach f js) := by
  induction is with
  | nil => simp
  | cons i is ih => rw [List.cons_append, forEach_cons, forEach_cons, ih, andThen_assoc]

/-- A loop whose bodies leave the state alone panics where one of them does. -/
lemma panic_forEach {f : ι → Cmd σ ο π} (hf : ∀ i s, (f i s).state = s) {is : List ι} {s : σ} :
    (forEach f is s).panic = none ↔ ∀ i ∈ is, (f i s).panic = none := by
  induction is with
  | nil => simp [skip]
  | cons i is ih => rw [forEach_cons, panic_andThen, hf, ih, List.forall_mem_cons]

/-- A loop whose bodies only emit. -/
lemma forEach_eq_emit {f : ι → Cmd σ ο π} {g : ι → List ο} {is : List ι}
    (h : ∀ i ∈ is, f i = emit (g i)) : forEach f is = emit (is.flatMap g) := by
  induction is with
  | nil => rfl
  | cons i is ih =>
    rw [forEach_cons, h i List.mem_cons_self, ih fun j hj => h j (List.mem_cons_of_mem _ hj)]
    rfl

@[simp] lemma calls_nil (f : ι → Cmd σ ο π) : calls f [] = skip := rfl

/-- The first of several independent calls. -/
lemma calls_cons (f : ι → Cmd σ ο π) (i : ι) (is : List ι) (s : σ) :
    calls f (i :: is) s =
      ⟨(calls f is (f i s).state).state, (f i s).out ++ (calls f is (f i s).state).out,
        (calls f is (f i s).state).panic⟩ := rfl

/-- A sequence of independent calls always returns. -/
@[simp] lemma panic_calls (f : ι → Cmd σ ο π) (is : List ι) (s : σ) :
    (calls f is s).panic = none := by
  induction is generalizing s with
  | nil => rfl
  | cons i is ih => rw [calls_cons, ih]

lemma calls_append (f : ι → Cmd σ ο π) (is js : List ι) (s : σ) :
    calls f (is ++ js) s =
      ⟨(calls f js (calls f is s).state).state,
        (calls f is s).out ++ (calls f js (calls f is s).state).out, none⟩ := by
  have happ : calls f (is ++ js) = (calls f is).andThen (calls f js) :=
    forEach_append _ is js
  rw [happ, andThen_of_none (panic_calls f is s), panic_calls]

/-! ## The invariant rule -/

/-- From a state in `I`, the command ends in a state in `I` and emits only outputs in `O`,
whether it returns or unwinds. -/
def Keeps (I : σ → Prop) (O : ο → Prop) (c : Cmd σ ο π) : Prop :=
  ∀ s, I s → I (c s).state ∧ ∀ o ∈ (c s).out, O o

section Keeps

variable {I : σ → Prop} {O : ο → Prop} {c d : Cmd σ ο π}

lemma keeps_skip : Keeps I O (skip : Cmd σ ο π) := fun _ h => ⟨h, by simp⟩

lemma keeps_emit {os : List ο} (h : ∀ o ∈ os, O o) : Keeps I O (emit os : Cmd σ ο π) :=
  fun _ hs => ⟨hs, h⟩

lemma keeps_fail (p : π) : Keeps I O (fail p : Cmd σ ο π) := fun _ h => ⟨h, by simp⟩

lemma keeps_modify {f : σ → σ} (h : ∀ s, I s → I (f s)) :
    Keeps I O (modify f : Cmd σ ο π) := fun s hs => ⟨h s hs, by simp⟩

lemma Keeps.andThen (hc : Keeps I O c) (hd : Keeps I O d) : Keeps I O (c.andThen d) := by
  intro s hs
  obtain ⟨hI, hO⟩ := hc s hs
  cases h : (c s).panic with
  | some p =>
    rw [andThen_of_some h]
    exact ⟨hI, hO⟩
  | none =>
    obtain ⟨hI', hO'⟩ := hd _ hI
    rw [andThen_of_none h]
    refine ⟨hI', fun o ho => ?_⟩
    rcases List.mem_append.mp ho with ho | ho
    · exact hO o ho
    · exact hO' o ho

lemma Keeps.forEach {f : ι → Cmd σ ο π} {is : List ι} (h : ∀ i ∈ is, Keeps I O (f i)) :
    Keeps I O (forEach f is) := by
  induction is with
  | nil => exact keeps_skip
  | cons i is ih =>
    exact (h i List.mem_cons_self).andThen
      (ih fun j hj => h j (List.mem_cons_of_mem _ hj))

lemma Keeps.attempt (hc : Keeps I O c) : Keeps I O (attempt c) := hc

lemma Keeps.calls {f : ι → Cmd σ ο π} {is : List ι} (h : ∀ i ∈ is, Keeps I O (f i)) :
    Keeps I O (calls f is) :=
  Keeps.forEach fun i hi => (h i hi).attempt

end Keeps

end Cmd
