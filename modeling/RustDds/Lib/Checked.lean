import RustDds.Lib.Panic

/-!
# Checked evaluation

Code that reads a byte string by index and slice, adds machine integers and loops over iterators
can stop in two ways that its result type does not show: it panics, or it does not come to an
end.  In `Checked` both are faults.  The accesses here stop with one exactly where the language
does, and each comes with the lemma that says what it returns where it does not.

`loop` runs a step until it stops, within a budget of turns.  `loop_eq` is its rule: where a
measure bounds the turns and a function agrees with every step, the loop returns what the
function does.

`Stateful` is a call that works on a state, and leaves it changed whether it returns a value or
an error.  `on_bind_ok` and `on_bind_error` go through its steps.
-/

/-- Why an evaluation did not return. -/
inductive Fault
  | panic (p : Panic)
  /-- A loop took more turns than its budget. -/
  | budget
  deriving DecidableEq, Repr

/-- An evaluation with every access and every addition checked. -/
abbrev Checked (α : Type) := Except Fault α

namespace Checked

/-! ## Accesses -/

/-- `b[i]`. -/
def index (b : Bytes) (i : ℕ) : Checked UInt8 :=
  if i < b.length then .ok (Bytes.readU8 b i) else .error (.panic .sliceRange)

/-- `&b[i..j]`. -/
def slice (b : Bytes) (i j : ℕ) : Checked Bytes :=
  if i ≤ j ∧ j ≤ b.length then .ok (Bytes.slice b i j) else .error (.panic .sliceRange)

/-- `&b[i..]`. -/
def sliceFrom (b : Bytes) (i : ℕ) : Checked Bytes :=
  if i ≤ b.length then .ok (b.drop i) else .error (.panic .sliceRange)

/-- `b.split_at(i)`. -/
def splitAt (b : Bytes) (i : ℕ) : Checked (Bytes × Bytes) :=
  if i ≤ b.length then .ok (b.take i, b.drop i) else .error (.panic .sliceRange)

/-- `a.copy_from_slice(b)` into an array of `n` bytes. -/
def copy (n : ℕ) (b : Bytes) : Checked (FixedBytes n) :=
  if h : b.length = n then .ok ⟨b, h⟩ else .error (.panic .lengthMismatch)

/-- `a + b` for a `usize`. -/
def add (a b : ℕ) : Checked ℕ := (checkedAdd 64 a b).mapError .panic

/-- `a - b` for a `usize`. -/
def sub (a b : ℕ) : Checked ℕ := if b ≤ a then .ok (a - b) else .error (.panic .overflow)

/-- `u16::from_le_bytes([b[i], b[j]])`. -/
def readU16 (b : Bytes) (i j : ℕ) : Checked UInt16 := do
  let b₀ ← index b i
  let b₁ ← index b j
  return UInt16.ofNat (Bytes.toNatLE [b₀, b₁])

/-- `u32::from_le_bytes([b[i], b[i + 1], b[i + 2], b[i + 3]])`, at a constant `i`. -/
def readU32 (b : Bytes) (i : ℕ) : Checked UInt32 := do
  let b₀ ← index b i
  let b₁ ← index b (i + 1)
  let b₂ ← index b (i + 2)
  let b₃ ← index b (i + 3)
  return UInt32.ofNat (Bytes.toNatLE [b₀, b₁, b₂, b₃])

section
variable {b : Bytes} {i j n : ℕ}

lemma index_eq (h : i < b.length) : index b i = .ok (Bytes.readU8 b i) := if_pos h

lemma slice_eq (hij : i ≤ j) (hj : j ≤ b.length) : slice b i j = .ok (Bytes.slice b i j) :=
  if_pos ⟨hij, hj⟩

lemma sliceFrom_eq (h : i ≤ b.length) : sliceFrom b i = .ok (b.drop i) := if_pos h

lemma splitAt_eq (h : i ≤ b.length) : splitAt b i = .ok (b.take i, b.drop i) := if_pos h

lemma copy_eq (h : b.length = n) : copy n b = .ok ⟨b, h⟩ := dif_pos h

lemma add_eq (h : i + j < 2 ^ 64) : add i j = .ok (i + j) := by
  rw [add, checkedAdd_of_lt h]
  rfl

lemma sub_eq (h : j ≤ i) : sub i j = .ok (i - j) := if_pos h

lemma drop_eq_readU8_cons (h : i < b.length) : b.drop i = Bytes.readU8 b i :: b.drop (i + 1) := by
  rw [List.drop_eq_getElem_cons h, Bytes.readU8, List.getD_eq_getElem?_getD,
    List.getElem?_eq_getElem h, Option.getD_some]

lemma readU16_eq (h : i + 2 ≤ b.length) : readU16 b i (i + 1) = .ok (Bytes.readU16 b i) := by
  have hslice : Bytes.slice b i (i + 2) = [Bytes.readU8 b i, Bytes.readU8 b (i + 1)] := by
    rw [Bytes.slice, Nat.add_sub_cancel_left, drop_eq_readU8_cons (by omega),
      drop_eq_readU8_cons (by omega)]
    rfl
  rw [readU16, index_eq (by omega), Except.ok_bind, index_eq (by omega), Except.ok_bind,
    Bytes.readU16, hslice]
  rfl

lemma readU32_eq (h : i + 4 ≤ b.length) : readU32 b i = .ok (Bytes.readU32 b i) := by
  have hslice : Bytes.slice b i (i + 4) = [Bytes.readU8 b i, Bytes.readU8 b (i + 1),
      Bytes.readU8 b (i + 2), Bytes.readU8 b (i + 3)] := by
    rw [Bytes.slice, Nat.add_sub_cancel_left, drop_eq_readU8_cons (by omega),
      drop_eq_readU8_cons (by omega), drop_eq_readU8_cons (by omega),
      drop_eq_readU8_cons (by omega)]
    rfl
  rw [readU32, index_eq (by omega), Except.ok_bind, index_eq (by omega), Except.ok_bind,
    index_eq (by omega), Except.ok_bind, index_eq (by omega), Except.ok_bind, Bytes.readU32,
    hslice]
  rfl

end

/-! ## Results

A call returns or faults; what it returns may still be the error of a result type. -/

section
variable {ε α β : Type}

/-- The `?` operator. -/
def question (x : Checked (Except ε α)) (f : α → Checked (Except ε β)) : Checked (Except ε β) := do
  match ← x with
  | .ok a => f a
  | .error e => return .error e

lemma question_eq {x : Checked (Except ε α)} {r : Except ε α} {f : α → Checked (Except ε β)}
    {g : α → Except ε β} (hx : x = .ok r) (hf : ∀ a, r = .ok a → f a = .ok (g a)) :
    question x f = .ok (r >>= g) := by
  rw [question, hx, Except.ok_bind]
  cases r with
  | error e => rfl
  | ok a => exact hf a rfl

end

/-! ## Calls on a state -/

/-- A call on a state `σ` that returns a value or an error `ε`, and may fault. -/
abbrev Stateful (σ ε : Type) := ExceptT ε (StateT σ Checked)

namespace Stateful
variable {σ ε α β : Type} {x : Stateful σ ε α} {s s' : σ}

/-- The outcome of the call on `s`, and the state it leaves. -/
def on (x : Stateful σ ε α) (s : σ) : Checked (Except ε α × σ) := (ExceptT.run x).run s

@[simp] lemma on_pure (a : α) : on (pure a : Stateful σ ε α) s = .ok (.ok a, s) := rfl

@[simp] lemma on_get : on (get : Stateful σ ε σ) s = .ok (.ok s, s) := rfl

@[simp] lemma on_set : on (set s' : Stateful σ ε PUnit) s = .ok (.ok ⟨⟩, s') := rfl

lemma on_lift {y : Checked α} {a : α} (h : y = .ok a) :
    on (liftM y : Stateful σ ε α) s = .ok (.ok a, s) := by
  rw [h]
  rfl

/-- After a step that returned, the next one goes on with its state. -/
lemma on_bind_ok {a : α} (h : on x s = .ok (.ok a, s')) (f : α → Stateful σ ε β) :
    on (x >>= f) s = on (f a) s' := by
  show (x.run.run s >>= _) = _
  rw [show x.run.run s = .ok (.ok a, s') from h]
  rfl

/-- A step that erred ends the call, and its state stays. -/
lemma on_bind_error {e : ε} (h : on x s = .ok (.error e, s')) (f : α → Stateful σ ε β) :
    on (x >>= f) s = .ok (.error e, s') := by
  show (x.run.run s >>= _) = _
  rw [show x.run.run s = .ok (.error e, s') from h]
  rfl

end Stateful

/-! ## Loops -/

variable {σ ρ : Type}

/-- What a turn of a loop does: go on with another state, or stop. -/
inductive Turn (σ ρ : Type)
  | again (s : σ)
  | stop (r : ρ)

/-- Run `step` until it stops, within a budget of turns. -/
def loop (step : σ → Checked (Turn σ ρ)) : ℕ → σ → Checked ρ
  | 0, _ => .error .budget
  | fuel + 1, s => do
    match ← step s with
    | .again s => loop step fuel s
    | .stop r => return r

/-- **The loop rule.**  Under an invariant, every turn agrees with `f` and either stops or lowers
the measure: then the loop returns what `f` says. -/
lemma loop_eq {step : σ → Checked (Turn σ ρ)} {f : σ → ρ} (I : σ → Prop) (measure : σ → ℕ)
    (hstep : ∀ s, I s → (∃ s', step s = .ok (.again s') ∧ I s' ∧ measure s' < measure s ∧
      f s' = f s) ∨ step s = .ok (.stop (f s))) {fuel : ℕ} {s : σ} (hs : I s)
    (hfuel : measure s < fuel) : loop step fuel s = .ok (f s) := by
  induction fuel generalizing s with
  | zero => omega
  | succ fuel ih =>
    rw [loop]
    rcases hstep s hs with ⟨s', hagain, hs', hlt, heq⟩ | hstop
    · rw [hagain, Except.ok_bind]
      exact (ih hs' (by omega)).trans (congrArg _ heq)
    · rw [hstop]
      rfl

end Checked
