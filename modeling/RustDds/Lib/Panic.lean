import RustDds.Lib.Bytes

/-!
# Panics, machine arithmetic and poisoned locks

The few ways in which safe, panicking code leaves a call early, and the operations that do so:
copying between sub-slices, adding fixed-width integers with overflow checks, and entering a
critical section behind a mutex whose last holder unwound.

Everything that can fail returns in `Except Panic`.  Each operation comes with the exact condition
under which it returns (`copyFromSlice_eq_ok`, `checkedAdd_eq_ok`) and with what it returns then,
so that a proof about a caller never unfolds it.
-/

/-- Why a call unwound. -/
inductive Panic
  /-- A slice range that does not lie inside its slice. -/
  | sliceRange
  /-- `copy_from_slice` between slices of different lengths. -/
  | lengthMismatch
  /-- An integer addition or subtraction left its type. -/
  | overflow
  /-- `lock().expect(..)` on a mutex whose holder panicked. -/
  | poisoned
  deriving DecidableEq, Repr

/-! ## Sequencing -/

lemma Except.ok_bind {ε α β : Type} (a : α) (f : α → Except ε β) :
    ((.ok a : Except ε α) >>= f) = f a := rfl

lemma Except.error_bind {ε α β : Type} (e : ε) (f : α → Except ε β) :
    ((.error e : Except ε α) >>= f) = .error e := rfl

/-- A sequence that returned: its first part returned, and then its second. -/
lemma Except.bind_eq_ok {ε α β : Type} {x : Except ε α} {f : α → Except ε β} {b : β} :
    (x >>= f) = .ok b ↔ ∃ a, x = .ok a ∧ f a = .ok b := by
  cases x with
  | error e =>
    refine ⟨fun h => ?_, fun ⟨a, h, _⟩ => ?_⟩ <;> cases h
  | ok a =>
    refine ⟨fun h => ⟨a, rfl, h⟩, fun ⟨a', h, hf⟩ => ?_⟩
    cases h
    exact hf

lemma Except.map_eq_ok {ε α β : Type} {x : Except ε α} {f : α → β} {b : β} :
    x.map f = .ok b ↔ ∃ a, x = .ok a ∧ f a = b := by
  cases x with
  | error e => simp [Except.map]
  | ok a => simp [Except.map]

/-! ## Checked and wrapping arithmetic -/

/-- `wrapping_add` on `w` bits. -/
def wrappingAdd (w a b : ℕ) : ℕ := (a + b) % 2 ^ w

/-- `wrapping_sub` on `w` bits. -/
def wrappingSub (w a b : ℕ) : ℕ := if b ≤ a then a - b else a + 2 ^ w - b

/-- `wrapping_mul` on `w` bits. -/
def wrappingMul (w a b : ℕ) : ℕ := a * b % 2 ^ w

/-- Addition of `w`-bit unsigned integers, with overflow checks. -/
def checkedAdd (w a b : ℕ) : Except Panic ℕ :=
  if a + b < 2 ^ w then .ok (a + b) else .error .overflow

lemma checkedAdd_of_lt {w a b : ℕ} (h : a + b < 2 ^ w) : checkedAdd w a b = .ok (a + b) :=
  if_pos h

lemma checkedAdd_of_le {w a b : ℕ} (h : 2 ^ w ≤ a + b) : checkedAdd w a b = .error .overflow :=
  if_neg (by omega)

lemma checkedAdd_eq_ok {w a b c : ℕ} : checkedAdd w a b = .ok c ↔ a + b < 2 ^ w ∧ c = a + b := by
  unfold checkedAdd
  split <;> simp_all [eq_comm]

/-! ## Copying between slices -/

/-- `dst[a..b].copy_from_slice(&src[c..d])`, returning the new `dst`. -/
def copyFromSlice {α : Type*} (dst : List α) (a b : ℕ) (src : List α) (c d : ℕ) :
    Except Panic (List α) :=
  if a ≤ b ∧ b ≤ dst.length then
    if c ≤ d ∧ d ≤ src.length then
      if b - a = d - c then .ok (dst.take a ++ Bytes.slice src c d ++ dst.drop b)
      else .error .lengthMismatch
    else .error .sliceRange
  else .error .sliceRange

/-- When the copy returns, and what it returns. -/
lemma copyFromSlice_eq_ok {α : Type*} {dst src r : List α} {a b c d : ℕ} :
    copyFromSlice dst a b src c d = .ok r ↔
      (a ≤ b ∧ b ≤ dst.length ∧ c ≤ d ∧ d ≤ src.length ∧ b - a = d - c) ∧
        r = dst.take a ++ Bytes.slice src c d ++ dst.drop b := by
  unfold copyFromSlice
  by_cases h₁ : a ≤ b ∧ b ≤ dst.length
  · by_cases h₂ : c ≤ d ∧ d ≤ src.length
    · by_cases h₃ : b - a = d - c
      · simp only [if_pos h₁, if_pos h₂, if_pos h₃, Except.ok.injEq]
        exact ⟨fun h => ⟨⟨h₁.1, h₁.2, h₂.1, h₂.2, h₃⟩, h.symm⟩, fun h => h.2.symm⟩
      · simp [h₁, h₂, h₃]
    · rw [if_pos h₁, if_neg h₂]
      simp only [reduceCtorEq, false_iff]
      rintro ⟨⟨-, -, hc, hd, -⟩, -⟩
      exact h₂ ⟨hc, hd⟩
  · rw [if_neg h₁]
    simp only [reduceCtorEq, false_iff]
    rintro ⟨⟨ha, hb, -⟩, -⟩
    exact h₁ ⟨ha, hb⟩

section
variable {α : Type*} {dst src r : List α} {a b c d : ℕ}

lemma length_copyFromSlice (h : copyFromSlice dst a b src c d = .ok r) :
    r.length = dst.length := by
  obtain ⟨⟨ha, hb, hc, hd, he⟩, rfl⟩ := copyFromSlice_eq_ok.mp h
  simp only [List.length_append, List.length_take, List.length_drop, Bytes.length_slice]
  omega

/-- Inside the destination range the copy reads the source. -/
lemma getElem?_copyFromSlice_of_mem (h : copyFromSlice dst a b src c d = .ok r) {k : ℕ}
    (hak : a ≤ k) (hkb : k < b) : r[k]? = src[c + (k - a)]? := by
  obtain ⟨⟨ha, hb, hc, hd, he⟩, rfl⟩ := copyFromSlice_eq_ok.mp h
  have htake : (dst.take a).length = a := by
    simp only [List.length_take]
    omega
  have hslice : (Bytes.slice src c d).length = d - c := by
    simp only [Bytes.length_slice]
    omega
  rw [List.append_assoc, List.getElem?_append_right (by omega), htake,
    List.getElem?_append_left (by omega), Bytes.getElem?_slice _ _ _ _ (by omega)]

/-- Outside the destination range the copy changes nothing. -/
lemma getElem?_copyFromSlice_of_not_mem (h : copyFromSlice dst a b src c d = .ok r) {k : ℕ}
    (hk : k < a ∨ b ≤ k) : r[k]? = dst[k]? := by
  obtain ⟨⟨ha, hb, hc, hd, he⟩, rfl⟩ := copyFromSlice_eq_ok.mp h
  have htake : (dst.take a).length = a := by
    simp only [List.length_take]
    omega
  have hslice : (Bytes.slice src c d).length = d - c := by
    simp only [Bytes.length_slice]
    omega
  rcases hk with hk | hk
  · rw [List.append_assoc, List.getElem?_append_left (by omega),
      List.getElem?_take_of_lt (by omega)]
  · rw [List.getElem?_append_right (by rw [List.length_append]; omega), List.getElem?_drop]
    congr 1
    rw [List.length_append]
    omega

end

/-! ## Mutexes -/

/-- `std::sync::Mutex`: the guarded value, and the flag a panicking holder leaves behind. -/
structure Mutex (α : Type*) where
  val : α
  poisoned : Bool
  deriving DecidableEq, Repr

/-- `Mutex::new`. -/
def Mutex.new {α : Type*} (a : α) : Mutex α := ⟨a, false⟩

/-- A critical section entered with `lock().expect(..)`: it panics on a poisoned mutex, and
poisons the mutex when the section itself panics.  What the section had already written is
never read again, since every later entry panics. -/
def Mutex.lockExpect {α β : Type*} (m : Mutex α) (f : α → Except Panic (β × α)) :
    Except Panic β × Mutex α :=
  if m.poisoned then (.error .poisoned, m)
  else match f m.val with
    | .ok (b, a) => (.ok b, ⟨a, false⟩)
    | .error p => (.error p, ⟨m.val, true⟩)

namespace Mutex
variable {α β : Type*} {m : Mutex α} {f : α → Except Panic (β × α)}

lemma lockExpect_of_poisoned (h : m.poisoned = true) : m.lockExpect f = (.error .poisoned, m) := by
  simp [lockExpect, h]

lemma lockExpect_of_ok {b : β} {a : α} (h : m.poisoned = false) (hf : f m.val = .ok (b, a)) :
    m.lockExpect f = (.ok b, ⟨a, false⟩) := by
  simp [lockExpect, h, hf]

lemma lockExpect_of_error {p : Panic} (h : m.poisoned = false) (hf : f m.val = .error p) :
    m.lockExpect f = (.error p, ⟨m.val, true⟩) := by
  simp [lockExpect, h, hf]

end Mutex
