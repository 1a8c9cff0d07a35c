import RustDds.Lib.Run
import RustDds.Rtps.Fragment

/-!
# When reassembly panics

`FragmentAssembler.receive` copies payload bytes between two slices whose bounds it computes
from the fields of the current fragment, while the destination was sized by an earlier
fragment of the same key.  Its guard, that a turn behind the payload is skipped, does not
bound the other end: the copy panics when the payload reaches behind the `dataSize` the
fragment declares, or behind the buffer the key already has.

`receive_isOk_iff` is the exact condition for one call, `neverPanics_iff` for a run from a
fresh assembler.  `neverPanics_of_agreed` is the use of it: writers that agree on the size of
each sample and stay within it never make the assembler panic.
-/

namespace RustDds

namespace DataFrag

/-- Every copy of the submessage ends within the sample it declares and within the buffer it
goes to.  The copies are those of the turns before the first whose offset lies behind the
sample, at indices not yet received, that start within the payload. -/
def Accommodated (f : DataFrag) (fb : FragBuffer) : Prop :=
  ∀ i < f.fragmentsInSubmsg.toNat, (∀ j ≤ i, f.offset j < f.dataSize.toNat) →
    f.idx i ∉ fb.receivedIndices → f.fragStart i ≤ f.fragEnd i →
      f.offset i + f.fragLen i ≤ min f.dataSize.toNat fb.data.length

lemma mem_takeWhile_range' {p : ℕ → Bool} {s n i : ℕ} :
    i ∈ (List.range' s n).takeWhile p ↔
      (s ≤ i ∧ i < s + n) ∧ ∀ j, s ≤ j → j ≤ i → p j = true := by
  induction n generalizing s with
  | zero =>
    simp only [List.range'_zero, List.takeWhile_nil, List.not_mem_nil, false_iff]
    omega
  | succ n ih =>
    rw [List.range'_succ]
    by_cases hs : p s = true
    · rw [List.takeWhile_cons_of_pos hs, List.mem_cons, ih]
      constructor
      · rintro (rfl | ⟨hi, hp⟩)
        · exact ⟨by omega, fun j h₁ h₂ => (by omega : j = i) ▸ hs⟩
        · refine ⟨by omega, fun j h₁ h₂ => ?_⟩
          rcases Nat.eq_or_lt_of_le h₁ with rfl | hlt
          · exact hs
          · exact hp j hlt h₂
      · rintro ⟨hi, hp⟩
        rcases Nat.eq_or_lt_of_le hi.1 with rfl | hlt
        · exact .inl rfl
        · exact .inr ⟨by omega, fun j h₁ h₂ => hp j (by omega) h₂⟩
    · rw [List.takeWhile_cons_of_neg hs]
      simp only [List.not_mem_nil, false_iff]
      exact fun h => hs (h.2 s le_rfl h.1.1)

/-- The turns that get to the copy, without the loop. -/
lemma mem_taken_turns {f : DataFrag} {fb : FragBuffer} {i : ℕ} :
    i ∈ f.taken fb f.turns ↔ i < f.fragmentsInSubmsg.toNat ∧
      (∀ j ≤ i, f.offset j < f.dataSize.toNat) ∧ f.Takes fb i := by
  rw [taken, turns, List.range_eq_range', List.mem_filter, mem_takeWhile_range']
  simp only [decide_eq_true_eq, Nat.zero_le, true_and, forall_const, Nat.zero_add, and_assoc]

/-- All copies of a submessage fit exactly if it is accommodated. -/
lemma fitsAll_iff {f : DataFrag} {fb : FragBuffer} : f.FitsAll fb ↔ f.Accommodated fb := by
  simp only [FitsAll, Accommodated, mem_taken_turns, Takes, Fits, le_min_iff]
  exact ⟨fun h i hi hoff hidx hle => h i ⟨hi, hoff, hidx, hle⟩,
    fun h i hi => h i hi.1 hi.2.1 hi.2.2.1 hi.2.2.2⟩

end DataFrag

namespace FragmentAssembler

/-- The assembler after a call at time `call.1` with fragment `call.2`. -/
def step (st : FragmentAssembler) (call : ℕ × DataFrag) : FragmentAssembler :=
  (st.receive call.1 call.2).1

/-- The call returns. -/
def Returns (st : FragmentAssembler) (call : ℕ × DataFrag) : Prop :=
  ∃ r, (st.receive call.1 call.2).2 = .ok r

/-- The call is turned away, or each of its copies is in bounds. -/
def Accommodates (st : FragmentAssembler) (call : ℕ × DataFrag) : Prop :=
  call.2.Rejected ∨ call.2.Accommodated (st.bufferFor call.1 call.2)

/-- When one call returns. -/
lemma returns_iff (st : FragmentAssembler) (call : ℕ × DataFrag) :
    Returns st call ↔ Accommodates st call := by
  obtain ⟨now, f⟩ := call
  by_cases hrej : f.Rejected
  · exact iff_of_true ⟨none, by rw [receive_of_rejected hrej]⟩ (.inl hrej)
  have hacc : Accommodates st (now, f) ↔ f.FitsAll (st.bufferFor now f) := by
    rw [Accommodates, DataFrag.fitsAll_iff]
    exact or_iff_right hrej
  rw [hacc, Returns]
  rcases receive_cases now st hrej with
    ⟨hfit, p, hrec⟩ | ⟨hfit, -, hrec⟩ | ⟨hfit, -, hrec⟩ <;> rw [hrec]
  · exact iff_of_false (fun ⟨r, hr⟩ => by cases hr) hfit
  · exact iff_of_true ⟨_, rfl⟩ hfit
  · exact iff_of_true ⟨_, rfl⟩ hfit

/-- No call of a run from a fresh assembler panics. -/
def NeverPanics (calls : List (ℕ × DataFrag)) : Prop := Run.Each step Returns ∅ calls

/-- **When no call panics**: exactly if every call of the run is turned away or finds a buffer
that accommodates it. -/
theorem neverPanics_iff (calls : List (ℕ × DataFrag)) :
    NeverPanics calls ↔ Run.Each step Accommodates ∅ calls :=
  Run.each_congr returns_iff

/-! ## Writers that agree -/

/-- Every buffer has the size its key stands for. -/
def Sized (size : FragKey → ℕ) (st : FragmentAssembler) : Prop :=
  ∀ k b, st.lookup k = some b → b.data.length = size k

/-- A fragment of a writer that declares the agreed size of its sample, and whose turns end
within the sample. -/
def Agrees (size : FragKey → ℕ) (f : DataFrag) : Prop :=
  f.dataSize.toNat = size f.key ∧
    ∀ i < f.fragmentsInSubmsg.toNat, f.offset i < f.dataSize.toNat →
      f.offset i + f.fragLen i ≤ f.dataSize.toNat

variable {size : FragKey → ℕ} {st : FragmentAssembler}

lemma Sized.sweep (h : Sized size st) (now : ℕ) : Sized size (st.sweep now) := by
  intro k b hb
  rw [lookup_sweep, Option.filter_eq_some_iff] at hb
  exact h k b hb.1

lemma Sized.length_bufferFor (h : Sized size st) {f : DataFrag} (hf : Agrees size f) (now : ℕ) :
    (st.bufferFor now f).data.length = size f.key := by
  rw [bufferFor]
  rcases hlook : (st.sweep now).lookup f.key with _ | b
  · simp [FragBuffer.fresh, hf.1]
  · exact h.sweep now f.key b hlook

/-- The step lemma: a call of an agreeing writer keeps the sizes. -/
lemma Sized.step (h : Sized size st) {call : ℕ × DataFrag} (hf : Agrees size call.2) :
    Sized size (step st call) := by
  obtain ⟨now, f⟩ := call
  intro k b hb
  by_cases hrej : f.Rejected
  · rw [FragmentAssembler.step, receive_of_rejected hrej] at hb
    exact h k b hb
  by_cases hk : k = f.key
  · subst hk
    rw [lookup_receive_self hrej hb, DataFrag.length_data_fill, h.length_bufferFor hf]
  · rw [FragmentAssembler.step, lookup_receive_of_ne hrej hk] at hb
    exact h.sweep now k b hb

/-- Writers that agree on the size of each sample, and stay within it, never make the assembler
panic, whatever order, loss and duplication their fragments meet. -/
theorem neverPanics_of_agreed (size : FragKey → ℕ) (calls : List (ℕ × DataFrag))
    (h : ∀ c ∈ calls, Agrees size c.2) : NeverPanics calls := by
  rw [neverPanics_iff]
  refine Run.Each.imp (I := Sized size) (fun st c hst hc => hst.step hc) (fun st c hst hc => ?_)
    (Run.each_of_forall fun c hc _ => h c hc) (fun k b hb => by simp at hb)
  refine .inr fun i hi hoff _ _ => ?_
  rw [hst.length_bufferFor hc, ← hc.1, min_self]
  exact hc.2 i hi (hoff i le_rfl)

end FragmentAssembler

/-! ## A submessage that panics -/

/-- The second of two eight-byte fragments of a ten-byte sample, carrying eight bytes where two
belong. -/
def overlongFragment : DataFrag where
  writerEntityId := entityIdForWriter 1
  readerEntityId := entityIdUnknown
  writerSeqNum := ⟨0, 1⟩
  fragmentStartingNum := 2
  fragmentsInSubmsg := 1
  fragmentSize := 8
  dataSize := 10
  payload := [1, 2, 3, 4, 5, 6, 7, 8]

/-- The over-long fragment decodes without error, and panics a fresh assembler. -/
theorem exists_panic : ¬ ∀ calls : List (ℕ × DataFrag),
    (∀ c ∈ calls, ∃ body, decodeDataFrag body = .ok c.2) →
      FragmentAssembler.NeverPanics calls := by
  intro h
  have hpanic : ((∅ : FragmentAssembler).receive 0 overlongFragment).2 =
      .error .lengthMismatch := by decide
  obtain ⟨r, hr⟩ := (h [(0, overlongFragment)] (fun c hc => by
    rw [List.mem_singleton.mp hc]
    exact ⟨_, decodeDataFrag_dataFragBody _⟩)).1
  rw [hpanic] at hr
  cases hr

end RustDds
