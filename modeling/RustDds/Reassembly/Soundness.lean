import RustDds.Reassembly.NoPanic

/-!
# When reassembly is sound

The assembler hands out a buffer once it has counted as many distinct fragment indices as the
buffer's first fragment called for.  It does not look at the bytes, so the sample is whole only
if every counted index brought its own stretch of it.

The runs here carry a ghost log: for each key, the fragments received since its buffer was
opened.  `Faithful` is the condition on a call, `SoundAt` the guarantee, and `reassembly_sound`
derives the second from the first over any run.  The invariant is `Backed`: each index a buffer
has counted is the index of a cell whose bytes are all sourced by the log.
-/

namespace RustDds

namespace DataFrag

/-- Where in the sample fragment `i` of the submessage belongs. -/
def position (f : DataFrag) (i : ℕ) : ℕ :=
  (f.fragmentStartingNum.toNat - 1 + i) * f.fragmentSize.toNat

/-- Fragment `i` of the submessage declares a position, and has bytes, that cover place `k`. -/
def Covers (f : DataFrag) (i k : ℕ) : Prop :=
  1 ≤ f.fragmentStartingNum.toNat ∧ f.position i ≤ k ∧ k < f.position i + f.fragLen i

instance (f : DataFrag) (i k : ℕ) : Decidable (f.Covers i k) := by
  unfold Covers
  infer_instance

/-- Turn `i` of the submessage is counted: it takes, and it and the turns before it fit. -/
def Counts (f : DataFrag) (fb : FragBuffer) (i : ℕ) : Prop :=
  (∀ j ≤ i, f.offset j < f.dataSize.toNat) ∧ f.Takes fb i ∧ ∀ j ≤ i, f.Takes fb j → f.Fits fb j

instance (f : DataFrag) (fb : FragBuffer) (i : ℕ) : Decidable (f.Counts fb i) := by
  unfold Counts
  infer_instance

/-- The counted turns, without the loop. -/
lemma mem_counted_turns {f : DataFrag} {fb : FragBuffer} {i : ℕ} :
    i ∈ f.counted fb f.turns ↔ i < f.fragmentsInSubmsg.toNat ∧ f.Counts fb i := by
  rw [counted, taken, List.takeWhile_filter, List.takeWhile_takeWhile, turns,
    List.range_eq_range', List.mem_filter, mem_takeWhile_range']
  simp only [decide_eq_true_eq, Nat.zero_le, true_and, forall_const, Nat.zero_add, Counts,
    Bool.or_eq_true, Bool.not_eq_true', decide_eq_false_iff_not]
  constructor
  · rintro ⟨⟨hi, hall⟩, htake⟩
    exact ⟨hi, fun j hj => (hall j hj).2, htake, fun j hj => (hall j hj).1.neg_resolve_left⟩
  · rintro ⟨hi, hoff, htake, hfit⟩
    refine ⟨⟨hi, fun j hj => ⟨?_, hoff j hj⟩⟩, htake⟩
    by_cases hj' : f.Takes fb j
    · exact .inr (hfit j hj hj')
    · exact .inl hj'

/-- Where the declared position is within a sample, nothing has wrapped. -/
lemma offset_eq_position {f : DataFrag} {i k : ℕ} (h : f.Covers i k) (hk : k < 2 ^ 32)
    (hrej : ¬ f.Rejected) : f.offset i = f.position i := by
  have hpos : f.position i < 2 ^ 32 := h.2.1.trans_lt hk
  have hidx : f.fragmentStartingNum.toNat - 1 + i ≤ f.position i :=
    Nat.le_mul_of_pos_right _ (fragmentSize_pos hrej)
  have hstart := h.1
  have hidx' : f.idx i = f.fragmentStartingNum.toNat - 1 + i := by
    rw [idx, wrappingSub, if_pos hstart, wrappingAdd]
    exact Nat.mod_eq_of_lt (by omega)
  rw [offset, hidx', wrappingMul]
  exact Nat.mod_eq_of_lt hpos

end DataFrag

/-! ## Logged runs -/

/-- An assembler, with the fragments received for each key since its buffer was opened. -/
structure LoggedAssembler where
  assembler : FragmentAssembler
  log : FragKey → List DataFrag

namespace LoggedAssembler

open FragmentAssembler

/-- A fresh assembler. -/
def new : LoggedAssembler := ⟨∅, fun _ => []⟩

/-- The log of a fragment's key once the fragment is received: the fragment opens the log if no
live buffer has the key. -/
def logWith (s : LoggedAssembler) (now : ℕ) (f : DataFrag) : List DataFrag :=
  if ((s.assembler.sweep now).lookup f.key).isSome then s.log f.key ++ [f] else [f]

/-- A call at time `call.1` with fragment `call.2`. -/
def step (s : LoggedAssembler) (call : ℕ × DataFrag) : LoggedAssembler where
  assembler := s.assembler.step call
  log := if call.2.Rejected then s.log
    else Function.update s.log call.2.key (s.logWith call.1 call.2)

/-- Place `k` of `data` is a byte some fragment of `log` carries for it. -/
def Sourced (log : List DataFrag) (data : Bytes) (k : ℕ) : Prop :=
  ∃ g ∈ log, ∃ i < g.fragmentsInSubmsg.toNat, g.Covers i k ∧
    data[k]? = g.payload[g.fragStart i + (k - g.position i)]?

/-- If the call hands out a sample, the sample has the size that each fragment received since
the buffer was opened declares, and each of its bytes is one that such a fragment carries for
that place. -/
def SoundAt (s : LoggedAssembler) (call : ℕ × DataFrag) : Prop :=
  ∀ data, (s.assembler.receive call.1 call.2).2 = .ok (some data) →
    (∀ g ∈ s.logWith call.1 call.2, g.dataSize.toNat = data.length) ∧
      ∀ k < data.length, Sourced (s.logWith call.1 call.2) data k

/-- Fragment `i` of the submessage brings the whole stretch that its index has in a sample cut
as the fragment `opener` cuts it. -/
def Brings (opener f : DataFrag) (i : ℕ) : Prop :=
  f.idx i < opener.dataSize.toNat ⌈/⌉ opener.fragmentSize.toNat ∧
    ∀ k < Tiling.cellEnd opener.dataSize.toNat opener.fragmentSize.toNat (f.idx i),
      Tiling.cellStart opener.fragmentSize.toNat (f.idx i) ≤ k → f.Covers i k

/-- The call is turned away, or its fragment declares the sample size of the one that opened
the buffer and every index it newly counts brings its whole stretch of the sample. -/
def Faithful (s : LoggedAssembler) (call : ℕ × DataFrag) : Prop :=
  call.2.Rejected ∨
    ∀ opener ∈ (s.logWith call.1 call.2).head?,
      call.2.dataSize = opener.dataSize ∧
        ∀ i < call.2.fragmentsInSubmsg.toNat,
          call.2.Counts (s.assembler.bufferFor call.1 call.2) i → Brings opener call.2 i

instance (opener f : DataFrag) (i : ℕ) : Decidable (Brings opener f i) := by
  unfold Brings
  infer_instance

instance (s : LoggedAssembler) (call : ℕ × DataFrag) : Decidable (Faithful s call) := by
  unfold Faithful
  infer_instance

/-! ## The invariant -/

lemma Sourced.mono {log log' : List DataFrag} {data : Bytes} {k : ℕ} (hlog : log ⊆ log')
    (h : Sourced log data k) : Sourced log' data k := by
  obtain ⟨g, hg, h⟩ := h
  exact ⟨g, hlog hg, h⟩

/-- A buffer whose counted indices are backed by the log: `opener` is the fragment the buffer
was opened for, and each counted index is that of a cell all of whose places are sourced. -/
structure Backed (opener : DataFrag) (log : List DataFrag) (b : FragBuffer) : Prop where
  accepted : ¬ opener.Rejected
  total_eq : b.total = opener.dataSize.toNat ⌈/⌉ opener.fragmentSize.toNat
  length_eq : b.data.length = opener.dataSize.toNat
  received_eq : b.received = b.receivedIndices.card
  indices_lt : ∀ j ∈ b.receivedIndices, j < b.total
  agree : ∀ g ∈ log, g.dataSize = opener.dataSize
  sourced : ∀ j ∈ b.receivedIndices, ∀ k, Tiling.cellStart opener.fragmentSize.toNat j ≤ k →
    k < Tiling.cellEnd opener.dataSize.toNat opener.fragmentSize.toNat j → Sourced log b.data k

variable {opener f : DataFrag} {log : List DataFrag} {b : FragBuffer}

/-- The buffer a fragment opens is backed. -/
lemma backed_fresh (h : ¬ f.Rejected) (now : ℕ) : Backed f [f] (.fresh now f) where
  accepted := h
  total_eq := rfl
  length_eq := by simp [FragBuffer.fresh]
  received_eq := rfl
  indices_lt := by simp [FragBuffer.fresh]
  agree := by simp
  sourced := by simp [FragBuffer.fresh]

/-- A further fragment of the same size leaves the buffer backed. -/
lemma Backed.log_append (h : Backed opener log b) (hf : f.dataSize = opener.dataSize) :
    Backed opener (log ++ [f]) b where
  accepted := h.accepted
  total_eq := h.total_eq
  length_eq := h.length_eq
  received_eq := h.received_eq
  indices_lt := h.indices_lt
  agree := by
    intro g hg
    rcases List.mem_append.mp hg with hg | hg
    · exact h.agree g hg
    · rw [List.mem_singleton.mp hg, hf]
  sourced := fun j hj k h₁ h₂ =>
    (h.sourced j hj k h₁ h₂).mono (List.subset_append_left log [f])

/-- The step of the invariant: a turn that brings its stretch keeps the buffer backed. -/
lemma Backed.copyTurn (h : Backed opener log b) (hrej : ¬ f.Rejected) (hf : f ∈ log) {i : ℕ}
    (hi : i < f.fragmentsInSubmsg.toNat) (htake : f.Takes b i) (hfit : f.Fits b i)
    (hbring : Brings opener f i) : Backed opener log (f.copyTurn b i) := by
  have hsize := DataFrag.fragmentSize_pos h.accepted
  have hstart : Tiling.cellStart opener.fragmentSize.toNat (f.idx i) <
      Tiling.cellEnd opener.dataSize.toNat opener.fragmentSize.toNat (f.idx i) := by
    have := (Tiling.lt_ceilDiv_iff hsize).mp hbring.1
    rw [Tiling.cellStart, Tiling.cellEnd, Nat.succ_mul]
    omega
  -- nothing wraps: the turn writes where its fragment belongs
  have hoff : f.offset i = f.position i := by
    have hle := DataFrag.dataSize_le h.accepted
    have hcell : Tiling.cellEnd opener.dataSize.toNat opener.fragmentSize.toNat (f.idx i) ≤
        opener.dataSize.toNat := min_le_right _ _
    refine DataFrag.offset_eq_position (hbring.2 _ hstart le_rfl) ?_ hrej
    rw [maxReassemblyBytes] at hle
    omega
  -- a place the turn covers is sourced by the turn, any other keeps its source
  have hplace : ∀ k, (f.Covers i k ∨ Sourced log b.data k) →
      Sourced log (f.copyTurn b i).data k := by
    intro k hk
    have hget := DataFrag.getElem?_data_copyTurn htake hfit k
    by_cases hin : f.offset i ≤ k ∧ k < f.offset i + f.fragLen i
    · rw [if_pos hin, hoff] at hget
      exact ⟨f, hf, i, hi, ⟨(hbring.2 _ hstart le_rfl).1, hoff ▸ hin.1, hoff ▸ hin.2⟩, hget⟩
    · rw [if_neg hin] at hget
      rcases hk with hcov | ⟨g, hg, j, hj, hcov, heq⟩
      · exact absurd ⟨hoff ▸ hcov.2.1, hoff ▸ hcov.2.2⟩ hin
      · exact ⟨g, hg, j, hj, hcov, hget.trans heq⟩
  exact {
    accepted := h.accepted
    total_eq := h.total_eq
    length_eq := (DataFrag.length_data_copyTurn htake hfit).trans h.length_eq
    received_eq := by
      simp only [DataFrag.received_copyTurn, DataFrag.receivedIndices_copyTurn,
        Finset.card_insert_of_notMem htake.1, h.received_eq]
    indices_lt := by
      intro j hj
      rcases Finset.mem_insert.mp hj with rfl | hj
      · exact h.total_eq ▸ hbring.1
      · exact h.indices_lt j hj
    agree := h.agree
    sourced := by
      intro j hj k h₁ h₂
      rcases Finset.mem_insert.mp hj with rfl | hj
      · exact hplace k (.inl (hbring.2 k h₂ h₁))
      · exact hplace k (.inr (h.sourced j hj k h₁ h₂)) }

/-- A backed buffer that has counted enough indices is whole. -/
lemma Backed.complete (h : Backed opener log b) (hdone : b.total ≤ b.received) :
    (∀ g ∈ log, g.dataSize.toNat = b.data.length) ∧
      ∀ k < b.data.length, Sourced log b.data k := by
  refine ⟨fun g hg => by rw [h.agree g hg, h.length_eq], fun k hk => ?_⟩
  refine Tiling.covered_of_card_le (DataFrag.fragmentSize_pos h.accepted)
    (fun j hj => h.total_eq ▸ h.indices_lt j hj) ?_ (fun j hj k => h.sourced j hj k)
    (h.length_eq ▸ hk)
  rwa [← h.total_eq, ← h.received_eq]

/-! ## Soundness -/

/-- Every live buffer is backed by its log. -/
def Inv (s : LoggedAssembler) : Prop :=
  ∀ k b, s.assembler.lookup k = some b → ∃ opener rest, s.log k = opener :: rest ∧
    Backed opener (s.log k) b

lemma inv_new : Inv new := fun k b hb => by simp [new] at hb

/-- A faithful fragment leaves a backed buffer behind. -/
lemma Inv.fill {s : LoggedAssembler} (h : Inv s) {now : ℕ} (hrej : ¬ f.Rejected)
    (hf : Faithful s (now, f)) :
    ∃ opener rest, s.logWith now f = opener :: rest ∧
      Backed opener (s.logWith now f) (f.fill (s.assembler.bufferFor now f)) := by
  have hf := hf.resolve_left hrej
  dsimp only at hf
  -- the buffer the fragment finds, or opens, is backed by the new log
  obtain ⟨opener, rest, hlog, hbacked⟩ : ∃ opener rest, s.logWith now f = opener :: rest ∧
      Backed opener (s.logWith now f) (s.assembler.bufferFor now f) := by
    rw [bufferFor, logWith]
    rw [logWith] at hf
    rcases hlook : (s.assembler.sweep now).lookup f.key with _ | b
    · exact ⟨f, [], rfl, backed_fresh hrej now⟩
    · have hb := hlook
      rw [lookup_sweep, Option.filter_eq_some_iff] at hb
      obtain ⟨opener, rest, hlog, hbacked⟩ := h f.key b hb.1
      rw [hlook, Option.isSome_some, if_pos rfl] at hf
      rw [hlog, List.cons_append, List.head?_cons] at hf
      refine ⟨opener, rest ++ [f], by rw [hlog]; rfl, ?_⟩
      exact hbacked.log_append (hf opener rfl).1
  refine ⟨opener, rest, hlog, ?_⟩
  have hbrings := (hf opener (by rw [hlog]; rfl)).2
  refine DataFrag.fill_induction (P := Backed opener (s.logWith now f)) ?_ hbacked
  intro i hi b hb htake hfit
  obtain ⟨hlt, hcount⟩ := DataFrag.mem_counted_turns.mp hi
  refine hb.copyTurn hrej ?_ hlt htake hfit (hbrings i hlt hcount)
  rw [logWith]
  split <;> simp

/-- The step lemma: a faithful call keeps every live buffer backed. -/
lemma Inv.step {s : LoggedAssembler} (h : Inv s) {call : ℕ × DataFrag} (hf : Faithful s call) :
    Inv (s.step call) := by
  obtain ⟨now, f⟩ := call
  intro k b hb
  by_cases hrej : f.Rejected
  · simp only [LoggedAssembler.step, FragmentAssembler.step, receive_of_rejected hrej,
      if_pos hrej] at hb ⊢
    exact h k b hb
  simp only [LoggedAssembler.step, if_neg hrej] at hb ⊢
  by_cases hk : k = f.key
  · subst hk
    rw [lookup_receive_self hrej hb, Function.update_self]
    exact h.fill hrej hf
  · rw [FragmentAssembler.step, lookup_receive_of_ne hrej hk, lookup_sweep,
      Option.filter_eq_some_iff] at hb
    rw [Function.update_of_ne hk]
    exact h k b hb.1

/-- What a faithful call hands out is sound. -/
lemma Inv.soundAt {s : LoggedAssembler} (h : Inv s) {call : ℕ × DataFrag}
    (hf : Faithful s call) : SoundAt s call := by
  obtain ⟨now, f⟩ := call
  intro data hdata
  by_cases hrej : f.Rejected
  · rw [receive_of_rejected hrej] at hdata
    cases hdata
  obtain ⟨opener, rest, -, hbacked⟩ := h.fill hrej hf
  rcases receive_cases now s.assembler hrej with
    ⟨-, p, hrec⟩ | ⟨-, hdone, hrec⟩ | ⟨-, -, hrec⟩ <;> rw [hrec] at hdata
  · cases hdata
  · cases hdata
    exact hbacked.complete hdone
  · cases hdata

/-- **Reassembly is sound on faithful runs**: where every call of a run is turned away, or
declares the size of the sample it adds to and brings the whole stretch of every index it
counts, every sample handed out consists of bytes that fragments carried for their places. -/
theorem reassembly_sound (calls : List (ℕ × DataFrag))
    (h : Run.Each step Faithful new calls) : Run.Each step SoundAt new calls :=
  h.imp (fun _ _ hs hf => hs.step hf) (fun _ _ hs hf => hs.soundAt hf) inv_new

/-- Fragment `num` of a six-byte sample cut at four. -/
def sixByteFragment (num : UInt32) (payload : Bytes) : DataFrag where
  writerEntityId := entityIdForWriter 1
  readerEntityId := entityIdUnknown
  writerSeqNum := ⟨0, 1⟩
  fragmentStartingNum := num
  fragmentsInSubmsg := 1
  fragmentSize := 4
  dataSize := 6
  payload := payload

/-- The two fragments of a sample in the wrong order, the second one twice. -/
def reorderedCalls : List (ℕ × DataFrag) :=
  [(0, sixByteFragment 2 [5, 6]), (1, sixByteFragment 2 [5, 6]),
    (2, sixByteFragment 1 [1, 2, 3, 4])]

/-- The reordered run is faithful, and hands out the sample. -/
theorem reassembly_sound_reordered :
    Run.Each step SoundAt new reorderedCalls ∧
      (((reorderedCalls.take 2).foldl step new).assembler.receive 2
        (sixByteFragment 1 [1, 2, 3, 4])).2 = .ok (some [1, 2, 3, 4, 5, 6]) :=
  ⟨reassembly_sound reorderedCalls (by decide), by decide⟩

/-- A fragment that claims the whole of a four-byte sample and carries nothing. -/
def emptyFragment : DataFrag :=
  { sixByteFragment 1 [] with dataSize := 4 }

/-- One empty fragment, a submessage that decodes without error, completes a sample of zeros
that no fragment carried. -/
theorem exists_unsound : ¬ ∀ calls : List (ℕ × DataFrag),
    (∀ c ∈ calls, ∃ body, decodeDataFrag body = .ok c.2) → Run.Each step SoundAt new calls := by
  intro h
  have hout : ((∅ : FragmentAssembler).receive 0 emptyFragment).2 =
      .ok (some [0, 0, 0, 0]) := by decide
  have hsound := (h [(0, emptyFragment)] (fun c hc => by
    rw [List.mem_singleton.mp hc]
    exact ⟨_, decodeDataFrag_dataFragBody _⟩)).1
  obtain ⟨g, hg, i, hi, hcov, -⟩ := (hsound _ hout).2 0 (by decide)
  have hlog : new.logWith 0 emptyFragment = [emptyFragment] := by decide
  rw [hlog, List.mem_singleton] at hg
  subst hg
  have hnone : ∀ i < emptyFragment.fragmentsInSubmsg.toNat, ¬ emptyFragment.Covers i 0 := by
    decide
  exact hnone i hi hcov

end LoggedAssembler

end RustDds
