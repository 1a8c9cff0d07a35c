import Mathlib.Data.List.TakeWhile
import RustDds.Lib.Panic
import RustDds.Lib.Table
import RustDds.Lib.Tiling
import RustDds.Rtps.Message

/-!
# DATA_FRAG: codec, reassembly, splitting

`DataFrag` is a parsed DATA_FRAG submessage and `FragmentAssembler.receive` the step of the
reassembler: it sweeps stale buffers, opens a buffer for the fragment's key on first contact,
copies the fragment's payload into it, and hands out the buffer's bytes once it has counted
enough distinct fragment indices.

The copying loop mixes six fields of an untrusted datagram, so `receive` can panic; a panic
leaves the buffers as they are at that moment, and the next call goes on from there, since the
assembler recovers a poisoned lock.  The loop is described once, by `copyFragments_fst` and
`copyFragments_snd`: `taken` lists the turns that reach the copy, `counted` the prefix of them
whose copy is in bounds, and the loop copies the latter.  Proofs about the assembler use these
lists and never the loop.

Times are nanoseconds of a monotonic clock; natural subtraction is the saturating
`duration_since`.
-/

namespace RustDds

/-- Maximum bytes placed in a single DATA_FRAG body. -/
def maxFragmentPayload : ℕ := 1200

/-- Maximum `dataSize` accepted. -/
def maxReassemblyBytes : ℕ := 16 * 1024 * 1024

/-- How long an incomplete reassembly is held, in nanoseconds. -/
def staleFragAge : ℕ := 5000000000

/-! ## The submessage -/

/-- Parsed fields of a DATA_FRAG submessage. -/
structure DataFrag where
  writerEntityId : EntityId
  readerEntityId : EntityId
  writerSeqNum : SequenceNumber
  /-- 1-based index of the first fragment carried. -/
  fragmentStartingNum : UInt32
  /-- Number of fragments carried. -/
  fragmentsInSubmsg : UInt16
  /-- Nominal bytes per fragment. -/
  fragmentSize : UInt16
  /-- Bytes of the whole sample. -/
  dataSize : UInt32
  payload : Bytes
  deriving DecidableEq

/-- The body of a DATA_FRAG submessage. -/
def dataFragBody (f : DataFrag) : Bytes :=
  Bytes.ofU16 0 ++ (Bytes.ofU16 0 ++ (f.readerEntityId.encode ++ (f.writerEntityId.encode ++
    (f.writerSeqNum.encode ++ (Bytes.ofU32 f.fragmentStartingNum ++
      (Bytes.ofU16 f.fragmentsInSubmsg ++ (Bytes.ofU16 f.fragmentSize ++
        (Bytes.ofU32 f.dataSize ++ f.payload))))))))

/-- A full DATA_FRAG submessage. -/
def encodeDataFrag (f : DataFrag) : Bytes := frame submsgDataFrag flagEndianness (dataFragBody f)

/-- Decode the body of a DATA_FRAG submessage. -/
def decodeDataFrag (body : Bytes) : Except RtpsDecodeError DataFrag :=
  if body.length < 32 then .error (.truncated 32 body.length)
  else do
    let readerEntityId ← EntityId.decode (Bytes.slice body 4 8)
    let writerEntityId ← EntityId.decode (Bytes.slice body 8 12)
    let writerSeqNum ← SequenceNumber.decode (Bytes.slice body 12 20)
    return {
      writerEntityId, readerEntityId, writerSeqNum
      fragmentStartingNum := Bytes.readU32 body 20
      fragmentsInSubmsg := Bytes.readU16 body 24
      fragmentSize := Bytes.readU16 body 26
      dataSize := Bytes.readU32 body 28
      payload := body.drop 32 }

@[simp] lemma length_dataFragBody (f : DataFrag) :
    (dataFragBody f).length = 32 + f.payload.length := by
  simp [dataFragBody]
  omega

/-- A DATA_FRAG body decodes to what it was built from. -/
lemma decodeDataFrag_dataFragBody (f : DataFrag) : decodeDataFrag (dataFragBody f) = .ok f := by
  have hr : Bytes.slice (dataFragBody f) 4 8 = f.readerEntityId.encode := by
    simp [dataFragBody, Bytes.slice_append_right, Bytes.slice_append_left]
  have hw : Bytes.slice (dataFragBody f) 8 12 = f.writerEntityId.encode := by
    simp [dataFragBody, Bytes.slice_append_right, Bytes.slice_append_left]
  have hs : Bytes.slice (dataFragBody f) 12 20 = f.writerSeqNum.encode := by
    simp [dataFragBody, Bytes.slice_append_right, Bytes.slice_append_left]
  have hstart : Bytes.readU32 (dataFragBody f) 20 = f.fragmentStartingNum := by
    simp [dataFragBody, Bytes.readU32_append_right]
  have hn : Bytes.readU16 (dataFragBody f) 24 = f.fragmentsInSubmsg := by
    simp [dataFragBody, Bytes.readU16_append_right]
  have hsize : Bytes.readU16 (dataFragBody f) 26 = f.fragmentSize := by
    simp [dataFragBody, Bytes.readU16_append_right]
  have hdata : Bytes.readU32 (dataFragBody f) 28 = f.dataSize := by
    simp [dataFragBody, Bytes.readU32_append_right]
  have hp : (dataFragBody f).drop 32 = f.payload := by
    simp [dataFragBody, Bytes.drop_append_right]
  rw [decodeDataFrag, if_neg (by simp), hr, hw, hs, hstart, hn, hsize, hdata, hp,
    EntityId.decode_encode, EntityId.decode_encode, SequenceNumber.decode_encode]
  rfl

/-! ## Positions

The arithmetic of one turn of the copying loop, with the wrapping the code asks for. -/

namespace DataFrag

/-- The 0-based fragment index of turn `i`. -/
def idx (f : DataFrag) (i : ℕ) : ℕ :=
  wrappingAdd 32 (wrappingSub 32 f.fragmentStartingNum.toNat 1) i

/-- Where in the sample turn `i` writes. -/
def offset (f : DataFrag) (i : ℕ) : ℕ := wrappingMul 32 (f.idx i) f.fragmentSize.toNat

/-- Where in the payload turn `i` starts to read. -/
def fragStart (f : DataFrag) (i : ℕ) : ℕ := i * f.fragmentSize.toNat

/-- `payload.len() as u32`. -/
def payloadLen (f : DataFrag) : ℕ := f.payload.length % 2 ^ 32

/-- Where in the payload turn `i` stops to read. -/
def fragEnd (f : DataFrag) (i : ℕ) : ℕ :=
  min (f.fragStart i + f.fragmentSize.toNat) f.payloadLen

/-- How many bytes turn `i` reads. -/
def fragLen (f : DataFrag) (i : ℕ) : ℕ := f.fragEnd i - f.fragStart i

/-- Where in the sample turn `i` stops to write. -/
def endOffset (f : DataFrag) (i : ℕ) : ℕ := min (f.offset i + f.fragLen i) f.dataSize.toNat

/-- The turns of one submessage are at distinct indices. -/
lemma idx_injOn (f : DataFrag) :
    ∀ i < f.fragmentsInSubmsg.toNat, ∀ j < f.fragmentsInSubmsg.toNat, f.idx i = f.idx j →
      i = j := by
  intro i hi j hj h
  have hn := f.fragmentsInSubmsg.toNat_lt
  simp only [idx, wrappingAdd] at h
  omega

end DataFrag

/-! ## The assembler -/

/-- Identifies a reassembly: the writer's entity id and the low half of the sequence number. -/
structure FragKey where
  writer : EntityId
  seqLo : UInt32
  deriving DecidableEq

/-- The key a fragment is filed under. -/
def DataFrag.key (f : DataFrag) : FragKey := ⟨f.writerEntityId, f.writerSeqNum.low⟩

/-- One reassembly in progress.  `received` counts the distinct indices in `receivedIndices`;
it stays in its 32-bit type, since the index `2 ^ 32 - 1` lies behind every sample. -/
structure FragBuffer where
  data : Bytes
  received : ℕ
  receivedIndices : Finset ℕ
  total : ℕ
  created : ℕ
  deriving DecidableEq

/-- The reassemblies in progress. -/
abbrev FragmentAssembler := Table FragKey FragBuffer

/-- The buffer a fragment opens. -/
def FragBuffer.fresh (now : ℕ) (f : DataFrag) : FragBuffer where
  data := List.replicate f.dataSize.toNat 0
  received := 0
  receivedIndices := ∅
  total := f.dataSize.toNat ⌈/⌉ f.fragmentSize.toNat
  created := now

/-- The copying loop, over the turns `is`, up to a panic. -/
def copyFragments (f : DataFrag) : List ℕ → FragBuffer → FragBuffer × Option Panic
  | [], fb => (fb, none)
  | i :: is, fb =>
    if f.offset i ≥ f.dataSize.toNat then (fb, none)
    else if f.idx i ∈ fb.receivedIndices then copyFragments f is fb
    else if f.fragEnd i < f.fragStart i then copyFragments f is fb
    else
      match copyFromSlice fb.data (f.offset i) (f.endOffset i)
          f.payload (f.fragStart i) (f.fragEnd i) with
      | .error p => (fb, some p)
      | .ok data =>
        copyFragments f is { fb with
          data
          receivedIndices := insert (f.idx i) fb.receivedIndices
          received := fb.received + 1 }

/-- The fragments `receive` turns away before it touches a buffer. -/
def DataFrag.Rejected (f : DataFrag) : Prop :=
  f.fragmentSize = 0 ∨ f.dataSize = 0 ∨ f.fragmentsInSubmsg = 0 ∨
    f.dataSize.toNat > maxReassemblyBytes

instance (f : DataFrag) : Decidable f.Rejected := by
  unfold DataFrag.Rejected
  infer_instance

namespace DataFrag

variable {f : DataFrag}

lemma fragmentSize_pos (h : ¬ f.Rejected) : 0 < f.fragmentSize.toNat :=
  Nat.pos_of_ne_zero fun h0 => h (.inl (UInt16.toNat_inj.mp h0))

lemma dataSize_le (h : ¬ f.Rejected) : f.dataSize.toNat ≤ maxReassemblyBytes :=
  not_lt.mp fun hlt => h (.inr (.inr (.inr hlt)))

end DataFrag

namespace FragmentAssembler

/-- The sweep of every call: drop the buffers that are too old. -/
def sweep (now : ℕ) (st : FragmentAssembler) : FragmentAssembler :=
  st.retain fun _ b => decide (now - b.created ≤ staleFragAge)

/-- The buffer a fragment is copied into. -/
def bufferFor (now : ℕ) (st : FragmentAssembler) (f : DataFrag) : FragBuffer :=
  ((st.sweep now).lookup f.key).getD (.fresh now f)

/-- Add one fragment.  Returns the whole sample when it is complete. -/
def receive (now : ℕ) (st : FragmentAssembler) (f : DataFrag) :
    FragmentAssembler × Except Panic (Option Bytes) :=
  if f.Rejected then (st, .ok none)
  else
    match copyFragments f (List.range f.fragmentsInSubmsg.toNat) (st.bufferFor now f) with
    | (fb, some p) => ((st.sweep now).insert f.key fb, .error p)
    | (fb, none) =>
      if fb.received ≥ fb.total then ((st.sweep now).erase f.key, .ok (some fb.data))
      else ((st.sweep now).insert f.key fb, .ok none)

end FragmentAssembler

/-! ## What the loop copies -/

namespace DataFrag

/-- Turn `i` gets past the checks and to the copy, given the indices already received. -/
def Takes (f : DataFrag) (fb : FragBuffer) (i : ℕ) : Prop :=
  f.idx i ∉ fb.receivedIndices ∧ f.fragStart i ≤ f.fragEnd i

/-- The copy of turn `i` is in bounds on both sides and of equal lengths. -/
def Fits (f : DataFrag) (fb : FragBuffer) (i : ℕ) : Prop :=
  f.offset i + f.fragLen i ≤ f.dataSize.toNat ∧ f.offset i + f.fragLen i ≤ fb.data.length

instance (f : DataFrag) (fb : FragBuffer) (i : ℕ) : Decidable (f.Takes fb i) := by
  unfold Takes
  infer_instance

instance (f : DataFrag) (fb : FragBuffer) (i : ℕ) : Decidable (f.Fits fb i) := by
  unfold Fits
  infer_instance

/-- The turns of `is` that get to the copy: those before the first whose offset lies behind the
sample, without the duplicates and the turns behind the payload. -/
def taken (f : DataFrag) (fb : FragBuffer) (is : List ℕ) : List ℕ :=
  (is.takeWhile fun i => decide (f.offset i < f.dataSize.toNat)).filter fun i =>
    decide (f.Takes fb i)

/-- The turns of `is` that are copied: those taken before the first that does not fit. -/
def counted (f : DataFrag) (fb : FragBuffer) (is : List ℕ) : List ℕ :=
  (f.taken fb is).takeWhile fun i => decide (f.Fits fb i)

/-- The buffer after the copy of turn `i`. -/
def copyTurn (f : DataFrag) (fb : FragBuffer) (i : ℕ) : FragBuffer :=
  { fb with
    data := fb.data.take (f.offset i) ++ Bytes.slice f.payload (f.fragStart i) (f.fragEnd i) ++
      fb.data.drop (f.offset i + f.fragLen i)
    receivedIndices := insert (f.idx i) fb.receivedIndices
    received := fb.received + 1 }

variable {f : DataFrag} {fb : FragBuffer} {i : ℕ}

lemma payloadLen_le (f : DataFrag) : f.payloadLen ≤ f.payload.length := Nat.mod_le _ _

/-- The copy of a turn that fits returns. -/
lemma copyFromSlice_of_fits (htake : f.Takes fb i) (hfit : f.Fits fb i) :
    copyFromSlice fb.data (f.offset i) (f.endOffset i) f.payload (f.fragStart i) (f.fragEnd i) =
      .ok (f.copyTurn fb i).data := by
  have hend : f.endOffset i = f.offset i + f.fragLen i := min_eq_left hfit.1
  have hpay : f.fragEnd i ≤ f.payload.length := (min_le_right _ _).trans f.payloadLen_le
  rw [copyFromSlice_eq_ok, hend]
  refine ⟨⟨Nat.le_add_right _ _, hfit.2, htake.2, hpay, ?_⟩, rfl⟩
  rw [Nat.add_sub_cancel_left, fragLen]

/-- The copy of a turn that does not fit panics. -/
lemma copyFromSlice_of_not_fits (hfit : ¬ f.Fits fb i) :
    ∃ p, copyFromSlice fb.data (f.offset i) (f.endOffset i) f.payload (f.fragStart i)
      (f.fragEnd i) = .error p := by
  rcases h : copyFromSlice fb.data (f.offset i) (f.endOffset i) f.payload (f.fragStart i)
      (f.fragEnd i) with p | r
  · exact ⟨p, rfl⟩
  · obtain ⟨⟨h₁, h₂, h₃, -, h₅⟩, -⟩ := copyFromSlice_eq_ok.mp h
    -- equal lengths leave the end where the payload puts it
    have hlen : f.offset i + f.fragLen i = f.endOffset i := by
      rw [fragLen]
      omega
    exact absurd ⟨hlen ▸ min_le_right _ _, hlen ▸ h₂⟩ hfit

lemma length_data_copyTurn (htake : f.Takes fb i) (hfit : f.Fits fb i) :
    (f.copyTurn fb i).data.length = fb.data.length :=
  length_copyFromSlice (copyFromSlice_of_fits htake hfit)

/-- What a copy leaves at place `k`: the payload's byte where it wrote, the old byte elsewhere. -/
lemma getElem?_data_copyTurn (htake : f.Takes fb i) (hfit : f.Fits fb i) (k : ℕ) :
    (f.copyTurn fb i).data[k]? =
      if f.offset i ≤ k ∧ k < f.offset i + f.fragLen i then
        f.payload[f.fragStart i + (k - f.offset i)]?
      else fb.data[k]? := by
  have hcopy := copyFromSlice_of_fits htake hfit
  have hend : f.endOffset i = f.offset i + f.fragLen i := min_eq_left hfit.1
  split
  · rename_i hk
    exact getElem?_copyFromSlice_of_mem hcopy hk.1 (hend ▸ hk.2)
  · exact getElem?_copyFromSlice_of_not_mem hcopy (by omega)

@[simp] lemma receivedIndices_copyTurn :
    (f.copyTurn fb i).receivedIndices = insert (f.idx i) fb.receivedIndices := rfl

@[simp] lemma received_copyTurn : (f.copyTurn fb i).received = fb.received + 1 := rfl

@[simp] lemma total_copyTurn : (f.copyTurn fb i).total = fb.total := rfl

/-- A copy changes neither what another turn takes nor what fits. -/
lemma takes_copyTurn {j : ℕ} (h : f.idx j ≠ f.idx i) :
    f.Takes (f.copyTurn fb i) j ↔ f.Takes fb j := by
  simp [Takes, h]

lemma fits_copyTurn (htake : f.Takes fb i) (hfit : f.Fits fb i) (j : ℕ) :
    f.Fits (f.copyTurn fb i) j ↔ f.Fits fb j := by
  rw [Fits, Fits, length_data_copyTurn htake hfit]

lemma taken_copyTurn {is : List ℕ} (h : f.idx i ∉ is.map f.idx) :
    f.taken (f.copyTurn fb i) is = f.taken fb is := by
  refine List.filter_congr fun j hj => ?_
  have hmem : j ∈ is := (List.takeWhile_subset _) hj
  have hne : f.idx j ≠ f.idx i := fun he => h (he ▸ List.mem_map_of_mem hmem)
  simp only [takes_copyTurn hne]

lemma counted_copyTurn {is : List ℕ} (h : f.idx i ∉ is.map f.idx) (htake : f.Takes fb i)
    (hfit : f.Fits fb i) : f.counted (f.copyTurn fb i) is = f.counted fb is := by
  rw [counted, counted, taken_copyTurn h]
  simp only [fits_copyTurn htake hfit]

lemma taken_cons_of_ge (is : List ℕ) (h : f.dataSize.toNat ≤ f.offset i) :
    f.taken fb (i :: is) = [] := by
  rw [taken, List.takeWhile_cons_of_neg (by simpa using h)]
  rfl

lemma taken_cons_of_takes (is : List ℕ) (h : f.offset i < f.dataSize.toNat)
    (htake : f.Takes fb i) : f.taken fb (i :: is) = i :: f.taken fb is := by
  rw [taken, List.takeWhile_cons_of_pos (by simpa using h),
    List.filter_cons_of_pos (by simpa using htake)]
  rfl

lemma taken_cons_of_not_takes (is : List ℕ) (h : f.offset i < f.dataSize.toNat)
    (htake : ¬ f.Takes fb i) : f.taken fb (i :: is) = f.taken fb is := by
  rw [taken, List.takeWhile_cons_of_pos (by simpa using h),
    List.filter_cons_of_neg (by simpa using htake)]
  rfl

end DataFrag

/-- One turn of the loop: the end of the sample, a turn that copies nothing, a copy, a panic. -/
lemma copyFragments_cons (f : DataFrag) (fb : FragBuffer) (i : ℕ) (is : List ℕ) :
    copyFragments f (i :: is) fb = (fb, none) ∧ f.dataSize.toNat ≤ f.offset i ∨
    copyFragments f (i :: is) fb = copyFragments f is fb ∧
      f.offset i < f.dataSize.toNat ∧ ¬ f.Takes fb i ∨
    copyFragments f (i :: is) fb = copyFragments f is (f.copyTurn fb i) ∧
      f.offset i < f.dataSize.toNat ∧ f.Takes fb i ∧ f.Fits fb i ∨
    (∃ p, copyFragments f (i :: is) fb = (fb, some p)) ∧
      f.offset i < f.dataSize.toNat ∧ f.Takes fb i ∧ ¬ f.Fits fb i := by
  rw [copyFragments]
  by_cases hoff : f.offset i ≥ f.dataSize.toNat
  · exact .inl ⟨if_pos hoff, hoff⟩
  have hlt : f.offset i < f.dataSize.toNat := not_le.mp hoff
  rw [if_neg hoff]
  by_cases hidx : f.idx i ∈ fb.receivedIndices
  · exact .inr (.inl ⟨if_pos hidx, hlt, fun h => h.1 hidx⟩)
  rw [if_neg hidx]
  by_cases hend : f.fragEnd i < f.fragStart i
  · exact .inr (.inl ⟨if_pos hend, hlt, fun h => absurd h.2 (not_le.mpr hend)⟩)
  rw [if_neg hend]
  have htake : f.Takes fb i := ⟨hidx, not_lt.mp hend⟩
  by_cases hfit : f.Fits fb i
  · have hbuf : { fb with
        data := (f.copyTurn fb i).data
        receivedIndices := insert (f.idx i) fb.receivedIndices
        received := fb.received + 1 } = f.copyTurn fb i := by
      unfold DataFrag.copyTurn
      rfl
    rw [DataFrag.copyFromSlice_of_fits htake hfit]
    dsimp only
    rw [hbuf]
    exact .inr (.inr (.inl ⟨rfl, hlt, htake, hfit⟩))
  · obtain ⟨p, hp⟩ := DataFrag.copyFromSlice_of_not_fits hfit
    rw [hp]
    exact .inr (.inr (.inr ⟨⟨p, rfl⟩, hlt, htake, hfit⟩))

section
variable {f : DataFrag} {fb : FragBuffer} {is : List ℕ}

/-- The loop copies the counted turns, in order. -/
lemma copyFragments_fst (h : (is.map f.idx).Nodup) :
    (copyFragments f is fb).1 = (f.counted fb is).foldl f.copyTurn fb := by
  induction is generalizing fb with
  | nil => rfl
  | cons i is ih =>
    obtain ⟨hnot, hnodup⟩ := List.nodup_cons.mp h
    rcases copyFragments_cons f fb i is with
      ⟨hstep, hoff⟩ | ⟨hstep, hoff, htake⟩ | ⟨hstep, hoff, htake, hfit⟩ |
      ⟨⟨p, hstep⟩, hoff, htake, hfit⟩
    · rw [hstep, DataFrag.counted, DataFrag.taken_cons_of_ge is hoff]
      rfl
    · rw [hstep, ih hnodup, DataFrag.counted, DataFrag.counted,
        DataFrag.taken_cons_of_not_takes is hoff htake]
    · rw [hstep, ih hnodup, DataFrag.counted_copyTurn hnot htake hfit, DataFrag.counted,
        DataFrag.counted, DataFrag.taken_cons_of_takes is hoff htake,
        List.takeWhile_cons_of_pos (by simpa using hfit), List.foldl_cons]
    · rw [hstep, DataFrag.counted, DataFrag.taken_cons_of_takes is hoff htake,
        List.takeWhile_cons_of_neg (by simpa using hfit)]
      rfl

/-- The loop returns exactly if every taken turn fits. -/
lemma copyFragments_snd (h : (is.map f.idx).Nodup) :
    (copyFragments f is fb).2 = none ↔ ∀ i ∈ f.taken fb is, f.Fits fb i := by
  induction is generalizing fb with
  | nil => simp [copyFragments, DataFrag.taken]
  | cons i is ih =>
    obtain ⟨hnot, hnodup⟩ := List.nodup_cons.mp h
    rcases copyFragments_cons f fb i is with
      ⟨hstep, hoff⟩ | ⟨hstep, hoff, htake⟩ | ⟨hstep, hoff, htake, hfit⟩ |
      ⟨⟨p, hstep⟩, hoff, htake, hfit⟩
    · simp [hstep, DataFrag.taken_cons_of_ge is hoff]
    · rw [hstep, ih hnodup, DataFrag.taken_cons_of_not_takes is hoff htake]
    · rw [hstep, ih hnodup, DataFrag.taken_copyTurn hnot,
        DataFrag.taken_cons_of_takes is hoff htake]
      simp only [DataFrag.fits_copyTurn htake hfit, List.forall_mem_cons, hfit, true_and]
    · simp [hstep, DataFrag.taken_cons_of_takes is hoff htake, hfit]

/-- Where every taken turn fits, every taken turn is counted. -/
lemma DataFrag.counted_eq_taken (h : ∀ i ∈ f.taken fb is, f.Fits fb i) :
    f.counted fb is = f.taken fb is :=
  List.takeWhile_eq_self_iff.mpr fun i hi => by simpa using h i hi

end

/-! ## What a call does -/

namespace DataFrag

/-- The turns of the whole submessage. -/
def turns (f : DataFrag) : List ℕ := List.range f.fragmentsInSubmsg.toNat

lemma nodup_idx_turns (f : DataFrag) : (f.turns.map f.idx).Nodup := by
  refine List.Nodup.map_on (fun i hi j hj => ?_) List.nodup_range
  exact f.idx_injOn i (List.mem_range.mp hi) j (List.mem_range.mp hj)

/-- What a turn that is taken is known to satisfy. -/
lemma mem_taken {f : DataFrag} {fb : FragBuffer} {is : List ℕ} {i : ℕ}
    (h : i ∈ f.taken fb is) : i ∈ is ∧ f.offset i < f.dataSize.toNat ∧ f.Takes fb i := by
  obtain ⟨hwhile, htake⟩ := List.mem_filter.mp h
  exact ⟨List.takeWhile_subset _ hwhile, by simpa using List.mem_takeWhile_imp hwhile,
    by simpa using htake⟩

lemma mem_counted {f : DataFrag} {fb : FragBuffer} {is : List ℕ} {i : ℕ}
    (h : i ∈ f.counted fb is) : i ∈ f.taken fb is ∧ f.Fits fb i :=
  ⟨List.takeWhile_subset _ h, by simpa using List.mem_takeWhile_imp h⟩

/-- Every copy a submessage makes into `fb` is in bounds. -/
def FitsAll (f : DataFrag) (fb : FragBuffer) : Prop := ∀ i ∈ f.taken fb f.turns, f.Fits fb i

instance (f : DataFrag) (fb : FragBuffer) : Decidable (f.FitsAll fb) := by
  unfold FitsAll
  infer_instance

/-- The buffer a submessage leaves behind. -/
def fill (f : DataFrag) (fb : FragBuffer) : FragBuffer :=
  (f.counted fb f.turns).foldl f.copyTurn fb

lemma nodup_idx_counted (f : DataFrag) (fb : FragBuffer) :
    ((f.counted fb f.turns).map f.idx).Nodup := by
  have hsub : (f.counted fb f.turns).Sublist f.turns :=
    (List.takeWhile_sublist _).trans (List.filter_sublist.trans (List.takeWhile_sublist _))
  exact f.nodup_idx_turns.sublist (hsub.map f.idx)

lemma foldl_copyTurn_induction {f : DataFrag} {P : FragBuffer → Prop} {is : List ℕ}
    (hstep : ∀ i ∈ is, ∀ fb, P fb → f.Takes fb i → f.Fits fb i → P (f.copyTurn fb i))
    (hnodup : (is.map f.idx).Nodup) {fb : FragBuffer}
    (his : ∀ i ∈ is, f.Takes fb i ∧ f.Fits fb i) (h : P fb) : P (is.foldl f.copyTurn fb) := by
  induction is generalizing fb with
  | nil => exact h
  | cons i is ih =>
    obtain ⟨hnot, hnodup⟩ := List.nodup_cons.mp hnodup
    obtain ⟨htake, hfit⟩ := his i List.mem_cons_self
    refine ih (fun j hj => hstep j (List.mem_cons_of_mem _ hj)) hnodup (fun j hj => ?_)
      (hstep i List.mem_cons_self fb h htake hfit)
    have hne : f.idx j ≠ f.idx i := fun he => hnot (he ▸ List.mem_map_of_mem hj)
    obtain ⟨htake', hfit'⟩ := his j (List.mem_cons_of_mem _ hj)
    exact ⟨(takes_copyTurn hne).mpr htake', (fits_copyTurn htake hfit j).mpr hfit'⟩

/-- **The invariant rule of filling.**  What each counted turn preserves, when it takes and
fits, the whole submessage preserves. -/
lemma fill_induction {f : DataFrag} {P : FragBuffer → Prop} {fb : FragBuffer}
    (hstep : ∀ i ∈ f.counted fb f.turns, ∀ fb', P fb' → f.Takes fb' i → f.Fits fb' i →
      P (f.copyTurn fb' i)) (h : P fb) : P (f.fill fb) :=
  foldl_copyTurn_induction hstep (f.nodup_idx_counted fb)
    (fun _ hi => ⟨(mem_taken (mem_counted hi).1).2.2, (mem_counted hi).2⟩) h

@[simp] lemma length_data_fill (f : DataFrag) (fb : FragBuffer) :
    (f.fill fb).data.length = fb.data.length :=
  fill_induction (P := fun b => b.data.length = fb.data.length)
    (fun _ _ _ hb htake hfit => (length_data_copyTurn htake hfit).trans hb) rfl

@[simp] lemma created_fill (f : DataFrag) (fb : FragBuffer) :
    (f.fill fb).created = fb.created :=
  fill_induction (P := fun b => b.created = fb.created) (fun _ _ _ hb _ _ => hb) rfl

end DataFrag

namespace FragmentAssembler

variable {now : ℕ} {st : FragmentAssembler} {f : DataFrag}

lemma lookup_sweep (now : ℕ) (st : FragmentAssembler) (k : FragKey) :
    (st.sweep now).lookup k =
      (st.lookup k).filter fun b => decide (now - b.created ≤ staleFragAge) :=
  Table.lookup_retain _ st k

lemma receive_of_rejected (h : f.Rejected) : st.receive now f = (st, .ok none) := if_pos h

/-- A call that is not turned away fills a buffer, and then panics, completes or waits. -/
lemma receive_cases (now : ℕ) (st : FragmentAssembler) (h : ¬ f.Rejected) :
    let fb := st.bufferFor now f
    (¬ f.FitsAll fb ∧ ∃ p,
      st.receive now f = ((st.sweep now).insert f.key (f.fill fb), .error p)) ∨
    (f.FitsAll fb ∧ (f.fill fb).total ≤ (f.fill fb).received ∧
      st.receive now f = ((st.sweep now).erase f.key, .ok (some (f.fill fb).data))) ∨
    (f.FitsAll fb ∧ (f.fill fb).received < (f.fill fb).total ∧
      st.receive now f = ((st.sweep now).insert f.key (f.fill fb), .ok none)) := by
  intro fb
  have hfst : (copyFragments f f.turns fb).1 = f.fill fb := copyFragments_fst f.nodup_idx_turns
  have hsnd : (copyFragments f f.turns fb).2 = none ↔ f.FitsAll fb :=
    copyFragments_snd f.nodup_idx_turns
  rcases hloop : copyFragments f f.turns fb with ⟨fb', _ | p⟩
  · rw [hloop] at hfst hsnd
    have hfill : fb' = f.fill fb := hfst
    have hall : f.FitsAll fb := hsnd.mp rfl
    have hrec : st.receive now f =
        if fb'.received ≥ fb'.total then ((st.sweep now).erase f.key, .ok (some fb'.data))
        else ((st.sweep now).insert f.key fb', .ok none) := by
      rw [receive, if_neg h]
      change (match copyFragments f f.turns fb with
        | (fb, some p) => _
        | (fb, none) => _) = _
      rw [hloop]
    rw [hrec, ← hfill]
    by_cases hdone : fb'.received ≥ fb'.total
    · exact .inr (.inl ⟨hall, hdone, if_pos hdone⟩)
    · exact .inr (.inr ⟨hall, not_le.mp hdone, if_neg hdone⟩)
  · rw [hloop] at hfst hsnd
    have hfill : fb' = f.fill fb := hfst
    refine .inl ⟨fun hall => by simpa using hsnd.mpr hall, p, ?_⟩
    rw [receive, if_neg h]
    change (match copyFragments f f.turns fb with
      | (fb, some p) => _
      | (fb, none) => _) = _
    rw [hloop, hfill]

/-- What a call that is not turned away leaves at its own key: nothing, or the filled buffer. -/
lemma lookup_receive_self (h : ¬ f.Rejected) {b : FragBuffer}
    (hb : (st.receive now f).1.lookup f.key = some b) : b = f.fill (st.bufferFor now f) := by
  rcases receive_cases now st h with
    ⟨-, p, hrec⟩ | ⟨-, -, hrec⟩ | ⟨-, -, hrec⟩ <;> rw [hrec] at hb
  · rw [AList.lookup_insert] at hb
    exact (Option.some.inj hb).symm
  · rw [AList.lookup_erase] at hb
    cases hb
  · rw [AList.lookup_insert] at hb
    exact (Option.some.inj hb).symm

/-- A call leaves the buffers of other keys alone, but for the sweep. -/
lemma lookup_receive_of_ne (h : ¬ f.Rejected) {k : FragKey} (hk : k ≠ f.key) :
    (st.receive now f).1.lookup k = (st.sweep now).lookup k := by
  rcases receive_cases now st h with
    ⟨-, p, hrec⟩ | ⟨-, -, hrec⟩ | ⟨-, -, hrec⟩ <;> rw [hrec]
  · exact AList.lookup_insert_ne hk
  · exact AList.lookup_erase_ne hk
  · exact AList.lookup_insert_ne hk

end FragmentAssembler

/-! ## Splitting -/

section
variable (writer : EntityId) (sn : SequenceNumber) (payload : Bytes) (size : ℕ)

/-- The fragment of `payload[offset..end]` that is numbered `fragNum`. -/
def fragmentAt (offset endOffset fragNum : ℕ) : DataFrag where
  writerEntityId := writer
  readerEntityId := entityIdUnknown
  writerSeqNum := sn
  fragmentStartingNum := UInt32.ofNat fragNum
  fragmentsInSubmsg := 1
  fragmentSize := UInt16.ofNat size
  dataSize := UInt32.ofNat payload.length
  payload := Bytes.slice payload offset endOffset

/-- The splitting loop from `offset` on, within `fuel` turns. -/
def splitLoop : ℕ → ℕ → ℕ → Option (Except Panic (List DataFrag))
  | 0, _, _ => none
  | fuel + 1, offset, fragNum =>
    if offset < payload.length then
      let endOffset := min (offset + size) payload.length
      let frag := fragmentAt writer sn payload size offset endOffset fragNum
      match checkedAdd 32 fragNum 1 with
      | .error p => some (.error p)
      | .ok next => (splitLoop fuel endOffset next).map fun r => r.map fun fs => frag :: fs
    else some (.ok [])

end

/-- Split `payload` into fragments of at most `maxPayloadSize` bytes, zero standing for the
default.  The size is truncated to 16 bits; the loop does not end when that leaves zero. -/
def splitIntoFragmentsN (writer : EntityId) (sn : SequenceNumber) (payload : Bytes)
    (maxPayloadSize : ℕ) : Option (Except Panic (List DataFrag)) :=
  let maxPayloadSize := if maxPayloadSize = 0 then maxFragmentPayload else maxPayloadSize
  splitLoop writer sn payload (maxPayloadSize % 2 ^ 16) (payload.length + 1) 0 1

section
variable {writer : EntityId} {sn : SequenceNumber} {payload : Bytes} {size : ℕ}

/-- With a positive size every turn of the loop advances, so the length bounds the turns. -/
lemma splitLoop_isSome (hsize : 0 < size) {fuel offset fragNum : ℕ}
    (hle : offset ≤ payload.length) (hfuel : payload.length < offset + fuel) :
    (splitLoop writer sn payload size fuel offset fragNum).isSome := by
  induction fuel generalizing offset fragNum with
  | zero => omega
  | succ fuel ih =>
    rw [splitLoop]
    split
    · dsimp only
      split
      · rfl
      · rw [Option.isSome_map]
        exact ih (by omega) (by omega)
    · rfl

lemma splitIntoFragmentsN_isSome {maxPayloadSize : ℕ} (h : maxPayloadSize % 2 ^ 16 ≠ 0) :
    (splitIntoFragmentsN writer sn payload maxPayloadSize).isSome := by
  have hpos : maxPayloadSize ≠ 0 := fun h0 => h (by rw [h0]; rfl)
  rw [splitIntoFragmentsN, if_neg hpos]
  exact splitLoop_isSome (by omega) (by omega) (by omega)

/-- Fragment `k` of `payload`, counting from zero. -/
def fragmentNumber (writer : EntityId) (sn : SequenceNumber) (payload : Bytes) (size k : ℕ) :
    DataFrag :=
  fragmentAt writer sn payload size (Tiling.cellStart size k)
    (Tiling.cellEnd payload.length size k) (k + 1)

/-- It is counted under its number. -/
lemma idx_fragmentNumber {k : ℕ} (hk : k + 1 < 2 ^ 32) :
    (fragmentNumber writer sn payload size k).idx 0 = k := by
  have hstart : (fragmentNumber writer sn payload size k).fragmentStartingNum.toNat = k + 1 :=
    UInt32.toNat_ofNat_of_lt' hk
  rw [DataFrag.idx, hstart, wrappingSub, if_pos (Nat.le_add_left 1 k), wrappingAdd,
    Nat.add_sub_cancel, Nat.add_zero]
  exact Nat.mod_eq_of_lt (Nat.lt_of_succ_lt hk)

/-- The loop cuts the rest of the payload into its cells. -/
lemma splitLoop_eq (hsize : 0 < size) (hcells : payload.length ⌈/⌉ size + 1 < 2 ^ 32)
    {fuel k : ℕ} (hk : k ≤ payload.length ⌈/⌉ size)
    (hfuel : payload.length ⌈/⌉ size < k + fuel) :
    splitLoop writer sn payload size fuel (min (k * size) payload.length) (k + 1) =
      some (.ok ((List.range' k (payload.length ⌈/⌉ size - k)).map
        (fragmentNumber writer sn payload size))) := by
  induction fuel generalizing k with
  | zero => omega
  | succ fuel ih =>
    rw [splitLoop]
    rcases Nat.eq_or_lt_of_le hk with heq | hlt
    · -- every cell is cut: the offset is at the end
      have hend : payload.length ≤ k * size := by
        by_contra hlt
        have hcell : k < payload.length ⌈/⌉ size := (Tiling.lt_ceilDiv_iff hsize).mpr (by omega)
        omega
      rw [if_neg (by omega), heq, Nat.sub_self]
      rfl
    · have hstart : k * size < payload.length := (Tiling.lt_ceilDiv_iff hsize).mp hlt
      have hmin : min (k * size) payload.length = k * size := min_eq_left hstart.le
      have hend : min (k * size + size) payload.length =
          min ((k + 1) * size) payload.length := by rw [Nat.succ_mul]
      rw [hmin, if_pos hstart]
      dsimp only
      rw [checkedAdd_of_lt (by omega), hend]
      dsimp only
      rw [ih (by omega) (by omega), show payload.length ⌈/⌉ size - k =
        payload.length ⌈/⌉ size - (k + 1) + 1 by omega, List.range'_succ]
      rfl

/-- What every fragment of a split says of its sample. -/
lemma mem_splitLoop {fuel offset fragNum : ℕ} {fs : List DataFrag}
    (h : splitLoop writer sn payload size fuel offset fragNum = some (.ok fs)) :
    ∀ f ∈ fs, f.writerEntityId = writer ∧ f.writerSeqNum = sn ∧ f.payload.length ≤ size := by
  induction fuel generalizing offset fragNum fs with
  | zero => cases h
  | succ fuel ih =>
    rw [splitLoop] at h
    split at h
    · dsimp only at h
      split at h
      · cases h
      obtain ⟨r, hrest, hr⟩ := Option.map_eq_some_iff.mp h
      obtain ⟨rest, rfl, rfl⟩ := Except.map_eq_ok.mp hr
      intro f hf
      rcases List.mem_cons.mp hf with rfl | hf
      · refine ⟨rfl, rfl, ?_⟩
        simp only [fragmentAt, Bytes.length_slice]
        omega
      · exact ih hrest f hf
    · cases h
      nofun

/-- What is not empty has a fragment. -/
lemma splitLoop_ne_nil {fuel offset fragNum : ℕ} {fs : List DataFrag}
    (hoffset : offset < payload.length)
    (h : splitLoop writer sn payload size fuel offset fragNum = some (.ok fs)) : fs ≠ [] := by
  cases fuel with
  | zero => cases h
  | succ fuel =>
    rw [splitLoop, if_pos hoffset] at h
    dsimp only at h
    split at h
    · cases h
    obtain ⟨r, -, hr⟩ := Option.map_eq_some_iff.mp h
    obtain ⟨rest, -, rfl⟩ := Except.map_eq_ok.mp hr
    exact List.cons_ne_nil _ _

end

/-- Split into fragments of the default size. -/
def splitIntoFragments (writer : EntityId) (sn : SequenceNumber) (payload : Bytes) :
    Except Panic (List DataFrag) :=
  (splitIntoFragmentsN writer sn payload maxFragmentPayload).get
    (splitIntoFragmentsN_isSome (by decide))

lemma mem_splitIntoFragments {writer : EntityId} {sn : SequenceNumber} {payload : Bytes}
    {fs : List DataFrag} (h : splitIntoFragments writer sn payload = .ok fs) :
    ∀ f ∈ fs, f.writerEntityId = writer ∧ f.writerSeqNum = sn ∧
      f.payload.length ≤ maxFragmentPayload := by
  have hsome : splitIntoFragmentsN writer sn payload maxFragmentPayload = some (.ok fs) :=
    Option.eq_some_iff_get_eq.mpr ⟨_, h⟩
  exact mem_splitLoop hsome

lemma splitIntoFragments_ne_nil {writer : EntityId} {sn : SequenceNumber} {payload : Bytes}
    {fs : List DataFrag} (hpos : 0 < payload.length)
    (h : splitIntoFragments writer sn payload = .ok fs) : fs ≠ [] := by
  have hsome : splitIntoFragmentsN writer sn payload maxFragmentPayload = some (.ok fs) :=
    Option.eq_some_iff_get_eq.mpr ⟨_, h⟩
  exact splitLoop_ne_nil hpos hsome

/-- What splitting returns on any payload whose fragments can be numbered. -/
lemma splitIntoFragments_eq {writer : EntityId} {sn : SequenceNumber} {payload : Bytes}
    (h : payload.length ⌈/⌉ maxFragmentPayload + 1 < 2 ^ 32) :
    splitIntoFragments writer sn payload =
      .ok ((List.range (payload.length ⌈/⌉ maxFragmentPayload)).map
        (fragmentNumber writer sn payload maxFragmentPayload)) := by
  have hfuel : payload.length ⌈/⌉ maxFragmentPayload < payload.length + 1 :=
    Nat.lt_succ_of_le (Tiling.ceilDiv_le_self (by decide))
  have hloop : splitLoop writer sn payload maxFragmentPayload (payload.length + 1)
      (min (0 * maxFragmentPayload) payload.length) (0 + 1) = _ :=
    splitLoop_eq (by decide) h (Nat.zero_le _) (by simpa using hfuel)
  apply Option.some_injective
  rw [splitIntoFragments, Option.some_get, splitIntoFragmentsN, if_neg (by decide)]
  simpa [List.range_eq_range', maxFragmentPayload] using hloop

end RustDds
