import RustDds.Reassembly.Soundness

/-!
# What is split is put together again

`splitIntoFragments` cuts a byte string into cells.  Received in any order, and however often,
the pieces fill one buffer: piece `k` writes cell `k` and nothing else (`Fills.fill`), a piece
that is there already changes nothing (`Fills.refill`), and the last of them completes the string
(`Fills.data_eq`).

`receive_pieceOf` is the step of the assembler on a piece, with what it leaves under the key of
the string.
-/

namespace RustDds

open LoggedAssembler (Backed Brings)

/-- Piece `k` of a byte string, counting from zero. -/
def pieceOf (writer : EntityId) (sn : SequenceNumber) (source : Bytes) (k : ℕ) : DataFrag :=
  fragmentNumber writer sn source maxFragmentPayload k

/-- How many there are. -/
def pieceCount (source : Bytes) : ℕ := source.length ⌈/⌉ maxFragmentPayload

/-- All of them. -/
def piecesOf (writer : EntityId) (sn : SequenceNumber) (source : Bytes) : List DataFrag :=
  (List.range (pieceCount source)).map (pieceOf writer sn source)

section
variable {writer : EntityId} {sn : SequenceNumber} {source : Bytes} {k : ℕ}

@[simp] lemma key_pieceOf : (pieceOf writer sn source k).key = ⟨writer, sn.low⟩ := rfl

lemma mem_piecesOf {f : DataFrag} : f ∈ piecesOf writer sn source ↔
    ∃ k < pieceCount source, pieceOf writer sn source k = f := by
  simp [piecesOf]

lemma lt_pieceCount_iff : k < pieceCount source ↔ k * 1200 < source.length :=
  Tiling.lt_ceilDiv_iff (by decide)

lemma fragmentSize_pieceOf : (pieceOf writer sn source k).fragmentSize.toNat = 1200 := by
  change (UInt16.ofNat 1200).toNat = 1200
  decide

lemma turns_pieceOf : (pieceOf writer sn source k).turns = [0] := by
  change List.range (1 : UInt16).toNat = [0]
  decide

lemma fragStart_pieceOf : (pieceOf writer sn source k).fragStart 0 = 0 := Nat.zero_mul _

/-- The bytes of piece `k`. -/
lemma payload_pieceOf : (pieceOf writer sn source k).payload =
    Bytes.slice source (Tiling.cellStart 1200 k)
      (Tiling.cellEnd source.length 1200 k) := rfl

lemma length_payload_pieceOf : (pieceOf writer sn source k).payload.length =
    Tiling.cellEnd source.length 1200 k - Tiling.cellStart 1200 k := by
  rw [payload_pieceOf, Bytes.length_slice, Tiling.cellEnd]
  omega

lemma fragLen_pieceOf : (pieceOf writer sn source k).fragLen 0 =
    Tiling.cellEnd source.length 1200 k - Tiling.cellStart 1200 k := by
  rw [DataFrag.fragLen, DataFrag.fragEnd, fragStart_pieceOf, fragmentSize_pieceOf,
    DataFrag.payloadLen, length_payload_pieceOf, Tiling.cellEnd, Tiling.cellStart]
  omega

/-! ### The cells -/

variable (hlen : source.length ≤ maxReassemblyBytes)
include hlen

lemma dataSize_pieceOf :
    (pieceOf writer sn source k).dataSize.toNat = source.length := by
  change (UInt32.ofNat source.length).toNat = source.length
  exact UInt32.toNat_ofNat_of_lt' (lt_of_le_of_lt hlen (by decide))

lemma not_rejected_pieceOf (hk : k < pieceCount source) :
    ¬ (pieceOf writer sn source k).Rejected := by
  have hstart := lt_pieceCount_iff.mp hk
  have hsize := @fragmentSize_pieceOf writer sn source k
  have hdata := @dataSize_pieceOf writer sn source k hlen
  rintro (h | h | h | h)
  · rw [h] at hsize
    cases hsize
  · rw [h, UInt32.toNat_zero] at hdata
    omega
  · cases h
  · rw [hdata] at h
    exact absurd hlen (not_le.mpr h)

lemma idx_pieceOf (hk : k < pieceCount source) :
    (pieceOf writer sn source k).idx 0 = k := by
  have hstart := lt_pieceCount_iff.mp hk
  refine idx_fragmentNumber ?_
  rw [maxReassemblyBytes] at hlen
  omega

lemma position_pieceOf (hk : k < pieceCount source) :
    1 ≤ (pieceOf writer sn source k).fragmentStartingNum.toNat ∧
      (pieceOf writer sn source k).position 0 = Tiling.cellStart 1200 k := by
  have hstart := lt_pieceCount_iff.mp hk
  have hnum : (pieceOf writer sn source k).fragmentStartingNum.toNat = k + 1 := by
    refine UInt32.toNat_ofNat_of_lt' (lt_of_le_of_lt ?_ (show 2 ^ 25 < 2 ^ 32 by decide))
    rw [maxReassemblyBytes] at hlen
    omega
  rw [DataFrag.position, hnum, fragmentSize_pieceOf]
  exact ⟨Nat.le_add_left 1 k, rfl⟩

/-- It covers its cell. -/
lemma covers_pieceOf (hk : k < pieceCount source) {i : ℕ}
    (hstart : Tiling.cellStart 1200 k ≤ i)
    (hend : i < Tiling.cellEnd source.length 1200 k) :
    (pieceOf writer sn source k).Covers 0 i := by
  obtain ⟨hnum, hpos⟩ := @position_pieceOf writer sn source k hlen hk
  refine ⟨hnum, hpos ▸ hstart, ?_⟩
  rw [hpos, fragLen_pieceOf]
  omega

lemma brings_pieceOf {j : ℕ} (hk : k < pieceCount source) :
    Brings (pieceOf writer sn source j) (pieceOf writer sn source k) 0 := by
  rw [Brings, idx_pieceOf hlen hk, dataSize_pieceOf hlen, fragmentSize_pieceOf]
  exact ⟨hk, fun i hend hstart => covers_pieceOf hlen hk hstart hend⟩

lemma offset_pieceOf (hk : k < pieceCount source) :
    (pieceOf writer sn source k).offset 0 = Tiling.cellStart 1200 k := by
  have hstart := lt_pieceCount_iff.mp hk
  have hcell : Tiling.cellStart 1200 k < Tiling.cellEnd source.length 1200 k := by
    rw [Tiling.cellStart, Tiling.cellEnd]
    omega
  rw [DataFrag.offset_eq_position (covers_pieceOf hlen hk le_rfl hcell) ?_
    (not_rejected_pieceOf hlen hk)]
  · exact (position_pieceOf hlen hk).2
  · rw [Tiling.cellStart]
    rw [maxReassemblyBytes] at hlen
    omega

/-- The byte it carries for a place is that of the string. -/
lemma getElem?_pieceOf (hk : k < pieceCount source) {i : ℕ}
    (hcov : (pieceOf writer sn source k).Covers 0 i) :
    (pieceOf writer sn source k).payload[(pieceOf writer sn source k).fragStart 0 +
      (i - (pieceOf writer sn source k).position 0)]? = source[i]? := by
  obtain ⟨-, hpos⟩ := @position_pieceOf writer sn source k hlen hk
  obtain ⟨-, hstart, hend⟩ := hcov
  rw [hpos, fragLen_pieceOf] at hend
  rw [hpos] at hstart ⊢
  have hcell : Tiling.cellStart 1200 k + (i - Tiling.cellStart 1200 k) <
      Tiling.cellEnd source.length 1200 k := by
    omega
  rw [fragStart_pieceOf, Nat.zero_add, payload_pieceOf, Bytes.getElem?_slice _ _ _ _ hcell,
    Nat.add_sub_cancel' hstart]

/-! ### Filling a buffer -/

/-- A piece that the buffer does not have is copied into it. -/
lemma counted_pieceOf (hk : k < pieceCount source) {b : FragBuffer}
    (hnot : k ∉ b.receivedIndices) (hdata : b.data.length = source.length) :
    (pieceOf writer sn source k).taken b [0] = [0] ∧
      (pieceOf writer sn source k).Fits b 0 := by
  have hstart := lt_pieceCount_iff.mp hk
  have hoff := @offset_pieceOf writer sn source k hlen hk
  have hsize := @dataSize_pieceOf writer sn source k hlen
  have hend : Tiling.cellEnd source.length 1200 k ≤ source.length := min_le_right _ _
  have hcell : Tiling.cellStart 1200 k < Tiling.cellEnd source.length 1200 k := by
    rw [Tiling.cellStart, Tiling.cellEnd]
    omega
  have hfragEnd : (pieceOf writer sn source k).fragStart 0 ≤
      (pieceOf writer sn source k).fragEnd 0 := by
    rw [fragStart_pieceOf]
    exact Nat.zero_le _
  refine ⟨?_, ?_⟩
  · rw [DataFrag.taken_cons_of_takes [] (by rw [hoff, hsize]; exact hstart)
      ⟨by rwa [idx_pieceOf hlen hk], hfragEnd⟩]
    rfl
  · rw [DataFrag.Fits, hoff, hsize, hdata, fragLen_pieceOf]
    omega

end

/-- The buffer has been filled with the pieces `S` of the string. -/
def Fills (writer : EntityId) (sn : SequenceNumber) (source : Bytes) (S : Finset ℕ)
    (b : FragBuffer) : Prop :=
  ∃ opener log, opener ∈ piecesOf writer sn source ∧ log ⊆ piecesOf writer sn source ∧
    Backed opener log b ∧ b.receivedIndices = S

section
variable {writer : EntityId} {sn : SequenceNumber} {source : Bytes} {k : ℕ} {S : Finset ℕ}
  {b : FragBuffer}

lemma Fills.indices_eq (h : Fills writer sn source S b) : b.receivedIndices = S := by
  obtain ⟨_, _, -, -, -, hS⟩ := h
  exact hS

lemma Fills.received_eq (h : Fills writer sn source S b) : b.received = S.card := by
  obtain ⟨opener, log, -, -, hbacked, rfl⟩ := h
  exact hbacked.received_eq

variable (hlen : source.length ≤ maxReassemblyBytes)
include hlen

lemma fills_fresh (hk : k < pieceCount source) (now : ℕ) :
    Fills writer sn source ∅ (.fresh now (pieceOf writer sn source k)) := by
  have hmem : pieceOf writer sn source k ∈ piecesOf writer sn source :=
    mem_piecesOf.mpr ⟨k, hk, rfl⟩
  refine ⟨_, _, hmem, ?_, LoggedAssembler.backed_fresh (not_rejected_pieceOf hlen hk) now, rfl⟩
  exact List.cons_subset.mpr ⟨hmem, List.nil_subset _⟩

lemma Fills.total_eq (h : Fills writer sn source S b) : b.total = pieceCount source := by
  obtain ⟨opener, log, hmem, -, hbacked, -⟩ := h
  obtain ⟨j, -, rfl⟩ := mem_piecesOf.mp hmem
  rw [hbacked.total_eq, dataSize_pieceOf hlen, fragmentSize_pieceOf]
  rfl

lemma Fills.length_eq (h : Fills writer sn source S b) :
    b.data.length = source.length := by
  obtain ⟨opener, log, hmem, -, hbacked, -⟩ := h
  obtain ⟨j, -, rfl⟩ := mem_piecesOf.mp hmem
  rw [hbacked.length_eq, dataSize_pieceOf hlen]

/-- **One more piece** fills its cell. -/
lemma Fills.fill (h : Fills writer sn source S b) (hk : k < pieceCount source)
    (hnot : k ∉ S) :
    (pieceOf writer sn source k).FitsAll b ∧
      Fills writer sn source (insert k S) ((pieceOf writer sn source k).fill b) := by
  have hdata := h.length_eq hlen
  obtain ⟨opener, log, hopener, hlog, hbacked, rfl⟩ := h
  set f := pieceOf writer sn source k with hf
  have hmem : f ∈ piecesOf writer sn source := mem_piecesOf.mpr ⟨k, hk, rfl⟩
  obtain ⟨htaken, hfit⟩ := @counted_pieceOf writer sn source k hlen hk b hnot hdata
  have hfits : f.FitsAll b := by
    rw [DataFrag.FitsAll, hf, turns_pieceOf, htaken]
    exact fun i hi => List.mem_singleton.mp hi ▸ hfit
  have htake : f.Takes b 0 := by
    have hin : 0 ∈ f.taken b [0] := by
      rw [htaken]
      exact List.mem_singleton_self 0
    exact (DataFrag.mem_taken hin).2.2
  have hfill : f.fill b = f.copyTurn b 0 := by
    rw [DataFrag.fill, DataFrag.counted_eq_taken hfits, hf, turns_pieceOf, htaken]
    rfl
  obtain ⟨j, hj, rfl⟩ := mem_piecesOf.mp hopener
  have hagree : f.dataSize = (pieceOf writer sn source j).dataSize :=
    UInt32.toNat_inj.mp (by rw [hf, dataSize_pieceOf hlen, dataSize_pieceOf hlen])
  have hbacked' := hbacked.log_append hagree
  refine ⟨hfits, pieceOf writer sn source j, log ++ [f], hopener, ?_, ?_, ?_⟩
  · exact List.append_subset.mpr ⟨hlog, List.cons_subset.mpr ⟨hmem, List.nil_subset _⟩⟩
  · rw [hfill]
    exact hbacked'.copyTurn (not_rejected_pieceOf hlen hk)
      (List.mem_append_right _ (List.mem_singleton_self f)) Nat.zero_lt_one htake hfit
      (brings_pieceOf hlen hk)
  · rw [hfill, DataFrag.receivedIndices_copyTurn, hf, idx_pieceOf hlen hk]

/-- A piece that is there already changes nothing. -/
lemma Fills.refill (h : Fills writer sn source S b) (hk : k < pieceCount source) (hmem : k ∈ S) :
    (pieceOf writer sn source k).FitsAll b ∧ (pieceOf writer sn source k).fill b = b := by
  obtain ⟨opener, log, -, -, -, rfl⟩ := h
  have hstart := lt_pieceCount_iff.mp hk
  have hoff := @offset_pieceOf writer sn source k hlen hk
  have hsize := @dataSize_pieceOf writer sn source k hlen
  have hnot : ¬ (pieceOf writer sn source k).Takes b 0 := by
    rw [DataFrag.Takes, idx_pieceOf hlen hk]
    exact fun htakes => htakes.1 hmem
  have htaken : (pieceOf writer sn source k).taken b [0] = [] := by
    rw [DataFrag.taken_cons_of_not_takes [] (by rw [hoff, hsize]; exact hstart) hnot]
    rfl
  refine ⟨?_, ?_⟩
  · rw [DataFrag.FitsAll, turns_pieceOf, htaken]
    exact fun _ hk => absurd hk List.not_mem_nil
  · rw [DataFrag.fill, DataFrag.counted, turns_pieceOf, htaken]
    rfl

/-- A piece, missing or not, fills its cell. -/
lemma Fills.insert (h : Fills writer sn source S b) (hk : k < pieceCount source) :
    (pieceOf writer sn source k).FitsAll b ∧
      Fills writer sn source (Insert.insert k S) ((pieceOf writer sn source k).fill b) := by
  by_cases hmem : k ∈ S
  · obtain ⟨hfits, hsame⟩ := h.refill hlen hk hmem
    rw [Finset.insert_eq_self.mpr hmem, hsame]
    exact ⟨hfits, h⟩
  · exact h.fill hlen hk hmem

/-- With all its pieces the string is whole. -/
lemma Fills.data_eq (h : Fills writer sn source S b) (hall : pieceCount source ≤ S.card) :
    b.data = source := by
  have hdone : b.total ≤ b.received := by
    rw [h.total_eq hlen, h.received_eq]
    exact hall
  have hdata := h.length_eq hlen
  obtain ⟨opener, log, hopener, hlog, hbacked, rfl⟩ := h
  obtain ⟨-, hsourced⟩ := hbacked.complete hdone
  refine List.ext_getElem? fun i => ?_
  rcases Nat.lt_or_ge i b.data.length with hi | hi
  · obtain ⟨g, hg, j, hj, hcov, heq⟩ := hsourced i hi
    obtain ⟨k, hk, rfl⟩ := mem_piecesOf.mp (hlog hg)
    obtain rfl : j = 0 := by
      have hone : j < 1 := hj
      omega
    rw [heq, getElem?_pieceOf hlen hk hcov]
  · rw [List.getElem?_eq_none hi, List.getElem?_eq_none]
    omega

end

/-! ### Receiving a piece -/

namespace FragmentAssembler

/-- The assembler has the pieces `S` of the string, if any then in a buffer that is not too old at
any of `times`. -/
def Collects (writer : EntityId) (sn : SequenceNumber) (source : Bytes) (S : Finset ℕ)
    (times : List ℕ) (frags : FragmentAssembler) : Prop :=
  S = ∅ ∧ frags.lookup ⟨writer, sn.low⟩ = none ∨
    ∃ b, frags.lookup ⟨writer, sn.low⟩ = some b ∧ Fills writer sn source S b ∧
      ∀ t ∈ times, t ≤ b.created + staleFragAge

variable {writer : EntityId} {sn : SequenceNumber} {source : Bytes} {k now : ℕ} {S : Finset ℕ}
  {times : List ℕ} {frags : FragmentAssembler}

lemma Collects.mono {times' : List ℕ} (h : frags.Collects writer sn source S times)
    (hsub : times' ⊆ times) : frags.Collects writer sn source S times' :=
  h.imp_right fun ⟨b, hb, hfills, hage⟩ => ⟨b, hb, hfills, fun t ht => hage t (hsub ht)⟩

lemma lookup_sweep_of_le {key : FragKey} {b : FragBuffer} (h : frags.lookup key = some b)
    (hage : now ≤ b.created + staleFragAge) : (frags.sweep now).lookup key = some b := by
  rw [lookup_sweep, h, Option.filter_some, if_pos]
  rw [decide_eq_true_eq]
  omega

/-- The buffer that a piece is copied into. -/
lemma Collects.bufferFor (hlen : source.length ≤ maxReassemblyBytes)
    (h : frags.Collects writer sn source S (now :: times)) (hk : k < pieceCount source)
    (htimes : ∀ t ∈ times, t ≤ now + staleFragAge) :
    Fills writer sn source S (frags.bufferFor now (pieceOf writer sn source k)) ∧
      ∀ t ∈ times,
        t ≤ (frags.bufferFor now (pieceOf writer sn source k)).created + staleFragAge := by
  rw [FragmentAssembler.bufferFor, key_pieceOf]
  rcases h with ⟨rfl, hnone⟩ | ⟨b, hb, hfills, hage⟩
  · have hsweep : (frags.sweep now).lookup ⟨writer, sn.low⟩ = none := by
      rw [lookup_sweep, hnone]
      rfl
    rw [hsweep, Option.getD_none]
    exact ⟨fills_fresh hlen hk now, htimes⟩
  · rw [lookup_sweep_of_le hb (hage now List.mem_cons_self), Option.getD_some]
    exact ⟨hfills, fun t ht => hage t (List.mem_cons_of_mem _ ht)⟩

/-- **The step**: a piece that is missing is kept, or completes the string. -/
lemma receive_pieceOf (hlen : source.length ≤ maxReassemblyBytes)
    (h : frags.Collects writer sn source S (now :: times)) (hk : k < pieceCount source)
    (hnot : k ∉ S) (htimes : ∀ t ∈ times, t ≤ now + staleFragAge) :
    (S.card + 1 < pieceCount source →
      (frags.receive now (pieceOf writer sn source k)).2 = .ok none ∧
        (frags.receive now (pieceOf writer sn source k)).1.Collects writer sn source
          (insert k S) times) ∧
    (pieceCount source ≤ S.card + 1 →
      (frags.receive now (pieceOf writer sn source k)).2 = .ok (some source) ∧
        (frags.receive now (pieceOf writer sn source k)).1.lookup ⟨writer, sn.low⟩ = none) := by
  obtain ⟨hfills, hage⟩ := h.bufferFor hlen hk htimes
  obtain ⟨hfits, hfill⟩ := hfills.fill hlen hk hnot
  have hcard : (insert k S).card = S.card + 1 := Finset.card_insert_of_notMem hnot
  have htotal := hfill.total_eq hlen
  have hreceived := hfill.received_eq
  rw [hcard] at hreceived
  rcases receive_cases now frags (not_rejected_pieceOf hlen hk) with
    ⟨hnofit, -⟩ | ⟨-, hdone, hrec⟩ | ⟨-, hwait, hrec⟩
  · exact absurd hfits hnofit
  · rw [htotal, hreceived] at hdone
    refine ⟨fun hlt => absurd hdone (not_le.mpr hlt), fun _ => ?_⟩
    rw [hrec, key_pieceOf]
    refine ⟨?_, AList.lookup_erase _ _⟩
    rw [hfill.data_eq hlen (hcard ▸ hdone)]
  · rw [htotal, hreceived] at hwait
    refine ⟨fun _ => ?_, fun hle => absurd hwait (not_lt.mpr hle)⟩
    rw [hrec, key_pieceOf]
    refine ⟨rfl, .inr ⟨_, AList.lookup_insert _, hfill, ?_⟩⟩
    rw [DataFrag.created_fill]
    exact hage

/-- A piece that is there already is ignored while others are missing. -/
lemma receive_pieceOf_again (hlen : source.length ≤ maxReassemblyBytes)
    (h : frags.Collects writer sn source S (now :: times)) (hk : k < pieceCount source)
    (hmem : k ∈ S) (hwait : S.card < pieceCount source) :
    (frags.receive now (pieceOf writer sn source k)).2 = .ok none ∧
      (frags.receive now (pieceOf writer sn source k)).1.Collects writer sn source S times := by
  rcases h with ⟨rfl, -⟩ | ⟨b, hb, hfills, hage⟩
  · exact absurd hmem (Finset.notMem_empty k)
  have hbuffer : frags.bufferFor now (pieceOf writer sn source k) = b := by
    rw [FragmentAssembler.bufferFor, key_pieceOf,
      lookup_sweep_of_le hb (hage now List.mem_cons_self), Option.getD_some]
  obtain ⟨hfits, hfill⟩ := hfills.refill hlen hk hmem
  have hcases := receive_cases now frags (@not_rejected_pieceOf writer sn source k hlen hk)
  dsimp only at hcases
  rw [hbuffer, hfill, hfills.total_eq hlen, hfills.received_eq] at hcases
  rcases hcases with ⟨hnofit, -⟩ | ⟨-, hdone, -⟩ | ⟨-, -, hrec⟩
  · exact absurd hfits hnofit
  · exact absurd hdone (not_le.mpr hwait)
  · rw [hrec, key_pieceOf]
    exact ⟨rfl, .inr ⟨b, AList.lookup_insert _, hfills,
      fun t ht => hage t (List.mem_cons_of_mem _ ht)⟩⟩

/-- A fragment under another key leaves the buffer alone while it is not too old. -/
lemma Collects.receive_of_ne {f : DataFrag} (hkey : f.key ≠ ⟨writer, sn.low⟩)
    (h : frags.Collects writer sn source S (now :: times)) :
    (frags.receive now f).1.Collects writer sn source S times := by
  by_cases hrejected : f.Rejected
  · rw [receive_of_rejected hrejected]
    exact h.mono (List.subset_cons_self _ _)
  · rw [Collects, lookup_receive_of_ne hrejected hkey.symm]
    rcases h with ⟨hS, hnone⟩ | ⟨b, hb, hfills, hage⟩
    · refine .inl ⟨hS, ?_⟩
      rw [lookup_sweep, hnone]
      rfl
    · exact .inr ⟨b, lookup_sweep_of_le hb (hage now List.mem_cons_self), hfills,
        fun t ht => hage t (List.mem_cons_of_mem _ ht)⟩

/-! ### Receiving datagrams

What a datagram brings to the assembler are the DATA_FRAGs among its submessages. -/

/-- The DATA_FRAGs among some submessages, as far as they decode. -/
def dataFragsIn (submsgs : Bytes) : List DataFrag :=
  (submessages submsgs).filterMap fun raw =>
    if raw.id = submsgDataFrag then (decodeDataFrag raw.body).toOption else none

/-- The assembler after submessages that arrive at time `arrival.1`. -/
def arrive (st : FragmentAssembler) (arrival : ℕ × Bytes) : FragmentAssembler :=
  (dataFragsIn arrival.2).foldl (fun st f => (st.receive arrival.1 f).1) st

lemma dataFragsIn_encodeDataFrag {f : DataFrag} (hlen : f.payload.length + 32 < 2 ^ 16) :
    dataFragsIn (encodeDataFrag f) = [f] := by
  have hone := @submessages_frame submsgDataFrag flagEndianness (dataFragBody f) []
    (by simp) (by rw [length_dataFragBody]; omega)
  have hnil : submessages [] = [] := submessages_of_length_lt (by decide)
  rw [List.append_nil, hnil] at hone
  rw [dataFragsIn, encodeDataFrag, hone, List.filterMap_cons, if_pos rfl,
    decodeDataFrag_dataFragBody]
  rfl

lemma dataFragsIn_pieceOf :
    dataFragsIn (encodeDataFrag (pieceOf writer sn source k)) = [pieceOf writer sn source k] := by
  refine dataFragsIn_encodeDataFrag ?_
  rw [length_payload_pieceOf, Tiling.cellEnd, Tiling.cellStart]
  omega

/-- The pieces that have arrived. -/
def arrived (writer : EntityId) (sn : SequenceNumber) (source : Bytes)
    (arrivals : List (ℕ × Bytes)) : Finset ℕ :=
  (Finset.range (pieceCount source)).filter fun k =>
    ∃ a ∈ arrivals, a.2 = encodeDataFrag (pieceOf writer sn source k)

/-- An arrival of a piece. -/
def BringsPiece (writer : EntityId) (sn : SequenceNumber) (source : Bytes)
    (arrival : ℕ × Bytes) : Prop :=
  ∃ f ∈ piecesOf writer sn source, arrival.2 = encodeDataFrag f

lemma pieceOf_injOn (hlen : source.length ≤ maxReassemblyBytes) {j : ℕ}
    (hk : k < pieceCount source) (hj : j < pieceCount source)
    (h : encodeDataFrag (pieceOf writer sn source k) =
      encodeDataFrag (pieceOf writer sn source j)) : k = j := by
  have hpieces : [pieceOf writer sn source k] = [pieceOf writer sn source j] := by
    rw [← dataFragsIn_pieceOf, h, dataFragsIn_pieceOf]
  have hidx : (pieceOf writer sn source k).idx 0 = k := idx_pieceOf hlen hk
  rw [← hidx, List.singleton_inj.mp hpieces, idx_pieceOf hlen hj]

/-- Submessages that bring no piece leave the buffer alone. -/
lemma Collects.arrive_of_ne {arrival : ℕ × Bytes}
    (hkey : ∀ f ∈ dataFragsIn arrival.2, f.key ≠ ⟨writer, sn.low⟩)
    (h : frags.Collects writer sn source S (arrival.1 :: times)) :
    (frags.arrive arrival).Collects writer sn source S (arrival.1 :: times) := by
  rw [arrive]
  generalize dataFragsIn arrival.2 = found at hkey
  induction found generalizing frags with
  | nil => exact h
  | cons f fs ih =>
    rw [List.foldl_cons]
    have htwice : arrival.1 :: arrival.1 :: times ⊆ arrival.1 :: times :=
      List.cons_subset.mpr ⟨List.mem_cons_self, List.Subset.refl _⟩
    exact ih ((h.mono htwice).receive_of_ne (hkey f List.mem_cons_self))
      fun g hg => hkey g (List.mem_cons_of_mem _ hg)

lemma arrived_cons_of_piece (hlen : source.length ≤ maxReassemblyBytes) {arrival : ℕ × Bytes}
    {arrivals : List (ℕ × Bytes)} (hk : k < pieceCount source)
    (h : arrival.2 = encodeDataFrag (pieceOf writer sn source k)) :
    arrived writer sn source (arrival :: arrivals) =
      insert k (arrived writer sn source arrivals) := by
  ext j
  simp only [arrived, Finset.mem_filter, Finset.mem_range, List.mem_cons, exists_eq_or_imp,
    Finset.mem_insert]
  constructor
  · rintro ⟨hj, heq | hin⟩
    · exact .inl (pieceOf_injOn hlen hj hk (heq.symm.trans h))
    · exact .inr ⟨hj, hin⟩
  · rintro (rfl | ⟨hj, hin⟩)
    · exact ⟨hk, .inl h⟩
    · exact ⟨hj, .inr hin⟩

lemma arrived_cons_of_ne {arrival : ℕ × Bytes} {arrivals : List (ℕ × Bytes)}
    (h : ∀ f ∈ dataFragsIn arrival.2, f.key ≠ ⟨writer, sn.low⟩) :
    arrived writer sn source (arrival :: arrivals) = arrived writer sn source arrivals := by
  have hnot : ∀ k, arrival.2 ≠ encodeDataFrag (pieceOf writer sn source k) := by
    intro k heq
    rw [heq, dataFragsIn_pieceOf] at h
    exact h _ (List.mem_singleton_self _) key_pieceOf
  simp only [arrived, List.mem_cons, exists_eq_or_imp, hnot, false_or]

/-- **The run**: while a piece is missing, the assembler has those that have arrived. -/
lemma Collects.arrivals (hlen : source.length ≤ maxReassemblyBytes) {arrivals : List (ℕ × Bytes)}
    (h : frags.Collects writer sn source S (arrivals.map Prod.fst ++ times))
    (hS : S ⊆ Finset.range (pieceCount source))
    (hof : ∀ a ∈ arrivals, BringsPiece writer sn source a ∨
      ∀ f ∈ dataFragsIn a.2, f.key ≠ ⟨writer, sn.low⟩)
    (hage : arrivals.Pairwise fun a b => BringsPiece writer sn source a →
      b.1 ≤ a.1 + staleFragAge)
    (htimes : ∀ a ∈ arrivals, BringsPiece writer sn source a → ∀ t ∈ times,
      t ≤ a.1 + staleFragAge)
    (hmissing : S ∪ arrived writer sn source arrivals ≠ Finset.range (pieceCount source)) :
    (arrivals.foldl arrive frags).Collects writer sn source
      (S ∪ arrived writer sn source arrivals) times := by
  induction arrivals generalizing frags S with
  | nil =>
    have hnone : arrived writer sn source [] = ∅ := by simp [arrived]
    rwa [hnone, Finset.union_empty]
  | cons a arrivals ih =>
    obtain ⟨hage₁, hage⟩ := List.pairwise_cons.mp hage
    have hof' := fun b hb => hof b (List.mem_cons_of_mem _ hb)
    have htimes' := fun b hb => htimes b (List.mem_cons_of_mem _ hb)
    rw [List.map_cons, List.cons_append] at h
    rcases hof a List.mem_cons_self with hpiece | hkey
    · have hrest : ∀ t ∈ arrivals.map Prod.fst ++ times, t ≤ a.1 + staleFragAge := by
        refine List.forall_mem_append.mpr ⟨fun t ht => ?_, htimes a List.mem_cons_self hpiece⟩
        obtain ⟨b, hb, rfl⟩ := List.mem_map.mp ht
        exact hage₁ b hb hpiece
      obtain ⟨f, hf, ha⟩ := hpiece
      obtain ⟨k, hk, rfl⟩ := mem_piecesOf.mp hf
      have harrive : frags.arrive a = (frags.receive a.1 (pieceOf writer sn source k)).1 := by
        rw [arrive, ha, dataFragsIn_pieceOf]
        rfl
      rw [arrived_cons_of_piece hlen hk ha, Finset.union_insert,
        ← Finset.insert_union] at hmissing ⊢
      -- the pieces here so far are not all
      have hS' : insert k S ⊆ Finset.range (pieceCount source) :=
        Finset.insert_subset (Finset.mem_range.mpr hk) hS
      have hcard : (insert k S).card < pieceCount source := by
        refine lt_of_le_of_ne ?_ fun heq => hmissing ?_
        · simpa using Finset.card_le_card hS'
        · have hall : insert k S = Finset.range (pieceCount source) :=
            Finset.eq_of_subset_of_card_le hS' (by rw [heq, Finset.card_range])
          rw [hall]
          exact Finset.union_eq_left.mpr (Finset.filter_subset _ _)
      refine ih ?_ hS' hof' hage htimes' hmissing
      rw [harrive]
      by_cases hmem : k ∈ S
      · rw [Finset.insert_eq_of_mem hmem] at hcard ⊢
        exact (receive_pieceOf_again hlen h hk hmem hcard).2
      · rw [Finset.card_insert_of_notMem hmem] at hcard
        exact ((receive_pieceOf hlen h hk hmem hrest).1 hcard).2
    · rw [arrived_cons_of_ne hkey] at hmissing ⊢
      exact ih ((h.arrive_of_ne hkey).mono (List.subset_cons_self _ _)) hS hof' hage htimes'
        hmissing

/-- **Splitting is undone by reassembly**, whatever the order, the repetitions and the fragments
under other keys in between: a piece yields nothing while another is missing, and the whole string
once none is. -/
theorem receive_shuffled (hlen : source.length ≤ maxReassemblyBytes) :
    ∃ fs, splitIntoFragments writer sn source = .ok fs ∧
      ∀ (frags : FragmentAssembler) (arrivals : List (ℕ × Bytes)) (now : ℕ), ∀ f ∈ fs,
        frags.lookup ⟨writer, sn.low⟩ = none →
          (∀ a ∈ arrivals, (∃ g ∈ fs, a.2 = encodeDataFrag g) ∨
            ∀ g ∈ dataFragsIn a.2, g.key ≠ ⟨writer, sn.low⟩) →
            ((arrivals ++ [(now, encodeDataFrag f)]).Pairwise fun a b =>
              (∃ g ∈ fs, a.2 = encodeDataFrag g) → b.1 ≤ a.1 + staleFragAge) →
              (∃ g ∈ fs, ∀ a ∈ arrivals, a.2 ≠ encodeDataFrag g) →
                dataFragsIn (encodeDataFrag f) = [f] ∧
                  ((arrivals.foldl arrive frags).receive now f).2 =
                    .ok (if ∀ g ∈ fs, g = f ∨ ∃ a ∈ arrivals, a.2 = encodeDataFrag g
                      then some source else none) := by
  have hcount : source.length ⌈/⌉ maxFragmentPayload + 1 < 2 ^ 32 := by
    have hle : source.length ⌈/⌉ maxFragmentPayload ≤ source.length :=
      Tiling.ceilDiv_le_self (by decide)
    rw [maxReassemblyBytes] at hlen
    omega
  refine ⟨piecesOf writer sn source, splitIntoFragments_eq hcount, ?_⟩
  intro frags arrivals now f hf hnone hof hage hmissing
  obtain ⟨k, hk, rfl⟩ := mem_piecesOf.mp hf
  refine ⟨dataFragsIn_pieceOf, ?_⟩
  set S := arrived writer sn source arrivals with hS
  have hSsub : S ⊆ Finset.range (pieceCount source) := Finset.filter_subset _ _
  have hmem : ∀ j < pieceCount source, j ∈ S ↔
      ∃ a ∈ arrivals, a.2 = encodeDataFrag (pieceOf writer sn source j) := by
    intro j hj
    simp [hS, arrived, hj]
  have hnotall : S ≠ Finset.range (pieceCount source) := by
    intro hall
    obtain ⟨g, hg, hnot⟩ := hmissing
    obtain ⟨j, hj, rfl⟩ := mem_piecesOf.mp hg
    have hj' : j ∈ S := by
      rw [hall]
      exact Finset.mem_range.mpr hj
    obtain ⟨a, ha, heq⟩ := (hmem j hj).mp hj'
    exact hnot a ha heq
  -- the last piece is the one for which all are there
  have hdone : (∀ g ∈ piecesOf writer sn source, g = pieceOf writer sn source k ∨
      ∃ a ∈ arrivals, a.2 = encodeDataFrag g) ↔
        insert k S = Finset.range (pieceCount source) := by
    constructor
    · intro hall
      refine Finset.Subset.antisymm
        (Finset.insert_subset (Finset.mem_range.mpr hk) hSsub) fun j hj => ?_
      have hj' := Finset.mem_range.mp hj
      rcases hall _ (mem_piecesOf.mpr ⟨j, hj', rfl⟩) with heq | harrived
      · have hjk : j = k := pieceOf_injOn hlen hj' hk (congrArg encodeDataFrag heq)
        exact hjk ▸ Finset.mem_insert_self j S
      · exact Finset.mem_insert_of_mem ((hmem j hj').mpr harrived)
    · intro hall g hg
      obtain ⟨j, hj, rfl⟩ := mem_piecesOf.mp hg
      have hin : j ∈ insert k S := by
        rw [hall]
        exact Finset.mem_range.mpr hj
      rcases Finset.mem_insert.mp hin with rfl | hin
      · exact .inl rfl
      · exact .inr ((hmem j hj).mp hin)
  obtain ⟨hage, -, hlast⟩ := List.pairwise_append.mp hage
  have hcollects : (arrivals.foldl arrive frags).Collects writer sn source S [now] := by
    have hstart : frags.Collects writer sn source ∅ (arrivals.map Prod.fst ++ [now]) :=
      .inl ⟨rfl, hnone⟩
    have hrun := Collects.arrivals hlen hstart (Finset.empty_subset _) hof hage
      (fun a ha hpiece t ht => ?_) ?_
    · rwa [Finset.empty_union] at hrun
    · rw [List.mem_singleton.mp ht]
      exact hlast a ha _ (List.mem_singleton_self _) hpiece
    · rw [Finset.empty_union]
      exact hnotall
  by_cases hin : k ∈ S
  · have hwait : S.card < pieceCount source := by
      refine lt_of_le_of_ne (by simpa using Finset.card_le_card hSsub) fun heq => hnotall ?_
      exact Finset.eq_of_subset_of_card_le hSsub (by rw [heq, Finset.card_range])
    have hnotdone : ¬ ∀ g ∈ piecesOf writer sn source, g = pieceOf writer sn source k ∨
        ∃ a ∈ arrivals, a.2 = encodeDataFrag g := by
      rw [hdone, Finset.insert_eq_of_mem hin]
      exact hnotall
    rw [if_neg hnotdone]
    exact (receive_pieceOf_again hlen hcollects hk hin hwait).1
  · have hcard : (insert k S).card = S.card + 1 := Finset.card_insert_of_notMem hin
    have hinsert : insert k S ⊆ Finset.range (pieceCount source) :=
      Finset.insert_subset (Finset.mem_range.mpr hk) hSsub
    obtain ⟨hwait, hwhole⟩ := receive_pieceOf hlen hcollects hk hin
      fun _ ht => absurd ht List.not_mem_nil
    by_cases hall : insert k S = Finset.range (pieceCount source)
    · rw [if_pos (hdone.mpr hall)]
      refine (hwhole ?_).1
      rw [← hcard, hall, Finset.card_range]
    · rw [if_neg (mt hdone.mp hall)]
      refine (hwait ?_).1
      rw [← hcard]
      refine lt_of_le_of_ne (by simpa using Finset.card_le_card hinsert) fun heq => hall ?_
      exact Finset.eq_of_subset_of_card_le hinsert (by rw [heq, Finset.card_range])

/-- One byte more than a fragment holds. -/
def sevens : Bytes := List.replicate 1201 7

/-- The second of two fragments arrives twice, and then the first. -/
theorem receive_shuffled_sevens : ∃ f g,
    splitIntoFragments (entityIdForWriter 1) ⟨0, 1⟩ sevens = .ok [f, g] ∧
      (([(0, encodeDataFrag g), (1, encodeDataFrag g)].foldl arrive ∅).receive 2 f).2 =
        .ok (some sevens) := by
  obtain ⟨fs, hsplit, hrun⟩ :=
    @receive_shuffled (entityIdForWriter 1) ⟨0, 1⟩ sevens (by decide +kernel)
  have hcount : List.range (sevens.length ⌈/⌉ maxFragmentPayload) = [0, 1] := by decide +kernel
  have hpair : splitIntoFragments (entityIdForWriter 1) ⟨0, 1⟩ sevens =
      .ok [pieceOf (entityIdForWriter 1) ⟨0, 1⟩ sevens 0,
        pieceOf (entityIdForWriter 1) ⟨0, 1⟩ sevens 1] := by
    rw [splitIntoFragments_eq (by decide +kernel), hcount]
    rfl
  refine ⟨_, _, hpair, ?_⟩
  rw [hpair, Except.ok.injEq] at hsplit
  subst hsplit
  have hne : encodeDataFrag (pieceOf (entityIdForWriter 1) ⟨0, 1⟩ sevens 1) ≠
      encodeDataFrag (pieceOf (entityIdForWriter 1) ⟨0, 1⟩ sevens 0) := by decide +kernel
  obtain ⟨-, hreceive⟩ := hrun ∅
    [(0, encodeDataFrag (pieceOf (entityIdForWriter 1) ⟨0, 1⟩ sevens 1)),
      (1, encodeDataFrag (pieceOf (entityIdForWriter 1) ⟨0, 1⟩ sevens 1))] 2 _ List.mem_cons_self
    (AList.lookup_empty _) (by simp) (by simp [staleFragAge])
    ⟨_, List.mem_cons_self, by simpa using hne⟩
  rw [hreceive, if_pos (by simp)]

end FragmentAssembler

end RustDds
