import RustDds.Lib.Run
import RustDds.Rtps.DdsParticipant

/-!
# What keeps reassemblies apart

One assembler serves all remote writers, and a reassembly is filed under the writer's entity id and
the low half of the sequence number.  What is reassembled under a key depends only on the DATA_FRAG
submessages with that key (`broughtFor_hasKey`): others may come in between in any number, from
anyone.  But the key does not say which participant a fragment is from, so what is reassembled for a
sample depends only on its own fragments where no other sample is filed under the same key
(`broughtFor_isOf`).  Where one is, a sample may be put together from both (`exists_mixed`).

The state of the run with the foreign fragments and of the run without are compared by `Agree`.  A
sweep at a foreign fragment may drop a buffer that the other run keeps for longer; `Orderly` says
that it will be dropped there too before it is used, as it is where the clock does not go back.
-/

namespace RustDds

/-! ## Handled submessages -/

/-- A submessage of a message sent under `guidPrefix`, in a datagram. -/
structure Handled where
  datagram : Datagram
  guidPrefix : GuidPrefix
  raw : RawSubmessage

namespace Handled

/-- The fragment, if it is a DATA_FRAG that can be decoded. -/
def frag (s : Handled) : Option DataFrag :=
  if s.raw.id = submsgDataFrag then (decodeDataFrag s.raw.body).toOption else none

/-- It brings a fragment that is filed under the key. -/
def HasKey (k : FragKey) (s : Handled) : Bool := s.frag.any fun f => f.key = k

/-- It brings a fragment of a sample of the writer. -/
def IsOf (source : Guid) (sn : SequenceNumber) (s : Handled) : Bool :=
  s.guidPrefix = source.guidPrefix &&
    s.frag.any fun f => f.writerEntityId = source.entity ∧ f.writerSeqNum = sn

lemma hasKey_iff {k : FragKey} {s : Handled} :
    s.HasKey k = true ↔ ∃ f, s.frag = some f ∧ f.key = k := by
  simp [HasKey, Option.any_eq_true]

lemma hasKey_of_isOf {source : Guid} {sn : SequenceNumber} {s : Handled}
    (h : s.IsOf source sn = true) : s.HasKey ⟨source.entity, sn.low⟩ = true := by
  obtain ⟨-, hany⟩ := Bool.and_eq_true_iff.mp h
  obtain ⟨f, hf, htrue⟩ := (Option.any_eq_true _ _).mp hany
  obtain ⟨hwriter, hsn⟩ := of_decide_eq_true htrue
  refine hasKey_iff.mpr ⟨f, hf, ?_⟩
  rw [DataFrag.key, hwriter, hsn]

/-- What handling it brings: a sample or none, or the panic of the assembler. -/
def brings (p : RtpsParticipant) (s : Handled) : Except Panic (Option Dispatch) :=
  (arrival s.datagram.now s.guidPrefix s.raw p.fragAssembler).2

end Handled

namespace RtpsParticipant

/-- The participant after a submessage. -/
def afterHandling (p : RtpsParticipant) (s : Handled) : RtpsParticipant :=
  (handleSubmessage s.datagram s.guidPrefix s.raw p).state

/-- **What the selected submessages of a run bring**, in order. -/
def broughtFor (select : Handled → Bool) (p : RtpsParticipant) (run : List Handled) :
    List (Except Panic (Option Dispatch)) :=
  Run.trace afterHandling (fun p s => if select s then [s.brings p] else []) p run

/-- What they have dispatched. -/
def dispatchedFor (select : Handled → Bool) (p : RtpsParticipant) (run : List Handled) :
    List Dispatch :=
  Run.trace afterHandling (fun p s => if select s then
    dispatches (handleSubmessage s.datagram s.guidPrefix s.raw p).out else []) p run

/-- No submessage of the run panics. -/
def HandledCalmly (p : RtpsParticipant) (run : List Handled) : Prop :=
  Run.Each afterHandling
    (fun p s => (handleSubmessage s.datagram s.guidPrefix s.raw p).panic = none) p run

variable {p : RtpsParticipant} {s : Handled}

/-- Of the participant, only the assembler matters to reassembly. -/
lemma fragAssembler_afterHandling (p : RtpsParticipant) (s : Handled) :
    (p.afterHandling s).fragAssembler =
      (arrival s.datagram.now s.guidPrefix s.raw p.fragAssembler).1 := by
  rw [afterHandling]
  rcases handleSubmessage_cases s.datagram s.guidPrefix s.raw p with
    ⟨e, -, h⟩ | ⟨x, hx, h⟩ | ⟨-, h⟩
  · rw [h]
    rfl
  · obtain ⟨hseq, -⟩ := arrival_eq_some hx
    rw [h]
    have hreaders : ReadersOnly (p.afterArrival s.datagram s.guidPrefix s.raw)
        (acceptSample s.datagram x.origin x.source x.payload x.seqNum
          (p.afterArrival s.datagram s.guidPrefix s.raw)).state := readersOnly_acceptSample hseq
    exact hreaders.fragAssembler_eq
  · exact h.assembler

end RtpsParticipant

/-! ## The assembler, at one key -/

namespace FragmentAssembler

variable {now : ℕ} {st st' : FragmentAssembler} {f : DataFrag} {k : FragKey}

/-- A call depends on the assembler only through the buffer it fills. -/
lemma receive_congr (h : ¬ f.Rejected) (hbuffer : st.bufferFor now f = st'.bufferFor now f) :
    (st.receive now f).2 = (st'.receive now f).2 ∧
      (st.receive now f).1.lookup f.key = (st'.receive now f).1.lookup f.key := by
  rw [receive, receive, if_neg h, if_neg h, hbuffer]
  rcases copyFragments f (List.range f.fragmentsInSubmsg.toNat) (st'.bufferFor now f) with
    ⟨fb, _ | e⟩
  · dsimp only
    by_cases hdone : fb.received ≥ fb.total
    · rw [if_pos hdone, if_pos hdone]
      exact ⟨rfl, by rw [AList.lookup_erase, AList.lookup_erase]⟩
    · rw [if_neg hdone, if_neg hdone]
      exact ⟨rfl, by rw [AList.lookup_insert, AList.lookup_insert]⟩
  · exact ⟨rfl, by rw [AList.lookup_insert, AList.lookup_insert]⟩

/-- What a call leaves at its own key was created by it, or before. -/
lemma created_of_lookup_receive (h : ¬ f.Rejected) {b : FragBuffer}
    (hb : (st.receive now f).1.lookup f.key = some b) :
    b.created = now ∨ ∃ b₀, st.lookup f.key = some b₀ ∧ b.created = b₀.created := by
  rw [lookup_receive_self h hb, DataFrag.created_fill, bufferFor, lookup_sweep]
  cases st.lookup f.key with
  | none => exact Or.inl rfl
  | some b₀ =>
    rw [Option.filter_some]
    split_ifs
    · exact Or.inr ⟨b₀, rfl, rfl⟩
    · exact Or.inl rfl

/-- A buffer that is too old is not filled any more. -/
lemma bufferFor_of_stale {b : FragBuffer} (hb : st.lookup f.key = some b)
    (hstale : staleFragAge < now - b.created) : st.bufferFor now f = .fresh now f := by
  rw [bufferFor, lookup_sweep, hb, Option.filter_some, if_neg (by rw [decide_eq_true_eq]; omega)]
  rfl

end FragmentAssembler

/-! ## Two runs -/

/-- Where a sweep of the run drops a buffer created at `created`, that is too old for the later
fragments with its key as well. -/
def Held (k : FragKey) (created : ℕ) (run : List Handled) : Prop :=
  run.Pairwise fun s c => c.HasKey k = true → staleFragAge < s.datagram.now - created →
    staleFragAge < c.datagram.now - created

/-- The sweeps of the run make no difference to the buffers of the key. -/
def Orderly (k : FragKey) : List Handled → Prop
  | [] => True
  | s :: run => (s.HasKey k = true → Held k s.datagram.now run) ∧ Orderly k run

/-- They make none where the clock does not go back. -/
lemma orderly_of_monotone (k : FragKey) {run : List Handled}
    (h : run.Pairwise fun s c => s.datagram.now ≤ c.datagram.now) : Orderly k run := by
  induction run with
  | nil => trivial
  | cons s run ih =>
    obtain ⟨-, hrun⟩ := List.pairwise_cons.mp h
    refine ⟨fun _ => hrun.imp fun hle _ hstale => ?_, ih hrun⟩
    omega

lemma Held.tail {k : FragKey} {created : ℕ} {s : Handled} {run : List Handled}
    (h : Held k created (s :: run)) : Held k created run := (List.pairwise_cons.mp h).2

/-- The buffers of the key are the same in both assemblers; or the first has dropped one that is
too old for what is ahead. -/
def Agree (k : FragKey) (run : List Handled) (st st' : FragmentAssembler) : Prop :=
  (st.lookup k = st'.lookup k ∧ ∀ b, st.lookup k = some b → Held k b.created run) ∨
  st.lookup k = none ∧ ∃ b, st'.lookup k = some b ∧
    ∀ c ∈ run, c.HasKey k = true → staleFragAge < c.datagram.now - b.created

section
variable {s : Handled} {k : FragKey} {run : List Handled}

/-- What a fragment does to the assembler, and what it brings. -/
lemma arrival_of_frag {f : DataFrag} (hf : s.frag = some f) (frags : FragmentAssembler) :
    arrival s.datagram.now s.guidPrefix s.raw frags =
      ((frags.receive s.datagram.now f).1,
        (frags.receive s.datagram.now f).2.map (fragSample s.guidPrefix f)) := by
  rw [Handled.frag] at hf
  split_ifs at hf with hid
  have hne : s.raw.id ≠ submsgData := by
    rw [hid]
    decide
  cases hdecode : decodeDataFrag s.raw.body with
  | error e =>
    rw [hdecode] at hf
    cases hf
  | ok f' =>
    rw [hdecode] at hf
    cases hf
    rw [arrival, if_neg hne, if_pos hid, hdecode]

/-- What is not a fragment leaves the assembler alone. -/
lemma arrival_of_not_frag (hf : s.frag = none) (frags : FragmentAssembler) :
    (arrival s.datagram.now s.guidPrefix s.raw frags).1 = frags := by
  rw [arrival]
  by_cases hdata : s.raw.id = submsgData
  · rw [if_pos hdata]
  rw [if_neg hdata]
  by_cases hid : s.raw.id = submsgDataFrag
  · rw [Handled.frag, if_pos hid] at hf
    rw [if_pos hid]
    cases hdecode : decodeDataFrag s.raw.body with
    | error e => rfl
    | ok f =>
      rw [hdecode] at hf
      cases hf
  · rw [if_neg hid]

/-- **A foreign submessage** at most sweeps, as far as the key is concerned. -/
lemma lookup_arrival_of_not_hasKey (h : s.HasKey k = false) (frags : FragmentAssembler) :
    (arrival s.datagram.now s.guidPrefix s.raw frags).1.lookup k = frags.lookup k ∨
      (arrival s.datagram.now s.guidPrefix s.raw frags).1.lookup k =
        (frags.sweep s.datagram.now).lookup k := by
  cases hf : s.frag with
  | none =>
    rw [arrival_of_not_frag hf]
    exact Or.inl rfl
  | some f =>
    have hkey : k ≠ f.key := by
      rintro rfl
      have htrue := Handled.hasKey_iff.mpr ⟨f, hf, rfl⟩
      rw [h] at htrue
      cases htrue
    rw [arrival_of_frag hf]
    by_cases hrejected : f.Rejected
    · rw [FragmentAssembler.receive_of_rejected hrejected]
      exact Or.inl rfl
    · exact Or.inr (FragmentAssembler.lookup_receive_of_ne hrejected hkey)

/-- **A foreign submessage of the first run only.** -/
lemma Agree.hidden {st st' : FragmentAssembler} (hkey : s.HasKey k = false)
    (h : Agree k (s :: run) st st') :
    Agree k run (arrival s.datagram.now s.guidPrefix s.raw st).1 st' := by
  have hlookup := lookup_arrival_of_not_hasKey hkey st
  rcases h with ⟨hsame, hheld⟩ | ⟨hnone, b, hb, hstale⟩
  · rcases hlookup with heq | heq
    · refine Or.inl ⟨heq.trans hsame, fun b hb => ?_⟩
      rw [heq] at hb
      exact (hheld b hb).tail
    rw [FragmentAssembler.lookup_sweep] at heq
    cases hst : st.lookup k with
    | none =>
      rw [hst] at heq hsame
      refine Or.inl ⟨heq.trans hsame, fun b hb => ?_⟩
      rw [heq] at hb
      cases hb
    | some b =>
      have hbheld := hheld b hst
      rw [hst] at heq hsame
      by_cases hold : staleFragAge < s.datagram.now - b.created
      · -- the sweep drops the buffer, which is too old for what is ahead
        rw [Option.filter_some, if_neg (by rw [decide_eq_true_eq]; omega)] at heq
        refine Or.inr ⟨heq, b, hsame.symm, fun c hc hckey => ?_⟩
        exact (List.pairwise_cons.mp hbheld).1 c hc hckey hold
      · rw [Option.filter_some, if_pos (by rw [decide_eq_true_eq]; omega)] at heq
        refine Or.inl ⟨heq.trans hsame, fun b' hb' => ?_⟩
        rw [heq, Option.some.injEq] at hb'
        rw [← hb']
        exact hbheld.tail
  · refine Or.inr ⟨?_, b, hb, fun c hc => hstale c (List.mem_cons_of_mem _ hc)⟩
    rcases hlookup with heq | heq
    · rw [heq, hnone]
    · rw [heq, FragmentAssembler.lookup_sweep, hnone]
      rfl

/-- The fragment finds the same buffer in both runs. -/
lemma Agree.bufferFor_eq {st st' : FragmentAssembler} {f : DataFrag} (hf : s.frag = some f)
    (h : Agree f.key (s :: run) st st') :
    st.bufferFor s.datagram.now f = st'.bufferFor s.datagram.now f := by
  rcases h with ⟨hsame, -⟩ | ⟨hnone, b, hb, hstale⟩
  · rw [FragmentAssembler.bufferFor, FragmentAssembler.bufferFor,
      FragmentAssembler.lookup_sweep, FragmentAssembler.lookup_sweep, hsame]
  · have hold := hstale s List.mem_cons_self (Handled.hasKey_iff.mpr ⟨f, hf, rfl⟩)
    rw [FragmentAssembler.bufferFor_of_stale hb hold, FragmentAssembler.bufferFor,
      FragmentAssembler.lookup_sweep, hnone]
    rfl

/-- **A fragment with the key** brings the same in both runs. -/
lemma Agree.visible {st st' : FragmentAssembler} (hkey : s.HasKey k = true)
    (horderly : Orderly k (s :: run)) (h : Agree k (s :: run) st st') :
    (arrival s.datagram.now s.guidPrefix s.raw st).2 =
        (arrival s.datagram.now s.guidPrefix s.raw st').2 ∧
      Agree k run (arrival s.datagram.now s.guidPrefix s.raw st).1
        (arrival s.datagram.now s.guidPrefix s.raw st').1 := by
  obtain ⟨f, hf, rfl⟩ := Handled.hasKey_iff.mp hkey
  rw [arrival_of_frag hf, arrival_of_frag hf]
  by_cases hrejected : f.Rejected
  · rw [FragmentAssembler.receive_of_rejected hrejected,
      FragmentAssembler.receive_of_rejected hrejected]
    refine ⟨rfl, ?_⟩
    rcases h with ⟨hsame, hheld⟩ | ⟨hnone, b, hb, hstale⟩
    · exact Or.inl ⟨hsame, fun b hb => (hheld b hb).tail⟩
    · exact Or.inr ⟨hnone, b, hb, fun c hc => hstale c (List.mem_cons_of_mem _ hc)⟩
  · obtain ⟨hresult, hlookup⟩ := 
      FragmentAssembler.receive_congr hrejected (h.bufferFor_eq hf)
    refine ⟨congrArg (Except.map _) hresult, Or.inl ⟨hlookup, fun b hb => ?_⟩⟩
    rcases FragmentAssembler.created_of_lookup_receive hrejected hb with hnow | ⟨b₀, hb₀, hcreated⟩
    · rw [hnow]
      exact horderly.1 hkey
    · rw [hcreated]
      rcases h with ⟨-, hheld⟩ | ⟨hnone, -⟩
      · exact (hheld b₀ hb₀).tail
      · rw [hnone] at hb₀
        cases hb₀

end

namespace RtpsParticipant

variable {p : RtpsParticipant} {k : FragKey} {run : List Handled}

/-- Submessages that are selected alike bring the same. -/
lemma broughtFor_congr {select select' : Handled → Bool}
    (h : ∀ s ∈ run, select s = select' s) (p : RtpsParticipant) :
    broughtFor select p run = broughtFor select' p run := by
  have hrun : Run.Each afterHandling (fun _ s => select s = select' s) p run :=
    Run.each_of_forall fun s hs _ => h s hs
  exact hrun.trace_eq fun p s hs => by rw [hs]

/-- **What is reassembled under a key** depends only on the fragments with that key. -/
lemma broughtFor_hasKey (hnone : p.fragAssembler.lookup k = none) (horderly : Orderly k run) :
    broughtFor (Handled.HasKey k) p run =
      broughtFor (Handled.HasKey k) p (run.filter (Handled.HasKey k)) := by
  have hstart : Agree k run p.fragAssembler p.fragAssembler :=
    Or.inl ⟨rfl, fun b hb => by rw [hnone] at hb; cases hb⟩
  have hall : broughtFor (Handled.HasKey k) p (run.filter (Handled.HasKey k)) =
      broughtFor (fun _ => true) p (run.filter (Handled.HasKey k)) :=
    broughtFor_congr (fun s hs => (List.mem_filter.mp hs).2) p
  rw [hall]
  refine Run.trace_filter (R := fun run p q =>
    Orderly k run ∧ Agree k run p.fragAssembler q.fragAssembler) ?_ ?_ ⟨horderly, hstart⟩
  · rintro s run p q hs ⟨ho, hagree⟩
    rw [fragAssembler_afterHandling]
    exact ⟨ho.2, hagree.hidden hs⟩
  · rintro s run p q hs ⟨ho, hagree⟩
    obtain ⟨hsame, hnext⟩ := hagree.visible hs ho
    rw [fragAssembler_afterHandling, fragAssembler_afterHandling]
    exact ⟨congrArg (fun x => [x]) hsame, ho.2, hnext⟩

/-- A submessage that does not panic has dispatched what it brings. -/
lemma dispatches_handleSubmessage {s : Handled}
    (h : (handleSubmessage s.datagram s.guidPrefix s.raw p).panic = none) :
    dispatches (handleSubmessage s.datagram s.guidPrefix s.raw p).out =
      match s.brings p with
      | .ok (some x) => [x]
      | _ => [] := by
  rw [Handled.brings]
  rcases handleSubmessage_cases s.datagram s.guidPrefix s.raw p with
    ⟨e, -, hrun⟩ | ⟨x, hx, hrun⟩ | ⟨hnone, hquiet⟩
  · rw [hrun] at h
    cases h
  · obtain ⟨hseq, -⟩ := arrival_eq_some hx
    rw [hrun] at h
    rw [hx, hrun, dispatches_acceptSample hseq ((panic_acceptSample hseq).mp h)]
  · rw [hnone, dispatches_of_sends hquiet.sends]

/-- In a calm run the samples dispatched are those brought. -/
lemma dispatchedFor_eq {select : Handled → Bool} (h : HandledCalmly p run) :
    dispatchedFor select p run = (broughtFor select p run).flatMap fun
      | .ok (some x) => [x]
      | _ => [] := by
  refine Run.Each.trace_flatMap (fun p s hcalm => ?_) h
  by_cases hs : select s = true
  · rw [if_pos hs, if_pos hs, dispatches_handleSubmessage hcalm, List.flatMap_singleton]
  · rw [if_neg hs, if_neg hs]
    rfl

/-- **Isolation.**  Where no fragment of another sample is filed under its key, what is reassembled
for a sample depends only on its own fragments, but for the age of what is held; and so does what
is dispatched, where nothing panics. -/
theorem broughtFor_isOf {source : Guid} {sn : SequenceNumber}
    (hnone : p.fragAssembler.lookup ⟨source.entity, sn.low⟩ = none)
    (hown : ∀ s ∈ run, s.HasKey ⟨source.entity, sn.low⟩ = true → s.IsOf source sn = true)
    (horderly : Orderly ⟨source.entity, sn.low⟩ run) :
    broughtFor (Handled.IsOf source sn) p run =
        broughtFor (Handled.IsOf source sn) p (run.filter (Handled.IsOf source sn)) ∧
      (HandledCalmly p run → HandledCalmly p (run.filter (Handled.IsOf source sn)) →
        dispatchedFor (Handled.IsOf source sn) p run =
          dispatchedFor (Handled.IsOf source sn) p (run.filter (Handled.IsOf source sn))) := by
  have hsame : ∀ s ∈ run, s.IsOf source sn = s.HasKey ⟨source.entity, sn.low⟩ := by
    intro s hs
    rw [Bool.eq_iff_iff]
    exact ⟨Handled.hasKey_of_isOf, hown s hs⟩
  have hbrought : broughtFor (Handled.IsOf source sn) p run =
      broughtFor (Handled.IsOf source sn) p (run.filter (Handled.IsOf source sn)) := by
    rw [List.filter_congr hsame, broughtFor_congr hsame, broughtFor_hasKey hnone horderly]
    exact (broughtFor_congr (fun s hs => hsame s (List.mem_of_mem_filter hs)) p).symm
  refine ⟨hbrought, fun hcalm hcalm' => ?_⟩
  rw [dispatchedFor_eq hcalm, dispatchedFor_eq hcalm', hbrought]

/-! ### Two participants -/

/-- Half `k` of a sample of four bytes `b`, which its writer has under number 1. -/
def halfOf (writer : EntityId) (b : UInt8) (k : UInt32) : DataFrag where
  writerEntityId := writer
  readerEntityId := entityIdUnknown
  writerSeqNum := .fromU64 1
  fragmentStartingNum := k
  fragmentsInSubmsg := 1
  fragmentSize := 6
  dataSize := 8
  payload := if k = 1 then (wrapPayload (List.replicate 4 b)).take 6
    else (wrapPayload (List.replicate 4 b)).drop 6

/-- It comes from the participant numbered `n`. -/
def handledHalf (n : UInt8) (writer : EntityId) (b : UInt8) (k : UInt32) : Handled where
  datagram := ⟨0, 0, [], .v4 (FixedBytes.zero 4) 7411⟩
  guidPrefix := (ParticipantConfig.numbered n).guidPrefix
  raw := ⟨submsgDataFrag, flagEndianness, dataFragBody (halfOf writer b k)⟩

/-- Two writers with different entity ids, whose fragments come in turn. -/
def halvesInTurn : List Handled :=
  [handledHalf 2 (entityIdForWriter 1) 7 1, handledHalf 3 (entityIdForWriter 2) 8 1,
    handledHalf 2 (entityIdForWriter 1) 7 2, handledHalf 3 (entityIdForWriter 2) 8 2]

/-- What the first wrote is reassembled as if the other were not there. -/
theorem broughtFor_halvesInTurn :
    broughtFor (Handled.IsOf ⟨(ParticipantConfig.numbered 2).guidPrefix, entityIdForWriter 1⟩
        (.fromU64 1)) (RtpsUdpParticipant.new (.numbered 1)).inner halvesInTurn =
      broughtFor (Handled.IsOf ⟨(ParticipantConfig.numbered 2).guidPrefix, entityIdForWriter 1⟩
        (.fromU64 1)) (RtpsUdpParticipant.new (.numbered 1)).inner
          (halvesInTurn.filter (Handled.IsOf
            ⟨(ParticipantConfig.numbered 2).guidPrefix, entityIdForWriter 1⟩ (.fromU64 1))) := by
  refine (broughtFor_isOf rfl (by decide +kernel) (orderly_of_monotone _ ?_)).1
  simp [halvesInTurn, handledHalf]

/-- Two writers with the same entity id: the first half of what one wrote and the second half of
what the other wrote make a sample that neither wrote. -/
theorem exists_mixed :
    ¬ ∀ (source : Guid) (sn : SequenceNumber) (p : RtpsParticipant) (run : List Handled),
      p.fragAssembler = ∅ → (run.Pairwise fun s c => s.datagram.now ≤ c.datagram.now) →
        broughtFor (Handled.IsOf source sn) p run =
          broughtFor (Handled.IsOf source sn) p (run.filter (Handled.IsOf source sn)) := by
  intro h
  have hmixed := h ⟨(ParticipantConfig.numbered 3).guidPrefix, entityIdForWriter 1⟩ (.fromU64 1)
    (RtpsUdpParticipant.new (.numbered 1)).inner
    [handledHalf 2 (entityIdForWriter 1) 7 1, handledHalf 3 (entityIdForWriter 1) 8 2] rfl
    (by simp [handledHalf])
  have hbrings : broughtFor (Handled.IsOf
      ⟨(ParticipantConfig.numbered 3).guidPrefix, entityIdForWriter 1⟩ (.fromU64 1))
      (RtpsUdpParticipant.new (.numbered 1)).inner
      [handledHalf 2 (entityIdForWriter 1) 7 1, handledHalf 3 (entityIdForWriter 1) 8 2] =
        [.ok (some ⟨.dataFrag, ⟨(ParticipantConfig.numbered 3).guidPrefix, entityIdForWriter 1⟩,
          [7, 7, 8, 8], 1⟩)] := by decide +kernel
  rw [hbrings] at hmixed
  revert hmixed
  decide +kernel

end RtpsParticipant

end RustDds
