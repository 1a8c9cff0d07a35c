import RustDds.Lib.Tally
import RustDds.Reassembly.RoundTrip
import RustDds.Reliability.Recovery

/-!
# From a write to a dispatch

The messages that a write makes of one sample, whether one DATA or several DATA_FRAG, are handed to
another participant in any order, each once, among datagrams that bring nothing of that sample
(`Spares`).  `HandedOnce` is such a run of datagrams.

All but the last of the messages only fill the assembler (`awaits_receiveAll`).  The last one
makes the sample whole, and the participant dispatches it exactly if no reader's tracker stands in
the way (`dispatches_once`).
-/

namespace RustDds

/-- What is dispatched of one sample. -/
def dispatchesOf (source : Guid) (seq : ℕ) (out : List Effect) : List Dispatch :=
  (dispatches out).filter fun x => x.source = source ∧ x.seqNum = seq

/-- The datagram brings nothing of the sample: no DATA of it, and no fragment under its key. -/
structure Datagram.Spares (source : Guid) (seq : ℕ) (d : Datagram) : Prop where
  data : ∀ header raw x, Header.decode d.data = .ok header → raw ∈ submessages (d.data.drop 20) →
    raw.id = submsgData → dataSample header.guidPrefix raw = some x →
      ¬ (x.source = source ∧ x.seqNum = seq)
  frag : ∀ raw frag, raw ∈ submessages (d.data.drop 20) → raw.id = submsgDataFrag →
    decodeDataFrag raw.body = .ok frag → frag.key ≠ sampleKey source.entity seq

/-- Among datagrams that bring nothing of the sample, `ds` carry the messages `msgs` in order. -/
inductive Carries (source : Guid) (seq : ℕ) : List Datagram → List Bytes → Prop
  | nil : Carries source seq [] []
  | message {d : Datagram} {ds : List Datagram} {msgs : List Bytes}
      (h : Carries source seq ds msgs) : Carries source seq (d :: ds) (d.data :: msgs)
  | other {d : Datagram} {ds : List Datagram} {msgs : List Bytes} (hd : d.Spares source seq)
      (h : Carries source seq ds msgs) : Carries source seq (d :: ds) msgs

/-- The datagrams `pre`, `last` and `post` hand over the messages once each, in any order, `last`
the last of them, within the time that fragments are held. -/
structure HandedOnce (source : Guid) (seq : ℕ) (msgs : List Bytes) (pre : List Datagram)
    (last : Datagram) (post : List Datagram) : Prop where
  each_once : ∃ ms, Carries source seq pre ms ∧ (ms ++ [last.data]).Perm msgs
  timely : (pre ++ [last]).Pairwise fun d d' => d'.now ≤ d.now + staleFragAge
  rest : ∀ d ∈ post, d.Spares source seq

variable {source : Guid} {seq : ℕ}

@[simp] lemma dispatchesOf_nil : dispatchesOf source seq [] = [] := rfl

lemma dispatchesOf_append (a b : List Effect) :
    dispatchesOf source seq (a ++ b) = dispatchesOf source seq a ++ dispatchesOf source seq b := by
  rw [dispatchesOf, dispatches_append, List.filter_append]
  rfl

lemma dispatchesOf_eq_nil {out : List Effect} (h : ∀ e ∈ out, ∀ x, e = .dispatch x →
    ¬ (x.source = source ∧ x.seqNum = seq)) : dispatchesOf source seq out = [] := by
  refine List.filter_eq_nil_iff.mpr fun x hx => ?_
  obtain ⟨e, he, hdispatch⟩ := List.mem_filterMap.mp hx
  cases e with
  | dispatch y =>
    cases hdispatch
    simpa using h _ he _ rfl
  | _ => cases hdispatch

namespace RtpsParticipant

variable {q : RtpsParticipant} {d : Datagram}

/-! ## Other datagrams -/

/-- A participant stays what it is while it receives. -/
lemma steady_receiveAll (ds : List Datagram) (q : RtpsParticipant) :
    Steady q (receiveAll ds q).state := by
  have hkeeps : Cmd.Keeps (Steady q) (fun _ => True) (receiveAll ds) :=
    Cmd.Keeps.calls fun d _ r hr => ⟨hr.trans (keeps_handleDataPacket r d).1, fun _ _ => trivial⟩
  exact (hkeeps q (Steady.refl q)).1

/-- A submessage dispatches no sample but the one it brings. -/
lemma dispatch_of_mem_handleSubmessage {guidPrefix : GuidPrefix} {raw : RawSubmessage}
    {x : Dispatch} (h : .dispatch x ∈ (handleSubmessage d guidPrefix raw q).out) :
    (arrival d.now guidPrefix raw q.fragAssembler).2 = .ok (some x) := by
  have hmem : ∀ {out : List Effect}, .dispatch x ∈ out → x ∈ dispatches out :=
    fun hout => List.mem_filterMap.mpr ⟨_, hout, rfl⟩
  rcases handleSubmessage_cases d guidPrefix raw q with ⟨e, -, hrun⟩ | ⟨y, hy, hrun⟩ | ⟨-, hquiet⟩
  · rw [hrun] at h
    cases h
  · obtain ⟨hseq, -⟩ := arrival_eq_some hy
    rw [hrun] at h
    have hx := hmem h
    by_cases hok : (q.afterArrival d guidPrefix raw).NotifyOk y.source y.seqNum
    · rw [dispatches_acceptSample hseq hok, List.mem_singleton] at hx
      rw [hx]
      exact hy
    · rw [dispatches_acceptSample_of_not hseq hok] at hx
      cases hx
  · have hx := hmem h
    rw [dispatches_of_sends hquiet.sends] at hx
    cases hx

/-- A fragment that brings a sample is filed under its key. -/
lemma key_of_arrival {now : ℕ} {guidPrefix : GuidPrefix} {raw : RawSubmessage} {x : Dispatch}
    {frags : FragmentAssembler} (h : (arrival now guidPrefix raw frags).2 = .ok (some x)) :
    (raw.id = submsgData ∧ dataSample guidPrefix raw = some x) ∨
      ∃ frag, raw.id = submsgDataFrag ∧ decodeDataFrag raw.body = .ok frag ∧
        frag.key = sampleKey x.source.entity x.seqNum := by
  rw [arrival] at h
  split at h
  next hid => exact .inl ⟨hid, Except.ok.inj h⟩
  next =>
    split at h
    next hid =>
      split at h
      next => cases h
      next frag hdecode =>
        obtain ⟨o, -, hx⟩ := Except.map_eq_ok.mp h
        obtain ⟨-, hsource, hseq⟩ := fragSample_eq_some hx
        refine .inr ⟨frag, hid, hdecode, ?_⟩
        rw [sampleKey, hsource, hseq, SequenceNumber.fromU64_toU64]
        rfl
    next => cases h

/-- A datagram that spares the sample dispatches nothing of it. -/
lemma dispatchesOf_of_spares (h : d.Spares source seq) (q : RtpsParticipant) :
    dispatchesOf source seq (handleDataPacket d q).out = [] := by
  refine dispatchesOf_eq_nil ?_
  rw [handleDataPacket]
  split
  · exact fun _ he => absurd he List.not_mem_nil
  next header hheader =>
    split
    · exact fun _ he => absurd he List.not_mem_nil
    have hkeeps : Cmd.Keeps (fun _ => True)
        (fun e => ∀ x, e = Effect.dispatch x → ¬ (x.source = source ∧ x.seqNum = seq))
        (Cmd.forEach (handleSubmessage d header.guidPrefix) (submessages (d.data.drop 20))) := by
      refine Cmd.Keeps.forEach fun raw hraw r _ => ⟨trivial, ?_⟩
      rintro e he x rfl ⟨rfl, rfl⟩
      rcases key_of_arrival (dispatch_of_mem_handleSubmessage he) with
        ⟨hid, hx⟩ | ⟨frag, hid, hdecode, hkey⟩
      · exact h.data header raw x hheader hraw hid hx ⟨rfl, rfl⟩
      · exact h.frag raw frag hraw hid hdecode hkey
    exact (hkeeps q trivial).2

lemma dispatchesOf_receiveAll_of_spares {ds : List Datagram}
    (h : ∀ d ∈ ds, d.Spares source seq) (q : RtpsParticipant) :
    dispatchesOf source seq (receiveAll ds q).out = [] := by
  induction ds generalizing q with
  | nil => rfl
  | cons d ds ih =>
    rw [receiveAll, Cmd.calls_cons]
    dsimp only
    rw [dispatchesOf_append, dispatchesOf_of_spares (h d List.mem_cons_self) q, List.nil_append]
    exact ih (fun d' hd' => h d' (List.mem_cons_of_mem _ hd')) _

/-- What a submessage leaves in the assembler. -/
lemma fragAssembler_handleSubmessage (d : Datagram) (guidPrefix : GuidPrefix)
    (raw : RawSubmessage) (q : RtpsParticipant) :
    (handleSubmessage d guidPrefix raw q).state.fragAssembler =
      (arrival d.now guidPrefix raw q.fragAssembler).1 := by
  rcases handleSubmessage_cases d guidPrefix raw q with ⟨e, -, hrun⟩ | ⟨y, hy, hrun⟩ | ⟨-, hquiet⟩
  · rw [hrun]
    rfl
  · obtain ⟨hseq, -⟩ := arrival_eq_some hy
    rw [hrun, (readersOnly_acceptSample hseq).fragAssembler_eq]
    rfl
  · exact hquiet.assembler

/-- A datagram that spares the sample leaves its fragments alone. -/
lemma awaits_of_spares {payload : Bytes} {S : Finset ℕ} {times : List ℕ}
    (h : d.Spares source seq)
    (hq : q.fragAssembler.Awaits source.entity seq payload S (d.now :: times)) :
    (handleDataPacket d q).state.fragAssembler.Awaits source.entity seq payload S times := by
  have hsub : times ⊆ d.now :: times := List.subset_cons_self _ _
  rw [handleDataPacket]
  split
  · exact hq.mono hsub
  next header hheader =>
    split
    · exact hq.mono hsub
    -- the readings of the clock are those of one datagram
    have htwice : d.now :: d.now :: times ⊆ d.now :: times :=
      List.cons_subset.mpr ⟨List.mem_cons_self, List.Subset.refl _⟩
    have hkeeps : Cmd.Keeps
        (fun r => r.fragAssembler.Awaits source.entity seq payload S (d.now :: times))
        (fun _ => True)
        (Cmd.forEach (handleSubmessage d header.guidPrefix) (submessages (d.data.drop 20))) := by
      refine Cmd.Keeps.forEach fun raw hraw r hr => ⟨?_, fun _ _ => trivial⟩
      rw [fragAssembler_handleSubmessage, arrival]
      split
      · exact hr
      split
      next hid =>
        split
        · exact hr
        next frag hdecode =>
          exact (hr.mono htwice).receive_of_ne (h.frag raw frag hraw hid hdecode)
      · exact hr
    exact (hkeeps q hq).1.mono hsub

/-! ## The messages of the sample -/

section
variable {eid : EntityId} {payload : Bytes} {header : Header} {k : ℕ}

lemma length_fragmentOf_lt : (fragmentOf eid seq payload k).payload.length + 32 < 2 ^ 16 := by
  rw [length_payload_fragmentOf, Tiling.cellEnd, Tiling.cellStart]
  omega

/-- A fragment of the sample goes to the assembler. -/
lemma fragAssembler_fragment (hdata : d.data = fragMessage header (fragmentOf eid seq payload k))
    (hforeign : header.guidPrefix ≠ q.guidPrefix) :
    (handleDataPacket d q).state.fragAssembler =
      (q.fragAssembler.receive d.now (fragmentOf eid seq payload k)).1 := by
  rw [handleDataPacket_frag length_fragmentOf_lt hdata hforeign, fragAssembler_handleSubmessage,
    arrival_frag]

/-- While the sample is not whole, nothing is dispatched. -/
lemma dispatches_fragment_of_none
    (hdata : d.data = fragMessage header (fragmentOf eid seq payload k))
    (hforeign : header.guidPrefix ≠ q.guidPrefix)
    (hnone : (q.fragAssembler.receive d.now (fragmentOf eid seq payload k)).2 = .ok none) :
    dispatchesOf source seq (handleDataPacket d q).out = [] := by
  refine dispatchesOf_eq_nil ?_
  rintro e he x rfl
  rw [handleDataPacket_frag length_fragmentOf_lt hdata hforeign] at he
  have hx := dispatch_of_mem_handleSubmessage he
  rw [arrival_frag, hnone] at hx
  cases hx

/-- Once it is whole, it is accepted. -/
lemma handleDataPacket_fragment_of_some (hseq : seq < 2 ^ 64)
    (hdata : d.data = fragMessage header (fragmentOf eid seq payload k))
    (hforeign : header.guidPrefix ≠ q.guidPrefix)
    (hsome : (q.fragAssembler.receive d.now (fragmentOf eid seq payload k)).2 =
      .ok (some (wrapPayload payload))) :
    handleDataPacket d q = acceptSample d .dataFrag ⟨header.guidPrefix, eid⟩ payload seq
      { q with fragAssembler :=
          (q.fragAssembler.receive d.now (fragmentOf eid seq payload k)).1 } := by
  have harrival : (arrival d.now header.guidPrefix ⟨submsgDataFrag, flagEndianness,
      dataFragBody (fragmentOf eid seq payload k)⟩ q.fragAssembler).2 =
        .ok (some ⟨.dataFrag, ⟨header.guidPrefix, eid⟩, payload, seq⟩) := by
    have hnumber : (fragmentOf eid seq payload k).writerSeqNum.toU64 = seq :=
      SequenceNumber.toU64_fromU64 hseq
    rw [arrival_frag, hsome]
    simp only [Except.map, fragSample, unwrapPayload_wrapPayload, hnumber]
    rfl
  rw [handleDataPacket_frag length_fragmentOf_lt hdata hforeign]
  rcases handleSubmessage_cases d header.guidPrefix ⟨submsgDataFrag, flagEndianness,
      dataFragBody (fragmentOf eid seq payload k)⟩ q with
        ⟨e, he, -⟩ | ⟨y, hy, hrun⟩ | ⟨hnone, -⟩
  · rw [harrival] at he
    cases he
  · rw [harrival] at hy
    cases hy
    rw [hrun, afterArrival, arrival_frag]
  · rw [harrival] at hnone
    cases hnone

/-- **The messages before the last** fill the assembler, and nothing of the sample is
dispatched. -/
lemma awaits_receiveAll (hlen : payload.length + 4 ≤ maxReassemblyBytes) {ds : List Datagram}
    {ms : List Bytes} {ks : List ℕ} {S : Finset ℕ} {times : List ℕ}
    (hcarries : Carries ⟨header.guidPrefix, eid⟩ seq ds ms)
    (hms : ks.map (fun k => fragMessage header (fragmentOf eid seq payload k)) = ms)
    (hforeign : header.guidPrefix ≠ q.guidPrefix) (hnodup : ks.Nodup)
    (hks : ∀ k ∈ ks, k < fragmentCount payload ∧ k ∉ S)
    (hcount : S.card + ks.length < fragmentCount payload)
    (htimely : (ds.map Datagram.now ++ times).Pairwise fun t t' => t' ≤ t + staleFragAge)
    (hq : q.fragAssembler.Awaits eid seq payload S (ds.map Datagram.now ++ times)) :
    dispatchesOf ⟨header.guidPrefix, eid⟩ seq (receiveAll ds q).out = [] ∧
      ∃ S', (∀ j, j ∈ S' ↔ j ∈ S ∨ j ∈ ks) ∧ S'.card = S.card + ks.length ∧
        (receiveAll ds q).state.fragAssembler.Awaits eid seq payload S' times := by
  induction hcarries generalizing q ks S with
  | nil =>
    rw [List.map_eq_nil_iff] at hms
    subst hms
    exact ⟨rfl, S, by simp, rfl, hq⟩
  | @other d ds ms hd hcarries ih =>
    rw [List.map_cons, List.cons_append] at htimely hq
    have hown : (handleDataPacket d q).state.guidPrefix = q.guidPrefix :=
      (keeps_handleDataPacket q d).1.guidPrefix_eq
    obtain ⟨hnone, hrest⟩ := ih hms (hown ▸ hforeign) hnodup hks hcount htimely.of_cons
      (awaits_of_spares hd hq)
    rw [receiveAll, Cmd.calls_cons]
    dsimp only
    rw [dispatchesOf_append, dispatchesOf_of_spares hd q, List.nil_append]
    exact ⟨hnone, hrest⟩
  | @message d ds ms hcarries ih =>
    obtain ⟨k, ks, rfl⟩ : ∃ k ks', ks = k :: ks' :=
      List.exists_cons_of_ne_nil fun h => by
        rw [h] at hms
        cases hms
    rw [List.map_cons, List.cons.injEq] at hms
    obtain ⟨hdata, hms⟩ := hms
    rw [List.map_cons, List.cons_append] at htimely hq
    obtain ⟨hlt, hnot⟩ := hks k List.mem_cons_self
    obtain ⟨hfirst, hnodup⟩ := List.nodup_cons.mp hnodup
    rw [List.length_cons] at hcount
    have hown : (handleDataPacket d q).state.guidPrefix = q.guidPrefix :=
      (keeps_handleDataPacket q d).1.guidPrefix_eq
    have hcard : (insert k S).card = S.card + 1 := Finset.card_insert_of_notMem hnot
    obtain ⟨hwait, hawaits⟩ := (FragmentAssembler.receive_fragmentOf hlen hq hlt hnot
      (List.pairwise_cons.mp htimely).1).1 (by omega)
    rw [← fragAssembler_fragment hdata.symm hforeign] at hawaits
    have hks' : ∀ j ∈ ks, j < fragmentCount payload ∧ j ∉ insert k S := by
      intro j hj
      obtain ⟨hjlt, hjnot⟩ := hks j (List.mem_cons_of_mem _ hj)
      refine ⟨hjlt, fun hmem => ?_⟩
      rcases Finset.mem_insert.mp hmem with rfl | hmem
      · exact hfirst hj
      · exact hjnot hmem
    obtain ⟨hnone, S', hmem, hcard', hrest⟩ := ih hms (hown ▸ hforeign) hnodup hks' (by omega)
      htimely.of_cons hawaits
    rw [receiveAll, Cmd.calls_cons]
    dsimp only
    rw [dispatchesOf_append, dispatches_fragment_of_none hdata.symm hforeign hwait,
      List.nil_append]
    refine ⟨hnone, S', fun j => ?_, by rw [List.length_cons]; omega, hrest⟩
    rw [hmem, Finset.mem_insert, List.mem_cons]
    tauto

/-- **The last message** has the sample accepted, and leaves no fragment of it. -/
lemma handleDataPacket_last (hseq : seq < 2 ^ 64)
    (hlen : payload.length + 4 ≤ maxReassemblyBytes) {S : Finset ℕ}
    (hdata : d.data = fragMessage header (fragmentOf eid seq payload k))
    (hforeign : header.guidPrefix ≠ q.guidPrefix) (hk : k < fragmentCount payload) (hnot : k ∉ S)
    (hall : fragmentCount payload ≤ S.card + 1)
    (hq : q.fragAssembler.Awaits eid seq payload S [d.now]) :
    ∃ fragAssembler : FragmentAssembler, fragAssembler.lookup (sampleKey eid seq) = none ∧
      handleDataPacket d q =
        acceptSample d .dataFrag ⟨header.guidPrefix, eid⟩ payload seq { q with fragAssembler } := by
  obtain ⟨hsome, hnone⟩ := (FragmentAssembler.receive_fragmentOf hlen hq hk hnot nofun).2 hall
  exact ⟨_, hnone, handleDataPacket_fragment_of_some hseq hdata hforeign hsome⟩

lemma spares_of_carries_nil {ds : List Datagram} {ms : List Bytes} (h : Carries source seq ds ms)
    (hms : ms = []) : ∀ d ∈ ds, d.Spares source seq := by
  induction h with
  | nil => nofun
  | message => cases hms
  | other hd _ ih => exact List.forall_mem_cons.mpr ⟨hd, ih hms⟩

/-- A sample in one DATA. -/
lemma accepted_of_fits {p : RtpsParticipant} (hseq : seq < 2 ^ 64) (hfits : FitsData payload)
    (hforeign : p.guidPrefix ≠ q.guidPrefix) {pre post : List Datagram} {last : Datagram}
    (h : HandedOnce ⟨p.guidPrefix, eid⟩ seq [dataMessage p.header eid seq payload] pre last post) :
    dispatchesOf ⟨p.guidPrefix, eid⟩ seq (receiveAll pre q).out = [] ∧
      handleDataPacket last (receiveAll pre q).state =
        acceptSample last .data ⟨p.guidPrefix, eid⟩ payload seq (receiveAll pre q).state := by
  obtain ⟨ms, hcarries, hperm⟩ := h.each_once
  have heq : ms ++ [last.data] = [] ++ [dataMessage p.header eid seq payload] :=
    List.perm_singleton.mp hperm
  obtain ⟨hms, hlast⟩ := List.append_inj' heq rfl
  have hown : (receiveAll pre q).state.guidPrefix = q.guidPrefix :=
    (steady_receiveAll pre q).guidPrefix_eq
  rw [← guidPrefix_header p, ← hown] at hforeign
  refine ⟨dispatchesOf_receiveAll_of_spares (spares_of_carries_nil hcarries hms) q, ?_⟩
  rw [handleDataPacket_data hseq hfits (List.singleton_inj.mp hlast) hforeign, guidPrefix_header]

/-- A sample in several DATA_FRAG. -/
lemma accepted_of_not_fits {p : RtpsParticipant} (hseq : seq < 2 ^ 64)
    (hlen : payload.length + 4 ≤ maxReassemblyBytes)
    (hforeign : p.guidPrefix ≠ q.guidPrefix) (hnone : q.HasNoFragmentOf eid seq)
    {pre post : List Datagram} {last : Datagram}
    (h : HandedOnce ⟨p.guidPrefix, eid⟩ seq
      ((fragmentsOf eid seq payload).map (fragMessage p.header)) pre last post) :
    dispatchesOf ⟨p.guidPrefix, eid⟩ seq (receiveAll pre q).out = [] ∧
      ∃ fragAssembler : FragmentAssembler, fragAssembler.lookup (sampleKey eid seq) = none ∧
        handleDataPacket last (receiveAll pre q).state =
          acceptSample last .dataFrag ⟨p.guidPrefix, eid⟩ payload seq
            { (receiveAll pre q).state with fragAssembler } := by
  obtain ⟨ms, hcarries, hperm⟩ := h.each_once
  rw [fragmentsOf_eq, List.map_map, Function.comp_def] at hperm
  obtain ⟨bs, hbs, heq⟩ := List.exists_perm_of_perm_map hperm
  -- the order in which the fragments come
  obtain ⟨ks, k, rfl⟩ : ∃ ks k, bs = ks ++ [k] := by
    rcases List.eq_nil_or_concat bs with rfl | ⟨ks, k, hks⟩
    · cases ms <;> cases heq
    · exact ⟨ks, k, by simpa using hks⟩
  rw [List.map_append, List.map_singleton] at heq
  obtain ⟨hms, hlast⟩ := List.append_inj' heq rfl
  have hnodup := hbs.nodup_iff.mpr List.nodup_range
  have hlt : ∀ j ∈ ks ++ [k], j < fragmentCount payload :=
    fun j hj => List.mem_range.mp (hbs.mem_iff.mp hj)
  have hlength : ks.length + 1 = fragmentCount payload := by
    have hcount := hbs.length_eq
    rwa [List.length_append, List.length_singleton, List.length_range] at hcount
  have hfresh : k ∉ ks := fun hk =>
    (List.disjoint_of_nodup_append hnodup) hk (List.mem_singleton_self k)
  have htimely : (pre.map Datagram.now ++ [last.now]).Pairwise
      fun t t' => t' ≤ t + staleFragAge := by
    have hpair : ((pre ++ [last]).map Datagram.now).Pairwise fun t t' => t' ≤ t + staleFragAge :=
      List.pairwise_map.mpr h.timely
    rwa [List.map_append] at hpair
  have hown : (receiveAll pre q).state.guidPrefix = q.guidPrefix :=
    (steady_receiveAll pre q).guidPrefix_eq
  have hheader : p.header.guidPrefix ≠ q.guidPrefix := by rwa [guidPrefix_header]
  rw [← guidPrefix_header p] at hcarries
  have hstart : q.fragAssembler.Awaits eid seq payload ∅ (pre.map Datagram.now ++ [last.now]) :=
    .inl ⟨rfl, hnone⟩
  have hcount : (∅ : Finset ℕ).card + ks.length < fragmentCount payload := by
    rw [Finset.card_empty]
    omega
  obtain ⟨hnothing, S, hS, hcard, hawaits⟩ := awaits_receiveAll hlen hcarries hms.symm hheader
    (hnodup.sublist (List.sublist_append_left _ _))
    (fun j hj => ⟨hlt j (List.mem_append_left _ hj), Finset.notMem_empty j⟩) hcount htimely hstart
  rw [Finset.card_empty] at hcard
  refine ⟨hnothing, ?_⟩
  have hnot : k ∉ S := fun hk => by
    rcases (hS k).mp hk with hk | hk
    · exact Finset.notMem_empty k hk
    · exact hfresh hk
  have hdata : last.data = fragMessage p.header (fragmentOf eid seq payload k) :=
    List.singleton_inj.mp hlast
  have hk : k < fragmentCount payload :=
    hlt k (List.mem_append_right _ (List.mem_singleton_self k))
  rw [← hown] at hheader
  have hall : fragmentCount payload ≤ S.card + 1 := by omega
  have haccepted := handleDataPacket_last hseq hlen hdata hheader hk hnot hall hawaits
  rwa [guidPrefix_header] at haccepted

end

/-- What a run dispatches that has the sample accepted once. -/
lemma exists_dispatchesOf_iff {source : Guid} {origin : Origin} {payload : Bytes}
    {pre post : List Datagram} {last : Datagram} {q r : RtpsParticipant} (hseq : seq < 2 ^ 64)
    (hpre : dispatchesOf source seq (receiveAll pre q).out = [])
    (hlast : handleDataPacket last (receiveAll pre q).state =
      acceptSample last origin source payload seq r)
    (hok : r.NotifyOk source seq ↔ (receiveAll pre q).state.NotifyOk source seq)
    (hpost : ∀ d ∈ post, d.Spares source seq) :
    (∃ origin, dispatchesOf source seq (receiveAll (pre ++ last :: post) q).out =
        [⟨origin, source, payload, seq⟩]) ↔
      (receiveAll pre q).state.NotifyOk source seq := by
  have hout : dispatchesOf source seq (receiveAll (pre ++ last :: post) q).out =
      dispatchesOf source seq (acceptSample last origin source payload seq r).out := by
    rw [receiveAll, Cmd.calls_append]
    dsimp only
    rw [Cmd.calls_cons]
    dsimp only
    rw [dispatchesOf_append, dispatchesOf_append, ← receiveAll, hpre, hlast,
      ← receiveAll, dispatchesOf_receiveAll_of_spares hpost, List.nil_append, List.append_nil]
  rw [hout, ← hok]
  by_cases hnotify : r.NotifyOk source seq
  · refine iff_of_true ⟨origin, ?_⟩ hnotify
    rw [dispatchesOf, dispatches_acceptSample hseq hnotify]
    simp
  · refine iff_of_false ?_ hnotify
    rw [dispatchesOf, dispatches_acceptSample_of_not hseq hnotify]
    rintro ⟨_, h⟩
    cases h

end RtpsParticipant

/-! ### Two samples -/

namespace RtpsUdpParticipant

open RtpsParticipant

/-- A datagram to the reader. -/
def toReceiver (data : Bytes) : Datagram := ⟨0, 0, data, receiverAddr⟩

end RtpsUdpParticipant

end RustDds
