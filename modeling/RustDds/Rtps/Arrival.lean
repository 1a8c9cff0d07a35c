import RustDds.Rtps.Receive

/-!
# What a received submessage brings

`arrival` is the part of a submessage that does not depend on the readers: the sample it brings,
as a DATA or as the DATA_FRAG that completes a reassembly, and the fragment assembler it leaves.
`handleSubmessage_cases` says that handling a submessage is that, and then `acceptSample` for
the sample if there is one.  Everything else a submessage can do sends messages, and changes
trackers and writers (`Quiet`).

No submessage changes what a participant is, or which samples its readers accept (`Steady`).
-/

namespace RustDds

/-! ## The sample in a submessage -/

/-- The sample in a well-formed DATA submessage. -/
def dataSample (guidPrefix : GuidPrefix) (raw : RawSubmessage) : Option Dispatch :=
  match decodeDataSubmessage raw.flags raw.body with
  | .error _ => none
  | .ok ds =>
    match ds.payload with
    | none => none
    | some payload =>
      match unwrapPayload payload with
      | .error _ => none
      | .ok rawPayload =>
        some ⟨.data, ⟨guidPrefix, ds.writerEntityId⟩, rawPayload, ds.seqNum.toU64⟩

/-- The sample that a fragment completes. -/
def fragSample (guidPrefix : GuidPrefix) (frag : DataFrag) : Option Bytes → Option Dispatch
  | none => none
  | some reassembled =>
    match unwrapPayload reassembled with
    | .error _ => none
    | .ok rawPayload =>
      some ⟨.dataFrag, ⟨guidPrefix, frag.writerEntityId⟩, rawPayload, frag.writerSeqNum.toU64⟩

/-- What a submessage of a message sent under `guidPrefix` brings: the assembler it leaves, and
its sample, or the panic of the assembler. -/
def arrival (now : ℕ) (guidPrefix : GuidPrefix) (raw : RawSubmessage) (frags : FragmentAssembler) :
    FragmentAssembler × Except Panic (Option Dispatch) :=
  if raw.id = submsgData then (frags, .ok (dataSample guidPrefix raw))
  else if raw.id = submsgDataFrag then
    match decodeDataFrag raw.body with
    | .error _ => (frags, .ok none)
    | .ok frag =>
      ((frags.receive now frag).1, (frags.receive now frag).2.map (fragSample guidPrefix frag))
  else (frags, .ok none)

lemma dataSample_eq_some {guidPrefix : GuidPrefix} {raw : RawSubmessage} {x : Dispatch}
    (h : dataSample guidPrefix raw = some x) :
    x.seqNum < 2 ^ 64 ∧ x.source.guidPrefix = guidPrefix := by
  unfold dataSample at h
  repeat' split at h
  all_goals first
    | cases h
      done
    | cases h
      exact ⟨SequenceNumber.toU64_lt _, rfl⟩

lemma fragSample_eq_some {guidPrefix : GuidPrefix} {frag : DataFrag} {o : Option Bytes}
    {x : Dispatch} (h : fragSample guidPrefix frag o = some x) :
    x.origin = .dataFrag ∧ x.source = ⟨guidPrefix, frag.writerEntityId⟩ ∧
      x.seqNum = frag.writerSeqNum.toU64 := by
  cases o with
  | none => cases h
  | some b =>
    rw [fragSample] at h
    split at h
    · cases h
    · cases h
      exact ⟨rfl, rfl, rfl⟩

/-- The sample a submessage brings is the sender's, under a 64-bit number. -/
lemma arrival_eq_some {now : ℕ} {guidPrefix : GuidPrefix} {raw : RawSubmessage}
    {frags : FragmentAssembler} {x : Dispatch}
    (h : (arrival now guidPrefix raw frags).2 = .ok (some x)) :
    x.seqNum < 2 ^ 64 ∧ x.source.guidPrefix = guidPrefix := by
  unfold arrival at h
  split at h
  · exact dataSample_eq_some (Except.ok.inj h)
  split at h
  · split at h
    · cases h
    · obtain ⟨o, -, hx⟩ := Except.map_eq_ok.mp h
      obtain ⟨-, hsrc, hseq⟩ := fragSample_eq_some hx
      rw [hsrc, hseq]
      exact ⟨SequenceNumber.toU64_lt _, rfl⟩
  · cases h

/-! ## What stays of a participant -/

/-- `p'` is the same participant as `p`, with the same readers on the same terms. -/
structure Steady (p p' : RtpsParticipant) : Prop where
  guidPrefix_eq : p'.guidPrefix = p.guidPrefix
  vendorId_eq : p'.vendorId = p.vendorId
  sedp_eq : p'.sedp = p.sedp
  profile_eq : p'.profile = p.profile

namespace Steady

variable {p q r : RtpsParticipant}

lemma refl (p : RtpsParticipant) : Steady p p := ⟨rfl, rfl, rfl, rfl⟩

lemma trans (h : Steady p q) (h' : Steady q r) : Steady p r :=
  ⟨h'.1.trans h.1, h'.2.trans h.2, h'.3.trans h.3, h'.4.trans h.4⟩

lemma header_eq (h : Steady p q) : q.header = p.header := by
  rw [RtpsParticipant.header, RtpsParticipant.header, h.guidPrefix_eq, h.vendorId_eq]

lemma accepts_iff (h : Steady p q) (eid : EntityId) (source : Guid) :
    q.Accepts eid source ↔ p.Accepts eid source :=
  RtpsParticipant.accepts_congr h.guidPrefix_eq h.profile_eq

/-- Replacing the assembler. -/
lemma withAssembler (p : RtpsParticipant) (frags : FragmentAssembler) :
    Steady p { p with fragAssembler := frags } := ⟨rfl, rfl, rfl, rfl⟩

end Steady

lemma ReadersOnly.steady {p p' : RtpsParticipant} (h : ReadersOnly p p')
    (hprofile : p'.profile = p.profile) : Steady p p' := by
  refine ⟨h.guidPrefix_eq, ?_, ?_, hprofile⟩
  all_goals
    obtain ⟨_, _, _, _, rfl⟩ := h
    rfl

/-! ## Handling a submessage -/

namespace RtpsParticipant

variable {p : RtpsParticipant} {d : Datagram} {guidPrefix : GuidPrefix} {raw : RawSubmessage}

/-- The participant with the assembler a submessage leaves. -/
def afterArrival (p : RtpsParticipant) (d : Datagram) (guidPrefix : GuidPrefix)
    (raw : RawSubmessage) : RtpsParticipant :=
  { p with fragAssembler := (arrival d.now guidPrefix raw p.fragAssembler).1 }

/-- An outcome that brings no sample: only messages are sent, and the assembler and what the
participant is stay. -/
structure Quiet (p : RtpsParticipant) (o : Outcome RtpsParticipant Effect Panic) : Prop where
  sends : ∀ e ∈ o.out, ∃ msg addr, e = Effect.send msg addr
  assembler : o.state.fragAssembler = p.fragAssembler
  steady : Steady p o.state

lemma quiet_skip (p : RtpsParticipant) : Quiet p (Cmd.skip p) :=
  ⟨by simp, rfl, Steady.refl p⟩

lemma quiet_handleHeartbeat (source : Guid) (hb : Heartbeat) (src : SocketAddr) :
    Quiet p (handleHeartbeat source hb src p) where
  sends := out_handleHeartbeat
  assembler := rfl
  steady := (readersOnly_visitReaders p).steady profile_visitReaders_contact

/-- A command that only sends, and keeps the assembler and what the participant is. -/
lemma quiet_of_keeps {c : Cmd RtpsParticipant Effect Panic}
    (h : Cmd.Keeps (fun q => Steady p q ∧ q.fragAssembler = p.fragAssembler)
      (fun e => ∃ msg addr, e = Effect.send msg addr) c) : Quiet p (c p) := by
  obtain ⟨⟨hsteady, hfrags⟩, hout⟩ := h p ⟨Steady.refl p, rfl⟩
  exact ⟨hout, hfrags, hsteady⟩

section
variable {I : RtpsParticipant → Prop} {history : SendHistory} {addrs : List SocketAddr}

lemma keeps_sends {msg : Bytes} :
    Cmd.Keeps I (fun e => ∃ msg addr, e = Effect.send msg addr)
      (Cmd.emit (addrs.map (Effect.send msg)) : Cmd RtpsParticipant Effect Panic) := by
  refine Cmd.keeps_emit fun e he => ?_
  obtain ⟨addr, -, rfl⟩ := List.mem_map.mp he
  exact ⟨msg, addr, rfl⟩

lemma keeps_retransmit {ackBase bit : ℕ} :
    Cmd.Keeps I (fun e => ∃ msg addr, e = Effect.send msg addr)
      (retransmit history addrs ackBase bit) := by
  unfold retransmit
  split
  · exact Cmd.keeps_fail _
  split
  · exact Cmd.keeps_skip
  · exact keeps_sends

lemma keeps_sendGap {header : Header} {an : AckNack} {src : SocketAddr} :
    Cmd.Keeps I (fun e => ∃ msg addr, e = Effect.send msg addr)
      (sendGap header history an addrs src) := by
  unfold sendGap
  dsimp only
  split
  · exact Cmd.keeps_skip
  split
  · split
    · exact Cmd.keeps_fail _
    · exact keeps_sends
  · exact Cmd.keeps_skip

end

lemma quiet_handleAcknack (an : AckNack) (src : SocketAddr) : Quiet p (handleAcknack an src p) := by
  have hkeeps : ∀ (history : SendHistory) (addrs : List SocketAddr),
      Cmd.Keeps (fun q => Steady p q ∧ q.fragAssembler = p.fragAssembler)
        (fun e => ∃ msg addr, e = Effect.send msg addr)
        ((Cmd.modify fun q => { q with
            writers := q.writers.adjust an.writerEntityId (advanceAcked · an.base.toU64) }).andThen
          ((Cmd.forEach (retransmit history addrs an.base.toU64)
            (Bitmap.members an.bitmap)).andThen (sendGap p.header history an addrs src))) := by
    intro history addrs
    refine (Cmd.keeps_modify fun q hq => ?_).andThen
      ((Cmd.Keeps.forEach fun bit _ => keeps_retransmit).andThen keeps_sendGap)
    exact ⟨⟨hq.1.1, hq.1.2, hq.1.3, hq.1.4⟩, hq.2⟩
  unfold handleAcknack
  split
  · exact quiet_skip p
  split
  · exact quiet_skip p
  split
  · exact quiet_skip p
  rename_i history _
  exact quiet_of_keeps (hkeeps history _)

/-- Accept the sample, if there is one. -/
def acceptSome (d : Datagram) : Option Dispatch → Cmd RtpsParticipant Effect Panic
  | none => Cmd.skip
  | some x => acceptSample d x.origin x.source x.payload x.seqNum

lemma handleData_eq (d : Datagram) (guidPrefix : GuidPrefix) (raw : RawSubmessage) :
    handleData d guidPrefix raw = acceptSome d (dataSample guidPrefix raw) := by
  unfold handleData dataSample
  cases decodeDataSubmessage raw.flags raw.body with
  | error _ => rfl
  | ok ds =>
    dsimp only
    cases ds.payload with
    | none => rfl
    | some payload =>
      dsimp only
      cases unwrapPayload payload <;> rfl

lemma handleDataFrag_eq {frag : DataFrag} (hdecode : decodeDataFrag raw.body = .ok frag)
    {frags : FragmentAssembler} {o : Option Bytes}
    (hreceive : p.fragAssembler.receive d.now frag = (frags, .ok o)) :
    handleDataFrag d guidPrefix raw p =
      acceptSome d (fragSample guidPrefix frag o) { p with fragAssembler := frags } := by
  have hmodify : ∀ c : Cmd RtpsParticipant Effect Panic,
      ((Cmd.modify fun q : RtpsParticipant => { q with fragAssembler := frags }).andThen c) p =
        c { p with fragAssembler := frags } := fun c => Cmd.andThen_of_none rfl
  unfold handleDataFrag
  rw [hdecode]
  dsimp only
  rw [hreceive]
  dsimp only
  rw [hmodify]
  cases o with
  | none => rfl
  | some reassembled =>
    dsimp only [fragSample]
    cases unwrapPayload reassembled <;> rfl

lemma handleDataFrag_of_error {frag : DataFrag} (hdecode : decodeDataFrag raw.body = .ok frag)
    {frags : FragmentAssembler} {e : Panic}
    (hreceive : p.fragAssembler.receive d.now frag = (frags, .error e)) :
    handleDataFrag d guidPrefix raw p = ⟨{ p with fragAssembler := frags }, [], some e⟩ := by
  unfold handleDataFrag
  rw [hdecode]
  dsimp only
  rw [hreceive]
  rfl

/-- What handling a submessage comes to: the assembler panics; or there is a sample, which is
accepted; or there is none, and only messages are sent. -/
def Brings (d : Datagram) (guidPrefix : GuidPrefix) (raw : RawSubmessage) (p : RtpsParticipant) :
    Prop :=
  (∃ e, (arrival d.now guidPrefix raw p.fragAssembler).2 = .error e ∧
    handleSubmessage d guidPrefix raw p = ⟨p.afterArrival d guidPrefix raw, [], some e⟩) ∨
  (∃ x, (arrival d.now guidPrefix raw p.fragAssembler).2 = .ok (some x) ∧
    handleSubmessage d guidPrefix raw p =
      acceptSample d x.origin x.source x.payload x.seqNum (p.afterArrival d guidPrefix raw)) ∨
  (arrival d.now guidPrefix raw p.fragAssembler).2 = .ok none ∧
    Quiet (p.afterArrival d guidPrefix raw) (handleSubmessage d guidPrefix raw p)

lemma brings_of_acceptSome {o : Option Dispatch}
    (ho : (arrival d.now guidPrefix raw p.fragAssembler).2 = .ok o)
    (hrun : handleSubmessage d guidPrefix raw p =
      acceptSome d o (p.afterArrival d guidPrefix raw)) : Brings d guidPrefix raw p := by
  cases o with
  | none => exact .inr (.inr ⟨ho, by rw [hrun]; exact quiet_skip _⟩)
  | some x => exact .inr (.inl ⟨x, ho, hrun⟩)

/-- Where the assembler is not concerned, nothing changes before the sample is accepted. -/
lemma afterArrival_of_same {o : Except Panic (Option Dispatch)}
    (h : arrival d.now guidPrefix raw p.fragAssembler = (p.fragAssembler, o)) :
    p.afterArrival d guidPrefix raw = p := by
  rw [afterArrival, h]

/-- **Handling a submessage.** -/
lemma handleSubmessage_cases (d : Datagram) (guidPrefix : GuidPrefix) (raw : RawSubmessage)
    (p : RtpsParticipant) : Brings d guidPrefix raw p := by
  by_cases hdata : raw.id = submsgData
  · have ha : arrival d.now guidPrefix raw p.fragAssembler =
        (p.fragAssembler, .ok (dataSample guidPrefix raw)) := if_pos hdata
    refine brings_of_acceptSome (congrArg Prod.snd ha) ?_
    rw [afterArrival_of_same ha, handleSubmessage, if_pos hdata, handleData_eq]
  by_cases hfrag : raw.id = submsgDataFrag
  · cases hdecode : decodeDataFrag raw.body with
    | error e =>
      have ha : arrival d.now guidPrefix raw p.fragAssembler = (p.fragAssembler, .ok none) := by
        rw [arrival, if_neg hdata, if_pos hfrag, hdecode]
      refine brings_of_acceptSome (congrArg Prod.snd ha) ?_
      rw [afterArrival_of_same ha, handleSubmessage, if_neg hdata, if_pos hfrag, handleDataFrag,
        hdecode]
      rfl
    | ok frag =>
      have ha : arrival d.now guidPrefix raw p.fragAssembler =
          ((p.fragAssembler.receive d.now frag).1,
            (p.fragAssembler.receive d.now frag).2.map (fragSample guidPrefix frag)) := by
        rw [arrival, if_neg hdata, if_pos hfrag, hdecode]
      have hp' : p.afterArrival d guidPrefix raw =
          { p with fragAssembler := (p.fragAssembler.receive d.now frag).1 } := by
        rw [afterArrival, ha]
      have hrun : handleSubmessage d guidPrefix raw p = handleDataFrag d guidPrefix raw p := by
        rw [handleSubmessage, if_neg hdata, if_pos hfrag]
      rcases hrec : p.fragAssembler.receive d.now frag with ⟨frags, e | o⟩
      · refine .inl ⟨e, by rw [ha, hrec]; rfl, ?_⟩
        rw [hrun, handleDataFrag_of_error hdecode hrec, hp', hrec]
      · refine brings_of_acceptSome (by rw [ha, hrec]; rfl) ?_
        rw [hrun, handleDataFrag_eq hdecode hrec, hp', hrec]
  · have ha : arrival d.now guidPrefix raw p.fragAssembler = (p.fragAssembler, .ok none) := by
      rw [arrival, if_neg hdata, if_neg hfrag]
    refine .inr (.inr ⟨congrArg Prod.snd ha, ?_⟩)
    rw [afterArrival_of_same ha, handleSubmessage, if_neg hdata, if_neg hfrag]
    split
    · cases decodeHeartbeatSubmessage raw.body with
      | error _ => exact quiet_skip p
      | ok hb => exact quiet_handleHeartbeat ..
    split
    · cases decodeAcknackSubmessage raw.body with
      | error _ => exact quiet_skip p
      | ok an => exact quiet_handleAcknack ..
    · exact quiet_skip p

/-! ## Handling a datagram -/

/-- If the effect is a push, it hands a reader that accepts the writer a sample of a writer of
`sender`, under the reader's own topic. -/
def MayPush (p : RtpsParticipant) (sender : GuidPrefix) (e : Effect) : Prop :=
  ∀ r sample accepted, e = .push r sample accepted → ∃ st source,
    p.readers.lookup r = some st ∧ st.acceptsSource p.guidPrefix source = true ∧
      source.guidPrefix = sender ∧ sample.writerGuid = source.toBytes ∧ sample.topic = st.topic

lemma mayPush_of_sends {sender : GuidPrefix} {e : Effect} (h : ∃ msg addr, e = .send msg addr) :
    p.MayPush sender e := by
  obtain ⟨msg, addr, rfl⟩ := h
  intro _ _ _ heq
  cases heq

lemma steady_acceptSample {origin : Origin} {source : Guid} {payload : Bytes} {seq : ℕ}
    (hseq : seq < 2 ^ 64) : Steady p (acceptSample d origin source payload seq p).state :=
  (readersOnly_acceptSample hseq).steady (profile_acceptSample hseq)

/-- Accepting a sample pushes it only to readers that accept its writer. -/
lemma mayPush_acceptSample {origin : Origin} {source : Guid} {payload : Bytes} {seq : ℕ}
    (hseq : seq < 2 ^ 64) :
    ∀ e ∈ (acceptSample d origin source payload seq p).out, p.MayPush source.guidPrefix e := by
  rintro e he r sample accepted rfl
  have hmem : sample ∈ pushesTo r (acceptSample d origin source payload seq p).out :=
    List.mem_filterMap.mpr ⟨_, he, if_pos rfl⟩
  by_cases h : p.NotifyOk source seq ∧ p.Accepts r source
  · obtain ⟨hok, st, hst, hacc⟩ := h
    rw [pushesTo_acceptSample hseq hok hst, if_pos hacc, List.mem_singleton] at hmem
    exact ⟨st, source, hst, hacc, rfl, by rw [hmem]; rfl, by rw [hmem]; rfl⟩
  · rw [pushesTo_acceptSample_of_not hseq h] at hmem
    cases hmem

lemma MayPush.of_steady {p q : RtpsParticipant} (h : Steady p q) {sender : GuidPrefix}
    {e : Effect} (hpush : q.MayPush sender e) : p.MayPush sender e := by
  rintro r sample accepted heq
  obtain ⟨st, source, hst, hacc, hsender, hguid, htopic⟩ := hpush r sample accepted heq
  obtain ⟨st', hst', htopic', hsrc, -⟩ := profile_eq_of_lookup h.profile_eq.symm hst
  refine ⟨st', source, hst', ?_, hsender, hguid, htopic.trans htopic'.symm⟩
  rw [ReaderState.acceptsSource, hsrc, ← h.guidPrefix_eq]
  exact hacc

/-- **The submessage.**  It leaves the participant what it is, and pushes only samples of the
sender, to readers that accept them. -/
lemma keeps_handleSubmessage (p : RtpsParticipant) (d : Datagram) (sender : GuidPrefix)
    (raw : RawSubmessage) :
    Cmd.Keeps (Steady p) (p.MayPush sender) (handleSubmessage d sender raw) := by
  intro q hq
  have hafter : Steady p (q.afterArrival d sender raw) := hq.trans (.withAssembler ..)
  rcases handleSubmessage_cases d sender raw q with ⟨e, -, h⟩ | ⟨x, hx, h⟩ | ⟨-, h⟩
  · rw [h]
    exact ⟨hafter, by simp⟩
  · obtain ⟨hseq, hsender⟩ := arrival_eq_some hx
    rw [h]
    refine ⟨hafter.trans (steady_acceptSample hseq), fun e he => ?_⟩
    have hpush := mayPush_acceptSample hseq e he
    rw [hsender] at hpush
    exact hpush.of_steady hafter
  · exact ⟨hafter.trans h.steady, fun e he => mayPush_of_sends (h.sends e he)⟩

/-- **The datagram.**  It leaves the participant what it is, and pushes only samples of other
participants, to readers that accept them. -/
lemma keeps_handleDataPacket (p : RtpsParticipant) (d : Datagram) :
    Steady p (handleDataPacket d p).state ∧
      ∀ e ∈ (handleDataPacket d p).out, ∃ sender, sender ≠ p.guidPrefix ∧ p.MayPush sender e := by
  unfold handleDataPacket
  split
  · exact ⟨Steady.refl p, by simp⟩
  rename_i header _
  split
  · exact ⟨Steady.refl p, by simp⟩
  rename_i hforeign
  have hall : Cmd.Keeps (Steady p) (p.MayPush header.guidPrefix)
      (Cmd.forEach (handleSubmessage d header.guidPrefix) (submessages (d.data.drop 20))) :=
    Cmd.Keeps.forEach fun raw _ => keeps_handleSubmessage p d header.guidPrefix raw
  obtain ⟨hsteady, hpush⟩ := hall p (Steady.refl p)
  exact ⟨hsteady, fun e he => ⟨header.guidPrefix, hforeign, hpush e he⟩⟩

/-! ### What receiving leaves alone -/

/-- `I` depends neither on the readers, nor on the assembler, nor on what the writers know to be
acknowledged. -/
structure ReceiveInvariant (I : RtpsParticipant → Prop) : Prop where
  of_readersOnly : ∀ {p p'}, I p → ReadersOnly p p' → I p'
  of_assembler : ∀ {p} frags, I p → I { p with fragAssembler := frags }
  of_acked : ∀ {p} eid ackBase, I p →
    I { p with writers := p.writers.adjust eid (advanceAcked · ackBase) }

namespace ReceiveInvariant

variable {I : RtpsParticipant → Prop}

lemma keeps_acceptSample (hI : ReceiveInvariant I) {origin : Origin} {source : Guid}
    {payload : Bytes} {seq : ℕ} (hseq : seq < 2 ^ 64) :
    Cmd.Keeps I (fun _ => True) (acceptSample d origin source payload seq) :=
  fun _ h => ⟨hI.of_readersOnly h (readersOnly_acceptSample hseq), fun _ _ => trivial⟩

lemma keeps_handleAcknack (hI : ReceiveInvariant I) {an : AckNack} {src : SocketAddr} :
    Cmd.Keeps I (fun _ => True) (handleAcknack an src) := by
  intro p h
  have hsends : ∀ {c : Cmd RtpsParticipant Effect Panic},
      Cmd.Keeps I (fun e => ∃ msg addr, e = Effect.send msg addr) c →
        Cmd.Keeps I (fun _ => True) c :=
    fun hc q hq => ⟨(hc q hq).1, fun _ _ => trivial⟩
  unfold handleAcknack
  split
  · exact Cmd.keeps_skip p h
  split
  · exact Cmd.keeps_skip p h
  split
  · exact Cmd.keeps_skip p h
  exact (Cmd.keeps_modify fun q hq => hI.of_acked _ _ hq).andThen ((Cmd.Keeps.forEach fun bit _ =>
    hsends keeps_retransmit).andThen (hsends keeps_sendGap)) p h

/-- What a submessage does is to accept a sample, to tell the trackers of a HEARTBEAT or to answer
an ACKNACK. -/
lemma keeps_handleSubmessage (hI : ReceiveInvariant I) :
    Cmd.Keeps I (fun _ => True) (handleSubmessage d guidPrefix raw) := by
  intro p h
  unfold handleSubmessage
  split
  · rw [handleData_eq]
    cases hx : dataSample guidPrefix raw with
    | none => exact Cmd.keeps_skip p h
    | some x => exact hI.keeps_acceptSample (dataSample_eq_some hx).1 p h
  split
  · cases hdecode : decodeDataFrag raw.body with
    | error e =>
      rw [handleDataFrag, hdecode]
      exact Cmd.keeps_skip p h
    | ok frag =>
      rcases hreceive : p.fragAssembler.receive d.now frag with ⟨frags, e | o⟩
      · rw [handleDataFrag_of_error hdecode hreceive]
        exact ⟨hI.of_assembler _ h, by simp⟩
      rw [handleDataFrag_eq hdecode hreceive]
      cases hx : fragSample guidPrefix frag o with
      | none => exact Cmd.keeps_skip _ (hI.of_assembler _ h)
      | some x =>
        obtain ⟨-, -, hseq⟩ := fragSample_eq_some hx
        exact hI.keeps_acceptSample (hseq ▸ SequenceNumber.toU64_lt _) _ (hI.of_assembler _ h)
  split
  · cases decodeHeartbeatSubmessage raw.body with
    | error e => exact Cmd.keeps_skip p h
    | ok hb => exact ⟨hI.of_readersOnly h (readersOnly_visitReaders p), fun _ _ => trivial⟩
  split
  · cases decodeAcknackSubmessage raw.body with
    | error e => exact Cmd.keeps_skip p h
    | ok an => exact hI.keeps_handleAcknack p h
  · exact Cmd.keeps_skip p h

lemma keeps_handleDataPacket (hI : ReceiveInvariant I) :
    Cmd.Keeps I (fun _ => True) (handleDataPacket d) := by
  intro p h
  unfold handleDataPacket
  split
  · exact Cmd.keeps_skip p h
  split
  · exact Cmd.keeps_skip p h
  · exact Cmd.Keeps.forEach (fun raw _ => hI.keeps_handleSubmessage) p h

end ReceiveInvariant

/-! ## Writing -/

lemma keeps_dispatchToReaders {origin : Origin} {source : Guid} {topicFilter : Option String}
    {payload : Bytes} {utc : ℤ} {seq : ℕ} :
    Cmd.Keeps (Steady p) (fun _ => True)
      (dispatchToReaders origin source topicFilter payload utc seq) := fun _ hq =>
  ⟨hq.trans ((readersOnly_dispatchToReaders origin).steady (profile_dispatchToReaders origin)),
    fun _ _ => trivial⟩

lemma keeps_sendHeartbeat {eid : EntityId} :
    Cmd.Keeps (Steady p) (fun _ => True) (sendHeartbeat eid) := by
  intro q hq
  unfold sendHeartbeat
  split
  · exact ⟨hq, fun _ _ => trivial⟩
  split
  · exact ⟨hq, fun _ _ => trivial⟩
  split
  · exact ⟨hq, fun _ _ => trivial⟩
  · exact ⟨hq.trans ⟨rfl, rfl, rfl, rfl⟩, fun _ _ => trivial⟩

/-- A write leaves the participant what it is. -/
lemma steady_write (w : RtpsWriter) (utc : ℤ) (payload : Bytes) (p : RtpsParticipant) :
    Steady p (w.write utc payload p).state := by
  have hpublish : ∀ {reliable : Bool} {seq : ℕ} {msgs : List Bytes} {q : RtpsParticipant},
      Steady p q → Steady p (w.publish utc reliable seq payload msgs q).state := by
    intro reliable seq msgs q hq
    refine (Cmd.Keeps.andThen (O := fun _ => True) (Cmd.keeps_modify fun q hq => ?_)
      ((Cmd.keeps_emit fun _ _ => trivial).andThen (keeps_dispatchToReaders.andThen
        ((Cmd.keeps_emit fun _ _ => trivial).andThen ?_))) q hq).1
    · exact hq.trans ⟨rfl, rfl, rfl, rfl⟩
    · split
      · exact keeps_sendHeartbeat
      · exact Cmd.keeps_skip
  unfold RtpsWriter.write
  split
  · exact Steady.refl p
  dsimp only
  split
  · exact ⟨rfl, rfl, rfl, rfl⟩
  split
  · exact ⟨rfl, rfl, rfl, rfl⟩
  · exact hpublish ⟨rfl, rfl, rfl, rfl⟩

end RtpsParticipant

end RustDds
