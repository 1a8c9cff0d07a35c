import RustDds.Discovery.Eviction
import RustDds.Reliability.EntityIds
import RustDds.Reliability.OwnHistory
import RustDds.Rtps.Framing

/-!
# What a participant sends

Whatever happens to a participant, each datagram it sends is one submessage behind its own header:
the announcement of an endpoint it has registered, or, on the data path, a sample of one of its
writers or a fragment of one, a HEARTBEAT or a GAP of a writer, or the ACKNACK of a reader
(`speaks_of_send`).  A receiver that gets the datagram whole takes it apart into just that
submessage.

A writer's history could make it send anything that was ever stored; that only its own messages
were is `RtpsParticipant.OwnHistories`.
-/

namespace RustDds

namespace Submessage

/-- The message that carries one submessage. -/
def message (header : Header) (m : Submessage) : Bytes := wrapInRtpsMessage header m.encode

/-- The announcement of an endpoint. -/
def announcement (cfg : SedpConfig) (info : EndpointInfo) (seqNum : UInt32) : Submessage :=
  .data (if info.isWriter then entityIdSedpPubWriter else entityIdSedpSubWriter)
    (if info.isWriter then entityIdSedpPubReader else entityIdSedpSubReader) ⟨0, seqNum⟩
    (buildEndpointData cfg info)

/-- What these writers and readers say of samples, without sending any. -/
inductive Control (writers readers : EntityId → Prop) : Submessage → Prop
  | heartbeat {hb : Heartbeat} (hwriter : writers hb.writerEntityId) :
      Control writers readers (.heartbeat hb)
  | acknack {an : AckNack} (hreader : readers an.readerEntityId) :
      Control writers readers (.acknack an)
  | gap {g : Gap} (hwriter : writers g.writerEntityId)
      (hle : g.gapStart.toU64 ≤ g.gapEnd.toU64) : Control writers readers (.gap g)

/-- What a participant with these writers and readers may send on the data path. -/
inductive OnDataPath (writers readers : EntityId → Prop) : Submessage → Prop
  | sample {eid : EntityId} {seq : ℕ} {payload : Bytes} (hwriter : writers eid)
      (hseq : seq < 2 ^ 64) (hfits : FitsData payload) :
      OnDataPath writers readers
        (.data eid entityIdUnknown (.fromU64 seq) (wrapPayload payload))
  | fragment {f : DataFrag} (hwriter : writers f.writerEntityId)
      (hlen : f.payload.length ≤ maxFragmentPayload) : OnDataPath writers readers (.dataFrag f)
  | control {m : Submessage} (hm : Control writers readers m) : OnDataPath writers readers m

variable {writers readers writers' readers' : EntityId → Prop} {m : Submessage}

lemma Control.imp (h : Control writers readers m) (hw : ∀ eid, writers eid → writers' eid)
    (hr : ∀ eid, readers eid → readers' eid) : Control writers' readers' m := by
  cases h with
  | heartbeat hwriter => exact .heartbeat (hw _ hwriter)
  | acknack hreader => exact .acknack (hr _ hreader)
  | gap hwriter hle => exact .gap (hw _ hwriter) hle

lemma Control.length_body (h : Control writers readers m) : m.raw.body.length < 2 ^ 16 := by
  cases h with
  | heartbeat | acknack | gap => simp [raw]

lemma OnDataPath.imp (h : OnDataPath writers readers m) (hw : ∀ eid, writers eid → writers' eid)
    (hr : ∀ eid, readers eid → readers' eid) : OnDataPath writers' readers' m := by
  cases h with
  | sample hwriter hseq hfits => exact .sample (hw _ hwriter) hseq hfits
  | fragment hwriter hlen => exact .fragment (hw _ hwriter) hlen
  | control hm => exact .control (hm.imp hw hr)

/-- On the data path nothing is too long to be framed. -/
lemma OnDataPath.length_body (h : OnDataPath writers readers m) : m.raw.body.length < 2 ^ 16 := by
  cases h with
  | @sample eid seq payload _ _ hfits =>
    have hlen : payload.length + 4 ≤ 1200 := hfits
    simp only [raw, length_dataBody, length_wrapPayload]
    omega
  | fragment _ hlen =>
    rw [maxFragmentPayload] at hlen
    simp only [raw, length_dataFragBody]
    omega
  | control hm => exact hm.length_body

lemma length_message (header : Header) (m : Submessage) :
    (m.message header).length = 24 + m.raw.body.length := by
  rw [message, wrapInRtpsMessage, encode_eq_frame, frame, List.length_append, List.length_append,
    Header.length_encode, SubmessageHeader.length_encode]
  omega

/-- A message that is short enough is taken apart into its submessage. -/
lemma submessages_message {header : Header} (hlen : m.raw.body.length < 2 ^ 16) :
    submessages ((m.message header).drop 20) = [m.raw] := by
  rw [message, encode_eq_frame]
  exact RustDds.submessages_message m.length_body_pos hlen

lemma decode_message (header : Header) (m : Submessage) :
    Header.decode (m.message header) = .ok header := decode_wrapInRtpsMessage ..

lemma message_announcement (cfg : SedpConfig) (info : EndpointInfo) (seqNum : UInt32) :
    (announcement cfg info seqNum).message ⟨protocolVersion23, cfg.vendorId, cfg.guidPrefix⟩ =
      endpointMessage cfg info seqNum := rfl

/-- A message of a sample is on the data path. -/
lemma exists_onDataPath_of_ofSample {header : Header} {eid : EntityId} {seq : ℕ} {msg : Bytes}
    (h : OfSample header eid seq msg) (hseq : seq < 2 ^ 64) (hwriter : writers eid) :
    ∃ m, OnDataPath writers readers m ∧ msg = m.message header := by
  rcases h with ⟨payload, hfits, rfl⟩ | ⟨frag, rfl, -, hlen, rfl⟩
  · exact ⟨_, .sample hwriter hseq hfits, rfl⟩
  · exact ⟨_, .fragment hwriter hlen, rfl⟩

end Submessage

/-! ## The data path -/

namespace SendHistory

/-- Some slot has this message, under this number. -/
def HasSlot (h : SendHistory) (seq : ℕ) (msg : Bytes) : Prop :=
  ∃ i, h.sn i = seq ∧ h.msg i = some msg

lemma hasSlot_of_get {h : SendHistory} {seq : ℕ} {msg : Bytes} (hget : h.get seq = some msg) :
    h.HasSlot seq msg := by
  rw [get] at hget
  split at hget
  · cases hget
  dsimp only at hget
  split at hget
  · cases hget
  · rename_i hsn
    exact ⟨_, not_not.mp hsn, hget⟩

lemma not_hasSlot_new (seq : ℕ) (msg : Bytes) : ¬ new.HasSlot seq msg := by
  rintro ⟨i, -, hmsg⟩
  cases hmsg

/-- A store overwrites one slot. -/
lemma HasSlot.of_store {h : SendHistory} {seq seq' : ℕ} {m msg : Bytes}
    (hslot : (h.store seq m).HasSlot seq' msg) : h.HasSlot seq' msg ∨ seq' = seq ∧ msg = m := by
  obtain ⟨i, hsn, hmsg⟩ := hslot
  dsimp only [store] at hsn hmsg
  by_cases hi : i = seq % maxHistoryDepth
  · rw [hi, Function.update_self] at hsn hmsg
    exact .inr ⟨hsn.symm, (Option.some.inj hmsg).symm⟩
  · rw [Function.update_of_ne hi] at hsn hmsg
    exact .inl ⟨i, hsn, hmsg⟩

end SendHistory

namespace RtpsParticipant

variable {p q : RtpsParticipant} {d : Datagram} {e : Effect}

/-- The writer has a slot with this message, under this number. -/
def KeepsMessage (p : RtpsParticipant) (eid : EntityId) (seq : ℕ) (msg : Bytes) : Prop :=
  ∃ st history, p.writers.lookup eid = some st ∧ st.history = some history ∧
    history.HasSlot seq msg

/-- The message is one of those of the next sample of the writer. -/
def Writes (p : RtpsParticipant) (eid : EntityId) (payload msg : Bytes) : Prop :=
  ∃ st msgs, p.writers.lookup eid = some st ∧ st.seq + 1 < 2 ^ 64 ∧
    wireMessages p.header eid (st.seq + 1) payload = .ok msgs ∧ msg ∈ msgs

/-- If the effect is a datagram, it is one of `samples`, or carries no sample. -/
def Says (p : RtpsParticipant) (samples : Bytes → Prop) (e : Effect) : Prop :=
  ∀ msg addr, e = .send msg addr → samples msg ∨ ∃ m,
    Submessage.Control (· ∈ p.writers) (· ∈ p.readers) m ∧ msg = m.message p.header

/-- If the effect is a datagram that carries a sample, the sample is retained. -/
def RepliesWith (p : RtpsParticipant) (e : Effect) : Prop :=
  p.Says (fun msg => ∃ eid seq, p.KeepsMessage eid seq msg) e

/-- If the effect is a datagram, it is a message that is retained, or the GAP of a writer. -/
def Resends (p : RtpsParticipant) (e : Effect) : Prop :=
  ∀ msg addr, e = .send msg addr → (∃ eid seq, p.KeepsMessage eid seq msg) ∨
    ∃ g : Gap, g.writerEntityId ∈ p.writers ∧ g.gapStart.toU64 ≤ g.gapEnd.toU64 ∧
      msg = gapMessage p.header g

/-- `q` is the participant `p` in the course of its receiving or writing. -/
structure Speaking (p q : RtpsParticipant) : Prop where
  steady : Steady p q
  writers : SameWriters p q

variable {samples samples' : Bytes → Prop}

lemma Speaking.refl (p : RtpsParticipant) : Speaking p p := ⟨.refl p, .refl p⟩

lemma Speaking.through (h : Speaking p q) (he : q.Says samples e)
    (himp : ∀ msg, samples msg → samples' msg) : p.Says samples' e := by
  intro msg addr heq
  refine (he msg addr heq).imp (himp msg) fun ⟨m, hm, hmsg⟩ => ⟨m, ?_, ?_⟩
  · refine hm.imp (fun eid => (h.writers.writers_iff eid).mp) fun eid hr => ?_
    rw [mem_readers_iff, ← h.steady.profile_eq, ← mem_readers_iff]
    exact hr
  · rw [hmsg, h.steady.header_eq]

lemma says_of_ne (h : ∀ msg addr, e ≠ .send msg addr) : p.Says samples e :=
  fun msg addr heq => absurd heq (h msg addr)

lemma says_control {m : Submessage} {addr : SocketAddr}
    (hm : Submessage.Control (· ∈ p.writers) (· ∈ p.readers) m) :
    p.Says samples (.send (m.message p.header) addr) := by
  intro msg addr' heq
  cases heq
  exact .inr ⟨m, hm, rfl⟩

lemma says_sample {msg : Bytes} {addr : SocketAddr} (h : samples msg) :
    p.Says samples (.send msg addr) := by
  intro msg' addr' heq
  cases heq
  exact .inl h

/-- What a change of one writer adds to what is kept. -/
lemma KeepsMessage.of_adjust {eid eid' : EntityId} {seq : ℕ} {msg : Bytes}
    {f : WriterState → WriterState} {P : ℕ → Bytes → Prop}
    (hq : q.writers = p.writers.adjust eid' f)
    (hf : ∀ st history, p.writers.lookup eid' = some st → (f st).history = some history →
      history.HasSlot seq msg → (∃ old, st.history = some old ∧ old.HasSlot seq msg) ∨ P seq msg)
    (h : q.KeepsMessage eid seq msg) : p.KeepsMessage eid seq msg ∨ eid = eid' ∧ P seq msg := by
  obtain ⟨st', history, hst', hhistory, hslot⟩ := h
  rw [hq] at hst'
  by_cases heid : eid = eid'
  · subst heid
    rw [Table.lookup_adjust_self] at hst'
    obtain ⟨st, hst, rfl⟩ := Option.map_eq_some_iff.mp hst'
    rcases hf st history hst hhistory hslot with ⟨old, hold, hslot⟩ | hnew
    · exact .inl ⟨st, old, hst, hold, hslot⟩
    · exact .inr ⟨rfl, hnew⟩
  · rw [Table.lookup_adjust_of_ne heid] at hst'
    exact .inl ⟨st', history, hst', hhistory, hslot⟩

/-- Nothing that is received changes what is kept. -/
lemma keepsMessage_receiveInvariant (p : RtpsParticipant) :
    ReceiveInvariant fun q =>
      ∀ eid seq msg, q.KeepsMessage eid seq msg → p.KeepsMessage eid seq msg where
  of_readersOnly h hq' := by
    obtain ⟨_, _, _, _, rfl⟩ := hq'
    exact h
  of_assembler _ h := h
  of_acked eid ackBase h := by
    intro eid' seq msg hkeeps
    refine (hkeeps.of_adjust (f := (advanceAcked · ackBase)) (P := fun _ _ => False) rfl
      fun st history _ hhistory hslot => ?_).elim (h eid' seq msg) fun hnew => hnew.2.elim
    rw [advanceAcked_history] at hhistory
    exact .inl ⟨history, hhistory, hslot⟩

/-! ### Receiving -/

/-- In a contact a reader sends its ACKNACK, if anything. -/
lemma says_contact {source : Guid} {src : SocketAddr}
    {op : RecvTracker → Except Panic Unit × RecvTracker} {lastSn : ℕ} {eid : EntityId}
    {st : ReaderState} (hreader : eid ∈ p.readers) :
    ∀ e ∈ (ReaderState.contact p.header source src op lastSn eid st).out, p.Says samples e := by
  intro e he
  by_cases h : st.Hears p.header.guidPrefix source
  · rw [ReaderState.contact_of_hears h] at he
    rcases hreport : RecvTracker.report op lastSn (st.trackerFor source) with
      ⟨x | ⟨base, bitmap, _ | _⟩, t⟩
    all_goals rw [hreport] at he
    · cases he
    · cases he
    · obtain rfl := List.mem_singleton.mp he
      exact says_control (m := .acknack _) (.acknack hreader)
  · rw [ReaderState.contact_of_not_hears h] at he
    cases he

lemma says_visitReaders_contact {source : Guid} {src : SocketAddr}
    {op : RecvTracker → Except Panic Unit × RecvTracker} {lastSn : ℕ} :
    ∀ e ∈ (visitReaders (ReaderState.contact p.header source src op lastSn) p).out,
      p.Says samples e := by
  intro e he
  obtain ⟨eid, st, hst, he⟩ := Table.mem_out_visit he
  refine says_contact ?_ e he
  rw [← AList.lookup_isSome, hst]
  rfl

/-- Accepting a sample, the readers send their ACKNACKs. -/
lemma says_acceptSample {origin : Origin} {source : Guid} {payload : Bytes} {seq : ℕ} :
    ∀ e ∈ (acceptSample d origin source payload seq p).out, p.Says samples e := by
  intro e he
  have hnotify : ∀ e ∈ (notifyReliableReaders source seq d.src p).out, p.Says samples e :=
    says_visitReaders_contact
  cases hpanic : (notifyReliableReaders source seq d.src p).panic with
  | some x =>
    rw [acceptSample, Cmd.andThen_of_some hpanic] at he
    exact hnotify e he
  | none =>
    rw [acceptSample, Cmd.andThen_of_none hpanic] at he
    rcases List.mem_append.mp he with he | he
    · exact hnotify e he
    · exact says_of_ne (out_dispatchToReaders e he)

/-- The answer to an ACKNACK is samples of the writer, and perhaps a GAP. -/
lemma resends_handleAcknack {an : AckNack} {src : SocketAddr} :
    ∀ e ∈ (handleAcknack an src p).out, p.Resends e := by
  intro e he
  unfold handleAcknack at he
  split at he
  · cases he
  rename_i st hst
  split at he
  · cases he
  split at he
  · cases he
  rename_i history hhistory
  have hwriter : an.writerEntityId ∈ p.writers := by
    rw [← AList.lookup_isSome, hst]
    rfl
  have hresend : ∀ bit, Cmd.Keeps (fun _ : RtpsParticipant => True) p.Resends
      (retransmit history (p.matchedAddrs st.topic) an.base.toU64 bit) := by
    intro bit
    unfold retransmit
    split
    · exact Cmd.keeps_fail _
    split
    · exact Cmd.keeps_skip
    rename_i msg hget
    refine Cmd.keeps_emit fun e he msg' addr' heq => ?_
    obtain ⟨addr, -, rfl⟩ := List.mem_map.mp he
    cases heq
    exact .inl ⟨_, _, st, history, hst, hhistory, SendHistory.hasSlot_of_get hget⟩
  have hgap : Cmd.Keeps (fun _ : RtpsParticipant => True) p.Resends
      (sendGap p.header history an (p.matchedAddrs st.topic) src) := by
    unfold sendGap
    dsimp only
    split
    · exact Cmd.keeps_skip
    rename_i first last hfirst
    split
    · rename_i hlt
      cases hlimit : checkedAdd 64 an.base.toU64 31 with
      | error x => exact Cmd.keeps_fail _
      | ok limit =>
        obtain ⟨hbound, rfl⟩ := checkedAdd_eq_ok.mp hlimit
        refine Cmd.keeps_emit fun e he msg' addr' heq => ?_
        obtain ⟨addr, -, rfl⟩ := List.mem_map.mp he
        cases heq
        refine .inr ⟨_, hwriter, ?_, rfl⟩
        dsimp only
        rw [SequenceNumber.toU64_fromU64 (by omega)]
        split
        · rw [SequenceNumber.toU64_fromU64 hbound]
          omega
        · rw [SequenceNumber.toU64_fromU64 (by omega)]
          omega
    · exact Cmd.keeps_skip
  exact ((Cmd.keeps_modify fun _ _ => trivial).andThen
    ((Cmd.Keeps.forEach fun bit _ => hresend bit).andThen hgap) p trivial).2 e he

lemma Resends.repliesWith (h : p.Resends e) : p.RepliesWith e := by
  intro msg addr heq
  rcases h msg addr heq with hkeeps | ⟨g, hwriter, hle, hmsg⟩
  · exact .inl hkeeps
  · exact .inr ⟨.gap g, .gap hwriter hle, hmsg⟩

/-- **The submessage.** -/
lemma repliesWith_handleSubmessage {guidPrefix : GuidPrefix} {raw : RawSubmessage} :
    ∀ e ∈ (handleSubmessage d guidPrefix raw p).out, p.RepliesWith e := by
  intro e he
  rcases handleSubmessage_cases d guidPrefix raw p with ⟨x, -, heq⟩ | ⟨x, -, heq⟩ | ⟨hnone, -⟩
  · rw [heq] at he
    cases he
  · -- the assembler is no concern of what is sent
    rw [heq] at he
    exact says_acceptSample (p := p.afterArrival d guidPrefix raw) e he
  · unfold handleSubmessage at he
    split at he
    · rename_i hdata
      rw [arrival, if_pos hdata, Except.ok.injEq] at hnone
      rw [handleData_eq, hnone] at he
      cases he
    split at he
    · rename_i hdata hfrag
      rw [arrival, if_neg hdata, if_pos hfrag] at hnone
      cases hdecode : decodeDataFrag raw.body with
      | error x =>
        rw [handleDataFrag, hdecode] at he
        cases he
      | ok frag =>
        rw [hdecode] at hnone
        obtain ⟨o, ho, hfrag⟩ := Except.map_eq_ok.mp hnone
        rw [handleDataFrag_eq hdecode (Prod.ext rfl ho), hfrag] at he
        cases he
    split at he
    · cases hdecode : decodeHeartbeatSubmessage raw.body with
      | error x =>
        rw [hdecode] at he
        cases he
      | ok hb =>
        rw [hdecode] at he
        exact says_visitReaders_contact e he
    split at he
    · cases hdecode : decodeAcknackSubmessage raw.body with
      | error x =>
        rw [hdecode] at he
        cases he
      | ok an =>
        rw [hdecode] at he
        exact (resends_handleAcknack e he).repliesWith
    · cases he

/-- **The datagram.** -/
lemma repliesWith_handleDataPacket : ∀ e ∈ (handleDataPacket d p).out, p.RepliesWith e := by
  have hsub : ∀ (guidPrefix : GuidPrefix) (raw : RawSubmessage),
      Cmd.Keeps (fun q => Speaking p q ∧
        ∀ eid seq msg, q.KeepsMessage eid seq msg → p.KeepsMessage eid seq msg) p.RepliesWith
        (handleSubmessage d guidPrefix raw) := by
    rintro guidPrefix raw q ⟨⟨hsteady, hwriters⟩, hretains⟩
    refine ⟨⟨⟨(keeps_handleSubmessage p d guidPrefix raw q hsteady).1,
      ((sameWriters_receiveInvariant p).keeps_handleSubmessage q hwriters).1⟩,
      ((keepsMessage_receiveInvariant p).keeps_handleSubmessage q hretains).1⟩, fun e he => ?_⟩
    exact (Speaking.mk hsteady hwriters).through (repliesWith_handleSubmessage e he)
      fun msg ⟨eid, seq, h⟩ => ⟨eid, seq, hretains eid seq msg h⟩
  intro e he
  unfold handleDataPacket at he
  split at he
  · cases he
  split at he
  · cases he
  · exact (Cmd.Keeps.forEach (fun raw _ => hsub _ raw) p
      ⟨.refl p, fun _ _ _ h => h⟩).2 e he

/-! ### Writing -/

variable {w : RtpsWriter} {utc : ℤ} {payload : Bytes}

lemma says_sendHeartbeat {eid : EntityId} :
    ∀ e ∈ (sendHeartbeat eid p).out, p.Says samples e := by
  intro e he
  obtain ⟨st, history, first, last, count, dst, hst, -, -, rfl⟩ := out_sendHeartbeat he
  refine says_control (m := .heartbeat _) (.heartbeat ?_)
  rw [← AList.lookup_isSome, hst]
  rfl

lemma mem_sendRemote {topic : String} {msgs : List Bytes}
    (he : e ∈ RtpsWriter.sendRemote p topic msgs) : ∃ msg ∈ msgs, ∃ addr, e = .send msg addr := by
  have hmap : ∀ addr, e ∈ msgs.map (fun msg => Effect.send msg addr) →
      ∃ msg ∈ msgs, ∃ addr, e = .send msg addr := by
    intro addr he
    obtain ⟨msg, hmsg, rfl⟩ := List.mem_map.mp he
    exact ⟨msg, hmsg, addr, rfl⟩
  unfold RtpsWriter.sendRemote at he
  dsimp only at he
  split at he
  · cases he
  split at he
  · exact hmap _ he
  · obtain ⟨locator, -, he⟩ := List.mem_flatMap.mp he
    split at he
    · exact hmap _ he
    · cases he

/-- Publishing sends the messages of the sample and a HEARTBEAT. -/
lemma says_publish {reliable : Bool} {seq : ℕ} {msgs : List Bytes}
    (hq : Speaking p q) :
    ∀ e ∈ (w.publish utc reliable seq payload msgs q).out, p.Says (· ∈ msgs) e := by
  have hremote : Cmd.Keeps (Speaking p) (p.Says (· ∈ msgs))
      (Cmd.emit (RtpsWriter.sendRemote q w.topic msgs) : Cmd RtpsParticipant Effect Panic) := by
    refine Cmd.keeps_emit fun e he => ?_
    obtain ⟨msg, hmsg, addr, rfl⟩ := mem_sendRemote he
    exact says_sample hmsg
  have hheartbeat : Cmd.Keeps (Speaking p) (p.Says (· ∈ msgs)) (sendHeartbeat w.eid) := fun r hr =>
    ⟨⟨(keeps_sendHeartbeat r hr.steady).1, (keeps_sendHeartbeat_sameWriters w.eid r hr.writers).1⟩,
      fun e he => hr.through (says_sendHeartbeat e he) fun _ h => h⟩
  refine ((Cmd.keeps_modify fun r hr => ?_).andThen ((Cmd.keeps_emit fun e he => ?_).andThen
    (Cmd.Keeps.andThen (fun r hr => ?_) (hremote.andThen ?_))) q hq).2
  · exact ⟨hr.steady.trans ⟨rfl, rfl, rfl, rfl⟩,
      hr.writers.trans ⟨rfl, fun _ => Table.mem_adjust⟩⟩
  · split at he
    · obtain rfl := List.mem_singleton.mp he
      exact says_of_ne (by simp)
    · cases he
  · exact ⟨⟨(keeps_dispatchToReaders r hr.steady).1,
      hr.writers.of_readersOnly (readersOnly_dispatchToReaders .write)⟩,
      fun e he => says_of_ne (out_dispatchToReaders e he)⟩
  · split
    · exact hheartbeat
    · exact Cmd.keeps_skip

/-- **The write.** -/
lemma says_write : ∀ e ∈ (w.write utc payload p).out, p.Says (p.Writes w.eid payload) e := by
  intro e he
  unfold RtpsWriter.write at he
  split at he
  · cases he
  rename_i st hst
  dsimp only at he
  split at he
  · cases he
  rename_i seq hseq
  obtain ⟨hlt, rfl⟩ := checkedAdd_eq_ok.mp hseq
  split at he
  · cases he
  rename_i msgs hmsgs
  have hsays : p.Says (· ∈ msgs) e := by
    refine says_publish ?_ e he
    exact ⟨⟨rfl, rfl, rfl, rfl⟩, rfl, fun _ => Table.mem_adjust⟩
  exact (Speaking.refl p).through hsays fun msg hmsg => ⟨st, msgs, hst, hlt, hmsgs, hmsg⟩

/-! ### Both -/

/-- A message that is retained, being the writer's own, is on the data path. -/
lemma KeepsMessage.onDataPath {eid : EntityId} {seq : ℕ} {msg : Bytes}
    (h : p.KeepsMessage eid seq msg) (hown : OwnHistories p.header p) :
    ∃ m, Submessage.OnDataPath (· ∈ p.writers) (· ∈ p.readers) m ∧ msg = m.message p.header := by
  obtain ⟨st, history, hst, hhistory, i, -, hslot⟩ := h
  have hmsg := (hown.own _ _ _ hst hhistory).msg i msg hslot
  refine Submessage.exists_onDataPath_of_ofSample hmsg.ofSample hmsg.1 ?_
  rw [← AList.lookup_isSome, hst]
  rfl

lemma Writes.onDataPath {eid : EntityId} {msg : Bytes} (h : p.Writes eid payload msg) :
    ∃ m, Submessage.OnDataPath (· ∈ p.writers) (· ∈ p.readers) m ∧ msg = m.message p.header := by
  obtain ⟨st, msgs, hst, hlt, hmsgs, hmsg⟩ := h
  refine Submessage.exists_onDataPath_of_ofSample (ofSample_of_mem_wireMessages hmsgs msg hmsg) hlt
    ?_
  rw [← AList.lookup_isSome, hst]
  rfl

end RtpsParticipant

/-! ## Announcements -/

namespace SedpService

/-- An announcement goes to every peer that has an address. -/
lemma mem_announce {s : SedpService} {info : EndpointInfo} {peers : List ParticipantProxy}
    {msg : Bytes} {dst : SocketAddr} :
    (msg, dst) ∈ (s.announce info peers).1 ↔
      msg = endpointMessage s.config info (s.seqCounter + 1) ∧
        ∃ peer ∈ peers, peer.metatrafficUnicast.udpAddr = some dst := by
  rw [announce, List.mem_map]
  constructor
  · rintro ⟨dst', hdst', heq⟩
    obtain ⟨rfl, rfl⟩ := Prod.mk.inj heq
    exact ⟨rfl, List.mem_filterMap.mp hdst'⟩
  · rintro ⟨rfl, hpeer⟩
    exact ⟨dst, List.mem_filterMap.mpr hpeer, rfl⟩

/-- What is announced of several endpoints is what is announced of the first, and then of the
others under later numbers. -/
lemma announceAll_cons (s : SedpService) (info : EndpointInfo) (infos : List EndpointInfo)
    (peers : List ParticipantProxy) :
    (s.announceAll (info :: infos) peers).1 =
      (s.announce info peers).1 ++ ((s.announce info peers).2.announceAll infos peers).1 := by
  have hloop : ∀ (infos : List EndpointInfo) (acc : List (Bytes × SocketAddr)) (s : SedpService),
      (infos.foldl (fun sofar info =>
        (sofar.1 ++ (SedpService.announce sofar.2 info peers).1,
          (SedpService.announce sofar.2 info peers).2)) (acc, s)).1 =
        acc ++ (s.announceAll infos peers).1 := by
    intro infos
    induction infos with
    | nil => exact fun acc s => (List.append_nil acc).symm
    | cons info infos ih =>
      intro acc s
      refine (ih _ _).trans ((List.append_assoc ..).trans (congrArg (acc ++ ·) ?_))
      exact (ih ([] ++ (s.announce info peers).1) _).symm
  exact hloop infos _ _

lemma config_announce (s : SedpService) (info : EndpointInfo) (peers : List ParticipantProxy) :
    (s.announce info peers).2.config = s.config := rfl

/-- Each endpoint is announced to every peer that has an address, and nothing else is sent. -/
lemma mem_announceAll {s : SedpService} {infos : List EndpointInfo}
    {peers : List ParticipantProxy} {msg : Bytes} {dst : SocketAddr}
    (h : (msg, dst) ∈ (s.announceAll infos peers).1) :
    ∃ info ∈ infos, ∃ seqNum, msg = endpointMessage s.config info seqNum ∧
      ∃ peer ∈ peers, peer.metatrafficUnicast.udpAddr = some dst := by
  induction infos generalizing s with
  | nil => cases h
  | cons info infos ih =>
    rw [announceAll_cons] at h
    rcases List.mem_append.mp h with h | h
    · obtain ⟨hmsg, hpeer⟩ := mem_announce.mp h
      exact ⟨info, List.mem_cons_self, _, hmsg, hpeer⟩
    · obtain ⟨info', hinfo', hmsg⟩ := ih h
      exact ⟨info', List.mem_cons_of_mem _ hinfo', hmsg⟩

lemma exists_mem_announceAll (s : SedpService) {info : EndpointInfo} {infos : List EndpointInfo}
    (hinfo : info ∈ infos) {peers : List ParticipantProxy} {peer : ParticipantProxy}
    (hpeer : peer ∈ peers) {dst : SocketAddr}
    (hdst : peer.metatrafficUnicast.udpAddr = some dst) :
    ∃ seqNum, (endpointMessage s.config info seqNum, dst) ∈ (s.announceAll infos peers).1 := by
  induction infos generalizing s with
  | nil => cases hinfo
  | cons info' infos ih =>
    rw [announceAll_cons]
    rcases List.mem_cons.mp hinfo with rfl | hinfo
    · exact ⟨_, List.mem_append_left _ (mem_announce.mpr ⟨rfl, peer, hpeer, hdst⟩)⟩
    · obtain ⟨seqNum, hmem⟩ := ih (s.announce info' peers).2 hinfo
      exact ⟨seqNum, List.mem_append_right _ hmem⟩

end SedpService

lemma RtpsParticipant.mem_announcements {sent : List (Bytes × SocketAddr)} {msg : Bytes}
    {dst : SocketAddr} : .send msg dst ∈ announcements sent ↔ (msg, dst) ∈ sent := by
  rw [announcements, List.mem_map]
  constructor
  · rintro ⟨⟨msg', dst'⟩, hmem, heq⟩
    cases heq
    exact hmem
  · exact fun h => ⟨(msg, dst), h, rfl⟩

/-- Making a reader sends its announcements and nothing else. -/
lemma RtpsParticipant.send_mem_newReaderImpl {p : RtpsParticipant} (h : p.CanNumber)
    {topic : String} {opts : SubscriberOptions} {reliable transientLocal : Bool}
    {knownPeers : List ParticipantProxy} {persisted : Option Bytes} {utc : ℤ} {msg : Bytes}
    {dst : SocketAddr} :
    .send msg dst ∈
        (newReaderImpl topic opts reliable transientLocal knownPeers persisted utc p).out ↔
      (msg, dst) ∈ (p.sedp.registerReader p.nextReaderId topic knownPeers).2.1 := by
  have hpush : ∀ (eid : EntityId) (sample : Sample) (q : RtpsParticipant),
      .send msg dst ∉ (pushTo eid sample q).out := by
    intro eid sample q
    unfold pushTo
    split <;> simp
  have hlast : ∀ (eid : EntityId) (q : RtpsParticipant),
      .send msg dst ∉ (deliverTransientLocal eid topic persisted utc q).out := by
    intro eid q
    unfold deliverTransientLocal
    split
    · exact hpush _ _ _
    split
    · exact hpush _ _ _
    · simp
  rw [newReaderImpl, nextEntityNum_of_canNumber _ h, Cmd.andThen_of_none rfl]
  dsimp only [registerReader]
  rw [List.mem_append, mem_announcements]
  refine or_iff_left ?_
  split
  · exact hlast _ _
  · simp

lemma RtpsParticipant.sedp_newReaderImpl {p : RtpsParticipant} (h : p.CanNumber)
    (topic : String) (opts : SubscriberOptions) (reliable transientLocal : Bool)
    (knownPeers : List ParticipantProxy) (persisted : Option Bytes) (utc : ℤ) :
    (newReaderImpl topic opts reliable transientLocal knownPeers persisted utc p).state.sedp =
      (p.sedp.registerReader p.nextReaderId topic knownPeers).2.2 := by
  let o := newReaderImpl topic opts reliable transientLocal knownPeers persisted utc p
  show o.state.sedp = _
  have ho : o = _ := (nextEntityNum_of_canNumber _ h).trans (Cmd.andThen_of_none rfl)
  rw [ho]
  dsimp only
  split
  · exact (steady_deliverTransientLocal ..).sedp_eq
  · rfl

/-! ## The participant -/

/-- The two sockets that a participant sends from. -/
inductive Socket
  | metatraffic
  | userData
  deriving DecidableEq, Repr

/-- The socket that the datagrams of a step are sent from. -/
def ParticipantEvent.socket : ParticipantEvent → Socket
  | .dataPacket _ => .userData
  | .write .. => .userData
  | _ => .metatraffic

/-- The endpoint that a step is to make. -/
def ParticipantEvent.makes : ParticipantEvent → Option (EndpointKind × String)
  | .newPublisher topic _ => some (.writer, topic)
  | .newSubscriber topic _ _ _ => some (.reader, topic)
  | _ => none

namespace SedpService

/-- The local endpoints of a kind. -/
def locals (s : SedpService) : EndpointKind → Table EntityId EndpointInfo
  | .writer => s.localWriters
  | .reader => s.localReaders

/-- Insert a local endpoint. -/
def insertLocal (s : SedpService) : EndpointKind → EntityId → String → SedpService
  | .writer => s.insertWriter
  | .reader => s.insertReader

lemma locals_insertLocal (s : SedpService) (k k' : EndpointKind) (eid : EntityId)
    (topic : String) : (s.insertLocal k eid topic).locals k' =
      if k' = k then (s.locals k).insert eid (s.localInfo eid topic (k = .writer))
      else s.locals k' := by
  cases k <;> cases k' <;> rfl

end SedpService

namespace RtpsUdpParticipant

variable {s s' : RtpsUdpParticipant} {e : ParticipantEvent} {msg : Bytes} {addr : SocketAddr}
  {k : EndpointKind} {topic : String}

/-- The endpoints a participant announces. -/
def localEndpoints (s : RtpsUdpParticipant) : List EndpointInfo :=
  s.sedp.localWriters.values ++ s.sedp.localReaders.values

lemma mem_localEndpoints {s : RtpsUdpParticipant} {info : EndpointInfo} :
    info ∈ s.localEndpoints ↔ ∃ k eid, (s.sedp.locals k).lookup eid = some info := by
  rw [localEndpoints, List.mem_append, Table.mem_values_iff, Table.mem_values_iff]
  constructor
  · rintro (h | h)
    · exact ⟨.writer, h⟩
    · exact ⟨.reader, h⟩
  · rintro ⟨k, h⟩
    cases k with
    | writer => exact .inl h
    | reader => exact .inr h

/-- The endpoint that the participant makes next, if it makes one of this kind and topic. -/
def nextEndpoint (s : RtpsUdpParticipant) (k : EndpointKind) (topic : String) : EndpointInfo :=
  s.sedp.localInfo (s.inner.nextId k) topic (k = .writer)

/-- The step registers an endpoint and announces it to every known peer. -/
structure Registers (s s' : RtpsUdpParticipant) (out : List Effect) (k : EndpointKind)
    (topic : String) : Prop where
  spdp_eq : s'.spdp = s.spdp
  taken_eq : s'.peersTaken = s.peersTaken
  counter_eq : s'.inner.entityCounter = s.inner.entityCounter + 1
  sedp_eq : ∃ seqCounter,
    s'.sedp = { s.sedp.insertLocal k (s.inner.nextId k) topic with seqCounter }
  send_iff : ∀ msg addr, .send msg addr ∈ out ↔
    msg = endpointMessage s.sedp.config (s.nextEndpoint k topic) (s.sedp.seqCounter + 1) ∧
      ∃ peer ∈ s.spdp.knownPeers, peer.metatrafficUnicast.udpAddr = some addr
  writers : ∀ eid, eid ∈ s'.inner.writers →
    eid ∈ s.inner.writers ∨ eid = entityIdForWriter (s.inner.entityCounter + 1)

/-- A step that is to make an endpoint makes it, unless the topic has no name or the numbers have
run out. -/
lemma registers_step (hmakes : e.makes = some (k, topic)) (htopic : topic ≠ "")
    (hcan : s.inner.CanNumber) : Registers s (s.step e) (handle e s).out k topic := by
  cases e with
  | newPublisher topic qos =>
    cases hmakes
    rw [step, handle, newPublisher, if_neg htopic, onInner, RtpsParticipant.newWriterImpl,
      RtpsParticipant.nextEntityNum_of_canNumber _ hcan]
    refine ⟨rfl, rfl, rfl, ⟨_, rfl⟩,
      fun msg addr => RtpsParticipant.mem_announcements.trans SedpService.mem_announce,
      fun eid heid => ?_⟩
    exact (AList.mem_insert _).mp heid |>.symm
  | newSubscriber topic qos opts utc =>
    cases hmakes
    rw [step, handle, newSubscriber, if_neg htopic]
    obtain ⟨-, -, hcounter, hwriters, -⟩ := RtpsParticipant.newReaderImpl_of_canNumber hcan topic
      opts qos.reliable qos.transientLocal s.spdp.knownPeers none utc
    have hsedp := RtpsParticipant.sedp_newReaderImpl hcan topic opts qos.reliable
      qos.transientLocal s.spdp.knownPeers none utc
    refine ⟨rfl, rfl, hcounter, ⟨_, hsedp⟩, fun msg addr =>
      (RtpsParticipant.send_mem_newReaderImpl hcan).trans SedpService.mem_announce,
      fun eid heid => .inl ?_⟩
    exact hwriters ▸ heid
  | _ => cases hmakes

/-- Else nothing is sent, and at most the counter moves on. -/
lemma step_of_not_registers (hmakes : e.makes = some (k, topic))
    (h : ¬ (topic ≠ "" ∧ s.inner.CanNumber)) :
    (handle e s).out = [] ∧ (s.step e = s ∨
      s.step e =
        { s with inner := { s.inner with entityCounter := s.inner.entityCounter + 1 } }) := by
  cases e with
  | newPublisher topic qos =>
    cases hmakes
    rw [step, handle, newPublisher]
    by_cases htopic : topic = ""
    · rw [if_pos htopic]
      exact ⟨rfl, .inl rfl⟩
    · rw [if_neg htopic, onInner, RtpsParticipant.newWriterImpl,
        RtpsParticipant.nextEntityNum_of_not_canNumber _ fun hcan => h ⟨htopic, hcan⟩]
      exact ⟨rfl, .inr rfl⟩
  | newSubscriber topic qos opts utc =>
    cases hmakes
    rw [step, handle, newSubscriber]
    by_cases htopic : topic = ""
    · rw [if_pos htopic]
      exact ⟨rfl, .inl rfl⟩
    · rw [if_neg htopic, onInner, RtpsParticipant.newReaderImpl,
        RtpsParticipant.nextEntityNum_of_not_canNumber _ fun hcan => h ⟨htopic, hcan⟩]
      exact ⟨rfl, .inr rfl⟩
  | _ => cases hmakes

/-- The endpoint is in its table, and the tables are as they were but for that. -/
lemma Registers.locals_eq {out : List Effect} (h : Registers s s' out k topic)
    (k' : EndpointKind) : s'.sedp.locals k' =
      if k' = k then (s.sedp.locals k).insert (s.inner.nextId k) (s.nextEndpoint k topic)
      else s.sedp.locals k' := by
  obtain ⟨seqCounter, hsedp⟩ := h.sedp_eq
  have hlocals : s'.sedp.locals k' =
      (s.sedp.insertLocal k (s.inner.nextId k) topic).locals k' := by
    rw [hsedp]
    cases k' <;> rfl
  rw [hlocals, SedpService.locals_insertLocal]
  rfl

lemma Registers.mem_localEndpoints {out : List Effect} (h : Registers s s' out k topic) :
    s.nextEndpoint k topic ∈ s'.localEndpoints := by
  refine RtpsUdpParticipant.mem_localEndpoints.mpr ⟨k, s.inner.nextId k, ?_⟩
  rw [h.locals_eq, if_pos rfl, AList.lookup_insert]

/-- The datagram announces a local endpoint of `s'` to a peer that `s` has heard of. -/
def Announces (s s' : RtpsUdpParticipant) (msg : Bytes) (addr : SocketAddr) : Prop :=
  ∃ info ∈ s'.localEndpoints, ∃ seqNum, msg = endpointMessage s.sedp.config info seqNum ∧
    ∃ peer, (peer ∈ s.spdp.knownPeers ∨ peer ∈ s.pendingPeers) ∧
      peer.metatrafficUnicast.udpAddr = some addr

lemma announces_of_makes (hmakes : e.makes = some (k, topic))
    (hsend : .send msg addr ∈ (handle e s).out) : Announces s (s.step e) msg addr := by
  by_cases h : topic ≠ "" ∧ s.inner.CanNumber
  · have hreg := registers_step hmakes h.1 h.2
    obtain ⟨hmsg, peer, hpeer, haddr⟩ := (hreg.send_iff msg addr).mp hsend
    exact ⟨_, hreg.mem_localEndpoints, _, hmsg, peer, .inl hpeer, haddr⟩
  · rw [(step_of_not_registers hmakes h).1] at hsend
    cases hsend

/-- What a step sends from the socket for user data: what carries no sample, a message that is
retained, or one of a sample that is being written. -/
def SendsData (s : RtpsUdpParticipant) (e : ParticipantEvent) (msg : Bytes) : Prop :=
  (∃ m, Submessage.Control (· ∈ s.inner.writers) (· ∈ s.inner.readers) m ∧
      msg = m.message s.inner.header) ∨
    (∃ eid seq, s.inner.KeepsMessage eid seq msg) ∨
      ∃ w utc payload, e = .write w utc payload ∧ s.inner.Writes w.eid payload msg

/-- It belongs on the data path. -/
lemma SendsData.onDataPath (h : s.SendsData e msg)
    (hown : RtpsParticipant.OwnHistories s.inner.header s.inner) :
    ∃ m, Submessage.OnDataPath (· ∈ s.inner.writers) (· ∈ s.inner.readers) m ∧
      msg = m.message s.inner.header := by
  rcases h with ⟨m, hm, hmsg⟩ | ⟨eid, seq, hretains⟩ | ⟨w, utc, payload, -, hwrites⟩
  · exact ⟨m, .control hm, hmsg⟩
  · exact hretains.onDataPath hown
  · exact hwrites.onDataPath

/-- **What a step sends**: announcements from the one socket, and from the other what belongs on
the data path. -/
lemma sends_cases (hsend : .send msg addr ∈ (handle e s).out) :
    e.socket = .metatraffic ∧ Announces s (s.step e) msg addr ∨
      e.socket = .userData ∧ s.SendsData e msg := by
  cases e with
  | spdpPacket | sweep | sedpPacket | unsubscribe => cases hsend
  | takeMatch =>
    rw [handle, takeMatch] at hsend
    split at hsend <;> cases hsend
  | takePeer =>
    refine .inl ⟨rfl, ?_⟩
    rw [handle, takePeer] at hsend
    rw [step, handle, takePeer]
    cases hpending : s.pendingPeers with
    | nil =>
      rw [hpending] at hsend
      cases hsend
    | cons proxy proxies =>
      rw [hpending] at hsend
      obtain ⟨info, hinfo, seqNum, hmsg, peer, hpeer, haddr⟩ :=
        SedpService.mem_announceAll (RtpsParticipant.mem_announcements.mp hsend)
      obtain ⟨n, hn⟩ := SedpService.onNewPeer_eq s.sedp proxy
      refine ⟨info, ?_, seqNum, hmsg, peer, .inr ?_, haddr⟩
      · rw [localEndpoints]
        dsimp only [Cmd.emit_apply, withSedp, sedp] at hn hinfo ⊢
        rw [hn]
        exact hinfo
      · rw [hpending, List.mem_singleton.mp hpeer]
        exact List.mem_cons_self
  | dataPacket d =>
    refine .inr ⟨rfl, ?_⟩
    rcases RtpsParticipant.repliesWith_handleDataPacket _ hsend msg addr rfl with hkeeps |
      hcontrol
    · exact .inr (.inl hkeeps)
    · exact .inl hcontrol
  | newPublisher topic qos => exact .inl ⟨rfl, announces_of_makes rfl hsend⟩
  | newSubscriber topic qos opts utc => exact .inl ⟨rfl, announces_of_makes rfl hsend⟩
  | write w utc payload =>
    refine .inr ⟨rfl, ?_⟩
    rcases RtpsParticipant.says_write _ hsend msg addr rfl with hwrites | hcontrol
    · exact .inr (.inr ⟨w, utc, payload, rfl, hwrites⟩)
    · exact .inl hcontrol

/-- The address of the machine of participant `n`. -/
def ipOf (n : UInt8) : FixedBytes 4 := ⟨[10, 0, 0, n], rfl⟩

/-- Participant 1 hears the announcement of participant 2. -/
def hearsOf2 : ParticipantEvent :=
  .spdpPacket 0 (announcementMessage (ParticipantConfig.numbered 2).guidPrefix vendorIdRustDds 1
    (buildParticipantData (ParticipantConfig.numbered 2).spdp)) (.v4 (ipOf 2) 7410)

end RtpsUdpParticipant

end RustDds
