import RustDds.Network.Outgoing
import RustDds.Reassembly.RoundTrip

/-!
# The samples written

A sample is written when a writer gives it its number.  What the participant does with it then is
to send its messages, and to keep the first of them (`keepsMessage_step`).  A receiver makes of
such a message the sample, or it adds a fragment of the sample to those it has
(`handleDataPacket_carriedBy`).

The assembler knows a sample by the entity id of its writer and the lower half of its number.
That says which sample is meant as long as the samples written are `Unambiguous`.
-/

namespace RustDds

/-- A sample that a writer was given, under the number it got. -/
structure Written where
  guid : Guid
  seq : ℕ
  payload : Bytes
  deriving DecidableEq

/-- A sample whose size can be told in 32 bits can be sent. -/
lemma wireMessages_of_fragments {payload : Bytes} (hlen : payload.length + 4 < 2 ^ 32)
    (hnot : ¬ FitsData payload) (header : Header) (eid : EntityId) (seq : ℕ) :
    wireMessages header eid seq payload =
      .ok ((fragmentsOf eid seq payload).map (fragMessage header)) := by
  have hle : (payload.length + 4) ⌈/⌉ maxFragmentPayload ≤ 2 ^ 22 := by
    refine (ceilDiv_le_iff_le_mul (by decide)).mpr ?_
    rw [maxFragmentPayload]
    omega
  exact wireMessages_of_not_fits hnot (by omega) ..

namespace Written

/-- The message carries the sample, or a fragment of it. -/
def CarriedBy (header : Header) (x : Written) (msg : Bytes) : Prop :=
  x.seq < 2 ^ 64 ∧ ∃ msgs, wireMessages header x.guid.entity x.seq x.payload = .ok msgs ∧
    msg ∈ msgs

lemma CarriedBy.decode {header : Header} {x : Written} {msg : Bytes} (h : x.CarriedBy header msg) :
    Header.decode msg = .ok header := by
  obtain ⟨hseq, msgs, hmsgs, hmem⟩ := h
  have hone : ∃ m, Submessage.OnDataPath (fun _ => True) (fun _ => True) m ∧
      msg = m.message header :=
    Submessage.exists_onDataPath_of_ofSample (ofSample_of_mem_wireMessages hmsgs msg hmem) hseq
      trivial
  obtain ⟨m, -, rfl⟩ := hone
  exact Submessage.decode_message header m

/-- What its fragments are filed under. -/
def key (x : Written) : FragKey := sampleKey x.guid.entity x.seq

/-- Its fragment `k`, if it is sent in fragments. -/
def fragment (x : Written) (k : ℕ) : DataFrag := fragmentOf x.guid.entity x.seq x.payload k

lemma CarriedBy.exists_fragment {header : Header} {x : Written} {msg : Bytes}
    (h : x.CarriedBy header msg) (hlen : x.payload.length + 4 < 2 ^ 32)
    (hnot : ¬ FitsData x.payload) :
    ∃ k < pieceCount (wrapPayload x.payload), msg = fragMessage header (x.fragment k) := by
  obtain ⟨-, msgs, hmsgs, hmem⟩ := h
  rw [wireMessages_of_fragments hlen hnot] at hmsgs
  cases hmsgs
  obtain ⟨f, hf, rfl⟩ := List.mem_map.mp hmem
  rw [← piecesOf_wrapPayload] at hf
  obtain ⟨k, hk, rfl⟩ := mem_piecesOf.mp hf
  exact ⟨k, hk, rfl⟩

end Written

/-- No two of the samples that are sent in fragments have the same key, and the size of each can
be told in 32 bits. -/
structure Unambiguous (log : List Written) : Prop where
  length_lt : ∀ x ∈ log, x.payload.length + 4 < 2 ^ 32
  key_inj : ∀ x ∈ log, ∀ y ∈ log, ¬ FitsData x.payload → ¬ FitsData y.payload →
    x.key = y.key → x = y

lemma Unambiguous.of_subset {log log' : List Written} (h : Unambiguous log') (hsub : log ⊆ log') :
    Unambiguous log :=
  ⟨fun x hx => h.length_lt x (hsub hx), fun x hx y hy => h.key_inj x (hsub hx) y (hsub hy)⟩

/-! ## Writing -/

namespace RtpsParticipant

variable {p q : RtpsParticipant} {eid : EntityId} {seq : ℕ} {msg : Bytes}

lemma KeepsMessage.of_readersOnly (h : q.KeepsMessage eid seq msg) (hq : ReadersOnly p q) :
    p.KeepsMessage eid seq msg := by
  obtain ⟨_, _, _, _, rfl⟩ := hq
  exact h

/-- Sending a HEARTBEAT counts it, and changes nothing of what is kept. -/
lemma keepsMessage_sendHeartbeat {eid' : EntityId}
    (h : (sendHeartbeat eid' q).state.KeepsMessage eid seq msg) : q.KeepsMessage eid seq msg := by
  unfold sendHeartbeat at h
  split at h
  · exact h
  rename_i st hst
  split at h
  · exact h
  rename_i history hhistory
  split at h
  · exact h
  refine (h.of_adjust (f := ({ · with history := some history.nextHbCount.2 }))
    (P := fun _ _ => False) rfl fun st' history' hst' hhistory' hslot => ?_).elim id
      fun hnew => hnew.2.elim
  cases hst.symm.trans hst'
  cases hhistory'
  exact .inl ⟨history, hhistory, hslot⟩

/-- Publishing keeps the first message. -/
lemma keepsMessage_publish {w : RtpsWriter} {utc : ℤ} {reliable : Bool} {seq' : ℕ}
    {payload : Bytes} {msgs : List Bytes}
    (h : (w.publish utc reliable seq' payload msgs q).state.KeepsMessage eid seq msg) :
    q.KeepsMessage eid seq msg ∨ eid = w.eid ∧ seq = seq' ∧ msgs.head? = some msg := by
  let I (r : RtpsParticipant) : Prop := ∀ eid seq msg, r.KeepsMessage eid seq msg →
    q.KeepsMessage eid seq msg ∨ eid = w.eid ∧ seq = seq' ∧ msgs.head? = some msg
  have hkeeps : Cmd.Keeps I (fun _ => True) (w.publish utc reliable seq' payload msgs) := by
    intro r hr
    unfold RtpsWriter.publish
    refine (Cmd.keeps_modify fun r hr => ?_).andThen ((Cmd.keeps_emit fun _ _ => trivial).andThen
      (Cmd.Keeps.andThen (fun r hr => ⟨fun eid seq msg hk => hr eid seq msg
        (hk.of_readersOnly (readersOnly_dispatchToReaders .write)), fun _ _ => trivial⟩)
        ((Cmd.keeps_emit fun _ _ => trivial).andThen ?_))) r hr
    · intro eid seq msg hkeeps
      refine (hkeeps.of_adjust (f := WriterState.retain seq' msgs)
        (P := fun seq msg => seq = seq' ∧ msgs.head? = some msg) rfl
        fun st history _ hhistory hslot => ?_).elim (hr eid seq msg) .inr
      rcases WriterState.history_retain_cases hhistory with hsame | ⟨m, old, hhead, hold, rfl⟩
      · exact .inl ⟨history, hsame, hslot⟩
      · rcases hslot.of_store with hslot | ⟨rfl, rfl⟩
        · exact .inl ⟨old, hold, hslot⟩
        · exact .inr ⟨rfl, hhead⟩
    · split
      · exact fun r hr => ⟨fun eid seq msg hk => hr eid seq msg (keepsMessage_sendHeartbeat hk),
          fun _ _ => trivial⟩
      · exact Cmd.keeps_skip
  exact (hkeeps q fun _ _ _ h => .inl h).1 eid seq msg h

/-- **Writing** keeps the first message of the sample. -/
lemma keepsMessage_write {w : RtpsWriter} {utc : ℤ} {payload : Bytes}
    (h : (w.write utc payload p).state.KeepsMessage eid seq msg) :
    p.KeepsMessage eid seq msg ∨ eid = w.eid ∧ ∃ st, p.writers.lookup w.eid = some st ∧
      seq = st.seq + 1 ∧ seq < 2 ^ 64 ∧
        ∃ msgs, wireMessages p.header w.eid seq payload = .ok msgs ∧ msgs.head? = some msg := by
  have hnumber : ∀ {q : RtpsParticipant} {n : ℕ},
      q.writers = p.writers.adjust w.eid ({ · with seq := n }) → q.KeepsMessage eid seq msg →
        p.KeepsMessage eid seq msg := fun hq hkeeps =>
    (hkeeps.of_adjust (P := fun _ _ => False) hq fun st history _ hhistory hslot =>
      .inl ⟨history, hhistory, hslot⟩).elim id fun hnew => hnew.2.elim
  unfold RtpsWriter.write at h
  split at h
  · exact .inl h
  rename_i st hst
  dsimp only at h
  split at h
  · exact .inl (hnumber rfl h)
  rename_i seq' hseq
  obtain ⟨hlt, rfl⟩ := checkedAdd_eq_ok.mp hseq
  split at h
  · exact .inl (hnumber rfl h)
  rename_i msgs hmsgs
  rcases keepsMessage_publish h with hold | ⟨heid, rfl, hhead⟩
  · exact .inl (hnumber rfl hold)
  · exact .inr ⟨heid, st, hst, rfl, hlt, msgs, hmsgs, hhead⟩

/-! ## Registering -/

/-- A new writer keeps nothing. -/
lemma keepsMessage_newWriterImpl {topic : String} {reliable : Bool}
    {knownPeers : List ParticipantProxy}
    (h : (newWriterImpl topic reliable knownPeers p).state.KeepsMessage eid seq msg) :
    p.KeepsMessage eid seq msg := by
  by_cases hcan : p.CanNumber
  · rw [newWriterImpl, nextEntityNum_of_canNumber _ hcan] at h
    obtain ⟨st, history, hst, hhistory, hslot⟩ := h
    rcases Table.lookup_insert_eq_some.mp hst with ⟨-, rfl⟩ | ⟨-, hold⟩
    · cases reliable with
      | false => cases hhistory
      | true =>
        cases hhistory
        exact absurd hslot (SendHistory.not_hasSlot_new seq msg)
    · exact ⟨st, history, hold, hhistory, hslot⟩
  · rw [newWriterImpl, nextEntityNum_of_not_canNumber _ hcan] at h
    exact h

lemma keepsMessage_newReaderImpl {topic : String} {opts : SubscriberOptions}
    {reliable transientLocal : Bool} {knownPeers : List ParticipantProxy}
    {persisted : Option Bytes} {utc : ℤ}
    (h : (newReaderImpl topic opts reliable transientLocal knownPeers persisted utc
      p).state.KeepsMessage eid seq msg) : p.KeepsMessage eid seq msg := by
  by_cases hcan : p.CanNumber
  · obtain ⟨-, -, -, hwriters, -⟩ := newReaderImpl_of_canNumber hcan topic opts reliable
      transientLocal knownPeers persisted utc
    rw [KeepsMessage, hwriters] at h
    exact h
  · rw [newReaderImpl, nextEntityNum_of_not_canNumber _ hcan] at h
    exact h

end RtpsParticipant

namespace RtpsUdpParticipant

variable {s : RtpsUdpParticipant} {e : ParticipantEvent} {eid : EntityId} {seq : ℕ} {msg : Bytes}

/-- The sample that a step writes. -/
def written (s : RtpsUdpParticipant) : ParticipantEvent → List Written
  | .write w _ payload =>
    match s.inner.writers.lookup w.eid with
    | none => []
    | some st =>
      if st.seq + 1 < 2 ^ 64 then [⟨⟨s.inner.guidPrefix, w.eid⟩, st.seq + 1, payload⟩] else []
  | _ => []

lemma written_write {w : RtpsWriter} {st : WriterState}
    (hst : s.inner.writers.lookup w.eid = some st) (hlt : st.seq + 1 < 2 ^ 64) (utc : ℤ)
    (payload : Bytes) :
    s.written (.write w utc payload) = [⟨⟨s.inner.guidPrefix, w.eid⟩, st.seq + 1, payload⟩] := by
  rw [written, hst]
  exact if_pos hlt

/-- What is written has the next number of its writer. -/
lemma written_cases {x : Written} (hx : x ∈ s.written e) : ∃ w utc payload st,
    e = .write w utc payload ∧ s.inner.writers.lookup w.eid = some st ∧ st.seq + 1 < 2 ^ 64 ∧
      x = ⟨⟨s.inner.guidPrefix, w.eid⟩, st.seq + 1, payload⟩ := by
  cases e with
  | write w utc payload =>
    rw [written] at hx
    split at hx
    · cases hx
    rename_i st hst
    split at hx
    · rename_i hlt
      exact ⟨w, utc, payload, st, rfl, hst, hlt, List.mem_singleton.mp hx⟩
    · cases hx
  | _ => cases hx

/-- The sample is the participant's own. -/
lemma guidPrefix_of_mem_written {x : Written} (hx : x ∈ s.written e) :
    x.guid.guidPrefix = s.inner.guidPrefix := by
  obtain ⟨w, utc, payload, st, -, -, -, rfl⟩ := written_cases hx
  rfl

/-- A message sent in writing is of the sample written. -/
lemma exists_written_of_writes {w : RtpsWriter} {utc : ℤ} {payload : Bytes}
    (h : s.inner.Writes w.eid payload msg) :
    ∃ x ∈ s.written (.write w utc payload), x.CarriedBy s.inner.header msg := by
  obtain ⟨st, msgs, hst, hlt, hmsgs, hmsg⟩ := h
  refine ⟨⟨⟨s.inner.guidPrefix, w.eid⟩, st.seq + 1, payload⟩, ?_, hlt, msgs, hmsgs, hmsg⟩
  rw [written_write hst hlt]
  exact List.mem_singleton.mpr rfl

/-- **The step**: what a writer keeps it kept before, or it carries the sample just written. -/
lemma keepsMessage_step (h : (s.step e).inner.KeepsMessage eid seq msg) :
    s.inner.KeepsMessage eid seq msg ∨
      ∃ x ∈ s.written e, x.guid.entity = eid ∧ x.CarriedBy s.inner.header msg := by
  cases e with
  | write w utc payload =>
    refine (RtpsParticipant.keepsMessage_write h).imp_right ?_
    rintro ⟨rfl, st, hst, rfl, hlt, msgs, hmsgs, hhead⟩
    refine ⟨⟨⟨s.inner.guidPrefix, w.eid⟩, st.seq + 1, payload⟩, ?_, rfl, hlt, msgs, hmsgs,
      List.mem_of_head? hhead⟩
    rw [written_write hst hlt]
    exact List.mem_singleton.mpr rfl
  | dataPacket d =>
    exact .inl (((RtpsParticipant.keepsMessage_receiveInvariant s.inner).keeps_handleDataPacket
      s.inner fun _ _ _ h => h).1 eid seq msg h)
  | takeMatch =>
    rw [step, handle, takeMatch] at h
    split at h <;> exact .inl h
  | takePeer =>
    rw [step, handle, takePeer] at h
    split at h <;> exact .inl h
  | newPublisher topic qos =>
    rw [step, handle, newPublisher] at h
    split at h
    · exact .inl h
    · exact .inl (RtpsParticipant.keepsMessage_newWriterImpl h)
  | newSubscriber topic qos opts utc =>
    rw [step, handle, newSubscriber] at h
    split at h
    · exact .inl h
    · exact .inl (RtpsParticipant.keepsMessage_newReaderImpl h)
  | _ => exact .inl h

end RtpsUdpParticipant

/-! ## Reassembling -/

namespace RtpsParticipant

variable {p q r : RtpsParticipant}

/-- `q` has the fragments that `p` has, and sends to the group that `p` sends to. -/
structure SameTransport (p q : RtpsParticipant) : Prop where
  fragAssembler_eq : q.fragAssembler = p.fragAssembler
  group_eq : q.userDataMulticastAddr = p.userDataMulticastAddr

namespace SameTransport

lemma refl (p : RtpsParticipant) : SameTransport p p := ⟨rfl, rfl⟩

lemma trans (h : SameTransport p q) (h' : SameTransport q r) : SameTransport p r :=
  ⟨h'.fragAssembler_eq.trans h.fragAssembler_eq, h'.group_eq.trans h.group_eq⟩

end SameTransport

lemma ReadersOnly.sameTransport (h : ReadersOnly p q) : SameTransport p q := by
  obtain ⟨_, _, _, _, rfl⟩ := h
  exact ⟨rfl, rfl⟩

lemma sameTransport_sendHeartbeat (eid : EntityId) (p : RtpsParticipant) :
    SameTransport p (sendHeartbeat eid p).state := by
  unfold sendHeartbeat
  split
  · exact .refl p
  split
  · exact .refl p
  split
  · exact .refl p
  · exact ⟨rfl, rfl⟩

lemma sameTransport_write (w : RtpsWriter) (utc : ℤ) (payload : Bytes) (p : RtpsParticipant) :
    SameTransport p (w.write utc payload p).state := by
  have hpublish : ∀ (reliable : Bool) (seq : ℕ) (msgs : List Bytes) (q : RtpsParticipant),
      SameTransport p q → SameTransport p (w.publish utc reliable seq payload msgs q).state := by
    intro reliable seq msgs q hq
    have hkeeps : Cmd.Keeps (SameTransport p) (fun _ => True)
        (w.publish utc reliable seq payload msgs) := by
      intro r hr
      unfold RtpsWriter.publish
      refine (Cmd.keeps_modify fun r hr => ?_).andThen ((Cmd.keeps_emit fun _ _ => trivial).andThen
        (Cmd.Keeps.andThen (fun r hr => ⟨?_, fun _ _ => trivial⟩)
          ((Cmd.keeps_emit fun _ _ => trivial).andThen ?_))) r hr
      · exact SameTransport.trans hr ⟨rfl, rfl⟩
      · exact SameTransport.trans hr
          (ReadersOnly.sameTransport (readersOnly_dispatchToReaders .write))
      · split
        · exact fun r hr => ⟨SameTransport.trans hr (sameTransport_sendHeartbeat _ r),
            fun _ _ => trivial⟩
        · exact Cmd.keeps_skip
    exact (hkeeps q hq).1
  unfold RtpsWriter.write
  split
  · exact .refl p
  dsimp only
  split
  · exact ⟨rfl, rfl⟩
  split
  · exact ⟨rfl, rfl⟩
  · exact hpublish _ _ _ _ ⟨rfl, rfl⟩

lemma sameTransport_newReaderImpl (topic : String) (opts : SubscriberOptions)
    (reliable transientLocal : Bool) (knownPeers : List ParticipantProxy)
    (persisted : Option Bytes) (utc : ℤ) (p : RtpsParticipant) :
    SameTransport p (newReaderImpl topic opts reliable transientLocal knownPeers persisted utc
      p).state := by
  have hpush : ∀ (eid : EntityId) (sample : Sample) (q : RtpsParticipant), SameTransport p q →
      SameTransport p (pushTo eid sample q).state := by
    intro eid sample q hq
    unfold pushTo
    split
    · exact hq
    · exact ⟨hq.fragAssembler_eq, hq.group_eq⟩
  have hlast : ∀ (eid : EntityId) (q : RtpsParticipant), SameTransport p q →
      SameTransport p (deliverTransientLocal eid topic persisted utc q).state := by
    intro eid q hq
    unfold deliverTransientLocal
    split
    · exact hpush _ _ _ hq
    split
    · exact hpush _ _ _ ⟨hq.fragAssembler_eq, hq.group_eq⟩
    · exact hq
  by_cases hcan : p.CanNumber
  · rw [newReaderImpl, nextEntityNum_of_canNumber _ hcan, Cmd.andThen_of_none rfl]
    dsimp only
    split
    · exact hlast _ _ ⟨rfl, rfl⟩
    · exact ⟨rfl, rfl⟩
  · rw [newReaderImpl, nextEntityNum_of_not_canNumber _ hcan]
    exact ⟨rfl, rfl⟩

end RtpsParticipant

namespace RtpsUdpParticipant

/-- Only what arrives is reassembled. -/
lemma sameTransport_step (s : RtpsUdpParticipant) {e : ParticipantEvent}
    (he : ∀ d, e ≠ .dataPacket d) : s.inner.SameTransport (s.step e).inner := by
  cases e with
  | dataPacket d => exact absurd rfl (he d)
  | write w utc payload => exact RtpsParticipant.sameTransport_write w utc payload s.inner
  | takeMatch =>
    rw [step, handle, takeMatch]
    split <;> exact ⟨rfl, rfl⟩
  | takePeer =>
    rw [step, handle, takePeer]
    split <;> exact ⟨rfl, rfl⟩
  | newPublisher topic qos =>
    rw [step, handle, newPublisher]
    split
    · exact ⟨rfl, rfl⟩
    by_cases hcan : s.inner.CanNumber
    · rw [onInner, RtpsParticipant.newWriterImpl,
        RtpsParticipant.nextEntityNum_of_canNumber _ hcan]
      exact ⟨rfl, rfl⟩
    · rw [onInner, RtpsParticipant.newWriterImpl,
        RtpsParticipant.nextEntityNum_of_not_canNumber _ hcan]
      exact ⟨rfl, rfl⟩
  | newSubscriber topic qos opts utc =>
    rw [step, handle, newSubscriber]
    split
    · exact ⟨rfl, rfl⟩
    · exact RtpsParticipant.sameTransport_newReaderImpl ..
  | _ => exact ⟨rfl, rfl⟩

/-- The group never changes. -/
lemma group_step (s : RtpsUdpParticipant) (e : ParticipantEvent) :
    (s.step e).inner.userDataMulticastAddr = s.inner.userDataMulticastAddr := by
  cases e with
  | dataPacket d =>
    have hinvariant : RtpsParticipant.ReceiveInvariant fun q =>
        q.userDataMulticastAddr = s.inner.userDataMulticastAddr := by
      refine ⟨fun hq hreaders => ?_, fun _ hq => hq, fun _ _ hq => hq⟩
      exact (RtpsParticipant.ReadersOnly.sameTransport hreaders).group_eq.trans hq
    exact (hinvariant.keeps_handleDataPacket s.inner rfl).1
  | _ => exact (s.sameTransport_step (by simp)).group_eq

end RtpsUdpParticipant

namespace FragmentAssembler

variable {log log' : List Written} {x : Written} {frags : FragmentAssembler}

/-- Each reassembly in progress is of a sample written. -/
def Assembles (log : List Written) (frags : FragmentAssembler) : Prop :=
  ∀ key b, frags.lookup key = some b → ∃ x ∈ log, ¬ FitsData x.payload ∧ x.key = key ∧
    ∃ S, Fills x.guid.entity (.fromU64 x.seq) (wrapPayload x.payload) S b

lemma Assembles.of_subset (h : frags.Assembles log) (hsub : log ⊆ log') :
    frags.Assembles log' := by
  intro key b hb
  obtain ⟨x, hx, hx'⟩ := h key b hb
  exact ⟨x, hsub hx, hx'⟩

lemma Assembles.sweep (h : frags.Assembles log) (now : ℕ) : (frags.sweep now).Assembles log := by
  intro key b hb
  rw [lookup_sweep] at hb
  exact h key b (Option.filter_eq_some_iff.mp hb).1

/-- The buffer of a sample's key, if there is one, has fragments of that sample. -/
lemma Assembles.fills (h : frags.Assembles log) (hlog : Unambiguous log) (hx : x ∈ log)
    (hnot : ¬ FitsData x.payload) {b : FragBuffer} (hb : frags.lookup x.key = some b) :
    ∃ S, Fills x.guid.entity (.fromU64 x.seq) (wrapPayload x.payload) S b := by
  obtain ⟨y, hy, hynot, hkey, hfills⟩ := h x.key b hb
  rw [hlog.key_inj x hx y hy hnot hynot hkey.symm]
  exact hfills

/-- The assembler has the fragment `k` of the sample, and not yet all of them. -/
def Holds (frags : FragmentAssembler) (x : Written) (k : ℕ) : Prop :=
  ∃ b S, frags.lookup x.key = some b ∧
    Fills x.guid.entity (.fromU64 x.seq) (wrapPayload x.payload) S b ∧ k ∈ S ∧
      S.card < pieceCount (wrapPayload x.payload)

/-- No reassembly for the writer id is too old. -/
def Timely (eid : EntityId) (now : ℕ) (frags : FragmentAssembler) : Prop :=
  ∀ seqLo b, frags.lookup ⟨eid, seqLo⟩ = some b → now ≤ b.created + staleFragAge

/-- Some fragment is missing. -/
lemma exists_not_holds (x : Written) (frags : FragmentAssembler) :
    ∃ k < pieceCount (wrapPayload x.payload), ¬ frags.Holds x k := by
  by_contra hall
  push Not at hall
  have hpos : 0 < pieceCount (wrapPayload x.payload) := by
    rw [lt_pieceCount_iff, length_wrapPayload]
    omega
  obtain ⟨b, S, hb, hS, -, hcard⟩ := hall 0 hpos
  have hsub : Finset.range (pieceCount (wrapPayload x.payload)) ⊆ S := by
    intro k hk
    obtain ⟨b', S', hb', hS', hmem, -⟩ := hall k (Finset.mem_range.mp hk)
    cases hb.symm.trans hb'
    rwa [← hS.indices_eq, hS'.indices_eq]
  have hle := Finset.card_le_card hsub
  rw [Finset.card_range] at hle
  exact absurd hcard (not_lt.mpr hle)

/-- A fragment under another key leaves those of the sample alone while they are not too old. -/
lemma Holds.receive_of_ne {k now : ℕ} {f : DataFrag} (h : frags.Holds x k) (hkey : f.key ≠ x.key)
    (htimely : frags.Timely x.guid.entity now) : (frags.receive now f).1.Holds x k := by
  by_cases hrej : f.Rejected
  · rw [receive_of_rejected hrej]
    exact h
  obtain ⟨b, S, hb, hrest⟩ := h
  refine ⟨b, S, ?_, hrest⟩
  rw [lookup_receive_of_ne hrej (Ne.symm hkey)]
  exact lookup_sweep_of_le hb (htimely _ b hb)

section
variable {k : ℕ} {f : DataFrag} (h : frags.Assembles log) (hlog : Unambiguous log) (hx : x ∈ log)
  (hnot : ¬ FitsData x.payload) (hk : k < pieceCount (wrapPayload x.payload)) (now : ℕ)
  (hf : f = pieceOf x.guid.entity (.fromU64 x.seq) (wrapPayload x.payload) k)
include h hlog hx hnot hk hf

/-- The buffer of a fragment that is not turned away has other fragments of the sample: all those
there are, if they are not too old. -/
lemma Assembles.fills_bufferFor (hrej : ¬ f.Rejected) :
    (wrapPayload x.payload).length ≤ maxReassemblyBytes ∧
      ∃ S, Fills x.guid.entity (.fromU64 x.seq) (wrapPayload x.payload) S
        (frags.bufferFor now f) ∧
          (frags.Timely x.guid.entity now → ∀ k', frags.Holds x k' → k' ∈ S) := by
  have hkey : f.key = x.key := hf ▸ rfl
  have hlen : (wrapPayload x.payload).length ≤ maxReassemblyBytes := by
    have hsize : f.dataSize.toNat = (wrapPayload x.payload).length := by
      rw [hf]
      refine UInt32.toNat_ofNat_of_lt' ?_
      rw [length_wrapPayload]
      exact hlog.length_lt x hx
    rw [← hsize]
    exact DataFrag.dataSize_le hrej
  refine ⟨hlen, ?_⟩
  rw [bufferFor, hkey]
  cases hb : (frags.sweep now).lookup x.key with
  | none =>
    rw [hf]
    refine ⟨∅, fills_fresh hlen hk now, fun htimely k' hholds => ?_⟩
    obtain ⟨b, S, hb', -⟩ := hholds
    rw [lookup_sweep_of_le hb' (htimely _ b hb')] at hb
    cases hb
  | some b =>
    obtain ⟨S, hS⟩ := (h.sweep now).fills hlog hx hnot hb
    refine ⟨S, hS, fun htimely k' hholds => ?_⟩
    obtain ⟨b', S', hb', hS', hmem, -⟩ := hholds
    cases hb.symm.trans (lookup_sweep_of_le hb' (htimely _ b' hb'))
    rwa [← hS.indices_eq, hS'.indices_eq]

/-- **A fragment of a sample written** is added to others of that sample, and what it completes is
that sample. -/
lemma Assembles.receive : (frags.receive now f).1.Assembles log ∧
    ∃ r, (frags.receive now f).2 = .ok r ∧
      ∀ data, r = some data → data = wrapPayload x.payload := by
  by_cases hrej : f.Rejected
  · rw [receive_of_rejected hrej]
    exact ⟨h, none, rfl, fun data hdata => by cases hdata⟩
  have hkey : f.key = x.key := hf ▸ rfl
  obtain ⟨hlen, S, hS, -⟩ := h.fills_bufferFor hlog hx hnot hk now hf hrej
  obtain ⟨hfits, hfill⟩ := hS.insert hlen hk
  rw [← hf] at hfits hfill
  refine ⟨fun key b hb => ?_, ?_⟩
  · by_cases heq : key = f.key
    · subst heq
      rw [lookup_receive_self hrej hb]
      exact ⟨x, hx, hnot, hkey.symm, _, hfill⟩
    · rw [lookup_receive_of_ne hrej heq] at hb
      exact h.sweep now key b hb
  · rcases receive_cases now frags hrej with ⟨hno, -⟩ | ⟨-, hdone, hrec⟩ | ⟨-, -, hrec⟩
    · exact absurd hfits hno
    · rw [hrec]
      refine ⟨_, rfl, fun data hdata => ?_⟩
      cases hdata
      rw [hfill.total_eq hlen, hfill.received_eq] at hdone
      exact hfill.data_eq hlen hdone
    · rw [hrec]
      exact ⟨_, rfl, fun data hdata => by cases hdata⟩

/-- Unless it completes the sample, it is held with those that were. -/
lemma Assembles.holds_receive (hlen : x.payload.length + 4 ≤ maxReassemblyBytes)
    (htimely : frags.Timely x.guid.entity now) (hwait : (frags.receive now f).2 = .ok none) :
    (frags.receive now f).1.Holds x k ∧
      ∀ k', frags.Holds x k' → (frags.receive now f).1.Holds x k' := by
  have hkey : f.key = x.key := hf ▸ rfl
  have hrej : ¬ f.Rejected := by
    rw [hf]
    exact not_rejected_pieceOf (by rw [length_wrapPayload]; exact hlen) hk
  obtain ⟨hlen', S, hS, hall⟩ := h.fills_bufferFor hlog hx hnot hk now hf hrej
  obtain ⟨hfits, hfill⟩ := hS.insert hlen' hk
  rw [← hf] at hfits hfill
  rcases receive_cases now frags hrej with ⟨hno, -⟩ | ⟨-, -, hrec⟩ | ⟨-, hless, hrec⟩
  · exact absurd hfits hno
  · rw [hrec] at hwait
    cases hwait
  · rw [hfill.total_eq hlen', hfill.received_eq] at hless
    have hholds : ∀ k' ∈ insert k S, (frags.receive now f).1.Holds x k' := by
      intro k' hk'
      rw [hrec, hkey]
      exact ⟨_, _, AList.lookup_insert _, hfill, hk', hless⟩
    exact ⟨hholds k (Finset.mem_insert_self k S), fun k' hk' =>
      hholds k' (Finset.mem_insert_of_mem (hall htimely k' hk'))⟩

end

end FragmentAssembler

/-! ## Receiving -/

namespace RtpsParticipant

variable {q : RtpsParticipant} {d : Datagram} {header : Header} {log : List Written} {x : Written}

/-- What accepting a sample pushes is that sample. -/
lemma push_acceptSample {origin : Origin} {source : Guid} {payload : Bytes} {seq : ℕ}
    (hseq : seq < 2 ^ 64) {r : EntityId} {sample : Sample} {accepted : Bool}
    (h : .push r sample accepted ∈ (acceptSample d origin source payload seq q).out) :
    sample.payload = payload ∧ sample.sequenceNumber = seq ∧
      sample.writerGuid = source.toBytes := by
  have hmem : sample ∈ pushesTo r (acceptSample d origin source payload seq q).out :=
    List.mem_filterMap.mpr ⟨_, h, if_pos rfl⟩
  by_cases hpush : q.NotifyOk source seq ∧ q.Accepts r source
  · obtain ⟨hok, st, hst, hacc⟩ := hpush
    rw [pushesTo_acceptSample hseq hok hst, if_pos hacc, List.mem_singleton] at hmem
    rw [hmem]
    exact ⟨rfl, rfl, rfl⟩
  · rw [pushesTo_acceptSample_of_not hseq hpush] at hmem
    cases hmem

/-- A message of one submessage. -/
lemma handleDataPacket_message {m : Submessage} (hdata : d.data = m.message header)
    (hlen : m.raw.body.length < 2 ^ 16) (hforeign : header.guidPrefix ≠ q.guidPrefix) :
    handleDataPacket d q = handleSubmessage d header.guidPrefix m.raw q := by
  rw [handleDataPacket, hdata, Submessage.decode_message]
  dsimp only
  rw [if_neg hforeign, Submessage.submessages_message hlen, Cmd.forEach_cons, Cmd.forEach_nil,
    Cmd.andThen_skip]

/-- A participant ignores its own messages. -/
lemma handleDataPacket_own (hdecode : Header.decode d.data = .ok header)
    (hown : header.guidPrefix = q.guidPrefix) : handleDataPacket d q = Cmd.skip q := by
  rw [handleDataPacket, hdecode]
  exact if_pos hown

/-- A message of a sample that is sent in one piece is that sample. -/
lemma handleDataPacket_whole (hguid : x.guid.guidPrefix = header.guidPrefix)
    (hmsg : x.CarriedBy header d.data) (hfits : FitsData x.payload)
    (hforeign : header.guidPrefix ≠ q.guidPrefix) :
    handleDataPacket d q = acceptSample d .data x.guid x.payload x.seq q := by
  obtain ⟨hseq, msgs, hmsgs, hmem⟩ := hmsg
  rw [wireMessages_of_fits hfits] at hmsgs
  cases hmsgs
  rw [handleDataPacket_data hseq hfits (List.mem_singleton.mp hmem) hforeign, ← hguid]

/-- A fragment of a sample written: the assembler is given it, and what it completes is
accepted. -/
lemma handleDataPacket_fragment (hlog : Unambiguous log) (hx : x ∈ log) (hseq : x.seq < 2 ^ 64)
    (hguid : x.guid.guidPrefix = header.guidPrefix) (hnot : ¬ FitsData x.payload) {k : ℕ}
    (hk : k < pieceCount (wrapPayload x.payload))
    (hmsg : d.data = fragMessage header (x.fragment k))
    (hforeign : header.guidPrefix ≠ q.guidPrefix) (hq : q.fragAssembler.Assembles log) :
    let after := q.fragAssembler.receive d.now (x.fragment k)
    after.2 = .ok none ∧ handleDataPacket d q = ⟨{ q with fragAssembler := after.1 }, [], none⟩ ∨
      handleDataPacket d q =
        acceptSample d .dataFrag x.guid x.payload x.seq { q with fragAssembler := after.1 } := by
  intro after
  obtain ⟨-, r, hreceive, hwhole⟩ := hq.receive hlog hx hnot hk d.now rfl
  have hpiece : (x.fragment k).payload.length ≤ maxFragmentPayload := by
    rw [Written.fragment, length_payload_fragmentOf, Tiling.cellEnd, Tiling.cellStart,
      maxFragmentPayload]
    omega
  rw [maxFragmentPayload] at hpiece
  rw [handleDataPacket_frag (by omega) hmsg hforeign, handleSubmessage,
    if_neg (show submsgDataFrag ≠ submsgData by decide), if_pos rfl,
    handleDataFrag_eq (decodeDataFrag_dataFragBody _) (Prod.ext rfl hreceive)]
  cases r with
  | none => exact .inl ⟨hreceive, rfl⟩
  | some data =>
    rw [hwhole data rfl, fragSample, unwrapPayload_wrapPayload]
    refine .inr ?_
    show acceptSample d .dataFrag ⟨header.guidPrefix, x.guid.entity⟩ x.payload
      (SequenceNumber.fromU64 x.seq).toU64 _ = _
    rw [← hguid, SequenceNumber.toU64_fromU64 hseq]
    rfl

/-- **A message of a sample written**: the sample is accepted, or a fragment of it joins those
that are there. -/
lemma handleDataPacket_carriedBy (hlog : Unambiguous log) (hx : x ∈ log)
    (hguid : x.guid.guidPrefix = header.guidPrefix) (hmsg : x.CarriedBy header d.data)
    (hforeign : header.guidPrefix ≠ q.guidPrefix) (hq : q.fragAssembler.Assembles log) :
    ∃ frags : FragmentAssembler, frags.Assembles log ∧
      (handleDataPacket d q = ⟨{ q with fragAssembler := frags }, [], none⟩ ∨
        ∃ origin, handleDataPacket d q =
          acceptSample d origin x.guid x.payload x.seq { q with fragAssembler := frags }) := by
  by_cases hfits : FitsData x.payload
  · exact ⟨_, hq, .inr ⟨.data, handleDataPacket_whole hguid hmsg hfits hforeign⟩⟩
  obtain ⟨k, hk, hfrag⟩ := hmsg.exists_fragment (hlog.length_lt x hx) hfits
  refine ⟨_, (hq.receive hlog hx hfits hk d.now rfl).1, ?_⟩
  exact (handleDataPacket_fragment hlog hx hmsg.1 hguid hfits hk hfrag hforeign hq).imp And.right
    fun h => ⟨.dataFrag, h⟩

/-- What carries no sample brings none. -/
lemma handleDataPacket_control {writers readers : EntityId → Prop} {m : Submessage}
    (hm : Submessage.Control writers readers m) (hdata : d.data = m.message header)
    (hforeign : header.guidPrefix ≠ q.guidPrefix) :
    (handleDataPacket d q).state.fragAssembler = q.fragAssembler ∧
      ∀ r sample accepted, .push r sample accepted ∉ (handleDataPacket d q).out := by
  have hid : m.raw.id ≠ submsgData ∧ m.raw.id ≠ submsgDataFrag := by
    cases hm <;> exact ⟨by simp [Submessage.raw]; decide, by simp [Submessage.raw]; decide⟩
  have ha : arrival d.now header.guidPrefix m.raw q.fragAssembler =
      (q.fragAssembler, .ok none) := by
    rw [arrival, if_neg hid.1, if_neg hid.2]
  rw [handleDataPacket_message hdata hm.length_body hforeign]
  rcases handleSubmessage_cases d header.guidPrefix m.raw q with ⟨e, he, -⟩ | ⟨x, hx, -⟩ | ⟨-, h⟩
  · rw [ha] at he
    cases he
  · rw [ha] at hx
    cases hx
  · rw [afterArrival_of_same ha] at h
    refine ⟨h.assembler, fun r sample accepted hpush => ?_⟩
    obtain ⟨msg, addr, heq⟩ := h.sends _ hpush
    cases heq

/-- A DATA of a writer brings a sample of that writer, if any. -/
lemma handleDataPacket_dataOf {writer reader : EntityId} {sn : SequenceNumber} {payload : Bytes}
    (hne : payload ≠ []) (hlen : payload.length + 20 < 2 ^ 16)
    (hdata : d.data = (Submessage.data writer reader sn payload).message header)
    (hforeign : header.guidPrefix ≠ q.guidPrefix) :
    (handleDataPacket d q).state.fragAssembler = q.fragAssembler ∧
      ∀ r sample accepted, .push r sample accepted ∈ (handleDataPacket d q).out →
        sample.writerGuid = Guid.toBytes ⟨header.guidPrefix, writer⟩ := by
  have ha : arrival d.now header.guidPrefix (Submessage.data writer reader sn payload).raw
      q.fragAssembler = (q.fragAssembler,
        .ok (dataSample header.guidPrefix (Submessage.data writer reader sn payload).raw)) :=
    if_pos rfl
  have hsource : ∀ x, dataSample header.guidPrefix (Submessage.data writer reader sn payload).raw =
      some x → x.source = ⟨header.guidPrefix, writer⟩ := by
    intro x hx
    rw [dataSample, Submessage.raw, decodeDataSubmessage_dataBody hne] at hx
    dsimp only at hx
    split at hx
    · cases hx
    · cases hx
      rfl
  rw [handleDataPacket_message hdata (by rw [Submessage.raw, length_dataBody]; omega) hforeign]
  rcases handleSubmessage_cases d header.guidPrefix (Submessage.data writer reader sn payload).raw
    q with ⟨e, he, -⟩ | ⟨x, hx, h⟩ | ⟨-, h⟩
  · rw [ha] at he
    cases he
  · have hseq := (arrival_eq_some hx).1
    rw [ha] at hx
    rw [h, (readersOnly_acceptSample hseq).fragAssembler_eq, afterArrival_of_same ha]
    refine ⟨rfl, fun r sample accepted hpush => ?_⟩
    rw [(push_acceptSample hseq hpush).2.2, hsource x (Except.ok.inj hx)]
  · rw [afterArrival_of_same ha] at h
    refine ⟨h.assembler, fun r sample accepted hpush => ?_⟩
    obtain ⟨msg, addr, heq⟩ := h.sends _ hpush
    cases heq

end RtpsParticipant

end RustDds
