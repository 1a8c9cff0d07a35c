import RustDds.Rtps.Arrival

/-!
# What the messages of a participant do to another

Every message a participant sends on the data path is one framed submessage.  Handed to another
participant, it is taken apart again: `handleDataPacket_frame` is the framing, and below it there
is one lemma for each kind of message, which says what of the receiver's reactions it sets off.

`OwnMessage` are the messages that a writer keeps for retransmission, the first of each sample.
Whether that is a DATA or a DATA_FRAG, the sample it brings, if any, is the writer's and has the
number it is kept under.
-/

namespace RustDds

/-! ## Kinds of messages -/

/-- The message that carries a HEARTBEAT. -/
def heartbeatMessage (header : Header) (hb : Heartbeat) : Bytes :=
  wrapInRtpsMessage header (encodeHeartbeatSubmessage hb)

/-- The message that carries a GAP. -/
def gapMessage (header : Header) (gap : Gap) : Bytes :=
  wrapInRtpsMessage header (encodeGapSubmessage gap)

/-- The message that carries a sample in one DATA. -/
def dataMessage (header : Header) (eid : EntityId) (seq : ℕ) (payload : Bytes) : Bytes :=
  wrapInRtpsMessage header
    (encodeDataSubmessage eid entityIdUnknown (.fromU64 seq) (wrapPayload payload))

/-- The message that carries a fragment. -/
def fragMessage (header : Header) (frag : DataFrag) : Bytes :=
  wrapInRtpsMessage header (encodeDataFrag frag)

/-- A sample fits one DATA if that is no longer than a fragment may be. -/
def FitsData (payload : Bytes) : Prop := payload.length + 4 ≤ maxFragmentPayload

instance (payload : Bytes) : Decidable (FitsData payload) := by
  unfold FitsData
  infer_instance

lemma wireMessages_of_fits {payload : Bytes} (h : FitsData payload) (header : Header)
    (eid : EntityId) (seq : ℕ) :
    wireMessages header eid seq payload = .ok [dataMessage header eid seq payload] := by
  rw [wireMessages, length_wrapPayload]
  exact if_neg (not_lt.mpr h)

/-- The fragments of a sample that does not fit one DATA. -/
def fragmentsOf (eid : EntityId) (seq : ℕ) (payload : Bytes) : List DataFrag :=
  (List.range ((payload.length + 4) ⌈/⌉ maxFragmentPayload)).map
    (fragmentNumber eid (.fromU64 seq) (wrapPayload payload) maxFragmentPayload)

lemma wireMessages_of_not_fits {payload : Bytes} (h : ¬ FitsData payload)
    (hlen : (payload.length + 4) ⌈/⌉ maxFragmentPayload + 1 < 2 ^ 32) (header : Header)
    (eid : EntityId) (seq : ℕ) :
    wireMessages header eid seq payload =
      .ok ((fragmentsOf eid seq payload).map (fragMessage header)) := by
  have hwrapped : (wrapPayload payload).length ⌈/⌉ maxFragmentPayload + 1 < 2 ^ 32 := by
    rwa [length_wrapPayload]
  have hsplit := @splitIntoFragments_eq eid (.fromU64 seq) (wrapPayload payload) hwrapped
  rw [wireMessages, length_wrapPayload, if_pos (not_le.mp h), hsplit, length_wrapPayload]
  rfl

/-- Every sample has a first message. -/
lemma wireMessages_ne_nil {header : Header} {eid : EntityId} {seq : ℕ} {payload : Bytes}
    {msgs : List Bytes} (h : wireMessages header eid seq payload = .ok msgs) : msgs ≠ [] := by
  rw [wireMessages] at h
  split at h
  · obtain ⟨fs, hsplit, rfl⟩ := Except.map_eq_ok.mp h
    have hpos : 0 < (wrapPayload payload).length := by
      rw [length_wrapPayload]
      omega
    exact fun hnil => splitIntoFragments_ne_nil hpos hsplit (List.map_eq_nil_iff.mp hnil)
  · cases h
    exact List.cons_ne_nil _ _

/-- `m` is the message a writer keeps of its sample `seq`: the first of those it sends. -/
def OwnMessage (header : Header) (eid : EntityId) (seq : ℕ) (m : Bytes) : Prop :=
  seq < 2 ^ 64 ∧ ∃ payload msgs, wireMessages header eid seq payload = .ok msgs ∧
    msgs.head? = some m

/-- What publishing a sample in these messages makes of its writer: the first of them is kept. -/
def WriterState.retain (seq : ℕ) (msgs : List Bytes) (st : WriterState) : WriterState :=
  match msgs.head? with
  | some first => { st with history := st.history.map fun h => h.store seq first }
  | none => st

lemma WriterState.history_retain_cases {seq : ℕ} {msgs : List Bytes} {st : WriterState}
    {history : SendHistory} (h : (st.retain seq msgs).history = some history) :
    st.history = some history ∨ ∃ m old, msgs.head? = some m ∧ st.history = some old ∧
      history = old.store seq m := by
  rw [retain] at h
  cases hhead : msgs.head? with
  | none =>
    rw [hhead] at h
    exact .inl h
  | some m =>
    rw [hhead] at h
    obtain ⟨old, hold, rfl⟩ := Option.map_eq_some_iff.mp h
    exact .inr ⟨m, old, rfl, hold, rfl⟩

/-! ## Receiving one -/

/-- A message of one framed submessage is taken apart into that. -/
lemma submessages_message {header : Header} {submsgId flags : UInt8} {body : Bytes}
    (hpos : 0 < body.length) (hlen : body.length < 2 ^ 16) :
    submessages ((wrapInRtpsMessage header (frame submsgId flags body)).drop 20) =
      [⟨submsgId, flags, body⟩] := by
  have hone := @submessages_frame submsgId flags body [] hpos hlen
  have hnil : submessages [] = [] := submessages_of_length_lt (by decide)
  rw [List.append_nil, hnil] at hone
  rw [drop_wrapInRtpsMessage, hone]

namespace RtpsParticipant

variable {p : RtpsParticipant} {d : Datagram} {header : Header}

@[simp] lemma guidPrefix_header (p : RtpsParticipant) : p.header.guidPrefix = p.guidPrefix := rfl

/-- A message of one framed submessage. -/
lemma handleDataPacket_frame {submsgId flags : UInt8} {body : Bytes}
    (hdata : d.data = wrapInRtpsMessage header (frame submsgId flags body))
    (hforeign : header.guidPrefix ≠ p.guidPrefix) (hpos : 0 < body.length)
    (hlen : body.length < 2 ^ 16) :
    handleDataPacket d p = handleSubmessage d header.guidPrefix ⟨submsgId, flags, body⟩ p := by
  rw [handleDataPacket, hdata, decode_wrapInRtpsMessage]
  dsimp only
  rw [if_neg hforeign, submessages_message hpos hlen, Cmd.forEach_cons, Cmd.forEach_nil,
    Cmd.andThen_skip]

lemma handleDataPacket_heartbeat {hb : Heartbeat} (hdata : d.data = heartbeatMessage header hb)
    (hforeign : header.guidPrefix ≠ p.guidPrefix) :
    handleDataPacket d p =
      handleHeartbeat ⟨header.guidPrefix, hb.writerEntityId⟩ hb d.src p := by
  rw [handleDataPacket_frame hdata hforeign (by simp) (by simp), handleSubmessage,
    if_neg (show submsgHeartbeat ≠ submsgData by decide),
    if_neg (show submsgHeartbeat ≠ submsgDataFrag by decide), if_pos rfl]
  dsimp only
  rw [decodeHeartbeatSubmessage_heartbeatBody]

lemma handleDataPacket_acknack {an : AckNack}
    (hdata : d.data = ReaderState.acknackMessage header an)
    (hforeign : header.guidPrefix ≠ p.guidPrefix) :
    handleDataPacket d p = handleAcknack an d.src p := by
  rw [handleDataPacket_frame hdata hforeign (by simp) (by simp), handleSubmessage,
    if_neg (show submsgAcknack ≠ submsgData by decide),
    if_neg (show submsgAcknack ≠ submsgDataFrag by decide),
    if_neg (show submsgAcknack ≠ submsgHeartbeat by decide), if_pos rfl]
  dsimp only
  rw [decodeAcknackSubmessage_acknackBody]

/-- A GAP is ignored. -/
lemma handleDataPacket_gap {gap : Gap} (hdata : d.data = gapMessage header gap)
    (hforeign : header.guidPrefix ≠ p.guidPrefix) : handleDataPacket d p = Cmd.skip p := by
  rw [handleDataPacket_frame hdata hforeign (by simp) (by simp), handleSubmessage,
    if_neg (show submsgGap ≠ submsgData by decide),
    if_neg (show submsgGap ≠ submsgDataFrag by decide),
    if_neg (show submsgGap ≠ submsgHeartbeat by decide),
    if_neg (show submsgGap ≠ submsgAcknack by decide)]

/-- A DATA is accepted. -/
lemma handleDataPacket_data {eid : EntityId} {seq : ℕ} {payload : Bytes} (hseq : seq < 2 ^ 64)
    (hfits : FitsData payload) (hdata : d.data = dataMessage header eid seq payload)
    (hforeign : header.guidPrefix ≠ p.guidPrefix) :
    handleDataPacket d p = acceptSample d .data ⟨header.guidPrefix, eid⟩ payload seq p := by
  have hlen : payload.length + 4 ≤ 1200 := hfits
  rw [handleDataPacket_frame hdata hforeign (by simp) (by simp; omega), handleSubmessage,
    if_pos rfl, handleData]
  dsimp only
  rw [decodeDataSubmessage_dataBody (wrapPayload_ne_nil payload)]
  dsimp only
  rw [unwrapPayload_wrapPayload]
  dsimp only
  rw [SequenceNumber.toU64_fromU64 hseq]

/-- A fragment goes to the assembler. -/
lemma handleDataPacket_frag {frag : DataFrag} (hlen : frag.payload.length + 32 < 2 ^ 16)
    (hdata : d.data = fragMessage header frag) (hforeign : header.guidPrefix ≠ p.guidPrefix) :
    handleDataPacket d p =
      handleSubmessage d header.guidPrefix ⟨submsgDataFrag, flagEndianness, dataFragBody frag⟩ p :=
  handleDataPacket_frame hdata hforeign (by simp) (by simp; omega)

end RtpsParticipant

/-- What a fragment brings. -/
lemma arrival_frag {now : ℕ} {guidPrefix : GuidPrefix} {flags : UInt8} {frag : DataFrag}
    {frags : FragmentAssembler} :
    arrival now guidPrefix ⟨submsgDataFrag, flags, dataFragBody frag⟩ frags =
      ((frags.receive now frag).1,
        (frags.receive now frag).2.map (fragSample guidPrefix frag)) := by
  rw [arrival, if_neg (show submsgDataFrag ≠ submsgData by decide), if_pos rfl]
  dsimp only
  rw [decodeDataFrag_dataFragBody]

/-! ## The messages of one sample -/

/-- `m` carries the sample `seq` of the writer, or a fragment of it. -/
def OfSample (header : Header) (eid : EntityId) (seq : ℕ) (m : Bytes) : Prop :=
  (∃ payload, FitsData payload ∧ m = dataMessage header eid seq payload) ∨
    ∃ frag : DataFrag, frag.writerEntityId = eid ∧ frag.writerSeqNum = .fromU64 seq ∧
      frag.payload.length ≤ maxFragmentPayload ∧ m = fragMessage header frag

lemma ofSample_of_mem_wireMessages {header : Header} {eid : EntityId} {seq : ℕ} {payload : Bytes}
    {msgs : List Bytes} (h : wireMessages header eid seq payload = .ok msgs) :
    ∀ m ∈ msgs, OfSample header eid seq m := by
  intro m hm
  by_cases hfits : FitsData payload
  · rw [wireMessages_of_fits hfits] at h
    cases h
    exact .inl ⟨payload, hfits, List.mem_singleton.mp hm⟩
  · rw [wireMessages, length_wrapPayload, if_pos (not_le.mp hfits)] at h
    obtain ⟨fs, hsplit, rfl⟩ := Except.map_eq_ok.mp h
    obtain ⟨frag, hfrag, rfl⟩ := List.mem_map.mp hm
    obtain ⟨hwriter, hsn, hlen⟩ := mem_splitIntoFragments hsplit frag hfrag
    exact .inr ⟨frag, hwriter, hsn, hlen, rfl⟩

/-- What a writer keeps is of its sample. -/
lemma OwnMessage.ofSample {header : Header} {eid : EntityId} {seq : ℕ} {m : Bytes}
    (h : OwnMessage header eid seq m) : OfSample header eid seq m := by
  obtain ⟨-, payload, msgs, hmsgs, hhead⟩ := h
  exact ofSample_of_mem_wireMessages hmsgs m (List.mem_of_head? hhead)

/-- It is one submessage, and not a HEARTBEAT. -/
lemma OfSample.submessages_eq {header : Header} {eid : EntityId} {seq : ℕ} {m : Bytes}
    (h : OfSample header eid seq m) :
    ∃ raw, submessages (m.drop 20) = [raw] ∧ raw.id ≠ submsgHeartbeat := by
  rcases h with ⟨payload, hfits, rfl⟩ | ⟨frag, -, -, hlen, rfl⟩
  · have hlen : payload.length + 4 ≤ 1200 := hfits
    exact ⟨_, submessages_message (by simp) (by simp; omega),
      show submsgData ≠ submsgHeartbeat by decide⟩
  · rw [maxFragmentPayload] at hlen
    exact ⟨_, submessages_message (by simp) (by simp; omega),
      show submsgDataFrag ≠ submsgHeartbeat by decide⟩

namespace RtpsParticipant

variable {q : RtpsParticipant} {d : Datagram} {header : Header} {eid : EntityId} {seq : ℕ}

/-- A fragment only changes the assembler, or what it completes is accepted as the sample. -/
lemma handleDataPacket_fragOf {frag : DataFrag} (hseq : seq < 2 ^ 64)
    (hwriter : frag.writerEntityId = eid) (hsn : frag.writerSeqNum = .fromU64 seq)
    (hlen : frag.payload.length ≤ maxFragmentPayload) (hdata : d.data = fragMessage header frag)
    (hforeign : header.guidPrefix ≠ q.guidPrefix) :
    let frags := (q.fragAssembler.receive d.now frag).1
    ((handleDataPacket d q).state = { q with fragAssembler := frags } ∧
        (handleDataPacket d q).out = []) ∨
      ∃ b payload, (q.fragAssembler.receive d.now frag).2 = .ok (some b) ∧
        unwrapPayload b = .ok payload ∧
        handleDataPacket d q = acceptSample d .dataFrag ⟨header.guidPrefix, eid⟩ payload seq
          { q with fragAssembler := frags } := by
  rw [maxFragmentPayload] at hlen
  rw [handleDataPacket_frag (by omega) hdata hforeign, handleSubmessage,
    if_neg (show submsgDataFrag ≠ submsgData by decide), if_pos rfl]
  have hdecode := decodeDataFrag_dataFragBody frag
  rcases hreceive : q.fragAssembler.receive d.now frag with ⟨frags, e | o⟩
  · rw [handleDataFrag_of_error hdecode hreceive]
    exact .inl ⟨rfl, rfl⟩
  · rw [handleDataFrag_eq hdecode hreceive]
    cases o with
    | none => exact .inl ⟨rfl, rfl⟩
    | some b =>
      rw [fragSample]
      cases hunwrap : unwrapPayload b with
      | error e => exact .inl ⟨rfl, rfl⟩
      | ok payload =>
        refine .inr ⟨b, payload, rfl, hunwrap, ?_⟩
        dsimp only [acceptSome]
        rw [hwriter, hsn, SequenceNumber.toU64_fromU64 hseq]

/-- A message of a sample only changes the assembler, or a sample is accepted under the number. -/
lemma handleDataPacket_ofSample (h : OfSample header eid seq d.data) (hseq : seq < 2 ^ 64)
    (hforeign : header.guidPrefix ≠ q.guidPrefix) : ∃ frags : FragmentAssembler,
    ((handleDataPacket d q).state = { q with fragAssembler := frags } ∧
        (handleDataPacket d q).out = []) ∨
      ∃ origin payload, handleDataPacket d q = acceptSample d origin ⟨header.guidPrefix, eid⟩
        payload seq { q with fragAssembler := frags } := by
  rcases h with ⟨payload, hfits, hdata⟩ | ⟨frag, hwriter, hsn, hlen, hdata⟩
  · exact ⟨q.fragAssembler, .inr ⟨.data, payload,
      handleDataPacket_data hseq hfits hdata hforeign⟩⟩
  · rcases handleDataPacket_fragOf hseq hwriter hsn hlen hdata hforeign with hnone |
      ⟨b, payload, -, -, haccept⟩
    · exact ⟨_, .inl hnone⟩
    · exact ⟨_, .inr ⟨.dataFrag, payload, haccept⟩⟩

end RtpsParticipant

end RustDds
