import RustDds.Reliability.Round
import RustDds.Reliability.Sending
import RustDds.Reliability.Transfer

/-!
# How many copies of a sample a reader gets

One write, nothing of which is lost or doubled on the way: the datagrams that reach the sockets of
a remote participant are those sent there, each once, in any order (`DeliveredOnce`).  The
participant hands a sample that has become whole to each of its matched readers, so one set of
messages makes one copy for each of them (`oneCopy_of_handedOnce`).

On the multicast group there is one set.  On the unicast path there is one for every matched reader
of the participant, so the two agree exactly if no other reader shares the locator
(`copiesOnce_iff`).
-/

namespace RustDds

/-- The queue of the reader is handed one sample, the one that was written. -/
def OneCopy (r : EntityId) (source : Guid) (seq : ℕ) (payload : Bytes) (out : List Effect) : Prop :=
  ∃ sample, pushesTo r out = [sample] ∧ sample.writerGuid = source.toBytes ∧
    sample.sequenceNumber = seq ∧ sample.payload = payload

/-- The datagrams carry the messages, each once and in any order, within the time that fragments
are held. -/
structure DeliveredOnce (msgs : List Bytes) (ds : List Datagram) : Prop where
  perm : (ds.map Datagram.data).Perm msgs
  timely : ds.Pairwise fun d d' => d'.now ≤ d.now + staleFragAge

/-- A message that a write sends: one of the sample, or a HEARTBEAT. -/
def OfWrite (header : Header) (eid : EntityId) (seq last : ℕ) (m : Bytes) : Prop :=
  OfSample header eid seq m ∨ IsHeartbeat header eid last m

namespace RtpsParticipant

variable {q : RtpsParticipant} {d : Datagram} {header : Header} {eid r : EntityId} {source : Guid}
  {seq last : ℕ} {payload : Bytes} {ds : List Datagram}

/-! ### Receiving a message of a write -/

/-- A participant with a reader that expects the sample `seq` of a writer. -/
structure Expects (q : RtpsParticipant) (source : Guid) (r : EntityId) (seq last : ℕ) : Prop where
  foreign : source.guidPrefix ≠ q.guidPrefix
  accepts : q.Accepts r source
  follows : q.Follows source last
  fresh : q.HasNoFragmentOf source.entity seq

/-- The trackers stay in order. -/
lemma Follows.ofWrite (h : q.Follows ⟨header.guidPrefix, eid⟩ last)
    (hm : OfWrite header eid seq last d.data) (hseq : seq ≤ last) (hlast : last < 2 ^ 64 - 64)
    (hforeign : header.guidPrefix ≠ q.guidPrefix) :
    (handleDataPacket d q).state.Follows ⟨header.guidPrefix, eid⟩ last := by
  rcases hm with hsample | ⟨hb, hwriter, hfirst, hend, hdata⟩
  · obtain ⟨frags, ⟨hstate, -⟩ | ⟨origin, payload, haccept⟩⟩ :=
      handleDataPacket_ofSample hsample (by omega) hforeign
    · rw [hstate]
      exact h
    · rw [haccept]
      intro r t ht
      have hfollows : ({ q with fragAssembler := frags } : RtpsParticipant).Follows
        ⟨header.guidPrefix, eid⟩ last := h
      obtain ⟨t₀, -, hrecords⟩ := (tracksTo_acceptSample hfollows hlast hseq).2 r t ht
      exact hrecords.within
  · rw [handleDataPacket_heartbeat hdata hforeign, hwriter]
    intro r t ht
    obtain ⟨t₀, -, hwithin, -⟩ := (handleHeartbeat_step h hlast hfirst hend).2.2 r t ht
    exact hwithin

/-- A message that dispatches nothing of the sample hands no queue anything. -/
lemma pushesTo_ofWrite (hm : OfWrite header eid seq last d.data) (hseq : seq < 2 ^ 64)
    (hforeign : header.guidPrefix ≠ q.guidPrefix)
    (hnone : dispatchesOf ⟨header.guidPrefix, eid⟩ seq (handleDataPacket d q).out = []) :
    pushesTo r (handleDataPacket d q).out = [] := by
  rcases hm with hsample | ⟨hb, hwriter, -, -, hdata⟩
  · obtain ⟨frags, ⟨-, hout⟩ | ⟨origin, payload, haccept⟩⟩ :=
      handleDataPacket_ofSample hsample hseq hforeign
    · rw [hout, pushesTo_nil]
    · rw [haccept] at hnone ⊢
      refine pushesTo_acceptSample_of_not hseq fun h => ?_
      rw [dispatchesOf, dispatches_acceptSample hseq h.1] at hnone
      simp at hnone
  · rw [handleDataPacket_heartbeat hdata hforeign]
    exact pushesTo_of_sends out_handleHeartbeat r

/-- **The trackers** after any messages of a write. -/
lemma Follows.receiveAll (h : q.Follows ⟨header.guidPrefix, eid⟩ last)
    (hds : ∀ d ∈ ds, OfWrite header eid seq last d.data) (hseq : seq ≤ last)
    (hlast : last < 2 ^ 64 - 64) (hforeign : header.guidPrefix ≠ q.guidPrefix) :
    (receiveAll ds q).state.Follows ⟨header.guidPrefix, eid⟩ last := by
  induction ds generalizing q with
  | nil => exact h
  | cons d ds ih =>
    have hown : (handleDataPacket d q).state.guidPrefix = q.guidPrefix :=
      (keeps_handleDataPacket q d).1.guidPrefix_eq
    exact ih (h.ofWrite (hds d List.mem_cons_self) hseq hlast hforeign)
      (fun d' hd' => hds d' (List.mem_cons_of_mem _ hd')) (hown ▸ hforeign)

/-- **The queues** after messages that dispatch nothing of the sample. -/
lemma pushesTo_receiveAll_ofWrite (hds : ∀ d ∈ ds, OfWrite header eid seq last d.data)
    (hseq : seq < 2 ^ 64) (hforeign : header.guidPrefix ≠ q.guidPrefix)
    (hnone : dispatchesOf ⟨header.guidPrefix, eid⟩ seq (receiveAll ds q).out = []) :
    pushesTo r (receiveAll ds q).out = [] := by
  induction ds generalizing q with
  | nil => rfl
  | cons d ds ih =>
    rw [RtpsParticipant.receiveAll, Cmd.calls_cons] at hnone ⊢
    dsimp only at hnone ⊢
    rw [dispatchesOf_append, List.append_eq_nil_iff] at hnone
    have hown : (handleDataPacket d q).state.guidPrefix = q.guidPrefix :=
      (keeps_handleDataPacket q d).1.guidPrefix_eq
    rw [pushesTo_append, pushesTo_ofWrite (hds d List.mem_cons_self) hseq hforeign hnone.1]
    exact ih (fun d' hd' => hds d' (List.mem_cons_of_mem _ hd')) (hown ▸ hforeign) hnone.2

end RtpsParticipant

/-! ### The order of arrival -/

section
variable {source : Guid} {header : Header} {eid : EntityId} {seq last : ℕ} {ds : List Datagram}
  {msgs ms : List Bytes}

/-- A HEARTBEAT brings nothing of a sample. -/
lemma spares_of_heartbeat {d : Datagram} {hb : Heartbeat}
    (hdata : d.data = heartbeatMessage header hb) : d.Spares source seq := by
  have hone : submessages (d.data.drop 20) =
      [⟨submsgHeartbeat, flagEndianness, heartbeatBody hb⟩] := by
    rw [hdata]
    exact submessages_message (by simp) (by simp)
  constructor
  · intro header' raw x _ hraw hid _
    rw [hone, List.mem_singleton] at hraw
    rw [hraw] at hid
    exact absurd hid (show submsgHeartbeat ≠ submsgData by decide)
  · intro raw frag hraw hid _
    rw [hone, List.mem_singleton] at hraw
    rw [hraw] at hid
    exact absurd hid (show submsgHeartbeat ≠ submsgDataFrag by decide)

lemma OfSample.ne_heartbeat {m : Bytes} (h : OfSample header eid seq m) (header' : Header)
    (hb : Heartbeat) : m ≠ heartbeatMessage header' hb := by
  rintro rfl
  obtain ⟨raw, hraw, hid⟩ := h.submessages_eq
  rw [heartbeatMessage, encodeHeartbeatSubmessage, submessages_message (by simp) (by simp),
    List.singleton_inj] at hraw
  exact hid (hraw ▸ rfl)

/-- Datagrams that carry the messages among others that bring nothing of the sample. -/
lemma carries_filter (h : ∀ d ∈ ds, d.data ∈ msgs ∨ d.Spares source seq) :
    Carries source seq ds ((ds.map Datagram.data).filter (· ∈ msgs)) := by
  induction ds with
  | nil => exact .nil
  | cons d ds ih =>
    have hrest := ih fun d' hd' => h d' (List.mem_cons_of_mem _ hd')
    rw [List.map_cons]
    by_cases hmem : d.data ∈ msgs
    · rw [List.filter_cons_of_pos (by simpa using hmem)]
      exact .message hrest
    · rw [List.filter_cons_of_neg (by simpa using hmem)]
      exact .other ((h d List.mem_cons_self).resolve_left hmem) hrest

/-- The last of the messages, and what comes before and after it. -/
lemma Carries.exists_last (h : Carries source seq ds ms) (hne : ms ≠ []) :
    ∃ pre last post ms', ds = pre ++ last :: post ∧ Carries source seq pre ms' ∧
      ms = ms' ++ [last.data] ∧ ∀ d ∈ post, d.Spares source seq := by
  induction h with
  | nil => exact absurd rfl hne
  | @other d ds ms hd h ih =>
    obtain ⟨pre, last, post, ms', rfl, hpre, rfl, hpost⟩ := ih hne
    exact ⟨d :: pre, last, post, ms', rfl, .other hd hpre, rfl, hpost⟩
  | @message d ds ms h ih =>
    by_cases hnil : ms = []
    · exact ⟨[], d, ds, [], rfl, .nil, by rw [hnil]; rfl,
        RtpsParticipant.spares_of_carries_nil h hnil⟩
    · obtain ⟨pre, last, post, ms', rfl, hpre, rfl, hpost⟩ := ih hnil
      exact ⟨d :: pre, last, post, d.data :: ms', rfl, .message hpre, rfl, hpost⟩

/-- What a write sends, delivered once: its messages are handed over once, and the rest are
HEARTBEATs. -/
lemma DeliveredOnce.exists_handedOnce {hbs : List Bytes} (source : Guid)
    (h : DeliveredOnce (msgs ++ hbs) ds) (hmsgs : ∀ m ∈ msgs, OfSample header eid seq m)
    (hne : msgs ≠ []) (hhbs : ∀ m ∈ hbs, IsHeartbeat header eid last m) :
    (∀ d ∈ ds, OfWrite header eid seq last d.data) ∧
      ∃ pre d post, ds = pre ++ d :: post ∧ HandedOnce source seq msgs pre d post := by
  have hdata : ∀ d ∈ ds, d.data ∈ msgs ∨ d.data ∈ hbs := fun d hd =>
    List.mem_append.mp (h.perm.mem_iff.mp (List.mem_map_of_mem hd))
  refine ⟨fun d hd => (hdata d hd).imp (hmsgs _) (hhbs _), ?_⟩
  have hcarries : Carries source seq ds ((ds.map Datagram.data).filter (· ∈ msgs)) := by
    refine carries_filter fun d hd => (hdata d hd).imp_right fun hmem => ?_
    obtain ⟨hb, -, -, -, heq⟩ := hhbs _ hmem
    exact spares_of_heartbeat heq
  -- of what is sent, these are the messages of the sample
  have hfilter : ((ds.map Datagram.data).filter (· ∈ msgs)).Perm msgs := by
    have hperm := h.perm.filter (· ∈ msgs)
    have hself : msgs.filter (· ∈ msgs) = msgs := List.filter_eq_self.mpr (by simp)
    have hnone : hbs.filter (· ∈ msgs) = [] := by
      refine List.filter_eq_nil_iff.mpr fun m hm hmem => ?_
      obtain ⟨hb, -, -, -, heq⟩ := hhbs m hm
      exact (hmsgs m (of_decide_eq_true hmem)).ne_heartbeat header hb heq
    rwa [List.filter_append, hself, hnone, List.append_nil] at hperm
  have hfilled : (ds.map Datagram.data).filter (· ∈ msgs) ≠ [] := fun hnil =>
    hne (List.nil_perm.mp (hnil ▸ hfilter))
  obtain ⟨pre, d, post, ms', rfl, hpre, hms, hpost⟩ := hcarries.exists_last hfilled
  refine ⟨pre, d, post, rfl, ⟨ms', hpre, hms ▸ hfilter⟩, h.timely.sublist ?_, hpost⟩
  exact List.Sublist.append_left (List.singleton_sublist.mpr List.mem_cons_self) _

end

namespace RtpsParticipant

variable {p q : RtpsParticipant} {eid r : EntityId} {seq last : ℕ} {payload : Bytes}
  {msgs : List Bytes} {ds pre post : List Datagram} {d : Datagram}

/-! ### One set of messages -/

/-- A sample that can be reassembled can be put into messages. -/
lemma exists_wireMessages (header : Header) (eid : EntityId) (seq : ℕ)
    (hlen : payload.length + 4 ≤ maxReassemblyBytes) :
    ∃ msgs, wireMessages header eid seq payload = .ok msgs := by
  by_cases hfits : FitsData payload
  · exact ⟨_, wireMessages_of_fits hfits ..⟩
  · exact ⟨_, wireMessages_of_not_fits hfits (fragmentCount_lt hlen) ..⟩

/-- The messages of a sample, handed over once, have it accepted once. -/
lemma exists_accepted (hseq : seq < 2 ^ 64) (hlen : payload.length + 4 ≤ maxReassemblyBytes)
    (hmsgs : wireMessages p.header eid seq payload = .ok msgs)
    (hforeign : p.guidPrefix ≠ q.guidPrefix) (hfresh : q.HasNoFragmentOf eid seq)
    (h : HandedOnce ⟨p.guidPrefix, eid⟩ seq msgs pre d post) :
    dispatchesOf ⟨p.guidPrefix, eid⟩ seq (receiveAll pre q).out = [] ∧
      ∃ origin fragAssembler, handleDataPacket d (receiveAll pre q).state =
        acceptSample d origin ⟨p.guidPrefix, eid⟩ payload seq
          { (receiveAll pre q).state with fragAssembler } := by
  by_cases hfits : FitsData payload
  · rw [wireMessages_of_fits hfits, Except.ok.injEq] at hmsgs
    subst hmsgs
    obtain ⟨hnone, haccept⟩ := accepted_of_fits hseq hfits hforeign h
    exact ⟨hnone, .data, _, haccept⟩
  · have hcount : fragmentCount payload + 1 < 2 ^ 32 := fragmentCount_lt hlen
    rw [wireMessages_of_not_fits hfits hcount, Except.ok.injEq] at hmsgs
    subst hmsgs
    obtain ⟨hnone, fragAssembler, -, haccept⟩ := accepted_of_not_fits hseq hlen hforeign hfresh h
    exact ⟨hnone, .dataFrag, fragAssembler, haccept⟩

/-- **One copy.**  A write of which each message arrives once hands the reader one sample. -/
lemma oneCopy_of_deliveredOnce {hbs : List Bytes} (hseq : seq ≤ last) (hlast : last < 2 ^ 64 - 64)
    (hlen : payload.length + 4 ≤ maxReassemblyBytes)
    (hmsgs : wireMessages p.header eid seq payload = .ok msgs)
    (hhbs : ∀ m ∈ hbs, IsHeartbeat p.header eid last m)
    (hq : q.Expects ⟨p.guidPrefix, eid⟩ r seq last) (h : DeliveredOnce (msgs ++ hbs) ds) :
    OneCopy r ⟨p.guidPrefix, eid⟩ seq payload (receiveAll ds q).out := by
  obtain ⟨hall, pre, d, post, rfl, hhanded⟩ := h.exists_handedOnce ⟨p.guidPrefix, eid⟩
    (ofSample_of_mem_wireMessages hmsgs) (wireMessages_ne_nil hmsgs) hhbs
  obtain ⟨hnone, origin, frags, haccept⟩ :=
    exists_accepted (by omega) hlen hmsgs hq.foreign hq.fresh hhanded
  have hpre : ∀ d' ∈ pre, OfWrite p.header eid seq last d'.data :=
    fun d' hd' => hall d' (List.mem_append_left _ hd')
  have hmem : ∀ d' ∈ d :: post, OfWrite p.header eid seq last d'.data :=
    fun d' hd' => hall d' (List.mem_append_right _ hd')
  -- before the last message nothing is handed over
  have hpushes : pushesTo r (receiveAll pre q).out = [] :=
    pushesTo_receiveAll_ofWrite hpre (by omega) hq.foreign hnone
  have hfollows := hq.follows.receiveAll hpre hseq hlast hq.foreign
  have hsteady : Steady q (receiveAll pre q).state := steady_receiveAll pre q
  have hforeign : p.header.guidPrefix ≠ (receiveAll pre q).state.guidPrefix := by
    rw [hsteady.guidPrefix_eq]
    exact hq.foreign
  -- nor after it
  have hown : (handleDataPacket d (receiveAll pre q).state).state.guidPrefix =
    (receiveAll pre q).state.guidPrefix := (keeps_handleDataPacket _ d).1.guidPrefix_eq
  have hafter : pushesTo r (receiveAll post
      (handleDataPacket d (receiveAll pre q).state).state).out = [] :=
    pushesTo_receiveAll_ofWrite (fun d' hd' => hmem d' (List.mem_cons_of_mem _ hd')) (by omega)
      (hown ▸ hforeign) (dispatchesOf_receiveAll_of_spares hhanded.rest _)
  -- the last message is accepted
  obtain ⟨st, hst, haccepts⟩ := (hsteady.accepts_iff r _).mpr hq.accepts
  have hok : ({ (receiveAll pre q).state with fragAssembler := frags } :
      RtpsParticipant).NotifyOk ⟨p.guidPrefix, eid⟩ seq := hfollows.notifyOk hlast hseq
  refine ⟨st.sampleOf ⟨p.guidPrefix, eid⟩ payload d.utc seq, ?_, rfl, rfl, rfl⟩
  have haccepted := @pushesTo_acceptSample _ ⟨p.guidPrefix, eid⟩ seq d origin payload r
    (by omega) hok st hst
  rw [if_pos haccepts, ← haccept] at haccepted
  rw [receiveAll, Cmd.calls_append]
  dsimp only
  rw [Cmd.calls_cons]
  dsimp only
  rw [pushesTo_append, pushesTo_append, ← receiveAll, hpushes, haccepted, ← receiveAll, hafter]
  rfl

/-! ### Two sets of messages -/

/-- A datagram with a message. -/
def datagramOf (m : Bytes) : Datagram := ⟨0, 0, m, .v4 (FixedBytes.zero 4) 0⟩

lemma deliveredOnce_map (ms : List Bytes) : DeliveredOnce ms (ms.map datagramOf) where
  perm := by
    rw [List.map_map]
    exact (List.map_id ms).symm ▸ .refl _
  timely := List.pairwise_map.mpr (List.pairwise_of_forall fun _ _ => Nat.zero_le _)

lemma carries_map {source : Guid} (ms : List Bytes) :
    Carries source seq (ms.map datagramOf) ms := by
  induction ms with
  | nil => exact .nil
  | cons m ms ih => exact .message ih

/-- After a set of messages the reader expects the sample as before. -/
lemma Expects.receiveAll_msgs (hq : q.Expects ⟨p.guidPrefix, eid⟩ r seq last) (hseq : seq ≤ last)
    (hlast : last < 2 ^ 64 - 64) (hlen : payload.length + 4 ≤ maxReassemblyBytes)
    (hmsgs : wireMessages p.header eid seq payload = .ok msgs) :
    (receiveAll (msgs.map datagramOf) q).state.Expects ⟨p.guidPrefix, eid⟩ r seq last := by
  have hne := wireMessages_ne_nil hmsgs
  have hsteady : Steady q (receiveAll (msgs.map datagramOf) q).state := steady_receiveAll ..
  have hds : ∀ d ∈ msgs.map datagramOf, OfWrite p.header eid seq last d.data := by
    intro d hd
    obtain ⟨m, hm, rfl⟩ := List.mem_map.mp hd
    exact .inl (ofSample_of_mem_wireMessages hmsgs m hm)
  refine ⟨hsteady.guidPrefix_eq ▸ hq.foreign, (hsteady.accepts_iff r _).mpr hq.accepts,
    hq.follows.receiveAll hds hseq hlast hq.foreign, ?_⟩
  -- the last message is accepted, and leaves no fragment
  by_cases hfits : FitsData payload
  · rw [wireMessages_of_fits hfits, Except.ok.injEq] at hmsgs
    subst hmsgs
    have haccept := @handleDataPacket_data q (datagramOf (dataMessage p.header eid seq payload))
      p.header eid seq payload (by omega) hfits rfl hq.foreign
    have hframe : ReadersOnly q (handleDataPacket (datagramOf _) q).state :=
      haccept ▸ readersOnly_acceptSample (by omega)
    exact (congrArg (AList.lookup _) hframe.fragAssembler_eq).trans hq.fresh
  · have hcount : fragmentCount payload + 1 < 2 ^ 32 := fragmentCount_lt hlen
    rw [wireMessages_of_not_fits hfits hcount, Except.ok.injEq] at hmsgs
    obtain ⟨init, m, rfl⟩ : ∃ init m, msgs = init ++ [m] := by
      rcases List.eq_nil_or_concat msgs with hnil | ⟨init, m, hconcat⟩
      · exact absurd hnil hne
      · exact ⟨init, m, by simpa using hconcat⟩
    have hhanded : HandedOnce ⟨p.guidPrefix, eid⟩ seq
        ((fragmentsOf eid seq payload).map (fragMessage p.header)) (init.map datagramOf)
        (datagramOf m) [] := by
      refine ⟨⟨init, carries_map init, hmsgs ▸ .refl _⟩, ?_, nofun⟩
      have htimely := (deliveredOnce_map (init ++ [m])).timely
      rwa [List.map_append] at htimely
    obtain ⟨-, fragAssembler, hnone, haccept⟩ :=
      accepted_of_not_fits (by omega) hlen hq.foreign hq.fresh hhanded
    have hframe : ReadersOnly
        { (receiveAll (init.map datagramOf) q).state with fragAssembler }
        (handleDataPacket (datagramOf m) (receiveAll (init.map datagramOf) q).state).state :=
      haccept ▸ readersOnly_acceptSample (by omega)
    rw [List.map_append, receiveAll, Cmd.calls_append]
    exact (congrArg (AList.lookup _) hframe.fragAssembler_eq).trans hnone

end RtpsParticipant

/-! ### A sample that is too long -/

/-- The buffer under the key is no longer than one may be. -/
def FragmentAssembler.Bounded (k : FragKey) (frags : FragmentAssembler) : Prop :=
  ∀ b, frags.lookup k = some b → b.data.length ≤ maxReassemblyBytes

/-- **The step**: it stays so, and what is completed is no longer either. -/
lemma FragmentAssembler.Bounded.receive {frags : FragmentAssembler} {f : DataFrag}
    (h : frags.Bounded f.key) (now : ℕ) : (frags.receive now f).1.Bounded f.key ∧
      ∀ b, (frags.receive now f).2 = .ok (some b) → b.length ≤ maxReassemblyBytes := by
  by_cases hrej : f.Rejected
  · rw [receive_of_rejected hrej]
    exact ⟨h, fun _ hb => by cases hb⟩
  have hbuffer : (frags.bufferFor now f).data.length ≤ maxReassemblyBytes := by
    rw [bufferFor]
    cases hlookup : (frags.sweep now).lookup f.key with
    | none =>
      have hsize := f.dataSize_le hrej
      simpa [FragBuffer.fresh] using hsize
    | some b =>
      rw [lookup_sweep, Option.filter_eq_some_iff] at hlookup
      exact h b hlookup.1
  constructor
  · intro b hb
    rw [lookup_receive_self hrej hb, DataFrag.length_data_fill]
    exact hbuffer
  · intro b hb
    rcases receive_cases now frags hrej with ⟨-, e, hrec⟩ | ⟨-, -, hrec⟩ | ⟨-, -, hrec⟩
    all_goals
      rw [hrec] at hb
      cases hb
    rw [DataFrag.length_data_fill]
    exact hbuffer

namespace RtpsParticipant

variable {p q : RtpsParticipant} {header : Header} {eid r : EntityId} {seq last : ℕ}
  {payload : Bytes} {ds : List Datagram} {d : Datagram}

/-- What is handed over of a sample is the sample. -/
lemma payload_of_mem_pushesTo {origin : Origin} {source : Guid} {sample : Sample}
    (hseq : seq < 2 ^ 64)
    (h : sample ∈ pushesTo r (acceptSample d origin source payload seq q).out) :
    sample.payload = payload := by
  by_cases hboth : q.NotifyOk source seq ∧ q.Accepts r source
  · obtain ⟨hok, st, hst, haccepts⟩ := hboth
    rw [pushesTo_acceptSample hseq hok hst, if_pos haccepts, List.mem_singleton] at h
    rw [h]
    rfl
  · rw [pushesTo_acceptSample_of_not hseq hboth] at h
    cases h

/-- A message of a write hands over no sample that is too long to be reassembled. -/
lemma bounded_ofWrite (hm : OfWrite header eid seq last d.data) (hseq : seq < 2 ^ 64)
    (hforeign : header.guidPrefix ≠ q.guidPrefix)
    (h : q.fragAssembler.Bounded (sampleKey eid seq)) :
    (handleDataPacket d q).state.fragAssembler.Bounded (sampleKey eid seq) ∧
      ∀ sample ∈ pushesTo r (handleDataPacket d q).out,
        sample.payload.length + 4 ≤ maxReassemblyBytes := by
  rcases hm with (⟨payload, hfits, hdata⟩ | ⟨frag, hwriter, hsn, hlen, hdata⟩) |
    ⟨hb, hwriter, -, -, hdata⟩
  · rw [handleDataPacket_data hseq hfits hdata hforeign]
    refine ⟨by rwa [(readersOnly_acceptSample hseq).fragAssembler_eq], fun sample hsample => ?_⟩
    rw [payload_of_mem_pushesTo hseq hsample]
    exact hfits.trans (by decide)
  · have hkey : frag.key = sampleKey eid seq := by
      rw [DataFrag.key, hwriter, hsn]
      rfl
    obtain ⟨hbounded, hcompleted⟩ := (hkey ▸ h).receive d.now
    rw [hkey] at hbounded
    rcases handleDataPacket_fragOf hseq hwriter hsn hlen hdata hforeign with ⟨hstate, hout⟩ |
      ⟨b, payload, hb, hunwrap, haccept⟩
    · rw [hstate, hout]
      exact ⟨hbounded, by simp⟩
    · rw [haccept]
      refine ⟨by rwa [(readersOnly_acceptSample hseq).fragAssembler_eq], fun sample hsample => ?_⟩
      have hlength := hcompleted b hb
      rw [payload_of_mem_pushesTo hseq hsample]
      rw [unwrapPayload] at hunwrap
      split at hunwrap
      · cases hunwrap
      dsimp only at hunwrap
      split at hunwrap
      · cases hunwrap
      · cases hunwrap
        rw [List.length_drop]
        omega
  · rw [handleDataPacket_heartbeat hdata hforeign]
    refine ⟨h, fun sample hsample => ?_⟩
    rw [pushesTo_of_sends out_handleHeartbeat] at hsample
    cases hsample

/-- **Any messages of a write.** -/
lemma bounded_receiveAll (hds : ∀ d ∈ ds, OfWrite header eid seq last d.data)
    (hseq : seq < 2 ^ 64) (hforeign : header.guidPrefix ≠ q.guidPrefix)
    (h : q.fragAssembler.Bounded (sampleKey eid seq)) :
    ∀ sample ∈ pushesTo r (receiveAll ds q).out,
      sample.payload.length + 4 ≤ maxReassemblyBytes := by
  induction ds generalizing q with
  | nil => nofun
  | cons d ds ih =>
    obtain ⟨hbounded, hhead⟩ :=
      bounded_ofWrite (r := r) (hds d List.mem_cons_self) hseq hforeign h
    have hown : (handleDataPacket d q).state.guidPrefix = q.guidPrefix :=
      (keeps_handleDataPacket q d).1.guidPrefix_eq
    rw [receiveAll, Cmd.calls_cons]
    dsimp only
    rw [pushesTo_append]
    intro sample hsample
    rcases List.mem_append.mp hsample with hsample | hsample
    · exact hhead sample hsample
    · exact ih (fun d' hd' => hds d' (List.mem_cons_of_mem _ hd')) (hown ▸ hforeign) hbounded
        sample hsample

/-! ### The two paths -/

/-- The reader `r` of `q`, which listens at `addr`, is matched with the writer `w` of `p`, which
comes to its next sample; the numbers of the writer do not pass `last`. -/
structure MatchedReader (p : RtpsParticipant) (w : RtpsWriter) (st : WriterState)
    (q : RtpsParticipant) (r : EntityId) (addr : SocketAddr) (last : ℕ) : Prop where
  writer : p.writers.lookup w.eid = some st
  before : st.Before last
  last_lt : last < 2 ^ 64 - 64
  foreign : p.guidPrefix ≠ q.guidPrefix
  known : addr ∈ p.matchedAddrs w.topic
  accepts : q.Accepts r ⟨p.guidPrefix, w.eid⟩
  heard : ∀ r t, q.Tracks ⟨p.guidPrefix, w.eid⟩ r t → t.HeardUpTo last
  fresh : q.HasNoFragmentOf w.eid (st.seq + 1)

/-- Whenever the datagrams of the write that go to these sockets arrive once each, the reader is
handed one copy of the sample. -/
def CopiesOnce (p : RtpsParticipant) (w : RtpsWriter) (utc : ℤ) (payload : Bytes) (seq : ℕ)
    (socks : List SocketAddr) (q : RtpsParticipant) (r : EntityId) : Prop :=
  ∀ ds, DeliveredOnce (sentTo socks (w.write utc payload p).out) ds →
    OneCopy r ⟨p.guidPrefix, w.eid⟩ seq payload (receiveAll ds q).out

variable {w : RtpsWriter} {st : WriterState} {addr : SocketAddr} {utc : ℤ}
  {socks : List SocketAddr} {msgs : List Bytes}

/-- The multicast address is no matter of the matching. -/
lemma MatchedReader.withMulticast (h : MatchedReader p w st q r addr last)
    (userDataMulticastAddr : Option SocketAddr) :
    MatchedReader { p with userDataMulticastAddr } w st q r addr last :=
  ⟨h.writer, h.before, h.last_lt, h.foreign, h.known, h.accepts, h.heard, h.fresh⟩

lemma MatchedReader.expects (h : MatchedReader p w st q r addr last) :
    q.Expects ⟨p.guidPrefix, w.eid⟩ r (st.seq + 1) last where
  foreign := h.foreign
  accepts := h.accepts
  follows := fun r t ht => (h.heard r t ht).within h.last_lt
  fresh := h.fresh

/-- No path copies a sample that is too long to be reassembled. -/
lemma CopiesOnce.length_le (h : MatchedReader p w st q r addr last)
    (hsent : ∀ msgs, ∀ m ∈ sentTo socks (RtpsWriter.sendRemote p w.topic msgs), m ∈ msgs)
    (hcopies : CopiesOnce p w utc payload (st.seq + 1) socks q r) :
    payload.length + 4 ≤ maxReassemblyBytes := by
  have hnext := h.before.next_le
  have hlast := h.last_lt
  obtain ⟨sample, hpushes, -, -, rfl⟩ := hcopies _ (deliveredOnce_map _)
  have hds : ∀ d ∈ (sentTo socks (w.write utc sample.payload p).out).map datagramOf,
      OfWrite p.header w.eid (st.seq + 1) last d.data := by
    intro d hd
    obtain ⟨m, hm, rfl⟩ := List.mem_map.mp hd
    cases hmsgs : wireMessages p.header w.eid (st.seq + 1) sample.payload with
    | error e =>
      rw [sentTo_write_of_error h.writer (by omega) hmsgs] at hm
      cases hm
    | ok msgs =>
      obtain ⟨hbs, heq, hhbs⟩ := sentTo_write h.writer h.before (by omega) hmsgs
      rw [heq] at hm
      exact (List.mem_append.mp hm).imp
        (fun hm => ofSample_of_mem_wireMessages hmsgs m (hsent msgs m hm)) (hhbs m)
  have hfresh : q.fragAssembler.Bounded (sampleKey w.eid (st.seq + 1)) := by
    intro b hb
    have hnone : q.fragAssembler.lookup (sampleKey w.eid (st.seq + 1)) = none := h.fresh
    rw [hnone] at hb
    cases hb
  exact bounded_receiveAll hds (by omega) h.foreign hfresh sample
    (hpushes ▸ List.mem_singleton_self sample)

/-- A path that sends the messages in one set copies a sample exactly if it can be reassembled. -/
lemma copiesOnce_of_sent (h : MatchedReader p w st q r addr last)
    (hsent : ∀ msgs, sentTo socks (RtpsWriter.sendRemote p w.topic msgs) = msgs)
    (hlen : payload.length + 4 ≤ maxReassemblyBytes) :
    CopiesOnce p w utc payload (st.seq + 1) socks q r := by
  have hnext := h.before.next_le
  have hlast := h.last_lt
  obtain ⟨msgs, hmsgs⟩ := exists_wireMessages p.header w.eid (st.seq + 1) hlen
  intro ds hds
  obtain ⟨hbs, heq, hhbs⟩ := sentTo_write h.writer h.before (by omega) hmsgs
  rw [heq, hsent] at hds
  exact oneCopy_of_deliveredOnce hnext hlast hlen hmsgs hhbs h.expects hds

/-- On the group there is one set. -/
lemma copiesOnce_multicast_iff (h : MatchedReader p w st q r addr last) {group : SocketAddr}
    (hgroup : p.userDataMulticastAddr = some group) :
    CopiesOnce p w utc payload (st.seq + 1) [addr, group] q r ↔
      payload.length + 4 ≤ maxReassemblyBytes := by
  have hsent : ∀ msgs,
      sentTo [addr, group] (RtpsWriter.sendRemote p w.topic msgs) = msgs :=
    fun msgs => sentTo_sendRemote_multicast hgroup (by simp) h.known
  exact ⟨fun hcopies => hcopies.length_le h fun msgs m hm => hsent msgs ▸ hm,
    copiesOnce_of_sent h hsent⟩

/-- Two sets hand the reader two samples. -/
lemma not_oneCopy_of_two (h : MatchedReader p w st q r addr last)
    (hlen : payload.length + 4 ≤ maxReassemblyBytes)
    (hmsgs : wireMessages p.header w.eid (st.seq + 1) payload = .ok msgs) (rest : List Bytes) :
    ¬ OneCopy r ⟨p.guidPrefix, w.eid⟩ (st.seq + 1) payload
      (receiveAll ((msgs ++ (msgs ++ rest)).map datagramOf) q).out := by
  have hnext := h.before.next_le
  have hlast := h.last_lt
  -- each set hands over one, and leaves the reader expecting the sample again
  have hset : ∀ q' : RtpsParticipant, q'.Expects ⟨p.guidPrefix, w.eid⟩ r (st.seq + 1) last →
      ∃ sample, pushesTo r (receiveAll (msgs.map datagramOf) q').out = [sample] := by
    intro q' hq'
    have hdelivered : DeliveredOnce (msgs ++ []) (msgs.map datagramOf) := by
      rw [List.append_nil]
      exact deliveredOnce_map msgs
    obtain ⟨sample, hpushes, -⟩ :=
      oneCopy_of_deliveredOnce hnext hlast hlen hmsgs (by simp) hq' hdelivered
    exact ⟨sample, hpushes⟩
  obtain ⟨first, hfirst⟩ := hset q h.expects
  obtain ⟨second, hsecond⟩ := hset _ (h.expects.receiveAll_msgs hnext hlast hlen hmsgs)
  rintro ⟨sample, hpushes, -⟩
  rw [List.map_append, List.map_append, receiveAll, Cmd.calls_append] at hpushes
  dsimp only at hpushes
  rw [Cmd.calls_append] at hpushes
  dsimp only at hpushes
  rw [← receiveAll, ← receiveAll, pushesTo_append, pushesTo_append, hfirst, hsecond] at hpushes
  simp at hpushes

/-- On the unicast path there is a set for every matched reader at the address. -/
lemma copiesOnce_unicast_iff (h : MatchedReader p w st q r addr last)
    (hunicast : p.userDataMulticastAddr = none) :
    CopiesOnce p w utc payload (st.seq + 1) [addr] q r ↔
      payload.length + 4 ≤ maxReassemblyBytes ∧ (p.matchedAddrs w.topic).count addr = 1 := by
  have hsent : ∀ msgs, sentTo [addr] (RtpsWriter.sendRemote p w.topic msgs) =
      (List.replicate ((p.matchedAddrs w.topic).count addr) msgs).flatten :=
    fun msgs => sentTo_sendRemote_unicast hunicast
  have hpos : 0 < (p.matchedAddrs w.topic).count addr := List.count_pos_iff.mpr h.known
  constructor
  · intro hcopies
    have hlen : payload.length + 4 ≤ maxReassemblyBytes := by
      refine hcopies.length_le h fun msgs m hm => ?_
      rw [hsent] at hm
      obtain ⟨msgs', hmsgs', hmem⟩ := List.mem_flatten.mp hm
      rwa [List.eq_of_mem_replicate hmsgs'] at hmem
    refine ⟨hlen, ?_⟩
    by_contra hne
    obtain ⟨n, hn⟩ : ∃ n, (p.matchedAddrs w.topic).count addr = n + 2 :=
      ⟨_, (Nat.sub_add_cancel (show 2 ≤ (p.matchedAddrs w.topic).count addr by omega)).symm⟩
    obtain ⟨msgs, hmsgs⟩ := exists_wireMessages p.header w.eid (st.seq + 1) hlen
    obtain ⟨hbs, heq, -⟩ := @sentTo_write p w st [addr] msgs last utc payload h.writer h.before
      (h.last_lt.trans (by decide)) hmsgs
    have hcopy := hcopies _ (deliveredOnce_map _)
    rw [heq, hsent, hn, List.replicate_succ, List.replicate_succ, List.flatten_cons,
      List.flatten_cons, List.append_assoc, List.append_assoc] at hcopy
    exact not_oneCopy_of_two h hlen hmsgs _ hcopy
  · rintro ⟨hlen, hone⟩
    refine copiesOnce_of_sent h (fun msgs => ?_) hlen
    rw [hsent, hone]
    simp

lemma count_of_copiesOnce (h : MatchedReader p w st q r addr last)
    (hcopies : CopiesOnce { p with userDataMulticastAddr := none } w utc payload (st.seq + 1)
      [addr] q r) : (p.matchedAddrs w.topic).count addr = 1 :=
  ((copiesOnce_unicast_iff (h.withMulticast none) rfl).mp hcopies).2

end RtpsParticipant

/-! ### One reader and two -/

namespace RtpsUdpParticipant

open RtpsParticipant

/-- Where participants 1 and 2 receive SEDP. -/
def metaAddr : SocketAddr := .v4 (FixedBytes.zero 4) 7410

/-- The group of the user data. -/
def groupAddr : SocketAddr := .v4 (FixedBytes.zero 4) 7401

/-- A reliable writer is created, and participant 1 announces two readers under the topic. -/
def writerOfTwo : List ParticipantEvent :=
  .newPublisher "a" ⟨true, false⟩ :: [1, 2].map fun n =>
    .sedpPacket (endpointMessage (ParticipantConfig.numbered 1).sedp
      ⟨⟨(ParticipantConfig.numbered 1).guidPrefix, entityIdForReader n⟩, "a", false⟩ n) metaAddr

/-- Two reliable readers are created, and participant 2 announces its first writer. -/
def readersOfOne : List ParticipantEvent :=
  List.replicate 2 (.newSubscriber "a" ⟨true, false⟩ ⟨0, .dropNewest⟩ 0) ++
    .sedpPacket (endpointMessage (ParticipantConfig.numbered 2).sedp
      ⟨⟨(ParticipantConfig.numbered 2).guidPrefix, entityIdForWriter 1⟩, "a", true⟩ 1) metaAddr ::
    List.replicate 2 .takeMatch

/-- The participant of the writer. -/
def senderToTwo : RtpsParticipant := (after (.numbered 2) writerOfTwo).inner

/-- The participant of the readers. -/
def receiverOfTwo : RtpsParticipant := (after (.numbered 1) readersOfOne).inner

/-- A reader that has had no contact with the writer. -/
lemma matchedReader_of_new {p q : RtpsParticipant}
    (hwriter : p.writers.lookup (entityIdForWriter 1) = some (.new "a" true))
    (hforeign : p.guidPrefix ≠ q.guidPrefix) (hknown : receiverAddr ∈ p.matchedAddrs "a")
    (haccepts : q.Accepts (entityIdForReader 1) ⟨p.guidPrefix, entityIdForWriter 1⟩)
    (hnew : ∀ e ∈ q.readers.entries, e.2.trackers.entries = [])
    (hfresh : q.HasNoFragmentOf (entityIdForWriter 1) 1) :
    MatchedReader p ⟨entityIdForWriter 1, "a"⟩ (.new "a" true) q (entityIdForReader 1)
      receiverAddr 1 where
  writer := hwriter
  before := ⟨le_rfl, fun history hhistory => by
    cases hhistory
    exact ⟨Nat.zero_le _, Nat.zero_le _⟩⟩
  last_lt := by decide
  foreign := hforeign
  known := hknown
  accepts := haccepts
  heard := fun r t ht => by
    obtain ⟨st, hst, -, rfl⟩ := ht
    have hnone := hnew ⟨r, st⟩ (Table.mem_entries_iff.mpr hst)
    have htracker : st.trackerFor ⟨p.guidPrefix, entityIdForWriter 1⟩ = .new := by
      rw [ReaderState.trackerFor, AList.lookup, hnone]
      rfl
    exact htracker ▸ .new
  fresh := hfresh

end RtpsUdpParticipant

end RustDds
