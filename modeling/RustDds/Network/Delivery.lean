import RustDds.Network.Meeting
import RustDds.Network.Numbers

/-!
# What is written arrives

Once a reader of `b` and a writer of `a` are matched, nothing that is written gets lost on the way
but in the network: of each sample, sent whole or in fragments, a message is still in flight to `b`,
or the reader has been handed the sample (`Network.delivered_of_matched`).

That takes no part of a sample being lost, and no reassembly growing too old.  It does not take
reliability, nor any order of arrival, and announcements, other samples and other participants may
come in between.  The invariant is `Network.Due`.
-/

namespace RustDds

/-! ## The messages of a sample -/

namespace Written

variable {header : Header} {x : Written} {msg : Bytes} {k : ℕ}

/-- The message that carries fragment `k` of the sample, or all of it. -/
def message (header : Header) (x : Written) (k : ℕ) : Bytes :=
  if FitsData x.payload then dataMessage header x.guid.entity x.seq x.payload
  else fragMessage header (x.fragment k)

/-- How many messages there are. -/
def count (x : Written) : ℕ := pieceCount (wrapPayload x.payload)

lemma count_of_fits (hfits : FitsData x.payload) : x.count = 1 := by
  have hle : x.payload.length + 4 ≤ 1200 := hfits
  rw [count, pieceCount_wrapPayload, fragmentCount, maxFragmentPayload, Nat.ceilDiv_eq_add_pred_div]
  omega

lemma carriedBy_message (hseq : x.seq < 2 ^ 64) (hlen : x.payload.length + 4 < 2 ^ 32)
    (hk : k < x.count) : x.CarriedBy header (x.message header k) := by
  refine ⟨hseq, ?_⟩
  rw [message]
  split
  · rename_i hfits
    exact ⟨_, wireMessages_of_fits hfits .., List.mem_singleton_self _⟩
  · rename_i hnot
    refine ⟨_, wireMessages_of_fragments hlen hnot .., List.mem_map_of_mem ?_⟩
    rw [← piecesOf_wrapPayload]
    exact mem_piecesOf.mpr ⟨k, hk, rfl⟩

lemma CarriedBy.exists_message (h : x.CarriedBy header msg)
    (hlen : x.payload.length + 4 < 2 ^ 32) : ∃ k < x.count, msg = x.message header k := by
  by_cases hfits : FitsData x.payload
  · obtain ⟨-, msgs, hmsgs, hmem⟩ := h
    rw [wireMessages_of_fits hfits] at hmsgs
    cases hmsgs
    refine ⟨0, by rw [count_of_fits hfits]; exact Nat.zero_lt_one, ?_⟩
    rw [message, if_pos hfits]
    exact List.mem_singleton.mp hmem
  · obtain ⟨k, hk, hmsg⟩ := h.exists_fragment hlen hfits
    refine ⟨k, hk, ?_⟩
    rw [message, if_neg hfits]
    exact hmsg

/-- None is too long for a datagram. -/
lemma CarriedBy.length_le (h : x.CarriedBy header msg) : msg.length ≤ maxDatagramLen := by
  obtain ⟨hseq, msgs, hmsgs, hmem⟩ := h
  obtain ⟨m, hm, rfl⟩ : ∃ m, Submessage.OnDataPath (fun _ => True) (fun _ => True) m ∧
      msg = m.message header :=
    Submessage.exists_onDataPath_of_ofSample (ofSample_of_mem_wireMessages hmsgs msg hmem) hseq
      trivial
  rw [Submessage.length_message, maxDatagramLen]
  cases hm with
  | @sample eid seq payload _ _ hfits =>
    have hle : payload.length + 4 ≤ 1200 := hfits
    simp only [Submessage.raw, length_dataBody, length_wrapPayload]
    omega
  | fragment _ hlen =>
    rw [maxFragmentPayload] at hlen
    simp only [Submessage.raw, length_dataFragBody]
    omega
  | control hm =>
    cases hm with
    | heartbeat | acknack | gap => simp [Submessage.raw]

/-- A queue has been handed the sample. -/
def IsAmong (x : Written) (samples : List Sample) : Prop :=
  ∃ sample ∈ samples, sample.payload = x.payload ∧ sample.sequenceNumber = x.seq ∧
    sample.writerGuid = x.guid.toBytes

lemma IsAmong.append_left {samples : List Sample} (h : x.IsAmong samples) (more : List Sample) :
    x.IsAmong (samples ++ more) := by
  obtain ⟨sample, hmem, hsample⟩ := h
  exact ⟨sample, List.mem_append_left _ hmem, hsample⟩

lemma IsAmong.append_right {samples : List Sample} (h : x.IsAmong samples) (old : List Sample) :
    x.IsAmong (old ++ samples) := by
  obtain ⟨sample, hmem, hsample⟩ := h
  exact ⟨sample, List.mem_append_right _ hmem, hsample⟩

end Written

/-! ## Receiving them -/

namespace RtpsParticipant

variable {q : RtpsParticipant} {d : Datagram} {header : Header} {log : List Written}
  {x y : Written} {r : EntityId} {origin : Origin} {k : ℕ}

/-- The participant holds fragment `k` of the sample, and waits for others. -/
def Holds (q : RtpsParticipant) (x : Written) (k : ℕ) : Prop :=
  ¬ FitsData x.payload ∧ q.fragAssembler.Holds x k

/-- What is accepted is handed to the readers that accept its writer. -/
lemma isAmong_acceptSample (hseq : x.seq < 2 ^ 64) (hok : q.NotifyOk x.guid x.seq)
    (haccepts : q.Accepts r x.guid) :
    x.IsAmong (pushesTo r (acceptSample d origin x.guid x.payload x.seq q).out) := by
  obtain ⟨st, hst, hacc⟩ := haccepts
  rw [pushesTo_acceptSample hseq hok hst, if_pos hacc]
  exact ⟨_, List.mem_singleton_self _, rfl, rfl, rfl⟩

/-- A fragment leaves the assembler as it leaves it. -/
lemma fragAssembler_of_fragment (hlog : Unambiguous log) (hx : x ∈ log) (hseq : x.seq < 2 ^ 64)
    (hguid : x.guid.guidPrefix = header.guidPrefix) (hnot : ¬ FitsData x.payload)
    (hk : k < x.count) (hmsg : d.data = fragMessage header (x.fragment k))
    (hforeign : header.guidPrefix ≠ q.guidPrefix) (hq : q.fragAssembler.Assembles log) :
    (handleDataPacket d q).state.fragAssembler =
      (q.fragAssembler.receive d.now (x.fragment k)).1 := by
  rcases handleDataPacket_fragment hlog hx hseq hguid hnot hk hmsg hforeign hq with ⟨-, h⟩ | h
  · rw [h]
  · rw [h, (readersOnly_acceptSample hseq).fragAssembler_eq]

/-- **A message of the sample**: the reader is handed the sample, or the participant holds one more
fragment of it. -/
lemma isAmong_or_holds (hlog : Unambiguous log) (hx : x ∈ log) (hseq : x.seq < 2 ^ 64)
    (hguid : x.guid.guidPrefix = header.guidPrefix)
    (hlen : x.payload.length + 4 ≤ maxReassemblyBytes) (hk : k < x.count)
    (hmsg : d.data = x.message header k) (hforeign : header.guidPrefix ≠ q.guidPrefix)
    (hq : q.fragAssembler.Assembles log) (htimely : q.fragAssembler.Timely x.guid.entity d.now)
    (hok : q.NotifyOk x.guid x.seq) (haccepts : q.Accepts r x.guid) :
    x.IsAmong (pushesTo r (handleDataPacket d q).out) ∨
      (handleDataPacket d q).state.Holds x k ∧
        ∀ k', q.Holds x k' → (handleDataPacket d q).state.Holds x k' := by
  by_cases hfits : FitsData x.payload
  · rw [handleDataPacket_whole hguid
      (hmsg ▸ Written.carriedBy_message hseq (hlog.length_lt x hx) hk) hfits hforeign]
    exact .inl (isAmong_acceptSample hseq hok haccepts)
  rw [Written.message, if_neg hfits] at hmsg
  have hframes := fragAssembler_of_fragment hlog hx hseq hguid hfits hk hmsg hforeign hq
  rcases handleDataPacket_fragment hlog hx hseq hguid hfits hk hmsg hforeign hq with
    ⟨hwait, -⟩ | h
  · obtain ⟨hnew, hold⟩ := hq.holds_receive hlog hx hfits hk d.now rfl hlen htimely hwait
    simp only [Holds, hframes]
    exact .inr ⟨⟨hfits, hnew⟩, fun k' hk' => ⟨hfits, hold k' hk'.2⟩⟩
  · rw [h]
    exact .inl (isAmong_acceptSample hseq hok haccepts)

/-- A message of another sample leaves the fragments of this one where they are. -/
lemma Holds.of_other (h : q.Holds x k) (hlog : Unambiguous log) (hx : x ∈ log) (hy : y ∈ log)
    (hne : y ≠ x) (hguid : y.guid.guidPrefix = header.guidPrefix)
    (hmsg : y.CarriedBy header d.data) (hforeign : header.guidPrefix ≠ q.guidPrefix)
    (hq : q.fragAssembler.Assembles log)
    (htimely : q.fragAssembler.Timely x.guid.entity d.now) :
    (handleDataPacket d q).state.Holds x k := by
  refine ⟨h.1, ?_⟩
  by_cases hfits : FitsData y.payload
  · rw [handleDataPacket_whole hguid hmsg hfits hforeign,
      (readersOnly_acceptSample hmsg.1).fragAssembler_eq]
    exact h.2
  · obtain ⟨k', hk', hfrag⟩ := hmsg.exists_fragment (hlog.length_lt y hy) hfits
    rw [fragAssembler_of_fragment hlog hy hmsg.1 hguid hfits hk' hfrag hforeign hq]
    refine h.2.receive_of_ne (fun hkey => hne ?_) htimely
    exact hlog.key_inj y hy x hx hfits h.1 hkey

end RtpsParticipant

/-! ## Sending them -/

namespace RtpsParticipant

variable {p : RtpsParticipant} {w : RtpsWriter} {st : WriterState} {addr : SocketAddr} {k last : ℕ}

/-- **A write** sends each message to a matched reader, or to the group there is. -/
lemma exists_send_write (hst : p.writers.lookup w.eid = some st) (hbefore : st.Before last)
    (hlast : last < 2 ^ 64) {utc : ℤ} {payload : Bytes} (hlen : payload.length + 4 < 2 ^ 32)
    (hmatched : addr ∈ p.matchedAddrs w.topic) :
    let x : Written := ⟨⟨p.guidPrefix, w.eid⟩, st.seq + 1, payload⟩
    k < x.count → ∃ dst, .send (x.message p.header k) dst ∈ (w.write utc payload p).out ∧
      (p.userDataMulticastAddr = none ∧ dst = addr ∨ p.userDataMulticastAddr = some dst) := by
  intro x hk
  have hnext := hbefore.next_le
  have hseq : x.seq < 2 ^ 64 := Nat.lt_of_le_of_lt hnext hlast
  have hcarried : x.CarriedBy p.header (x.message p.header k) :=
    Written.carriedBy_message hseq hlen hk
  obtain ⟨-, msgs, hmsgs, hmem⟩ := hcarried
  have hsent : ∀ dst, x.message p.header k ∈
      sentTo [dst] (RtpsWriter.sendRemote p w.topic msgs) →
        .send (x.message p.header k) dst ∈ (w.write utc payload p).out := by
    intro dst hremote
    obtain ⟨hbs, heq, -⟩ := @sentTo_write _ _ _ [dst] _ _ utc _ hst hbefore hlast hmsgs
    obtain ⟨dst', hdst', hsend⟩ := mem_sentTo (heq ▸ List.mem_append_left hbs hremote)
    rwa [List.mem_singleton.mp hdst'] at hsend
  cases hgroup : p.userDataMulticastAddr with
  | none =>
    refine ⟨addr, hsent addr ?_, .inl ⟨rfl, rfl⟩⟩
    rw [sentTo_sendRemote_unicast hgroup]
    refine List.mem_flatten.mpr ⟨msgs, List.mem_replicate.mpr ⟨?_, rfl⟩, hmem⟩
    exact Nat.ne_of_gt (List.count_pos_iff.mpr hmatched)
  | some group =>
    refine ⟨group, hsent group ?_, .inr rfl⟩
    rw [sentTo_sendRemote_multicast hgroup (List.mem_singleton_self _) hmatched]
    exact hmem

end RtpsParticipant

/-! ## Samples on their way -/

namespace Network

variable {ι : Type*} {H : Hosts ι} {s : Network ι} {a b i j : ι} {e : ParticipantEvent}
  {w : RtpsWriter} {r : EntityId} [DecidableEq ι]

/-- A datagram of `a` that goes to the socket of `b` for user data. -/
def Reaches (H : Hosts ι) (a b : ι) (pkt : Packet ι) : Prop :=
  pkt.sender = a ∧ (H.host b).socketOf pkt.dst = some .userData

/-- Such a datagram with this message is in flight. -/
def Coming (H : Hosts ι) (s : Network ι) (a b : ι) (msg : Bytes) : Prop :=
  ∃ pkt ∈ s.wire, Reaches H a b pkt ∧ pkt.msg = msg

/-- The reader has been handed the sample, or each message of it is in flight to `b` or held by
`b`. -/
def Due (H : Hosts ι) (s : Network ι) (a b : ι) (handed : List Sample) (x : Written) : Prop :=
  x.IsAmong handed ∨ ∀ k < x.count,
    Coming H s a b (x.message (H.host a).header k) ∨ (s.node b).inner.Holds x k

/-- The samples that a datagram brings the reader `r` of `b`. -/
def handedAt (H : Hosts ι) (b : ι) (r : EntityId) (s : Network ι) : NetworkEvent ι → List Sample
  | .deliver k j now utc _ =>
    match s.wire[k]? with
    | none => []
    | some pkt =>
      if j = b ∧ (H.host b).socketOf pkt.dst = some .userData then
        pushesTo r (RtpsUdpParticipant.handle (.dataPacket ⟨now, utc, pkt.msg, pkt.src⟩)
          (s.node b)).out
      else []
  | _ => []

/-- Nothing of `a` that is on its way to `b` is lost or goes to another participant alone, nothing
from the writer `w` waits at `b` for too long, and `b` keeps its reader. -/
def Delivers (H : Hosts ι) (a b : ι) (w : RtpsWriter) (r : EntityId) (s : Network ι) :
    NetworkEvent ι → Prop
  | .act i e => i = b → e ≠ .unsubscribe r
  | .hear .. => True
  | .deliver k j now _ again =>
    (j = b → (s.node b).inner.fragAssembler.Timely w.eid now) ∧
      (j ≠ b → ∀ pkt, s.wire[k]? = some pkt → Reaches H a b pkt → again = true)
  | .lose k => ∀ pkt, s.wire[k]? = some pkt → ¬ Reaches H a b pkt

section Due

variable {handed : List Sample} {x : Written} {log : List Written} {last k : ℕ} {pkt : Packet ι}
  {msg : Bytes}

lemma Coming.perform (h : Coming H s a b msg) : Coming H (s.perform H i e) a b msg := by
  obtain ⟨pkt, hpkt, hreaches⟩ := h
  exact ⟨pkt, mem_wire_perform.mpr (.inl hpkt), hreaches⟩

omit [DecidableEq ι] in
/-- What leaves the network was another message, or goes elsewhere. -/
lemma Coming.without (h : Coming H s a b msg) (hk : s.wire[k]? = some pkt)
    (hother : Reaches H a b pkt → pkt.msg ≠ msg) : Coming H (s.without k) a b msg := by
  obtain ⟨pkt', hpkt', hreaches, hmsg⟩ := h
  have hne : pkt' ≠ pkt := by
    rintro rfl
    exact hother hreaches hmsg
  obtain ⟨k', hk'⟩ := List.mem_iff_getElem?.mp hpkt'
  refine ⟨pkt', List.mem_eraseIdx_iff_getElem?.mpr ⟨k', ?_, hk'⟩, hreaches, hmsg⟩
  rintro rfl
  exact hne (Option.some.inj (hk'.symm.trans hk))

omit [DecidableEq ι] in
lemma Due.append (h : Due H s a b handed x) (more : List Sample) :
    Due H s a b (handed ++ more) x := h.imp_left (·.append_left more)

/-- **A step in which `b` is sent nothing** keeps it so. -/
lemma Due.perform (h : Due H s a b handed x) (he : i = b → ∀ d, e ≠ .dataPacket d) :
    Due H (s.perform H i e) a b handed x := by
  refine h.imp_right fun hall k hk => (hall k hk).imp Coming.perform fun hholds => ?_
  by_cases hi : i = b
  · subst hi
    rw [node_perform_self, RtpsParticipant.Holds,
      ((s.node i).sameTransport_step (he rfl)).fragAssembler_eq]
    exact hholds
  · rw [node_perform_of_ne (Ne.symm hi)]
    exact hholds

lemma Due.receiveMeta (h : Due H s a b handed x) {now : ℕ} {src : SocketAddr} :
    Due H (s.receiveMeta H i now msg src) a b handed x :=
  (h.perform fun _ _ => by simp).perform fun _ _ => by simp

omit [DecidableEq ι] in
lemma Due.without (h : Due H s a b handed x) (hk : s.wire[k]? = some pkt)
    (hother : ¬ Reaches H a b pkt) : Due H (s.without k) a b handed x :=
  h.imp_right fun hall k' hk' => (hall k' hk').imp_left fun hcoming =>
    hcoming.without hk fun hreaches => absurd hreaches hother

/-- No tracker is in the way of a number that is within bounds. -/
lemma notifyOk_of_upTo {p : RtpsParticipant} (h : p.UpTo last) (hlast : last < 2 ^ 64 - 64)
    {seq : ℕ} (hseq : seq ≤ last) (source : Guid) : p.NotifyOk source seq := fun eid st hst _ =>
  ⟨(h.trackers eid st hst source).unpoisoned, (h.trackers eid st hst source).roomFor hlast hseq⟩

/-- **A datagram that arrives**: the reader is handed the sample, or what `b` held it still holds,
and besides what the datagram carries of the sample. -/
lemma Genuine.arrives (h : Genuine H log pkt) (hlen : pkt.msg.length ≤ maxDatagramLen)
    (hlog : Unambiguous log) (hx : x ∈ log) (hseq : x.seq < 2 ^ 64)
    (hguid : x.guid.guidPrefix = (H.host a).header.guidPrefix)
    (hsize : x.payload.length + 4 ≤ maxReassemblyBytes) (hab : a ≠ b) {p : RtpsParticipant}
    (hp : p.header = (H.host b).header) (hasm : p.fragAssembler.Assembles log) {d : Datagram}
    (hd : d.data = pkt.msg) (htimely : p.fragAssembler.Timely x.guid.entity d.now)
    (hok : p.NotifyOk x.guid x.seq) (haccepts : p.Accepts r x.guid) :
    let o := RtpsParticipant.handleDataPacket d p
    x.IsAmong (pushesTo r o.out) ∨
      (∀ k < x.count, pkt.sender = a → pkt.msg = x.message (H.host a).header k →
        o.state.Holds x k) ∧ ∀ k, p.Holds x k → o.state.Holds x k := by
  intro o
  have hforeign : (H.host a).header.guidPrefix ≠ p.guidPrefix := by
    rw [show p.guidPrefix = (H.host b).cfg.guidPrefix from congrArg Header.guidPrefix hp]
    exact fun heq => hab (H.prefix_inj _ _ heq)
  have hmine : ∀ k < x.count, pkt.msg = x.message (H.host a).header k →
      x.IsAmong (pushesTo r o.out) ∨ o.state.Holds x k ∧ ∀ k', p.Holds x k' → o.state.Holds x k' :=
    fun k hk hmsg => RtpsParticipant.isAmong_or_holds hlog hx hseq hguid hsize hk (hd.trans hmsg)
      hforeign hasm htimely hok haccepts
  by_cases hcarries : ∃ k < x.count, pkt.sender = a ∧ pkt.msg = x.message (H.host a).header k
  · obtain ⟨k, hk, -, hmsg⟩ := hcarries
    by_cases hamong : x.IsAmong (pushesTo r o.out)
    · exact .inl hamong
    · exact .inr ⟨fun k' hk' _ hmsg' => ((hmine k' hk' hmsg').resolve_left hamong).1,
        ((hmine k hk hmsg).resolve_left hamong).2⟩
  refine .inr ⟨fun k hk hsender hmsg => absurd ⟨k, hk, hsender, hmsg⟩ hcarries,
    fun k hholds => ?_⟩
  rcases h.receive_cases hlen hp hd with ⟨⟨y, hy, hyguid, hcarried⟩, hother⟩ | ⟨hassembles, -⟩
  · refine hholds.of_other hlog hx hy ?_ hyguid hcarried hother hasm htimely
    rintro rfl
    have hsender : pkt.sender = a := H.prefix_inj _ _ (hyguid.symm.trans hguid)
    rw [hsender] at hcarried
    obtain ⟨k', hk', hmsg⟩ := hcarried.exists_message (hlog.length_lt y hy)
    exact hcarries ⟨k', hk', hsender, hd.symm.trans hmsg⟩
  · rw [RtpsParticipant.Holds, hassembles]
    exact hholds

/-- Nothing is in the way of the samples of `w`: the participants are honest, what is in flight is
of samples written, their numbers are within bounds, and the reader is matched. -/
structure Ready (H : Hosts ι) (s : Network ι) (a b : ι) (w : RtpsWriter) (r : EntityId)
    (log : List Written) (last : ℕ) : Prop where
  announcing : Announcing H s b
  matched : Matched H s a b w r
  traces : Traces H s log
  numbered : Numbered H s log last
  unambiguous : Unambiguous log
  last_lt : last < 2 ^ 64 - 64

/-- The reader is handed the sample, or one message fewer of it is in flight. -/
lemma Due.arrives (h : Due H s a b handed x) (hready : Ready H s a b w r log last) (hab : a ≠ b)
    (hx : x ∈ log) (hguid : x.guid = writerGuid H a w)
    (hsize : x.payload.length + 4 ≤ maxReassemblyBytes) (hk : s.wire[k]? = some pkt) {now : ℕ}
    (htimely : (s.node b).inner.fragAssembler.Timely w.eid now) (utc : ℤ) (again : Bool) :
    let e : ParticipantEvent := .dataPacket ⟨now, utc, pkt.msg, pkt.src⟩
    let t := s.perform H b e
    (H.host b).socketOf pkt.dst = some .userData →
      Due H (if again then t else t.without k) a b
        (handed ++ pushesTo r (RtpsUdpParticipant.handle e (s.node b)).out) x := by
  intro e t hsocket
  have hpkt := List.mem_of_getElem? hk
  have hhonest := hready.announcing.honest
  have hle := hready.numbered.log x hx
  have hlast := hready.last_lt
  rcases h with hamong | hall
  · exact .inl (hamong.append_left _)
  rcases (hready.traces.wire pkt hpkt).arrives (hhonest.length_le pkt hpkt) hready.unambiguous hx
    (by omega) (congrArg Guid.guidPrefix hguid) hsize hab (hhonest.hosted b).own.header_eq
    (hready.traces.assembles b) (d := ⟨now, utc, pkt.msg, pkt.src⟩) rfl
    (by rw [hguid]; exact htimely) (notifyOk_of_upTo (hready.numbered.nodes b) hlast hle _)
    (by rw [hguid]; exact hready.matched.accepts) with hamong | ⟨hnew, hkept⟩
  · exact .inl (hamong.append_right _)
  have hnode : ((if again then t else t.without k).node b).inner =
      (RtpsParticipant.handleDataPacket ⟨now, utc, pkt.msg, pkt.src⟩ (s.node b).inner).state := by
    have hself : t.node b = (s.node b).step e := node_perform_self
    cases again <;> exact congrArg RtpsUdpParticipant.inner hself
  refine .inr fun k' hk' => ?_
  rw [hnode]
  rcases hall k' hk' with hcoming | hholds
  · by_cases hmsg : Reaches H a b pkt ∧ pkt.msg = x.message (H.host a).header k'
    · exact .inr (hnew k' hk' hmsg.1.1 hmsg.2)
    · have hflight : Coming H t a b (x.message (H.host a).header k') := hcoming.perform
      left
      split
      · exact hflight
      · exact hflight.without (getElem?_wire_perform hk) fun hreaches heq => hmsg ⟨hreaches, heq⟩
  · exact .inr (hkept k' hholds)

/-- **The step.** -/
lemma Due.step (h : Due H s a b handed x) (hready : Ready H s a b w r log last) (hab : a ≠ b)
    (hx : x ∈ log) (hguid : x.guid = writerGuid H a w)
    (hsize : x.payload.length + 4 ≤ maxReassemblyBytes) {e : NetworkEvent ι}
    (hdelivers : Delivers H a b w r s e) :
    Due H (s.step H e) a b (handed ++ handedAt H b r s e) x := by
  cases e with
  | act i e =>
    rw [show handedAt H b r s (.act i e) = [] from rfl, List.append_nil, Network.step]
    split
    · exact h
    · rename_i hlocal
      refine h.perform fun _ d heq => hlocal ?_
      rw [heq]
      rfl
  | hear i j now seqNum direct =>
    rw [show handedAt H b r s (.hear i j now seqNum direct) = [] from rfl, List.append_nil,
      Network.step]
    split
    · exact h.receiveMeta
    · exact h.perform fun _ _ => by simp
  | deliver k j now utc again =>
    cases hk : s.wire[k]? with
    | none =>
      rw [Network.step, hk]
      exact h.append _
    | some pkt =>
      rw [step_deliver hk, handedAt, hk]
      dsimp only
      cases hsocket : (H.host j).socketOf pkt.dst with
      | none => exact h.append _
      | some socket =>
        by_cases hj : j = b
        · subst hj
          cases socket with
          | userData =>
            rw [if_pos ⟨rfl, hsocket⟩]
            exact h.arrives hready hab hx hguid hsize hk (hdelivers.1 rfl) utc again hsocket
          | metatraffic =>
            have hother : ¬ Reaches H a j pkt := fun hreaches => by
              rw [hreaches.2] at hsocket
              cases hsocket
            refine Due.append ?_ _
            dsimp only
            split
            · exact h.receiveMeta
            · exact h.receiveMeta.without (getElem?_wire_perform (getElem?_wire_perform hk)) hother
        · have hdue : ∀ {t : Network ι}, Due H t a b handed x → t.wire[k]? = some pkt →
              Due H (if again then t else t.without k) a b handed x := by
            intro t ht hkt
            split
            · exact ht
            · rename_i hagain
              exact ht.without hkt fun hreaches => hagain (hdelivers.2 hj pkt hk hreaches)
          rw [if_neg fun hand => hj hand.1, List.append_nil]
          cases socket with
          | metatraffic =>
            exact hdue h.receiveMeta (getElem?_wire_perform (getElem?_wire_perform hk))
          | userData =>
            exact hdue (h.perform fun heq => absurd heq hj) (getElem?_wire_perform hk)
  | lose k =>
    rw [show handedAt H b r s (.lose k) = [] from rfl, List.append_nil, Network.step]
    cases hk : s.wire[k]? with
    | none =>
      rw [Network.without, List.eraseIdx_of_length_le (List.getElem?_eq_none_iff.mp hk)]
      exact h
    | some pkt => exact h.without hk (hdelivers pkt hk)

/-! ## Samples written -/

omit [DecidableEq ι] in
lemma socketOf_dataAddr (H : Hosts ι) (i : ι) :
    (H.host i).socketOf (H.host i).dataAddr = some .userData := by
  rw [Host.socketOf, if_neg (H.dataAddr_ne i i), if_pos (.inl rfl)]

omit [DecidableEq ι] in
lemma socketOf_group {dst : SocketAddr} (h : (H.host i).cfg.userDataMulticastAddr = some dst) :
    (H.host i).socketOf dst = some .userData := by
  rw [Host.socketOf, if_neg, if_pos (.inr h.symm)]
  rintro rfl
  exact H.group_ne i i h

/-- The group of a participant is the one it was configured with. -/
lemma group_run (H : Hosts ι) (events : List (NetworkEvent ι)) (i : ι) :
    ((run H (start H) events).node i).inner.userDataMulticastAddr =
      (H.host i).cfg.userDataMulticastAddr := by
  have hall : Run.Each (step H) (fun _ _ => True) (start H) events :=
    Run.each_of_forall fun _ _ _ => trivial
  refine hall.foldl (I := fun s => (s.node i).inner.userDataMulticastAddr =
    (H.host i).cfg.userDataMulticastAddr) (fun s e hs _ => ?_) rfl
  obtain ⟨es, hes, -⟩ := node_step H s e i
  have hevents : Run.Each RtpsUdpParticipant.step (fun _ _ => True) (s.node i) es :=
    Run.each_of_forall fun _ _ _ => trivial
  rw [hes]
  exact hevents.foldl (I := fun p : RtpsUdpParticipant => p.inner.userDataMulticastAddr =
    (H.host i).cfg.userDataMulticastAddr) (fun p e hp _ => (p.group_step e).trans hp) hs

/-- **A write** puts each message of the sample in flight. -/
lemma due_of_written (hready : Ready H s a b w r log last)
    (hown : (s.node a).inner.userDataMulticastAddr = (H.host a).cfg.userDataMulticastAddr)
    (hgroup : (H.host a).cfg.userDataMulticastAddr = none ∨
      (H.host a).cfg.userDataMulticastAddr = (H.host b).cfg.userDataMulticastAddr)
    {utc : ℤ} {payload : Bytes} (hsize : payload.length + 4 ≤ maxReassemblyBytes)
    (hx : x ∈ (s.node a).written (.write w utc payload)) :
    Due H (s.perform H a (.write w utc payload)) a b [] x := by
  have hheader := (hready.announcing.honest.hosted a).own.header_eq
  have hlast := hready.last_lt
  have hlen : payload.length + 4 < 2 ^ 32 := by
    rw [maxReassemblyBytes] at hsize
    omega
  have hmatched := hready.matched.known.mem_matchedAddrs rfl
  obtain ⟨_, _, _, st, heq, hst, hlt, rfl⟩ := RtpsUdpParticipant.written_cases hx
  cases heq
  refine .inr fun k hk => .inl ?_
  obtain ⟨dst, hsend, hdst⟩ := @RtpsParticipant.exists_send_write _ _ _ _ _ _ hst
    ((hready.numbered.nodes a).writers _ _ hst) (by omega) utc _ hlen hmatched hk
  have hcarried := @Written.carriedBy_message (H.host a).header _ _ hlt hlen hk
  rw [hheader] at hsend
  refine ⟨_, mem_wire_perform.mpr (.inr ⟨_, dst, hsend, hcarried.length_le, rfl⟩), ⟨rfl, ?_⟩, rfl⟩
  rw [hown] at hdst
  rcases hdst with ⟨-, rfl⟩ | hdst
  · exact socketOf_dataAddr H b
  · refine socketOf_group ((hgroup.resolve_left fun hnone => ?_).symm.trans hdst)
    rw [hnone] at hdst
    cases hdst

end Due

/-! ## Runs -/

lemma written_subset (H : Hosts ι) (events more : List (NetworkEvent ι)) :
    written H events ⊆ written H (events ++ more) := by
  intro x hx
  rw [written, Run.trace_append]
  exact List.mem_append_left _ hx

/-- Where no participant makes too many endpoints, matched endpoints are ready. -/
lemma ready_run {before : List (NetworkEvent ι)} (e : NetworkEvent ι)
    (hlen : before.length < 2 ^ 64 - 64) (hlog : Unambiguous (written H before))
    (hcount : (before ++ [e]).countP (makesAt b) < 2 ^ 24)
    (hmatched : Matched H (run H (start H) before) a b w r) :
    Ready H (run H (start H) before) a b w r (written H before) before.length ∧
      Fresh b (run H (start H) before) e := by
  obtain ⟨hfresh, hnext, -⟩ := Run.each_append.mp (fresh_run H b hcount)
  obtain ⟨-, htraces, hnumbered⟩ := numbered_run H before hlen hlog
  exact ⟨⟨announcing_run hfresh, hmatched, htraces, hnumbered, hlog, hlen⟩, hnext⟩

/-- **A run** in which everything is delivered keeps the endpoints matched and the sample due. -/
lemma due_run {x : Written} {before after : List (NetworkEvent ι)} (hab : a ≠ b)
    (hlen : (before ++ after).length < 2 ^ 64 - 64)
    (hlog : Unambiguous (written H (before ++ after)))
    (hcount : (before ++ after).countP (makesAt b) < 2 ^ 24)
    (hmatched : Matched H (run H (start H) before) a b w r)
    (hx : x ∈ written H before) (hguid : x.guid = writerGuid H a w)
    (hsize : x.payload.length + 4 ≤ maxReassemblyBytes)
    (hdelivers : Run.Each (step H) (Delivers H a b w r) (run H (start H) before) after)
    (h : Due H (run H (start H) before) a b [] x) :
    Matched H (run H (start H) (before ++ after)) a b w r ∧
      Due H (run H (start H) (before ++ after)) a b
        (Run.trace (step H) (handedAt H b r) (run H (start H) before) after) x := by
  induction after using List.reverseRecOn with
  | nil =>
    rw [List.append_nil]
    exact ⟨hmatched, h⟩
  | append_singleton after e ih =>
    rw [← List.append_assoc] at hlen hlog hcount ⊢
    obtain ⟨hdelivers, hnow, -⟩ := Run.each_append.mp hdelivers
    have hlog' := hlog.of_subset (written_subset H (before ++ after) [e])
    rw [List.length_append, List.length_singleton] at hlen
    have hcount' := hcount
    rw [List.countP_append] at hcount'
    obtain ⟨hmatched', hdue⟩ := ih (by omega) hlog' (by omega) hdelivers
    obtain ⟨hready, hnext⟩ := ready_run e (by omega) hlog' hcount hmatched'
    have hrun : run H (start H) (before ++ after ++ [e]) =
        (run H (start H) (before ++ after)).step H e := List.foldl_append
    have hstate : after.foldl (step H) (run H (start H) before) =
        run H (start H) (before ++ after) := List.foldl_append.symm
    rw [hstate] at hnow
    rw [hrun, Run.trace_append, hstate, Run.trace, Run.trace, List.append_nil]
    refine ⟨hmatched'.step hab hready.announcing hnext ?_, ?_⟩
    · rintro rfl
      exact hnow rfl rfl
    · exact hdue.step hready hab (written_subset H before after hx) hguid hsize hnow

/-- The DATA of participant 1 arrives twice, and then its HEARTBEAT. -/
def pairDelivers : List (NetworkEvent Bool) :=
  [.deliver 0 true 0 0 true, .deliver 0 true 0 0 false, .deliver 0 true 0 0 false]

lemma matched_pair : Matched .pair (run .pair (start .pair) pairWrites.dropLast) false true
    ⟨entityIdForWriter 1, "a"⟩ (entityIdForReader 1) where
  endpoint := by decide +kernel
  known := by
    rw [Host.Known, if_neg (by decide)]
    decide +kernel
  sources := by
    have hsources : ((((run .pair (start .pair) pairWrites.dropLast).node true).inner.readers.lookup
        (entityIdForReader 1)).any fun st =>
          decide (writerGuid .pair false ⟨entityIdForWriter 1, "a"⟩ ∈ st.sources)) = true := by
      decide +kernel
    obtain ⟨st, hst, hmem⟩ := (Option.any_eq_true ..).mp hsources
    exact ⟨st, hst, of_decide_eq_true hmem⟩

end Network

end RustDds
