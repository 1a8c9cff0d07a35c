import RustDds.Network.Isolation
import RustDds.Network.Written

/-!
# Nothing arrives that was not written

Datagrams are reordered, duplicated and lost, and a lost one is sent again from what a writer
keeps; a large sample arrives in fragments.  Yet what a reader is handed is a sample that was
written before, with its number and by a writer that another participant has on the topic of the
reader (`Network.written_of_push`).

The invariant is `Traces`: the datagrams in flight, what the writers keep and what is being
reassembled are of samples written.
-/

namespace RustDds

section
variable {ι : Type*} {H : Hosts ι} {i j : ι}

namespace Network

variable {s : Network ι} {e : ParticipantEvent} {log log' : List Written} {pkt : Packet ι}

/-! ## The samples of a network -/

/-- The sample that a step writes. -/
def writtenAt (s : Network ι) : NetworkEvent ι → List Written
  | .act i e => (s.node i).written e
  | _ => []

/-- The samples written in a run, in order. -/
def written [DecidableEq ι] (H : Hosts ι) (events : List (NetworkEvent ι)) : List Written :=
  Run.trace (step H) writtenAt (start H) events

/-- The message carries a sample that `a` wrote. -/
def Wrote (H : Hosts ι) (log : List Written) (a : ι) (msg : Bytes) : Prop :=
  ∃ x ∈ log, x.guid.guidPrefix = (H.host a).cfg.guidPrefix ∧ x.CarriedBy (H.host a).header msg

/-- The datagram carries a sample that its sender wrote, or none, or it announces an endpoint. -/
def Genuine (H : Hosts ι) (log : List Written) (pkt : Packet ι) : Prop :=
  Wrote H log pkt.sender pkt.msg ∨
    (∃ m, Submessage.Control (fun _ => True) (fun _ => True) m ∧
      pkt.msg = m.message (H.host pkt.sender).header) ∨
    ∃ info, H.Announces pkt info

lemma Wrote.of_subset {a : ι} {msg : Bytes} (h : Wrote H log a msg) (hsub : log ⊆ log') :
    Wrote H log' a msg := by
  obtain ⟨x, hx, hcarried⟩ := h
  exact ⟨x, hsub hx, hcarried⟩

lemma Genuine.of_subset (h : Genuine H log pkt) (hsub : log ⊆ log') : Genuine H log' pkt :=
  h.imp_left fun hwrote => hwrote.of_subset hsub

/-- All that may still arrive, and all that has in part, is of samples written. -/
structure Traces (H : Hosts ι) (s : Network ι) (log : List Written) : Prop where
  wire : ∀ pkt ∈ s.wire, Genuine H log pkt
  kept : ∀ a eid seq msg, (s.node a).inner.KeepsMessage eid seq msg → Wrote H log a msg
  assembles : ∀ i, (s.node i).inner.fragAssembler.Assembles log

lemma traces_start (H : Hosts ι) : Traces H (start H) [] where
  wire _ h := (by cases h)
  kept _ _ _ _ h := by
    obtain ⟨_, _, hst, -⟩ := h
    cases hst
  assembles _ _ _ h := (by cases h)

lemma Traces.of_subset (h : Traces H s log) (hsub : log ⊆ log') : Traces H s log' :=
  ⟨fun pkt hpkt => (h.wire pkt hpkt).of_subset hsub,
    fun a eid seq msg hkeeps => (h.kept a eid seq msg hkeeps).of_subset hsub,
    fun i => (h.assembles i).of_subset hsub⟩

lemma Traces.without (h : Traces H s log) (k : ℕ) : Traces H (s.without k) log :=
  ⟨fun pkt hpkt => h.wire pkt (List.mem_of_mem_eraseIdx hpkt), h.kept, h.assembles⟩

/-! ## Arrivals -/

/-- What the sample pushed is. -/
def Brings (log : List Written) (guidPrefix : GuidPrefix) (sample : Sample) : Prop :=
  (∃ x ∈ log, sample.payload = x.payload ∧ sample.sequenceNumber = x.seq ∧
      sample.writerGuid = x.guid.toBytes) ∨
    ∃ eid, (eid = entityIdSedpPubWriter ∨ eid = entityIdSedpSubWriter) ∧
      sample.writerGuid = Guid.toBytes ⟨guidPrefix, eid⟩

/-- **A datagram that arrives** carries a sample, and another participant wrote it, or it leaves the
assembler as it is and brings no sample but of discovery. -/
lemma Genuine.receive_cases (h : Genuine H log pkt) (hlen : pkt.msg.length ≤ maxDatagramLen)
    {p : RtpsParticipant} (hp : p.header = (H.host i).header) {d : Datagram}
    (hd : d.data = pkt.msg) :
    (Wrote H log pkt.sender d.data ∧ (H.host pkt.sender).header.guidPrefix ≠ p.guidPrefix) ∨
      (RtpsParticipant.handleDataPacket d p).state.fragAssembler = p.fragAssembler ∧
        ∀ eid sample accepted,
          .push eid sample accepted ∈ (RtpsParticipant.handleDataPacket d p).out →
            ∃ w, (w = entityIdSedpPubWriter ∨ w = entityIdSedpSubWriter) ∧
              sample.writerGuid = Guid.toBytes ⟨(H.host pkt.sender).cfg.guidPrefix, w⟩ := by
  have hguidPrefix : p.guidPrefix = (H.host i).cfg.guidPrefix := congrArg Header.guidPrefix hp
  by_cases hsender : pkt.sender = i
  · -- its own messages it ignores
    have hdecode : Header.decode d.data = .ok (H.host pkt.sender).header := by
      rw [hd]
      rcases h with ⟨x, -, -, hcarried⟩ | ⟨m, -, hmsg⟩ | ⟨info, -, -, -, seqNum, hmsg⟩
      · exact hcarried.decode
      · rw [hmsg]
        exact Submessage.decode_message ..
      · rw [hmsg]
        exact decode_wrapInRtpsMessage ..
    rw [RtpsParticipant.handleDataPacket_own hdecode]
    · exact .inr ⟨rfl, fun _ _ _ hpush => by cases hpush⟩
    · rw [hguidPrefix, hsender]
      rfl
  have hforeign : (H.host pkt.sender).header.guidPrefix ≠ p.guidPrefix := by
    rw [hguidPrefix]
    exact fun heq => hsender (H.prefix_inj _ _ heq)
  rcases h with hwrote | ⟨m, hm, hmsg⟩ | ⟨info, -, -, -, seqNum, hmsg⟩
  · rw [← hd] at hwrote
    exact .inl ⟨hwrote, hforeign⟩
  · obtain ⟨hassembles, hnone⟩ :=
      RtpsParticipant.handleDataPacket_control hm (hd.trans hmsg) hforeign
    exact .inr ⟨hassembles, fun eid sample accepted hpush => absurd hpush (hnone _ _ _)⟩
  · have hbody : (buildEndpointData (H.host pkt.sender).cfg.sedp info).length + 20 < 2 ^ 16 := by
      rw [hmsg, ← Submessage.message_announcement, Submessage.length_message, maxDatagramLen,
        Submessage.announcement, Submessage.raw, length_dataBody] at hlen
      omega
    have hne : buildEndpointData (H.host pkt.sender).cfg.sedp info ≠ [] := by
      rw [buildEndpointData_eq]
      exact Param.encodeList_ne_nil _
    obtain ⟨hassembles, hsource⟩ :=
      RtpsParticipant.handleDataPacket_dataOf hne hbody (hd.trans hmsg) hforeign
    refine .inr ⟨hassembles, fun eid sample accepted hpush => ⟨_, ?_, hsource _ _ _ hpush⟩⟩
    split
    · exact .inl rfl
    · exact .inr rfl

/-- It brings what it carries. -/
lemma Genuine.receive (h : Genuine H log pkt) (hlog : Unambiguous log)
    (hlen : pkt.msg.length ≤ maxDatagramLen) {p : RtpsParticipant}
    (hp : p.header = (H.host i).header) (hasm : p.fragAssembler.Assembles log) {d : Datagram}
    (hd : d.data = pkt.msg) :
    (RtpsParticipant.handleDataPacket d p).state.fragAssembler.Assembles log ∧
      ∀ eid sample accepted,
        .push eid sample accepted ∈ (RtpsParticipant.handleDataPacket d p).out →
          Brings log (H.host pkt.sender).cfg.guidPrefix sample := by
  rcases h.receive_cases hlen hp hd with ⟨⟨x, hx, hguid, hcarried⟩, hforeign⟩ | ⟨hassembles, hdisc⟩
  · obtain ⟨frags, hassembles, h | ⟨origin, h⟩⟩ :=
      RtpsParticipant.handleDataPacket_carriedBy hlog hx hguid hcarried hforeign hasm
    · rw [h]
      exact ⟨hassembles, fun _ _ _ hpush => by cases hpush⟩
    · rw [h, (RtpsParticipant.readersOnly_acceptSample hcarried.1).fragAssembler_eq]
      exact ⟨hassembles, fun eid sample accepted hpush =>
        .inl ⟨x, hx, RtpsParticipant.push_acceptSample hcarried.1 hpush⟩⟩
  · rw [hassembles]
    exact ⟨hasm, fun eid sample accepted hpush => .inr (hdisc eid sample accepted hpush)⟩

/-! ## The invariant -/

variable [DecidableEq ι]

/-- **The step of a participant**, but for what it reassembles. -/
lemma Traces.perform (h : Traces H s log) (hhonest : Honest H s) (he : H.Truthful e)
    (hasm : ((s.node i).step e).inner.fragAssembler.Assembles log) :
    Traces H (s.perform H i e) (log ++ (s.node i).written e) := by
  have hp := hhonest.hosted i
  have hsub : log ⊆ log ++ (s.node i).written e := List.subset_append_left _ _
  have hheader := hp.own.header_eq
  have hwrote : ∀ {x : Written} {msg : Bytes}, x ∈ (s.node i).written e →
      x.CarriedBy (s.node i).inner.header msg → Wrote H (log ++ (s.node i).written e) i msg := by
    intro x msg hx hcarried
    refine ⟨x, List.mem_append_right _ hx, ?_, hheader ▸ hcarried⟩
    rw [RtpsUdpParticipant.guidPrefix_of_mem_written hx]
    exact congrArg Header.guidPrefix hheader
  refine ⟨fun pkt hpkt => ?_, fun a eid seq msg hkeeps => ?_, fun j => ?_⟩
  · rcases mem_wire_perform.mp hpkt with hold | ⟨msg, dst, hsend, -, rfl⟩
    · exact (h.wire pkt hold).of_subset hsub
    rcases RtpsUdpParticipant.sends_cases hsend with ⟨hsocket, hann⟩ |
      ⟨-, ⟨m, hm, rfl⟩ | ⟨eid, seq, hkeeps⟩ | ⟨w, utc, payload, rfl, hwrites⟩⟩
    · obtain ⟨info, -, hannounces⟩ := hp.announces (hp.step he) hann hsocket
      exact .inr (.inr ⟨info, hannounces⟩)
    · refine .inr (.inl ⟨m, hm.imp (fun _ _ => trivial) fun _ _ => trivial, ?_⟩)
      rw [hheader]
    · exact .inl ((h.kept i eid seq msg hkeeps).of_subset hsub)
    · have hwritten : ∃ x ∈ (s.node i).written (.write w utc payload),
          x.CarriedBy (s.node i).inner.header msg :=
        RtpsUdpParticipant.exists_written_of_writes hwrites
      obtain ⟨x, hx, hcarried⟩ := hwritten
      exact .inl (hwrote hx hcarried)
  · by_cases ha : a = i
    · subst ha
      rw [node_perform_self] at hkeeps
      rcases RtpsUdpParticipant.keepsMessage_step hkeeps with hold | ⟨x, hx, -, hcarried⟩
      · exact (h.kept a eid seq msg hold).of_subset hsub
      · exact hwrote hx hcarried
    · rw [node_perform_of_ne ha] at hkeeps
      exact (h.kept a eid seq msg hkeeps).of_subset hsub
  · by_cases hj : j = i
    · subst hj
      rw [node_perform_self]
      exact hasm.of_subset hsub
    · rw [node_perform_of_ne hj]
      exact (h.assembles j).of_subset hsub

/-- A step that writes nothing. -/
lemma Traces.perform_of_written_eq_nil (h : Traces H s log) (hhonest : Honest H s)
    (he : H.Truthful e) (hnone : (s.node i).written e = [])
    (hasm : ((s.node i).step e).inner.fragAssembler.Assembles log) :
    Traces H (s.perform H i e) log := by
  have hstep := h.perform hhonest he hasm
  rwa [hnone, List.append_nil] at hstep

lemma Traces.receiveMeta (h : Traces H s log) (hhonest : Honest H s) {now : ℕ} {msg : Bytes}
    {src : SocketAddr} (htrue : H.Truthful (.spdpPacket now msg src)) :
    Traces H (s.receiveMeta H j now msg src) log := by
  have hspdp : Traces H (s.perform H j (.spdpPacket now msg src)) log :=
    h.perform_of_written_eq_nil hhonest htrue rfl (h.assembles j)
  exact hspdp.perform_of_written_eq_nil (hhonest.perform htrue) trivial rfl (hspdp.assembles j)

/-- **The step of the network.** -/
lemma Traces.step (h : Traces H s log) (hhonest : Honest H s) (hlog : Unambiguous log)
    (e : NetworkEvent ι) : Traces H (s.step H e) (log ++ writtenAt s e) := by
  cases e with
  | act i e =>
    rw [Network.step]
    split
    · exact h.of_subset (List.subset_append_left _ _)
    rename_i hlocal
    refine h.perform hhonest (Hosts.truthful_of_not_receives hlocal) ?_
    rw [((s.node i).sameTransport_step _).fragAssembler_eq]
    · exact h.assembles i
    · rintro d rfl
      exact hlocal rfl
  | hear i j now seqNum direct =>
    have htrue := H.truthful_announcement now j seqNum
    rw [show writtenAt s (.hear i j now seqNum direct) = [] from rfl, List.append_nil, Network.step]
    split
    · exact h.receiveMeta hhonest htrue
    · exact h.perform_of_written_eq_nil hhonest htrue rfl (h.assembles i)
  | deliver k j now utc again =>
    rw [show writtenAt s (.deliver k j now utc again) = [] from rfl, List.append_nil]
    refine deliver_rule (I := fun t => Traces H t log) h (fun t k ht => ht.without k)
      (fun pkt hpkt _ => ?_) fun pkt hpkt _ => ?_
    · exact h.receiveMeta hhonest (.inr fun sp => hhonest.spdp_wire hpkt sp now _)
    · refine h.perform_of_written_eq_nil hhonest trivial rfl ?_
      exact ((h.wire pkt hpkt).receive hlog (hhonest.length_le pkt hpkt)
        (hhonest.hosted j).own.header_eq (h.assembles j) rfl).1
  | lose k =>
    rw [show writtenAt s (.lose k) = [] from rfl, List.append_nil]
    exact h.without k

/-- **Integrity.**  In every run of participants that make fewer than `2 ^ 24` endpoints each, and
whose samples are unambiguous, a reader that is handed a sample by a datagram in flight is handed
one that was written before, by a writer that another participant has on its topic. -/
theorem written_of_push (H : Hosts ι) (events : List (NetworkEvent ι))
    (hcount : ∀ a, events.countP (makesAt a) < 2 ^ 24) (hlog : Unambiguous (written H events))
    (i : ι) (pkt : Packet ι) (hpkt : pkt ∈ (run H (start H) events).wire) (now : ℕ) (utc : ℤ)
    (eid : EntityId) (sample : Sample) (accepted : Bool)
    (hpush : .push eid sample accepted ∈ (RtpsUdpParticipant.handle
      (.dataPacket ⟨now, utc, pkt.msg, pkt.src⟩) ((run H (start H) events).node i)).out) :
    let s := run H (start H) events
    ∃ x ∈ written H events, sample.payload = x.payload ∧ sample.sequenceNumber = x.seq ∧
      sample.writerGuid = x.guid.toBytes ∧
        ∃ a, a ≠ i ∧ ⟨x.guid, sample.topic, true⟩ ∈ (s.node a).localEndpoints := by
  intro s
  obtain ⟨-, hsound⟩ := sound_run H events hcount
  have htraces : Traces H s (written H events) := by
    have hall : Run.Each (step H) (fun _ _ => True) (start H) events :=
      Run.each_of_forall fun _ _ _ => trivial
    have hrun := hall.foldl_trace (f := writtenAt) (J := fun t log => Unambiguous log →
      Honest H t ∧ Traces H t log) (fun t e log h _ hmore => ?_) (l := [])
        fun _ => ⟨honest_start H, traces_start H⟩
    · exact (hrun hlog).2
    · obtain ⟨hhonest, ht⟩ := h (hmore.of_subset (List.subset_append_left _ _))
      exact ⟨hhonest.step e, ht.step hhonest (hmore.of_subset (List.subset_append_left _ _)) e⟩
  have hhonest := (hsound.announcing i).honest
  obtain ⟨st, g, -, htopic, hguid, hknown⟩ :=
    (RtpsUdpParticipant.topicsApart_of_isolated (hsound.isolated i)).2 _ _ _ _ hpush
  obtain ⟨a, ha, hendpoint⟩ := hsound.exists_writer hknown
  rw [← htopic] at hendpoint
  rcases ((htraces.wire pkt hpkt).receive hlog (hhonest.length_le pkt hpkt)
    (hhonest.hosted i).own.header_eq (htraces.assembles i) rfl).2 _ _ _ hpush with
    ⟨x, hx, hpayload, hseq, hwriter⟩ | ⟨w, hw, hwriter⟩
  · rw [Guid.toBytes_injective (hguid.symm.trans hwriter)] at hendpoint
    exact ⟨x, hx, hpayload, hseq, hwriter, a, ha, hendpoint⟩
  · -- the writers of applications are not those of discovery
    rw [Guid.toBytes_injective (hguid.symm.trans hwriter)] at hendpoint
    obtain ⟨k, eid', hlookup⟩ := RtpsUdpParticipant.mem_localEndpoints.mp hendpoint
    obtain ⟨n, -, heid⟩ := (hsound.announcing a).numbered k eid' _ hlookup
    have hlocal := ((hhonest.hosted a).locals k eid' _ hlookup).2
    have hk : k = .writer := by simpa using congrArg EndpointInfo.isWriter hlocal
    have hw' : w = entityIdForWriter n := by
      rw [hk] at heid
      exact (congrArg (fun info => info.guid.entity) hlocal).trans heid
    obtain ⟨-, hpub, hsub⟩ := entityIdForWriter_ne n
    rcases hw with rfl | rfl
    · exact absurd hw'.symm hpub
    · exact absurd hw'.symm hsub

/-- Participant 1 and participant 2 have met, and participant 1 writes. -/
def pairWrites : List (NetworkEvent Bool) :=
  pairMakes ++ .hear false true 0 1 false :: pairMeets ++
    [.hear true false 0 1 false, .act true .takePeer, .deliver 0 false 0 0 false,
      .act false (.write ⟨entityIdForWriter 1, "a"⟩ 0 [104, 105])]

/-- The DATA of participant 1, on its way to participant 2. -/
def pairData : Packet Bool :=
  ⟨false, (Host.ofBool false).dataAddr, (Host.ofBool true).dataAddr,
    dataMessage (Host.ofBool false).header (entityIdForWriter 1) 1 [104, 105]⟩

lemma unambiguous_pairWrites : Unambiguous (written .pair pairWrites) := by
  have hwritten : written .pair pairWrites =
      [⟨⟨(Host.ofBool false).cfg.guidPrefix, entityIdForWriter 1⟩, 1, [104, 105]⟩] := by
    decide +kernel
  rw [hwritten]
  refine ⟨by simp, fun x hx y hy _ _ _ => ?_⟩
  rw [List.mem_singleton.mp hx, List.mem_singleton.mp hy]

/-- What participant 2 is handed is what participant 1 wrote. -/
theorem written_of_push_pair :
    ∃ x ∈ written .pair pairWrites, [104, 105] = x.payload ∧ 1 = x.seq := by
  obtain ⟨x, hx, hpayload, hseq, -⟩ := written_of_push .pair pairWrites (by decide)
    unambiguous_pairWrites true pairData (by decide +kernel) 0 0 (entityIdForReader 1)
    ⟨"a", [104, 105], 0, 1,
      Guid.toBytes ⟨(Host.ofBool false).cfg.guidPrefix, entityIdForWriter 1⟩⟩ true
    (by decide +kernel)
  exact ⟨x, hx, hpayload, hseq⟩

end Network

end

end RustDds
