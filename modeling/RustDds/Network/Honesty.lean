import RustDds.Network.Hosts

/-!
# What participants know of each other

On a network where nobody else sends, a peer that a participant knows is one of the participants
and is known at its address, and a datagram in flight either announces an endpoint of its sender
or announces nothing (`Network.honest_run`).  What a participant with such peers reads from such a
datagram is then exactly what was announced.
-/

namespace RustDds

/-! ## What a step leaves alone -/

namespace SedpService

lemma locals_record (s : SedpService) (a : Announcement) (k : EndpointKind) :
    (s.record a).locals k = s.locals k := by
  rw [record_eq]
  cases k <;> rfl

lemma locals_handlePacket (s : SedpService) (data : Bytes) (src : SocketAddr)
    (k : EndpointKind) : (s.handlePacket data src).locals k = s.locals k := by
  rw [handlePacket_eq]
  generalize s.config.accepted data src = as
  induction as generalizing s with
  | nil => rfl
  | cons a as ih => rw [List.foldl_cons, ih, locals_record]

lemma locals_onNewPeer (s : SedpService) (proxy : ParticipantProxy) (k : EndpointKind) :
    (s.onNewPeer proxy).2.locals k = s.locals k := by
  obtain ⟨n, hn⟩ := s.onNewPeer_eq proxy
  rw [hn]
  cases k <;> rfl

end SedpService

namespace RtpsUdpParticipant

variable {s : RtpsUdpParticipant} {e : ParticipantEvent}

/-- A step of anything but SPDP leaves SPDP alone. -/
lemma spdp_step (s : RtpsUdpParticipant) (e : ParticipantEvent) : (s.step e).spdp = match e with
    | .spdpPacket now data src => s.spdp.handlePacket now data src
    | .sweep now => s.spdp.evictExpired now
    | _ => s.spdp := by
  cases e with
  | takeMatch =>
    rw [step, handle, takeMatch]
    cases s.pendingMatches <;> rfl
  | takePeer =>
    rw [step, handle, takePeer]
    cases s.pendingPeers <;> rfl
  | newPublisher topic qos =>
    rw [step, handle, newPublisher]
    split <;> rfl
  | newSubscriber topic qos opts utc =>
    rw [step, handle, newSubscriber]
    split <;> rfl
  | _ => rfl

/-- Only the bridge of the peers takes any. -/
lemma peersTaken_step (h : e ≠ .takePeer) : (s.step e).peersTaken = s.peersTaken := by
  cases e with
  | takePeer => exact absurd rfl h
  | takeMatch =>
    rw [step, handle, takeMatch]
    cases s.pendingMatches <;> rfl
  | newPublisher topic qos =>
    rw [step, handle, newPublisher]
    split <;> rfl
  | newSubscriber topic qos opts utc =>
    rw [step, handle, newSubscriber]
    split <;> rfl
  | _ => rfl

/-- The bridge of the peers has SEDP announce the local endpoints to the first of them. -/
lemma takePeer_step {proxy : ParticipantProxy} {proxies : List ParticipantProxy}
    (h : s.pendingPeers = proxy :: proxies) :
    (handle .takePeer s).out = RtpsParticipant.announcements (s.sedp.onNewPeer proxy).1 ∧
      (s.step .takePeer).peersTaken = s.peersTaken + 1 := by
  rw [step, handle, takePeer, h]
  exact ⟨rfl, rfl⟩

lemma takePeer_step_nil (h : s.pendingPeers = []) : s.step .takePeer = s := by
  rw [step, handle, takePeer, h]
  rfl

/-- `s'` has the local endpoints of `s`. -/
structure SameLocals (s s' : RtpsUdpParticipant) : Prop where
  locals_eq : ∀ k, s'.sedp.locals k = s.sedp.locals k
  writers : ∀ eid, eid ∈ s'.inner.writers ↔ eid ∈ s.inner.writers

lemma SameLocals.refl (s : RtpsUdpParticipant) : SameLocals s s := ⟨fun _ => rfl, fun _ => Iff.rfl⟩

lemma SameLocals.localEndpoints_eq {s' : RtpsUdpParticipant} (h : SameLocals s s') :
    s'.localEndpoints = s.localEndpoints := by
  exact congrArg₂ (fun ws rs => Table.values ws ++ Table.values rs) (h.locals_eq .writer)
    (h.locals_eq .reader)

/-- What the endpoints of the data path keep of their writers. -/
lemma sameLocals_onInner {c : Cmd RtpsParticipant Effect Panic}
    (hsteady : Steady s.inner (c s.inner).state)
    (hsame : RtpsParticipant.SameEndpoints s.inner (c s.inner).state) :
    SameLocals s (onInner c s).state where
  locals_eq k := congrArg (SedpService.locals · k) hsteady.sedp_eq
  writers := hsame.has_iff .writer

/-- **The step**: it registers an endpoint, or the local endpoints stay. -/
lemma local_step (s : RtpsUdpParticipant) (e : ParticipantEvent) : SameLocals s (s.step e) ∨
    ∃ k topic, e.makes = some (k, topic) ∧ topic ≠ "" ∧ s.inner.CanNumber ∧
      Registers s (s.step e) (handle e s).out k topic := by
  have hmake : ∀ {k topic}, e.makes = some (k, topic) → SameLocals s (s.step e) ∨
      ∃ k topic, e.makes = some (k, topic) ∧ topic ≠ "" ∧ s.inner.CanNumber ∧
        Registers s (s.step e) (handle e s).out k topic := by
    intro k topic hmakes
    by_cases h : topic ≠ "" ∧ s.inner.CanNumber
    · exact .inr ⟨k, topic, hmakes, h.1, h.2, registers_step hmakes h.1 h.2⟩
    · rcases (step_of_not_registers hmakes h).2 with heq | heq
      · exact .inl (by rw [heq]; exact .refl s)
      · exact .inl (by rw [heq]; exact ⟨fun _ => rfl, fun _ => Iff.rfl⟩)
  cases e with
  | newPublisher topic qos => exact hmake rfl
  | newSubscriber topic qos opts utc => exact hmake rfl
  | spdpPacket | sweep | unsubscribe => exact .inl ⟨fun _ => rfl, fun _ => Iff.rfl⟩
  | sedpPacket data src =>
    exact .inl ⟨s.sedp.locals_handlePacket data src, fun _ => Iff.rfl⟩
  | takeMatch =>
    rw [step, handle, takeMatch]
    cases s.pendingMatches with
    | nil => exact .inl (.refl s)
    | cons m ms => exact .inl ⟨fun _ => rfl, fun _ => Iff.rfl⟩
  | takePeer =>
    rw [step, handle, takePeer]
    cases s.pendingPeers with
    | nil => exact .inl (.refl s)
    | cons proxy proxies =>
      exact .inl ⟨s.sedp.locals_onNewPeer proxy, fun _ => Iff.rfl⟩
  | dataPacket d =>
    exact .inl (sameLocals_onInner (RtpsParticipant.keeps_handleDataPacket s.inner d).1
      (RtpsParticipant.sameEndpoints_handleDataPacket d s.inner))
  | write w utc payload =>
    exact .inl (sameLocals_onInner (RtpsParticipant.steady_write w utc payload s.inner)
      (RtpsParticipant.sameEndpoints_write w utc payload s.inner))

end RtpsUdpParticipant

/-! ## What discovery reads -/

section
variable {ι : Type*} {H : Hosts ι} {i j : ι}

lemma Host.socketAddr_isV6 (h : Host) : h.addr.isV6 = h.cfg.spdp.ipv6 := h.isV6_eq

/-- The announcement of an endpoint is none of the concern of SPDP. -/
lemma spdp_endpointMessage {cfg : SedpConfig} {info : EndpointInfo} {seqNum : UInt32}
    (hlen : (endpointMessage cfg info seqNum).length ≤ maxDatagramLen) (s : SpdpService) (now : ℕ)
    (src : SocketAddr) : s.handlePacket now (endpointMessage cfg info seqNum) src = s := by
  rw [← Submessage.message_announcement, Submessage.length_message, maxDatagramLen] at hlen
  rw [← Submessage.message_announcement]
  have hbody : (Submessage.announcement cfg info seqNum).raw.body.length < 2 ^ 16 := by omega
  refine spdp_of_announcedPayload hbody (announcedPayload_data ?_ ?_) s now src
  · rw [buildEndpointData_eq]
    exact Param.encodeList_ne_nil _
  · cases info.isWriter <;> decide

/-- The announcement of a participant is none of the concern of SEDP. -/
lemma sedp_announcement (h : Host) (seqNum : UInt32) (cfg : SedpConfig) (src : SocketAddr) :
    cfg.accepted (h.announcement seqNum) src = [] := by
  have htag : h.cfg.spdp.TagFits := fun plugin hplugin => by cases hplugin
  have hlen := length_buildParticipantData_le htag
  refine sedp_of_announcedEndpoint
    (m := .data entityIdSpdpWriter entityIdSpdpReader ⟨0, seqNum⟩ (buildParticipantData h.cfg.spdp))
    ?_ (announcedEndpoint_data ?_ (by decide) (by decide)) cfg src
  · rw [Submessage.raw, length_dataBody]
    omega
  · rw [buildParticipantData_eq]
    exact Param.encodeList_ne_nil _

/-- What is stored of a participant is its prefix and its metatraffic address. -/
def Hosts.Shows (H : Hosts ι) (j : ι) (proxy : ParticipantProxy) : Prop :=
  proxy.guid.guidPrefix = (H.host j).cfg.guidPrefix ∧
    proxy.metatrafficUnicast.udpAddr = some (H.host j).addr

/-- The peer as it is stored of the participant. -/
def Host.proxy (h : Host) (now : ℕ) : ParticipantProxy :=
  SpdpService.stampPeer now (announcedProxy h.cfg.spdp h.addr)

lemma Hosts.shows_proxy (H : Hosts ι) (j : ι) (now : ℕ) : H.Shows j ((H.host j).proxy now) := by
  refine ⟨rfl, (SocketAddr.udpAddr_locatorAt _ _).trans ?_⟩
  show some ((H.host j).addr.withPort (H.host j).cfg.metaUnicastPort) = _
  rw [← (H.host j).port_eq, SocketAddr.withPort_port]

/-- **Hearing of a participant** is storing it. -/
lemma spdp_announcement {s : SpdpService} (hcfg : s.config = (H.host i).cfg.spdp) (hne : i ≠ j)
    (now : ℕ) (seqNum : UInt32) :
    s.handlePacket now ((H.host j).announcement seqNum) (H.host j).addr = { s with
      announcesReceived := s.announcesReceived + 1
      peers := s.peers.insert (H.host j).cfg.guidPrefix ((H.host j).proxy now)
      peerListener := s.peerListener.map (· ++ [(H.host j).proxy now]) } := by
  have hforeign : (H.host j).cfg.spdp.guidPrefix ≠ s.config.guidPrefix := by
    rw [hcfg]
    exact fun h => hne (H.prefix_inj i j h.symm)
  have hverifies : s.config.verifies (H.host j).cfg.spdp.guidPrefix
      (buildParticipantData (H.host j).cfg.spdp) = true := by
    rw [hcfg]
    rfl
  exact (SpdpService.handlePacket_announcement hforeign (H.host j).socketAddr_isV6
    (fun plugin hplugin => by cases hplugin)).trans (if_pos hverifies)

/-- A participant ignores its own announcement. -/
lemma spdp_announcement_self {s : SpdpService} (hcfg : s.config = (H.host i).cfg.spdp) (now : ℕ)
    (seqNum : UInt32) :
    s.handlePacket now ((H.host i).announcement seqNum) (H.host i).addr = s := by
  rw [SpdpService.handlePacket, Host.announcement, announcementMessage, decode_wrapInRtpsMessage]
  dsimp only
  rw [hcfg]
  exact if_pos rfl

/-- The announcement of one of its endpoints, as it is read elsewhere. -/
def Host.announced (h : Host) (info : EndpointInfo) : Announcement :=
  ⟨h.cfg.guidPrefix, info.isWriter,
    ⟨info.guid, info.topicName, h.addr.locatorAt h.cfg.dataUnicastPort⟩⟩

lemma Host.info_announced (h : Host) (info : EndpointInfo) : (h.announced info).info = info := rfl

/-- **Receiving the announcement of an endpoint** is recording it. -/
lemma sedp_endpointMessage {s : SedpService} (hcfg : s.config = (H.host i).cfg.sedp) (hne : i ≠ j)
    {info : EndpointInfo} (htopic : info.topicName ≠ "") {seqNum : UInt32}
    (hlen : (endpointMessage (H.host j).cfg.sedp info seqNum).length ≤ maxDatagramLen) :
    s.handlePacket (endpointMessage (H.host j).cfg.sedp info seqNum) (H.host j).addr =
      s.record ((H.host j).announced info) := by
  have hforeign : (H.host j).cfg.sedp.guidPrefix ≠ s.config.guidPrefix := by
    rw [hcfg]
    exact fun h => hne (H.prefix_inj i j h.symm)
  rw [SedpService.handlePacket_eq,
    accepted_endpointMessage hforeign (H.host j).isV6_eq htopic hlen]
  rfl

/-- A participant ignores its own announcements. -/
lemma sedp_endpointMessage_self {s : SedpService} (hcfg : s.config = (H.host i).cfg.sedp)
    {info : EndpointInfo} {seqNum : UInt32} (src : SocketAddr) :
    s.handlePacket (endpointMessage (H.host i).cfg.sedp info seqNum) src = s := by
  rw [SedpService.handlePacket, endpointMessage, decode_wrapInRtpsMessage]
  dsimp only
  rw [hcfg]
  exact if_pos rfl

lemma sedp_of_accepted_eq_nil {s : SedpService} {msg : Bytes} {src : SocketAddr}
    (h : s.config.accepted msg src = []) : s.handlePacket msg src = s := by
  rw [SedpService.handlePacket_eq, h]
  rfl

end

/-! ## The invariant -/

section
variable {ι : Type*} {H : Hosts ι} {i j : ι}

/-- SPDP at `i` knows participants only, each at its address. -/
structure Hosts.KnowsPeers (H : Hosts ι) (i : ι) (s : SpdpService) : Prop where
  config_eq : s.config = (H.host i).cfg.spdp
  peers : ∀ key proxy, s.peers.lookup key = some proxy →
    ∃ j, key = (H.host j).cfg.guidPrefix ∧ H.Shows j proxy
  listener : ∃ sent, s.peerListener = some sent ∧ ∀ proxy ∈ sent, ∃ j, H.Shows j proxy

/-- The events a listener was sent. -/
lemma Hosts.KnowsPeers.heard {s : SpdpService} (h : H.KnowsPeers i s) (hne : i ≠ j) (now : ℕ)
    (seqNum : UInt32) :
    (s.handlePacket now ((H.host j).announcement seqNum) (H.host j).addr).peerListener.getD [] =
      s.peerListener.getD [] ++ [(H.host j).proxy now] := by
  obtain ⟨sent, hsent, -⟩ := h.listener
  rw [spdp_announcement h.config_eq hne, hsent]
  rfl

lemma Hosts.KnowsPeers.hear {s : SpdpService} (h : H.KnowsPeers i s) (j : ι) (now : ℕ)
    (seqNum : UInt32) :
    H.KnowsPeers i (s.handlePacket now ((H.host j).announcement seqNum) (H.host j).addr) := by
  by_cases hne : i = j
  · rw [← hne, spdp_announcement_self h.config_eq]
    exact h
  rw [spdp_announcement h.config_eq hne]
  refine ⟨h.config_eq, fun key proxy hproxy => ?_, ?_⟩
  · rcases Table.lookup_insert_eq_some.mp hproxy with ⟨rfl, rfl⟩ | ⟨-, hold⟩
    · exact ⟨j, rfl, H.shows_proxy j now⟩
    · exact h.peers key proxy hold
  · obtain ⟨sent, hsent, hall⟩ := h.listener
    refine ⟨sent ++ [(H.host j).proxy now], by rw [hsent]; rfl, fun proxy hproxy => ?_⟩
    rcases List.mem_append.mp hproxy with hproxy | hproxy
    · exact hall proxy hproxy
    · rw [List.mem_singleton.mp hproxy]
      exact ⟨j, H.shows_proxy j now⟩

lemma Hosts.KnowsPeers.evictExpired {s : SpdpService} (h : H.KnowsPeers i s) (now : ℕ) :
    H.KnowsPeers i (s.evictExpired now) := by
  refine ⟨h.config_eq, fun key proxy hproxy => h.peers key proxy ?_, h.listener⟩
  have hretained : (s.peers.retain fun _ peer => !SpdpService.expired now peer).lookup key =
      some proxy := hproxy
  rw [Table.lookup_retain] at hretained
  exact (Option.filter_eq_some_iff.mp hretained).1

/-- The participant `i`, as it is when nobody else sends. -/
structure Hosts.Hosted (H : Hosts ι) (i : ι) (p : RtpsUdpParticipant) : Prop where
  sedp_config : p.sedp.config = (H.host i).cfg.sedp
  spdp : H.KnowsPeers i p.spdp
  own : RtpsParticipant.OwnHistories (H.host i).header p.inner
  writers : ∀ eid ∈ p.inner.writers, ∃ n, eid = entityIdForWriter n
  locals : ∀ k eid info, (p.sedp.locals k).lookup eid = some info → info.topicName ≠ "" ∧
    info = ⟨⟨(H.host i).cfg.guidPrefix, eid⟩, info.topicName, k = .writer⟩
  taken_le : p.peersTaken ≤ (p.spdp.peerListener.getD []).length

lemma Hosts.hosted_new (H : Hosts ι) (i : ι) : H.Hosted i (.new (H.host i).cfg) where
  sedp_config := rfl
  spdp := ⟨rfl, fun _ _ h => (by cases h), [], rfl, fun _ h => (by cases h)⟩
  own := ⟨rfl, fun _ _ _ h => (by cases h)⟩
  writers eid h := by
    have hkeys : eid ∈ (∅ : Table EntityId WriterState) := h
    exact absurd hkeys (AList.notMem_empty eid)
  locals k eid info h := by cases k <;> cases h
  taken_le := Nat.le_refl _

/-- If SPDP is given the datagram, it is an announcement of a participant or no announcement. -/
def Hosts.Truthful (H : Hosts ι) : ParticipantEvent → Prop
  | .spdpPacket now data src =>
    (∃ j seqNum, data = (H.host j).announcement seqNum ∧ src = (H.host j).addr) ∨
      ∀ s : SpdpService, s.handlePacket now data src = s
  | _ => True

lemma Hosts.truthful_announcement (H : Hosts ι) (now : ℕ) (j : ι) (seqNum : UInt32) :
    H.Truthful (.spdpPacket now ((H.host j).announcement seqNum) (H.host j).addr) :=
  .inl ⟨j, seqNum, rfl, rfl⟩

/-- What a participant does by itself tells it nothing. -/
lemma Hosts.truthful_of_not_receives {e : ParticipantEvent} (he : ¬ e.receives) : H.Truthful e := by
  cases e with
  | spdpPacket => exact absurd rfl he
  | _ => trivial

/-- A listener is sent more and more. -/
lemma Hosts.KnowsPeers.exists_listener {p : RtpsUdpParticipant} (h : H.KnowsPeers i p.spdp)
    {e : ParticipantEvent} (he : H.Truthful e) : ∃ more,
      (p.step e).spdp.peerListener.getD [] = p.spdp.peerListener.getD [] ++ more := by
  rw [RtpsUdpParticipant.spdp_step]
  cases e with
  | spdpPacket now data src =>
    dsimp only
    rcases he with ⟨j, seqNum, rfl, rfl⟩ | hsilent
    · by_cases hne : i = j
      · rw [← hne, spdp_announcement_self h.config_eq]
        exact ⟨[], (List.append_nil _).symm⟩
      · exact ⟨_, h.heard hne now seqNum⟩
    · rw [hsilent p.spdp]
      exact ⟨[], (List.append_nil _).symm⟩
  | _ => exact ⟨[], (List.append_nil _).symm⟩

/-- What is pending stays so until it is taken. -/
lemma Hosts.Hosted.pendingPeers_step {p : RtpsUdpParticipant} (h : H.Hosted i p)
    {e : ParticipantEvent} (he : H.Truthful e) (htake : e ≠ .takePeer) :
    ∃ more, (p.step e).pendingPeers = p.pendingPeers ++ more := by
  obtain ⟨more, hmore⟩ := h.spdp.exists_listener he
  rw [RtpsUdpParticipant.pendingPeers, hmore, RtpsUdpParticipant.peersTaken_step htake,
    List.drop_append_of_le_length h.taken_le]
  exact ⟨more, rfl⟩

/-- **The step of a participant.** -/
lemma Hosts.Hosted.step {p : RtpsUdpParticipant} (h : H.Hosted i p) {e : ParticipantEvent}
    (he : H.Truthful e) : H.Hosted i (p.step e) := by
  have hspdp : H.KnowsPeers i (p.step e).spdp := by
    rw [RtpsUdpParticipant.spdp_step]
    cases e with
    | spdpPacket now data src =>
      rcases he with ⟨j, seqNum, rfl, rfl⟩ | hsilent
      · exact h.spdp.hear j now seqNum
      · dsimp only
        rw [hsilent p.spdp]
        exact h.spdp
    | sweep now => exact h.spdp.evictExpired now
    | _ => exact h.spdp
  have hconfig : (p.step e).sedp.config = (H.host i).cfg.sedp := by
    rw [RtpsUdpParticipant.config_step, h.sedp_config]
  have hown := RtpsUdpParticipant.ownHistories_step h.own e
  have htaken : (p.step e).peersTaken ≤ ((p.step e).spdp.peerListener.getD []).length := by
    obtain ⟨more, hmore⟩ := h.spdp.exists_listener he
    have hle := h.taken_le
    rw [hmore, List.length_append]
    by_cases htake : e = .takePeer
    · subst htake
      cases hpending : p.pendingPeers with
      | nil =>
        rw [RtpsUdpParticipant.takePeer_step_nil hpending]
        omega
      | cons proxy proxies =>
        have hlt : 0 < p.pendingPeers.length := by simp [hpending]
        rw [RtpsUdpParticipant.pendingPeers, List.length_drop] at hlt
        rw [(RtpsUdpParticipant.takePeer_step hpending).2]
        omega
    · rw [RtpsUdpParticipant.peersTaken_step htake]
      omega
  rcases p.local_step e with hsame | ⟨k, topic, -, htopic, -, hreg⟩
  · refine ⟨hconfig, hspdp, hown, fun eid heid => ?_, fun k => ?_, htaken⟩
    · exact h.writers eid ((hsame.writers eid).mp heid)
    · rw [hsame.locals_eq]
      exact h.locals k
  · refine ⟨hconfig, hspdp, hown, fun eid heid => ?_, fun k' eid info hinfo => ?_, htaken⟩
    · rcases hreg.writers eid heid with hold | hnew
      · exact h.writers eid hold
      · exact ⟨_, hnew⟩
    · rw [hreg.locals_eq] at hinfo
      split at hinfo
      · rename_i hk
        subst hk
        rcases Table.lookup_insert_eq_some.mp hinfo with ⟨rfl, rfl⟩ | ⟨-, hold⟩
        · refine ⟨htopic, ?_⟩
          rw [RtpsUdpParticipant.nextEndpoint, SedpService.localInfo, h.sedp_config]
          rfl
        · exact h.locals _ eid info hold
      · exact h.locals k' eid info hinfo

/-- The datagram announces an endpoint of its sender. -/
def Hosts.Announces (H : Hosts ι) (pkt : Packet ι) (info : EndpointInfo) : Prop :=
  info.topicName ≠ "" ∧ info.guid.guidPrefix = (H.host pkt.sender).cfg.guidPrefix ∧
    pkt.src = (H.host pkt.sender).addr ∧
      ∃ seqNum, pkt.msg = endpointMessage (H.host pkt.sender).cfg.sedp info seqNum

/-- What a participant announces. -/
lemma Hosts.Hosted.announces {p : RtpsUdpParticipant} {e : ParticipantEvent} (h : H.Hosted i p)
    (hstep : H.Hosted i (p.step e)) {msg : Bytes} {dst : SocketAddr}
    (hann : p.Announces (p.step e) msg dst) (hsocket : e.socket = .metatraffic) :
    ∃ info ∈ (p.step e).localEndpoints,
      H.Announces ⟨i, (H.host i).socketAddr e.socket, dst, msg⟩ info := by
  obtain ⟨info, hinfo, seqNum, rfl, -⟩ := hann
  obtain ⟨k, eid, hlookup⟩ := RtpsUdpParticipant.mem_localEndpoints.mp hinfo
  obtain ⟨htopic, heq⟩ := hstep.locals k eid info hlookup
  refine ⟨info, hinfo, htopic, ?_, ?_, seqNum, ?_⟩
  · rw [heq]
  · rw [hsocket]
    rfl
  · rw [h.sedp_config]

/-- What a participant sends. -/
lemma Hosts.Hosted.sends {p : RtpsUdpParticipant} {e : ParticipantEvent} (h : H.Hosted i p)
    (hstep : H.Hosted i (p.step e)) {msg : Bytes} {dst : SocketAddr}
    (hsend : .send msg dst ∈ (RtpsUdpParticipant.handle e p).out) :
    (∃ info ∈ (p.step e).localEndpoints,
      H.Announces ⟨i, (H.host i).socketAddr e.socket, dst, msg⟩ info) ∨ Silent msg := by
  have hown := h.own
  rw [← hown.header_eq] at hown
  rcases RtpsUdpParticipant.sends_cases hsend with ⟨hsocket, hann⟩ | ⟨-, hdata⟩
  · exact .inl (h.announces hstep hann hsocket)
  · obtain ⟨m, hm, rfl⟩ := hdata.onDataPath hown
    exact .inr (hm.imp h.writers fun _ hr => hr).silent

namespace Network

variable {s : Network ι} {e : ParticipantEvent}

/-- Nobody else has sent. -/
structure Honest (H : Hosts ι) (s : Network ι) : Prop where
  hosted : ∀ i, H.Hosted i (s.node i)
  length_le : ∀ pkt ∈ s.wire, pkt.msg.length ≤ maxDatagramLen
  wire : ∀ pkt ∈ s.wire, (∃ info, H.Announces pkt info) ∨ Silent pkt.msg

lemma honest_start (H : Hosts ι) : Honest H (start H) :=
  ⟨H.hosted_new, fun _ h => (by cases h), fun _ h => (by cases h)⟩

lemma Honest.without (h : Honest H s) (k : ℕ) : Honest H (s.without k) :=
  ⟨h.hosted, fun pkt hpkt => h.length_le pkt (List.mem_of_mem_eraseIdx hpkt),
    fun pkt hpkt => h.wire pkt (List.mem_of_mem_eraseIdx hpkt)⟩

/-- To SPDP, no datagram in flight says anything. -/
lemma Honest.spdp_wire (h : Honest H s) {pkt : Packet ι} (hpkt : pkt ∈ s.wire) (sp : SpdpService)
    (now : ℕ) (src : SocketAddr) : sp.handlePacket now pkt.msg src = sp := by
  have hlen := h.length_le pkt hpkt
  rcases h.wire pkt hpkt with ⟨info, -, -, -, seqNum, hmsg⟩ | hsilent
  · rw [hmsg] at hlen ⊢
    exact spdp_endpointMessage hlen sp now src
  · exact hsilent.spdp sp now src

variable [DecidableEq ι]

lemma Honest.perform (h : Honest H s) (he : H.Truthful e) : Honest H (s.perform H i e) := by
  have hstep := (h.hosted i).step he
  refine ⟨fun j => ?_, fun pkt hpkt => ?_, fun pkt hpkt => ?_⟩
  · by_cases hj : j = i
    · subst hj
      rw [node_perform_self]
      exact hstep
    · rw [node_perform_of_ne hj]
      exact h.hosted j
  · rcases mem_wire_perform.mp hpkt with hold | ⟨msg, dst, -, hlen, rfl⟩
    · exact h.length_le pkt hold
    · exact hlen
  · rcases mem_wire_perform.mp hpkt with hold | ⟨msg, dst, hsend, -, rfl⟩
    · exact h.wire pkt hold
    · exact ((h.hosted i).sends hstep hsend).imp_left fun ⟨info, _, hinfo⟩ => ⟨info, hinfo⟩

lemma Honest.receiveMeta (h : Honest H s) {now : ℕ} {msg : Bytes} {src : SocketAddr}
    (htrue : H.Truthful (.spdpPacket now msg src)) : Honest H (s.receiveMeta H j now msg src) :=
  (h.perform htrue).perform trivial

/-- **The step of the network.** -/
lemma Honest.step (h : Honest H s) (e : NetworkEvent ι) : Honest H (s.step H e) := by
  cases e with
  | act i e =>
    rw [Network.step]
    split
    · exact h
    · rename_i hlocal
      exact h.perform (Hosts.truthful_of_not_receives hlocal)
  | hear i j now seqNum direct =>
    have htrue := H.truthful_announcement now j seqNum
    rw [Network.step]
    split
    · exact h.receiveMeta htrue
    · exact h.perform htrue
  | deliver k j now utc again =>
    refine deliver_rule h (fun t k ht => ht.without k) (fun pkt hpkt _ => ?_) fun pkt hpkt _ => ?_
    · exact h.receiveMeta (.inr fun sp => h.spdp_wire hpkt sp now _)
    · exact h.perform trivial
  | lose k => exact h.without k

/-- **The run.** -/
lemma honest_run (H : Hosts ι) (events : List (NetworkEvent ι)) :
    Honest H (run H (start H) events) :=
  (Run.each_of_forall fun _ _ _ => trivial).foldl (P := fun _ _ => True)
    (fun _ e h _ => h.step e) (honest_start H)

end Network

end

end RustDds
