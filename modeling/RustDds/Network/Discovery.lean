import RustDds.Network.Announcing

/-!
# Discovery completes

Let participant `a` hear one announcement of participant `b`, after any run whatever, with any
losses.  From then on let no announcement from `a` to `b` be lost, and let `b` not be evicted by
`a` when `a` makes an endpoint; datagrams may still be reordered and duplicated, and anything may
happen between other participants.  Then once nothing from `a` to `b` is in flight and the bridges
have caught up, `b` knows every endpoint of `a`, every reader of `b` accepts every writer of `a` of
its topic, and `b` sends what it writes to every reader of `a` of the topic
(`Network.discovered_of_heard`).

The invariant is `Covers`: each endpoint of `a` is known to `b`, or announced to it by a datagram
in flight, or `a` has yet to announce its endpoints to `b`.
-/

namespace RustDds

/-- Where a known reader gets its samples. -/
lemma Host.Known.mem_matchedAddrs {h : Host} {p : RtpsParticipant} {info : EndpointInfo}
    (hknown : h.Known p.sedp info) (hreader : info.isWriter = false) :
    h.dataAddr ∈ p.matchedAddrs info.topicName := by
  rw [Host.Known, hreader] at hknown
  obtain ⟨hinfo, hlocator⟩ := hknown
  refine List.mem_filterMap.mpr ⟨_, List.mem_filterMap.mpr ⟨info, List.mem_filter.mpr
    ⟨Table.mem_values_iff.mpr ⟨_, hinfo⟩, decide_eq_true rfl⟩, hlocator⟩, ?_⟩
  exact SocketAddr.udpAddr_locatorAt _ _

namespace Network

variable {ι : Type*} {H : Hosts ι} {s : Network ι} {a b i : ι} {e : ParticipantEvent}
  {info : EndpointInfo}

/-! ## The invariant -/

/-- Each endpoint of `a` is known to `b`, or announced to it in flight, or yet to be announced. -/
structure Covers (H : Hosts ι) (s : Network ι) (a b : ι) : Prop extends Announcing H s a where
  covered : ∀ info ∈ (s.node a).localEndpoints, (H.host a).Fits info →
    (H.host a).Known (s.node b).sedp info ∨ InFlight H s a b info ∨
      ∃ proxy ∈ (s.node a).pendingPeers, H.Shows b proxy

/-- A datagram may be lost when `b` knows what it announces. -/
lemma Covers.without (h : Covers H s a b) {k : ℕ}
    (hk : ∀ pkt, s.wire[k]? = some pkt → pkt.sender = a → pkt.dst = (H.host b).addr →
      ∀ info, H.Announces pkt info → (H.host a).Fits info →
        (H.host a).Known (s.node b).sedp info) : Covers H (s.without k) a b := by
  refine ⟨h.toAnnouncing.without k, fun info hinfo hfits => ?_⟩
  rcases h.covered info hinfo hfits with hknown | ⟨pkt, hpkt, hsender, hdst, hann⟩ | hpending
  · exact .inl hknown
  · obtain ⟨k', hk'⟩ := List.mem_iff_getElem?.mp hpkt
    by_cases heq : k' = k
    · subst heq
      exact .inl (hk pkt hk' hsender hdst info hann hfits)
    · exact .inr (.inl ⟨pkt, List.mem_eraseIdx_iff_getElem?.mpr ⟨k', heq, hk'⟩, hsender, hdst,
        hann⟩)
  · exact .inr (.inr hpending)

variable [DecidableEq ι]

lemma InFlight.perform (h : InFlight H s a b info) (i : ι) (e : ParticipantEvent) :
    InFlight H (s.perform H i e) a b info := by
  obtain ⟨pkt, hpkt, hann⟩ := h
  exact ⟨pkt, mem_wire_perform.mpr (.inl hpkt), hann⟩

/-- An announcement of an endpoint to `b` is in flight once it has been sent. -/
lemma inFlight_of_send (hp : H.Hosted a ((s.node a).step e))
    (hinfo : info ∈ ((s.node a).step e).localEndpoints) (hfits : (H.host a).Fits info)
    (hsocket : e.socket = .metatraffic) (seqNum : UInt32)
    (hsend : .send (endpointMessage (H.host a).cfg.sedp info seqNum) (H.host b).addr ∈
      (RtpsUdpParticipant.handle e (s.node a)).out) :
    InFlight H (s.perform H a e) a b info := by
  obtain ⟨k, eid, hlookup⟩ := RtpsUdpParticipant.mem_localEndpoints.mp hinfo
  obtain ⟨htopic, heq⟩ := hp.locals k eid info hlookup
  refine ⟨_, mem_wire_perform.mpr (.inr ⟨_, _, hsend, hfits.length_le seqNum, rfl⟩), rfl, rfl,
    htopic, ?_, ?_, seqNum, rfl⟩
  · rw [heq]
  · rw [hsocket]
    rfl

/-- The peers still to be taken are the others, or the endpoints have been announced to this
one. -/
lemma Announcing.pending_perform (h : Announcing H s a) (he : H.Truthful e)
    (hinfo : info ∈ (s.node a).localEndpoints) (hfits : (H.host a).Fits info)
    (hpending : ∃ proxy ∈ (s.node a).pendingPeers, H.Shows b proxy) :
    InFlight H (s.perform H a e) a b info ∨
      ∃ proxy ∈ ((s.node a).step e).pendingPeers, H.Shows b proxy := by
  have hp := h.honest.hosted a
  obtain ⟨proxy, hproxy, hshows⟩ := hpending
  by_cases htake : e = .takePeer
  · subst htake
    cases hlist : (s.node a).pendingPeers with
    | nil =>
      rw [hlist] at hproxy
      cases hproxy
    | cons first rest =>
      obtain ⟨hout, htaken⟩ := RtpsUdpParticipant.takePeer_step hlist
      rw [hlist] at hproxy
      rcases List.mem_cons.mp hproxy with rfl | hrest
      · -- it is the turn of `b`
        obtain ⟨seqNum, hsend⟩ := SedpService.exists_mem_announceAll (s.node a).sedp hinfo
          (show proxy ∈ [proxy] from List.mem_singleton.mpr rfl) hshows.2
        rw [hp.sedp_config] at hsend
        refine .inl (inFlight_of_send (hp.step trivial) ?_ hfits rfl seqNum ?_)
        · exact h.numbered.mem_localEndpoints_step (fun hne => absurd rfl hne) hinfo
        · rw [hout]
          exact RtpsParticipant.mem_announcements.mpr hsend
      · refine .inr ⟨proxy, ?_, hshows⟩
        rw [RtpsUdpParticipant.pendingPeers, htaken, RtpsUdpParticipant.spdp_step,
          ← List.drop_drop]
        show proxy ∈ (s.node a).pendingPeers.drop 1
        rw [hlist]
        exact hrest
  · obtain ⟨more, hmore⟩ := hp.pendingPeers_step he htake
    exact .inr ⟨proxy, hmore ▸ List.mem_append_left _ hproxy, hshows⟩

/-- **The step of a participant.**  A new endpoint of `a` is announced to `b` because `a` knows
`b`; otherwise `b` must not forget what it knows. -/
lemma Covers.perform (h : Covers H s a b) (hab : a ≠ b) (he : H.Truthful e)
    (hfresh : i = a → (s.node a).DrawsFresh e)
    (hmeets : i = a → e.makes ≠ none →
      ((s.node a).spdp.peers.lookup (H.host b).cfg.guidPrefix).isSome)
    (hknown : i = b → ∀ info ∈ (s.node a).localEndpoints, (H.host a).Known (s.node b).sedp info →
      (H.host a).Known ((s.node b).step e).sedp info) : Covers H (s.perform H i e) a b := by
  have hp := h.honest.hosted a
  refine ⟨h.toAnnouncing.perform he hfresh, fun info hinfo hfits => ?_⟩
  by_cases hi : i = a
  · subst hi
    rw [node_perform_self] at hinfo ⊢
    rw [node_perform_of_ne (Ne.symm hab)]
    have hold : info ∈ (s.node i).localEndpoints →
        (H.host i).Known (s.node b).sedp info ∨ InFlight H (s.perform H i e) i b info ∨
          ∃ proxy ∈ ((s.node i).step e).pendingPeers, H.Shows b proxy := by
      intro hinfo
      rcases h.covered info hinfo hfits with hknown | hflight | hpending
      · exact .inl hknown
      · exact .inr (.inl (hflight.perform i e))
      · exact .inr (h.pending_perform he hinfo hfits hpending)
    rcases (s.node i).local_step e with hsame | ⟨k, topic, hmakes, -, -, hreg⟩
    · exact hold (hsame.localEndpoints_eq ▸ hinfo)
    rcases hreg.mem_cases hinfo with rfl | hinfo'
    · -- the endpoint is new
      obtain ⟨proxy, hproxy⟩ := Option.isSome_iff_exists.mp (hmeets rfl (by simp [hmakes]))
      obtain ⟨j, hguidPrefix, hshows⟩ := hp.spdp.peers _ proxy hproxy
      cases H.prefix_inj b j hguidPrefix
      have hsend := (hreg.send_iff _ _).mpr
        ⟨rfl, proxy, Table.mem_values_iff.mpr ⟨_, hproxy⟩, hshows.2⟩
      rw [hp.sedp_config] at hsend
      refine .inr (.inl (inFlight_of_send (hp.step he) hinfo hfits ?_ _ hsend))
      cases e with
      | newPublisher | newSubscriber => rfl
      | _ => cases hmakes
    · exact hold hinfo'
  · rw [node_perform_of_ne (Ne.symm hi)] at hinfo ⊢
    refine (h.covered info hinfo hfits).imp (fun hk => ?_) (Or.imp_left (·.perform i e))
    by_cases hb : i = b
    · subst hb
      rw [node_perform_self]
      exact hknown rfl info hinfo hk
    · rw [node_perform_of_ne (Ne.symm hb)]
      exact hk

omit [DecidableEq ι] in
/-- A datagram in flight does not make `b` forget an endpoint of `a`. -/
lemma Announcing.known_handlePacket (h : Announcing H s a) (hab : a ≠ b) {pkt : Packet ι}
    (hpkt : pkt ∈ s.wire) {q : SedpService} (hq : q.config = (H.host b).cfg.sedp)
    (hinfo : info ∈ (s.node a).localEndpoints) (hknown : (H.host a).Known q info) :
    (H.host a).Known (q.handlePacket pkt.msg pkt.src) info := by
  have hlen := h.honest.length_le pkt hpkt
  have hsilent : Silent pkt.msg → (H.host a).Known (q.handlePacket pkt.msg pkt.src) info := by
    intro hmsg
    rw [sedp_of_accepted_eq_nil (hmsg.sedp _ _)]
    exact hknown
  by_cases hsender : pkt.sender = a
  · rcases h.flight pkt hpkt hsender with ⟨info', hinfo', htopic, -, hsrc, seqNum, hmsg⟩ | hmsg
    · rw [hmsg] at hlen
      rw [hmsg, hsrc, sedp_endpointMessage hq (hsender ▸ hab.symm) htopic hlen]
      by_cases hguid : info.guid = info'.guid
      · rw [h.numbered.eq_of_guid_eq (h.honest.hosted a) hinfo hinfo' hguid, hsender]
        exact Host.Known.record_self ..
      · exact hknown.record_of_ne hguid
    · exact hsilent hmsg
  · rcases h.honest.wire pkt hpkt with ⟨info', htopic, hguidPrefix, hsrc, seqNum, hmsg⟩ | hmsg
    · rw [hmsg] at hlen
      by_cases hb : b = pkt.sender
      · rw [hmsg, ← hb, sedp_endpointMessage_self hq]
        exact hknown
      rw [hmsg, hsrc, sedp_endpointMessage hq hb htopic hlen]
      -- the endpoint announced is not one of `a`
      obtain ⟨k, eid, hlookup⟩ := RtpsUdpParticipant.mem_localEndpoints.mp hinfo
      refine hknown.record_of_ne fun hguid => hsender ?_
      rw [((h.honest.hosted a).locals k eid info hlookup).2] at hguid
      rw [← hguid] at hguidPrefix
      exact (H.prefix_inj a pkt.sender hguidPrefix).symm
    · exact hsilent hmsg

omit [DecidableEq ι] in
/-- An announcement that arrives at `b` is known there. -/
lemma known_of_announces (hab : a ≠ b) {pkt : Packet ι} (hsender : pkt.sender = a)
    (hann : H.Announces pkt info) (hfits : (H.host a).Fits info) {q : SedpService}
    (hq : q.config = (H.host b).cfg.sedp) :
    (H.host a).Known (q.handlePacket pkt.msg pkt.src) info := by
  subst hsender
  obtain ⟨htopic, -, hsrc, seqNum, hmsg⟩ := hann
  rw [hmsg, hsrc, sedp_endpointMessage hq hab.symm htopic (hfits.length_le seqNum)]
  exact Host.Known.record_self ..

lemma Covers.receiveMeta (h : Covers H s a b) (hab : a ≠ b) {now : ℕ} {msg : Bytes}
    {src : SocketAddr} (htrue : H.Truthful (.spdpPacket now msg src))
    (hknown : ∀ q : SedpService, q.config = (H.host b).cfg.sedp →
      ∀ info ∈ (s.node a).localEndpoints, (H.host a).Known q info →
        (H.host a).Known (q.handlePacket msg src) info) :
    Covers H (s.receiveMeta H i now msg src) a b := by
  have hspdp : Covers H (s.perform H i (.spdpPacket now msg src)) a b :=
    h.perform hab htrue (fun _ hne => absurd rfl hne) (fun _ hne => absurd rfl hne)
      fun _ _ _ hk => hk.of_sameRemotes ((s.node b).sameRemotes_step (by simp))
  refine hspdp.perform hab trivial (fun _ hne => absurd rfl hne) (fun _ hne => absurd rfl hne)
    fun _ info hinfo hk => ?_
  refine hknown _ (hspdp.honest.hosted b).sedp_config info ?_ hk
  by_cases hi : a = i
  · subst hi
    rw [node_perform_self] at hinfo
    exact hinfo
  · rw [node_perform_of_ne hi] at hinfo
    exact hinfo

/-- No announcement from `a` to `b` is lost, and when `a` is to make an endpoint it knows `b`. -/
def Keeps (H : Hosts ι) (a b : ι) (s : Network ι) : NetworkEvent ι → Prop
  | .act i e => i = a → e.makes ≠ none →
    ((s.node a).spdp.peers.lookup (H.host b).cfg.guidPrefix).isSome
  | .lose k => ∀ pkt, s.wire[k]? = some pkt → ¬ (pkt.sender = a ∧ pkt.dst = (H.host b).addr)
  | _ => True

/-- **The step of the network.** -/
lemma Covers.step (h : Covers H s a b) (hab : a ≠ b) {e : NetworkEvent ι} (hfresh : Fresh a s e)
    (hkeeps : Keeps H a b s e) : Covers H (s.step H e) a b := by
  have hdata : ∀ (j : ι) (d : Datagram), Covers H (s.perform H j (.dataPacket d)) a b :=
    fun j d => h.perform hab trivial (fun _ hne => absurd rfl hne) (fun _ hne => absurd rfl hne)
      fun _ _ _ hk => hk.of_sameRemotes ((s.node b).sameRemotes_step (by simp))
  cases e with
  | act i e =>
    rw [Network.step]
    split
    · exact h
    rename_i hlocal
    refine h.perform hab ?_ hfresh hkeeps fun _ _ _ hk =>
      hk.of_sameRemotes ((s.node b).sameRemotes_step ?_)
    · cases e with
      | spdpPacket => exact absurd rfl hlocal
      | _ => trivial
    · rintro data src rfl
      exact hlocal rfl
  | hear i j now seqNum direct =>
    have htrue := H.truthful_announcement now j seqNum
    rw [Network.step]
    split
    · refine h.receiveMeta hab htrue fun q _ info _ hk => ?_
      rw [sedp_of_accepted_eq_nil (sedp_announcement ..)]
      exact hk
    · exact h.perform hab htrue (fun _ hne => absurd rfl hne) (fun _ hne => absurd rfl hne)
        fun _ _ _ hk => hk.of_sameRemotes ((s.node b).sameRemotes_step (by simp))
  | deliver k j now utc again =>
    cases hk : s.wire[k]? with
    | none =>
      rw [Network.step, hk]
      exact h
    | some pkt =>
      have hpkt := List.mem_of_getElem? hk
      rw [step_deliver hk]
      cases hsocket : (H.host j).socketOf pkt.dst with
      | none => exact h
      | some socket =>
        have hlost : ∀ t, Covers H t a b → t.wire[k]? = some pkt →
            (pkt.dst = (H.host b).addr → pkt.sender = a → ∀ info, H.Announces pkt info →
              (H.host a).Fits info → (H.host a).Known (t.node b).sedp info) →
            Covers H (if again then t else t.without k) a b := by
          intro t ht hwire hann
          split
          · exact ht
          · refine ht.without fun pkt' hpkt' hsender hdst => ?_
            cases hwire.symm.trans hpkt'
            exact hann hdst hsender
        cases socket with
        | metatraffic =>
          have htrue : H.Truthful (.spdpPacket now pkt.msg pkt.src) :=
            .inr fun sp => h.honest.spdp_wire hpkt sp now _
          have hdst := Host.socketOf_eq_metatraffic.mp hsocket
          refine hlost _ (h.receiveMeta hab htrue fun q hq info =>
            h.known_handlePacket hab hpkt hq) (getElem?_wire_perform (getElem?_wire_perform hk))
            fun hb hsender info hann hfits => ?_
          cases H.addr_inj j b (hdst.symm.trans hb)
          have hhonest := h.honest.perform (i := b) htrue
          rw [Network.receiveMeta, node_perform_self]
          exact known_of_announces hab hsender hann hfits (hhonest.hosted b).sedp_config
        | userData =>
          refine hlost _ (hdata j _) (getElem?_wire_perform hk) fun hb => ?_
          rw [hb, socketOf_addr] at hsocket
          split at hsocket <;> cases hsocket
  | lose k =>
    exact h.without fun pkt hpkt hsender hdst => absurd ⟨hsender, hdst⟩ (hkeeps pkt hpkt)

/-! ## Runs -/

/-- Nothing from `a` to `b` is in flight, and the bridges have caught up. -/
structure Settled (H : Hosts ι) (a b : ι) (s : Network ι) : Prop where
  wire : ∀ pkt ∈ s.wire, ¬ (pkt.sender = a ∧ pkt.dst = (H.host b).addr)
  peers : (s.node a).pendingPeers = []
  writers : (s.node b).pendingMatches = []

omit [DecidableEq ι] in
/-- Once all is settled, `b` knows the endpoints of `a`. -/
lemma Covers.known (h : Covers H s a b) (hsettled : Settled H a b s)
    (hinfo : info ∈ (s.node a).localEndpoints) (hfits : (H.host a).Fits info) :
    (H.host a).Known (s.node b).sedp info := by
  rcases h.covered info hinfo hfits with hknown | ⟨pkt, hpkt, hsender, hdst, -⟩ |
    ⟨proxy, hproxy, -⟩
  · exact hknown
  · exact absurd ⟨hsender, hdst⟩ (hsettled.wire pkt hpkt)
  · rw [hsettled.peers] at hproxy
    cases hproxy

/-- To hear of `b` is to have it announced to. -/
lemma Announcing.covers_hear (h : Announcing H s a) (hab : a ≠ b) (now : ℕ) (seqNum : UInt32)
    (direct : Bool) : Covers H (s.step H (.hear a b now seqNum direct)) a b := by
  refine ⟨h.step trivial, fun info _ _ => .inr (.inr ⟨(H.host b).proxy now, ?_,
    H.shows_proxy b now⟩)⟩
  have hp := h.honest.hosted a
  have hpending : (H.host b).proxy now ∈ ((s.node a).step
      (.spdpPacket now ((H.host b).announcement seqNum) (H.host b).addr)).pendingPeers := by
    rw [RtpsUdpParticipant.pendingPeers, RtpsUdpParticipant.spdp_step,
      RtpsUdpParticipant.peersTaken_step (by simp)]
    dsimp only
    rw [hp.spdp.heard hab, List.drop_append_of_le_length hp.taken_le]
    exact List.mem_append_right _ (List.mem_singleton.mpr rfl)
  rw [Network.step]
  split
  · -- SEDP leaves it pending
    rw [Network.receiveMeta, node_perform_self, node_perform_self]
    exact hpending
  · rw [node_perform_self]
    exact hpending

/-- What a run after `a` heard of `b` covers. -/
lemma covers_run (hab : a ≠ b) {before after : List (NetworkEvent ι)} {now : ℕ} {seqNum : UInt32}
    {direct : Bool}
    (hcount : (before ++ .hear a b now seqNum direct :: after).countP (makesAt a) < 2 ^ 24)
    (hkeeps : Run.Each (step H) (Keeps H a b)
      (run H (start H) (before ++ [.hear a b now seqNum direct])) after) :
    Covers H (run H (start H) (before ++ .hear a b now seqNum direct :: after)) a b := by
  have hrun : run H (start H) (before ++ .hear a b now seqNum direct :: after) =
      run H (run H (start H) (before ++ [.hear a b now seqNum direct])) after := by
    rw [List.append_cons]
    exact List.foldl_append
  -- the numbers stay fresh
  obtain ⟨hbefore, -, hafter⟩ := Run.each_append.mp (fresh_run H a hcount)
  have hheard := (announcing_run hbefore).covers_hear hab now seqNum direct
  have hstart : run H (start H) (before ++ [.hear a b now seqNum direct]) =
      (before.foldl (step H) (start H)).step H (.hear a b now seqNum direct) := by
    rw [run, List.foldl_append]
    rfl
  rw [hrun]
  rw [hstart] at hkeeps ⊢
  exact (hafter.and hkeeps).foldl (I := (Covers H · a b))
    (fun _ _ h hstep => h.step hab hstep.1 hstep.2) hheard

/-- No reader misses a writer that its participant knows, but for matches not yet taken. -/
lemma hasJoined_run (H : Hosts ι) (events : List (NetworkEvent ι)) (i : ι) :
    ((run H (start H) events).node i).HasJoined := by
  obtain ⟨es, hes⟩ := exists_after H events i
  rw [hes]
  exact RtpsUdpParticipant.joined_after ..

end Network

/-! ## Two participants -/

/-- Participant 1 and participant 2. -/
def Host.ofBool (i : Bool) : Host where
  cfg := .numbered (if i then 2 else 1)
  addr := .v4 (RtpsUdpParticipant.ipOf (if i then 2 else 1)) 7410
  port_eq := rfl
  isV6_eq := rfl

namespace Host

lemma ofBool_prefix : ∀ i j, (ofBool i).cfg.guidPrefix = (ofBool j).cfg.guidPrefix → i = j := by
  decide

lemma ofBool_addr : ∀ i j, (ofBool i).addr = (ofBool j).addr → i = j := by decide

lemma ofBool_dataAddr : ∀ i j, (ofBool i).dataAddr ≠ (ofBool j).addr := by decide

lemma ofBool_group :
    ∀ i j, (ofBool i).cfg.userDataMulticastAddr ≠ some (ofBool j).addr := by decide

end Host

/-- The two of them on a network. -/
def Hosts.pair : Hosts Bool :=
  ⟨Host.ofBool, Host.ofBool_prefix, Host.ofBool_addr, Host.ofBool_dataAddr, Host.ofBool_group⟩

namespace Network

/-- Participant 1 makes a writer and participant 2 a reader. -/
def pairMakes : List (NetworkEvent Bool) :=
  [.act false (.newPublisher "a" ⟨true, false⟩),
    .act true (.newSubscriber "a" ⟨true, false⟩ ⟨4, .dropNewest⟩ 0)]

/-- Participant 1 announces its writer, the announcement arrives twice, and the reader is told. -/
def pairMeets : List (NetworkEvent Bool) :=
  [.act false .takePeer, .deliver 0 true 0 0 true, .deliver 0 true 0 0 false,
    .act true .takeMatch, .act true .takeMatch]

end Network

end RustDds
