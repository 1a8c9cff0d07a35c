import RustDds.Discovery.RoundTrip
import RustDds.Network.Outgoing

/-!
# Participants on a network

Each participant of a `Network` has a metatraffic socket, whose datagrams go both to SPDP and to
SEDP, and a user-data socket, and may have joined a multicast group for user data.  What it sends
is in flight until it arrives or is lost: the network reorders, duplicates and loses datagrams.

The announcements of a participant itself are sent again and again, to a multicast group or to
the metatraffic socket of a configured peer.  They are always the same but for their numbers, so
they are not kept in flight: any of them may be heard by anyone at any time.

Nobody else sends: `Network.Honest` says what follows from that for the peers a participant knows
and for the datagrams in flight.
-/

namespace RustDds

/-! ## Addresses -/

namespace SocketAddr

def port : SocketAddr → UInt16
  | .v4 _ p => p
  | .v6 _ p => p

/-- Another port at the same IP. -/
def withPort : SocketAddr → UInt16 → SocketAddr
  | .v4 ip _, p => .v4 ip p
  | .v6 ip _, p => .v6 ip p

lemma withPort_port (a : SocketAddr) : a.withPort a.port = a := by
  cases a <;> rfl

/-- An announced locator is that of a socket. -/
lemma udpAddr_locatorAt (a : SocketAddr) (p : UInt16) :
    (a.locatorAt p).udpAddr = some (a.withPort p) := by
  have hport : p.toUInt32.toNat < 2 ^ 16 := by
    rw [UInt16.toNat_toUInt32]
    exact p.toNat_lt
  cases a with
  | v4 ip q =>
    have hip : (List.replicate 12 0 ++ ip.bytes).drop 12 = ip.bytes := List.drop_left' rfl
    rw [locatorAt, Locator.udpAddr, Locator.udpV4]
    dsimp only
    rw [if_pos hport, if_pos rfl, withPort, UInt16.toUInt16_toUInt32]
    simp only [hip]
  | v6 ip q =>
    rw [locatorAt, Locator.udpAddr, Locator.udpV6]
    dsimp only
    rw [if_pos hport, if_neg (by decide), if_pos rfl, withPort, UInt16.toUInt16_toUInt32]

end SocketAddr

/-! ## The model -/

/-- A participant and the address of its metatraffic socket. -/
structure Host where
  cfg : ParticipantConfig
  addr : SocketAddr
  port_eq : addr.port = cfg.metaUnicastPort
  isV6_eq : addr.isV6 = cfg.ipv6

/-- The address of its user-data socket. -/
def Host.dataAddr (h : Host) : SocketAddr := h.addr.withPort h.cfg.dataUnicastPort

/-- The address a datagram comes from. -/
def Host.socketAddr (h : Host) : Socket → SocketAddr
  | .metatraffic => h.addr
  | .userData => h.dataAddr

/-- The header of its messages. -/
def Host.header (h : Host) : Header := ⟨protocolVersion23, vendorIdRustDds, h.cfg.guidPrefix⟩

/-- Its announcement of itself, under some number. -/
def Host.announcement (h : Host) (seqNum : UInt32) : Bytes :=
  announcementMessage h.cfg.guidPrefix vendorIdRustDds seqNum (buildParticipantData h.cfg.spdp)

/-- The participants of a network: no two have the same prefix, and a metatraffic socket shares its
address with no other socket and no group. -/
structure Hosts (ι : Type*) where
  host : ι → Host
  prefix_inj : ∀ i j, (host i).cfg.guidPrefix = (host j).cfg.guidPrefix → i = j
  addr_inj : ∀ i j, (host i).addr = (host j).addr → i = j
  dataAddr_ne : ∀ i j, (host i).dataAddr ≠ (host j).addr
  group_ne : ∀ i j, (host i).cfg.userDataMulticastAddr ≠ some (host j).addr

/-- A datagram in flight. -/
structure Packet (ι : Type*) where
  sender : ι
  src : SocketAddr
  dst : SocketAddr
  msg : Bytes
  deriving DecidableEq

/-- The participants, and the datagrams in flight. -/
structure Network (ι : Type*) where
  node : ι → RtpsUdpParticipant
  wire : List (Packet ι)

/-- A step of a network. -/
inductive NetworkEvent (ι : Type*)
  /-- The application of `i` makes a call, or a task of `i` runs that receives nothing. -/
  | act (i : ι) (e : ParticipantEvent)
  /-- An announcement of `j` reaches `i`, on the multicast socket or `direct`, on the metatraffic
  socket. -/
  | hear (i j : ι) (now : ℕ) (seqNum : UInt32) (direct : Bool)
  /-- The `k`-th datagram in flight arrives at `j`, and may arrive `again`. -/
  | deliver (k : ℕ) (j : ι) (now : ℕ) (utc : ℤ) (again : Bool)
  /-- The `k`-th datagram in flight is lost. -/
  | lose (k : ℕ)

/-- A datagram is received. -/
def ParticipantEvent.receives : ParticipantEvent → Bool
  | .spdpPacket .. => true
  | .sedpPacket .. => true
  | .dataPacket _ => true
  | _ => false

/-- The longest message that fits in a datagram. -/
def maxDatagramLen : ℕ := 65507

/-- The datagram of an effect: a socket refuses a message that is too long, and the sender goes
on. -/
def Host.packet {ι : Type*} (h : Host) (i : ι) (socket : Socket) : Effect → Option (Packet ι)
  | .send msg dst =>
    if msg.length ≤ maxDatagramLen then some ⟨i, h.socketAddr socket, dst, msg⟩ else none
  | _ => none

/-- The socket of the host that a datagram to `dst` arrives at, if there is one. -/
def Host.socketOf (h : Host) (dst : SocketAddr) : Option Socket :=
  if dst = h.addr then some .metatraffic
  else if dst = h.dataAddr ∨ some dst = h.cfg.userDataMulticastAddr then some .userData
  else none

lemma Host.socketOf_eq_metatraffic {h : Host} {dst : SocketAddr} :
    h.socketOf dst = some .metatraffic ↔ dst = h.addr := by
  rw [socketOf]
  split
  · simp [*]
  · split <;> simp [*]

namespace Network

variable {ι : Type*} [DecidableEq ι]

/-- New participants, and nothing in flight. -/
def start (H : Hosts ι) : Network ι := ⟨fun i => .new (H.host i).cfg, []⟩

/-- A step of a participant. -/
def perform (H : Hosts ι) (s : Network ι) (i : ι) (e : ParticipantEvent) : Network ι where
  node := Function.update s.node i ((s.node i).step e)
  wire := s.wire ++
    (RtpsUdpParticipant.handle e (s.node i)).out.filterMap ((H.host i).packet i e.socket)

/-- The network without the `k`-th datagram. -/
def without (s : Network ι) (k : ℕ) : Network ι := { s with wire := s.wire.eraseIdx k }

/-- A datagram on the metatraffic socket goes to SPDP and to SEDP. -/
def receiveMeta (H : Hosts ι) (s : Network ι) (j : ι) (now : ℕ) (msg : Bytes)
    (src : SocketAddr) : Network ι :=
  (s.perform H j (.spdpPacket now msg src)).perform H j (.sedpPacket msg src)

/-- One step. -/
def step (H : Hosts ι) (s : Network ι) : NetworkEvent ι → Network ι
  | .act i e => if e.receives then s else s.perform H i e
  | .hear i j now seqNum direct =>
    let msg := (H.host j).announcement seqNum
    if direct then s.receiveMeta H i now msg (H.host j).addr
    else s.perform H i (.spdpPacket now msg (H.host j).addr)
  | .deliver k j now utc again =>
    match s.wire[k]? with
    | none => s
    | some pkt =>
      let rest := if again then s else s.without k
      match (H.host j).socketOf pkt.dst with
      | none => s
      | some .metatraffic => rest.receiveMeta H j now pkt.msg pkt.src
      | some .userData => rest.perform H j (.dataPacket ⟨now, utc, pkt.msg, pkt.src⟩)
  | .lose k => s.without k

/-- The network after a run. -/
def run (H : Hosts ι) (s : Network ι) (events : List (NetworkEvent ι)) : Network ι :=
  events.foldl (step H) s

/-! ## Performing a step -/

variable {H : Hosts ι} {s : Network ι} {i j : ι} {e : ParticipantEvent} {pkt : Packet ι}

@[simp] lemma node_perform_self : (s.perform H i e).node i = (s.node i).step e :=
  Function.update_self ..

lemma node_perform_of_ne (h : j ≠ i) : (s.perform H i e).node j = s.node j :=
  Function.update_of_ne h ..

lemma mem_wire_perform : pkt ∈ (s.perform H i e).wire ↔ pkt ∈ s.wire ∨
    ∃ msg dst, .send msg dst ∈ (RtpsUdpParticipant.handle e (s.node i)).out ∧
      msg.length ≤ maxDatagramLen ∧ pkt = ⟨i, (H.host i).socketAddr e.socket, dst, msg⟩ := by
  rw [perform, List.mem_append, List.mem_filterMap]
  refine or_congr_right ⟨?_, ?_⟩
  · rintro ⟨eff, heff, hpkt⟩
    cases eff with
    | send msg dst =>
      rw [Host.packet] at hpkt
      split at hpkt
      · rename_i hlen
        cases hpkt
        exact ⟨msg, dst, heff, hlen, rfl⟩
      · cases hpkt
    | _ => cases hpkt
  · rintro ⟨msg, dst, heff, hlen, rfl⟩
    exact ⟨_, heff, if_pos hlen⟩

/-- What is in flight stays there. -/
lemma getElem?_wire_perform {k : ℕ} (hk : s.wire[k]? = some pkt) :
    (s.perform H i e).wire[k]? = some pkt :=
  (List.getElem?_append_left (List.getElem?_eq_some_iff.mp hk).1).trans hk

/-! ## A step as steps of the participants -/

/-- A datagram may leave before or after a step of a participant. -/
lemma perform_without {k : ℕ} (hk : k < s.wire.length) :
    (s.without k).perform H i e = (s.perform H i e).without k :=
  congrArg (Network.mk _) (List.eraseIdx_append_of_lt_length hk _).symm

lemma receiveMeta_without {k : ℕ} (hk : k < s.wire.length) {now : ℕ} {msg : Bytes}
    {src : SocketAddr} : (s.without k).receiveMeta H i now msg src =
      (s.receiveMeta H i now msg src).without k := by
  have hlen : k < (s.perform H i (.spdpPacket now msg src)).wire.length := by
    rw [perform, List.length_append]
    omega
  rw [receiveMeta, perform_without hk, perform_without hlen]
  rfl

/-- A datagram that arrives does so as long as it is in flight. -/
lemma step_deliver {k : ℕ} (hk : s.wire[k]? = some pkt) (now : ℕ) (utc : ℤ) (again : Bool) :
    s.step H (.deliver k j now utc again) = match (H.host j).socketOf pkt.dst with
      | none => s
      | some socket =>
        let t := match socket with
          | .metatraffic => s.receiveMeta H j now pkt.msg pkt.src
          | .userData => s.perform H j (.dataPacket ⟨now, utc, pkt.msg, pkt.src⟩)
        if again then t else t.without k := by
  have hlt : k < s.wire.length := (List.getElem?_eq_some_iff.mp hk).1
  rw [step, hk]
  dsimp only
  cases (H.host j).socketOf pkt.dst with
  | none => rfl
  | some socket =>
    cases again with
    | true => cases socket <;> rfl
    | false =>
      cases socket with
      | metatraffic => exact receiveMeta_without hlt
      | userData => exact perform_without hlt

/-- **The rule of arrivals.**  What does not depend on a datagram being in flight, and holds once
the one that arrives is received, holds after the step. -/
lemma deliver_rule {I : Network ι → Prop} (h : I s) (hwithout : ∀ t k, I t → I (t.without k))
    {k now : ℕ} {utc : ℤ} {again : Bool}
    (hmeta : ∀ pkt ∈ s.wire, (H.host j).socketOf pkt.dst = some .metatraffic →
      I (s.receiveMeta H j now pkt.msg pkt.src))
    (hdata : ∀ pkt ∈ s.wire, (H.host j).socketOf pkt.dst = some .userData →
      I (s.perform H j (.dataPacket ⟨now, utc, pkt.msg, pkt.src⟩))) :
    I (s.step H (.deliver k j now utc again)) := by
  cases hk : s.wire[k]? with
  | none =>
    rw [step, hk]
    exact h
  | some pkt =>
    have hrest : ∀ t, I t → I (if again then t else t.without k) := by
      intro t ht
      split
      · exact ht
      · exact hwithout t k ht
    rw [step_deliver hk]
    cases hsocket : (H.host j).socketOf pkt.dst with
    | none => exact h
    | some socket =>
      refine hrest _ ?_
      cases socket with
      | metatraffic => exact hmeta pkt (List.mem_of_getElem? hk) hsocket
      | userData => exact hdata pkt (List.mem_of_getElem? hk) hsocket

/-- A metatraffic socket has its address to itself. -/
lemma socketOf_addr (H : Hosts ι) (i j : ι) : (H.host j).socketOf (H.host i).addr =
    if i = j then some .metatraffic else none := by
  by_cases hij : i = j
  · rw [if_pos hij, Host.socketOf_eq_metatraffic, hij]
  · rw [if_neg hij, Host.socketOf, if_neg fun h => hij (H.addr_inj i j h), if_neg]
    rintro (h | h)
    · exact H.dataAddr_ne j i h.symm
    · exact H.group_ne j i h.symm

/-- What a step of the network is to one participant: it makes no endpoint, or is a step of this
one. -/
lemma node_step (H : Hosts ι) (s : Network ι) (e : NetworkEvent ι) (i : ι) :
    ∃ es : List ParticipantEvent,
      (s.step H e).node i = es.foldl RtpsUdpParticipant.step (s.node i) ∧
        ((∀ e' ∈ es, e'.makes = none) ∨ ∃ e', e = .act i e' ∧ es = [e']) := by
  have hperform : ∀ (s : Network ι) (j : ι) {e : ParticipantEvent}, e.makes = none →
      ∃ es : List ParticipantEvent,
        (s.perform H j e).node i = es.foldl RtpsUdpParticipant.step (s.node i) ∧
          ∀ e' ∈ es, e'.makes = none := by
    intro s j e hmakes
    by_cases hj : i = j
    · subst hj
      refine ⟨[e], node_perform_self, fun e' he' => ?_⟩
      rw [List.mem_singleton.mp he']
      exact hmakes
    · exact ⟨[], node_perform_of_ne hj, fun e' he' => (by cases he')⟩
  have hmeta : ∀ (s : Network ι) (j : ι) (now : ℕ) (msg : Bytes) (src : SocketAddr),
      ∃ es : List ParticipantEvent, (s.receiveMeta H j now msg src).node i =
        es.foldl RtpsUdpParticipant.step (s.node i) ∧ ∀ e' ∈ es, e'.makes = none := by
    intro s j now msg src
    obtain ⟨es, hes, hall⟩ := hperform s j (e := .spdpPacket now msg src) rfl
    obtain ⟨es', hes', hall'⟩ := hperform (s.perform H j (.spdpPacket now msg src)) j
      (e := .sedpPacket msg src) rfl
    refine ⟨es ++ es', ?_, fun e' he' => ?_⟩
    · rw [receiveMeta, hes', hes, List.foldl_append]
    · exact (List.mem_append.mp he').elim (hall e') (hall' e')
  have hstays : ∃ es : List ParticipantEvent,
      s.node i = es.foldl RtpsUdpParticipant.step (s.node i) ∧
        ((∀ e' ∈ es, e'.makes = none) ∨ ∃ e', e = .act i e' ∧ es = [e']) :=
    ⟨[], rfl, .inl fun e' he' => (by cases he')⟩
  cases e with
  | act j e =>
    rw [step]
    split
    · exact hstays
    by_cases hj : i = j
    · subst hj
      exact ⟨[e], node_perform_self, .inr ⟨e, rfl, rfl⟩⟩
    · rw [node_perform_of_ne hj]
      exact ⟨[], rfl, .inl fun e' he' => (by cases he')⟩
  | hear j j' now seqNum direct =>
    rw [step]
    split
    · exact (hmeta s j _ _ _).imp fun es hes => hes.imp_right .inl
    · exact (hperform s j rfl).imp fun es hes => hes.imp_right .inl
  | deliver k j now utc again =>
    refine deliver_rule (I := fun t : Network ι => ∃ es : List ParticipantEvent,
      t.node i = es.foldl RtpsUdpParticipant.step (s.node i) ∧ ((∀ e' ∈ es, e'.makes = none) ∨
        ∃ e', NetworkEvent.deliver k j now utc again = .act i e' ∧ es = [e']))
      hstays (fun _ _ ht => ht) (fun pkt _ _ => ?_) fun pkt _ _ => ?_
    · exact (hmeta s j _ _ _).imp fun es hes => hes.imp_right .inl
    · exact (hperform s j rfl).imp fun es hes => hes.imp_right .inl
  | lose k => exact hstays

/-- **A participant on a network** runs as one on its own does that is given what it receives. -/
lemma exists_after (H : Hosts ι) (events : List (NetworkEvent ι)) (i : ι) : ∃ es,
    (run H (start H) events).node i = RtpsUdpParticipant.after (H.host i).cfg es := by
  refine (Run.each_of_forall fun _ _ _ => trivial).foldl (P := fun _ _ => True)
    (I := fun s : Network ι => ∃ es, s.node i = RtpsUdpParticipant.after (H.host i).cfg es)
    ?_ ⟨[], rfl⟩
  rintro s e ⟨es, hes⟩ -
  obtain ⟨es', hes', -⟩ := node_step H s e i
  refine ⟨es ++ es', ?_⟩
  rw [hes', hes, RtpsUdpParticipant.after, RtpsUdpParticipant.after, List.foldl_append]

end Network

/-! ## Messages without announcements -/

/-- To discovery, the message says nothing. -/
structure Silent (msg : Bytes) : Prop where
  spdp : ∀ (s : SpdpService) (now : ℕ) (src : SocketAddr), s.handlePacket now msg src = s
  sedp : ∀ (cfg : SedpConfig) (src : SocketAddr), cfg.accepted msg src = []

section
variable {header : Header} {m : Submessage}

/-- A submessage that no participant announces anything with is none of the concern of SPDP. -/
lemma spdp_of_announcedPayload (hlen : m.raw.body.length < 2 ^ 16)
    (hnone : announcedPayload m.raw = none) (s : SpdpService) (now : ℕ) (src : SocketAddr) :
    s.handlePacket now (m.message header) src = s := by
  rw [SpdpService.handlePacket, Submessage.decode_message]
  dsimp only
  split
  · rfl
  · rw [Submessage.submessages_message hlen, List.foldl_cons, List.foldl_nil,
      SpdpService.handleSubmessage, hnone]

lemma sedp_of_announcedEndpoint (hlen : m.raw.body.length < 2 ^ 16)
    (hnone : announcedEndpoint m.raw = none) (cfg : SedpConfig) (src : SocketAddr) :
    cfg.accepted (m.message header) src = [] := by
  rw [SedpConfig.accepted, Submessage.decode_message]
  dsimp only
  split
  · rfl
  · rw [Submessage.submessages_message hlen, List.filterMap_cons, List.filterMap_nil,
      Announcement.ofSubmessage, hnone]

lemma announcedPayload_data {writer reader : EntityId} {sn : SequenceNumber} {payload : Bytes}
    (hne : payload ≠ []) (hwriter : writer ≠ entityIdSpdpWriter) :
    announcedPayload (Submessage.data writer reader sn payload).raw = none := by
  rw [Submessage.raw, announcedPayload, if_neg (not_not.mpr rfl),
    decodeDataSubmessage_dataBody hne]
  exact if_pos hwriter

lemma announcedEndpoint_data {writer reader : EntityId} {sn : SequenceNumber} {payload : Bytes}
    (hne : payload ≠ []) (hpub : writer ≠ entityIdSedpPubWriter)
    (hsub : writer ≠ entityIdSedpSubWriter) :
    announcedEndpoint (Submessage.data writer reader sn payload).raw = none := by
  rw [Submessage.raw, announcedEndpoint, if_neg (not_not.mpr rfl),
    decodeDataSubmessage_dataBody hne]
  dsimp only
  rw [if_neg hpub, if_neg hsub]

/-- What is not a DATA announces nothing. -/
lemma announced_of_id_ne (h : m.raw.id ≠ submsgData) :
    announcedPayload m.raw = none ∧ announcedEndpoint m.raw = none :=
  ⟨if_pos h, if_pos h⟩

end

/-- The writers of applications are not those of discovery. -/
lemma entityIdForWriter_ne (n : UInt32) : entityIdForWriter n ≠ entityIdSpdpWriter ∧
    entityIdForWriter n ≠ entityIdSedpPubWriter ∧
      entityIdForWriter n ≠ entityIdSedpSubWriter := by
  simp [entityIdForWriter, entityIdSpdpWriter, entityIdSedpPubWriter, entityIdSedpSubWriter]

/-- Nothing on the data path is an announcement. -/
lemma Submessage.OnDataPath.silent {readers : EntityId → Prop} {m : Submessage} {header : Header}
    (h : OnDataPath (fun eid => ∃ n, eid = entityIdForWriter n) readers m) :
    Silent (m.message header) := by
  have hnone : announcedPayload m.raw = none ∧ announcedEndpoint m.raw = none := by
    cases h with
    | sample hwriter =>
      obtain ⟨n, rfl⟩ := hwriter
      obtain ⟨hspdp, hpub, hsub⟩ := entityIdForWriter_ne n
      exact ⟨announcedPayload_data (wrapPayload_ne_nil _) hspdp,
        announcedEndpoint_data (wrapPayload_ne_nil _) hpub hsub⟩
    | fragment => exact announced_of_id_ne (by simp [raw]; decide)
    | control hm => cases hm <;> exact announced_of_id_ne (by simp [raw]; decide)
  exact ⟨spdp_of_announcedPayload h.length_body hnone.1,
    sedp_of_announcedEndpoint h.length_body hnone.2⟩

end RustDds
