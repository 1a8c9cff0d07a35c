import RustDds.Rtps.Registration

/-!
# The UDP participant

An `RtpsUdpParticipant` runs SPDP, SEDP and the participant runtime side by side.  Each has its
receive loop; a sweep evicts the peers whose lease has run out; and two bridges carry what one
service finds to another: the matches of SEDP to the readers, and the peers of SPDP to SEDP.
A bridge takes the events of its queue one by one, at any later time.

`handle` is one step of any of these tasks, or a call of the application.  The events of a queue
are those its listener was sent so far, of which the bridge has taken the first few.
-/

namespace RustDds

/-- What a participant is created with. -/
structure ParticipantConfig where
  guidPrefix : GuidPrefix
  metaUnicastPort : UInt16
  dataUnicastPort : UInt16
  ipv6 : Bool
  userDataMulticastAddr : Option SocketAddr

/-- Its configuration of SPDP. -/
def ParticipantConfig.spdp (cfg : ParticipantConfig) : SpdpConfig where
  guidPrefix := cfg.guidPrefix
  vendorId := vendorIdRustDds
  metaUnicastPort := cfg.metaUnicastPort
  dataUnicastPort := cfg.dataUnicastPort
  ipv6 := cfg.ipv6
  discoveryPlugin := none

/-- Its configuration of SEDP. -/
def ParticipantConfig.sedp (cfg : ParticipantConfig) : SedpConfig where
  guidPrefix := cfg.guidPrefix
  vendorId := vendorIdRustDds
  dataUnicastPort := cfg.dataUnicastPort
  ipv6 := cfg.ipv6

/-- A participant on IPv4 without multicast, whose prefix is twelve times `n`. -/
def ParticipantConfig.numbered (n : UInt8) : ParticipantConfig where
  guidPrefix := ⟨List.replicate 12 n, GuidPrefix.length_replicate n⟩
  metaUnicastPort := 7410
  dataUnicastPort := 7411
  ipv6 := false
  userDataMulticastAddr := none

/-- Reliability and durability of an endpoint. -/
structure QoS where
  reliable : Bool
  transientLocal : Bool
  deriving DecidableEq

/-- A step of one of the tasks of a participant, or a call of the application. -/
inductive ParticipantEvent
  /-- SPDP receives a datagram. -/
  | spdpPacket (now : ℕ) (data : Bytes) (src : SocketAddr)
  /-- The eviction sweep runs. -/
  | sweep (now : ℕ)
  /-- SEDP receives a datagram. -/
  | sedpPacket (data : Bytes) (src : SocketAddr)
  /-- The match listener takes an event. -/
  | takeMatch
  /-- The peer listener takes an event. -/
  | takePeer
  /-- The data path receives a datagram. -/
  | dataPacket (d : Datagram)
  /-- The application creates a publisher. -/
  | newPublisher (topic : String) (qos : QoS)
  /-- The application creates a subscriber. -/
  | newSubscriber (topic : String) (qos : QoS) (opts : SubscriberOptions) (utc : ℤ)
  /-- The application drops a subscriber. -/
  | unsubscribe (eid : EntityId)
  /-- The application writes. -/
  | write (w : RtpsWriter) (utc : ℤ) (payload : Bytes)

/-- A participant: its services, and how many events each bridge has taken. -/
structure RtpsUdpParticipant where
  spdp : SpdpService
  inner : RtpsParticipant
  matchesTaken : ℕ
  peersTaken : ℕ

namespace RtpsUdpParticipant

/-- A new participant, with both bridges in place. -/
def new (cfg : ParticipantConfig) : RtpsUdpParticipant where
  spdp := (SpdpService.new cfg.spdp).setPeerListener
  inner := { RtpsParticipant.new cfg.guidPrefix vendorIdRustDds
      (SedpService.new cfg.sedp).setMatchListener none with
    userDataMulticastAddr := cfg.userDataMulticastAddr }
  matchesTaken := 0
  peersTaken := 0

/-- The SEDP service. -/
def sedp (s : RtpsUdpParticipant) : SedpService := s.inner.sedp

/-- The participant with another state of SEDP. -/
def withSedp (s : RtpsUdpParticipant) (sedp : SedpService) : RtpsUdpParticipant :=
  { s with inner := { s.inner with sedp } }

/-- The matches not yet taken. -/
def pendingMatches (s : RtpsUdpParticipant) : List WriterMatch :=
  (s.sedp.matchListener.getD []).drop s.matchesTaken

/-- The peers not yet taken. -/
def pendingPeers (s : RtpsUdpParticipant) : List ParticipantProxy :=
  (s.spdp.peerListener.getD []).drop s.peersTaken

/-- Run a command of the participant runtime. -/
def onInner (c : Cmd RtpsParticipant Effect Panic) : Cmd RtpsUdpParticipant Effect Panic :=
  fun s =>
    let o := c s.inner
    ⟨{ s with inner := o.state }, o.out, o.panic⟩

/-- The match listener. -/
def takeMatch : Cmd RtpsUdpParticipant Effect Panic := fun s =>
  match s.pendingMatches with
  | [] => Cmd.skip s
  | m :: _ =>
    Cmd.skip { s with inner := s.inner.applyMatch m, matchesTaken := s.matchesTaken + 1 }

/-- The peer listener. -/
def takePeer : Cmd RtpsUdpParticipant Effect Panic := fun s =>
  match s.pendingPeers with
  | [] => Cmd.skip s
  | proxy :: _ =>
    let (sent, sedp) := s.sedp.onNewPeer proxy
    Cmd.emit (RtpsParticipant.announcements sent)
      { s.withSedp sedp with peersTaken := s.peersTaken + 1 }

/-- Create a publisher.  A topic without a name is refused. -/
def newPublisher (topic : String) (qos : QoS) : Cmd RtpsUdpParticipant Effect Panic := fun s =>
  if topic = "" then Cmd.skip s
  else onInner (RtpsParticipant.newWriterImpl topic qos.reliable s.spdp.knownPeers) s

/-- Create a subscriber.  A topic without a name is refused. -/
def newSubscriber (topic : String) (qos : QoS) (opts : SubscriberOptions) (utc : ℤ) :
    Cmd RtpsUdpParticipant Effect Panic := fun s =>
  if topic = "" then Cmd.skip s
  else onInner (RtpsParticipant.newReaderImpl topic opts qos.reliable qos.transientLocal
    s.spdp.knownPeers none utc) s

/-- One step. -/
def handle : ParticipantEvent → Cmd RtpsUdpParticipant Effect Panic
  | .spdpPacket now data src =>
    Cmd.modify fun s => { s with spdp := s.spdp.handlePacket now data src }
  | .sweep now => Cmd.modify fun s => { s with spdp := s.spdp.evictExpired now }
  | .sedpPacket data src => Cmd.modify fun s => s.withSedp (s.sedp.handlePacket data src)
  | .takeMatch => takeMatch
  | .takePeer => takePeer
  | .dataPacket d => onInner (RtpsParticipant.handleDataPacket d)
  | .newPublisher topic qos => newPublisher topic qos
  | .newSubscriber topic qos opts utc => newSubscriber topic qos opts utc
  | .unsubscribe eid => onInner (Cmd.modify (RtpsParticipant.removeReader eid))
  | .write w utc payload => onInner (w.write utc payload)

/-- The participant after a step. -/
def step (s : RtpsUdpParticipant) (e : ParticipantEvent) : RtpsUdpParticipant := (handle e s).state

/-- The participant after a run. -/
def after (cfg : ParticipantConfig) (events : List ParticipantEvent) : RtpsUdpParticipant :=
  events.foldl step (new cfg)

/-! ## What a step changes

Of all a participant does, only this concerns the endpoints SEDP knows and the writers the
readers accept. -/

/-- Which writers each reader accepts. -/
def profile (s : RtpsUdpParticipant) : EntityId → Option (String × Finset Guid × Bool) :=
  s.inner.profile

lemma profile_eq_some {s : RtpsUdpParticipant} {eid : EntityId}
    {x : String × Finset Guid × Bool} : s.profile eid = some x ↔
      ∃ st, s.inner.readers.lookup eid = some st ∧ (st.topic, st.sources, st.reliable) = x :=
  Option.map_eq_some_iff

/-- `s'` differs from `s` at most in the local writers, in the announcements numbered so far, and
in what does not concern endpoints. -/
structure Unmoved (s s' : RtpsUdpParticipant) : Prop where
  sedp_eq : ∃ localWriters seqCounter, s'.sedp = { s.sedp with localWriters, seqCounter }
  profile_eq : s'.profile = s.profile
  taken_eq : s'.matchesTaken = s.matchesTaken

/-- What an event does to the endpoints SEDP knows and the writers the readers accept. -/
def Effects (s s' : RtpsUdpParticipant) : ParticipantEvent → Prop
  | .sedpPacket data src => s'.sedp = s.sedp.handlePacket data src ∧ s'.profile = s.profile ∧
      s'.matchesTaken = s.matchesTaken
  | .takeMatch => s' = s ∨ ∃ m ms, s.pendingMatches = m :: ms ∧ s'.sedp = s.sedp ∧
      s'.matchesTaken = s.matchesTaken + 1 ∧
      s'.profile = Function.update s.profile m.readerEid ((s.profile m.readerEid).map
        fun (topic, sources, reliable) => (topic, sources ∪ {m.writerGuid}, reliable))
  | .newSubscriber topic qos _ _ => s.Unmoved s' ∨
      s'.matchesTaken = s.matchesTaken ∧ ∃ seqCounter, s'.sedp =
        { s.sedp.insertReader s.inner.nextReaderId topic with seqCounter } ∧
      s'.profile = Function.update s.profile s.inner.nextReaderId
        (some (topic, (s.sedp.matchingWriters topic).toFinset, qos.reliable))
  | .unsubscribe eid => s'.sedp = s.sedp ∧ s'.profile = Function.update s.profile eid none ∧
      s'.matchesTaken = s.matchesTaken
  | _ => s.Unmoved s'

variable {s s' : RtpsUdpParticipant}

lemma unmoved_of_eq (hsedp : s'.sedp = s.sedp) (hprofile : s'.profile = s.profile)
    (htaken : s'.matchesTaken = s.matchesTaken) : s.Unmoved s' :=
  ⟨⟨s.sedp.localWriters, s.sedp.seqCounter, hsedp⟩, hprofile, htaken⟩

lemma unmoved_onInner {c : Cmd RtpsParticipant Effect Panic}
    (h : Steady s.inner (c s.inner).state) : s.Unmoved (onInner c s).state :=
  unmoved_of_eq h.sedp_eq h.profile_eq rfl

/-- **The step.** -/
lemma effects_step (s : RtpsUdpParticipant) (e : ParticipantEvent) : s.Effects (s.step e) e := by
  cases e with
  | spdpPacket now data src => exact unmoved_of_eq rfl rfl rfl
  | sweep now => exact unmoved_of_eq rfl rfl rfl
  | sedpPacket data src => exact ⟨rfl, rfl, rfl⟩
  | takeMatch =>
    rw [Effects, step, handle, takeMatch]
    cases hpending : s.pendingMatches with
    | nil => exact .inl rfl
    | cons m ms =>
      exact .inr ⟨m, ms, rfl, rfl, rfl, RtpsParticipant.profile_addSources ..⟩
  | takePeer =>
    change s.Unmoved (takePeer s).state
    rw [takePeer]
    cases hpending : s.pendingPeers with
    | nil => exact unmoved_of_eq rfl rfl rfl
    | cons proxy proxies =>
      obtain ⟨n, hn⟩ := SedpService.onNewPeer_eq s.sedp proxy
      exact ⟨⟨_, n, hn⟩, rfl, rfl⟩
  | dataPacket d => exact unmoved_onInner (RtpsParticipant.keeps_handleDataPacket s.inner d).1
  | newPublisher topic qos =>
    change s.Unmoved (newPublisher topic qos s).state
    rw [newPublisher]
    split
    · exact unmoved_of_eq rfl rfl rfl
    rcases RtpsParticipant.newWriterImpl_cases topic qos.reliable s.spdp.knownPeers s.inner with
      h | ⟨-, hprofile, eid, hsedp⟩
    · exact unmoved_onInner h
    · exact ⟨⟨_, _, hsedp⟩, hprofile, rfl⟩
  | newSubscriber topic qos opts utc =>
    rw [Effects, step, handle, newSubscriber]
    split
    · exact .inl (unmoved_of_eq rfl rfl rfl)
    rcases RtpsParticipant.newReaderImpl_cases topic opts qos.reliable qos.transientLocal
      s.spdp.knownPeers none utc s.inner with h | ⟨-, hsedp, hprofile⟩
    · exact .inl (unmoved_onInner h)
    · exact .inr ⟨rfl, _, hsedp, hprofile⟩
  | unsubscribe eid => exact ⟨rfl, RtpsParticipant.profile_removeReader .., rfl⟩
  | write w utc payload =>
    exact unmoved_onInner (RtpsParticipant.steady_write w utc payload s.inner)

end RtpsUdpParticipant

end RustDds
