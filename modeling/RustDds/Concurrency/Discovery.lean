import RustDds.Lib.Pool
import RustDds.Rtps.DdsParticipant

/-!
# Discovery, one lock at a time

The tasks that register endpoints, record what is discovered and carry events between the
services share tables behind a lock each, and atomic counters.  Here every step of a task is one
of its critical sections, one atomic operation, or the sending of one datagram.

A reader is created before it is in the dispatch table, and its registration goes on with it
afterwards, so the readers are kept in a list of their own, and the dispatch table refers to it.
The sources are all that is kept of a reader here.

A task that serves a queue of events takes one at a time, and starts anew when it is done with
it.
-/

namespace RustDds

/-- A reader, as the dispatch table and its registration share it. -/
structure SharedReader where
  eid : EntityId
  topic : String
  sources : Finset Guid
  deriving DecidableEq

/-- What the tasks share.  `states` are the readers created so far, to which `readers` refers by
position, and `sent` are the datagrams of announcements given to the socket. -/
structure DiscoveryState where
  entityCounter : UInt32
  states : List SharedReader
  readers : Table EntityId ℕ
  sedp : SedpService
  spdp : SpdpService
  matchesTaken : ℕ
  peersTaken : ℕ
  sent : List (Bytes × SocketAddr)

namespace DiscoveryState

/-- A participant without endpoints, with both listeners in place. -/
def new (cfg : ParticipantConfig) : DiscoveryState where
  entityCounter := 0
  states := []
  readers := ∅
  sedp := (SedpService.new cfg.sedp).setMatchListener
  spdp := (SpdpService.new cfg.spdp).setPeerListener
  matchesTaken := 0
  peersTaken := 0
  sent := []

/-- The matches not yet taken. -/
def pendingMatches (s : DiscoveryState) : List WriterMatch :=
  (s.sedp.matchListener.getD []).drop s.matchesTaken

/-- The peers not yet taken. -/
def pendingPeers (s : DiscoveryState) : List ParticipantProxy :=
  (s.spdp.peerListener.getD []).drop s.peersTaken

/-- Add remote writers to the sources of a reader. -/
def addSources (s : DiscoveryState) (reader : ℕ) (guids : List Guid) : DiscoveryState :=
  { s with states :=
      s.states.modify reader fun r => { r with sources := r.sources ∪ guids.toFinset } }

/-- The message that announces an endpoint. -/
def announcement (s : DiscoveryState) (info : EndpointInfo) (seqNum : UInt32) : Bytes :=
  endpointMessage s.sedp.config info seqNum

end DiscoveryState

/-- A call, or a task that serves a queue. -/
inductive DiscoveryCall
  /-- `new_reader_impl`. -/
  | newReader (topic : String)
  /-- `register_reader` by itself. -/
  | registerReader (eid : EntityId) (topic : String)
  /-- `register_writer`. -/
  | registerWriter (eid : EntityId) (topic : String)
  /-- `on_remote_writer`. -/
  | onRemoteWriter (info : EndpointInfo) (dataLocator : Locator)
  /-- `store_peer`, at this time. -/
  | storePeer (now : ℕ) (proxy : ParticipantProxy)
  /-- The match listener. -/
  | matchListener
  /-- The peer listener. -/
  | peerListener
  deriving DecidableEq

/-- A reader to give sources to when its registration has sent all announcements. -/
abbrev Matched := Option (ℕ × List Guid)

/-- What is left of a call. -/
inductive DiscoveryTask
  /-- All of it, from the first critical section on. -/
  | call (c : DiscoveryCall)
  /-- Put the new reader into the dispatch table. -/
  | insertState (reader : ℕ) (eid : EntityId) (topic : String)
  /-- Register the new reader with SEDP. -/
  | insertReader (reader : ℕ) (eid : EntityId) (topic : String)
  /-- Look for remote writers of the topic. -/
  | scanWriters (info : EndpointInfo) (reader : Option ℕ)
  /-- Number the announcement. -/
  | nextSeqNum (info : EndpointInfo) (matched : Matched)
  /-- Look for peers to announce the endpoint to. -/
  | knownPeers (info : EndpointInfo) (seqNum : UInt32) (matched : Matched)
  /-- Send the announcement to these, and then give the reader its sources. -/
  | broadcast (left : List (Bytes × SocketAddr)) (matched : Matched)
  /-- Look for local readers of the topic. -/
  | scanReaders (info : EndpointInfo) (dataLocator : Locator)
  /-- Record the locator of a matched writer. -/
  | insertLocator (guid : Guid) (dataLocator : Locator) (readers : List EntityId)
  /-- Tell the match listener. -/
  | sendMatches (guid : Guid) (readers : List EntityId)
  /-- Hand a match to its reader. -/
  | applyMatch (m : WriterMatch)
  /-- Tell the peer listener. -/
  | reportPeer (proxy : ParticipantProxy)
  /-- Look for local writers to announce to a peer. -/
  | localWriters (proxy : ParticipantProxy)
  /-- Look for local readers as well. -/
  | localReaders (proxy : ParticipantProxy) (infos : List EndpointInfo)
  /-- Announce these to the peer. -/
  | announce (proxy : ParticipantProxy) (infos : List EndpointInfo)
  /-- Send this announcement to the peer, and go on with the others. -/
  | sendTo (proxy : ParticipantProxy) (msg : Bytes) (infos : List EndpointInfo)
  /-- Nothing. -/
  | done
  deriving DecidableEq

namespace DiscoveryState

/-- The first step of a call. -/
def enter (s : DiscoveryState) : DiscoveryCall → DiscoveryState × DiscoveryTask
  | .newReader topic =>
    let s' := { s with entityCounter := s.entityCounter + 1 }
    match checkedAdd 32 s.entityCounter.toNat 1 with
    -- the call unwinds
    | .error _ => (s', .done)
    | .ok n =>
      let eid := entityIdForReader (UInt32.ofNat n)
      ({ s' with states := s.states ++ [⟨eid, topic, ∅⟩] },
        .insertState s.states.length eid topic)
  | .registerReader eid topic =>
    ({ s with sedp := s.sedp.insertReader eid topic },
      .scanWriters (s.sedp.localInfo eid topic false) none)
  | .registerWriter eid topic =>
    ({ s with sedp := s.sedp.insertWriter eid topic },
      .nextSeqNum (s.sedp.localInfo eid topic true) none)
  | .onRemoteWriter info dataLocator =>
    ({ s with sedp := s.sedp.insertRemoteWriter info }, .scanReaders info dataLocator)
  | .storePeer now proxy =>
    let proxy := SpdpService.stampPeer now proxy
    ({ s with spdp := s.spdp.insertPeer proxy }, .reportPeer proxy)
  | .matchListener =>
    match s.pendingMatches with
    | [] => (s, .call .matchListener)
    | m :: _ => ({ s with matchesTaken := s.matchesTaken + 1 }, .applyMatch m)
  | .peerListener =>
    match s.pendingPeers with
    | [] => (s, .call .peerListener)
    | proxy :: _ => ({ s with peersTaken := s.peersTaken + 1 }, .localWriters proxy)

/-- One step of a task. -/
def move (s : DiscoveryState) : DiscoveryTask → DiscoveryState × DiscoveryTask
  | .call c => s.enter c
  | .insertState reader eid topic =>
    ({ s with readers := s.readers.insert eid reader }, .insertReader reader eid topic)
  | .insertReader reader eid topic =>
    ({ s with sedp := s.sedp.insertReader eid topic },
      .scanWriters (s.sedp.localInfo eid topic false) (some reader))
  | .scanWriters info reader =>
    (s, .nextSeqNum info
      (reader.map fun reader => (reader, s.sedp.matchingWriters info.topicName)))
  | .nextSeqNum info matched =>
    let seqNum := s.sedp.seqCounter + 1
    ({ s with sedp := { s.sedp with seqCounter := seqNum } }, .knownPeers info seqNum matched)
  | .knownPeers info seqNum matched =>
    (s, .broadcast ((s.spdp.knownPeers.filterMap fun peer => peer.metatrafficUnicast.udpAddr).map
      fun dst => (s.announcement info seqNum, dst)) matched)
  | .broadcast (dgram :: left) matched =>
    ({ s with sent := s.sent ++ [dgram] }, .broadcast left matched)
  | .broadcast [] (some (reader, guids)) => (s.addSources reader guids, .done)
  | .broadcast [] none => (s, .done)
  | .scanReaders info dataLocator =>
    let readers := s.sedp.matchingReaders info.topicName
    ({ s with sedp := s.sedp.countMatches readers.length },
      if readers = [] then .done else .insertLocator info.guid dataLocator readers)
  | .insertLocator guid dataLocator readers =>
    ({ s with sedp := s.sedp.insertWriterLocator guid dataLocator }, .sendMatches guid readers)
  | .sendMatches guid (eid :: readers) =>
    ({ s with sedp := s.sedp.sendMatch ⟨eid, guid⟩ }, .sendMatches guid readers)
  | .sendMatches _ [] => (s, .done)
  | .applyMatch m =>
    match s.readers.lookup m.readerEid with
    | none => (s, .call .matchListener)
    | some reader => (s.addSources reader [m.writerGuid], .call .matchListener)
  | .reportPeer proxy => ({ s with spdp := s.spdp.reportPeer proxy }, .done)
  | .localWriters proxy => (s, .localReaders proxy s.sedp.localWriters.values)
  | .localReaders proxy infos => (s, .announce proxy (infos ++ s.sedp.localReaders.values))
  | .announce proxy (info :: infos) =>
    let seqNum := s.sedp.seqCounter + 1
    ({ s with sedp := { s.sedp with seqCounter := seqNum } },
      .sendTo proxy (s.announcement info seqNum) infos)
  | .announce _ [] => (s, .call .peerListener)
  | .sendTo proxy msg infos =>
    ({ s with sent := s.sent ++
        (proxy.metatrafficUnicast.udpAddr.map fun dst => (msg, dst)).toList },
      .announce proxy infos)
  | .done => (s, .done)

/-! The steps that depend on what they find. -/

section
variable {s : DiscoveryState} {topic : String}

lemma enter_newReader_cases (s : DiscoveryState) (topic : String) :
    s.enter (.newReader topic) = ({ s with entityCounter := s.entityCounter + 1 }, .done) ∨
    s.enter (.newReader topic) =
      ({ s with
          entityCounter := s.entityCounter + 1
          states := s.states ++ [⟨entityIdForReader (s.entityCounter + 1), topic, ∅⟩] },
        .insertState s.states.length (entityIdForReader (s.entityCounter + 1)) topic) := by
  rw [enter]
  cases h : checkedAdd 32 s.entityCounter.toNat 1 with
  | error e => exact .inl rfl
  | ok n =>
    obtain ⟨-, rfl⟩ := checkedAdd_eq_ok.mp h
    refine .inr ?_
    dsimp only
    rw [RtpsParticipant.ofNat_succ_toNat]

lemma enter_matchListener_nil (h : s.pendingMatches = []) :
    s.enter .matchListener = (s, .call .matchListener) := by rw [enter, h]

lemma enter_matchListener_cons {m : WriterMatch} {ms : List WriterMatch}
    (h : s.pendingMatches = m :: ms) : s.enter .matchListener =
      ({ s with matchesTaken := s.matchesTaken + 1 }, .applyMatch m) := by rw [enter, h]

lemma enter_peerListener_nil (h : s.pendingPeers = []) :
    s.enter .peerListener = (s, .call .peerListener) := by rw [enter, h]

lemma enter_peerListener_cons {proxy : ParticipantProxy} {proxies : List ParticipantProxy}
    (h : s.pendingPeers = proxy :: proxies) : s.enter .peerListener =
      ({ s with peersTaken := s.peersTaken + 1 }, .localWriters proxy) := by rw [enter, h]

lemma move_applyMatch_none {m : WriterMatch} (h : s.readers.lookup m.readerEid = none) :
    s.move (.applyMatch m) = (s, .call .matchListener) := by rw [move, h]

lemma move_applyMatch_some {m : WriterMatch} {reader : ℕ}
    (h : s.readers.lookup m.readerEid = some reader) :
    s.move (.applyMatch m) = (s.addSources reader [m.writerGuid], .call .matchListener) := by
  rw [move, h]

end

/-- The tasks, and the eviction sweep, which may run at any time. -/
def program : Program DiscoveryState DiscoveryTask Unit ℕ where
  move _ s t := s.move t
  env now s := { s with spdp := s.spdp.evictExpired now }

/-- A family of calls, of which none has begun. -/
def start (cfg : ParticipantConfig) (calls : ℕ → DiscoveryCall) :
    Pool DiscoveryState DiscoveryTask :=
  ⟨new cfg, fun i => .call (calls i)⟩

/-- A pick of the scheduler. -/
abbrev Turn := Pick Unit ℕ

end DiscoveryState

/-- The task is not inside a call. -/
def DiscoveryTask.Idle : DiscoveryTask → Prop
  | .call _ => True
  | .done => True
  | _ => False

end RustDds
