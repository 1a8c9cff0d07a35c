import RustDds.Rtps.Spdp

/-!
# SEDP: endpoint discovery

A participant announces each of its writers and readers to the peers it knows, with a parameter
list (`buildEndpointData`) in a DATA submessage of one of two builtin writers.  The service keeps
the endpoints announced to it in four tables, and matches remote writers with local readers of
the same topic.

A remote writer that turns up after the reader is reported to a listener as a `WriterMatch`; the
writers known before are returned by `registerReader`.

The operations on more than one table are built from those on one, in the order in which the
code takes the locks.
-/

namespace RustDds

/-- A local or remote endpoint. -/
structure EndpointInfo where
  guid : Guid
  topicName : String
  isWriter : Bool
  deriving DecidableEq

/-- A remote writer matches a local reader. -/
structure WriterMatch where
  readerEid : EntityId
  writerGuid : Guid
  deriving DecidableEq

/-- The identity a participant announces its endpoints under. -/
structure SedpConfig where
  guidPrefix : GuidPrefix
  vendorId : VendorId
  dataUnicastPort : UInt16
  ipv6 : Bool
  deriving DecidableEq

/-! ## Building an announcement -/

/-- The type name of every endpoint. -/
def endpointTypeName : String := "CDR_BLOB"

/-- The announced parameter list. -/
def buildEndpointData (cfg : SedpConfig) (info : EndpointInfo) : Bytes :=
  let enc := PlCdrEncoder.new
  let enc := enc.addGuid pidEndpointGuid info.guid
  let enc := enc.addString pidTopicName info.topicName
  let enc := enc.addString pidTypeName endpointTypeName
  let enc := enc.addLocator pidDefaultUnicastLocator (zeroLocator cfg.ipv6 cfg.dataUnicastPort)
  enc.finish

/-- The message that announces an endpoint. -/
def endpointMessage (cfg : SedpConfig) (info : EndpointInfo) (seqNum : UInt32) : Bytes :=
  let writer := if info.isWriter then entityIdSedpPubWriter else entityIdSedpSubWriter
  let reader := if info.isWriter then entityIdSedpPubReader else entityIdSedpSubReader
  wrapInRtpsMessage ⟨protocolVersion23, cfg.vendorId, cfg.guidPrefix⟩
    (encodeDataSubmessage writer reader ⟨0, seqNum⟩ (buildEndpointData cfg info))

/-! ## Reading an announcement -/

/-- What has been read of an announcement. -/
structure EndpointData where
  guid : Guid
  topicName : String
  dataLocator : Locator
  deriving DecidableEq

namespace EndpointData

/-- Before any parameter is read: an unknown endpoint of the sender, by the message header. -/
def initial (remotePrefix : GuidPrefix) : EndpointData :=
  ⟨⟨remotePrefix, entityIdUnknown⟩, "", .default⟩

/-- One turn of the loop over the parameters. -/
def readParam (src : SocketAddr) (data : EndpointData) (param : Param) : EndpointData :=
  if param.pid = pidEndpointGuid then
    match Guid.decode param.value with
    | .ok guid => { data with guid }
    | .error _ => data
  else if param.pid = pidTopicName then
    match decodeString param.value with
    | .ok topicName => { data with topicName }
    | .error _ => data
  else if param.pid = pidDefaultUnicastLocator then
    match Locator.decode param.value with
    | .ok loc => { data with dataLocator := loc.fillInZeroAddress src }
    | .error _ => data
  else data

end EndpointData

/-- Decode an announced parameter list received from `src` under `remotePrefix`.  One without a
topic name is dropped. -/
def parseEndpointData (remotePrefix : GuidPrefix) (payload : Bytes) (src : SocketAddr) :
    Option EndpointData :=
  match PlCdrDecoder.decodeParams payload with
  | none => none
  | some params =>
    let data := params.foldl (EndpointData.readParam src) (.initial remotePrefix)
    if data.topicName = "" then none else some data

/-- The announcement in a submessage, and whether it is of a writer: the payload of a DATA
submessage of one of the two SEDP writers. -/
def announcedEndpoint (raw : RawSubmessage) : Option (Bool × Bytes) :=
  if raw.id ≠ submsgData then none
  else match decodeDataSubmessage raw.flags raw.body with
    | .error _ => none
    | .ok ds =>
      match ds.payload with
      | none => none
      | some payload =>
        if ds.writerEntityId = entityIdSedpPubWriter then some (true, payload)
        else if ds.writerEntityId = entityIdSedpSubWriter then some (false, payload)
        else none

/-! ## The service -/

/-- One participant's endpoint discovery service.  The match listener is what a registered one has
been sent so far. -/
structure SedpService where
  config : SedpConfig
  seqCounter : UInt32
  localWriters : Table EntityId EndpointInfo
  localReaders : Table EntityId EndpointInfo
  remoteWriters : Table Guid EndpointInfo
  remoteReaders : Table Guid EndpointInfo
  remoteReaderLocators : Table Guid Locator
  /-- Where the remote writers matched with some local reader send from. -/
  writerLocators : Table Guid Locator
  matchListener : Option (List WriterMatch)
  endpointMatches : UInt64
  announcesReceived : UInt64

namespace SedpService

/-- A service that knows no endpoint. -/
def new (config : SedpConfig) : SedpService := ⟨config, 0, ∅, ∅, ∅, ∅, ∅, ∅, none, 0, 0⟩

/-- Register a listener, in place of an earlier one. -/
def setMatchListener (s : SedpService) : SedpService := { s with matchListener := some [] }

/-- A local endpoint. -/
def localInfo (s : SedpService) (eid : EntityId) (topicName : String) (isWriter : Bool) :
    EndpointInfo :=
  ⟨⟨s.config.guidPrefix, eid⟩, topicName, isWriter⟩

/-! ### Announcing -/

/-- Send an announcement to each of some peers that has a UDP address, under the next sequence
number. -/
def announce (s : SedpService) (info : EndpointInfo) (peers : List ParticipantProxy) :
    List (Bytes × SocketAddr) × SedpService :=
  let seqNum := s.seqCounter + 1
  ((peers.filterMap fun peer => peer.metatrafficUnicast.udpAddr).map fun dst =>
      (endpointMessage s.config info seqNum, dst),
    { s with seqCounter := seqNum })

/-- Announce several endpoints in turn. -/
def announceAll (s : SedpService) (infos : List EndpointInfo) (peers : List ParticipantProxy) :
    List (Bytes × SocketAddr) × SedpService :=
  infos.foldl (fun (sent, s) info =>
    let (out, s) := s.announce info peers
    (sent ++ out, s)) ([], s)

/-! ### Local endpoints -/

/-- Insert a local writer. -/
def insertWriter (s : SedpService) (eid : EntityId) (topicName : String) : SedpService :=
  { s with localWriters := s.localWriters.insert eid (s.localInfo eid topicName true) }

/-- Insert a local reader. -/
def insertReader (s : SedpService) (eid : EntityId) (topicName : String) : SedpService :=
  { s with localReaders := s.localReaders.insert eid (s.localInfo eid topicName false) }

/-- The known remote writers of a topic. -/
def matchingWriters (s : SedpService) (topicName : String) : List Guid :=
  (s.remoteWriters.values.filter fun rw => rw.topicName = topicName).map EndpointInfo.guid

/-- Record a local writer and announce it to every known peer. -/
def registerWriter (s : SedpService) (eid : EntityId) (topicName : String)
    (knownPeers : List ParticipantProxy) : List (Bytes × SocketAddr) × SedpService :=
  (s.insertWriter eid topicName).announce (s.localInfo eid topicName true) knownPeers

/-- Record a local reader and announce it to every known peer.  Returns the known remote writers
of its topic. -/
def registerReader (s : SedpService) (eid : EntityId) (topicName : String)
    (knownPeers : List ParticipantProxy) :
    List Guid × List (Bytes × SocketAddr) × SedpService :=
  let s := s.insertReader eid topicName
  (s.matchingWriters topicName, s.announce (s.localInfo eid topicName false) knownPeers)

/-- Announce every local endpoint to a new peer. -/
def onNewPeer (s : SedpService) (proxy : ParticipantProxy) :
    List (Bytes × SocketAddr) × SedpService :=
  s.announceAll (s.localWriters.values ++ s.localReaders.values) [proxy]

/-! ### Remote endpoints -/

/-- Insert a discovered writer. -/
def insertRemoteWriter (s : SedpService) (info : EndpointInfo) : SedpService :=
  { s with remoteWriters := s.remoteWriters.insert info.guid info }

/-- The local readers of a topic. -/
def matchingReaders (s : SedpService) (topicName : String) : List EntityId :=
  (s.localReaders.values.filter fun lr => lr.topicName = topicName).map fun lr => lr.guid.entity

/-- Count some matches. -/
def countMatches (s : SedpService) (n : ℕ) : SedpService :=
  { s with endpointMatches := s.endpointMatches + UInt64.ofNat n }

/-- Insert the data locator of a matched writer. -/
def insertWriterLocator (s : SedpService) (guid : Guid) (dataLocator : Locator) : SedpService :=
  { s with writerLocators := s.writerLocators.insert guid dataLocator }

/-- Tell the listener of a match. -/
def sendMatch (s : SedpService) (m : WriterMatch) : SedpService :=
  { s with matchListener := s.matchListener.map (· ++ [m]) }

/-- Tell the listener of the matches of a writer. -/
def sendMatches (s : SedpService) (guid : Guid) (readers : List EntityId) : SedpService :=
  readers.foldl (fun s readerEid => s.sendMatch ⟨readerEid, guid⟩) s

/-- Record a discovered writer and match it against the local readers.  Returns those it
matches. -/
def onRemoteWriter (s : SedpService) (info : EndpointInfo) (dataLocator : Locator) :
    List EntityId × SedpService :=
  let s := s.insertRemoteWriter info
  let matched := s.matchingReaders info.topicName
  let s := s.countMatches matched.length
  if matched = [] then (matched, s)
  else (matched, (s.insertWriterLocator info.guid dataLocator).sendMatches info.guid matched)

/-- Record a discovered reader and its data locator. -/
def onRemoteReader (s : SedpService) (info : EndpointInfo) (dataLocator : Locator) :
    SedpService :=
  { s with
    remoteReaders := s.remoteReaders.insert info.guid info
    remoteReaderLocators := s.remoteReaderLocators.insert info.guid dataLocator }

/-- Forget the endpoints of an evicted participant. -/
def onPeerEvicted (s : SedpService) (guidPrefix : GuidPrefix) : SedpService :=
  { s with
    remoteWriters := s.remoteWriters.retain fun guid _ => decide (guid.guidPrefix ≠ guidPrefix)
    remoteReaders := s.remoteReaders.retain fun guid _ => decide (guid.guidPrefix ≠ guidPrefix)
    remoteReaderLocators :=
      s.remoteReaderLocators.retain fun guid _ => decide (guid.guidPrefix ≠ guidPrefix)
    writerLocators := s.writerLocators.retain fun guid _ => decide (guid.guidPrefix ≠ guidPrefix) }

/-! ### The receive path -/

/-- Handle an announcement. -/
def handleEndpointAnnounce (remotePrefix : GuidPrefix) (src : SocketAddr) (s : SedpService)
    (payload : Bytes) (isWriter : Bool) : SedpService :=
  match parseEndpointData remotePrefix payload src with
  | none => s
  | some data =>
    let s := { s with announcesReceived := s.announcesReceived + 1 }
    let info : EndpointInfo := ⟨data.guid, data.topicName, isWriter⟩
    if isWriter then (s.onRemoteWriter info data.dataLocator).2
    else s.onRemoteReader info data.dataLocator

/-- Handle one submessage of a message sent under `remotePrefix`. -/
def handleSubmessage (remotePrefix : GuidPrefix) (src : SocketAddr) (s : SedpService)
    (raw : RawSubmessage) : SedpService :=
  match announcedEndpoint raw with
  | none => s
  | some (isWriter, payload) => s.handleEndpointAnnounce remotePrefix src payload isWriter

/-- Handle one received datagram. -/
def handlePacket (s : SedpService) (data : Bytes) (src : SocketAddr) : SedpService :=
  match Header.decode data with
  | .error _ => s
  | .ok header =>
    if header.guidPrefix = s.config.guidPrefix then s
    else (submessages (data.drop 20)).foldl (handleSubmessage header.guidPrefix src) s

/-! ### Queries -/

/-- Every known remote writer. -/
def knownRemoteWriters (s : SedpService) : List EndpointInfo := s.remoteWriters.values

/-- Every known remote reader. -/
def knownRemoteReaders (s : SedpService) : List EndpointInfo := s.remoteReaders.values

/-- The data locator of a matched writer. -/
def matchedWriterLocator (s : SedpService) (writerGuid : Guid) : Option Locator :=
  s.writerLocators.lookup writerGuid

/-- The data locators of every known reader of a topic, one for each reader. -/
def matchedReaderLocators (s : SedpService) (topicName : String) : List Locator :=
  (s.remoteReaders.values.filter fun r => r.topicName = topicName).filterMap fun r =>
    s.remoteReaderLocators.lookup r.guid

/-! ## Announcing changes nothing else -/

lemma announceAll_eq (s : SedpService) (infos : List EndpointInfo)
    (peers : List ParticipantProxy) :
    ∃ seqCounter, (s.announceAll infos peers).2 = { s with seqCounter } := by
  have hloop : ∀ acc : List (Bytes × SocketAddr) × SedpService,
      (∃ seqCounter, acc.2 = { s with seqCounter }) →
        ∃ seqCounter, (infos.foldl (fun acc info =>
          let (out, s) := acc.2.announce info peers
          (acc.1 ++ out, s)) acc).2 = { s with seqCounter } := by
    induction infos with
    | nil => exact fun acc h => h
    | cons info infos ih =>
      rintro acc ⟨n, hn⟩
      refine ih _ ⟨n + 1, ?_⟩
      simp only [announce, hn]
  exact hloop ([], s) ⟨s.seqCounter, rfl⟩

lemma onNewPeer_eq (s : SedpService) (proxy : ParticipantProxy) :
    ∃ seqCounter, (s.onNewPeer proxy).2 = { s with seqCounter } := announceAll_eq ..

end SedpService

end RustDds
