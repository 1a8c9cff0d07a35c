import RustDds.Lib.Table
import RustDds.Rtps.Cdr
import RustDds.Rtps.Message

/-!
# SPDP: participant discovery

A participant announces itself with a parameter list (`buildParticipantData`) in a DATA
submessage of the SPDP writer.  `handlePacket` reads a received datagram, has the discovery
plugin check the token of each announcement in it, and stores the sender in the known-peers
table, from which `evictExpired` removes it when its lease runs out.

The plugin is a trait object, so it is a parameter here, with the one law the trait documents.
Times are nanoseconds of a monotonic clock; natural subtraction is the saturating
`duration_since`.  A datagram is handled at one reading of the clock.
-/

namespace RustDds

/-- Signs and verifies announcements.  An empty tag is never valid. -/
structure DiscoveryPlugin where
  signDiscovery : Bytes → Bytes
  verifyDiscovery : Bytes → Bytes → Bool
  verifyDiscovery_nil : ∀ guidPrefix, verifyDiscovery guidPrefix [] = false

/-- Lease applied to a peer that announced none, in nanoseconds. -/
def defaultLeaseDuration : ℕ := 10000000000

/-- The lease this participant announces, in seconds. -/
def advertisedLeaseSecs : UInt32 := 10

/-- The six builtin endpoints of SPDP and SEDP. -/
def allBuiltinEndpoints : UInt32 := 0x3f

/-- The identity a participant announces, and the plugin it signs and verifies with. -/
structure SpdpConfig where
  guidPrefix : GuidPrefix
  vendorId : VendorId
  metaUnicastPort : UInt16
  dataUnicastPort : UInt16
  ipv6 : Bool
  discoveryPlugin : Option DiscoveryPlugin

/-- What is known of a remote participant. -/
structure ParticipantProxy where
  guid : Guid
  metatrafficUnicast : Locator
  defaultUnicast : Locator
  builtinEndpoints : UInt32
  /-- Zero when the announcement carried no lease. -/
  leaseDuration : ℕ
  lastSeen : Option ℕ
  deriving DecidableEq

/-! ## Building an announcement -/

/-- An all-zero address, which receivers replace by the sender's. -/
def zeroLocator (ipv6 : Bool) (port : UInt16) : Locator :=
  if ipv6 then .udpV6 (FixedBytes.zero 16) port.toUInt32
  else .udpV4 (FixedBytes.zero 4) port.toUInt32

/-- The announced parameter list. -/
def buildParticipantData (cfg : SpdpConfig) : Bytes :=
  let enc := PlCdrEncoder.new
  let enc := enc.addBytes pidProtocolVersion (protocolVersion23.encode ++ [0, 0])
  let enc := enc.addBytes pidVendorId (cfg.vendorId.bytes ++ [0, 0])
  let enc := enc.addGuid pidParticipantGuid ⟨cfg.guidPrefix, entityIdParticipant⟩
  let enc := enc.addU32 pidBuiltinEndpointSet allBuiltinEndpoints
  let enc := enc.addLocator pidMetatrafficUnicastLocator (zeroLocator cfg.ipv6 cfg.metaUnicastPort)
  let enc := enc.addLocator pidDefaultUnicastLocator (zeroLocator cfg.ipv6 cfg.dataUnicastPort)
  let enc := enc.addBytes pidParticipantLeaseDuration
    (Bytes.ofU32 advertisedLeaseSecs ++ Bytes.ofU32 0)
  let enc := match cfg.discoveryPlugin with
    | some plugin =>
      enc.addBytes pidDiscoveryToken (plugin.signDiscovery cfg.guidPrefix.bytes)
    | none => enc
  enc.finish

/-- The message around an announced parameter list. -/
def announcementMessage (guidPrefix : GuidPrefix) (vendorId : VendorId) (seqNum : UInt32)
    (payload : Bytes) : Bytes :=
  wrapInRtpsMessage ⟨protocolVersion23, vendorId, guidPrefix⟩
    (encodeDataSubmessage entityIdSpdpWriter entityIdSpdpReader ⟨0, seqNum⟩ payload)

/-! ## Reading an announcement -/

/-- The token of an announcement: the first `PID_DISCOVERY_TOKEN`. -/
def extractDiscoveryToken (payload : Bytes) : Option Bytes :=
  match PlCdrDecoder.decodeParams payload with
  | none => none
  | some params =>
    (params.find? fun param => param.pid = pidDiscoveryToken).map Param.value

namespace ParticipantProxy

/-- One turn of the loop over the parameters. -/
def readParam (src : SocketAddr) (proxy : ParticipantProxy) (param : Param) : ParticipantProxy :=
  if param.pid = pidMetatrafficUnicastLocator then
    match Locator.decode param.value with
    | .ok loc => { proxy with metatrafficUnicast := loc.fillInZeroAddress src }
    | .error _ => proxy
  else if param.pid = pidDefaultUnicastLocator then
    match Locator.decode param.value with
    | .ok loc => { proxy with defaultUnicast := loc.fillInZeroAddress src }
    | .error _ => proxy
  else if param.pid = pidBuiltinEndpointSet then
    if param.value.length ≥ 4 then
      { proxy with builtinEndpoints := Bytes.readU32 param.value 0 }
    else proxy
  else if param.pid = pidParticipantLeaseDuration then
    if param.value.length ≥ 4 then
      let secs := Bytes.readU32 param.value 0
      if secs > 0 then { proxy with leaseDuration := secs.toNat * 1000000000 } else proxy
    else proxy
  else if param.pid = pidParticipantGuid then
    match Guid.decode param.value with
    | .ok g => { proxy with guid := g }
    | .error _ => proxy
  else proxy

/-- The proxy before any parameter is read: the sender's, by the message header. -/
def initial (guidPrefix : GuidPrefix) : ParticipantProxy where
  guid := ⟨guidPrefix, entityIdParticipant⟩
  metatrafficUnicast := .default
  defaultUnicast := .default
  builtinEndpoints := 0
  leaseDuration := 0
  lastSeen := none

end ParticipantProxy

/-- Decode an announced parameter list received from `src` under `guidPrefix`. -/
def parseParticipantData (guidPrefix : GuidPrefix) (payload : Bytes) (src : SocketAddr) :
    Option ParticipantProxy :=
  match PlCdrDecoder.decodeParams payload with
  | none => none
  | some params =>
    some (params.foldl (ParticipantProxy.readParam src) (.initial guidPrefix))

/-- The announcement in a submessage: the payload of a DATA submessage of the SPDP writer. -/
def announcedPayload (raw : RawSubmessage) : Option Bytes :=
  if raw.id ≠ submsgData then none
  else match decodeDataSubmessage raw.flags raw.body with
    | .error _ => none
    | .ok ds => if ds.writerEntityId ≠ entityIdSpdpWriter then none else ds.payload

/-- Whether an announcement passes the plugin, if there is one, under the sender's prefix. -/
def SpdpConfig.verifies (cfg : SpdpConfig) (guidPrefix : GuidPrefix) (payload : Bytes) : Bool :=
  match cfg.discoveryPlugin with
  | none => true
  | some plugin =>
    plugin.verifyDiscovery guidPrefix.bytes ((extractDiscoveryToken payload).getD [])

/-! ## The service -/

/-- One participant's discovery service.  The peer listener is what a registered one has been
sent so far. -/
structure SpdpService where
  config : SpdpConfig
  peers : Table GuidPrefix ParticipantProxy
  peerListener : Option (List ParticipantProxy)
  announcesReceived : UInt64
  peerEvictions : UInt64

namespace SpdpService

/-- A service that knows no peers. -/
def new (config : SpdpConfig) : SpdpService := ⟨config, ∅, none, 0, 0⟩

/-- Register a listener, in place of an earlier one. -/
def setPeerListener (s : SpdpService) : SpdpService := { s with peerListener := some [] }

/-- Record a peer under its GUID prefix and tell the listener.  Returns whether it is new. -/
def storePeer (s : SpdpService) (now : ℕ) (proxy : ParticipantProxy) : Bool × SpdpService :=
  let proxy := { proxy with
    lastSeen := some now
    leaseDuration :=
      if proxy.leaseDuration = 0 then defaultLeaseDuration else proxy.leaseDuration }
  ((s.peers.lookup proxy.guid.guidPrefix).isNone,
    { s with
      announcesReceived := s.announcesReceived + 1
      peers := s.peers.insert proxy.guid.guidPrefix proxy
      peerListener := s.peerListener.map (· ++ [proxy]) })

/-- A peer as it is stored: seen now, with the default lease if it announced none. -/
def stampPeer (now : ℕ) (proxy : ParticipantProxy) : ParticipantProxy :=
  { proxy with
    lastSeen := some now
    leaseDuration :=
      if proxy.leaseDuration = 0 then defaultLeaseDuration else proxy.leaseDuration }

/-- The part of `storePeer` under the lock of the table. -/
def insertPeer (s : SpdpService) (proxy : ParticipantProxy) : SpdpService :=
  { s with
    announcesReceived := s.announcesReceived + 1
    peers := s.peers.insert proxy.guid.guidPrefix proxy }

/-- The part of `storePeer` that tells the listener. -/
def reportPeer (s : SpdpService) (proxy : ParticipantProxy) : SpdpService :=
  { s with peerListener := s.peerListener.map (· ++ [proxy]) }

/-- Every known peer. -/
def knownPeers (s : SpdpService) : List ParticipantProxy := s.peers.values

/-- Handle one submessage of a message sent under `guidPrefix`. -/
def handleSubmessage (now : ℕ) (guidPrefix : GuidPrefix) (src : SocketAddr) (s : SpdpService)
    (raw : RawSubmessage) : SpdpService :=
  match announcedPayload raw with
  | none => s
  | some payload =>
    if s.config.verifies guidPrefix payload then
      match parseParticipantData guidPrefix payload src with
      | some proxy => (s.storePeer now proxy).2
      | none => s
    else s

/-- Handle one received datagram. -/
def handlePacket (s : SpdpService) (now : ℕ) (data : Bytes) (src : SocketAddr) : SpdpService :=
  match Header.decode data with
  | .error _ => s
  | .ok header =>
    if header.guidPrefix = s.config.guidPrefix then s
    else (submessages (data.drop 20)).foldl
      (handleSubmessage now header.guidPrefix src) s

/-- Whether the lease of a peer has run out. -/
def expired (now : ℕ) (peer : ParticipantProxy) : Bool :=
  let lease := if peer.leaseDuration = 0 then defaultLeaseDuration else peer.leaseDuration
  now - peer.lastSeen.getD now > lease

/-- Remove every peer whose lease has run out. -/
def evictExpired (s : SpdpService) (now : ℕ) : SpdpService :=
  let peers := s.peers.retain fun _ peer => !expired now peer
  { s with
    peers
    peerEvictions :=
      s.peerEvictions + UInt64.ofNat (s.peers.entries.length - peers.entries.length) }

end SpdpService

end RustDds
