import RustDds.Discovery.Authentication
import RustDds.Discovery.Endpoints

/-!
# Announcements, from the builder to the table

What a participant announces, a receiver reads back.  On the way the announcement is a parameter
list, the payload of a DATA submessage and a message, and each layer has its own lengths; the
address it announces is all zero, and the receiver fills in where the datagram came from.

An announced endpoint is recorded as it was announced (`handlePacket_announce`).  An announced
participant is stored as it was announced, but the token of a discovery plugin is read back with
the padding of its parameter, so that a plugin that insists on its own token accepts it only if
there is none (`handlePacket_announcement_iff`).
-/

namespace RustDds

/-! ## Zero addresses -/

/-- The address is an IPv6 one. -/
def SocketAddr.isV6 : SocketAddr → Bool
  | .v4 _ _ => false
  | .v6 _ _ => true

/-- The locator of a port at the IP of a socket address. -/
def SocketAddr.locatorAt (src : SocketAddr) (port : UInt16) : Locator :=
  match src with
  | .v4 ip _ => .udpV4 ip port.toUInt32
  | .v6 ip _ => .udpV6 ip port.toUInt32

/-- An announced zero address is filled in with the sender's, if it is of the same family. -/
lemma fillInZeroAddress_zeroLocator {ipv6 : Bool} {port : UInt16} {src : SocketAddr}
    (h : src.isV6 = ipv6) : (zeroLocator ipv6 port).fillInZeroAddress src = src.locatorAt port := by
  subst h
  cases src with
  | v4 ip p =>
    show (Locator.udpV4 (FixedBytes.zero 4) port.toUInt32).fillInZeroAddress (.v4 ip p) = _
    have hzero : (Locator.udpV4 (FixedBytes.zero 4) port.toUInt32).address =
        FixedBytes.zero 16 := rfl
    rw [Locator.fillInZeroAddress, if_neg (not_not.mpr hzero)]
    rfl
  | v6 ip p =>
    show (Locator.udpV6 (FixedBytes.zero 16) port.toUInt32).fillInZeroAddress (.v6 ip p) = _
    have hzero : (Locator.udpV6 (FixedBytes.zero 16) port.toUInt32).address =
        FixedBytes.zero 16 := rfl
    rw [Locator.fillInZeroAddress, if_neg (not_not.mpr hzero)]
    rfl

/-! ## Announcements on the wire -/

/-- The message around a payload is read back as one DATA submessage. -/
lemma submessages_wrapInRtpsMessage {header : Header} {writer reader : EntityId}
    {sn : SequenceNumber} {payload : Bytes} (hlen : 20 + payload.length < 2 ^ 16) :
    submessages ((wrapInRtpsMessage header (encodeDataSubmessage writer reader sn payload)).drop
      20) = [⟨submsgData, flagEndianness ||| flagData, dataBody writer reader sn payload⟩] := by
  have hframe : submessages (frame submsgData (flagEndianness ||| flagData)
      (dataBody writer reader sn payload) ++ []) =
        ⟨submsgData, flagEndianness ||| flagData, dataBody writer reader sn payload⟩ ::
          submessages [] :=
    submessages_frame [] (by simp) (by simpa using hlen)
  rw [List.append_nil] at hframe
  rw [drop_wrapInRtpsMessage, encodeDataSubmessage, hframe]
  rfl

lemma length_wrapInRtpsMessage {header : Header} {writer reader : EntityId}
    {sn : SequenceNumber} {payload : Bytes} :
    (wrapInRtpsMessage header (encodeDataSubmessage writer reader sn payload)).length =
      44 + payload.length := by
  rw [wrapInRtpsMessage, encodeDataSubmessage, frame, List.length_append, List.length_append,
    Header.length_encode, SubmessageHeader.length_encode, length_dataBody]
  omega

/-! ## Endpoints -/

/-- The parameters of an announced endpoint. -/
def endpointParams (cfg : SedpConfig) (info : EndpointInfo) : List Param :=
  [⟨pidEndpointGuid, info.guid.encode⟩, ⟨pidTopicName, stringValue info.topicName⟩,
    ⟨pidTypeName, stringValue endpointTypeName⟩,
    ⟨pidDefaultUnicastLocator, (zeroLocator cfg.ipv6 cfg.dataUnicastPort).encode⟩]

lemma buildEndpointData_eq (cfg : SedpConfig) (info : EndpointInfo) :
    buildEndpointData cfg info = Param.encodeList (endpointParams cfg info) := by
  simp only [buildEndpointData, PlCdrEncoder.finish, PlCdrEncoder.addLocator,
    PlCdrEncoder.addString, PlCdrEncoder.addGuid, PlCdrEncoder.buf_addParam, endpointParams,
    Param.encodeList, List.flatMap_cons, List.flatMap_nil, List.append_assoc, List.append_nil,
    stringValue, sentinelBytes]

/-- The parameters of an announcement that fits in a message can all be read. -/
lemma plain_endpointParams {cfg : SedpConfig} {info : EndpointInfo}
    (hlen : (buildEndpointData cfg info).length < 65500) :
    ∀ param ∈ endpointParams cfg info, param.Plain := by
  have htopic : (stringValue info.topicName).length < 65500 := by
    rw [buildEndpointData_eq, Param.encodeList, endpointParams] at hlen
    simp only [List.flatMap_cons, List.length_append, Param.length_encode, Param.length_pad]
      at hlen
    omega
  intro param hmem
  simp only [endpointParams, List.mem_cons, List.not_mem_nil, or_false] at hmem
  rcases hmem with rfl | rfl | rfl | rfl
  · exact Param.plain_of_length (by decide) (by decide) (by simp)
  · exact Param.plain_of_length (by decide) (by decide) (by omega)
  · exact Param.plain_of_length (by decide) (by decide) (by decide +kernel)
  · exact Param.plain_of_length (by decide) (by decide) (by simp)

/-- **The parameter list of an endpoint** is read back as the endpoint, at the sender's
address. -/
lemma parseEndpointData_buildEndpointData {cfg : SedpConfig} {info : EndpointInfo}
    {remotePrefix : GuidPrefix} {src : SocketAddr} (hsrc : src.isV6 = cfg.ipv6)
    (htopic : info.topicName ≠ "") (hlen : (buildEndpointData cfg info).length < 65500) :
    parseEndpointData remotePrefix (buildEndpointData cfg info) src =
      some ⟨info.guid, info.topicName, src.locatorAt cfg.dataUnicastPort⟩ := by
  have hplain := plain_endpointParams hlen
  have hstring : (Utf8.encode info.topicName).length + 1 < 2 ^ 32 := by
    have := (hplain ⟨pidTopicName, stringValue info.topicName⟩ (by simp [endpointParams])).length_lt
    rw [Param.length_pad] at this
    simp only [length_stringValue] at this
    omega
  have hguid : Param.pad ⟨pidEndpointGuid, info.guid.encode⟩ =
      ⟨pidEndpointGuid, info.guid.encode⟩ := Param.pad_of_mod (by simp)
  have hloc : Param.pad ⟨pidDefaultUnicastLocator,
      (zeroLocator cfg.ipv6 cfg.dataUnicastPort).encode⟩ =
        ⟨pidDefaultUnicastLocator, (zeroLocator cfg.ipv6 cfg.dataUnicastPort).encode⟩ :=
    Param.pad_of_mod (by simp)
  have hpad : ∀ pid value, Param.pad ⟨pid, value⟩ = ⟨pid, value ++ Param.padding value⟩ :=
    fun _ _ => rfl
  have htopicRead := decodeString_stringValue hstring (Param.padding (stringValue info.topicName))
  rw [parseEndpointData, buildEndpointData_eq, PlCdrDecoder.decodeParams_encodeList hplain]
  simp only [endpointParams, List.map_cons, List.map_nil, List.foldl_cons, List.foldl_nil,
    hguid, hloc]
  rw [hpad pidTopicName, hpad pidTypeName]
  -- one turn of the loop for each parameter
  have h₁ : EndpointData.readParam src (.initial remotePrefix)
      ⟨pidEndpointGuid, info.guid.encode⟩ = ⟨info.guid, "", .default⟩ := by
    rw [EndpointData.readParam, if_pos rfl, Guid.decode_encode]
    rfl
  have h₂ : EndpointData.readParam src ⟨info.guid, "", .default⟩
      ⟨pidTopicName, stringValue info.topicName ++ Param.padding (stringValue info.topicName)⟩ =
        ⟨info.guid, info.topicName, .default⟩ := by
    rw [EndpointData.readParam, if_neg (show ¬ pidTopicName = pidEndpointGuid by decide),
      if_pos rfl, htopicRead]
  have h₃ : EndpointData.readParam src ⟨info.guid, info.topicName, .default⟩
      ⟨pidTypeName, stringValue endpointTypeName ++ Param.padding (stringValue endpointTypeName)⟩ =
        ⟨info.guid, info.topicName, .default⟩ := by
    rw [EndpointData.readParam, if_neg (show ¬ pidTypeName = pidEndpointGuid by decide),
      if_neg (show ¬ pidTypeName = pidTopicName by decide),
      if_neg (show ¬ pidTypeName = pidDefaultUnicastLocator by decide)]
  have h₄ : EndpointData.readParam src ⟨info.guid, info.topicName, .default⟩
      ⟨pidDefaultUnicastLocator, (zeroLocator cfg.ipv6 cfg.dataUnicastPort).encode⟩ =
        ⟨info.guid, info.topicName, src.locatorAt cfg.dataUnicastPort⟩ := by
    rw [EndpointData.readParam,
      if_neg (show ¬ pidDefaultUnicastLocator = pidEndpointGuid by decide),
      if_neg (show ¬ pidDefaultUnicastLocator = pidTopicName by decide), if_pos rfl,
      Locator.decode_encode]
    dsimp only
    rw [fillInZeroAddress_zeroLocator hsrc]
  rw [h₁, h₂, h₃, h₄, if_neg htopic]

/-- A DATA submessage of a SEDP writer announces its payload. -/
lemma announcedEndpoint_dataBody (isWriter : Bool) {reader : EntityId} {sn : SequenceNumber}
    {payload : Bytes} (hne : payload ≠ []) :
    announcedEndpoint ⟨submsgData, flagEndianness ||| flagData,
      dataBody (if isWriter then entityIdSedpPubWriter else entityIdSedpSubWriter) reader sn
        payload⟩ = some (isWriter, payload) := by
  rw [announcedEndpoint, if_neg (not_not.mpr rfl), decodeDataSubmessage_dataBody hne]
  cases isWriter <;> rfl

/-- **The message that announces an endpoint** carries one announcement, of that endpoint. -/
lemma accepted_endpointMessage {cfg receiver : SedpConfig} {info : EndpointInfo} {seqNum : UInt32}
    {src : SocketAddr} (hforeign : cfg.guidPrefix ≠ receiver.guidPrefix)
    (hsrc : src.isV6 = cfg.ipv6) (htopic : info.topicName ≠ "")
    (hfits : (endpointMessage cfg info seqNum).length ≤ 65507) :
    receiver.accepted (endpointMessage cfg info seqNum) src =
      [⟨cfg.guidPrefix, info.isWriter,
        ⟨info.guid, info.topicName, src.locatorAt cfg.dataUnicastPort⟩⟩] := by
  rw [endpointMessage, length_wrapInRtpsMessage] at hfits
  have hlen : (buildEndpointData cfg info).length < 65500 := by omega
  have hne : buildEndpointData cfg info ≠ [] := by
    rw [buildEndpointData_eq]
    exact Param.encodeList_ne_nil _
  unfold SedpConfig.accepted endpointMessage
  rw [decode_wrapInRtpsMessage]
  dsimp only
  rw [if_neg hforeign, submessages_wrapInRtpsMessage (by omega), List.filterMap_cons,
    List.filterMap_nil, Announcement.ofSubmessage, announcedEndpoint_dataBody _ hne]
  dsimp only
  rw [parseEndpointData_buildEndpointData hsrc htopic hlen]
  rfl

namespace SedpService

/-- **An announced endpoint is recorded as it was announced.**  A message that a participant
sends to announce one of its endpoints, as it arrives at another one, adds exactly that endpoint
to the table of its kind: a reader with the announced port at the sender's IP as its locator, and
a writer with that locator if some local reader has its topic. -/
theorem handlePacket_announce {sender receiver : SedpService} {info : EndpointInfo}
    {peers : List ParticipantProxy} {msg : Bytes} {dst src : SocketAddr}
    (hsent : (msg, dst) ∈ (sender.announce info peers).1)
    (hforeign : sender.config.guidPrefix ≠ receiver.config.guidPrefix)
    (hsrc : src.isV6 = sender.config.ipv6) (htopic : info.topicName ≠ "")
    (hfits : msg.length ≤ 65507) :
    let after := receiver.handlePacket msg src
    let loc := src.locatorAt sender.config.dataUnicastPort
    (info.isWriter = true →
      after.remoteWriters = receiver.remoteWriters.insert info.guid info ∧
        after.remoteReaders = receiver.remoteReaders ∧
        after.remoteReaderLocators = receiver.remoteReaderLocators ∧
        after.writerLocators =
          if ∃ lr ∈ receiver.localReaders.values, lr.topicName = info.topicName then
            receiver.writerLocators.insert info.guid loc
          else receiver.writerLocators) ∧
      (info.isWriter = false →
        after.remoteReaders = receiver.remoteReaders.insert info.guid info ∧
          after.remoteReaderLocators = receiver.remoteReaderLocators.insert info.guid loc ∧
          after.remoteWriters = receiver.remoteWriters ∧
          after.writerLocators = receiver.writerLocators) ∧
      after.localWriters = receiver.localWriters ∧ after.localReaders = receiver.localReaders := by
  obtain ⟨addr, -, heq⟩ := List.mem_map.mp hsent
  obtain ⟨rfl, rfl⟩ := Prod.mk.inj heq
  -- all that is received is the announcement `a` of the endpoint
  obtain ⟨a, ha, hwriter, hinfo, hloc⟩ : ∃ a : Announcement,
      receiver.config.accepted (endpointMessage sender.config info (sender.seqCounter + 1)) src =
        [a] ∧ a.isWriter = info.isWriter ∧ a.info = info ∧
          a.endpoint.dataLocator = src.locatorAt sender.config.dataUnicastPort :=
    ⟨_, accepted_endpointMessage hforeign hsrc htopic hfits, rfl, rfl, rfl⟩
  have hguid : a.guid = info.guid := congrArg EndpointInfo.guid hinfo
  have hname : a.topicName = info.topicName := congrArg EndpointInfo.topicName hinfo
  have hmatches := matchesOf_eq_nil_iff (s := receiver) (a := a)
  dsimp only
  rw [handlePacket_eq, ha, List.foldl_cons, List.foldl_nil, record_eq, hguid, hinfo, hloc]
  rw [hwriter, hname] at hmatches
  rw [hwriter]
  refine ⟨fun hw => ⟨if_pos hw, if_pos hw, if_pos hw, ?_⟩, fun hw => ?_, rfl, rfl⟩
  · dsimp only
    by_cases hread : ∃ lr ∈ receiver.localReaders.values, lr.topicName = info.topicName
    · rw [if_pos hread, if_neg fun hnil => hmatches.mp hnil ⟨hw, hread⟩]
    · rw [if_neg hread, if_pos (hmatches.mpr fun h => hread h.2)]
  · have hnil := hmatches.mpr fun h => by simp [hw] at h
    have hnot : ¬ info.isWriter = true := by simp [hw]
    exact ⟨if_neg hnot, if_neg hnot, if_neg hnot, if_pos hnil⟩

/-- The service of a participant whose prefix is twelve times `n`. -/
def numbered (n : UInt8) : SedpService :=
  new ⟨⟨List.replicate 12 n, GuidPrefix.length_replicate n⟩, vendorIdRustDds, 7411, false⟩

/-- A peer on the local host. -/
def localPeer : ParticipantProxy :=
  { ParticipantProxy.initial ⟨List.replicate 12 1, by simp⟩ with
    metatrafficUnicast := .udpV4 ⟨[127, 0, 0, 1], rfl⟩ 7410 }

/-- Participant 1 records the writer of topic "t" that participant 2 announces to it. -/
theorem handlePacket_announce_writer :
    ((numbered 1).handlePacket
      (endpointMessage (numbered 2).config
        ((numbered 2).localInfo (entityIdForWriter 1) "t" true) 1)
      (.v4 ⟨[127, 0, 0, 1], rfl⟩ 40000)).remoteWriters =
        (∅ : Table Guid EndpointInfo).insert ⟨⟨List.replicate 12 2, by simp⟩, entityIdForWriter 1⟩
          ((numbered 2).localInfo (entityIdForWriter 1) "t" true) := by
  have hsent : (endpointMessage (numbered 2).config
      ((numbered 2).localInfo (entityIdForWriter 1) "t" true) 1,
        SocketAddr.v4 ⟨[127, 0, 0, 1], rfl⟩ 7410) ∈
      ((numbered 2).announce ((numbered 2).localInfo (entityIdForWriter 1) "t" true)
        [localPeer]).1 := List.mem_cons_self
  have hrecorded := @handlePacket_announce (numbered 2) (numbered 1) _ _ _ _
    (.v4 ⟨[127, 0, 0, 1], rfl⟩ 40000) hsent (by decide) rfl (by decide) (by decide +kernel)
  exact (hrecorded.1 rfl).1

/-- The locator of a writer whose topic nobody reads is not recorded. -/
theorem exists_writer_without_locator :
    ¬ ∀ (sender receiver : SedpService) (info : EndpointInfo) (peers : List ParticipantProxy)
      (msg : Bytes) (dst src : SocketAddr), (msg, dst) ∈ (sender.announce info peers).1 →
        sender.config.guidPrefix ≠ receiver.config.guidPrefix → src.isV6 = sender.config.ipv6 →
        info.topicName ≠ "" → msg.length ≤ 65507 → info.isWriter = true →
          (receiver.handlePacket msg src).writerLocators.lookup info.guid =
            some (src.locatorAt sender.config.dataUnicastPort) := by
  intro h
  have hrecorded := h (numbered 2) (numbered 1)
    ((numbered 2).localInfo (entityIdForWriter 1) "t" true) [localPeer] _
    (.v4 ⟨[127, 0, 0, 1], rfl⟩ 7410) (.v4 ⟨[127, 0, 0, 1], rfl⟩ 40000) List.mem_cons_self
    (by decide) rfl (by decide) (by decide +kernel) rfl
  revert hrecorded
  decide +kernel

end SedpService

/-! ## Participants -/

/-- The parameters of an announced participant that describe it. -/
def proxyParams (cfg : SpdpConfig) : List Param :=
  [⟨pidProtocolVersion, protocolVersion23.encode ++ [0, 0]⟩,
    ⟨pidVendorId, cfg.vendorId.bytes ++ [0, 0]⟩,
    ⟨pidParticipantGuid, Guid.encode ⟨cfg.guidPrefix, entityIdParticipant⟩⟩,
    ⟨pidBuiltinEndpointSet, Bytes.ofU32 allBuiltinEndpoints⟩,
    ⟨pidMetatrafficUnicastLocator, (zeroLocator cfg.ipv6 cfg.metaUnicastPort).encode⟩,
    ⟨pidDefaultUnicastLocator, (zeroLocator cfg.ipv6 cfg.dataUnicastPort).encode⟩,
    ⟨pidParticipantLeaseDuration, Bytes.ofU32 advertisedLeaseSecs ++ Bytes.ofU32 0⟩]

/-- The parameter that carries its token, if a plugin is configured. -/
def tokenParams (cfg : SpdpConfig) : List Param :=
  (cfg.discoveryPlugin.map fun plugin =>
    (⟨pidDiscoveryToken, plugin.signDiscovery cfg.guidPrefix.bytes⟩ : Param)).toList

/-- The proxy of an announced participant, as a receiver of the announcement reads it. -/
def announcedProxy (cfg : SpdpConfig) (src : SocketAddr) : ParticipantProxy where
  guid := ⟨cfg.guidPrefix, entityIdParticipant⟩
  metatrafficUnicast := src.locatorAt cfg.metaUnicastPort
  defaultUnicast := src.locatorAt cfg.dataUnicastPort
  builtinEndpoints := allBuiltinEndpoints
  leaseDuration := 10 * 1000000000
  lastSeen := none

lemma buildParticipantData_eq (cfg : SpdpConfig) :
    buildParticipantData cfg = Param.encodeList (proxyParams cfg ++ tokenParams cfg) := by
  unfold buildParticipantData proxyParams tokenParams
  cases cfg.discoveryPlugin <;>
    simp only [PlCdrEncoder.finish, PlCdrEncoder.addLocator, PlCdrEncoder.addU32,
      PlCdrEncoder.addBytes, PlCdrEncoder.addGuid, PlCdrEncoder.buf_addParam, Param.encodeList,
      List.flatMap_cons, List.flatMap_nil, List.append_assoc, List.append_nil, sentinelBytes,
      Option.map_some, Option.map_none, Option.toList_some, Option.toList_none,
      List.cons_append, List.nil_append]

/-- The tag of the plugin, if there is one, fits in a message. -/
def SpdpConfig.TagFits (cfg : SpdpConfig) : Prop :=
  ∀ plugin, cfg.discoveryPlugin = some plugin →
    (plugin.signDiscovery cfg.guidPrefix.bytes).length ≤ 65000

/-- What a loop over the announcement of a participant sees: all as it was written, and the token
padded. -/
lemma decodeParams_buildParticipantData {cfg : SpdpConfig} (htag : cfg.TagFits) :
    PlCdrDecoder.decodeParams (buildParticipantData cfg) =
      some (proxyParams cfg ++ (tokenParams cfg).map Param.pad) := by
  have hplain : ∀ param ∈ proxyParams cfg ++ tokenParams cfg, param.Plain := by
    intro param hmem
    simp only [proxyParams, tokenParams, List.mem_append, List.mem_cons, List.not_mem_nil,
      or_false, Option.mem_toList, Option.map_eq_some_iff] at hmem
    rcases hmem with (rfl | rfl | rfl | rfl | rfl | rfl | rfl) | ⟨plugin, hplugin, rfl⟩
    all_goals apply Param.plain_of_length (by decide) (by decide)
    case inr =>
      have := htag plugin hplugin
      omega
    all_goals simp
  -- only the token can need padding
  have hproxy : (proxyParams cfg).map Param.pad = proxyParams cfg := by
    refine (List.map_congr_left fun param hmem => Param.pad_of_mod ?_).trans (List.map_id' _)
    simp only [proxyParams, List.mem_cons, List.not_mem_nil, or_false] at hmem
    rcases hmem with rfl | rfl | rfl | rfl | rfl | rfl | rfl <;> simp
  rw [buildParticipantData_eq, PlCdrDecoder.decodeParams_encodeList hplain, List.map_append,
    hproxy]

/-- The token of an announcement is read back with its padding. -/
lemma extractDiscoveryToken_buildParticipantData {cfg : SpdpConfig} (htag : cfg.TagFits) :
    extractDiscoveryToken (buildParticipantData cfg) =
      cfg.discoveryPlugin.map fun plugin =>
        plugin.signDiscovery cfg.guidPrefix.bytes ++
          Param.padding (plugin.signDiscovery cfg.guidPrefix.bytes) := by
  have hproxy : (proxyParams cfg).find? (fun param => param.pid = pidDiscoveryToken) = none := by
    rw [List.find?_eq_none]
    intro param hmem
    simp only [proxyParams, List.mem_cons, List.not_mem_nil, or_false] at hmem
    rcases hmem with rfl | rfl | rfl | rfl | rfl | rfl | rfl <;>
      exact of_decide_eq_true rfl
  rw [extractDiscoveryToken, decodeParams_buildParticipantData htag]
  dsimp only
  rw [List.find?_append, hproxy, Option.none_or, tokenParams]
  cases cfg.discoveryPlugin with
  | none => rfl
  | some plugin => rfl

/-- **The parameter list of a participant** is read back as the participant, at the sender's
address. -/
lemma parseParticipantData_buildParticipantData {cfg : SpdpConfig} {src : SocketAddr}
    (hsrc : src.isV6 = cfg.ipv6) (htag : cfg.TagFits) :
    parseParticipantData cfg.guidPrefix (buildParticipantData cfg) src =
      some (announcedProxy cfg src) := by
  -- the token says nothing of the proxy
  have htoken : ∀ proxy : ParticipantProxy,
      ((tokenParams cfg).map Param.pad).foldl (ParticipantProxy.readParam src) proxy = proxy := by
    intro proxy
    rw [tokenParams]
    cases cfg.discoveryPlugin with
    | none => rfl
    | some plugin => rfl
  rw [parseParticipantData, decodeParams_buildParticipantData htag]
  dsimp only
  rw [List.foldl_append, htoken]
  simp [proxyParams, ParticipantProxy.readParam, ParticipantProxy.initial, announcedProxy,
    pidProtocolVersion, pidVendorId, pidParticipantGuid, pidBuiltinEndpointSet,
    pidMetatrafficUnicastLocator, pidDefaultUnicastLocator, pidParticipantLeaseDuration,
    Guid.decode_encode, Locator.decode_encode, fillInZeroAddress_zeroLocator hsrc,
    advertisedLeaseSecs]

lemma length_buildParticipantData_le {cfg : SpdpConfig} (htag : cfg.TagFits) :
    (buildParticipantData cfg).length ≤ 65400 := by
  rw [buildParticipantData_eq, Param.encodeList, proxyParams, tokenParams]
  cases hplugin : cfg.discoveryPlugin with
  | none =>
    simp only [List.flatMap_append, List.flatMap_cons, List.flatMap_nil, List.length_append,
      Param.length_encode, Param.length_pad, Option.map_none, Option.toList_none,
      length_sentinelBytes, PlCdrEncoder.length_buf_new, List.length_nil, List.length_cons,
      Guid.length_encode, Locator.length_encode, Bytes.length_ofU32,
      ProtocolVersion.length_encode, FixedBytes.length_bytes]
    omega
  | some plugin =>
    have hle := htag plugin hplugin
    simp only [List.flatMap_append, List.flatMap_cons, List.flatMap_nil, List.length_append,
      Param.length_encode, Param.length_pad, Option.map_some, Option.toList_some,
      length_sentinelBytes, PlCdrEncoder.length_buf_new, List.length_nil, List.length_cons,
      Guid.length_encode, Locator.length_encode, Bytes.length_ofU32,
      ProtocolVersion.length_encode, FixedBytes.length_bytes]
    omega

/-- A DATA submessage of the SPDP writer announces its payload. -/
lemma announcedPayload_dataBody {reader : EntityId} {sn : SequenceNumber} {payload : Bytes}
    (hne : payload ≠ []) :
    announcedPayload ⟨submsgData, flagEndianness ||| flagData,
      dataBody entityIdSpdpWriter reader sn payload⟩ = some payload := by
  rw [announcedPayload, if_neg (not_not.mpr rfl), decodeDataSubmessage_dataBody hne]
  rfl

namespace SpdpService

/-- **What becomes of the announcement of a participant**: it is stored, if it verifies. -/
lemma handlePacket_announcement {cfg : SpdpConfig} {s : SpdpService} {now : ℕ} {seqNum : UInt32}
    {src : SocketAddr} (hforeign : cfg.guidPrefix ≠ s.config.guidPrefix)
    (hsrc : src.isV6 = cfg.ipv6) (htag : cfg.TagFits) :
    s.handlePacket now (announcementMessage cfg.guidPrefix cfg.vendorId seqNum
      (buildParticipantData cfg)) src =
        if s.config.verifies cfg.guidPrefix (buildParticipantData cfg) then
          (s.storePeer now (announcedProxy cfg src)).2
        else s := by
  have hlen := length_buildParticipantData_le htag
  have hne : buildParticipantData cfg ≠ [] := by
    rw [buildParticipantData_eq]
    exact Param.encodeList_ne_nil _
  unfold handlePacket announcementMessage
  rw [decode_wrapInRtpsMessage]
  dsimp only
  rw [if_neg hforeign, submessages_wrapInRtpsMessage (by omega), List.foldl_cons, List.foldl_nil,
    handleSubmessage, announcedPayload_dataBody hne]
  dsimp only
  rw [parseParticipantData_buildParticipantData hsrc htag]

/-- What is stored of an announcement: the proxy, seen now. -/
lemma lookup_storePeer_announcedProxy (s : SpdpService) (now : ℕ) (cfg : SpdpConfig)
    (src : SocketAddr) :
    (s.storePeer now (announcedProxy cfg src)).2.peers.lookup cfg.guidPrefix =
      some { announcedProxy cfg src with lastSeen := some now } := by
  have hstamp : stampPeer now (announcedProxy cfg src) =
      { announcedProxy cfg src with lastSeen := some now } := by
    simp [stampPeer, announcedProxy]
  have hlookup : (s.storePeer now (announcedProxy cfg src)).2.peers.lookup cfg.guidPrefix =
      some (stampPeer now (announcedProxy cfg src)) := AList.lookup_insert s.peers
  rw [hlookup, hstamp]

/-- **An announced participant is stored as it was announced**, under its prefix and with the
sender's IP in both its locators, by a peer without a plugin; and with a plugin that accepts
exactly its own token, on both sides, if and only if the token needs no padding. -/
theorem handlePacket_announcement_iff (cfg : SpdpConfig) (s : SpdpService) (now : ℕ)
    (seqNum : UInt32) (src : SocketAddr) (hforeign : cfg.guidPrefix ≠ s.config.guidPrefix)
    (hsrc : src.isV6 = cfg.ipv6) (htag : cfg.TagFits)
    (hplugin : ∀ plugin, s.config.discoveryPlugin = some plugin →
      cfg.discoveryPlugin = some plugin ∧ ∀ tag,
        plugin.verifyDiscovery cfg.guidPrefix.bytes tag = true ↔
          tag = plugin.signDiscovery cfg.guidPrefix.bytes) :
    (s.handlePacket now (announcementMessage cfg.guidPrefix cfg.vendorId seqNum
        (buildParticipantData cfg)) src = (s.storePeer now (announcedProxy cfg src)).2 ∧
      ∀ plugin, s.config.discoveryPlugin = some plugin →
        extractDiscoveryToken (buildParticipantData cfg) =
          some (plugin.signDiscovery cfg.guidPrefix.bytes)) ↔
    ∀ plugin, s.config.discoveryPlugin = some plugin →
      (plugin.signDiscovery cfg.guidPrefix.bytes).length % 4 = 0 := by
  rw [handlePacket_announcement hforeign hsrc htag, SpdpConfig.verifies,
    extractDiscoveryToken_buildParticipantData htag]
  cases hp : s.config.discoveryPlugin with
  | none => simp
  | some plugin =>
    obtain ⟨hsame, hverify⟩ := hplugin plugin hp
    -- the token read back is the tag exactly when no padding was needed
    have hpadding : plugin.signDiscovery cfg.guidPrefix.bytes ++
        Param.padding (plugin.signDiscovery cfg.guidPrefix.bytes) =
          plugin.signDiscovery cfg.guidPrefix.bytes ↔
            (plugin.signDiscovery cfg.guidPrefix.bytes).length % 4 = 0 := by
      rw [List.append_right_eq_self, Param.padding, List.replicate_eq_nil_iff]
      omega
    simp only [hsame, Option.map_some, Option.getD_some, Option.some.injEq, forall_eq',
      hpadding, hverify]
    constructor
    · exact fun h => h.2
    · exact fun h => ⟨if_pos h, h⟩

/-- Participant 1 stores participant 2, whose token has sixteen bytes. -/
theorem handlePacket_announcement_iff_sixteen :
    extractDiscoveryToken (buildParticipantData (secretConfig 2)) =
      some (secretPlugin.signDiscovery (secretConfig 2).guidPrefix.bytes) := by
  have hstored := handlePacket_announcement_iff (secretConfig 2) (new (secretConfig 1)) 0 1
    (.v4 ⟨[127, 0, 0, 1], rfl⟩ 7410) (by decide) rfl
    (by
      intro plugin hplugin
      cases hplugin
      decide)
    (by
      intro plugin hplugin
      cases hplugin
      exact ⟨rfl, fun tag => by simp [secretPlugin]⟩)
  refine (hstored.mpr ?_).2 _ rfl
  intro plugin hplugin
  cases hplugin
  decide

/-- A plugin with a tag of one byte. -/
def shortPlugin : DiscoveryPlugin where
  signDiscovery := fun _ => [0xA5]
  verifyDiscovery := fun _ tag => tag = [0xA5]
  verifyDiscovery_nil := by simp

/-- Two participants with one plugin, whose tag has one byte, do not find each other: the token
arrives with three zeros behind it. -/
theorem exists_announcement_rejected :
    ¬ ∀ (cfg : SpdpConfig) (s : SpdpService) (now : ℕ) (seqNum : UInt32) (src : SocketAddr),
      cfg.guidPrefix ≠ s.config.guidPrefix → src.isV6 = cfg.ipv6 → cfg.TagFits →
        (∀ plugin, s.config.discoveryPlugin = some plugin →
          cfg.discoveryPlugin = some plugin ∧ ∀ tag,
            plugin.verifyDiscovery cfg.guidPrefix.bytes tag = true ↔
              tag = plugin.signDiscovery cfg.guidPrefix.bytes) →
          s.handlePacket now (announcementMessage cfg.guidPrefix cfg.vendorId seqNum
            (buildParticipantData cfg)) src = (s.storePeer now (announcedProxy cfg src)).2 := by
  intro h
  have hstored := h { secretConfig 2 with discoveryPlugin := some shortPlugin }
    (new { secretConfig 1 with discoveryPlugin := some shortPlugin }) 0 1
    (.v4 ⟨[127, 0, 0, 1], rfl⟩ 7410) (by decide) rfl
    (by
      intro plugin hplugin
      cases hplugin
      decide)
    (by
      intro plugin hplugin
      cases hplugin
      exact ⟨rfl, fun tag => by simp [shortPlugin]⟩)
  have hcount := congrArg SpdpService.announcesReceived hstored
  revert hcount
  decide +kernel

end SpdpService

end RustDds
