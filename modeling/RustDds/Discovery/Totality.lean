import RustDds.Rtps.CheckedDecode
import RustDds.Rtps.Sedp

/-!
# Any datagram

The receive paths of discovery take whatever arrives.  Here they are once more, over the checked
decoders, so that an index, a slice or a sum out of range would show as a fault; and
`handlePacket_total` says that there is none, on any datagram and in any state, and that they
return what the plain receive paths do.

A datagram without an announcement for a service leaves it as it was: `Announces` is the shape of
one that has one.
-/

namespace RustDds

open Checked

/-! ## Loops over submessages -/

/-- `for result in SubmessageIter::new(body) { let Ok(raw) = result else { break }; .. }`, over a
state. -/
def forSubmessages {σ : Type} (f : σ → RawSubmessage → Checked σ) (s : σ) (body : Bytes) :
    Checked σ :=
  loop (fun (it, s) => do
    match ← it.nextChecked with
    | (some (.ok raw), it) => do
      let s ← f s raw
      return .again (it, s)
    | _ => return .stop s) (body.length + 1) (SubmessageIter.new body, s)

/-- The body of a submessage is part of what it was read from. -/
lemma SubmessageIter.length_raw_le {it it' : SubmessageIter} {raw : RawSubmessage}
    (h : it.next = (some (.ok raw), it')) : raw.body.length ≤ it.body.length := by
  unfold next at h
  split at h
  · cases h
  dsimp only at h
  split at h
  · cases h
  · obtain ⟨hraw, -⟩ := Prod.mk.inj h
    cases hraw
    rw [List.length_take, List.length_drop]
    omega

/-- A loop over submessages is one over the list of them. -/
lemma forSubmessages_eq {σ : Type} {f : σ → RawSubmessage → Checked σ}
    {g : σ → RawSubmessage → σ} {body : Bytes}
    (hf : ∀ s raw, raw.body.length ≤ body.length → f s raw = .ok (g s raw)) (s : σ) :
    forSubmessages f s body = .ok ((submessages body).foldl g s) := by
  refine loop_eq
    (f := fun is : SubmessageIter × σ => (SubmessageIter.run is.1.body.length is.1).foldl g is.2)
    (fun is => is.1.body.length ≤ body.length) (fun is => is.1.body.length) ?_ le_rfl
    (by dsimp only [SubmessageIter.new]; omega)
  rintro ⟨it, s⟩ hle
  dsimp only at hle ⊢
  have hrun : SubmessageIter.run it.body.length it =
      SubmessageIter.run (it.body.length + 1) it :=
    (SubmessageIter.run_eq_run_length (Nat.le_succ _)).symm
  rw [SubmessageIter.nextChecked_eq, Except.ok_bind, hrun, SubmessageIter.run]
  rcases hnext : it.next with ⟨_ | _ | raw, it'⟩
  · exact .inr rfl
  · exact .inr rfl
  · have hshort := SubmessageIter.length_body_next hnext
    dsimp only
    rw [hf s raw ((SubmessageIter.length_raw_le hnext).trans hle), Except.ok_bind]
    refine .inl ⟨(it', g s raw), rfl, by dsimp only; omega, by dsimp only; omega, ?_⟩
    have hrest : SubmessageIter.run it.body.length it' =
        SubmessageIter.run it'.body.length it' :=
      SubmessageIter.run_eq_run_length (by omega)
    dsimp only
    rw [List.foldl_cons, hrest]

/-! ## SPDP -/

/-- `extract_discovery_token`. -/
def extractDiscoveryTokenChecked (payload : Bytes) : Checked (Option Bytes) := do
  match ← PlCdrDecoder.newChecked payload with
  | .error _ => return none
  | .ok d =>
    loop (fun d => do
      match ← d.nextChecked with
      | (none, _) => return .stop none
      | (some param, d) =>
        if param.pid = pidDiscoveryToken then return .stop (some param.value)
        else return .again d) (payload.length + 1) d

/-- A new decoder is on its buffer. -/
lemma PlCdrDecoder.onBuffer_new {buf : Bytes} {d : PlCdrDecoder} (hlen : buf.length < 2 ^ 63)
    (h : PlCdrDecoder.new buf = .ok d) : d.OnBuffer ∧ d.buf = buf := by
  unfold PlCdrDecoder.new at h
  split at h
  · cases h
  dsimp only at h
  split at h
  · cases h
  · cases h
    exact ⟨⟨by dsimp only; omega, hlen⟩, rfl⟩

lemma extractDiscoveryTokenChecked_eq {payload : Bytes} (hlen : payload.length < 2 ^ 63) :
    extractDiscoveryTokenChecked payload = .ok (extractDiscoveryToken payload) := by
  rw [extractDiscoveryTokenChecked, extractDiscoveryToken, PlCdrDecoder.newChecked_eq,
    Except.ok_bind, PlCdrDecoder.decodeParams]
  cases hnew : PlCdrDecoder.new payload with
  | error e => rfl
  | ok d =>
    obtain ⟨hd, hbuf⟩ := PlCdrDecoder.onBuffer_new hlen hnew
    dsimp only
    refine loop_eq (f := fun d : PlCdrDecoder =>
        ((d.toList d.buf.length).find? fun param => param.pid = pidDiscoveryToken).map
          Param.value) PlCdrDecoder.OnBuffer (fun d => d.buf.length - d.pos) ?_ hd
      (by rw [hbuf]; omega)
    intro d hd
    have hlist : d.toList d.buf.length = d.toList (d.buf.length + 1) :=
      PlCdrDecoder.toList_of_le (by omega) (by omega)
    rw [PlCdrDecoder.nextChecked_eq hd, Except.ok_bind, hlist, PlCdrDecoder.toList]
    rcases hnext : d.next d.buf.length with ⟨_ | param, d'⟩
    · exact .inr rfl
    · obtain ⟨hbuf', hpos, hle⟩ := PlCdrDecoder.next_some hnext
      dsimp only
      by_cases htoken : param.pid = pidDiscoveryToken
      · rw [if_pos htoken, List.find?_cons_of_pos (by simpa using htoken)]
        exact .inr rfl
      · rw [if_neg htoken, List.find?_cons_of_neg (by simpa using htoken)]
        refine .inl ⟨d', rfl, hd.next hnext, ?_, ?_⟩
        · rw [hbuf']
          omega
        · rw [hbuf']

/-- One turn of the loop in `parse_participant_data`. -/
def ParticipantProxy.readParamChecked (src : SocketAddr) (proxy : ParticipantProxy)
    (param : Param) : Checked ParticipantProxy :=
  if param.pid = pidMetatrafficUnicastLocator then do
    match ← Locator.decodeChecked param.value with
    | .ok loc => do
      let loc ← loc.fillInZeroAddressChecked src
      return { proxy with metatrafficUnicast := loc }
    | .error _ => return proxy
  else if param.pid = pidDefaultUnicastLocator then do
    match ← Locator.decodeChecked param.value with
    | .ok loc => do
      let loc ← loc.fillInZeroAddressChecked src
      return { proxy with defaultUnicast := loc }
    | .error _ => return proxy
  else if param.pid = pidBuiltinEndpointSet then
    if param.value.length ≥ 4 then do
      let builtinEndpoints ← readU32 param.value 0
      return { proxy with builtinEndpoints }
    else return proxy
  else if param.pid = pidParticipantLeaseDuration then
    if param.value.length ≥ 4 then do
      let secs ← readU32 param.value 0
      if secs > 0 then return { proxy with leaseDuration := secs.toNat * 1000000000 }
      else return proxy
    else return proxy
  else if param.pid = pidParticipantGuid then do
    match ← Guid.decodeChecked param.value with
    | .ok g => return { proxy with guid := g }
    | .error _ => return proxy
  else return proxy

lemma ParticipantProxy.readParamChecked_eq (src : SocketAddr) (proxy : ParticipantProxy)
    (param : Param) : proxy.readParamChecked src param = .ok (proxy.readParam src param) := by
  unfold readParamChecked readParam
  rw [Locator.decodeChecked_eq, Guid.decodeChecked_eq, Except.ok_bind, Except.ok_bind,
    Except.ok_bind]
  split
  · cases Locator.decode param.value with
    | error e => rfl
    | ok loc =>
      dsimp only
      rw [Locator.fillInZeroAddressChecked_eq]
      rfl
  split
  · cases Locator.decode param.value with
    | error e => rfl
    | ok loc =>
      dsimp only
      rw [Locator.fillInZeroAddressChecked_eq]
      rfl
  split
  · split
    · rw [readU32_eq (by omega)]
      rfl
    · rfl
  split
  · split
    · rw [readU32_eq (by omega), Except.ok_bind]
      dsimp only
      split <;> rfl
    · rfl
  split
  · cases Guid.decode param.value <;> rfl
  · rfl

/-- `parse_participant_data`. -/
def parseParticipantDataChecked (guidPrefix : GuidPrefix) (payload : Bytes) (src : SocketAddr) :
    Checked (Option ParticipantProxy) := do
  match ← PlCdrDecoder.newChecked payload with
  | .error _ => return none
  | .ok d => do
    let proxy ← d.forParams (ParticipantProxy.readParamChecked src) (.initial guidPrefix)
    return some proxy

lemma parseParticipantDataChecked_eq (guidPrefix : GuidPrefix) {payload : Bytes}
    (hlen : payload.length < 2 ^ 63) (src : SocketAddr) :
    parseParticipantDataChecked guidPrefix payload src =
      .ok (parseParticipantData guidPrefix payload src) := by
  rw [parseParticipantDataChecked, parseParticipantData, PlCdrDecoder.newChecked_eq,
    Except.ok_bind, PlCdrDecoder.decodeParams]
  cases hnew : PlCdrDecoder.new payload with
  | error e => rfl
  | ok d =>
    obtain ⟨hd, -⟩ := PlCdrDecoder.onBuffer_new hlen hnew
    dsimp only
    rw [PlCdrDecoder.forParams_eq (ParticipantProxy.readParamChecked_eq src) hd]
    rfl

/-- The verdict of the discovery plugin, if there is one. -/
def SpdpConfig.verifiesChecked (cfg : SpdpConfig) (guidPrefix : GuidPrefix) (payload : Bytes) :
    Checked Bool :=
  match cfg.discoveryPlugin with
  | none => .ok true
  | some plugin => do
    let token ← extractDiscoveryTokenChecked payload
    return plugin.verifyDiscovery guidPrefix.bytes (token.getD [])

lemma SpdpConfig.verifiesChecked_eq (cfg : SpdpConfig) (guidPrefix : GuidPrefix)
    {payload : Bytes} (hlen : payload.length < 2 ^ 63) :
    cfg.verifiesChecked guidPrefix payload = .ok (cfg.verifies guidPrefix payload) := by
  unfold verifiesChecked verifies
  cases cfg.discoveryPlugin with
  | none => rfl
  | some plugin =>
    dsimp only
    rw [extractDiscoveryTokenChecked_eq hlen]
    rfl

namespace SpdpService

/-- The body of the loop in `SpdpService::handle_packet`. -/
def handleSubmessageChecked (now : ℕ) (guidPrefix : GuidPrefix) (src : SocketAddr)
    (s : SpdpService) (raw : RawSubmessage) : Checked SpdpService :=
  if raw.id ≠ submsgData then return s
  else do
    match ← decodeDataSubmessageChecked raw.flags raw.body with
    | .error _ => return s
    | .ok ds =>
      if ds.writerEntityId ≠ entityIdSpdpWriter then return s
      else match ds.payload with
        | none => return s
        | some payload => do
          let accepted ← s.config.verifiesChecked guidPrefix payload
          if accepted then do
            match ← parseParticipantDataChecked guidPrefix payload src with
            | some proxy => return (s.storePeer now proxy).2
            | none => return s
          else return s

/-- `SpdpService::handle_packet`. -/
def handlePacketChecked (s : SpdpService) (now : ℕ) (data : Bytes) (src : SocketAddr) :
    Checked SpdpService := do
  match ← Header.decodeChecked data with
  | .error _ => return s
  | .ok header =>
    if header.guidPrefix = s.config.guidPrefix then return s
    else do
      let body ← sliceFrom data 20
      forSubmessages (handleSubmessageChecked now header.guidPrefix src) s body

end SpdpService

/-- The payload of a DATA submessage is part of its body. -/
lemma length_payload_le {flags : UInt8} {body : Bytes} {ds : DataSubmessage} {payload : Bytes}
    (h : decodeDataSubmessage flags body = .ok ds) (hp : ds.payload = some payload) :
    payload.length ≤ body.length := by
  unfold decodeDataSubmessage at h
  split at h
  · cases h
  obtain ⟨_, -, h⟩ := Except.bind_eq_ok.mp h
  obtain ⟨_, -, h⟩ := Except.bind_eq_ok.mp h
  obtain ⟨_, -, h⟩ := Except.bind_eq_ok.mp h
  dsimp only at h
  cases h
  dsimp only at hp
  split at hp
  · cases hp
    rw [List.length_drop]
    omega
  · cases hp

/-- A header that is decoded has its twenty bytes. -/
lemma Header.length_of_decode {data : Bytes} {header : Header}
    (h : Header.decode data = .ok header) : 20 ≤ data.length := by
  unfold Header.decode at h
  split at h
  · cases h
  · omega

namespace SpdpService

lemma handleSubmessageChecked_eq (now : ℕ) (guidPrefix : GuidPrefix) (src : SocketAddr)
    (s : SpdpService) {raw : RawSubmessage} (hlen : raw.body.length < 2 ^ 63) :
    s.handleSubmessageChecked now guidPrefix src raw =
      .ok (s.handleSubmessage now guidPrefix src raw) := by
  unfold handleSubmessageChecked handleSubmessage announcedPayload
  by_cases hid : raw.id ≠ submsgData
  · rw [if_pos hid, if_pos hid]
    rfl
  rw [if_neg hid, if_neg hid, decodeDataSubmessageChecked_eq, Except.ok_bind]
  cases hds : decodeDataSubmessage raw.flags raw.body with
  | error e => rfl
  | ok ds =>
    dsimp only
    by_cases hwriter : ds.writerEntityId ≠ entityIdSpdpWriter
    · rw [if_pos hwriter, if_pos hwriter]
      rfl
    rw [if_neg hwriter, if_neg hwriter]
    cases hpayload : ds.payload with
    | none => rfl
    | some payload =>
      have hshort := (length_payload_le hds hpayload).trans_lt hlen
      dsimp only
      rw [SpdpConfig.verifiesChecked_eq _ _ hshort, Except.ok_bind]
      split
      · rw [parseParticipantDataChecked_eq guidPrefix hshort, Except.ok_bind]
        cases parseParticipantData guidPrefix payload src <;> rfl
      · rfl

/-- **SPDP takes any datagram**, and does with it what `handlePacket` does. -/
lemma handlePacketChecked_eq (s : SpdpService) (now : ℕ) {data : Bytes}
    (hlen : data.length < 2 ^ 63) (src : SocketAddr) :
    s.handlePacketChecked now data src = .ok (s.handlePacket now data src) := by
  unfold handlePacketChecked handlePacket
  rw [Header.decodeChecked_eq, Except.ok_bind]
  cases hheader : Header.decode data with
  | error e => rfl
  | ok header =>
    have hlong := Header.length_of_decode hheader
    dsimp only
    split
    · rfl
    · rw [sliceFrom_eq hlong, Except.ok_bind]
      refine forSubmessages_eq (fun s raw hraw => handleSubmessageChecked_eq _ _ _ s ?_) s
      rw [List.length_drop] at hraw
      omega

end SpdpService

/-! ## SEDP -/

/-- One turn of the loop in `handle_endpoint_announce`. -/
def EndpointData.readParamChecked (src : SocketAddr) (data : EndpointData) (param : Param) :
    Checked EndpointData :=
  if param.pid = pidEndpointGuid then do
    match ← Guid.decodeChecked param.value with
    | .ok guid => return { data with guid }
    | .error _ => return data
  else if param.pid = pidTopicName then do
    match ← decodeStringChecked param.value with
    | .ok topicName => return { data with topicName }
    | .error _ => return data
  else if param.pid = pidDefaultUnicastLocator then do
    match ← Locator.decodeChecked param.value with
    | .ok loc => do
      let loc ← loc.fillInZeroAddressChecked src
      return { data with dataLocator := loc }
    | .error _ => return data
  else return data

lemma EndpointData.readParamChecked_eq (src : SocketAddr) (data : EndpointData) (param : Param) :
    data.readParamChecked src param = .ok (data.readParam src param) := by
  unfold readParamChecked readParam
  rw [Locator.decodeChecked_eq, Guid.decodeChecked_eq, decodeStringChecked_eq, Except.ok_bind,
    Except.ok_bind, Except.ok_bind]
  split
  · cases Guid.decode param.value <;> rfl
  split
  · cases decodeString param.value <;> rfl
  split
  · cases Locator.decode param.value with
    | error e => rfl
    | ok loc =>
      dsimp only
      rw [Locator.fillInZeroAddressChecked_eq]
      rfl
  · rfl

namespace SedpService

/-- `handle_endpoint_announce`. -/
def handleEndpointAnnounceChecked (remotePrefix : GuidPrefix) (src : SocketAddr)
    (s : SedpService) (payload : Bytes) (isWriter : Bool) : Checked SedpService := do
  match ← PlCdrDecoder.newChecked payload with
  | .error _ => return s
  | .ok d => do
    let data ← d.forParams (EndpointData.readParamChecked src) (.initial remotePrefix)
    if data.topicName = "" then return s
    else
      let s := { s with announcesReceived := s.announcesReceived + 1 }
      let info : EndpointInfo := ⟨data.guid, data.topicName, isWriter⟩
      if isWriter then return (s.onRemoteWriter info data.dataLocator).2
      else return s.onRemoteReader info data.dataLocator

/-- The body of the loop in `SedpService::handle_packet`. -/
def handleSubmessageChecked (remotePrefix : GuidPrefix) (src : SocketAddr) (s : SedpService)
    (raw : RawSubmessage) : Checked SedpService :=
  if raw.id ≠ submsgData then return s
  else do
    match ← decodeDataSubmessageChecked raw.flags raw.body with
    | .error _ => return s
    | .ok ds =>
      match ds.payload with
      | none => return s
      | some payload =>
        if ds.writerEntityId = entityIdSedpPubWriter then
          s.handleEndpointAnnounceChecked remotePrefix src payload true
        else if ds.writerEntityId = entityIdSedpSubWriter then
          s.handleEndpointAnnounceChecked remotePrefix src payload false
        else return s

/-- `SedpService::handle_packet`. -/
def handlePacketChecked (s : SedpService) (data : Bytes) (src : SocketAddr) :
    Checked SedpService := do
  match ← Header.decodeChecked data with
  | .error _ => return s
  | .ok header =>
    if header.guidPrefix = s.config.guidPrefix then return s
    else do
      let body ← sliceFrom data 20
      forSubmessages (handleSubmessageChecked header.guidPrefix src) s body

lemma handleEndpointAnnounceChecked_eq (remotePrefix : GuidPrefix) (src : SocketAddr)
    (s : SedpService) {payload : Bytes} (hlen : payload.length < 2 ^ 63) (isWriter : Bool) :
    s.handleEndpointAnnounceChecked remotePrefix src payload isWriter =
      .ok (s.handleEndpointAnnounce remotePrefix src payload isWriter) := by
  rw [handleEndpointAnnounceChecked, handleEndpointAnnounce, parseEndpointData,
    PlCdrDecoder.newChecked_eq, Except.ok_bind, PlCdrDecoder.decodeParams]
  cases hnew : PlCdrDecoder.new payload with
  | error e => rfl
  | ok d =>
    obtain ⟨hd, -⟩ := PlCdrDecoder.onBuffer_new hlen hnew
    dsimp only
    rw [PlCdrDecoder.forParams_eq (EndpointData.readParamChecked_eq src) hd, Except.ok_bind]
    split
    · rfl
    · cases isWriter <;> rfl

lemma handleSubmessageChecked_eq (remotePrefix : GuidPrefix) (src : SocketAddr)
    (s : SedpService) {raw : RawSubmessage} (hlen : raw.body.length < 2 ^ 63) :
    s.handleSubmessageChecked remotePrefix src raw =
      .ok (s.handleSubmessage remotePrefix src raw) := by
  unfold handleSubmessageChecked handleSubmessage announcedEndpoint
  by_cases hid : raw.id ≠ submsgData
  · rw [if_pos hid, if_pos hid]
    rfl
  rw [if_neg hid, if_neg hid, decodeDataSubmessageChecked_eq, Except.ok_bind]
  cases hds : decodeDataSubmessage raw.flags raw.body with
  | error e => rfl
  | ok ds =>
    dsimp only
    cases hpayload : ds.payload with
    | none => rfl
    | some payload =>
      have hshort := (length_payload_le hds hpayload).trans_lt hlen
      dsimp only
      split
      · exact handleEndpointAnnounceChecked_eq _ _ _ hshort _
      split
      · exact handleEndpointAnnounceChecked_eq _ _ _ hshort _
      · rfl

/-- **SEDP takes any datagram**, and does with it what `handlePacket` does. -/
lemma handlePacketChecked_eq (s : SedpService) {data : Bytes} (hlen : data.length < 2 ^ 63)
    (src : SocketAddr) : s.handlePacketChecked data src = .ok (s.handlePacket data src) := by
  unfold handlePacketChecked handlePacket
  rw [Header.decodeChecked_eq, Except.ok_bind]
  cases hheader : Header.decode data with
  | error e => rfl
  | ok header =>
    have hlong := Header.length_of_decode hheader
    dsimp only
    split
    · rfl
    · rw [sliceFrom_eq hlong, Except.ok_bind]
      refine forSubmessages_eq (fun s raw hraw => handleSubmessageChecked_eq _ _ s ?_) s
      rw [List.length_drop] at hraw
      omega

end SedpService

/-! ## Datagrams without an announcement -/

/-- The datagram has a DATA submessage of one of the writers, with a parameter list. -/
def Announces (writers : List EntityId) (data : Bytes) : Prop :=
  ∃ raw ∈ submessages (data.drop 20), raw.id = submsgData ∧
    ∃ ds payload, decodeDataSubmessage raw.flags raw.body = .ok ds ∧ ds.payload = some payload ∧
      ds.writerEntityId ∈ writers ∧ 4 ≤ payload.length ∧ Bytes.readU16 payload 0 = plCdrLe

/-- Without the header of a parameter list there are no parameters. -/
lemma decodeParams_eq_none {payload : Bytes}
    (h : ¬ (4 ≤ payload.length ∧ Bytes.readU16 payload 0 = plCdrLe)) :
    PlCdrDecoder.decodeParams payload = none := by
  rw [PlCdrDecoder.decodeParams, PlCdrDecoder.new]
  split_ifs with hlen
  · rfl
  · by_cases hscheme : Bytes.readU16 payload 0 = plCdrLe
    · exact absurd ⟨not_lt.mp hlen, hscheme⟩ h
    · rw [if_pos hscheme]

/-- A loop whose turns change nothing. -/
lemma foldl_eq_self {σ α : Type} {f : σ → α → σ} {l : List α} {s : σ}
    (h : ∀ a ∈ l, f s a = s) : l.foldl f s = s := by
  induction l with
  | nil => rfl
  | cons a l ih =>
    rw [List.foldl_cons, h a List.mem_cons_self]
    exact ih fun b hb => h b (List.mem_cons_of_mem _ hb)

/-- What an announcement is taken from: a DATA submessage of one of the writers. -/
def CarriesOf (writers : List EntityId) (raw : RawSubmessage) (payload : Bytes) : Prop :=
  raw.id = submsgData ∧ ∃ ds, decodeDataSubmessage raw.flags raw.body = .ok ds ∧
    ds.payload = some payload ∧ ds.writerEntityId ∈ writers

lemma carriesOf_announcedPayload {raw : RawSubmessage} {payload : Bytes}
    (h : announcedPayload raw = some payload) : CarriesOf [entityIdSpdpWriter] raw payload := by
  unfold announcedPayload at h
  split at h
  · cases h
  rename_i hid
  split at h
  · cases h
  rename_i ds hds
  split at h
  · cases h
  rename_i hwriter
  exact ⟨not_not.mp hid, ds, hds, h, List.mem_singleton.mpr (not_not.mp hwriter)⟩

lemma carriesOf_announcedEndpoint {raw : RawSubmessage} {isWriter : Bool} {payload : Bytes}
    (h : announcedEndpoint raw = some (isWriter, payload)) :
    CarriesOf [entityIdSedpPubWriter, entityIdSedpSubWriter] raw payload := by
  unfold announcedEndpoint at h
  split at h
  · cases h
  rename_i hid
  split at h
  · cases h
  rename_i ds hds
  split at h
  · cases h
  rename_i p hp
  refine ⟨not_not.mp hid, ds, hds, ?_⟩
  split at h
  · rename_i hpub
    cases h
    exact ⟨hp, by simp [hpub]⟩
  split at h
  · rename_i hsub
    cases h
    exact ⟨hp, by simp [hsub]⟩
  · cases h

/-- In a datagram that announces nothing, it is no parameter list. -/
lemma CarriesOf.decodeParams_eq_none {writers : List EntityId} {data : Bytes}
    {raw : RawSubmessage} {payload : Bytes} (hcarries : CarriesOf writers raw payload)
    (h : ¬ Announces writers data) (hraw : raw ∈ submessages (data.drop 20)) :
    PlCdrDecoder.decodeParams payload = none := by
  obtain ⟨hid, ds, hds, hpayload, hwriter⟩ := hcarries
  refine RustDds.decodeParams_eq_none ?_
  rintro ⟨hlen, hscheme⟩
  exact h ⟨raw, hraw, hid, ds, payload, hds, hpayload, hwriter, hlen, hscheme⟩

lemma SpdpService.handlePacket_of_not_announces (s : SpdpService) (now : ℕ) {data : Bytes}
    (src : SocketAddr) (h : ¬ Announces [entityIdSpdpWriter] data) :
    s.handlePacket now data src = s := by
  unfold handlePacket
  cases Header.decode data with
  | error e => rfl
  | ok header =>
    dsimp only
    split
    · rfl
    refine foldl_eq_self fun raw hraw => ?_
    unfold handleSubmessage
    cases hannounced : announcedPayload raw with
    | none => rfl
    | some payload =>
      have hparams := (carriesOf_announcedPayload hannounced).decodeParams_eq_none h hraw
      dsimp only
      rw [parseParticipantData, hparams]
      dsimp only
      split <;> rfl

lemma SedpService.handlePacket_of_not_announces (s : SedpService) {data : Bytes}
    (src : SocketAddr) (h : ¬ Announces [entityIdSedpPubWriter, entityIdSedpSubWriter] data) :
    s.handlePacket data src = s := by
  unfold handlePacket
  cases Header.decode data with
  | error e => rfl
  | ok header =>
    dsimp only
    split
    · rfl
    refine foldl_eq_self fun raw hraw => ?_
    unfold handleSubmessage
    cases hannounced : announcedEndpoint raw with
    | none => rfl
    | some announced =>
      obtain ⟨isWriter, payload⟩ := announced
      have hparams := (carriesOf_announcedEndpoint hannounced).decodeParams_eq_none h hraw
      dsimp only
      rw [handleEndpointAnnounce, parseEndpointData, hparams]

/-- **The receive paths are total.**  On any datagram, in any state, neither faults: every index
and slice is in range, no sum overflows a `usize`, and every loop ends.  What they return is what
the plain receive paths do; and a datagram that announces nothing to a service leaves it as it
was. -/
theorem handlePacket_total (spdp : SpdpService) (sedp : SedpService) (now : ℕ) (data : Bytes)
    (src : SocketAddr) (hlen : data.length < 2 ^ 63) :
    spdp.handlePacketChecked now data src = .ok (spdp.handlePacket now data src) ∧
      sedp.handlePacketChecked data src = .ok (sedp.handlePacket data src) ∧
      (¬ Announces [entityIdSpdpWriter] data → spdp.handlePacket now data src = spdp) ∧
      (¬ Announces [entityIdSedpPubWriter, entityIdSedpSubWriter] data →
        sedp.handlePacket data src = sedp) :=
  ⟨spdp.handlePacketChecked_eq now hlen src, sedp.handlePacketChecked_eq hlen src,
    spdp.handlePacket_of_not_announces now src, sedp.handlePacket_of_not_announces src⟩

/-- A header without anything behind it announces nothing. -/
theorem handlePacket_total_header :
    (SedpService.new ⟨⟨List.replicate 12 1, rfl⟩, vendorIdRustDds, 7411, false⟩).handlePacketChecked
        (Header.encode ⟨protocolVersion23, vendorIdRustDds, ⟨List.replicate 12 2, rfl⟩⟩)
        (.v4 ⟨[127, 0, 0, 1], rfl⟩ 40000) =
      .ok (SedpService.new ⟨⟨List.replicate 12 1, rfl⟩, vendorIdRustDds, 7411, false⟩) := by
  have htotal := handlePacket_total
    (SpdpService.new ⟨⟨List.replicate 12 1, rfl⟩, vendorIdRustDds, 7410, 7411, false, none⟩)
    (SedpService.new ⟨⟨List.replicate 12 1, rfl⟩, vendorIdRustDds, 7411, false⟩) 0
    (Header.encode ⟨protocolVersion23, vendorIdRustDds, ⟨List.replicate 12 2, rfl⟩⟩)
    (.v4 ⟨[127, 0, 0, 1], rfl⟩ 40000) (by decide)
  rw [htotal.2.1, htotal.2.2.2]
  rintro ⟨raw, hraw, -⟩
  revert hraw
  rw [submessages_of_length_lt (by decide)]
  exact List.not_mem_nil

end RustDds
