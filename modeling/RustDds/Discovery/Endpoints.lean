import RustDds.Rtps.Sedp

/-!
# The announcements SEDP accepts

A received datagram carries announcements, each of one endpoint.  `SedpConfig.accepted` lists
those that a participant does not turn away, and `handlePacket_eq` says that handling the
datagram is recording each of them in turn.  `record_eq` is everything that recording one does.

The announcement names its endpoint itself (`PID_ENDPOINT_GUID`); the sender is the one in the
header of the message.
-/

namespace RustDds

/-- An accepted announcement, with its sender. -/
structure Announcement where
  sender : GuidPrefix
  isWriter : Bool
  endpoint : EndpointData
  deriving DecidableEq

namespace Announcement

/-- The GUID of the endpoint announced. -/
def guid (a : Announcement) : Guid := a.endpoint.guid

/-- The topic of the endpoint announced. -/
def topicName (a : Announcement) : String := a.endpoint.topicName

/-- The endpoint announced. -/
def info (a : Announcement) : EndpointInfo := ⟨a.guid, a.topicName, a.isWriter⟩

/-- The announcement in a submessage of a message that `sender` sent. -/
def ofSubmessage (sender : GuidPrefix) (src : SocketAddr) (raw : RawSubmessage) :
    Option Announcement :=
  match announcedEndpoint raw with
  | none => none
  | some (isWriter, payload) =>
    (parseEndpointData sender payload src).map fun endpoint => ⟨sender, isWriter, endpoint⟩

end Announcement

/-- The announcements a participant accepts from a datagram: none from one of its own. -/
def SedpConfig.accepted (cfg : SedpConfig) (data : Bytes) (src : SocketAddr) :
    List Announcement :=
  match Header.decode data with
  | .error _ => []
  | .ok header =>
    if header.guidPrefix = cfg.guidPrefix then []
    else (submessages (data.drop 20)).filterMap (Announcement.ofSubmessage header.guidPrefix src)

/-- Every announcement in a datagram has the sender of the datagram, who is not the participant
itself. -/
lemma SedpConfig.sender_of_mem_accepted {cfg : SedpConfig} {data : Bytes} {src : SocketAddr}
    {a : Announcement} (h : a ∈ cfg.accepted data src) :
    a.sender ≠ cfg.guidPrefix ∧
      ∃ header, Header.decode data = .ok header ∧ header.guidPrefix = a.sender := by
  unfold accepted at h
  cases hheader : Header.decode data with
  | error _ =>
    rw [hheader] at h
    cases h
  | ok header =>
    rw [hheader] at h
    dsimp only at h
    split at h
    · cases h
    rename_i hforeign
    obtain ⟨raw, -, hraw⟩ := List.mem_filterMap.mp h
    unfold Announcement.ofSubmessage at hraw
    split at hraw
    · cases hraw
    obtain ⟨endpoint, -, rfl⟩ := Option.map_eq_some_iff.mp hraw
    exact ⟨hforeign, header, rfl, rfl⟩

namespace SedpService

/-- Record an accepted announcement. -/
def record (s : SedpService) (a : Announcement) : SedpService :=
  let s := { s with announcesReceived := s.announcesReceived + 1 }
  if a.isWriter then (s.onRemoteWriter a.info a.endpoint.dataLocator).2
  else s.onRemoteReader a.info a.endpoint.dataLocator

/-- **Handling a datagram** is recording the announcements accepted from it. -/
lemma handlePacket_eq (s : SedpService) (data : Bytes) (src : SocketAddr) :
    s.handlePacket data src = (s.config.accepted data src).foldl record s := by
  have hsub : ∀ (sender : GuidPrefix) (s : SedpService) (raw : RawSubmessage),
      s.handleSubmessage sender src raw =
        ((Announcement.ofSubmessage sender src raw).elim s fun a => s.record a) := by
    intro sender s raw
    unfold handleSubmessage Announcement.ofSubmessage
    cases announcedEndpoint raw with
    | none => rfl
    | some announced =>
      obtain ⟨isWriter, payload⟩ := announced
      dsimp only [handleEndpointAnnounce]
      cases parseEndpointData sender payload src <;> rfl
  unfold handlePacket SedpConfig.accepted
  cases Header.decode data with
  | error _ => rfl
  | ok header =>
    dsimp only
    split
    · rfl
    rename_i hforeign
    clear hforeign
    generalize submessages (data.drop 20) = raws
    induction raws generalizing s with
    | nil => rfl
    | cons raw raws ih =>
      rw [List.foldl_cons, ih, hsub, List.filterMap_cons]
      cases Announcement.ofSubmessage header.guidPrefix src raw <;> rfl

/-! ## What recording an announcement does -/

/-- The matches an announcement makes: of the writer it announces, with the local readers of its
topic. -/
def matchesOf (s : SedpService) (a : Announcement) : List WriterMatch :=
  if a.isWriter then (s.matchingReaders a.topicName).map fun eid => ⟨eid, a.guid⟩ else []

/-- The matches of an announcement are with local readers of the topic announced. -/
lemma mem_matchesOf {s : SedpService} {a : Announcement} {m : WriterMatch}
    (h : m ∈ s.matchesOf a) :
    a.isWriter = true ∧ m.writerGuid = a.guid ∧ ∃ eid info,
      s.localReaders.lookup eid = some info ∧ info.topicName = a.topicName ∧
        info.guid.entity = m.readerEid := by
  unfold matchesOf at h
  split at h
  · rename_i hw
    obtain ⟨eid, heid, rfl⟩ := List.mem_map.mp h
    obtain ⟨info, hinfo, rfl⟩ := List.mem_map.mp heid
    obtain ⟨hval, htopic⟩ := List.mem_filter.mp hinfo
    obtain ⟨key, hkey⟩ := Table.mem_values_iff.mp hval
    exact ⟨hw, rfl, key, info, hkey, of_decide_eq_true htopic, rfl⟩
  · cases h

/-- Only a writer of a topic that is read locally makes matches. -/
lemma matchesOf_eq_nil_iff {s : SedpService} {a : Announcement} :
    s.matchesOf a = [] ↔
      ¬ (a.isWriter = true ∧ ∃ lr ∈ s.localReaders.values, lr.topicName = a.topicName) := by
  unfold matchesOf matchingReaders
  cases a.isWriter
  · simp
  · simp [List.filter_eq_nil_iff]

lemma sendMatches_eq (s : SedpService) (guid : Guid) (readers : List EntityId) :
    s.sendMatches guid readers =
      { s with matchListener :=
          s.matchListener.map (· ++ readers.map fun eid => ⟨eid, guid⟩) } := by
  induction readers generalizing s with
  | nil => cases s with | mk _ _ _ _ _ _ _ _ listener => cases listener <;> simp [sendMatches]
  | cons eid readers ih =>
    rw [sendMatches, List.foldl_cons]
    refine (ih (s.sendMatch ⟨eid, guid⟩)).trans ?_
    simp [sendMatch, Option.map_map, Function.comp_def]

/-- What `onRemoteWriter` does to the tables. -/
lemma onRemoteWriter_eq (s : SedpService) (info : EndpointInfo) (dataLocator : Locator) :
    (s.onRemoteWriter info dataLocator).2 = { s with
      remoteWriters := s.remoteWriters.insert info.guid info
      writerLocators := if s.matchingReaders info.topicName = [] then s.writerLocators
        else s.writerLocators.insert info.guid dataLocator
      matchListener := s.matchListener.map
        (· ++ (s.matchingReaders info.topicName).map fun eid => ⟨eid, info.guid⟩)
      endpointMatches := s.endpointMatches +
        UInt64.ofNat (s.matchingReaders info.topicName).length } := by
  have hreaders : (s.insertRemoteWriter info).matchingReaders info.topicName =
      s.matchingReaders info.topicName := rfl
  simp only [onRemoteWriter, hreaders]
  by_cases hnone : s.matchingReaders info.topicName = []
  · have hid : (s.matchListener.map fun sent : List WriterMatch => sent) = s.matchListener :=
      Option.map_id_apply
    simp only [hnone, if_true, List.map_nil, List.append_nil, hid]
    rfl
  · simp only [if_neg hnone, sendMatches_eq]
    rfl

/-- **Recording an announcement.** -/
lemma record_eq (s : SedpService) (a : Announcement) :
    s.record a = { s with
      remoteWriters := if a.isWriter then s.remoteWriters.insert a.guid a.info
        else s.remoteWriters
      remoteReaders := if a.isWriter then s.remoteReaders
        else s.remoteReaders.insert a.guid a.info
      remoteReaderLocators := if a.isWriter then s.remoteReaderLocators
        else s.remoteReaderLocators.insert a.guid a.endpoint.dataLocator
      writerLocators := if s.matchesOf a = [] then s.writerLocators
        else s.writerLocators.insert a.guid a.endpoint.dataLocator
      matchListener := s.matchListener.map (· ++ s.matchesOf a)
      endpointMatches := s.endpointMatches + UInt64.ofNat (s.matchesOf a).length
      announcesReceived := s.announcesReceived + 1 } := by
  cases hw : a.isWriter with
  | true =>
    simp only [record, hw, if_true, onRemoteWriter_eq, matchesOf, List.map_eq_nil_iff,
      List.length_map]
    rfl
  | false =>
    have hid : (s.matchListener.map fun sent : List WriterMatch => sent) = s.matchListener :=
      Option.map_id_apply
    have hzero : s.endpointMatches + UInt64.ofNat 0 = s.endpointMatches := UInt64.add_zero _
    simp only [record, hw, onRemoteReader, matchesOf, if_false, Bool.false_eq_true,
      List.append_nil, hid, List.length_nil, hzero, if_true]
    rfl

lemma config_handlePacket (s : SedpService) (data : Bytes) (src : SocketAddr) :
    (s.handlePacket data src).config = s.config := by
  rw [handlePacket_eq]
  generalize s.config.accepted data src = as
  induction as generalizing s with
  | nil => rfl
  | cons a as ih => rw [List.foldl_cons, ih, record_eq]

/-- SEDP knows the writer, under this topic. -/
def KnownUnder (s : SedpService) (g : Guid) (topic : String) : Prop :=
  ∃ info, s.remoteWriters.lookup g = some info ∧ info.topicName = topic

instance (s : SedpService) (g : Guid) (topic : String) : Decidable (s.KnownUnder g topic) :=
  decidable_of_iff (∃ info ∈ s.remoteWriters.lookup g, info.topicName = topic) Iff.rfl

end SedpService

end RustDds
