import RustDds.Network.Discovery

/-!
# Topics stay apart on a network

A reader gets samples of other topics when a writer that it accepts moves to another topic, or when
a match names the entity id of a reader that is gone and a new reader has that id.  Participants
that run this code and make fewer than `2 ^ 24` endpoints each do neither, whatever the network
does with their datagrams: what each knows of the others is true (`Network.Sound`), so no
announcement contradicts what is known, and each step is one that keeps topics apart.
-/

namespace RustDds

/-! ## The matches to be taken -/

/-- The matches to be taken are for readers that are registered. -/
structure Addressed (taken : ℕ) (sedp : SedpService) : Prop where
  readers_keyed : ∀ eid info, sedp.localReaders.lookup eid = some info → info.guid.entity = eid
  pending : ∀ m ∈ sedp.matchesAfter taken, (sedp.localReaders.lookup m.readerEid).isSome

namespace Addressed

variable {taken : ℕ} {sedp : SedpService}

lemma record (h : Addressed taken sedp) (a : Announcement) : Addressed taken (sedp.record a) := by
  have hreaders : (sedp.record a).localReaders = sedp.localReaders := by
    rw [SedpService.record_eq]
  constructor
  · rw [hreaders]
    exact h.readers_keyed
  · intro m hm
    rw [hreaders]
    rcases SedpService.mem_matchesAfter_record hm with hm | hm
    · exact h.pending m hm
    · obtain ⟨-, -, eid, info, hinfo, -, heid⟩ := SedpService.mem_matchesOf hm
      rw [← heid, h.readers_keyed eid info hinfo, hinfo]
      rfl

lemma insertReader (h : Addressed taken sedp) (eid : EntityId) (topic : String)
    (seqCounter : UInt32) : Addressed taken { sedp.insertReader eid topic with seqCounter } := by
  refine ⟨fun r info hinfo => ?_, fun m hm => ?_⟩
  · rcases Table.lookup_insert_eq_some.mp hinfo with ⟨rfl, rfl⟩ | ⟨-, hold⟩
    · rfl
    · exact h.readers_keyed r info hold
  · show ((sedp.localReaders.insert eid (sedp.localInfo eid topic false)).lookup
      m.readerEid).isSome
    by_cases heid : m.readerEid = eid
    · rw [heid, AList.lookup_insert]
      rfl
    · rw [AList.lookup_insert_ne heid]
      exact h.pending m hm

end Addressed

/-- **The step.** -/
lemma RtpsUdpParticipant.addressed_step {p : RtpsUdpParticipant}
    (h : Addressed p.matchesTaken p.sedp) (e : ParticipantEvent) :
    Addressed (p.step e).matchesTaken (p.step e).sedp := by
  have hunmoved : p.Unmoved (p.step e) → Addressed (p.step e).matchesTaken (p.step e).sedp := by
    intro hs
    obtain ⟨localWriters, seqCounter, hsedp⟩ := hs.sedp_eq
    rw [hs.taken_eq, hsedp]
    exact ⟨h.readers_keyed, h.pending⟩
  have heff := effects_step p e
  cases e with
  | sedpPacket data src =>
    obtain ⟨hsedp, -, htaken⟩ := heff
    rw [hsedp, htaken, SedpService.handlePacket_eq]
    exact (Run.each_of_forall fun _ _ _ => trivial).foldl (P := fun _ _ => True)
      (fun _ a hsedp _ => hsedp.record a) h
  | takeMatch =>
    rcases heff with heq | ⟨m, ms, -, hsedp, htaken, -⟩
    · rw [heq]
      exact h
    · rw [hsedp, htaken]
      refine ⟨h.readers_keyed, fun m hm => h.pending m ?_⟩
      rw [SedpService.matchesAfter, ← List.drop_drop] at hm
      exact List.mem_of_mem_drop hm
  | newSubscriber topic qos opts utc =>
    rcases heff with hs | ⟨htaken, seqCounter, hsedp, -⟩
    · exact hunmoved hs
    · rw [htaken, hsedp]
      exact h.insertReader _ topic seqCounter
  | unsubscribe eid =>
    rw [heff.1, heff.2.2]
    exact h
  | spdpPacket | sweep | takePeer | dataPacket | newPublisher | write => exact hunmoved heff

/-- Where the readers are isolated, topics stay apart. -/
lemma RtpsUdpParticipant.topicsApart_of_isolated {p : RtpsUdpParticipant}
    (h : Isolated p.profile p.matchesTaken p.sedp) : p.TopicsApart := by
  have hsources : ∀ eid st, p.inner.readers.lookup eid = some st →
      ∀ g ∈ st.sources, p.sedp.KnownUnder g st.topic :=
    fun eid st hst => h.sources eid _ (profile_eq_some.mpr ⟨st, hst, rfl⟩)
  refine ⟨hsources, fun d eid sample accepted he => ?_⟩
  obtain ⟨sender, hremote, hpush⟩ := (RtpsParticipant.keeps_handleDataPacket _ d).2 _ he
  obtain ⟨st, g, hst, hacc, rfl, hguid, htopic⟩ := hpush eid sample accepted rfl
  exact ⟨st, g, hst, htopic, hguid,
    hsources eid st hst g (mem_sources_of_acceptsSource hacc hremote)⟩

/-! ## What is known is true -/

section
variable {ι : Type*} {H : Hosts ι} {i j : ι}

/-- A participant accepts none of its own announcements. -/
lemma accepted_endpointMessage_self {info : EndpointInfo} {seqNum : UInt32} (src : SocketAddr) :
    (H.host i).cfg.sedp.accepted (endpointMessage (H.host i).cfg.sedp info seqNum) src = [] := by
  rw [SedpConfig.accepted, endpointMessage, decode_wrapInRtpsMessage]
  exact if_pos rfl

namespace Network

variable {s : Network ι} {e : ParticipantEvent}

/-- What `i` accepts from the datagram is nothing, or one announcement, of an endpoint that another
participant has. -/
def Tells (H : Hosts ι) (s : Network ι) (i : ι) (msg : Bytes) (src : SocketAddr) : Prop :=
  (H.host i).cfg.sedp.accepted msg src = [] ∨
    ∃ a info, a ≠ i ∧ info ∈ (s.node a).localEndpoints ∧
      (H.host i).cfg.sedp.accepted msg src = [(H.host a).announced info]

/-- Every participant announces the endpoints it has, and what it knows of the others is true. -/
structure Sound (H : Hosts ι) (s : Network ι) : Prop where
  announcing : ∀ i, Announcing H s i
  writers : ∀ i g info, (s.node i).sedp.remoteWriters.lookup g = some info →
    info.isWriter = true ∧ ∃ a, a ≠ i ∧ info ∈ (s.node a).localEndpoints
  readers : ∀ i g info, (s.node i).sedp.remoteReaders.lookup g = some info →
    info.isWriter = false ∧ ∃ a, a ≠ i ∧ info ∈ (s.node a).localEndpoints
  isolated : ∀ i, Isolated (s.node i).profile (s.node i).matchesTaken (s.node i).sedp
  addressed : ∀ i, Addressed (s.node i).matchesTaken (s.node i).sedp

lemma sound_start (H : Hosts ι) : Sound H (start H) where
  announcing := announcing_start H
  writers _ _ _ h := (by cases h)
  readers _ _ _ h := (by cases h)
  isolated _ := RtpsUdpParticipant.isolated_new _
  addressed _ := ⟨fun _ _ h => (by cases h), fun _ h => (by cases h)⟩

lemma Sound.without (h : Sound H s) (k : ℕ) : Sound H (s.without k) :=
  ⟨fun i => (h.announcing i).without k, h.writers, h.readers, h.isolated, h.addressed⟩

/-- A datagram in flight tells of an endpoint that is there. -/
lemma Sound.tells (h : Sound H s) {pkt : Packet ι} (hpkt : pkt ∈ s.wire) (i : ι) :
    Tells H s i pkt.msg pkt.src := by
  have ha := h.announcing pkt.sender
  have hlen := ha.honest.length_le pkt hpkt
  rcases ha.flight pkt hpkt rfl with ⟨info, hinfo, htopic, -, hsrc, seqNum, hmsg⟩ | hsilent
  · rw [hmsg] at hlen
    rw [Tells, hmsg]
    by_cases hi : pkt.sender = i
    · rw [← hi]
      exact .inl (accepted_endpointMessage_self _)
    · refine .inr ⟨pkt.sender, info, hi, hinfo, ?_⟩
      rw [hsrc]
      exact accepted_endpointMessage (fun heq => hi (H.prefix_inj _ _ heq))
        (H.host pkt.sender).isV6_eq htopic hlen
  · exact .inl (hsilent.sedp _ _)

/-- **No step moves a writer** that a participant knows, or reuses the id of a reader. -/
lemma Sound.settled (h : Sound H s) (hfresh : (s.node i).DrawsFresh e)
    (htells : ∀ msg src, e = .sedpPacket msg src → Tells H s i msg src) :
    (s.node i).Settled e := by
  have hp := (h.announcing i).honest.hosted i
  cases e with
  | sedpPacket msg src =>
    rw [RtpsUdpParticipant.Settled, hp.sedp_config]
    rcases htells msg src rfl with hnil | ⟨a, info, ha, hinfo, hone⟩
    · rw [hnil]
      trivial
    rw [hone]
    refine ⟨fun hw known hknown hne => absurd ?_ hne, trivial⟩
    -- the writer known under the id announced is the one announced
    obtain ⟨-, a', -, hinfo'⟩ := h.writers i _ known hknown
    have hguid : known.guid = info.guid := (h.isolated i).writers_keyed _ known hknown
    have hguidPrefix : ∀ {b : ι} {x : EndpointInfo}, x ∈ (s.node b).localEndpoints →
        x.guid.guidPrefix = (H.host b).cfg.guidPrefix := by
      intro b x hx
      obtain ⟨k, eid, hlookup⟩ := RtpsUdpParticipant.mem_localEndpoints.mp hx
      rw [(((h.announcing b).honest.hosted b).locals k eid x hlookup).2]
    have haa : a' = a := by
      refine H.prefix_inj a' a ?_
      rw [← hguidPrefix hinfo', ← hguidPrefix hinfo, hguid]
    subst haa
    have heq := (h.announcing a').numbered.eq_of_guid_eq ((h.announcing a').honest.hosted a')
      hinfo' hinfo hguid
    rw [heq]
    rfl
  | newSubscriber topic qos opts utc =>
    intro m hm heid
    have hmakes : (ParticipantEvent.newSubscriber topic qos opts utc).makes ≠ none := by
      simp [ParticipantEvent.makes]
    have hnone := (h.announcing i).numbered.lookup_nextId (hfresh hmakes) .reader .reader
    have hsome := (h.addressed i).pending m hm
    rw [heid] at hsome
    rw [show (s.node i).sedp.localReaders.lookup (s.node i).inner.nextReaderId = none from hnone]
      at hsome
    cases hsome
  | _ => trivial

/-- A step teaches `i` of an endpoint that another participant has, if of any. -/
lemma Sound.taught (h : Sound H s)
    (htells : ∀ msg src, e = .sedpPacket msg src → Tells H s i msg src) {g : Guid}
    {info : EndpointInfo} :
    (((s.node i).step e).sedp.remoteWriters.lookup g = some info →
      info.isWriter = true ∧ ∃ a, a ≠ i ∧ info ∈ (s.node a).localEndpoints) ∧
    (((s.node i).step e).sedp.remoteReaders.lookup g = some info →
      info.isWriter = false ∧ ∃ a, a ≠ i ∧ info ∈ (s.node a).localEndpoints) := by
  have hold : ∀ q : SedpService, (s.node i).sedp.SameRemotes q →
      (q.remoteWriters.lookup g = some info →
        info.isWriter = true ∧ ∃ a, a ≠ i ∧ info ∈ (s.node a).localEndpoints) ∧
      (q.remoteReaders.lookup g = some info →
        info.isWriter = false ∧ ∃ a, a ≠ i ∧ info ∈ (s.node a).localEndpoints) := by
    intro q hq
    rw [hq.remoteWriters, hq.remoteReaders]
    exact ⟨h.writers i g info, h.readers i g info⟩
  by_cases hsedp : ∀ msg src, e ≠ .sedpPacket msg src
  · exact hold _ ((s.node i).sameRemotes_step hsedp)
  push Not at hsedp
  obtain ⟨msg, src, rfl⟩ := hsedp
  have hstep : ((s.node i).step (.sedpPacket msg src)).sedp =
      (s.node i).sedp.handlePacket msg src := rfl
  rw [hstep, SedpService.handlePacket_eq, ((h.announcing i).honest.hosted i).sedp_config]
  rcases htells msg src rfl with hnil | ⟨a, info', ha, hinfo', hone⟩
  · rw [hnil]
    exact hold _ ⟨rfl, rfl, rfl⟩
  rw [hone, List.foldl_cons, List.foldl_nil, SedpService.record_eq]
  have hself : ((H.host a).announced info').info = info' := rfl
  constructor
  · intro hlookup
    dsimp only at hlookup
    split at hlookup
    · rename_i hw
      rcases Table.lookup_insert_eq_some.mp hlookup with ⟨-, rfl⟩ | ⟨-, hlookup⟩
      · exact ⟨hw, a, ha, hinfo'⟩
      · exact h.writers i g info hlookup
    · exact h.writers i g info hlookup
  · intro hlookup
    dsimp only at hlookup
    split at hlookup
    · exact h.readers i g info hlookup
    · rename_i hw
      rcases Table.lookup_insert_eq_some.mp hlookup with ⟨-, rfl⟩ | ⟨-, hlookup⟩
      · exact ⟨Bool.eq_false_of_not_eq_true hw, a, ha, hinfo'⟩
      · exact h.readers i g info hlookup

/-- A writer that is known is one that another participant has made. -/
lemma Sound.exists_writer (h : Sound H s) {g : Guid} {topic : String}
    (hknown : (s.node i).sedp.KnownUnder g topic) :
    ∃ a, a ≠ i ∧ ⟨g, topic, true⟩ ∈ (s.node a).localEndpoints := by
  obtain ⟨info, hinfo, rfl⟩ := hknown
  obtain ⟨hw, a, ha, hmem⟩ := h.writers i g info hinfo
  have hguid := (h.isolated i).writers_keyed g info hinfo
  subst hguid
  refine ⟨a, ha, ?_⟩
  rw [← hw]
  exact hmem

variable [DecidableEq ι]

/-- **The step of a participant.** -/
lemma Sound.perform (h : Sound H s) (he : H.Truthful e) (hfresh : (s.node i).DrawsFresh e)
    (htells : ∀ msg src, e = .sedpPacket msg src → Tells H s i msg src) :
    Sound H (s.perform H i e) := by
  -- what participants have, they keep
  have hkeeps : ∀ {j : ι} {info : EndpointInfo}, (∃ a, a ≠ j ∧ info ∈ (s.node a).localEndpoints) →
      ∃ a, a ≠ j ∧ info ∈ ((s.perform H i e).node a).localEndpoints := by
    rintro j info ⟨a, ha, hinfo⟩
    refine ⟨a, ha, ?_⟩
    by_cases hi : a = i
    · subst hi
      rw [node_perform_self]
      exact (h.announcing a).numbered.mem_localEndpoints_step hfresh hinfo
    · rw [node_perform_of_ne hi]
      exact hinfo
  refine ⟨fun a => (h.announcing a).perform he fun hi => hi ▸ hfresh, fun j g info hlookup => ?_,
    fun j g info hlookup => ?_, fun j => ?_, fun j => ?_⟩
  · by_cases hj : j = i
    · subst hj
      rw [node_perform_self] at hlookup
      exact ((h.taught htells).1 hlookup).imp_right hkeeps
    · rw [node_perform_of_ne hj] at hlookup
      exact (h.writers j g info hlookup).imp_right hkeeps
  · by_cases hj : j = i
    · subst hj
      rw [node_perform_self] at hlookup
      exact ((h.taught htells).2 hlookup).imp_right hkeeps
    · rw [node_perform_of_ne hj] at hlookup
      exact (h.readers j g info hlookup).imp_right hkeeps
  · by_cases hj : j = i
    · subst hj
      rw [node_perform_self]
      exact RtpsUdpParticipant.isolated_step _ e (h.isolated j) (h.settled hfresh htells)
    · rw [node_perform_of_ne hj]
      exact h.isolated j
  · by_cases hj : j = i
    · subst hj
      rw [node_perform_self]
      exact RtpsUdpParticipant.addressed_step (h.addressed j) e
    · rw [node_perform_of_ne hj]
      exact h.addressed j

/-- Nothing that a participant is told gets untrue before it has it all. -/
lemma Sound.receiveMeta (h : Sound H s) {now : ℕ} {msg : Bytes} {src : SocketAddr}
    (htrue : H.Truthful (.spdpPacket now msg src)) (htells : Tells H s i msg src) :
    Sound H (s.receiveMeta H i now msg src) := by
  have hspdp : Sound H (s.perform H i (.spdpPacket now msg src)) :=
    h.perform htrue (fun hne => absurd rfl hne) fun _ _ heq => by cases heq
  refine hspdp.perform trivial (fun hne => absurd rfl hne) fun msg' src' heq => ?_
  cases heq
  refine htells.imp_right ?_
  rintro ⟨a, info, ha, hinfo, hone⟩
  refine ⟨a, info, ha, ?_, hone⟩
  by_cases hi : a = i
  · exact absurd hi ha
  · rw [node_perform_of_ne hi]
    exact hinfo

/-- **The step of the network.** -/
lemma Sound.step (h : Sound H s) {e : NetworkEvent ι} (hfresh : ∀ a, Fresh a s e) :
    Sound H (s.step H e) := by
  cases e with
  | act i e =>
    rw [Network.step]
    split
    · exact h
    rename_i hlocal
    refine h.perform (Hosts.truthful_of_not_receives hlocal) (hfresh i rfl) fun msg src heq => ?_
    subst heq
    exact absurd rfl hlocal
  | hear i j now seqNum direct =>
    have htrue := H.truthful_announcement now j seqNum
    rw [Network.step]
    split
    · exact h.receiveMeta htrue (.inl (sedp_announcement ..))
    · exact h.perform htrue (fun hne => absurd rfl hne) fun _ _ heq => by cases heq
  | deliver k j now utc again =>
    refine deliver_rule h (fun t k ht => ht.without k) (fun pkt hpkt _ => ?_) fun pkt hpkt _ => ?_
    · exact h.receiveMeta (.inr fun sp => (h.announcing j).honest.spdp_wire hpkt sp now _)
        (h.tells hpkt j)
    · exact h.perform trivial (fun hne => absurd rfl hne) fun _ _ heq => by cases heq
  | lose k => exact h.without k

/-- What is known is true in every run of participants that make fewer than `2 ^ 24` endpoints. -/
lemma sound_run (H : Hosts ι) (events : List (NetworkEvent ι))
    (hcount : ∀ a, events.countP (makesAt a) < 2 ^ 24) :
    Run.Each (step H) (fun s e => ∀ a, Fresh a s e) (start H) events ∧
      Sound H (run H (start H) events) := by
  have hfresh : Run.Each (step H) (fun s e => ∀ a, Fresh a s e) (start H) events := by
    refine Run.each_iff.mpr fun pre e post hsplit a => ?_
    exact Run.each_iff.mp (fresh_run H a (hcount a)) pre e post hsplit
  exact ⟨hfresh, hfresh.foldl (I := Sound H) (fun _ _ h hstep => h.step hstep) (sound_start H)⟩

/-- **Topics stay apart**, in every run of participants that make fewer than `2 ^ 24` endpoints
each.  A reader accepts, and is handed by whatever datagram, samples of no remote writers but those
that another participant has made on the topic of the reader. -/
theorem topicsApart_of_fresh (H : Hosts ι) (events : List (NetworkEvent ι))
    (hcount : ∀ a, events.countP (makesAt a) < 2 ^ 24) (i : ι) :
    let s := run H (start H) events
    (s.node i).TopicsApart ∧ ∀ g topic, (s.node i).sedp.KnownUnder g topic →
      ∃ a, a ≠ i ∧ ⟨g, topic, true⟩ ∈ (s.node a).localEndpoints := by
  intro s
  obtain ⟨-, hsound⟩ := sound_run H events hcount
  exact ⟨RtpsUdpParticipant.topicsApart_of_isolated (hsound.isolated i),
    fun g topic hknown => hsound.exists_writer hknown⟩

/-- Participant 2 has a reader that accepts the writer of participant 1. -/
theorem topicsApart_of_fresh_pair :
    let s := run .pair (start .pair) (pairMakes ++ .hear false true 0 1 false :: pairMeets)
    (s.node true).profile (entityIdForReader 1) =
        some ("a", {⟨(Host.ofBool false).cfg.guidPrefix, entityIdForWriter 1⟩}, true) ∧
      (s.node true).TopicsApart :=
  ⟨by decide +kernel, (topicsApart_of_fresh .pair _ (by decide) true).1⟩

end Network

end

end RustDds
