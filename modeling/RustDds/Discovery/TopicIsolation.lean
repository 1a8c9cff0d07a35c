import RustDds.Discovery.Endpoints
import RustDds.Lib.Run
import RustDds.Rtps.DdsParticipant

/-!
# Whose samples a reader gets

The data path carries no topic: a reader gets the samples of the remote writers in its sources.
A writer is put there when it is matched, and nothing takes it out again.

`Isolated` is the guarantee, that every source is a writer which SEDP knows under the topic of
the reader, with what must hold of the matches still to be taken.  It holds throughout a run in
which no writer leaves a topic that some reader is on (`isolated_of_settled`), and
`exists_contaminated` is a run in which one does.
-/

namespace RustDds

namespace SedpService

variable {s : SedpService} {a : Announcement} {g : Guid} {topic : String}

/-- An announcement leaves a writer known under its topic, unless it moves it to another. -/
lemma KnownUnder.record (h : s.KnownUnder g topic)
    (hstays : a.isWriter = true → a.guid = g → a.topicName = topic) :
    (s.record a).KnownUnder g topic := by
  obtain ⟨info, hinfo, htopic⟩ := h
  rw [KnownUnder, record_eq]
  dsimp only
  split
  · rename_i hw
    by_cases hg : g = a.guid
    · exact ⟨a.info, by rw [hg, AList.lookup_insert], hstays hw hg.symm⟩
    · exact ⟨info, by rw [AList.lookup_insert_ne hg, hinfo], htopic⟩
  · exact ⟨info, hinfo, htopic⟩

/-- The writer announced is known under the topic announced. -/
lemma knownUnder_record (s : SedpService) (h : a.isWriter = true) :
    (s.record a).KnownUnder a.guid a.topicName := by
  rw [KnownUnder, record_eq]
  dsimp only
  rw [if_pos h]
  exact ⟨a.info, AList.lookup_insert .., rfl⟩

/-- The matches a listener was sent after the first `taken`. -/
def matchesAfter (s : SedpService) (taken : ℕ) : List WriterMatch :=
  (s.matchListener.getD []).drop taken

lemma mem_matchesAfter_record {taken : ℕ} {m : WriterMatch}
    (h : m ∈ (s.record a).matchesAfter taken) :
    m ∈ s.matchesAfter taken ∨ m ∈ s.matchesOf a := by
  rw [matchesAfter, record_eq] at h
  cases hlistener : s.matchListener with
  | none =>
    rw [hlistener] at h
    simp at h
  | some sent =>
    rw [hlistener] at h
    simp only [Option.map_some, Option.getD_some, List.drop_append] at h
    rw [matchesAfter, hlistener, Option.getD_some]
    exact (List.mem_append.mp h).imp_right List.mem_of_mem_drop

end SedpService

/-! ## Isolation -/

/-- Which writers each reader accepts. -/
abbrev Profile := EntityId → Option (String × Finset Guid × Bool)

/-- Every source of a reader is known under the reader's topic, and so is every writer it is
still to be told of; the readers are registered with SEDP under their topics. -/
structure Isolated (profile : Profile) (taken : ℕ) (sedp : SedpService) : Prop where
  registered : ∀ eid x, profile eid = some x →
    ∃ info, sedp.localReaders.lookup eid = some info ∧ info.topicName = x.1
  readers_keyed : ∀ eid info, sedp.localReaders.lookup eid = some info → info.guid.entity = eid
  writers_keyed : ∀ g info, sedp.remoteWriters.lookup g = some info → info.guid = g
  sources : ∀ eid x, profile eid = some x → ∀ g ∈ x.2.1, sedp.KnownUnder g x.1
  pending : ∀ m ∈ sedp.matchesAfter taken, ∀ x, profile m.readerEid = some x →
    sedp.KnownUnder m.writerGuid x.1

/-- An announcement takes a writer away from a topic only if no reader is on that topic. -/
def MovesFreely (profile : Profile) (sedp : SedpService) (a : Announcement) : Prop :=
  a.isWriter = true → ∀ info, sedp.remoteWriters.lookup a.guid = some info →
    info.topicName ≠ a.topicName → ∀ eid x, profile eid = some x → x.1 ≠ info.topicName

namespace Isolated

variable {profile : Profile} {taken : ℕ} {sedp sedp' : SedpService}

/-- **The announcement.** -/
lemma record (h : Isolated profile taken sedp) {a : Announcement}
    (hfree : MovesFreely profile sedp a) : Isolated profile taken (sedp.record a) := by
  have hreaders : (sedp.record a).localReaders = sedp.localReaders := by
    rw [SedpService.record_eq]
  -- whatever a reader relies on stays known under the reader's topic
  have hkeep : ∀ eid x, profile eid = some x → ∀ g, sedp.KnownUnder g x.1 →
      (sedp.record a).KnownUnder g x.1 := by
    intro eid x hx g hg
    refine hg.record fun hw heq => ?_
    obtain ⟨info, hinfo, htopic⟩ := hg
    by_contra hne
    exact hfree hw info (heq ▸ hinfo) (fun h => hne (h.symm.trans htopic)) eid x hx htopic.symm
  constructor
  · rw [hreaders]
    exact h.registered
  · rw [hreaders]
    exact h.readers_keyed
  · intro g info hinfo
    rw [SedpService.record_eq] at hinfo
    dsimp only at hinfo
    split at hinfo
    · rcases Table.lookup_insert_eq_some.mp hinfo with ⟨rfl, rfl⟩ | ⟨-, hold⟩
      · rfl
      · exact h.writers_keyed g info hold
    · exact h.writers_keyed g info hinfo
  · exact fun eid x hx g hg => hkeep eid x hx g (h.sources eid x hx g hg)
  · intro m hm x hx
    rcases SedpService.mem_matchesAfter_record hm with hm | hm
    · exact hkeep _ x hx _ (h.pending m hm x hx)
    · obtain ⟨hw, hguid, eid, info, hinfo, htopic, heid⟩ :=
        SedpService.mem_matchesOf hm
      obtain ⟨info', hinfo', htopic'⟩ := h.registered _ x hx
      rw [← heid, h.readers_keyed eid info hinfo, hinfo] at hinfo'
      cases hinfo'
      rw [hguid, ← htopic', htopic]
      exact sedp.knownUnder_record hw

/-- A change of the local writers or of the numbering is of no concern. -/
lemma withSedp (h : Isolated profile taken sedp) (localWriters : Table EntityId EndpointInfo)
    (seqCounter : UInt32) : Isolated profile taken { sedp with localWriters, seqCounter } :=
  ⟨h.registered, h.readers_keyed, h.writers_keyed, h.sources, h.pending⟩

/-- A reader takes a match. -/
lemma takeMatch (h : Isolated profile taken sedp) {m : WriterMatch} {ms : List WriterMatch}
    (hpending : sedp.matchesAfter taken = m :: ms) :
    Isolated (Function.update profile m.readerEid ((profile m.readerEid).map
      fun (topic, sources, reliable) => (topic, sources ∪ {m.writerGuid}, reliable)))
      (taken + 1) sedp := by
  -- the topics of the readers stay
  have htopic : ∀ eid x, Function.update profile m.readerEid ((profile m.readerEid).map
      fun (topic, sources, reliable) => (topic, sources ∪ {m.writerGuid}, reliable)) eid = some x →
        ∃ y, profile eid = some y ∧ y.1 = x.1 ∧
          ∀ g ∈ x.2.1, g ∈ y.2.1 ∨ eid = m.readerEid ∧ g = m.writerGuid := by
    intro eid x hx
    rcases Table.update_eq.mp hx with ⟨rfl, hself⟩ | ⟨-, hx⟩
    · obtain ⟨y, hy, rfl⟩ := Option.map_eq_some_iff.mp hself
      refine ⟨y, hy, rfl, fun g hg => ?_⟩
      rcases Finset.mem_union.mp hg with hg | hg
      · exact .inl hg
      · exact .inr ⟨rfl, Finset.mem_singleton.mp hg⟩
    · exact ⟨x, hx, rfl, fun g hg => .inl hg⟩
  constructor
  · intro eid x hx
    obtain ⟨y, hy, hxy, -⟩ := htopic eid x hx
    rw [← hxy]
    exact h.registered eid y hy
  · exact h.readers_keyed
  · exact h.writers_keyed
  · intro eid x hx g hg
    obtain ⟨y, hy, hxy, hsources⟩ := htopic eid x hx
    rw [← hxy]
    rcases hsources g hg with hg | ⟨rfl, rfl⟩
    · exact h.sources eid y hy g hg
    · exact h.pending m (by rw [hpending]; exact List.mem_cons_self) y hy
  · intro m' hm' x hx
    obtain ⟨y, hy, hxy, -⟩ := htopic _ x hx
    rw [← hxy]
    refine h.pending m' ?_ y hy
    rw [SedpService.matchesAfter, ← List.drop_drop] at hm'
    exact List.mem_of_mem_drop hm'

/-- A reader is registered. -/
lemma insertReader (h : Isolated profile taken sedp) {eid : EntityId} {topic : String}
    {reliable : Bool} (hnew : ∀ m ∈ sedp.matchesAfter taken, m.readerEid = eid →
      sedp.KnownUnder m.writerGuid topic) (seqCounter : UInt32) :
    Isolated (Function.update profile eid
        (some (topic, (sedp.matchingWriters topic).toFinset, reliable)))
      taken { sedp.insertReader eid topic with seqCounter } := by
  constructor
  · intro r x hx
    rcases Table.update_eq.mp hx with ⟨rfl, hself⟩ | ⟨hr, hx⟩
    · cases hself
      exact ⟨sedp.localInfo r topic false, AList.lookup_insert .., rfl⟩
    · obtain ⟨info, hinfo, htopic⟩ := h.registered r x hx
      exact ⟨info, (AList.lookup_insert_ne hr).trans hinfo, htopic⟩
  · intro r info hinfo
    rcases Table.lookup_insert_eq_some.mp hinfo with ⟨rfl, rfl⟩ | ⟨-, hold⟩
    · rfl
    · exact h.readers_keyed r info hold
  · exact h.writers_keyed
  · intro r x hx g hg
    rcases Table.update_eq.mp hx with ⟨-, hx⟩ | ⟨-, hx⟩
    · cases hx
      obtain ⟨info, hinfo, rfl⟩ := List.mem_map.mp (List.mem_toFinset.mp hg)
      obtain ⟨hval, htopic⟩ := List.mem_filter.mp hinfo
      obtain ⟨key, hkey⟩ := Table.mem_values_iff.mp hval
      exact ⟨info, by rw [h.writers_keyed key info hkey]; exact hkey, of_decide_eq_true htopic⟩
    · exact h.sources r x hx g hg
  · intro m hm x hx
    rcases Table.update_eq.mp hx with ⟨hr, hx⟩ | ⟨-, hx⟩
    · cases hx
      exact hnew m hm hr
    · exact h.pending m hm x hx

/-- A reader is dropped. -/
lemma unsubscribe (h : Isolated profile taken sedp) (eid : EntityId) :
    Isolated (Function.update profile eid none) taken sedp := by
  have hold : ∀ r x, Function.update profile eid none r = some x → profile r = some x := by
    intro r x hx
    rcases Table.update_eq.mp hx with ⟨-, hx⟩ | ⟨-, hx⟩
    · cases hx
    · exact hx
  exact ⟨fun r x hx => h.registered r x (hold r x hx), h.readers_keyed, h.writers_keyed,
    fun r x hx => h.sources r x (hold r x hx), fun m hm x hx => h.pending m hm x (hold _ x hx)⟩

end Isolated

/-! ## Runs -/

namespace RtpsUdpParticipant

/-- The condition on a step.  A writer leaves a topic only if no reader of the participant is on
that topic; and if a match still to be taken names the entity id of a new reader, then SEDP knows
its writer under the topic of the new reader. -/
def Settled (s : RtpsUdpParticipant) : ParticipantEvent → Prop
  | .sedpPacket data src =>
    Run.Each SedpService.record (MovesFreely s.profile) s.sedp (s.sedp.config.accepted data src)
  | .newSubscriber topic _ _ _ => ∀ m ∈ s.pendingMatches, m.readerEid = s.inner.nextReaderId →
      s.sedp.KnownUnder m.writerGuid topic
  | _ => True

instance (s : RtpsUdpParticipant) (sedp : SedpService) (a : Announcement) :
    Decidable (MovesFreely s.profile sedp a) :=
  decidable_of_iff (a.isWriter = true → ∀ info ∈ sedp.remoteWriters.lookup a.guid,
      info.topicName ≠ a.topicName → ∀ st ∈ s.inner.readers.values, st.topic ≠ info.topicName) <| by
    refine imp_congr_right fun _ => forall_congr' fun info => imp_congr_right fun _ =>
      imp_congr_right fun _ => ?_
    simp only [Table.mem_values_iff, profile_eq_some]
    constructor
    · rintro h eid x ⟨st, hst, rfl⟩
      exact h st ⟨eid, hst⟩
    · rintro h st ⟨eid, hst⟩
      exact h eid _ ⟨st, hst, rfl⟩

instance decidableSettled (s : RtpsUdpParticipant) : ∀ e, Decidable (s.Settled e)
  | .sedpPacket data src => inferInstanceAs (Decidable (Run.Each SedpService.record
      (MovesFreely s.profile) s.sedp (s.sedp.config.accepted data src)))
  | .newSubscriber topic _ _ _ => inferInstanceAs (Decidable (∀ m ∈ s.pendingMatches,
      m.readerEid = s.inner.nextReaderId → s.sedp.KnownUnder m.writerGuid topic))
  | .spdpPacket .. | .sweep .. | .takeMatch | .takePeer | .dataPacket .. | .newPublisher .. |
    .unsubscribe .. | .write .. => inferInstanceAs (Decidable True)

variable {s s' : RtpsUdpParticipant}

lemma isolated_new (cfg : ParticipantConfig) :
    Isolated (new cfg).profile (new cfg).matchesTaken (new cfg).sedp :=
  ⟨fun _ _ h => (by cases h), fun _ _ h => (by cases h), fun _ _ h => (by cases h),
    fun _ _ h => (by cases h), fun _ h => (by cases h)⟩

lemma isolated_of_unmoved (h : Isolated s.profile s.matchesTaken s.sedp) (hs : s.Unmoved s') :
    Isolated s'.profile s'.matchesTaken s'.sedp := by
  obtain ⟨localWriters, seqCounter, hsedp⟩ := hs.sedp_eq
  rw [hs.profile_eq, hs.taken_eq, hsedp]
  exact h.withSedp localWriters seqCounter

/-- **The step.** -/
lemma isolated_step (s : RtpsUdpParticipant) (e : ParticipantEvent)
    (h : Isolated s.profile s.matchesTaken s.sedp) (he : s.Settled e) :
    Isolated (s.step e).profile (s.step e).matchesTaken (s.step e).sedp := by
  have heff := effects_step s e
  cases e with
  | sedpPacket data src =>
    obtain ⟨hsedp, hprofile, htaken⟩ := heff
    rw [hsedp, hprofile, htaken, SedpService.handlePacket_eq]
    exact Run.Each.foldl (fun sedp a hsedp ha => hsedp.record ha) he h
  | takeMatch =>
    rcases heff with heq | ⟨m, ms, hpending, hsedp, htaken, hprofile⟩
    · rw [heq]
      exact h
    · rw [hsedp, htaken, hprofile]
      exact h.takeMatch hpending
  | newSubscriber topic qos opts utc =>
    rcases heff with hs | ⟨htaken, seqCounter, hsedp, hprofile⟩
    · exact isolated_of_unmoved h hs
    · rw [htaken, hsedp, hprofile]
      exact h.insertReader he seqCounter
  | unsubscribe eid =>
    obtain ⟨hsedp, hprofile, htaken⟩ := heff
    rw [hsedp, hprofile, htaken]
    exact h.unsubscribe eid
  | spdpPacket | sweep | takePeer | dataPacket | newPublisher | write =>
    exact isolated_of_unmoved h heff

/-- A reader accepts samples only of writers that SEDP knows under the reader's topic, and a
datagram hands it no others. -/
def TopicsApart (s : RtpsUdpParticipant) : Prop :=
  (∀ eid st, s.inner.readers.lookup eid = some st →
    ∀ g ∈ st.sources, s.sedp.KnownUnder g st.topic) ∧
  ∀ d eid sample accepted,
    Effect.push eid sample accepted ∈ (s.inner.handleDataPacket d).out →
      ∃ st g, s.inner.readers.lookup eid = some st ∧ sample.topic = st.topic ∧
        sample.writerGuid = g.toBytes ∧ s.sedp.KnownUnder g st.topic

/-- A reader accepts a remote writer only if it is one of its sources. -/
lemma mem_sources_of_acceptsSource {st : ReaderState} {ownPrefix : GuidPrefix} {source : Guid}
    (h : st.acceptsSource ownPrefix source = true) (hremote : source.guidPrefix ≠ ownPrefix) :
    source ∈ st.sources := by
  unfold ReaderState.acceptsSource at h
  split at h
  · exact absurd (of_decide_eq_true h) hremote
  · exact of_decide_eq_true h

/-- **Topics stay apart** in every state of a run in which no writer leaves a topic that some
reader is on. -/
theorem topicsApart_of_settled (cfg : ParticipantConfig) (events : List ParticipantEvent)
    (h : Run.Each step Settled (new cfg) events) : (after cfg events).TopicsApart := by
  have hiso := h.foldl (I := fun s => Isolated s.profile s.matchesTaken s.sedp) isolated_step
    (isolated_new cfg)
  have hsources : ∀ eid st, (after cfg events).inner.readers.lookup eid = some st →
      ∀ g ∈ st.sources, (after cfg events).sedp.KnownUnder g st.topic := by
    intro eid st hst g hg
    exact hiso.sources eid _ (profile_eq_some.mpr ⟨st, hst, rfl⟩) g hg
  refine ⟨hsources, fun d eid sample accepted he => ?_⟩
  obtain ⟨sender, hremote, hpush⟩ := (RtpsParticipant.keeps_handleDataPacket _ d).2 _ he
  obtain ⟨st, g, hst, hacc, rfl, hguid, htopic⟩ := hpush eid sample accepted rfl
  exact ⟨st, g, hst, htopic, hguid,
    hsources eid st hst g (mem_sources_of_acceptsSource hacc hremote)⟩

/-! ### Two runs -/

/-- A volatile, best-effort subscriber. -/
def subscribe (topic : String) : ParticipantEvent :=
  .newSubscriber topic ⟨false, false⟩ ⟨0, .dropNewest⟩ 0

/-- The first writer of participant 2. -/
def writer2 : Guid := ⟨(ParticipantConfig.numbered 2).guidPrefix, entityIdForWriter 1⟩

/-- Participant 2 announces its first writer under a topic. -/
def announce (topic : String) : ParticipantEvent :=
  .sedpPacket (endpointMessage (ParticipantConfig.numbered 2).sedp ⟨writer2, topic, true⟩ 1)
    (.v4 (FixedBytes.zero 4) 7410)

/-- A writer moves from a topic without readers to one with a reader, which then accepts it. -/
def movedFreely : List ParticipantEvent := [announce "a", subscribe "b", announce "b", .takeMatch]

theorem topicsApart_of_settled_moved :
    (after (.numbered 1) movedFreely).profile (entityIdForReader 1) =
        some ("b", {writer2}, false) ∧
      (after (.numbered 1) movedFreely).TopicsApart :=
  ⟨by decide +kernel, topicsApart_of_settled (.numbered 1) movedFreely (by decide +kernel)⟩

/-- A writer that a reader accepts moves to another topic. -/
def movedAway : List ParticipantEvent := [subscribe "a", announce "a", .takeMatch, announce "b"]

/-- All matches have been taken, and the reader accepts the writer still. -/
theorem exists_contaminated :
    ¬ ∀ (cfg : ParticipantConfig) (events : List ParticipantEvent),
      (after cfg events).pendingMatches = [] → (after cfg events).TopicsApart := by
  intro h
  obtain ⟨hsources, -⟩ := h (.numbered 1) movedAway (by decide +kernel)
  have hprofile : (after (.numbered 1) movedAway).profile (entityIdForReader 1) =
      some ("a", {writer2}, false) := by decide +kernel
  obtain ⟨st, hst, heq⟩ := profile_eq_some.mp hprofile
  simp only [Prod.mk.injEq] at heq
  have hknown := hsources _ st hst writer2 (by rw [heq.2.1]; exact Finset.mem_singleton_self _)
  rw [heq.1] at hknown
  exact absurd hknown (by decide +kernel)

end RtpsUdpParticipant

end RustDds
