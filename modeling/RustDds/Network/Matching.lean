import RustDds.Discovery.TopicIsolation

/-!
# A reader meets every writer of its topic

Of the remote writers that SEDP knows, a reader accepts every one of its own topic, or is still to
be told of it (`Joined`).  A writer that turns up after the reader is reported by a match; those
known before are there from the start.  Nothing makes a reader lose a writer, so this holds after
any run, whatever is received (`RtpsUdpParticipant.joined_after`), and once the bridge has taken
all matches, no writer of a topic is missing from any reader of it.

`Isolated` is the converse, that a reader accepts no writers but these; it fails when writers move
to other topics, and this does not.
-/

namespace RustDds

/-- Every writer known under the topic of a reader is a source of the reader, or there is a match
to be taken.  The readers are registered with SEDP under their topics. -/
structure Joined (profile : Profile) (taken : ℕ) (sedp : SedpService) : Prop where
  registered : ∀ eid x, profile eid = some x →
    ∃ info, sedp.localReaders.lookup eid = some info ∧ info.topicName = x.1
  readers_keyed : ∀ eid info, sedp.localReaders.lookup eid = some info → info.guid.entity = eid
  writers_keyed : ∀ g info, sedp.remoteWriters.lookup g = some info → info.guid = g
  listener : ∃ sent, sedp.matchListener = some sent ∧ taken ≤ sent.length
  joined : ∀ eid x, profile eid = some x → ∀ g, sedp.KnownUnder g x.1 →
    g ∈ x.2.1 ∨ ⟨eid, g⟩ ∈ sedp.matchesAfter taken

namespace Joined

variable {profile : Profile} {taken : ℕ} {sedp : SedpService}

/-- The matches of an announcement follow those that are still to be taken. -/
lemma matchesAfter_record (h : Joined profile taken sedp) (a : Announcement) :
    (sedp.record a).matchesAfter taken = sedp.matchesAfter taken ++ sedp.matchesOf a := by
  obtain ⟨sent, hsent, hle⟩ := h.listener
  rw [SedpService.matchesAfter, SedpService.matchesAfter, SedpService.record_eq, hsent]
  exact List.drop_append_of_le_length hle

/-- A writer known after an announcement was known before, or is the one announced. -/
lemma knownUnder_of_record {a : Announcement} {g : Guid} {topic : String}
    (h : (sedp.record a).KnownUnder g topic) :
    sedp.KnownUnder g topic ∨ a.isWriter = true ∧ g = a.guid ∧ topic = a.topicName := by
  obtain ⟨info, hinfo, htopic⟩ := h
  rw [SedpService.record_eq] at hinfo
  dsimp only at hinfo
  split at hinfo
  · rename_i hw
    rcases Table.lookup_insert_eq_some.mp hinfo with ⟨hg, rfl⟩ | ⟨-, hold⟩
    · exact .inr ⟨hw, hg, htopic.symm⟩
    · exact .inl ⟨info, hold, htopic⟩
  · exact .inl ⟨info, hinfo, htopic⟩

/-- **The announcement.**  A reader of the topic announced is matched. -/
lemma record (h : Joined profile taken sedp) (a : Announcement) :
    Joined profile taken (sedp.record a) := by
  have hreaders : (sedp.record a).localReaders = sedp.localReaders := by
    rw [SedpService.record_eq]
  refine ⟨?_, ?_, ?_, ?_, fun eid x hx g hg => ?_⟩
  · rw [hreaders]
    exact h.registered
  · rw [hreaders]
    exact h.readers_keyed
  · intro g info hinfo
    rw [SedpService.record_eq] at hinfo
    dsimp only at hinfo
    split at hinfo
    · rcases Table.lookup_insert_eq_some.mp hinfo with ⟨rfl, rfl⟩ | ⟨-, hold⟩
      · rfl
      · exact h.writers_keyed g info hold
    · exact h.writers_keyed g info hinfo
  · obtain ⟨sent, hsent, hle⟩ := h.listener
    refine ⟨sent ++ sedp.matchesOf a, ?_, ?_⟩
    · rw [SedpService.record_eq, hsent]
      rfl
    · rw [List.length_append]
      omega
  · rw [h.matchesAfter_record, List.mem_append]
    rcases knownUnder_of_record hg with hold | ⟨hw, rfl, htopic⟩
    · exact (h.joined eid x hx g hold).imp_right .inl
    · -- the reader is among those the announcement matches
      obtain ⟨info, hinfo, hreader⟩ := h.registered eid x hx
      refine .inr (.inr ?_)
      rw [SedpService.matchesOf, if_pos hw]
      refine List.mem_map.mpr ⟨eid, List.mem_map.mpr ⟨info, List.mem_filter.mpr ⟨?_, ?_⟩,
        h.readers_keyed eid info hinfo⟩, rfl⟩
      · exact Table.mem_values_iff.mpr ⟨eid, hinfo⟩
      · exact decide_eq_true (hreader.trans htopic)

/-- A change of the local writers or of the numbering is of no concern. -/
lemma withSedp (h : Joined profile taken sedp) (localWriters : Table EntityId EndpointInfo)
    (seqCounter : UInt32) : Joined profile taken { sedp with localWriters, seqCounter } :=
  ⟨h.registered, h.readers_keyed, h.writers_keyed, h.listener, h.joined⟩

/-- A reader takes a match. -/
lemma takeMatch (h : Joined profile taken sedp) {m : WriterMatch} {ms : List WriterMatch}
    (hpending : sedp.matchesAfter taken = m :: ms) :
    Joined (Function.update profile m.readerEid ((profile m.readerEid).map
      fun (topic, sources, reliable) => (topic, sources ∪ {m.writerGuid}, reliable)))
      (taken + 1) sedp := by
  -- the topics of the readers stay, and so do their sources
  have hold : ∀ eid x, Function.update profile m.readerEid ((profile m.readerEid).map
      fun (topic, sources, reliable) => (topic, sources ∪ {m.writerGuid}, reliable)) eid = some x →
        ∃ y, profile eid = some y ∧ y.1 = x.1 ∧ y.2.1 ⊆ x.2.1 ∧
          (eid = m.readerEid → m.writerGuid ∈ x.2.1) := by
    intro eid x hx
    rcases Table.update_eq.mp hx with ⟨rfl, hself⟩ | ⟨hne, hx⟩
    · obtain ⟨y, hy, rfl⟩ := Option.map_eq_some_iff.mp hself
      exact ⟨y, hy, rfl, Finset.subset_union_left,
        fun _ => Finset.mem_union_right _ (Finset.mem_singleton_self _)⟩
    · exact ⟨x, hx, rfl, subset_rfl, fun heq => absurd heq hne⟩
  have hms : sedp.matchesAfter (taken + 1) = ms := by
    rw [SedpService.matchesAfter, ← List.drop_drop]
    show (sedp.matchesAfter taken).drop 1 = ms
    rw [hpending]
    rfl
  refine ⟨fun eid x hx => ?_, h.readers_keyed, h.writers_keyed, ?_, fun eid x hx g hg => ?_⟩
  · obtain ⟨y, hy, hxy, -⟩ := hold eid x hx
    rw [← hxy]
    exact h.registered eid y hy
  · obtain ⟨sent, hsent, -⟩ := h.listener
    rw [SedpService.matchesAfter, hsent, Option.getD_some] at hpending
    have hlen := congrArg List.length hpending
    rw [List.length_drop, List.length_cons] at hlen
    exact ⟨sent, hsent, by omega⟩
  · obtain ⟨y, hy, hxy, hsources, hself⟩ := hold eid x hx
    rw [← hxy] at hg
    rcases h.joined eid y hy g hg with hmem | hmem
    · exact .inl (hsources hmem)
    rw [hpending] at hmem
    rcases List.mem_cons.mp hmem with heq | hmem
    · cases heq
      exact .inl (hself rfl)
    · exact .inr (hms ▸ hmem)

/-- A reader is registered, with the writers known of its topic. -/
lemma insertReader (h : Joined profile taken sedp) (eid : EntityId) (topic : String)
    (reliable : Bool) (seqCounter : UInt32) :
    Joined (Function.update profile eid
        (some (topic, (sedp.matchingWriters topic).toFinset, reliable)))
      taken { sedp.insertReader eid topic with seqCounter } := by
  refine ⟨fun r x hx => ?_, fun r info hinfo => ?_, h.writers_keyed, h.listener,
    fun r x hx g hg => ?_⟩
  · rcases Table.update_eq.mp hx with ⟨rfl, hself⟩ | ⟨hr, hx⟩
    · cases hself
      exact ⟨sedp.localInfo r topic false, AList.lookup_insert .., rfl⟩
    · obtain ⟨info, hinfo, htopic⟩ := h.registered r x hx
      exact ⟨info, (AList.lookup_insert_ne hr).trans hinfo, htopic⟩
  · rcases Table.lookup_insert_eq_some.mp hinfo with ⟨rfl, rfl⟩ | ⟨-, hold⟩
    · rfl
    · exact h.readers_keyed r info hold
  · rcases Table.update_eq.mp hx with ⟨-, hself⟩ | ⟨-, hx⟩
    · cases hself
      obtain ⟨info, hinfo, htopic⟩ := hg
      refine .inl (List.mem_toFinset.mpr (List.mem_map.mpr ⟨info, List.mem_filter.mpr ⟨?_, ?_⟩,
        h.writers_keyed g info hinfo⟩))
      · exact Table.mem_values_iff.mpr ⟨g, hinfo⟩
      · exact decide_eq_true htopic
    · exact h.joined r x hx g hg

/-- A reader is dropped. -/
lemma unsubscribe (h : Joined profile taken sedp) (eid : EntityId) :
    Joined (Function.update profile eid none) taken sedp := by
  have hold : ∀ r x, Function.update profile eid none r = some x → profile r = some x := by
    intro r x hx
    rcases Table.update_eq.mp hx with ⟨-, hx⟩ | ⟨-, hx⟩
    · cases hx
    · exact hx
  exact ⟨fun r x hx => h.registered r x (hold r x hx), h.readers_keyed, h.writers_keyed,
    h.listener, fun r x hx => h.joined r x (hold r x hx)⟩

end Joined

/-! ## Runs -/

namespace RtpsUdpParticipant

variable {s s' : RtpsUdpParticipant}

/-- Its readers have met the writers, or are to be told of them. -/
abbrev HasJoined (s : RtpsUdpParticipant) : Prop := Joined s.profile s.matchesTaken s.sedp

lemma joined_new (cfg : ParticipantConfig) : HasJoined (new cfg) :=
  ⟨fun _ _ h => (by cases h), fun _ _ h => (by cases h), fun _ _ h => (by cases h),
    ⟨[], rfl, Nat.le_refl _⟩, fun _ _ h => (by cases h)⟩

lemma joined_of_unmoved (h : HasJoined s) (hs : s.Unmoved s') : HasJoined s' := by
  obtain ⟨localWriters, seqCounter, hsedp⟩ := hs.sedp_eq
  rw [HasJoined, hs.profile_eq, hs.taken_eq, hsedp]
  exact h.withSedp localWriters seqCounter

/-- **The step.** -/
lemma joined_step (h : HasJoined s) (e : ParticipantEvent) : HasJoined (s.step e) := by
  have heff := effects_step s e
  rw [HasJoined]
  cases e with
  | sedpPacket data src =>
    obtain ⟨hsedp, hprofile, htaken⟩ := heff
    rw [hsedp, hprofile, htaken, SedpService.handlePacket_eq]
    exact (Run.each_of_forall fun _ _ _ => trivial).foldl (P := fun _ _ => True)
      (fun _ a hsedp _ => hsedp.record a) h
  | takeMatch =>
    rcases heff with heq | ⟨m, ms, hpending, hsedp, htaken, hprofile⟩
    · rw [heq]
      exact h
    · rw [hsedp, htaken, hprofile]
      exact h.takeMatch hpending
  | newSubscriber topic qos opts utc =>
    rcases heff with hs | ⟨htaken, seqCounter, hsedp, hprofile⟩
    · exact joined_of_unmoved h hs
    · rw [htaken, hsedp, hprofile]
      exact h.insertReader _ topic qos.reliable seqCounter
  | unsubscribe eid =>
    obtain ⟨hsedp, hprofile, htaken⟩ := heff
    rw [hsedp, hprofile, htaken]
    exact h.unsubscribe eid
  | spdpPacket | sweep | takePeer | dataPacket | newPublisher | write =>
    exact joined_of_unmoved h heff

lemma joined_after (cfg : ParticipantConfig) (events : List ParticipantEvent) :
    HasJoined (after cfg events) :=
  (Run.each_of_forall fun _ _ _ => trivial).foldl (P := fun _ _ => True) (I := HasJoined)
    (fun _ e h _ => joined_step h e) (joined_new cfg)

/-- **No writer is missing**, in any state in which all matches have been taken: a reader accepts
every writer that SEDP knows under the topic of the reader. -/
lemma HasJoined.mem_sources (h : HasJoined s) (hdone : s.pendingMatches = []) {eid : EntityId}
    {st : ReaderState} (hst : s.inner.readers.lookup eid = some st) {g : Guid}
    (hg : s.sedp.KnownUnder g st.topic) : g ∈ st.sources := by
  have hpending : s.sedp.matchesAfter s.matchesTaken = [] := hdone
  rcases h.joined eid _ (profile_eq_some.mpr ⟨st, hst, rfl⟩) g hg with hmem | hmem
  · exact hmem
  · rw [hpending] at hmem
    cases hmem

end RtpsUdpParticipant

end RustDds
