import Mathlib.Data.List.Induction
import RustDds.Discovery.Endpoints
import RustDds.Lib.Run
import RustDds.Rtps.DdsParticipant

/-!
# What outlives an eviction

A sweep removes a peer whose lease has run out from the table of SPDP.  `onPeerEvicted` would
remove its endpoints from the tables of SEDP, and nothing removes its writers from the sources of
a reader; but no sweep calls it.

So what a participant knows of endpoints grows with every announcement.  After a run, nothing is
known of the endpoints of `p` just if no announcement of the run named one, whether `p` has been
evicted or not (`forgotten_iff`); and `exists_remembered` is a run with an eviction after one has.
-/

namespace RustDds

namespace ParticipantEvent

/-- The endpoint announcements accepted in an event. -/
def accepted (cfg : SedpConfig) : ParticipantEvent → List Announcement
  | .sedpPacket data src => cfg.accepted data src
  | _ => []

/-- The datagram received in an event. -/
def received : ParticipantEvent → Option Bytes
  | .spdpPacket _ data _ => some data
  | .sedpPacket data _ => some data
  | .dataPacket d => some d.data
  | _ => none

/-- A datagram of `guidPrefix` is received, by its header. -/
def IsFrom (guidPrefix : GuidPrefix) (e : ParticipantEvent) : Prop :=
  ∃ data ∈ e.received, ∃ header, Header.decode data = .ok header ∧ header.guidPrefix = guidPrefix

end ParticipantEvent

/-! ## All that is known is of some endpoints -/

/-- All that SEDP knows is of endpoints in `Q`. -/
structure SedpService.Confined (Q : Guid → Prop) (s : SedpService) : Prop where
  writers : ∀ g info, s.remoteWriters.lookup g = some info → info.guid = g ∧ Q g
  readers : ∀ g info, s.remoteReaders.lookup g = some info → info.guid = g ∧ Q g
  locators : ∀ g loc, s.remoteReaderLocators.lookup g = some loc → Q g
  matches_sent : ∀ m ∈ s.matchListener.getD [], Q m.writerGuid

/-- Recording an announcement of an endpoint in `Q`. -/
lemma SedpService.Confined.record {Q : Guid → Prop} {s : SedpService} (h : s.Confined Q)
    {a : Announcement} (ha : Q a.guid) : (s.record a).Confined Q := by
  -- an entry is an old one, or that of the announcement
  have hinsert : ∀ {m : Table Guid EndpointInfo} (g : Guid) (info : EndpointInfo),
      (∀ g info, m.lookup g = some info → info.guid = g ∧ Q g) →
        (m.insert a.guid a.info).lookup g = some info → info.guid = g ∧ Q g := by
    intro m g info hm hinfo
    rcases Table.lookup_insert_eq_some.mp hinfo with ⟨rfl, rfl⟩ | ⟨-, hold⟩
    · exact ⟨rfl, ha⟩
    · exact hm g info hold
  rw [record_eq]
  constructor
  · intro g info hinfo
    dsimp only at hinfo
    split at hinfo
    · exact hinsert g info h.writers hinfo
    · exact h.writers g info hinfo
  · intro g info hinfo
    dsimp only at hinfo
    split at hinfo
    · exact h.readers g info hinfo
    · exact hinsert g info h.readers hinfo
  · intro g loc hloc
    dsimp only at hloc
    split at hloc
    · exact h.locators g loc hloc
    · rcases Table.lookup_insert_eq_some.mp hloc with ⟨rfl, -⟩ | ⟨-, hold⟩
      · exact ha
      · exact h.locators g loc hold
  · intro m hm
    have hsent := h.matches_sent m
    cases hlistener : s.matchListener with
    | none =>
      rw [hlistener] at hm
      cases hm
    | some sent =>
      rw [hlistener] at hm hsent
      rcases List.mem_append.mp hm with hm | hm
      · exact hsent hm
      · rw [(mem_matchesOf hm).2.1]
        exact ha

namespace RtpsUdpParticipant

/-- All SEDP knows, and all that readers accept, is of endpoints in `Q`. -/
structure Confined (Q : Guid → Prop) (s : RtpsUdpParticipant) : Prop where
  sedp : s.sedp.Confined Q
  sources : ∀ eid x, s.profile eid = some x → ∀ g ∈ x.2.1, Q g

variable {Q : Guid → Prop} {s s' : RtpsUdpParticipant}

lemma confined_new (Q : Guid → Prop) (cfg : ParticipantConfig) : Confined Q (new cfg) :=
  ⟨⟨fun _ _ h => (by cases h), fun _ _ h => (by cases h), fun _ _ h => (by cases h),
    fun _ h => (by cases h)⟩, fun _ _ h => (by cases h)⟩

/-- **The step.**  If an event announces endpoints in `Q` only, all that is known stays in
`Q`. -/
lemma Confined.step (h : Confined Q s) (e : ParticipantEvent)
    (he : ∀ a ∈ e.accepted s.sedp.config, Q a.guid) : Confined Q (s.step e) := by
  have heff := effects_step s e
  have hquiet : s.Unmoved (s.step e) → Confined Q (s.step e) := by
    rintro ⟨⟨localWriters, seqCounter, hsedp⟩, hprofile, -⟩
    refine ⟨?_, hprofile ▸ h.sources⟩
    rw [hsedp]
    exact ⟨h.sedp.writers, h.sedp.readers, h.sedp.locators, h.sedp.matches_sent⟩
  cases e with
  | sedpPacket data src =>
    obtain ⟨hsedp, hprofile, -⟩ := heff
    refine ⟨?_, hprofile ▸ h.sources⟩
    rw [hsedp, SedpService.handlePacket_eq]
    exact (Run.each_of_forall (P := fun _ a => Q a.guid) fun a ha _ => he a ha).foldl
      (fun _ _ hs ha => hs.record ha) h.sedp
  | takeMatch =>
    rcases heff with heq | ⟨m, ms, hpending, hsedp, -, hprofile⟩
    · rw [heq]
      exact h
    refine ⟨hsedp ▸ h.sedp, fun eid x hx g hg => ?_⟩
    rw [hprofile] at hx
    rcases Table.update_eq.mp hx with ⟨-, hx⟩ | ⟨-, hx⟩
    · obtain ⟨y, hy, rfl⟩ := Option.map_eq_some_iff.mp hx
      rcases Finset.mem_union.mp hg with hg | hg
      · exact h.sources _ y hy g hg
      · rw [Finset.mem_singleton.mp hg]
        have hmem : m ∈ s.pendingMatches := by
          rw [hpending]
          exact List.mem_cons_self
        exact h.sedp.matches_sent m (List.mem_of_mem_drop hmem)
    · exact h.sources eid x hx g hg
  | newSubscriber topic qos opts utc =>
    rcases heff with hs | ⟨-, seqCounter, hsedp, hprofile⟩
    · exact hquiet hs
    constructor
    · rw [hsedp]
      exact ⟨h.sedp.writers, h.sedp.readers, h.sedp.locators, h.sedp.matches_sent⟩
    · intro eid x hx g hg
      rw [hprofile] at hx
      rcases Table.update_eq.mp hx with ⟨-, hx⟩ | ⟨-, hx⟩
      · cases hx
        obtain ⟨info, hinfo, rfl⟩ := List.mem_map.mp (List.mem_toFinset.mp hg)
        obtain ⟨key, hkey⟩ := Table.mem_values_iff.mp (List.mem_filter.mp hinfo).1
        obtain ⟨rfl, hQ⟩ := h.sedp.writers key info hkey
        exact hQ
      · exact h.sources eid x hx g hg
  | unsubscribe eid =>
    obtain ⟨hsedp, hprofile, -⟩ := heff
    refine ⟨hsedp ▸ h.sedp, fun r x hx g hg => ?_⟩
    rw [hprofile] at hx
    rcases Table.update_eq.mp hx with ⟨-, hx⟩ | ⟨-, hx⟩
    · cases hx
    · exact h.sources r x hx g hg
  | spdpPacket | sweep | takePeer | dataPacket | newPublisher | write => exact hquiet heff

end RtpsUdpParticipant

/-! ## All that is announced is known -/

/-- The endpoint announced is in the table of its kind. -/
def SedpService.Lists (s : SedpService) (a : Announcement) : Prop :=
  if a.isWriter then a.guid ∈ s.remoteWriters.keys else a.guid ∈ s.remoteReaders.keys

namespace SedpService

lemma lists_record_self (s : SedpService) (a : Announcement) : (s.record a).Lists a := by
  rw [Lists, record_eq]
  cases a.isWriter with
  | true => exact Table.mem_keys_insert.mpr (.inl rfl)
  | false => exact Table.mem_keys_insert.mpr (.inl rfl)

lemma Lists.record {s : SedpService} {a : Announcement} (h : s.Lists a) (b : Announcement) :
    (s.record b).Lists a := by
  rw [Lists] at h ⊢
  rw [record_eq]
  dsimp only
  split at h
  · rename_i hw
    rw [if_pos hw]
    split
    · exact Table.mem_keys_insert.mpr (.inr h)
    · exact h
  · rename_i hw
    rw [if_neg hw]
    split
    · exact h
    · exact Table.mem_keys_insert.mpr (.inr h)

lemma Lists.foldl_record {s : SedpService} {a : Announcement} (h : s.Lists a)
    (as : List Announcement) : (as.foldl SedpService.record s).Lists a := by
  induction as generalizing s with
  | nil => exact h
  | cons b as ih => exact ih (h.record b)

lemma lists_foldl_record (s : SedpService) {as : List Announcement} {a : Announcement}
    (ha : a ∈ as) : (as.foldl record s).Lists a := by
  obtain ⟨before, after, rfl⟩ := List.append_of_mem ha
  rw [List.foldl_append, List.foldl_cons]
  exact (lists_record_self _ a).foldl_record after

end SedpService

namespace RtpsUdpParticipant

variable {s : RtpsUdpParticipant}

/-- A step forgets no endpoint, and learns those it announces. -/
lemma lists_step (s : RtpsUdpParticipant) (e : ParticipantEvent) (a : Announcement)
    (h : s.sedp.Lists a ∨ a ∈ e.accepted s.sedp.config) : (s.step e).sedp.Lists a := by
  have heff := effects_step s e
  have hquiet : s.Unmoved (s.step e) → s.sedp.Lists a → (s.step e).sedp.Lists a := by
    rintro ⟨⟨localWriters, seqCounter, hsedp⟩, -, -⟩ h
    rw [hsedp]
    exact h
  cases e with
  | sedpPacket data src =>
    rw [heff.1, SedpService.handlePacket_eq]
    exact h.elim (fun h => h.foldl_record _) (SedpService.lists_foldl_record _)
  | takeMatch =>
    rcases heff with heq | ⟨m, ms, -, hsedp, -⟩
    · rw [heq]
      exact h.resolve_right List.not_mem_nil
    · rw [hsedp]
      exact h.resolve_right List.not_mem_nil
  | newSubscriber topic qos opts utc =>
    rcases heff with hs | ⟨-, seqCounter, hsedp, -⟩
    · exact hquiet hs (h.resolve_right List.not_mem_nil)
    · rw [hsedp]
      exact h.resolve_right List.not_mem_nil
  | unsubscribe eid =>
    rw [heff.1]
    exact h.resolve_right List.not_mem_nil
  | spdpPacket | sweep | takePeer | dataPacket | newPublisher | write =>
    exact hquiet heff (h.resolve_right List.not_mem_nil)

lemma config_step (s : RtpsUdpParticipant) (e : ParticipantEvent) :
    (s.step e).sedp.config = s.sedp.config := by
  have heff := effects_step s e
  have hquiet : s.Unmoved (s.step e) → (s.step e).sedp.config = s.sedp.config := by
    rintro ⟨⟨localWriters, seqCounter, hsedp⟩, -, -⟩
    rw [hsedp]
  cases e with
  | sedpPacket data src => rw [heff.1, SedpService.config_handlePacket]
  | takeMatch =>
    rcases heff with heq | ⟨m, ms, -, hsedp, -⟩
    · rw [heq]
    · rw [hsedp]
  | newSubscriber topic qos opts utc =>
    rcases heff with hs | ⟨-, seqCounter, hsedp, -⟩
    · exact hquiet hs
    · rw [hsedp]
      rfl
  | unsubscribe eid => rw [heff.1]
  | spdpPacket | sweep | takePeer | dataPacket | newPublisher | write => exact hquiet heff

lemma after_append_singleton (cfg : ParticipantConfig) (events : List ParticipantEvent)
    (e : ParticipantEvent) : after cfg (events ++ [e]) = (after cfg events).step e := by
  rw [after, after, List.foldl_append, List.foldl_cons, List.foldl_nil]

lemma config_after (cfg : ParticipantConfig) (events : List ParticipantEvent) :
    (after cfg events).sedp.config = cfg.sedp := by
  induction events using List.reverseRecOn with
  | nil => rfl
  | append_singleton events e ih => rw [after_append_singleton, config_step, ih]

/-! ## Runs -/

/-- The announcements accepted in a run. -/
def heard (cfg : ParticipantConfig) (events : List ParticipantEvent) : List Announcement :=
  events.flatMap (ParticipantEvent.accepted cfg.sedp)

lemma confined_after {cfg : ParticipantConfig} {events : List ParticipantEvent}
    {Q : Guid → Prop} (h : ∀ a ∈ heard cfg events, Q a.guid) :
    Confined Q (after cfg events) := by
  induction events using List.reverseRecOn with
  | nil => exact confined_new Q cfg
  | append_singleton events e ih =>
    rw [heard, List.flatMap_append] at h
    rw [after_append_singleton]
    refine (ih fun a ha => h a (List.mem_append_left _ ha)).step e fun a ha => ?_
    rw [config_after] at ha
    exact h a (List.mem_append_right _ (by simpa using ha))

lemma lists_after {cfg : ParticipantConfig} {events : List ParticipantEvent} {a : Announcement}
    (h : a ∈ heard cfg events) : (after cfg events).sedp.Lists a := by
  induction events using List.reverseRecOn with
  | nil => cases h
  | append_singleton events e ih =>
    rw [heard, List.flatMap_append] at h
    rw [after_append_singleton]
    refine lists_step _ e a ((List.mem_append.mp h).imp ih fun ha => ?_)
    rw [config_after]
    simpa using ha

/-- Nothing is left of the endpoints of `p`: SEDP knows none, sends no sample to one, and no
reader accepts one. -/
structure Forgotten (p : GuidPrefix) (s : RtpsUdpParticipant) : Prop where
  writers : ∀ w ∈ s.sedp.knownRemoteWriters, w.guid.guidPrefix ≠ p
  readers : ∀ r ∈ s.sedp.knownRemoteReaders, r.guid.guidPrefix ≠ p
  locators : ∀ topicName, s.sedp.matchedReaderLocators topicName =
    (s.sedp.onPeerEvicted p).matchedReaderLocators topicName
  sources : ∀ eid st, s.inner.readers.lookup eid = some st → ∀ g ∈ st.sources, g.guidPrefix ≠ p

/-- A sweep of the run evicted the peer `p`, and no datagram of `p` has been received since. -/
def EvictedSince (cfg : ParticipantConfig) (p : GuidPrefix) (events : List ParticipantEvent) :
    Prop :=
  ∃ pre now post, events = pre ++ .sweep now :: post ∧
    p ∈ (after cfg pre).spdp.peers.keys ∧
    p ∉ ((after cfg pre).step (.sweep now)).spdp.peers.keys ∧
    ∀ e ∈ post, ¬ e.IsFrom p

/-- Nothing is left of the endpoints of `p` just if none was announced. -/
lemma forgotten_iff (cfg : ParticipantConfig) (p : GuidPrefix) (events : List ParticipantEvent) :
    Forgotten p (after cfg events) ↔ ∀ a ∈ heard cfg events, a.guid.guidPrefix ≠ p := by
  constructor
  · intro h a ha
    have hall : Confined (fun _ => True) (after cfg events) := confined_after fun _ _ => trivial
    have hlists := lists_after ha
    rw [SedpService.Lists] at hlists
    split at hlists
    · obtain ⟨info, hinfo⟩ := Table.mem_keys_iff.mp hlists
      rw [← (hall.sedp.writers _ info hinfo).1]
      exact h.writers info (Table.mem_values_iff.mpr ⟨_, hinfo⟩)
    · obtain ⟨info, hinfo⟩ := Table.mem_keys_iff.mp hlists
      rw [← (hall.sedp.readers _ info hinfo).1]
      exact h.readers info (Table.mem_values_iff.mpr ⟨_, hinfo⟩)
  · intro h
    have hconf := confined_after (Q := fun g => g.guidPrefix ≠ p) h
    have hsame : ∀ {ν : Type} {m : Table Guid ν},
        (∀ g v, m.lookup g = some v → g.guidPrefix ≠ p) →
          m.retain (fun guid _ => decide (guid.guidPrefix ≠ p)) = m := fun hm =>
      Table.retain_eq_self fun g v hv => decide_eq_true (hm g v hv)
    constructor
    · intro w hw
      obtain ⟨g, hg⟩ := Table.mem_values_iff.mp hw
      obtain ⟨rfl, hne⟩ := hconf.sedp.writers g w hg
      exact hne
    · intro r hr
      obtain ⟨g, hg⟩ := Table.mem_values_iff.mp hr
      obtain ⟨rfl, hne⟩ := hconf.sedp.readers g r hg
      exact hne
    · intro topicName
      simp only [SedpService.matchedReaderLocators, SedpService.onPeerEvicted]
      rw [hsame fun g v hv => (hconf.sedp.readers g v hv).2, hsame hconf.sedp.locators]
    · intro eid st hst g hg
      exact hconf.sources eid _ (profile_eq_some.mpr ⟨st, hst, rfl⟩) g hg

/-- **Eviction.**  When a peer has been evicted, nothing is left of its endpoints just if no
announcement of the run named one. -/
theorem forgotten_of_evictedSince_iff (cfg : ParticipantConfig) (p : GuidPrefix)
    (events : List ParticipantEvent) :
    (EvictedSince cfg p events → Forgotten p (after cfg events)) ↔
      (EvictedSince cfg p events → ∀ a ∈ heard cfg events, a.guid.guidPrefix ≠ p) :=
  imp_congr_right fun _ => forgotten_iff cfg p events

/-! ### A peer that is evicted and remembered -/

/-- Participant 2 announces itself and a writer, and is not heard of for eleven seconds. -/
def lostPeer : List ParticipantEvent :=
  let cfg := ParticipantConfig.numbered 2
  let src := SocketAddr.v4 (FixedBytes.zero 4) 7410
  [.spdpPacket 0 (announcementMessage cfg.guidPrefix vendorIdRustDds 1
      (buildParticipantData cfg.spdp)) src,
    .sedpPacket (endpointMessage cfg.sedp
      ⟨⟨cfg.guidPrefix, entityIdForWriter 1⟩, "chassis", true⟩ 1) src,
    .sweep 11000000000]

/-- The participant is evicted, and its writer is known still. -/
theorem exists_remembered :
    ¬ ∀ (cfg : ParticipantConfig) (p : GuidPrefix) (events : List ParticipantEvent),
      EvictedSince cfg p events → Forgotten p (after cfg events) := by
  intro h
  have hevicted : EvictedSince (.numbered 1) (ParticipantConfig.numbered 2).guidPrefix lostPeer :=
    ⟨lostPeer.take 2, 11000000000, [], rfl, by decide +kernel, by decide +kernel, by simp⟩
  have hwriters := (h _ _ _ hevicted).writers
  exact absurd hwriters (by decide +kernel)

end RtpsUdpParticipant

end RustDds
