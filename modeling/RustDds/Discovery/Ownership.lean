import Mathlib.Data.List.Induction
import RustDds.Discovery.Endpoints

/-!
# Whose endpoints an announcement changes

An announcement is kept under the GUID it names, which it may choose, while a participant turns
away its own datagrams, and forgets an evicted peer, by the GUID prefix in the header of a
message.

`SedpService.Owned` is the guarantee: a datagram changes only endpoints of its sender, and what
was learned from a participant is gone once that participant is evicted.  It holds of a run just
if its announcements name endpoints of their senders (`owned_iff_claimsSender`), and
`exists_hijacked` is a run in which one does not.
-/

namespace RustDds

/-- Something that happens to a SEDP service. -/
inductive SedpEvent
  /-- A datagram is received. -/
  | packet (data : Bytes) (src : SocketAddr)
  /-- A local writer is created. -/
  | writer (eid : EntityId) (topicName : String) (knownPeers : List ParticipantProxy)
  /-- A local reader is created. -/
  | reader (eid : EntityId) (topicName : String) (knownPeers : List ParticipantProxy)
  /-- SPDP reports a peer. -/
  | newPeer (proxy : ParticipantProxy)
  /-- A peer is evicted. -/
  | evict (guidPrefix : GuidPrefix)
  /-- A match listener registers. -/
  | listen

namespace SedpEvent

/-- The announcements accepted in an event. -/
def accepted (cfg : SedpConfig) : SedpEvent → List Announcement
  | .packet data src => cfg.accepted data src
  | _ => []

/-- The accepted announcements of a datagram name endpoints of their sender. -/
def ClaimsSender (cfg : SedpConfig) (e : SedpEvent) : Prop :=
  ∀ a ∈ e.accepted cfg, a.guid.guidPrefix = a.sender

end SedpEvent

/-! ## Changing only one participant's endpoints -/

/-- `m'` has the entries of `m`, but for those of `sender`. -/
def SameBut {ν : Type*} (sender : GuidPrefix) (m m' : Table Guid ν) : Prop :=
  ∀ g, g.guidPrefix ≠ sender → m'.lookup g = m.lookup g

namespace SameBut

variable {ν : Type*} {sender : GuidPrefix} {m m' m'' : Table Guid ν}

lemma refl (sender : GuidPrefix) (m : Table Guid ν) : SameBut sender m m := fun _ _ => rfl

lemma trans (h : SameBut sender m m') (h' : SameBut sender m' m'') : SameBut sender m m'' :=
  fun g hg => (h' g hg).trans (h g hg)

lemma insert {guid : Guid} (h : guid.guidPrefix = sender) (v : ν) :
    SameBut sender m (m.insert guid v) :=
  fun _ hg => AList.lookup_insert_ne fun heq => hg (heq ▸ h)

lemma ite {c : Prop} [Decidable c] (h : SameBut sender m m') (h' : SameBut sender m m'') :
    SameBut sender m (if c then m' else m'') := by
  split
  · exact h
  · exact h'

end SameBut

namespace SedpService

/-- `s'` differs from `s` only in endpoints of `sender`, and the listener heard of matches with
its writers only. -/
structure Touches (sender : GuidPrefix) (s s' : SedpService) : Prop where
  remoteWriters : SameBut sender s.remoteWriters s'.remoteWriters
  remoteReaders : SameBut sender s.remoteReaders s'.remoteReaders
  remoteReaderLocators : SameBut sender s.remoteReaderLocators s'.remoteReaderLocators
  writerLocators : SameBut sender s.writerLocators s'.writerLocators
  matches_sent : ∃ sent : List WriterMatch,
    s'.matchListener = s.matchListener.map (· ++ sent) ∧
      ∀ m ∈ sent, m.writerGuid.guidPrefix = sender

variable {sender guidPrefix : GuidPrefix} {s s' s'' : SedpService} {a : Announcement}
  {g : Guid}

lemma Touches.refl (sender : GuidPrefix) (s : SedpService) : Touches sender s s where
  remoteWriters := .refl _ _
  remoteReaders := .refl _ _
  remoteReaderLocators := .refl _ _
  writerLocators := .refl _ _
  matches_sent := ⟨[], by cases s.matchListener <;> simp, by simp⟩

lemma Touches.trans (h : Touches sender s s') (h' : Touches sender s' s'') :
    Touches sender s s'' where
  remoteWriters := h.remoteWriters.trans h'.remoteWriters
  remoteReaders := h.remoteReaders.trans h'.remoteReaders
  remoteReaderLocators := h.remoteReaderLocators.trans h'.remoteReaderLocators
  writerLocators := h.writerLocators.trans h'.writerLocators
  matches_sent := by
    obtain ⟨sent, hsent, hall⟩ := h.matches_sent
    obtain ⟨sent', hsent', hall'⟩ := h'.matches_sent
    refine ⟨sent ++ sent', ?_, fun m hm => ?_⟩
    · rw [hsent', hsent, Option.map_map]
      simp only [Function.comp_def, List.append_assoc]
    · exact (List.mem_append.mp hm).elim (hall m) (hall' m)

/-- An announcement of an endpoint of its sender changes only the sender's endpoints. -/
lemma touches_record (h : a.guid.guidPrefix = sender) : Touches sender s (s.record a) := by
  rw [record_eq]
  exact {
    remoteWriters := .ite (.insert h _) (.refl _ _)
    remoteReaders := .ite (.refl _ _) (.insert h _)
    remoteReaderLocators := .ite (.refl _ _) (.insert h _)
    writerLocators := .ite (.refl _ _) (.insert h _)
    matches_sent :=
      ⟨s.matchesOf a, rfl, fun m hm => by rw [(mem_matchesOf hm).2.1, h]⟩ }

/-- **The datagram.**  If its announcements name endpoints of their sender, it changes only the
sender's. -/
lemma touches_handlePacket {data : Bytes} {src : SocketAddr} {header : Header}
    (hheader : Header.decode data = .ok header)
    (hclaims : ∀ a ∈ s.config.accepted data src, a.guid.guidPrefix = a.sender) :
    Touches header.guidPrefix s (s.handlePacket data src) := by
  rw [handlePacket_eq]
  have hsender : ∀ a ∈ s.config.accepted data src, a.guid.guidPrefix = header.guidPrefix := by
    intro a ha
    obtain ⟨-, header', hheader', heq⟩ := SedpConfig.sender_of_mem_accepted ha
    rw [hheader] at hheader'
    cases hheader'
    rw [hclaims a ha, heq]
  clear hclaims
  generalize s.config.accepted data src = as at hsender ⊢
  induction as generalizing s with
  | nil => exact .refl _ _
  | cons a as ih =>
    exact (touches_record (hsender a List.mem_cons_self)).trans
      (ih fun b hb => hsender b (List.mem_cons_of_mem _ hb))

/-! ## What is known of an endpoint -/

/-- Some table has an entry for `g`. -/
def Knows (s : SedpService) (g : Guid) : Prop :=
  g ∈ s.remoteWriters.keys ∨ g ∈ s.remoteReaders.keys ∨ g ∈ s.remoteReaderLocators.keys ∨
    g ∈ s.writerLocators.keys

lemma mem_keys_retain {ν : Type*} {m : Table Guid ν} :
    g ∈ (m.retain fun guid _ => decide (guid.guidPrefix ≠ guidPrefix)).keys ↔
      g ∈ m.keys ∧ g.guidPrefix ≠ guidPrefix := by
  simp only [Table.mem_keys_iff, Table.lookup_retain, Option.filter_eq_some_iff,
    decide_eq_true_eq, exists_and_right]

/-- An eviction forgets the endpoints of the evicted participant, and no other. -/
lemma knows_onPeerEvicted :
    (s.onPeerEvicted guidPrefix).Knows g ↔ s.Knows g ∧ g.guidPrefix ≠ guidPrefix := by
  simp only [Knows, onPeerEvicted, mem_keys_retain]
  tauto

/-- What is announced is known. -/
lemma knows_record_self (s : SedpService) (a : Announcement) : (s.record a).Knows a.guid := by
  rw [record_eq, Knows]
  cases a.isWriter with
  | true => exact .inl (Table.mem_keys_insert.mpr (.inl rfl))
  | false => exact .inr (.inl (Table.mem_keys_insert.mpr (.inl rfl)))

/-- An announcement makes nothing forgotten. -/
lemma Knows.record (h : s.Knows g) (a : Announcement) : (s.record a).Knows g := by
  have hkeep : ∀ {ν : Type} {m : Table Guid ν} {c : Prop} [Decidable c] {v : ν}, g ∈ m.keys →
      g ∈ (if c then m else m.insert a.guid v).keys ∧
        g ∈ (if c then m.insert a.guid v else m).keys := by
    intro ν m c _ v hm
    constructor <;> split <;> first
      | exact hm
      | exact Table.mem_keys_insert.mpr (.inr hm)
  rw [record_eq, Knows]
  rcases h with h | h | h | h
  · exact .inl (hkeep h).2
  · exact .inr (.inl (hkeep h).1)
  · exact .inr (.inr (.inl (hkeep h).1))
  · exact .inr (.inr (.inr (hkeep h).1))

/-- Every endpoint that a datagram announces is known afterwards. -/
lemma knows_handlePacket {data : Bytes} {src : SocketAddr}
    (ha : a ∈ s.config.accepted data src) : (s.handlePacket data src).Knows a.guid := by
  rw [handlePacket_eq]
  generalize s.config.accepted data src = as at ha ⊢
  have hkeeps : ∀ (as : List Announcement) (s : SedpService), s.Knows a.guid →
      (as.foldl SedpService.record s).Knows a.guid := by
    intro as
    induction as with
    | nil => exact fun s h => h
    | cons b as ih => exact fun s h => ih _ (h.record b)
  obtain ⟨before, after, rfl⟩ := List.append_of_mem ha
  rw [List.foldl_append, List.foldl_cons]
  exact hkeeps after _ (knows_record_self _ a)

/-! ## Runs -/

/-- The service after an event. -/
def step (s : SedpService) : SedpEvent → SedpService
  | .packet data src => s.handlePacket data src
  | .writer eid topicName knownPeers => (s.registerWriter eid topicName knownPeers).2
  | .reader eid topicName knownPeers => (s.registerReader eid topicName knownPeers).2.2
  | .newPeer proxy => (s.onNewPeer proxy).2
  | .evict guidPrefix => s.onPeerEvicted guidPrefix
  | .listen => s.setMatchListener

/-- The service after a run of events. -/
def after (cfg : SedpConfig) (events : List SedpEvent) : SedpService :=
  events.foldl step (new cfg)

lemma config_step (s : SedpService) (e : SedpEvent) : (s.step e).config = s.config := by
  cases e with
  | packet data src => exact config_handlePacket s data src
  | newPeer proxy =>
    obtain ⟨n, hn⟩ := onNewPeer_eq s proxy
    rw [step, hn]
  | writer | reader | evict | listen => rfl

lemma config_after (cfg : SedpConfig) (events : List SedpEvent) :
    (after cfg events).config = cfg := by
  induction events using List.reverseRecOn with
  | nil => rfl
  | append_singleton events e ih =>
    rw [after, List.foldl_append, List.foldl_cons, List.foldl_nil, config_step]
    exact ih

/-- Endpoints belong to the participants that announce them: every datagram of the run changes
only endpoints of its sender; and at any time, if the sender of a datagram received so far is
evicted, then no endpoint that the datagram announced is known any more. -/
structure Owned (cfg : SedpConfig) (events : List SedpEvent) : Prop where
  touches : ∀ pre data src post header, events = pre ++ .packet data src :: post →
    Header.decode data = .ok header →
      Touches header.guidPrefix (after cfg pre) ((after cfg pre).handlePacket data src)
  forgets : ∀ pre, pre <+: events → ∀ e ∈ pre, ∀ a ∈ e.accepted cfg,
    ¬ ((after cfg pre).onPeerEvicted a.sender).Knows a.guid

/-- **Who owns an endpoint.**  In a run, endpoints belong to the participants that announce them
just if every accepted announcement names an endpoint of its sender. -/
theorem owned_iff_claimsSender (cfg : SedpConfig) (events : List SedpEvent) :
    Owned cfg events ↔ ∀ e ∈ events, e.ClaimsSender cfg := by
  constructor
  · intro h e he a ha
    obtain ⟨pre, post, rfl⟩ := List.append_of_mem he
    have hgone := h.forgets (pre ++ [e]) ⟨post, by simp⟩ e (by simp) a ha
    rw [knows_onPeerEvicted, not_and_not_right] at hgone
    refine hgone ?_
    rw [after, List.foldl_append, List.foldl_cons, List.foldl_nil]
    cases e with
    | packet data src =>
      refine knows_handlePacket (s := after cfg pre) ?_
      rw [config_after]
      exact ha
    | writer | reader | newPeer | evict | listen => cases ha
  · intro hclaims
    constructor
    · rintro pre data src post header rfl hheader
      refine touches_handlePacket hheader ?_
      rw [config_after]
      exact hclaims (.packet data src) (by simp)
    · intro pre hpre e he a ha hknows
      exact (knows_onPeerEvicted.mp hknows).2 (hclaims e (hpre.subset he) a ha)

/-! ### A hijacked endpoint -/

/-- The configuration of a participant whose prefix is twelve times `n`. -/
def plainConfig (n : UInt8) : SedpConfig where
  guidPrefix := ⟨List.replicate 12 n, GuidPrefix.length_replicate n⟩
  vendorId := vendorIdRustDds
  dataUnicastPort := 7411
  ipv6 := false

/-- A datagram of participant 2 that announces a writer of participant `n`. -/
def foreignWriter (n : UInt8) : SedpEvent :=
  .packet (endpointMessage (plainConfig 2)
    ⟨⟨(plainConfig n).guidPrefix, entityIdForWriter 1⟩, "chassis", true⟩ 1)
    (.v4 (FixedBytes.zero 4) 7410)

/-- Participant 2 announces a writer of participant 3, which outlives the eviction of
participant 2. -/
theorem exists_hijacked : ¬ ∀ (cfg : SedpConfig) (events : List SedpEvent), Owned cfg events := by
  intro h
  have hgone := (h (plainConfig 1) [foreignWriter 3]).forgets _ (List.prefix_refl _) _
    (List.mem_singleton_self _)
  have hbad : ∃ a ∈ (foreignWriter 3).accepted (plainConfig 1),
      a.guid ∈ ((after (plainConfig 1) [foreignWriter 3]).onPeerEvicted
        a.sender).remoteWriters.keys := by
    decide +kernel
  obtain ⟨a, ha, hknown⟩ := hbad
  exact hgone a ha (.inl hknown)

end SedpService

end RustDds
