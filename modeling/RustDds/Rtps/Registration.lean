import RustDds.Rtps.Arrival

/-!
# Registering writers and readers

A participant numbers its writers and readers from one counter, puts them into its tables and
has SEDP announce them.  A new reader starts with the remote writers that SEDP already knows of
its topic; `addSource` adds those SEDP reports later.  A transient-local reader is handed the
last sample of its topic, from the cache or from the file of the topic.
-/

namespace RustDds

/-- What a subscriber asks for.  A depth of zero means the default. -/
structure SubscriberOptions where
  channelDepth : ℕ
  backPressure : BackPressurePolicy
  deriving DecidableEq

/-- The depth of the queue. -/
def SubscriberOptions.chanDepth (opts : SubscriberOptions) (defaultDepth : ℕ) : ℕ :=
  if opts.channelDepth > 0 then opts.channelDepth else defaultDepth

/-- A reader of a topic that has heard of no writer yet. -/
def ReaderState.new (topic : String) (opts : SubscriberOptions) (reliable : Bool) : ReaderState :=
  ⟨topic, ∅, .new (opts.chanDepth 64) opts.backPressure, reliable, ∅⟩

/-- A writer of a topic that has written nothing yet. -/
def WriterState.new (topic : String) (reliable : Bool) : WriterState :=
  ⟨topic, 0, reliable, if reliable then some .new else none, 0⟩

namespace RtpsParticipant

/-- A participant without endpoints. -/
def new (guidPrefix : GuidPrefix) (vendorId : VendorId) (sedp : SedpService)
    (persistDir : Option String) : RtpsParticipant where
  guidPrefix
  vendorId
  sedp
  entityCounter := 0
  readers := ∅
  writers := ∅
  fragAssembler := ∅
  delivers := 0
  drops := 0
  lastSample := ∅
  persistDir
  userDataMulticastAddr := none
  topicMetrics := ∅

/-- Go on with the next entity number.  The counter itself wraps. -/
def nextEntityNum (k : UInt32 → Cmd RtpsParticipant Effect Panic) :
    Cmd RtpsParticipant Effect Panic := fun p =>
  let p' := { p with entityCounter := p.entityCounter + 1 }
  match checkedAdd 32 p.entityCounter.toNat 1 with
  | .error e => Cmd.fail e p'
  | .ok n => k (UInt32.ofNat n) p'

/-- The datagrams of an announcement. -/
def announcements (sent : List (Bytes × SocketAddr)) : List Effect :=
  sent.map fun (msg, addr) => .send msg addr

/-! ## Writers -/

/-- Register a writer. -/
def newWriterImpl (topic : String) (reliable : Bool) (knownPeers : List ParticipantProxy) :
    Cmd RtpsParticipant Effect Panic :=
  nextEntityNum fun n p =>
    let eid := entityIdForWriter n
    let (sent, sedp) := p.sedp.registerWriter eid topic knownPeers
    ⟨{ p with sedp, writers := p.writers.insert eid (.new topic reliable) },
      announcements sent, none⟩

/-! ## Readers -/

/-- Push a sample to a reader's queue. -/
def pushTo (eid : EntityId) (sample : Sample) : Cmd RtpsParticipant Effect Panic := fun p =>
  match p.readers.lookup eid with
  | none => Cmd.skip p
  | some st =>
    let (accepted, inner) := st.inner.push sample
    ⟨{ p with readers := p.readers.insert eid { st with inner } },
      [.push eid sample accepted], none⟩

/-- Hand a new transient-local reader the last sample of its topic.  `persisted` is what
`persist_load` finds in the file of the topic. -/
def deliverTransientLocal (eid : EntityId) (topic : String) (persisted : Option Bytes) (utc : ℤ) :
    Cmd RtpsParticipant Effect Panic := fun p =>
  match p.lastSample.lookup topic with
  | some sample => pushTo eid sample p
  | none =>
    match p.persistDir, persisted with
    | some _, some payload =>
      let sample : Sample := ⟨topic, payload, utc, 0, FixedBytes.zero 16⟩
      pushTo eid sample { p with lastSample := p.lastSample.insert topic sample }
    | _, _ => Cmd.skip p

/-- Add remote writers to those a reader accepts. -/
def addSources (eid : EntityId) (guids : List Guid) (p : RtpsParticipant) : RtpsParticipant :=
  { p with readers :=
      p.readers.adjust eid fun st => { st with sources := st.sources ∪ guids.toFinset } }

/-- Put a reader into the tables of the participant and of SEDP. -/
def registerReader (eid : EntityId) (topic : String) (opts : SubscriberOptions) (reliable : Bool)
    (knownPeers : List ParticipantProxy) : Cmd RtpsParticipant Effect Panic := fun p =>
  let (matched, sent, sedp) := p.sedp.registerReader eid topic knownPeers
  ⟨addSources eid matched
      { p with sedp, readers := p.readers.insert eid (.new topic opts reliable) },
    announcements sent, none⟩

/-- Register a reader. -/
def newReaderImpl (topic : String) (opts : SubscriberOptions) (reliable transientLocal : Bool)
    (knownPeers : List ParticipantProxy) (persisted : Option Bytes) (utc : ℤ) :
    Cmd RtpsParticipant Effect Panic :=
  nextEntityNum fun n =>
    let eid := entityIdForReader n
    (registerReader eid topic opts reliable knownPeers).andThen
      (if transientLocal then deliverTransientLocal eid topic persisted utc else Cmd.skip)

/-- Remove a reader. -/
def removeReader (eid : EntityId) (p : RtpsParticipant) : RtpsParticipant :=
  { p with readers := p.readers.erase eid }

/-- The reader that SEDP reports a match of accepts the writer from now on. -/
def applyMatch (m : WriterMatch) (p : RtpsParticipant) : RtpsParticipant :=
  addSources m.readerEid [m.writerGuid] p

/-! ## What registration changes -/

variable {p : RtpsParticipant} {eid : EntityId}

lemma profile_of_insert {p p' : RtpsParticipant} {eid : EntityId} {st : ReaderState}
    (h : p'.readers = p.readers.insert eid st) :
    p'.profile = Function.update p.profile eid (some (st.topic, st.sources, st.reliable)) := by
  funext r
  simp only [profile, h]
  by_cases hr : r = eid
  · rw [hr, AList.lookup_insert, Function.update_self]
    rfl
  · rw [AList.lookup_insert_ne hr, Function.update_of_ne hr]
    rfl

lemma profile_addSources (eid : EntityId) (guids : List Guid) (p : RtpsParticipant) :
    (addSources eid guids p).profile = Function.update p.profile eid
      ((p.profile eid).map fun (topic, sources, reliable) =>
        (topic, sources ∪ guids.toFinset, reliable)) := by
  funext r
  simp only [profile, addSources]
  by_cases hr : r = eid
  · rw [hr, Table.lookup_adjust_self, Function.update_self, Option.map_map, Option.map_map]
    rfl
  · rw [Table.lookup_adjust_of_ne hr, Function.update_of_ne hr]
    rfl

lemma profile_removeReader (eid : EntityId) (p : RtpsParticipant) :
    (removeReader eid p).profile = Function.update p.profile eid none := by
  funext r
  simp only [profile, removeReader]
  by_cases hr : r = eid
  · rw [hr, AList.lookup_erase, Function.update_self]
    rfl
  · rw [AList.lookup_erase_ne hr, Function.update_of_ne hr]
    rfl

lemma steady_pushTo (eid : EntityId) (sample : Sample) (p : RtpsParticipant) :
    Steady p (pushTo eid sample p).state := by
  unfold pushTo
  split
  · exact Steady.refl p
  rename_i st hst
  refine ⟨rfl, rfl, rfl, ?_⟩
  dsimp only
  rw [profile_of_insert rfl, Function.update_eq_self_iff, profile, hst]
  rfl

lemma steady_deliverTransientLocal (eid : EntityId) (topic : String) (persisted : Option Bytes)
    (utc : ℤ) (p : RtpsParticipant) :
    Steady p (deliverTransientLocal eid topic persisted utc p).state := by
  unfold deliverTransientLocal
  split
  · exact steady_pushTo ..
  split
  · refine Steady.trans ?_ (steady_pushTo ..)
    exact ⟨rfl, rfl, rfl, rfl⟩
  · exact Steady.refl p

/-- The entity id of the next reader. -/
def nextReaderId (p : RtpsParticipant) : EntityId := entityIdForReader (p.entityCounter + 1)

lemma ofNat_succ_toNat (n : UInt32) : UInt32.ofNat (n.toNat + 1) = n + 1 := by
  rw [UInt32.ofNat_add, UInt32.ofNat_toNat]
  rfl

/-- There is a number left to draw. -/
def CanNumber (p : RtpsParticipant) : Prop := p.entityCounter.toNat + 1 < 2 ^ 32

lemma nextEntityNum_of_canNumber (k : UInt32 → Cmd RtpsParticipant Effect Panic)
    (h : p.CanNumber) : nextEntityNum k p =
      k (p.entityCounter + 1) { p with entityCounter := p.entityCounter + 1 } := by
  rw [nextEntityNum, checkedAdd_of_lt h]
  dsimp only
  rw [ofNat_succ_toNat]

lemma nextEntityNum_of_not_canNumber (k : UInt32 → Cmd RtpsParticipant Effect Panic)
    (h : ¬ p.CanNumber) : nextEntityNum k p =
      Cmd.fail .overflow { p with entityCounter := p.entityCounter + 1 } := by
  rw [nextEntityNum, checkedAdd_of_le (not_lt.mp h)]

lemma nextEntityNum_cases (k : UInt32 → Cmd RtpsParticipant Effect Panic) (p : RtpsParticipant) :
    Steady p (nextEntityNum k p).state ∨
      nextEntityNum k p =
        k (p.entityCounter + 1) { p with entityCounter := p.entityCounter + 1 } := by
  by_cases h : p.CanNumber
  · exact .inr (nextEntityNum_of_canNumber k h)
  · rw [nextEntityNum_of_not_canNumber k h]
    exact .inl ⟨rfl, rfl, rfl, rfl⟩

/-- A new writer changes only SEDP, which announces it. -/
lemma newWriterImpl_cases (topic : String) (reliable : Bool)
    (knownPeers : List ParticipantProxy) (p : RtpsParticipant) :
    let o := newWriterImpl topic reliable knownPeers p
    Steady p o.state ∨ o.state.guidPrefix = p.guidPrefix ∧ o.state.profile = p.profile ∧
      ∃ eid, o.state.sedp = (p.sedp.registerWriter eid topic knownPeers).2 := by
  intro o
  have hcases : Steady p o.state ∨ o = _ := nextEntityNum_cases _ p
  rcases hcases with h | h
  · exact .inl h
  · rw [h]
    exact .inr ⟨rfl, rfl, _, rfl⟩

/-- A new reader has the next entity id, and accepts the writers SEDP knows of its topic. -/
lemma newReaderImpl_cases (topic : String) (opts : SubscriberOptions)
    (reliable transientLocal : Bool) (knownPeers : List ParticipantProxy)
    (persisted : Option Bytes) (utc : ℤ) (p : RtpsParticipant) :
    let o := newReaderImpl topic opts reliable transientLocal knownPeers persisted utc p
    let registered := p.sedp.registerReader p.nextReaderId topic knownPeers
    Steady p o.state ∨ o.state.guidPrefix = p.guidPrefix ∧ o.state.sedp = registered.2.2 ∧
      o.state.profile = Function.update p.profile p.nextReaderId
        (some (topic, registered.1.toFinset, reliable)) := by
  intro o registered
  have hcases : Steady p o.state ∨ o = _ := nextEntityNum_cases _ p
  rcases hcases with h | h
  · exact .inl h
  refine .inr ?_
  -- registering, and then the last sample, which changes no profile
  set q : RtpsParticipant := { p with entityCounter := p.entityCounter + 1 } with hq
  have hsteady : Steady (registerReader p.nextReaderId topic opts reliable knownPeers q).state
      o.state := by
    rw [h, Cmd.andThen_of_none rfl]
    dsimp only
    split
    · exact steady_deliverTransientLocal ..
    · exact Steady.refl _
  refine ⟨hsteady.guidPrefix_eq, hsteady.sedp_eq, hsteady.profile_eq.trans ?_⟩
  dsimp only [registerReader]
  rw [profile_addSources, profile_of_insert (p := p) rfl, Function.update_self, Option.map_some,
    Function.update_idem]
  simp only [ReaderState.new, Finset.empty_union]
  rfl

end RtpsParticipant

end RustDds
