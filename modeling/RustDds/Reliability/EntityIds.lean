import RustDds.Lib.Run
import RustDds.Reliability.Sending
import RustDds.Rtps.DdsParticipant

/-!
# Whether entity ids are unique

A participant draws a number of 32 bits for each endpoint it makes, and 24 of them reach the entity
id.  So an id comes up again 2 ^ 24 endpoints later, and whatever is kept under it is replaced.

An `EndpointLog` is a participant together with what its callers know of it: the endpoints they
made and have not removed, each under its own place among all that were made, and the samples
their writers published.  `EndpointLog.Tracks` ties the two in any run, and `Distinct` is what the
ids are for.
-/

namespace RustDds

/-! ## Numbers and ids -/

inductive EndpointKind
  | writer
  | reader
  deriving DecidableEq, Repr

/-- The entity id of the `n`-th endpoint, if it is of this kind. -/
def EndpointKind.entityId : EndpointKind → UInt32 → EntityId
  | .writer => entityIdForWriter
  | .reader => entityIdForReader

/-- Three bytes of a number are the number modulo `2 ^ 24`. -/
lemma lowBytes_inj (m n : UInt32) :
    ((m >>> 16).toUInt8 = (n >>> 16).toUInt8 ∧ (m >>> 8).toUInt8 = (n >>> 8).toUInt8 ∧
      m.toUInt8 = n.toUInt8) ↔ m.toNat % 2 ^ 24 = n.toNat % 2 ^ 24 := by
  have hbyte : ∀ m k : UInt32, k.toNat < 32 →
      (m >>> k).toUInt8.toNat = m.toNat / 2 ^ k.toNat % 256 := by
    intro m k hk
    rw [UInt32.toNat_toUInt8, UInt32.toNat_shiftRight, Nat.shiftRight_eq_div_pow,
      Nat.mod_eq_of_lt hk]
  rw [← UInt8.toNat_inj, ← UInt8.toNat_inj, ← UInt8.toNat_inj, hbyte m 16 (by decide),
    hbyte n 16 (by decide), hbyte m 8 (by decide), hbyte n 8 (by decide), UInt32.toNat_toUInt8,
    UInt32.toNat_toUInt8, show (16 : UInt32).toNat = 16 from rfl,
    show (8 : UInt32).toNat = 8 from rfl]
  omega

/-- An id says the kind, and the number modulo `2 ^ 24`. -/
lemma EndpointKind.entityId_inj {k k' : EndpointKind} {m n : UInt32} :
    k.entityId m = k'.entityId n ↔ k = k' ∧ m.toNat % 2 ^ 24 = n.toNat % 2 ^ 24 := by
  rw [← lowBytes_inj]
  cases k <;> cases k' <;>
    simp [EndpointKind.entityId, entityIdForWriter, entityIdForReader, FixedBytes.mk.injEq]

/-! ## The endpoints of a participant -/

namespace RtpsParticipant

/-- An endpoint of this kind is registered under this id. -/
def Has (p : RtpsParticipant) : EndpointKind → EntityId → Prop
  | .writer, eid => eid ∈ p.writers
  | .reader, eid => eid ∈ p.readers

/-- The entity id of the next endpoint. -/
def nextId (p : RtpsParticipant) (k : EndpointKind) : EntityId := k.entityId (p.entityCounter + 1)

/-- `q` has the endpoints of `p`, and draws the numbers that `p` draws. -/
structure SameEndpoints (p q : RtpsParticipant) : Prop where
  guidPrefix_eq : q.guidPrefix = p.guidPrefix
  counter_eq : q.entityCounter = p.entityCounter
  has_iff : ∀ k eid, q.Has k eid ↔ p.Has k eid

/-- `q` has the writers of `p`, and draws the numbers that `p` draws. -/
structure SameWriters (p q : RtpsParticipant) : Prop where
  counter_eq : q.entityCounter = p.entityCounter
  writers_iff : ∀ eid, eid ∈ q.writers ↔ eid ∈ p.writers

variable {p q : RtpsParticipant} {w : RtpsWriter} {utc : ℤ} {payload : Bytes}

lemma mem_readers_iff {eid : EntityId} : eid ∈ p.readers ↔ (p.profile eid).isSome := by
  rw [profile, Option.isSome_map, AList.lookup_isSome]

/-- The readers are those of the profile. -/
lemma SameWriters.sameEndpoints (h : SameWriters p q) (hsteady : Steady p q) :
    SameEndpoints p q where
  guidPrefix_eq := hsteady.guidPrefix_eq
  counter_eq := h.counter_eq
  has_iff k eid := by
    cases k with
    | writer => exact h.writers_iff eid
    | reader =>
      show eid ∈ q.readers ↔ eid ∈ p.readers
      rw [mem_readers_iff, mem_readers_iff, hsteady.profile_eq]

lemma SameWriters.refl (p : RtpsParticipant) : SameWriters p p := ⟨rfl, fun _ => Iff.rfl⟩

lemma SameWriters.trans (h : SameWriters p q) {q' : RtpsParticipant} (h' : SameWriters q q') :
    SameWriters p q' where
  counter_eq := h'.counter_eq.trans h.counter_eq
  writers_iff eid := (h'.writers_iff eid).trans (h.writers_iff eid)

lemma SameWriters.of_readersOnly (h : SameWriters p q) {q' : RtpsParticipant}
    (hq' : ReadersOnly q q') : SameWriters p q' := by
  obtain ⟨_, _, _, _, rfl⟩ := hq'
  exact ⟨h.counter_eq, h.writers_iff⟩

lemma sameWriters_receiveInvariant (p : RtpsParticipant) : ReceiveInvariant (SameWriters p) where
  of_readersOnly h hq' := h.of_readersOnly hq'
  of_assembler _ h := ⟨h.counter_eq, h.writers_iff⟩
  of_acked _ _ h := h.trans ⟨rfl, fun _ => Table.mem_adjust⟩

lemma sameEndpoints_handleDataPacket (d : Datagram) (p : RtpsParticipant) :
    SameEndpoints p (handleDataPacket d p).state :=
  ((sameWriters_receiveInvariant p).keeps_handleDataPacket p (.refl p)).1.sameEndpoints
    (keeps_handleDataPacket p d).1

lemma keeps_sendHeartbeat_sameWriters (eid : EntityId) :
    Cmd.Keeps (SameWriters p) (fun _ => True) (sendHeartbeat eid) := by
  intro q h
  unfold sendHeartbeat
  split
  · exact Cmd.keeps_skip q h
  split
  · exact Cmd.keeps_skip q h
  split
  · exact Cmd.keeps_skip q h
  · exact ⟨h.trans ⟨rfl, fun _ => Table.mem_adjust⟩, fun _ _ => trivial⟩

lemma sameEndpoints_sendHeartbeat (eid : EntityId) (p : RtpsParticipant) :
    SameEndpoints p (sendHeartbeat eid p).state :=
  (keeps_sendHeartbeat_sameWriters eid p (.refl p)).1.sameEndpoints
    (keeps_sendHeartbeat p (.refl p)).1

lemma sameEndpoints_write (w : RtpsWriter) (utc : ℤ) (payload : Bytes) (p : RtpsParticipant) :
    SameEndpoints p (w.write utc payload p).state := by
  refine SameWriters.sameEndpoints ?_ (steady_write w utc payload p)
  have hpublish : ∀ {reliable : Bool} {seq : ℕ} {msgs : List Bytes} {q : RtpsParticipant},
      SameWriters p q → SameWriters p (w.publish utc reliable seq payload msgs q).state := by
    intro reliable seq msgs q hq
    refine (Cmd.Keeps.andThen (O := fun _ => True) (Cmd.keeps_modify fun q hq => ?_)
      ((Cmd.keeps_emit fun _ _ => trivial).andThen (Cmd.Keeps.andThen (fun q hq => ?_)
        ((Cmd.keeps_emit fun _ _ => trivial).andThen ?_))) q hq).1
    · exact hq.trans ⟨rfl, fun _ => Table.mem_adjust⟩
    · exact ⟨hq.of_readersOnly (readersOnly_dispatchToReaders .write), fun _ _ => trivial⟩
    · split
      · exact keeps_sendHeartbeat_sameWriters w.eid
      · exact Cmd.keeps_skip
  unfold RtpsWriter.write
  split
  · exact .refl p
  dsimp only
  split
  · exact ⟨rfl, fun _ => Table.mem_adjust⟩
  split
  · exact ⟨rfl, fun _ => Table.mem_adjust⟩
  · exact hpublish ⟨rfl, fun _ => Table.mem_adjust⟩

lemma sameEndpoints_applyMatch (m : WriterMatch) (p : RtpsParticipant) :
    SameEndpoints p (p.applyMatch m) where
  guidPrefix_eq := rfl
  counter_eq := rfl
  has_iff k eid := by
    cases k with
    | writer => exact Iff.rfl
    | reader => exact Table.mem_adjust

/-! ### What a write publishes -/

lemma dispatches_publish {reliable : Bool} {seq : ℕ} {msgs : List Bytes} :
    dispatches (w.publish utc reliable seq payload msgs p).out =
      [⟨.write, ⟨p.guidPrefix, w.eid⟩, payload, seq⟩] := by
  have hsends : ∀ q : RtpsParticipant,
      dispatches ((if reliable then sendHeartbeat w.eid else Cmd.skip) q).out = [] := by
    intro q
    cases reliable with
    | false => rfl
    | true =>
      refine dispatches_of_sends fun e he => ?_
      obtain ⟨-, -, -, -, -, dst, -, -, -, rfl⟩ := out_sendHeartbeat he
      exact ⟨_, dst, rfl⟩
  have hremote : ∀ q : RtpsParticipant, dispatches (RtpsWriter.sendRemote q w.topic msgs) = [] := by
    intro q
    refine dispatches_of_sends fun e he => ?_
    rw [RtpsWriter.sendRemote] at he
    split at he
    · cases he
    split at he
    · obtain ⟨msg, -, rfl⟩ := List.mem_map.mp he
      exact ⟨msg, _, rfl⟩
    · obtain ⟨locator, -, he⟩ := List.mem_flatMap.mp he
      split at he
      · obtain ⟨msg, -, rfl⟩ := List.mem_map.mp he
        exact ⟨msg, _, rfl⟩
      · cases he
  rw [RtpsWriter.publish, Cmd.andThen_of_none rfl, Cmd.andThen_of_none rfl,
    Cmd.andThen_of_none panic_dispatchToReaders, Cmd.andThen_of_none rfl]
  dsimp only [Cmd.modify_apply, Cmd.emit_apply]
  rw [List.nil_append, dispatches_append, dispatches_append, dispatches_append,
    dispatches_dispatchToReaders, hsends, hremote]
  cases p.persistDir <;> rfl

/-- A write publishes at most one sample, as the next one of its writer. -/
lemma dispatches_write (w : RtpsWriter) (utc : ℤ) (payload : Bytes) (p : RtpsParticipant) :
    dispatches (w.write utc payload p).out = [] ∨
    ∃ st, p.writers.lookup w.eid = some st ∧ dispatches (w.write utc payload p).out =
      [⟨.write, ⟨p.guidPrefix, w.eid⟩, payload, st.seq + 1⟩] := by
  unfold RtpsWriter.write
  split
  · exact .inl rfl
  rename_i st hst
  dsimp only
  split
  · exact .inl rfl
  rename_i seq hseq
  split
  · exact .inl rfl
  obtain ⟨-, rfl⟩ := checkedAdd_eq_ok.mp hseq
  exact .inr ⟨st, hst, dispatches_publish⟩

/-! ### Making an endpoint -/

/-- A new writer is in the table under the next id, and in the place of whatever was there. -/
lemma newWriterImpl_of_canNumber (h : p.CanNumber) (topic : String) (reliable : Bool)
    (knownPeers : List ParticipantProxy) :
    let o := newWriterImpl topic reliable knownPeers p
    o.panic = none ∧ o.state.guidPrefix = p.guidPrefix ∧
      o.state.entityCounter = p.entityCounter + 1 ∧ o.state.readers = p.readers ∧
        o.state.writers = p.writers.insert (p.nextId .writer) (.new topic reliable) := by
  intro o
  have ho : o = _ := nextEntityNum_of_canNumber _ h
  rw [ho]
  exact ⟨rfl, rfl, rfl, rfl, rfl⟩

lemma pushTo_frame (eid : EntityId) (sample : Sample) (p : RtpsParticipant) :
    (pushTo eid sample p).panic = none ∧
      (pushTo eid sample p).state.entityCounter = p.entityCounter ∧
        (pushTo eid sample p).state.writers = p.writers := by
  unfold pushTo
  split <;> exact ⟨rfl, rfl, rfl⟩

lemma deliverTransientLocal_frame (eid : EntityId) (topic : String) (persisted : Option Bytes)
    (utc : ℤ) (p : RtpsParticipant) :
    (deliverTransientLocal eid topic persisted utc p).panic = none ∧
      (deliverTransientLocal eid topic persisted utc p).state.entityCounter = p.entityCounter ∧
        (deliverTransientLocal eid topic persisted utc p).state.writers = p.writers := by
  unfold deliverTransientLocal
  split
  · exact pushTo_frame ..
  split
  · exact pushTo_frame ..
  · exact ⟨rfl, rfl, rfl⟩

/-- So is a new reader. -/
lemma newReaderImpl_of_canNumber (h : p.CanNumber) (topic : String) (opts : SubscriberOptions)
    (reliable transientLocal : Bool) (knownPeers : List ParticipantProxy)
    (persisted : Option Bytes) (utc : ℤ) :
    let o := newReaderImpl topic opts reliable transientLocal knownPeers persisted utc p
    o.panic = none ∧ o.state.guidPrefix = p.guidPrefix ∧
      o.state.entityCounter = p.entityCounter + 1 ∧ o.state.writers = p.writers ∧
        ∀ eid, eid ∈ o.state.readers ↔ eid = p.nextId .reader ∨ eid ∈ p.readers := by
  intro o
  let q : RtpsParticipant :=
    (registerReader (p.nextId .reader) topic opts reliable knownPeers
      { p with entityCounter := p.entityCounter + 1 }).state
  let last : Cmd RtpsParticipant Effect Panic :=
    if transientLocal then deliverTransientLocal (p.nextId .reader) topic persisted utc
    else Cmd.skip
  have hlast : (last q).panic = none ∧ (last q).state.entityCounter = q.entityCounter ∧
      (last q).state.writers = q.writers ∧ Steady q (last q).state := by
    dsimp only [last]
    split
    · obtain ⟨hpanic, hcounter, hwriters⟩ := deliverTransientLocal_frame (p.nextId .reader) topic
        persisted utc q
      exact ⟨hpanic, hcounter, hwriters, steady_deliverTransientLocal ..⟩
    · exact ⟨rfl, rfl, rfl, .refl q⟩
  have ho : o = ⟨(last q).state, _ ++ (last q).out, (last q).panic⟩ :=
    (nextEntityNum_of_canNumber _ h).trans (Cmd.andThen_of_none rfl)
  obtain ⟨hpanic, hcounter, hwriters, hsteady⟩ := hlast
  rw [ho]
  refine ⟨hpanic, hsteady.guidPrefix_eq, hcounter, hwriters, fun eid => ?_⟩
  dsimp only
  rw [mem_readers_iff, hsteady.profile_eq, ← mem_readers_iff]
  show eid ∈ Table.adjust _ _ (p.readers.insert _ _) ↔ _
  rw [Table.mem_adjust, AList.mem_insert]

end RtpsParticipant

/-! ## Runs -/

/-- An endpoint that was made. -/
structure Endpoint where
  kind : EndpointKind
  eid : EntityId
  topic : String
  deriving DecidableEq

/-- A call of the application or of a task on the participant. -/
inductive EndpointCall
  | newWriter (topic : String) (reliable : Bool) (knownPeers : List ParticipantProxy)
  | newReader (topic : String) (opts : SubscriberOptions) (reliable transientLocal : Bool)
      (knownPeers : List ParticipantProxy) (persisted : Option Bytes) (utc : ℤ)
  | unsubscribe (eid : EntityId)
  /-- A write with the handle of the `n`-th endpoint. -/
  | write (n : ℕ) (utc : ℤ) (payload : Bytes)
  | sendHeartbeat (eid : EntityId)
  | handleDataPacket (d : Datagram)
  | applyMatch (m : WriterMatch)
  /-- Whatever SEDP does on its own. -/
  | sedp (sedp : SedpService)
  | setUserDataMulticastAddr (dst : SocketAddr)

/-- The kind of endpoint the call makes. -/
def EndpointCall.makes : EndpointCall → Option EndpointKind
  | .newWriter .. => some .writer
  | .newReader .. => some .reader
  | _ => none

/-- A participant and what its callers know of it. -/
structure EndpointLog where
  participant : RtpsParticipant
  /-- How many numbers were drawn. -/
  drawn : ℕ
  /-- The endpoints made and not removed, each under the number that was drawn for it. -/
  registered : Table ℕ Endpoint
  /-- The samples published: by which endpoint, and under which name. -/
  published : List (ℕ × Guid × ℕ)

namespace EndpointLog

/-- A participant without endpoints. -/
def new (guidPrefix : GuidPrefix) (vendorId : VendorId) (sedp : SedpService)
    (persistDir : Option String) : EndpointLog :=
  ⟨.new guidPrefix vendorId sedp persistDir, 0, ∅, []⟩

/-- An endpoint is made, if the call returns. -/
def make (log : EndpointLog) (k : EndpointKind) (topic : String)
    (o : Outcome RtpsParticipant Effect Panic) : EndpointLog :=
  { log with
    participant := o.state
    drawn := log.drawn + 1
    registered :=
      match o.panic with
      | some _ => log.registered
      | none => log.registered.insert (log.drawn + 1) ⟨k, log.participant.nextId k, topic⟩ }

/-- One call. -/
def step (log : EndpointLog) : EndpointCall → EndpointLog
  | .newWriter topic reliable knownPeers =>
    log.make .writer topic
      (RtpsParticipant.newWriterImpl topic reliable knownPeers log.participant)
  | .newReader topic opts reliable transientLocal knownPeers persisted utc =>
    log.make .reader topic (RtpsParticipant.newReaderImpl topic opts reliable transientLocal
      knownPeers persisted utc log.participant)
  | .unsubscribe eid =>
    { log with
      participant := log.participant.removeReader eid
      registered := log.registered.retain fun _ e => !(e.kind = .reader && e.eid = eid) }
  | .write n utc payload =>
    match log.registered.lookup n with
    | some ⟨.writer, eid, topic⟩ =>
      let o := (RtpsWriter.mk eid topic).write utc payload log.participant
      { log with
        participant := o.state
        published := log.published ++ (dispatches o.out).map fun x => (n, x.source, x.seqNum) }
    | _ => log
  | .sendHeartbeat eid =>
    { log with participant := (RtpsParticipant.sendHeartbeat eid log.participant).state }
  | .handleDataPacket d =>
    { log with participant := (RtpsParticipant.handleDataPacket d log.participant).state }
  | .applyMatch m => { log with participant := log.participant.applyMatch m }
  | .sedp sedp => { log with participant := { log.participant with sedp } }
  | .setUserDataMulticastAddr dst =>
    { log with participant := { log.participant with userDataMulticastAddr := some dst } }

/-- The calls, one at a time. -/
def run (log : EndpointLog) (calls : List EndpointCall) : EndpointLog := calls.foldl step log

/-- What a call can do, by the kind of endpoint it makes. -/
inductive Moves (log : EndpointLog) : Option EndpointKind → EndpointLog → Prop
  /-- It makes an endpoint, under the next number. -/
  | made (k : EndpointKind) (topic : String) (p' : RtpsParticipant)
      (hcan : log.participant.CanNumber)
      (howner : p'.guidPrefix = log.participant.guidPrefix)
      (hcounter : p'.entityCounter = log.participant.entityCounter + 1)
      (hhas : ∀ k' eid, p'.Has k' eid ↔
        (k' = k ∧ eid = log.participant.nextId k) ∨ log.participant.Has k' eid) :
      Moves log (some k) { log with
        participant := p'
        drawn := log.drawn + 1
        registered :=
          log.registered.insert (log.drawn + 1) ⟨k, log.participant.nextId k, topic⟩ }
  /-- No number is left for the endpoint. -/
  | spent (k : EndpointKind) (hcan : ¬ log.participant.CanNumber) :
      Moves log (some k) { log with
        participant :=
          { log.participant with entityCounter := log.participant.entityCounter + 1 }
        drawn := log.drawn + 1 }
  /-- It removes the readers of an id. -/
  | removed (eid : EntityId) :
      Moves log none { log with
        participant := log.participant.removeReader eid
        registered := log.registered.retain fun _ e => !(e.kind = .reader && e.eid = eid) }
  /-- It leaves the endpoints, and may publish samples of writers. -/
  | kept (p' : RtpsParticipant) (samples : List (ℕ × Guid × ℕ))
      (hsame : RtpsParticipant.SameEndpoints log.participant p')
      (hsamples : ∀ x ∈ samples, ∃ eid topic,
        log.registered.lookup x.1 = some ⟨.writer, eid, topic⟩ ∧
          x.2.1 = ⟨log.participant.guidPrefix, eid⟩) :
      Moves log none { log with participant := p', published := log.published ++ samples }

/-- Making an endpoint either makes one or fails for want of a number. -/
lemma moves_make (log : EndpointLog) (k : EndpointKind) (topic : String)
    {o : Outcome RtpsParticipant Effect Panic}
    (hmade : log.participant.CanNumber → o.panic = none ∧
      o.state.guidPrefix = log.participant.guidPrefix ∧
        o.state.entityCounter = log.participant.entityCounter + 1 ∧
          ∀ k' eid, o.state.Has k' eid ↔
            (k' = k ∧ eid = log.participant.nextId k) ∨ log.participant.Has k' eid)
    (hspent : ¬ log.participant.CanNumber → o = Cmd.fail .overflow
      { log.participant with entityCounter := log.participant.entityCounter + 1 }) :
    Moves log (some k) (log.make k topic o) := by
  by_cases hcan : log.participant.CanNumber
  · obtain ⟨hpanic, howner, hcounter, hhas⟩ := hmade hcan
    rw [make, hpanic]
    exact .made k topic o.state hcan howner hcounter hhas
  · rw [hspent hcan]
    exact .spent k hcan

/-- A call that leaves the endpoints and publishes nothing. -/
lemma moves_kept (log : EndpointLog) {p' : RtpsParticipant}
    (hsame : RtpsParticipant.SameEndpoints log.participant p') :
    Moves log none { log with participant := p' } := by
  have hmoves := Moves.kept p' [] hsame (by simp)
  rwa [List.append_nil] at hmoves

/-- **The step.** -/
lemma moves_step (log : EndpointLog) (c : EndpointCall) : Moves log c.makes (log.step c) := by
  cases c with
  | newWriter topic reliable knownPeers =>
    refine moves_make log .writer topic (fun hcan => ?_) fun hcan => ?_
    · obtain ⟨hpanic, howner, hcounter, hreaders, hwriters⟩ :=
        RtpsParticipant.newWriterImpl_of_canNumber hcan topic reliable knownPeers
      refine ⟨hpanic, howner, hcounter, fun k' eid => ?_⟩
      cases k' with
      | writer =>
        rw [RtpsParticipant.Has, hwriters, AList.mem_insert]
        simp [RtpsParticipant.Has]
      | reader =>
        rw [RtpsParticipant.Has, hreaders]
        simp [RtpsParticipant.Has]
    · exact RtpsParticipant.nextEntityNum_of_not_canNumber _ hcan
  | newReader topic opts reliable transientLocal knownPeers persisted utc =>
    refine moves_make log .reader topic (fun hcan => ?_) fun hcan => ?_
    · obtain ⟨hpanic, howner, hcounter, hwriters, hreaders⟩ :=
        RtpsParticipant.newReaderImpl_of_canNumber hcan topic opts reliable transientLocal
          knownPeers persisted utc
      refine ⟨hpanic, howner, hcounter, fun k' eid => ?_⟩
      cases k' with
      | writer =>
        rw [RtpsParticipant.Has, hwriters]
        simp [RtpsParticipant.Has]
      | reader =>
        rw [RtpsParticipant.Has, hreaders]
        simp [RtpsParticipant.Has]
    · exact RtpsParticipant.nextEntityNum_of_not_canNumber _ hcan
  | unsubscribe eid => exact .removed eid
  | write n utc payload =>
    rw [step]
    split
    · rename_i eid topic hlookup
      refine .kept _ _ (RtpsParticipant.sameEndpoints_write _ utc payload _) fun x hx => ?_
      obtain ⟨sample, hsample, rfl⟩ := List.mem_map.mp hx
      refine ⟨eid, topic, hlookup, ?_⟩
      rcases RtpsParticipant.dispatches_write ⟨eid, topic⟩ utc payload log.participant with
        hnone | ⟨st, -, hone⟩
      · rw [hnone] at hsample
        cases hsample
      · rw [hone, List.mem_singleton] at hsample
        rw [hsample]
    · exact moves_kept log ⟨rfl, rfl, fun _ _ => Iff.rfl⟩
  | sendHeartbeat eid => exact moves_kept log (RtpsParticipant.sameEndpoints_sendHeartbeat ..)
  | handleDataPacket d => exact moves_kept log (RtpsParticipant.sameEndpoints_handleDataPacket ..)
  | applyMatch m => exact moves_kept log (RtpsParticipant.sameEndpoints_applyMatch ..)
  | sedp sedp => exact moves_kept log ⟨rfl, rfl, fun k _ => by cases k <;> exact Iff.rfl⟩
  | setUserDataMulticastAddr dst =>
    exact moves_kept log ⟨rfl, rfl, fun k _ => by cases k <;> exact Iff.rfl⟩

/-! ### What holds in any run -/

/-- The callers and the participant agree on what is registered, whether or not ids are shared. -/
structure Tracks (log : EndpointLog) : Prop where
  counter_eq : log.participant.entityCounter = UInt32.ofNat log.drawn
  born : ∀ n e, log.registered.lookup n = some e →
    0 < n ∧ n ≤ log.drawn ∧ e.eid = e.kind.entityId (UInt32.ofNat n)
  has_iff : ∀ k eid, log.participant.Has k eid ↔
    ∃ n topic, log.registered.lookup n = some ⟨k, eid, topic⟩
  published : ∀ x ∈ log.published, ∃ eid topic,
    log.registered.lookup x.1 = some ⟨.writer, eid, topic⟩ ∧
      x.2.1 = ⟨log.participant.guidPrefix, eid⟩

variable {log log' : EndpointLog} {c : EndpointCall}

lemma tracks_new (guidPrefix : GuidPrefix) (vendorId : VendorId) (sedp : SedpService)
    (persistDir : Option String) : Tracks (new guidPrefix vendorId sedp persistDir) where
  counter_eq := rfl
  born := by
    intro n e he
    cases he
  has_iff k eid := by
    constructor
    · intro h
      cases k <;> exact absurd h (AList.notMem_empty _)
    · rintro ⟨n, topic, h⟩
      cases h
  published := by
    intro x hx
    cases hx

lemma Tracks.nextId_eq (h : log.Tracks) (k : EndpointKind) :
    log.participant.nextId k = k.entityId (UInt32.ofNat (log.drawn + 1)) := by
  rw [RtpsParticipant.nextId, h.counter_eq, UInt32.ofNat_add]
  rfl

lemma lookup_insert_of_le {e : Endpoint} {n : ℕ} (hn : n ≤ log.drawn) :
    (log.registered.insert (log.drawn + 1) e).lookup n = log.registered.lookup n :=
  AList.lookup_insert_ne (by omega)

lemma Tracks.move {k : Option EndpointKind} (h : log.Tracks) (hmove : Moves log k log') :
    log'.Tracks := by
  cases hmove with
  | made k topic p' hcan howner hcounter hhas =>
    refine ⟨?_, fun n e he => ?_, fun k' eid => ?_, fun x hx => ?_⟩
    · show p'.entityCounter = _
      rw [hcounter, h.counter_eq, UInt32.ofNat_add]
      rfl
    · rcases Table.lookup_insert_eq_some.mp he with ⟨rfl, rfl⟩ | ⟨-, hold⟩
      · exact ⟨Nat.succ_pos _, le_rfl, h.nextId_eq k⟩
      · obtain ⟨hpos, hle, heid⟩ := h.born n e hold
        exact ⟨hpos, hle.trans (Nat.le_succ _), heid⟩
    · show p'.Has k' eid ↔ _
      rw [hhas, h.has_iff]
      constructor
      · rintro (⟨rfl, rfl⟩ | ⟨n, topic', hn⟩)
        · exact ⟨log.drawn + 1, topic, AList.lookup_insert ..⟩
        · exact ⟨n, topic', (lookup_insert_of_le (h.born n _ hn).2.1).trans hn⟩
      · rintro ⟨n, topic', hn⟩
        rcases Table.lookup_insert_eq_some.mp hn with ⟨-, heq⟩ | ⟨-, hold⟩
        · cases heq
          exact .inl ⟨rfl, rfl⟩
        · exact .inr ⟨n, topic', hold⟩
    · obtain ⟨eid, topic', hlookup, hguid⟩ := h.published x hx
      refine ⟨eid, topic', (lookup_insert_of_le (h.born _ _ hlookup).2.1).trans hlookup, ?_⟩
      show x.2.1 = ⟨p'.guidPrefix, eid⟩
      rw [hguid, howner]
  | spent k hcan =>
    refine ⟨?_, fun n e he => ?_, fun k' eid => ?_, h.published⟩
    · show log.participant.entityCounter + 1 = _
      rw [h.counter_eq, UInt32.ofNat_add]
      rfl
    · obtain ⟨hpos, hle, heid⟩ := h.born n e he
      exact ⟨hpos, hle.trans (Nat.le_succ _), heid⟩
    · rw [← h.has_iff]
      cases k' <;> exact Iff.rfl
  | removed eid =>
    have hlookup : ∀ n e, (log.registered.retain fun _ e =>
        !(e.kind = .reader && e.eid = eid)).lookup n = some e ↔
          log.registered.lookup n = some e ∧ ¬ (e.kind = .reader ∧ e.eid = eid) := by
      intro n e
      rw [Table.lookup_retain, Option.filter_eq_some_iff]
      simp [imp_iff_not_or]
    refine ⟨h.counter_eq, fun n e he => h.born n e ((hlookup n e).mp he).1, fun k eid' => ?_,
      fun x hx => ?_⟩
    · have hhas : (log.participant.removeReader eid).Has k eid' ↔
          log.participant.Has k eid' ∧ ¬ (k = .reader ∧ eid' = eid) := by
        cases k with
        | writer => simp [RtpsParticipant.Has, RtpsParticipant.removeReader]
        | reader =>
          rw [RtpsParticipant.Has, RtpsParticipant.removeReader, AList.mem_erase]
          simp [RtpsParticipant.Has, and_comm]
      show (log.participant.removeReader eid).Has k eid' ↔ _
      rw [hhas, h.has_iff]
      simp only [hlookup]
      constructor
      · rintro ⟨⟨n, topic, hn⟩, hne⟩
        exact ⟨n, topic, hn, hne⟩
      · rintro ⟨n, topic, hn, hne⟩
        exact ⟨⟨n, topic, hn⟩, hne⟩
    · obtain ⟨eid', topic, hx', hguid⟩ := h.published x hx
      exact ⟨eid', topic, (hlookup _ _).mpr ⟨hx', by simp⟩, hguid⟩
  | kept p' samples hsame hsamples =>
    refine ⟨hsame.counter_eq.trans h.counter_eq, h.born, fun k eid => ?_, fun x hx => ?_⟩
    · exact (hsame.has_iff k eid).trans (h.has_iff k eid)
    · show ∃ eid topic, _ ∧ x.2.1 = ⟨p'.guidPrefix, eid⟩
      rw [hsame.guidPrefix_eq]
      rcases List.mem_append.mp hx with hx | hx
      · exact h.published x hx
      · exact hsamples x hx

lemma Tracks.step (h : log.Tracks) (c : EndpointCall) : (log.step c).Tracks :=
  h.move (moves_step log c)

/-! ### Distinct ids -/

/-- No two endpoints that are registered have one id, and no two writers have published under one
name. -/
structure Distinct (log : EndpointLog) : Prop where
  ids : ∀ n n' e e', log.registered.lookup n = some e → log.registered.lookup n' = some e' →
    e.eid = e'.eid → n = n'
  names : ∀ x ∈ log.published, ∀ y ∈ log.published, x.2 = y.2 → x.1 = y.1

/-- The call puts no endpoint in the place of another. -/
def ReplacesNone (log : EndpointLog) (c : EndpointCall) : Prop :=
  ∀ k, c.makes = some k → log.participant.CanNumber →
    ¬ log.participant.Has k (log.participant.nextId k)

/-- The call makes no endpoint a multiple of `2 ^ 24` endpoints after one of its kind that is
still registered. -/
def MakesApart (log : EndpointLog) (c : EndpointCall) : Prop :=
  ∀ k, c.makes = some k → log.participant.CanNumber →
    ∀ n e, log.registered.lookup n = some e → e.kind = k → ¬ 2 ^ 24 ∣ log.drawn + 1 - n

/-- Two ids of a kind are the same if their numbers are a multiple of `2 ^ 24` apart. -/
lemma Tracks.eid_eq_nextId_iff (h : log.Tracks) {n : ℕ} {e : Endpoint}
    (he : log.registered.lookup n = some e) {k : EndpointKind} :
    e.eid = log.participant.nextId k ↔ e.kind = k ∧ 2 ^ 24 ∣ log.drawn + 1 - n := by
  obtain ⟨-, hle, heid⟩ := h.born n e he
  rw [heid, h.nextId_eq, EndpointKind.entityId_inj, UInt32.toNat_ofNat', UInt32.toNat_ofNat']
  refine and_congr_right fun _ => ?_
  omega

lemma Tracks.makesApart_iff (h : log.Tracks) : log.MakesApart c ↔ log.ReplacesNone c := by
  refine forall_congr' fun k => forall_congr' fun _ => forall_congr' fun _ => ?_
  rw [h.has_iff]
  constructor
  · rintro hapart ⟨n, topic, hn⟩
    exact hapart n _ hn rfl ((h.eid_eq_nextId_iff hn).mp rfl).2
  · intro hnone n e he hkind hdvd
    have heid := (h.eid_eq_nextId_iff he).mpr ⟨hkind, hdvd⟩
    obtain ⟨kind, eid, topic⟩ := e
    dsimp only at hkind heid
    subst hkind heid
    exact hnone ⟨n, topic, he⟩

/-- Names are distinct where ids are. -/
lemma Tracks.distinct (h : log.Tracks)
    (hids : ∀ n n' e e', log.registered.lookup n = some e → log.registered.lookup n' = some e' →
      e.eid = e'.eid → n = n') : log.Distinct where
  ids := hids
  names x hx y hy hname := by
    obtain ⟨eid, topic, hxe, hxguid⟩ := h.published x hx
    obtain ⟨eid', topic', hye, hyguid⟩ := h.published y hy
    rw [hname, hyguid] at hxguid
    exact hids _ _ _ _ hxe hye (congrArg Guid.entity hxguid).symm

lemma Distinct.step (h : log.Distinct) (htracks : log.Tracks) (hc : log.ReplacesNone c) :
    (log.step c).Distinct := by
  refine (htracks.step c).distinct ?_
  have hmove := moves_step log c
  generalize log.step c = log' at hmove
  generalize hmakes : c.makes = makes at hmove
  cases hmove with
  | made k topic p' hcan =>
    -- the new id is that of no endpoint before
    have hnew : ∀ n e, log.registered.lookup n = some e →
        e.eid ≠ log.participant.nextId k := by
      intro n e he heid
      have hkind := ((htracks.eid_eq_nextId_iff he).mp heid).1
      obtain ⟨kind, eid, topic'⟩ := e
      dsimp only at hkind heid
      subst hkind heid
      exact hc kind hmakes hcan ((htracks.has_iff _ _).mpr ⟨n, topic', he⟩)
    intro n n' e e' hn hn' heid
    rcases Table.lookup_insert_eq_some.mp hn with ⟨rfl, rfl⟩ | ⟨-, hold⟩
    · rcases Table.lookup_insert_eq_some.mp hn' with ⟨rfl, -⟩ | ⟨-, hold'⟩
      · rfl
      · exact absurd heid.symm (hnew n' e' hold')
    · rcases Table.lookup_insert_eq_some.mp hn' with ⟨rfl, rfl⟩ | ⟨-, hold'⟩
      · exact absurd heid (hnew n e hold)
      · exact h.ids n n' e e' hold hold' heid
  | spent k => exact h.ids
  | removed eid =>
    intro n n' e e' hn hn' heid
    rw [Table.lookup_retain, Option.filter_eq_some_iff] at hn hn'
    exact h.ids n n' e e' hn.1 hn'.1 heid
  | kept p' samples => exact h.ids

/-- Where every call makes its endpoint apart, nothing is replaced. -/
lemma Tracks.each_iff (h : log.Tracks) {calls : List EndpointCall} :
    Run.Each EndpointLog.step MakesApart log calls ↔
      Run.Each EndpointLog.step ReplacesNone log calls :=
  Run.each_iff_of_inv (I := Tracks) (fun _ _ hlog => hlog.makesApart_iff)
    (fun _ c hlog _ => hlog.step c) h

lemma Distinct.run (h : log.Distinct) (htracks : log.Tracks) {calls : List EndpointCall}
    (hcalls : Run.Each EndpointLog.step ReplacesNone log calls) : (log.run calls).Distinct := by
  have hinv : ∀ (log : EndpointLog) c, log.Distinct ∧ log.Tracks → log.ReplacesNone c →
      (log.step c).Distinct ∧ (log.step c).Tracks :=
    fun log c hlog hc => ⟨hlog.1.step hlog.2 hc, hlog.2.step c⟩
  exact (hcalls.foldl hinv ⟨h, htracks⟩).1

/-- **Entity ids.**  The ids of the registered endpoints stay distinct, the tables lose no entry to
a new endpoint, and no two writers publish under one name, exactly in the runs that make no
endpoint a multiple of `2 ^ 24` endpoints after one of its kind that is still registered. -/
theorem distinct_iff_makesApart (guidPrefix : GuidPrefix) (vendorId : VendorId)
    (sedp : SedpService) (persistDir : Option String) (calls : List EndpointCall) :
    ((∀ pre post, calls = pre ++ post →
      ((new guidPrefix vendorId sedp persistDir).run pre).Distinct) ∧
      Run.Each step ReplacesNone (new guidPrefix vendorId sedp persistDir) calls) ↔
    Run.Each step MakesApart (new guidPrefix vendorId sedp persistDir) calls := by
  have htracks := tracks_new guidPrefix vendorId sedp persistDir
  rw [htracks.each_iff]
  refine ⟨And.right, fun hcalls => ⟨?_, hcalls⟩⟩
  rintro pre post rfl
  refine Distinct.run (htracks.distinct ?_) htracks (Run.each_append.mp hcalls).1
  intro n n' e e' hn
  cases hn

/-- As it is in every run that makes at most `2 ^ 24` endpoints. -/
lemma Tracks.each_makesApart (h : log.Tracks) {calls : List EndpointCall}
    (hfew : log.drawn + calls.countP (·.makes.isSome) ≤ 2 ^ 24) :
    Run.Each EndpointLog.step MakesApart log calls := by
  induction calls generalizing log with
  | nil => trivial
  | cons c calls ih =>
    have hdrawn : (log.step c).drawn = log.drawn + if c.makes.isSome then 1 else 0 := by
      have hmove := moves_step log c
      generalize log.step c = log' at hmove
      generalize c.makes = makes at hmove
      cases hmove <;> rfl
    rw [List.countP_cons] at hfew
    refine ⟨fun k hk _ n e he _ hdvd => ?_, ih (h.step c) (by omega)⟩
    obtain ⟨hpos, hle, -⟩ := h.born n e he
    rw [hk] at hfew
    have := Nat.le_of_dvd (by omega) hdvd
    simp only [Option.isSome_some, if_true] at hfew
    omega

/-! ### Two writers of one id -/

/-- A writer that writes, `n` more, and the last of them writes as well. -/
def crowd (n : ℕ) : List EndpointCall :=
  [.newWriter "t" false [], .write 1 0 []] ++ List.replicate n (.newWriter "t" false []) ++
    [.write (n + 1) 0 []]

/-- A writer that is made is in the table as one that has written nothing. -/
lemma step_newWriter (hcan : log.participant.CanNumber) (topic : String) (reliable : Bool)
    (knownPeers : List ParticipantProxy) :
    let log' := log.step (.newWriter topic reliable knownPeers)
    log'.drawn = log.drawn + 1 ∧ log'.published = log.published ∧
      log'.participant.guidPrefix = log.participant.guidPrefix ∧
        log'.registered = log.registered.insert (log.drawn + 1)
          ⟨.writer, log.participant.nextId .writer, topic⟩ ∧
          log'.participant.writers.lookup (log.participant.nextId .writer) =
            some (.new topic reliable) := by
  intro log'
  obtain ⟨hpanic, howner, -, -, hwriters⟩ :=
    RtpsParticipant.newWriterImpl_of_canNumber hcan topic reliable knownPeers
  refine ⟨rfl, rfl, howner, ?_, ?_⟩
  · dsimp only [log', step, make]
    rw [hpanic]
  · dsimp only [log', step, make]
    rw [hwriters, AList.lookup_insert]

/-- The first sample of a writer has number one. -/
lemma step_write {n : ℕ} {eid : EntityId} {topic : String} {reliable : Bool}
    (hlookup : log.registered.lookup n = some ⟨.writer, eid, topic⟩)
    (hst : log.participant.writers.lookup eid = some (.new topic reliable)) (utc : ℤ) :
    (log.step (.write n utc [])).drawn = log.drawn ∧
      (log.step (.write n utc [])).participant.guidPrefix = log.participant.guidPrefix ∧
        (log.step (.write n utc [])).published =
          log.published ++ [(n, ⟨log.participant.guidPrefix, eid⟩, 1)] := by
  have hdispatch : dispatches ((RtpsWriter.mk eid topic).write utc [] log.participant).out =
      [⟨.write, ⟨log.participant.guidPrefix, eid⟩, [], 1⟩] := by
    obtain ⟨q, hheader, -, -, -, hwrite⟩ :=
      @RtpsParticipant.write_eq log.participant ⟨eid, topic⟩ _ utc [] hst
        (by simp [WriterState.new])
    rw [hwrite, wireMessages, if_neg (by decide)]
    dsimp only
    rw [RtpsParticipant.dispatches_publish,
      show q.guidPrefix = log.participant.guidPrefix from congrArg Header.guidPrefix hheader]
    rfl
  rw [step, hlookup]
  dsimp only
  rw [hdispatch]
  exact ⟨rfl, (RtpsParticipant.sameEndpoints_write _ _ _ _).guidPrefix_eq, rfl⟩

lemma Tracks.canNumber (h : log.Tracks) (hdrawn : log.drawn + 1 < 2 ^ 32) :
    log.participant.CanNumber := by
  rw [RtpsParticipant.CanNumber, h.counter_eq, UInt32.toNat_ofNat', Nat.mod_eq_of_lt (by omega)]
  exact hdrawn

/-- Making writers leaves what was there to the callers. -/
lemma Tracks.run_newWriter (h : log.Tracks) {n : ℕ} (hn : log.drawn + n < 2 ^ 32) :
    let log' := log.run (List.replicate n (.newWriter "t" false []))
    log'.Tracks ∧ log'.drawn = log.drawn + n ∧ log'.published = log.published ∧
      log'.participant.guidPrefix = log.participant.guidPrefix := by
  induction n generalizing log with
  | zero => exact ⟨h, rfl, rfl, rfl⟩
  | succ n ih =>
    obtain ⟨hdrawn, hpublished, howner, -, -⟩ :=
      step_newWriter (h.canNumber (by omega)) "t" false []
    obtain ⟨htracks', hdrawn', hpublished', howner'⟩ := ih (h.step (.newWriter "t" false []))
      (by omega)
    exact ⟨htracks', hdrawn'.trans (by omega), hpublished'.trans hpublished,
      howner'.trans howner⟩

/-- A writer that is made and writes publishes its first sample. -/
lemma Tracks.newWriter_write (h : log.Tracks) (hdrawn : log.drawn + 1 < 2 ^ 32) :
    let log' := (log.step (.newWriter "t" false [])).step (.write (log.drawn + 1) 0 [])
    log'.Tracks ∧ log'.drawn = log.drawn + 1 ∧
      log'.participant.guidPrefix = log.participant.guidPrefix ∧
        log'.published = log.published ++ [(log.drawn + 1, ⟨log.participant.guidPrefix,
          EndpointKind.writer.entityId (UInt32.ofNat (log.drawn + 1))⟩, 1)] := by
  obtain ⟨hmade, hpublished, howner, hregistered, hst⟩ :=
    step_newWriter (h.canNumber hdrawn) "t" false []
  have htracks := h.step (.newWriter "t" false [])
  have hlookup : (log.step (.newWriter "t" false [])).registered.lookup (log.drawn + 1) =
      some ⟨.writer, log.participant.nextId .writer, "t"⟩ := by
    rw [hregistered, AList.lookup_insert]
  obtain ⟨hdrawn', howner', hpublished'⟩ := step_write hlookup hst 0
  refine ⟨htracks.step _, hdrawn'.trans hmade, howner'.trans howner, ?_⟩
  rw [hpublished', hpublished, howner, h.nextId_eq]

/-- In a crowd the first writer and the last publish under the number one. -/
lemma published_crowd (guidPrefix : GuidPrefix) (vendorId : VendorId) (sedp : SedpService)
    (persistDir : Option String) {n : ℕ} (hn : n + 2 < 2 ^ 32) :
    ((new guidPrefix vendorId sedp persistDir).run (crowd (n + 1))).published =
      [(1, ⟨guidPrefix, EndpointKind.writer.entityId (UInt32.ofNat 1)⟩, 1),
        (n + 2, ⟨guidPrefix, EndpointKind.writer.entityId (UInt32.ofNat (n + 2))⟩, 1)] := by
  let first := (new guidPrefix vendorId sedp persistDir).step (.newWriter "t" false [])
  let middle := (first.step (.write 1 0 [])).run (List.replicate n (.newWriter "t" false []))
  have hrun : (new guidPrefix vendorId sedp persistDir).run (crowd (n + 1)) =
      (middle.step (.newWriter "t" false [])).step (.write (n + 2) 0 []) := by
    rw [run, crowd, List.replicate_succ', List.foldl_append, List.foldl_append,
      List.foldl_append]
    rfl
  have htracks := tracks_new guidPrefix vendorId sedp persistDir
  obtain ⟨htracks, hdrawn, howner, hpublished⟩ :=
    htracks.newWriter_write (show 0 + 1 < 2 ^ 32 by decide)
  obtain ⟨htracks', hdrawn', hpublished', howner'⟩ :=
    htracks.run_newWriter (n := n) (by rw [hdrawn]; show 0 + 1 + n < _; omega)
  have hmiddle : middle.drawn + 1 = n + 2 := by
    rw [show middle.drawn = _ from hdrawn', hdrawn]
    show 0 + 1 + n + 1 = n + 2
    omega
  obtain ⟨-, -, -, hlast⟩ := @Tracks.newWriter_write middle htracks' (by omega)
  rw [hmiddle] at hlast
  rw [hrun, hlast, show middle.published = _ from hpublished', hpublished,
    show middle.participant.guidPrefix = _ from howner', howner]
  rfl

/-- The writer that is made `2 ^ 24` endpoints after the first one takes its id and its place, and
the numbers of its samples. -/
theorem exists_shared_name :
    let start := new (ParticipantConfig.numbered 1).guidPrefix vendorIdRustDds
      (SedpService.new (ParticipantConfig.numbered 1).sedp) none
    ¬ ((∀ pre post, crowd (2 ^ 24) = pre ++ post → (start.run pre).Distinct) ∧
      Run.Each step ReplacesNone start (crowd (2 ^ 24))) := by
  intro start h
  have hpublished := published_crowd (ParticipantConfig.numbered 1).guidPrefix vendorIdRustDds
    (SedpService.new (ParticipantConfig.numbered 1).sedp) none
    (show 2 ^ 24 - 1 + 2 < 2 ^ 32 by decide)
  rw [show 2 ^ 24 - 1 + 1 = 2 ^ 24 by decide] at hpublished
  have hnames := (h.1 _ [] (List.append_nil _).symm).names
  rw [hpublished] at hnames
  have hid : EndpointKind.writer.entityId (UInt32.ofNat 1) =
      EndpointKind.writer.entityId (UInt32.ofNat (2 ^ 24 - 1 + 2)) :=
    EndpointKind.entityId_inj.mpr ⟨rfl, by decide⟩
  have hsame := hnames _ List.mem_cons_self _ (List.mem_cons_of_mem _ List.mem_cons_self)
    (by rw [hid])
  exact absurd hsame (by decide)

end EndpointLog

end RustDds
