import RustDds.Lib.Run
import RustDds.Rtps.DdsParticipant
import RustDds.Rtps.Exchange

/-!
# What a history retains

A history answers with whatever bytes were stored.  Of a participant that starts without endpoints,
every one of these is the first message of a sample of the writer itself, under the sample's own
number, whatever happens to the participant (`ownHistories_after`): of all events only a write
stores, and it stores what it has just built.
-/

namespace RustDds

namespace SendHistory

/-- A history of the messages of one writer. -/
structure Own (header : Header) (eid : EntityId) (h : SendHistory) : Prop where
  msg : ∀ i m, h.msg i = some m → OwnMessage header eid (h.sn i) m
  lowest_le : h.any = true → h.lowest ≤ h.highest

variable {header : Header} {eid : EntityId} {h : SendHistory} {seq : ℕ} {m : Bytes}

lemma own_new : Own header eid new where
  msg := fun _ _ hm => by cases hm
  lowest_le := fun hany => by cases hany

/-- **The step**: a store of one more message of the writer. -/
lemma Own.store (h' : Own header eid h) (hm : OwnMessage header eid seq m) :
    Own header eid (h.store seq m) where
  msg := fun i m' hm' => by
    dsimp only [SendHistory.store] at hm' ⊢
    by_cases hi : i = seq % maxHistoryDepth
    · rw [hi, Function.update_self, Option.some.injEq] at hm'
      rw [hi, Function.update_self, ← hm']
      exact hm
    · rw [Function.update_of_ne hi] at hm' ⊢
      exact h'.msg i m' hm'
  lowest_le := fun _ => by
    dsimp only [SendHistory.store]
    cases hany : h.any with
    | false =>
      simp only [Bool.false_eq_true, if_false, maxHistoryDepth]
      split_ifs <;> omega
    | true =>
      have := h'.lowest_le hany
      simp only [if_true, maxHistoryDepth]
      split_ifs <;> omega

lemma Own.get (h' : Own header eid h) (hget : h.get seq = some m) :
    OwnMessage header eid seq m := by
  rw [SendHistory.get] at hget
  split at hget
  · cases hget
  dsimp only at hget
  split at hget
  · cases hget
  · rename_i hsn
    rw [not_not] at hsn
    exact hsn ▸ h'.msg _ _ hget

lemma Own.first_le (h' : Own header eid h) {first last : ℕ}
    (hfl : h.firstLast = some (first, last)) : first ≤ last := by
  rw [firstLast] at hfl
  split at hfl
  · rename_i hany
    cases hfl
    exact h'.lowest_le hany
  · cases hfl

end SendHistory

namespace RtpsParticipant

variable {header : Header} {p p' : RtpsParticipant} {eid : EntityId}

/-- Every writer of the participant retains its own messages, under this header. -/
structure OwnHistories (header : Header) (p : RtpsParticipant) : Prop where
  header_eq : p.header = header
  own : ∀ eid st history, p.writers.lookup eid = some st → st.history = some history →
    history.Own header eid

/-- What concerns no writer. -/
lemma OwnHistories.of_eq (h : OwnHistories header p) (hheader : p'.header = p.header)
    (hwriters : p'.writers = p.writers) : OwnHistories header p' where
  header_eq := hheader.trans h.header_eq
  own := hwriters ▸ h.own

lemma OwnHistories.of_readersOnly (h : OwnHistories header p) (hp' : ReadersOnly p p') :
    OwnHistories header p' := by
  obtain ⟨_, _, _, _, rfl⟩ := hp'
  exact h.of_eq rfl rfl

/-- What changes one writer, but leaves its history own. -/
lemma OwnHistories.adjust (h : OwnHistories header p) (eid : EntityId)
    (f : WriterState → WriterState) (hheader : p'.header = p.header)
    (hwriters : p'.writers = p.writers.adjust eid f)
    (hf : ∀ st, p.writers.lookup eid = some st →
      (∀ history, st.history = some history → history.Own header eid) →
        ∀ history, (f st).history = some history → history.Own header eid) :
    OwnHistories header p' where
  header_eq := hheader.trans h.header_eq
  own := by
    intro eid' st' history hst' hhistory
    rw [hwriters] at hst'
    by_cases heid : eid' = eid
    · subst heid
      rw [Table.lookup_adjust_self] at hst'
      obtain ⟨st, hst, rfl⟩ := Option.map_eq_some_iff.mp hst'
      exact hf st hst (fun history hh => h.own _ _ _ hst hh) history hhistory
    · rw [Table.lookup_adjust_of_ne heid] at hst'
      exact h.own _ _ _ hst' hhistory

/-! ### Receiving -/

lemma advanceAcked_history (st : WriterState) (ackBase : ℕ) :
    (advanceAcked st ackBase).history = st.history := by
  unfold advanceAcked
  split_ifs <;> rfl

/-- What is received changes of a writer only what it knows to be acknowledged. -/
lemma ownHistories_receiveInvariant (header : Header) :
    ReceiveInvariant (OwnHistories header) where
  of_readersOnly h hp' := h.of_readersOnly hp'
  of_assembler _ h := h.of_eq rfl rfl
  of_acked eid ackBase h := by
    refine h.adjust eid (advanceAcked · ackBase) rfl rfl fun st _ hown history hhistory => ?_
    rw [advanceAcked_history] at hhistory
    exact hown history hhistory

/-! ### Writing -/

lemma keeps_sendHeartbeat_own (eid : EntityId) :
    Cmd.Keeps (OwnHistories header) (fun _ => True) (sendHeartbeat eid) := by
  intro p h
  unfold sendHeartbeat
  split
  · exact Cmd.keeps_skip p h
  rename_i st hst
  split
  · exact Cmd.keeps_skip p h
  rename_i history hhistory
  split
  · exact Cmd.keeps_skip p h
  refine ⟨h.adjust eid ({ · with history := some history.nextHbCount.2 }) rfl rfl
    fun st' _ _ history' hhistory' => ?_, fun _ _ => trivial⟩
  -- only the count of the HEARTBEATs is new
  obtain ⟨hmsg, hle⟩ := h.own _ _ _ hst hhistory
  cases hhistory'
  exact ⟨hmsg, hle⟩

/-- What a writer publishes under `seq` it may retain. -/
lemma keeps_publish_own {w : RtpsWriter} {utc : ℤ} {reliable : Bool} {seq : ℕ} {payload : Bytes}
    {msgs : List Bytes} (hown : ∀ m, msgs.head? = some m → OwnMessage header w.eid seq m) :
    Cmd.Keeps (OwnHistories header) (fun _ => True)
      (w.publish utc reliable seq payload msgs) := by
  intro p h
  unfold RtpsWriter.publish
  refine (Cmd.keeps_modify fun q hq => ?_).andThen ((Cmd.keeps_emit fun _ _ => trivial).andThen
    (Cmd.Keeps.andThen (fun q hq => ⟨hq.of_readersOnly (readersOnly_dispatchToReaders .write),
      fun _ _ => trivial⟩) ((Cmd.keeps_emit fun _ _ => trivial).andThen ?_))) p h
  · refine hq.adjust w.eid (WriterState.retain seq msgs) rfl rfl fun st _ hst history hhistory => ?_
    rcases WriterState.history_retain_cases hhistory with hsame | ⟨m, old, hhead, hold, rfl⟩
    · exact hst history hsame
    · exact (hst old hold).store (hown m hhead)
  · split
    · exact keeps_sendHeartbeat_own w.eid
    · exact Cmd.keeps_skip

lemma keeps_write_own {w : RtpsWriter} {utc : ℤ} {payload : Bytes} :
    Cmd.Keeps (OwnHistories header) (fun _ => True) (w.write utc payload) := by
  intro p h
  unfold RtpsWriter.write
  split
  · exact Cmd.keeps_skip p h
  rename_i st hst
  -- the number of the sample is no concern of the history
  have hnumber : OwnHistories header { p with
      writers := p.writers.adjust w.eid ({ · with seq := wrappingAdd 64 st.seq 1 }) } :=
    h.adjust w.eid ({ · with seq := wrappingAdd 64 st.seq 1 }) rfl rfl fun _ _ hown => hown
  dsimp only
  split
  · exact ⟨hnumber, by simp⟩
  rename_i seq hseq
  obtain ⟨hlt, rfl⟩ := checkedAdd_eq_ok.mp hseq
  split
  · exact ⟨hnumber.of_eq rfl rfl, by simp⟩
  rename_i msgs hmsgs
  refine keeps_publish_own (fun m hm => ⟨hlt, payload, msgs, ?_, hm⟩) _ (hnumber.of_eq rfl rfl)
  rw [← hmsgs, ← h.header_eq]
  rfl

/-! ### Registering -/

lemma OwnHistories.newWriterImpl (h : OwnHistories header p) (topic : String) (reliable : Bool)
    (knownPeers : List ParticipantProxy) :
    OwnHistories header (newWriterImpl topic reliable knownPeers p).state := by
  unfold RtpsParticipant.newWriterImpl nextEntityNum
  split
  · exact h.of_eq rfl rfl
  refine ⟨h.header_eq, fun eid st history hst hhistory => ?_⟩
  dsimp only at hst
  rcases Table.lookup_insert_eq_some.mp hst with ⟨-, rfl⟩ | ⟨-, hold⟩
  · -- the history of a new writer is empty
    cases reliable with
    | false => cases hhistory
    | true =>
      cases hhistory
      exact SendHistory.own_new
  · exact h.own _ _ _ hold hhistory

lemma OwnHistories.pushTo (h : OwnHistories header p) (eid : EntityId) (sample : Sample) :
    OwnHistories header (pushTo eid sample p).state := by
  unfold RtpsParticipant.pushTo
  split
  · exact h
  · exact h.of_eq rfl rfl

lemma OwnHistories.deliverTransientLocal (h : OwnHistories header p) (eid : EntityId)
    (topic : String) (persisted : Option Bytes) (utc : ℤ) :
    OwnHistories header (deliverTransientLocal eid topic persisted utc p).state := by
  unfold RtpsParticipant.deliverTransientLocal
  split
  · exact h.pushTo ..
  split
  · refine OwnHistories.pushTo ?_ ..
    exact h.of_eq rfl rfl
  · exact h

lemma OwnHistories.newReaderImpl (h : OwnHistories header p) (topic : String)
    (opts : SubscriberOptions) (reliable transientLocal : Bool)
    (knownPeers : List ParticipantProxy) (persisted : Option Bytes) (utc : ℤ) :
    OwnHistories header (newReaderImpl topic opts reliable transientLocal knownPeers persisted utc
      p).state := by
  unfold RtpsParticipant.newReaderImpl nextEntityNum
  split
  · exact h.of_eq rfl rfl
  dsimp only
  rw [Cmd.andThen_of_none rfl]
  dsimp only [registerReader]
  split
  · refine OwnHistories.deliverTransientLocal ?_ ..
    exact h.of_eq rfl rfl
  · exact h.of_eq rfl rfl

end RtpsParticipant

namespace RtpsUdpParticipant

open RtpsParticipant

variable {header : Header} {s : RtpsUdpParticipant}

/-- **The step.** -/
lemma ownHistories_step (h : OwnHistories header s.inner) (e : ParticipantEvent) :
    OwnHistories header (s.step e).inner := by
  cases e with
  | spdpPacket now data src => exact h
  | sweep now => exact h
  | sedpPacket data src => exact h.of_eq rfl rfl
  | takeMatch =>
    rw [step, handle, takeMatch]
    split
    · exact h
    · exact h.of_eq rfl rfl
  | takePeer =>
    rw [step, handle, takePeer]
    split
    · exact h
    · exact h.of_eq rfl rfl
  | dataPacket d =>
    exact ((ownHistories_receiveInvariant header).keeps_handleDataPacket s.inner h).1
  | newPublisher topic qos =>
    rw [step, handle, newPublisher]
    split
    · exact h
    · exact h.newWriterImpl ..
  | newSubscriber topic qos opts utc =>
    rw [step, handle, newSubscriber]
    split
    · exact h
    · exact h.newReaderImpl ..
  | unsubscribe eid => exact h.of_eq rfl rfl
  | write w utc payload => exact (keeps_write_own s.inner h).1

/-- **The run.**  Whatever happens to a participant, its writers retain their own messages. -/
lemma ownHistories_after (cfg : ParticipantConfig) (events : List ParticipantEvent) :
    OwnHistories (after cfg events).inner.header (after cfg events).inner := by
  have hnew : OwnHistories (new cfg).inner.header (new cfg).inner :=
    ⟨rfl, fun _ _ _ hst => by cases hst⟩
  have hrun : OwnHistories (new cfg).inner.header (after cfg events).inner :=
    (Run.each_of_forall fun _ _ _ => trivial).foldl (P := fun _ _ => True)
      (I := fun s : RtpsUdpParticipant => OwnHistories (new cfg).inner.header s.inner)
      (fun _ e h _ => ownHistories_step h e) hnew
  exact hrun.header_eq ▸ hrun

end RtpsUdpParticipant

end RustDds
