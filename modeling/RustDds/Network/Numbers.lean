import RustDds.Network.Integrity
import RustDds.Reliability.Overflow
import RustDds.Reliability.Round

/-!
# The numbers in flight

The trackers of a reader, and the answer to an ACKNACK, compute with the numbers they are sent, and
panic where those are at the end of the number space.  Among participants that run this code no
number gets there: all of them come from the counters of the writers, which a run of `n` steps
brings to `n` at most.  So no participant panics at what another sends
(`Network.no_panic_of_deliver`).

`RtpsParticipant.UpTo` bounds the numbers in a participant, `Signals` those in a message that
carries no sample, and `Network.Numbered` puts the two together.
-/

namespace RustDds

/-! ## Trackers -/

namespace RecvTracker

variable {t : RecvTracker} {last last' seq : ℕ}

lemma Within.mono (h : t.Within last) (hle : last ≤ last') : t.Within last' where
  unpoisoned := h.unpoisoned
  wf := h.wf
  ahead_le s hs := (h.ahead_le s hs).trans hle
  expected_le := h.expected_le.trans (Nat.succ_le_succ hle)
  blank := h.blank

/-- A reaction that returns, leaves the tracker in order, and asks for nothing beyond the number
after `last`. -/
def Reacts (last : ℕ) (op : RecvTracker → Except Panic Unit × RecvTracker) (lastSn : ℕ) : Prop :=
  ∀ t : RecvTracker, t.Within last → ∃ base bitmap need t',
    report op lastSn t = (.ok (base, bitmap, need), t') ∧ t'.Within last ∧ base ≤ last + 1

/-- What is asked for starts at the watermark. -/
lemma base_le_of_report {op : RecvTracker → Except Panic Unit × RecvTracker} {lastSn : ℕ}
    {t' : RecvTracker} {base : ℕ} {bitmap : UInt32} {need : Bool}
    (h : report op lastSn t = (.ok (base, bitmap, need), t')) :
    base ≤ t'.inner.val.expected := by
  rw [report] at h
  rcases hop : op t with ⟨p | u, t₁⟩
  · rw [hop] at h
    cases h
  rw [hop] at h
  dsimp only at h
  rcases missing_cases t₁ lastSn with ⟨p, t₂, heq, -⟩ | ⟨-, r, hr, heq⟩
  · rw [heq] at h
    cases h
  rw [heq] at h
  cases h
  dsimp only
  rw [RecvTrackerInner.missing] at hr
  split at hr
  · cases hr
    exact Nat.zero_le _
  dsimp only at hr
  split at hr
  · cases hr
    exact le_rfl
  obtain ⟨limit, -, hr⟩ := Except.bind_eq_ok.mp hr
  obtain ⟨x, -, hr⟩ := Except.bind_eq_ok.mp hr
  cases hr
  exact le_rfl

lemma reacts_sample (hbound : last < 2 ^ 64 - 64) (hseq : seq ≤ last) :
    Reacts last (fun t => t.noteReceived seq) seq := by
  intro t ht
  obtain ⟨⟨base, bitmap, need⟩, t', heq, hwithin, -⟩ := ht.sample hbound hseq
  exact ⟨base, bitmap, need, t', heq, hwithin, (base_le_of_report heq).trans hwithin.expected_le⟩

lemma reacts_heartbeat (hbound : last < 2 ^ 64 - 64) {firstSn lastSn : ℕ} (hfirst : firstSn ≤ last)
    (hlast : lastSn ≤ last) : Reacts last (fun t => t.initExpected firstSn) lastSn := by
  intro t ht
  obtain ⟨⟨base, bitmap, need⟩, t', heq, -, hwithin, -⟩ := ht.heartbeat hbound hfirst hlast
  exact ⟨base, bitmap, need, t', heq, hwithin, (base_le_of_report heq).trans hwithin.expected_le⟩

end RecvTracker

/-! ## Messages -/

/-- The message carries no sample and no number beyond `last`. -/
def Signals (header : Header) (last : ℕ) (msg : Bytes) : Prop :=
  (∃ eid, IsHeartbeat header eid last msg) ∨
    (∃ an : AckNack, an.base.toU64 ≤ last + 1 ∧ msg = ReaderState.acknackMessage header an) ∨
      ∃ g : Gap, msg = gapMessage header g

lemma Signals.mono {header : Header} {last last' : ℕ} {msg : Bytes} (h : Signals header last msg)
    (hle : last ≤ last') : Signals header last' msg := by
  rcases h with ⟨eid, hb, hwriter, hfirst, hlast, hmsg⟩ | ⟨an, hbase, hmsg⟩ | hgap
  · exact .inl ⟨eid, hb, hwriter, hfirst.trans hle, hlast.trans hle, hmsg⟩
  · exact .inr (.inl ⟨an, hbase.trans (Nat.succ_le_succ hle), hmsg⟩)
  · exact .inr (.inr hgap)

/-! ## Readers -/

namespace ReaderState

variable {st : ReaderState} {header : Header} {source : Guid} {src : SocketAddr}
  {op : RecvTracker → Except Panic Unit × RecvTracker} {lastSn last : ℕ} {eid : EntityId}

lemma trackerFor_setTracker_of_ne {w w' : Guid} (h : w' ≠ w) (st : ReaderState) (t : RecvTracker) :
    (st.setTracker w t).trackerFor w' = st.trackerFor w' := by
  rw [trackerFor, setTracker, AList.lookup_insert_ne h]
  rfl

/-- **A contact** asks for nothing too far ahead. -/
lemma contact_of_reacts (hop : RecvTracker.Reacts last op lastSn) (hlast : last + 1 < 2 ^ 64)
    (hst : ∀ w, (st.trackerFor w).Within last) :
    (contact header source src op lastSn eid st).panic = none ∧
      (∀ w, ((contact header source src op lastSn eid st).state.trackerFor w).Within last) ∧
        ∀ msg dst, .send msg dst ∈ (contact header source src op lastSn eid st).out →
          Signals header last msg := by
  by_cases hhears : st.Hears header.guidPrefix source
  swap
  · rw [contact_of_not_hears hhears]
    exact ⟨rfl, hst, fun msg dst h => by cases h⟩
  obtain ⟨base, bitmap, need, t', heq, hwithin, hbase⟩ := hop _ (hst source)
  have hset : ∀ t : RecvTracker, t.Within last →
      ∀ w, ((st.setTracker source t).trackerFor w).Within last := by
    intro t ht w
    by_cases hw : w = source
    · rw [hw, trackerFor_setTracker]
      exact ht
    · rw [trackerFor_setTracker_of_ne hw]
      exact hst w
  rw [contact_of_hears hhears, heq]
  cases need with
  | false => exact ⟨rfl, hset t' hwithin, fun msg dst h => by cases h⟩
  | true =>
    refine ⟨rfl, hset _ (hwithin.of_inner_eq rfl), fun msg dst h => ?_⟩
    cases List.mem_singleton.mp h
    refine .inr (.inl ⟨_, ?_, rfl⟩)
    dsimp only
    rw [SequenceNumber.toU64_fromU64 (by omega)]
    exact hbase

end ReaderState

/-! ## Participants -/

lemma WriterState.Before.mono {st : WriterState} {last last' : ℕ} (h : st.Before last)
    (hle : last ≤ last') : st.Before last' where
  next_le := h.next_le.trans hle
  window_le history hhistory := by
    obtain ⟨hlow, hhigh⟩ := h.window_le history hhistory
    exact ⟨hlow.trans hle, hhigh.trans hle⟩

namespace RtpsParticipant

variable {p q : RtpsParticipant} {last last' : ℕ}

/-- No writer has counted beyond `last`, and no tracker has a number beyond it. -/
structure UpTo (p : RtpsParticipant) (last : ℕ) : Prop where
  writers : ∀ eid st, p.writers.lookup eid = some st → st.Before (last + 1)
  trackers : ∀ r st, p.readers.lookup r = some st → ∀ w, (st.trackerFor w).Within last

lemma UpTo.mono (h : p.UpTo last) (hle : last ≤ last') : p.UpTo last' where
  writers eid st hst := (h.writers eid st hst).mono (Nat.succ_le_succ hle)
  trackers r st hst w := (h.trackers r st hst w).mono hle

/-! ### Where trackers stay -/

/-- Every reader is new, or has the trackers it had. -/
def KeepsTrackers (p q : RtpsParticipant) : Prop :=
  ∀ r st', q.readers.lookup r = some st' →
    st'.trackers = ∅ ∨ ∃ st, p.readers.lookup r = some st ∧ st'.trackers = st.trackers

namespace KeepsTrackers

lemma of_eq (h : q.readers = p.readers) : KeepsTrackers p q :=
  fun _ st' hst' => .inr ⟨st', h ▸ hst', rfl⟩

lemma trans (h : KeepsTrackers p q) {q' : RtpsParticipant} (h' : KeepsTrackers q q') :
    KeepsTrackers p q' := by
  intro r st'' hst''
  rcases h' r st'' hst'' with hnew | ⟨st', hst', heq⟩
  · exact .inl hnew
  rw [heq]
  exact h r st' hst'

lemma insert {eid : EntityId} {st : ReaderState} (hq : q.readers = p.readers.insert eid st)
    (hst : st.trackers = ∅ ∨
      ∃ old, p.readers.lookup eid = some old ∧ st.trackers = old.trackers) :
    KeepsTrackers p q := by
  intro r st' hst'
  rw [hq] at hst'
  rcases Table.lookup_insert_eq_some.mp hst' with ⟨rfl, rfl⟩ | ⟨-, hold⟩
  · exact hst
  · exact .inr ⟨st', hold, rfl⟩

lemma adjust {eid : EntityId} {f : ReaderState → ReaderState}
    (hq : q.readers = p.readers.adjust eid f) (hf : ∀ st, (f st).trackers = st.trackers) :
    KeepsTrackers p q := by
  intro r st' hst'
  rw [hq, Table.lookup_adjust] at hst'
  split at hst'
  · obtain ⟨st, hst, rfl⟩ := Option.map_eq_some_iff.mp hst'
    exact .inr ⟨st, hst, hf st⟩
  · exact .inr ⟨st', hst', rfl⟩

lemma upTo (h : KeepsTrackers p q) (hp : p.UpTo last)
    (hw : ∀ eid st, q.writers.lookup eid = some st → st.Before (last + 1)) : q.UpTo last := by
  refine ⟨hw, fun r st' hst' w => ?_⟩
  rcases h r st' hst' with hnew | ⟨st, hst, heq⟩
  · rw [ReaderState.trackerFor, hnew]
    exact RecvTracker.within_new last
  · rw [ReaderState.trackerFor, heq]
    exact hp.trackers r st hst w

end KeepsTrackers

lemma keepsTrackers_dispatchToReaders (origin : Origin) {source : Guid}
    {topicFilter : Option String} {payload : Bytes} {utc : ℤ} {seq : ℕ} :
    KeepsTrackers p (dispatchToReaders origin source topicFilter payload utc seq p).state := by
  obtain ⟨_, _, _, hcount⟩ := foldl_countPush
    (visitReaders (ReaderState.deliver p.guidPrefix source topicFilter payload utc seq) p).out
    (visitReaders (ReaderState.deliver p.guidPrefix source topicFilter payload utc seq) p).state
  intro r st' hst'
  rw [dispatchToReaders] at hst'
  dsimp only at hst'
  rw [hcount] at hst'
  obtain ⟨st, hst, rfl | ⟨rfl, -⟩⟩ := Table.exists_of_lookup_visit hst'
  · obtain ⟨inner, hinner⟩ :=
      ReaderState.state_deliver p.guidPrefix source topicFilter payload utc seq r st
    rw [hinner]
    exact .inr ⟨st, hst, rfl⟩
  · exact .inr ⟨st', hst, rfl⟩

lemma keepsTrackers_addSources (eid : EntityId) (guids : List Guid) (p : RtpsParticipant) :
    KeepsTrackers p (addSources eid guids p) :=
  .adjust (f := fun st => { st with sources := st.sources ∪ guids.toFinset }) rfl fun _ => rfl

lemma keepsTrackers_newReaderImpl (topic : String) (opts : SubscriberOptions)
    (reliable transientLocal : Bool) (knownPeers : List ParticipantProxy)
    (persisted : Option Bytes) (utc : ℤ) (p : RtpsParticipant) :
    KeepsTrackers p (newReaderImpl topic opts reliable transientLocal knownPeers persisted utc
      p).state := by
  have hpush : ∀ (eid : EntityId) (sample : Sample) (q : RtpsParticipant),
      KeepsTrackers q (pushTo eid sample q).state := by
    intro eid sample q
    unfold pushTo
    split
    · exact .of_eq rfl
    · rename_i st hst
      exact .insert rfl (.inr ⟨st, hst, rfl⟩)
  have hlast : ∀ (eid : EntityId) (q : RtpsParticipant),
      KeepsTrackers q (deliverTransientLocal eid topic persisted utc q).state := by
    intro eid q
    unfold deliverTransientLocal
    split
    · exact hpush _ _ _
    split
    · exact hpush _ _ _
    · exact .of_eq rfl
  by_cases hcan : p.CanNumber
  · rw [newReaderImpl, nextEntityNum_of_canNumber _ hcan, Cmd.andThen_of_none rfl]
    have hregister : ∀ eid, KeepsTrackers p
        (registerReader eid topic opts reliable knownPeers
          { p with entityCounter := p.entityCounter + 1 }).state := fun eid => by
      let q : RtpsParticipant := { p with
        sedp := (p.sedp.registerReader eid topic knownPeers).2.2
        readers := p.readers.insert eid (.new topic opts reliable) }
      have hinsert : KeepsTrackers p q := .insert rfl (.inl rfl)
      exact hinsert.trans (keepsTrackers_addSources eid _ q)
    dsimp only
    split
    · exact (hregister _).trans (hlast _ _)
    · exact hregister _
  · rw [newReaderImpl, nextEntityNum_of_not_canNumber _ hcan]
    exact .of_eq rfl

/-! ### Writing -/

lemma UpTo.adjustWriter {eid : EntityId} {f : WriterState → WriterState} (h : p.UpTo last)
    (hwriters : q.writers = p.writers.adjust eid f) (hreaders : q.readers = p.readers)
    (hf : ∀ st, p.writers.lookup eid = some st → (f st).Before (last + 1)) : q.UpTo last := by
  refine ⟨fun eid' st' hst' => ?_, fun r st hst => h.trackers r st (hreaders ▸ hst)⟩
  rw [hwriters, Table.lookup_adjust] at hst'
  split at hst'
  · rename_i heid
    obtain ⟨st, hst, rfl⟩ := Option.map_eq_some_iff.mp hst'
    exact hf st (heid ▸ hst)
  · exact h.writers eid' st' hst'

lemma keeps_upTo_sendHeartbeat (eid : EntityId) :
    Cmd.Keeps (UpTo · last) (fun _ => True) (sendHeartbeat eid) := by
  intro p h
  refine ⟨?_, fun _ _ => trivial⟩
  unfold sendHeartbeat
  split
  · exact h
  rename_i st hst
  split
  · exact h
  rename_i history hhistory
  split
  · exact h
  refine h.adjustWriter (f := ({ · with history := some history.nextHbCount.2 })) rfl rfl
    fun st' hst' => ?_
  cases hst.symm.trans hst'
  have hbefore := h.writers eid st hst
  refine ⟨hbefore.next_le, fun history' hhistory' => ?_⟩
  cases hhistory'
  exact hbefore.window_le history hhistory

lemma keeps_upTo_publish {w : RtpsWriter} {utc : ℤ} {reliable : Bool} {seq : ℕ} {payload : Bytes}
    {msgs : List Bytes} (hseq : seq ≤ last) :
    Cmd.Keeps (UpTo · last) (fun _ => True) (w.publish utc reliable seq payload msgs) := by
  intro p h
  unfold RtpsWriter.publish
  refine (Cmd.Keeps.andThen (I := (UpTo · last)) (Cmd.keeps_modify fun q hq => ?_)
    ((Cmd.keeps_emit fun _ _ => trivial).andThen (Cmd.Keeps.andThen (fun q hq => ?_)
      ((Cmd.keeps_emit fun _ _ => trivial).andThen ?_)))) p h
  · refine UpTo.adjustWriter (f := WriterState.retain seq msgs) hq rfl rfl fun st hst => ?_
    have hbefore := UpTo.writers hq w.eid st hst
    refine ⟨?_, fun history hhistory => ?_⟩
    · have hcount : (st.retain seq msgs).seq = st.seq := by
        unfold WriterState.retain
        split <;> rfl
      rw [hcount]
      exact hbefore.next_le
    · rcases WriterState.history_retain_cases hhistory with hsame | ⟨m, old, -, hold, rfl⟩
      · exact hbefore.window_le history hsame
      · exact SendHistory.store_le m (hseq.trans (Nat.le_succ last)) (hbefore.window_le old hold)
  · have hq : q.UpTo last := hq
    refine ⟨(keepsTrackers_dispatchToReaders .write).upTo hq ?_, fun _ _ => trivial⟩
    obtain ⟨_, _, _, _, heq⟩ := readersOnly_dispatchToReaders (p := q) .write
    rw [heq]
    exact hq.writers
  · split
    · exact keeps_upTo_sendHeartbeat w.eid
    · exact Cmd.keeps_skip

/-- **A write** counts one sample. -/
lemma UpTo.write (h : p.UpTo last) (hlast : last + 1 < 2 ^ 64) (w : RtpsWriter) (utc : ℤ)
    (payload : Bytes) : (w.write utc payload p).state.UpTo (last + 1) := by
  unfold RtpsWriter.write
  split
  · exact h.mono (Nat.le_succ last)
  rename_i st hst
  have hnext := (h.writers w.eid st hst).next_le
  have hcount : ∀ {q : RtpsParticipant}, q.writers = p.writers.adjust w.eid
      ({ · with seq := wrappingAdd 64 st.seq 1 }) → q.readers = p.readers →
        q.UpTo (last + 1) := by
    intro q hwriters hreaders
    refine (h.mono (Nat.le_succ last)).adjustWriter hwriters hreaders fun st' hst' => ?_
    cases hst.symm.trans hst'
    refine ⟨?_, (h.mono (Nat.le_succ last)).writers w.eid st hst |>.window_le⟩
    dsimp only
    rw [show wrappingAdd 64 st.seq 1 = st.seq + 1 from Nat.mod_eq_of_lt (by omega)]
    omega
  have hpublish : ∀ (msgs : List Bytes) {q : RtpsParticipant}, q.UpTo (last + 1) →
      (w.publish utc st.reliable (st.seq + 1) payload msgs q).state.UpTo (last + 1) :=
    fun msgs q hq => (keeps_upTo_publish hnext q hq).1
  dsimp only
  split
  · exact hcount rfl rfl
  rename_i seq hseq
  obtain ⟨-, rfl⟩ := checkedAdd_eq_ok.mp hseq
  split
  · exact hcount rfl rfl
  · exact hpublish _ (hcount rfl rfl)

/-- What a write sends: the sample, and what tells of it. -/
lemma UpTo.sends_write (h : p.UpTo last) (hlast : last + 1 < 2 ^ 64) {w : RtpsWriter} {utc : ℤ}
    {payload msg : Bytes} {dst : SocketAddr} (hsend : .send msg dst ∈ (w.write utc payload p).out) :
    p.Writes w.eid payload msg ∨ Signals p.header (last + 1) msg := by
  have hmem : msg ∈ sentTo [dst] (w.write utc payload p).out :=
    mem_sentTo_of_mem (List.mem_singleton.mpr rfl) hsend
  cases hst : p.writers.lookup w.eid with
  | none =>
    rw [RtpsWriter.write, hst] at hsend
    cases hsend
  | some st =>
    have hbefore := h.writers w.eid st hst
    have hnext := hbefore.next_le
    cases hmsgs : wireMessages p.header w.eid (st.seq + 1) payload with
    | error e =>
      rw [sentTo_write_of_error hst (by omega) hmsgs] at hmem
      cases hmem
    | ok msgs =>
      have hsent : ∃ hbs, sentTo [dst] (w.write utc payload p).out =
          sentTo [dst] (RtpsWriter.sendRemote p w.topic msgs) ++ hbs ∧
            ∀ m ∈ hbs, IsHeartbeat p.header w.eid (last + 1) m :=
        sentTo_write hst hbefore hlast hmsgs
      obtain ⟨hbs, heq, hall⟩ := hsent
      rw [heq] at hmem
      rcases List.mem_append.mp hmem with hsample | hheartbeat
      · obtain ⟨dst', -, hremote⟩ := mem_sentTo hsample
        obtain ⟨msg', hmsg', addr, hsent'⟩ := mem_sendRemote hremote
        cases hsent'
        exact .inl ⟨st, msgs, hst, by omega, hmsgs, hmsg'⟩
      · exact .inr (.inl ⟨w.eid, hall msg hheartbeat⟩)

/-! ### Receiving -/

/-- The outcome of receiving: no panic, no new number, and in reply what is retained or tells
something. -/
structure Replies (p : RtpsParticipant) (last : ℕ) (o : Outcome RtpsParticipant Effect Panic) :
    Prop where
  panic : o.panic = none
  upTo : o.state.UpTo last
  sends : ∀ msg dst, .send msg dst ∈ o.out →
    (∃ eid seq, p.KeepsMessage eid seq msg) ∨ Signals p.header last msg

lemma UpTo.replies_skip (h : p.UpTo last) : Replies p last (Cmd.skip p) :=
  ⟨rfl, h, fun msg dst hsend => by cases hsend⟩

/-- The readers react. -/
lemma UpTo.replies_visitReaders (h : p.UpTo last) (hlast : last + 1 < 2 ^ 64) {source : Guid}
    {src : SocketAddr} {op : RecvTracker → Except Panic Unit × RecvTracker} {lastSn : ℕ}
    (hop : RecvTracker.Reacts last op lastSn) :
    Replies p last (visitReaders (ReaderState.contact p.header source src op lastSn) p) := by
  have hcontact : ∀ r st, p.readers.lookup r = some st →
      let o := ReaderState.contact p.header source src op lastSn r st
      o.panic = none ∧ (∀ w, (o.state.trackerFor w).Within last) ∧
        ∀ msg dst, .send msg dst ∈ o.out → Signals p.header last msg :=
    fun r st hst => ReaderState.contact_of_reacts hop hlast (h.trackers r st hst)
  have hpanic : (Table.visit (ReaderState.contact p.header source src op lastSn) p.readers).panic =
      none := Table.panic_visit.mpr fun r st hst => (hcontact r st hst).1
  refine ⟨hpanic, ⟨h.writers, fun r st' hst' => ?_⟩, fun msg dst hsend => .inr ?_⟩
  · obtain ⟨st, hst, rfl | ⟨-, hnot⟩⟩ := Table.exists_of_lookup_visit hst'
    · exact (hcontact r st hst).2.1
    · exact absurd hpanic hnot
  · obtain ⟨r, st, hst, hsend⟩ := Table.mem_out_visit hsend
    exact (hcontact r st hst).2.2 msg dst hsend

lemma UpTo.replies_handleHeartbeat (h : p.UpTo last) (hlast : last < 2 ^ 64 - 64) {source : Guid}
    {src : SocketAddr} {hb : Heartbeat} (hfirst : hb.firstSn.toU64 ≤ last)
    (hend : hb.lastSn.toU64 ≤ last) : Replies p last (handleHeartbeat source hb src p) :=
  h.replies_visitReaders (by omega) (RecvTracker.reacts_heartbeat hlast hfirst hend)

lemma UpTo.replies_acceptSample (h : p.UpTo last) (hlast : last < 2 ^ 64 - 64) {d : Datagram}
    {origin : Origin} {source : Guid} {payload : Bytes} {seq : ℕ} (hseq : seq ≤ last) :
    Replies p last (acceptSample d origin source payload seq p) := by
  have hnotify : Replies p last (notifyReliableReaders source seq d.src p) :=
    h.replies_visitReaders (by omega) (RecvTracker.reacts_sample hlast hseq)
  rw [acceptSample, Cmd.andThen_of_none hnotify.panic]
  refine ⟨?_, (keepsTrackers_dispatchToReaders origin).upTo hnotify.upTo ?_,
    fun msg dst hsend => ?_⟩
  · exact @panic_dispatchToReaders _ source seq origin none payload d.utc
  · obtain ⟨_, _, _, _, heq⟩ := readersOnly_dispatchToReaders
      (p := (notifyReliableReaders source seq d.src p).state) origin
    rw [heq]
    exact hnotify.upTo.writers
  · rcases List.mem_append.mp hsend with hsend | hsend
    · exact hnotify.sends msg dst hsend
    · exact absurd rfl (out_dispatchToReaders _ hsend msg dst)

/-- What a writer knows to be acknowledged is no number it counts. -/
lemma UpTo.replies_handleAcknack (h : p.UpTo last) (hlast : last < 2 ^ 64 - 64) {an : AckNack}
    {src : SocketAddr} (hbase : an.base.toU64 ≤ last + 1) :
    Replies p last (handleAcknack an src p) := by
  refine ⟨(panic_handleAcknack an src p).mpr fun st history _ _ _ => ⟨?_, ?_⟩, ?_, ?_⟩
  · rintro s ⟨-, bit, hbit, rfl⟩
    have hlt := (Bitmap.mem_members.mp hbit).1
    omega
  · intro _ _ _ _
    omega
  · have hkeeps : ∀ (history : SendHistory) (addrs : List SocketAddr),
        Cmd.Keeps (UpTo · last) (fun _ => True)
          ((Cmd.modify fun q => { q with
            writers :=
              q.writers.adjust an.writerEntityId (advanceAcked · an.base.toU64) }).andThen
            ((Cmd.forEach (retransmit history addrs an.base.toU64)
              (Bitmap.members an.bitmap)).andThen (sendGap p.header history an addrs src))) := by
      intro history addrs
      have hsends : ∀ {c : Cmd RtpsParticipant Effect Panic},
          Cmd.Keeps (UpTo · last) (fun e => ∃ msg addr, e = Effect.send msg addr) c →
            Cmd.Keeps (UpTo · last) (fun _ => True) c :=
        fun hc q hq => ⟨(hc q hq).1, fun _ _ => trivial⟩
      refine (Cmd.keeps_modify fun q hq => ?_).andThen ((Cmd.Keeps.forEach fun bit _ =>
        hsends keeps_retransmit).andThen (hsends keeps_sendGap))
      refine UpTo.adjustWriter (f := (advanceAcked · an.base.toU64)) hq rfl rfl fun st hst => ?_
      have hbefore := UpTo.writers hq _ st hst
      rw [acked_advanceAcked]
      exact ⟨hbefore.next_le, hbefore.window_le⟩
    unfold handleAcknack
    split
    · exact h
    split
    · exact h
    split
    · exact h
    · exact (hkeeps _ _ p h).1
  · intro msg dst hsend
    rcases resends_handleAcknack _ hsend msg dst rfl with hkeeps | ⟨g, -, -, hmsg⟩
    · exact .inl hkeeps
    · exact .inr (.inr (.inr ⟨g, hmsg⟩))

end RtpsParticipant

namespace RtpsUdpParticipant

variable {s : RtpsUdpParticipant} {e : ParticipantEvent} {last : ℕ}

/-- Nothing but what is written or received brings a participant numbers. -/
lemma upTo_step (h : s.inner.UpTo last) (hwrite : ∀ w utc payload, e ≠ .write w utc payload)
    (hdata : ∀ d, e ≠ .dataPacket d) : (s.step e).inner.UpTo last := by
  cases e with
  | write w utc payload => exact absurd rfl (hwrite w utc payload)
  | dataPacket d => exact absurd rfl (hdata d)
  | spdpPacket | sweep => exact h
  | sedpPacket data src => exact ⟨h.writers, h.trackers⟩
  | takeMatch =>
    rw [step, handle, takeMatch]
    cases s.pendingMatches with
    | nil => exact h
    | cons m ms => exact (RtpsParticipant.keepsTrackers_addSources _ _ _).upTo h h.writers
  | takePeer =>
    rw [step, handle, takePeer]
    cases s.pendingPeers with
    | nil => exact h
    | cons proxy proxies => exact ⟨h.writers, h.trackers⟩
  | unsubscribe eid =>
    refine ⟨h.writers, fun r st hst => ?_⟩
    change (s.inner.readers.erase eid).lookup r = some st at hst
    by_cases hr : r = eid
    · rw [hr, AList.lookup_erase] at hst
      cases hst
    · rw [AList.lookup_erase_ne hr] at hst
      exact h.trackers r st hst
  | newPublisher topic qos =>
    rw [step, handle, newPublisher]
    split
    · exact h
    by_cases hcan : s.inner.CanNumber
    · rw [onInner, RtpsParticipant.newWriterImpl,
        RtpsParticipant.nextEntityNum_of_canNumber _ hcan]
      refine ⟨fun eid st hst => ?_, h.trackers⟩
      rcases Table.lookup_insert_eq_some.mp hst with ⟨-, rfl⟩ | ⟨-, hold⟩
      · refine ⟨Nat.le_add_left 1 last, fun history hhistory => ?_⟩
        have hnew : history = .new := by
          rw [WriterState.new] at hhistory
          dsimp only at hhistory
          split at hhistory <;> cases hhistory
          rfl
        rw [hnew]
        exact ⟨Nat.zero_le _, Nat.zero_le _⟩
      · exact h.writers eid st hold
    · rw [onInner, RtpsParticipant.newWriterImpl,
        RtpsParticipant.nextEntityNum_of_not_canNumber _ hcan]
      exact ⟨h.writers, h.trackers⟩
  | newSubscriber topic qos opts utc =>
    rw [step, handle, newSubscriber]
    split
    · exact h
    refine (RtpsParticipant.keepsTrackers_newReaderImpl _ _ _ _ _ _ _ _).upTo h ?_
    by_cases hcan : s.inner.CanNumber
    · obtain ⟨-, -, -, hwriters, -⟩ := RtpsParticipant.newReaderImpl_of_canNumber hcan topic
        opts qos.reliable qos.transientLocal s.spdp.knownPeers none utc
      rw [hwriters]
      exact h.writers
    · rw [RtpsParticipant.newReaderImpl, RtpsParticipant.nextEntityNum_of_not_canNumber _ hcan]
      exact h.writers

/-- What is written has the next number. -/
lemma seq_le_of_mem_written (h : s.inner.UpTo last) {x : Written} (hx : x ∈ s.written e) :
    x.seq ≤ last + 1 := by
  obtain ⟨w, utc, payload, st, -, hst, -, rfl⟩ := written_cases hx
  exact (h.writers w.eid st hst).next_le

end RtpsUdpParticipant

/-! ## Networks -/

section
variable {ι : Type*} {H : Hosts ι} {i j : ι}

namespace Network

variable {s : Network ι} {e : ParticipantEvent} {log : List Written} {pkt : Packet ι}
  {last last' : ℕ}

/-- No participant, no datagram on its way to a socket for user data and no sample written has a
number beyond `last`. -/
structure Numbered (H : Hosts ι) (s : Network ι) (log : List Written) (last : ℕ) : Prop where
  nodes : ∀ i, (s.node i).inner.UpTo last
  wire : ∀ pkt ∈ s.wire, (∃ j, pkt.dst = (H.host j).addr) ∨ Wrote H log pkt.sender pkt.msg ∨
    Signals (H.host pkt.sender).header last pkt.msg
  log : ∀ x ∈ log, x.seq ≤ last

lemma numbered_start (H : Hosts ι) : Numbered H (start H) [] 0 where
  nodes i := ⟨fun eid st h => (by cases h), fun r st h => (by cases h)⟩
  wire pkt h := (by cases h)
  log x h := (by cases h)

lemma Numbered.mono (h : Numbered H s log last) (hle : last ≤ last') :
    Numbered H s log last' where
  nodes i := (h.nodes i).mono hle
  wire pkt hpkt := (h.wire pkt hpkt).imp_right (Or.imp_right (·.mono hle))
  log x hx := (h.log x hx).trans hle

lemma Numbered.without (h : Numbered H s log last) (k : ℕ) :
    Numbered H (s.without k) log last :=
  ⟨h.nodes, fun pkt hpkt => h.wire pkt (List.mem_of_mem_eraseIdx hpkt), h.log⟩

/-- **A datagram that arrives** at a socket for user data. -/
lemma Numbered.replies [DecidableEq ι] (h : Numbered H s log last) (hhonest : Honest H s)
    (htraces : Traces H s log) (hlog : Unambiguous log) (hlast : last < 2 ^ 64 - 64)
    (hpkt : pkt ∈ s.wire) (hsocket : (H.host j).socketOf pkt.dst = some .userData) {d : Datagram}
    (hd : d.data = pkt.msg) : RtpsParticipant.Replies (s.node j).inner last
      (RtpsParticipant.handleDataPacket d (s.node j).inner) := by
  have hup := h.nodes j
  have hheader := (hhonest.hosted j).own.header_eq
  have hown : (s.node j).inner.guidPrefix = (H.host j).cfg.guidPrefix :=
    congrArg Header.guidPrefix hheader
  have hcases := (h.wire pkt hpkt).resolve_left fun ⟨j', hdst⟩ => by
    rw [hdst, socketOf_addr] at hsocket
    split at hsocket <;> cases hsocket
  by_cases hsender : pkt.sender = j
  · -- its own messages it ignores
    have hdecode : Header.decode d.data = .ok (H.host pkt.sender).header := by
      rw [hd]
      rcases hcases with ⟨x, -, -, hcarried⟩ | ⟨eid, hb, -, -, -, hmsg⟩ | ⟨an, -, hmsg⟩ | ⟨g, hmsg⟩
      · exact hcarried.decode
      all_goals
        rw [hmsg]
        exact decode_wrapInRtpsMessage ..
    rw [RtpsParticipant.handleDataPacket_own hdecode (by rw [hown, hsender]; rfl)]
    exact hup.replies_skip
  have hforeign : (H.host pkt.sender).header.guidPrefix ≠ (s.node j).inner.guidPrefix := by
    rw [hown]
    exact fun heq => hsender (H.prefix_inj _ _ heq)
  rcases hcases with ⟨x, hx, hguid, hcarried⟩ | ⟨eid, hb, -, hfirst, hend, hmsg⟩ |
    ⟨an, hbase, hmsg⟩ | ⟨g, hmsg⟩
  · rw [← hd] at hcarried
    obtain ⟨frags, -, heq | ⟨origin, heq⟩⟩ := RtpsParticipant.handleDataPacket_carriedBy hlog hx
      hguid hcarried hforeign (htraces.assembles j)
    · rw [heq]
      exact ⟨rfl, ⟨hup.writers, hup.trackers⟩, fun msg dst hsend => by cases hsend⟩
    · have hup' : ({ (s.node j).inner with fragAssembler := frags } : RtpsParticipant).UpTo last :=
        ⟨hup.writers, hup.trackers⟩
      have hreplies : RtpsParticipant.Replies _ last (RtpsParticipant.acceptSample d origin x.guid
          x.payload x.seq { (s.node j).inner with fragAssembler := frags }) :=
        hup'.replies_acceptSample hlast (h.log x hx)
      rw [heq]
      exact ⟨hreplies.panic, hreplies.upTo, hreplies.sends⟩
  · rw [RtpsParticipant.handleDataPacket_heartbeat (hd.trans hmsg) hforeign]
    exact hup.replies_handleHeartbeat hlast hfirst hend
  · rw [RtpsParticipant.handleDataPacket_acknack (hd.trans hmsg) hforeign]
    exact hup.replies_handleAcknack hlast hbase
  · rw [RtpsParticipant.handleDataPacket_gap (hd.trans hmsg) hforeign]
    exact hup.replies_skip

variable [DecidableEq ι]

/-- **The step of a participant**, by what it counts and what it sends of samples and of numbers. -/
lemma Numbered.perform (h : Numbered H s log last) (hhonest : Honest H s) (htraces : Traces H s log)
    (hle : last ≤ last') (hup : ((s.node i).step e).inner.UpTo last')
    (hwritten : ∀ x ∈ (s.node i).written e, x.seq ≤ last')
    (hsends : e.socket = .userData → ∀ msg dst,
      .send msg dst ∈ (RtpsUdpParticipant.handle e (s.node i)).out →
        (∃ eid seq, (s.node i).inner.KeepsMessage eid seq msg) ∨
          (∃ x ∈ (s.node i).written e, x.CarriedBy (s.node i).inner.header msg) ∨
            Signals (s.node i).inner.header last' msg) :
    Numbered H (s.perform H i e) (log ++ (s.node i).written e) last' := by
  have hp := hhonest.hosted i
  have hheader := hp.own.header_eq
  have hsub : log ⊆ log ++ (s.node i).written e := List.subset_append_left _ _
  refine ⟨fun j => ?_, fun pkt hpkt => ?_, fun x hx => ?_⟩
  · by_cases hj : j = i
    · subst hj
      rw [node_perform_self]
      exact hup
    · rw [node_perform_of_ne hj]
      exact (h.nodes j).mono hle
  · rcases mem_wire_perform.mp hpkt with hold | ⟨msg, dst, hsend, -, rfl⟩
    · exact ((h.mono hle).wire pkt hold).imp_right (Or.imp_left (·.of_subset hsub))
    cases hsocket : e.socket with
    | metatraffic =>
      rcases RtpsUdpParticipant.sends_cases hsend with ⟨-, info, -, seqNum, -, peer, hpeer, haddr⟩ |
        ⟨hdata, -⟩
      · -- an announcement goes to the metatraffic socket of a participant
        have hshows : ∃ j, H.Shows j peer := by
          rcases hpeer with hpeer | hpeer
          · obtain ⟨key, hkey⟩ := Table.mem_values_iff.mp hpeer
            obtain ⟨j, -, hshows⟩ := hp.spdp.peers key peer hkey
            exact ⟨j, hshows⟩
          · obtain ⟨sent, hsent, hall⟩ := hp.spdp.listener
            rw [RtpsUdpParticipant.pendingPeers, hsent] at hpeer
            exact hall peer (List.mem_of_mem_drop hpeer)
        obtain ⟨j, -, hshows⟩ := hshows
        exact .inl ⟨j, Option.some.inj (haddr.symm.trans hshows)⟩
      · rw [hsocket] at hdata
        cases hdata
    | userData =>
      refine .inr ?_
      rcases hsends hsocket msg dst hsend with ⟨eid, seq, hkeeps⟩ | ⟨x, hx, hcarried⟩ | hsignals
      · exact .inl ((htraces.kept i eid seq msg hkeeps).of_subset hsub)
      · refine .inl ⟨x, List.mem_append_right _ hx, ?_, hheader ▸ hcarried⟩
        rw [RtpsUdpParticipant.guidPrefix_of_mem_written hx]
        exact congrArg Header.guidPrefix hheader
      · rw [hheader] at hsignals
        exact .inr hsignals
  · rcases List.mem_append.mp hx with hold | hnew
    · exact (h.log x hold).trans hle
    · exact hwritten x hnew

/-- A step on the metatraffic socket. -/
lemma Numbered.perform_metatraffic (h : Numbered H s log last) (hhonest : Honest H s)
    (htraces : Traces H s log) (hsocket : e.socket = .metatraffic) :
    Numbered H (s.perform H i e) log last := by
  have hnone : (s.node i).written e = [] := by
    cases e with
    | write => cases hsocket
    | _ => rfl
  have hstep := h.perform (e := e) hhonest htraces le_rfl
    (RtpsUdpParticipant.upTo_step (h.nodes i) (fun w utc payload heq => by
      rw [heq] at hsocket
      cases hsocket) fun d heq => by
      rw [heq] at hsocket
      cases hsocket)
    (fun x hx => by
      rw [hnone] at hx
      cases hx) fun hdata => by
      rw [hsocket] at hdata
      cases hdata
  rwa [hnone, List.append_nil] at hstep

lemma Numbered.receiveMeta (h : Numbered H s log last) (hhonest : Honest H s)
    (htraces : Traces H s log) {now : ℕ} {msg : Bytes} {src : SocketAddr}
    (htrue : H.Truthful (.spdpPacket now msg src)) :
    Numbered H (s.receiveMeta H j now msg src) log last :=
  (h.perform_metatraffic hhonest htraces rfl).perform_metatraffic (hhonest.perform htrue)
    (htraces.perform_of_written_eq_nil hhonest htrue rfl (htraces.assembles j)) rfl

/-- **The step of the network** counts one sample at most. -/
lemma Numbered.step (h : Numbered H s log last) (hhonest : Honest H s) (htraces : Traces H s log)
    (hlog : Unambiguous log) (hlast : last < 2 ^ 64 - 64) (e : NetworkEvent ι) :
    Numbered H (s.step H e) (log ++ writtenAt s e) (last + 1) := by
  have hmono : ∀ {t : Network ι}, Numbered H t log last → Numbered H t (log ++ []) (last + 1) := by
    intro t ht
    rw [List.append_nil]
    exact ht.mono (Nat.le_succ last)
  cases e with
  | act i e =>
    rw [Network.step]
    split
    · rename_i hreceives
      have hnone : writtenAt s (.act i e) = [] := by
        cases e with
        | write => cases hreceives
        | _ => rfl
      rw [hnone]
      exact hmono h
    rename_i hlocal
    cases hsocket : e.socket with
    | metatraffic =>
      have hnone : writtenAt s (.act i e) = [] := by
        cases e with
        | write => cases hsocket
        | _ => rfl
      rw [hnone]
      exact hmono (h.perform_metatraffic hhonest htraces hsocket)
    | userData =>
      cases e with
      | write w utc payload =>
        refine h.perform hhonest htraces (Nat.le_succ last)
          ((h.nodes i).write (by omega) w utc payload)
          (fun x hx => RtpsUdpParticipant.seq_le_of_mem_written (h.nodes i) hx)
          fun _ msg dst hsend => ?_
        rcases (h.nodes i).sends_write (by omega) hsend with hwrites | hsignals
        · exact .inr (.inl (RtpsUdpParticipant.exists_written_of_writes hwrites))
        · exact .inr (.inr hsignals)
      | dataPacket => exact absurd rfl hlocal
      | _ => cases hsocket
  | hear i j now seqNum direct =>
    have htrue := H.truthful_announcement now j seqNum
    rw [Network.step]
    split
    · exact hmono (h.receiveMeta hhonest htraces htrue)
    · exact hmono (h.perform_metatraffic hhonest htraces rfl)
  | deliver k j now utc again =>
    refine hmono (deliver_rule (I := fun t => Numbered H t log last) h
      (fun t k ht => ht.without k) (fun pkt hpkt _ => ?_) fun pkt hpkt hsocket => ?_)
    · exact h.receiveMeta hhonest htraces (.inr fun sp => hhonest.spdp_wire hpkt sp now _)
    · have hreplies := h.replies (d := ⟨now, utc, pkt.msg, pkt.src⟩) hhonest htraces hlog hlast
        hpkt hsocket rfl
      have hstep := h.perform (e := .dataPacket ⟨now, utc, pkt.msg, pkt.src⟩) hhonest htraces
        le_rfl hreplies.upTo (fun x hx => by cases hx)
        fun _ msg dst hsend => (hreplies.sends msg dst hsend).imp_right .inr
      rwa [show (s.node j).written (.dataPacket ⟨now, utc, pkt.msg, pkt.src⟩) = [] from rfl,
        List.append_nil] at hstep
  | lose k => exact hmono (h.without k)

/-- **The run.** -/
lemma numbered_run (H : Hosts ι) (events : List (NetworkEvent ι))
    (hlen : events.length < 2 ^ 64 - 64) (hlog : Unambiguous (written H events)) :
    Honest H (run H (start H) events) ∧
      Traces H (run H (start H) events) (written H events) ∧
        Numbered H (run H (start H) events) (written H events) events.length := by
  induction events using List.reverseRecOn with
  | nil => exact ⟨honest_start H, traces_start H, numbered_start H⟩
  | append_singleton events e ih =>
    have hwritten : written H (events ++ [e]) =
        written H events ++ writtenAt (run H (start H) events) e :=
      (Run.trace_append ..).trans (congrArg (_ ++ ·) (List.append_nil _))
    have hrun : run H (start H) (events ++ [e]) = (run H (start H) events).step H e :=
      List.foldl_append
    rw [List.length_append, List.length_singleton] at hlen ⊢
    rw [hwritten] at hlog ⊢
    rw [hrun]
    have hold := hlog.of_subset (List.subset_append_left _ _)
    obtain ⟨hhonest, htraces, hnumbered⟩ := ih (by omega) hold
    exact ⟨hhonest.step e, htraces.step hhonest hold e,
      hnumbered.step hhonest htraces hold (by omega) e⟩

end Network

end

end RustDds
