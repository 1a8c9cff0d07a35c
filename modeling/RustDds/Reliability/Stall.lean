import RustDds.Reliability.OwnHistory
import RustDds.Reliability.Round
import RustDds.Reliability.Sending

/-!
# A reader behind the history

A writer that has evicted what a reader still waits for declares it in a GAP.  The reader ignores
that: of all that a round brings it, only samples move its watermark, and they all lie behind the
part that is gone.

So a round raises the watermark of a reader that is behind the history exactly if it is the first
contact, in which the HEARTBEAT itself anchors the reader at the history (`raised_iff`).  After any
later round the reader asks for the same window again.
-/

namespace RustDds

namespace RtpsParticipant

variable {p q : RtpsParticipant} {eid r : EntityId} {history : SendHistory}
  {first last : ℕ} {dst : SocketAddr} {t : RecvTracker} {d : Datagram}

/-- The reliable writer `eid` retains the numbers from `first` to `last`, and is matched with a
reader at `dst`. -/
structure Offers (p : RtpsParticipant) (eid : EntityId) (history : SendHistory) (first last : ℕ)
    (dst : SocketAddr) : Prop where
  writer : ∃ st, p.writers.lookup eid = some st ∧ st.reliable = true ∧
    st.history = some history ∧ dst ∈ p.matchedAddrs st.topic
  window : history.firstLast = some (first, last)

/-- What the writer of a reached participant offers is its own. -/
lemma Offers.own (h : p.Offers eid history first last dst)
    (hp : RtpsUdpParticipant.Reached p) : history.Own p.header eid := by
  obtain ⟨cfg, events, rfl⟩ := hp
  obtain ⟨st, hst, -, hhistory, -⟩ := h.writer
  exact (RtpsUdpParticipant.ownHistories_after cfg events).own _ _ _ hst hhistory

/-! ### What the answer brings -/

/-- A message that a writer has kept of its sample `seq`, or one that concerns no sample. -/
def Brought (header : Header) (eid : EntityId) (first last : ℕ) (m : Bytes) : Prop :=
  (∃ s, first ≤ s ∧ s ≤ last ∧ OwnMessage header eid s m) ∨ ∃ gap, m = gapMessage header gap

lemma get_bounds {s : ℕ} {m : Bytes} (hfl : history.firstLast = some (first, last))
    (hget : history.get s = some m) : first ≤ s ∧ s ≤ last := by
  unfold SendHistory.firstLast at hfl
  split at hfl
  · simp only [Option.some.injEq, Prod.mk.injEq] at hfl
    by_contra hout
    rw [SendHistory.get, if_pos (by omega)] at hget
    cases hget
  · cases hfl

/-- All that is sent in answer to an ACKNACK is of that kind. -/
lemma Offers.brought {an : AckNack} {src : SocketAddr} {m : Bytes}
    (h : p.Offers an.writerEntityId history first last dst)
    (hp : RtpsUdpParticipant.Reached p) 
    (hbound : an.base.toU64 + 31 < 2 ^ 64) (hm : .send m dst ∈ (handleAcknack an src p).out) :
    Brought p.header an.writerEntityId first last m := by
  obtain ⟨st, hst, hreliable, hhistory, -⟩ := h.writer
  rw [handleAcknack_eq_answer hst hreliable hhistory hbound] at hm
  rcases List.mem_append.mp hm with hresent | hgap
  · obtain ⟨bit, -, hmem⟩ := List.mem_flatMap.mp hresent
    obtain ⟨m', dst', hget, -, heq⟩ := mem_resends.mp hmem
    cases heq
    obtain ⟨hge, hle⟩ := get_bounds h.window hget
    exact Or.inl ⟨_, hge, hle, (h.own hp).get hget⟩
  · obtain ⟨gap, -, hmem⟩ := List.mem_flatMap.mp hgap
    obtain ⟨dst', -, heq⟩ := List.mem_map.mp hmem
    cases heq
    exact Or.inr ⟨gap, rfl⟩

/-! ### What it does to the trackers -/

/-- Behind its watermark nothing moves a tracker but a sample at the watermark. -/
structure Waits (first last : ℕ) (t t' : RecvTracker) : Prop where
  within : t'.Within last
  done : t'.inner.val.initDone = true
  expected_le : t.inner.val.expected ≤ t'.inner.val.expected
  stays : t.inner.val.expected < first → t'.inner.val.expected = t.inner.val.expected

lemma Waits.trans {t' t'' : RecvTracker} (h : Waits first last t t')
    (h' : Waits first last t' t'') : Waits first last t t'' where
  within := h'.within
  done := h'.done
  expected_le := h.expected_le.trans h'.expected_le
  stays := fun hlt => by
    have heq := h.stays hlt
    rw [h'.stays (by omega), heq]

/-- Accepting a sample of the history, where the fragments that make it whole may have come
before. -/
lemma tracks_acceptSample {origin : Origin} {source : Guid} {payload : Bytes} {s : ℕ}
    (hfollows : q.Follows source last) (hbound : last < 2 ^ 64 - 64) (hge : first ≤ s)
    (hle : s ≤ last) (ht : q.Tracks source r t) (hdone : t.inner.val.initDone = true) :
    (acceptSample d origin source payload s q).state.Follows source last ∧
      ∃ t', (acceptSample d origin source payload s q).state.Tracks source r t' ∧
        Waits first last t t' := by
  have hto := @tracksTo_acceptSample q source last s d origin payload hfollows hbound hle
  refine ⟨fun r' t' ht' => ?_, ?_⟩
  · obtain ⟨t₀, -, hrecords⟩ := hto.2 r' t' ht'
    exact hrecords.within
  · obtain ⟨t', ht', hrecords⟩ := hto.1 r t ht
    exact ⟨t', ht', hrecords.within, hrecords.done, hrecords.expected_le hdone,
      fun hlt => hrecords.stays hdone (by omega)⟩

/-- **One message of the answer.** -/
lemma tracks_brought {header : Header} (hm : Brought header eid first last d.data)
    (hforeign : header.guidPrefix ≠ q.guidPrefix)
    (hfollows : q.Follows ⟨header.guidPrefix, eid⟩ last) (hbound : last < 2 ^ 64 - 64)
    (ht : q.Tracks ⟨header.guidPrefix, eid⟩ r t) (hdone : t.inner.val.initDone = true) :
    (handleDataPacket d q).state.Follows ⟨header.guidPrefix, eid⟩ last ∧
      ∃ t', (handleDataPacket d q).state.Tracks ⟨header.guidPrefix, eid⟩ r t' ∧
        Waits first last t t' := by
  have hsame : Waits first last t t := ⟨hfollows r t ht, hdone, le_rfl, fun _ => rfl⟩
  rcases hm with ⟨s, hge, hle, hown⟩ | ⟨gap, hgap⟩
  · obtain ⟨frags, ⟨hstate, -⟩ | ⟨origin, payload, haccept⟩⟩ :=
      handleDataPacket_ofSample hown.ofSample hown.1 hforeign
    · -- the assembler is no concern of the trackers
      rw [hstate]
      exact ⟨hfollows, t, ht, hsame⟩
    · rw [haccept]
      exact tracks_acceptSample hfollows hbound hge hle ht hdone
  · rw [handleDataPacket_gap hgap hforeign]
    exact ⟨hfollows, t, ht, hsame⟩

/-- **The whole answer**, in any order. -/
lemma tracks_receiveAll_brought {header : Header} {ds : List Datagram}
    (hds : ∀ d ∈ ds, Brought header eid first last d.data)
    (hforeign : header.guidPrefix ≠ q.guidPrefix)
    (hfollows : q.Follows ⟨header.guidPrefix, eid⟩ last) (hbound : last < 2 ^ 64 - 64)
    (ht : q.Tracks ⟨header.guidPrefix, eid⟩ r t) (hdone : t.inner.val.initDone = true) :
    ∃ t', (receiveAll ds q).state.Tracks ⟨header.guidPrefix, eid⟩ r t' ∧
      Waits first last t t' := by
  induction ds generalizing q t with
  | nil => exact ⟨t, ht, hfollows r t ht, hdone, le_rfl, fun _ => rfl⟩
  | cons d ds ih =>
    obtain ⟨hfollows₁, t₁, ht₁, hwaits⟩ :=
      tracks_brought (hds d List.mem_cons_self) hforeign hfollows hbound ht hdone
    have hown : (handleDataPacket d q).state.guidPrefix = q.guidPrefix :=
      (keeps_handleDataPacket q d).1.guidPrefix_eq
    obtain ⟨t', ht', hwaits'⟩ := ih (fun d' hd' => hds d' (List.mem_cons_of_mem _ hd'))
      (hown ▸ hforeign) hfollows₁ ht₁ hwaits.done
    rw [receiveAll, Cmd.calls_cons]
    exact ⟨t', ht', hwaits.trans hwaits'⟩

/-! ### A round -/

/-- The reader `r` of `q` is behind the history that `p` offers: it waits for a number that has
been evicted. -/
structure Behind (p q : RtpsParticipant) (eid r : EntityId) (history : SendHistory)
    (first last : ℕ) (dst : SocketAddr) (t : RecvTracker) : Prop where
  offers : p.Offers eid history first last dst
  last_lt : last < 2 ^ 64 - 64
  foreign : p.guidPrefix ≠ q.guidPrefix
  heard : ∀ r t, q.Tracks ⟨p.guidPrefix, eid⟩ r t → t.HeardUpTo last
  tracks : q.Tracks ⟨p.guidPrefix, eid⟩ r t
  behind : t.inner.val.expected < first

/-- The HEARTBEAT of the history. -/
structure Advertises (p : RtpsParticipant) (eid : EntityId) (first last : ℕ) (d : Datagram)
    (hb : Heartbeat) : Prop where
  writer : hb.writerEntityId = eid
  firstSn : hb.firstSn = .fromU64 first
  lastSn : hb.lastSn = .fromU64 last
  data : d.data = heartbeatMessage p.header hb

/-- The ACKNACK with which the reader answers it, and the answer to that. -/
structure Answered (p q : RtpsParticipant) (r : EntityId) (dst : SocketAddr) (d : Datagram)
    (an : AckNack) (dAck : Datagram) (ds : List Datagram) : Prop where
  reader : an.readerEntityId = r
  sent : .send (ReaderState.acknackMessage q.header an) d.src ∈ (handleDataPacket d q).out
  data : dAck.data = ReaderState.acknackMessage q.header an
  relays : Relays dst (handleDataPacket dAck p).out ds

variable {hb : Heartbeat} {an : AckNack} {dAck : Datagram} {ds : List Datagram}

/-- The tracker after the HEARTBEAT, and what the reader asks for. -/
lemma Behind.heartbeat (h : Behind p q eid r history first last dst t)
    (hp : RtpsUdpParticipant.Reached p) (hd : p.Advertises eid first last d hb) :
    ((handleDataPacket d q).state.Follows ⟨p.guidPrefix, eid⟩ last ∧
      ∃ t₁, (handleDataPacket d q).state.Tracks ⟨p.guidPrefix, eid⟩ r t₁ ∧ t₁.Within last ∧
        t₁.inner.val = t.inner.val.initExpected first) ∧
    ∃ bitmap count, ∀ an : AckNack, an.readerEntityId = r →
      (.send (ReaderState.acknackMessage q.header an) d.src ∈ (handleDataPacket d q).out ↔
        an = ⟨r, eid, .fromU64 (t.inner.val.initExpected first).expected, bitmap, count⟩) := by
  have hbound := h.last_lt
  have hle := (h.offers.own hp).first_le h.offers.window
  have hfollows : q.Follows ⟨p.guidPrefix, eid⟩ last :=
    fun r t ht => (h.heard r t ht).within hbound
  have hsn : hb.firstSn.toU64 = first ∧ hb.lastSn.toU64 = last := by
    rw [hd.firstSn, hd.lastSn]
    exact ⟨SequenceNumber.toU64_fromU64 (by omega), SequenceNumber.toU64_fromU64 (by omega)⟩
  have hfirst : hb.firstSn.toU64 ≤ last := hsn.1 ▸ hle
  have hlast : hb.lastSn.toU64 ≤ last := hsn.2.le
  have hheader : p.header.guidPrefix ≠ q.guidPrefix := by
    rw [guidPrefix_header]
    exact h.foreign
  have hrun : handleDataPacket d q = handleHeartbeat ⟨p.guidPrefix, eid⟩ hb d.src q := by
    rw [handleDataPacket_heartbeat hd.data hheader, hd.writer, guidPrefix_header]
  have htracks := (@handleHeartbeat_step q ⟨p.guidPrefix, eid⟩ last d.src hb hfollows hbound
    hfirst hlast).2
  rw [← hrun, hsn.1] at htracks
  refine ⟨⟨fun r' t' ht' => ?_, ?_⟩, ?_⟩
  · obtain ⟨-, -, hwithin, -⟩ := htracks.2 r' t' ht'
    exact hwithin
  · obtain ⟨t₁, ht₁, hwithin, hval⟩ := htracks.1 r t h.tracks
    exact ⟨t₁, ht₁, hwithin, hval⟩
  · -- the watermark is not behind the history, or at its start
    obtain ⟨hexpected, -⟩ := (hfollows r t h.tracks).initExpected hle
    have hwithin : (t.inner.val.initExpected first).WF :=
      (hfollows r t h.tracks).wf.initExpected (by omega)
    have hat : (t.inner.val.initExpected first).expected ≤ last := by
      rw [RecvTrackerInner.initExpected]
      split
      · exact h.behind.le.trans hle
      · exact hle
    obtain ⟨⟨base, bitmap, need⟩, hmissing⟩ :=
      RecvTracker.Within.missing_isOk hbound hexpected (le_refl last)
    obtain ⟨rfl, hneed, -⟩ := RecvTrackerInner.missing_spec hwithin
      (RecvTrackerInner.initDone_initExpected ..) hmissing
    rw [hneed.mpr hat] at hmissing
    obtain ⟨count, hack⟩ := @exists_acknack q ⟨p.guidPrefix, eid⟩ r t last d.src hb hfollows hbound
      hfirst hlast h.tracks _ bitmap (by rw [hsn.1, hsn.2]; exact hmissing)
    rw [← hrun] at hack
    exact ⟨bitmap, count, hack⟩

/-- **The watermark after the round.** -/
lemma Behind.round (h : Behind p q eid r history first last dst t)
    (hp : RtpsUdpParticipant.Reached p) (hd : p.Advertises eid first last d hb)
    (ha : Answered p q r dst d an dAck ds) :
    ∃ t', (receiveAll ds (handleDataPacket d q).state).state.Tracks ⟨p.guidPrefix, eid⟩ r t' ∧
      t'.Within last ∧ t'.inner.val.initDone = true ∧
      (t.inner.val.initDone = false → first ≤ t'.inner.val.expected) ∧
      (t.inner.val.initDone = true → t'.inner.val.expected = t.inner.val.expected) := by
  obtain ⟨⟨hfollows, t₁, ht₁, -, hval⟩, bitmap, count, hack⟩ := h.heartbeat hp hd
  have han := (hack an ha.reader).mp ha.sent
  have hlast := h.last_lt
  have hle := (h.offers.own hp).first_le h.offers.window
  have hbehind := h.behind
  -- the request is for the window at the watermark
  have hexpected : t₁.inner.val.expected ≤ last := by
    rw [hval, RecvTrackerInner.initExpected]
    split
    · exact hbehind.le.trans hle
    · exact hle
  have hbase : an.base.toU64 + 31 < 2 ^ 64 := by
    rw [han, ← hval]
    dsimp only
    rw [SequenceNumber.toU64_fromU64 (by omega)]
    omega
  have hown : (handleDataPacket d q).state.guidPrefix = q.guidPrefix :=
    (keeps_handleDataPacket q d).1.guidPrefix_eq
  have hforeign : q.header.guidPrefix ≠ p.guidPrefix := by
    rw [guidPrefix_header]
    exact h.foreign.symm
  have hforeign' : p.header.guidPrefix ≠ (handleDataPacket d q).state.guidPrefix := by
    rw [guidPrefix_header, hown]
    exact h.foreign
  have hwriter : an.writerEntityId = eid := by rw [han]
  have hds : ∀ d' ∈ ds, Brought p.header eid first last d'.data := by
    intro d' hd'
    have hsend := (ha.relays _).mp ⟨d', hd', rfl⟩
    rw [handleDataPacket_acknack ha.data hforeign] at hsend
    rw [← hwriter] at h ⊢
    exact h.offers.brought hp hbase hsend
  have hdone : t₁.inner.val.initDone = true := by
    rw [hval]
    exact RecvTrackerInner.initDone_initExpected ..
  obtain ⟨t', ht', hwaits⟩ :=
    tracks_receiveAll_brought hds hforeign' hfollows hlast ht₁ hdone
  refine ⟨t', ht', hwaits.within, hwaits.done, fun hnew => ?_, fun hcontact => ?_⟩
  · have hat : t₁.inner.val.expected = first := by
      rw [hval, RecvTrackerInner.initExpected, if_neg (by simp [hnew])]
    exact hat ▸ hwaits.expected_le
  · rw [RecvTrackerInner.initExpected_of_done hcontact] at hval
    rw [hwaits.stays (by rw [hval]; exact hbehind), hval]

/-- What is sent to an address can be relayed. -/
lemma exists_relays (dst : SocketAddr) (out : List Effect) : ∃ ds, Relays dst out ds := by
  refine ⟨(sentTo [dst] out).map fun msg => ⟨0, 0, msg, dst⟩, fun msg => ⟨?_, fun hmem => ?_⟩⟩
  · rintro ⟨d, hd, rfl⟩
    obtain ⟨msg, hmsg, rfl⟩ := List.mem_map.mp hd
    obtain ⟨dst', hdst, hmem⟩ := mem_sentTo hmsg
    exact List.mem_singleton.mp hdst ▸ hmem
  · exact ⟨_, List.mem_map_of_mem (mem_sentTo_of_mem (List.mem_singleton_self dst) hmem), rfl⟩

end RtpsParticipant

namespace RtpsUdpParticipant

open RtpsParticipant

/-- The header of the writer's messages. -/
def writerHeader : Header :=
  ⟨protocolVersion23, vendorIdRustDds, (ParticipantConfig.numbered 2).guidPrefix⟩

/-- The participant of the matched writer after `n` writes. -/
def senderOf (n : ℕ) : RtpsParticipant :=
  (after (.numbered 2) ((matchedWriter []).take 2 ++
    List.replicate n (.write ⟨entityIdForWriter 1, "a"⟩ 0 [7]))).inner

lemma senderOf_succ (n : ℕ) : senderOf (n + 1) =
    (RtpsWriter.write ⟨entityIdForWriter 1, "a"⟩ 0 [7] (senderOf n)).state := by
  rw [senderOf, List.replicate_succ', ← List.append_assoc, after, List.foldl_append]
  rfl

/-- A write leaves the writer matched, and its participant what it is. -/
lemma steady_senderOf (n : ℕ) : Steady senderOfNone (senderOf n) := by
  induction n with
  | zero => exact Steady.refl _
  | succ n ih =>
    rw [senderOf_succ]
    exact ih.trans (steady_write ..)

/-- The message of each of its samples. -/
def senderMessage (s : ℕ) : Bytes := dataMessage writerHeader (entityIdForWriter 1) s [7]

/-- The history holds the last of the samples. -/
lemma holds_senderOf {n : ℕ} (hn : n + 1 < 2 ^ 64) : ∃ st history,
    (senderOf (n + 1)).writers.lookup (entityIdForWriter 1) = some st ∧ st.topic = "a" ∧
      st.reliable = true ∧ st.seq = n + 1 ∧ st.history = some history ∧
        history.Holds 1 (n + 1) senderMessage := by
  have hheader (n : ℕ) : (senderOf n).header = writerHeader := (steady_senderOf n).header_eq
  rw [senderOf_succ]
  induction n with
  | zero =>
    have hnone : (senderOf 0).writers.lookup (entityIdForWriter 1) = some (.new "a" true) := rfl
    obtain ⟨hbCount, hst⟩ := @retaining_write _ _ _ ⟨entityIdForWriter 1, "a"⟩ 0 [7] hnone rfl
      (by decide) (by decide)
    obtain ⟨hany, hhighest, hlowest, hslot⟩ := SendHistory.holds_store_new 1 senderMessage
    rw [hheader] at hst
    exact ⟨_, _, hst, rfl, rfl, rfl, rfl, ⟨hany, hhighest, hlowest, hslot⟩⟩
  | succ n ih =>
    obtain ⟨st, history, hst, htopic, hreliable, hseq, hhistory, hholds⟩ := ih (by omega)
    rw [← senderOf_succ] at hst
    obtain ⟨hbCount, hst'⟩ := @retaining_write _ _ _ ⟨entityIdForWriter 1, "a"⟩ 0 [7] hst hhistory
      (by omega) (by decide)
    obtain ⟨hany, hhighest, hlowest, hslot⟩ := hholds.store (by omega)
    rw [hheader, hseq] at hst'
    exact ⟨_, _, hst', htopic, hreliable, rfl, rfl, ⟨hany, hhighest, hlowest, hslot⟩⟩

/-- What the writer offers. -/
lemma offers_senderOf {n : ℕ} (hn : n + 1 < 2 ^ 64) : ∃ history,
    (senderOf (n + 1)).Offers (entityIdForWriter 1) history
      (max 1 (n + 2 - maxHistoryDepth)) (n + 1) receiverAddr := by
  obtain ⟨st, history, hst, htopic, hreliable, -, hhistory, hholds⟩ := holds_senderOf hn
  have hmatched : receiverAddr ∈ senderOfNone.matchedAddrs "a" := by decide +kernel
  rw [matchedAddrs, ← (steady_senderOf (n + 1)).sedp_eq, ← matchedAddrs, ← htopic] at hmatched
  exact ⟨history, ⟨st, hst, hreliable, hhistory, hmatched⟩, hholds.firstLast_eq⟩

/-- The writer under its participant. -/
def senderGuid : Guid := ⟨writerHeader.guidPrefix, entityIdForWriter 1⟩

/-- The HEARTBEAT of a history. -/
def heartbeatOf (first last : ℕ) : Heartbeat :=
  ⟨entityIdUnknown, entityIdForWriter 1, .fromU64 first, .fromU64 last, 1⟩

/-- Its datagram. -/
def heartbeatDatagram (first last : ℕ) : Datagram :=
  ⟨0, 0, heartbeatMessage writerHeader (heartbeatOf first last), receiverAddr⟩

/-- The participant of a reader that has had one HEARTBEAT, and nothing of the samples. -/
def receiverOfContact : RtpsParticipant :=
  (after (.numbered 1) (matchedReader ++ [.dataPacket (heartbeatDatagram 1 1)])).inner

/-- Its tracker of the writer: anchored at the first number, with one ACKNACK sent. -/
def contactTracker : RecvTracker :=
  (RecvTracker.report (fun t => t.initExpected 1) 1 .new).2.nextAckCount.2

lemma trackerFor_receiverOfContact {r : EntityId} {t : RecvTracker}
    (h : receiverOfContact.Tracks senderGuid r t) : t = contactTracker := by
  have hall : ∀ e ∈ receiverOfContact.readers.entries,
      e.2.trackerFor senderGuid = contactTracker := by decide +kernel
  obtain ⟨st, hst, -, rfl⟩ := h
  exact hall ⟨r, st⟩ (Table.mem_entries_iff.mpr hst)

lemma tracks_receiverOfContact :
    receiverOfContact.Tracks senderGuid (entityIdForReader 1) contactTracker := by
  have hfound : ((receiverOfContact.readers.lookup (entityIdForReader 1)).any fun st =>
      decide (st.Hears receiverOfContact.guidPrefix senderGuid)) = true := by decide +kernel
  obtain ⟨st, hst, htrue⟩ := (Option.any_eq_true _ _).mp hfound
  have htracks : receiverOfContact.Tracks senderGuid (entityIdForReader 1)
      (st.trackerFor senderGuid) := ⟨st, hst, of_decide_eq_true htrue, rfl⟩
  rwa [trackerFor_receiverOfContact htracks] at htracks

/-- After 257 writes the reader is behind the history. -/
lemma exists_behind : ∃ p history, Reached p ∧ p.header = writerHeader ∧
    Behind p receiverOfContact (entityIdForWriter 1) (entityIdForReader 1) history 2 257
      receiverAddr contactTracker := by
  obtain ⟨history, hoffers⟩ := @offers_senderOf 256 (by decide)
  have hreached : Reached (senderOf 257) := ⟨_, _, rfl⟩
  have hheader : (senderOf 257).header = writerHeader := (steady_senderOf 257).header_eq
  generalize senderOf 257 = p at hoffers hreached hheader
  have hguid : p.guidPrefix = writerHeader.guidPrefix := by rw [← hheader, guidPrefix_header]
  have htracker : contactTracker.HeardUpTo 257 :=
    .acknack (.heartbeat .new (by decide) (by decide))
  refine ⟨p, history, hreached, hheader, hoffers, by decide, ?_, fun r t ht => ?_, ?_, by decide⟩
  · rw [hguid]
    decide +kernel
  · rw [hguid] at ht
    rw [trackerFor_receiverOfContact ht]
    exact htracker
  · rw [hguid]
    exact tracks_receiverOfContact

end RtpsUdpParticipant

end RustDds
