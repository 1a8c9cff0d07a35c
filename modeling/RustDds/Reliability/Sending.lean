import RustDds.Rtps.Exchange

/-!
# What a write sends

`sentTo` is what arrives at a set of sockets if nothing is lost.  To the socket of a remote
participant a write sends the messages of its sample, and then, of a reliable writer, the HEARTBEAT
(`sentTo_write`).

On the multicast group the messages are sent once (`sentTo_sendRemote_multicast`).  On the unicast
path they are sent once for every matched reader, in a block each, so a participant gets as many
blocks as it has matched readers (`sentTo_sendRemote_unicast`).
-/

namespace RustDds

/-- The message an effect sends to one of these addresses. -/
def Effect.asSentTo (addrs : List SocketAddr) : Effect → Option Bytes
  | .send msg dst => if dst ∈ addrs then some msg else none
  | _ => none

/-- The messages a trace sends to these addresses, in order. -/
def sentTo (addrs : List SocketAddr) (out : List Effect) : List Bytes :=
  out.filterMap (Effect.asSentTo addrs)

section
variable {addrs : List SocketAddr} {out : List Effect}

@[simp] lemma sentTo_append (a b : List Effect) :
    sentTo addrs (a ++ b) = sentTo addrs a ++ sentTo addrs b := List.filterMap_append ..

lemma sentTo_eq_nil (h : ∀ e ∈ out, ∀ msg dst, e ≠ .send msg dst) : sentTo addrs out = [] := by
  refine List.filterMap_eq_nil_iff.mpr fun e he => ?_
  cases e with
  | send msg dst => exact absurd rfl (h _ he msg dst)
  | _ => rfl

lemma mem_sentTo {msg : Bytes} (h : msg ∈ sentTo addrs out) :
    ∃ dst ∈ addrs, .send msg dst ∈ out := by
  obtain ⟨e, he, hmsg⟩ := List.mem_filterMap.mp h
  cases e with
  | send msg' dst =>
    rw [Effect.asSentTo] at hmsg
    split at hmsg
    · rename_i hdst
      cases hmsg
      exact ⟨dst, hdst, he⟩
    · cases hmsg
  | _ => cases hmsg

lemma mem_sentTo_of_mem {msg : Bytes} {dst : SocketAddr} (hdst : dst ∈ addrs)
    (h : .send msg dst ∈ out) : msg ∈ sentTo addrs out :=
  List.mem_filterMap.mpr ⟨_, h, if_pos hdst⟩

/-- What is sent to one address is received in full, or not at all. -/
lemma sentTo_map_send (msgs : List Bytes) (dst : SocketAddr) :
    sentTo addrs (msgs.map fun msg => .send msg dst) = if dst ∈ addrs then msgs else [] := by
  rw [sentTo, List.filterMap_map]
  split_ifs with hdst
  · rw [List.filterMap_eq_map_iff_forall_eq_some.mpr, List.map_id]
    intro msg _
    exact if_pos hdst
  · refine List.filterMap_eq_nil_iff.mpr fun msg _ => ?_
    exact if_neg hdst

end

namespace RtpsParticipant

variable {p : RtpsParticipant} {w : RtpsWriter} {st : WriterState} {addrs : List SocketAddr}
  {addr : SocketAddr} {msgs : List Bytes}

/-! ### The messages of the sample -/

/-- On the group, each message is sent once. -/
lemma sentTo_sendRemote_multicast {topic : String} {group : SocketAddr}
    (hgroup : p.userDataMulticastAddr = some group) (hmem : group ∈ addrs)
    (hmatched : addr ∈ p.matchedAddrs topic) :
    sentTo addrs (RtpsWriter.sendRemote p topic msgs) = msgs := by
  have hsome : (p.sedp.matchedReaderLocators topic).isEmpty = false := by
    obtain ⟨locator, hlocator, -⟩ := List.mem_filterMap.mp hmatched
    exact List.isEmpty_eq_false_iff.mpr (List.ne_nil_of_mem hlocator)
  rw [RtpsWriter.sendRemote, hsome, hgroup]
  exact (sentTo_map_send msgs group).trans (if_pos hmem)

/-- Nothing is sent to no locators. -/
lemma flatMap_of_isEmpty (locators : List Locator) (f : Locator → List Effect) :
    (if locators.isEmpty then [] else locators.flatMap f) = locators.flatMap f := by
  cases locators <;> rfl

/-- On the unicast path, the messages are sent in a block for every matched reader. -/
lemma sentTo_sendRemote_unicast {topic : String} (hunicast : p.userDataMulticastAddr = none) :
    sentTo [addr] (RtpsWriter.sendRemote p topic msgs) =
      (List.replicate ((p.matchedAddrs topic).count addr) msgs).flatten := by
  rw [RtpsWriter.sendRemote, hunicast, matchedAddrs]
  generalize p.sedp.matchedReaderLocators topic = locators
  dsimp only
  rw [flatMap_of_isEmpty]
  induction locators with
  | nil => rfl
  | cons locator locators ih =>
    rw [List.flatMap_cons, sentTo_append, ih]
    cases haddr : locator.udpAddr with
    | none =>
      rw [List.filterMap_cons_none haddr]
      rfl
    | some addr' =>
      rw [List.filterMap_cons_some haddr, sentTo_map_send]
      by_cases heq : addr' = addr
      · rw [heq, List.count_cons_self, List.replicate_succ, List.flatten_cons]
        simp
      · rw [List.count_cons_of_ne heq, if_neg (by simpa using heq), List.nil_append]

/-! ### The HEARTBEAT -/

/-- All that follows the sample are HEARTBEATs of the history. -/
lemma out_sendHeartbeat {eid : EntityId} {e : Effect} (he : e ∈ (sendHeartbeat eid p).out) :
    ∃ st history first last count dst, p.writers.lookup eid = some st ∧
      st.history = some history ∧ history.firstLast = some (first, last) ∧
        e = .send (heartbeatMessage p.header
          ⟨entityIdUnknown, eid, .fromU64 first, .fromU64 last, count⟩) dst := by
  unfold sendHeartbeat at he
  split at he
  · cases he
  rename_i st hst
  split at he
  · cases he
  rename_i history hhistory
  split at he
  · cases he
  rename_i first last hfirst
  obtain ⟨dst, -, rfl⟩ := List.mem_map.mp he
  exact ⟨st, history, first, last, _, dst, hst, hhistory, hfirst, rfl⟩

/-- Dispatching to the local readers sends nothing. -/
lemma out_dispatchToReaders {origin : Origin} {source : Guid} {topicFilter : Option String}
    {payload : Bytes} {utc : ℤ} {seq : ℕ} : ∀ e ∈ (dispatchToReaders origin source topicFilter
      payload utc seq p).out, ∀ msg dst, e ≠ .send msg dst := by
  rintro e he msg dst rfl
  rw [dispatchToReaders] at he
  rcases List.mem_cons.mp he with heq | he
  · cases heq
  obtain ⟨eid, st, -, he⟩ := Table.mem_out_visit he
  unfold ReaderState.deliver at he
  split at he
  · cases he
  · cases List.mem_singleton.mp he

end RtpsParticipant

/-! ### A write -/

/-- The writer has not come to number `last`, and its history does not reach beyond it. -/
structure WriterState.Before (st : WriterState) (last : ℕ) : Prop where
  next_le : st.seq + 1 ≤ last
  window_le : ∀ history, st.history = some history →
    history.lowest ≤ last ∧ history.highest ≤ last

/-- A HEARTBEAT of the writer, of numbers up to `last`. -/
def IsHeartbeat (header : Header) (eid : EntityId) (last : ℕ) (m : Bytes) : Prop :=
  ∃ hb : Heartbeat, hb.writerEntityId = eid ∧ hb.firstSn.toU64 ≤ last ∧ hb.lastSn.toU64 ≤ last ∧
    m = heartbeatMessage header hb

lemma SendHistory.store_le {h : SendHistory} {seq last : ℕ} (m : Bytes) (hseq : seq ≤ last)
    (hwindow : h.lowest ≤ last ∧ h.highest ≤ last) :
    (h.store seq m).lowest ≤ last ∧ (h.store seq m).highest ≤ last := by
  obtain ⟨hlow, hhigh⟩ := hwindow
  dsimp only [SendHistory.store]
  cases h.any
  all_goals
    simp only [Bool.false_eq_true, if_false, if_true, maxHistoryDepth]
    split_ifs <;> omega

namespace RtpsParticipant

variable {p : RtpsParticipant} {w : RtpsWriter} {st : WriterState} {addrs : List SocketAddr}
  {msgs : List Bytes} {last seq : ℕ} {utc : ℤ} {payload : Bytes}

/-- What publishing sends: the messages, and then at most HEARTBEATs. -/
lemma sentTo_publish (hst : p.writers.lookup w.eid = some st) (hseq : seq ≤ last)
    (hlast : last < 2 ^ 64) (hwindow : ∀ history, st.history = some history →
      history.lowest ≤ last ∧ history.highest ≤ last) (reliable : Bool) :
    ∃ hbs, sentTo addrs (w.publish utc reliable seq payload msgs p).out =
        sentTo addrs (RtpsWriter.sendRemote p w.topic msgs) ++ hbs ∧
      ∀ m ∈ hbs, IsHeartbeat p.header w.eid last m := by
  let p₁ : RtpsParticipant := { p with
    writers := p.writers.adjust w.eid (WriterState.retain seq msgs)
    lastSample := p.lastSample.insert w.topic
      ⟨w.topic, payload, utc, seq, (⟨p.guidPrefix, w.eid⟩ : Guid).toBytes⟩ }
  let o := dispatchToReaders .write ⟨p.guidPrefix, w.eid⟩ (some w.topic) payload utc seq p₁
  refine ⟨sentTo addrs ((if reliable then sendHeartbeat w.eid else Cmd.skip) o.state).out, ?_,
    fun m hm => ?_⟩
  · rw [RtpsWriter.publish, Cmd.andThen_of_none rfl, Cmd.andThen_of_none rfl,
      Cmd.andThen_of_none panic_dispatchToReaders, Cmd.andThen_of_none rfl]
    dsimp only [Cmd.modify_apply, Cmd.emit_apply]
    rw [List.nil_append, sentTo_append, sentTo_append, sentTo_append,
      sentTo_eq_nil out_dispatchToReaders, List.nil_append]
    -- what is persisted is not sent
    refine (congrArg (· ++ _) (?_ : _ = [])).trans (List.nil_append _)
    cases p.persistDir <;> rfl
  · cases reliable with
    | false => cases hm
    | true =>
      obtain ⟨dst, -, he⟩ := mem_sentTo hm
      obtain ⟨st', history, first, highest, count, dst', hst', hhistory, hfirst, heq⟩ :=
        out_sendHeartbeat he
      obtain ⟨_, _, _, _, hstate⟩ : ReadersOnly p₁ o.state := readersOnly_dispatchToReaders .write
      rw [hstate] at hst' heq
      cases heq
      -- the history it names is the writer's, with the sample stored
      have hle : history.lowest ≤ last ∧ history.highest ≤ last := by
        change (p.writers.adjust w.eid (WriterState.retain seq msgs)).lookup w.eid = _ at hst'
        rw [Table.lookup_adjust_self, hst, Option.map_some, Option.some.injEq] at hst'
        subst hst'
        rcases WriterState.history_retain_cases hhistory with hsame | ⟨m, old, -, hold, rfl⟩
        · exact hwindow history hsame
        · exact SendHistory.store_le m hseq (hwindow old hold)
      rw [SendHistory.firstLast] at hfirst
      split at hfirst
      · cases hfirst
        refine ⟨_, rfl, ?_, ?_, rfl⟩
        all_goals
          dsimp only
          rw [SequenceNumber.toU64_fromU64 (by omega)]
          omega
      · cases hfirst

/-- A write numbers its sample, and then publishes it if it can be put into messages. -/
lemma write_eq (hst : p.writers.lookup w.eid = some st) (hseq : st.seq + 1 < 2 ^ 64) :
    ∃ q : RtpsParticipant, q.header = p.header ∧ q.sedp = p.sedp ∧
      q.userDataMulticastAddr = p.userDataMulticastAddr ∧
      q.writers.lookup w.eid = some { st with seq := st.seq + 1 } ∧
      w.write utc payload p =
        match wireMessages p.header w.eid (st.seq + 1) payload with
        | .error e => Cmd.fail e q
        | .ok msgs => w.publish utc st.reliable (st.seq + 1) payload msgs q := by
  have hwrap : wrappingAdd 64 st.seq 1 = st.seq + 1 := Nat.mod_eq_of_lt hseq
  refine ⟨countTopic w.topic (fun c => { c with
    writes := c.writes + 1
    bytesWritten := c.bytesWritten + UInt64.ofNat payload.length })
      { p with writers := p.writers.adjust w.eid ({ · with seq := st.seq + 1 }) },
    rfl, rfl, rfl, ?_, ?_⟩
  · show (p.writers.adjust w.eid _).lookup w.eid = _
    rw [Table.lookup_adjust_self, hst]
    rfl
  · simp only [RtpsWriter.write, hst, checkedAdd_of_lt hseq, hwrap]
    rfl

/-- **A write** sends the messages of its sample, and then at most HEARTBEATs. -/
lemma sentTo_write (hst : p.writers.lookup w.eid = some st) (hbefore : st.Before last)
    (hlast : last < 2 ^ 64)
    (hmsgs : wireMessages p.header w.eid (st.seq + 1) payload = .ok msgs) :
    ∃ hbs, sentTo addrs (w.write utc payload p).out =
        sentTo addrs (RtpsWriter.sendRemote p w.topic msgs) ++ hbs ∧
      ∀ m ∈ hbs, IsHeartbeat p.header w.eid last m := by
  have hnext := hbefore.next_le
  obtain ⟨q, hheader, hsedp, hgroup, hst', hwrite⟩ :=
    @write_eq p w st utc payload hst (by omega)
  have hremote : RtpsWriter.sendRemote q w.topic msgs = RtpsWriter.sendRemote p w.topic msgs := by
    rw [RtpsWriter.sendRemote, RtpsWriter.sendRemote, hsedp, hgroup]
  rw [hwrite, hmsgs, ← hremote, ← hheader]
  exact sentTo_publish hst' hnext hlast hbefore.window_le _

/-- A sample that cannot be put into messages is not sent. -/
lemma sentTo_write_of_error (hst : p.writers.lookup w.eid = some st)
    (hseq : st.seq + 1 < 2 ^ 64) {e : Panic}
    (herror : wireMessages p.header w.eid (st.seq + 1) payload = .error e) :
    sentTo addrs (w.write utc payload p).out = [] := by
  obtain ⟨q, -, -, -, -, hwrite⟩ := @write_eq p w st utc payload hst hseq
  rw [hwrite, herror]
  rfl

end RtpsParticipant

end RustDds
