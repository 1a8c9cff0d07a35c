import RustDds.Mock.Broker
import RustDds.Rtps.Participant

/-!
# The log of payloads of the mock participant

A publisher of the mock participant is a `RecordingPublisher`: it puts the payload into the log of
the participant and hands the write on to the `MockPublisher` inside, which has the checks.  So a
write that is refused is in the log, and only one that `write_ctx` gives up before leaves no trace
(`unchanged_iff_admits`).

Here a participant is all that it has: the topics of its broker with caches and counters, the
queues of its subscribers, its publishers, and the log.  Calls are taken one at a time.  Deadline
watchers are left out.
-/

namespace RustDds

/-- Why a call failed. -/
inductive MockError
  | closed
  | topicEmpty
  | payloadTooLarge
  | timeout
  deriving DecidableEq, Repr

/-- A topic of the broker.  A subscriber is the position of its queue. -/
structure MockTopicState where
  subscribers : List ℕ
  cache : List Sample
  historyDepth : ℕ
  metrics : TopicCounters
  deriving DecidableEq

namespace MockTopicState

/-- A new topic. -/
def new (qos : DeliveryQoS) : MockTopicState := ⟨[], [], (max qos.historyDepth 1).toNat, .zero⟩

/-- `push_to_cache`. -/
def pushToCache (st : MockTopicState) (sample : Sample) : MockTopicState :=
  if st.historyDepth > 0 then
    { st with cache :=
        (if st.cache.length ≥ st.historyDepth then st.cache.tail else st.cache) ++ [sample] }
  else st

/-- Count a write. -/
def countWrite (st : MockTopicState) (sample : Sample) : MockTopicState :=
  { st with metrics := { st.metrics with
      writes := st.metrics.writes + 1
      bytesWritten := st.metrics.bytesWritten + UInt64.ofNat sample.payload.length } }

/-- Count a push as a delivery or a drop. -/
def countPush (st : MockTopicState) (sample : Sample) (accepted : Bool) : MockTopicState :=
  if accepted then
    { st with metrics := { st.metrics with
        delivers := st.metrics.delivers + 1
        bytesDelivered := st.metrics.bytesDelivered + UInt64.ofNat sample.payload.length } }
  else { st with metrics := { st.metrics with drops := st.metrics.drops + 1 } }

end MockTopicState

/-- A participant, with its broker, and with its publishers and the queues of its subscribers in
the order in which they were created. -/
structure MockParticipant where
  guidPrefix : GuidPrefix
  closed : Bool
  pubCounter : UInt64
  topics : Table String MockTopicState
  queues : List SubInner
  publishers : List Publication
  writtenPayloads : List (String × Bytes)

/-- A call on a participant, or on something it returned. -/
inductive MockCall
  | newPublisher (topic : String) (qos : DeliveryQoS)
  | newSubscriber (topic : String) (qos : DeliveryQoS) (opts : SubscriberOptions)
  | write (publisher : ℕ) (now : ℤ) (payload : Bytes)
  /-- With a context that is done, or not. -/
  | writeCtx (publisher : ℕ) (done : Bool) (now : ℤ) (payload : Bytes)
  | closePublisher (publisher : ℕ)
  | recv (subscriber : ℕ)
  | closeSubscriber (subscriber : ℕ)
  | unsubscribe (subscriber : ℕ)
  /-- Drain the log. -/
  | reset
  | close
  deriving DecidableEq

/-- What a call returns, if it does. -/
abbrev MockResult := Except Panic (Except MockError Unit)

namespace MockParticipant

/-- A new participant. -/
def new (guidPrefix : GuidPrefix) : MockParticipant := ⟨guidPrefix, false, 0, ∅, [], [], []⟩

variable (p : MockParticipant)

/-- `make_guid`. -/
def makeGuid (id : UInt64) : Guid := (DeliveryConfig.mk .mock p.guidPrefix 0).makeGuid id

/-- The entry of a topic, which is made when it is first needed. -/
def entry (topic : String) (qos : DeliveryQoS) : MockTopicState :=
  (p.topics.lookup topic).getD (.new qos)

/-- A load of the closed flag of a queue. -/
def isClosed (r : ℕ) : Bool := (p.queues[r]?.map SubInner.closed).getD false

/-- Push a sample into a queue and count it. -/
def pushTo (sample : Sample) (st : MockTopicState × List SubInner) (r : ℕ) :
    MockTopicState × List SubInner :=
  match st.2[r]? with
  | none => st
  | some inner =>
    let pushed := inner.push sample
    (st.1.countPush sample pushed.1, st.2.set r pushed.2)

/-- `Broker::publish`. -/
def publish (topic : String) (sample : Sample) (qos : DeliveryQoS) : MockParticipant :=
  let state := (p.entry topic qos).countWrite sample
  let state := if qos.transientLocal then state.pushToCache sample else state
  let state := { state with subscribers := state.subscribers.filter fun r => !p.isClosed r }
  let pushed := state.subscribers.foldl (pushTo sample) (state, p.queues)
  { p with
    topics := p.topics.insert topic pushed.1
    queues := pushed.2 }

/-- `Broker::subscribe`. -/
def subscribe (topic : String) (qos : DeliveryQoS) (opts : SubscriberOptions) : MockParticipant :=
  let inner := SubInner.new (opts.chanDepth 64) opts.backPressure
  let state := p.entry topic qos
  let inner := if qos.transientLocal then
      state.cache.foldl (fun inner cached => (inner.push cached).2) inner
    else inner
  { p with
    topics := p.topics.insert topic
      { state with subscribers := state.subscribers ++ [p.queues.length] }
    queues := p.queues ++ [inner] }

/-- `MockPublisher::write`: the checks, and then the broker. -/
def writeInner (k : ℕ) (pub : Publication) (now : ℤ) (payload : Bytes) :
    MockResult × MockParticipant :=
  if pub.closed then (.ok (.error .closed), p)
  else if pub.qos.maxSampleSize > 0 ∧ (payload.length : ℤ) > pub.qos.maxSampleSize then
    (.ok (.error .payloadTooLarge), p)
  else
    let p := { p with publishers := p.publishers.set k { pub with seq := pub.seq + 1 } }
    match checkedAdd 64 pub.seq.toNat 1 with
    | .error e => (.error e, p)
    | .ok seq =>
      (.ok (.ok ()),
        p.publish pub.topic ⟨pub.topic, payload, now, seq, pub.guid.toBytes⟩ pub.qos)

/-- `RecordingPublisher::write`: the log, and then the publisher inside. -/
def write (k : ℕ) (pub : Publication) (now : ℤ) (payload : Bytes) :
    MockResult × MockParticipant :=
  let p := { p with writtenPayloads := p.writtenPayloads ++ [(pub.topic, payload)] }
  p.writeInner k pub now payload

/-- `RecordingPublisher::write_ctx`. -/
def writeCtx (k : ℕ) (pub : Publication) (done : Bool) (now : ℤ) (payload : Bytes) :
    MockResult × MockParticipant :=
  if done then (.ok (.error .timeout), p) else p.write k pub now payload

/-- `new_publisher`. -/
def newPublisher (topic : String) (qos : DeliveryQoS) : MockResult × MockParticipant :=
  if p.closed then (.ok (.error .closed), p)
  else if topic = "" then (.ok (.error .topicEmpty), p)
  else (.ok (.ok ()), { p with
    pubCounter := p.pubCounter + 1
    publishers := p.publishers ++ [⟨topic, qos, p.makeGuid p.pubCounter, 0, false⟩] })

/-- `new_subscriber`. -/
def newSubscriber (topic : String) (qos : DeliveryQoS) (opts : SubscriberOptions) :
    MockResult × MockParticipant :=
  if p.closed then (.ok (.error .closed), p)
  else if topic = "" then (.ok (.error .topicEmpty), p)
  else (.ok (.ok ()), p.subscribe topic qos opts)

/-- `Participant::close`: close every subscriber, the first time. -/
def close : MockParticipant :=
  if p.closed then p
  else { p with
    closed := true
    queues := (p.topics.values.flatMap MockTopicState.subscribers).foldl
      (fun queues r => queues.modify r SubInner.close) p.queues }

/-- One call.  On a publisher or a subscriber that there is not, it does nothing. -/
def step : MockCall → MockResult × MockParticipant
  | .newPublisher topic qos => p.newPublisher topic qos
  | .newSubscriber topic qos opts => p.newSubscriber topic qos opts
  | .write k now payload =>
    match p.publishers[k]? with
    | none => (.ok (.ok ()), p)
    | some pub => p.write k pub now payload
  | .writeCtx k done now payload =>
    match p.publishers[k]? with
    | none => (.ok (.ok ()), p)
    | some pub => p.writeCtx k pub done now payload
  | .closePublisher k =>
    (.ok (.ok ()),
      { p with publishers := p.publishers.modify k fun pub => { pub with closed := true } })
  | .recv r => (.ok (.ok ()), { p with queues := p.queues.modify r fun inner => inner.pop.2 })
  | .closeSubscriber r => (.ok (.ok ()), { p with queues := p.queues.modify r SubInner.close })
  | .unsubscribe r => (.ok (.ok ()), { p with queues := p.queues.modify r SubInner.unsubscribe })
  | .reset => (.ok (.ok ()), { p with writtenPayloads := [] })
  | .close => (.ok (.ok ()), p.close)

/-- What a write puts into the log. -/
def attempted : MockCall → List (String × Bytes)
  | .write k _ payload | .writeCtx k false _ payload =>
    (p.publishers[k]?.map fun pub => (pub.topic, payload)).toList
  | _ => []

/-- The payload, where the write has returned `Ok`. -/
def accepted (call : MockCall) : List (String × Bytes) :=
  if (p.step call).1 = .ok (.ok ()) then p.attempted call else []

/-- What a write that reaches the log finds there. -/
def EachWrite (Q : Publication → Bytes → Prop) : MockCall → Prop
  | .write k _ payload | .writeCtx k false _ payload =>
    ∀ pub, p.publishers[k]? = some pub → Q pub payload
  | _ => True

variable {p} {k : ℕ} {pub : Publication} {now : ℤ} {payload : Bytes}

lemma writtenPayloads_writeInner (p : MockParticipant) :
    (p.writeInner k pub now payload).2.writtenPayloads = p.writtenPayloads := by
  rw [writeInner]
  split_ifs
  · rfl
  · rfl
  · dsimp only
    split <;> rfl

/-- A write that is refused leaves the log as it has found it with the payload in it. -/
lemma write_of_not_accepts (p : MockParticipant) (k : ℕ) (now : ℤ) (h : ¬ pub.Accepts payload) :
    ∃ e, p.write k pub now payload = (.ok (.error e),
      { p with writtenPayloads := p.writtenPayloads ++ [(pub.topic, payload)] }) := by
  simp only [write, writeInner]
  split_ifs with hclosed hlarge
  · exact ⟨_, rfl⟩
  · exact ⟨_, rfl⟩
  · refine absurd ⟨by simpa using hclosed, ?_⟩ h
    rw [not_and_or, not_lt, not_lt] at hlarge
    exact hlarge

/-- A write that is accepted returns `Ok`, unless the numbers are used up. -/
lemma write_of_accepts (p : MockParticipant) (h : pub.Accepts payload) :
    (p.write k pub now payload).1 = (checkedAdd 64 pub.seq.toNat 1).map fun _ => .ok () := by
  obtain ⟨hopen, hfits⟩ := h
  have hsmall : ¬ (pub.qos.maxSampleSize > 0 ∧ (payload.length : ℤ) > pub.qos.maxSampleSize) := by
    rw [not_and_or, not_lt, not_lt]
    exact hfits
  simp only [write, writeInner, if_neg hsmall, hopen, Bool.false_eq_true, if_false]
  split <;> rename_i heq <;> rw [heq] <;> rfl

/-- **A refused write changes nothing exactly if it does not reach the log.** -/
lemma unchanged_iff_eachWrite (p : MockParticipant) (call : MockCall) :
    (∀ e, (p.step call).1 = .ok (.error e) → (p.step call).2 = p) ↔
      p.EachWrite Publication.Accepts call := by
  have hwrite (k : ℕ) (now : ℤ) (payload : Bytes) :
      (∀ e, (p.step (.write k now payload)).1 = .ok (.error e) →
          (p.step (.write k now payload)).2 = p) ↔
        ∀ pub, p.publishers[k]? = some pub → pub.Accepts payload := by
    rw [step]
    cases hpub : p.publishers[k]? with
    | none => simp
    | some pub =>
      by_cases haccepts : pub.Accepts payload
      · refine iff_of_true (fun e h => ?_) fun pub' h => Option.some.inj h ▸ haccepts
        simp only [write_of_accepts p haccepts] at h
        obtain ⟨seq, -, h⟩ := Except.map_eq_ok.mp h
        cases h
      · refine iff_of_false (fun h => ?_) fun h => haccepts (h pub rfl)
        obtain ⟨e, he⟩ := write_of_not_accepts p k now haccepts
        have hsame := h e (by simp only [he])
        simp only [he] at hsame
        simpa using congrArg (List.length ∘ writtenPayloads) hsame
  cases call with
  | newPublisher topic qos =>
    refine iff_of_true (fun e h => ?_) trivial
    simp only [step, newPublisher] at h ⊢
    split_ifs at h ⊢
    · rfl
    · rfl
    · cases h
  | newSubscriber topic qos opts =>
    refine iff_of_true (fun e h => ?_) trivial
    simp only [step, newSubscriber] at h ⊢
    split_ifs at h ⊢
    · rfl
    · rfl
    · cases h
  | write k now payload => exact hwrite k now payload
  | writeCtx k done now payload =>
    cases done with
    | false => exact hwrite k now payload
    | true =>
      refine iff_of_true (fun e h => ?_) trivial
      simp only [step] at h ⊢
      split <;> rfl
  | closePublisher _ | recv _ | closeSubscriber _ | unsubscribe _ | reset | close =>
    exact iff_of_true (fun e h => by cases h) trivial

lemma writtenPayloads_step (p : MockParticipant) (call : MockCall) :
    (p.step call).2.writtenPayloads =
      if call = .reset then [] else p.writtenPayloads ++ p.attempted call := by
  have hwrite (k : ℕ) (now : ℤ) (payload : Bytes) :
      (p.step (.write k now payload)).2.writtenPayloads =
        p.writtenPayloads ++ p.attempted (.write k now payload) := by
    rw [step, attempted]
    cases p.publishers[k]? with
    | none => simp
    | some pub =>
      simp only [write]
      rw [writtenPayloads_writeInner]
      rfl
  cases call with
  | newPublisher topic qos =>
    simp only [step, newPublisher, attempted, reduceCtorEq, if_false, List.append_nil]
    split_ifs <;> rfl
  | newSubscriber topic qos opts =>
    simp only [step, newSubscriber, attempted, reduceCtorEq, if_false, List.append_nil]
    split_ifs <;> rfl
  | write k now payload => exact hwrite k now payload
  | writeCtx k done now payload =>
    cases done with
    | false => exact hwrite k now payload
    | true =>
      simp only [step, attempted, reduceCtorEq, if_false, List.append_nil]
      split <;> rfl
  | reset => rfl
  | close =>
    simp only [step, close, attempted, reduceCtorEq, if_false, List.append_nil]
    split_ifs <;> rfl
  | closePublisher _ | recv _ | closeSubscriber _ | unsubscribe _ => simp [step, attempted]

/-- The write of a publisher that takes the payload and has a number left. -/
def Records (pub : Publication) (payload : Bytes) : Prop :=
  pub.Accepts payload ∧ pub.seq.toNat + 1 < 2 ^ 64

lemma accepted_sublist (p : MockParticipant) (call : MockCall) :
    (p.accepted call).Sublist (p.attempted call) := by
  rw [accepted]
  split_ifs
  · exact .refl _
  · exact List.nil_sublist _

lemma accepted_eq_attempted_iff (p : MockParticipant) (call : MockCall) :
    p.accepted call = p.attempted call ↔ p.EachWrite Records call := by
  have hwrite (k : ℕ) (now : ℤ) (payload : Bytes) :
      p.accepted (.write k now payload) = p.attempted (.write k now payload) ↔
        ∀ pub, p.publishers[k]? = some pub → Records pub payload := by
    rw [accepted, attempted, step]
    cases hpub : p.publishers[k]? with
    | none => simp
    | some pub =>
      have hok : (p.write k pub now payload).1 = .ok (.ok ()) ↔ Records pub payload := by
        by_cases haccepts : pub.Accepts payload
        · rw [write_of_accepts p haccepts, Except.map_eq_ok, Records, and_iff_right haccepts]
          simp [checkedAdd_eq_ok]
        · obtain ⟨e, he⟩ := write_of_not_accepts p k now haccepts
          refine iff_of_false (fun h => ?_) fun h => haccepts h.1
          rw [he] at h
          cases h
      simp only [Option.map_some, Option.toList_some, Option.some.injEq, forall_eq']
      rw [← hok]
      split_ifs with h <;> simp [h]
  cases call with
  | write k now payload => exact hwrite k now payload
  | writeCtx k done now payload =>
    cases done with
    | false => exact hwrite k now payload
    | true => exact iff_of_true (ite_self ([] : List (String × Bytes))) trivial
  | newPublisher _ _ | newSubscriber _ _ _ | closePublisher _ | recv _ | closeSubscriber _
  | unsubscribe _ | reset | close =>
    exact iff_of_true (ite_self ([] : List (String × Bytes))) trivial

end MockParticipant

/-! ## Runs -/

/-- A participant, and the payloads of the writes that returned `Ok` since its log was drained. -/
structure MockRun where
  participant : MockParticipant
  accepted : List (String × Bytes)

namespace MockRun

/-- A new participant. -/
def new (guidPrefix : GuidPrefix) : MockRun := ⟨.new guidPrefix, []⟩

/-- One call. -/
def step (r : MockRun) (call : MockCall) : MockRun where
  participant := (r.participant.step call).2
  accepted := if call = .reset then [] else r.accepted ++ r.participant.accepted call

/-- The calls, one after the other. -/
def run (r : MockRun) (calls : List MockCall) : MockRun := calls.foldl step r

lemma run_concat (r : MockRun) (calls : List MockCall) (call : MockCall) :
    r.run (calls ++ [call]) = (r.run calls).step call := by
  rw [run, List.foldl_concat, ← run]

lemma accepted_sublist_run (guidPrefix : GuidPrefix) (calls : List MockCall) :
    let r := (new guidPrefix).run calls
    r.accepted.Sublist r.participant.writtenPayloads := by
  induction calls using List.reverseRecOn with
  | nil => exact .refl _
  | append_singleton calls call ih =>
    dsimp only at ih ⊢
    rw [run_concat, step, MockParticipant.writtenPayloads_step]
    dsimp only
    split_ifs
    · exact .refl _
    · exact ih.append (MockParticipant.accepted_sublist _ call)

/-- Every write since the log was drained was accepted, `calls` being all there were. -/
def AllRecorded (guidPrefix : GuidPrefix) (calls : List MockCall) : Prop :=
  ∀ before call after, calls = before ++ call :: after → .reset ∉ after →
    ((new guidPrefix).run before).participant.EachWrite MockParticipant.Records call

lemma allRecorded_concat (guidPrefix : GuidPrefix) (calls : List MockCall) (call : MockCall) :
    AllRecorded guidPrefix (calls ++ [call]) ↔ (call ≠ .reset → AllRecorded guidPrefix calls) ∧
      ((new guidPrefix).run calls).participant.EachWrite MockParticipant.Records call := by
  have hsplit := @Run.forall_split_concat _ calls (fun before call after => .reset ∉ after →
    ((new guidPrefix).run before).participant.EachWrite MockParticipant.Records call) call
  rw [AllRecorded, hsplit]
  refine and_congr ?_ (forall_prop_of_true List.not_mem_nil)
  by_cases hreset : call = .reset
  · subst hreset
    simp
  · simp only [List.mem_append, List.mem_singleton, Ne.symm hreset, or_false]
    exact ⟨fun h _ => h, fun h => h hreset⟩

/-- **The log of payloads.**  In any state that a participant reaches, a call that returns an error
changes nothing exactly if it is not a write that the publisher refuses, as that is in the log
before it is refused; and the log lists the writes that returned `Ok` exactly if all that reached
it since it was drained did. -/
theorem writtenPayloads_eq_iff (guidPrefix : GuidPrefix) (calls : List MockCall) :
    let r := (new guidPrefix).run calls
    (∀ call, (∀ e, (r.participant.step call).1 = .ok (.error e) →
        (r.participant.step call).2 = r.participant) ↔
      r.participant.EachWrite Publication.Accepts call) ∧
    (r.participant.writtenPayloads = r.accepted ↔ AllRecorded guidPrefix calls) := by
  refine ⟨fun call => MockParticipant.unchanged_iff_eachWrite _ call, ?_⟩
  induction calls using List.reverseRecOn with
  | nil => exact iff_of_true rfl fun before call after h => by simp at h
  | append_singleton calls call ih =>
    rw [allRecorded_concat, run_concat, step, MockParticipant.writtenPayloads_step]
    dsimp only at ih ⊢
    by_cases hreset : call = .reset
    · rw [if_pos hreset, if_pos hreset]
      subst hreset
      simp [MockParticipant.EachWrite]
    rw [if_neg hreset, if_neg hreset, forall_prop_of_true hreset, ← ih,
      ← MockParticipant.accepted_eq_attempted_iff]
    have hlog := (accepted_sublist_run guidPrefix calls).length_le
    have hcall := (MockParticipant.accepted_sublist
      ((new guidPrefix).run calls).participant call).length_le
    constructor
    · intro h
      have hlength := congrArg List.length h
      rw [List.length_append, List.length_append] at hlength
      obtain ⟨hold, hnew⟩ := List.append_inj h (by omega)
      exact ⟨hold, hnew.symm⟩
    · rintro ⟨hold, hnew⟩
      rw [hold, hnew]

/-- A write to a closed publisher returns `Closed` and is in the log. -/
theorem rejected_write_logged :
    let r := (new (FixedBytes.zero 12)).run [.newPublisher "a" .default, .closePublisher 0]
    (r.participant.step (.write 0 0 [1])).1 = .ok (.error .closed) ∧
      (r.participant.step (.write 0 0 [1])).2 ≠ r.participant ∧
      (r.step (.write 0 0 [1])).participant.writtenPayloads = [("a", [1])] ∧
      (r.step (.write 0 0 [1])).accepted = [] := by
  refine ⟨rfl, fun h => ?_, rfl, rfl⟩
  exact List.cons_ne_nil ("a", ([1] : Bytes)) [] (congrArg MockParticipant.writtenPayloads h)

end MockRun

end RustDds
