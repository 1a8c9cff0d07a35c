import RustDds.Rtps.Participant

/-!
# What a received sample does

The effect of a contact and of a delivery on one reader, of `acceptSample` on the participant,
and what a trace of effects shows of them: `dispatches` lists the dispatches of a trace, and
`pushesTo` the samples handed to the queue of one reader.

`acceptSample` dispatches its sample, and hands it once to each reader that accepts its writer,
exactly if `NotifyOk` holds, that is if the tracker of no reliable reader that hears of it is
poisoned or at the end of the number space (`panic_acceptSample`, `dispatches_acceptSample`,
`pushesTo_acceptSample`).  It changes nothing of the participant but its readers and counters
(`readersOnly_acceptSample`).
-/

namespace RustDds

/-! ## Traces -/

/-- The dispatch an effect is. -/
def Effect.asDispatch : Effect → Option Dispatch
  | .dispatch d => some d
  | _ => none

/-- The sample an effect hands to the queue of `reader`. -/
def Effect.asPushTo (reader : EntityId) : Effect → Option Sample
  | .push r sample _ => if r = reader then some sample else none
  | _ => none

/-- The dispatches of a trace. -/
def dispatches (out : List Effect) : List Dispatch := out.filterMap Effect.asDispatch

/-- The samples a trace hands to the queue of `reader`. -/
def pushesTo (reader : EntityId) (out : List Effect) : List Sample :=
  out.filterMap (Effect.asPushTo reader)

@[simp] lemma dispatches_nil : dispatches [] = [] := rfl

@[simp] lemma dispatches_append (a b : List Effect) :
    dispatches (a ++ b) = dispatches a ++ dispatches b := List.filterMap_append ..

@[simp] lemma pushesTo_nil (r : EntityId) : pushesTo r [] = [] := rfl

@[simp] lemma pushesTo_append (r : EntityId) (a b : List Effect) :
    pushesTo r (a ++ b) = pushesTo r a ++ pushesTo r b := List.filterMap_append ..

/-- A trace of sends dispatches nothing and pushes nothing. -/
lemma dispatches_of_sends {out : List Effect} (h : ∀ o ∈ out, ∃ msg addr, o = .send msg addr) :
    dispatches out = [] := by
  refine List.filterMap_eq_nil_iff.mpr fun o ho => ?_
  obtain ⟨msg, addr, rfl⟩ := h o ho
  rfl

lemma pushesTo_of_sends {out : List Effect} (h : ∀ o ∈ out, ∃ msg addr, o = .send msg addr)
    (r : EntityId) : pushesTo r out = [] := by
  refine List.filterMap_eq_nil_iff.mpr fun o ho => ?_
  obtain ⟨msg, addr, rfl⟩ := h o ho
  rfl

/-! ## One reader -/

namespace ReaderState

/-- The readers that keep track of `source`. -/
def Hears (st : ReaderState) (ownPrefix : GuidPrefix) (source : Guid) : Prop :=
  st.reliable = true ∧ st.acceptsSource ownPrefix source = true

instance (st : ReaderState) (ownPrefix : GuidPrefix) (source : Guid) :
    Decidable (st.Hears ownPrefix source) := by
  unfold Hears
  infer_instance

@[simp] lemma trackerFor_setTracker (st : ReaderState) (w : Guid) (t : RecvTracker) :
    (st.setTracker w t).trackerFor w = t := by
  rw [trackerFor, setTracker, AList.lookup_insert, Option.getD_some]

section
variable {header : Header} {source : Guid} {src : SocketAddr}
  {op : RecvTracker → Except Panic Unit × RecvTracker} {lastSn : ℕ} {eid : EntityId}
  {st : ReaderState}

lemma contact_of_not_hears (h : ¬ st.Hears header.guidPrefix source) :
    contact header source src op lastSn eid st = ⟨st, [], none⟩ := by
  refine if_pos ?_
  rw [Hears] at h
  revert h
  cases st.reliable <;> cases st.acceptsSource header.guidPrefix source <;> simp

lemma contact_of_hears (h : st.Hears header.guidPrefix source) :
    contact header source src op lastSn eid st =
      st.react header source src eid (RecvTracker.report op lastSn (st.trackerFor source)) :=
  if_neg (by rw [h.1, h.2]; decide)

/-- A contact changes nothing of a reader but the tracker of its writer. -/
lemma state_contact (header : Header) (source : Guid) (src : SocketAddr)
    (op : RecvTracker → Except Panic Unit × RecvTracker) (lastSn : ℕ) (eid : EntityId)
    (st : ReaderState) :
    (contact header source src op lastSn eid st).state = st ∨
      ∃ t, (contact header source src op lastSn eid st).state = st.setTracker source t := by
  by_cases h : st.Hears header.guidPrefix source
  · rw [contact_of_hears h]
    rcases RecvTracker.report op lastSn (st.trackerFor source) with ⟨p | ⟨base, bitmap, _ | _⟩, t⟩
    · exact .inr ⟨t, rfl⟩
    · exact .inr ⟨t, rfl⟩
    · exact .inr ⟨t.nextAckCount.2, rfl⟩
  · rw [contact_of_not_hears h]
    exact .inl rfl

/-- The tracker of the writer is as the report left it, but for the ACKNACK counter. -/
lemma trackerFor_contact (h : st.Hears header.guidPrefix source) :
    ((contact header source src op lastSn eid st).state.trackerFor source).inner =
      (RecvTracker.report op lastSn (st.trackerFor source)).2.inner := by
  rw [contact_of_hears h]
  rcases RecvTracker.report op lastSn (st.trackerFor source) with ⟨p | ⟨base, bitmap, _ | _⟩, t⟩
  · exact congrArg RecvTracker.inner (trackerFor_setTracker st source t)
  · exact congrArg RecvTracker.inner (trackerFor_setTracker st source t)
  · exact (congrArg RecvTracker.inner (trackerFor_setTracker st source t.nextAckCount.2)).trans rfl

lemma out_contact : ∀ o ∈ (contact header source src op lastSn eid st).out,
    ∃ msg addr, o = Effect.send msg addr := by
  by_cases h : st.Hears header.guidPrefix source
  · rw [contact_of_hears h]
    rcases RecvTracker.report op lastSn (st.trackerFor source) with
      ⟨p | ⟨base, bitmap, _ | _⟩, t⟩ <;> simp [react]
  · rw [contact_of_not_hears h]
    simp

/-- A contact panics where its report does. -/
lemma panic_contact : (contact header source src op lastSn eid st).panic = none ↔
    (st.Hears header.guidPrefix source →
      ∃ r, (RecvTracker.report op lastSn (st.trackerFor source)).1 = .ok r) := by
  by_cases h : st.Hears header.guidPrefix source
  · rw [contact_of_hears h]
    rcases RecvTracker.report op lastSn (st.trackerFor source) with
      ⟨p | ⟨base, bitmap, _ | _⟩, t⟩ <;> simp [react, h]
  · rw [contact_of_not_hears h]
    simp [h]

end

section
variable {ownPrefix : GuidPrefix} {source : Guid} {topicFilter : Option String} {payload : Bytes}
  {timestamp : ℤ} {seqNum : ℕ} {eid : EntityId} {st : ReaderState}

/-- The sample a reader is handed. -/
def sampleOf (st : ReaderState) (source : Guid) (payload : Bytes) (timestamp : ℤ) (seqNum : ℕ) :
    Sample := ⟨st.topic, payload, timestamp, seqNum, source.toBytes⟩

/-- A delivery changes nothing of a reader but its queue. -/
lemma state_deliver (ownPrefix : GuidPrefix) (source : Guid) (topicFilter : Option String)
    (payload : Bytes) (timestamp : ℤ) (seqNum : ℕ) (eid : EntityId) (st : ReaderState) : ∃ inner,
    (deliver ownPrefix source topicFilter payload timestamp seqNum eid st).state =
      { st with inner } := by
  unfold deliver
  split
  · exact ⟨st.inner, rfl⟩
  · exact ⟨_, rfl⟩

@[simp] lemma panic_deliver :
    (deliver ownPrefix source topicFilter payload timestamp seqNum eid st).panic = none := by
  unfold deliver
  split <;> rfl

lemma dispatches_deliver :
    dispatches (deliver ownPrefix source topicFilter payload timestamp seqNum eid st).out = [] := by
  unfold deliver
  split <;> rfl

/-- A reader's own queue is handed the sample once, if the reader matches. -/
lemma pushesTo_deliver_self :
    pushesTo eid (deliver ownPrefix source topicFilter payload timestamp seqNum eid st).out =
      if st.matchesTopic topicFilter && st.acceptsSource ownPrefix source then
        [st.sampleOf source payload timestamp seqNum]
      else [] := by
  unfold deliver
  cases st.matchesTopic topicFilter <;> cases st.acceptsSource ownPrefix source <;>
    simp [pushesTo, Effect.asPushTo, sampleOf]

lemma pushesTo_deliver_of_ne {r : EntityId} (h : eid ≠ r) :
    pushesTo r (deliver ownPrefix source topicFilter payload timestamp seqNum eid st).out = [] := by
  unfold deliver
  split
  · rfl
  · simp [pushesTo, Effect.asPushTo, h]

end

end ReaderState

/-! ## The participant -/

/-- `p'` is `p` but for its readers and its counters. -/
def ReadersOnly (p p' : RtpsParticipant) : Prop :=
  ∃ readers delivers drops topicMetrics,
    p' = { p with readers, delivers, drops, topicMetrics }

lemma ReadersOnly.trans {p q r : RtpsParticipant} (h : ReadersOnly p q) (h' : ReadersOnly q r) :
    ReadersOnly p r := by
  obtain ⟨_, _, _, _, rfl⟩ := h
  obtain ⟨rs, d, dr, tm, rfl⟩ := h'
  exact ⟨rs, d, dr, tm, rfl⟩

namespace ReadersOnly

variable {p p' : RtpsParticipant}

lemma guidPrefix_eq (h : ReadersOnly p p') : p'.guidPrefix = p.guidPrefix := by
  obtain ⟨_, _, _, _, rfl⟩ := h
  rfl

lemma fragAssembler_eq (h : ReadersOnly p p') : p'.fragAssembler = p.fragAssembler := by
  obtain ⟨_, _, _, _, rfl⟩ := h
  rfl

end ReadersOnly

namespace RtpsParticipant

section
variable {f : EntityId → ReaderState → Outcome ReaderState Effect Panic}

lemma readersOnly_visitReaders (p : RtpsParticipant) :
    ReadersOnly p (visitReaders f p).state := ⟨_, _, _, _, rfl⟩

/-- The counters take no part in anything else. -/
lemma foldl_countPush (out : List Effect) (p : RtpsParticipant) :
    ∃ delivers drops topicMetrics,
      out.foldl countPush p = { p with delivers, drops, topicMetrics } := by
  induction out generalizing p with
  | nil => exact ⟨p.delivers, p.drops, p.topicMetrics, rfl⟩
  | cons o out ih =>
    rw [List.foldl_cons]
    obtain ⟨d, dr, tm, h⟩ := ih (p.countPush o)
    rw [h]
    rcases o with _ | _ | ⟨r, s, _ | _⟩ | _ <;> exact ⟨d, dr, tm, rfl⟩

end

/-! ### Hearing of a sample -/

/-- No tracker that hears of number `seq` of `source` is poisoned, or at its end. -/
def NotifyOk (p : RtpsParticipant) (source : Guid) (seq : ℕ) : Prop :=
  ∀ eid st, p.readers.lookup eid = some st → st.Hears p.guidPrefix source →
    (st.trackerFor source).inner.poisoned = false ∧
      (st.trackerFor source).inner.val.RoomFor seq

variable {p : RtpsParticipant} {source : Guid} {seq : ℕ} {src : SocketAddr}

lemma panic_notifyReliableReaders (hseq : seq < 2 ^ 64) :
    (notifyReliableReaders source seq src p).panic = none ↔ p.NotifyOk source seq := by
  refine Table.panic_visit.trans (forall_congr' fun eid => forall_congr' fun st =>
    forall_congr' fun _ => ReaderState.panic_contact.trans (forall_congr' fun _ => ?_))
  exact RecvTracker.arrival_isOk_iff hseq _

lemma out_visitReaders_contact {header : Header}
    {op : RecvTracker → Except Panic Unit × RecvTracker} {lastSn : ℕ} :
    ∀ o ∈ (visitReaders (ReaderState.contact header source src op lastSn) p).out,
      ∃ msg addr, o = Effect.send msg addr := by
  intro o ho
  obtain ⟨eid, st, -, ho⟩ := Table.mem_out_visit ho
  exact ReaderState.out_contact o ho

lemma out_notifyReliableReaders :
    ∀ o ∈ (notifyReliableReaders source seq src p).out, ∃ msg addr, o = Effect.send msg addr :=
  out_visitReaders_contact

lemma out_handleHeartbeat {hb : Heartbeat} :
    ∀ o ∈ (handleHeartbeat source hb src p).out, ∃ msg addr, o = Effect.send msg addr :=
  out_visitReaders_contact

/-! ### Dispatching a sample -/

section
variable {origin : Origin} {topicFilter : Option String} {payload : Bytes} {timestamp : ℤ}

lemma readersOnly_dispatchToReaders (origin : Origin) :
    ReadersOnly p (dispatchToReaders origin source topicFilter payload timestamp seq p).state := by
  obtain ⟨d, dr, tm, h⟩ := foldl_countPush
    (visitReaders
      (ReaderState.deliver p.guidPrefix source topicFilter payload timestamp seq) p).out
    (visitReaders
      (ReaderState.deliver p.guidPrefix source topicFilter payload timestamp seq) p).state
  exact ⟨_, d, dr, tm, h⟩

/-- Dispatching changes a reader's queue and nothing else of it. -/
lemma lookup_dispatchToReaders {eid : EntityId} {st : ReaderState}
    (h : p.readers.lookup eid = some st) : ∃ inner,
    (dispatchToReaders origin source topicFilter payload timestamp seq p).state.readers.lookup eid =
      some { st with inner } := by
  obtain ⟨d, dr, tm, hfold⟩ := foldl_countPush
    (visitReaders
      (ReaderState.deliver p.guidPrefix source topicFilter payload timestamp seq) p).out
    (visitReaders
      (ReaderState.deliver p.guidPrefix source topicFilter payload timestamp seq) p).state
  rw [dispatchToReaders]
  dsimp only
  rw [hfold]
  dsimp only [visitReaders]
  rw [Table.lookup_visit (Table.panic_visit.mpr fun _ _ _ => ReaderState.panic_deliver), h,
    Option.map_some]
  obtain ⟨inner, hinner⟩ :=
    ReaderState.state_deliver p.guidPrefix source topicFilter payload timestamp seq eid st
  exact ⟨inner, by rw [hinner]⟩

@[simp] lemma panic_dispatchToReaders :
    (dispatchToReaders origin source topicFilter payload timestamp seq p).panic = none :=
  Table.panic_visit.mpr fun _ _ _ => ReaderState.panic_deliver

/-- A dispatch is one dispatch. -/
lemma dispatches_dispatchToReaders :
    dispatches (dispatchToReaders origin source topicFilter payload timestamp seq p).out =
      [⟨origin, source, payload, seq⟩] := by
  have hrest : dispatches (visitReaders
      (ReaderState.deliver p.guidPrefix source topicFilter payload timestamp seq) p).out = [] := by
    refine List.filterMap_eq_nil_iff.mpr fun o ho => ?_
    obtain ⟨eid, st, -, ho⟩ := Table.mem_out_visit ho
    exact List.filterMap_eq_nil_iff.mp ReaderState.dispatches_deliver o ho
  exact congrArg (Dispatch.mk origin source payload seq :: ·) hrest

/-- A dispatch hands its sample once to each reader that matches. -/
lemma pushesTo_dispatchToReaders {r : EntityId} {st : ReaderState}
    (h : p.readers.lookup r = some st) :
    pushesTo r (dispatchToReaders origin source topicFilter payload timestamp seq p).out =
      if st.matchesTopic topicFilter && st.acceptsSource p.guidPrefix source then
        [st.sampleOf source payload timestamp seq]
      else [] := by
  refine Eq.trans (b := pushesTo r
    (ReaderState.deliver p.guidPrefix source topicFilter payload timestamp seq r st).out) ?_
    ReaderState.pushesTo_deliver_self
  exact Table.filterMap_out_visit_of_panic_eq_none (Effect.asPushTo r)
    (fun _ _ hne => ReaderState.pushesTo_deliver_of_ne hne)
    (Table.panic_visit.mpr fun _ _ _ => ReaderState.panic_deliver) h

/-- A reader that is not there is handed nothing. -/
lemma pushesTo_dispatchToReaders_of_none {r : EntityId} (h : p.readers.lookup r = none) :
    pushesTo r (dispatchToReaders origin source topicFilter payload timestamp seq p).out = [] := by
  rcases Table.filterMap_out_visit (m := p.readers) (k := r) (Effect.asPushTo r)
    (f := ReaderState.deliver p.guidPrefix source topicFilter payload timestamp seq)
    (fun _ _ hne => ReaderState.pushesTo_deliver_of_ne hne) with h' | ⟨st, hst, -⟩
  · exact h'
  · rw [h] at hst
    cases hst

end

/-! ### What stays of a reader

Handling a datagram changes the trackers and the queues of the readers, and nothing of what
decides which samples they accept. -/

/-- What decides which samples a reader accepts and tracks. -/
def profile (p : RtpsParticipant) (eid : EntityId) : Option (String × Finset Guid × Bool) :=
  (p.readers.lookup eid).map fun st => (st.topic, st.sources, st.reliable)

lemma profile_eq_of_lookup {p p' : RtpsParticipant} (hprofile : p'.profile = p.profile)
    {eid : EntityId} {st : ReaderState} (h : p.readers.lookup eid = some st) :
    ∃ st', p'.readers.lookup eid = some st' ∧ st'.topic = st.topic ∧ st'.sources = st.sources ∧
      st'.reliable = st.reliable := by
  have heq := congrFun hprofile eid
  rw [profile, profile, h, Option.map_some] at heq
  obtain ⟨st', hst', heq⟩ := Option.map_eq_some_iff.mp heq
  simp only [Prod.mk.injEq] at heq
  exact ⟨st', hst', heq⟩

lemma profile_visitReaders {f : EntityId → ReaderState → Outcome ReaderState Effect Panic}
    (hf : ∀ eid st, (f eid st).state.topic = st.topic ∧ (f eid st).state.sources = st.sources ∧
      (f eid st).state.reliable = st.reliable) (p : RtpsParticipant) :
    (visitReaders f p).state.profile = p.profile := by
  funext eid
  simp only [profile, visitReaders]
  cases h : p.readers.lookup eid with
  | none => rw [Table.lookup_visit_eq_none f h]
  | some st =>
    obtain ⟨h₁, h₂, h₃⟩ := hf eid st
    rcases Table.lookup_visit_cases (f := f) h with h' | ⟨h', -⟩ <;> rw [h']
    simp only [Option.map_some, h₁, h₂, h₃]

lemma profile_visitReaders_contact {header : Header}
    {op : RecvTracker → Except Panic Unit × RecvTracker} {lastSn : ℕ} :
    (visitReaders (ReaderState.contact header source src op lastSn) p).state.profile =
      p.profile := by
  refine profile_visitReaders (fun eid st => ?_) p
  rcases ReaderState.state_contact header source src op lastSn eid st with h | ⟨t, h⟩ <;>
    rw [h] <;> exact ⟨rfl, rfl, rfl⟩

lemma profile_notifyReliableReaders :
    (notifyReliableReaders source seq src p).state.profile = p.profile :=
  profile_visitReaders_contact

lemma profile_dispatchToReaders (origin : Origin) {topicFilter : Option String} {payload : Bytes}
    {timestamp : ℤ} :
    (dispatchToReaders origin source topicFilter payload timestamp seq p).state.profile =
      p.profile := by
  obtain ⟨d, dr, tm, hfold⟩ := foldl_countPush
    (visitReaders
      (ReaderState.deliver p.guidPrefix source topicFilter payload timestamp seq) p).out
    (visitReaders
      (ReaderState.deliver p.guidPrefix source topicFilter payload timestamp seq) p).state
  have hvisit := profile_visitReaders (f := ReaderState.deliver p.guidPrefix source topicFilter
    payload timestamp seq) (fun eid st => by
      obtain ⟨inner, h⟩ :=
        ReaderState.state_deliver p.guidPrefix source topicFilter payload timestamp seq eid st
      rw [h]
      exact ⟨rfl, rfl, rfl⟩) p
  rw [dispatchToReaders]
  dsimp only
  rw [hfold]
  exact hvisit

/-- Whether the reader `r` accepts samples of `source`. -/
def Accepts (p : RtpsParticipant) (r : EntityId) (source : Guid) : Prop :=
  ∃ st, p.readers.lookup r = some st ∧ st.acceptsSource p.guidPrefix source = true

instance (p : RtpsParticipant) (r : EntityId) (source : Guid) : Decidable (p.Accepts r source) :=
  decidable_of_iff ((p.readers.lookup r).any (·.acceptsSource p.guidPrefix source) = true) <| by
    rw [Accepts]
    cases p.readers.lookup r <;> simp

lemma accepts_congr {p p' : RtpsParticipant} (hown : p'.guidPrefix = p.guidPrefix)
    (hprofile : p'.profile = p.profile) {r : EntityId} :
    p'.Accepts r source ↔ p.Accepts r source := by
  have hsub : ∀ {q q' : RtpsParticipant}, q'.guidPrefix = q.guidPrefix → q'.profile = q.profile →
      q.Accepts r source → q'.Accepts r source := by
    rintro q q' hq hq' ⟨st, hst, hacc⟩
    obtain ⟨st', hst', -, hsrc, -⟩ := profile_eq_of_lookup hq' hst
    refine ⟨st', hst', ?_⟩
    rw [ReaderState.acceptsSource, hsrc, hq]
    exact hacc
  exact ⟨hsub hown.symm hprofile.symm, hsub hown hprofile⟩

/-! ### Accepting a sample -/

section
variable {d : Datagram} {origin : Origin} {payload : Bytes} {r : EntityId}

lemma readersOnly_notifyReliableReaders :
    ReadersOnly p (notifyReliableReaders source seq src p).state := readersOnly_visitReaders p

/-- The two ways of `acceptSample`: the notification panics, or the sample is dispatched. -/
lemma acceptSample_cases (d : Datagram) (origin : Origin) (payload : Bytes)
    (p : RtpsParticipant) (source : Guid) (hseq : seq < 2 ^ 64) :
    let n := notifyReliableReaders source seq d.src p
    (¬ p.NotifyOk source seq ∧ acceptSample d origin source payload seq p = n ∧ n.panic ≠ none) ∨
      p.NotifyOk source seq ∧ n.panic = none ∧
        let o := dispatchToReaders origin source none payload d.utc seq n.state
        acceptSample d origin source payload seq p = ⟨o.state, n.out ++ o.out, none⟩ := by
  intro n
  cases hn : n.panic with
  | some e =>
    refine .inl ⟨fun hok => ?_, Cmd.andThen_of_some hn, by simp⟩
    rw [(panic_notifyReliableReaders hseq).mpr hok] at hn
    cases hn
  | none =>
    refine .inr ⟨(panic_notifyReliableReaders hseq).mp hn, rfl, ?_⟩
    dsimp only
    rw [acceptSample, Cmd.andThen_of_none hn, panic_dispatchToReaders]

lemma panic_acceptSample (hseq : seq < 2 ^ 64) :
    (acceptSample d origin source payload seq p).panic = none ↔ p.NotifyOk source seq := by
  rcases acceptSample_cases d origin payload p source hseq with ⟨hnot, h, hp⟩ | ⟨hok, -, h⟩
  · rw [h]
    exact iff_of_false hp hnot
  · rw [h]
    exact iff_of_true rfl hok

/-- A sample that the trackers take is dispatched once. -/
lemma dispatches_acceptSample (hseq : seq < 2 ^ 64) (hok : p.NotifyOk source seq) :
    dispatches (acceptSample d origin source payload seq p).out =
      [⟨origin, source, payload, seq⟩] := by
  rcases acceptSample_cases d origin payload p source hseq with ⟨hnot, -⟩ | ⟨-, -, h⟩
  · exact absurd hok hnot
  · rw [h]
    dsimp only
    rw [dispatches_append, dispatches_of_sends out_notifyReliableReaders,
      dispatches_dispatchToReaders, List.nil_append]

lemma dispatches_acceptSample_of_not (hseq : seq < 2 ^ 64) (hnot : ¬ p.NotifyOk source seq) :
    dispatches (acceptSample d origin source payload seq p).out = [] := by
  rcases acceptSample_cases d origin payload p source hseq with ⟨-, h, -⟩ | ⟨hok, -⟩
  · rw [h]
    exact dispatches_of_sends out_notifyReliableReaders
  · exact absurd hok hnot

lemma readersOnly_acceptSample (hseq : seq < 2 ^ 64) :
    ReadersOnly p (acceptSample d origin source payload seq p).state := by
  rcases acceptSample_cases d origin payload p source hseq with ⟨-, h, -⟩ | ⟨-, -, h⟩ <;> rw [h]
  · exact readersOnly_notifyReliableReaders
  · exact readersOnly_notifyReliableReaders.trans (readersOnly_dispatchToReaders origin)

lemma profile_acceptSample (hseq : seq < 2 ^ 64) :
    (acceptSample d origin source payload seq p).state.profile = p.profile := by
  rcases acceptSample_cases d origin payload p source hseq with ⟨-, h, -⟩ | ⟨-, -, h⟩ <;> rw [h]
  · exact profile_notifyReliableReaders
  · exact (profile_dispatchToReaders origin).trans profile_notifyReliableReaders

/-- A reader's queue is handed a sample that the trackers take once, if the reader accepts the
writer. -/
lemma pushesTo_acceptSample (hseq : seq < 2 ^ 64) (hok : p.NotifyOk source seq) {st : ReaderState}
    (hst : p.readers.lookup r = some st) :
    pushesTo r (acceptSample d origin source payload seq p).out =
      if st.acceptsSource p.guidPrefix source then [st.sampleOf source payload d.utc seq]
      else [] := by
  rcases acceptSample_cases d origin payload p source hseq with ⟨hnot, -⟩ | ⟨-, -, h⟩
  · exact absurd hok hnot
  have hprofile : (notifyReliableReaders source seq d.src p).state.profile = p.profile :=
    profile_notifyReliableReaders
  obtain ⟨st', hst', htopic, hsrc, -⟩ := profile_eq_of_lookup hprofile hst
  rw [h]
  dsimp only
  rw [pushesTo_append, pushesTo_of_sends out_notifyReliableReaders, List.nil_append,
    pushesTo_dispatchToReaders hst', readersOnly_notifyReliableReaders.guidPrefix_eq,
    ReaderState.acceptsSource, hsrc, ReaderState.sampleOf, htopic]
  rfl

/-- A queue is handed nothing else. -/
lemma pushesTo_acceptSample_of_not (hseq : seq < 2 ^ 64)
    (h : ¬ (p.NotifyOk source seq ∧ p.Accepts r source)) :
    pushesTo r (acceptSample d origin source payload seq p).out = [] := by
  rcases acceptSample_cases d origin payload p source hseq with ⟨-, heq, -⟩ | ⟨hok, -, heq⟩
  · rw [heq]
    exact pushesTo_of_sends out_notifyReliableReaders r
  cases hst : p.readers.lookup r with
  | some st =>
    rw [pushesTo_acceptSample hseq hok hst, if_neg fun hacc => h ⟨hok, st, hst, hacc⟩]
  | none =>
    rw [heq]
    dsimp only
    rw [pushesTo_append, pushesTo_of_sends out_notifyReliableReaders, List.nil_append]
    refine pushesTo_dispatchToReaders_of_none ?_
    exact Table.lookup_visit_eq_none _ hst

end

end RtpsParticipant

end RustDds
