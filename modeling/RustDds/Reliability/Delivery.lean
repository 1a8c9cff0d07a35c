import RustDds.Lib.Run
import RustDds.Rtps.DdsParticipant

/-!
# How often a sample is delivered

A tracker says of each number it records whether that is new, so that duplicates may be
suppressed.  The receive path drops the verdict: a reader is handed every sample that arrives and
that it accepts, as often as it arrives.

`arrivals` lists the samples that a datagram brings to a reader, and `deliveries` those that its
queue is handed.  Over a run the second is a sublist of the first, and the same where nothing
panics: no sample is delivered twice if none arrives twice, and only then.
-/

namespace RustDds

open scoped List

/-- The writer and the number of a sample. -/
abbrev SampleId := FixedBytes 16 × ℕ

/-- That of a sample in a queue. -/
def Sample.id (sample : Sample) : SampleId := (sample.writerGuid, sample.sequenceNumber)

/-- That of a sample to be dispatched. -/
def Dispatch.id (x : Dispatch) : SampleId := (x.source.toBytes, x.seqNum)

namespace RtpsParticipant

/-- The samples that the submessages of a message bring. -/
def broughtIn (now : ℕ) (guidPrefix : GuidPrefix) :
    List RawSubmessage → FragmentAssembler → List Dispatch
  | [], _ => []
  | raw :: raws, frags =>
    match arrival now guidPrefix raw frags with
    | (_, .error _) => []
    | (frags, .ok x) => x.toList ++ broughtIn now guidPrefix raws frags

/-- The samples that a datagram brings. -/
def brought (p : RtpsParticipant) (d : Datagram) : List Dispatch :=
  match Header.decode d.data with
  | .error _ => []
  | .ok header =>
    if header.guidPrefix = p.guidPrefix then []
    else broughtIn d.now header.guidPrefix (submessages (d.data.drop 20)) p.fragAssembler

/-- Those among `xs` whose writers the reader accepts. -/
def acceptedBy (p : RtpsParticipant) (r : EntityId) (xs : List Dispatch) : List SampleId :=
  (xs.filter fun x => p.Accepts r x.source).map Dispatch.id

variable {p q : RtpsParticipant} {r : EntityId} {d : Datagram} {guidPrefix : GuidPrefix}
  {raw : RawSubmessage}

@[simp] lemma acceptedBy_nil : p.acceptedBy r [] = [] := rfl

lemma acceptedBy_append (xs ys : List Dispatch) :
    p.acceptedBy r (xs ++ ys) = p.acceptedBy r xs ++ p.acceptedBy r ys := by
  rw [acceptedBy, List.filter_append, List.map_append]
  rfl

lemma acceptedBy_of_steady (h : Steady p q) (xs : List Dispatch) :
    q.acceptedBy r xs = p.acceptedBy r xs := by
  simp only [acceptedBy, h.accepts_iff]

/-- What a datagram hands to a reader is what it brings and the reader accepts, up to a panic. -/
def HandsOver (r : EntityId) (o : Outcome RtpsParticipant Effect Panic) (ids : List SampleId) :
    Prop :=
  (pushesTo r o.out).map Sample.id <+ ids ∧
    (o.panic = none → (pushesTo r o.out).map Sample.id = ids)

lemma handsOver_of_error {o : Outcome RtpsParticipant Effect Panic} {e : Panic}
    (hout : pushesTo r o.out = []) (hpanic : o.panic = some e) (ids : List SampleId) :
    HandsOver r o ids := by
  rw [HandsOver, hout, hpanic]
  exact ⟨List.nil_sublist _, nofun⟩

/-- Accepting a sample hands it to the reader if that accepts its writer. -/
lemma handsOver_acceptSample {x : Dispatch} (hseq : x.seqNum < 2 ^ 64) :
    HandsOver r (acceptSample d x.origin x.source x.payload x.seqNum p) (p.acceptedBy r [x]) := by
  by_cases hacc : p.Accepts r x.source
  · have hids : p.acceptedBy r [x] = [x.id] := by simp [acceptedBy, hacc]
    by_cases hok : p.NotifyOk x.source x.seqNum
    · obtain ⟨st, hst, hsource⟩ := hacc
      rw [HandsOver, pushesTo_acceptSample hseq hok hst, if_pos hsource, hids]
      exact ⟨.refl _, fun _ => rfl⟩
    · obtain ⟨e, he⟩ := Option.ne_none_iff_exists'.mp
        (mt (show (acceptSample d x.origin x.source x.payload x.seqNum p).panic = none ↔ _ from
          panic_acceptSample hseq).mp hok)
      exact handsOver_of_error (pushesTo_acceptSample_of_not hseq fun h => hok h.1) he _
  · have hids : p.acceptedBy r [x] = [] := by simp [acceptedBy, hacc]
    rw [HandsOver, pushesTo_acceptSample_of_not hseq fun h => hacc h.2, hids]
    exact ⟨.refl _, fun _ => rfl⟩

/-- One command, and then another. -/
lemma HandsOver.andThen {c c' : Cmd RtpsParticipant Effect Panic} {ids ids' : List SampleId}
    (h : HandsOver r (c p) ids) (h' : HandsOver r (c' (c p).state) ids') :
    HandsOver r (c.andThen c' p) (ids ++ ids') := by
  cases hpanic : (c p).panic with
  | some e =>
    rw [Cmd.andThen_of_some hpanic, HandsOver, hpanic]
    exact ⟨h.1.trans (List.sublist_append_left _ _), nofun⟩
  | none =>
    rw [Cmd.andThen_of_none hpanic, HandsOver]
    dsimp only
    rw [pushesTo_append, List.map_append]
    refine ⟨h.1.append h'.1, fun hpanic' => ?_⟩
    rw [h.2 hpanic, h'.2 hpanic']

/-- **The submessages** of a message hand the reader what they bring. -/
lemma handsOver_forEach (d : Datagram) (guidPrefix : GuidPrefix) (raws : List RawSubmessage)
    (hq : Steady p q) :
    HandsOver r (Cmd.forEach (handleSubmessage d guidPrefix) raws q)
      (p.acceptedBy r (broughtIn d.now guidPrefix raws q.fragAssembler)) := by
  induction raws generalizing q with
  | nil => exact ⟨.refl _, fun _ => rfl⟩
  | cons raw raws ih =>
    rw [Cmd.forEach_cons]
    have hafter : Steady p (q.afterArrival d guidPrefix raw) := hq.trans (.withAssembler ..)
    rcases harrival : arrival d.now guidPrefix raw q.fragAssembler with ⟨frags, e | x⟩
    all_goals
      have hcases := handleSubmessage_cases d guidPrefix raw q
      rw [Brings, harrival] at hcases
      have hfrags : (q.afterArrival d guidPrefix raw).fragAssembler = frags := by
        rw [afterArrival, harrival]
      rw [broughtIn, harrival]
    · rcases hcases with ⟨e, -, h⟩ | ⟨x, hx, -⟩ | ⟨hx, -⟩
      · have hpanic : (handleSubmessage d guidPrefix raw q).panic = some e := by rw [h]
        rw [Cmd.andThen_of_some hpanic]
        exact handsOver_of_error (by rw [h]; rfl) hpanic _
      · cases hx
      · cases hx
    · dsimp only
      rw [acceptedBy_append]
      rcases hcases with ⟨e, hx, -⟩ | ⟨x', hx, h⟩ | ⟨hx, h⟩
      · cases hx
      · cases hx
        have hseq : x'.seqNum < 2 ^ 64 := (arrival_eq_some (congrArg Prod.snd harrival)).1
        have hstate := congrArg Outcome.state h
        have hframe : ReadersOnly (q.afterArrival d guidPrefix raw)
            (acceptSample d x'.origin x'.source x'.payload x'.seqNum
              (q.afterArrival d guidPrefix raw)).state := readersOnly_acceptSample hseq
        refine HandsOver.andThen ?_ ?_
        · rw [h, Option.toList_some, ← acceptedBy_of_steady hafter]
          exact handsOver_acceptSample hseq
        · rw [hstate, ← hfrags, ← hframe.fragAssembler_eq]
          exact ih (hafter.trans (steady_acceptSample hseq))
      · cases hx
        refine HandsOver.andThen ?_ ?_
        · rw [HandsOver, pushesTo_of_sends h.sends]
          exact ⟨.refl _, fun _ => rfl⟩
        · rw [← hfrags, ← h.assembler]
          exact ih (hafter.trans h.steady)

/-- **The datagram.** -/
lemma handsOver_handleDataPacket (r : EntityId) (d : Datagram) (p : RtpsParticipant) :
    HandsOver r (handleDataPacket d p) (p.acceptedBy r (p.brought d)) := by
  rw [handleDataPacket, brought]
  cases Header.decode d.data with
  | error => exact ⟨.refl _, fun _ => rfl⟩
  | ok header =>
    dsimp only
    by_cases hown : header.guidPrefix = p.guidPrefix
    · rw [if_pos hown, if_pos hown]
      exact ⟨.refl _, fun _ => rfl⟩
    · rw [if_neg hown, if_neg hown]
      exact handsOver_forEach d _ _ (Steady.refl p)

end RtpsParticipant

/-! ## Runs -/

namespace RtpsUdpParticipant

/-- The samples that a received datagram brings to a reader that accepts their writers. -/
def arrivals (r : EntityId) (s : RtpsUdpParticipant) : ParticipantEvent → List SampleId
  | .dataPacket d => s.inner.acceptedBy r (s.inner.brought d)
  | _ => []

/-- The samples that a received datagram hands to the queue of a reader. -/
def deliveries (r : EntityId) (s : RtpsUdpParticipant) : ParticipantEvent → List SampleId
  | .dataPacket d => (pushesTo r (handle (.dataPacket d) s).out).map Sample.id
  | _ => []

/-- Handling a datagram does not panic. -/
def Calm (s : RtpsUdpParticipant) : ParticipantEvent → Prop
  | .dataPacket d => (s.inner.handleDataPacket d).panic = none
  | _ => True

/-- A queue is handed no more than arrives. -/
lemma deliveries_sublist (r : EntityId) (s : RtpsUdpParticipant) (e : ParticipantEvent) :
    s.deliveries r e <+ s.arrivals r e := by
  cases e with
  | dataPacket d => exact (RtpsParticipant.handsOver_handleDataPacket r d s.inner).1
  | _ => exact .refl _

/-- Where nothing panics, it is handed all that arrives. -/
lemma deliveries_eq_of_calm (r : EntityId) {s : RtpsUdpParticipant} {e : ParticipantEvent}
    (h : s.Calm e) : s.deliveries r e = s.arrivals r e := by
  cases e with
  | dataPacket d => exact (RtpsParticipant.handsOver_handleDataPacket r d s.inner).2 h
  | _ => rfl

/-- **At most once.**  In a run from any state, the queue of a reader is handed no sample twice
if no sample number of a writer arrives twice while the reader accepts that writer; and, unless
the handling of a datagram panics, only then. -/
theorem deliveries_nodup_of_arrivals (r : EntityId) (s : RtpsUdpParticipant)
    (events : List ParticipantEvent) :
    ((Run.trace step (arrivals r) s events).Nodup →
      (Run.trace step (deliveries r) s events).Nodup) ∧
    (Run.Each step Calm s events → (Run.trace step (deliveries r) s events).Nodup →
      (Run.trace step (arrivals r) s events).Nodup) := by
  refine ⟨fun h => h.sublist (Run.trace_sublist (deliveries_sublist r) s events), fun hcalm h => ?_⟩
  rwa [hcalm.trace_eq fun _ _ => deliveries_eq_of_calm r] at h

/-! ### Two runs -/

/-- A reliable reader is created, and participant 2 announces its first writer under the topic. -/
def matchedReader : List ParticipantEvent :=
  [.newSubscriber "a" ⟨true, false⟩ ⟨0, .dropNewest⟩ 0,
    .sedpPacket (endpointMessage (ParticipantConfig.numbered 2).sedp
      ⟨⟨(ParticipantConfig.numbered 2).guidPrefix, entityIdForWriter 1⟩, "a", true⟩ 1)
      (.v4 (FixedBytes.zero 4) 7410),
    .takeMatch]

/-- A DATA of that writer. -/
def dataOf (seq : ℕ) : ParticipantEvent :=
  .dataPacket ⟨0, 0, wrapInRtpsMessage
      ⟨protocolVersion23, vendorIdRustDds, (ParticipantConfig.numbered 2).guidPrefix⟩
      (encodeDataSubmessage (entityIdForWriter 1) entityIdUnknown (.fromU64 seq)
        (wrapPayload [7])), .v4 (FixedBytes.zero 4) 7411⟩

/-- Two samples, in the wrong order, are delivered once each. -/
theorem deliveries_nodup_of_arrivals_reordered :
    (Run.trace step (deliveries (entityIdForReader 1)) (after (.numbered 1) matchedReader)
      [dataOf 2, dataOf 1]).Nodup ∧
    (Run.trace step (deliveries (entityIdForReader 1)) (after (.numbered 1) matchedReader)
      [dataOf 2, dataOf 1]).length = 2 :=
  ⟨(deliveries_nodup_of_arrivals (entityIdForReader 1) (after (.numbered 1) matchedReader)
    [dataOf 2, dataOf 1]).1 (by decide +kernel), by decide +kernel⟩

/-- A datagram that arrives twice is delivered twice. -/
theorem exists_delivered_twice :
    ¬ ∀ (cfg : ParticipantConfig) (events : List ParticipantEvent) (r : EntityId),
      (Run.trace step (deliveries r) (new cfg) events).Nodup := by
  intro h
  exact absurd (h (.numbered 1) (matchedReader ++ [dataOf 1, dataOf 1]) (entityIdForReader 1))
    (by decide +kernel)

end RtpsUdpParticipant

end RustDds
