import RustDds.Concurrency.Publishing
import RustDds.Shmem.Crossing

/-!
# A write to shared memory

`write_payload` hands the sample to the broker, which pushes it to the subscribers of the process,
and writes it to the rendezvous file, from which the subscribers of other processes are fed.  What
the broker and the file system do with it is the matter of other modules; here a write is the
sample it makes.

Three limits bear on the size of a payload.  A publisher refuses what is above the maximum of its
QoS, where zero is none; the file keeps the length in 32 bits; and a reader refuses a declared
length above `maxPayloadBytes`.  Only the first of them is known to the writer
(`crosses_iff_le`).
-/

namespace RustDds

namespace Publication

/-- `write_payload` at the time `now`: the sample for the broker and for the file, or the error.
The counter itself wraps. -/
def writePayload (pub : Publication) (now : ℤ) (payload : Bytes) :
    Except Panic (Except DdsError Sample) × Publication :=
  if pub.closed then (.ok (.error .closed), pub)
  else if pub.qos.maxSampleSize > 0 ∧ (payload.length : ℤ) > pub.qos.maxSampleSize then
    (.ok (.error .payloadTooLarge), pub)
  else
    ((checkedAdd 64 pub.seq.toNat 1).map fun seq =>
        .ok ⟨pub.topic, payload, now, seq, pub.guid.toBytes⟩,
      { pub with seq := pub.seq + 1 })

variable {pub : Publication} {now : ℤ} {payload : Bytes} {sample : Sample}

/-- The sample of a write that is accepted. -/
lemma writePayload_eq_ok (h : (pub.writePayload now payload).1 = .ok (.ok sample)) :
    pub.Accepts payload ∧ pub.seq.toNat + 1 < 2 ^ 64 ∧
      sample = ⟨pub.topic, payload, now, pub.seq.toNat + 1, pub.guid.toBytes⟩ := by
  rw [writePayload] at h
  split_ifs at h with hclosed hlarge
  · cases h
  · cases h
  · obtain ⟨seq, hseq, hsample⟩ := Except.map_eq_ok.mp h
    obtain ⟨hlt, rfl⟩ := checkedAdd_eq_ok.mp hseq
    have hfits : pub.qos.maxSampleSize ≤ 0 ∨ (payload.length : ℤ) ≤ pub.qos.maxSampleSize := by
      rw [not_and_or, not_lt, not_lt] at hlarge
      exact hlarge
    exact ⟨⟨by simpa using hclosed, hfits⟩, hlt, (Except.ok.inj hsample).symm⟩

/-- Without a maximum, an open publisher accepts a payload of any size. -/
lemma writePayload_of_unlimited (hopen : pub.closed = false) (hmax : pub.qos.maxSampleSize = 0)
    (hseq : pub.seq.toNat + 1 < 2 ^ 64) (now : ℤ) (payload : Bytes) :
    (pub.writePayload now payload).1 =
      .ok (.ok ⟨pub.topic, payload, now, pub.seq.toNat + 1, pub.guid.toBytes⟩) := by
  rw [writePayload, if_neg (by simp [hopen]), if_neg (by simp [hmax]),
    checkedAdd_eq_ok.mpr ⟨hseq, rfl⟩]
  rfl

end Publication

/-- `deliver`: push it into the queue of the subscriber. -/
def deliver (inner : SubInner) (topic : String) (d : Decoded) : Bool × SubInner :=
  inner.push (d.toSample topic)

/-- The file of a sample is read, and gives the subscribers of other processes what the broker
gives to those of the same process. -/
def Crosses (originId : UInt64) (sample : Sample) : Prop :=
  decodeSample (encodeSample originId sample) =
      .ok ⟨originId, sample.sequenceNumber, sample.timestamp, sample.writerGuid, sample.payload⟩ ∧
    ∀ d, decodeSample (encodeSample originId sample) = .ok d →
      ∀ inner, deliver inner sample.topic d = inner.push sample

/-- **An accepted sample crosses to another process exactly if its payload is not above the cap of
the reader.** -/
theorem crosses_iff_le (originId : UInt64) (pub : Publication) (now : ℤ) (payload : Bytes)
    (sample : Sample) (htime : -2 ^ 63 ≤ now ∧ now < 2 ^ 63)
    (hwrite : (pub.writePayload now payload).1 = .ok (.ok sample)) :
    Crosses originId sample ↔ payload.length ≤ maxPayloadBytes := by
  obtain ⟨-, hseq, rfl⟩ := Publication.writePayload_eq_ok hwrite
  have hread := decodeSample_encodeSample originId
    ⟨pub.topic, payload, now, pub.seq.toNat + 1, pub.guid.toBytes⟩ hseq
  constructor
  · rintro ⟨hdecoded, -⟩
    exact (hread.mp hdecoded).1
  · intro hle
    have hdecoded := hread.mpr ⟨hle, htime⟩
    refine ⟨hdecoded, fun d hd inner => ?_⟩
    rw [hdecoded, Except.ok.injEq] at hd
    rw [← hd]
    rfl

/-- A new publisher without a maximum. -/
def unlimitedPublisher : Publication :=
  ⟨"a", .default, ⟨FixedBytes.zero 12, FixedBytes.zero 4⟩, 0, false⟩

/-- A payload of three bytes crosses. -/
theorem crosses_three :
    Crosses 7 ⟨"a", [1, 2, 3], 0, 1, FixedBytes.zero 16⟩ :=
  (crosses_iff_le 7 unlimitedPublisher 0 [1, 2, 3] _ (by decide) rfl).mpr (by decide)

/-- A payload that is a byte too long is accepted all the same. -/
theorem not_crosses_of_accepted :
    ¬ ∀ (originId : UInt64) (pub : Publication) (now : ℤ) (payload : Bytes) (sample : Sample),
      -2 ^ 63 ≤ now ∧ now < 2 ^ 63 → (pub.writePayload now payload).1 = .ok (.ok sample) →
        Crosses originId sample := by
  intro h
  obtain ⟨payload, hlength⟩ : ∃ payload : Bytes, payload.length = maxPayloadBytes + 1 :=
    ⟨List.replicate _ 0, List.length_replicate⟩
  obtain ⟨hdecoded, -⟩ := h 7 unlimitedPublisher 0 payload _ (by decide)
    (Publication.writePayload_of_unlimited rfl rfl (by decide) 0 payload)
  rw [decodeSample_encodeSample_eq, hlength, if_pos (by decide)] at hdecoded
  cases hdecoded

end RustDds
