import RustDds.Rtps.Fragment

/-!
# Framing

A message body is submessages back to back, each behind a header that says how long it is.
`SubmessageIter` takes it apart again.  Here its whole behaviour is described: what the calls of
`next` yield, one after the other, from the first call on.

On what the encoders produce, that is the submessages themselves (`yields_encode`); a declared
length of zero, which the iterator reads as "the rest of the message", is never produced, since
no encoder has an empty body.  On any input whatsoever, the calls yield slices of it from left to
right, four header bytes apart, then perhaps one error, then nothing (`exists_slices`).
-/

namespace RustDds

/-! ## What the calls yield -/

namespace SubmessageIter

variable {it it' : SubmessageIter}

/-- What the `n`-th call of `next` yields. -/
def yields : SubmessageIter → ℕ → Option (Except RtpsDecodeError RawSubmessage)
  | it, 0 => it.next.1
  | it, n + 1 => yields it.next.2 n

/-- An iterator that has stopped stays so. -/
lemma yields_of_stopped (h : it.next = (none, it)) (n : ℕ) : it.yields n = none := by
  induction n with
  | zero => rw [yields, h]
  | succ n ih => rw [yields, h, ih]

/-- What one call does: it yields nothing, as ever after; or one error, and nothing after that;
or the slice behind four header bytes, and leaves what follows it. -/
lemma next_cases (it : SubmessageIter) :
    it.next = (none, it) ∨
      (∃ e, it.next = (some (.error e), { it with errored := true })) ∨
      ∃ raw lo hi rest, it.next = (some (.ok raw), { it with body := rest }) ∧
        it.body = [raw.id, raw.flags, lo, hi] ++ raw.body ++ rest := by
  unfold next
  split
  · exact .inl rfl
  · rename_i hgo
    simp only [Bool.or_eq_true, decide_eq_true_eq, not_or, not_lt] at hgo
    obtain ⟨b₀, b₁, b₂, b₃, rest, hbody⟩ :
        ∃ b₀ b₁ b₂ b₃ rest, it.body = b₀ :: b₁ :: b₂ :: b₃ :: rest := by
      rcases hb : it.body with _ | ⟨b₀, _ | ⟨b₁, _ | ⟨b₂, _ | ⟨b₃, rest⟩⟩⟩⟩
      · simp [hb] at hgo
      · simp [hb] at hgo
      · simp [hb] at hgo
      · simp [hb] at hgo
      · exact ⟨b₀, b₁, b₂, b₃, rest, rfl⟩
    dsimp only
    split
    · exact .inr (.inl ⟨_, rfl⟩)
    · refine .inr (.inr ⟨_, b₂, b₃, _, rfl, ?_⟩)
      simp [hbody, Bytes.readU8]

/-- **Any input.**  The calls yield slices of the input from left to right, each behind its four
header bytes, then at most one error, and nothing after that. -/
lemma exists_slices (it : SubmessageIter) :
    ∃ (raws : List (RawSubmessage × UInt8 × UInt8)) (err : Option RtpsDecodeError) (rest : Bytes),
      it.body = (raws.flatMap fun r => [r.1.id, r.1.flags, r.2.1, r.2.2] ++ r.1.body) ++ rest ∧
        ∀ n, it.yields n =
          (raws.map (fun r => Except.ok r.1) ++ err.toList.map Except.error)[n]? := by
  induction hlen : it.body.length using Nat.strong_induction_on generalizing it with
  | _ len ih =>
    rcases it.next_cases with hstop | ⟨e, herr⟩ | ⟨raw, lo, hi, rest, hnext, hbody⟩
    · refine ⟨[], none, it.body, rfl, fun n => ?_⟩
      rw [yields_of_stopped hstop]
      rfl
    · refine ⟨[], some e, it.body, rfl, fun n => ?_⟩
      cases n with
      | zero =>
        rw [yields, herr]
        rfl
      | succ n =>
        have hstop : SubmessageIter.next { it with errored := true } =
            (none, { it with errored := true }) := by
          rw [next, if_pos (by simp)]
        rw [yields, herr, yields_of_stopped hstop]
        rfl
    · have hshort : rest.length < len := by
        rw [← hlen, hbody]
        simp only [List.length_append, List.length_cons]
        omega
      obtain ⟨raws, err, rest', hrest, hyields⟩ := ih _ hshort { it with body := rest } rfl
      refine ⟨(raw, lo, hi) :: raws, err, rest', ?_, fun n => ?_⟩
      · rw [List.flatMap_cons, List.append_assoc, ← hrest, hbody]
      · cases n with
        | zero =>
          rw [yields, hnext]
          rfl
        | succ n =>
          rw [yields, hnext, hyields]
          rfl

end SubmessageIter

/-! ## What the encoders produce -/

/-- A submessage, as one of the encoders is given it. -/
inductive Submessage
  | data (writer reader : EntityId) (seqNum : SequenceNumber) (serialisedPayload : Bytes)
  | dataFrag (f : DataFrag)
  | heartbeat (hb : Heartbeat)
  | acknack (an : AckNack)
  | gap (g : Gap)
  deriving DecidableEq

namespace Submessage

/-- The encoder of each kind. -/
def encode : Submessage → Bytes
  | .data writer reader seqNum payload => encodeDataSubmessage writer reader seqNum payload
  | .dataFrag f => encodeDataFrag f
  | .heartbeat hb => encodeHeartbeatSubmessage hb
  | .acknack an => encodeAcknackSubmessage an
  | .gap g => encodeGapSubmessage g

/-- The id, the flags and the body that are framed. -/
def raw : Submessage → RawSubmessage
  | .data writer reader seqNum payload =>
    ⟨submsgData, flagEndianness ||| flagData, dataBody writer reader seqNum payload⟩
  | .dataFrag f => ⟨submsgDataFrag, flagEndianness, dataFragBody f⟩
  | .heartbeat hb => ⟨submsgHeartbeat, flagEndianness, heartbeatBody hb⟩
  | .acknack an => ⟨submsgAcknack, flagEndianness, acknackBody an⟩
  | .gap g => ⟨submsgGap, flagEndianness, gapBody g⟩

/-- The five encoders frame the same way. -/
lemma encode_eq_frame (m : Submessage) : m.encode = frame m.raw.id m.raw.flags m.raw.body := by
  cases m <;> rfl

/-- No encoder has an empty body. -/
lemma length_body_pos (m : Submessage) : 0 < m.raw.body.length := by
  cases m <;> simp [raw]

end Submessage

/-- **Encoded submessages.**  The calls yield them, in order, and then nothing. -/
lemma SubmessageIter.yields_encode {ms : List Submessage}
    (h : ∀ m ∈ ms, m.raw.body.length ≤ 65535) (n : ℕ) :
    (SubmessageIter.new (ms.flatMap Submessage.encode)).yields n =
      ms[n]?.map fun m => .ok m.raw := by
  induction ms generalizing n with
  | nil =>
    rw [yields_of_stopped (by rfl)]
    rfl
  | cons m ms ih =>
    have hlen := h m List.mem_cons_self
    have hnext : (SubmessageIter.new
        (frame m.raw.id m.raw.flags m.raw.body ++ ms.flatMap Submessage.encode)).next =
          (some (.ok m.raw), .new (ms.flatMap Submessage.encode)) :=
      next_frame _ m.length_body_pos (by omega)
    rw [← m.encode_eq_frame, ← List.flatMap_cons] at hnext
    cases n with
    | zero =>
      rw [yields, hnext]
      rfl
    | succ n =>
      rw [yields, hnext, ih fun m' hm' => h m' (List.mem_cons_of_mem _ hm')]
      rfl

/-- **Framing is exact.**  Over encoded submessages the iterator yields their ids, flags and
bodies, in order, and then stops; over any input it yields slices of it from left to right, each
behind its own four header bytes, then at most one error, and then stops. -/
theorem SubmessageIter.framing_exact (ms : List Submessage)
    (h : ∀ m ∈ ms, m.raw.body.length ≤ 65535) (input : Bytes) :
    (∀ n, (SubmessageIter.new (ms.flatMap Submessage.encode)).yields n =
      ms[n]?.map fun m => .ok m.raw) ∧
    ∃ (raws : List (RawSubmessage × UInt8 × UInt8)) (err : Option RtpsDecodeError) (rest : Bytes),
      input = (raws.flatMap fun r => [r.1.id, r.1.flags, r.2.1, r.2.2] ++ r.1.body) ++ rest ∧
        ∀ n, (SubmessageIter.new input).yields n =
          (raws.map (fun r => Except.ok r.1) ++ err.toList.map Except.error)[n]? :=
  ⟨yields_encode h, (SubmessageIter.new input).exists_slices⟩

/-- A GAP of the numbers 1 to 3 and the HEARTBEAT that follows it are read back as two
submessages. -/
theorem SubmessageIter.framing_exact_two :
    (SubmessageIter.new ([Submessage.gap ⟨entityIdUnknown, entityIdSedpPubWriter, ⟨0, 1⟩, ⟨0, 3⟩⟩,
        .heartbeat ⟨entityIdUnknown, entityIdSedpPubWriter, ⟨0, 4⟩, ⟨0, 9⟩, 1⟩].flatMap
          Submessage.encode)).yields 2 = none := by
  rw [(framing_exact _ (by simp [Submessage.raw]) []).1]
  rfl

end RustDds
