import RustDds.Reliability.Answer
import RustDds.Reliability.Calls

/-!
# Where the arithmetic of reliability leaves its type

`record`, `missing` and `handleAcknack` take their operands from the wire, where a number may be
any of 64 bits, and add to them without a check.  The loops end by their own tests, whatever the
operands (`loopsEnd`); what can go wrong is an addition.

`InRange` is the condition of one call of a tracker, on the state the call finds, and
`AcknackInRange` that of one ACKNACK.  In a run of calls of a tracker every call returns exactly if
every call is in range (`returns_iff_inRange`).  The last 32 numbers are out of range: one HEARTBEAT
that names them makes `missing` panic under the lock of its tracker (`exists_overflow`).
-/

namespace RustDds

/-! ## The loops -/

namespace RecvTrackerInner

variable {t : RecvTrackerInner}

/-- More turns than there are buffered numbers make no difference to the loop of `record`. -/
lemma advance_add {fuel : ℕ} (hfuel : t.ahead.card ≤ fuel) (extra : ℕ) :
    advance (fuel + extra) t = advance fuel t := by
  induction fuel generalizing t with
  | zero =>
    have hempty : t.ahead = ∅ := Finset.card_eq_zero.mp (Nat.le_zero.mp hfuel)
    have hnot : t.expected ∉ t.ahead := by simp [hempty]
    rw [Nat.zero_add]
    cases extra with
    | zero => rfl
    | succ extra => rw [advance, advance, if_neg hnot]
  | succ fuel ih =>
    rw [Nat.succ_add, advance, advance]
    by_cases hmem : t.expected ∈ t.ahead
    · rw [if_pos hmem, if_pos hmem]
      refine congrArg (checkedAdd 64 t.expected 1).bind (funext fun expected => ?_)
      refine ih (t := { t with ahead := t.ahead.erase t.expected, expected }) ?_
      rw [Finset.card_erase_of_mem hmem]
      omega
    · rw [if_neg hmem, if_neg hmem]

/-- More turns than there are numbers up to the end make none to the loop of `missing`. -/
lemma missingLoop_add {ahead : Finset ℕ} {base last fuel sn : ℕ} {b : UInt32} {need : Bool}
    (hfuel : last < sn + fuel) (extra : ℕ) :
    missingLoop ahead base last (fuel + extra) sn b need =
      missingLoop ahead base last fuel sn b need := by
  induction fuel generalizing sn b need with
  | zero =>
    have hnot : ¬ sn ≤ last := by omega
    rw [Nat.zero_add]
    cases extra with
    | zero => rfl
    | succ extra => rw [missingLoop, missingLoop, if_neg hnot]
  | succ fuel ih =>
    rw [Nat.succ_add, missingLoop, missingLoop]
    by_cases hle : sn ≤ last
    · rw [if_pos hle, if_pos hle]
      cases missingTurn ahead base sn b need with
      | error e => rfl
      | ok r =>
        obtain ⟨b', need'⟩ := r
        rw [Except.ok_bind, Except.ok_bind]
        dsimp only
        rcases Nat.lt_or_ge (sn + 1) (2 ^ 64) with hadd | hadd
        · rw [checkedAdd_of_lt hadd, Except.ok_bind, Except.ok_bind, ih (by omega)]
        · rw [checkedAdd_of_le hadd, Except.error_bind, Except.error_bind]
    · rw [if_neg hle, if_neg hle]

/-- The turns the loops are given suffice: more change nothing. -/
def LoopsEnd : Prop :=
  (∀ (t : RecvTrackerInner) (extra : ℕ),
    advance (t.ahead.card + extra) t = advance t.ahead.card t) ∧
  ∀ (ahead : Finset ℕ) (base last extra : ℕ) (b : UInt32) (need : Bool), last ≤ base + 31 →
    missingLoop ahead base last (33 + extra) base b need =
      missingLoop ahead base last 33 base b need

lemma loopsEnd : LoopsEnd :=
  ⟨fun _ extra => advance_add le_rfl extra,
    fun _ _ _ extra _ _ hlast => missingLoop_add (by omega) extra⟩

/-! ## The calls of a tracker -/

/-- A call that leaves the number space alone: a `record` at the watermark has a number above it
that is not received, and a window of `missing` that is not empty ends, with the number behind it,
in 64 bits. -/
def InRange (t : RecvTrackerInner) : TrackerCall → Prop
  | .initExpected _ => True
  | .record seq => seq = (t.initExpected seq).expected →
      ∃ s, seq < s ∧ s < 2 ^ 64 ∧ s ∉ (t.initExpected seq).ahead
  | .missing lastSn => t.initDone = true → t.expected ≤ lastSn →
      t.expected + 31 < 2 ^ 64 ∧ min lastSn (t.expected + 31) + 1 < 2 ^ 64

end RecvTrackerInner

/-- A call with a number from the wire. -/
abbrev WireCall := { c : TrackerCall // c.value < 2 ^ 64 }

namespace RecvTracker

/-- The call returns. -/
def Returns (t : RecvTracker) : TrackerCall → Prop
  | .initExpected firstSn => ∃ r, (t.initExpected firstSn).1 = .ok r
  | .record seq => ∃ v, (t.record seq).1 = .ok v
  | .missing lastSn => ∃ r, (t.missing lastSn).1 = .ok r

variable {t : RecvTracker}

/-- A critical section that is entered returns where its body does, and unlocks. -/
lemma returns_enter_iff {β : Type} {f : RecvTrackerInner → Except Panic (β × RecvTrackerInner)}
    (hp : t.inner.poisoned = false) :
    ((∃ b, (t.enter f).1 = .ok b) ↔ ∃ r, f t.inner.val = .ok r) ∧
      ((∃ b, (t.enter f).1 = .ok b) → (t.enter f).2.inner.poisoned = false) := by
  cases hf : f t.inner.val with
  | ok r =>
    obtain ⟨b, i⟩ := r
    rw [enter_of_ok hp hf]
    exact ⟨iff_of_true ⟨b, rfl⟩ ⟨(b, i), rfl⟩, fun _ => rfl⟩
  | error e =>
    rw [enter, Mutex.lockExpect_of_error hp hf]
    have hnot : ¬ ∃ b, (Except.error e : Except Panic β) = .ok b := by
      rintro ⟨b, hb⟩
      cases hb
    refine ⟨iff_of_false hnot ?_, fun h => absurd h hnot⟩
    rintro ⟨r, hr⟩
    cases hr

/-- **The step.**  A call of a tracker that is not poisoned returns exactly if it is in range, and
then leaves the tracker unpoisoned. -/
lemma returns_call_iff (hp : t.inner.poisoned = false) (c : WireCall) :
    (t.Returns c ↔ t.inner.val.InRange c) ∧
      (t.Returns c → (t.call c).inner.poisoned = false) := by
  obtain ⟨c, hc⟩ := c
  cases c with
  | initExpected firstSn =>
    obtain ⟨hiff, hkeep⟩ := @returns_enter_iff t _ (fun i => .ok ((), i.initExpected firstSn)) hp
    exact ⟨iff_of_true (hiff.mpr ⟨_, rfl⟩) trivial, hkeep⟩
  | record seq =>
    obtain ⟨hiff, hkeep⟩ := @returns_enter_iff t _ (RecvTrackerInner.record seq) hp
    exact ⟨hiff.trans RecvTrackerInner.record_isOk_iff, hkeep⟩
  | missing lastSn =>
    obtain ⟨hiff, hkeep⟩ := @returns_enter_iff t _
      (fun i => (RecvTrackerInner.missing lastSn i).map fun r => (r, i)) hp
    refine ⟨hiff.trans (Iff.trans ?_ (RecvTrackerInner.missing_isOk_iff hc)), hkeep⟩
    constructor
    · rintro ⟨r, hr⟩
      obtain ⟨r', hr', -⟩ := Except.map_eq_ok.mp hr
      exact ⟨r', hr'⟩
    · rintro ⟨r, hr⟩
      exact ⟨_, Except.map_eq_ok.mpr ⟨r, hr, rfl⟩⟩

/-- The tracker after a call with a number from the wire. -/
def callWire (t : RecvTracker) (c : WireCall) : RecvTracker := t.call c

/-- **The run.**  From first contact on, all calls return exactly if all are in range. -/
lemma returns_run_iff (run : List WireCall) :
    Run.Each callWire (fun t c => t.Returns c) new run ↔
      Run.Each callWire (fun t c => t.inner.val.InRange c) new run :=
  Run.each_iff_of_inv (fun _ c hp => (returns_call_iff hp c).1)
    (fun _ c hp => (returns_call_iff hp c).2) rfl

end RecvTracker

/-! ## The answer to an ACKNACK -/

namespace RtpsParticipant

/-- An ACKNACK that leaves the number space alone: each number it asks for is one of 64 bits, and
so is the end of its window if the window starts before the history. -/
def AcknackInRange (an : AckNack) (p : RtpsParticipant) : Prop :=
  ∀ st history, p.writers.lookup an.writerEntityId = some st → st.reliable = true →
    st.history = some history →
      (∀ s, an.Requests an.writerEntityId s → s < 2 ^ 64) ∧
      ∀ first last, history.firstLast = some (first, last) → an.base.toU64 < first →
        an.base.toU64 + 31 < 2 ^ 64

variable {p : RtpsParticipant} {an : AckNack} {history : SendHistory} {addrs : List SocketAddr}

lemma state_retransmit (ackBase bit : ℕ) :
    (retransmit history addrs ackBase bit p).state = p := by
  rw [retransmit]
  cases checkedAdd 64 ackBase bit with
  | error e => rfl
  | ok seq =>
    dsimp only
    cases history.get seq <;> rfl

lemma panic_retransmit {ackBase bit : ℕ} :
    (retransmit history addrs ackBase bit p).panic = none ↔ ackBase + bit < 2 ^ 64 := by
  rcases Nat.lt_or_ge (ackBase + bit) (2 ^ 64) with hlt | hge
  · rw [retransmit_eq hlt]
    exact iff_of_true rfl hlt
  · rw [retransmit, checkedAdd_of_le hge]
    exact iff_of_false (by simp [Cmd.fail]) (not_lt.mpr hge)

lemma panic_sendGap {header : Header} {src : SocketAddr} :
    (sendGap header history an addrs src p).panic = none ↔
      ∀ first last, history.firstLast = some (first, last) → an.base.toU64 < first →
        an.base.toU64 + 31 < 2 ^ 64 := by
  rw [sendGap]
  dsimp only
  cases history.firstLast with
  | none => exact iff_of_true rfl fun first last h => by cases h
  | some window =>
    obtain ⟨first, last⟩ := window
    dsimp only
    by_cases hlt : an.base.toU64 < first
    · rw [if_pos hlt]
      rcases Nat.lt_or_ge (an.base.toU64 + 31) (2 ^ 64) with hadd | hadd
      · rw [checkedAdd_of_lt hadd]
        exact iff_of_true rfl fun _ _ _ _ => hadd
      · rw [checkedAdd_of_le hadd]
        exact iff_of_false (by simp [Cmd.fail]) fun h => absurd (h _ _ rfl hlt) (not_lt.mpr hadd)
    · rw [if_neg hlt]
      refine iff_of_true rfl fun _ _ heq hlt' => ?_
      cases heq
      exact absurd hlt' hlt

/-- **An ACKNACK** is answered without a panic exactly if it is in range. -/
lemma panic_handleAcknack (an : AckNack) (src : SocketAddr) (p : RtpsParticipant) :
    (handleAcknack an src p).panic = none ↔ p.AcknackInRange an := by
  unfold handleAcknack AcknackInRange
  cases hst : p.writers.lookup an.writerEntityId with
  | none => exact iff_of_true rfl fun _ _ h => by cases h
  | some st =>
    dsimp only
    cases hreliable : st.reliable with
    | false =>
      refine iff_of_true rfl fun st' _ h hrel => ?_
      cases h
      rw [hreliable] at hrel
      cases hrel
    | true =>
      cases hhistory : st.history with
      | none =>
        refine iff_of_true rfl fun st' _ h _ hsome => ?_
        cases h
        rw [hhistory] at hsome
        cases hsome
      | some history =>
        have hloop : ∀ q : RtpsParticipant,
            (Cmd.forEach (retransmit history (p.matchedAddrs st.topic) an.base.toU64)
              (Bitmap.members an.bitmap) q).panic = none ↔
              ∀ s, an.Requests an.writerEntityId s → s < 2 ^ 64 := by
          intro q
          rw [Cmd.panic_forEach fun bit _ => state_retransmit an.base.toU64 bit]
          simp only [panic_retransmit, AckNack.Requests, true_and]
          constructor
          · rintro h _ ⟨bit, hbit, rfl⟩
            exact h bit hbit
          · exact fun h bit hbit => h _ ⟨bit, hbit, rfl⟩
        rw [Bool.not_true, if_neg Bool.false_ne_true]
        dsimp only
        rw [Cmd.panic_andThen, Cmd.panic_andThen, hloop, panic_sendGap]
        constructor
        · rintro ⟨-, hnumbers, hwindow⟩ st' history' h _ hsome
          cases h
          rw [hhistory] at hsome
          cases hsome
          exact ⟨hnumbers, hwindow⟩
        · intro h
          exact ⟨rfl, h st history rfl hreliable hhistory⟩

end RtpsParticipant

/-! ## All of them -/

open RecvTracker in
/-- **When nothing overflows.**  The loops end by their own tests; all calls of a tracker return
exactly if each is in range; and an ACKNACK is answered exactly if it is. -/
theorem returns_iff_inRange (run : List WireCall) (an : AckNack) (src : SocketAddr)
    (p : RtpsParticipant) :
    RecvTrackerInner.LoopsEnd ∧
    (Run.Each callWire (fun t c => t.Returns c) new run ↔
      Run.Each callWire (fun t c => t.inner.val.InRange c) new run) ∧
    ((p.handleAcknack an src).panic = none ↔ p.AcknackInRange an) :=
  ⟨RecvTrackerInner.loopsEnd, returns_run_iff run, RtpsParticipant.panic_handleAcknack an src p⟩

open RecvTracker in
/-- A HEARTBEAT whose history is the last number does not return. -/
theorem exists_overflow :
    ¬ ((∀ run : List WireCall, Run.Each callWire (fun t c => t.Returns c) new run) ∧
      ∀ an src (p : RtpsParticipant), RtpsUdpParticipant.Reached p →
        (p.handleAcknack an src).panic = none) := by
  rintro ⟨h, -⟩
  have hrun := h [⟨.initExpected (2 ^ 64 - 1), by decide⟩, ⟨.missing (2 ^ 64 - 1), by decide⟩]
  obtain ⟨-, ⟨r, hr⟩, -⟩ := hrun
  have hpanic : ((new.call (.initExpected (2 ^ 64 - 1))).missing (2 ^ 64 - 1)).1 =
      .error .overflow := by decide +kernel
  exact absurd (hr.symm.trans hpanic) (by simp)

end RustDds
