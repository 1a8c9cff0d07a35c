import RustDds.Lib.Run
import RustDds.Rtps.Reliable
import Mathlib.Order.Bounds.Basic

/-!
# What a tracker represents, after any calls

A tracker is driven by three operations, and nothing says in what order: a reader may ask what
is missing before the first contact, and a HEARTBEAT may come before a sample or after it.  The
*anchor* of a run of calls is the value of its first `initExpected` or `record`.

The invariant is `Represents`: the tracker is well formed, and what it has down as received
from the anchor on has been recorded.  The other half, that everything recorded is down as
received, holds as long as no record overtakes the watermark by more than `maxReorderAhead`;
such a record is acknowledged to its caller and not kept.  `represents_after` collects what
follows for the watermark, the buffer, the verdicts of `record` and the reports of `missing`.

Sequence numbers stay 64 below the end of their type, where the window of `missing` runs out of
numbers.
-/

namespace RustDds

/-- A call of a tracker. -/
inductive TrackerCall
  | initExpected (firstSn : ℕ)
  | record (seq : ℕ)
  | missing (lastSn : ℕ)
  deriving DecidableEq, Repr

namespace TrackerCall

/-- The argument of a call. -/
def value : TrackerCall → ℕ
  | .initExpected firstSn => firstSn
  | .record seq => seq
  | .missing lastSn => lastSn

/-- Where the call anchors a tracker that has no anchor. -/
def anchor? : TrackerCall → Option ℕ
  | .initExpected firstSn => some firstSn
  | .record seq => some seq
  | .missing _ => none

end TrackerCall

/-- The anchor of a run of calls. -/
def firstAnchor (run : List TrackerCall) : Option ℕ := run.findSome? TrackerCall.anchor?

lemma firstAnchor_append (run : List TrackerCall) (c : TrackerCall) :
    firstAnchor (run ++ [c]) = (firstAnchor run).or c.anchor? := by
  rw [firstAnchor, List.findSome?_append, List.findSome?_singleton, ← firstAnchor]

namespace RecvTracker

/-- The tracker after a call. -/
def call (t : RecvTracker) : TrackerCall → RecvTracker
  | .initExpected firstSn => (t.initExpected firstSn).2
  | .record seq => (t.record seq).2
  | .missing lastSn => (t.missing lastSn).2

/-- The tracker after a run of calls. -/
def afterCalls (run : List TrackerCall) : RecvTracker := run.foldl call new

lemma afterCalls_append (run : List TrackerCall) (c : TrackerCall) :
    afterCalls (run ++ [c]) = (afterCalls run).call c := by
  rw [afterCalls, List.foldl_append, ← afterCalls, List.foldl_cons, List.foldl_nil]

/-- A record is within reach of the watermark it meets. -/
def WithinReach (t : RecvTracker) : TrackerCall → Prop
  | .record seq => seq ≤ (t.inner.val.initExpected seq).expected + maxReorderAhead
  | _ => True

end RecvTracker

namespace RecvTrackerInner

variable {t t' : RecvTrackerInner} {run : List TrackerCall}

/-- The invariant after `run`: the tracker is well formed, it is anchored if the run is, and
from the anchor on it has only what was recorded. -/
structure Represents (run : List TrackerCall) (t : RecvTrackerInner) : Prop where
  wf : t.WF
  done : t.initDone = (firstAnchor run).isSome
  anchor_le : ∀ a, firstAnchor run = some a → a ≤ t.expected
  recorded : ∀ a, firstAnchor run = some a → ∀ s, a ≤ s → t.Has s → .record s ∈ run

/-- The other half of the invariant: the tracker has what was recorded, from the anchor on. -/
def Keeps (run : List TrackerCall) (t : RecvTrackerInner) : Prop :=
  ∀ a, firstAnchor run = some a → ∀ s, a ≤ s → .record s ∈ run → t.Has s

lemma represents_nil : Represents [] new where
  wf := wf_new
  done := rfl
  anchor_le := fun a ha => by cases ha
  recorded := fun a ha => by cases ha

/-- A question of what is missing changes nothing. -/
lemma Represents.missing (h : Represents run t) (lastSn : ℕ) :
    Represents (run ++ [.missing lastSn]) t := by
  have hanchor : firstAnchor (run ++ [.missing lastSn]) = firstAnchor run := by
    rw [firstAnchor_append, TrackerCall.anchor?, Option.or_none]
  refine ⟨h.wf, ?_, ?_, ?_⟩
  · rw [hanchor]
    exact h.done
  · rw [hanchor]
    exact h.anchor_le
  · rw [hanchor]
    intro a ha s hs hhas
    exact List.mem_append_left _ (h.recorded a ha s hs hhas)

/-- Anchoring at the value of a call. -/
lemma Represents.initExpected (h : Represents run t) {c : TrackerCall} {n : ℕ}
    (hc : c.anchor? = some n) (hn : n < 2 ^ 64) : Represents (run ++ [c]) (t.initExpected n) := by
  have hanchor := firstAnchor_append run c
  rw [hc] at hanchor
  cases hrun : firstAnchor run with
  | none =>
    -- this is the first contact: the tracker is still blank
    have hdone : t.initDone = false := by
      rw [h.done, hrun]
      rfl
    have hfirst : firstAnchor (run ++ [c]) = some n := by rw [hanchor, hrun, Option.none_or]
    have hinit : t.initExpected n = { t with expected := n, initDone := true } := by
      rw [RecvTrackerInner.initExpected, if_neg (by simp [hdone])]
    refine ⟨h.wf.initExpected hn, by simp [hfirst], fun a ha => ?_, fun a ha s hs hhas => ?_⟩
    · rw [hinit]
      exact Option.some.inj (ha.symm.trans hfirst) |>.le
    · rw [hinit] at hhas
      rcases hhas with hlt | hmem
      · have hlt' : s < n := hlt
        have := Option.some.inj (ha.symm.trans hfirst)
        omega
      · rw [show t.ahead = ∅ from h.wf.blank hdone] at hmem
        exact absurd hmem (Finset.notMem_empty s)
  | some b =>
    have hfirst : firstAnchor (run ++ [c]) = firstAnchor run := by
      rw [hanchor, hrun, Option.some_or]
    rw [initExpected_of_done (by rw [h.done, hrun]; rfl)]
    refine ⟨h.wf, by rw [hfirst]; exact h.done, fun a ha => ?_, fun a ha s hs hhas => ?_⟩
    · exact h.anchor_le a (hfirst ▸ ha)
    · exact List.mem_append_left _ (h.recorded a (hfirst ▸ ha) s hs hhas)

/-- A record sets down the number it is given, at most. -/
lemma Represents.record (h : Represents run t) {seq : ℕ} (hseq : seq < 2 ^ 64) {v : Bool}
    (hr : RecvTrackerInner.record seq t = .ok (v, t')) :
    Represents (run ++ [.record seq]) t' := by
  have hu := h.initExpected (c := .record seq) rfl hseq
  obtain ⟨hwf, hdone, hle, -, hhas⟩ := record_spec h.wf hseq hr
  refine ⟨hwf, ?_, fun a ha => (hu.anchor_le a ha).trans hle, fun a ha s hs hs' => ?_⟩
  · rw [hdone, firstAnchor_append, TrackerCall.anchor?]
    cases firstAnchor run <;> rfl
  · rcases (hhas s).mp hs' with hold | ⟨heq, -⟩
    · exact hu.recorded a ha s hs hold
    · rw [heq]
      exact List.mem_append_right _ List.mem_cons_self

/-- Where the numbers of a run are small, so is the watermark. -/
lemma Represents.expected_le (h : Represents run t) {bound : ℕ}
    (hrun : ∀ c ∈ run, c.value < bound) : t.initDone = true → t.expected ≤ bound := by
  intro hdone
  rw [h.done, Option.isSome_iff_exists] at hdone
  obtain ⟨a, ha⟩ := hdone
  rcases Nat.eq_or_lt_of_le (h.anchor_le a ha) with heq | hlt
  · obtain ⟨c, hc, hca⟩ := List.exists_of_findSome?_eq_some ha
    have hvalue : c.value = a := by cases c <;> simp_all [TrackerCall.anchor?, TrackerCall.value]
    have := hrun c hc
    omega
  · -- the number below the watermark has been recorded
    have hmem := h.recorded a ha (t.expected - 1) (by omega) (.inl (by omega))
    have hlt' : t.expected - 1 < bound := hrun _ hmem
    omega

/-- The number above all those of a run is not received, so `record` returns. -/
lemma Represents.record_isOk (h : Represents run t) (hrun : ∀ c ∈ run, c.value < 2 ^ 64 - 64)
    {seq : ℕ} (hseq : seq < 2 ^ 64 - 64) : ∃ r, RecvTrackerInner.record seq t = .ok r := by
  rw [record_isOk_iff]
  intro heq
  refine ⟨2 ^ 64 - 64, hseq, by omega, fun hmem => ?_⟩
  cases hdone : t.initDone with
  | false =>
    rw [RecvTrackerInner.initExpected, if_neg (by simp [hdone]),
      show t.ahead = ∅ from h.wf.blank hdone] at hmem
    exact absurd hmem (Finset.notMem_empty _)
  | true =>
    rw [initExpected_of_done hdone] at hmem
    have hsome := h.done.symm.trans hdone
    obtain ⟨a, ha⟩ := Option.isSome_iff_exists.mp hsome
    have hle := (h.anchor_le a ha).trans (h.expected_le hrun hdone)
    have hlt : 2 ^ 64 - 64 < 2 ^ 64 - 64 := hrun _ (h.recorded a ha _ hle (.inr hmem))
    exact lt_irrefl _ hlt

/-- The window of `missing` stays among the numbers. -/
lemma Represents.missing_isOk (h : Represents run t) (hrun : ∀ c ∈ run, c.value < 2 ^ 64 - 64)
    {lastSn : ℕ} (hlast : lastSn < 2 ^ 64 - 64) :
    ∃ r, RecvTrackerInner.missing lastSn t = .ok r := by
  rw [missing_isOk_iff (hlast.trans (by omega))]
  intro hdone _
  have hle := h.expected_le hrun hdone
  omega

lemma Keeps.missing (h : Keeps run t) (lastSn : ℕ) : Keeps (run ++ [.missing lastSn]) t := by
  intro a ha s hs hmem
  rw [firstAnchor_append, TrackerCall.anchor?, Option.or_none] at ha
  exact h a ha s hs (by simpa using hmem)

/-- Anchoring loses nothing: a run that was not anchored has recorded nothing. -/
lemma Keeps.anchoring (hk : Keeps run t) (h : Represents run t) {n : ℕ} {s : ℕ} {a : ℕ}
    (ha : (firstAnchor run).or (some n) = some a) (hs : a ≤ s) (hmem : .record s ∈ run) :
    (t.initExpected n).Has s := by
  cases hrun : firstAnchor run with
  | none =>
    have := List.findSome?_eq_none_iff.mp hrun _ hmem
    cases this
  | some b =>
    rw [initExpected_of_done (by rw [h.done, hrun]; rfl)]
    rw [hrun, Option.some_or] at ha
    exact hk a (hrun.trans ha) s hs hmem

lemma Keeps.initExpected (hk : Keeps run t) (h : Represents run t) (n : ℕ) :
    Keeps (run ++ [.initExpected n]) (t.initExpected n) := by
  intro a ha s hs hmem
  rw [firstAnchor_append] at ha
  exact hk.anchoring h ha hs (by simpa using hmem)

/-- A record within reach is kept. -/
lemma Keeps.record (hk : Keeps run t) (h : Represents run t) {seq : ℕ} (hseq : seq < 2 ^ 64)
    (hreach : seq ≤ (t.initExpected seq).expected + maxReorderAhead) {v : Bool}
    (hr : RecvTrackerInner.record seq t = .ok (v, t')) : Keeps (run ++ [.record seq]) t' := by
  obtain ⟨-, -, -, -, hhas⟩ := record_spec h.wf hseq hr
  intro a ha s hs hmem
  rw [firstAnchor_append] at ha
  rw [hhas]
  rcases List.mem_append.mp hmem with hold | hnew
  · exact .inl (hk.anchoring h ha hs hold)
  · obtain rfl : s = seq := by simpa using hnew
    exact .inr ⟨rfl, hreach⟩

/-- A record is reported new when it is the first of its number, from the anchor on. -/
lemma Represents.verdict_iff (h : Represents run t) (hk : Keeps run t) {seq : ℕ}
    (hseq : seq < 2 ^ 64) {v : Bool} (hr : RecvTrackerInner.record seq t = .ok (v, t')) :
    v = true ↔
      (∃ a, firstAnchor (run ++ [.record seq]) = some a ∧ a ≤ seq) ∧ .record seq ∉ run := by
  obtain ⟨-, -, -, hv, -⟩ := record_spec h.wf hseq hr
  have hu := h.initExpected (c := .record seq) rfl hseq
  obtain ⟨a, ha⟩ : ∃ a, firstAnchor (run ++ [.record seq]) = some a := by
    rw [firstAnchor_append, TrackerCall.anchor?]
    cases firstAnchor run <;> exact ⟨_, rfl⟩
  rw [hv]
  constructor
  · intro hnew
    have hle : a ≤ seq := by
      by_contra hlt
      exact hnew (.inl ((not_le.mp hlt).trans_le (hu.anchor_le a ha)))
    refine ⟨⟨a, ha, hle⟩, fun hmem => hnew ?_⟩
    rw [firstAnchor_append] at ha
    exact hk.anchoring h ha hle hmem
  · rintro ⟨⟨b, hb, hle⟩, hnot⟩ hhas
    rw [firstAnchor_append, TrackerCall.anchor?] at hb
    cases hrun : firstAnchor run with
    | none =>
      -- the first contact finds a watermark at its own number
      have hdone : t.initDone = false := by
        rw [h.done, hrun]
        rfl
      have hexp : (t.initExpected seq).expected = seq := by
        rw [RecvTrackerInner.initExpected, if_neg (by simp [hdone])]
      exact hu.wf.not_has_expected (hexp.symm ▸ hhas)
    | some c =>
      rw [hrun, Option.some_or] at hb
      rw [initExpected_of_done (by rw [h.done, hrun]; rfl)] at hhas
      exact hnot (h.recorded b (hrun.trans hb) seq hle hhas)

/-- Where the tracker keeps every record, its watermark is the least number not recorded. -/
lemma Represents.isLeast_expected (h : Represents run t) (hk : Keeps run t) {a : ℕ}
    (ha : firstAnchor run = some a) :
    IsLeast {s | a ≤ s ∧ .record s ∉ run} t.expected := by
  refine ⟨⟨h.anchor_le a ha, fun hmem => ?_⟩, fun s ⟨hs, hnot⟩ => ?_⟩
  · exact h.wf.not_has_expected (hk a ha _ (h.anchor_le a ha) hmem)
  · by_contra hlt
    exact hnot (h.recorded a ha s hs (.inl (not_le.mp hlt)))

end RecvTrackerInner

namespace RecvTracker

open RecvTrackerInner

variable {t : RecvTracker} {run : List TrackerCall}

/-- What a call of small value does to a tracker that represents `run`. -/
lemma call_cases (hp : t.inner.poisoned = false) (h : t.inner.val.Represents run)
    (hrun : ∀ c ∈ run, c.value < 2 ^ 64 - 64) {c : TrackerCall} (hc : c.value < 2 ^ 64 - 64) :
    (t.call c).inner.poisoned = false ∧ (t.call c).inner.val.Represents (run ++ [c]) ∧
      (t.WithinReach c → t.inner.val.Keeps run → (t.call c).inner.val.Keeps (run ++ [c])) := by
  have hlt : c.value < 2 ^ 64 := hc.trans (by omega)
  cases c with
  | initExpected firstSn =>
    have henter : t.call (.initExpected firstSn) =
        { t with inner := ⟨t.inner.val.initExpected firstSn, false⟩ } := by
      rw [call, RecvTracker.initExpected, enter_of_ok hp rfl]
    rw [henter]
    exact ⟨rfl, h.initExpected rfl hlt, fun _ hk => hk.initExpected h firstSn⟩
  | record seq =>
    have hseq : seq < 2 ^ 64 - 64 := hc
    obtain ⟨⟨v, i⟩, hr⟩ := h.record_isOk hrun hseq
    have henter : t.call (.record seq) = { t with inner := ⟨i, false⟩ } := by
      rw [call, RecvTracker.record, enter_of_ok hp hr]
    rw [henter]
    exact ⟨rfl, h.record hlt hr, fun hreach hk => hk.record h hlt hreach hr⟩
  | missing lastSn =>
    have hlast : lastSn < 2 ^ 64 - 64 := hc
    obtain ⟨r, hm⟩ := h.missing_isOk hrun hlast
    have hmap : (RecvTrackerInner.missing lastSn t.inner.val).map (fun r => (r, t.inner.val)) =
        .ok (r, t.inner.val) := by rw [hm, Except.map]
    have henter : t.call (.missing lastSn) = { t with inner := ⟨t.inner.val, false⟩ } := by
      rw [call, RecvTracker.missing, enter_of_ok hp hmap]
    rw [henter]
    exact ⟨rfl, h.missing lastSn, fun _ hk => hk.missing lastSn⟩

/-- **The run.**  After calls of small value no call has panicked, and the tracker represents
them; it keeps every record if all were within reach. -/
lemma represents_afterCalls (hrun : ∀ c ∈ run, c.value < 2 ^ 64 - 64) :
    (afterCalls run).inner.poisoned = false ∧ (afterCalls run).inner.val.Represents run ∧
      (Run.Each call WithinReach new run → (afterCalls run).inner.val.Keeps run) := by
  induction run using List.reverseRecOn with
  | nil => exact ⟨rfl, represents_nil, fun _ a ha => by cases ha⟩
  | append_singleton run c ih =>
    have hinit : ∀ d ∈ run, d.value < 2 ^ 64 - 64 := fun d hd =>
      hrun d (List.mem_append_left _ hd)
    obtain ⟨hp, hrep, hkeep⟩ := ih hinit
    obtain ⟨hp', hrep', hkeep'⟩ := call_cases hp hrep hinit
      (hrun c (List.mem_append_right _ List.mem_cons_self))
    rw [afterCalls_append]
    refine ⟨hp', hrep', fun heach => ?_⟩
    rw [Run.each_append] at heach
    exact hkeep' heach.2.1 (hkeep heach.1)

/-- What `missing` answers a tracker that represents an anchored run. -/
lemma missing_of_represents (hp : t.inner.poisoned = false) (h : t.inner.val.Represents run)
    (hrun : ∀ c ∈ run, c.value < 2 ^ 64 - 64) {a : ℕ} (ha : firstAnchor run = some a) {last : ℕ}
    (hlast : last < 2 ^ 64 - 64) :
    ∃ bitmap need, (t.missing last).1 = .ok (t.inner.val.expected, bitmap, need) ∧
      (∀ n < 32, Bitmap.test bitmap n = true ↔
        t.inner.val.expected + n ≤ min last (t.inner.val.expected + 31) ∧
          t.inner.val.expected + n ∉ t.inner.val.ahead) ∧
      (need = true ↔ ∃ n < 32, Bitmap.test bitmap n = true) := by
  obtain ⟨⟨base, bitmap, need⟩, hm⟩ := h.missing_isOk hrun hlast
  have hdone : t.inner.val.initDone = true := by
    rw [h.done, ha]
    rfl
  obtain ⟨rfl, hneed, hbit⟩ := missing_spec h.wf hdone hm
  have hbit' : ∀ n < 32, Bitmap.test bitmap n = true ↔
      t.inner.val.expected + n ≤ min last (t.inner.val.expected + 31) ∧
        t.inner.val.expected + n ∉ t.inner.val.ahead := by
    intro n hn
    rw [hbit n hn, Has, not_or, not_lt, le_min_iff]
    have h₁ : t.inner.val.expected ≤ t.inner.val.expected + n := Nat.le_add_right _ _
    have h₂ : t.inner.val.expected + n ≤ t.inner.val.expected + 31 := by omega
    tauto
  refine ⟨bitmap, need, ?_, hbit', ?_⟩
  · rw [RecvTracker.missing, enter_of_ok hp (by rw [hm]; rfl)]
  · rw [hneed]
    constructor
    · -- the watermark itself is missing
      intro hle
      refine ⟨0, by omega, (hbit 0 (by omega)).mpr ⟨hle, h.wf.not_has_expected⟩⟩
    · rintro ⟨n, hn, hset⟩
      have := ((hbit n hn).mp hset).1
      omega

/-- **What the tracker represents.**  After any calls of small value, in any order, none has
panicked, and from the anchor `a` on: all below the watermark was recorded; the watermark and
what is below it are not buffered; what is buffered was recorded and lies above.  If every
record was within reach of the watermark it met, the watermark is the least number not recorded,
and `record` says `true` exactly of the first record of a number.  And `missing` reports the
watermark and what the 32 numbers from it on lack; without an anchor, nothing. -/
theorem represents_calls (run : List TrackerCall) (hrun : ∀ c ∈ run, c.value < 2 ^ 64 - 64) :
    (afterCalls run).inner.poisoned = false ∧
    (∀ a, firstAnchor run = some a →
      (∀ s, a ≤ s → s < (afterCalls run).inner.val.expected → .record s ∈ run) ∧
      (∀ s ≤ (afterCalls run).inner.val.expected, s ∉ (afterCalls run).inner.val.ahead) ∧
      (∀ s ∈ (afterCalls run).inner.val.ahead,
        .record s ∈ run ∧ (afterCalls run).inner.val.expected < s) ∧
      (Run.Each call WithinReach new run →
        IsLeast {s | a ≤ s ∧ .record s ∉ run} (afterCalls run).inner.val.expected) ∧
      ∀ last < 2 ^ 64 - 64, ∃ bitmap need,
        ((afterCalls run).missing last).1 =
            .ok ((afterCalls run).inner.val.expected, bitmap, need) ∧
          (∀ n < 32, Bitmap.test bitmap n = true ↔
            (afterCalls run).inner.val.expected + n ≤
                min last ((afterCalls run).inner.val.expected + 31) ∧
              (afterCalls run).inner.val.expected + n ∉ (afterCalls run).inner.val.ahead) ∧
          (need = true ↔ ∃ n < 32, Bitmap.test bitmap n = true)) ∧
    (firstAnchor run = none → ∀ last, ((afterCalls run).missing last).1 = .ok (0, 0, false)) ∧
    (Run.Each call WithinReach new run → ∀ pre seq post, run = pre ++ .record seq :: post →
      ∃ v, ((afterCalls pre).record seq).1 = .ok v ∧
        (v = true ↔
          (∃ a, firstAnchor run = some a ∧ a ≤ seq) ∧ .record seq ∉ pre)) := by
  obtain ⟨hp, h, hkeep⟩ := represents_afterCalls hrun
  refine ⟨hp, fun a ha => ⟨fun s hs hlt => ?_, fun s hs hmem => ?_, fun s hmem => ?_, ?_, ?_⟩,
    fun hnone last => ?_, ?_⟩
  · exact h.recorded a ha s hs (.inl hlt)
  · exact absurd (h.wf.ahead_gt s hmem) (not_lt.mpr hs)
  · have hgt := h.wf.ahead_gt s hmem
    exact ⟨h.recorded a ha s ((h.anchor_le a ha).trans hgt.le) (.inr hmem), hgt⟩
  · exact fun heach => h.isLeast_expected (hkeep heach) ha
  · exact fun last hlast => missing_of_represents hp h hrun ha hlast
  · have hdone : (afterCalls run).inner.val.initDone = false := by
      rw [h.done, hnone]
      rfl
    have hm : RecvTrackerInner.missing last (afterCalls run).inner.val = .ok (0, 0, false) := by
      rw [RecvTrackerInner.missing, if_pos (by simp [hdone])]
    rw [RecvTracker.missing, enter_of_ok hp (by rw [hm]; rfl)]
  · rintro heach pre seq post rfl
    have hpre : ∀ c ∈ pre, c.value < 2 ^ 64 - 64 := fun c hc =>
      hrun c (List.mem_append_left _ hc)
    have hseq : seq < 2 ^ 64 - 64 :=
      hrun (.record seq) (List.mem_append_right _ List.mem_cons_self)
    obtain ⟨hp', h', hkeep'⟩ := represents_afterCalls hpre
    obtain ⟨⟨v, i⟩, hr⟩ := h'.record_isOk hpre hseq
    refine ⟨v, by rw [RecvTracker.record, enter_of_ok hp' hr], ?_⟩
    have hanchor : firstAnchor (pre ++ .record seq :: post) =
        firstAnchor (pre ++ [.record seq]) := by
      rw [firstAnchor, firstAnchor, List.findSome?_append, List.findSome?_append]
      rfl
    rw [hanchor]
    exact h'.verdict_iff (hkeep' (Run.each_append.mp heach).1) (hseq.trans (by omega)) hr

/-- The samples 2 and 3 of a writer whose history starts at 1: the watermark is at 1, the least
number not recorded. -/
theorem represents_calls_reordered :
    IsLeast {s | 1 ≤ s ∧ TrackerCall.record s ∉
        [.missing 3, .initExpected 1, .record 2, .record 3]}
      (afterCalls [.missing 3, .initExpected 1, .record 2, .record 3]).inner.val.expected := by
  have hrun : ∀ c ∈ [TrackerCall.missing 3, .initExpected 1, .record 2, .record 3],
      c.value < 2 ^ 64 - 64 := by decide
  have hreach : Run.Each call WithinReach new
      [.missing 3, .initExpected 1, .record 2, .record 3] := by
    simp only [Run.Each, WithinReach]
    decide
  exact ((represents_calls _ hrun).2.1 1 rfl).2.2.2.1 hreach

end RecvTracker

end RustDds
