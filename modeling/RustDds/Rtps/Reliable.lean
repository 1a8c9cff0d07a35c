import RustDds.Lib.Bitmap
import RustDds.Lib.Panic
import Mathlib.Data.Finset.Card
import Mathlib.Logic.Function.Basic

/-!
# Reliable bookkeeping

`SendHistory` is a writer's ring of its last 256 messages.  `RecvTracker` is what a reader
keeps for one remote writer: the lowest sequence number it has not received, and the set of
those received ahead of it.

Sequence numbers are 64-bit.  Their additions are the ones the code writes, with overflow
checks: `record` and `missing` return in `Except Panic`, and the tracker's mutex is poisoned
when one of them panics.  The message counters wrap.

A proof about a tracker uses `record_spec`, which says what a `record` does, `missing_spec`,
which says what `missing` reports, and the representation invariant `WF` they keep.  When the
two return is the matter of `record_isOk_iff` and `missing_isOk_iff`.
-/

namespace RustDds

/-- Samples retained per reliable writer. -/
def maxHistoryDepth : ℕ := 256

/-- How far ahead of the watermark a sequence number is remembered. -/
def maxReorderAhead : ℕ := 8192

/-! ## SendHistory -/

/-- A ring of the last `maxHistoryDepth` messages of a writer, and its HEARTBEAT counter.
Slot `i` of the ring is `msg i` under the sequence number `sn i`.  No critical section of the
history can panic, so its mutex is left out. -/
structure SendHistory where
  msg : ℕ → Option Bytes
  sn : ℕ → ℕ
  highest : ℕ
  lowest : ℕ
  any : Bool
  hbCount : Int32

namespace SendHistory

/-- An empty history. -/
def new : SendHistory where
  msg := fun _ => none
  sn := fun _ => 0
  highest := 0
  lowest := 0
  any := false
  hbCount := 0

/-- Save a message, evicting what occupied its slot. -/
def store (h : SendHistory) (seq : ℕ) (m : Bytes) : SendHistory :=
  let depth := maxHistoryDepth
  let i := seq % depth
  let lowest := if h.any then h.lowest else seq
  let highest := if h.any then h.highest else seq
  let highest := if seq > highest then seq else highest
  let lowest := if highest ≥ depth ∧ highest - depth + 1 > lowest then highest - depth + 1
    else lowest
  { h with
    msg := Function.update h.msg i (some m)
    sn := Function.update h.sn i seq
    highest, lowest, any := true }

/-- The message stored for `seq`, if it is retained. -/
def get (h : SendHistory) (seq : ℕ) : Option Bytes :=
  if !h.any ∨ seq < h.lowest ∨ seq > h.highest then none
  else
    let i := seq % maxHistoryDepth
    if h.sn i ≠ seq then none else h.msg i

/-- The lowest and highest retained sequence numbers. -/
def firstLast (h : SendHistory) : Option (ℕ × ℕ) :=
  if h.any then some (h.lowest, h.highest) else none

/-- A fresh HEARTBEAT count. -/
def nextHbCount (h : SendHistory) : Int32 × SendHistory :=
  (h.hbCount + 1, { h with hbCount := h.hbCount + 1 })

/-- Store messages under consecutive sequence numbers from `first` on. -/
def storeFrom (h : SendHistory) (first : ℕ) : List Bytes → SendHistory
  | [] => h
  | m :: ms => (h.store first m).storeFrom (first + 1) ms

/-- The history holds the last `maxHistoryDepth` of the messages `m first, …, m last`. -/
structure Holds (first last : ℕ) (m : ℕ → Bytes) (h : SendHistory) : Prop where
  any_eq : h.any = true
  highest_eq : h.highest = last
  lowest_eq : h.lowest = max first (last + 1 - maxHistoryDepth)
  slot : ∀ s, h.lowest ≤ s → s ≤ last →
    h.sn (s % maxHistoryDepth) = s ∧ h.msg (s % maxHistoryDepth) = some (m s)

variable {h : SendHistory} {first last : ℕ} {m : ℕ → Bytes}

/-- The first message stored. -/
lemma holds_store_new (first : ℕ) (m : ℕ → Bytes) :
    Holds first first m (new.store first (m first)) := by
  have hlow : (new.store first (m first)).lowest = first := by
    simp only [SendHistory.store, new, maxHistoryDepth, Bool.false_eq_true, if_false]
    split_ifs <;> omega
  refine ⟨rfl, by simp [SendHistory.store, new], ?_, fun s h₁ h₂ => ?_⟩
  · rw [hlow, maxHistoryDepth]
    omega
  · obtain rfl : s = first := by omega
    simp only [SendHistory.store, Function.update_self, and_self]

/-- The step of the window law: the next message joins the window, the oldest may leave it. -/
lemma Holds.store (hh : Holds first last m h) (hle : first ≤ last) :
    Holds first (last + 1) m (h.store (last + 1) (m (last + 1))) := by
  have hhigh : (h.store (last + 1) (m (last + 1))).highest = last + 1 := by
    simp only [SendHistory.store, hh.any_eq, hh.highest_eq, if_true]
    split_ifs <;> omega
  have hlow : (h.store (last + 1) (m (last + 1))).lowest =
      max first (last + 1 + 1 - maxHistoryDepth) := by
    have hdepth : maxHistoryDepth = 256 := rfl
    simp only [SendHistory.store, hh.any_eq, hh.highest_eq, hh.lowest_eq, if_true]
    split_ifs <;> omega
  refine ⟨rfl, hhigh, hlow, fun s h₁ h₂ => ?_⟩
  rcases Nat.eq_or_lt_of_le h₂ with rfl | hlt
  · simp only [SendHistory.store, Function.update_self, and_self]
  -- an older number of the window lives in another slot
  have hlow' := hh.lowest_eq
  rw [hlow] at h₁
  simp only [maxHistoryDepth] at h₁ hlow'
  have hslot : s % maxHistoryDepth ≠ (last + 1) % maxHistoryDepth := by
    rw [maxHistoryDepth]
    omega
  simp only [SendHistory.store, Function.update_of_ne hslot]
  exact hh.slot s (by omega) (by omega)

/-- **The window law**: after messages under the numbers `first, …, first + n` in order, the
history holds the last of them. -/
lemma holds_storeFrom {first n : ℕ} {m : ℕ → Bytes} :
    Holds first (first + n) m
      (new.storeFrom first ((List.range' first (n + 1)).map m)) := by
  -- one message more is one store more, at the end
  have hsnoc : ∀ (h : SendHistory) (f : ℕ) (ms : List Bytes) (x : Bytes),
      h.storeFrom f (ms ++ [x]) = (h.storeFrom f ms).store (f + ms.length) x := by
    intro h f ms x
    induction ms generalizing h f with
    | nil => rfl
    | cons y ys ih =>
      rw [List.cons_append, storeFrom, ih, storeFrom, List.length_cons]
      congr 1
      omega
  induction n with
  | zero => exact holds_store_new first m
  | succ n ih =>
    rw [List.range'_concat, List.map_append, List.map_singleton, hsnoc, List.length_map,
      List.length_range']
    simp only [Nat.one_mul]
    exact ih.store (Nat.le_add_right first n)

lemma Holds.firstLast_eq (hh : Holds first last m h) :
    h.firstLast = some (max first (last + 1 - maxHistoryDepth), last) := by
  rw [firstLast, if_pos hh.any_eq, hh.lowest_eq, hh.highest_eq]

/-- A retained number is answered with its own message. -/
lemma Holds.get_eq (hh : Holds first last m h) {s : ℕ} (h₁ : h.lowest ≤ s) (h₂ : s ≤ last) :
    h.get s = some (m s) := by
  obtain ⟨hsn, hmsg⟩ := hh.slot s h₁ h₂
  have hhigh := hh.highest_eq
  rw [get, if_neg (by rw [hh.any_eq]; simp; omega)]
  dsimp only
  rw [if_neg (by simpa using hsn), hmsg]

/-- Any other number is not answered. -/
lemma Holds.get_eq_none (hh : Holds first last m h) {s : ℕ} (hs : s < h.lowest ∨ last < s) :
    h.get s = none := by
  have hhigh := hh.highest_eq
  rw [get, if_pos (by omega)]

/-- **The history is a sliding window.**  After a list of messages is stored under the numbers
from `first` on, the history names the last `maxHistoryDepth` of these numbers, answers each of
them with its own message, and answers no other number, whatever slot it falls on. -/
theorem storeFrom_window (first : ℕ) (m : Bytes) (ms : List Bytes) :
    let h := new.storeFrom first (m :: ms)
    let last := first + ms.length
    let lowest := max first (last + 1 - maxHistoryDepth)
    h.firstLast = some (lowest, last) ∧
      ∀ s, h.get s = if lowest ≤ s ∧ s ≤ last then (m :: ms)[s - first]? else none := by
  -- the message of a number, as a function that is total
  let message : ℕ → Bytes := fun s => ((m :: ms)[s - first]?).getD []
  have hmessages : (List.range' first (ms.length + 1)).map message = m :: ms := by
    apply List.ext_getElem
    · rw [List.length_map, List.length_range', List.length_cons]
    · intro i h₁ h₂
      simp only [List.getElem_map, List.getElem_range', Nat.one_mul, message]
      rw [Nat.add_sub_cancel_left, List.getElem?_eq_getElem h₂, Option.getD_some]
  have hh : Holds first (first + ms.length) message (new.storeFrom first (m :: ms)) := by
    rw [← hmessages]
    exact holds_storeFrom
  refine ⟨hh.firstLast_eq, fun s => ?_⟩
  rw [← hh.lowest_eq]
  split_ifs with hs
  · have hlow := hh.lowest_eq
    have hlt : s - first < (m :: ms).length := by
      rw [List.length_cons]
      omega
    rw [hh.get_eq hs.1 hs.2, List.getElem?_eq_getElem hlt]
    simp only [message]
    rw [List.getElem?_eq_getElem hlt, Option.getD_some]
  · exact hh.get_eq_none (by omega)

end SendHistory

/-! ## RecvTracker -/

/-- The state behind a tracker's mutex. -/
structure RecvTrackerInner where
  /-- The lowest sequence number not yet received. -/
  expected : ℕ
  /-- Sequence numbers received ahead of it. -/
  ahead : Finset ℕ
  initDone : Bool
  deriving DecidableEq

namespace RecvTrackerInner

/-- No writer contact yet. -/
def new : RecvTrackerInner := ⟨0, ∅, false⟩

/-- Set the watermark on first contact. -/
def initExpected (t : RecvTrackerInner) (firstSn : ℕ) : RecvTrackerInner :=
  if t.initDone then t else { t with expected := firstSn, initDone := true }

/-- The loop of `record`, which advances the watermark over received successors, within `fuel`
turns. -/
def advance : ℕ → RecvTrackerInner → Except Panic RecvTrackerInner
  | 0, t => .ok t
  | fuel + 1, t =>
    if t.expected ∈ t.ahead then do
      let expected ← checkedAdd 64 t.expected 1
      advance fuel { t with ahead := t.ahead.erase t.expected, expected }
    else .ok t

/-- Mark `seq` as received.  The verdict is `false` for a number received before. -/
def record (seq : ℕ) (t : RecvTrackerInner) : Except Panic (Bool × RecvTrackerInner) :=
  let t := t.initExpected seq
  if seq < t.expected then .ok (false, t)
  else if seq = t.expected then do
    let expected ← checkedAdd 64 t.expected 1
    let t ← advance t.ahead.card { t with expected }
    return (true, t)
  else if seq ∈ t.ahead then .ok (false, t)
  else if seq - t.expected ≤ maxReorderAhead then
    .ok (true, { t with ahead := insert seq t.ahead })
  else .ok (true, t)

/-- One turn of the loop of `missing`: `sn` is marked if it is missing. -/
def missingTurn (ahead : Finset ℕ) (base sn : ℕ) (bitmap : UInt32) (need : Bool) :
    Except Panic (UInt32 × Bool) :=
  if sn ∈ ahead then .ok (bitmap, need)
  else (Bitmap.checkedSet bitmap (sn - base)).map fun bitmap => (bitmap, true)

/-- The loop of `missing`, from `sn` to `last`, within `fuel` turns: the bitmap, and whether
anything is missing. -/
def missingLoop (ahead : Finset ℕ) (base last : ℕ) :
    ℕ → ℕ → UInt32 → Bool → Except Panic (UInt32 × Bool)
  | 0, _, bitmap, need => .ok (bitmap, need)
  | fuel + 1, sn, bitmap, need =>
    if sn ≤ last then do
      let (bitmap, need) ← missingTurn ahead base sn bitmap need
      let next ← checkedAdd 64 sn 1
      missingLoop ahead base last fuel next bitmap need
    else .ok (bitmap, need)

/-- The base, the bitmap and the need of an ACKNACK to a writer whose history ends at
`lastSn`. -/
def missing (lastSn : ℕ) (t : RecvTrackerInner) : Except Panic (ℕ × UInt32 × Bool) :=
  if !t.initDone then .ok (0, 0, false)
  else
    let base := t.expected
    if lastSn < base then .ok (base, 0, false)
    else do
      let limit ← checkedAdd 64 base 31
      let last := if lastSn > limit then limit else lastSn
      let (bitmap, need) ← missingLoop t.ahead base last 33 base 0 false
      return (base, bitmap, need)

/-! ### What a tracker represents

A tracker stands for a set of received numbers: all below the watermark, and those ahead. -/

/-- The tracker has `s` down as received. -/
def Has (t : RecvTrackerInner) (s : ℕ) : Prop := s < t.expected ∨ s ∈ t.ahead

/-- The representation invariant: the watermark is not received, what is ahead lies above it,
all in 64 bits, and before first contact there is nothing. -/
structure WF (t : RecvTrackerInner) : Prop where
  expected_lt : t.expected < 2 ^ 64
  ahead_gt : ∀ s ∈ t.ahead, t.expected < s
  ahead_lt : ∀ s ∈ t.ahead, s < 2 ^ 64
  blank : t.initDone = false → t.ahead = ∅

variable {t t' : RecvTrackerInner}

lemma wf_new : WF new := ⟨by decide, by simp [new], by simp [new], fun _ => rfl⟩

/-- The watermark is the least number not received. -/
lemma WF.not_has_expected (h : t.WF) : ¬ t.Has t.expected := by
  rintro (hlt | hmem)
  · exact lt_irrefl _ hlt
  · exact lt_irrefl _ (h.ahead_gt _ hmem)

lemma WF.le_expected_of_forall_has (h : t.WF) {n : ℕ} (hn : ∀ s < n, t.Has s) :
    n ≤ t.expected :=
  not_lt.mp fun hlt => h.not_has_expected (hn _ hlt)

lemma WF.initExpected (h : t.WF) {s : ℕ} (hs : s < 2 ^ 64) : (t.initExpected s).WF := by
  unfold RecvTrackerInner.initExpected
  split
  · exact h
  · rename_i hdone
    have hempty := h.blank (by simpa using hdone)
    exact ⟨hs, by simp [hempty], by simp [hempty], fun hd => by simp at hd⟩

@[simp] lemma initDone_initExpected (t : RecvTrackerInner) (s : ℕ) :
    (t.initExpected s).initDone = true := by
  unfold RecvTrackerInner.initExpected
  split
  · assumption
  · rfl

lemma initExpected_of_done (h : t.initDone = true) (s : ℕ) : t.initExpected s = t := by
  rw [RecvTrackerInner.initExpected, if_pos h]

/-- The advancing loop removes the run of received numbers at the watermark, and only it. -/
lemma advance_spec {fuel : ℕ} (hlt64 : t.expected < 2 ^ 64) (hge : ∀ s ∈ t.ahead, t.expected ≤ s)
    (hfuel : t.ahead.card ≤ fuel) (h : advance fuel t = .ok t') :
    t'.initDone = t.initDone ∧ t'.expected < 2 ^ 64 ∧ t.expected ≤ t'.expected ∧
      t'.expected ∉ t.ahead ∧ (∀ s, s ∈ t'.ahead ↔ s ∈ t.ahead ∧ t'.expected < s) ∧
      ∀ s, t.expected ≤ s → s < t'.expected → s ∈ t.ahead := by
  induction fuel generalizing t with
  | zero =>
    have hempty : t.ahead = ∅ := Finset.card_eq_zero.mp (Nat.le_zero.mp hfuel)
    cases h
    exact ⟨rfl, hlt64, le_rfl, by simp [hempty], by simp [hempty],
      fun s h₁ h₂ => absurd h₁ (not_le.mpr h₂)⟩
  | succ fuel ih =>
    rw [advance] at h
    split at h
    · rename_i hmem
      obtain ⟨e, hadd, h⟩ := Except.bind_eq_ok.mp h
      obtain ⟨he, rfl⟩ := checkedAdd_eq_ok.mp hadd
      have hge' : ∀ s ∈ t.ahead.erase t.expected, t.expected + 1 ≤ s := by
        intro s hs
        obtain ⟨hne, hs⟩ := Finset.mem_erase.mp hs
        exact lt_of_le_of_ne (hge s hs) (Ne.symm hne)
      obtain ⟨hdone, hlt, hle, hnot, hahead, hrun⟩ := ih he hge'
        (by rw [Finset.card_erase_of_mem hmem]; omega) h
      dsimp only at hdone hle hnot hahead hrun
      refine ⟨hdone, hlt, by omega, fun hs => hnot (Finset.mem_erase.mpr ⟨by omega, hs⟩),
        fun s => ?_, fun s h₁ h₂ => ?_⟩
      · rw [hahead, Finset.mem_erase]
        constructor
        · exact fun ⟨⟨_, hs⟩, hlt⟩ => ⟨hs, hlt⟩
        · exact fun ⟨hs, hlt⟩ => ⟨⟨by omega, hs⟩, hlt⟩
      · rcases Nat.eq_or_lt_of_le h₁ with rfl | hlt
        · exact hmem
        · exact Finset.mem_of_mem_erase (hrun s hlt h₂)
    · rename_i hmem
      cases h
      refine ⟨rfl, hlt64, le_rfl, hmem, fun s => ⟨fun hs => ⟨hs, ?_⟩, fun hs => hs.1⟩,
        fun s h₁ h₂ => absurd h₁ (not_le.mpr h₂)⟩
      exact lt_of_le_of_ne (hge s hs) fun he => hmem (he ▸ hs)

/-- The loop returns as long as some number from the watermark on is not received. -/
lemma advance_isOk_iff {fuel : ℕ} (hlt64 : t.expected < 2 ^ 64) (hfuel : t.ahead.card ≤ fuel) :
    (∃ t', advance fuel t = .ok t') ↔ ∃ s, t.expected ≤ s ∧ s < 2 ^ 64 ∧ s ∉ t.ahead := by
  induction fuel generalizing t with
  | zero =>
    have hempty : t.ahead = ∅ := Finset.card_eq_zero.mp (Nat.le_zero.mp hfuel)
    exact iff_of_true ⟨t, rfl⟩ ⟨t.expected, le_rfl, hlt64, by simp [hempty]⟩
  | succ fuel ih =>
    rw [advance]
    split
    · rename_i hmem
      rcases Nat.lt_or_ge (t.expected + 1) (2 ^ 64) with hadd | hadd
      · rw [checkedAdd_of_lt hadd, Except.ok_bind,
          ih hadd (by rw [Finset.card_erase_of_mem hmem]; omega)]
        constructor
        · rintro ⟨s, hle, hs, hnot⟩
          exact ⟨s, Nat.le_of_succ_le hle, hs,
            fun h => hnot (Finset.mem_erase.mpr ⟨Nat.ne_of_gt hle, h⟩)⟩
        · rintro ⟨s, hle, hs, hnot⟩
          have hne : t.expected ≠ s := fun he => hnot (he ▸ hmem)
          exact ⟨s, lt_of_le_of_ne hle hne, hs, fun h => hnot (Finset.mem_of_mem_erase h)⟩
      · rw [checkedAdd_of_le hadd, Except.error_bind]
        refine iff_of_false (by rintro ⟨_, h⟩; cases h) ?_
        rintro ⟨s, hle, hs, hnot⟩
        obtain rfl : s = t.expected := by omega
        exact hnot hmem
    · rename_i hmem
      exact iff_of_true ⟨t, rfl⟩ ⟨t.expected, le_rfl, hlt64, hmem⟩

/-- A `record` at the watermark of `u` receives it and the run behind it. -/
lemma record_at_expected {u : RecvTrackerInner} (hu : u.WF) (hdone : u.initDone = true)
    (hlt : u.expected + 1 < 2 ^ 64)
    (h : advance u.ahead.card { u with expected := u.expected + 1 } = .ok t') :
    t'.WF ∧ t'.initDone = true ∧ u.expected < t'.expected ∧
      ∀ s, t'.Has s ↔ u.Has s ∨ s = u.expected := by
  obtain ⟨hd, hlt64, hle, hnot, hahead, hrun⟩ :=
    advance_spec (t := { u with expected := u.expected + 1 }) hlt hu.ahead_gt le_rfl h
  dsimp only at hd hle hnot hahead hrun
  refine ⟨⟨hlt64, fun s hs => ((hahead s).mp hs).2,
    fun s hs => hu.ahead_lt s ((hahead s).mp hs).1,
    fun hf => by rw [hd, hdone] at hf; cases hf⟩, hd.trans hdone, hle, fun s => ?_⟩
  simp only [Has, hahead]
  constructor
  · rintro (hs | ⟨hs, -⟩)
    · rcases lt_trichotomy s u.expected with hlt' | heq | hgt
      · exact .inl (.inl hlt')
      · exact .inr heq
      · exact .inl (.inr (hrun s hgt hs))
    · exact .inl (.inr hs)
  · rintro ((hs | hs) | rfl)
    · exact .inl (by omega)
    · rcases Nat.lt_or_ge s t'.expected with hlt' | hge
      · exact .inl hlt'
      · rcases Nat.eq_or_lt_of_le hge with heq | hgt
        · exact absurd (heq ▸ hs) hnot
        · exact .inr ⟨hs, hgt⟩
    · exact .inl hle

/-- A `record` at a number not received above the watermark of `u` sets it down. -/
lemma record_ahead {u : RecvTrackerInner} (hu : u.WF) (hdone : u.initDone = true) {seq : ℕ}
    (hseq : seq < 2 ^ 64) (hgt : u.expected < seq) :
    WF { u with ahead := insert seq u.ahead } ∧
      ∀ s, Has { u with ahead := insert seq u.ahead } s ↔ u.Has s ∨ s = seq := by
  refine ⟨⟨hu.expected_lt, fun s hs => ?_, fun s hs => ?_, fun hf => ?_⟩, fun s => ?_⟩
  · rcases Finset.mem_insert.mp hs with rfl | hs
    · exact hgt
    · exact hu.ahead_gt s hs
  · rcases Finset.mem_insert.mp hs with rfl | hs
    · exact hseq
    · exact hu.ahead_lt s hs
  · rw [show u.initDone = false from hf] at hdone
    cases hdone
  · simp only [Has, Finset.mem_insert]
    tauto

/-- What `record` does: after anchoring a tracker on first contact, it receives `seq`, unless
that is too far ahead, and its verdict is whether it was new. -/
lemma record_spec (h : t.WF) {seq : ℕ} (hseq : seq < 2 ^ 64) {v : Bool}
    (hr : record seq t = .ok (v, t')) :
    t'.WF ∧ t'.initDone = true ∧ (t.initExpected seq).expected ≤ t'.expected ∧
      (v = true ↔ ¬ (t.initExpected seq).Has seq) ∧
      ∀ s, t'.Has s ↔ (t.initExpected seq).Has s ∨
        (s = seq ∧ seq ≤ (t.initExpected seq).expected + maxReorderAhead) := by
  have hu := h.initExpected hseq
  have hdone := initDone_initExpected t seq
  unfold record at hr
  generalize t.initExpected seq = u at hr hu hdone ⊢
  dsimp only at hr
  split at hr
  · rename_i hlt
    cases hr
    refine ⟨hu, hdone, le_rfl, by simp [Has, hlt], fun s => ⟨.inl, ?_⟩⟩
    rintro (hs | ⟨rfl, -⟩)
    · exact hs
    · exact .inl hlt
  rename_i hnlt
  split at hr
  · rename_i heq
    obtain ⟨e, hadd, hr⟩ := Except.bind_eq_ok.mp hr
    obtain ⟨he, rfl⟩ := checkedAdd_eq_ok.mp hadd
    obtain ⟨t₁, hadv, hr⟩ := Except.bind_eq_ok.mp hr
    cases hr
    obtain ⟨hwf, hd, hlt, hhas⟩ := record_at_expected hu hdone he hadv
    subst heq
    refine ⟨hwf, hd, hlt.le, by simp [hu.not_has_expected], fun s => ?_⟩
    rw [hhas]
    simp
  rename_i hne
  split at hr
  · rename_i hmem
    cases hr
    refine ⟨hu, hdone, le_rfl, by simp [Has, hmem], fun s => ⟨.inl, ?_⟩⟩
    rintro (hs | ⟨rfl, -⟩)
    · exact hs
    · exact .inr hmem
  rename_i hmem
  have hnew : ¬ u.Has seq := by rintro (hs | hs) <;> contradiction
  split at hr
  · rename_i hnear
    cases hr
    obtain ⟨hwf, hhas⟩ := record_ahead hu hdone hseq (by omega)
    refine ⟨hwf, hdone, le_rfl, by simp [hnew], fun s => ?_⟩
    rw [hhas]
    have : seq ≤ u.expected + maxReorderAhead := by omega
    simp [this]
  · rename_i hfar
    cases hr
    refine ⟨hu, hdone, le_rfl, by simp [hnew], fun s => ⟨.inl, ?_⟩⟩
    rintro (hs | ⟨-, hs⟩)
    · exact hs
    · omega

/-- When `record` returns: not when it completes the last run of the number space. -/
lemma record_isOk_iff {seq : ℕ} :
    (∃ r, record seq t = .ok r) ↔
      (seq = (t.initExpected seq).expected →
        ∃ s, seq < s ∧ s < 2 ^ 64 ∧ s ∉ (t.initExpected seq).ahead) := by
  unfold record
  generalize t.initExpected seq = u
  dsimp only
  split
  · exact iff_of_true ⟨_, rfl⟩ (fun he => by omega)
  split
  · rename_i heq
    subst heq
    simp only [forall_const]
    rcases Nat.lt_or_ge (u.expected + 1) (2 ^ 64) with hadd | hadd
    · rw [checkedAdd_of_lt hadd, Except.ok_bind]
      have hiff := advance_isOk_iff (t := { u with expected := u.expected + 1 }) hadd le_rfl
      dsimp only at hiff
      rw [← Nat.succ_eq_add_one] at hiff
      simp only [Nat.succ_le_iff] at hiff
      rw [← hiff]
      constructor
      · rintro ⟨r, hr⟩
        obtain ⟨t₁, hadv, -⟩ := Except.bind_eq_ok.mp hr
        exact ⟨t₁, hadv⟩
      · rintro ⟨t₁, hadv⟩
        exact ⟨(true, t₁), Except.bind_eq_ok.mpr ⟨t₁, hadv, rfl⟩⟩
    · rw [checkedAdd_of_le hadd, Except.error_bind]
      refine iff_of_false (by rintro ⟨_, h⟩; cases h) ?_
      rintro ⟨s, hlt, hs, -⟩
      omega
  rename_i hne
  split
  · exact iff_of_true ⟨_, rfl⟩ (fun he => absurd he hne)
  split <;> exact iff_of_true ⟨_, rfl⟩ (fun he => absurd he hne)

/-- Beyond the last number, nothing is missing. -/
lemma missing_of_lt {ahead : Finset ℕ} {base last sn : ℕ} (hlt : last < sn) (b : UInt32)
    (need : Bool) :
    (need = true ↔ need = true ∨ ∃ s, sn ≤ s ∧ s ≤ last ∧ s ∉ ahead) ∧
      ∀ n < 32, Bitmap.test b n = true ↔
        Bitmap.test b n = true ∨ (sn ≤ base + n ∧ base + n ≤ last ∧ base + n ∉ ahead) := by
  refine ⟨⟨.inl, ?_⟩, fun n _ => ⟨.inl, ?_⟩⟩
  · rintro (hn | ⟨s, hge, hle, -⟩)
    · exact hn
    · omega
  · rintro (hb | ⟨hge, hle, -⟩)
    · exact hb
    · omega

/-- The bitmap loop marks what is not received between `sn` and `last`. -/
lemma missingLoop_spec {ahead : Finset ℕ} {base last fuel sn : ℕ} {b b' : UInt32}
    {need need' : Bool} (hsn : base ≤ sn) (hlast : last ≤ base + 31)
    (hfuel : last + 1 ≤ sn + fuel)
    (h : missingLoop ahead base last fuel sn b need = .ok (b', need')) :
    (need' = true ↔ need = true ∨ ∃ s, sn ≤ s ∧ s ≤ last ∧ s ∉ ahead) ∧
      ∀ n < 32, Bitmap.test b' n = true ↔
        Bitmap.test b n = true ∨ (sn ≤ base + n ∧ base + n ≤ last ∧ base + n ∉ ahead) := by
  induction fuel generalizing sn b need with
  | zero =>
    cases h
    exact missing_of_lt (by omega) _ _
  | succ fuel ih =>
    rw [missingLoop] at h
    split at h
    · rename_i hle
      -- one turn settles `sn`; the rest settles what is above it
      have hsplit : ∀ s, sn ≤ s ↔ s = sn ∨ sn + 1 ≤ s := fun s => by omega
      by_cases hmem : sn ∈ ahead
      · rw [missingTurn, if_pos hmem, Except.ok_bind] at h
        obtain ⟨next, hadd, h⟩ := Except.bind_eq_ok.mp h
        obtain ⟨-, rfl⟩ := checkedAdd_eq_ok.mp hadd
        obtain ⟨hneed, hbit⟩ := ih (by omega) (by omega) h
        refine ⟨hneed.trans (or_congr_right (exists_congr fun s => ?_)), fun n hn =>
          (hbit n hn).trans (or_congr_right ?_)⟩
        · rw [hsplit s]
          constructor
          · tauto
          · rintro ⟨rfl | hs, hl, hnot⟩
            · exact absurd hmem hnot
            · exact ⟨hs, hl, hnot⟩
        · rw [hsplit]
          constructor
          · tauto
          · rintro ⟨he | hs, hl, hnot⟩
            · exact absurd (he ▸ hmem) hnot
            · exact ⟨hs, hl, hnot⟩
      · rw [missingTurn, if_neg hmem, Bitmap.checkedSet_of_lt (by omega), Except.map,
          Except.ok_bind] at h
        obtain ⟨next, hadd, h⟩ := Except.bind_eq_ok.mp h
        obtain ⟨-, rfl⟩ := checkedAdd_eq_ok.mp hadd
        obtain ⟨hneed, hbit⟩ := ih (by omega) (by omega) h
        refine ⟨iff_of_true (hneed.mpr (.inl rfl)) (.inr ⟨sn, le_rfl, hle, hmem⟩), fun n hn => ?_⟩
        rw [hbit n hn, Bitmap.test_set (by omega) hn, Bool.or_eq_true, decide_eq_true_eq, or_assoc]
        refine or_congr_right ?_
        rw [hsplit]
        constructor
        · rintro (he | ⟨hs, hl, hnot⟩)
          · obtain rfl : sn = base + n := by omega
            exact ⟨.inl rfl, hle, hmem⟩
          · exact ⟨.inr hs, hl, hnot⟩
        · rintro ⟨he | hs, hl, hnot⟩
          · exact .inl (by omega)
          · exact .inr ⟨hs, hl, hnot⟩
    · rename_i hgt
      cases h
      exact missing_of_lt (not_le.mp hgt) _ _

/-- A turn within the window shifts by less than 32. -/
lemma missingTurn_isOk {ahead : Finset ℕ} {base sn : ℕ} (hwindow : sn ≤ base + 31) (b : UInt32)
    (need : Bool) : ∃ b' need', missingTurn ahead base sn b need = .ok (b', need') := by
  rw [missingTurn]
  by_cases hmem : sn ∈ ahead
  · rw [if_pos hmem]
    exact ⟨b, need, rfl⟩
  · rw [if_neg hmem, Bitmap.checkedSet_of_lt (by omega)]
    exact ⟨Bitmap.set b (sn - base), true, rfl⟩

/-- The bitmap loop returns where it does not step past the last number of the type. -/
lemma missingLoop_isOk_iff {ahead : Finset ℕ} {base last fuel sn : ℕ} {b : UInt32} {need : Bool}
    (hfuel : last + 1 ≤ sn + fuel) (hlast : last < 2 ^ 64) (hwindow : last ≤ base + 31) :
    (∃ r, missingLoop ahead base last fuel sn b need = .ok r) ↔ last < sn ∨ last + 1 < 2 ^ 64 := by
  induction fuel generalizing sn b need with
  | zero => exact iff_of_true ⟨_, rfl⟩ (.inl (by omega))
  | succ fuel ih =>
    rw [missingLoop]
    split
    · rename_i hle
      obtain ⟨b', need', hturn⟩ := @missingTurn_isOk ahead base sn (hle.trans hwindow) b need
      rw [hturn, Except.ok_bind]
      dsimp only
      rcases Nat.lt_or_ge (sn + 1) (2 ^ 64) with hadd | hadd
      · rw [checkedAdd_of_lt hadd, Except.ok_bind, ih (by omega)]
        omega
      · rw [checkedAdd_of_le hadd, Except.error_bind]
        exact iff_of_false (by rintro ⟨_, h⟩; cases h) (by omega)
    · exact iff_of_true ⟨_, rfl⟩ (.inl (by omega))

/-- What `missing` reports of a tracker in contact: it asks for the numbers up to `lastSn` in
the window of 32 at the watermark that are not received, and asks whenever the watermark has
not passed `lastSn`. -/
lemma missing_spec (h : t.WF) (hdone : t.initDone = true) {lastSn base : ℕ} {bitmap : UInt32}
    {need : Bool} (hm : missing lastSn t = .ok (base, bitmap, need)) :
    base = t.expected ∧ (need = true ↔ t.expected ≤ lastSn) ∧
      ∀ n < 32, Bitmap.test bitmap n = true ↔
        t.expected + n ≤ lastSn ∧ ¬ t.Has (t.expected + n) := by
  unfold missing at hm
  rw [if_neg (by simp [hdone])] at hm
  dsimp only at hm
  split at hm
  · rename_i hlt
    cases hm
    refine ⟨rfl, by simp [hlt], fun n hn => ?_⟩
    rw [Bitmap.test_zero hn]
    simp only [Bool.false_eq_true, false_iff, not_and]
    omega
  rename_i hle
  obtain ⟨limit, hadd, hm⟩ := Except.bind_eq_ok.mp hm
  obtain ⟨-, rfl⟩ := checkedAdd_eq_ok.mp hadd
  obtain ⟨⟨b, n⟩, hloop, hm⟩ := Except.bind_eq_ok.mp hm
  cases hm
  have hend : (if lastSn > t.expected + 31 then t.expected + 31 else lastSn) =
      min lastSn (t.expected + 31) := by
    split_ifs <;> omega
  rw [hend] at hloop
  obtain ⟨hneed, hbit⟩ := missingLoop_spec le_rfl (by omega) (by omega) hloop
  refine ⟨rfl, ?_, fun n hn => ?_⟩
  · rw [hneed]
    refine iff_of_true (.inr ⟨t.expected, le_rfl, by omega, fun hs => ?_⟩) (by omega)
    exact h.not_has_expected (.inr hs)
  · rw [hbit n hn, Bitmap.test_zero hn]
    simp only [Has, Bool.false_eq_true, false_or]
    have h₁ : t.expected + n ≤ min lastSn (t.expected + 31) ↔ t.expected + n ≤ lastSn := by omega
    have h₂ : ¬ t.expected + n < t.expected := by omega
    rw [h₁]
    simp [h₂]

/-- When `missing` returns: not when its window runs over the end of the number space. -/
lemma missing_isOk_iff {lastSn : ℕ} (hlast : lastSn < 2 ^ 64) :
    (∃ r, missing lastSn t = .ok r) ↔
      (t.initDone = true → t.expected ≤ lastSn →
        t.expected + 31 < 2 ^ 64 ∧ min lastSn (t.expected + 31) + 1 < 2 ^ 64) := by
  unfold missing
  by_cases hdone : t.initDone = true
  swap
  · rw [if_pos (by simpa using hdone)]
    exact iff_of_true ⟨_, rfl⟩ fun hd => absurd hd hdone
  rw [if_neg (by simp [hdone])]
  dsimp only
  split
  · rename_i hlt
    exact iff_of_true ⟨_, rfl⟩ fun _ hle => by omega
  rename_i hle
  have hend : (if lastSn > t.expected + 31 then t.expected + 31 else lastSn) =
      min lastSn (t.expected + 31) := by
    split_ifs <;> omega
  simp only [hdone, forall_const, not_lt.mp hle]
  rcases Nat.lt_or_ge (t.expected + 31) (2 ^ 64) with hadd | hadd
  · rw [checkedAdd_of_lt hadd, Except.ok_bind, hend]
    have hloop := @missingLoop_isOk_iff t.ahead t.expected (min lastSn (t.expected + 31)) 33
      t.expected 0 false (by omega) (by omega) (min_le_right _ _)
    constructor
    · rintro ⟨r, hr⟩
      obtain ⟨r', hr', -⟩ := Except.bind_eq_ok.mp hr
      exact ⟨hadd, by have := hloop.mp ⟨r', hr'⟩; omega⟩
    · rintro ⟨-, hlt⟩
      obtain ⟨⟨b, n⟩, hr⟩ := hloop.mpr (.inr hlt)
      exact ⟨(t.expected, b, n), Except.bind_eq_ok.mpr ⟨(b, n), hr, rfl⟩⟩
  · rw [checkedAdd_of_le hadd, Except.error_bind]
    exact iff_of_false (by rintro ⟨_, h⟩; cases h) (by omega)

/-! ### A sample arrives

`record` and then `missing` for the same number, which is what the arrival of a sample does. -/

/-- There is room for `seq`: neither the watermark nor the window at it runs over the end of the
number space. -/
def RoomFor (seq : ℕ) (t : RecvTrackerInner) : Prop :=
  (seq = (t.initExpected seq).expected →
      ∃ s, seq < s ∧ s < 2 ^ 64 ∧ s ∉ (t.initExpected seq).ahead) ∧
    ((t.initExpected seq).expected < seq →
      (t.initExpected seq).expected + 31 < 2 ^ 64 ∧
        min seq ((t.initExpected seq).expected + 31) + 1 < 2 ^ 64)

lemma le_expected_advance {fuel : ℕ} (h : advance fuel t = .ok t') :
    t.expected ≤ t'.expected ∧ t'.initDone = t.initDone := by
  induction fuel generalizing t with
  | zero =>
    cases h
    exact ⟨le_rfl, rfl⟩
  | succ fuel ih =>
    rw [advance] at h
    split at h
    · obtain ⟨e, hadd, h⟩ := Except.bind_eq_ok.mp h
      obtain ⟨-, rfl⟩ := checkedAdd_eq_ok.mp hadd
      obtain ⟨hle, hdone⟩ := ih h
      exact ⟨Nat.le_of_succ_le hle, hdone⟩
    · cases h
      exact ⟨le_rfl, rfl⟩

/-- Where a `record` leaves the watermark, relative to what it was told. -/
lemma expected_of_record {seq : ℕ} {v : Bool} (h : record seq t = .ok (v, t')) :
    t'.initDone = true ∧
      (seq ≤ (t.initExpected seq).expected ∧ seq < t'.expected ∨
        (t.initExpected seq).expected < seq ∧ t'.expected = (t.initExpected seq).expected) := by
  have hdone := initDone_initExpected t seq
  unfold record at h
  generalize t.initExpected seq = u at h hdone ⊢
  dsimp only at h
  split at h
  · rename_i hlt
    cases h
    exact ⟨hdone, .inl ⟨hlt.le, hlt⟩⟩
  split at h
  · rename_i heq
    obtain ⟨e, hadd, h⟩ := Except.bind_eq_ok.mp h
    obtain ⟨-, rfl⟩ := checkedAdd_eq_ok.mp hadd
    obtain ⟨t₁, hadv, h⟩ := Except.bind_eq_ok.mp h
    cases h
    obtain ⟨hle, hd⟩ := le_expected_advance hadv
    dsimp only at hle
    exact ⟨hd.trans hdone, .inl ⟨heq.le, by omega⟩⟩
  split at h
  · cases h
    exact ⟨hdone, .inr ⟨by omega, rfl⟩⟩
  split at h <;> cases h <;> exact ⟨hdone, .inr ⟨by omega, rfl⟩⟩

/-- When the arrival of a sample returns. -/
lemma arrival_isOk_iff {seq : ℕ} (hseq : seq < 2 ^ 64) :
    (∃ v u r, record seq t = .ok (v, u) ∧ missing seq u = .ok r) ↔ t.RoomFor seq := by
  constructor
  · rintro ⟨v, u, r, hrec, hmiss⟩
    refine ⟨record_isOk_iff.mp ⟨_, hrec⟩, fun hlt => ?_⟩
    obtain ⟨hdone, ⟨hle, -⟩ | ⟨-, heq⟩⟩ := expected_of_record hrec
    · omega
    · rw [← heq]
      exact (missing_isOk_iff hseq).mp ⟨r, hmiss⟩ hdone (by omega)
  · rintro ⟨hroom, hwindow⟩
    obtain ⟨⟨v, u⟩, hrec⟩ := record_isOk_iff.mpr hroom
    obtain ⟨hdone, hcase⟩ := expected_of_record hrec
    obtain ⟨r, hmiss⟩ := (missing_isOk_iff (t := u) hseq).mpr fun _ hle => by
      rcases hcase with ⟨-, hlt⟩ | ⟨hlt, heq⟩
      · omega
      · rw [heq]
        exact hwindow hlt
    exact ⟨v, u, r, hrec, hmiss⟩

end RecvTrackerInner

/-- A reader's record of one remote writer: the tracker state behind its mutex, and the
ACKNACK counter. -/
structure RecvTracker where
  inner : Mutex RecvTrackerInner
  ackCount : Int32
  deriving DecidableEq

namespace RecvTracker

/-- A tracker with no writer contact yet. -/
def new : RecvTracker := ⟨Mutex.new RecvTrackerInner.new, 0⟩

/-- Enter the tracker's critical section. -/
def enter {β : Type} (t : RecvTracker)
    (f : RecvTrackerInner → Except Panic (β × RecvTrackerInner)) : Except Panic β × RecvTracker :=
  let (r, inner) := t.inner.lockExpect f
  (r, { t with inner })

/-- Set the cumulative-ACK base on first contact with a writer. -/
def initExpected (t : RecvTracker) (firstSn : ℕ) : Except Panic Unit × RecvTracker :=
  t.enter fun i => .ok ((), i.initExpected firstSn)

/-- Mark `seq` as received. -/
def record (t : RecvTracker) (seq : ℕ) : Except Panic Bool × RecvTracker :=
  t.enter (RecvTrackerInner.record seq)

/-- `record`, by a caller that drops its verdict. -/
def noteReceived (t : RecvTracker) (seq : ℕ) : Except Panic Unit × RecvTracker :=
  ((t.record seq).1.map fun _ => (), (t.record seq).2)

/-- The ACKNACK base and bitmap up to `lastSn`, and whether an ACKNACK is needed. -/
def missing (t : RecvTracker) (lastSn : ℕ) : Except Panic (ℕ × UInt32 × Bool) × RecvTracker :=
  t.enter fun i => (RecvTrackerInner.missing lastSn i).map fun r => (r, i)

/-- The critical sections of a reaction: `op` updates the tracker, and it then reports what is
missing up to `lastSn`. -/
def report (op : RecvTracker → Except Panic Unit × RecvTracker) (lastSn : ℕ) (t : RecvTracker) :
    Except Panic (ℕ × UInt32 × Bool) × RecvTracker :=
  match op t with
  | (.ok (), t) => t.missing lastSn
  | (.error p, t) => (.error p, t)

/-- A fresh ACKNACK count. -/
def nextAckCount (t : RecvTracker) : Int32 × RecvTracker :=
  (t.ackCount + 1, { t with ackCount := t.ackCount + 1 })

/-- What entering the critical section does: it panics, and leaves the tracker poisoned, or the
section returns. -/
lemma enter_cases {β : Type} (t : RecvTracker)
    (f : RecvTrackerInner → Except Panic (β × RecvTrackerInner)) :
    (∃ p t', t.enter f = (.error p, t') ∧ t'.inner.poisoned = true) ∨
      t.inner.poisoned = false ∧ ∃ b i, f t.inner.val = .ok (b, i) ∧
        t.enter f = (.ok b, { t with inner := ⟨i, false⟩ }) := by
  unfold enter
  cases hp : t.inner.poisoned
  · cases hf : f t.inner.val with
    | ok r =>
      obtain ⟨b, i⟩ := r
      exact .inr ⟨rfl, b, i, rfl, by rw [Mutex.lockExpect_of_ok hp hf]⟩
    | error p =>
      exact .inl ⟨p, _, by rw [Mutex.lockExpect_of_error hp hf], rfl⟩
  · exact .inl ⟨.poisoned, _, by rw [Mutex.lockExpect_of_poisoned hp], hp⟩

lemma enter_of_ok {β : Type} {t : RecvTracker}
    {f : RecvTrackerInner → Except Panic (β × RecvTrackerInner)} {b : β} {i : RecvTrackerInner}
    (hp : t.inner.poisoned = false) (h : f t.inner.val = .ok (b, i)) :
    t.enter f = (.ok b, { t with inner := ⟨i, false⟩ }) := by
  rw [enter, Mutex.lockExpect_of_ok hp h]

lemma missing_cases (t : RecvTracker) (lastSn : ℕ) :
    (∃ p t', t.missing lastSn = (.error p, t') ∧ t'.inner.poisoned = true) ∨
      t.inner.poisoned = false ∧ ∃ r, RecvTrackerInner.missing lastSn t.inner.val = .ok r ∧
        t.missing lastSn = (.ok r, { t with inner := ⟨t.inner.val, false⟩ }) := by
  unfold missing
  rcases t.enter_cases fun i => (RecvTrackerInner.missing lastSn i).map fun r => (r, i) with
    hpanic | ⟨hp, r, i, hm, heq⟩
  · exact .inl hpanic
  · obtain ⟨r', hr', heq'⟩ := Except.map_eq_ok.mp hm
    cases heq'
    exact .inr ⟨hp, r, hr', heq⟩

/-- What a reaction does: it panics, and leaves the tracker poisoned, or its update and its
report both return. -/
lemma report_cases (f : RecvTrackerInner → Except Panic (Unit × RecvTrackerInner))
    (lastSn : ℕ) (t : RecvTracker) :
    (∃ p t', report (fun t => t.enter f) lastSn t = (.error p, t') ∧ t'.inner.poisoned = true) ∨
      t.inner.poisoned = false ∧ ∃ i r, f t.inner.val = .ok ((), i) ∧
        RecvTrackerInner.missing lastSn i = .ok r ∧
          report (fun t => t.enter f) lastSn t = (.ok r, { t with inner := ⟨i, false⟩ }) := by
  unfold report
  dsimp only
  rcases t.enter_cases f with ⟨p, t', heq, hp'⟩ | ⟨hp, u, i, hf, heq⟩
  · rw [heq]
    exact .inl ⟨p, t', rfl, hp'⟩
  · rw [heq]
    rcases missing_cases { t with inner := ⟨i, false⟩ } lastSn with hpanic | ⟨-, r, hm, heq'⟩
    · exact .inl hpanic
    · exact .inr ⟨hp, i, r, hf, hm, heq'⟩

lemma noteReceived_eq (t : RecvTracker) (seq : ℕ) :
    t.noteReceived seq =
      t.enter fun i => (RecvTrackerInner.record seq i).map fun r => ((), r.2) := by
  unfold noteReceived record enter Mutex.lockExpect
  dsimp only
  cases t.inner.poisoned
  · cases RecvTrackerInner.record seq t.inner.val <;> rfl
  · rfl

/-- What the arrival of a sample does: it panics, and leaves the tracker poisoned, or it records
the sample and reports. -/
lemma arrival_cases (seq : ℕ) (t : RecvTracker) :
    (∃ p t', report (fun t => t.noteReceived seq) seq t = (.error p, t') ∧
        t'.inner.poisoned = true) ∨
      t.inner.poisoned = false ∧ ∃ v i r, RecvTrackerInner.record seq t.inner.val = .ok (v, i) ∧
        RecvTrackerInner.missing seq i = .ok r ∧
          report (fun t => t.noteReceived seq) seq t =
            (.ok r, { t with inner := ⟨i, false⟩ }) := by
  simp only [noteReceived_eq]
  rcases report_cases (fun i => (RecvTrackerInner.record seq i).map fun r => ((), r.2)) seq t with
    hpanic | ⟨hp, i, r, hrec, hm, heq⟩
  · exact .inl hpanic
  · obtain ⟨⟨v, i'⟩, hrec', he⟩ := Except.map_eq_ok.mp hrec
    cases he
    exact .inr ⟨hp, v, i', r, hrec', hm, heq⟩

/-- When the arrival of a sample returns. -/
lemma arrival_isOk_iff {seq : ℕ} (hseq : seq < 2 ^ 64) (t : RecvTracker) :
    (∃ r, (report (fun t => t.noteReceived seq) seq t).1 = .ok r) ↔
      t.inner.poisoned = false ∧ t.inner.val.RoomFor seq := by
  rw [← RecvTrackerInner.arrival_isOk_iff hseq]
  constructor
  · rintro ⟨r, hr⟩
    rcases arrival_cases seq t with ⟨p, t', heq, -⟩ | ⟨hp, v, i, r', hrec, hm, -⟩
    · rw [heq] at hr
      cases hr
    · exact ⟨hp, v, i, r', hrec, hm⟩
  · rintro ⟨hp, v, u, r, hrec, hm⟩
    refine ⟨r, ?_⟩
    simp only [report, noteReceived_eq]
    rw [enter_of_ok (i := u) hp (by rw [hrec]; rfl)]
    dsimp only
    rw [missing, enter_of_ok rfl (by dsimp only; rw [hm]; rfl)]

end RecvTracker

end RustDds
