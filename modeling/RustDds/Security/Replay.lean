import RustDds.Lib.Run
import RustDds.Lib.Table

/-!
# The replay guard

A guard remembers the sequence numbers it has accepted, each with the timestamp its message
claimed, and refuses a number it remembers.  Every check first purges what lies more than the
window before the timestamp *it* claims, whoever claims it.  So what a guard remembers of a
number depends on all checks since: `remembers_after` says that it is there until a check claims
a time more than the window later, and `forgets_after` that it is gone from then on.

An instant is the time since the earliest one the clock can represent, so that `checked_sub`
fails where the subtraction of naturals would round up to zero.
-/

namespace RustDds

/-- Thirty seconds, in nanoseconds: the window of a guard constructed with none. -/
def defaultReplayWindow : ℕ := 30 * 1000000000

/-- A sequence number was seen before. -/
inductive ReplayError
  | mk
  deriving DecidableEq, Repr

/-- `Instant::checked_sub`. -/
def instantCheckedSub (t window : ℕ) : Option ℕ := if window ≤ t then some (t - window) else none

structure ReplayGuard where
  window : ℕ
  /-- The timestamp each number was accepted with. -/
  seen : Table UInt64 ℕ

/-- A call of `check`. -/
structure ReplayCheck where
  seq : UInt64
  /-- The claimed send timestamp. -/
  ts : ℕ
  deriving DecidableEq, Repr

namespace ReplayGuard

/-- A guard that has seen nothing.  A window of zero stands for the default. -/
def new (window : ℕ) : ReplayGuard := ⟨if window = 0 then defaultReplayWindow else window, ∅⟩

/-- Drop the entries older than `window` before `now`; all stay where no instant is that old. -/
def purgeLocked (seen : Table UInt64 ℕ) (window now : ℕ) : Table UInt64 ℕ :=
  seen.retain fun _ t =>
    match instantCheckedSub now window with
    | some cutoff => decide (cutoff ≤ t)
    | none => true

/-- Accept `seq` and remember it, unless it is remembered. -/
def check (g : ReplayGuard) (seq : UInt64) (ts : ℕ) : Except ReplayError Unit × ReplayGuard :=
  let seen := purgeLocked g.seen g.window ts
  if seq ∈ seen then (.error .mk, { g with seen })
  else (.ok (), { g with seen := seen.insert seq ts })

/-- The guard after a check. -/
def next (g : ReplayGuard) (c : ReplayCheck) : ReplayGuard := (g.check c.seq c.ts).2

/-- The guard after a run of checks. -/
def after (g : ReplayGuard) (run : List ReplayCheck) : ReplayGuard := run.foldl next g

/-- The check returns `Ok`. -/
def Accepts (g : ReplayGuard) (c : ReplayCheck) : Prop := (g.check c.seq c.ts).1 = .ok ()

instance (g : ReplayGuard) (c : ReplayCheck) : Decidable (g.Accepts c) :=
  inferInstanceAs (Decidable ((g.check c.seq c.ts).1 = .ok ()))

variable {g : ReplayGuard}

lemma after_append (g : ReplayGuard) (run run' : List ReplayCheck) :
    g.after (run ++ run') = (g.after run).after run' := List.foldl_append

lemma after_cons (g : ReplayGuard) (c : ReplayCheck) (run : List ReplayCheck) :
    g.after (c :: run) = (g.next c).after run := List.foldl_cons ..

/-- What a purge keeps: what lies at most the window before. -/
@[simp]
lemma lookup_purgeLocked (seen : Table UInt64 ℕ) (window now : ℕ) (seq : UInt64) :
    (purgeLocked seen window now).lookup seq =
      (seen.lookup seq).filter fun t => decide (now ≤ t + window) := by
  rw [purgeLocked, Table.lookup_retain]
  congr 1
  funext t
  unfold instantCheckedSub
  split_ifs with h
  · show decide (now - window ≤ t) = _
    rw [decide_eq_decide]
    omega
  · show true = _
    rw [eq_comm, decide_eq_true_eq]
    omega

/-- A check is accepted when the purge leaves nothing of its number. -/
lemma accepts_iff (g : ReplayGuard) (c : ReplayCheck) :
    g.Accepts c ↔ ∀ t, g.seen.lookup c.seq = some t → t + g.window < c.ts := by
  have hmem : c.seq ∈ purgeLocked g.seen g.window c.ts ↔
      ∃ t, g.seen.lookup c.seq = some t ∧ c.ts ≤ t + g.window := by
    rw [← AList.lookup_isSome, Option.isSome_iff_exists]
    simp only [lookup_purgeLocked, Option.filter_eq_some_iff, decide_eq_true_eq]
  unfold Accepts check
  dsimp only
  split
  · rename_i hin
    obtain ⟨t, ht, hle⟩ := hmem.mp hin
    refine iff_of_false (fun h => by cases h) fun h => ?_
    exact absurd (h t ht) (not_lt.mpr hle)
  · rename_i hin
    refine iff_of_true rfl fun t ht => ?_
    by_contra hle
    exact hin (hmem.mpr ⟨t, ht, not_lt.mp hle⟩)

@[simp] lemma window_next (g : ReplayGuard) (c : ReplayCheck) : (g.next c).window = g.window := by
  unfold next check
  dsimp only
  split <;> rfl

@[simp] lemma window_after (g : ReplayGuard) (run : List ReplayCheck) :
    (g.after run).window = g.window := by
  induction run generalizing g with
  | nil => rfl
  | cons c run ih => rw [after_cons, ih, window_next]

/-- An accepted number is remembered with the timestamp of its check. -/
lemma lookup_next_of_accepts {c : ReplayCheck} (h : g.Accepts c) :
    (g.next c).seen.lookup c.seq = some c.ts := by
  unfold Accepts next at *
  unfold check at *
  dsimp only at *
  split at h
  · cases h
  · rename_i hin
    rw [if_neg hin]
    exact AList.lookup_insert _

/-- A check leaves another number, or one it refuses, to its purge. -/
lemma lookup_next_of_not {c : ReplayCheck} {seq : UInt64} (h : ¬ (c.seq = seq ∧ g.Accepts c)) :
    (g.next c).seen.lookup seq =
      (g.seen.lookup seq).filter fun t => decide (c.ts ≤ t + g.window) := by
  unfold Accepts at h
  unfold next
  unfold check at *
  dsimp only at *
  split
  · exact lookup_purgeLocked _ _ _ _
  · rename_i hin
    rw [if_neg hin] at h
    have hne : seq ≠ c.seq := fun heq => h ⟨heq.symm, rfl⟩
    exact (AList.lookup_insert_ne hne).trans (lookup_purgeLocked _ _ _ _)

/-! ## Runs -/

/-- **What is remembered.**  A number is remembered, with its timestamp, for as long as no check
claims a time more than the window after it. -/
lemma remembers_after {seq : UInt64} {t : ℕ} {run : List ReplayCheck}
    (h : g.seen.lookup seq = some t) (hrun : ∀ c ∈ run, c.ts ≤ t + g.window) :
    (g.after run).seen.lookup seq = some t := by
  induction run generalizing g with
  | nil => exact h
  | cons c run ih =>
    have hc := hrun c List.mem_cons_self
    have hnot : ¬ (c.seq = seq ∧ g.Accepts c) := by
      rintro ⟨rfl, hacc⟩
      exact absurd ((g.accepts_iff c).mp hacc t h) (not_lt.mpr hc)
    have hnext : (g.next c).seen.lookup seq = some t := by
      rw [lookup_next_of_not hnot, h, Option.filter_some, if_pos (by simpa using hc)]
    rw [after_cons]
    apply ih hnext
    intro d hd
    rw [window_next]
    exact hrun d (List.mem_cons_of_mem _ hd)

/-- The run accepts no check of `seq`. -/
def Refuses (seq : UInt64) (g : ReplayGuard) (run : List ReplayCheck) : Prop :=
  Run.Each next (fun g c => ¬ (c.seq = seq ∧ g.Accepts c)) g run

/-- **What is forgotten.**  A number that the run does not accept is remembered at its end only
if it was before, with the same timestamp, and no check claimed a time more than the window
after that. -/
lemma forgets_after {seq : UInt64} {run : List ReplayCheck} (href : Refuses seq g run) {t : ℕ}
    (h : (g.after run).seen.lookup seq = some t) :
    g.seen.lookup seq = some t ∧ ∀ c ∈ run, c.ts ≤ t + g.window := by
  induction run generalizing g with
  | nil => exact ⟨h, by simp⟩
  | cons c run ih =>
    rw [after_cons] at h
    obtain ⟨hnext, hrun⟩ := ih href.2 h
    rw [lookup_next_of_not href.1, Option.filter_eq_some_iff, decide_eq_true_eq] at hnext
    refine ⟨hnext.1, fun d hd => ?_⟩
    rcases List.mem_cons.mp hd with rfl | hd
    · exact hnext.2
    · exact window_next g c ▸ hrun d hd

/-- **The window of a guard.**  When a check of `seq` that claimed `t₁` was accepted, a later one
is accepted only if it, or a check between the two, claims a time more than the window after
`t₁`; and if none between them was accepted for `seq`, it is accepted exactly then. -/
theorem accepts_again_iff (window : ℕ) (before between : List ReplayCheck) (seq : UInt64)
    (t₁ t₂ : ℕ) (h₁ : ((new window).after before).Accepts ⟨seq, t₁⟩) :
    (((new window).after (before ++ ⟨seq, t₁⟩ :: between)).Accepts ⟨seq, t₂⟩ →
      ∃ c ∈ between ++ [⟨seq, t₂⟩], t₁ + (new window).window < c.ts) ∧
    (Refuses seq ((new window).after (before ++ [⟨seq, t₁⟩])) between →
      (((new window).after (before ++ ⟨seq, t₁⟩ :: between)).Accepts ⟨seq, t₂⟩ ↔
        ∃ c ∈ between ++ [⟨seq, t₂⟩], t₁ + (new window).window < c.ts)) := by
  have hstart : (new window).after (before ++ [⟨seq, t₁⟩]) =
      ((new window).after before).next ⟨seq, t₁⟩ := by
    rw [after_append, after_cons]
    rfl
  have hend : (new window).after (before ++ ⟨seq, t₁⟩ :: between) =
      (((new window).after before).next ⟨seq, t₁⟩).after between := by
    rw [after_append, after_cons]
  rw [hstart, hend]
  have hwindow : (((new window).after before).next ⟨seq, t₁⟩).window = (new window).window := by
    rw [window_next, window_after]
  have hseen := lookup_next_of_accepts h₁
  generalize ((new window).after before).next ⟨seq, t₁⟩ = g at hwindow hseen
  rw [← hwindow, accepts_iff, window_after]
  have honly : (∀ t, (g.after between).seen.lookup seq = some t → t + g.window < t₂) →
      ∃ c ∈ between ++ [⟨seq, t₂⟩], t₁ + g.window < c.ts := by
    intro hacc
    by_contra hnone
    push Not at hnone
    have hkept := remembers_after hseen fun c hc => hnone c (List.mem_append_left _ hc)
    have hlt := hacc t₁ hkept
    have hle : t₂ ≤ t₁ + g.window :=
      hnone ⟨seq, t₂⟩ (List.mem_append_right _ List.mem_cons_self)
    omega
  refine ⟨honly, fun href => ⟨honly, ?_⟩⟩
  rintro ⟨c, hc, hlate⟩ t ht
  obtain ⟨hsame, hrun⟩ := forgets_after href ht
  obtain rfl : t₁ = t := Option.some.inj (hseen.symm.trans hsame)
  rcases List.mem_append.mp hc with hc | hc
  · exact absurd (hrun c hc) (not_le.mpr hlate)
  · obtain rfl : c = ⟨seq, t₂⟩ := by simpa using hc
    exact hlate

/-- Within the window of ten after its acceptance at 100, number 1 is refused. -/
theorem accepts_again_iff_refused :
    ¬ ((new 10).after [⟨1, 100⟩, ⟨2, 105⟩]).Accepts ⟨1, 110⟩ := by
  intro h
  have hfirst : ((new 10).after []).Accepts ⟨1, 100⟩ := by decide
  obtain ⟨c, hc, hlate⟩ := (accepts_again_iff 10 [] [⟨2, 105⟩] 1 100 110 hfirst).1 h
  revert hlate
  simp only [List.cons_append, List.nil_append, List.mem_cons, List.not_mem_nil, or_false] at hc
  rcases hc with rfl | rfl <;> decide

/-- A guard with a window of ten accepts number 1 at 100 twice, when number 2 claims 111 between
the two. -/
theorem exists_accepts_twice :
    ¬ ∀ (window : ℕ) (before between : List ReplayCheck) (seq : UInt64) (t₁ t₂ : ℕ),
      ((new window).after before).Accepts ⟨seq, t₁⟩ →
        ((new window).after (before ++ ⟨seq, t₁⟩ :: between)).Accepts ⟨seq, t₂⟩ →
          (new window).window < ((t₁ : ℤ) - t₂).natAbs := by
  intro h
  have htwice := h 10 [] [⟨2, 111⟩] 1 100 100 (by decide) (by decide)
  revert htwice
  decide

end ReplayGuard

end RustDds
