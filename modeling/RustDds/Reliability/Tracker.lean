import RustDds.Rtps.Reliable

/-!
# What a silent reader has received

A reader answers a HEARTBEAT with an ACKNACK unless its tracker reports that nothing is
missing.  The runs here are the calls a tracker gets, in any order: `record` for each sample
that arrives, `initExpected` and `missing` for each HEARTBEAT.

The first contact of a run anchors the watermark, whether it is a sample or a HEARTBEAT, and
nothing moves the anchor afterwards.  So the guarantee starts at the anchor:
`recorded_of_not_need` says that a HEARTBEAT goes unanswered only once every sequence number it
announces, from the anchor on, has been recorded.  The invariant is `Backed`: from the anchor
on, the tracker has down as received only what was recorded.
-/

namespace RustDds

/-- A contact of a remote writer with a tracker. -/
inductive Contact
  /-- A sample arrives. -/
  | data (seq : UInt64)
  /-- A HEARTBEAT arrives, of a writer whose history is `first` to `last`. -/
  | heartbeat (first last : UInt64)
  deriving DecidableEq, Repr

/-- Where a contact would anchor a tracker that has had none. -/
def Contact.anchor : Contact → UInt64
  | .data seq => seq
  | .heartbeat first _ => first

/-- The anchor of a run: that of its first contact. -/
def anchorOf (run : List Contact) : UInt64 := (run.head?.map Contact.anchor).getD 0

lemma anchorOf_append {run : List Contact} (h : run ≠ []) (c : Contact) :
    anchorOf (run ++ [c]) = anchorOf run := by
  obtain ⟨d, ds, rfl⟩ := List.exists_cons_of_ne_nil h
  rfl

namespace RecvTracker

/-- What a HEARTBEAT does to a tracker, and what the tracker then reports. -/
def heartbeat (t : RecvTracker) (first last : UInt64) :
    Except Panic (ℕ × UInt32 × Bool) × RecvTracker :=
  report (fun t => t.initExpected first.toNat) last.toNat t

/-- The tracker after a contact. -/
def contact (t : RecvTracker) : Contact → RecvTracker
  | .data seq => (t.record seq.toNat).2
  | .heartbeat first last => (t.heartbeat first last).2

/-- The tracker after a run of contacts. -/
def after (run : List Contact) : RecvTracker := run.foldl contact new

lemma after_append (run : List Contact) (c : Contact) :
    after (run ++ [c]) = (after run).contact c := by
  rw [after, List.foldl_append]
  rfl

end RecvTracker

namespace RecvTrackerInner

variable {t t' : RecvTrackerInner} {run : List Contact}

/-- The invariant of a tracker after `run`: it is well formed, it has its anchor if there was a
contact, and from the anchor on it has only what was recorded. -/
structure Backed (run : List Contact) (t : RecvTrackerInner) : Prop where
  wf : t.WF
  done : t.initDone = true ↔ run ≠ []
  anchor_le : run ≠ [] → (anchorOf run).toNat ≤ t.expected
  recorded : run ≠ [] → ∀ s : UInt64, anchorOf run ≤ s → t.Has s.toNat → .data s ∈ run

lemma backed_nil : Backed [] new where
  wf := wf_new
  done := by simp [new]
  anchor_le := fun h => absurd rfl h
  recorded := fun h => absurd rfl h

/-- Anchoring at a contact: the tracker is as the contact finds it. -/
lemma Backed.initExpected (h : Backed run t) (c : Contact) :
    Backed (run ++ [c]) (t.initExpected c.anchor.toNat) := by
  by_cases hnil : run = []
  · subst hnil
    have hdone : t.initDone = false := by simpa using h.done
    have hinit : t.initExpected c.anchor.toNat =
        { t with expected := c.anchor.toNat, initDone := true } := by
      rw [RecvTrackerInner.initExpected, if_neg (by simp [hdone])]
    rw [hinit]
    refine ⟨hinit ▸ h.wf.initExpected c.anchor.toNat_lt, by simp, fun _ => le_rfl, fun _ s hs => ?_⟩
    rintro (hlt | hmem)
    · exact absurd (UInt64.le_iff_toNat_le.mp hs) (not_le.mpr hlt)
    · rw [show t.ahead = ∅ from h.wf.blank hdone] at hmem
      cases hmem
  · rw [initExpected_of_done (h.done.mpr hnil)]
    refine ⟨h.wf, by simp [h.done, hnil], fun _ => ?_, fun _ s hs hhas => ?_⟩
    · rw [anchorOf_append hnil]
      exact h.anchor_le hnil
    · rw [anchorOf_append hnil] at hs
      exact List.mem_append_left _ (h.recorded hnil s hs hhas)

/-- The step of the invariant at a sample. -/
lemma Backed.record (h : Backed run t) {seq : UInt64} {v : Bool}
    (hr : RecvTrackerInner.record seq.toNat t = .ok (v, t')) :
    Backed (run ++ [.data seq]) t' := by
  have hu := h.initExpected (.data seq)
  obtain ⟨hwf, hdone, hle, -, hhas⟩ := record_spec h.wf seq.toNat_lt hr
  refine ⟨hwf, by simp [hdone], fun hne => (hu.anchor_le hne).trans hle, fun hne s hs hs' => ?_⟩
  rcases (hhas _).mp hs' with hold | ⟨heq, -⟩
  · exact hu.recorded hne s hs hold
  · rw [UInt64.toNat_inj.mp heq]
    exact List.mem_append_right _ List.mem_cons_self

end RecvTrackerInner

namespace RecvTracker

open RecvTrackerInner

variable {t : RecvTracker} {run : List Contact}

/-- A tracker after `run`, as long as nothing has panicked. -/
def Backed (run : List Contact) (t : RecvTracker) : Prop :=
  t.inner.poisoned = false → t.inner.val.Backed run

/-- What a HEARTBEAT does: it panics, and leaves the tracker poisoned, or it anchors the tracker
if that is its first contact, and reports. -/
lemma heartbeat_cases (t : RecvTracker) (first last : UInt64) :
    (∃ p t', t.heartbeat first last = (.error p, t') ∧ t'.inner.poisoned = true) ∨
      t.inner.poisoned = false ∧
        ∃ r, RecvTrackerInner.missing last.toNat (t.inner.val.initExpected first.toNat) = .ok r ∧
          t.heartbeat first last =
            (.ok r, { t with inner := ⟨t.inner.val.initExpected first.toNat, false⟩ }) := by
  rcases report_cases (fun i => .ok ((), i.initExpected first.toNat)) last.toNat t with
    hpanic | ⟨hp, i, r, hinit, hm, heq⟩
  · exact .inl hpanic
  · cases hinit
    exact .inr ⟨hp, r, hm, heq⟩

/-- **The step.**  A contact extends the run that backs the tracker. -/
lemma Backed.contact (h : Backed run t) (c : Contact) : Backed (run ++ [c]) (t.contact c) := by
  intro hp
  cases c with
  | data seq =>
    simp only [RecvTracker.contact, record] at hp ⊢
    rcases t.enter_cases (RecvTrackerInner.record seq.toNat) with
      ⟨p, t', heq, hp'⟩ | ⟨hp', v, i, hr, heq⟩
    · rw [heq, hp'] at hp
      cases hp
    · rw [heq]
      exact (h hp').record hr
  | heartbeat first last =>
    simp only [RecvTracker.contact] at hp ⊢
    rcases t.heartbeat_cases first last with ⟨p, t', heq, hp'⟩ | ⟨hp', r, -, heq⟩
    · rw [heq, hp'] at hp
      cases hp
    · rw [heq]
      exact (h hp').initExpected (.heartbeat first last)

/-- **The run.**  A tracker is backed by the run of its contacts. -/
lemma backed_after (run : List Contact) : Backed run (after run) := by
  induction run using List.reverseRecOn with
  | nil => exact fun _ => backed_nil
  | append_singleton run c ih =>
    rw [after_append]
    exact ih.contact c

/-- **No silent loss, from the anchor on.**  When a tracker reports after a HEARTBEAT that
nothing is missing, everything up to the last number it announced has been recorded, save what
lies below the first contact of the run. -/
theorem recorded_of_not_need (run : List Contact) (first last : UInt64) {base : ℕ}
    {bitmap : UInt32} (h : ((after run).heartbeat first last).1 = .ok (base, bitmap, false))
    (s : UInt64) (hanchor : anchorOf (run ++ [.heartbeat first last]) ≤ s) (hlast : s ≤ last) :
    .data s ∈ run := by
  rcases (after run).heartbeat_cases first last with ⟨p, t', heq, -⟩ | ⟨hp, r, hm, heq⟩
  · rw [heq] at h
    cases h
  rw [heq] at h
  cases h
  have hb : ((after run).inner.val.initExpected first.toNat).Backed
      (run ++ [.heartbeat first last]) :=
    (backed_after run hp).initExpected (.heartbeat first last)
  -- nothing is asked for, so the watermark has passed `last`
  obtain ⟨-, hneed, -⟩ := missing_spec hb.wf (initDone_initExpected _ _) hm
  have hpassed : last.toNat < ((after run).inner.val.initExpected first.toNat).expected := by
    simpa using hneed
  have hhas : ((after run).inner.val.initExpected first.toNat).Has s.toNat :=
    .inl (lt_of_le_of_lt (UInt64.le_iff_toNat_le.mp hlast) hpassed)
  simpa using hb.recorded (by simp) s hanchor hhas

/-- A HEARTBEAT of `1, …, 3` after the samples 2, 3 and 1, in that order, finds nothing
missing: the run was anchored by the HEARTBEAT before them. -/
theorem recorded_of_not_need_reordered :
    Contact.data 2 ∈ [Contact.heartbeat 1 3, .data 2, .data 3, .data 1] := by
  have hneed : ((after [.heartbeat 1 3, .data 2, .data 3, .data 1]).heartbeat 1 3).1 =
      .ok (4, 0, false) := by decide
  exact recorded_of_not_need _ 1 3 hneed 2 (by decide) (by decide)

/-- Below the anchor there is loss that nothing reports: a tracker first contacted by sample 5
has no need of the samples 1 to 4 that the next HEARTBEAT announces. -/
theorem exists_unrecorded_of_not_need :
    ¬ ∀ (run : List Contact) (first last : UInt64) (base : ℕ) (bitmap : UInt32),
      ((after run).heartbeat first last).1 = .ok (base, bitmap, false) →
        ∀ s, first ≤ s → s ≤ last → Contact.data s ∈ run := by
  intro h
  have hneed : ((after [.data 5]).heartbeat 1 5).1 = .ok (6, 0, false) := by decide
  have hmem := h [.data 5] 1 5 6 0 hneed 1 (by decide) (by decide)
  revert hmem
  decide

end RecvTracker

end RustDds
