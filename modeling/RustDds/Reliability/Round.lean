import RustDds.Reliability.Answer

/-!
# One recovery round

A writer tells a reader what its history holds, the reader asks for what it misses in the window of
32 numbers at its watermark, and the writer resends what it retains of that.

The trackers of the readers are those the contacts of the writer lead to (`HeardUpTo`), which are
sound as long as the writer's numbers stay off the end of the number space (`Within`).  If the
watermark is in the writer's history and nothing of the answer is lost, then the round closes the
window: the watermark is behind it afterwards, and no number of it is asked for again
(`closes_window`).
-/

namespace RustDds

namespace RecvTracker

/-- A tracker after contacts of a writer whose numbers have not passed `last`. -/
inductive HeardUpTo (last : ℕ) : RecvTracker → Prop
  | new : HeardUpTo last new
  | sample {t : RecvTracker} {seq : ℕ} (h : HeardUpTo last t) (hseq : seq ≤ last) :
      HeardUpTo last (report (fun t => t.noteReceived seq) seq t).2
  | heartbeat {t : RecvTracker} {firstSn lastSn : ℕ} (h : HeardUpTo last t)
      (hfirst : firstSn ≤ last) (hlast : lastSn ≤ last) :
      HeardUpTo last (report (fun t => t.initExpected firstSn) lastSn t).2
  | acknack {t : RecvTracker} (h : HeardUpTo last t) : HeardUpTo last t.nextAckCount.2

/-- The tracker is in order, and has nothing beyond `last`. -/
structure Within (last : ℕ) (t : RecvTracker) : Prop where
  unpoisoned : t.inner.poisoned = false
  wf : t.inner.val.WF
  ahead_le : ∀ s ∈ t.inner.val.ahead, s ≤ last
  expected_le : t.inner.val.expected ≤ last + 1
  blank : t.inner.val.initDone = false → t.inner.val.expected = 0

variable {t : RecvTracker} {last seq : ℕ}

lemma within_new (last : ℕ) : Within last new where
  unpoisoned := rfl
  wf := RecvTrackerInner.wf_new
  ahead_le := nofun
  expected_le := Nat.zero_le _
  blank := fun _ => rfl

/-- The counter of ACKNACKs does not matter. -/
lemma Within.of_inner_eq {t' : RecvTracker} (h : Within last t) (heq : t'.inner = t.inner) :
    Within last t' := by
  refine ⟨?_, ?_, ?_, ?_, ?_⟩ <;> rw [heq]
  · exact h.unpoisoned
  · exact h.wf
  · exact h.ahead_le
  · exact h.expected_le
  · exact h.blank

/-- The watermark at which a contact with number `s` finds it. -/
lemma Within.initExpected (h : Within last t) (hseq : seq ≤ last) :
    (t.inner.val.initExpected seq).expected ≤ last + 1 ∧
      ∀ s ∈ (t.inner.val.initExpected seq).ahead, s ≤ last := by
  rw [RecvTrackerInner.initExpected]
  split
  · exact ⟨h.expected_le, h.ahead_le⟩
  · exact ⟨Nat.le_succ_of_le hseq, h.ahead_le⟩

lemma Within.roomFor (h : Within last t) (hbound : last < 2 ^ 64 - 64) (hseq : seq ≤ last) :
    t.inner.val.RoomFor seq := by
  obtain ⟨hexpected, hahead⟩ := h.initExpected hseq
  refine ⟨fun _ => ⟨last + 1, by omega, by omega, fun hmem => ?_⟩, fun _ => by omega⟩
  have := hahead _ hmem
  omega

/-- The window at the watermark is inside the number space. -/
lemma Within.missing_isOk (hbound : last < 2 ^ 64 - 64) {u : RecvTrackerInner}
    (hu : u.expected ≤ last + 1) (hseq : seq ≤ last) :
    ∃ r, RecvTrackerInner.missing seq u = .ok r :=
  (RecvTrackerInner.missing_isOk_iff (by omega)).mpr fun _ _ => by omega

/-- **A HEARTBEAT** anchors the tracker, if that has had no contact, and is answered. -/
lemma Within.heartbeat (h : Within last t) (hbound : last < 2 ^ 64 - 64) {firstSn lastSn : ℕ}
    (hfirst : firstSn ≤ last) (hlast : lastSn ≤ last) :
    ∃ r t', report (fun t => t.initExpected firstSn) lastSn t = (.ok r, t') ∧
      RecvTrackerInner.missing lastSn (t.inner.val.initExpected firstSn) = .ok r ∧
        Within last t' ∧ t'.inner.val = t.inner.val.initExpected firstSn := by
  obtain ⟨hexpected, hahead⟩ := h.initExpected hfirst
  obtain ⟨r, hr⟩ := Within.missing_isOk hbound hexpected hlast
  have hdone := RecvTrackerInner.initDone_initExpected t.inner.val firstSn
  have hreport : report (fun t => t.initExpected firstSn) lastSn t =
      (.ok r, { t with inner := ⟨t.inner.val.initExpected firstSn, false⟩ }) := by
    simp only [report, RecvTracker.initExpected]
    rw [enter_of_ok h.unpoisoned rfl]
    dsimp only
    rw [missing, enter_of_ok rfl (by dsimp only; rw [hr]; rfl)]
  refine ⟨r, _, hreport, hr, ?_, rfl⟩
  exact ⟨rfl, h.wf.initExpected (by omega), hahead, hexpected,
    fun hnot => by rw [hdone] at hnot; cases hnot⟩

/-- **A sample** is recorded: it is received if it is not too far ahead, and nothing else is. -/
lemma Within.sample (h : Within last t) (hbound : last < 2 ^ 64 - 64) (hseq : seq ≤ last) :
    ∃ r t', report (fun t => t.noteReceived seq) seq t = (.ok r, t') ∧ Within last t' ∧
      t'.inner.val.initDone = true ∧
        (t.inner.val.initExpected seq).expected ≤ t'.inner.val.expected ∧
          ∀ s, t'.inner.val.Has s ↔ (t.inner.val.initExpected seq).Has s ∨
            (s = seq ∧ seq ≤ (t.inner.val.initExpected seq).expected + maxReorderAhead) := by
  obtain ⟨hexpected, hahead⟩ := h.initExpected hseq
  obtain ⟨r, hr⟩ :=
    (arrival_isOk_iff (by omega) t).mpr ⟨h.unpoisoned, h.roomFor hbound hseq⟩
  rcases arrival_cases seq t with ⟨p, t', heq, -⟩ | ⟨-, v, i, r', hrecord, -, heq⟩
  · rw [heq] at hr
    cases hr
  obtain ⟨hwf, hdone, hle, -, hhas⟩ := RecvTrackerInner.record_spec h.wf (by omega) hrecord
  refine ⟨r', _, heq, ⟨rfl, hwf, fun s hs => ?_, not_lt.mp fun hlt => ?_,
    fun hnot => by rw [hdone] at hnot; cases hnot⟩, hdone, hle, hhas⟩
  · rcases (hhas s).mp (.inr hs) with (hs' | hs') | ⟨rfl, -⟩
    · have := hwf.ahead_gt s hs
      omega
    · exact hahead s hs'
    · exact hseq
  · rcases (hhas (last + 1)).mp (.inl hlt) with (hs | hs) | ⟨hs, -⟩
    · omega
    · have := hahead _ hs
      omega
    · omega

/-- **The trackers of a writer.** -/
lemma HeardUpTo.within (h : HeardUpTo last t) (hbound : last < 2 ^ 64 - 64) : Within last t := by
  induction h with
  | new => exact within_new last
  | sample _ hseq ih =>
    obtain ⟨r, t', heq, hwithin, -⟩ := ih.sample hbound hseq
    rw [heq]
    exact hwithin
  | heartbeat _ hfirst hlast ih =>
    obtain ⟨r, t', heq, -, hwithin, -⟩ := ih.heartbeat hbound hfirst hlast
    rw [heq]
    exact hwithin
  | acknack _ ih => exact ih.of_inner_eq rfl

end RecvTracker

/-! ## The readers of a participant -/

namespace RtpsParticipant

/-- The reliable reader `r` accepts the writer `source`, and has this tracker of it. -/
def Tracks (q : RtpsParticipant) (source : Guid) (r : EntityId) (t : RecvTracker) : Prop :=
  ∃ st, q.readers.lookup r = some st ∧ st.Hears q.guidPrefix source ∧ st.trackerFor source = t

/-- Every reader has a tracker of the writer that is in order. -/
def Follows (q : RtpsParticipant) (source : Guid) (last : ℕ) : Prop :=
  ∀ r t, q.Tracks source r t → t.Within last

variable {q q' : RtpsParticipant} {source : Guid} {r : EntityId} {t t' : RecvTracker}
  {last seq : ℕ} {src : SocketAddr} {d : Datagram}

lemma Tracks.unique (h : q.Tracks source r t) (h' : q.Tracks source r t') : t = t' := by
  obtain ⟨st, hst, -, rfl⟩ := h
  obtain ⟨st', hst', -, rfl⟩ := h'
  rw [hst, Option.some.injEq] at hst'
  rw [hst']

/-- Every reader's tracker of the writer becomes one that `f` relates to it. -/
def TracksTo (source : Guid) (f : RecvTracker → RecvTracker → Prop) (q q' : RtpsParticipant) :
    Prop :=
  (∀ r t, q.Tracks source r t → ∃ t', q'.Tracks source r t' ∧ f t t') ∧
    ∀ r t', q'.Tracks source r t' → ∃ t, q.Tracks source r t ∧ f t t'

lemma TracksTo.imp {f g : RecvTracker → RecvTracker → Prop} (h : TracksTo source f q q')
    (himp : ∀ r t t', q.Tracks source r t → f t t' → g t t') : TracksTo source g q q' := by
  refine ⟨fun r t ht => ?_, fun r t' ht' => ?_⟩
  · obtain ⟨t', ht', hf⟩ := h.1 r t ht
    exact ⟨t', ht', himp r t t' ht hf⟩
  · obtain ⟨t, ht, hf⟩ := h.2 r t' ht'
    exact ⟨t, ht, himp r t t' ht hf⟩

lemma TracksTo.trans {f g : RecvTracker → RecvTracker → Prop} {q'' : RtpsParticipant}
    (h : TracksTo source f q q') (h' : TracksTo source g q' q'') :
    TracksTo source (Relation.Comp f g) q q'' := by
  refine ⟨fun r t ht => ?_, fun r t ht => ?_⟩
  · obtain ⟨t', ht', hf⟩ := h.1 r t ht
    obtain ⟨t'', ht'', hg⟩ := h'.1 r t' ht'
    exact ⟨t'', ht'', t', hf, hg⟩
  · obtain ⟨t', ht', hg⟩ := h'.2 r t ht
    obtain ⟨t'', ht'', hf⟩ := h.2 r t' ht'
    exact ⟨t'', ht'', t', hf, hg⟩

lemma hears_contact {header : Header} {op : RecvTracker → Except Panic Unit × RecvTracker}
    {w : Guid} {own : GuidPrefix} {eid : EntityId} {st : ReaderState} :
    (ReaderState.contact header source src op last eid st).state.Hears own w ↔
      st.Hears own w := by
  rcases ReaderState.state_contact header source src op last eid st with h | ⟨t, h⟩ <;> rw [h]
  rfl

/-- A loop of contacts that returns moves every tracker as its report does. -/
lemma tracksTo_contact {op : RecvTracker → Except Panic Unit × RecvTracker}
    (h : (visitReaders (ReaderState.contact q.header source src op last) q).panic = none) :
    TracksTo source (fun t t' => t'.inner = (RecvTracker.report op last t).2.inner) q
      (visitReaders (ReaderState.contact q.header source src op last) q).state := by
  have hlookup := Table.lookup_visit (f := ReaderState.contact q.header source src op last) h
  refine ⟨?_, ?_⟩
  · rintro r _ ⟨st, hst, hhears, rfl⟩
    have hst' := hlookup r
    rw [hst, Option.map_some] at hst'
    exact ⟨_, ⟨_, hst', hears_contact.mpr hhears, rfl⟩, ReaderState.trackerFor_contact hhears⟩
  · rintro r _ ⟨st', hst', hhears, rfl⟩
    obtain ⟨st, hst, rfl⟩ := Option.map_eq_some_iff.mp ((hlookup r).symm.trans hst')
    have hhears' := hears_contact.mp hhears
    exact ⟨_, ⟨st, hst, hhears', rfl⟩, ReaderState.trackerFor_contact hhears'⟩

/-- A dispatch moves none. -/
lemma tracksTo_dispatch (origin : Origin) {w : Guid} {topicFilter : Option String}
    {payload : Bytes} {utc : ℤ} :
    TracksTo source Eq q
      (dispatchToReaders origin w topicFilter payload utc seq q).state := by
  have hown : (dispatchToReaders origin w topicFilter payload utc seq q).state.guidPrefix =
    q.guidPrefix := (readersOnly_dispatchToReaders origin).guidPrefix_eq
  refine ⟨?_, ?_⟩
  · rintro r _ ⟨st, hst, hhears, rfl⟩
    obtain ⟨inner, hst'⟩ := lookup_dispatchToReaders hst
    exact ⟨_, ⟨_, hst', by rw [hown]; exact hhears, rfl⟩, rfl⟩
  · rintro r _ ⟨st', hst', hhears, rfl⟩
    obtain ⟨st, hst, -⟩ := profile_eq_of_lookup (profile_dispatchToReaders origin).symm hst'
    obtain ⟨inner, hst''⟩ := lookup_dispatchToReaders hst
    rw [hst', Option.some.injEq] at hst''
    subst hst''
    rw [hown] at hhears
    exact ⟨_, ⟨st, hst, hhears, rfl⟩, rfl⟩

/-! ### A sample arrives -/

lemma Follows.notifyOk (h : q.Follows source last) (hbound : last < 2 ^ 64 - 64)
    (hseq : seq ≤ last) : q.NotifyOk source seq := by
  intro r st hst hhears
  have hwithin := h r _ ⟨st, hst, hhears, rfl⟩
  exact ⟨hwithin.unpoisoned, hwithin.roomFor hbound hseq⟩

/-- What a tracker in contact makes of the arrival of a sample. -/
structure Records (last seq : ℕ) (t t' : RecvTracker) : Prop where
  within : t'.Within last
  done : t'.inner.val.initDone = true
  expected_le : t.inner.val.initDone = true → t.inner.val.expected ≤ t'.inner.val.expected
  keeps : t.inner.val.initDone = true → ∀ s, t.inner.val.Has s → t'.inner.val.Has s
  takes : t.inner.val.initDone = true → seq ≤ t.inner.val.expected + maxReorderAhead →
    t'.inner.val.Has seq
  stays : t.inner.val.initDone = true → t.inner.val.expected < seq →
    t'.inner.val.expected = t.inner.val.expected

lemma tracksTo_acceptSample {origin : Origin} {payload : Bytes} (h : q.Follows source last)
    (hbound : last < 2 ^ 64 - 64) (hseq : seq ≤ last) :
    TracksTo source (Records last seq) q (acceptSample d origin source payload seq q).state := by
  have hok := h.notifyOk hbound hseq
  rcases acceptSample_cases d origin payload q source (by omega : seq < 2 ^ 64) with
    ⟨hnot, -⟩ | ⟨-, hpanic, heq⟩
  · exact absurd hok hnot
  rw [heq]
  refine ((tracksTo_contact hpanic).trans (tracksTo_dispatch origin)).imp
    fun r t t' ht hreport => ?_
  obtain ⟨t₁, hinner, rfl⟩ := hreport
  obtain ⟨x, t₂, hrun, hwithin, hdone, hle, hhas⟩ := (h r t ht).sample hbound hseq
  rw [hrun] at hinner
  refine ⟨hwithin.of_inner_eq hinner, ?_, ?_, ?_, ?_, ?_⟩ <;> rw [hinner]
  · exact hdone
  all_goals
    intro hcontact
    rw [RecvTrackerInner.initExpected_of_done hcontact] at hle hhas
  · exact hle
  · exact fun s hs => (hhas s).mpr (.inl hs)
  · exact fun hnear => (hhas seq).mpr (.inr ⟨rfl, hnear⟩)
  · intro hlt
    refine le_antisymm (not_lt.mp fun hover => ?_) hle
    -- the watermark itself would have been received
    rcases (hhas t.inner.val.expected).mp (.inl hover) with hhad | ⟨heq, -⟩
    · exact (h r t ht).wf.not_has_expected hhad
    · omega

/-- **The samples of an answer**, in any order: the reader's tracker has those that are not too
far ahead. -/
lemma tracks_receiveAll {header : Header} {eid : EntityId} {ds : List Datagram}
    (hbound : last < 2 ^ 64 - 64)
    (hds : ∀ d ∈ ds, ∃ s ≤ last, ∃ payload, FitsData payload ∧
      d.data = dataMessage header eid s payload)
    (hforeign : header.guidPrefix ≠ q.guidPrefix)
    (hfollows : q.Follows ⟨header.guidPrefix, eid⟩ last)
    (ht : q.Tracks ⟨header.guidPrefix, eid⟩ r t) (hdone : t.inner.val.initDone = true) :
    ∃ t', (receiveAll ds q).state.Tracks ⟨header.guidPrefix, eid⟩ r t' ∧ t'.Within last ∧
      t'.inner.val.initDone = true ∧ (∀ s, t.inner.val.Has s → t'.inner.val.Has s) ∧
        ∀ d ∈ ds, ∀ s ≤ last, ∀ payload, FitsData payload →
          d.data = dataMessage header eid s payload →
            s ≤ t.inner.val.expected + maxReorderAhead → t'.inner.val.Has s := by
  induction ds generalizing q t with
  | nil => exact ⟨t, ht, hfollows r t ht, hdone, fun _ hs => hs, nofun⟩
  | cons d ds ih =>
    -- what one sample does, under whichever number it is read
    have hstep : ∀ s ≤ last, ∀ payload, FitsData payload →
        d.data = dataMessage header eid s payload →
          TracksTo ⟨header.guidPrefix, eid⟩ (Records last s) q (handleDataPacket d q).state := by
      intro s hs payload hfits hdata
      rw [handleDataPacket_data (by omega) hfits hdata hforeign]
      exact tracksTo_acceptSample hfollows hbound hs
    obtain ⟨s₀, hs₀, payload₀, hfits₀, hdata₀⟩ := hds d List.mem_cons_self
    have hfirst := hstep s₀ hs₀ payload₀ hfits₀ hdata₀
    obtain ⟨t₁, ht₁, hrecords⟩ := hfirst.1 r t ht
    have hfollows₁ : (handleDataPacket d q).state.Follows ⟨header.guidPrefix, eid⟩ last := by
      intro r' t' ht'
      obtain ⟨t₀, -, hrecords'⟩ := hfirst.2 r' t' ht'
      exact hrecords'.within
    have hown : (handleDataPacket d q).state.guidPrefix = q.guidPrefix :=
      (keeps_handleDataPacket q d).1.guidPrefix_eq
    obtain ⟨t', ht', hwithin, hdone', hkeeps, htakes⟩ :=
      ih (fun d' hd' => hds d' (List.mem_cons_of_mem _ hd')) (hown ▸ hforeign) hfollows₁ ht₁
        hrecords.done
    have hle := hrecords.expected_le hdone
    rw [receiveAll, Cmd.calls_cons]
    refine ⟨t', ht', hwithin, hdone', fun s hs => hkeeps s (hrecords.keeps hdone s hs), ?_⟩
    intro d' hd' s hs payload hfits hdata hnear
    rcases List.mem_cons.mp hd' with rfl | hd'
    · obtain ⟨t₂, ht₂, hrecords₂⟩ := (hstep s hs payload hfits hdata).1 r t ht
      rw [ht₂.unique ht₁] at hrecords₂
      exact hkeeps s (hrecords₂.takes hdone hnear)
    · exact htakes d' hd' s hs payload hfits hdata (by omega)

/-! ### The request -/

/-- What a contact has a reader send. -/
lemma send_mem_contact {header : Header} {op : RecvTracker → Except Panic Unit × RecvTracker}
    {eid : EntityId} {st : ReaderState} {msg : Bytes} {addr : SocketAddr} :
    .send msg addr ∈ (ReaderState.contact header source src op last eid st).out ↔
      st.Hears header.guidPrefix source ∧ addr = src ∧ ∃ base bitmap t₁,
        RecvTracker.report op last (st.trackerFor source) = (.ok (base, bitmap, true), t₁) ∧
          msg = ReaderState.acknackMessage header
            ⟨eid, source.entity, .fromU64 base, bitmap, t₁.nextAckCount.1⟩ := by
  by_cases h : st.Hears header.guidPrefix source
  · rw [ReaderState.contact_of_hears h]
    rcases RecvTracker.report op last (st.trackerFor source) with
      ⟨e | ⟨base, bitmap, _ | _⟩, t₁⟩
    · simp [ReaderState.react]
    · simp [ReaderState.react]
    · simp only [ReaderState.react, Bool.not_true, Bool.false_eq_true, if_false,
        List.mem_singleton, Effect.send.injEq, h, true_and, Prod.mk.injEq, Except.ok.injEq,
        and_true]
      constructor
      · rintro ⟨hmsg, haddr⟩
        exact ⟨haddr, base, bitmap, t₁, ⟨⟨rfl, rfl⟩, rfl⟩, hmsg⟩
      · rintro ⟨haddr, _, _, _, ⟨⟨rfl, rfl⟩, rfl⟩, hmsg⟩
        exact ⟨hmsg, haddr⟩
  · rw [ReaderState.contact_of_not_hears h]
    simp [h]

lemma acknackMessage_injective {header : Header} {an an' : AckNack}
    (h : ReaderState.acknackMessage header an = ReaderState.acknackMessage header an') :
    an = an' := by
  have hbody : ∀ an : AckNack, submessages ((ReaderState.acknackMessage header an).drop 20) =
      [⟨submsgAcknack, flagEndianness, acknackBody an⟩] :=
    fun an => submessages_message (by simp) (by simp)
  have heq := hbody an
  rw [h, hbody an'] at heq
  simp only [List.cons.injEq, RawSubmessage.mk.injEq, true_and, and_true] at heq
  have hdecode := decodeAcknackSubmessage_acknackBody an
  rw [← heq, decodeAcknackSubmessage_acknackBody] at hdecode
  exact (Except.ok.inj hdecode).symm

/-- **A HEARTBEAT** anchors every tracker that has had no contact. -/
lemma handleHeartbeat_step {hb : Heartbeat} (h : q.Follows source last)
    (hbound : last < 2 ^ 64 - 64) (hfirst : hb.firstSn.toU64 ≤ last)
    (hlast : hb.lastSn.toU64 ≤ last) :
    (handleHeartbeat source hb src q).panic = none ∧
      TracksTo source (fun t t' => t'.Within last ∧
        t'.inner.val = t.inner.val.initExpected hb.firstSn.toU64) q
          (handleHeartbeat source hb src q).state := by
  have hpanic : (handleHeartbeat source hb src q).panic = none := by
    refine Table.panic_visit.mpr fun r st hst => ReaderState.panic_contact.mpr fun hhears => ?_
    obtain ⟨x, t', heq, -⟩ := (h r _ ⟨st, hst, hhears, rfl⟩).heartbeat hbound hfirst hlast
    exact ⟨x, congrArg Prod.fst heq⟩
  refine ⟨hpanic, (tracksTo_contact hpanic).imp fun r t t' ht hinner => ?_⟩
  obtain ⟨x, t₁, heq, -, hwithin, hval⟩ := (h r t ht).heartbeat hbound hfirst hlast
  rw [heq] at hinner
  exact ⟨hwithin.of_inner_eq hinner, by rw [hinner, hval]⟩

/-- **The ACKNACK** of a reader: its window, and the one answer it gives. -/
lemma exists_acknack {hb : Heartbeat} (h : q.Follows source last) (hbound : last < 2 ^ 64 - 64)
    (hfirst : hb.firstSn.toU64 ≤ last) (hlast : hb.lastSn.toU64 ≤ last)
    (ht : q.Tracks source r t) {base : ℕ} {bitmap : UInt32}
    (hmissing : RecvTrackerInner.missing hb.lastSn.toU64
      (t.inner.val.initExpected hb.firstSn.toU64) = .ok (base, bitmap, true)) :
    ∃ count, ∀ an : AckNack, an.readerEntityId = r →
      (.send (ReaderState.acknackMessage q.header an) src ∈
          (handleHeartbeat source hb src q).out ↔
        an = ⟨r, source.entity, .fromU64 base, bitmap, count⟩) := by
  have hpanic : (handleHeartbeat source hb src q).panic = none :=
    (handleHeartbeat_step h hbound hfirst hlast).1
  obtain ⟨x, t₁, hreport, hx, -⟩ := (h r t ht).heartbeat hbound hfirst hlast
  rw [hmissing, Except.ok.injEq] at hx
  subst hx
  obtain ⟨st, hst, hhears, rfl⟩ := ht
  refine ⟨t₁.nextAckCount.1, fun an hreader => ⟨fun hsend => ?_, ?_⟩⟩
  · obtain ⟨r', st', hst', hmem⟩ := Table.mem_out_visit hsend
    obtain ⟨-, -, base', bitmap', t', hreport', hmsg⟩ := send_mem_contact.mp hmem
    have han := acknackMessage_injective hmsg
    obtain rfl : r' = r := by rw [← hreader, han]
    rw [hst, Option.some.injEq] at hst'
    subst hst'
    rw [hreport, Prod.mk.injEq, Except.ok.injEq, Prod.mk.injEq, Prod.mk.injEq] at hreport'
    obtain ⟨⟨rfl, rfl, -⟩, rfl⟩ := hreport'
    exact han
  · rintro rfl
    refine Table.mem_out_visit_of_lookup hpanic hst (send_mem_contact.mpr ⟨hhears, rfl, ?_⟩)
    exact ⟨base, bitmap, t₁, hreport, rfl⟩

/-! ### The answer -/

/-- Everything asked for that is retained is sent to every matched reader, and nothing else. -/
lemma send_mem_handleAcknack {p : RtpsParticipant} {an : AckNack} {st : WriterState}
    {history : SendHistory} {m : ℕ → Bytes} {msg : Bytes} {dst : SocketAddr}
    (hst : p.writers.lookup an.writerEntityId = some st) (hreliable : st.reliable = true)
    (hhistory : st.history = some history) (hholds : history.Holds 1 last m)
    (hbase : history.lowest ≤ an.base.toU64) (hbound : an.base.toU64 + 31 < 2 ^ 64) :
    .send msg dst ∈ (handleAcknack an src p).out ↔ dst ∈ p.matchedAddrs st.topic ∧
      ∃ s, an.Requests an.writerEntityId s ∧ history.get s = some msg := by
  have hgap : answerGap an history = none := by
    rw [answerGap, hholds.firstLast_eq, ← hholds.lowest_eq]
    exact if_neg (not_lt.mpr hbase)
  rw [handleAcknack_eq_answer hst hreliable hhistory hbound, hgap]
  simp only [Option.toList_none, List.flatMap_nil, List.append_nil, List.mem_flatMap, mem_resends]
  constructor
  · rintro ⟨bit, hbit, msg', dst', hget, hdst, heq⟩
    cases heq
    exact ⟨hdst, _, ⟨rfl, bit, hbit, rfl⟩, hget⟩
  · rintro ⟨hdst, _, ⟨-, bit, hbit, rfl⟩, hget⟩
    exact ⟨bit, hbit, msg, dst, hget, hdst, rfl⟩

/-! ### The round -/

/-- The reliable writer `eid` has written `n` samples that fit one DATA each, the payload of
number `s` being `payload s`, and is matched with a reader at `dst`. -/
structure Serves (p : RtpsParticipant) (eid : EntityId) (n : ℕ) (payload : ℕ → Bytes)
    (history : SendHistory) (dst : SocketAddr) : Prop where
  writer : ∃ st, p.writers.lookup eid = some st ∧ st.reliable = true ∧
    st.history = some history ∧ dst ∈ p.matchedAddrs st.topic
  built : ∃ hbCount, history = { SendHistory.new.storeFrom 1
    ((List.range' 1 n).map fun s => dataMessage p.header eid s (payload s)) with hbCount }
  fits : ∀ s, FitsData (payload s)

/-- The datagrams carry the messages sent to `dst`, in any order. -/
def Relays (dst : SocketAddr) (out : List Effect) (ds : List Datagram) : Prop :=
  ∀ msg, (∃ d ∈ ds, d.data = msg) ↔ .send msg dst ∈ out

lemma Serves.holds {p : RtpsParticipant} {eid : EntityId} {n first last : ℕ}
    {payload : ℕ → Bytes} {history : SendHistory} {dst : SocketAddr}
    (h : p.Serves eid n payload history dst) (hfl : history.firstLast = some (first, last)) :
    history.Holds 1 last (fun s => dataMessage p.header eid s (payload s)) ∧
      history.lowest = first ∧ 1 ≤ first := by
  obtain ⟨hbCount, rfl⟩ := h.built
  cases n with
  | zero => cases hfl
  | succ n =>
    have hholds := @SendHistory.holds_storeFrom 1 n
      (fun s => dataMessage p.header eid s (payload s))
    have heq := hholds.firstLast_eq.symm.trans hfl
    rw [Option.some.injEq, Prod.mk.injEq] at heq
    obtain ⟨hfirst, hlast⟩ := heq
    subst hlast
    refine ⟨⟨hholds.any_eq, hholds.highest_eq, hholds.lowest_eq, hholds.slot⟩, ?_, ?_⟩
    · exact hholds.lowest_eq.trans hfirst
    · omega

/-- What the answer to the window at the watermark of `t` brings to the reader. -/
lemma tracks_answer {p : RtpsParticipant} {eid : EntityId} {n first : ℕ} {payload : ℕ → Bytes}
    {history : SendHistory} {dst : SocketAddr} {an : AckNack} {dAck : Datagram}
    {ds : List Datagram} (hserves : p.Serves eid n payload history dst)
    (hfl : history.firstLast = some (first, last)) (hbound : last < 2 ^ 64 - 64)
    (hforeign : p.guidPrefix ≠ q.guidPrefix) (hfollows : q.Follows ⟨p.guidPrefix, eid⟩ last)
    (ht : q.Tracks ⟨p.guidPrefix, eid⟩ r t) (hdone : t.inner.val.initDone = true)
    (hfirst : first ≤ t.inner.val.expected) (hlast : t.inner.val.expected ≤ last)
    (hrequests : ∀ s, an.Requests eid s ↔ t.inner.val.expected ≤ s ∧
      s ≤ min last (t.inner.val.expected + 31) ∧ ¬ t.inner.val.Has s)
    (hwriter : an.writerEntityId = eid) (hbase : an.base.toU64 = t.inner.val.expected)
    (hack : handleDataPacket dAck p = handleAcknack an dAck.src p)
    (hrelays : Relays dst (handleDataPacket dAck p).out ds) :
    ∃ t', (receiveAll ds q).state.Tracks ⟨p.guidPrefix, eid⟩ r t' ∧ t'.Within last ∧
      t'.inner.val.initDone = true ∧
        min last (t.inner.val.expected + 31) < t'.inner.val.expected := by
  obtain ⟨st, hst, hreliable, hhistory, hdst⟩ := hserves.writer
  obtain ⟨hholds, hlowest, hpos⟩ := hserves.holds hfl
  subst hwriter
  have hout : ∀ msg, .send msg dst ∈ (handleDataPacket dAck p).out ↔
      ∃ s, an.Requests an.writerEntityId s ∧ history.get s = some msg := by
    intro msg
    rw [hack, send_mem_handleAcknack hst hreliable hhistory hholds
      (by rw [hlowest, hbase]; exact hfirst) (by omega)]
    exact and_iff_right hdst
  -- each number that is asked for is retained under its own message
  have hget : ∀ s, an.Requests an.writerEntityId s → s ≤ last ∧
      history.get s = some (dataMessage p.header an.writerEntityId s (payload s)) := by
    intro s hs
    obtain ⟨hge, hle, -⟩ := (hrequests s).mp hs
    have hslast : s ≤ last := hle.trans (min_le_left _ _)
    exact ⟨hslast, hholds.get_eq (by omega) hslast⟩
  have hds : ∀ d ∈ ds, ∃ s ≤ last, ∃ payload, FitsData payload ∧
      d.data = dataMessage p.header an.writerEntityId s payload := by
    intro d hd
    obtain ⟨s, hs, hmsg⟩ := (hout _).mp ((hrelays _).mp ⟨d, hd, rfl⟩)
    obtain ⟨hslast, hown⟩ := hget s hs
    rw [hown, Option.some.injEq] at hmsg
    exact ⟨s, hslast, payload s, hserves.fits s, hmsg.symm⟩
  obtain ⟨t', ht', hwithin, hdone', hkeeps, htakes⟩ :=
    tracks_receiveAll hbound hds hforeign hfollows ht hdone
  refine ⟨t', ht', hwithin, hdone', ?_⟩
  have hall : ∀ s < min last (t.inner.val.expected + 31) + 1, t'.inner.val.Has s := by
    intro s hs
    by_cases hold : t.inner.val.Has s
    · exact hkeeps s hold
    have hge : t.inner.val.expected ≤ s := not_lt.mp fun hlt => hold (.inl hlt)
    have hreq : an.Requests an.writerEntityId s :=
      (hrequests s).mpr ⟨hge, Nat.le_of_lt_succ hs, hold⟩
    obtain ⟨hslast, hown⟩ := hget s hreq
    obtain ⟨d, hd, hmsg⟩ := (hrelays _).mpr ((hout _).mpr ⟨s, hreq, hown⟩)
    refine htakes d hd s hslast (payload s) (hserves.fits s) hmsg ?_
    rw [maxReorderAhead]
    omega
  exact hwithin.wf.le_expected_of_forall_has hall

/-- The numbers an ACKNACK with the bits of a window asks for. -/
lemma requests_window {eid r : EntityId} {u : RecvTrackerInner} {bitmap : UInt32} {count : Int32}
    (hbound : last < 2 ^ 64 - 64) (hexpected : u.expected ≤ last)
    (hbits : ∀ bit < 32, Bitmap.test bitmap bit = true ↔ u.expected + bit ≤ last ∧
      ¬ u.Has (u.expected + bit)) (s : ℕ) :
    AckNack.Requests ⟨r, eid, .fromU64 u.expected, bitmap, count⟩ eid s ↔
      u.expected ≤ s ∧ s ≤ min last (u.expected + 31) ∧ ¬ u.Has s := by
  have hbase : (SequenceNumber.fromU64 u.expected).toU64 = u.expected :=
    SequenceNumber.toU64_fromU64 (by omega)
  rw [AckNack.Requests, hbase]
  simp only [true_and, Bitmap.mem_members]
  constructor
  · rintro ⟨bit, ⟨hlt, htest⟩, rfl⟩
    obtain ⟨hle, hnot⟩ := (hbits bit hlt).mp htest
    exact ⟨by omega, by omega, hnot⟩
  · rintro ⟨hge, hle, hnot⟩
    have hsum : u.expected + (s - u.expected) = s := by omega
    refine ⟨s - u.expected, ⟨by omega, ?_⟩, hsum⟩
    rw [hbits _ (by omega), hsum]
    exact ⟨by omega, hnot⟩

/-- A window beyond the one that was asked for repeats none of its numbers. -/
lemma requests_nothing_again {eid : EntityId} {an : AckNack} {top : ℕ}
    (hbound : last < 2 ^ 64 - 64) (hwithin : t.Within last)
    (hdone : t.inner.val.initDone = true) (hrequests : ∀ s, an.Requests eid s → s ≤ top)
    (hlt : top < t.inner.val.expected) :
    ∃ base bitmap need, (t.missing last).1 = .ok (base, bitmap, need) ∧
      ∀ bit ∈ Bitmap.members bitmap, ¬ an.Requests eid (base + bit) := by
  obtain ⟨⟨base, bitmap, need⟩, hmissing⟩ :=
    RecvTracker.Within.missing_isOk hbound hwithin.expected_le (le_refl last)
  obtain ⟨rfl, -, -⟩ := RecvTrackerInner.missing_spec hwithin.wf hdone hmissing
  refine ⟨t.inner.val.expected, bitmap, need, ?_, fun bit _ hreq => ?_⟩
  · rw [RecvTracker.missing, RecvTracker.enter_of_ok hwithin.unpoisoned
      (by rw [hmissing]; rfl)]
  · have := hrequests _ hreq
    omega

end RtpsParticipant

/-! ### The writer's side of the round -/

namespace RtpsParticipant

variable {p : RtpsParticipant} {eid : EntityId} {st : WriterState} {history : SendHistory}

/-- The writer `eid` is `st` with this history, but for the count of its HEARTBEATs. -/
def Retaining (eid : EntityId) (st : WriterState) (history : SendHistory) (p : RtpsParticipant) :
    Prop :=
  ∃ hbCount, p.writers.lookup eid = some { st with history := some { history with hbCount } }

lemma keeps_sendHeartbeat_retaining (eid' : EntityId) :
    Cmd.Keeps (Retaining eid st history) (fun _ => True) (sendHeartbeat eid') := by
  rintro p ⟨hbCount, hst⟩
  refine ⟨?_, fun _ _ => trivial⟩
  rw [sendHeartbeat]
  split
  · exact ⟨hbCount, hst⟩
  rename_i st' hst'
  split
  · exact ⟨hbCount, hst⟩
  rename_i history' hhistory'
  split
  · exact ⟨hbCount, hst⟩
  by_cases heid : eid = eid'
  · subst heid
    rw [hst, Option.some.injEq] at hst'
    subst hst'
    cases hhistory'
    refine ⟨hbCount + 1, ?_⟩
    dsimp only
    rw [Table.lookup_adjust_self, hst]
    rfl
  · exact ⟨hbCount, (Table.lookup_adjust_of_ne heid _ _).trans hst⟩

lemma keeps_dispatchToReaders_retaining {origin : Origin} {source : Guid} {topic : Option String}
    {payload : Bytes} {utc : ℤ} {seq : ℕ} :
    Cmd.Keeps (Retaining eid st history) (fun _ => True)
      (dispatchToReaders origin source topic payload utc seq) := by
  rintro p ⟨hbCount, hst⟩
  refine ⟨⟨hbCount, ?_⟩, fun _ _ => trivial⟩
  obtain ⟨_, _, _, _, heq⟩ := readersOnly_dispatchToReaders (p := p) origin
  rw [heq]
  exact hst

/-- What publishing a sample leaves of its writer. -/
lemma retaining_publish {w : RtpsWriter} {utc : ℤ} {reliable : Bool} {seq : ℕ}
    {payload msg : Bytes} (hst : p.writers.lookup w.eid = some st)
    (hhistory : st.history = some history) :
    Retaining w.eid st (history.store seq msg)
      (w.publish utc reliable seq payload [msg] p).state := by
  rw [RtpsWriter.publish, Cmd.andThen_of_none rfl]
  have hheartbeat : Cmd.Keeps (Retaining w.eid st (history.store seq msg)) (fun _ => True)
      (if reliable then sendHeartbeat w.eid else Cmd.skip) := by
    split
    · exact keeps_sendHeartbeat_retaining w.eid
    · exact Cmd.keeps_skip
  refine (((Cmd.keeps_emit fun _ _ => trivial).andThen
    (keeps_dispatchToReaders_retaining.andThen ((Cmd.keeps_emit fun _ _ => trivial).andThen
      hheartbeat))) _ ⟨(history.store seq msg).hbCount, ?_⟩).1
  dsimp only [Cmd.modify_apply]
  rw [Table.lookup_adjust_self, hst]
  simp [hhistory]

/-- **A write** of a sample that fits one DATA has its message join the history. -/
lemma retaining_write {w : RtpsWriter} {utc : ℤ} {payload : Bytes}
    (hst : p.writers.lookup w.eid = some st) (hhistory : st.history = some history)
    (hseq : st.seq + 1 < 2 ^ 64) (hfits : FitsData payload) :
    Retaining w.eid { st with seq := st.seq + 1 }
      (history.store (st.seq + 1) (dataMessage p.header w.eid (st.seq + 1) payload))
      (w.write utc payload p).state := by
  have hwrap : wrappingAdd 64 st.seq 1 = st.seq + 1 := Nat.mod_eq_of_lt hseq
  simp only [RtpsWriter.write, hst, checkedAdd_of_lt hseq, wireMessages_of_fits hfits, hwrap]
  refine retaining_publish ?_ hhistory
  show (p.writers.adjust w.eid _).lookup w.eid = _
  rw [Table.lookup_adjust_self, hst]
  rfl

end RtpsParticipant

/-! ### A round of two samples -/

namespace RtpsUdpParticipant

open RtpsParticipant

/-- The participant of a matched writer that has not written. -/
def senderOfNone : RtpsParticipant := (after (.numbered 2) ((matchedWriter []).take 2)).inner

/-- The payloads of two samples. -/
def samplesOfTwo (s : ℕ) : Bytes := if s = 1 then [7] else [8]

/-- The writer writes one of them. -/
def writeOfTwo (s : ℕ) : Cmd RtpsParticipant Effect Panic :=
  RtpsWriter.write ⟨entityIdForWriter 1, "a"⟩ 0 (samplesOfTwo s)

/-- The participant of the writer after both. -/
def senderOfTwo : RtpsParticipant := (writeOfTwo 2 (writeOfTwo 1 senderOfNone).state).state

/-- The participant of a reader that has the first of them. -/
def receiverOfOne : RtpsParticipant :=
  (handleDataPacket ⟨0, 0, dataMessage senderOfTwo.header (entityIdForWriter 1) 1 [7],
    receiverAddr⟩ receiver).state

/-- The HEARTBEAT of the writer. -/
def heartbeatOfTwo : Heartbeat :=
  ⟨entityIdUnknown, entityIdForWriter 1, .fromU64 1, .fromU64 2, 3⟩

/-- The one reader has the tracker that the one sample leads to. -/
lemma heardUpTo_receiverOfOne {r : EntityId} {t : RecvTracker}
    (h : receiverOfOne.Tracks ⟨senderOfTwo.guidPrefix, entityIdForWriter 1⟩ r t) :
    t.HeardUpTo 2 := by
  have hall : ∀ e ∈ receiverOfOne.readers.entries,
      e.2.trackerFor ⟨senderOfTwo.guidPrefix, entityIdForWriter 1⟩ =
        (RecvTracker.report (fun t => t.noteReceived 1) 1 .new).2 := by decide +kernel
  obtain ⟨st, hst, -, rfl⟩ := h
  rw [hall ⟨r, st⟩ (Table.mem_entries_iff.mpr hst)]
  exact .sample .new (by decide)

lemma header_writeOfTwo (s : ℕ) (p : RtpsParticipant) :
    (writeOfTwo s p).state.header = p.header := by
  have hsteady : Steady p (writeOfTwo s p).state := steady_write ..
  rw [header, header, hsteady.guidPrefix_eq, hsteady.vendorId_eq]

lemma serves_senderOfTwo : ∃ history, senderOfTwo.Serves (entityIdForWriter 1) 2 samplesOfTwo
    history receiverAddr ∧ history.firstLast = some (1, 2) := by
  have hnone : senderOfNone.writers.lookup (entityIdForWriter 1) = some (.new "a" true) := rfl
  obtain ⟨hbCount₁, hst₁⟩ : Retaining _ _ _ (writeOfTwo 1 senderOfNone).state :=
    retaining_write hnone rfl (by decide) (by decide)
  have hseq : 2 < 2 ^ 64 := by decide
  obtain ⟨hbCount₂, hst₂⟩ : Retaining _ _ _ senderOfTwo :=
    retaining_write hst₁ rfl hseq (by decide)
  have hmatched : receiverAddr ∈ senderOfTwo.matchedAddrs "a" := by decide +kernel
  have hheader : senderOfTwo.header = (writeOfTwo 1 senderOfNone).state.header :=
    header_writeOfTwo ..
  refine ⟨_, ⟨⟨_, hst₂, rfl, rfl, hmatched⟩, ⟨hbCount₂, ?_⟩, ?_⟩, ?_⟩
  · rw [hheader, header_writeOfTwo]
    rfl
  · intro s
    by_cases hs : s = 1 <;> simp [samplesOfTwo, hs, FitsData, maxFragmentPayload]
  · rfl

end RtpsUdpParticipant

end RustDds
