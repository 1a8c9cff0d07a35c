import RustDds.Network.Discovery
import RustDds.Network.Integrity

/-!
# Endpoints find each other

A writer of `a` and a reader of `b` on one topic are matched once each participant knows of the
endpoint of the other and the reader accepts the writer.  They become so when the participants hear
of each other (`Network.matched_of_heard`), and remain so as long as `b` keeps the reader
(`Network.Matched.step`), whatever is received: SEDP forgets no reader, and no reader forgets a
writer.
-/

namespace RustDds

/-! ## What a reader accepts -/

namespace RtpsUdpParticipant

variable {p : RtpsUdpParticipant} {e : ParticipantEvent} {r : EntityId} {g : Guid}

/-- A reader that stays accepts the writers that it accepted. -/
lemma sources_step (hnumbered : p.Numbered) (hfresh : p.DrawsFresh e)
    (hreader : ((p.sedp.locals .reader).lookup r).isSome) (hne : e ≠ .unsubscribe r)
    (h : ∃ st, p.inner.readers.lookup r = some st ∧ g ∈ st.sources) :
    ∃ st, (p.step e).inner.readers.lookup r = some st ∧ g ∈ st.sources := by
  obtain ⟨st, hst, hmem⟩ := h
  have hold : p.profile r = some (st.topic, st.sources, st.reliable) :=
    profile_eq_some.mpr ⟨st, hst, rfl⟩
  have hback : (∃ topic sources reliable, (p.step e).profile r = some (topic, sources, reliable) ∧
      g ∈ sources) → ∃ st, (p.step e).inner.readers.lookup r = some st ∧ g ∈ st.sources := by
    rintro ⟨topic, sources, reliable, hprofile, hmem⟩
    obtain ⟨st', hst', heq⟩ := profile_eq_some.mp hprofile
    simp only [Prod.mk.injEq] at heq
    exact ⟨st', hst', heq.2.1 ▸ hmem⟩
  have hsame : (p.step e).profile = p.profile →
      ∃ st, (p.step e).inner.readers.lookup r = some st ∧ g ∈ st.sources :=
    fun heq => hback ⟨_, _, _, by rw [heq, hold], hmem⟩
  have heff := p.effects_step e
  cases e with
  | sedpPacket data src => exact hsame heff.2.1
  | takeMatch =>
    rcases heff with heq | ⟨m, ms, -, -, -, hprofile⟩
    · exact hsame (by rw [heq])
    · refine hback ?_
      rw [hprofile]
      by_cases hr : r = m.readerEid
      · subst hr
        rw [Function.update_self, hold]
        exact ⟨_, _, _, rfl, Finset.mem_union_left _ hmem⟩
      · rw [Function.update_of_ne hr, hold]
        exact ⟨_, _, _, rfl, hmem⟩
  | newSubscriber topic qos opts utc =>
    rcases heff with hunmoved | ⟨-, seqCounter, -, hprofile⟩
    · exact hsame hunmoved.profile_eq
    · refine hback ?_
      -- the id of the new reader is not in use
      have hr : r ≠ p.inner.nextReaderId := by
        rintro rfl
        have hnone := hnumbered.lookup_nextId (hfresh (by simp [ParticipantEvent.makes])) .reader
          .reader
        rw [show p.inner.nextReaderId = p.inner.nextId .reader from rfl, hnone] at hreader
        cases hreader
      rw [hprofile, Function.update_of_ne hr, hold]
      exact ⟨_, _, _, rfl, hmem⟩
  | unsubscribe eid =>
    have hr : r ≠ eid := fun heq => hne (heq ▸ rfl)
    refine hback ?_
    rw [heff.2.1, Function.update_of_ne hr, hold]
    exact ⟨_, _, _, rfl, hmem⟩
  | _ => exact hsame heff.profile_eq

end RtpsUdpParticipant

/-! ## Matched endpoints -/

namespace Network

variable {ι : Type*} {H : Hosts ι} {s : Network ι} {a b i j : ι} {e : ParticipantEvent}
  {w : RtpsWriter} {r : EntityId} {info : EndpointInfo}

/-- The reader `r` of `b`, as it is announced. -/
def readerInfo (H : Hosts ι) (b : ι) (w : RtpsWriter) (r : EntityId) : EndpointInfo :=
  ⟨⟨(H.host b).cfg.guidPrefix, r⟩, w.topic, false⟩

/-- The GUID of the writer of `a`. -/
def writerGuid (H : Hosts ι) (a : ι) (w : RtpsWriter) : Guid := ⟨(H.host a).cfg.guidPrefix, w.eid⟩

/-- The reader `r` of `b` has heard of the writer `w` of `a`, and `a` of the reader. -/
structure Matched (H : Hosts ι) (s : Network ι) (a b : ι) (w : RtpsWriter) (r : EntityId) :
    Prop where
  endpoint : readerInfo H b w r ∈ (s.node b).localEndpoints
  known : (H.host b).Known (s.node a).sedp (readerInfo H b w r)
  sources : ∃ st, (s.node b).inner.readers.lookup r = some st ∧ writerGuid H a w ∈ st.sources

lemma Matched.without (h : Matched H s a b w r) (k : ℕ) : Matched H (s.without k) a b w r :=
  ⟨h.endpoint, h.known, h.sources⟩

lemma Matched.accepts (h : Matched H s a b w r) :
    (s.node b).inner.Accepts r (writerGuid H a w) := by
  obtain ⟨st, hst, hmem⟩ := h.sources
  have hne : st.sources ≠ ∅ := Finset.ne_empty_of_mem hmem
  refine ⟨st, hst, ?_⟩
  rw [ReaderState.acceptsSource, if_neg hne]
  split
  · rfl
  · exact decide_eq_true hmem

variable [DecidableEq ι]

/-- **The step of a participant**, if `a` does not forget the reader. -/
lemma Matched.perform (h : Matched H s a b w r) (hann : Announcing H s b)
    (hfresh : i = b → (s.node b).DrawsFresh e) (hne : i = b → e ≠ .unsubscribe r)
    (hknown : i = a → (H.host b).Known ((s.node a).step e).sedp (readerInfo H b w r)) :
    Matched H (s.perform H i e) a b w r := by
  refine ⟨?_, ?_, ?_⟩
  · by_cases hb : i = b
    · subst hb
      rw [node_perform_self]
      exact hann.numbered.mem_localEndpoints_step (hfresh rfl) h.endpoint
    · rw [node_perform_of_ne (Ne.symm hb)]
      exact h.endpoint
  · by_cases ha : i = a
    · subst ha
      rw [node_perform_self]
      exact hknown rfl
    · rw [node_perform_of_ne (Ne.symm ha)]
      exact h.known
  · by_cases hb : i = b
    · subst hb
      rw [node_perform_self]
      refine RtpsUdpParticipant.sources_step hann.numbered (hfresh rfl) ?_ (hne rfl) h.sources
      obtain ⟨k, eid, hlookup⟩ := RtpsUdpParticipant.mem_localEndpoints.mp h.endpoint
      have hlocal := ((hann.honest.hosted i).locals k eid _ hlookup).2
      have hk : k ≠ .writer := by simpa [readerInfo] using congrArg EndpointInfo.isWriter hlocal
      have heid : r = eid := congrArg (fun info => info.guid.entity) hlocal
      cases k with
      | writer => exact absurd rfl hk
      | reader =>
        rw [heid, hlookup]
        rfl
    · rw [node_perform_of_ne (Ne.symm hb)]
      exact h.sources

lemma Matched.receiveMeta (h : Matched H s a b w r) (hann : Announcing H s b) {now : ℕ}
    {msg : Bytes} {src : SocketAddr} (htrue : H.Truthful (.spdpPacket now msg src))
    (hknown : ∀ q : SedpService, q.config = (H.host a).cfg.sedp →
      (H.host b).Known q (readerInfo H b w r) →
        (H.host b).Known (q.handlePacket msg src) (readerInfo H b w r)) :
    Matched H (s.receiveMeta H i now msg src) a b w r := by
  have hspdp : Matched H (s.perform H i (.spdpPacket now msg src)) a b w r :=
    h.perform hann (fun _ => .of_makes rfl) (fun _ => by simp) fun _ =>
      h.known.of_sameRemotes ((s.node a).sameRemotes_step (by simp))
  have hann' := hann.perform (i := i) htrue fun _ => .of_makes rfl
  exact hspdp.perform hann' (fun _ => .of_makes rfl) (fun _ => by simp) fun _ =>
    hknown _ (hann'.honest.hosted a).sedp_config hspdp.known

/-- **Matched endpoints stay matched**, as long as the reader stays. -/
lemma Matched.step (h : Matched H s a b w r) (hab : a ≠ b) (hann : Announcing H s b)
    {e : NetworkEvent ι} (hfresh : Fresh b s e) (hstays : e ≠ .act b (.unsubscribe r)) :
    Matched H (s.step H e) a b w r := by
  cases e with
  | act i e =>
    rw [Network.step]
    split
    · exact h
    rename_i hlocal
    refine h.perform hann hfresh (fun hi he => hstays ?_) fun _ =>
      h.known.of_sameRemotes ((s.node a).sameRemotes_step ?_)
    · rw [hi, he]
    · rintro data src rfl
      exact hlocal rfl
  | hear i j now seqNum direct =>
    have htrue := H.truthful_announcement now j seqNum
    rw [Network.step]
    split
    · refine h.receiveMeta hann htrue fun q _ hk => ?_
      rw [sedp_of_accepted_eq_nil (sedp_announcement ..)]
      exact hk
    · exact h.perform hann (fun _ => .of_makes rfl) (fun _ => by simp) fun _ =>
        h.known.of_sameRemotes ((s.node a).sameRemotes_step (by simp))
  | deliver k j now utc again =>
    refine deliver_rule (I := fun t => Matched H t a b w r) h (fun t k ht => ht.without k)
      (fun pkt hpkt _ => ?_) fun pkt hpkt _ => ?_
    · exact h.receiveMeta hann (.inr fun sp => hann.honest.spdp_wire hpkt sp now _)
        fun q hq hknown => hann.known_handlePacket (Ne.symm hab) hpkt hq h.endpoint hknown
    · exact h.perform hann (fun _ => .of_makes rfl) (fun _ => by simp) fun _ =>
        h.known.of_sameRemotes ((s.node a).sameRemotes_step (by simp))
  | lose k => exact h.without k

/-- `a` has heard of `b`, and no announcement from `a` to `b` has been lost since. -/
def Heard (H : Hosts ι) (a b : ι) (events : List (NetworkEvent ι)) : Prop :=
  ∃ before now seqNum direct after, events = before ++ .hear a b now seqNum direct :: after ∧
    Run.Each (step H) (Keeps H a b)
      (run H (start H) (before ++ [.hear a b now seqNum direct])) after

lemma Heard.covers {events : List (NetworkEvent ι)} (h : Heard H a b events) (hab : a ≠ b)
    (hcount : events.countP (makesAt a) < 2 ^ 24) : Covers H (run H (start H) events) a b := by
  obtain ⟨before, now, seqNum, direct, after, rfl, hkeeps⟩ := h
  exact covers_run hab hcount hkeeps

end Network

end RustDds
