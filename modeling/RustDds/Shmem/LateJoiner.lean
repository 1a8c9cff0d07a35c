import RustDds.Shmem.Watermark

/-!
# Who joins late

What a new subscriber gets of the writes before it, and of those after.  A TransientLocal one is
served twice: by the broker of its process, which has the last sample of this process, and by the
first look of the poller, which finds the last write of all and delivers that if it is another
process's.  The two are one sample only if the last write is of this process, or if this process
has never written (`pushed_joined_eq_iff`).

A Volatile one gets nothing from before (`nothingOld`), and misses what the poller has found with
a number no higher than one it has read (`nothingMissed_iff`).
-/

namespace RustDds

open Run

/-- Not the creation of a Volatile publisher. -/
def CrossEvent.TransientLocal : CrossEvent → Prop
  | .newPublisher _ _ transientLocal => transientLocal = true
  | _ => True

namespace Crossing

variable {selfOrigin : UInt64} {topic : String} {s : Crossing}

/-- The writes of the subscriber's process. -/
def ownWrites (selfOrigin : UInt64) (s : Crossing) : List ℕ :=
  (List.range s.writes.length).filter fun i => s.IsOwn selfOrigin i

lemma IsOwn.lt {i : ℕ} (h : s.IsOwn selfOrigin i) : i < s.writes.length := by
  obtain ⟨w, hw, -⟩ := h
  exact (List.getElem?_eq_some_iff.1 hw).1

@[simp]
lemma mem_ownWrites {i : ℕ} : i ∈ s.ownWrites selfOrigin ↔ s.IsOwn selfOrigin i := by
  simp only [ownWrites, List.mem_filter, List.mem_range, decide_eq_true_eq, and_iff_right_iff_imp]
  exact IsOwn.lt

/-- One write more does not change whose the others are. -/
lemma isOwn_of_writes {s' : Crossing} {w : WriteCall} (h : s'.writes = s.writes ++ [w]) {i : ℕ}
    (hi : i < s.writes.length) : s'.IsOwn selfOrigin i ↔ s.IsOwn selfOrigin i := by
  rw [IsOwn, IsOwn, h, List.getElem?_append_left hi]

lemma isOwn_last {s' : Crossing} {w : WriteCall} (h : s'.writes = s.writes ++ [w]) :
    s'.IsOwn selfOrigin s.writes.length ↔ w.originId = selfOrigin := by
  simp [IsOwn, h]

lemma ownWrites_concat {s' : Crossing} {w : WriteCall} (h : s'.writes = s.writes ++ [w]) :
    s'.ownWrites selfOrigin =
      s.ownWrites selfOrigin ++ if w.originId = selfOrigin then [s.writes.length] else [] := by
  have hlen : s'.writes.length = s.writes.length + 1 := by simp [h]
  have hold : (List.range s.writes.length).filter (fun i => s'.IsOwn selfOrigin i) =
      (List.range s.writes.length).filter fun i => s.IsOwn selfOrigin i := by
    refine List.filter_congr fun i hi => ?_
    simp only [isOwn_of_writes h (List.mem_range.1 hi)]
  rw [ownWrites, hlen, List.range_succ, List.filter_append, hold, ownWrites]
  by_cases hw : w.originId = selfOrigin <;> simp [List.filter, isOwn_last h, hw]

/-! ## What the broker has cached -/

/-- What a run with TransientLocal publishers alone keeps. -/
structure Cached (selfOrigin : UInt64) (s : Crossing) : Prop where
  publishers : ∀ pub ∈ s.publishers, pub.transientLocal = true
  lastSample : s.lastSample = (s.ownWrites selfOrigin).getLast?

lemma transientLocal_counted {publisher : ℕ}
    (h : ∀ pub ∈ s.publishers, pub.transientLocal = true) :
    ∀ pub ∈ s.counted publisher, pub.transientLocal = true := by
  intro pub hpub
  obtain ⟨k, hk⟩ := List.mem_iff_getElem?.1 hpub
  rw [counted, List.getElem?_modify] at hk
  obtain ⟨pub', hpub', rfl⟩ := Option.map_eq_some_iff.1 hk
  split <;> exact h pub' (List.mem_of_getElem? hpub')

lemma Cached.step (h : Cached selfOrigin s) {event : CrossEvent} (hevent : event.TransientLocal) :
    Cached selfOrigin (s.step selfOrigin topic event) := by
  cases event with
  | newPublisher originId writerGuid transientLocal =>
    refine ⟨fun pub hpub => ?_, h.lastSample⟩
    rcases List.mem_append.1 hpub with hpub | hpub
    · exact h.publishers pub hpub
    · obtain rfl := List.mem_singleton.1 hpub
      exact hevent
  | write publisher payload now =>
    rw [Crossing.step]
    rcases write_cases selfOrigin topic s publisher payload now with
      ⟨publishers, hpubs, heq⟩ | ⟨pub, hpub, -, heq⟩
    · rw [heq]
      refine ⟨?_, h.lastSample⟩
      rcases hpubs with rfl | rfl
      · exact h.publishers
      · exact transientLocal_counted h.publishers
    · rw [heq]
      refine ⟨transientLocal_counted h.publishers, ?_⟩
      rw [ownWrites_concat rfl, h.publishers pub hpub, h.lastSample]
      by_cases hself : pub.originId = selfOrigin <;> simp [hself]
  | land i =>
    rw [Crossing.step]
    split
    · exact ⟨h.publishers, h.lastSample⟩
    · exact h
  | subscribe transientLocal =>
    rw [Crossing.step]
    split
    · exact ⟨h.publishers, h.lastSample⟩
    · exact h
  | look => exact ⟨h.publishers, h.lastSample⟩

lemma cached_run (selfOrigin : UInt64) (topic : String) {events : List CrossEvent}
    (h : ∀ event ∈ events, event.TransientLocal) :
    Cached selfOrigin (run selfOrigin topic events) :=
  (each_of_forall fun event hevent _ => h event hevent).foldl
    (P := fun _ event => event.TransientLocal) (fun _ _ hs he => hs.step he)
    ⟨by simp [new], rfl⟩

/-! ## What the file gives back -/

/-- Every write is to the topic. -/
def Addressed (topic : String) (s : Crossing) : Prop :=
  ∀ w ∈ s.writes, w.sample.topic = topic

lemma Addressed.step (h : Addressed topic s) (event : CrossEvent) :
    Addressed topic (s.step selfOrigin topic event) := by
  cases event with
  | newPublisher => exact h
  | write publisher payload now =>
    rw [Crossing.step]
    rcases write_cases selfOrigin topic s publisher payload now with
      ⟨publishers, -, heq⟩ | ⟨pub, -, -, heq⟩
    · rw [heq]
      exact h
    · rw [heq]
      intro w hw
      rcases List.mem_append.1 hw with hw | hw
      · exact h w hw
      · rw [List.mem_singleton.1 hw]
  | land i =>
    rw [Crossing.step]
    split <;> exact h
  | subscribe transientLocal =>
    rw [Crossing.step]
    split <;> exact h
  | look => exact h

lemma addressed_run (selfOrigin : UInt64) (topic : String) (events : List CrossEvent) :
    Addressed topic (run selfOrigin topic events) :=
  (each_of_forall fun _ _ _ => trivial).foldl (P := fun _ _ => True)
    (fun _ event h _ => h.step event) (by simp [Addressed, new])

/-- **A write can be had from the file** exactly if its sample fits. -/
lemma content_eq_some_iff (hsound : Sound selfOrigin s) (htopic : Addressed topic s) {i : ℕ}
    {w : WriteCall} (hw : s.writes[i]? = some w) :
    (∃ d, s.content i = some d ∧ d.toSample topic = w.sample) ↔ w.sample.Fits := by
  have hmem := List.mem_of_getElem? hw
  have hfits := decodeSample_encodeSample w.originId w.sample (hsound.numbered w hmem).2
  have hcontent : s.content i = (decodeSample w.bytes).toOption := by simp [content, hw]
  rw [← hfits, hcontent, WriteCall.bytes]
  constructor
  · rintro ⟨d, hd, hsample⟩
    have horigin : d.originId = w.originId := by
      obtain ⟨w', hw', horigin, -⟩ := content_eq_some (hcontent.trans hd)
      rw [hw] at hw'
      rw [horigin, Option.some.inj hw']
    cases hdec : decodeSample (encodeSample w.originId w.sample) with
    | error e => simp [hdec, Except.toOption] at hd
    | ok d' =>
      rw [hdec] at hd
      obtain rfl : d' = d := by simpa [Except.toOption] using hd
      rw [← hsample, ← horigin]
      rfl
  · intro hok
    refine ⟨_, by rw [hok]; rfl, ?_⟩
    rw [Decoded.toSample, ← htopic w hmem]

/-! ## A TransientLocal subscriber -/

/-- The file has been read as it is: nothing is due. -/
lemma due_eq_none_of_seen {transientLocal : Bool} {pre : List Look} {e : Look} (he : e ∈ pre) :
    due selfOrigin transientLocal pre e.content = none := by
  cases hcontent : e.content with
  | none => rfl
  | some d =>
    by_cases horigin : d.originId = selfOrigin
    · simp [due, Option.filter, horigin]
    · exact due_eq_none he hcontent horigin

/-- What a look delivers, with the write it comes from. -/
def handed (topic : String) (s : Crossing) (delivered : Option Decoded) : List (ℕ × Sample) :=
  (s.landed.getLast?.toList.zip delivered.toList).map fun (i, d) => (i, d.toSample topic)

lemma pushed_look (hsound : Sound selfOrigin s) {l : Listener} (hl : s.listener = some l) :
    (s.look selfOrigin topic l).pushed = l.pushed ++ handed topic s
      (due selfOrigin l.transientLocal l.looks (s.landed.getLast?.bind s.content)) := by
  rw [handed, ← (hsound.watched l hl).poll_snd]
  · rfl
  · intro d hd
    obtain ⟨i, -, hi⟩ := Option.bind_eq_some_iff.1 hd
    exact hsound.seq_pos hi

/-- Looking again, at a file that stays as it is, delivers nothing. -/
lemma pushed_looks_again (hsound : Sound selfOrigin s) {l : Listener} (hl : s.listener = some l)
    {e : Look} (he : e ∈ l.looks) (hcontent : e.content = s.landed.getLast?.bind s.content)
    (n : ℕ) :
    ((List.replicate n .look).foldl (step selfOrigin topic) s).pushed = l.pushed := by
  induction n generalizing s l with
  | zero => simp [pushed, hl]
  | succ n ih =>
    have hstep : (s.step selfOrigin topic .look).listener = some (s.look selfOrigin topic l) := by
      simp [Crossing.step, hl]
    have hagain := ih (hsound.step .look) hstep (List.mem_append_left _ he) hcontent
    rw [List.replicate_succ, List.foldl_cons, hagain, pushed_look hsound hl, ← hcontent,
      due_eq_none_of_seen he]
    simp [handed]

/-- A TransientLocal subscriber, created now, whose poller has looked `n + 1` times since. -/
def joined (selfOrigin : UInt64) (topic : String) (s : Crossing) (n : ℕ) : Crossing :=
  (CrossEvent.subscribe true :: List.replicate (n + 1) .look).foldl (step selfOrigin topic) s

/-- **It gets what the broker has cached, and what its first look finds.** -/
lemma pushed_joined (hsound : Sound selfOrigin s) (hnone : s.listener = none) (n : ℕ) :
    (s.joined selfOrigin topic n).pushed =
      (s.lastSample.toList.filterMap fun i => s.writes[i]?.map fun w => (i, w.sample)) ++
        handed topic s (due selfOrigin true [] (s.landed.getLast?.bind s.content)) := by
  have hsubscribe : s.step selfOrigin topic (.subscribe true) = s.subscribe selfOrigin true :=
    if_pos hnone
  have hsound' : Sound selfOrigin (s.subscribe selfOrigin true) :=
    hsubscribe ▸ hsound.step (.subscribe true)
  have hlooked : Sound selfOrigin ((s.subscribe selfOrigin true).step selfOrigin topic .look) :=
    hsound'.step .look
  rw [joined, List.foldl_cons, hsubscribe, List.replicate_succ, List.foldl_cons,
    pushed_looks_again hlooked rfl (List.mem_append_right _ List.mem_cons_self) rfl n,
    pushed_look hsound' rfl]
  rfl

lemma isOwn_of_getLast? {i : ℕ} (h : (s.ownWrites selfOrigin).getLast? = some i) :
    s.IsOwn selfOrigin i ∧ ∀ j, i < j → ¬ s.IsOwn selfOrigin j := by
  have hsorted : (s.ownWrites selfOrigin).Pairwise (· < ·) :=
    List.Pairwise.filter _ List.pairwise_lt_range
  obtain ⟨init, hinit⟩ := List.getLast?_eq_some_iff.1 h
  refine ⟨mem_ownWrites.1 (by simp [hinit]), fun j hij hj => ?_⟩
  rw [← mem_ownWrites, hinit] at hj
  rw [hinit, List.pairwise_append] at hsorted
  rcases List.mem_append.1 hj with hj | hj
  · exact absurd (hsorted.2.2 j hj i (by simp)) (by omega)
  · exact absurd (List.mem_singleton.1 hj) (by omega)

/-- The last write of the subscriber's process. -/
lemma getLast?_ownWrites {i : ℕ} :
    (s.ownWrites selfOrigin).getLast? = some i ↔
      s.IsOwn selfOrigin i ∧ ∀ j, i < j → ¬ s.IsOwn selfOrigin j := by
  refine ⟨isOwn_of_getLast?, fun ⟨hi, hlast⟩ => ?_⟩
  cases hk : (s.ownWrites selfOrigin).getLast? with
  | none =>
    rw [List.getLast?_eq_none_iff] at hk
    exact absurd (mem_ownWrites.2 hi) (by simp [hk])
  | some k =>
    obtain ⟨hk, hafter⟩ := isOwn_of_getLast? hk
    have hle : i ≤ k := not_lt.1 fun hlt => hafter i hlt hi
    have hge : k ≤ i := not_lt.1 fun hlt => hlast k hlt hk
    rw [le_antisymm hle hge]

lemma getLast?_ownWrites_eq_none :
    (s.ownWrites selfOrigin).getLast? = none ↔ ∀ j, ¬ s.IsOwn selfOrigin j := by
  rw [List.getLast?_eq_none_iff, List.eq_nil_iff_forall_not_mem]
  simp only [mem_ownWrites]

/-- The last write is had from one place alone: from the broker, being the last of this process,
or from the file, this process having written nothing. -/
def OneSource (selfOrigin : UInt64) (s : Crossing) (i : ℕ) (w : WriteCall) : Prop :=
  (w.originId = selfOrigin ∧ ∀ j, i < j → ¬ s.IsOwn selfOrigin j) ∨
    (w.originId ≠ selfOrigin ∧ (∀ j, ¬ s.IsOwn selfOrigin j) ∧ w.sample.Fits)

/-- **When a TransientLocal subscriber gets the last write, and nothing else.** -/
lemma pushed_joined_eq_iff (hsound : Sound selfOrigin s) (htopic : Addressed topic s)
    (hcached : Cached selfOrigin s) (hnone : s.listener = none) {i : ℕ} {w : WriteCall}
    (hi : s.landed.getLast? = some i) (hw : s.writes[i]? = some w) (n : ℕ) :
    (s.joined selfOrigin topic n).pushed = [(i, w.sample)] ↔ s.OneSource selfOrigin i w := by
  rw [OneSource]
  have hown : s.IsOwn selfOrigin i ↔ w.originId = selfOrigin := by simp [IsOwn, hw]
  have horigin : ∀ d, s.content i = some d → d.originId = w.originId := by
    intro d hd
    obtain ⟨w', hw', horigin, -⟩ := content_eq_some hd
    rw [hw] at hw'
    rw [horigin, Option.some.inj hw']
  have hlast : ∀ k, (s.ownWrites selfOrigin).getLast? = some k →
      ∃ w', w'.originId = selfOrigin ∧ s.writes[k]? = some w' := by
    intro k hk
    obtain ⟨⟨w', hw', horigin'⟩, -⟩ := getLast?_ownWrites.1 hk
    exact ⟨w', horigin', hw'⟩
  rw [pushed_joined hsound hnone, hi, handed, hi, hcached.lastSample, Option.bind_some]
  by_cases hself : w.originId = selfOrigin
  · -- the first look finds a write of this process, and leaves it to the broker
    have hdue : due selfOrigin true [] (s.content i) = none := by
      rw [due, Option.filter_eq_none_iff]
      intro d hd hforeign
      simp [horigin d hd, hself] at hforeign
    have hiff : (∀ j, i < j → ¬ s.IsOwn selfOrigin j) ↔
        (s.ownWrites selfOrigin).getLast? = some i := by
      rw [getLast?_ownWrites]
      exact (and_iff_right (hown.2 hself)).symm
    simp only [hdue, hself, true_and, ne_eq, not_true_eq_false, false_and, or_false, hiff]
    cases hk : (s.ownWrites selfOrigin).getLast? with
    | none => exact absurd (hown.2 hself) (getLast?_ownWrites_eq_none.1 hk i)
    | some k =>
      obtain ⟨w', -, hw'⟩ := hlast k hk
      have hsample : k = i → w'.sample = w.sample := by
        rintro rfl
        rw [Option.some.inj (hw'.symm.trans hw)]
      simpa [hw'] using hsample
  · have hdue : due selfOrigin true [] (s.content i) = s.content i := by
      cases hd : s.content i with
      | none => rfl
      | some d => simp [due, Option.filter, horigin d hd, hself]
    simp only [hdue, hself, false_and, ne_eq, not_false_eq_true, true_and, false_or,
      ← getLast?_ownWrites_eq_none]
    cases hk : (s.ownWrites selfOrigin).getLast? with
    | some k =>
      -- the broker has an older sample
      obtain ⟨w', horigin', hw'⟩ := hlast k hk
      have hne : k ≠ i := by
        rintro rfl
        exact hself (Option.some.inj (hw.symm.trans hw') ▸ horigin')
      simp [hw', hne]
    | none =>
      rw [← content_eq_some_iff hsound htopic hw]
      cases hd : s.content i <;> simp

/-! ## A Volatile subscriber -/

/-- Where the samples that a subscriber was given come from. -/
structure Traced (selfOrigin : UInt64) (topic : String) (s : Crossing) (l : Listener) : Prop where
  old : ∀ i ∈ l.old, s.IsOwn selfOrigin i ∨ i ∈ s.landed
  /-- As long as the file is an old one, it is the one all looks found. -/
  current : ∀ i ∈ l.old, ¬ s.IsOwn selfOrigin i → s.landed.getLast? = some i →
    ∀ e ∈ l.looks, e.found = some i
  delivered : ∀ e ∈ l.looks, ∀ i d, e.found = some i → e.delivered = some d →
    (i, d.toSample topic) ∈ l.pushed
  pushed : l.transientLocal = false → ∀ i x, (i, x) ∈ l.pushed →
    (s.IsOwn selfOrigin i ∧ i ∉ l.old) ∨
      ∃ e ∈ l.looks, e.found = some i ∧ ∃ d, e.delivered = some d ∧ d.toSample topic = x
  stale : l.transientLocal = false → ∀ e ∈ l.looks, ∀ i, e.found = some i →
    e.delivered.isSome → i ∉ l.old

/-- What a run keeps of a subscriber. -/
structure Served (selfOrigin : UInt64) (topic : String) (s : Crossing) : Prop where
  sound : Sound selfOrigin s
  pending_nodup : s.pending.Nodup
  pending_landed : ∀ i ∈ s.pending, i ∉ s.landed
  traced : ∀ l, s.listener = some l → Traced selfOrigin topic s l

lemma Traced.lt (hsound : Sound selfOrigin s) {l : Listener} (h : Traced selfOrigin topic s l)
    {i : ℕ} (hi : i ∈ l.old) : i < s.writes.length :=
  (h.old i hi).elim IsOwn.lt (hsound.landed_lt i)

/-- One write more leaves what was traced, up to a push of its own. -/
lemma Traced.concat (hsound : Sound selfOrigin s) {l : Listener}
    (h : Traced selfOrigin topic s l) {s' : Crossing} {w : WriteCall}
    (hwrites : s'.writes = s.writes ++ [w]) (hlanded : s'.landed = s.landed) :
    Traced selfOrigin topic s' l := by
  have hown : ∀ i, i < s.writes.length → (s'.IsOwn selfOrigin i ↔ s.IsOwn selfOrigin i) :=
    fun i hi => isOwn_of_writes hwrites hi
  constructor
  · intro i hi
    rw [hown i (h.lt hsound hi), hlanded]
    exact h.old i hi
  · intro i hi
    rw [hown i (h.lt hsound hi), hlanded]
    exact h.current i hi
  · exact h.delivered
  · intro htl i x hix
    rcases h.pushed htl i x hix with ⟨hi, hold⟩ | hlook
    · exact Or.inl ⟨(hown i hi.lt).2 hi, hold⟩
    · exact Or.inr hlook
  · exact h.stale

/-- A push of the broker, after the subscriber was created. -/
lemma Traced.push {l : Listener} (h : Traced selfOrigin topic s l) {i : ℕ}
    (hi : s.IsOwn selfOrigin i) (hold : i ∉ l.old) (x : Sample) :
    Traced selfOrigin topic s (l.push i x) where
  old := h.old
  current := h.current
  delivered e he j d hfound hd := List.mem_append_left _ (h.delivered e he j d hfound hd)
  pushed htl j y hj := by
    rcases List.mem_append.1 hj with hj | hj
    · exact h.pushed htl j y hj
    · obtain ⟨rfl, -⟩ := Prod.mk.inj (List.mem_singleton.1 hj)
      exact Or.inl ⟨hi, hold⟩
  stale := h.stale

/-- A write that lands is not an old one of another process. -/
lemma Traced.land {l : Listener} (h : Traced selfOrigin topic s l) {i : ℕ}
    (hi : i ∉ s.landed) {s' : Crossing} (hwrites : s'.writes = s.writes)
    (hlanded : s'.landed = s.landed ++ [i]) : Traced selfOrigin topic s' l := by
  have hown : ∀ j, s'.IsOwn selfOrigin j ↔ s.IsOwn selfOrigin j := by simp [IsOwn, hwrites]
  constructor
  · intro j hj
    rw [hown, hlanded]
    exact (h.old j hj).imp_right (List.mem_append_left _)
  · intro j hj hforeign hlast
    rw [hlanded, List.getLast?_concat, Option.some.injEq] at hlast
    subst hlast
    rw [hown] at hforeign
    exact absurd ((h.old i hj).resolve_left hforeign) hi
  · exact h.delivered
  · simpa only [hown] using h.pushed
  · exact h.stale

/-- What a look finds in a file it has seen before is not delivered. -/
lemma delivered_eq_none_of_old (hsound : Sound selfOrigin s) {l : Listener}
    (hl : s.listener = some l) (h : Traced selfOrigin topic s l) (htl : l.transientLocal = false)
    {i : ℕ} (hi : s.landed.getLast? = some i) (hold : i ∈ l.old) :
    due selfOrigin l.transientLocal l.looks (s.content i) = none := by
  by_cases hown : s.IsOwn selfOrigin i
  · rw [due, Option.filter_eq_none_iff]
    intro d hd hforeign
    obtain ⟨w, hw, horigin, -⟩ := content_eq_some hd
    obtain ⟨w', hw', horigin'⟩ := hown
    rw [hw] at hw'
    simp [horigin, Option.some.inj hw', horigin'] at hforeign
  · cases hlooks : l.looks with
    | nil => simp [due, htl]
    | cons e looks =>
      have he : e ∈ l.looks := by simp [hlooks]
      have hfound := h.current i hold hown hi e he
      have hcontent : e.content = s.content i := by
        rw [(hsound.looks l hl e he).2, hfound]
        rfl
      rw [← hcontent, ← hlooks]
      exact due_eq_none_of_seen he

lemma Traced.look (hsound : Sound selfOrigin s) {l : Listener} (hl : s.listener = some l)
    (h : Traced selfOrigin topic s l) : Traced selfOrigin topic s (s.look selfOrigin topic l) := by
  have hdelivered : (l.poll selfOrigin (s.landed.getLast?.bind s.content)).2 =
      due selfOrigin l.transientLocal l.looks (s.landed.getLast?.bind s.content) :=
    (hsound.watched l hl).poll_snd fun d hd => by
      obtain ⟨i, -, hi⟩ := Option.bind_eq_some_iff.1 hd
      exact hsound.seq_pos hi
  constructor
  · exact h.old
  · intro i hi hforeign hlast e he
    rcases List.mem_append.1 he with he | he
    · exact h.current i hi hforeign hlast e he
    · rw [List.mem_singleton.1 he]
      exact hlast
  · intro e he i d hfound hd
    rcases List.mem_append.1 he with he | he
    · exact List.mem_append_left _ (h.delivered e he i d hfound hd)
    · rw [List.mem_singleton.1 he] at hfound hd
      refine List.mem_append_right _ (List.mem_map.2 ⟨(i, d), ?_, rfl⟩)
      simp only at hfound hd
      rw [hd, hfound]
      simp
  · intro htl i x hix
    rcases List.mem_append.1 hix with hix | hix
    · refine (h.pushed htl i x hix).imp_right ?_
      rintro ⟨e, he, hfrom⟩
      exact ⟨e, List.mem_append_left _ he, hfrom⟩
    · obtain ⟨⟨j, d⟩, hjd, heq⟩ := List.mem_map.1 hix
      obtain ⟨rfl, hsample⟩ := Prod.mk.inj heq
      obtain ⟨hj, hd⟩ := List.of_mem_zip hjd
      exact Or.inr ⟨_, List.mem_append_right _ List.mem_cons_self,
        Option.mem_toList.1 hj, d, Option.mem_toList.1 hd, hsample⟩
  · intro htl e he i hfound hsome hold
    rcases List.mem_append.1 he with he | he
    · exact h.stale htl e he i hfound hsome hold
    · rw [List.mem_singleton.1 he] at hfound hsome
      simp only at hfound hsome
      rw [hdelivered, hfound, Option.bind_some,
        delivered_eq_none_of_old hsound hl h htl hfound hold] at hsome
      simp at hsome

lemma Served.write (h : Served selfOrigin topic s) (publisher : ℕ) (payload : Bytes) (now : ℤ) :
    Served selfOrigin topic (s.write selfOrigin topic publisher payload now) := by
  have hsound : Sound selfOrigin (s.write selfOrigin topic publisher payload now) :=
    h.sound.write publisher payload now
  rcases write_cases selfOrigin topic s publisher payload now with
    ⟨publishers, -, heq⟩ | ⟨pub, -, -, heq⟩
  · rw [heq] at hsound ⊢
    refine ⟨hsound, h.pending_nodup, h.pending_landed, fun l hl => ?_⟩
    obtain ⟨hold, hcurrent, hdelivered, hpushed, hstale⟩ := h.traced l hl
    exact ⟨hold, hcurrent, hdelivered, hpushed, hstale⟩
  · rw [heq] at hsound ⊢
    refine ⟨hsound, ?_, ?_, ?_⟩
    · refine List.nodup_cons.2 ⟨fun hmem => ?_, h.pending_nodup⟩
      exact lt_irrefl _ (h.sound.pending_lt _ hmem)
    · intro i hi hlanded
      rcases List.mem_cons.1 hi with rfl | hi
      · exact lt_irrefl _ (h.sound.landed_lt _ hlanded)
      · exact h.pending_landed i hi hlanded
    · intro l' hl'
      by_cases hself : pub.originId = selfOrigin
      · simp only [if_pos hself] at hl'
        obtain ⟨l, hl, rfl⟩ := Option.map_eq_some_iff.1 hl'
        refine Traced.push ?_ ⟨_, List.getElem?_concat_length, hself⟩ (fun hold => ?_) _
        · exact (h.traced l hl).concat h.sound rfl rfl
        · exact lt_irrefl _ ((h.traced l hl).lt h.sound hold)
      · simp only [if_neg hself] at hl'
        exact (h.traced l' hl').concat h.sound rfl rfl

lemma Served.land (h : Served selfOrigin topic s) {i : ℕ} (hi : i ∈ s.pending) :
    Served selfOrigin topic
      { s with pending := s.pending.erase i, landed := s.landed ++ [i] } := by
  have hsound : Sound selfOrigin (s.step selfOrigin topic (.land i)) := h.sound.step (.land i)
  rw [Crossing.step, if_pos hi] at hsound
  refine ⟨hsound, h.pending_nodup.erase i, ?_, ?_⟩
  · intro j hj hlanded
    rw [h.pending_nodup.mem_erase_iff] at hj
    rcases List.mem_append.1 hlanded with hlanded | hlanded
    · exact h.pending_landed j hj.2 hlanded
    · exact hj.1 (List.mem_singleton.1 hlanded)
  · exact fun l hl => (h.traced l hl).land (h.pending_landed i hi) rfl rfl

lemma Served.subscribe (h : Served selfOrigin topic s) (hnone : s.listener = none)
    (transientLocal : Bool) :
    Served selfOrigin topic (s.subscribe selfOrigin transientLocal) := by
  have hsound : Sound selfOrigin (s.step selfOrigin topic (.subscribe transientLocal)) :=
    h.sound.step (.subscribe transientLocal)
  rw [Crossing.step, if_pos hnone] at hsound
  refine ⟨hsound, h.pending_nodup, h.pending_landed, ?_⟩
  rintro l ⟨⟩
  constructor
  · intro i hi
    rcases List.mem_append.1 hi with hi | hi
    · exact Or.inl (mem_ownWrites.1 hi)
    · exact Or.inr hi
  · rintro i - - - e he
    cases he
  · rintro e he
    cases he
  · rintro rfl i x hix
    cases hix
  · rintro - e he
    cases he

lemma Served.step (h : Served selfOrigin topic s) (event : CrossEvent) :
    Served selfOrigin topic (s.step selfOrigin topic event) := by
  cases event with
  | newPublisher originId writerGuid transientLocal =>
    refine ⟨h.sound.step _, h.pending_nodup, h.pending_landed, fun l hl => ?_⟩
    obtain ⟨hold, hcurrent, hdelivered, hpushed, hstale⟩ := h.traced l hl
    exact ⟨hold, hcurrent, hdelivered, hpushed, hstale⟩
  | write publisher payload now => exact h.write publisher payload now
  | land i =>
    rw [Crossing.step]
    split
    · next hi => exact h.land hi
    · exact h
  | subscribe transientLocal =>
    rw [Crossing.step]
    split
    · next hnone => exact h.subscribe hnone transientLocal
    · exact h
  | look =>
    refine ⟨h.sound.step _, h.pending_nodup, h.pending_landed, fun l' hl' => ?_⟩
    obtain ⟨l, hl, rfl⟩ := Option.map_eq_some_iff.1 hl'
    obtain ⟨hold, hcurrent, hdelivered, hpushed, hstale⟩ := (h.traced l hl).look h.sound hl
    exact ⟨hold, hcurrent, hdelivered, hpushed, hstale⟩

lemma served_run (selfOrigin : UInt64) (topic : String) (events : List CrossEvent) :
    Served selfOrigin topic (run selfOrigin topic events) :=
  (each_of_forall fun _ _ _ => trivial).foldl (P := fun _ _ => True)
    (fun _ event h _ => h.step event)
    ⟨sound_new, List.nodup_nil, by simp [new], by simp [new]⟩

/-- No sample pushed to it was written before it was created. -/
def NothingOld (l : Listener) : Prop := ∀ i x, (i, x) ∈ l.pushed → i ∉ l.old

/-- What a tick finds that another process has written since, it has been given. -/
def NothingMissed (selfOrigin : UInt64) (s : Crossing) (l : Listener) : Prop :=
  ∀ pre e post, l.looks = pre ++ e :: post → pre ≠ [] → ∀ i, e.found = some i →
    ¬ s.IsOwn selfOrigin i → i ∉ l.old → ∃ w, s.writes[i]? = some w ∧ (i, w.sample) ∈ l.pushed

/-- What a tick is the first to find, of what another process has written since, can be had from
the file and has a number above all those the poller has read. -/
def FindsAdvance (selfOrigin : UInt64) (s : Crossing) (l : Listener) : Prop :=
  ∀ pre e post, l.looks = pre ++ e :: post → pre ≠ [] → ∀ i, e.found = some i →
    ¬ s.IsOwn selfOrigin i → i ∉ l.old → (∀ e' ∈ pre.tail, e'.found ≠ some i) →
    ∃ w, s.writes[i]? = some w ∧ w.sample.Fits ∧
      ∀ n ∈ numbersRead selfOrigin pre, n < w.sample.sequenceNumber

lemma nothingOld {l : Listener} (h : Traced selfOrigin topic s l) (htl : l.transientLocal = false) :
    NothingOld l := by
  intro i x hix
  rcases h.pushed htl i x hix with ⟨-, hold⟩ | ⟨e, he, hfound, d, hd, -⟩
  · exact hold
  · exact h.stale htl e he i hfound (by simp [hd])

/-- A write found by another process's look is due exactly if its number is high enough. -/
lemma due_eq_some_iff {transientLocal : Bool} {pre : List Look} (hpre : pre ≠ []) {d : Decoded}
    (hforeign : d.originId ≠ selfOrigin) :
    due selfOrigin transientLocal pre (some d) = some d ↔
      ∀ n ∈ numbersRead selfOrigin pre, n < d.seq := by
  simp [due, hpre, hforeign]

lemma writes_of_found (h : Served selfOrigin topic s) {l : Listener} (hl : s.listener = some l)
    {e : Look} (he : e ∈ l.looks) {i : ℕ} (hi : e.found = some i) :
    ∃ w, s.writes[i]? = some w ∧ e.content = s.content i := by
  obtain ⟨hfound, hcontent⟩ := h.sound.looks l hl e he
  have hlt := h.sound.landed_lt i (hfound i hi)
  exact ⟨_, List.getElem?_eq_getElem hlt, by rw [hcontent, hi]; rfl⟩

/-- **When a Volatile subscriber misses nothing.** -/
lemma nothingMissed_iff (h : Served selfOrigin topic s) (htopic : Addressed topic s) {l : Listener}
    (hl : s.listener = some l) (htl : l.transientLocal = false) :
    NothingMissed selfOrigin s l ↔ FindsAdvance selfOrigin s l := by
  have hwatched := (h.sound.watched l hl).delivered
  have htraced := h.traced l hl
  constructor
  · intro hmissed pre e post hsplit hpre i hi hforeign hold hfirst
    obtain ⟨w, hw, hpushed⟩ := hmissed pre e post hsplit hpre i hi hforeign hold
    rcases htraced.pushed htl i _ hpushed with ⟨hown, -⟩ | ⟨e', he', hi', d, hd, hsample⟩
    · exact absurd hown hforeign
    obtain ⟨pre', post', hsplit'⟩ := List.append_of_mem he'
    have hcontent : e.content = s.content i :=
      (writes_of_found h hl (by simp [hsplit]) hi).choose_spec.2
    have hcontent' : e'.content = s.content i :=
      (writes_of_found h hl he' hi').choose_spec.2
    rw [hwatched pre' e' post' hsplit', hcontent'] at hd
    have hsome := (Option.filter_eq_some_iff.1 hd).1
    have horigin : d.originId ≠ selfOrigin := by
      have := (Option.filter_eq_some_iff.1 hd).2
      simp only [decide_eq_true_eq] at this
      exact this.1
    have hpre' : pre' ≠ [] := by
      rintro rfl
      simp [due, htl] at hd
    rcases split_cases (hsplit.symm.trans hsplit') with ⟨rfl, -⟩ | ⟨mid, rfl⟩ | ⟨mid, rfl⟩
    · -- the look that delivered it is this one
      refine ⟨w, hw, (content_eq_some_iff h.sound htopic hw).1 ⟨d, hsome, hsample⟩, ?_⟩
      rw [hsome, due_eq_some_iff hpre horigin] at hd
      rw [← hsample]
      exact hd
    · -- a later one would have found nothing new
      have hseen := @due_eq_none_of_seen selfOrigin l.transientLocal (pre ++ e :: mid) e (by simp)
      rw [hcontent, hd] at hseen
      simp at hseen
    · -- nor was it an earlier one
      refine absurd hi' (hfirst e' ?_)
      cases pre' with
      | nil => exact absurd rfl hpre'
      | cons seed pre' => simp
  · intro hadvance pre e post hsplit hpre i hi hforeign hold
    obtain ⟨seed, pre, rfl⟩ := List.exists_cons_of_ne_nil hpre
    -- the first tick that found it
    have hfind : ((pre ++ e :: post).find? fun e' => e'.found = some i).isSome := by
      simp [hi]
    obtain ⟨e₀, he₀⟩ := Option.isSome_iff_exists.1 hfind
    obtain ⟨hi₀, as, bs, hticks, has⟩ := List.find?_eq_some_iff_append.1 he₀
    have hi₀ : e₀.found = some i := by simpa using hi₀
    have hsplit₀ : l.looks = (seed :: as) ++ e₀ :: bs := by rw [hsplit]; simpa using hticks
    obtain ⟨w, hw, hfits, hnumbers⟩ := hadvance (seed :: as) e₀ bs hsplit₀ (by simp) i hi₀
      hforeign hold (by simpa using has)
    obtain ⟨d, hd, hsample⟩ := (content_eq_some_iff h.sound htopic hw).2 hfits
    have hmem₀ : e₀ ∈ l.looks := by simp [hsplit₀]
    have hcontent₀ := (writes_of_found h hl hmem₀ hi₀).choose_spec.2
    have horigin : d.originId ≠ selfOrigin := by
      obtain ⟨w', hw', horigin, -⟩ := content_eq_some hd
      exact fun hself => hforeign ⟨w', hw', by rw [← horigin, hself]⟩
    have hdelivered : e₀.delivered = some d := by
      rw [hwatched _ _ _ hsplit₀, hcontent₀, hd, due_eq_some_iff (by simp) horigin]
      rw [← hsample] at hnumbers
      exact hnumbers
    exact ⟨w, hw, hsample ▸ htraced.delivered e₀ hmem₀ i d hi₀ hdelivered⟩

/-! ## Both -/

/-- **What a late joiner gets**: a TransientLocal one the last write exactly if that comes from
one source, a Volatile one all later ones exactly if the numbers it finds advance. -/
theorem joiners_served_iff (selfOrigin : UInt64) (topic : String) (events : List CrossEvent) :
    ((∀ event ∈ events, event.TransientLocal) → (run selfOrigin topic events).listener = none →
        ∀ i w, (run selfOrigin topic events).landed.getLast? = some i →
          (run selfOrigin topic events).writes[i]? = some w →
          ((∀ n, ((run selfOrigin topic events).joined selfOrigin topic n).pushed =
              [(i, w.sample)]) ↔
            (run selfOrigin topic events).OneSource selfOrigin i w)) ∧
      ∀ l, (run selfOrigin topic events).listener = some l → l.transientLocal = false →
        ((NothingOld l ∧ NothingMissed selfOrigin (run selfOrigin topic events) l) ↔
          FindsAdvance selfOrigin (run selfOrigin topic events) l) := by
  have hserved := served_run selfOrigin topic events
  have htopic := addressed_run selfOrigin topic events
  constructor
  · intro htl hnone i w hi hw
    have hcached := cached_run selfOrigin topic htl
    rw [← pushed_joined_eq_iff hserved.sound htopic hcached hnone hi hw 0]
    refine ⟨fun h => h 0, fun h n => ?_⟩
    rw [pushed_joined_eq_iff hserved.sound htopic hcached hnone hi hw] at h ⊢
    exact h
  · intro l hl hvolatile
    rw [and_iff_right (nothingOld (hserved.traced l hl) hvolatile)]
    exact nothingMissed_iff hserved htopic hl hvolatile

/-- Process 2 has written once, and process 1 has not. -/
def foreignOnly : List CrossEvent :=
  [.newPublisher 2 (FixedBytes.zero 16) true, .write 0 [7] 0, .land 0]

/-- Process 1 then gets that sample, and nothing else. -/
theorem joiners_served_foreignOnly :
    ((run 1 "t" foreignOnly).joined 1 "t" 3).pushed =
      [(0, ⟨"t", [7], 0, 1, FixedBytes.zero 16⟩)] := by
  have htl : ∀ event ∈ foreignOnly, event.TransientLocal := by
    simp [foreignOnly, CrossEvent.TransientLocal]
  refine ((joiners_served_iff 1 "t" foreignOnly).1 htl (by decide) 0
    ⟨2, ⟨"t", [7], 0, 1, FixedBytes.zero 16⟩⟩ (by decide) (by decide)).2 ?_ 3
  refine Or.inr ⟨by decide, ?_, by decide⟩
  rintro j ⟨w, hw, horigin⟩
  have hwrites : (run 1 "t" foreignOnly).writes =
      [⟨2, ⟨"t", [7], 0, 1, FixedBytes.zero 16⟩⟩] := by decide
  rw [hwrites] at hw
  obtain rfl := List.mem_singleton.1 (List.mem_of_getElem? hw)
  exact absurd horigin (by decide)

/-- Process 1 has written, and process 2 after it. -/
def bothWrote : List CrossEvent :=
  [.newPublisher 1 (FixedBytes.zero 16) true, .write 0 [6] 0, .land 0,
    .newPublisher 2 (FixedBytes.zero 16) true, .write 1 [7] 0, .land 1]

/-- Process 2 writes between the creation of a subscriber and the first look of its poller. -/
def beforeSeed : List CrossEvent :=
  [.newPublisher 2 (FixedBytes.zero 16) true, .subscribe false, .write 0 [7] 0, .land 0, .look,
    .look]

/-- **The first subscriber gets an older sample too, and the second misses the only one.** -/
theorem not_joiners_served :
    ((run 1 "t" bothWrote).landed.getLast? = some 1 ∧
        ((run 1 "t" bothWrote).joined 1 "t" 0).pushed.map Prod.fst = [0, 1]) ∧
      ∃ l, (run 1 "t" beforeSeed).listener = some l ∧ l.transientLocal = false ∧
        ¬ NothingMissed 1 (run 1 "t" beforeSeed) l := by
  refine ⟨by decide +kernel, ?_⟩
  let d : Decoded := ⟨2, 1, 0, FixedBytes.zero 16, [7]⟩
  have hl : (run 1 "t" beforeSeed).listener =
      some ⟨false, [], 1, [⟨some 0, some d, none⟩, ⟨some 0, some d, none⟩], []⟩ := by
    decide +kernel
  refine ⟨_, hl, rfl, fun hmissed => ?_⟩
  have hforeign : ¬ (run 1 "t" beforeSeed).IsOwn 1 0 := by decide +kernel
  obtain ⟨w, -, hpushed⟩ := hmissed [⟨some 0, some d, none⟩] _ [] rfl (by simp) 0 rfl hforeign
    (by simp)
  cases hpushed

end Crossing

end RustDds
