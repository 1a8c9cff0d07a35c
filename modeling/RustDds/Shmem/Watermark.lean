import RustDds.Shmem.Crossing

/-!
# The one number the poller keeps

The poller keeps one number for the topic, while each publisher counts for itself.  That number
is the largest of those it has read: at its first look from whichever process, later from other
processes (`Watched.lastSeq`).  So what a look delivers is a matter of the numbers read before
(`due`), whoever wrote them, and a change of the file is delivered if and only if its number is
above all of these (`deliversChanges_iff`).
-/

namespace RustDds

open Run

/-- What tells one write from another: the process, the publisher and the number. -/
def Decoded.writer (d : Decoded) : UInt64 × FixedBytes 16 × ℕ := (d.originId, d.writerGuid, d.seq)

/-- The content of another process's write. -/
def Look.foreign (selfOrigin : UInt64) (e : Look) : Option Decoded :=
  e.content.filter fun d => d.originId ≠ selfOrigin

/-- The numbers the poller has read: at its first look from any process, later from others. -/
def numbersRead (selfOrigin : UInt64) : List Look → List ℕ
  | [] => []
  | seed :: ticks =>
    (seed.content.toList ++ ticks.filterMap (Look.foreign selfOrigin)).map Decoded.seq

/-- The content the poller observed last. -/
def observed (looks : List Look) : Option Decoded := (looks.filterMap Look.content).getLast?

/-- What the next look delivers. -/
def due (selfOrigin : UInt64) (transientLocal : Bool) (looks : List Look)
    (content : Option Decoded) : Option Decoded :=
  content.filter fun d => d.originId ≠ selfOrigin ∧
    if looks = [] then transientLocal = true else ∀ n ∈ numbersRead selfOrigin looks, n < d.seq

lemma numbersRead_concat {selfOrigin : UInt64} {looks : List Look} (h : looks ≠ []) (e : Look) :
    numbersRead selfOrigin (looks ++ [e]) =
      numbersRead selfOrigin looks ++ ((e.foreign selfOrigin).map Decoded.seq).toList := by
  cases looks with
  | nil => exact absurd rfl h
  | cons seed ticks =>
    cases hf : e.foreign selfOrigin <;> simp [numbersRead, List.filterMap_append, hf]

lemma mem_numbersRead_of_foreign {selfOrigin : UInt64} {looks : List Look} {e : Look} {d : Decoded}
    (he : e ∈ looks) (hd : e.foreign selfOrigin = some d) :
    d.seq ∈ numbersRead selfOrigin looks := by
  cases looks with
  | nil => simp at he
  | cons seed ticks =>
    simp only [numbersRead, List.map_append, List.mem_append, List.mem_map]
    rcases List.mem_cons.1 he with rfl | he
    · exact Or.inl ⟨d, by simpa using (Option.filter_eq_some_iff.1 hd).1, rfl⟩
    · exact Or.inr ⟨d, List.mem_filterMap.2 ⟨e, he, hd⟩, rfl⟩

/-! ## What a look does -/

/-- What the poller knows, in terms of its looks. -/
structure Watched (selfOrigin : UInt64) (l : Listener) : Prop where
  delivered : Log (fun pre e => e.delivered = due selfOrigin l.transientLocal pre e.content) l.looks
  lastSeq : ∀ m, l.lastSeq ≤ m ↔ ∀ n ∈ numbersRead selfOrigin l.looks, n ≤ m

/-- The number is below `k` if all it stands for are. -/
lemma Watched.lt_iff {selfOrigin : UInt64} {l : Listener} (h : Watched selfOrigin l) {k : ℕ}
    (hk : 0 < k) : l.lastSeq < k ↔ ∀ n ∈ numbersRead selfOrigin l.looks, n < k := by
  rw [Nat.lt_iff_le_pred hk, h.lastSeq]
  exact forall₂_congr fun n _ => (Nat.lt_iff_le_pred hk).symm

/-- What the poller delivers is what is due. -/
lemma Watched.poll_snd {selfOrigin : UInt64} {l : Listener} (h : Watched selfOrigin l)
    {content : Option Decoded} (hpos : ∀ d, content = some d → 0 < d.seq) :
    (l.poll selfOrigin content).2 = due selfOrigin l.transientLocal l.looks content := by
  rw [Listener.poll]
  cases content with
  | none => split <;> rfl
  | some d =>
    split
    · next hlooks => simp [seedPoller, due, Option.filter, hlooks]
    · next hlooks =>
      simp only [tickPoller, due, Option.filter, hlooks, if_false, ← h.lt_iff (hpos d rfl)]
      by_cases hself : d.originId = selfOrigin <;> by_cases hseq : d.seq ≤ l.lastSeq <;>
        simp [hself, hseq, not_lt.2, not_le.1]

/-- The number it keeps then is the largest again. -/
lemma Watched.poll_fst {selfOrigin : UInt64} {l : Listener} (h : Watched selfOrigin l)
    (e : Look) (m : ℕ) :
    (l.poll selfOrigin e.content).1 ≤ m ↔ ∀ n ∈ numbersRead selfOrigin (l.looks ++ [e]), n ≤ m := by
  rw [Listener.poll]
  split
  · next hlooks =>
    rw [hlooks]
    cases he : e.content <;> simp [seedPoller, numbersRead, he]
  · next hlooks =>
    rw [numbersRead_concat hlooks, List.forall_mem_append, ← h.lastSeq]
    cases he : e.content with
    | none => simp [tickPoller, Look.foreign, he]
    | some d =>
      by_cases hself : d.originId = selfOrigin
      · simp [tickPoller, Look.foreign, he, hself]
      · by_cases hseq : d.seq ≤ l.lastSeq
        · simp [tickPoller, Look.foreign, he, hself, hseq]
          omega
        · simp [tickPoller, Look.foreign, he, hself, hseq]
          omega

namespace Crossing

variable {selfOrigin : UInt64} {topic : String} {s : Crossing}

lemma watched_look {l : Listener} (h : Watched selfOrigin l)
    (hpos : ∀ i d, s.content i = some d → 0 < d.seq) :
    Watched selfOrigin (s.look selfOrigin topic l) where
  delivered := by
    refine log_concat.2 ⟨h.delivered, h.poll_snd fun d hd => ?_⟩
    obtain ⟨i, -, hi⟩ := Option.bind_eq_some_iff.1 hd
    exact hpos i d hi
  lastSeq m := h.poll_fst ⟨_, _, _⟩ m

/-! ## What a write does -/

/-- The publishers once one of them has counted a write. -/
def counted (s : Crossing) (publisher : ℕ) : List ShmemPublisher :=
  s.publishers.modify publisher fun pub => { pub with seq := pub.seq + 1 }

/-- A write draws no number, or it is one more, with what its process makes of it. -/
lemma write_cases (selfOrigin : UInt64) (topic : String) (s : Crossing) (publisher : ℕ)
    (payload : Bytes) (now : ℤ) :
    (∃ publishers, (publishers = s.publishers ∨ publishers = s.counted publisher) ∧
        s.write selfOrigin topic publisher payload now = { s with publishers }) ∨
      ∃ pub ∈ s.publishers, pub.seq.toNat + 1 < 2 ^ 64 ∧
        let x : Sample := ⟨topic, payload, now, pub.seq.toNat + 1, pub.writerGuid⟩
        s.write selfOrigin topic publisher payload now = {
          publishers := s.counted publisher
          writes := s.writes ++ [⟨pub.originId, x⟩]
          pending := s.writes.length :: s.pending
          landed := s.landed
          lastSample :=
            if pub.originId = selfOrigin ∧ pub.transientLocal then some s.writes.length
            else s.lastSample
          listener :=
            if pub.originId = selfOrigin then s.listener.map fun l => l.push s.writes.length x
            else s.listener } := by
  rw [write]
  cases hpub : s.publishers[publisher]? with
  | none => exact Or.inl ⟨s.publishers, Or.inl rfl, rfl⟩
  | some pub =>
    by_cases hlt : pub.seq.toNat + 1 < 2 ^ 64
    · exact Or.inr ⟨pub, List.mem_of_getElem? hpub, hlt, by simp only [checkedAdd_of_lt hlt]; rfl⟩
    · exact Or.inl ⟨s.counted publisher, Or.inr rfl, by
        simp only [checkedAdd_of_le (not_lt.1 hlt)]
        rfl⟩

/-- What the file says of a write, if it can be read. -/
lemma content_eq_some {i : ℕ} {d : Decoded} (h : s.content i = some d) :
    ∃ w, s.writes[i]? = some w ∧ d.originId = w.originId ∧
      d.seq = w.sample.sequenceNumber % 2 ^ 64 := by
  obtain ⟨w, hw, hd⟩ := Option.bind_eq_some_iff.1 h
  rw [WriteCall.bytes, decodeSample_encodeSample_eq] at hd
  split at hd
  · cases hd
  · cases hd
    exact ⟨w, hw, rfl, rfl⟩

/-- A write that is there keeps what the file says of it. -/
lemma content_of_writes {s' : Crossing} {w : WriteCall} (h : s'.writes = s.writes ++ [w]) {i : ℕ}
    (hi : i < s.writes.length) : s'.content i = s.content i := by
  rw [content, content, h, List.getElem?_append_left hi]

/-! ## Runs -/

/-- What holds of every run. -/
structure Sound (selfOrigin : UInt64) (s : Crossing) : Prop where
  numbered : ∀ w ∈ s.writes, 0 < w.sample.sequenceNumber ∧ w.sample.sequenceNumber < 2 ^ 64
  pending_lt : ∀ i ∈ s.pending, i < s.writes.length
  landed_lt : ∀ i ∈ s.landed, i < s.writes.length
  watched : ∀ l, s.listener = some l → Watched selfOrigin l
  /-- What a look found has landed, and says what it said. -/
  looks : ∀ l, s.listener = some l → ∀ e ∈ l.looks,
    (∀ i, e.found = some i → i ∈ s.landed) ∧ e.content = e.found.bind s.content

lemma Sound.seq_pos (h : Sound selfOrigin s) {i : ℕ} {d : Decoded} (hd : s.content i = some d) :
    0 < d.seq := by
  obtain ⟨w, hw, -, hseq⟩ := content_eq_some hd
  obtain ⟨hpos, hlt⟩ := h.numbered w (List.mem_of_getElem? hw)
  rw [hseq, Nat.mod_eq_of_lt hlt]
  exact hpos

lemma Sound.write (h : Sound selfOrigin s) (publisher : ℕ) (payload : Bytes) (now : ℤ) :
    Sound selfOrigin (s.write selfOrigin topic publisher payload now) := by
  rcases write_cases selfOrigin topic s publisher payload now with
    ⟨publishers, -, heq⟩ | ⟨pub, -, hlt, heq⟩
  · rw [heq]
    exact ⟨h.numbered, h.pending_lt, h.landed_lt, h.watched, h.looks⟩
  · rw [heq]
    -- the listener is as it was, but for what has been pushed
    have hlistener : ∀ l', (if pub.originId = selfOrigin then
        s.listener.map fun l => l.push s.writes.length
          ⟨topic, payload, now, pub.seq.toNat + 1, pub.writerGuid⟩ else s.listener) = some l' →
        ∃ l, s.listener = some l ∧ l'.looks = l.looks ∧ l'.lastSeq = l.lastSeq ∧
          l'.transientLocal = l.transientLocal := by
      intro l' hl'
      split at hl'
      · obtain ⟨l, hl, rfl⟩ := Option.map_eq_some_iff.1 hl'
        exact ⟨l, hl, rfl, rfl, rfl⟩
      · exact ⟨l', hl', rfl, rfl, rfl⟩
    constructor
    · intro w hw
      rcases List.mem_append.1 hw with hw | hw
      · exact h.numbered w hw
      · obtain rfl := List.mem_singleton.1 hw
        exact ⟨Nat.succ_pos _, hlt⟩
    · intro i hi
      have hlen := h.pending_lt i
      simp only [List.mem_cons, List.length_append, List.length_singleton] at hi ⊢
      grind
    · intro i hi
      simpa using Nat.lt_succ_of_lt (h.landed_lt i hi)
    · intro l' hl'
      obtain ⟨l, hl, hlooks, hseq, htl⟩ := hlistener l' hl'
      obtain ⟨hdelivered, hlastSeq⟩ := h.watched l hl
      exact ⟨by rw [hlooks, htl]; exact hdelivered, by rw [hlooks, hseq]; exact hlastSeq⟩
    · intro l' hl' e he
      obtain ⟨l, hl, hlooks, -⟩ := hlistener l' hl'
      rw [hlooks] at he
      obtain ⟨hfound, hcontent⟩ := h.looks l hl e he
      refine ⟨hfound, hcontent.trans ?_⟩
      cases hi : e.found with
      | none => rfl
      | some i => exact (content_of_writes rfl (h.landed_lt i (hfound i hi))).symm

lemma Sound.step (h : Sound selfOrigin s) (event : CrossEvent) :
    Sound selfOrigin (s.step selfOrigin topic event) := by
  cases event with
  | newPublisher originId writerGuid transientLocal =>
    exact ⟨h.numbered, h.pending_lt, h.landed_lt, h.watched, h.looks⟩
  | write publisher payload now => exact h.write publisher payload now
  | land i =>
    rw [Crossing.step]
    split
    · next hi =>
      refine ⟨h.numbered, fun j hj => h.pending_lt j (List.mem_of_mem_erase hj), ?_, h.watched,
        fun l hl e he => ?_⟩
      · intro j hj
        rcases List.mem_append.1 hj with hj | hj
        · exact h.landed_lt j hj
        · obtain rfl := List.mem_singleton.1 hj
          exact h.pending_lt j hi
      · obtain ⟨hfound, hcontent⟩ := h.looks l hl e he
        exact ⟨fun j hj => List.mem_append_left _ (hfound j hj), hcontent⟩
    · exact h
  | subscribe transientLocal =>
    rw [Crossing.step]
    split
    · refine ⟨h.numbered, h.pending_lt, h.landed_lt, ?_, ?_⟩
      · rintro l ⟨⟩
        exact ⟨log_nil, fun m => by simp [numbersRead]⟩
      · rintro l ⟨⟩ e he
        cases he
    · exact h
  | look =>
    have hnew : ∀ l', s.listener.map (s.look selfOrigin topic) = some l' →
        ∃ l, s.listener = some l ∧ l' = s.look selfOrigin topic l := by
      intro l' hl'
      obtain ⟨l, hl, rfl⟩ := Option.map_eq_some_iff.1 hl'
      exact ⟨l, hl, rfl⟩
    refine ⟨h.numbered, h.pending_lt, h.landed_lt, ?_, ?_⟩
    · intro l' hl'
      obtain ⟨l, hl, rfl⟩ := hnew l' hl'
      exact watched_look (h.watched l hl) fun i d => h.seq_pos
    · intro l' hl' e he
      obtain ⟨l, hl, rfl⟩ := hnew l' hl'
      rcases List.mem_append.1 he with he | he
      · exact h.looks l hl e he
      · obtain rfl := List.mem_singleton.1 he
        exact ⟨fun i hi => List.mem_of_getLast? hi, rfl⟩

lemma sound_new : Sound selfOrigin new := by
  constructor <;> simp [new]

lemma sound_run (selfOrigin : UInt64) (topic : String) (events : List CrossEvent) :
    Sound selfOrigin (run selfOrigin topic events) :=
  (each_of_forall fun _ _ _ => trivial).foldl (P := fun _ _ => True)
    (fun _ event h _ => h.step event) sound_new

/-! ## Changes of the file -/

/-- The poller finds that another process has changed the file since it looked last. -/
def Changed (selfOrigin : UInt64) (pre : List Look) (e : Look) (d : Decoded) : Prop :=
  pre ≠ [] ∧ e.content = some d ∧ d.originId ≠ selfOrigin ∧
    ∀ o, observed pre = some o → o.writer ≠ d.writer

/-- Each change a tick finds is delivered then, and not again while the file stays as it is. -/
def DeliversChanges (selfOrigin : UInt64) (looks : List Look) : Prop :=
  ∀ pre e post, looks = pre ++ e :: post → ∀ d, Changed selfOrigin pre e d →
    e.delivered = some d ∧ ∀ e' ∈ post, e'.found = e.found → e'.delivered = none

/-- Each change a tick finds has a number above all those the poller has read. -/
def ChangesAdvance (selfOrigin : UInt64) (looks : List Look) : Prop :=
  ∀ pre e post, looks = pre ++ e :: post → ∀ d, Changed selfOrigin pre e d →
    ∀ n ∈ numbersRead selfOrigin pre, n < d.seq

lemma Changed.due_eq {pre : List Look} {e : Look} {d : Decoded}
    (h : Changed selfOrigin pre e d) (transientLocal : Bool) :
    due selfOrigin transientLocal pre e.content = some d ↔
      ∀ n ∈ numbersRead selfOrigin pre, n < d.seq := by
  obtain ⟨hpre, hcontent, horigin, -⟩ := h
  simp [due, hcontent, hpre, horigin]

/-- What has been read once is not due again. -/
lemma due_eq_none {transientLocal : Bool} {pre : List Look} {e : Look} {d : Decoded}
    (he : e ∈ pre) (hcontent : e.content = some d) (horigin : d.originId ≠ selfOrigin) :
    due selfOrigin transientLocal pre (some d) = none := by
  have hforeign : e.foreign selfOrigin = some d := by simp [Look.foreign, hcontent, horigin]
  have hmem := mem_numbersRead_of_foreign he hforeign
  have hne : pre ≠ [] := List.ne_nil_of_mem he
  simp only [due, Option.filter_eq_none_iff, hne, if_false, decide_eq_true_eq]
  rintro d' ⟨⟩ ⟨-, hlt⟩
  exact lt_irrefl _ (hlt _ hmem)

/-- **A change of the file is delivered exactly if its number is above all that were read.** -/
theorem deliversChanges_iff (selfOrigin : UInt64) (topic : String) (events : List CrossEvent) :
    DeliversChanges selfOrigin (run selfOrigin topic events).looks ↔
      ChangesAdvance selfOrigin (run selfOrigin topic events).looks := by
  have hsound := sound_run selfOrigin topic events
  rw [looks]
  cases hl : (run selfOrigin topic events).listener with
  | none =>
    constructor <;>
    · rintro - pre e post hsplit
      simp at hsplit
  | some l =>
    have hdelivered := (hsound.watched l hl).delivered
    have hlooks := hsound.looks l hl
    refine forall₄_congr fun pre e post (hsplit : l.looks = _) => forall₂_congr fun d hchange => ?_
    rw [hdelivered pre e post hsplit, hchange.due_eq]
    refine and_iff_left_of_imp fun _ e' he' hfound => ?_
    obtain ⟨between, rest, rfl⟩ := List.append_of_mem he'
    have hmem : e ∈ l.looks := by simp [hsplit]
    have hmem' : e' ∈ l.looks := by simp [hsplit]
    have hcontent : e'.content = some d := by
      rw [(hlooks e' hmem').2, hfound, ← (hlooks e hmem).2, hchange.2.1]
    rw [hdelivered (pre ++ e :: between) e' rest (by simp [hsplit]), hcontent]
    exact due_eq_none (by simp) hchange.2.1 hchange.2.2.1

/-- Process 2 has written twice when a subscriber of process 1 is created, and process 3 writes
for the first time after that. -/
def latecomer : List CrossEvent :=
  [.newPublisher 2 (FixedBytes.zero 16) false, .newPublisher 3 (FixedBytes.zero 16) false,
    .write 0 [1] 0, .land 0, .write 0 [2] 0, .land 1, .subscribe false, .look,
    .write 1 [3] 0, .land 2, .look]

/-- **The sample of process 3 is suppressed**: its number is 1, and 2 has been read. -/
theorem not_deliversChanges_latecomer :
    ¬ DeliversChanges 1 (run 1 "t" latecomer).looks := by
  intro h
  let d : Decoded := ⟨2, 2, 0, FixedBytes.zero 16, [2]⟩
  let d' : Decoded := ⟨3, 1, 0, FixedBytes.zero 16, [3]⟩
  have hlooks : (run 1 "t" latecomer).looks =
      [⟨some 1, some d, none⟩] ++ ⟨some 2, some d', none⟩ :: [] := by decide +kernel
  have hchange : Changed 1 [⟨some 1, some d, none⟩] ⟨some 2, some d', none⟩ d' := by
    refine ⟨by simp, rfl, by decide, ?_⟩
    rintro o ⟨⟩
    decide
  exact absurd (h _ _ _ hlooks d' hchange).1 (by simp)

end Crossing

end RustDds
