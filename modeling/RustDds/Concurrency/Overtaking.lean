import RustDds.Concurrency.Ordering
import RustDds.Concurrency.Polling

/-!
# Where no write overtakes another

Writes of one publisher may be on their way at the same time.  Every subscriber receives their
samples in the order of the numbers (`received_rising`) if none overtakes another: none takes the
mutex of the broker, or stores its sample as the last one, before those with smaller numbers
have, and none hands its sample to a subscriber that one with a smaller number may still reach
(`InTurn`).  Where the second write draws its number later and takes the mutex earlier, they are
received in the wrong order (`exists_received_falling`).

A subscriber is also not handed a sample twice.  A broker is locked from the caching of a sample
to the end of its delivery, but the UDP participant hands a new reader the last sample of its
topic in a step of its own, and a write that looks up the readers before that step will reach the
reader too.
-/

namespace RustDds

open scoped List

namespace DeliveryTask

/-- The task has its number, and has not gone further. -/
def Unpublished : DeliveryTask → Prop
  | .publish _ => True
  | _ => False

/-- The task may still reach the subscriber. -/
def Ahead (r : ℕ) : DeliveryTask → Prop
  | .publish _ | .retain _ _ | .snapshot _ => True
  | .push left _ => r ∈ left
  | .enqueue r' left _ => r ∈ r' :: left
  | _ => False

/-- The task is not on the way with a sample, nor about to hand one to a new subscriber. -/
def Idle : DeliveryTask → Prop
  | .insertReader .. | .deliverCached _ | .pushRead _ _ | .enqueueRead _ _ | .publish _
  | .retain _ _ | .snapshot _ | .push _ _ | .enqueue _ _ _ => False
  | _ => True

variable {cfg : DeliveryConfig} {k : ℕ} {s s' : DeliveryState} {t : DeliveryTask}

lemma Idle.leaves (h : t.Idle) :
    t.Ordered cfg k s ∧ ¬ t.Carries k ∧ ∀ r, t ≠ .deliverCached r := by
  cases t with
  | insertReader | deliverCached | pushRead | enqueueRead | publish | retain | snapshot | push
  | enqueue => exact h.elim
  | _ => exact ⟨trivial, id, nofun⟩

end DeliveryTask

namespace DeliveryState

variable {cfg : DeliveryConfig} {k : ℕ} {s s' : DeliveryState}
  {p : Pool DeliveryState DeliveryTask}

/-! ## The step -/

/-- The writes of publisher `k` that are on their way have different numbers, and none is to reach
a subscriber that is to be handed the last sample. -/
structure InOrder (cfg : DeliveryConfig) (k : ℕ) (p : Pool DeliveryState DeliveryTask) : Prop where
  exclusive : Exclusive cfg p
  shared : Ordered cfg k p.shared
  task : ∀ i, (p.task i).Ordered cfg k p.shared
  distinct : ∀ i j, (p.task i).Carries k → (p.task j).Carries k →
    (p.task i).number = (p.task j).number → i = j
  cached : ∀ i j r, p.task i = .deliverCached r → p.task j = .deliverCached r → i = j
  apart : ∀ i j r, p.task i = .deliverCached r → (p.task j).Carries k → r ∉ (p.task j).pending

/-- A write of publisher `k` with a smaller number does not satisfy `Q`. -/
def NoneBehind (k : ℕ) (p : Pool DeliveryState DeliveryTask) (n : ℕ) (Q : DeliveryTask → Prop) :
    Prop :=
  ∀ j, (p.task j).Carries k → (p.task j).number < n → ¬ Q (p.task j)

/-- What a step must not do for the order of publisher `k`: take the mutex of the broker, or store
the last sample, before a write with a smaller number has; hand a sample to a subscriber that a
write with a smaller number may still reach; look up the readers while one of them is to be
handed the last sample, or hand a reader that of a write which has yet to look up the readers;
put a writer under the entity id of another; or let the counter overflow. -/
def InTurn (cfg : DeliveryConfig) (k : ℕ) (p : Pool DeliveryState DeliveryTask) : Turn → Prop
  | .env _ => True
  | .task i _ =>
    match p.task i with
    | .draw k' _ => k' = k → p.shared.seqOf k + 1 < 2 ^ 64
    | .publish x => x.publisher = some k → (cfg.transport ≠ .rtps → p.shared.locked = false) →
      NoneBehind k p x.sample.sequenceNumber DeliveryTask.Unpublished
    | .enqueue r _ x => x.publisher = some k →
      NoneBehind k p x.sample.sequenceNumber (DeliveryTask.Ahead r)
    | .snapshot x => x.publisher = some k →
      ∀ j, ∀ r ∈ p.shared.matchingReaders x.sample.topic, p.task j ≠ .deliverCached r
    | .deliverCached r => ∀ sub x, p.shared.subscriptions[r]? = some sub →
      p.shared.lastSample.lookup sub.topic = some x → x.publisher = some k →
        ∀ j y, p.task j = .snapshot y → y.publisher ≠ some k
    | .insertWriter _ _ eid => p.shared.writers.lookup eid = none
    | _ => True

/-- What the step of a task must leave. -/
structure Leaves (cfg : DeliveryConfig) (k : ℕ) (p : Pool DeliveryState DeliveryTask) (i : ℕ)
    (moved : DeliveryState × DeliveryTask) : Prop where
  shared : Ordered cfg k moved.1
  self : moved.2.Ordered cfg k moved.1
  others : ∀ j ≠ i, (p.task j).Ordered cfg k moved.1
  distinct : moved.2.Carries k →
    (p.task i).Carries k ∧ (p.task i).number = moved.2.number ∨
      ∀ j ≠ i, (p.task j).Carries k → (p.task j).number ≠ moved.2.number
  apart : moved.2.Carries k → ∀ r ∈ moved.2.pending,
    (p.task i).Carries k ∧ r ∈ (p.task i).pending ∨ ∀ j ≠ i, p.task j ≠ .deliverCached r
  cached : ∀ r, moved.2 = .deliverCached r → ∀ j ≠ i, p.task j ≠ .deliverCached r ∧
    ((p.task j).Carries k → r ∉ (p.task j).pending)

lemma InOrder.of_leaves (h : InOrder cfg k p) {i : ℕ} {rd : Reading}
    (hmove : Leaves cfg k p i (p.shared.move cfg rd (p.task i))) :
    InOrder cfg k ((program cfg).step p (.task i rd)) := by
  have hself := (program cfg).task_step_self p i rd
  have hothers : ∀ j ≠ i, ((program cfg).step p (.task i rd)).task j = p.task j :=
    fun j hj => (program cfg).task_step_of_ne p hj rd
  refine ⟨exclusive_step h.exclusive _, hmove.shared, fun j => ?_, fun j l hj hl heq => ?_,
    fun j l r hj hl => ?_, fun j l r hj hl => ?_⟩
  · by_cases hji : j = i
    · rw [hji, hself]
      exact hmove.self
    · rw [hothers j hji]
      exact hmove.others j hji
  · by_cases hji : j = i <;> by_cases hli : l = i
    · rw [hji, hli]
    · rw [hji, hself] at hj heq
      rw [hothers l hli] at hl heq
      rcases hmove.distinct hj with ⟨hold, hsame⟩ | hnew
      · exact hji.trans (h.distinct i l hold hl (hsame.trans heq))
      · exact absurd heq.symm (hnew l hli hl)
    · rw [hothers j hji] at hj heq
      rw [hli, hself] at hl heq
      rcases hmove.distinct hl with ⟨hold, hsame⟩ | hnew
      · exact (h.distinct j i hj hold (heq.trans hsame.symm)).trans hli.symm
      · exact absurd heq (hnew j hji hj)
    · rw [hothers j hji] at hj heq
      rw [hothers l hli] at hl heq
      exact h.distinct j l hj hl heq
  · by_cases hji : j = i <;> by_cases hli : l = i
    · rw [hji, hli]
    · rw [hji, hself] at hj
      rw [hothers l hli] at hl
      exact absurd hl (hmove.cached r hj l hli).1
    · rw [hothers j hji] at hj
      rw [hli, hself] at hl
      exact absurd hj (hmove.cached r hl j hji).1
    · rw [hothers j hji] at hj
      rw [hothers l hli] at hl
      exact h.cached j l r hj hl
  · by_cases hji : j = i <;> by_cases hli : l = i
    · rw [hji, hself] at hj
      rw [hli, hself, hj] at hl
      exact hl.elim
    · rw [hji, hself] at hj
      rw [hothers l hli] at hl ⊢
      exact (hmove.cached r hj l hli).2 hl
    · rw [hothers j hji] at hj
      rw [hli, hself] at hl ⊢
      intro hr
      rcases hmove.apart hl r hr with ⟨hold, hmem⟩ | hnone
      · exact h.apart j i r hj hold hmem
      · exact hnone j hji hj
    · rw [hothers j hji] at hj
      rw [hothers l hli] at hl ⊢
      exact h.apart j l r hj hl

/-- A step that brings no sample of the publisher to anyone. -/
lemma Leaves.of_frame (h : InOrder cfg k p) {i : ℕ} {moved : DeliveryState × DeliveryTask}
    (hframe : Frame cfg k p.shared moved.1) (hself : moved.2.Ordered cfg k moved.1)
    (hcarries : moved.2.Carries k → (p.task i).Carries k ∧ (p.task i).number = moved.2.number ∧
      ∀ r ∈ moved.2.pending, r ∈ (p.task i).pending ∨ ∀ j ≠ i, p.task j ≠ .deliverCached r)
    (hcached : ∀ r, moved.2 ≠ .deliverCached r) : Leaves cfg k p i moved where
  shared := hframe.ordered h.shared
  self := hself
  others j _ := hframe.task (h.task j) (h.exclusive.locked j)
  distinct hmoved := .inl ⟨(hcarries hmoved).1, (hcarries hmoved).2.1⟩
  apart hmoved r hr := ((hcarries hmoved).2.2 r hr).imp_left fun hold => ⟨(hcarries hmoved).1, hold⟩
  cached r hr := absurd hr (hcached r)

lemma Leaves.of_idle (h : InOrder cfg k p) {i : ℕ} {moved : DeliveryState × DeliveryTask}
    (hframe : Frame cfg k p.shared moved.1) (hidle : moved.2.Idle) : Leaves cfg k p i moved :=
  have ⟨hself, hnot, hcached⟩ := hidle.leaves (k := k) (s := moved.1)
  .of_frame h hframe hself (fun hcarries => absurd hcarries hnot) hcached

/-- Every publisher counts on its own. -/
lemma Ordered.counterOf (hs : Ordered cfg k s) {publisher : ℕ} {pub : Publication}
    (hpub : s.publishers[publisher]? = some pub) :
    s.counterOf cfg publisher pub = some publisher := by
  rw [DeliveryState.counterOf]
  split
  · rename_i hrtps
    exact hs.writers hrtps publisher pub hpub
  · rfl

lemma seqOf_draw {pub : Publication} (hpub : s.publishers[k]? = some pub)
    (hlt : s.seqOf k + 1 < 2 ^ 64) :
    ({ s with publishers := s.publishers.modify k fun pub => { pub with seq := pub.seq + 1 } } :
      DeliveryState).seqOf k = s.seqOf k + 1 := by
  rw [seqOf] at hlt ⊢
  rw [seqOf]
  dsimp only
  rw [List.getElem?_modify, hpub] at *
  simp at *
  omega

/-- No number on its way is beyond the counter. -/
lemma InOrder.number_le (h : InOrder cfg k p) {j : ℕ} (hcarries : (p.task j).Carries k) :
    (p.task j).number ≤ p.shared.seqOf k := by
  have hj := h.task j
  cases ht : p.task j with
  | publish | snapshot | push | enqueue =>
    rw [ht] at hj hcarries
    exact (hj hcarries).1
  | retain =>
    rw [ht] at hj hcarries
    exact (hj.2 hcarries).1
  | _ => exact Nat.zero_le _

lemma leaves_draw (h : InOrder cfg k p) {i publisher : ℕ} (payload : Bytes) (now : ℤ)
    (hturn : publisher = k → p.shared.seqOf k + 1 < 2 ^ 64) :
    Leaves cfg k p i (p.shared.draw cfg now publisher payload) := by
  unfold draw
  split
  · exact .of_idle h (.refl h.shared) trivial
  rename_i pub hpub
  rw [h.shared.counterOf hpub]
  dsimp only
  by_cases hk : publisher = k
  · subst hk
    have hlt := hturn rfl
    have hdraw : checkedAdd 64
        ((p.shared.publishers[publisher]?.map Publication.seq).getD 0).toNat 1 =
          .ok (p.shared.seqOf publisher + 1) := if_pos hlt
    rw [hdraw]
    dsimp only
    have hseq := seqOf_draw hpub hlt
    have hframe := Frame.modifyPub h.shared publisher
      (f := fun pub => { pub with seq := pub.seq + 1 }) (fun _ => rfl)
      (hseq.symm ▸ Nat.le_succ (p.shared.seqOf publisher))
    refine
      { shared := hframe.ordered h.shared
        self := fun _ => ⟨hseq.ge, ?_⟩
        others := fun j _ => hframe.task (h.task j) (h.exclusive.locked j)
        distinct := fun _ => .inr fun j _ hj =>
          (Nat.lt_succ_of_le (h.number_le hj)).ne
        apart := fun _ r hr => absurd hr List.not_mem_nil
        cached := nofun }
    exact ⟨fun r sub hsub m hm => Nat.lt_succ_of_le ((h.shared.histories r sub hsub).2 m hm),
      fun topic st hst m hm => Nat.lt_succ_of_le ((h.shared.caches topic st hst).2 m hm),
      fun topic x hx hpub => Nat.lt_succ_of_le (h.shared.last topic x hx hpub)⟩
  · have hframe := Frame.modifyPub h.shared publisher
      (f := fun pub => { pub with seq := pub.seq + 1 }) (fun _ => rfl)
      (p.shared.seqOf_modify k fun heq => absurd heq hk).ge
    split
    · exact .of_idle h hframe trivial
    · have hnot : some publisher ≠ some k := fun heq => hk (Option.some.inj heq)
      exact .of_frame h hframe (fun hx => absurd hx hnot) (fun hx => absurd hx hnot) nofun

/-- A sample is on its way to subscribers that are there. -/
lemma InOrder.pending_lt (h : InOrder cfg k p) {j r : ℕ} (hcarries : (p.task j).Carries k)
    (hr : r ∈ (p.task j).pending) : r < p.shared.subscriptions.length := by
  have hj := h.task j
  cases hu : p.task j with
  | push left x | enqueue r' left x =>
    rw [hu] at hj hcarries hr
    exact ((hj hcarries).2.2 r hr).1
  | _ =>
    rw [hu] at hr
    exact absurd hr List.not_mem_nil

/-- Where no number is behind, the others are beyond. -/
lemma InOrder.lt_number (h : InOrder cfg k p) {i j : ℕ} {Q : DeliveryTask → Prop}
    (hi : (p.task i).Carries k) (hturn : NoneBehind k p (p.task i).number Q) (hji : j ≠ i)
    (hj : (p.task j).Carries k) (hQ : Q (p.task j)) : (p.task i).number < (p.task j).number := by
  rcases lt_trichotomy (p.task i).number (p.task j).number with hlt | heq | hgt
  · exact hlt
  · exact absurd (h.distinct j i hj hi heq.symm) hji
  · exact absurd hQ (hturn j hj hgt)

lemma leaves_lock (h : InOrder cfg k p) {i : ℕ} {x : Delivery} (ht : p.task i = .publish x)
    (hbroker : cfg.transport ≠ .rtps) (qos : DeliveryQoS) {st : TopicState}
    (hturn : x.publisher = some k →
      NoneBehind k p x.sample.sequenceNumber DeliveryTask.Unpublished)
    (hsubscribers : st.subscribers = (p.shared.topicState cfg x.sample.topic qos).subscribers)
    (hcache : st.cache <+ (p.shared.topicState cfg x.sample.topic qos).cache ++ [x]) :
    Leaves cfg k p i ({ p.shared with
      topics := p.shared.topics.insert x.sample.topic st
      locked := true }, .retain st.subscribers x) := by
  have hlists := h.shared.topicState x.sample.topic qos
  rw [← hsubscribers] at hlists
  by_cases hx : x.publisher = some k
  swap
  · exact .of_frame h (Frame.publish h.shared hx qos hsubscribers hcache)
      ⟨hbroker, fun hcarries => absurd hcarries hx⟩ (fun hcarries => absurd hcarries hx) nofun
  have hself : (p.task i).Ordered cfg k p.shared := h.task i
  rw [ht] at hself
  obtain ⟨hnumber, hbelow, hcaches, -⟩ := hself hx
  have hi : (p.task i).Carries k := by rw [ht]; exact hx
  have hin : (p.task i).number = x.sample.sequenceNumber := by rw [ht]; rfl
  -- what the cache of the topic may hold afterwards
  have hmem : ∀ m ∈ numbers (some k) st.cache, m = x.sample.sequenceNumber ∨
      ∃ st', p.shared.topics.lookup x.sample.topic = some st' ∧
        m ∈ numbers (some k) st'.cache := by
    intro m hm
    have hold := (numbers_sublist _ hcache).subset hm
    rw [numbers_append, numbers_singleton hx, List.mem_append, List.mem_singleton] at hold
    rcases hold with hold | heq
    · rcases p.shared.topicState_cases cfg x.sample.topic qos with hst | hnew
      · exact .inr ⟨_, hst, hold⟩
      · rw [hnew] at hold
        exact absurd hold List.not_mem_nil
    · exact .inl heq
  refine
    { shared := { h.shared with
        caches := fun topic st' hst' => ?_
        lists := h.shared.lists_insert x.sample.topic hlists }
      self := ⟨hbroker, fun _ => ⟨hnumber, hbelow⟩⟩
      others := fun j hj => ?_
      distinct := fun _ => .inl ⟨hi, hin⟩
      apart := fun _ r hr => absurd hr List.not_mem_nil
      cached := nofun }
  · rcases Table.lookup_insert_eq_some.mp hst' with ⟨-, rfl⟩ | ⟨-, hold⟩
    · refine Rising.of_sublist ?_ (numbers_sublist _ hcache)
      rcases p.shared.topicState_cases cfg x.sample.topic qos with hst | hnew
      · exact (h.shared.caches _ _ hst).append hx (hcaches _ _ hst) hnumber
      · rw [hnew]
        exact (rising_of_nil rfl).append hx (fun _ hm => absurd hm List.not_mem_nil) hnumber
    · exact h.shared.caches topic st' hold
  · have hold := h.task j
    have hlt := h.lt_number (j := j) hi (hin.symm ▸ hturn hx) hj
    cases hu : p.task j with
    | publish y =>
      rw [hu] at hold hlt
      intro hy
      obtain ⟨hnumber', hbelow', hcaches', hlast'⟩ := hold hy
      refine ⟨hnumber', hbelow', fun topic st' hst' m hm => ?_, hlast'⟩
      rcases Table.lookup_insert_eq_some.mp hst' with ⟨-, rfl⟩ | ⟨-, hst'⟩
      · rcases hmem m hm with heq | ⟨st'', hst'', hm'⟩
        · rw [heq, ← hin]
          exact hlt hy trivial
        · exact hcaches' _ _ hst'' m hm'
      · exact hcaches' topic st' hst' m hm
    | _ =>
      rw [hu] at hold
      exact hold

lemma leaves_publish (h : InOrder cfg k p) {i : ℕ} {x : Delivery} (ht : p.task i = .publish x)
    (hturn : x.publisher = some k → (cfg.transport ≠ .rtps → p.shared.locked = false) →
      NoneBehind k p x.sample.sequenceNumber DeliveryTask.Unpublished) :
    Leaves cfg k p i (p.shared.publish cfg x) := by
  have hself : (p.task i).Ordered cfg k p.shared := h.task i
  rw [ht] at hself
  unfold publish
  split
  · rename_i hrtps
    by_cases hx : x.publisher = some k
    swap
    · exact .of_frame h (Frame.lastSample h.shared hx) (fun hcarries => absurd hcarries hx)
        (fun hcarries => absurd hcarries hx) nofun
    obtain ⟨hnumber, hbelow, -, -⟩ := hself hx
    have hi : (p.task i).Carries k := by rw [ht]; exact hx
    have hin : (p.task i).number = x.sample.sequenceNumber := by rw [ht]; rfl
    refine
      { shared := { h.shared with last := fun topic y hy hpub => ?_ }
        self := fun _ => ⟨hnumber, hbelow⟩
        others := fun j hj => ?_
        distinct := fun _ => .inl ⟨hi, hin⟩
        apart := fun _ r hr => absurd hr List.not_mem_nil
        cached := nofun }
    · rcases Table.lookup_insert_eq_some.mp hy with ⟨-, rfl⟩ | ⟨-, hold⟩
      · exact hnumber
      · exact h.shared.last topic y hold hpub
    · have hold := h.task j
      have hlt := h.lt_number (j := j) hi
        (hin.symm ▸ hturn hx fun hbroker => absurd hrtps hbroker) hj
      cases hu : p.task j with
      | publish y =>
        rw [hu] at hold hlt
        intro hy
        obtain ⟨hnumber', hbelow', hcaches', hlast'⟩ := hold hy
        refine ⟨hnumber', hbelow', hcaches', fun topic z hz hpub => ?_⟩
        rcases Table.lookup_insert_eq_some.mp hz with ⟨-, rfl⟩ | ⟨-, hz⟩
        · rw [← hin]
          exact hlt hy trivial
        · exact hlast' topic z hz hpub
      | _ =>
        rw [hu] at hold
        exact hold
  all_goals
    rename_i htransport
    have hbroker : cfg.transport ≠ .rtps := by rw [htransport]; exact nofun
    split
    · refine .of_frame h (.refl h.shared) hself (fun hcarries => ?_) nofun
      rw [ht]
      exact ⟨hcarries, rfl, fun r hr => .inl hr⟩
    · rename_i hlocked
      have hfree : p.shared.locked = false := by simpa using hlocked
      dsimp only
      generalize ((x.publisher.bind fun k => p.shared.publishers[k]?).map Publication.qos).getD
        ⟨false, 0, 0⟩ = qos
      have hsubscribers : (if qos.transientLocal then
            (p.shared.topicState cfg x.sample.topic qos).pushToCache x
          else p.shared.topicState cfg x.sample.topic qos).subscribers =
            (p.shared.topicState cfg x.sample.topic qos).subscribers := by
        split
        · exact TopicState.subscribers_pushToCache ..
        · rfl
      rw [← hsubscribers]
      refine leaves_lock h ht hbroker qos (fun hx => hturn hx fun _ => hfree) hsubscribers ?_
      split
      · exact TopicState.cache_pushToCache ..
      · exact List.sublist_append_left _ _

/-- The readers are told apart by their entity ids. -/
lemma Ordered.matchingReaders (hs : Ordered cfg k s) (topic : String) :
    (s.matchingReaders topic).Nodup ∧
      ∀ r ∈ s.matchingReaders topic, r < s.subscriptions.length := by
  refine ⟨List.Nodup.filter _ (Table.nodup_values fun eid eid' r h h' => ?_), fun r hr => ?_⟩
  · obtain ⟨sub, hsub, heid⟩ := hs.readers eid r h
    obtain ⟨sub', hsub', heid'⟩ := hs.readers eid' r h'
    rw [hsub, Option.some.injEq] at hsub'
    rw [← heid, ← heid', hsub']
  · obtain ⟨eid, heid⟩ := Table.mem_values_iff.mp (List.mem_of_mem_filter hr)
    obtain ⟨sub, hsub, -⟩ := hs.readers eid r heid
    exact (List.getElem?_eq_some_iff.mp hsub).1

/-- A sample that has found its subscribers. -/
lemma leaves_push (h : InOrder cfg k p) {i : ℕ} {x : Delivery} {left : List ℕ}
    (hi : x.publisher = some k → (p.task i).Carries k ∧
      (p.task i).number = x.sample.sequenceNumber ∧
      x.sample.sequenceNumber ≤ p.shared.seqOf k ∧
        ∀ r, p.shared.Below k r x.sample.sequenceNumber)
    (hleft : left.Nodup ∧ ∀ r ∈ left, r < p.shared.subscriptions.length)
    (hcached : x.publisher = some k → ∀ r ∈ left, ∀ j ≠ i, p.task j ≠ .deliverCached r) :
    Leaves cfg k p i (p.shared, .push left x) :=
  .of_frame h (.refl h.shared)
    (fun hx => ⟨(hi hx).2.2.1, hleft.1, fun r hr => ⟨hleft.2 r hr, (hi hx).2.2.2 r⟩⟩)
    (fun hx => ⟨(hi hx).1, (hi hx).2.1, fun r hr => .inr (hcached hx r hr)⟩) nofun

lemma below_modifySub {r' r n : ℕ} {f : Subscription → Subscription}
    (hold : r' ≠ r → s.Below k r n)
    (hnew : r' = r → ∀ sub, s.subscriptions[r]? = some sub →
      ∀ m ∈ numbers (some k) (f sub).history, m < n) :
    (s.modifySub r' f).Below k r n := by
  intro sub' hsub' m hm
  rw [getElem?_modifySub] at hsub'
  split at hsub'
  · rename_i heq
    obtain ⟨sub, hsub, rfl⟩ := Option.map_eq_some_iff.mp hsub'
    exact hnew heq sub hsub m hm
  · rename_i hne
    exact hold hne sub' hsub' m hm

/-- A subscriber is handed a sample whose number is above all it has seen. -/
lemma Ordered.modifySub (hs : Ordered cfg k s) {r : ℕ} {f : Subscription → Subscription}
    {x : Delivery} (hf : ∀ sub, (f sub).eid = sub.eid ∧
      numbers (some k) (f sub).history <+ numbers (some k) (sub.history ++ [x]))
    (hx : x.publisher = some k) (hle : x.sample.sequenceNumber ≤ s.seqOf k)
    (habove : s.Below k r x.sample.sequenceNumber) : Ordered cfg k (s.modifySub r f) := by
  have hlength : (s.modifySub r f).subscriptions.length = s.subscriptions.length :=
    List.length_modify ..
  refine
    { hs with
      histories := fun r' sub' hsub' => ?_
      lists := by rw [hlength]; exact hs.lists
      readers := hs.readers_of_kept (fun r' sub hsub => ?_) rfl }
  · rw [getElem?_modifySub] at hsub'
    split at hsub'
    · rename_i heq
      subst heq
      obtain ⟨sub, hsub, rfl⟩ := Option.map_eq_some_iff.mp hsub'
      exact ((hs.histories r sub hsub).append hx (habove sub hsub) hle).of_sublist (hf sub).2
    · exact hs.histories r' sub' hsub'
  · rw [getElem?_modifySub, hsub]
    split
    · exact ⟨f sub, rfl, (hf sub).1⟩
    · exact ⟨sub, rfl, rfl⟩

lemma history_addressed (cfg : DeliveryConfig) (k : ℕ) (x : Delivery) (sub : Subscription) :
    numbers (some k) (sub.enqueue (addressed cfg x sub)).history <+
      numbers (some k) (sub.history ++ [x]) := by
  have hsub := numbers_sublist (some k) (sub.history_enqueue (addressed cfg x sub))
  have hsame : numbers (some k) [addressed cfg x sub] = numbers (some k) [x] := by
    rw [addressed]
    split
    · by_cases hx : x.publisher = some k
      · rw [numbers_singleton hx]
        exact numbers_singleton hx
      · rw [numbers_singleton_of_ne hx]
        exact numbers_singleton_of_ne hx
    · rfl
  rwa [numbers_append, hsame, ← numbers_append] at hsub

lemma leaves_enqueue (h : InOrder cfg k p) {i r : ℕ} {left : List ℕ} {x : Delivery}
    (ht : p.task i = .enqueue r left x)
    (hturn : x.publisher = some k →
      NoneBehind k p x.sample.sequenceNumber (DeliveryTask.Ahead r)) :
    Leaves cfg k p i
      (p.shared.modifySub r fun sub => sub.enqueue (addressed cfg x sub), .push left x) := by
  by_cases hx : x.publisher = some k
  swap
  · refine .of_frame h (Frame.modifySub h.shared r fun sub => ⟨rfl, ?_⟩)
      (fun hcarries => absurd hcarries hx) (fun hcarries => absurd hcarries hx) nofun
    rw [← numbers_append_of_ne (l := sub.history) hx]
    exact history_addressed cfg k x sub
  have hself : (p.task i).Ordered cfg k p.shared := h.task i
  rw [ht] at hself
  obtain ⟨hnumber, hnodup, hleft⟩ := hself hx
  have hi : (p.task i).Carries k := by rw [ht]; exact hx
  have hin : (p.task i).number = x.sample.sequenceNumber := by rw [ht]; rfl
  have hpending : (p.task i).pending = r :: left := by rw [ht]; rfl
  obtain ⟨hnot, hrest⟩ := List.nodup_cons.mp hnodup
  have hlength : (p.shared.modifySub r fun sub =>
      sub.enqueue (addressed cfg x sub)).subscriptions.length = p.shared.subscriptions.length :=
    List.length_modify ..
  have hbelow : ∀ n r', (r' = r → x.sample.sequenceNumber < n) → p.shared.Below k r' n →
      (p.shared.modifySub r fun sub => sub.enqueue (addressed cfg x sub)).Below k r' n := by
    intro n r' hlt hold
    refine below_modifySub (fun _ => hold) fun heq sub hsub m hm => ?_
    have hmem := (history_addressed cfg k x sub).subset hm
    rw [numbers_append, numbers_singleton hx, List.mem_append, List.mem_singleton] at hmem
    rcases hmem with hmem | rfl
    · exact hold sub hsub m hmem
    · exact hlt heq.symm
  refine
    { shared := h.shared.modifySub (fun sub => ⟨rfl, history_addressed cfg k x sub⟩) hx hnumber
        (hleft r List.mem_cons_self).2
      self := fun _ => ⟨hnumber, hrest, fun r' hr' => ?_⟩
      others := fun j hj => ?_
      distinct := fun _ => .inl ⟨hi, hin⟩
      apart := fun _ r' hr' => .inl ⟨hi, by rw [hpending]; exact List.mem_cons_of_mem _ hr'⟩
      cached := nofun }
  · obtain ⟨hlt, hold⟩ := hleft r' (List.mem_cons_of_mem _ hr')
    exact ⟨hlength ▸ hlt, hbelow _ r' (fun heq => absurd (heq ▸ hr') hnot) hold⟩
  have hold := h.task j
  have hlt := h.lt_number (j := j) hi (hin.symm ▸ hturn hx) hj
  rw [hin] at hlt
  cases hu : p.task j with
  | insertReader | pushRead | enqueueRead => rw [hu] at hold; exact hold
  | deliverCached r' =>
    rw [hu] at hold
    obtain ⟨hrtps, sub, hsub, hnil⟩ := hold
    refine ⟨hrtps, sub, ?_, hnil⟩
    rw [getElem?_modifySub, if_neg, hsub]
    intro heq
    refine h.apart j i r' hu hi ?_
    rw [hpending, heq]
    exact List.mem_cons_self
  | publish y =>
    rw [hu] at hold hlt
    intro hy
    obtain ⟨hnumber', hbelow', hcaches, hlast⟩ := hold hy
    exact ⟨hnumber', fun r' => hbelow _ r' (fun _ => hlt hy trivial) (hbelow' r'), hcaches, hlast⟩
  | retain left' y =>
    rw [hu] at hold hlt
    exact ⟨hold.1, fun hy => ⟨(hold.2 hy).1,
      fun r' => hbelow _ r' (fun _ => hlt hy trivial) ((hold.2 hy).2 r')⟩⟩
  | snapshot y =>
    rw [hu] at hold hlt
    exact fun hy => ⟨(hold hy).1,
      fun r' => hbelow _ r' (fun _ => hlt hy trivial) ((hold hy).2 r')⟩
  | push left' y | enqueue r'' left' y =>
    rw [hu] at hold hlt
    intro hy
    obtain ⟨hnumber', hnodup', hleft'⟩ := hold hy
    exact ⟨hnumber', hnodup', fun r' hr' => ⟨hlength ▸ (hleft' r' hr').1,
      hbelow _ r' (fun heq => hlt hy (heq ▸ hr')) (hleft' r' hr').2⟩⟩
  | _ => trivial

lemma leaves_deliverCached (h : InOrder cfg k p) {i r : ℕ} {rd : Reading}
    (ht : p.task i = .deliverCached r)
    (hturn : ∀ sub x, p.shared.subscriptions[r]? = some sub →
      p.shared.lastSample.lookup sub.topic = some x → x.publisher = some k →
        ∀ j y, p.task j = .snapshot y → y.publisher ≠ some k) :
    Leaves cfg k p i (p.shared.move cfg rd (.deliverCached r)) := by
  have hself : (p.task i).Ordered cfg k p.shared := h.task i
  rw [ht] at hself
  obtain ⟨hrtps, sub, hsub, hnil⟩ := hself
  rw [move, hsub]
  dsimp only [Option.map_some, Option.getD_some]
  split
  · exact .of_idle h (.refl h.shared) trivial
  rename_i x hlast
  by_cases hx : x.publisher = some k
  swap
  · exact .of_idle h (Frame.modifySub h.shared r (unseen_push hx)) trivial
  have hle := h.shared.last _ x hlast hx
  have hgrows : ∀ sub : Subscription, (sub.push x).eid = sub.eid ∧
      numbers (some k) (sub.push x).history <+ numbers (some k) (sub.history ++ [x]) := by
    refine fun sub => ⟨?_, numbers_sublist _ (sub.history_push x)⟩
    unfold Subscription.push
    split <;> rfl
  have hnone : ∀ m ∈ numbers (some k) sub.history, m < x.sample.sequenceNumber := by
    rw [hnil]
    exact fun _ hm => absurd hm List.not_mem_nil
  have hbelow : p.shared.Below k r x.sample.sequenceNumber := by
    intro sub' hsub'
    rw [hsub, Option.some.injEq] at hsub'
    exact hsub' ▸ hnone
  -- the others either do not carry a sample of the publisher, or they do not reach this reader
  have hnew : ∀ n, x.sample.sequenceNumber < n → ∀ sub', p.shared.subscriptions[r]? = some sub' →
      ∀ m ∈ numbers (some k) (sub'.push x).history, m < n := by
    intro n hlt sub' hsub' m hm
    have hmem := (hgrows sub').2.subset hm
    rw [numbers_append, numbers_singleton hx] at hmem
    rcases List.mem_append.mp hmem with hold | hlast
    · exact (hbelow sub' hsub' m hold).trans hlt
    · rw [List.mem_singleton.mp hlast]
      exact hlt
  have hother : ∀ {r' n}, r' ≠ r → p.shared.Below k r' n →
      (p.shared.modifySub r fun sub => sub.push x).Below k r' n :=
    fun hne hold => below_modifySub (fun _ => hold) fun heq => absurd heq.symm hne
  have hlength : (p.shared.modifySub r fun sub => sub.push x).subscriptions.length =
      p.shared.subscriptions.length := List.length_modify ..
  refine
    { shared := h.shared.modifySub hgrows hx hle hbelow
      self := trivial
      others := fun j hj => ?_
      distinct := fun hcarries => hcarries.elim
      apart := fun hcarries => hcarries.elim
      cached := fun _ heq => by cases heq }
  have hold := h.task j
  have hreach : (p.task j).Carries k → r ∉ (p.task j).pending := h.apart i j r ht
  cases hu : p.task j with
  | insertReader | pushRead | enqueueRead => rw [hu] at hold; exact hold
  | deliverCached r' =>
    rw [hu] at hold
    obtain ⟨-, sub', hsub', hnil'⟩ := hold
    refine ⟨hrtps, sub', ?_, hnil'⟩
    rw [getElem?_modifySub, if_neg, hsub']
    rintro rfl
    exact hj (h.cached j i r hu ht)
  | publish y =>
    rw [hu] at hold
    intro hy
    obtain ⟨hnumber, hbelow', hcaches, hlasts⟩ := hold hy
    refine ⟨hnumber, fun r' => ?_, hcaches, hlasts⟩
    exact below_modifySub (fun _ => hbelow' r') fun heq => heq ▸ hnew _ (hlasts _ x hlast hx)
  | retain left y =>
    rw [hu] at hold
    exact absurd hrtps hold.1
  | snapshot y => exact fun hy => absurd hy (hturn sub x hsub hlast hx j y hu)
  | push left y =>
    rw [hu] at hold hreach
    intro hy
    obtain ⟨hnumber, hnodup, hleft⟩ := hold hy
    refine ⟨hnumber, hnodup, fun r' hr' => ⟨hlength ▸ (hleft r' hr').1, ?_⟩⟩
    exact hother (fun heq => hreach hy (heq ▸ hr')) (hleft r' hr').2
  | enqueue r'' left y =>
    rw [hu] at hold hreach
    intro hy
    obtain ⟨hnumber, hnodup, hleft⟩ := hold hy
    refine ⟨hnumber, hnodup, fun r' hr' => ⟨hlength ▸ (hleft r' hr').1, ?_⟩⟩
    exact hother (fun heq => hreach hy (heq ▸ hr')) (hleft r' hr').2
  | _ => trivial

lemma leaves_insertReader (h : InOrder cfg k p) {i : ℕ} {rd : Reading} {topic : String}
    {qos : DeliveryQoS} {opts : SubscriberOptions} {eid : EntityId}
    (ht : p.task i = .insertReader topic qos opts eid) :
    Leaves cfg k p i (p.shared.move cfg rd (.insertReader topic qos opts eid)) := by
  have hrtps : (p.task i).Ordered cfg k p.shared := h.task i
  rw [ht] at hrtps
  rw [move]
  have hframe := Frame.insertReader h.shared (.new topic eid opts) rfl
  split
  swap
  · exact .of_idle h hframe trivial
  refine
    { shared := hframe.ordered h.shared
      self := ⟨hrtps, .new topic eid opts, List.getElem?_concat_length .., rfl⟩
      others := fun j _ => hframe.task (h.task j) (h.exclusive.locked j)
      distinct := fun hcarries => hcarries.elim
      apart := fun hcarries => hcarries.elim
      cached := fun r hr j _ => ?_ }
  cases hr
  refine ⟨fun hj => ?_, fun hcarries hmem => ?_⟩
  · have hold := h.task j
    rw [hj] at hold
    obtain ⟨-, sub, hsub, -⟩ := hold
    exact absurd (List.getElem?_eq_some_iff.mp hsub).1 (lt_irrefl _)
  · exact absurd (h.pending_lt hcarries hmem) (lt_irrefl _)

lemma leaves_enter (h : InOrder cfg k p) (i : ℕ) (c : DeliveryCall) :
    Leaves cfg k p i (p.shared.enter cfg c) := by
  have hmoves : Moves cfg ⟨0, none⟩ p.shared (.call c) (p.shared.enter cfg c) := moves_enter c
  generalize p.shared.enter cfg c = moved at hmoves ⊢
  cases hmoves with
  | closePublisher publisher =>
    have hseq := p.shared.seqOf_modify k (j := publisher)
      (f := fun pub => { pub with closed := true }) fun _ _ => rfl
    exact .of_idle h (.modifyPub h.shared publisher (fun _ => rfl) hseq.ge) trivial
  | unsubscribe subscriber =>
    exact .of_idle h (.modifySub h.shared subscriber fun _ => ⟨rfl, .refl _⟩) trivial
  | setFlag | close | overflows =>
    exact .of_idle h (.of_eq h.shared rfl rfl rfl rfl rfl rfl) trivial
  | _ => exact .of_idle h (.refl h.shared) trivial

lemma leaves_subscribe (h : InOrder cfg k p) (i : ℕ) (topic : String) (qos : DeliveryQoS)
    (opts : SubscriberOptions) : Leaves cfg k p i (p.shared.subscribe cfg topic qos opts) := by
  unfold subscribe
  split
  · rename_i hrtps
    dsimp only
    split
    · exact .of_idle h (.of_eq h.shared rfl rfl rfl rfl rfl rfl) trivial
    · exact .of_frame h (.of_eq h.shared rfl rfl rfl rfl rfl rfl) hrtps False.elim nofun
  all_goals
    rename_i htransport
    have hbroker : cfg.transport ≠ .rtps := by rw [htransport]; exact nofun
    split
    · exact .of_idle h (.refl h.shared) trivial
    · rename_i hlocked
      have hfree : p.shared.locked = false := by simpa using hlocked
      dsimp only
      have hidle : ∀ r transientLocal, (if cfg.transport = .shmem then
          DeliveryTask.startPoller r transientLocal else .returned (.ok ())).Idle := by
        intro r transientLocal
        split <;> trivial
      refine .of_idle h (Frame.subscribe h.shared hfree hbroker topic qos ?_) ?_
      · split
        · exact Subscription.history_foldl_push _ (.new topic entityIdUnknown opts)
        · exact List.nil_sublist _
      · first | trivial | exact hidle _ _

/-- **The step of a task.** -/
lemma leaves_move (h : InOrder cfg k p) {i : ℕ} {rd : Reading}
    (hturn : InTurn cfg k p (.task i rd)) :
    Leaves cfg k p i (p.shared.move cfg rd (p.task i)) := by
  have hrefl := Frame.refl h.shared
  have hself := h.task i
  rw [InTurn] at hturn
  cases ht : p.task i with
  | call c => exact leaves_enter h i c
  | createPublisher who topic qos =>
    change Leaves cfg k p i (p.shared.createPublisher cfg who topic qos)
    unfold createPublisher
    split
    · dsimp only
      split <;> exact .of_idle h (.of_eq h.shared rfl rfl rfl rfl rfl rfl) trivial
    all_goals
      rename_i htransport
      have hbroker : cfg.transport ≠ .rtps := by rw [htransport]; rintro ⟨⟩
      exact .of_idle h (.appendPub h.shared hbroker rfl _) trivial
  | insertWriter topic qos eid =>
    rw [ht] at hturn
    exact .of_idle h
      (.insertWriter h.shared ⟨topic, qos, ⟨cfg.guidPrefix, eid⟩, 0, false⟩ rfl hturn) trivial
  | subscribe topic qos opts => exact leaves_subscribe h i topic qos opts
  | insertReader topic qos opts eid => exact leaves_insertReader h ht
  | deliverCached r =>
    rw [ht] at hturn
    exact leaves_deliverCached h ht hturn
  | enlist r =>
    rw [move]
    split
    · exact .of_idle h hrefl trivial
    · exact .of_idle h (.of_eq h.shared rfl rfl rfl rfl rfl rfl) trivial
  | startPoller =>
    rw [move]
    split
    · exact .of_idle h hrefl trivial
    · split
      · exact .of_frame h hrefl (Eq.refl none) False.elim fun _ heq => by cases heq
      · exact .of_idle h hrefl trivial
  | readFile =>
    rw [move]
    split
    · exact .of_idle h hrefl trivial
    · split
      · exact .of_idle h hrefl trivial
      · exact .of_frame h hrefl (Eq.refl none) False.elim fun _ heq => by cases heq
  | poll =>
    rw [move]
    split <;> exact .of_idle h hrefl trivial
  | pushRead r x =>
    rw [ht] at hself
    rw [move]
    split
    · exact .of_idle h hrefl trivial
    · exact .of_frame h hrefl hself False.elim fun _ heq => by cases heq
  | enqueueRead r x =>
    rw [ht] at hself
    have hx : x.publisher ≠ some k := by rw [show x.publisher = none from hself]; rintro ⟨⟩
    exact .of_idle h (.modifySub h.shared r (unseen_enqueue hx)) trivial
  | draw publisher payload =>
    rw [ht] at hturn
    exact leaves_draw h payload rd.now hturn
  | publish x =>
    rw [ht] at hturn
    exact leaves_publish h ht hturn
  | retain left x =>
    rw [ht] at hself
    obtain ⟨hbroker, hx⟩ := hself
    cases left with
    | nil =>
      have hnone : ∀ r j, p.task j ≠ .deliverCached r := by
        intro r j hj
        have hcached := h.task j
        rw [hj] at hcached
        exact hbroker hcached.1
      refine leaves_push h (fun hk => ⟨by rw [ht]; exact hk, by rw [ht]; rfl, hx hk⟩) ?_
        fun _ r _ j _ => hnone r j
      cases hst : p.shared.topics.lookup x.sample.topic with
      | none => exact ⟨List.nodup_nil, fun _ hr => absurd hr List.not_mem_nil⟩
      | some st => exact h.shared.lists _ st hst
    | cons r left =>
      have hcarries : (DeliveryTask.retain left x).Carries k →
          (p.task i).Carries k ∧ (p.task i).number = x.sample.sequenceNumber ∧
            ∀ r ∈ (DeliveryTask.retain left x).pending,
              r ∈ (p.task i).pending ∨ ∀ j ≠ i, p.task j ≠ .deliverCached r :=
        fun hk => ⟨by rw [ht]; exact hk, by rw [ht]; rfl, fun _ hr => absurd hr List.not_mem_nil⟩
      rw [move]
      split
      · exact .of_frame h (.adjust h.shared x.sample.topic (fun _ => rfl)
          fun _ => List.erase_sublist) ⟨hbroker, hx⟩ hcarries fun _ heq => by cases heq
      · exact .of_frame h hrefl ⟨hbroker, hx⟩ hcarries fun _ heq => by cases heq
  | snapshot x =>
    rw [ht] at hself hturn
    exact leaves_push h (fun hk => ⟨by rw [ht]; exact hk, by rw [ht]; rfl, hself hk⟩)
      (h.shared.matchingReaders x.sample.topic) fun hk r hr j _ => hturn hk j r hr
  | push left x =>
    rw [ht] at hself
    cases left with
    | nil =>
      refine .of_idle h ?_ trivial
      rw [move]
      dsimp only
      split
      · exact hrefl
      · exact .of_eq h.shared rfl rfl rfl rfl rfl rfl
    | cons r left =>
      rw [move]
      split
      · refine .of_frame h hrefl (fun hk => ?_) (fun hk => ?_) fun _ heq => by cases heq
        · obtain ⟨hnumber, hnodup, hleft⟩ := hself hk
          exact ⟨hnumber, (List.nodup_cons.mp hnodup).2,
            fun r' hr' => hleft r' (List.mem_cons_of_mem _ hr')⟩
        · rw [ht]
          exact ⟨hk, rfl, fun r' hr' => .inl (List.mem_cons_of_mem _ hr')⟩
      · refine .of_frame h hrefl hself (fun hk => ?_) fun _ heq => by cases heq
        rw [ht]
        exact ⟨hk, rfl, fun r' hr' => .inl hr'⟩
  | enqueue r left x =>
    rw [ht] at hturn
    exact leaves_enqueue h ht hturn
  | storeClosed r =>
    rw [move]
    refine .of_idle h (.modifySub h.shared r fun _ => ⟨rfl, .refl _⟩) ?_
    dsimp only
    split <;> trivial
  | removeSubscriber r =>
    rw [move]
    split
    · exact .of_idle h hrefl trivial
    split
    · exact .of_idle h (.eraseReader h.shared _) trivial
    split
    · exact .of_idle h hrefl trivial
    · exact .of_idle h (.adjust h.shared _ (fun _ => rfl) fun _ => List.erase_sublist) trivial
  | lockSubscribers =>
    rw [move]
    split
    · exact .of_idle h hrefl trivial
    · exact .of_idle h (.of_eq h.shared rfl rfl rfl rfl rfl rfl) trivial
  | closeEach left =>
    cases left with
    | nil => exact .of_idle h (.of_eq h.shared rfl rfl rfl rfl rfl rfl) trivial
    | cons r left =>
      exact .of_idle h (.modifySub h.shared r fun _ => ⟨rfl, .refl _⟩) trivial
  | returned | done => exact .of_idle h hrefl trivial

lemma inOrder_start (cfg : DeliveryConfig) (k : ℕ) (calls : ℕ → DeliveryCall) :
    InOrder cfg k (start calls) where
  exclusive := exclusive_start cfg calls
  shared :=
    { writers := nofun
      histories := nofun
      caches := fun _ _ h => by cases h
      last := fun _ _ h => by cases h
      lists := fun _ _ h => by cases h
      readers := fun _ _ h => by cases h }
  task _ := trivial
  distinct _ _ h := h.elim
  cached _ _ _ h := by cases h
  apart _ _ _ h := by cases h

lemma inOrder_step (h : InOrder cfg k p) (turn : Turn) (hturn : InTurn cfg k p turn) :
    InOrder cfg k ((program cfg).step p turn) := by
  cases turn with
  | task i rd => exact h.of_leaves (leaves_move h hturn)
  | env e =>
    have hframe : Frame cfg k p.shared ((program cfg).env e p.shared) := by
      cases e with
      | recv r => exact .modifySub h.shared r (unseen_recv k)
      | arrive r sample =>
        dsimp only [program]
        split
        · exact .modifySub h.shared r (unseen_push nofun)
        · exact .refl h.shared
    exact
      { exclusive := exclusive_step h.exclusive _
        shared := hframe.ordered h.shared
        task := fun i => hframe.task (h.task i) (h.exclusive.locked i)
        distinct := h.distinct
        cached := h.cached
        apart := h.apart }

lemma inOrder_run {calls : ℕ → DeliveryCall} {turns : List Turn}
    (h : Run.Each (program cfg).step (InTurn cfg k) (start calls) turns) :
    InOrder cfg k ((program cfg).run (start calls) turns) :=
  Run.Each.foldl (I := InOrder cfg k) (fun _ turn hp hturn => inOrder_step hp turn hturn) h
    (inOrder_start cfg k calls)

/-- **The order of a publisher's samples.**  In a run in which no step is out of turn for the
publisher, each subscriber has received its samples in the order of their numbers.  What the
poller of a rendezvous file hands to a subscriber is in order in every run. -/
theorem received_rising (cfg : DeliveryConfig) (calls : ℕ → DeliveryCall) (turns : List Turn) :
    let p := (program cfg).run (start calls) turns
    (∀ k, Run.Each (program cfg).step (InTurn cfg k) (start calls) turns →
      ∀ (r : ℕ) (sub : Subscription), p.shared.subscriptions[r]? = some sub →
        (numbers (some k) sub.received.reduceOption).Pairwise (· < ·)) ∧
    (cfg.transport = .shmem → ∀ (r : ℕ) (sub : Subscription),
      p.shared.subscriptions[r]? = some sub →
        (numbers none sub.received.reduceOption).Pairwise (· < ·)) := by
  intro p
  have hreceived : ∀ origin (sub : Subscription), numbers origin sub.received.reduceOption <+
      numbers origin sub.history := fun _ _ => numbers_sublist _ (List.sublist_append_left _ _)
  refine ⟨fun k hturns r sub hsub => ?_, fun hshmem r sub hsub => ?_⟩
  · exact ((inOrder_run hturns).shared.histories r sub hsub).1.sublist (hreceived _ sub)
  · exact ((followed_run hshmem r calls turns).rising sub hsub).sublist (hreceived _ sub)

/-! ### Two runs -/

instance (k : ℕ) : DecidablePred (DeliveryTask.Carries k)
  | .publish _ | .retain _ _ | .snapshot _ | .push _ _ | .enqueue _ _ _ =>
    inferInstanceAs (Decidable (_ = _))
  | .call _ | .createPublisher .. | .insertWriter .. | .subscribe .. | .insertReader ..
  | .deliverCached _ | .enlist _ | .startPoller .. | .poll .. | .readFile .. | .pushRead ..
  | .enqueueRead .. | .draw .. | .storeClosed _ | .removeSubscriber _ | .lockSubscribers
  | .closeEach _ | .returned _ | .done => inferInstanceAs (Decidable False)

instance (r : ℕ) : DecidablePred (DeliveryTask.Ahead r)
  | .publish _ | .retain _ _ | .snapshot _ => inferInstanceAs (Decidable True)
  | .push _ _ | .enqueue _ _ _ => inferInstanceAs (Decidable (_ ∈ _))
  | .call _ | .createPublisher .. | .insertWriter .. | .subscribe .. | .insertReader ..
  | .deliverCached _ | .enlist _ | .startPoller .. | .poll .. | .readFile .. | .pushRead ..
  | .enqueueRead .. | .draw .. | .storeClosed _ | .removeSubscriber _ | .lockSubscribers
  | .closeEach _ | .returned _ | .done => inferInstanceAs (Decidable False)

/-- No step of a broker is out of turn, and only the first `n` tasks have begun. -/
def InTurnAmong (n k : ℕ) (p : Pool DeliveryState DeliveryTask) : Turn → Prop
  | .env _ => True
  | .task i _ => i < n ∧
    match p.task i with
    | .draw _ _ => p.shared.seqOf k + 1 < 2 ^ 64
    | .publish x => ∀ j < n, (p.task j).Carries k →
      (p.task j).number < x.sample.sequenceNumber → ¬ (p.task j).Ahead 0
    | .enqueue r _ x => ∀ j < n, (p.task j).Carries k →
      (p.task j).number < x.sample.sequenceNumber → ¬ (p.task j).Ahead r
    | .insertWriter .. | .snapshot _ | .deliverCached _ => False
    | _ => True

instance (n k : ℕ) (p : Pool DeliveryState DeliveryTask) (turn : Turn) :
    Decidable (InTurnAmong n k p turn) := by
  cases turn with
  | env => exact inferInstanceAs (Decidable True)
  | task i rd =>
    refine @instDecidableAnd _ _ _ ?_
    split <;> infer_instance

lemma each_inTurn_of_among (n k : ℕ) {calls : ℕ → DeliveryCall} {turns : List Turn}
    (h : Run.Each (program cfg).step (InTurnAmong n k) (start calls) turns) :
    Run.Each (program cfg).step (InTurn cfg k) (start calls) turns := by
  refine Run.Each.imp (I := fun p => ∀ j ≥ n, ∃ c, p.task j = .call c) (fun p turn hp hturn => ?_)
    (fun p turn hp hturn => ?_) h fun j _ => ⟨calls j, rfl⟩
  · cases turn with
    | env e => exact hp
    | task i rd =>
      intro j hj
      rw [Program.task_step_of_ne _ _ (by have := hturn.1; omega)]
      exact hp j hj
  · cases turn with
    | env e => trivial
    | task i rd =>
      obtain ⟨-, hturn⟩ := hturn
      have hbegun : ∀ j, (p.task j).Carries k → j < n := by
        intro j hj
        by_contra hge
        obtain ⟨c, hc⟩ := hp j (Nat.le_of_not_lt hge)
        rw [hc] at hj
        exact hj
      rw [InTurn]
      cases ht : p.task i with
      | draw k' payload =>
        rw [ht] at hturn
        exact fun _ => hturn
      | publish x =>
        rw [ht] at hturn
        refine fun _ _ j hj hlt hunpublished => hturn j (hbegun j hj) hj hlt ?_
        cases hu : p.task j with
        | publish y => trivial
        | _ =>
          rw [hu] at hunpublished
          exact hunpublished.elim
      | enqueue r left x =>
        rw [ht] at hturn
        exact fun _ j hj => hturn j (hbegun j hj) hj
      | insertWriter | snapshot | deliverCached =>
        rw [ht] at hturn
        exact hturn.elim
      | _ => trivial

/-- A subscriber, a publisher, and writes. -/
def subscribeAndWrite : ℕ → DeliveryCall
  | 0 => .newSubscriber 0 "a" .default ⟨0, .dropNewest⟩
  | 1 => .newPublisher 0 "a" .default
  | i + 2 => .write 0 [UInt8.ofNat i]

/-- Both writes have their numbers before the first is delivered. -/
def inTurn : List Turn :=
  List.replicate 2 (turn 0) ++ List.replicate 2 (turn 1) ++ List.replicate 2 (turn 2) ++
    List.replicate 2 (turn 3) ++ List.replicate 6 (turn 2) ++ List.replicate 6 (turn 3) ++
      List.replicate 2 (.env (.recv 0))

theorem received_rising_inTurn :
    ∃ sub,
      ((program (.plain .mock)).run (start subscribeAndWrite) inTurn).shared.subscriptions[0]? =
        some sub ∧ (numbers (some 0) sub.received.reduceOption).Pairwise (· < ·) ∧
        numbers (some 0) sub.received.reduceOption = [1, 2] := by
  have hreceived : (((program (.plain .mock)).run (start subscribeAndWrite)
      inTurn).shared.subscriptions[0]?).map
        (fun sub => numbers (some 0) sub.received.reduceOption) = some [1, 2] := by
    decide +kernel
  obtain ⟨sub, hsub, hnumbers⟩ := Option.map_eq_some_iff.mp hreceived
  obtain ⟨hrising, -⟩ := received_rising (.plain .mock) subscribeAndWrite inTurn
  have hturns : Run.Each (program (.plain .mock)).step (InTurn (.plain .mock) 0)
      (start subscribeAndWrite) inTurn := each_inTurn_of_among 4 0 (by decide +kernel)
  exact ⟨sub, hsub, hrising 0 hturns 0 sub hsub, hnumbers⟩

/-- The first write draws 1, the second draws 2 and is delivered, then the first is. -/
def overtaken : List Turn :=
  List.replicate 2 (turn 0) ++ List.replicate 2 (turn 1) ++ List.replicate 2 (turn 2) ++
    List.replicate 8 (turn 3) ++ List.replicate 6 (turn 2) ++ List.replicate 2 (.env (.recv 0))

/-- The subscriber receives 2 before 1. -/
theorem exists_received_falling :
    ¬ ∀ (cfg : DeliveryConfig) (calls : ℕ → DeliveryCall) (turns : List Turn) (k r : ℕ)
      (sub : Subscription),
      ((program cfg).run (start calls) turns).shared.subscriptions[r]? = some sub →
        (numbers (some k) sub.received.reduceOption).Pairwise (· < ·) := by
  intro h
  have hreceived : (((program (.plain .mock)).run (start subscribeAndWrite)
      overtaken).shared.subscriptions[0]?).map
        (fun sub => numbers (some 0) sub.received.reduceOption) = some [2, 1] := by
    decide +kernel
  obtain ⟨sub, hsub, hnumbers⟩ := Option.map_eq_some_iff.mp hreceived
  have hfalling := h (.plain .mock) subscribeAndWrite overtaken 0 0 sub hsub
  rw [hnumbers] at hfalling
  exact absurd hfalling (by decide)

end DeliveryState

end RustDds
