import Mathlib.Data.List.ReduceOption
import RustDds.Concurrency.Moves

/-!
# What subscribers have seen of a publisher

A write draws its number first and is delivered later, so the order of the numbers and the order
of the deliveries are decided at two points.

`numbers` are the numbers of a publisher's samples in a list.  The invariant says of the history
of each subscriber, which is what it has received and what waits in its queue, that they rise and
that none is beyond the publisher's counter (`DeliveryState.Ordered`).  A write on its way has a
number above all that the subscribers it may still reach have seen (`DeliveryTask.Ordered`).  A
`Frame` is a step that brings nobody a new sample of the publisher; it keeps all of this.
-/

namespace RustDds

open scoped List

/-- The numbers of the samples of one publisher. -/
def numbers (origin : Option ℕ) (l : List Delivery) : List ℕ :=
  (l.filter fun x => x.publisher = origin).map fun x => x.sample.sequenceNumber

/-- They rise, up to a bound. -/
def Rising (origin : Option ℕ) (bound : ℕ) (l : List Delivery) : Prop :=
  (numbers origin l).Pairwise (· < ·) ∧ ∀ m ∈ numbers origin l, m ≤ bound

section
variable {origin : Option ℕ} {bound : ℕ} {l l' : List Delivery} {x : Delivery}

lemma numbers_append (origin : Option ℕ) (l l' : List Delivery) :
    numbers origin (l ++ l') = numbers origin l ++ numbers origin l' := by
  rw [numbers, List.filter_append, List.map_append]
  rfl

lemma numbers_singleton (h : x.publisher = origin) :
    numbers origin [x] = [x.sample.sequenceNumber] := by
  simp [numbers, h]

lemma numbers_singleton_of_ne (h : x.publisher ≠ origin) : numbers origin [x] = [] := by
  simp [numbers, h]

lemma numbers_sublist (origin : Option ℕ) (h : l <+ l') :
    numbers origin l <+ numbers origin l' :=
  (h.filter _).map _

/-- Samples of other publishers do not count. -/
lemma numbers_append_of_ne (h : x.publisher ≠ origin) :
    numbers origin (l ++ [x]) = numbers origin l := by
  rw [numbers_append, numbers_singleton_of_ne h, List.append_nil]

lemma Rising.of_sublist (h : Rising origin bound l')
    (hsub : numbers origin l <+ numbers origin l') : Rising origin bound l :=
  ⟨h.1.sublist hsub, fun m hm => h.2 m (hsub.subset hm)⟩

lemma Rising.mono {bound' : ℕ} (h : Rising origin bound l) (hle : bound ≤ bound') :
    Rising origin bound' l :=
  ⟨h.1, fun m hm => (h.2 m hm).trans hle⟩

lemma rising_of_nil (h : numbers origin l = []) : Rising origin bound l := by
  rw [Rising, h]
  exact ⟨.nil, fun _ hm => absurd hm List.not_mem_nil⟩

/-- One more, above all others. -/
lemma Rising.append (h : Rising origin bound l) (hx : x.publisher = origin)
    (habove : ∀ m ∈ numbers origin l, m < x.sample.sequenceNumber)
    (hle : x.sample.sequenceNumber ≤ bound) : Rising origin bound (l ++ [x]) := by
  rw [Rising, numbers_append, numbers_singleton hx]
  refine ⟨List.pairwise_append.mpr ⟨h.1, List.pairwise_singleton _ _, fun m hm n hn => ?_⟩,
    fun m hm => ?_⟩
  · rw [List.mem_singleton.mp hn]
    exact habove m hm
  · rcases List.mem_append.mp hm with hold | hnew
    · exact h.2 m hold
    · rw [List.mem_singleton.mp hnew]
      exact hle

end

namespace Subscription

/-- What a subscriber has received, and what waits for it. -/
def history (sub : Subscription) : List Delivery := sub.received.reduceOption ++ sub.queue

lemma history_recv (sub : Subscription) : sub.recv.history = sub.history := by
  unfold recv
  split
  · rename_i x queue hqueue
    simp [history, hqueue, List.reduceOption_append]
  · split
    · simp [history, List.reduceOption_append]
    · rfl

/-- A sample that is enqueued comes last, and others may go. -/
lemma history_enqueue (sub : Subscription) (x : Delivery) :
    (sub.enqueue x).history <+ sub.history ++ [x] := by
  rw [history, history, enqueue, List.append_assoc]
  refine List.Sublist.append_left ?_ _
  dsimp only
  rcases sub.policy.offer_cases sub.capacity sub.queue x with h | h | h <;> rw [h]
  · exact List.sublist_append_left _ _
  · exact (List.tail_sublist _).append_right _

lemma history_push (sub : Subscription) (x : Delivery) :
    (sub.push x).history <+ sub.history ++ [x] := by
  unfold push
  split
  · exact List.sublist_append_left _ _
  · exact sub.history_enqueue x

/-- Handing a new subscriber the samples of a cache. -/
lemma history_foldl_push (l : List Delivery) (sub : Subscription) :
    (l.foldl push sub).history <+ sub.history ++ l := by
  induction l generalizing sub with
  | nil => rw [List.append_nil]; exact .refl _
  | cons x l ih =>
    rw [List.foldl_cons, List.append_cons]
    exact (ih _).trans ((sub.history_push x).append_right l)

end Subscription

lemma TopicState.cache_pushToCache (st : TopicState) (x : Delivery) :
    (st.pushToCache x).cache <+ st.cache ++ [x] := by
  unfold pushToCache
  split
  · dsimp only
    split
    · exact (List.tail_sublist _).append_right _
    · exact .refl _
  · exact List.sublist_append_left _ _

lemma TopicState.subscribers_pushToCache (st : TopicState) (x : Delivery) :
    (st.pushToCache x).subscribers = st.subscribers := by
  unfold pushToCache
  split <;> rfl

/-! ## The lock -/

/-- The task holds the mutex. -/
def DeliveryTask.Holds (cfg : DeliveryConfig) : DeliveryTask → Prop
  | .retain _ _ | .closeEach _ => True
  | .snapshot _ | .push _ _ | .enqueue _ _ _ => cfg.transport ≠ .rtps
  | _ => False

namespace DeliveryState

variable {cfg : DeliveryConfig} {s s' : DeliveryState} {p : Pool DeliveryState DeliveryTask}

/-- A step leaves the mutex alone, or takes it when it is free, or gives it back. -/
def LockStep (cfg : DeliveryConfig) (s : DeliveryState) (t : DeliveryTask)
    (moved : DeliveryState × DeliveryTask) : Prop :=
  (moved.1.locked = s.locked ∧ (moved.2.Holds cfg → t.Holds cfg)) ∨
    (s.locked = false ∧ moved.1.locked = true) ∨ (t.Holds cfg ∧ ¬ moved.2.Holds cfg)

lemma lockStep_of_idle {t : DeliveryTask} {moved : DeliveryState × DeliveryTask}
    (hlocked : moved.1.locked = s.locked) (hidle : ¬ moved.2.Holds cfg) : LockStep cfg s t moved :=
  .inl ⟨hlocked, fun h => absurd h hidle⟩

lemma lockStep_move (rd : Reading) (t : DeliveryTask) : LockStep cfg s t (s.move cfg rd t) := by
  have hmoves := moves_move cfg rd s t
  generalize s.move cfg rd t = moved at hmoves ⊢
  cases hmoves with
  | waits | snapshot | skip | push | enqueue => exact .inl ⟨rfl, id⟩
  | subscribe _ _ _ _ _ _ _ _ ht | insertReader _ _ _ _ _ ht | storeClosed _ _ ht =>
    refine lockStep_of_idle rfl ?_
    rw [ht]
    dsimp only
    split <;> exact id
  | publish x hrtps => exact lockStep_of_idle rfl fun h => h hrtps
  | cache _ _ _ hfree | lockSubscribers hfree => exact .inr (.inl ⟨hfree, rfl⟩)
  | sweep | spare | retain | closeEach => exact .inl ⟨rfl, fun _ => trivial⟩
  | unlock x hbroker => exact .inr (.inr ⟨hbroker, id⟩)
  | closedEach => exact .inr (.inr ⟨trivial, id⟩)
  | _ => exact lockStep_of_idle rfl id

/-- The mutex is held by one task at most, and by none when it is free. -/
structure Exclusive (cfg : DeliveryConfig) (p : Pool DeliveryState DeliveryTask) : Prop where
  locked : ∀ i, (p.task i).Holds cfg → p.shared.locked = true
  alone : ∀ i j, (p.task i).Holds cfg → (p.task j).Holds cfg → i = j

lemma exclusive_start (cfg : DeliveryConfig) (calls : ℕ → DeliveryCall) :
    Exclusive cfg (start calls) := ⟨fun _ h => h.elim, fun _ _ h => h.elim⟩

lemma exclusive_step (h : Exclusive cfg p) (turn : Turn) :
    Exclusive cfg ((program cfg).step p turn) := by
  cases turn with
  | env e =>
    refine ⟨fun i hi => ?_, h.alone⟩
    rw [Program.step_env]
    cases e with
    | recv => exact h.locked i hi
    | arrive =>
      dsimp only [program]
      split <;> exact h.locked i hi
  | task i rd =>
    have hself := (program cfg).task_step_self p i rd
    have hothers : ∀ j ≠ i, ((program cfg).step p (.task i rd)).task j = p.task j :=
      fun j hj => (program cfg).task_step_of_ne p hj rd
    have hfree : ((∀ j ≠ i, ¬ (p.task j).Holds cfg) ∧
        ((p.shared.move cfg rd (p.task i)).2.Holds cfg →
          (p.shared.move cfg rd (p.task i)).1.locked = true)) ∨
        ((p.shared.move cfg rd (p.task i)).1.locked = p.shared.locked ∧
          ((p.shared.move cfg rd (p.task i)).2.Holds cfg → (p.task i).Holds cfg)) := by
      rcases lockStep_move rd (p.task i) with hsame | ⟨hunlocked, htaken⟩ | ⟨hheld, hgiven⟩
      · exact .inr hsame
      · refine .inl ⟨fun j _ hj => ?_, fun _ => htaken⟩
        rw [h.locked j hj] at hunlocked
        cases hunlocked
      · exact .inl ⟨fun j hji hj => hji (h.alone j i hj hheld), fun hnew => absurd hnew hgiven⟩
    rcases hfree with ⟨hnone, hnew⟩ | ⟨hlocked, hold⟩
    · have honly : ∀ j, (((program cfg).step p (.task i rd)).task j).Holds cfg → j = i := by
        intro j hj
        by_contra hji
        rw [hothers j hji] at hj
        exact hnone j hji hj
      refine ⟨fun j hj => ?_, fun j l hj hl => (honly j hj).trans (honly l hl).symm⟩
      have hji := honly j hj
      subst hji
      rw [hself] at hj
      exact hnew hj
    · have hback : ∀ j, (((program cfg).step p (.task i rd)).task j).Holds cfg →
          (p.task j).Holds cfg := by
        intro j hj
        by_cases hji : j = i
        · subst hji
          rw [hself] at hj
          exact hold hj
        · rw [hothers j hji] at hj
          exact hj
      exact ⟨fun j hj => hlocked.trans (h.locked j (hback j hj)),
        fun j l hj hl => h.alone j l (hback j hj) (hback l hl)⟩

/-! ## The invariant -/

/-- The last number a publisher has drawn. -/
def seqOf (s : DeliveryState) (k : ℕ) : ℕ := ((s.publishers[k]?.map Publication.seq).getD 0).toNat

/-- All numbers of the publisher that the subscriber has seen are below `n`. -/
def Below (s : DeliveryState) (k r n : ℕ) : Prop :=
  ∀ sub, s.subscriptions[r]? = some sub → ∀ m ∈ numbers (some k) sub.history, m < n

/-- The shared state.  Each writer and each reader is found under its own entity id. -/
structure Ordered (cfg : DeliveryConfig) (k : ℕ) (s : DeliveryState) : Prop where
  writers : cfg.transport = .rtps → ∀ j pub, s.publishers[j]? = some pub →
    s.writers.lookup pub.guid.entity = some j
  histories : ∀ (r : ℕ) (sub : Subscription), s.subscriptions[r]? = some sub →
    Rising (some k) (s.seqOf k) sub.history
  caches : ∀ topic st, s.topics.lookup topic = some st → Rising (some k) (s.seqOf k) st.cache
  last : ∀ topic x, s.lastSample.lookup topic = some x → x.publisher = some k →
    x.sample.sequenceNumber ≤ s.seqOf k
  lists : ∀ topic st, s.topics.lookup topic = some st →
    st.subscribers.Nodup ∧ ∀ r ∈ st.subscribers, r < s.subscriptions.length
  readers : ∀ eid r, s.readers.lookup eid = some r →
    ∃ sub, s.subscriptions[r]? = some sub ∧ sub.eid = eid

end DeliveryState

namespace DeliveryTask

/-- The task is a write of the publisher, on its way. -/
def Carries (k : ℕ) : DeliveryTask → Prop
  | .publish x | .retain _ x | .snapshot x | .push _ x | .enqueue _ _ x => x.publisher = some k
  | _ => False

/-- The number of the sample. -/
def number : DeliveryTask → ℕ
  | .publish x | .retain _ x | .snapshot x | .push _ x | .enqueue _ _ x =>
    x.sample.sequenceNumber
  | _ => 0

/-- The subscribers it is to reach, as far as they have been looked up. -/
def pending : DeliveryTask → List ℕ
  | .push left _ => left
  | .enqueue r left _ => r :: left
  | _ => []

/-- A write on its way has a number that was drawn, which is above all that the subscribers it is
still to reach have seen.  A subscriber that is to be handed the last sample has seen nothing. -/
def Ordered (cfg : DeliveryConfig) (k : ℕ) (s : DeliveryState) : DeliveryTask → Prop
  | .insertReader .. => cfg.transport = .rtps
  | .deliverCached r => cfg.transport = .rtps ∧
    ∃ sub : Subscription, s.subscriptions[r]? = some sub ∧ numbers (some k) sub.history = []
  | .pushRead _ x | .enqueueRead _ x => x.publisher = none
  | .publish x => x.publisher = some k →
    x.sample.sequenceNumber ≤ s.seqOf k ∧ (∀ r, s.Below k r x.sample.sequenceNumber) ∧
      (∀ topic st, s.topics.lookup topic = some st →
        ∀ m ∈ numbers (some k) st.cache, m < x.sample.sequenceNumber) ∧
      ∀ topic y, s.lastSample.lookup topic = some y → y.publisher = some k →
        y.sample.sequenceNumber < x.sample.sequenceNumber
  | .retain _ x => cfg.transport ≠ .rtps ∧ (x.publisher = some k →
    x.sample.sequenceNumber ≤ s.seqOf k ∧ ∀ r, s.Below k r x.sample.sequenceNumber)
  | .snapshot x => x.publisher = some k →
    x.sample.sequenceNumber ≤ s.seqOf k ∧ ∀ r, s.Below k r x.sample.sequenceNumber
  | .push left x => x.publisher = some k →
    x.sample.sequenceNumber ≤ s.seqOf k ∧ left.Nodup ∧
      ∀ r ∈ left, r < s.subscriptions.length ∧ s.Below k r x.sample.sequenceNumber
  | .enqueue r left x => x.publisher = some k →
    x.sample.sequenceNumber ≤ s.seqOf k ∧ (r :: left).Nodup ∧
      ∀ r' ∈ r :: left, r' < s.subscriptions.length ∧ s.Below k r' x.sample.sequenceNumber
  | _ => True

end DeliveryTask

namespace DeliveryState

variable {cfg : DeliveryConfig} {k : ℕ} {s s' : DeliveryState}
  {p : Pool DeliveryState DeliveryTask}

/-- A subscriber has seen no new sample of the publisher. -/
def Unseen (k : ℕ) (sub sub' : Subscription) : Prop :=
  sub'.eid = sub.eid ∧ numbers (some k) sub'.history <+ numbers (some k) sub.history

/-- A step that does not bring a sample of the publisher to anyone, but for those of a cache to a
new subscriber, while the mutex of the broker is free. -/
structure Frame (cfg : DeliveryConfig) (k : ℕ) (s s' : DeliveryState) : Prop where
  seq : s.seqOf k ≤ s'.seqOf k
  kept : ∀ (r : ℕ) (sub : Subscription), s.subscriptions[r]? = some sub →
    ∃ sub', s'.subscriptions[r]? = some sub' ∧ Unseen k sub sub'
  fresh : ∀ (r : ℕ) (sub' : Subscription), s'.subscriptions[r]? = some sub' →
    s.subscriptions.length ≤ r → numbers (some k) sub'.history = [] ∨
      (s.locked = false ∧ cfg.transport ≠ .rtps ∧
        ∃ topic st, s.topics.lookup topic = some st ∧
          numbers (some k) sub'.history <+ numbers (some k) st.cache)
  caches : ∀ topic st', s'.topics.lookup topic = some st' →
    numbers (some k) st'.cache = [] ∨ ∃ st, s.topics.lookup topic = some st ∧
      numbers (some k) st'.cache <+ numbers (some k) st.cache
  last : ∀ topic x, s'.lastSample.lookup topic = some x → x.publisher = some k →
    s.lastSample.lookup topic = some x
  writers : cfg.transport = .rtps → ∀ j pub, s'.publishers[j]? = some pub →
    s'.writers.lookup pub.guid.entity = some j
  lists : ∀ topic st, s'.topics.lookup topic = some st →
    st.subscribers.Nodup ∧ ∀ r ∈ st.subscribers, r < s'.subscriptions.length
  readers : ∀ eid r, s'.readers.lookup eid = some r →
    ∃ sub, s'.subscriptions[r]? = some sub ∧ sub.eid = eid

namespace Frame

variable (h : Frame cfg k s s')
include h

lemma length_le : s.subscriptions.length ≤ s'.subscriptions.length := by
  by_contra hlt
  have hlast : s'.subscriptions.length < s.subscriptions.length := by omega
  obtain ⟨sub', hsub', -⟩ := h.kept s'.subscriptions.length _ (List.getElem?_eq_getElem hlast)
  exact absurd (List.getElem?_eq_some_iff.mp hsub').1 (lt_irrefl _)

/-- A subscriber that was there has seen no new sample. -/
lemma unseen {r : ℕ} {sub' : Subscription} (hsub' : s'.subscriptions[r]? = some sub')
    (hr : r < s.subscriptions.length) :
    ∃ sub, s.subscriptions[r]? = some sub ∧ Unseen k sub sub' := by
  obtain ⟨sub'', hsub'', hunseen⟩ := h.kept r _ (List.getElem?_eq_getElem hr)
  rw [hsub', Option.some.injEq] at hsub''
  exact ⟨_, List.getElem?_eq_getElem hr, hsub'' ▸ hunseen⟩

lemma below {r n : ℕ} (hr : r < s.subscriptions.length) (hbelow : s.Below k r n) :
    s'.Below k r n := by
  intro sub' hsub' m hm
  obtain ⟨sub, hsub, -, hunseen⟩ := h.unseen hsub' hr
  exact hbelow sub hsub m (hunseen.subset hm)

/-- Where all that is in the caches is below a number, new subscribers are. -/
lemma below_of_caches {n : ℕ} (hbelow : ∀ r, s.Below k r n)
    (hcaches : s.locked = false → cfg.transport ≠ .rtps →
      ∀ topic st, s.topics.lookup topic = some st → ∀ m ∈ numbers (some k) st.cache, m < n)
    (r : ℕ) : s'.Below k r n := by
  rcases Nat.lt_or_ge r s.subscriptions.length with hr | hr
  · exact h.below hr (hbelow r)
  intro sub' hsub' m hm
  rcases h.fresh r sub' hsub' hr with hnil | ⟨hlocked, hbroker, topic, st, hst, hcache⟩
  · rw [hnil] at hm
    exact absurd hm List.not_mem_nil
  · exact hcaches hlocked hbroker topic st hst m (hcache.subset hm)

lemma ordered (hs : Ordered cfg k s) : Ordered cfg k s' where
  writers := h.writers
  histories r sub' hsub' := by
    refine Rising.mono ?_ h.seq
    rcases Nat.lt_or_ge r s.subscriptions.length with hr | hr
    · obtain ⟨sub, hsub, -, hunseen⟩ := h.unseen hsub' hr
      exact (hs.histories r sub hsub).of_sublist hunseen
    · rcases h.fresh r sub' hsub' hr with hnil | ⟨-, -, topic, st, hst, hcache⟩
      · exact rising_of_nil hnil
      · exact (hs.caches topic st hst).of_sublist hcache
  caches topic st' hst' := by
    refine Rising.mono ?_ h.seq
    rcases h.caches topic st' hst' with hnil | ⟨st, hst, hcache⟩
    · exact rising_of_nil hnil
    · exact (hs.caches topic st hst).of_sublist hcache
  last topic x hx hpub := (hs.last topic x (h.last topic x hx hpub) hpub).trans h.seq
  lists := h.lists
  readers := h.readers

/-- The tasks that do not move. -/
lemma task {t : DeliveryTask} (ht : t.Ordered cfg k s) (hlocked : t.Holds cfg → s.locked = true) :
    t.Ordered cfg k s' := by
  cases t with
  | insertReader | pushRead | enqueueRead => exact ht
  | deliverCached r =>
    obtain ⟨hrtps, sub, hsub, hnil⟩ := ht
    obtain ⟨sub', hsub', -, hunseen⟩ := h.kept r sub hsub
    rw [hnil] at hunseen
    exact ⟨hrtps, sub', hsub', List.sublist_nil.mp hunseen⟩
  | publish x =>
    intro hx
    obtain ⟨hnumber, hbelow, hcaches, hlast⟩ := ht hx
    refine ⟨hnumber.trans h.seq, h.below_of_caches hbelow fun _ _ => hcaches,
      fun topic st' hst' m hm => ?_,
      fun topic y hy hpub => hlast topic y (h.last topic y hy hpub) hpub⟩
    rcases h.caches topic st' hst' with hnil | ⟨st, hst, hcache⟩
    · rw [hnil] at hm
      exact absurd hm List.not_mem_nil
    · exact hcaches topic st hst m (hcache.subset hm)
  | retain left x =>
    refine ⟨ht.1, fun hx =>
      ⟨(ht.2 hx).1.trans h.seq, h.below_of_caches (ht.2 hx).2 fun hfree => ?_⟩⟩
    rw [hlocked trivial] at hfree
    cases hfree
  | snapshot x =>
    refine fun hx => ⟨(ht hx).1.trans h.seq, h.below_of_caches (ht hx).2 fun hfree hbroker => ?_⟩
    rw [hlocked hbroker] at hfree
    cases hfree
  | push left x =>
    intro hx
    obtain ⟨hnumber, hnodup, hleft⟩ := ht hx
    exact ⟨hnumber.trans h.seq, hnodup, fun r hr =>
      ⟨(hleft r hr).1.trans_le h.length_le, h.below (hleft r hr).1 (hleft r hr).2⟩⟩
  | enqueue r left x =>
    intro hx
    obtain ⟨hnumber, hnodup, hleft⟩ := ht hx
    exact ⟨hnumber.trans h.seq, hnodup, fun r hr =>
      ⟨(hleft r hr).1.trans_le h.length_le, h.below (hleft r hr).1 (hleft r hr).2⟩⟩
  | _ => trivial

end Frame

lemma getElem?_concat_of_eq_some {α : Type*} {l : List α} {a b : α} {i : ℕ}
    (h : l[i]? = some b) : (l ++ [a])[i]? = some b :=
  (List.getElem?_append_left (List.getElem?_eq_some_iff.mp h).1).trans h

/-- An element of a list with one more is one of the list, or the last. -/
lemma getElem?_concat_eq_some {α : Type*} {l : List α} {a b : α} {i : ℕ}
    (h : (l ++ [a])[i]? = some b) : l[i]? = some b ∨ i = l.length ∧ b = a := by
  have hlt := (List.getElem?_eq_some_iff.mp h).1
  rw [List.length_append, List.length_singleton] at hlt
  rcases Nat.lt_succ_iff_lt_or_eq.mp hlt with hold | rfl
  · rw [List.getElem?_append_left hold] at h
    exact .inl h
  · rw [List.getElem?_concat_length, Option.some.injEq] at h
    exact .inr ⟨rfl, h.symm⟩

/-! ## Steps that bring no sample of the publisher -/

lemma getElem?_modifySub (s : DeliveryState) (r' : ℕ) (f : Subscription → Subscription) (r : ℕ) :
    (s.modifySub r' f).subscriptions[r]? =
      if r' = r then s.subscriptions[r]?.map f else s.subscriptions[r]? := by
  rw [modifySub, List.getElem?_modify]
  split <;> simp

lemma topicState_cases (cfg : DeliveryConfig) (s : DeliveryState) (topic : String)
    (qos : DeliveryQoS) :
    s.topics.lookup topic = some (s.topicState cfg topic qos) ∨
      s.topicState cfg topic qos = .new cfg.transport qos := by
  rw [topicState]
  cases s.topics.lookup topic
  · exact .inr rfl
  · exact .inl rfl

lemma seqOf_modify (s : DeliveryState) (k : ℕ) {j : ℕ} {f : Publication → Publication}
    (h : j = k → ∀ pub, (f pub).seq = pub.seq) :
    ({ s with publishers := s.publishers.modify j f } : DeliveryState).seqOf k = s.seqOf k := by
  rw [seqOf, seqOf]
  dsimp only
  rw [List.getElem?_modify]
  cases s.publishers[k]? with
  | none => rfl
  | some pub =>
    by_cases hj : j = k
    · simp [hj, h hj pub]
    · simp [hj]

/-- A new publisher has drawn no number. -/
lemma seqOf_append {pub : Publication}
    (h : s'.publishers = s.publishers ++ [pub]) (hseq : pub.seq = 0) : s'.seqOf k = s.seqOf k := by
  rw [seqOf, seqOf, h]
  rcases lt_trichotomy k s.publishers.length with hlt | heq | hgt
  · rw [List.getElem?_append_left hlt]
  · rw [heq, List.getElem?_concat_length, List.getElem?_eq_none le_rfl]
    simp [hseq]
  · rw [List.getElem?_eq_none hgt.le, List.getElem?_eq_none (by simp; omega)]

lemma Unseen.refl (k : ℕ) (sub : Subscription) : Unseen k sub sub := ⟨rfl, .refl _⟩

lemma unseen_recv (k : ℕ) (sub : Subscription) : Unseen k sub sub.recv := by
  refine ⟨?_, by rw [sub.history_recv]⟩
  unfold Subscription.recv
  split
  · rfl
  · split <;> rfl

lemma unseen_enqueue {x : Delivery} (h : x.publisher ≠ some k) (sub : Subscription) :
    Unseen k sub (sub.enqueue x) := by
  refine ⟨rfl, ?_⟩
  have hsub := numbers_sublist (some k) (sub.history_enqueue x)
  rwa [numbers_append_of_ne h] at hsub

lemma unseen_push {x : Delivery} (h : x.publisher ≠ some k) (sub : Subscription) :
    Unseen k sub (sub.push x) := by
  unfold Subscription.push
  split
  · exact .refl k sub
  · exact unseen_enqueue h sub

namespace Ordered

variable (hs : Ordered cfg k s)
include hs

/-- The list of a topic, also before its first use. -/
lemma topicState (topic : String) (qos : DeliveryQoS) :
    (s.topicState cfg topic qos).subscribers.Nodup ∧
      ∀ r ∈ (s.topicState cfg topic qos).subscribers, r < s.subscriptions.length := by
  rcases s.topicState_cases cfg topic qos with hst | hnew
  · exact hs.lists topic _ hst
  · rw [hnew]
    exact ⟨List.nodup_nil, fun _ hr => absurd hr List.not_mem_nil⟩

lemma lists_insert (topic : String) {st : TopicState}
    (hst : st.subscribers.Nodup ∧ ∀ r ∈ st.subscribers, r < s.subscriptions.length)
    (topic' : String) (st' : TopicState) (h : (s.topics.insert topic st).lookup topic' = some st') :
    st'.subscribers.Nodup ∧ ∀ r ∈ st'.subscribers, r < s.subscriptions.length := by
  rcases Table.lookup_insert_eq_some.mp h with ⟨-, rfl⟩ | ⟨-, hold⟩
  · exact hst
  · exact hs.lists topic' st' hold

lemma readers_of_kept (hkept : ∀ (r : ℕ) (sub : Subscription), s.subscriptions[r]? = some sub →
      ∃ sub', s'.subscriptions[r]? = some sub' ∧ sub'.eid = sub.eid)
    (hreaders : s'.readers = s.readers) (eid : EntityId) (r : ℕ)
    (h : s'.readers.lookup eid = some r) :
    ∃ sub, s'.subscriptions[r]? = some sub ∧ sub.eid = eid := by
  rw [hreaders] at h
  obtain ⟨sub, hsub, heid⟩ := hs.readers eid r h
  obtain ⟨sub', hsub', heid'⟩ := hkept r sub hsub
  exact ⟨sub', hsub', heid'.trans heid⟩

lemma writers_modify (j : ℕ) {f : Publication → Publication}
    (hguid : ∀ pub, (f pub).guid = pub.guid) (hrtps : cfg.transport = .rtps) (j' : ℕ)
    (pub' : Publication) (h : (s.publishers.modify j f)[j']? = some pub') :
    s.writers.lookup pub'.guid.entity = some j' := by
  rw [List.getElem?_modify] at h
  obtain ⟨pub, hpub, rfl⟩ := Option.map_eq_some_iff.mp h
  have hsame : (if j = j' then f pub else pub).guid = pub.guid := by
    split
    · exact hguid pub
    · rfl
  rw [hsame]
  exact hs.writers hrtps j' pub hpub

end Ordered

namespace Frame

variable (hs : Ordered cfg k s)
include hs

lemma of_eq (hpublishers : s'.publishers = s.publishers)
    (hsubscriptions : s'.subscriptions = s.subscriptions) (htopics : s'.topics = s.topics)
    (hreaders : s'.readers = s.readers) (hwriters : s'.writers = s.writers)
    (hlast : s'.lastSample = s.lastSample) : Frame cfg k s s' where
  seq := by rw [seqOf, seqOf, hpublishers]
  kept r sub hsub := ⟨sub, by rw [hsubscriptions]; exact hsub, .refl k sub⟩
  fresh r sub' hsub' hr := by
    rw [hsubscriptions] at hsub'
    exact absurd (List.getElem?_eq_some_iff.mp hsub').1 (not_lt.mpr hr)
  caches topic st' hst' := .inr ⟨st', by rw [← htopics]; exact hst', .refl _⟩
  last topic x hx _ := by rw [← hlast]; exact hx
  writers := by rw [hpublishers, hwriters]; exact hs.writers
  lists := by rw [htopics, hsubscriptions]; exact hs.lists
  readers := by rw [hreaders, hsubscriptions]; exact hs.readers

lemma refl : Frame cfg k s s := of_eq hs rfl rfl rfl rfl rfl rfl

lemma modifySub (r' : ℕ) {f : Subscription → Subscription}
    (hf : ∀ sub, Unseen k sub (f sub)) :
    Frame cfg k s (s.modifySub r' f) := by
  have hkept : ∀ (r : ℕ) (sub : Subscription), s.subscriptions[r]? = some sub →
      ∃ sub', (s.modifySub r' f).subscriptions[r]? = some sub' ∧ Unseen k sub sub' := by
    intro r sub hsub
    rw [getElem?_modifySub, hsub]
    split
    · exact ⟨f sub, rfl, hf sub⟩
    · exact ⟨sub, rfl, .refl k sub⟩
  have hlength : (s.modifySub r' f).subscriptions.length = s.subscriptions.length :=
    List.length_modify ..
  exact
    { refl hs with
      kept := hkept
      fresh := fun r sub' hsub' hr =>
        absurd (List.getElem?_eq_some_iff.mp hsub').1 (by rw [hlength]; exact not_lt.mpr hr)
      lists := by rw [hlength]; exact hs.lists
      readers := hs.readers_of_kept (fun r sub hsub =>
        (hkept r sub hsub).imp fun _ => And.imp_right And.left) rfl }

lemma modifyPub (j : ℕ) {f : Publication → Publication} (hguid : ∀ pub, (f pub).guid = pub.guid)
    (hseq : s.seqOf k ≤
      ({ s with publishers := s.publishers.modify j f } : DeliveryState).seqOf k) :
    Frame cfg k s { s with publishers := s.publishers.modify j f } :=
  { refl hs with
    seq := hseq
    writers := hs.writers_modify j hguid }

lemma appendPub (hbroker : cfg.transport ≠ .rtps) {pub : Publication} (hseq : pub.seq = 0)
    (pubCounter : ℕ → UInt64) :
    Frame cfg k s { s with pubCounter, publishers := s.publishers ++ [pub] } :=
  { refl hs with
    seq := (seqOf_append rfl hseq).ge
    writers := fun hrtps => absurd hrtps hbroker }

/-- A writer under an entity id that no other has. -/
lemma insertWriter (pub : Publication) (hseq : pub.seq = 0)
    (hnew : s.writers.lookup pub.guid.entity = none) :
    Frame cfg k s { s with
      publishers := s.publishers ++ [pub]
      writers := s.writers.insert pub.guid.entity s.publishers.length } :=
  { refl hs with
    seq := (seqOf_append rfl hseq).ge
    writers := fun hrtps j pub' hpub' => by
      rcases getElem?_concat_eq_some hpub' with hold | ⟨rfl, rfl⟩
      · have hwriter := hs.writers hrtps j pub' hold
        refine (Table.lookup_insert_eq_some).mpr (.inr ⟨fun heq => ?_, hwriter⟩)
        rw [heq, hnew] at hwriter
        cases hwriter
      · exact AList.lookup_insert _ }

/-- The subscriber of an rtps participant. -/
lemma insertReader (sub : Subscription) (hnil : numbers (some k) sub.history = []) :
    Frame cfg k s { s with
      subscriptions := s.subscriptions ++ [sub]
      readers := s.readers.insert sub.eid s.subscriptions.length } :=
  { refl hs with
    kept := fun r sub' hsub' => ⟨sub', getElem?_concat_of_eq_some hsub', .refl k sub'⟩
    fresh := fun r sub' hsub' hr => by
      rcases getElem?_concat_eq_some hsub' with hold | ⟨rfl, rfl⟩
      · exact absurd (List.getElem?_eq_some_iff.mp hold).1 (not_lt.mpr hr)
      · exact .inl hnil
    lists := fun topic st hst => ⟨(hs.lists topic st hst).1, fun r hr => by
      rw [List.length_append]
      exact ((hs.lists topic st hst).2 r hr).trans_le (Nat.le_add_right _ _)⟩
    readers := fun eid r hr => by
      rcases Table.lookup_insert_eq_some.mp hr with ⟨rfl, rfl⟩ | ⟨-, hold⟩
      · exact ⟨sub, List.getElem?_concat_length .., rfl⟩
      · obtain ⟨sub', hsub', heid⟩ := hs.readers eid r hold
        exact ⟨sub', getElem?_concat_of_eq_some hsub', heid⟩ }

/-- A subscriber of a broker, with what the cache of the topic hands it. -/
lemma subscribe (hfree : s.locked = false) (hbroker : cfg.transport ≠ .rtps) (topic : String)
    (qos : DeliveryQoS) {sub : Subscription}
    (hsub : sub.history <+ (s.topicState cfg topic qos).cache) :
    Frame cfg k s { s with
      subscriptions := s.subscriptions ++ [sub]
      topics := s.topics.insert topic { s.topicState cfg topic qos with
        subscribers :=
          (s.topicState cfg topic qos).subscribers ++ [s.subscriptions.length] } } := by
  have hcache : numbers (some k) (s.topicState cfg topic qos).cache = [] ∨
      s.topics.lookup topic = some (s.topicState cfg topic qos) := by
    rcases s.topicState_cases cfg topic qos with hst | hnew
    · exact .inr hst
    · rw [hnew]
      exact .inl rfl
  have hkept : ∀ (r : ℕ) (sub' : Subscription), s.subscriptions[r]? = some sub' →
      (s.subscriptions ++ [sub])[r]? = some sub' := fun r sub' => getElem?_concat_of_eq_some
  refine
    { refl hs with
      kept := fun r sub' hsub' => ⟨sub', hkept r sub' hsub', .refl k sub'⟩
      fresh := fun r sub' hsub' hr => ?_
      caches := fun topic' st' hst' => ?_
      lists := fun topic' st' hst' => ?_
      readers := hs.readers_of_kept (fun r sub' hsub' => ⟨sub', hkept r sub' hsub', rfl⟩) rfl }
  · rcases getElem?_concat_eq_some hsub' with hold | ⟨-, rfl⟩
    · exact absurd (List.getElem?_eq_some_iff.mp hold).1 (not_lt.mpr hr)
    · have hnumbers := numbers_sublist (some k) hsub
      rcases hcache with hnil | hst
      · rw [hnil] at hnumbers
        exact .inl (List.sublist_nil.mp hnumbers)
      · exact .inr ⟨hfree, hbroker, topic, _, hst, hnumbers⟩
  · rcases Table.lookup_insert_eq_some.mp hst' with ⟨rfl, rfl⟩ | ⟨-, hold⟩
    · exact hcache.imp_right fun hst => ⟨s.topicState cfg topic' qos, hst, .refl _⟩
    · exact .inr ⟨st', hold, .refl _⟩
  · have hlength : (s.subscriptions ++ [sub]).length = s.subscriptions.length + 1 :=
      List.length_append
    rw [hlength]
    rcases Table.lookup_insert_eq_some.mp hst' with ⟨-, rfl⟩ | ⟨-, hold⟩
    · obtain ⟨hnodup, hlt⟩ := hs.topicState topic qos
      refine ⟨?_, fun r hr => ?_⟩
      · refine List.nodup_append.mpr ⟨hnodup, List.nodup_singleton _, fun r hr r' hr' heq => ?_⟩
        rw [heq, List.mem_singleton.mp hr'] at hr
        exact absurd (hlt _ hr) (lt_irrefl _)
      rcases List.mem_append.mp hr with hold | hnew
      · exact (hlt r hold).trans (Nat.lt_succ_self _)
      · rw [List.mem_singleton.mp hnew]
        exact Nat.lt_succ_self _
    · obtain ⟨hnodup, hlt⟩ := hs.lists topic' st' hold
      exact ⟨hnodup, fun r hr => (hlt r hr).trans (Nat.lt_succ_self _)⟩

/-- Taking the mutex, with a sample of another publisher. -/
lemma publish {x : Delivery} (hx : x.publisher ≠ some k) (qos : DeliveryQoS) {st : TopicState}
    (hsubscribers : st.subscribers = (s.topicState cfg x.sample.topic qos).subscribers)
    (hcache : st.cache <+ (s.topicState cfg x.sample.topic qos).cache ++ [x]) :
    Frame cfg k s { s with topics := s.topics.insert x.sample.topic st, locked := true } :=
  { refl hs with
    caches := fun topic st' hst' => by
      rcases Table.lookup_insert_eq_some.mp hst' with ⟨rfl, rfl⟩ | ⟨-, hold⟩
      · have hnumbers := numbers_sublist (some k) hcache
        rw [numbers_append_of_ne hx] at hnumbers
        rcases s.topicState_cases cfg x.sample.topic qos with hst | hnew
        · exact .inr ⟨_, hst, hnumbers⟩
        · rw [hnew] at hnumbers
          exact .inl (List.sublist_nil.mp hnumbers)
      · exact .inr ⟨st', hold, .refl _⟩
    lists := hs.lists_insert x.sample.topic
      (hsubscribers ▸ hs.topicState x.sample.topic qos) }

lemma lastSample {x : Delivery} (hx : x.publisher ≠ some k) :
    Frame cfg k s { s with lastSample := s.lastSample.insert x.sample.topic x } :=
  { refl hs with
    last := fun topic y hy hpub => by
      rcases Table.lookup_insert_eq_some.mp hy with ⟨-, rfl⟩ | ⟨-, hold⟩
      · exact absurd hpub hx
      · exact hold }

lemma adjust (topic : String) {f : TopicState → TopicState}
    (hcache : ∀ st, (f st).cache = st.cache)
    (hlist : ∀ st, (f st).subscribers <+ st.subscribers) :
    Frame cfg k s { s with topics := s.topics.adjust topic f } := by
  have hold : ∀ topic' st', (s.topics.adjust topic f).lookup topic' = some st' →
      ∃ st, s.topics.lookup topic' = some st ∧ st'.cache = st.cache ∧
        st'.subscribers <+ st.subscribers := by
    intro topic' st' hst'
    rw [Table.lookup_adjust] at hst'
    split at hst'
    · obtain ⟨st, hst, rfl⟩ := Option.map_eq_some_iff.mp hst'
      exact ⟨st, hst, hcache st, hlist st⟩
    · exact ⟨st', hst', rfl, .refl _⟩
  exact
    { refl hs with
      caches := fun topic' st' hst' => by
        obtain ⟨st, hst, hsame, -⟩ := hold topic' st' hst'
        exact .inr ⟨st, hst, by rw [hsame]⟩
      lists := fun topic' st' hst' => by
        obtain ⟨st, hst, -, hsub⟩ := hold topic' st' hst'
        obtain ⟨hnodup, hlt⟩ := hs.lists topic' st hst
        exact ⟨hnodup.sublist hsub, fun r hr => hlt r (hsub.subset hr)⟩ }

lemma eraseReader (eid : EntityId) :
    Frame cfg k s { s with readers := s.readers.erase eid } :=
  { refl hs with
    readers := fun eid' r hr => by
      refine hs.readers eid' r ?_
      rw [← Table.mem_entries_iff] at hr ⊢
      exact (List.kerase_sublist _ _).subset hr }

end Frame


end DeliveryState

end RustDds
