import RustDds.Mock.Broker

/-!
# What a late joiner is served

A topic caches the samples of its `TransientLocal` publishers, all in one cache, and the depth of
the cache is the one that was asked for by whoever used the topic first, a publisher or a
subscriber (`cache_entry_run`).  A subscriber that joins is pushed the cache, of which its queue
takes what it has room for.

So what a joiner gets of one publisher is the last samples of it that the publisher's own depth
promises only if the cache happens to hold that many of them and the queue takes these
(`servesHistory_of_kept`).
-/

namespace RustDds

open scoped List

namespace BrokerEvent

/-- The sample, where it is one of publisher `k`. -/
def sampleOf (k : ℕ) : BrokerEvent → Option Delivery
  | .publish k' sample => if k' = k then some ⟨some k', sample⟩ else none
  | _ => none

/-- The sample, where it is cached for the topic. -/
def cached (pubs : ℕ → MockPublisher) (topic : String) : BrokerEvent → Option Delivery
  | .publish k sample =>
    if (pubs k).topic = topic ∧ (pubs k).qos.transientLocal then some ⟨some k, sample⟩ else none
  | _ => none

/-- The QoS that a use of the topic comes with. -/
def asked (pubs : ℕ → MockPublisher) (topic : String) : BrokerEvent → Option DeliveryQoS
  | .publish k _ => if (pubs k).topic = topic then some (pubs k).qos else none
  | .subscribe topic' qos _ => if topic' = topic then some qos else none
  | _ => none

end BrokerEvent

/-- The samples of publisher `k`. -/
def ofPublisher (k : ℕ) (l : List Delivery) : List Delivery :=
  l.filter fun x => x.publisher = some k

namespace Broker

variable {b : Broker} {pubs : ℕ → MockPublisher} {events : List BrokerEvent}

/-! ## The cache -/

/-- The depth of a topic after a run: what its first use asked for, or what this one does. -/
def depthOf (pubs : ℕ → MockPublisher) (events : List BrokerEvent) (topic : String)
    (qos : DeliveryQoS) : ℕ :=
  (max ((events.filterMap (BrokerEvent.asked pubs topic)).headD qos).historyDepth 1).toNat

lemma entry_insert (topics : Table String TopicState) (subs : List Subscription)
    (topic topic' : String) (st : TopicState) (qos : DeliveryQoS) :
    entry ⟨topics.insert topic st, subs⟩ topic' qos =
      if topic' = topic then st else entry ⟨topics, subs⟩ topic' qos := by
  rw [entry, entry]
  split
  · rename_i heq
    rw [heq, AList.lookup_insert]
    rfl
  · rename_i hne
    rw [AList.lookup_insert_ne hne]

lemma depthOf_pos (pubs : ℕ → MockPublisher) (events : List BrokerEvent) (topic : String)
    (qos : DeliveryQoS) : 0 < depthOf pubs events topic qos := by
  rw [depthOf]
  omega

lemma depthOf_concat_of_asked {topic : String} {e : BrokerEvent} {q : DeliveryQoS}
    (h : e.asked pubs topic = some q) (qos : DeliveryQoS) :
    depthOf pubs (events ++ [e]) topic qos = depthOf pubs events topic q := by
  rw [depthOf, depthOf, List.filterMap_append]
  cases events.filterMap (BrokerEvent.asked pubs topic) with
  | nil => simp [h]
  | cons q' l => rfl

lemma depthOf_concat_of_not_asked {topic : String} {e : BrokerEvent}
    (h : e.asked pubs topic = none) (qos : DeliveryQoS) :
    depthOf pubs (events ++ [e]) topic qos = depthOf pubs events topic qos := by
  rw [depthOf, depthOf, List.filterMap_append]
  simp [h]

/-- The topic caches the last `depth` of these. -/
def Caches (depth : ℕ) (l : List Delivery) (st : TopicState) : Prop :=
  st.historyDepth = depth ∧ st.cache = l.rtake depth

lemma caches_pushToCache {depth : ℕ} {l : List Delivery} {st : TopicState}
    (h : Caches depth l st) (hdepth : 0 < depth) (x : Delivery) :
    Caches depth (l ++ [x]) (st.pushToCache x) := by
  obtain ⟨rfl, hcache⟩ := h
  rw [TopicState.pushToCache, if_pos hdepth]
  refine ⟨rfl, ?_⟩
  rw [← List.rtake_bounded hdepth, ← hcache]
  rfl

/-- **The cache of a topic** is the end of all that was stored for it. -/
lemma caches_run (pubs : ℕ → MockPublisher) (events : List BrokerEvent) (topic : String)
    (qos : DeliveryQoS) :
    Caches (depthOf pubs events topic qos) (events.filterMap (BrokerEvent.cached pubs topic))
      ((run pubs events).entry topic qos) := by
  induction events using List.reverseRecOn generalizing qos with
  | nil => exact ⟨rfl, (@List.rtake_nil Delivery _).symm⟩
  | append_singleton events e ih =>
    rw [run_concat, List.filterMap_append]
    cases e with
    | publish k sample =>
      rw [step, publish, entry_insert]
      by_cases htopic : (pubs k).topic = topic
      · subst htopic
        have hasked : (BrokerEvent.publish k sample).asked pubs (pubs k).topic =
            some (pubs k).qos := if_pos rfl
        rw [if_pos rfl, depthOf_concat_of_asked hasked]
        by_cases hlocal : (pubs k).qos.transientLocal = true
        · have hcached : (BrokerEvent.publish k sample).cached pubs (pubs k).topic =
              some ⟨some k, sample⟩ := if_pos ⟨rfl, hlocal⟩
          rw [if_pos hlocal, List.filterMap_cons_some hcached, List.filterMap_nil]
          exact caches_pushToCache (ih _) (depthOf_pos ..) _
        · have hcached : (BrokerEvent.publish k sample).cached pubs (pubs k).topic = none :=
            if_neg fun h => hlocal h.2
          rw [if_neg hlocal, List.filterMap_cons_none hcached,
            List.filterMap_nil, List.append_nil]
          exact ih _
      · have hasked : (BrokerEvent.publish k sample).asked pubs topic = none := if_neg htopic
        have hcached : (BrokerEvent.publish k sample).cached pubs topic = none :=
          if_neg fun h => htopic h.1
        rw [if_neg (Ne.symm htopic), depthOf_concat_of_not_asked hasked,
          List.filterMap_cons_none hcached, List.filterMap_nil, List.append_nil]
        exact ih qos
    | subscribe topic' q opts =>
      rw [step, subscribe, entry_insert, List.filterMap_cons_none rfl, List.filterMap_nil,
        List.append_nil]
      by_cases htopic : topic' = topic
      · subst htopic
        have hasked : (BrokerEvent.subscribe topic' q opts).asked pubs topic' = some q :=
          if_pos rfl
        rw [if_pos rfl, depthOf_concat_of_asked hasked]
        exact ih q
      · have hasked : (BrokerEvent.subscribe topic' q opts).asked pubs topic = none :=
          if_neg htopic
        rw [if_neg (Ne.symm htopic), depthOf_concat_of_not_asked hasked]
        exact ih qos
    | recv r | close r | unsubscribe r =>
      rw [depthOf_concat_of_not_asked rfl, List.filterMap_cons_none rfl, List.filterMap_nil,
        List.append_nil]
      exact ih qos

end Broker

/-! ## The queue of a joiner -/

/-- What an empty queue takes of these. -/
def BackPressurePolicy.taken {α : Type*} (policy : BackPressurePolicy) (capacity : ℕ)
    (l : List α) : List α :=
  match policy with
  | .dropOldest => l.rtake capacity
  | .dropNewest | .block => l.take capacity

lemma BackPressurePolicy.foldl_offer {α : Type*} (policy : BackPressurePolicy) {capacity : ℕ}
    (hcapacity : 0 < capacity) (l : List α) :
    l.foldl (fun queue x => (policy.offer capacity queue x).2) [] = policy.taken capacity l := by
  have hreject : ∀ queue : List α, queue.length ≤ capacity →
      l.foldl (fun queue x => if queue.length ≥ capacity then queue else queue ++ [x]) queue =
        (queue ++ l).take capacity := by
    intro queue hqueue
    induction l generalizing queue with
    | nil => rw [List.foldl_nil, List.append_nil, List.take_of_length_le hqueue]
    | cons x l ih =>
      rw [List.foldl_cons]
      split
      · rename_i hfull
        rw [ih queue hqueue, List.take_append_of_le_length hfull,
          List.take_append_of_le_length hfull]
      · rename_i hroom
        rw [ih, List.append_assoc, List.singleton_append]
        rw [List.length_append, List.length_singleton]
        omega
  cases policy with
  | dropOldest =>
    have hfold := List.foldl_bounded hcapacity [] l
    rwa [List.rtake_nil, List.nil_append] at hfold
  | dropNewest | block =>
    rw [taken, ← List.nil_append l, ← hreject [] (Nat.zero_le _), List.nil_append]
    congr 1
    funext queue x
    simp only [offer]
    split <;> rfl

namespace Subscription

lemma foldl_push_of_open {sub : Subscription} (hunsubscribed : sub.unsubscribed = false)
    (hclosed : sub.closed = false) (l : List Delivery) :
    l.foldl push sub = { sub with
      queue := l.foldl (fun queue x => (sub.policy.offer sub.capacity queue x).2) sub.queue } := by
  induction l generalizing sub with
  | nil => rfl
  | cons x l ih =>
    have hpush : sub.push x = sub.enqueue x := by
      rw [push, hunsubscribed, hclosed]
      rfl
    rw [List.foldl_cons, hpush, ih (by exact hunsubscribed) (by exact hclosed)]
    rfl

/-- What a new subscriber has after it was pushed these. -/
lemma history_foldl_push_new (topic : String) (eid : EntityId) (opts : SubscriberOptions)
    (l : List Delivery) :
    (l.foldl push (new topic eid opts)).history =
      opts.backPressure.taken (opts.chanDepth 64) l := by
  have hcapacity : 0 < opts.chanDepth 64 := by
    rw [SubscriberOptions.chanDepth]
    split <;> omega
  rw [foldl_push_of_open rfl rfl]
  exact opts.backPressure.foldl_offer hcapacity l

/-- The next push takes a sample of publisher `k` from the queue. -/
def Evicts (k : ℕ) (sub : Subscription) : Prop :=
  sub.unsubscribed = false ∧ sub.closed = false ∧ sub.policy = .dropOldest ∧
    sub.queue.length ≥ sub.capacity ∧ ∃ y ∈ sub.queue.head?, y.publisher = some k

instance (k : ℕ) (sub : Subscription) : Decidable (sub.Evicts k) :=
  inferInstanceAs (Decidable (_ ∧ _ ∧ _ ∧ _ ∧ _))

/-- A push that evicts no sample of the publisher adds the sample, if it is accepted. -/
lemma ofPublisher_history_push {k : ℕ} {sub : Subscription} (h : ¬ sub.Evicts k) (x : Delivery) :
    ofPublisher k (sub.push x).history = ofPublisher k sub.history ++
      ofPublisher k (if (sub.inner.push x.sample).1 then [x] else []) := by
  have haccepts : (sub.inner.push x.sample).1 = if sub.unsubscribed || sub.closed then false
      else (sub.policy.offer sub.capacity sub.queue x).1 := by
    rw [SubInner.push_eq, SubInner.enqueue_eq_offer, apply_ite Prod.fst]
    change (if (sub.unsubscribed || sub.closed) = true then false else
      (sub.policy.offer sub.capacity (sub.queue.map Delivery.sample) x.sample).1) = _
    rw [BackPressurePolicy.offer_map]
  rw [haccepts, push]
  split
  · rw [if_neg Bool.false_ne_true]
    exact (List.append_nil _).symm
  rename_i hshut
  obtain ⟨hunsubscribed, hclosed⟩ : sub.unsubscribed = false ∧ sub.closed = false := by
    simpa using hshut
  rw [enqueue, history, history]
  dsimp only
  simp only [ofPublisher, List.filter_append, List.append_assoc]
  refine congrArg _ ?_
  cases hpolicy : sub.policy with
  | dropNewest | block =>
    simp only [BackPressurePolicy.offer]
    split <;> simp
  | dropOldest =>
    simp only [BackPressurePolicy.offer, if_true, List.filter_append]
    refine congrArg (· ++ _) ?_
    split
    · rename_i hfull
      cases hqueue : sub.queue with
      | nil => rfl
      | cons y queue =>
        have hy : y.publisher ≠ some k := fun heq =>
          h ⟨hunsubscribed, hclosed, hpolicy, hfull, y, by rw [hqueue]; rfl, heq⟩
        rw [List.tail_cons, List.filter_cons_of_neg (by simpa using hy)]
    · rfl

end Subscription

/-! ## What a joiner is served -/

namespace Broker

variable {pubs : ℕ → MockPublisher} {before after : List BrokerEvent} {topic : String}
  {qos : DeliveryQoS} {opts : SubscriberOptions} {k : ℕ}

/-- What the queue of subscriber `r` accepts of an event. -/
def accepted (pubs : ℕ → MockPublisher) (r : ℕ) (b : Broker) : BrokerEvent → List Delivery
  | .publish k sample =>
    match b.subscriptions[r]? with
    | none => []
    | some sub =>
      if sub.topic = (pubs k).topic ∧ (sub.inner.push sample).1 = true then [⟨some k, sample⟩]
      else []
  | _ => []

/-- Of publisher `k`, a subscriber that joins after `before` has the last samples as the depth of
the publisher says, and then all that its queue accepted. -/
def ServesHistory (pubs : ℕ → MockPublisher) (before : List BrokerEvent) (topic : String)
    (qos : DeliveryQoS) (opts : SubscriberOptions) (after : List BrokerEvent) (k : ℕ) : Prop :=
  let r := (run pubs before).subscriptions.length
  let joined := (run pubs before).subscribe topic qos opts
  ∃ sub, (after.foldl (step pubs) joined).subscriptions[r]? = some sub ∧
    ofPublisher k sub.history =
      (before.filterMap (BrokerEvent.sampleOf k)).rtake (pubs k).qos.historyDepth.toNat ++
        ofPublisher k (Run.trace (step pubs) (accepted pubs r) joined after)

/-- Among what the cache of the topic holds, and among what the queue takes of it, are as many
samples of publisher `k` as its depth says, if it has written so many. -/
def KeptFor (pubs : ℕ → MockPublisher) (before : List BrokerEvent) (topic : String)
    (qos : DeliveryQoS) (opts : SubscriberOptions) (k : ℕ) : Prop :=
  let stored := (before.filterMap (BrokerEvent.cached pubs topic)).rtake
    (depthOf pubs before topic qos)
  let promised := min (pubs k).qos.historyDepth.toNat
    (before.filterMap (BrokerEvent.sampleOf k)).length
  (ofPublisher k (opts.backPressure.taken (opts.chanDepth 64) stored)).length = promised ∧
    (opts.backPressure ≠ .dropOldest → (ofPublisher k stored).length = promised)

/-- The event evicts no sample of publisher `k` from the queue of subscriber `r`. -/
def Spares (pubs : ℕ → MockPublisher) (r k : ℕ) (b : Broker) : BrokerEvent → Prop
  | .publish k' _ => ∀ sub ∈ b.subscriptions[r]?, sub.topic = (pubs k').topic → ¬ sub.Evicts k
  | _ => True

instance (pubs : ℕ → MockPublisher) (r k : ℕ) (b : Broker) : DecidablePred (Spares pubs r k b)
  | .publish k' _ => inferInstanceAs (Decidable
      (∀ sub ∈ b.subscriptions[r]?, sub.topic = (pubs k').topic → ¬ sub.Evicts k))
  | .subscribe .. | .recv _ | .close _ | .unsubscribe _ => inferInstanceAs (Decidable True)

/-- All that a `TransientLocal` publisher writes goes into the cache of its topic. -/
lemma ofPublisher_cached (hlocal : (pubs k).qos.transientLocal = true)
    (events : List BrokerEvent) :
    ofPublisher k (events.filterMap (BrokerEvent.cached pubs (pubs k).topic)) =
      events.filterMap (BrokerEvent.sampleOf k) := by
  rw [ofPublisher, List.filter_filterMap]
  congr 1
  funext e
  cases e with
  | publish k' sample =>
    by_cases hk : k' = k
    · subst hk
      simp [BrokerEvent.cached, BrokerEvent.sampleOf, hlocal]
    · simp only [BrokerEvent.cached, BrokerEvent.sampleOf, if_neg hk]
      split <;> simp [hk]
  | _ => rfl

/-- What the new queue has of the publisher. -/
lemma ofPublisher_taken (hlocal : (pubs k).qos.transientLocal = true)
    (h : KeptFor pubs before (pubs k).topic qos opts k) :
    ofPublisher k (opts.backPressure.taken (opts.chanDepth 64)
      ((before.filterMap (BrokerEvent.cached pubs (pubs k).topic)).rtake
        (depthOf pubs before (pubs k).topic qos))) =
      (before.filterMap (BrokerEvent.sampleOf k)).rtake (pubs k).qos.historyDepth.toNat := by
  obtain ⟨htaken, hstored⟩ := h
  have hsuffix : ofPublisher k ((before.filterMap
      (BrokerEvent.cached pubs (pubs k).topic)).rtake (depthOf pubs before (pubs k).topic qos)) <:+
        before.filterMap (BrokerEvent.sampleOf k) := by
    rw [← ofPublisher_cached hlocal before]
    exact (List.rtake_suffix _ _).filter _
  revert htaken hstored hsuffix
  generalize (before.filterMap (BrokerEvent.cached pubs (pubs k).topic)).rtake
    (depthOf pubs before (pubs k).topic qos) = stored
  intro htaken hstored hsuffix
  have hstart : opts.backPressure ≠ .dropOldest →
      opts.backPressure.taken (opts.chanDepth 64) stored <+: stored := by
    intro hpolicy
    cases hcases : opts.backPressure with
    | dropOldest => exact absurd hcases hpolicy
    | dropNewest | block => exact List.take_prefix _ _
  by_cases hpolicy : opts.backPressure = .dropOldest
  · refine List.eq_rtake_of_suffix ?_ htaken
    rw [hpolicy]
    exact ((List.rtake_suffix _ _).filter _).trans hsuffix
  · have hall : ofPublisher k (opts.backPressure.taken (opts.chanDepth 64) stored) =
        ofPublisher k stored :=
      ((hstart hpolicy).filter _).eq_of_length (htaken.trans (hstored hpolicy).symm)
    rw [hall]
    exact List.eq_rtake_of_suffix hsuffix (hstored hpolicy)

lemma served_step {b : Broker} {r : ℕ} {base l : List Delivery} (hlisted : b.Listed)
    (h : ∃ sub, b.subscriptions[r]? = some sub ∧
      ofPublisher k sub.history = base ++ ofPublisher k l) {e : BrokerEvent}
    (hspares : Spares pubs r k b e) :
    ∃ sub, (step pubs b e).subscriptions[r]? = some sub ∧
      ofPublisher k sub.history = base ++ ofPublisher k (l ++ accepted pubs r b e) := by
  obtain ⟨sub, hsub, hhistory⟩ := h
  have hmodify : ∀ r' (f : Subscription → Subscription), (∀ sub, (f sub).history = sub.history) →
      ∃ sub', (b.modifySub r' f).subscriptions[r]? = some sub' ∧
        ofPublisher k sub'.history = base ++ ofPublisher k (l ++ []) := by
    intro r' f hf
    rw [List.append_nil, ← hhistory]
    refine ⟨if r' = r then f sub else sub, ?_, ?_⟩
    · rw [modifySub, List.getElem?_modify, hsub]
      rfl
    · split
      · rw [hf]
      · rfl
  cases e with
  | publish k' sample =>
    rw [step, getElem?_publish hlisted, hsub]
    refine ⟨_, rfl, ?_⟩
    dsimp only
    rw [accepted, hsub]
    dsimp only
    by_cases htopic : sub.topic = (pubs k').topic
    · rw [if_pos htopic, Subscription.ofPublisher_history_push (hspares sub hsub htopic), hhistory,
        List.append_assoc]
      simp only [htopic, true_and, ofPublisher, List.filter_append]
    · rw [if_neg htopic, if_neg fun hboth => htopic hboth.1, List.append_nil]
      exact hhistory
  | subscribe topic' qos' opts' =>
    rw [show accepted pubs r b (.subscribe topic' qos' opts') = [] from rfl, List.append_nil]
    exact ⟨sub, DeliveryState.getElem?_concat_of_eq_some hsub, hhistory⟩
  | recv r' => exact hmodify r' _ Subscription.history_recv
  | close r' | unsubscribe r' => exact hmodify r' _ fun _ => rfl

/-- **What a joiner is served.**  If the cache keeps the last samples of the publisher for it, and
no sample of the publisher is evicted from its queue later, then a `TransientLocal` subscriber
has these and all that its queue accepts from then on, each once and in the order of writing. -/
theorem servesHistory_of_kept (pubs : ℕ → MockPublisher) (before : List BrokerEvent)
    (qos : DeliveryQoS) (opts : SubscriberOptions) (after : List BrokerEvent) (k : ℕ)
    (hlocal : qos.transientLocal = true) (hpublisher : (pubs k).qos.transientLocal = true)
    (hkept : KeptFor pubs before (pubs k).topic qos opts k)
    (hafter : Run.Each (step pubs) (Spares pubs (run pubs before).subscriptions.length k)
      ((run pubs before).subscribe (pubs k).topic qos opts) after) :
    ServesHistory pubs before (pubs k).topic qos opts after k := by
  have hlisted := listed_subscribe (listed_run pubs before) (pubs k).topic qos opts
  refine (hafter.foldl_trace (J := fun b l => b.Listed ∧
      ∃ sub, b.subscriptions[(run pubs before).subscriptions.length]? = some sub ∧
        ofPublisher k sub.history =
          (before.filterMap (BrokerEvent.sampleOf k)).rtake (pubs k).qos.historyDepth.toNat ++
            ofPublisher k l) (l := []) ?_ ⟨hlisted, ?_⟩).2
  · exact fun b e l hJ hspares =>
      ⟨listed_step hJ.1 e, served_step hJ.1 hJ.2 hspares⟩
  · refine ⟨_, List.getElem?_concat_length .., ?_⟩
    rw [if_pos hlocal, Subscription.history_foldl_push_new,
      (caches_run pubs before (pubs k).topic qos).2, ofPublisher_taken hpublisher hkept]
    exact (List.append_nil _).symm

/-! ### Two runs -/

/-- A publisher whose depth is three. -/
def deepPublisher : ℕ → MockPublisher := fun _ => ⟨"a", ⟨true, 3, 0⟩⟩

/-- A sample with this number. -/
def numbered (n : ℕ) : Sample := ⟨"a", [UInt8.ofNat n], 0, n, FixedBytes.zero 16⟩

/-- A volatile subscriber uses the topic first, so its cache has the default depth, and the joiner
gets one sample of two. -/
theorem not_servesHistory :
    ¬ ∀ (pubs : ℕ → MockPublisher) (before : List BrokerEvent) (qos : DeliveryQoS)
      (opts : SubscriberOptions) (after : List BrokerEvent) (k : ℕ),
      qos.transientLocal = true → (pubs k).qos.transientLocal = true →
        1 ≤ (pubs k).qos.historyDepth →
        (pubs k).qos.historyDepth ≤ opts.chanDepth 64 →
          ServesHistory pubs before (pubs k).topic qos opts after k := by
  intro h
  obtain ⟨sub, hsub, hhistory⟩ := h deepPublisher
    [.subscribe "a" .default ⟨0, .dropNewest⟩, .publish 0 (numbered 1), .publish 0 (numbered 2)]
    ⟨true, 3, 0⟩ ⟨0, .dropNewest⟩ [] 0 rfl rfl (by decide) (by decide)
  have hone : ofPublisher 0 sub.history = [⟨some 0, numbered 2⟩] := by
    cases hsub
    rfl
  rw [hone] at hhistory
  exact absurd hhistory (by decide +kernel)

/-- The publisher uses the topic first, and writes more than its cache holds; the joiner reads
slowly, and its queue rejects the last sample. -/
theorem servesHistory_firstUser :
    ServesHistory deepPublisher ((List.range 4).map fun n => .publish 0 (numbered n)) "a"
      ⟨true, 1, 0⟩ ⟨3, .dropNewest⟩
      [.recv 0, .publish 0 (numbered 4), .publish 1 (numbered 1), .publish 0 (numbered 5)] 0 :=
  servesHistory_of_kept deepPublisher _ _ _ _ 0 rfl rfl
    ⟨by decide +kernel, fun _ => by decide +kernel⟩ (by decide +kernel)

end Broker

end RustDds
