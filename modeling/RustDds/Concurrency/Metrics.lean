import RustDds.Concurrency.Roster
import RustDds.Lib.Tally

/-!
# What the delivery counters say

Each push to a subscriber counts as a delivery or as a drop, by what `push` returned.  Under
`DropOldest` it returns `true` also where it discards the oldest sample of a full queue.  That
one was counted as delivered when it came, and is never counted as dropped (`not_accounts`).

A write to a reader that is closed, and still in the dispatch table, counts as a drop as well.
Where neither happens, every sample for an open subscriber is counted once, and what is counted
as delivered has been received or is queued (`accounts_of_accountable`).

The counters are not state of the model: nothing reads them but the metrics.  A step counts what
it decides, and that is taken from its trace.
-/

namespace RustDds

open scoped List

namespace Subscription

/-- Neither flag is set. -/
def isOpen (sub : Subscription) : Bool := !(sub.unsubscribed || sub.closed)

lemma closed_of_isOpen {sub : Subscription} (h : sub.isOpen = true) : sub.closed = false := by
  rw [isOpen, Bool.not_eq_true', Bool.or_eq_false_iff] at h
  exact h.2

/-- Whether the queue takes the sample. -/
def offered (sub : Subscription) (x : Delivery) : Bool :=
  (sub.policy.offer sub.capacity sub.queue x).1

/-- A sample that comes now discards another. -/
def Discards (sub : Subscription) : Prop :=
  sub.policy = .dropOldest ∧ sub.queue ≠ [] ∧ sub.capacity ≤ sub.queue.length

instance (sub : Subscription) : Decidable sub.Discards := inferInstanceAs (Decidable (_ ∧ _ ∧ _))

/-- Where nothing is discarded, the history grows by what the queue takes. -/
lemma length_history_enqueue {sub : Subscription} (h : ¬ sub.Discards) (x : Delivery) :
    (sub.enqueue x).history.length = sub.history.length + (sub.offered x).toNat := by
  obtain ⟨topic, eid, capacity, policy, closed, unsubscribed, queue, received⟩ := sub
  simp only [history, enqueue, offered, List.length_append, Nat.add_assoc, Nat.add_left_cancel_iff]
  cases policy with
  | dropNewest | block =>
    simp only [BackPressurePolicy.offer]
    split <;> simp
  | dropOldest =>
    simp only [BackPressurePolicy.offer]
    split
    · next hfull =>
      cases queue with
      | nil => rfl
      | cons y queue => exact absurd ⟨rfl, List.cons_ne_nil _ _, hfull⟩ h
    · simp

end Subscription

/-- What a push counts, on the counters of a topic. -/
inductive Counted
  | deliver (topic : String)
  | drop (topic : String)
  deriving DecidableEq

/-- The counters by the result of the push. -/
def Counted.of (topic : String) (accepted : Bool) : Counted :=
  if accepted then .deliver topic else .drop topic

/-- The counters of a topic. -/
structure TopicMetrics where
  deliverCount : UInt64
  dropCount : UInt64
  deriving DecidableEq

/-- `snapshot`.  The counters wrap. -/
def topicMetrics (topic : String) (counted : List Counted) : TopicMetrics :=
  ⟨UInt64.ofNat (counted.count (.deliver topic)), UInt64.ofNat (counted.count (.drop topic))⟩

/-- The endpoints that a call creates on the topic are `Volatile`. -/
def DeliveryCall.VolatileOn (topic : String) : DeliveryCall → Prop
  | .newPublisher _ topic' qos | .newSubscriber _ topic' qos _ =>
    topic' = topic → qos.transientLocal = false
  | _ => True

/-- A push is under way. -/
def DeliveryTask.Delivering : DeliveryTask → Prop
  | .push .. | .enqueue .. => True
  | _ => False

instance : DecidablePred DeliveryTask.Delivering := fun t => by
  unfold DeliveryTask.Delivering
  split <;> infer_instance

namespace DeliveryState

variable (cfg : DeliveryConfig) (topic : String)

/-- Nothing comes from elsewhere: no sample is received, and what is in the rendezvous file is
from this process. -/
def Local : Turn → Prop
  | .env (.recv _) => True
  | .env (.arrive ..) => False
  | .task _ rd => ∀ d ∈ rd.file, d.originId = cfg.originId

instance : DecidablePred (Local cfg)
  | .env (.recv _) => inferInstanceAs (Decidable True)
  | .env (.arrive ..) => inferInstanceAs (Decidable False)
  | .task _ rd => inferInstanceAs (Decidable (∀ d ∈ rd.file, d.originId = cfg.originId))

/-- The topic on whose counters a push of `x` to `r` is counted. -/
def countedOn (s : DeliveryState) (r : ℕ) (x : Delivery) : String :=
  if cfg.transport = .rtps then ((s.subscriptions[r]?).map Subscription.topic).getD ""
  else x.sample.topic

/-- What the step of a task counts. -/
def countedBy (s : DeliveryState) : DeliveryTask → List Counted
  | .push (r :: _) x => if s.isShut r then [.of (s.countedOn cfg r x) false] else []
  | .enqueue r _ x =>
    [.of (s.countedOn cfg r x)
      ((s.subscriptions[r]?.map fun sub => sub.offered (addressed cfg x sub)).getD false)]
  | _ => []

/-- What a step counts. -/
def counted (p : Pool DeliveryState DeliveryTask) : Turn → List Counted
  | .env (.recv _) => []
  | .env (.arrive r sample) =>
    if cfg.transport = .rtps then
      (p.shared.subscriptions[r]?.map fun sub =>
        Counted.of sub.topic (sub.inner.push sample).1).toList
    else []
  | .task i _ => p.shared.countedBy cfg (p.task i)

/-- A write of `x` is for this subscriber. -/
def isFor (x : Delivery) (sub : Subscription) : Bool :=
  sub.topic = x.sample.topic || (cfg.transport = .rtps && topicMatches sub.topic x.sample.topic)

/-- The subscribers on the topic that are open, and that a write of `x` is for. -/
def openSubscribers (s : DeliveryState) (x : Delivery) : ℕ :=
  s.subscriptions.countP fun sub => sub.isOpen && sub.topic = topic && isFor cfg x sub

/-- How many open subscribers there are on the topic when a write looks for them. -/
def addressedBy (s : DeliveryState) : DeliveryTask → List ℕ
  | .retain [] x | .snapshot x => [s.openSubscribers cfg topic x]
  | _ => []

/-- The same of a step. -/
def addressees (p : Pool DeliveryState DeliveryTask) : Turn → List ℕ
  | .env _ => []
  | .task i _ => p.shared.addressedBy cfg topic (p.task i)

/-- What the subscribers on the topic have received, and what waits for them. -/
def held (s : DeliveryState) : ℕ :=
  (s.subscriptions.map fun sub => if sub.topic = topic then sub.history.length else 0).sum

/-- The counters of a topic after a run. -/
def metricsAfter (calls : ℕ → DeliveryCall) (turns : List Turn) : TopicMetrics :=
  topicMetrics topic (Run.trace (program cfg).step (counted cfg) (start calls) turns)

/-- When no push is under way, every sample for an open subscriber on the topic is counted, and
what is counted as delivered has been received or is queued. -/
structure Accounts (calls : ℕ → DeliveryCall) (turns : List Turn) : Prop where
  outcomes : (∀ i, ¬ (((program cfg).run (start calls) turns).task i).Delivering) →
    (metricsAfter cfg topic calls turns).deliverCount.toNat +
        (metricsAfter cfg topic calls turns).dropCount.toNat =
      (Run.trace (program cfg).step (addressees cfg topic) (start calls) turns).sum
  delivered : (∀ i, ¬ (((program cfg).run (start calls) turns).task i).Delivering) →
    (metricsAfter cfg topic calls turns).deliverCount.toNat =
      ((program cfg).run (start calls) turns).shared.held topic

/-- What the step of a task must not do, for the counters to be right: address a subscriber on the
topic that is closed, or discard a sample. -/
def Sparing (s : DeliveryState) : DeliveryTask → Prop
  | .retain [] x => ∀ r ∈ s.subscribersOn x.sample.topic,
    s.countedOn cfg r x = topic → s.isShut r = false
  | .snapshot x => ∀ r ∈ s.matchingReaders x.sample.topic,
    s.countedOn cfg r x = topic → s.isShut r = false
  | .enqueue r _ x => s.countedOn cfg r x = topic → ∀ sub ∈ s.subscriptions[r]?, ¬ sub.Discards
  | _ => True

instance (s : DeliveryState) (t : DeliveryTask) : Decidable (s.Sparing cfg topic t) := by
  unfold Sparing
  split <;> infer_instance

/-- Nor may it give a reader an entity id that was given before. -/
def Accountable (p : Pool DeliveryState DeliveryTask) : Turn → Prop
  | .env _ => True
  | .task i _ => p.shared.Fresh (p.task i) ∧ p.shared.Sparing cfg topic (p.task i)

instance (p : Pool DeliveryState DeliveryTask) : DecidablePred (Accountable cfg topic p)
  | .env _ => inferInstanceAs (Decidable True)
  | .task _ _ => inferInstanceAs (Decidable (_ ∧ _))

end DeliveryState

/-! ## What a step does -/

/-- What is left of a call, where those who subscribe to the topic are `Volatile` and nothing
comes from elsewhere.  A push is on its way to subscribers that are there, and with a broker to
those of its topic. -/
def DeliveryTask.Plain (cfg : DeliveryConfig) (topic : String) (s : DeliveryState) :
    DeliveryTask → Prop
  | .call c => c.VolatileOn topic
  | .subscribe topic' qos _ | .insertReader topic' qos _ _ =>
    topic' = topic → qos.transientLocal = false
  | .deliverCached r => ∃ sub, s.subscriptions[r]? = some sub ∧ sub.topic ≠ topic
  | .pushRead .. | .enqueueRead .. => False
  | .retain _ _ => cfg.transport ≠ .rtps
  | .snapshot _ => cfg.transport = .rtps
  | .push left x => ∀ r ∈ left, ∃ sub, s.subscriptions[r]? = some sub ∧
    (cfg.transport ≠ .rtps → sub.topic = x.sample.topic)
  | .enqueue r left x => ∀ r' ∈ r :: left, ∃ sub, s.subscriptions[r']? = some sub ∧
    (cfg.transport ≠ .rtps → sub.topic = x.sample.topic)
  | _ => True

namespace DeliveryState

variable {cfg : DeliveryConfig} {topic : String} {s s' : DeliveryState} {t : DeliveryTask}

/-- How many pushes a task still owes the subscribers on the topic. -/
def pending (cfg : DeliveryConfig) (topic : String) (s : DeliveryState) : DeliveryTask → ℕ
  | .push left x => left.countP fun r => s.countedOn cfg r x = topic
  | .enqueue r left x => (r :: left).countP fun r' => s.countedOn cfg r' x = topic
  | _ => 0

lemma countedOn_eq {r : ℕ} {x : Delivery} {sub : Subscription}
    (hsub : s.subscriptions[r]? = some sub)
    (htopic : cfg.transport ≠ .rtps → sub.topic = x.sample.topic) :
    s.countedOn cfg r x = sub.topic := by
  rw [countedOn]
  split
  · rw [hsub]
    rfl
  · next hbroker => exact (htopic hbroker).symm

/-- A task that does not move is what it was, and owes what it owed. -/
lemma Alters.found (halters : Alters cfg s s' t) {r : ℕ} {x : Delivery}
    (h : ∃ sub, s.subscriptions[r]? = some sub ∧
      (cfg.transport ≠ .rtps → sub.topic = x.sample.topic)) :
    (∃ sub, s'.subscriptions[r]? = some sub ∧
      (cfg.transport ≠ .rtps → sub.topic = x.sample.topic)) ∧
        s'.countedOn cfg r x = s.countedOn cfg r x := by
  obtain ⟨sub, hsub, htopic⟩ := h
  obtain ⟨sub', hsub', hsame⟩ := halters.topic_kept hsub
  have htopic' : cfg.transport ≠ .rtps → sub'.topic = x.sample.topic :=
    fun hbroker => hsame.trans (htopic hbroker)
  refine ⟨⟨sub', hsub', htopic'⟩, ?_⟩
  rw [countedOn_eq hsub htopic, countedOn_eq hsub' htopic', hsame]

lemma Alters.plain (halters : Alters cfg s s' t) {u : DeliveryTask} (h : u.Plain cfg topic s) :
    u.Plain cfg topic s' := by
  cases u with
  | deliverCached r =>
    obtain ⟨sub, hsub, hne⟩ := h
    obtain ⟨sub', hsub', hsame⟩ := halters.topic_kept hsub
    exact ⟨sub', hsub', hsame ▸ hne⟩
  | push left x => exact fun r hr => (halters.found (h r hr)).1
  | enqueue r left x => exact fun r' hr' => (halters.found (h r' hr')).1
  | _ => exact h

lemma Alters.pending_eq (halters : Alters cfg s s' t) {u : DeliveryTask}
    (h : u.Plain cfg topic s) : s'.pending cfg topic u = s.pending cfg topic u := by
  cases u with
  | push left x =>
    exact List.countP_congr fun r hr => by rw [(halters.found (h r hr)).2]
  | enqueue r left x =>
    exact List.countP_congr fun r' hr' => by rw [(halters.found (h r' hr')).2]
  | _ => rfl

/-- A task that is not at a push, nor about to look for subscribers, comes to no push. -/
lemma plain_move_of_idle {rd : Reading} (hrd : ∀ d ∈ rd.file, d.originId = cfg.originId)
    (h : t.Plain cfg topic s) (hretain : ∀ x, t ≠ .retain [] x) (hsnapshot : ∀ x, t ≠ .snapshot x)
    (hidle : ¬ t.Delivering) :
    (s.move cfg rd t).2.Plain cfg topic (s.move cfg rd t).1 ∧
      (s.move cfg rd t).1.pending cfg topic (s.move cfg rd t).2 = 0 := by
  have hmoves := moves_move cfg rd s t
  generalize s.move cfg rd t = moved at hmoves ⊢
  cases hmoves with
  | waits =>
    refine ⟨h, ?_⟩
    cases t with
    | push | enqueue => exact absurd trivial hidle
    | _ => rfl
  | newSubscriber | newReader | spare | sweep => exact ⟨h, rfl⟩
  | subscribe _ _ _ _ _ _ _ _ ht | storeClosed _ _ ht =>
    rw [ht]
    dsimp only
    split <;> exact ⟨trivial, rfl⟩
  | insertReader topic' qos opts eid _ ht =>
    rw [ht]
    dsimp only
    split
    · next hlocal =>
      refine ⟨⟨.new topic' eid opts, List.getElem?_concat_length .., fun heq => ?_⟩, rfl⟩
      exact absurd hlocal (by rw [h heq]; exact Bool.false_ne_true)
    · exact ⟨trivial, rfl⟩
  | readFirst r _ d hfile hforeign | readFile r _ d hfile hforeign =>
    exact absurd (hrd d hfile) hforeign
  | skipRead | pushRead | enqueueRead => exact h.elim
  | publish x hrtps => exact ⟨hrtps, rfl⟩
  | cache x qos hbroker => exact ⟨hbroker, rfl⟩
  | retain x => exact absurd rfl (hretain x)
  | snapshot x => exact absurd rfl (hsnapshot x)
  | skip | push | written | unlock | enqueue => exact absurd trivial hidle
  | _ => exact ⟨trivial, rfl⟩

/-! ### A write that has found its subscribers -/

lemma isShut_eq {r : ℕ} {sub : Subscription} (hsub : s.subscriptions[r]? = some sub) :
    s.isShut r = !sub.isOpen := by
  rw [isShut, hsub, Subscription.isOpen, Bool.not_not]
  rfl

/-- The list of a topic has its open subscribers, where none of it is closed. -/
lemma countP_subscribersOn (hroster : Roster cfg s) (hbroker : cfg.transport ≠ .rtps) {x : Delivery}
    (hopen : ∀ r ∈ s.subscribersOn x.sample.topic,
      s.countedOn cfg r x = topic → s.isShut r = false) :
    ((s.subscribersOn x.sample.topic).countP fun r => s.countedOn cfg r x = topic) =
      s.openSubscribers cfg topic x := by
  refine List.countP_eq_of_nodup (hroster.nodup _) fun r => ?_
  simp only [decide_eq_true_eq, Bool.and_eq_true, isFor, Bool.or_eq_true, hbroker, decide_false,
    Bool.false_and, Bool.false_eq_true, or_false]
  constructor
  · rintro ⟨hr, hcounted⟩
    obtain ⟨sub, hsub, htopic⟩ := hroster.topics _ r hr
    have hnot := hopen r hr hcounted
    rw [isShut_eq hsub, Bool.not_eq_false'] at hnot
    rw [countedOn_eq hsub fun _ => htopic] at hcounted
    exact ⟨sub, hsub, ⟨hnot, hcounted⟩, htopic⟩
  · rintro ⟨sub, hsub, ⟨hsubopen, rfl⟩, htopic⟩
    refine ⟨?_, countedOn_eq hsub fun _ => htopic⟩
    exact htopic ▸ hroster.listed hbroker r sub hsub (Subscription.closed_of_isOpen hsubopen)

/-- The dispatch table has the open readers that match a topic, where none of them is closed. -/
lemma countP_matchingReaders (hroster : Roster cfg s) (hrtps : cfg.transport = .rtps) {x : Delivery}
    (hopen : ∀ r ∈ s.matchingReaders x.sample.topic,
      s.countedOn cfg r x = topic → s.isShut r = false) :
    ((s.matchingReaders x.sample.topic).countP fun r => s.countedOn cfg r x = topic) =
      s.openSubscribers cfg topic x := by
  have hnodup : (s.matchingReaders x.sample.topic).Nodup := by
    refine List.Nodup.filter _ (Table.nodup_values fun eid eid' r h h' => ?_)
    obtain ⟨sub, hsub, heid⟩ := hroster.readers eid r h
    obtain ⟨sub', hsub', heid'⟩ := hroster.readers eid' r h'
    rw [hsub, Option.some.injEq] at hsub'
    rw [← heid, ← heid', hsub']
  refine List.countP_eq_of_nodup hnodup fun r => ?_
  simp only [decide_eq_true_eq, Bool.and_eq_true, isFor, Bool.or_eq_true, hrtps, decide_true,
    Bool.true_and]
  constructor
  · rintro ⟨hr, hcounted⟩
    have hnot := hopen r hr hcounted
    obtain ⟨hvalue, hmatches⟩ := List.mem_filter.mp hr
    obtain ⟨eid, heid⟩ := Table.mem_values_iff.mp hvalue
    obtain ⟨sub, hsub, -⟩ := hroster.readers eid r heid
    rw [isShut_eq hsub, Bool.not_eq_false'] at hnot
    rw [countedOn_eq hsub fun hbroker => absurd hrtps hbroker] at hcounted
    rw [hsub] at hmatches
    exact ⟨sub, hsub, ⟨hnot, hcounted⟩, by simpa using hmatches⟩
  · rintro ⟨sub, hsub, ⟨hsubopen, rfl⟩, hmatches⟩
    have hclosed := Subscription.closed_of_isOpen hsubopen
    refine ⟨List.mem_filter.mpr ⟨?_, ?_⟩, countedOn_eq hsub fun hbroker => absurd hrtps hbroker⟩
    · exact Table.mem_values_iff.mpr ⟨sub.eid, hroster.dispatched hrtps r sub hsub hclosed⟩
    · rw [hsub]
      simpa using hmatches

/-! ### The ledger -/

/-- How often a push to a subscriber on the topic was counted. -/
def outcomes (topic : String) (l : List Counted) : ℕ :=
  l.count (.deliver topic) + l.count (.drop topic)

lemma outcomes_append (topic : String) (l l' : List Counted) :
    outcomes topic (l ++ l') = outcomes topic l + outcomes topic l' := by
  simp only [outcomes, List.count_append]
  omega

lemma outcomes_of (topic topic' : String) (accepted : Bool) :
    outcomes topic [.of topic' accepted] = if topic' = topic then 1 else 0 := by
  cases accepted <;> by_cases htopic : topic' = topic <;> simp [outcomes, Counted.of, htopic]

lemma count_of (topic topic' : String) (accepted : Bool) :
    [Counted.of topic' accepted].count (.deliver topic) =
      if topic' = topic then accepted.toNat else 0 := by
  cases accepted <;> by_cases htopic : topic' = topic <;> simp [Counted.of, htopic]

/-- **What a step owes.**  What it counts and what it leaves to be pushed is what it found to be
pushed, and the open subscribers it found. -/
lemma outcomes_move {rd : Reading} (hrd : ∀ d ∈ rd.file, d.originId = cfg.originId)
    (hhonest : t.Honest cfg s) (hroster : Roster cfg s) (h : t.Plain cfg topic s)
    (hsparing : s.Sparing cfg topic t) :
    (s.move cfg rd t).2.Plain cfg topic (s.move cfg rd t).1 ∧
      outcomes topic (s.countedBy cfg t) +
          (s.move cfg rd t).1.pending cfg topic (s.move cfg rd t).2 =
        (s.addressedBy cfg topic t).sum + s.pending cfg topic t := by
  by_cases hretain : ∃ x, t = .retain [] x
  · obtain ⟨x, rfl⟩ := hretain
    refine ⟨fun r hr => ?_, ?_⟩
    · obtain ⟨sub, hsub, htopic⟩ := hroster.topics _ r hr
      exact ⟨sub, hsub, fun _ => htopic⟩
    · have hcount := countP_subscribersOn hroster h hsparing
      change 0 + s.pending cfg topic (.push (s.subscribersOn x.sample.topic) x) =
        s.openSubscribers cfg topic x + 0 + 0
      rw [pending, hcount]
      omega
  by_cases hsnapshot : ∃ x, t = .snapshot x
  · obtain ⟨x, rfl⟩ := hsnapshot
    refine ⟨fun r hr => ?_, ?_⟩
    · obtain ⟨eid, heid⟩ := Table.mem_values_iff.mp (List.mem_of_mem_filter hr)
      obtain ⟨sub, hsub, -⟩ := hroster.readers eid r heid
      exact ⟨sub, hsub, fun hbroker => absurd h hbroker⟩
    · have hcount := countP_matchingReaders hroster h hsparing
      change 0 + s.pending cfg topic (.push (s.matchingReaders x.sample.topic) x) =
        s.openSubscribers cfg topic x + 0 + 0
      rw [pending, hcount]
      omega
  by_cases hidle : t.Delivering
  swap
  · obtain ⟨hplain, hpending⟩ := plain_move_of_idle hrd h (fun x hx => hretain ⟨x, hx⟩)
      (fun x hx => hsnapshot ⟨x, hx⟩) hidle
    refine ⟨hplain, ?_⟩
    rw [hpending]
    cases t with
    | push | enqueue => exact absurd trivial hidle
    | snapshot x => exact absurd ⟨x, rfl⟩ hsnapshot
    | retain left x =>
      cases left with
      | nil => exact absurd ⟨x, rfl⟩ hretain
      | cons => rfl
    | _ => rfl
  cases t with
  | push left x =>
    cases left with
    | nil => exact ⟨trivial, rfl⟩
    | cons r left =>
      have hnone : (s.addressedBy cfg topic (.push (r :: left) x)).sum = 0 := rfl
      rw [hnone, move, countedBy, pending]
      split
      · refine ⟨fun r' hr' => h r' (List.mem_cons_of_mem _ hr'), ?_⟩
        rw [outcomes_of, pending, List.countP_cons]
        simp only [decide_eq_true_eq]
        omega
      · exact ⟨h, rfl⟩
  | enqueue r left x =>
    have halters : Alters cfg s (s.move cfg rd (.enqueue r left x)).1 (.enqueue r left x) :=
      alters_move rd hhonest
    have hleft : (DeliveryTask.push left x).Plain cfg topic s :=
      fun r' hr' => h r' (List.mem_cons_of_mem _ hr')
    refine ⟨halters.plain hleft, ?_⟩
    change outcomes topic [_] + pending cfg topic _ (.push left x) = 0 + List.countP _ (r :: left)
    rw [halters.pending_eq hleft, outcomes_of, pending, List.countP_cons]
    simp only [decide_eq_true_eq]
    omega
  | _ => exact hidle.elim

/-- What the subscribers on the topic hold changes in no step but a push. -/
lemma held_alters (halters : Alters cfg s s' t) (h : t.Plain cfg topic s)
    (hfills : ∀ r, ¬ t.Fills r) : s'.held topic = s.held topic := by
  cases halters with
  | same hsubs | leave _ _ _ hsubs | remove _ _ _ _ hsubs => rw [held, hsubs, held]
  | update r f hf hhistory hstate =>
    rw [hstate]
    refine List.sum_map_modify_of_eq _ _ fun sub _ => ?_
    rw [hf.topic, hhistory.resolve_left (hfills r)]
  | join topic' qos opts sub _ htask htopic hnil hsubs =>
    rw [held, hsubs, List.map_append, List.sum_append, held]
    subst htask htopic
    by_cases heq : sub.topic = topic
    · simp [hnil (h heq)]
    · simp [heq]
  | insert topic' qos opts eid _ hsubs =>
    rw [held, hsubs, List.map_append, List.sum_append, held]
    simp [Subscription.new, Subscription.history]

/-- **What a step delivers.** -/
lemma held_move {rd : Reading} (hhonest : t.Honest cfg s) (h : t.Plain cfg topic s)
    (hsparing : s.Sparing cfg topic t) :
    (s.move cfg rd t).1.held topic =
      s.held topic + (s.countedBy cfg t).count (.deliver topic) := by
  have hcounted : (∀ r, ¬ t.Fills r) → (s.countedBy cfg t).count (.deliver topic) = 0 := by
    intro hfills
    cases t with
    | push left x =>
      cases left with
      | nil => rfl
      | cons r left =>
        rw [countedBy]
        split
        · simp [Counted.of]
        · rfl
    | enqueue r => exact absurd rfl (hfills r)
    | _ => rfl
  by_cases hfills : ∃ r, t.Fills r
  swap
  · have hnone : ∀ r, ¬ t.Fills r := fun r hr => hfills ⟨r, hr⟩
    rw [held_alters (alters_move rd hhonest) h hnone, hcounted hnone, Nat.add_zero]
  obtain ⟨r, hr⟩ := hfills
  cases t with
  | deliverCached r' =>
    obtain ⟨sub, hsub, hne⟩ := h
    rw [move]
    split
    · rfl
    · refine List.sum_map_modify_of_eq _ _ fun sub' hsub' => ?_
      rw [hsub, Option.some.injEq] at hsub'
      subst hsub'
      rw [sub.topic_push, if_neg hne, if_neg hne]
  | enqueueRead => exact h.elim
  | enqueue r' left x =>
    obtain ⟨sub, hsub, htopic⟩ := h r' List.mem_cons_self
    have hcountedOn := countedOn_eq hsub htopic
    have hsum := List.sum_map_modify hsub (fun sub => sub.enqueue (addressed cfg x sub))
      fun sub => if sub.topic = topic then sub.history.length else 0
    change (List.map _ (s.subscriptions.modify r' _)).sum = _
    rw [countedBy, hcountedOn, hsub]
    have hnew : (sub.enqueue (addressed cfg x sub)).topic = sub.topic := rfl
    rw [hnew] at hsum
    rw [count_of, held, Option.map_some, Option.getD_some]
    by_cases heq : sub.topic = topic
    · have hspared : ¬ sub.Discards := hsparing (hcountedOn.trans heq) sub hsub
      rw [if_pos heq, if_pos heq, Subscription.length_history_enqueue hspared] at hsum
      rw [if_pos heq]
      omega
    · rw [if_neg heq, if_neg heq] at hsum
      rw [if_neg heq]
      omega
  | _ => exact hr.elim

/-- What a run keeps: what was counted as delivered is held, and what was counted, with what the
first `n` tasks have still to push, is what the writes found. -/
structure Balanced (cfg : DeliveryConfig) (topic : String) (n : ℕ)
    (p : Pool DeliveryState DeliveryTask) (l : List Counted) (o : List ℕ) : Prop where
  honest : ∀ i, (p.task i).Honest cfg p.shared
  roster : Roster cfg p.shared
  plain : ∀ i, (p.task i).Plain cfg topic p.shared
  owed : outcomes topic l + ∑ i ∈ Finset.range n, p.shared.pending cfg topic (p.task i) = o.sum
  delivered : l.count (.deliver topic) = p.shared.held topic

variable {p : Pool DeliveryState DeliveryTask} {n : ℕ} {l : List Counted} {o : List ℕ}

/-- A `recv` moves a sample from the queue to what has been received. -/
lemma Balanced.recv (h : Balanced cfg topic n p l o) (r : ℕ) :
    Balanced cfg topic n ((program cfg).step p (.env (.recv r))) l o := by
  have halters (t : DeliveryTask) : Alters cfg p.shared ((program cfg).env (.recv r) p.shared) t :=
    alters_recv cfg p.shared r t
  refine ⟨(keeps_step h.honest (.env (.recv r))).2,
    h.roster.alters (halters .done) trivial trivial,
    fun i => (halters .done).plain (h.plain i), ?_, ?_⟩
  · rw [← h.owed]
    refine congrArg _ (Finset.sum_congr rfl fun i _ => ?_)
    exact (halters .done).pending_eq (h.plain i)
  · rw [h.delivered]
    have hplain : DeliveryTask.done.Plain cfg topic p.shared := trivial
    exact (held_alters (halters .done) hplain fun _ => id).symm

/-- **The step.** -/
lemma Balanced.step (h : Balanced cfg topic n p l o) {turn : Turn}
    (hturn : Accountable cfg topic p turn) (hlocal : Local cfg turn)
    (hn : ∀ i rd, turn = .task i rd → i < n) :
    Balanced cfg topic n ((program cfg).step p turn) (l ++ counted cfg p turn)
      (o ++ addressees cfg topic p turn) := by
  cases turn with
  | env e =>
    cases e with
    | recv r =>
      rw [counted, addressees, List.append_nil, List.append_nil]
      exact h.recv r
    | arrive => exact hlocal.elim
  | task i rd =>
    obtain ⟨hfresh, hsparing⟩ := hturn
    have halters : Alters cfg p.shared (p.shared.move cfg rd (p.task i)).1 (p.task i) :=
      alters_move rd (h.honest i)
    obtain ⟨hplain, howed⟩ := outcomes_move hlocal (h.honest i) h.roster (h.plain i) hsparing
    refine ⟨(keeps_step h.honest (.task i rd)).2,
      h.roster.alters halters (h.honest i) hfresh, fun j => ?_, ?_, ?_⟩
    · by_cases hj : j = i
      · subst hj
        rw [Program.task_step_self]
        exact hplain
      · rw [Program.task_step_of_ne _ _ hj]
        exact halters.plain (h.plain j)
    · have hsum := Finset.sum_update_add (Finset.mem_range.mpr (hn i rd rfl))
        (p.shared.move cfg rd (p.task i)).2 fun j (_ : j ≠ i) => halters.pending_eq (h.plain j)
      have hbefore := h.owed
      rw [outcomes_append, List.sum_append]
      change outcomes topic l + outcomes topic (p.shared.countedBy cfg (p.task i)) +
        ∑ j ∈ Finset.range n, (p.shared.move cfg rd (p.task i)).1.pending cfg topic
          (Function.update p.task i (p.shared.move cfg rd (p.task i)).2 j) =
        o.sum + (p.shared.addressedBy cfg topic (p.task i)).sum
      omega
    · rw [List.count_append, h.delivered]
      exact (held_move (h.honest i) (h.plain i) hsparing).symm

lemma balanced_run {calls : ℕ → DeliveryCall} (hvolatile : ∀ i, (calls i).VolatileOn topic)
    {turns : List Turn} (hlocal : ∀ turn ∈ turns, Local cfg turn)
    (h : Run.Each (program cfg).step (Accountable cfg topic) (start calls) turns) :
    ∃ n, Balanced cfg topic n ((program cfg).run (start calls) turns)
      (Run.trace (program cfg).step (counted cfg) (start calls) turns)
      (Run.trace (program cfg).step (addressees cfg topic) (start calls) turns) := by
  obtain ⟨n, hn⟩ := Program.exists_forall_lt turns
  have hturns : Run.Each (program cfg).step (fun p turn => Accountable cfg topic p turn ∧
      Local cfg turn ∧ ∀ i rd, turn = .task i rd → i < n) (start calls) turns := by
    refine Run.each_iff.mpr fun pre turn post hsplit => ?_
    have hmem : turn ∈ turns := hsplit ▸ List.mem_append_right _ List.mem_cons_self
    exact ⟨Run.each_iff.mp h pre turn post hsplit, hlocal turn hmem,
      fun i rd heq => hn i rd (heq ▸ hmem)⟩
  have hstart : Balanced cfg topic n (start calls) [] [] := by
    refine ⟨honest_start cfg calls, roster_new cfg, hvolatile, ?_, rfl⟩
    exact (Nat.zero_add _).trans (Finset.sum_eq_zero fun _ _ => rfl)
  exact ⟨n, hturns.foldl_traces (J := Balanced cfg topic n)
    (fun _ _ _ _ hJ hP => hJ.step hP.1 hP.2.1 hP.2.2) hstart⟩

/-- A step counts one push at most. -/
lemma length_counted_le (cfg : DeliveryConfig) (p : Pool DeliveryState DeliveryTask)
    (turn : Turn) : (counted cfg p turn).length ≤ 1 := by
  cases turn with
  | env e =>
    cases e with
    | recv => exact Nat.zero_le 1
    | arrive r sample =>
      rw [counted]
      split
      · exact Option.length_toList_le
      · exact Nat.zero_le 1
  | task i rd =>
    rw [counted, countedBy.eq_def]
    split
    · split <;> simp
    · exact le_rfl
    · exact Nat.zero_le 1

/-- **The counters.**  Where no reader gets the entity id of another, no write addresses a closed
subscriber on the topic and none discards a sample there, the counters account for every sample
for an open subscriber. -/
theorem accounts_of_accountable (calls : ℕ → DeliveryCall) (turns : List Turn)
    (hvolatile : ∀ i, (calls i).VolatileOn topic) (hlocal : ∀ turn ∈ turns, Local cfg turn)
    (hlength : turns.length < 2 ^ 64)
    (h : Run.Each (program cfg).step (Accountable cfg topic) (start calls) turns) :
    Accounts cfg topic calls turns := by
  obtain ⟨n, hbalanced⟩ := balanced_run hvolatile hlocal h
  set l := Run.trace (program cfg).step (counted cfg) (start calls) turns with hl
  -- no counter has wrapped
  have hexact : ∀ c, (UInt64.ofNat (l.count c)).toNat = l.count c := by
    intro c
    have hcount : l.count c ≤ l.length := List.count_le_length
    have hlong : l.length ≤ turns.length := Run.length_trace_le (length_counted_le cfg) _ _
    exact UInt64.toNat_ofNat_of_lt' (hcount.trans_lt (hlong.trans_lt hlength))
  refine ⟨fun hidle => ?_, fun _ => ?_⟩
  · have hnone : ∑ i ∈ Finset.range n, ((program cfg).run (start calls) turns).shared.pending cfg
        topic (((program cfg).run (start calls) turns).task i) = 0 := by
      refine Finset.sum_eq_zero fun i _ => ?_
      have hi := hidle i
      cases ht : ((program cfg).run (start calls) turns).task i with
      | push | enqueue =>
        rw [ht] at hi
        exact absurd trivial hi
      | _ => rfl
    rw [metricsAfter, ← hl, topicMetrics, hexact, hexact, ← hbalanced.owed, hnone]
    rfl
  · rw [metricsAfter, ← hl, topicMetrics, hexact, hbalanced.delivered]

/-! ### Two runs -/

/-- The step is of one of the first `n` tasks, or of the surroundings. -/
def Among (n : ℕ) : Turn → Prop
  | .task i _ => i < n
  | .env _ => True

instance (n : ℕ) : DecidablePred (Among n)
  | .task i _ => inferInstanceAs (Decidable (i < n))
  | .env _ => inferInstanceAs (Decidable True)

lemma idle_of_among {calls : ℕ → DeliveryCall} {turns : List Turn}
    (hamong : ∀ turn ∈ turns, Among n turn)
    (hidle : ∀ i < n, ¬ (((program cfg).run (start calls) turns).task i).Delivering) (i : ℕ) :
    ¬ (((program cfg).run (start calls) turns).task i).Delivering := by
  by_cases hi : i < n
  · exact hidle i hi
  · rw [Program.task_run_of_notMem _ fun rd hmem => hi (hamong _ hmem)]
    exact id

/-- A subscriber whose queue holds one sample and discards the oldest, and writes. -/
def writesToOne : ℕ → DeliveryCall
  | 0 => .newPublisher 0 "a" .default
  | 1 => .newSubscriber 0 "a" .default ⟨1, .dropOldest⟩
  | i => .write 0 [UInt8.ofNat i]

/-- Two writes that nobody reads in between. -/
def twoWrites : List Turn :=
  List.replicate 3 (turn 0) ++ List.replicate 3 (turn 1) ++ List.replicate 8 (turn 2) ++
    List.replicate 8 (turn 3)

/-- Both samples are counted as delivered, and one is left. -/
theorem not_accounts :
    ¬ ∀ (cfg : DeliveryConfig) (topic : String) (calls : ℕ → DeliveryCall) (turns : List Turn),
      (∀ i, (calls i).VolatileOn topic) → (∀ turn ∈ turns, Local cfg turn) →
        turns.length < 2 ^ 64 → Accounts cfg topic calls turns := by
  intro h
  have hvolatile : ∀ i, (writesToOne i).VolatileOn "a"
    | 0 | 1 => fun _ => rfl
    | _ + 2 => trivial
  have hdelivered := (h (.plain .mock) "a" writesToOne twoWrites hvolatile (by decide +kernel)
    (by decide)).delivered (idle_of_among (n := 4) (by decide +kernel) (by decide +kernel))
  have hcounted :
      (metricsAfter (.plain .mock) "a" writesToOne twoWrites).deliverCount.toNat = 2 := by
    decide +kernel
  have hheld :
      ((program (.plain .mock)).run (start writesToOne) twoWrites).shared.held "a" = 1 := by
    decide +kernel
  rw [hcounted, hheld] at hdelivered
  exact absurd hdelivered (by decide)

/-- A reader for each policy, and writes. -/
def writesToThree : ℕ → DeliveryCall
  | 0 => .newPublisher 0 "a" .default
  | 1 => .newSubscriber 0 "a" .default ⟨1, .dropNewest⟩
  | 2 => .newSubscriber 0 "a" .default ⟨1, .block⟩
  | 3 => .newSubscriber 0 "a" .default ⟨1, .dropOldest⟩
  | i => .write 0 [UInt8.ofNat i]

/-- The third reader takes the first sample before the second comes. -/
def readInBetween : List Turn :=
  List.replicate 3 (turn 0) ++ List.replicate 4 (turn 1) ++ List.replicate 4 (turn 2) ++
    List.replicate 4 (turn 3) ++ List.replicate 11 (turn 4) ++ [.env (.recv 2)] ++
      List.replicate 11 (turn 5)

/-- Four samples are delivered, and two are dropped. -/
theorem accounts_readInBetween :
    Accounts (.plain .rtps) "a" writesToThree readInBetween ∧
      metricsAfter (.plain .rtps) "a" writesToThree readInBetween = ⟨4, 2⟩ := by
  have hvolatile : ∀ i, (writesToThree i).VolatileOn "a"
    | 0 | 1 | 2 | 3 => fun _ => rfl
    | _ + 4 => trivial
  refine ⟨?_, by decide +kernel⟩
  exact accounts_of_accountable writesToThree readInBetween hvolatile (by decide +kernel)
    (by decide) (by decide +kernel)

end DeliveryState

end RustDds
