import RustDds.Concurrency.Ordering
import RustDds.Lib.Window

/-!
# The broker of the mock participant

A broker has the topics by name and, behind them, the queues of all subscribers.  `publish` and
`subscribe` each run under the mutex of the topics from beginning to end, so here each is one
step; a `recv`, `close` or `unsubscribe` touches one queue only.

A subscriber that is open is on the list of its topic, and nobody is on a list twice (`Listed`).
So a publication is pushed once to every subscriber of its topic (`getElem?_publish`).

The counters are left out.
-/

namespace RustDds

/-- A publisher: where it writes, and how. -/
structure MockPublisher where
  topic : String
  qos : DeliveryQoS

/-- The broker, and the queues of all subscribers in the order in which they were created. -/
structure Broker where
  topics : Table String TopicState
  subscriptions : List Subscription

namespace Broker

/-- No topic. -/
def new : Broker := ⟨∅, []⟩

variable (b : Broker)

/-- The entry of a topic, which is made when it is first needed. -/
def entry (topic : String) (qos : DeliveryQoS) : TopicState :=
  (b.topics.lookup topic).getD (.new .mock qos)

/-- A load of the closed flag. -/
def isClosed (r : ℕ) : Bool := (b.subscriptions[r]?.map Subscription.closed).getD false

/-- Store a sample for later subscribers, take those that are closed off the list, and push it to
the rest. -/
def publish (topic : String) (x : Delivery) (qos : DeliveryQoS) : Broker :=
  let state := b.entry topic qos
  let state := if qos.transientLocal then state.pushToCache x else state
  let subscribers := state.subscribers.filter fun r => !b.isClosed r
  { topics := b.topics.insert topic { state with subscribers }
    subscriptions := subscribers.foldl (fun subs r => subs.modify r fun sub => sub.push x)
      b.subscriptions }

/-- A new queue, with what is stored for it. -/
def subscribe (topic : String) (qos : DeliveryQoS) (opts : SubscriberOptions) : Broker :=
  let inner := Subscription.new topic entityIdUnknown opts
  let state := b.entry topic qos
  let inner := if qos.transientLocal then state.cache.foldl Subscription.push inner else inner
  { topics := b.topics.insert topic
      { state with subscribers := state.subscribers ++ [b.subscriptions.length] }
    subscriptions := b.subscriptions ++ [inner] }

/-- Update a queue. -/
def modifySub (r : ℕ) (f : Subscription → Subscription) : Broker :=
  { b with subscriptions := b.subscriptions.modify r f }

end Broker

/-- What happens to a broker. -/
inductive BrokerEvent
  /-- A publisher writes a sample. -/
  | publish (publisher : ℕ) (sample : Sample)
  | subscribe (topic : String) (qos : DeliveryQoS) (opts : SubscriberOptions)
  | recv (subscriber : ℕ)
  | close (subscriber : ℕ)
  | unsubscribe (subscriber : ℕ)
  deriving DecidableEq

namespace Broker

/-- One event. -/
def step (pubs : ℕ → MockPublisher) (b : Broker) : BrokerEvent → Broker
  | .publish k sample => b.publish (pubs k).topic ⟨some k, sample⟩ (pubs k).qos
  | .subscribe topic qos opts => b.subscribe topic qos opts
  | .recv r => b.modifySub r Subscription.recv
  | .close r => b.modifySub r fun sub => { sub with closed := true }
  | .unsubscribe r => b.modifySub r fun sub => { sub with unsubscribed := true, closed := true }

/-- The broker after a run. -/
def run (pubs : ℕ → MockPublisher) (events : List BrokerEvent) : Broker :=
  events.foldl (step pubs) new

variable {b : Broker} {pubs : ℕ → MockPublisher}

lemma run_concat (pubs : ℕ → MockPublisher) (events : List BrokerEvent) (e : BrokerEvent) :
    run pubs (events ++ [e]) = step pubs (run pubs events) e := by
  rw [run, List.foldl_concat, ← run]

/-! ## Who is on a list -/

/-- Whoever is on a list is a subscriber of that topic, and is so once; whoever is open is on the
list of its topic. -/
structure Listed (b : Broker) : Prop where
  nodup : ∀ topic st, b.topics.lookup topic = some st → st.subscribers.Nodup
  topic : ∀ topic st, b.topics.lookup topic = some st → ∀ r ∈ st.subscribers,
    ∃ sub, b.subscriptions[r]? = some sub ∧ sub.topic = topic
  isOpen : ∀ (r : ℕ) (sub : Subscription), b.subscriptions[r]? = some sub → sub.closed = false →
    ∃ st, b.topics.lookup sub.topic = some st ∧ r ∈ st.subscribers

lemma listed_new : Listed new := ⟨nofun, nofun, nofun⟩

lemma getElem?_foldl_modify {α : Type*} {f : α → α} {rs : List ℕ} (h : rs.Nodup) (l : List α)
    (r : ℕ) : (rs.foldl (fun l r => l.modify r f) l)[r]? =
      if r ∈ rs then l[r]?.map f else l[r]? := by
  induction rs generalizing l with
  | nil => rfl
  | cons r' rs ih =>
    obtain ⟨hnot, hrs⟩ := List.nodup_cons.1 h
    rw [List.foldl_cons, ih hrs]
    by_cases hr : r' = r
    · subst hr
      rw [if_neg hnot, if_pos List.mem_cons_self, List.getElem?_modify_eq]
      rfl
    · rw [List.getElem?_modify_ne _ _ hr]
      simp only [List.mem_cons, Ne.symm hr, false_or]

section
variable (h : b.Listed)
include h

lemma Listed.entry (topic : String) (qos : DeliveryQoS) :
    (b.entry topic qos).subscribers.Nodup ∧ ∀ r ∈ (b.entry topic qos).subscribers,
      ∃ sub, b.subscriptions[r]? = some sub ∧ sub.topic = topic := by
  rw [Broker.entry]
  cases hst : b.topics.lookup topic with
  | none => exact ⟨List.nodup_nil, fun r hr => absurd hr List.not_mem_nil⟩
  | some st => exact ⟨h.nodup topic st hst, h.topic topic st hst⟩

lemma Listed.mem_entry {r : ℕ} {sub : Subscription} (hsub : b.subscriptions[r]? = some sub)
    (hopen : sub.closed = false) (qos : DeliveryQoS) :
    r ∈ (b.entry sub.topic qos).subscribers := by
  obtain ⟨st, hst, hr⟩ := h.isOpen r sub hsub hopen
  rw [Broker.entry, hst]
  exact hr

omit h in
lemma subscribers_cached (topic : String) (x : Delivery) (qos : DeliveryQoS) :
    (if qos.transientLocal then (b.entry topic qos).pushToCache x
      else b.entry topic qos).subscribers = (b.entry topic qos).subscribers := by
  split
  · exact TopicState.subscribers_pushToCache ..
  · rfl

/-- **A publication** is pushed to every subscriber of its topic. -/
lemma getElem?_publish (topic : String) (x : Delivery) (qos : DeliveryQoS) (r : ℕ) :
    (b.publish topic x qos).subscriptions[r]? =
      b.subscriptions[r]?.map fun sub => if sub.topic = topic then sub.push x else sub := by
  obtain ⟨hnodup, htopic⟩ := h.entry topic qos
  rw [publish]
  dsimp only
  rw [subscribers_cached, getElem?_foldl_modify (hnodup.filter _)]
  cases hsub : b.subscriptions[r]? with
  | none => split <;> rfl
  | some sub =>
    simp only [Option.map_some]
    split
    · rename_i hr
      obtain ⟨sub', hsub', rfl⟩ := htopic r (List.mem_of_mem_filter hr)
      rw [hsub, Option.some.injEq] at hsub'
      rw [hsub', if_pos rfl]
    · rename_i hr
      split
      · rename_i heq
        subst heq
        -- on no list, so closed
        have hclosed : sub.closed = true := by
          by_contra hopen
          rw [Bool.not_eq_true] at hopen
          refine hr (List.mem_filter.2 ⟨h.mem_entry hsub hopen qos, ?_⟩)
          rw [isClosed, hsub, Option.map_some, hopen]
          rfl
        rw [Subscription.push, hclosed, Bool.or_true, if_pos rfl]
      · rfl

end

lemma Listed.modifySub (h : b.Listed) (r : ℕ) {f : Subscription → Subscription}
    (htopic : ∀ sub, (f sub).topic = sub.topic)
    (hclosed : ∀ sub, (f sub).closed = false → sub.closed = false) : (b.modifySub r f).Listed := by
  have hget : ∀ r', (b.modifySub r f).subscriptions[r']? =
      b.subscriptions[r']?.map fun sub => if r = r' then f sub else sub :=
    fun r' => List.getElem?_modify ..
  refine ⟨h.nodup, fun topic st hst r' hr' => ?_, fun r' sub' hsub' hopen => ?_⟩
  · obtain ⟨sub, hsub, rfl⟩ := h.topic topic st hst r' hr'
    rw [hget, hsub]
    refine ⟨_, rfl, ?_⟩
    dsimp only
    split
    · exact htopic sub
    · rfl
  · rw [hget] at hsub'
    obtain ⟨sub, hsub, rfl⟩ := Option.map_eq_some_iff.1 hsub'
    split at hopen
    · rename_i hr
      rw [if_pos hr, htopic]
      exact h.isOpen r' sub hsub (hclosed sub hopen)
    · rename_i hr
      rw [if_neg hr]
      exact h.isOpen r' sub hsub hopen

lemma listed_publish (h : b.Listed) (topic : String) (x : Delivery) (qos : DeliveryQoS) :
    (b.publish topic x qos).Listed := by
  have hsame : ∀ sub : Subscription, (if sub.topic = topic then sub.push x else sub).topic =
      sub.topic ∧ (if sub.topic = topic then sub.push x else sub).closed = sub.closed := by
    intro sub
    split
    · unfold Subscription.push
      split <;> exact ⟨rfl, rfl⟩
    · exact ⟨rfl, rfl⟩
  obtain ⟨hnodup, htopic⟩ := h.entry topic qos
  refine ⟨fun topic' st hst => ?_, fun topic' st hst r hr => ?_, fun r sub' hsub' hopen => ?_⟩
  · rcases Table.lookup_insert_eq_some.1 hst with ⟨-, rfl⟩ | ⟨-, hold⟩
    · dsimp only
      rw [subscribers_cached]
      exact hnodup.filter _
    · exact h.nodup topic' st hold
  · have hold : ∃ sub, b.subscriptions[r]? = some sub ∧ sub.topic = topic' := by
      rcases Table.lookup_insert_eq_some.1 hst with ⟨rfl, rfl⟩ | ⟨-, hold⟩
      · dsimp only at hr
        rw [subscribers_cached] at hr
        exact htopic r (List.mem_of_mem_filter hr)
      · exact h.topic topic' st hold r hr
    obtain ⟨sub, hsub, rfl⟩ := hold
    rw [getElem?_publish h, hsub]
    exact ⟨_, rfl, (hsame sub).1⟩
  · rw [getElem?_publish h] at hsub'
    obtain ⟨sub, hsub, rfl⟩ := Option.map_eq_some_iff.1 hsub'
    rw [(hsame sub).2] at hopen
    rw [(hsame sub).1]
    by_cases heq : sub.topic = topic
    · subst heq
      refine ⟨_, AList.lookup_insert .., ?_⟩
      dsimp only
      rw [subscribers_cached]
      refine List.mem_filter.2 ⟨h.mem_entry hsub hopen qos, ?_⟩
      rw [isClosed, hsub, Option.map_some, hopen]
      rfl
    · obtain ⟨st, hst, hr⟩ := h.isOpen r sub hsub hopen
      exact ⟨st, (AList.lookup_insert_ne heq).trans hst, hr⟩

lemma topic_foldl_push (l : List Delivery) (sub : Subscription) :
    (l.foldl Subscription.push sub).topic = sub.topic := by
  induction l generalizing sub with
  | nil => rfl
  | cons x l ih =>
    rw [List.foldl_cons, ih, Subscription.push]
    split <;> rfl

lemma listed_subscribe (h : b.Listed) (topic : String) (qos : DeliveryQoS)
    (opts : SubscriberOptions) : (b.subscribe topic qos opts).Listed := by
  obtain ⟨hnodup, htopic⟩ := h.entry topic qos
  have hlt : ∀ r ∈ (b.entry topic qos).subscribers, r < b.subscriptions.length := by
    intro r hr
    obtain ⟨sub, hsub, -⟩ := htopic r hr
    exact (List.getElem?_eq_some_iff.1 hsub).1
  have hnew : ∀ sub, (b.subscribe topic qos opts).subscriptions[b.subscriptions.length]? =
      some sub → sub.topic = topic := by
    intro sub hsub
    rw [subscribe, List.getElem?_concat_length, Option.some.injEq] at hsub
    subst hsub
    split
    · exact topic_foldl_push _ _
    · rfl
  have hlast : ∃ sub, (b.subscribe topic qos opts).subscriptions[b.subscriptions.length]? =
      some sub := ⟨_, List.getElem?_concat_length ..⟩
  refine ⟨fun topic' st hst => ?_, fun topic' st hst r hr => ?_, fun r sub hsub hopen => ?_⟩
  · rcases Table.lookup_insert_eq_some.1 hst with ⟨-, rfl⟩ | ⟨-, hold⟩
    · refine List.nodup_append.2 ⟨hnodup, List.nodup_singleton _, fun r hr r' hr' => ?_⟩
      rw [List.mem_singleton.1 hr']
      exact (hlt r hr).ne
    · exact h.nodup topic' st hold
  · have hold : (r = b.subscriptions.length ∧ topic' = topic) ∨
        ∃ sub, b.subscriptions[r]? = some sub ∧ sub.topic = topic' := by
      rcases Table.lookup_insert_eq_some.1 hst with ⟨rfl, rfl⟩ | ⟨-, hold⟩
      · rcases List.mem_append.1 hr with hr | hr
        · exact .inr (htopic r hr)
        · exact .inl ⟨List.mem_singleton.1 hr, rfl⟩
      · exact .inr (h.topic topic' st hold r hr)
    rcases hold with ⟨rfl, rfl⟩ | ⟨sub, hsub, heq⟩
    · obtain ⟨sub, hsub⟩ := hlast
      exact ⟨sub, hsub, hnew sub hsub⟩
    · exact ⟨sub, DeliveryState.getElem?_concat_of_eq_some hsub, heq⟩
  · rcases DeliveryState.getElem?_concat_eq_some hsub with hold | ⟨rfl, -⟩
    · obtain ⟨st, hst, hr⟩ := h.isOpen r sub hold hopen
      by_cases heq : sub.topic = topic
      · subst heq
        refine ⟨_, AList.lookup_insert .., List.mem_append_left _ ?_⟩
        exact h.mem_entry hold hopen qos
      · exact ⟨st, (AList.lookup_insert_ne heq).trans hst, hr⟩
    · rw [hnew sub hsub]
      exact ⟨_, AList.lookup_insert .., List.mem_append_right _ (List.mem_singleton_self _)⟩

lemma listed_step (h : b.Listed) (e : BrokerEvent) : (step pubs b e).Listed := by
  cases e with
  | publish k sample => exact listed_publish h _ _ _
  | subscribe topic qos opts => exact listed_subscribe h topic qos opts
  | recv r =>
    have hsame : ∀ sub : Subscription, sub.recv.topic = sub.topic ∧
        sub.recv.closed = sub.closed := by
      intro sub
      unfold Subscription.recv
      split
      · exact ⟨rfl, rfl⟩
      · split <;> exact ⟨rfl, rfl⟩
    exact h.modifySub r (fun sub => (hsame sub).1) fun sub => (hsame sub).2 ▸ id
  | close r | unsubscribe r => exact h.modifySub r (fun _ => rfl) nofun

lemma listed_run (pubs : ℕ → MockPublisher) (events : List BrokerEvent) :
    (run pubs events).Listed := by
  induction events using List.reverseRecOn with
  | nil => exact listed_new
  | append_singleton events e ih =>
    rw [run_concat]
    exact listed_step ih e

end Broker

end RustDds
