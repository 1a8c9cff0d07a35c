import RustDds.Concurrency.Closing
import RustDds.Concurrency.Joining

/-!
# Where the subscribers are found

A broker finds the subscribers of a topic on its list, and the UDP participant finds its readers
in the dispatch table.  A step changes a subscriber, adds one, or takes a closed one off its list
or out of the table (`Alters`), so a subscriber that is open is always found there (`Roster`), as
long as no reader gets an entity id that another one has.
-/

namespace RustDds

open scoped List

namespace DeliveryState

/-- The list of a topic. -/
def subscribersOn (s : DeliveryState) (topic : String) : List ℕ :=
  ((s.topics.lookup topic).map TopicState.subscribers).getD []

end DeliveryState

/-- The task may put a sample into the queue of `r`. -/
def DeliveryTask.Fills (r : ℕ) : DeliveryTask → Prop
  | .deliverCached r' | .enqueueRead r' _ | .enqueue r' _ _ => r' = r
  | _ => False

/-- An update of a subscriber leaves its topic and its entity id, and does not open it. -/
structure Subscription.Retains (f : Subscription → Subscription) : Prop where
  topic : ∀ sub, (f sub).topic = sub.topic
  eid : ∀ sub, (f sub).eid = sub.eid
  closed : ∀ sub, sub.closed = true → (f sub).closed = true

namespace DeliveryState

variable {cfg : DeliveryConfig} {s s' : DeliveryState} {t : DeliveryTask} {r : ℕ}

/-- What the step of a task may do to the subscribers, and to where they are found. -/
inductive Alters (cfg : DeliveryConfig) (s s' : DeliveryState) (t : DeliveryTask) : Prop
  /-- Nothing. -/
  | same (hsubs : s'.subscriptions = s.subscriptions) (hreaders : s'.readers = s.readers)
      (hlists : ∀ topic, s'.subscribersOn topic = s.subscribersOn topic)
  /-- Update a subscriber. -/
  | update (r : ℕ) (f : Subscription → Subscription) (hf : Subscription.Retains f)
      (hhistory : t.Fills r ∨ ∀ sub, (f sub).history = sub.history)
      (hstate : s' = s.modifySub r f)
  /-- Put a new subscriber on the list of its topic. -/
  | join (topic : String) (qos : DeliveryQoS) (opts : SubscriberOptions) (sub : Subscription)
      (hbroker : cfg.transport ≠ .rtps) (htask : t = .subscribe topic qos opts)
      (htopic : sub.topic = topic) (hnil : qos.transientLocal = false → sub.history = [])
      (hsubs : s'.subscriptions = s.subscriptions ++ [sub]) (hreaders : s'.readers = s.readers)
      (hlists : ∀ topic', s'.subscribersOn topic' = if topic' = topic
        then s.subscribersOn topic ++ [s.subscriptions.length] else s.subscribersOn topic')
  /-- Put a new reader into the dispatch table. -/
  | insert (topic : String) (qos : DeliveryQoS) (opts : SubscriberOptions) (eid : EntityId)
      (htask : t = .insertReader topic qos opts eid)
      (hsubs : s'.subscriptions = s.subscriptions ++ [.new topic eid opts])
      (hreaders : s'.readers = s.readers.insert eid s.subscriptions.length)
      (hlists : ∀ topic', s'.subscribersOn topic' = s.subscribersOn topic')
  /-- Take a closed subscriber off the list of a topic. -/
  | leave (topic : String) (r : ℕ) (hshut : s.Shut r) (hsubs : s'.subscriptions = s.subscriptions)
      (hreaders : s'.readers = s.readers)
      (hlists : ∀ topic', s'.subscribersOn topic' = if topic' = topic
        then (s.subscribersOn topic).erase r else s.subscribersOn topic')
  /-- Take a closed reader out of the dispatch table. -/
  | remove (r : ℕ) (sub : Subscription) (hsub : s.subscriptions[r]? = some sub)
      (hclosed : sub.closed = true) (hsubs : s'.subscriptions = s.subscriptions)
      (hreaders : s'.readers = s.readers.erase sub.eid)
      (hlists : ∀ topic', s'.subscribersOn topic' = s.subscribersOn topic')

namespace Alters

lemma of_eq (hsubs : s'.subscriptions = s.subscriptions) (hreaders : s'.readers = s.readers)
    (htopics : s'.topics = s.topics) : Alters cfg s s' t :=
  .same hsubs hreaders fun topic => by rw [subscribersOn, htopics]; rfl

lemma modifySub (s : DeliveryState) (r : ℕ) {f : Subscription → Subscription}
    (hf : Subscription.Retains f)
    (hhistory : t.Fills r ∨ ∀ sub, (f sub).history = sub.history) :
    Alters cfg s (s.modifySub r f) t := .update r f hf hhistory rfl

end Alters

lemma retains_push (x : Delivery) : Subscription.Retains fun sub => sub.push x where
  topic sub := sub.topic_push x
  eid sub := by
    rw [Subscription.push]
    split <;> rfl
  closed sub h := (closed_push sub x).trans h

lemma retains_recv : Subscription.Retains Subscription.recv where
  topic := Subscription.topic_recv
  eid sub := by
    rw [Subscription.recv]
    split
    · rfl
    · split <;> rfl
  closed sub h := (closed_recv sub).trans h

lemma subscribersOn_topicState (cfg : DeliveryConfig) (s : DeliveryState) (topic : String)
    (qos : DeliveryQoS) : (s.topicState cfg topic qos).subscribers = s.subscribersOn topic := by
  rw [topicState, subscribersOn]
  cases s.topics.lookup topic <;> rfl

lemma subscribersOn_insert {topics : Table String TopicState} (topic : String) (st : TopicState)
    (h : s'.topics = topics.insert topic st) (topic' : String) :
    s'.subscribersOn topic' = if topic' = topic then st.subscribers
      else ((topics.lookup topic').map TopicState.subscribers).getD [] := by
  rw [subscribersOn, h]
  split
  · next heq => rw [heq, AList.lookup_insert]; rfl
  · next hne => rw [AList.lookup_insert_ne hne]

lemma subscribersOn_erase (topic : String) (r : ℕ)
    (h : s'.topics = s.topics.adjust topic fun st =>
      { st with subscribers := st.subscribers.erase r }) (topic' : String) :
    s'.subscribersOn topic' =
      if topic' = topic then (s.subscribersOn topic).erase r else s.subscribersOn topic' := by
  rw [subscribersOn, subscribersOn, subscribersOn, h, Table.lookup_adjust]
  split
  · next heq =>
    subst heq
    cases s.topics.lookup topic' <;> rfl
  · rfl

/-- What the cache of the topic hands over is there for a `TransientLocal` subscriber alone. -/
lemma alters_subscribe (hbroker : cfg.transport ≠ .rtps) (s : DeliveryState) (topic : String)
    (qos : DeliveryQoS) (opts : SubscriberOptions) {sub : Subscription}
    (hsub : sub = if qos.transientLocal then
        (s.topicState cfg topic qos).cache.foldl Subscription.push (.new topic entityIdUnknown opts)
      else .new topic entityIdUnknown opts) :
    Alters cfg s { s with
      subscriptions := s.subscriptions ++ [sub]
      topics := s.topics.insert topic { s.topicState cfg topic qos with
        subscribers := (s.topicState cfg topic qos).subscribers ++ [s.subscriptions.length] } }
      (.subscribe topic qos opts) := by
  have hfilled : ∀ (l : List Delivery) (sub : Subscription),
      (l.foldl Subscription.push sub).topic = sub.topic := by
    intro l
    induction l with
    | nil => exact fun _ => rfl
    | cons x l ih => exact fun sub => (ih _).trans (sub.topic_push x)
  refine .join topic qos opts sub hbroker rfl ?_ (fun hvolatile => ?_) rfl rfl fun topic' => ?_
  · rw [hsub]
    split
    · exact hfilled _ _
    · rfl
  · rw [hsub, if_neg (by rw [hvolatile]; exact Bool.false_ne_true)]
    rfl
  · rw [subscribersOn_insert topic _ rfl, subscribersOn_topicState]
    rfl

lemma alters_cache (s : DeliveryState) (x : Delivery) (qos : DeliveryQoS) :
    Alters cfg s { s with
      topics := s.topics.insert x.sample.topic
        (if qos.transientLocal then (s.topicState cfg x.sample.topic qos).pushToCache x
          else s.topicState cfg x.sample.topic qos)
      locked := true } t := by
  refine .same rfl rfl fun topic => ?_
  rw [subscribersOn_insert x.sample.topic _ rfl]
  split
  · next heq =>
    rw [heq, ← subscribersOn_topicState cfg s x.sample.topic qos]
    split
    · exact TopicState.subscribers_pushToCache ..
    · rfl
  · rfl

/-- **The step.** -/
lemma alters_move (rd : Reading) (h : t.Honest cfg s) : Alters cfg s (s.move cfg rd t).1 t := by
  have hmoves := moves_move cfg rd s t
  generalize s.move cfg rd t = moved at hmoves ⊢
  cases hmoves with
  | unsubscribe r =>
    exact .modifySub s r ⟨fun _ => rfl, fun _ => rfl, fun _ h => h⟩ (.inr fun _ => rfl)
  | subscribe topic qos opts sub _ hbroker _ hsub =>
    exact alters_subscribe hbroker s topic qos opts hsub
  | insertReader topic qos opts eid => exact .insert topic qos opts eid rfl rfl rfl fun _ => rfl
  | deliverCached r => exact .modifySub s r (retains_push _) (.inl rfl)
  | enqueueRead r x | enqueue r left x =>
    exact .modifySub s r ⟨fun _ => rfl, fun _ => rfl, fun _ h => h⟩ (.inl rfl)
  | cache x qos => exact alters_cache s x qos
  | sweep r left x hclosed =>
    exact .leave x.sample.topic r (isClosed_iff_shut.mp hclosed) rfl rfl
      (subscribersOn_erase x.sample.topic r rfl)
  | storeClosed r | closeEach r =>
    exact .modifySub s r ⟨fun _ => rfl, fun _ => rfl, fun _ _ => rfl⟩ (.inr fun _ => rfl)
  | removeReader r sub hsub =>
    obtain ⟨sub', hsub', hclosed⟩ := h
    obtain rfl : sub = sub' := Option.some.inj (hsub.symm.trans hsub')
    exact .remove r sub hsub hclosed rfl rfl fun _ => rfl
  | removeSubscriber r sub hsub =>
    exact .leave sub.topic r h rfl rfl (subscribersOn_erase sub.topic r rfl)
  | _ => exact .of_eq rfl rfl rfl

/-- The surroundings, where nothing comes from elsewhere. -/
lemma alters_recv (cfg : DeliveryConfig) (s : DeliveryState) (r : ℕ) (t : DeliveryTask) :
    Alters cfg s ((program cfg).env (.recv r) s) t :=
  .modifySub s r retains_recv (.inr Subscription.history_recv)

/-! ## The roster -/

/-- Every subscriber that is open is found where a write looks for it, and nothing is found twice
or in the wrong place. -/
structure Roster (cfg : DeliveryConfig) (s : DeliveryState) : Prop where
  nodup : ∀ topic, (s.subscribersOn topic).Nodup
  topics : ∀ topic, ∀ r ∈ s.subscribersOn topic,
    ∃ sub, s.subscriptions[r]? = some sub ∧ sub.topic = topic
  listed : cfg.transport ≠ .rtps → ∀ (r : ℕ) (sub : Subscription),
    s.subscriptions[r]? = some sub → sub.closed = false → r ∈ s.subscribersOn sub.topic
  readers : ∀ eid r, s.readers.lookup eid = some r →
    ∃ sub, s.subscriptions[r]? = some sub ∧ sub.eid = eid
  dispatched : cfg.transport = .rtps → ∀ (r : ℕ) (sub : Subscription),
    s.subscriptions[r]? = some sub → sub.closed = false → s.readers.lookup sub.eid = some r
  distinct : cfg.transport = .rtps → ∀ (r r' : ℕ) (sub sub' : Subscription),
    s.subscriptions[r]? = some sub → s.subscriptions[r']? = some sub' → sub.eid = sub'.eid → r = r'

/-- The entity id of a new reader is no other's. -/
def Fresh (s : DeliveryState) : DeliveryTask → Prop
  | .insertReader _ _ _ eid => ∀ sub ∈ s.subscriptions, sub.eid ≠ eid
  | _ => True

instance (s : DeliveryState) (t : DeliveryTask) : Decidable (s.Fresh t) := by
  unfold Fresh
  split <;> infer_instance

namespace Roster

lemma of_eq (h : Roster cfg s) (hsubs : s'.subscriptions = s.subscriptions)
    (hreaders : s'.readers = s.readers)
    (hlists : ∀ topic, s'.subscribersOn topic = s.subscribersOn topic) : Roster cfg s' where
  nodup topic := hlists topic ▸ h.nodup topic
  topics topic r hr := hsubs ▸ h.topics topic r (hlists topic ▸ hr)
  listed hbroker r sub hsub hopen := hlists sub.topic ▸ h.listed hbroker r sub (hsubs ▸ hsub) hopen
  readers eid r hr := hsubs ▸ h.readers eid r (hreaders ▸ hr)
  dispatched hrtps r sub hsub hopen :=
    hreaders ▸ h.dispatched hrtps r sub (hsubs ▸ hsub) hopen
  distinct := hsubs ▸ h.distinct

lemma modifySub (h : Roster cfg s) (r' : ℕ) {f : Subscription → Subscription}
    (hf : Subscription.Retains f) : Roster cfg (s.modifySub r' f) := by
  have hfind : ∀ (r : ℕ) (sub : Subscription), s.subscriptions[r]? = some sub →
      ∃ sub', (s.modifySub r' f).subscriptions[r]? = some sub' ∧ sub'.topic = sub.topic ∧
        sub'.eid = sub.eid := by
    intro r sub hsub
    rw [getElem?_modifySub, hsub]
    split
    · exact ⟨f sub, rfl, hf.topic sub, hf.eid sub⟩
    · exact ⟨sub, rfl, rfl, rfl⟩
  have hback : ∀ (r : ℕ) (sub' : Subscription),
      (s.modifySub r' f).subscriptions[r]? = some sub' →
      ∃ sub, s.subscriptions[r]? = some sub ∧ sub'.topic = sub.topic ∧ sub'.eid = sub.eid ∧
        (sub'.closed = false → sub.closed = false) := by
    intro r sub' hsub'
    rw [getElem?_modifySub] at hsub'
    split at hsub'
    · obtain ⟨sub, hsub, rfl⟩ := Option.map_eq_some_iff.mp hsub'
      refine ⟨sub, hsub, hf.topic sub, hf.eid sub, fun hopen => ?_⟩
      by_contra hclosed
      rw [hf.closed sub (Bool.not_eq_false _ ▸ hclosed)] at hopen
      cases hopen
    · exact ⟨sub', hsub', rfl, rfl, id⟩
  refine ⟨h.nodup, fun topic r hr => ?_, fun hbroker r sub' hsub' hopen => ?_, fun eid r hr => ?_,
    fun hrtps r sub' hsub' hopen => ?_, fun hrtps r₁ r₂ sub₁ sub₂ h₁ h₂ heid => ?_⟩
  · obtain ⟨sub, hsub, htopic⟩ := h.topics topic r hr
    obtain ⟨sub', hsub', hsame, -⟩ := hfind r sub hsub
    exact ⟨sub', hsub', hsame.trans htopic⟩
  · obtain ⟨sub, hsub, htopic, -, hold⟩ := hback r sub' hsub'
    rw [htopic]
    exact h.listed hbroker r sub hsub (hold hopen)
  · obtain ⟨sub, hsub, heid⟩ := h.readers eid r hr
    obtain ⟨sub', hsub', -, hsame⟩ := hfind r sub hsub
    exact ⟨sub', hsub', hsame.trans heid⟩
  · obtain ⟨sub, hsub, -, heid, hold⟩ := hback r sub' hsub'
    rw [heid]
    exact h.dispatched hrtps r sub hsub (hold hopen)
  · obtain ⟨sub, hsub, -, heid', -⟩ := hback r₁ sub₁ h₁
    obtain ⟨sub'', hsub'', -, heid'', -⟩ := hback r₂ sub₂ h₂
    exact h.distinct hrtps r₁ r₂ sub sub'' hsub hsub'' (by rw [← heid', heid, heid''])

/-- A subscriber that is added, on the list of its topic. -/
lemma join (h : Roster cfg s) (hbroker : cfg.transport ≠ .rtps) (sub : Subscription)
    (hsubs : s'.subscriptions = s.subscriptions ++ [sub]) (hreaders : s'.readers = s.readers)
    (hlists : ∀ topic', s'.subscribersOn topic' = if topic' = sub.topic
      then s.subscribersOn sub.topic ++ [s.subscriptions.length] else s.subscribersOn topic') :
    Roster cfg s' := by
  have hlast : s'.subscriptions[s.subscriptions.length]? = some sub := by
    rw [hsubs, List.getElem?_concat_length]
  have hold : ∀ (r : ℕ) (sub' : Subscription), s.subscriptions[r]? = some sub' →
      s'.subscriptions[r]? = some sub' := fun r sub' hsub' =>
    hsubs ▸ getElem?_concat_of_eq_some hsub'
  have hmem : ∀ topic r, r ∈ s'.subscribersOn topic ↔ r ∈ s.subscribersOn topic ∨
      topic = sub.topic ∧ r = s.subscriptions.length := by
    intro topic r
    rw [hlists]
    split
    · next heq => simp [heq]
    · next hne => simp [hne]
  refine ⟨fun topic => ?_, fun topic r hr => ?_, fun _ r sub' hsub' hopen => ?_, fun eid r hr => ?_,
    fun hrtps => absurd hrtps hbroker, fun hrtps => absurd hrtps hbroker⟩
  · rw [hlists]
    split
    · rw [← List.concat_eq_append, List.nodup_concat]
      refine ⟨fun hlisted => ?_, h.nodup sub.topic⟩
      obtain ⟨sub', hsub', -⟩ := h.topics sub.topic _ hlisted
      exact absurd (List.getElem?_eq_some_iff.mp hsub').1 (lt_irrefl _)
    · exact h.nodup topic
  · rcases (hmem topic r).mp hr with hr | ⟨rfl, rfl⟩
    · obtain ⟨sub', hsub', htopic⟩ := h.topics topic r hr
      exact ⟨sub', hold r sub' hsub', htopic⟩
    · exact ⟨sub, hlast, rfl⟩
  · rw [hmem]
    rw [hsubs] at hsub'
    rcases getElem?_concat_eq_some hsub' with hsub' | ⟨rfl, rfl⟩
    · exact .inl (h.listed hbroker r sub' hsub' hopen)
    · exact .inr ⟨rfl, rfl⟩
  · obtain ⟨sub', hsub', heid⟩ := h.readers eid r (hreaders ▸ hr)
    exact ⟨sub', hold r sub' hsub', heid⟩

/-- A reader that is added, under an entity id of its own. -/
lemma insert (h : Roster cfg s) (hrtps : cfg.transport = .rtps) (sub : Subscription)
    (hfresh : ∀ sub' ∈ s.subscriptions, sub'.eid ≠ sub.eid)
    (hsubs : s'.subscriptions = s.subscriptions ++ [sub])
    (hreaders : s'.readers = s.readers.insert sub.eid s.subscriptions.length)
    (hlists : ∀ topic, s'.subscribersOn topic = s.subscribersOn topic) : Roster cfg s' := by
  have hlast : s'.subscriptions[s.subscriptions.length]? = some sub := by
    rw [hsubs, List.getElem?_concat_length]
  have hold : ∀ (r : ℕ) (sub' : Subscription), s.subscriptions[r]? = some sub' →
      s'.subscriptions[r]? = some sub' := fun r sub' hsub' =>
    hsubs ▸ getElem?_concat_of_eq_some hsub'
  have hother : ∀ (r : ℕ) (sub' : Subscription), s.subscriptions[r]? = some sub' →
      sub'.eid ≠ sub.eid := fun r sub' hsub' => hfresh sub' (List.mem_of_getElem? hsub')
  refine ⟨fun topic => hlists topic ▸ h.nodup topic, fun topic r hr => ?_,
    fun hbroker => absurd hrtps hbroker, fun eid r hr => ?_, fun _ r sub' hsub' hopen => ?_,
    fun _ r₁ r₂ sub₁ sub₂ h₁ h₂ heid => ?_⟩
  · obtain ⟨sub', hsub', htopic⟩ := h.topics topic r (hlists topic ▸ hr)
    exact ⟨sub', hold r sub' hsub', htopic⟩
  · rw [hreaders] at hr
    rcases Table.lookup_insert_eq_some.mp hr with ⟨rfl, rfl⟩ | ⟨-, hr⟩
    · exact ⟨sub, hlast, rfl⟩
    · obtain ⟨sub', hsub', heid⟩ := h.readers eid r hr
      exact ⟨sub', hold r sub' hsub', heid⟩
  · rw [hsubs] at hsub'
    rw [hreaders, Table.lookup_insert_eq_some]
    rcases getElem?_concat_eq_some hsub' with hsub' | ⟨rfl, rfl⟩
    · exact .inr ⟨hother r sub' hsub', h.dispatched hrtps r sub' hsub' hopen⟩
    · exact .inl ⟨rfl, rfl⟩
  · rw [hsubs] at h₁ h₂
    rcases getElem?_concat_eq_some h₁ with hold₁ | ⟨hr₁, hsub₁⟩ <;>
      rcases getElem?_concat_eq_some h₂ with hold₂ | ⟨hr₂, hsub₂⟩
    · exact h.distinct hrtps r₁ r₂ sub₁ sub₂ hold₁ hold₂ heid
    · exact absurd (hsub₂ ▸ heid) (hother r₁ sub₁ hold₁)
    · exact absurd (hsub₁ ▸ heid.symm) (hother r₂ sub₂ hold₂)
    · exact hr₁.trans hr₂.symm

/-- A closed subscriber goes. -/
lemma leave (h : Roster cfg s) {topic : String} (hshut : s.Shut r)
    (hsubs : s'.subscriptions = s.subscriptions) (hreaders : s'.readers = s.readers)
    (hlists : ∀ topic', s'.subscribersOn topic' = if topic' = topic
      then (s.subscribersOn topic).erase r else s.subscribersOn topic') : Roster cfg s' := by
  have hsub : ∀ topic', (s'.subscribersOn topic') <+ s.subscribersOn topic' := by
    intro topic'
    rw [hlists]
    split
    · next heq => exact heq ▸ List.erase_sublist
    · exact .refl _
  refine ⟨fun topic' => (h.nodup topic').sublist (hsub topic'), fun topic' r' hr' => ?_,
    fun hbroker r' sub hsub' hopen => ?_, fun eid r' hr' => ?_, ?_, hsubs ▸ h.distinct⟩
  · exact hsubs ▸ h.topics topic' r' ((hsub topic').subset hr')
  · have hmem := h.listed hbroker r' sub (hsubs ▸ hsub') hopen
    rw [hlists]
    split
    · next heq =>
      refine (List.mem_erase_of_ne fun hr' => ?_).mpr (heq ▸ hmem)
      obtain ⟨sub', hsub'', hclosed⟩ := hshut
      rw [hsubs, hr', hsub'', Option.some.injEq] at hsub'
      rw [← hsub', hclosed] at hopen
      cases hopen
    · exact hmem
  · exact hsubs ▸ h.readers eid r' (hreaders ▸ hr')
  · exact fun hrtps r' sub hsub' hopen =>
      hreaders ▸ h.dispatched hrtps r' sub (hsubs ▸ hsub') hopen

/-- A closed reader goes. -/
lemma remove (h : Roster cfg s) {sub : Subscription} (hsub : s.subscriptions[r]? = some sub)
    (hclosed : sub.closed = true) (hsubs : s'.subscriptions = s.subscriptions)
    (hreaders : s'.readers = s.readers.erase sub.eid)
    (hlists : ∀ topic, s'.subscribersOn topic = s.subscribersOn topic) : Roster cfg s' := by
  refine ⟨fun topic => hlists topic ▸ h.nodup topic,
    fun topic r' hr' => hsubs ▸ h.topics topic r' (hlists topic ▸ hr'),
    fun hbroker r' sub' hsub' => hlists sub'.topic ▸ h.listed hbroker r' sub' (hsubs ▸ hsub'),
    fun eid r' hr' => ?_, fun hrtps r' sub' hsub' hopen => ?_, hsubs ▸ h.distinct⟩
  · rw [hreaders, ← Table.mem_entries_iff] at hr'
    rw [hsubs]
    exact h.readers eid r' (Table.mem_entries_iff.mp ((List.kerase_sublist _ _).subset hr'))
  · rw [hsubs] at hsub'
    rw [hreaders, AList.lookup_erase_ne]
    · exact h.dispatched hrtps r' sub' hsub' hopen
    · intro heid
      obtain rfl := h.distinct hrtps r' r sub' sub hsub' hsub heid
      rw [hsub, Option.some.injEq] at hsub'
      rw [← hsub', hclosed] at hopen
      cases hopen

/-- **What a step does to the roster.** -/
lemma alters (h : Roster cfg s) (halters : Alters cfg s s' t) (hhonest : t.Honest cfg s)
    (hfresh : s.Fresh t) : Roster cfg s' := by
  cases halters with
  | same hsubs hreaders hlists => exact h.of_eq hsubs hreaders hlists
  | update r f hf _ hstate => exact hstate ▸ h.modifySub r hf
  | join topic qos opts sub hbroker _ htopic _ hsubs hreaders hlists =>
    subst htopic
    exact h.join hbroker sub hsubs hreaders hlists
  | insert topic qos opts eid htask hsubs hreaders hlists =>
    subst htask
    exact h.insert hhonest (.new topic eid opts) hfresh hsubs hreaders hlists
  | leave topic r hshut hsubs hreaders hlists => exact h.leave hshut hsubs hreaders hlists
  | remove r sub hsub hclosed hsubs hreaders hlists =>
    exact h.remove hsub hclosed hsubs hreaders hlists

end Roster

lemma roster_new (cfg : DeliveryConfig) : Roster cfg .new where
  nodup _ := List.nodup_nil
  topics _ _ hr := absurd hr List.not_mem_nil
  listed _ _ _ hsub := by cases hsub
  readers _ _ hr := by cases hr
  dispatched _ _ _ hsub := by cases hsub
  distinct _ _ _ _ _ hsub := by cases hsub

/-- A subscriber that is there keeps its topic. -/
lemma Alters.topic_kept (halters : Alters cfg s s' t) {sub : Subscription}
    (hsub : s.subscriptions[r]? = some sub) :
    ∃ sub', s'.subscriptions[r]? = some sub' ∧ sub'.topic = sub.topic := by
  cases halters with
  | same hsubs | leave _ _ _ hsubs | remove _ _ _ _ hsubs => exact ⟨sub, hsubs ▸ hsub, rfl⟩
  | update r' f hf _ hstate =>
    rw [hstate, getElem?_modifySub, hsub]
    split
    · exact ⟨f sub, rfl, hf.topic sub⟩
    · exact ⟨sub, rfl, rfl⟩
  | join _ _ _ _ _ _ _ _ hsubs | insert _ _ _ _ _ hsubs =>
    exact ⟨sub, hsubs ▸ getElem?_concat_of_eq_some hsub, rfl⟩

end DeliveryState

end RustDds
