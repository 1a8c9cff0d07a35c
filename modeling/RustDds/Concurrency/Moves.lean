import RustDds.Concurrency.Publishing

/-!
# What a step of a task can do

`Moves cfg rd s t moved` lists the outcomes of a step, with the conditions under which each comes
about, and `moves_move` says that there are no others.  An invariant is proved by cases on it: most
steps leave the state as it is, and most of the others change one part of it.
-/

namespace RustDds

namespace DeliveryState

variable {cfg : DeliveryConfig} {rd : Reading} {s : DeliveryState}

/-- The outcomes of a step. -/
inductive Moves (cfg : DeliveryConfig) (rd : Reading) (s : DeliveryState) :
    DeliveryTask → DeliveryState × DeliveryTask → Prop
  /-- The task has ended, or what it waits for is not there. -/
  | waits (t : DeliveryTask) : Moves cfg rd s t (s, t)
  | fails (c : DeliveryCall) (e : DdsError) : Moves cfg rd s (.call c) (s, .returned (.error e))
  | newPublisher (who : ℕ) (topic : String) (qos : DeliveryQoS) (hopen : cfg.owner who ∉ s.closed) :
      Moves cfg rd s (.call (.newPublisher who topic qos)) (s, .createPublisher who topic qos)
  | newSubscriber (who : ℕ) (topic : String) (qos : DeliveryQoS) (opts : SubscriberOptions)
      (hopen : cfg.owner who ∉ s.closed) :
      Moves cfg rd s (.call (.newSubscriber who topic qos opts)) (s, .subscribe topic qos opts)
  | write (publisher : ℕ) (payload : Bytes) :
      Moves cfg rd s (.call (.write publisher payload)) (s, .draw publisher payload)
  | closePublisher (publisher : ℕ) :
      Moves cfg rd s (.call (.closePublisher publisher))
        ({ s with
            publishers := s.publishers.modify publisher fun pub => { pub with closed := true } },
          .returned (.ok ()))
  | closeSubscriber (r : ℕ) (hr : s.HasSubscriber cfg r) :
      Moves cfg rd s (.call (.closeSubscriber r)) (s, .storeClosed r)
  | unsubscribe (r : ℕ) (hr : s.HasSubscriber cfg r) :
      Moves cfg rd s (.call (.unsubscribe r))
        (s.modifySub r fun sub => { sub with unsubscribed := true }, .storeClosed r)
  | wasClosed (who : ℕ) (hclosed : cfg.owner who ∈ s.closed) :
      Moves cfg rd s (.call (.close who)) (s, .returned (.ok ()))
  | setFlag (who : ℕ) (hshmem : cfg.transport = .shmem) :
      Moves cfg rd s (.call (.close who))
        ({ s with closed := insert (cfg.owner who) s.closed }, .returned (.ok ()))
  | close (who : ℕ) (hshmem : cfg.transport ≠ .shmem) :
      Moves cfg rd s (.call (.close who))
        ({ s with closed := insert (cfg.owner who) s.closed }, .lockSubscribers)
  /-- The counter of entities overflows. -/
  | overflows (t : DeliveryTask) (hrtps : cfg.transport = .rtps) :
      Moves cfg rd s t ({ s with entityCounter := s.entityCounter + 1 }, .done)
  | newWriter (who : ℕ) (topic : String) (qos : DeliveryQoS) (eid : EntityId)
      (hrtps : cfg.transport = .rtps) :
      Moves cfg rd s (.createPublisher who topic qos)
        ({ s with entityCounter := s.entityCounter + 1 }, .insertWriter topic qos eid)
  | createPublisher (who : ℕ) (topic : String) (qos : DeliveryQoS)
      (hbroker : cfg.transport ≠ .rtps) :
      Moves cfg rd s (.createPublisher who topic qos)
        ({ s with
            pubCounter := Function.update s.pubCounter (cfg.owner who)
              (s.pubCounter (cfg.owner who) + 1)
            publishers := s.publishers ++
              [⟨topic, qos, cfg.makeGuid (s.pubCounter (cfg.owner who)), 0, false⟩] },
          .returned (.ok ()))
  | insertWriter (topic : String) (qos : DeliveryQoS) (eid : EntityId) :
      Moves cfg rd s (.insertWriter topic qos eid)
        ({ s with
            publishers := s.publishers ++ [⟨topic, qos, ⟨cfg.guidPrefix, eid⟩, 0, false⟩]
            writers := s.writers.insert eid s.publishers.length },
          .returned (.ok ()))
  | newReader (topic : String) (qos : DeliveryQoS) (opts : SubscriberOptions) (eid : EntityId)
      (hrtps : cfg.transport = .rtps) :
      Moves cfg rd s (.subscribe topic qos opts)
        ({ s with entityCounter := s.entityCounter + 1 }, .insertReader topic qos opts eid)
  | subscribe (topic : String) (qos : DeliveryQoS) (opts : SubscriberOptions) (sub : Subscription)
      (t : DeliveryTask) (hbroker : cfg.transport ≠ .rtps) (hfree : s.locked = false)
      (hsub : sub = if qos.transientLocal then
          (s.topicState cfg topic qos).cache.foldl Subscription.push
            (.new topic entityIdUnknown opts)
        else .new topic entityIdUnknown opts)
      (ht : t = if cfg.transport = .shmem then
          .startPoller s.subscriptions.length qos.transientLocal
        else .returned (.ok ())) :
      Moves cfg rd s (.subscribe topic qos opts)
        ({ s with
            subscriptions := s.subscriptions ++ [sub]
            topics := s.topics.insert topic { s.topicState cfg topic qos with
              subscribers :=
                (s.topicState cfg topic qos).subscribers ++ [s.subscriptions.length] } }, t)
  | insertReader (topic : String) (qos : DeliveryQoS) (opts : SubscriberOptions) (eid : EntityId)
      (t : DeliveryTask)
      (ht : t = if qos.transientLocal then .deliverCached s.subscriptions.length
        else .enlist s.subscriptions.length) :
      Moves cfg rd s (.insertReader topic qos opts eid)
        ({ s with
            subscriptions := s.subscriptions ++ [.new topic eid opts]
            readers := s.readers.insert eid s.subscriptions.length }, t)
  | deliverNone (r : ℕ) : Moves cfg rd s (.deliverCached r) (s, .enlist r)
  | deliverCached (r : ℕ) (topic : String) (x : Delivery)
      (htopic : topic = ((s.subscriptions[r]?).map Subscription.topic).getD "")
      (hlast : s.lastSample.lookup topic = some x) :
      Moves cfg rd s (.deliverCached r) (s.modifySub r fun sub => sub.push x, .enlist r)
  | enlist (r : ℕ) (hfree : s.locked = false) :
      Moves cfg rd s (.enlist r)
        ({ s with subscribers := s.subscribers ++ [r] }, .returned (.ok ()))
  | startPoller (r : ℕ) (transientLocal : Bool) (lastSeq : ℕ) :
      Moves cfg rd s (.startPoller r transientLocal) (s, .poll r lastSeq)
  | readFirst (r : ℕ) (transientLocal : Bool) (d : Decoded) (hfile : rd.file = some d)
      (hforeign : d.originId ≠ cfg.originId) :
      Moves cfg rd s (.startPoller r transientLocal) (s, .pushRead r (s.readSample r d))
  | stopPoller (r lastSeq : ℕ) (hshut : s.isShut r = true) :
      Moves cfg rd s (.poll r lastSeq) (s, .done)
  | poll (r lastSeq : ℕ) : Moves cfg rd s (.poll r lastSeq) (s, .readFile r lastSeq)
  | readNothing (r lastSeq : ℕ) : Moves cfg rd s (.readFile r lastSeq) (s, .poll r lastSeq)
  | readFile (r lastSeq : ℕ) (d : Decoded) (hfile : rd.file = some d)
      (hforeign : d.originId ≠ cfg.originId) (hnew : lastSeq < d.seq) :
      Moves cfg rd s (.readFile r lastSeq) (s, .pushRead r (s.readSample r d))
  | skipRead (r : ℕ) (x : Delivery) (hshut : s.isShut r = true) :
      Moves cfg rd s (.pushRead r x) (s, .poll r x.sample.sequenceNumber)
  | pushRead (r : ℕ) (x : Delivery) : Moves cfg rd s (.pushRead r x) (s, .enqueueRead r x)
  | enqueueRead (r : ℕ) (x : Delivery) :
      Moves cfg rd s (.enqueueRead r x)
        (s.modifySub r fun sub => sub.enqueue x, .poll r x.sample.sequenceNumber)
  | drawNone (publisher : ℕ) (payload : Bytes) (hnone : s.publishers[publisher]? = none) :
      Moves cfg rd s (.draw publisher payload) (s, .done)
  /-- The writer has been removed. -/
  | drawRemoved (publisher : ℕ) (payload : Bytes) (pub : Publication)
      (hpub : s.publishers[publisher]? = some pub)
      (hnone : s.counterOf cfg publisher pub = none) :
      Moves cfg rd s (.draw publisher payload) (s, .returned (.ok ()))
  | drawOverflows (publisher : ℕ) (payload : Bytes) (pub : Publication) (counter : ℕ)
      (hpub : s.publishers[publisher]? = some pub)
      (hcounter : s.counterOf cfg publisher pub = some counter) :
      Moves cfg rd s (.draw publisher payload)
        ({ s with publishers :=
            s.publishers.modify counter fun pub => { pub with seq := pub.seq + 1 } }, .done)
  | draw (publisher : ℕ) (payload : Bytes) (pub : Publication) (counter n : ℕ)
      (hpub : s.publishers[publisher]? = some pub)
      (hcounter : s.counterOf cfg publisher pub = some counter)
      (hn : checkedAdd 64 ((s.publishers[counter]?.map Publication.seq).getD 0).toNat 1 = .ok n) :
      Moves cfg rd s (.draw publisher payload)
        ({ s with publishers :=
            s.publishers.modify counter fun pub => { pub with seq := pub.seq + 1 } },
          .publish ⟨some publisher, ⟨pub.topic, payload, rd.now, n, pub.guid.toBytes⟩⟩)
  | publish (x : Delivery) (hrtps : cfg.transport = .rtps) :
      Moves cfg rd s (.publish x)
        ({ s with lastSample := s.lastSample.insert x.sample.topic x }, .snapshot x)
  | cache (x : Delivery) (qos : DeliveryQoS) (hbroker : cfg.transport ≠ .rtps)
      (hfree : s.locked = false) :
      Moves cfg rd s (.publish x)
        ({ s with
            topics := s.topics.insert x.sample.topic
              (if qos.transientLocal then (s.topicState cfg x.sample.topic qos).pushToCache x
                else s.topicState cfg x.sample.topic qos)
            locked := true },
          .retain (s.topicState cfg x.sample.topic qos).subscribers x)
  | sweep (r : ℕ) (left : List ℕ) (x : Delivery) (hclosed : s.isClosed r = true) :
      Moves cfg rd s (.retain (r :: left) x)
        ({ s with topics := s.topics.adjust x.sample.topic fun st =>
            { st with subscribers := st.subscribers.erase r } }, .retain left x)
  | spare (r : ℕ) (left : List ℕ) (x : Delivery) :
      Moves cfg rd s (.retain (r :: left) x) (s, .retain left x)
  | retain (x : Delivery) :
      Moves cfg rd s (.retain [] x)
        (s, .push (((s.topics.lookup x.sample.topic).map TopicState.subscribers).getD []) x)
  | snapshot (x : Delivery) :
      Moves cfg rd s (.snapshot x) (s, .push (s.matchingReaders x.sample.topic) x)
  | skip (r : ℕ) (left : List ℕ) (x : Delivery) (hshut : s.isShut r = true) :
      Moves cfg rd s (.push (r :: left) x) (s, .push left x)
  | push (r : ℕ) (left : List ℕ) (x : Delivery) (hopen : s.isShut r = false) :
      Moves cfg rd s (.push (r :: left) x) (s, .enqueue r left x)
  | written (x : Delivery) (hrtps : cfg.transport = .rtps) :
      Moves cfg rd s (.push [] x) (s, .returned (.ok ()))
  | unlock (x : Delivery) (hbroker : cfg.transport ≠ .rtps) :
      Moves cfg rd s (.push [] x) ({ s with locked := false }, .returned (.ok ()))
  | enqueue (r : ℕ) (left : List ℕ) (x : Delivery) :
      Moves cfg rd s (.enqueue r left x)
        (s.modifySub r fun sub => sub.enqueue (addressed cfg x sub), .push left x)
  | storeClosed (r : ℕ) (t : DeliveryTask)
      (ht : t = if cfg.transport = .mock then .returned (.ok ()) else .removeSubscriber r) :
      Moves cfg rd s (.storeClosed r)
        (s.modifySub r fun sub => { sub with closed := true }, t)
  | removeNone (r : ℕ) (hnone : s.subscriptions[r]? = none) :
      Moves cfg rd s (.removeSubscriber r) (s, .returned (.ok ()))
  | removeReader (r : ℕ) (sub : Subscription) (hsub : s.subscriptions[r]? = some sub)
      (hrtps : cfg.transport = .rtps) :
      Moves cfg rd s (.removeSubscriber r)
        ({ s with readers := s.readers.erase sub.eid }, .returned (.ok ()))
  | removeSubscriber (r : ℕ) (sub : Subscription) (hsub : s.subscriptions[r]? = some sub)
      (hbroker : cfg.transport ≠ .rtps) (hfree : s.locked = false) :
      Moves cfg rd s (.removeSubscriber r)
        ({ s with topics := s.topics.adjust sub.topic fun st =>
            { st with subscribers := st.subscribers.erase r } }, .returned (.ok ()))
  | lockSubscribers (hfree : s.locked = false) :
      Moves cfg rd s .lockSubscribers ({ s with locked := true }, .closeEach (s.listed cfg))
  | closeEach (r : ℕ) (left : List ℕ) :
      Moves cfg rd s (.closeEach (r :: left))
        (s.modifySub r fun sub => { sub with closed := true }, .closeEach left)
  | closedEach : Moves cfg rd s (.closeEach []) ({ s with locked := false }, .returned (.ok ()))

/-- The first step of a call. -/
lemma moves_enter (c : DeliveryCall) : Moves cfg rd s (.call c) (s.enter cfg c) := by
  cases c with
  | newPublisher | newSubscriber =>
    rw [enter]
    split
    · exact .fails _ _
    · split
      · exact .fails _ _
      · constructor
        assumption
  | write publisher payload =>
    rw [enter]
    split
    · exact .waits _
    · split
      · exact .fails _ _
      · split
        · exact .fails _ _
        · exact .write publisher payload
  | closePublisher publisher =>
    rw [enter]
    split
    · exact .closePublisher publisher
    · exact .waits _
  | closeSubscriber r =>
    rw [enter]
    split
    · exact .closeSubscriber r ‹_›
    · exact .waits _
  | unsubscribe r =>
    rw [enter]
    split
    · exact .unsubscribe r ‹_›
    · exact .waits _
  | close who =>
    rw [enter]
    split
    · exact .setFlag who ‹_›
    all_goals
      split
      · exact .wasClosed who ‹_›
      · exact .close who (by simp [*])

lemma moves_createPublisher (who : ℕ) (topic : String) (qos : DeliveryQoS) :
    Moves cfg rd s (.createPublisher who topic qos) (s.createPublisher cfg who topic qos) := by
  unfold createPublisher
  split
  · dsimp only
    split
    · exact .overflows _ ‹_›
    · exact .newWriter _ _ _ _ ‹_›
  all_goals exact .createPublisher who topic qos (by simp [*])

lemma moves_subscribe (topic : String) (qos : DeliveryQoS) (opts : SubscriberOptions) :
    Moves cfg rd s (.subscribe topic qos opts) (s.subscribe cfg topic qos opts) := by
  unfold subscribe
  split
  · dsimp only
    split
    · exact .overflows _ ‹_›
    · exact .newReader _ _ _ _ ‹_›
  all_goals
    split
    · exact .waits _
    · exact .subscribe _ _ _ _ _ (by simp [*]) (by simpa using ‹¬ s.locked = true›) rfl
        (by simp [*])

lemma moves_draw (publisher : ℕ) (payload : Bytes) :
    Moves cfg rd s (.draw publisher payload) (s.draw cfg rd.now publisher payload) := by
  unfold draw
  split
  · exact .drawNone _ _ ‹_›
  rename_i pub hpub
  split
  · exact .drawRemoved _ _ pub hpub ‹_›
  rename_i counter hcounter
  dsimp only
  split
  · exact .drawOverflows _ _ pub counter hpub hcounter
  · exact .draw _ _ pub counter _ hpub hcounter ‹_›

lemma moves_publish (x : Delivery) : Moves cfg rd s (.publish x) (s.publish cfg x) := by
  unfold publish
  split
  · exact .publish x ‹_›
  all_goals
    split
    · exact .waits _
    · exact .cache x _ (by simp [*]) (by simpa using ‹¬ s.locked = true›)

/-- **A step has one of these outcomes.** -/
lemma moves_move (cfg : DeliveryConfig) (rd : Reading) (s : DeliveryState) (t : DeliveryTask) :
    Moves cfg rd s t (s.move cfg rd t) := by
  cases t with
  | call c => exact moves_enter c
  | createPublisher who topic qos => exact moves_createPublisher who topic qos
  | insertWriter topic qos eid => exact .insertWriter topic qos eid
  | subscribe topic qos opts => exact moves_subscribe topic qos opts
  | insertReader topic qos opts eid => exact .insertReader topic qos opts eid _ rfl
  | deliverCached r =>
    rw [move]
    split
    · exact .deliverNone r
    · exact .deliverCached r _ _ rfl ‹_›
  | enlist r =>
    rw [move]
    split
    · exact .waits _
    · exact .enlist r (by simpa using ‹¬ s.locked = true›)
  | startPoller r transientLocal =>
    rw [move]
    split
    · exact .startPoller r _ 0
    rename_i d hfile
    split
    · rename_i hseed
      exact .readFirst r _ d hfile hseed.1
    · exact .startPoller r _ d.seq
  | poll r lastSeq =>
    rw [move]
    split
    · exact .stopPoller r _ ‹_›
    · exact .poll r lastSeq
  | readFile r lastSeq =>
    rw [move]
    split
    · exact .readNothing r lastSeq
    rename_i d hfile
    split
    · exact .readNothing r lastSeq
    · rename_i hnew
      exact .readFile r lastSeq d hfile (fun h => hnew (.inl h))
        (Nat.lt_of_not_le fun h => hnew (.inr h))
  | pushRead r x =>
    rw [move]
    split
    · exact .skipRead r x ‹_›
    · exact .pushRead r x
  | enqueueRead r x => exact .enqueueRead r x
  | draw publisher payload => exact moves_draw publisher payload
  | publish x => exact moves_publish x
  | retain left x =>
    cases left with
    | nil => exact .retain x
    | cons r left =>
      rw [move]
      split
      · exact .sweep r left x ‹_›
      · exact .spare r left x
  | snapshot x => exact .snapshot x
  | push left x =>
    cases left with
    | nil =>
      rw [move]
      split
      · exact .written x ‹_›
      · exact .unlock x ‹_›
    | cons r left =>
      rw [move]
      split
      · exact .skip r left x ‹_›
      · exact .push r left x (by simpa using ‹¬ s.isShut r = true›)
  | enqueue r left x => exact .enqueue r left x
  | storeClosed r => exact .storeClosed r _ rfl
  | removeSubscriber r =>
    rw [move]
    split
    · exact .removeNone r ‹_›
    rename_i sub hsub
    split
    · exact .removeReader r sub hsub ‹_›
    split
    · exact .waits _
    · exact .removeSubscriber r sub hsub ‹_› (by simpa using ‹¬ s.locked = true›)
  | lockSubscribers =>
    rw [move]
    split
    · exact .waits _
    · exact .lockSubscribers (by simpa using ‹¬ s.locked = true›)
  | closeEach left =>
    cases left with
    | nil => exact .closedEach
    | cons r left => exact .closeEach r left
  | returned | done => exact .waits _

end DeliveryState

end RustDds
