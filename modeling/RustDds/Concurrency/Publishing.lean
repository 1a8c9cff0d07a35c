import RustDds.Lib.Pool
import RustDds.Rtps.Registration
import RustDds.Rtps.Wildcard
import RustDds.Shmem.Ipc

/-!
# Publishers and subscribers under concurrent calls

The three participants offer one interface: create publishers and subscribers, write, close.
They differ in where they keep what, and in which steps they do it; `Transport` says which of
them is meant, and each step below has one branch for each way of doing it.

* The mock participant and the shared-memory participants have a broker with a list of
  subscribers for each topic, and the mutex of the broker is held while a sample is delivered.  A
  mock broker belongs to one participant, a shared-memory broker to all those of a process on one
  domain.
* The UDP participant has a dispatch table, of which a write takes a snapshot; nothing is held
  while it goes through it.  A list of subscribers, with a mutex, is kept for closing alone.

A task moves by one critical section, one atomic operation, or one load of the flags of a queue.
Both flags of a queue are loaded at once, which is the same to anyone, as neither is ever reset.

Left out are the counters, the log of payloads of the mock participant, deadline watchers and
heartbeats, what is sent over the network, and SEDP.
-/

namespace RustDds

/-- Which participant. -/
inductive Transport
  | mock
  | shmem
  | rtps
  deriving DecidableEq

/-- Why a call failed. -/
inductive DdsError
  | closed
  | topicEmpty
  | payloadTooLarge
  deriving DecidableEq

/-- What of a `QoS` bears on delivery. -/
structure DeliveryQoS where
  transientLocal : Bool
  historyDepth : ℤ
  maxSampleSize : ℤ
  deriving DecidableEq

/-- The default. -/
def DeliveryQoS.default : DeliveryQoS := ⟨false, 1, 0⟩

/-- A sample on its way, with the publisher it is from: one of those here, or one elsewhere. -/
structure Delivery where
  publisher : Option ℕ
  sample : Sample
  deriving DecidableEq

/-- A publisher. -/
structure Publication where
  topic : String
  qos : DeliveryQoS
  guid : Guid
  seq : UInt64
  closed : Bool
  deriving DecidableEq

/-- The publisher takes the payload: it is open, and the payload is not above its maximum. -/
def Publication.Accepts (pub : Publication) (payload : Bytes) : Prop :=
  pub.closed = false ∧
    (pub.qos.maxSampleSize ≤ 0 ∨ (payload.length : ℤ) ≤ pub.qos.maxSampleSize)

/-- A subscriber, with its queue and with what its `recv` has returned so far. -/
structure Subscription where
  topic : String
  eid : EntityId
  capacity : ℕ
  policy : BackPressurePolicy
  closed : Bool
  unsubscribed : Bool
  queue : List Delivery
  received : List (Option Delivery)
  deriving DecidableEq

namespace Subscription

/-- A new subscriber.  Only the UDP participant gives it an entity id. -/
def new (topic : String) (eid : EntityId) (opts : SubscriberOptions) : Subscription :=
  ⟨topic, eid, opts.chanDepth 64, opts.backPressure, false, false, [], []⟩

/-- The queue behind it. -/
def inner (sub : Subscription) : SubInner :=
  ⟨sub.queue.map Delivery.sample, sub.capacity, sub.policy, sub.closed, sub.unsubscribed⟩

/-- The part of `push` under the mutex of the queue. -/
def enqueue (sub : Subscription) (x : Delivery) : Subscription :=
  { sub with queue := (sub.policy.offer sub.capacity sub.queue x).2 }

/-- `push`. -/
def push (sub : Subscription) (x : Delivery) : Subscription :=
  if sub.unsubscribed || sub.closed then sub else sub.enqueue x

/-- What a `recv` returns that does not have to wait. -/
def recv (sub : Subscription) : Subscription :=
  match sub.queue with
  | x :: queue => { sub with queue, received := sub.received ++ [some x] }
  | [] => if sub.closed then { sub with received := sub.received ++ [none] } else sub

end Subscription

/-- A topic of a broker. -/
structure TopicState where
  subscribers : List ℕ
  cache : List Delivery
  historyDepth : ℕ
  deriving DecidableEq

namespace TopicState

/-- A new topic.  The shared-memory broker keeps the last sample alone. -/
def new (t : Transport) (qos : DeliveryQoS) : TopicState :=
  ⟨[], [], if t = .mock then (max qos.historyDepth 1).toNat else 1⟩

/-- `push_to_cache`. -/
def pushToCache (st : TopicState) (x : Delivery) : TopicState :=
  if st.historyDepth > 0 then
    { st with cache :=
        (if st.cache.length ≥ st.historyDepth then st.cache.tail else st.cache) ++ [x] }
  else st

end TopicState

/-- What the tasks share. -/
structure DeliveryState where
  /-- The participants that are closed. -/
  closed : Finset ℕ
  /-- How many publishers each participant has created. -/
  pubCounter : ℕ → UInt64
  entityCounter : UInt32
  publishers : List Publication
  subscriptions : List Subscription
  topics : Table String TopicState
  /-- The dispatch table of the UDP participant, by position among the subscribers. -/
  readers : Table EntityId ℕ
  writers : Table EntityId ℕ
  lastSample : Table String Delivery
  /-- The subscribers the UDP participant will close. -/
  subscribers : List ℕ
  /-- The mutex of the broker, or of that list. -/
  locked : Bool

/-- A call. -/
inductive DeliveryCall
  | newPublisher (who : ℕ) (topic : String) (qos : DeliveryQoS)
  | newSubscriber (who : ℕ) (topic : String) (qos : DeliveryQoS) (opts : SubscriberOptions)
  | write (publisher : ℕ) (payload : Bytes)
  | closePublisher (publisher : ℕ)
  | closeSubscriber (subscriber : ℕ)
  | unsubscribe (subscriber : ℕ)
  /-- `Participant::close`. -/
  | close (who : ℕ)
  deriving DecidableEq

/-- The call is on this participant, or on something it returned. -/
def DeliveryCall.On (who : ℕ) : DeliveryCall → Prop
  | .newPublisher who' _ _ => who' = who
  | .newSubscriber who' _ _ _ => who' = who
  | .close who' => who' = who
  | _ => True

/-- What is left of a call. -/
inductive DeliveryTask
  /-- All of it. -/
  | call (c : DeliveryCall)
  | createPublisher (who : ℕ) (topic : String) (qos : DeliveryQoS)
  /-- Put a new writer into the table. -/
  | insertWriter (topic : String) (qos : DeliveryQoS) (eid : EntityId)
  | subscribe (topic : String) (qos : DeliveryQoS) (opts : SubscriberOptions)
  /-- Put a new reader into the dispatch table. -/
  | insertReader (topic : String) (qos : DeliveryQoS) (opts : SubscriberOptions) (eid : EntityId)
  /-- Hand a new reader the last sample of its topic. -/
  | deliverCached (subscriber : ℕ)
  /-- Put a new subscriber into the list of those to close. -/
  | enlist (subscriber : ℕ)
  /-- Read the rendezvous file for the first time. -/
  | startPoller (subscriber : ℕ) (transientLocal : Bool)
  /-- Wait for the next tick. -/
  | poll (subscriber : ℕ) (lastSeq : ℕ)
  /-- Read the rendezvous file. -/
  | readFile (subscriber : ℕ) (lastSeq : ℕ)
  /-- Push what the file said. -/
  | pushRead (subscriber : ℕ) (x : Delivery)
  | enqueueRead (subscriber : ℕ) (x : Delivery)
  /-- Draw the sequence number. -/
  | draw (publisher : ℕ) (payload : Bytes)
  /-- Take the mutex of the broker, or store the last sample. -/
  | publish (x : Delivery)
  /-- Take those that are closed off the list. -/
  | retain (left : List ℕ) (x : Delivery)
  /-- Look up the readers. -/
  | snapshot (x : Delivery)
  /-- Push the sample to these. -/
  | push (left : List ℕ) (x : Delivery)
  | enqueue (subscriber : ℕ) (left : List ℕ) (x : Delivery)
  /-- Set the closed flag, after the unsubscribed one. -/
  | storeClosed (subscriber : ℕ)
  /-- Take the subscriber off the list of its topic, or out of the dispatch table. -/
  | removeSubscriber (subscriber : ℕ)
  /-- Take the mutex of the lists of subscribers. -/
  | lockSubscribers
  | closeEach (left : List ℕ)
  /-- Nothing, the call has returned this. -/
  | returned (result : Except DdsError Unit)
  /-- Nothing, the call has unwound, or the poller ended. -/
  | done
  deriving DecidableEq

/-- What a step reads: the clock, and the rendezvous file, where that can be decoded. -/
structure Reading where
  now : ℤ
  file : Option Decoded
  deriving DecidableEq

/-- What a participant is created with. -/
structure DeliveryConfig where
  transport : Transport
  guidPrefix : GuidPrefix
  originId : UInt64

namespace DeliveryConfig

/-- The participant that a call is on.  Only a shared-memory broker has more than one. -/
def owner (cfg : DeliveryConfig) (who : ℕ) : ℕ := if cfg.transport = .shmem then who else 0

/-- A participant of some kind, whose prefix is zero. -/
def plain (transport : Transport) : DeliveryConfig := ⟨transport, FixedBytes.zero 12, 1⟩

/-- `make_guid`. -/
def makeGuid (cfg : DeliveryConfig) (id : UInt64) : Guid :=
  ⟨cfg.guidPrefix, ⟨[(id.toUInt32 >>> 24).toUInt8, (id.toUInt32 >>> 16).toUInt8,
    (id.toUInt32 >>> 8).toUInt8, id.toUInt32.toUInt8], rfl⟩⟩

end DeliveryConfig

namespace DeliveryState

/-- No publisher and no subscriber. -/
def new : DeliveryState :=
  ⟨∅, fun _ => 0, 0, [], [], ∅, ∅, ∅, ∅, [], false⟩

variable (cfg : DeliveryConfig) (s : DeliveryState)

/-- The subscriber has been returned by `new_subscriber`. -/
def HasSubscriber (subscriber : ℕ) : Prop :=
  subscriber < s.subscriptions.length ∧ (cfg.transport = .rtps → subscriber ∈ s.subscribers)

instance (subscriber : ℕ) : Decidable (s.HasSubscriber cfg subscriber) :=
  inferInstanceAs (Decidable (_ ∧ _))

/-- Update a subscriber. -/
def modifySub (subscriber : ℕ) (f : Subscription → Subscription) : DeliveryState :=
  { s with subscriptions := s.subscriptions.modify subscriber f }

/-- A load of the closed flag. -/
def isClosed (subscriber : ℕ) : Bool :=
  (s.subscriptions[subscriber]?.map Subscription.closed).getD false

/-- A load of both flags, as `push` and the poller do it. -/
def isShut (subscriber : ℕ) : Bool :=
  (s.subscriptions[subscriber]?.map fun sub => sub.unsubscribed || sub.closed).getD false

/-- The state of a topic, from its first use on. -/
def topicState (topic : String) (qos : DeliveryQoS) : TopicState :=
  (s.topics.lookup topic).getD (.new cfg.transport qos)

/-- Where the sequence numbers of a publisher are counted.  The UDP participant looks up the
state of the writer by its entity id. -/
def counterOf (publisher : ℕ) (pub : Publication) : Option ℕ :=
  if cfg.transport = .rtps then s.writers.lookup pub.guid.entity else some publisher

/-- The readers that a sample of a local writer goes to. -/
def matchingReaders (topic : String) : List ℕ :=
  s.readers.values.filter fun r =>
    s.subscriptions[r]?.any fun sub => sub.topic = topic || topicMatches sub.topic topic

/-- What a reader gets: the UDP participant puts the topic of the reader. -/
def addressed (x : Delivery) (sub : Subscription) : Delivery :=
  if cfg.transport = .rtps then { x with sample := { x.sample with topic := sub.topic } } else x

/-- The lists of subscribers that `close` walks. -/
def listed : List ℕ :=
  if cfg.transport = .rtps then s.subscribers
  else s.topics.values.flatMap TopicState.subscribers

/-- The first step of a call.  A call on a publisher or a subscriber begins when there is one. -/
def enter : DeliveryCall → DeliveryState × DeliveryTask
  | .newPublisher who topic qos =>
    if cfg.owner who ∈ s.closed then (s, .returned (.error .closed))
    else if topic = "" then (s, .returned (.error .topicEmpty))
    else (s, .createPublisher who topic qos)
  | .newSubscriber who topic qos opts =>
    if cfg.owner who ∈ s.closed then (s, .returned (.error .closed))
    else if topic = "" then (s, .returned (.error .topicEmpty))
    else (s, .subscribe topic qos opts)
  | .write publisher payload =>
    match s.publishers[publisher]? with
    | none => (s, .call (.write publisher payload))
    | some pub =>
      if pub.closed then (s, .returned (.error .closed))
      else if pub.qos.maxSampleSize > 0 ∧ (payload.length : ℤ) > pub.qos.maxSampleSize then
        (s, .returned (.error .payloadTooLarge))
      else (s, .draw publisher payload)
  | .closePublisher publisher =>
    if publisher < s.publishers.length then
      ({ s with
          publishers := s.publishers.modify publisher fun pub => { pub with closed := true } },
        .returned (.ok ()))
    else (s, .call (.closePublisher publisher))
  | .closeSubscriber subscriber =>
    if s.HasSubscriber cfg subscriber then (s, .storeClosed subscriber)
    else (s, .call (.closeSubscriber subscriber))
  | .unsubscribe subscriber =>
    if s.HasSubscriber cfg subscriber then
      (s.modifySub subscriber fun sub => { sub with unsubscribed := true }, .storeClosed subscriber)
    else (s, .call (.unsubscribe subscriber))
  | .close who =>
    match cfg.transport with
    | .shmem => ({ s with closed := insert (cfg.owner who) s.closed }, .returned (.ok ()))
    | .mock | .rtps =>
      if cfg.owner who ∈ s.closed then (s, .returned (.ok ()))
      else ({ s with closed := insert (cfg.owner who) s.closed }, .lockSubscribers)

/-- Create a publisher. -/
def createPublisher (who : ℕ) (topic : String) (qos : DeliveryQoS) :
    DeliveryState × DeliveryTask :=
  match cfg.transport with
  | .rtps =>
    let s' := { s with entityCounter := s.entityCounter + 1 }
    match checkedAdd 32 s.entityCounter.toNat 1 with
    | .error _ => (s', .done)
    | .ok n => (s', .insertWriter topic qos (entityIdForWriter (UInt32.ofNat n)))
  | .mock | .shmem =>
    let id := s.pubCounter (cfg.owner who)
    ({ s with
        pubCounter := Function.update s.pubCounter (cfg.owner who) (id + 1)
        publishers := s.publishers ++ [⟨topic, qos, cfg.makeGuid id, 0, false⟩] },
      .returned (.ok ()))

/-- Create a subscriber: at once, with a broker, and with the cached samples of the topic. -/
def subscribe (topic : String) (qos : DeliveryQoS) (opts : SubscriberOptions) :
    DeliveryState × DeliveryTask :=
  match cfg.transport with
  | .rtps =>
    let s' := { s with entityCounter := s.entityCounter + 1 }
    match checkedAdd 32 s.entityCounter.toNat 1 with
    | .error _ => (s', .done)
    | .ok n => (s', .insertReader topic qos opts (entityIdForReader (UInt32.ofNat n)))
  | .mock | .shmem =>
    if s.locked then (s, .subscribe topic qos opts)
    else
      let st := s.topicState cfg topic qos
      let sub := Subscription.new topic entityIdUnknown opts
      let sub := if qos.transientLocal then st.cache.foldl Subscription.push sub else sub
      let subscriber := s.subscriptions.length
      ({ s with
          subscriptions := s.subscriptions ++ [sub]
          topics := s.topics.insert topic
            { st with subscribers := st.subscribers ++ [subscriber] } },
        if cfg.transport = .shmem then .startPoller subscriber qos.transientLocal
        else .returned (.ok ()))

/-- What the rendezvous file says, as a sample from elsewhere. -/
def readSample (subscriber : ℕ) (d : Decoded) : Delivery :=
  let topic := ((s.subscriptions[subscriber]?).map Subscription.topic).getD ""
  ⟨none, ⟨topic, d.payload, d.timestampUnixNanos, d.seq, d.writerGuid⟩⟩

/-- Draw a sequence number.  The counter itself wraps. -/
def draw (now : ℤ) (publisher : ℕ) (payload : Bytes) : DeliveryState × DeliveryTask :=
  match s.publishers[publisher]? with
  | none => (s, .done)
  | some pub =>
    match s.counterOf cfg publisher pub with
    -- the writer has been removed: nothing is written
    | none => (s, .returned (.ok ()))
    | some counter =>
      let s' := { s with publishers :=
        s.publishers.modify counter fun pub => { pub with seq := pub.seq + 1 } }
      match checkedAdd 64 ((s.publishers[counter]?.map Publication.seq).getD 0).toNat 1 with
      | .error _ => (s', .done)
      | .ok n =>
        (s', .publish ⟨some publisher, ⟨pub.topic, payload, now, n, pub.guid.toBytes⟩⟩)

/-- Go on with a sample that has its number. -/
def publish (x : Delivery) : DeliveryState × DeliveryTask :=
  match cfg.transport with
  | .rtps => ({ s with lastSample := s.lastSample.insert x.sample.topic x }, .snapshot x)
  | .mock | .shmem =>
    if s.locked then (s, .publish x)
    else
      let qos :=
        ((x.publisher.bind fun k => s.publishers[k]?).map Publication.qos).getD ⟨false, 0, 0⟩
      let st := s.topicState cfg x.sample.topic qos
      ({ s with
          topics := s.topics.insert x.sample.topic
            (if qos.transientLocal then st.pushToCache x else st)
          locked := true },
        .retain st.subscribers x)

/-- One step of a task. -/
def move (rd : Reading) : DeliveryTask → DeliveryState × DeliveryTask
  | .call c => s.enter cfg c
  | .createPublisher who topic qos => s.createPublisher cfg who topic qos
  | .insertWriter topic qos eid =>
    ({ s with
        publishers := s.publishers ++ [⟨topic, qos, ⟨cfg.guidPrefix, eid⟩, 0, false⟩]
        writers := s.writers.insert eid s.publishers.length },
      .returned (.ok ()))
  | .subscribe topic qos opts => s.subscribe cfg topic qos opts
  | .insertReader topic qos opts eid =>
    ({ s with
        subscriptions := s.subscriptions ++ [.new topic eid opts]
        readers := s.readers.insert eid s.subscriptions.length },
      if qos.transientLocal then .deliverCached s.subscriptions.length
      else .enlist s.subscriptions.length)
  | .deliverCached subscriber =>
    let topic := ((s.subscriptions[subscriber]?).map Subscription.topic).getD ""
    match s.lastSample.lookup topic with
    | none => (s, .enlist subscriber)
    | some x => (s.modifySub subscriber fun sub => sub.push x, .enlist subscriber)
  | .enlist subscriber =>
    if s.locked then (s, .enlist subscriber)
    else ({ s with subscribers := s.subscribers ++ [subscriber] }, .returned (.ok ()))
  | .startPoller subscriber transientLocal =>
    match rd.file with
    | none => (s, .poll subscriber 0)
    | some d =>
      if d.originId ≠ cfg.originId ∧ transientLocal then
        (s, .pushRead subscriber (s.readSample subscriber d))
      else (s, .poll subscriber d.seq)
  | .poll subscriber lastSeq =>
    if s.isShut subscriber then (s, .done) else (s, .readFile subscriber lastSeq)
  | .readFile subscriber lastSeq =>
    match rd.file with
    | none => (s, .poll subscriber lastSeq)
    | some d =>
      if d.originId = cfg.originId ∨ d.seq ≤ lastSeq then (s, .poll subscriber lastSeq)
      else (s, .pushRead subscriber (s.readSample subscriber d))
  | .pushRead subscriber x =>
    if s.isShut subscriber then (s, .poll subscriber x.sample.sequenceNumber)
    else (s, .enqueueRead subscriber x)
  | .enqueueRead subscriber x =>
    (s.modifySub subscriber fun sub => sub.enqueue x, .poll subscriber x.sample.sequenceNumber)
  | .draw publisher payload => s.draw cfg rd.now publisher payload
  | .publish x => s.publish cfg x
  | .retain (r :: left) x =>
    if s.isClosed r then
      ({ s with topics := s.topics.adjust x.sample.topic fun st =>
          { st with subscribers := st.subscribers.erase r } }, .retain left x)
    else (s, .retain left x)
  | .retain [] x =>
    (s, .push (((s.topics.lookup x.sample.topic).map TopicState.subscribers).getD []) x)
  | .snapshot x => (s, .push (s.matchingReaders x.sample.topic) x)
  | .push (r :: left) x => if s.isShut r then (s, .push left x) else (s, .enqueue r left x)
  | .push [] _ =>
    (if cfg.transport = .rtps then s else { s with locked := false }, .returned (.ok ()))
  | .enqueue r left x =>
    (s.modifySub r fun sub => sub.enqueue (addressed cfg x sub), .push left x)
  | .storeClosed subscriber =>
    (s.modifySub subscriber fun sub => { sub with closed := true },
      if cfg.transport = .mock then .returned (.ok ()) else .removeSubscriber subscriber)
  | .removeSubscriber subscriber =>
    match s.subscriptions[subscriber]? with
    | none => (s, .returned (.ok ()))
    | some sub =>
      if cfg.transport = .rtps then
        ({ s with readers := s.readers.erase sub.eid }, .returned (.ok ()))
      else if s.locked then (s, .removeSubscriber subscriber)
      else ({ s with topics := s.topics.adjust sub.topic fun st =>
          { st with subscribers := st.subscribers.erase subscriber } }, .returned (.ok ()))
  | .lockSubscribers =>
    if s.locked then (s, .lockSubscribers)
    else ({ s with locked := true }, .closeEach (s.listed cfg))
  | .closeEach (r :: left) =>
    (s.modifySub r fun sub => { sub with closed := true }, .closeEach left)
  | .closeEach [] => ({ s with locked := false }, .returned (.ok ()))
  | .returned result => (s, .returned result)
  | .done => (s, .done)

/-- What happens besides. -/
inductive Surrounding
  /-- A `recv`. -/
  | recv (subscriber : ℕ)
  /-- The UDP participant receives a sample for one of its readers. -/
  | arrive (subscriber : ℕ) (sample : Sample)
  deriving DecidableEq

/-- The calls, and what happens besides, as a program. -/
def program : Program DeliveryState DeliveryTask Reading Surrounding where
  move rd s t := s.move cfg rd t
  env
    | .recv subscriber, s => s.modifySub subscriber Subscription.recv
    | .arrive subscriber sample, s =>
      if cfg.transport = .rtps then s.modifySub subscriber fun sub => sub.push ⟨none, sample⟩ else s

/-- A family of calls, of which none has begun. -/
def start (calls : ℕ → DeliveryCall) : Pool DeliveryState DeliveryTask :=
  ⟨new, fun i => .call (calls i)⟩

/-- A pick of the scheduler. -/
abbrev Turn := Pick Reading Surrounding

/-- A step of a task, at time zero and without a rendezvous file. -/
def turn (i : ℕ) : Turn := .task i ⟨0, none⟩

end DeliveryState

end RustDds
