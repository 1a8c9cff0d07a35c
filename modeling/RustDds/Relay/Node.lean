import Mathlib.Data.List.ReduceOption
import RustDds.Concurrency.Publishing

/-!
# The relay node

A `DdsNode` makes a relay node of a participant.  `send` writes to a publisher of the message's
topic, which it creates on first use.  `subscribe` has a subscriber of the participant, whose
queue a task empties: it forwards each sample, as a message, to a channel the caller reads.

There are two such tasks.  Under `DropNewest` and `Block` the task takes a sample and offers it to
the channel, or waits until it fits.  Under `DropOldest` the channel has one place, and the task
keeps a backlog of its own: it picks between handing the oldest message of the backlog to the
channel and taking another sample.

The participant is the mock.  Its broker holds a mutex while it pushes a sample, and so does
`close` of the participant while it closes the subscribers; the queue has a mutex of its own, and
a push takes it once.  So to publish a sample is one step here.  There is one subscriber; others
have queues and tasks of their own.  The log of payloads of the mock participant, counters and the
deadline watcher are left out, and so is what every message has in common.
-/

namespace RustDds

/-- What a relay call fails with. -/
inductive RelayError
  | closed
  | notConnected
  | timeout
  | payloadTooLarge
  deriving DecidableEq

/-- A message of the relay, as far as messages differ. -/
structure RelayMessage where
  id : String
  payload : Bytes
  timestamp : ℤ
  seq : ℕ
  /-- The metadata under `dds.writer_guid`. -/
  writerGuid : FixedBytes 16
  deriving DecidableEq

/-- `to_message`. -/
def Sample.toMessage (s : Sample) : RelayMessage :=
  ⟨s.topic, s.payload, s.timestamp, s.sequenceNumber, s.writerGuid⟩

/-- `as_relay`. -/
def DdsError.asRelay : DdsError → RelayError
  | .closed => .closed
  | .topicEmpty => .notConnected
  | .payloadTooLarge => .payloadTooLarge

/-- What a `recv` finds. -/
inductive Received
  | sample (x : Sample)
  | finished
  | pending

/-- A `recv` of the queue: it returns a sample, or nothing as the queue is closed, or waits. -/
def SubInner.recv (q : SubInner) : Received × SubInner :=
  match q.queue with
  | x :: queue => (.sample x, { q with queue })
  | [] => (if q.closed then .finished else .pending, q)

/-- The task that forwards samples. -/
inductive Forwarder
  /-- Waits for a sample. -/
  | receiving
  /-- Waits for a place in the channel. -/
  | sending (m : RelayMessage)
  /-- Waits for either, with the backlog it keeps under `DropOldest`. -/
  | relaying (backlog : List RelayMessage)
  /-- The task is over. -/
  | done
  deriving DecidableEq

/-- The messages the task has taken and not handed on. -/
def Forwarder.held : Forwarder → List RelayMessage
  | .receiving | .done => []
  | .sending m => [m]
  | .relaying backlog => backlog

/-- A publisher of the mock participant. -/
structure NodePublisher where
  guid : Guid
  seq : UInt64

/-- A node, its participant, and a subscriber of one topic with the task and the channel that
belong to it. -/
structure DdsNode where
  closed : Bool
  participantClosed : Bool
  publishers : Table String NodePublisher
  pubCounter : UInt64
  topic : String
  inner : SubInner
  forwarder : Forwarder
  channel : List RelayMessage
  channelCapacity : ℕ
  /-- The caller has dropped its end of the channel. -/
  dropped : Bool
  /-- What the caller has received so far. -/
  delivered : List (Option RelayMessage)

/-- What is left of a call. -/
inductive NodeTask
  /-- Send this payload to this topic, with a context that is done, or not. -/
  | send (id : String) (payload : Bytes) (done : Bool)
  /-- Get the publisher. -/
  | acquire (id : String) (payload : Bytes)
  /-- Draw the sequence number. -/
  | write (id : String) (payload : Bytes)
  /-- Have the broker publish the sample. -/
  | publish (x : Sample)
  | close
  /-- Close the participant. -/
  | closeParticipant
  /-- Close the subscribers. -/
  | closeSubscribers
  /-- Nothing, the call has returned this. -/
  | returned (result : Except RelayError Unit)
  /-- Nothing, the call has unwound. -/
  | unwound
  deriving DecidableEq

/-- What happens besides. -/
inductive NodeEvent
  /-- The forwarding task is run.  Under `DropOldest` it picks one of two things. -/
  | forward (handoff : Bool)
  /-- The caller receives. -/
  | recv
  /-- The caller drops its end of the channel. -/
  | drop
  deriving DecidableEq

namespace DdsNode

/-- A node on which nothing was called, without a subscriber. -/
def new : DdsNode := ⟨false, false, ∅, 0, "", .new 0 .block, .done, [], 0, false, []⟩

variable (cfg : DeliveryConfig) (s : DdsNode)

/-- `subscribe`, from what came before. -/
def subscribe (topic : String) (opts : SubscriberOptions) : DdsNode :=
  let depth := opts.chanDepth 64
  { s with
    topic
    inner := .new depth opts.backPressure
    forwarder := if opts.backPressure = .dropOldest then .relaying [] else .receiving
    channel := []
    channelCapacity := if opts.backPressure = .dropOldest then 1 else max depth 1
    dropped := false
    delivered := [] }

/-- Get the publisher of a topic, creating it on first use. -/
def acquire (id : String) (payload : Bytes) : DdsNode × NodeTask :=
  match s.publishers.lookup id with
  | some _ => (s, .write id payload)
  | none =>
    if s.participantClosed then (s, .returned (.error DdsError.closed.asRelay))
    else if id = "" then (s, .returned (.error DdsError.topicEmpty.asRelay))
    else ({ s with
        publishers := s.publishers.insert id ⟨cfg.makeGuid s.pubCounter, 0⟩
        pubCounter := s.pubCounter + 1 },
      .write id payload)

/-- Write to the publisher.  No publisher of a node is ever closed, and none has a limit. -/
def write (now : ℤ) (id : String) (payload : Bytes) : DdsNode × NodeTask :=
  match s.publishers.lookup id with
  | none => (s, .unwound)
  | some pub =>
    let s' := { s with publishers := s.publishers.insert id { pub with seq := pub.seq + 1 } }
    match checkedAdd 64 pub.seq.toNat 1 with
    | .error _ => (s', .unwound)
    | .ok n => (s', .publish ⟨id, payload, now, n, pub.guid.toBytes⟩)

/-- The next step of a call, at this time. -/
def move (now : ℤ) : NodeTask → DdsNode × NodeTask
  | .send id payload done =>
    if s.closed then (s, .returned (.error .closed))
    else if done then (s, .returned (.error .timeout))
    else (s, .acquire id payload)
  | .acquire id payload => s.acquire cfg id payload
  | .write id payload => s.write now id payload
  | .publish x =>
    (if x.topic = s.topic then { s with inner := (s.inner.push x).2 } else s, .returned (.ok ()))
  | .close =>
    if s.closed then (s, .returned (.ok ())) else ({ s with closed := true }, .closeParticipant)
  | .closeParticipant =>
    if s.participantClosed then (s, .returned (.ok ()))
    else ({ s with participantClosed := true }, .closeSubscribers)
  | .closeSubscribers =>
    ({ s with inner := { s.inner with closed := true } }, .returned (.ok ()))
  | .returned result => (s, .returned result)
  | .unwound => (s, .unwound)

/-- The forwarding task has a message for the channel, which has a place for it. -/
def handOver (m : RelayMessage) (forwarder : Forwarder) : DdsNode :=
  { s with channel := s.channel ++ [m], forwarder }

/-- A step of the forwarding task. -/
def forward (handoff : Bool) : DdsNode :=
  match s.forwarder with
  | .receiving =>
    match s.inner.recv with
    | (.pending, _) => s
    | (.finished, _) => { s with forwarder := .done }
    | (.sample x, inner) =>
      match s.inner.policy with
      | .dropNewest =>
        if s.dropped then { s with inner, forwarder := .done }
        else if s.channel.length < s.channelCapacity then
          { s with inner }.handOver x.toMessage .receiving
        -- discard newest
        else { s with inner }
      | .block => { s with inner, forwarder := .sending x.toMessage }
      -- handled by the other task
      | .dropOldest => { s with inner, forwarder := .done }
  | .sending m =>
    if s.dropped then { s with forwarder := .done }
    else if s.channel.length < s.channelCapacity then s.handOver m .receiving
    else s
  | .relaying backlog =>
    if handoff then
      match backlog with
      | [] => s
      | m :: rest =>
        if s.dropped then { s with forwarder := .done }
        else if s.channel.length < s.channelCapacity then s.handOver m (.relaying rest)
        else s
    else
      match s.inner.recv with
      | (.pending, _) => s
      | (.finished, _) => { s with forwarder := .done }
      | (.sample x, inner) =>
        let backlog := if backlog.length ≥ max s.inner.capacity 1 then backlog.tail else backlog
        { s with inner, forwarder := .relaying (backlog ++ [x.toMessage]) }
  | .done => s

/-- A `recv` of the caller that does not have to wait. -/
def recv : DdsNode :=
  if s.dropped then s
  else match s.channel with
    | m :: channel => { s with channel, delivered := s.delivered ++ [some m] }
    | [] =>
      if s.forwarder = .done then { s with delivered := s.delivered ++ [none] } else s

/-- The calls on a node, and what happens besides, as a program. -/
def program : Program DdsNode NodeTask ℤ NodeEvent where
  move now s t := s.move cfg now t
  env
    | .forward handoff, s => s.forward handoff
    | .recv, s => s.recv
    | .drop, s => { s with dropped := true }

end DdsNode

/-- A call on a node. -/
inductive NodeCall
  | send (id : String) (payload : Bytes) (done : Bool)
  | close
  /-- A call on the participant behind the node. -/
  | closeParticipant
  deriving DecidableEq

/-- The whole of a call. -/
def NodeCall.task : NodeCall → NodeTask
  | send id payload done => .send id payload done
  | close => .close
  | closeParticipant => .closeParticipant

namespace DdsNode

/-- A subscriber has just been made, and no call has begun. -/
def start (s : DdsNode) (topic : String) (opts : SubscriberOptions) (calls : ℕ → NodeCall) :
    Pool DdsNode NodeTask :=
  ⟨s.subscribe topic opts, fun i => (calls i).task⟩

/-- A step of the calls, or something besides. -/
abbrev Turn := Pick ℤ NodeEvent

/-- A sample that a step publishes to the topic of the subscriber, and the call that does. -/
def published (p : Pool DdsNode NodeTask) : Turn → List (ℕ × Sample)
  | .env _ => []
  | .task i _ =>
    match p.task i with
    | .publish x => if x.topic = p.shared.topic then [(i, x)] else []
    | _ => []

end DdsNode

end RustDds
