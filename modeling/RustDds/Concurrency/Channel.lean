import RustDds.Core.SubInner
import RustDds.Lib.Pool

/-!
# A subscriber's queue under concurrent calls

The receiver awaits samples in `recv` while other tasks push samples, close the queue and
unsubscribe.  Each of these calls is taken apart into its atomic steps: a load or a store of a
flag, a critical section of the queue's mutex, an operation on the `Notify`.  A push holds the
mutex from where it enqueues to its end, so the receiver finds the queue locked in between.

Of the `Notify` there is the stored permit, and the receiver as its only waiter.  `notify_one`
wakes the receiver if it waits and stores the permit if not; `notify_waiters` wakes it if it
waits, and stores nothing.  The deadline watcher has a `Notify` of its own and is left out.

The receiver makes one `recv` call at a time, and runs it to its end.  A `try_recv` may come at
any time.
-/

namespace RustDds

/-- What a call on the queue has to show for itself. -/
inductive ChannelEvent
  /-- A push appended a sample. -/
  | enqueued (sample : Sample)
  /-- A call of `close`, or of `unsubscribe`, returned. -/
  | closed
  /-- A call of `recv` returned. -/
  | received (result : Option Sample)
  /-- A call of `try_recv` returned. -/
  | tried (result : Option Sample)
  deriving DecidableEq

/-- Where the receiver stands in `recv`. -/
inductive Receiver
  /-- Between two calls. -/
  | idle
  /-- About to pop. -/
  | pop
  /-- Found the queue empty, about to read the closed flag. -/
  | readClosed
  /-- Read the flag as set, about to pop for the last time. -/
  | finalPop
  /-- Read the flag as not set, about to register with the `Notify`. -/
  | register
  /-- Registered, and waiting. -/
  | parked
  deriving DecidableEq

/-- What is left of a call on the queue. -/
inductive ChannelTask
  /-- A push that has the `unsubscribed` flag to test. -/
  | testUnsubscribed (sample : Sample)
  /-- A push that has the `closed` flag to test. -/
  | testClosed (sample : Sample)
  /-- A push that got past both tests. -/
  | enqueue (sample : Sample)
  /-- A push that appended its sample, and holds the queue. -/
  | notifyOne
  /-- An unsubscribe that has its flag to set. -/
  | storeUnsubscribed
  /-- A close that has its flag to set. -/
  | storeClosed
  /-- A close that has set its flag. -/
  | notifyWaiters
  /-- The call is over. -/
  | done
  deriving DecidableEq

/-- A queue, its mutex and its `Notify`, its receiver, and what happened so far. -/
structure Channel where
  inner : SubInner
  /-- A push holds the queue. -/
  locked : Bool
  /-- The permit that `notify_one` stores. -/
  permit : Bool
  receiver : Receiver
  log : List ChannelEvent
  deriving DecidableEq

namespace Channel

/-- An open, empty queue. -/
def new (capacity : ℕ) (policy : BackPressurePolicy) : Channel :=
  ⟨.new capacity policy, false, false, .idle, []⟩

/-- Set the `closed` flag. -/
def setClosed (c : Channel) : Channel := { c with inner := { c.inner with closed := true } }

/-- Set the `unsubscribed` flag. -/
def setUnsubscribed (c : Channel) : Channel :=
  { c with inner := { c.inner with unsubscribed := true } }

/-- `Notify::notify_one`. -/
def notifyOne (c : Channel) : Channel :=
  if c.receiver = .parked then { c with receiver := .pop } else { c with permit := true }

/-- `Notify::notify_waiters`. -/
def notifyWaiters (c : Channel) : Channel :=
  if c.receiver = .parked then { c with receiver := .pop } else c

/-- Append an event to what happened. -/
def record (c : Channel) (e : ChannelEvent) : Channel := { c with log := c.log ++ [e] }

/-- The next step of a call. -/
def move (c : Channel) : ChannelTask → Channel × ChannelTask
  | .testUnsubscribed sample =>
    if c.inner.unsubscribed then (c, .done) else (c, .testClosed sample)
  | .testClosed sample => if c.inner.closed then (c, .done) else (c, .enqueue sample)
  | .enqueue sample =>
    if c.locked then (c, .enqueue sample)
    else if (c.inner.enqueue sample).1 then
      ({ c with inner := (c.inner.enqueue sample).2, locked := true }.record (.enqueued sample),
        .notifyOne)
    else (c, .done)
  | .notifyOne => ({ c.notifyOne with locked := false }, .done)
  | .storeUnsubscribed => (c.setUnsubscribed, .storeClosed)
  | .storeClosed => (c.setClosed, .notifyWaiters)
  | .notifyWaiters => (c.notifyWaiters.record .closed, .done)
  | .done => (c, .done)

/-- The next step of the receiver. -/
def recv (c : Channel) : Channel :=
  match c.receiver with
  | .idle => { c with receiver := .pop }
  | .pop =>
    if c.locked then c
    else match c.inner.pop with
      | (some sample, inner) =>
        { c with inner, receiver := .idle }.record (.received (some sample))
      | (none, inner) => { c with inner, receiver := .readClosed }
  | .readClosed =>
    if c.inner.closed then { c with receiver := .finalPop } else { c with receiver := .register }
  | .finalPop =>
    if c.locked then c
    else { c with inner := c.inner.pop.2, receiver := .idle }.record (.received c.inner.pop.1)
  | .register =>
    if c.permit then { c with permit := false, receiver := .pop }
    else { c with receiver := .parked }
  | .parked => c

/-- The receiver finds the queue empty. -/
lemma recv_of_empty {c : Channel} (hr : c.receiver = .pop) (hfree : ¬ c.locked = true)
    (hq : c.inner.queue = []) :
    c.recv = { c with inner := c.inner.pop.2, receiver := .readClosed } := by
  have hnone : c.inner.pop = (none, c.inner.pop.2) := by simp [SubInner.pop, hq]
  unfold recv
  rw [hr]
  dsimp only
  rw [if_neg hfree, hnone]

/-- The receiver finds a sample, and returns it. -/
lemma recv_of_sample {c : Channel} (hr : c.receiver = .pop) (hfree : ¬ c.locked = true)
    {sample : Sample} (hq : c.inner.queue.head? = some sample) :
    c.recv = { c with inner := c.inner.pop.2, receiver := .idle }.record
      (.received c.inner.pop.1) := by
  have hsome : c.inner.pop = (some sample, c.inner.pop.2) := by simp [SubInner.pop, hq]
  unfold recv
  rw [hr]
  dsimp only
  rw [if_neg hfree, hsome]

/-- A call of `try_recv`. -/
def tryRecv (c : Channel) : Channel :=
  if c.locked then c else { c with inner := c.inner.pop.2 }.record (.tried c.inner.pop.1)

/-- What the owner of the receiver does. -/
inductive Consume
  | recv
  | tryRecv
  deriving DecidableEq

/-- The calls on a queue, and its consumer, as a program. -/
def program : Program Channel ChannelTask Unit Consume where
  move _ := move
  env
    | .recv => recv
    | .tryRecv => tryRecv

/-- A call on the queue. -/
inductive Call
  | push (sample : Sample)
  | close
  | unsubscribe
  deriving DecidableEq

/-- The whole of a call. -/
def Call.task : Call → ChannelTask
  | push sample => .testUnsubscribed sample
  | close => .storeClosed
  | unsubscribe => .storeUnsubscribed

/-- A new queue, and calls on it of which none has begun. -/
def start (capacity : ℕ) (policy : BackPressurePolicy) (calls : ℕ → Call) :
    Pool Channel ChannelTask :=
  ⟨new capacity policy, fun i => (calls i).task⟩

end Channel

end RustDds
