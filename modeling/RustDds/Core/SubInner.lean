import RustDds.Lib.Bytes
import Mathlib.Tactic.Lemma

/-!
# Samples and subscriber queues

A `SubInner` is the bounded queue between the side that delivers samples and the subscriber that
takes them.  `push` applies the queue's back-pressure policy and says whether it accepted the
sample.

The wakeups of waiting tasks are left out here, and so is the mutex: no critical section of a
queue can panic.
-/

namespace RustDds

/-- What happens to a sample that finds the queue full. -/
inductive BackPressurePolicy
  | dropNewest
  | dropOldest
  | block
  deriving DecidableEq, Repr

/-- A delivered sample.  The timestamp is in nanoseconds of UTC. -/
structure Sample where
  topic : String
  payload : Bytes
  timestamp : ℤ
  sequenceNumber : ℕ
  writerGuid : FixedBytes 16
  deriving DecidableEq

/-- A subscriber's queue. -/
structure SubInner where
  queue : List Sample
  capacity : ℕ
  policy : BackPressurePolicy
  closed : Bool
  unsubscribed : Bool
  deriving DecidableEq

namespace SubInner

/-- An open, empty queue. -/
def new (capacity : ℕ) (policy : BackPressurePolicy) : SubInner :=
  ⟨[], capacity, policy, false, false⟩

/-- Append a sample under the back-pressure policy.  Returns whether it was accepted. -/
def push (q : SubInner) (sample : Sample) : Bool × SubInner :=
  if q.unsubscribed || q.closed then (false, q)
  else match q.policy with
    | .dropNewest =>
      if q.queue.length ≥ q.capacity then (false, q)
      else (true, { q with queue := q.queue ++ [sample] })
    | .dropOldest =>
      let queue := if q.queue.length ≥ q.capacity then q.queue.tail else q.queue
      (true, { q with queue := queue ++ [sample] })
    -- a synchronous push cannot wait, so it rejects instead
    | .block =>
      if q.queue.length ≥ q.capacity then (false, q)
      else (true, { q with queue := q.queue ++ [sample] })

/-- The part of `push` under the queue's mutex, which has the flags behind it. -/
def enqueue (q : SubInner) (sample : Sample) : Bool × SubInner :=
  match q.policy with
    | .dropNewest =>
      if q.queue.length ≥ q.capacity then (false, q)
      else (true, { q with queue := q.queue ++ [sample] })
    | .dropOldest =>
      let queue := if q.queue.length ≥ q.capacity then q.queue.tail else q.queue
      (true, { q with queue := queue ++ [sample] })
    | .block =>
      if q.queue.length ≥ q.capacity then (false, q)
      else (true, { q with queue := q.queue ++ [sample] })

/-- Take the oldest sample. -/
def pop (q : SubInner) : Option Sample × SubInner :=
  (q.queue.head?, { q with queue := q.queue.tail })

/-- Refuse all further samples.  What is queued can still be taken. -/
def close (q : SubInner) : SubInner := { q with closed := true }

/-- Refuse all further samples on the subscriber's own wish. -/
def unsubscribe (q : SubInner) : SubInner := { q with unsubscribed := true }.close

/-- `push` tests the flags and then enqueues. -/
lemma push_eq (q : SubInner) (sample : Sample) :
    q.push sample = if q.unsubscribed || q.closed then (false, q) else q.enqueue sample := rfl

@[simp] lemma closed_enqueue (q : SubInner) (sample : Sample) :
    (q.enqueue sample).2.closed = q.closed := by
  unfold enqueue
  split
  · split <;> rfl
  · rfl
  · split <;> rfl

end SubInner

/-- What a queue does with a sample under a back-pressure policy, whatever its samples are. -/
def BackPressurePolicy.offer {α : Type*} (policy : BackPressurePolicy) (capacity : ℕ)
    (queue : List α) (x : α) : Bool × List α :=
  match policy with
  | .dropNewest | .block =>
    if queue.length ≥ capacity then (false, queue) else (true, queue ++ [x])
  | .dropOldest => (true, (if queue.length ≥ capacity then queue.tail else queue) ++ [x])

section
variable {α β : Type*} (policy : BackPressurePolicy) (capacity : ℕ) (queue : List α) (x : α)

/-- The sample joins the end of the queue, whose oldest may go, or the queue stays. -/
lemma BackPressurePolicy.offer_cases :
    policy.offer capacity queue x = (false, queue) ∨
      policy.offer capacity queue x = (true, queue ++ [x]) ∨
      policy.offer capacity queue x = (true, queue.tail ++ [x]) := by
  cases policy <;> simp only [offer] <;> split <;> simp

lemma BackPressurePolicy.offer_map (f : α → β) :
    policy.offer capacity (queue.map f) (f x) =
      ((policy.offer capacity queue x).1, (policy.offer capacity queue x).2.map f) := by
  cases policy <;> simp only [offer, List.length_map] <;> split <;> simp

lemma SubInner.enqueue_eq_offer (q : SubInner) (sample : Sample) :
    q.enqueue sample = ((q.policy.offer q.capacity q.queue sample).1,
      { q with queue := (q.policy.offer q.capacity q.queue sample).2 }) := by
  obtain ⟨queue, capacity, policy, closed, unsubscribed⟩ := q
  cases policy <;> simp only [enqueue, BackPressurePolicy.offer] <;> split <;> rfl

end

end RustDds
