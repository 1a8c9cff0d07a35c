import RustDds.Core.SubInner

/-!
# What a subscriber's queue does with its samples

A `QueueLog` is a queue together with what its callers have seen of it: the samples they pushed,
those among them that `push` accepted, and the samples they popped.  `QueueLog.Law` is the
invariant of any sequence of calls.

Under every policy the queue is the end of what was accepted, so samples leave it from the front
only.  Under `DropNewest` and `Block` they leave it by `pop` alone.
-/

namespace RustDds

namespace SubInner

/-- The queue takes no more samples. -/
def Shut (q : SubInner) : Prop := q.unsubscribed = true ∨ q.closed = true

instance (q : SubInner) : Decidable q.Shut := inferInstanceAs (Decidable (_ ∨ _))

/-- What a push can do: it refuses, or it appends, or it appends in the place of the oldest. -/
lemma push_cases (q : SubInner) (sample : Sample) :
    (q.push sample = (false, q) ∧
      (q.Shut ∨ q.policy ≠ .dropOldest ∧ q.capacity ≤ q.queue.length)) ∨
    (¬ q.Shut ∧ q.queue.length < q.capacity ∧
      q.push sample = (true, { q with queue := q.queue ++ [sample] })) ∨
    (¬ q.Shut ∧ q.policy = .dropOldest ∧ q.capacity ≤ q.queue.length ∧
      q.push sample = (true, { q with queue := q.queue.tail ++ [sample] })) := by
  by_cases hshut : q.Shut
  · refine .inl ⟨?_, .inl hshut⟩
    rw [push_eq, if_pos (by simpa [Shut] using hshut)]
  have hpush : q.push sample = q.enqueue sample := by
    rw [push_eq, if_neg (by simpa [Shut] using hshut)]
  rw [hpush, enqueue_eq_offer]
  by_cases hfull : q.capacity ≤ q.queue.length
  · cases hpolicy : q.policy with
    | dropNewest | block =>
      refine .inl ⟨?_, .inr ⟨by simp, hfull⟩⟩
      rw [BackPressurePolicy.offer, if_pos hfull, ← hpolicy]
    | dropOldest =>
      exact .inr (.inr ⟨hshut, rfl, hfull, by simp [BackPressurePolicy.offer, hfull]⟩)
  · refine .inr (.inl ⟨hshut, Nat.lt_of_not_le hfull, ?_⟩)
    cases q.policy <;> simp [BackPressurePolicy.offer, hfull]

end SubInner

/-- A list in which the oldest makes way for `x` stays as it is when there is nothing else in it. -/
lemma tail_concat_eq_self {α : Type*} {l : List α} {x : α} (hl : l ≠ []) :
    l.tail ++ [x] = l ↔ ∀ y ∈ l, y = x := by
  induction l with
  | nil => exact absurd rfl hl
  | cons a l ih =>
    cases l with
    | nil => simp [eq_comm]
    | cons b l =>
      have hrest := ih (List.cons_ne_nil b l)
      rw [List.tail_cons] at hrest
      rw [List.tail_cons, List.cons_append, List.cons.injEq, hrest]
      rw [show (∀ y ∈ a :: b :: l, y = x) ↔ a = x ∧ ∀ y ∈ b :: l, y = x from
        List.forall_mem_cons]
      refine and_congr_left fun hall => ?_
      rw [hall b List.mem_cons_self, eq_comm]

/-- A call on a queue. -/
inductive QueueCall
  | push (sample : Sample)
  | pop
  | close
  | unsubscribe
  deriving DecidableEq

/-- A queue and what its callers have seen of it. -/
structure QueueLog where
  inner : SubInner
  pushed : List Sample
  accepted : List Sample
  popped : List Sample
  deriving DecidableEq

namespace QueueLog

/-- A new queue. -/
def new (capacity : ℕ) (policy : BackPressurePolicy) : QueueLog :=
  ⟨.new capacity policy, [], [], []⟩

/-- One call. -/
def step (log : QueueLog) : QueueCall → QueueLog
  | .push sample =>
    { log with
      inner := (log.inner.push sample).2
      pushed := log.pushed ++ [sample]
      accepted := log.accepted ++ if (log.inner.push sample).1 then [sample] else [] }
  | .pop =>
    { log with
      inner := log.inner.pop.2
      popped := log.popped ++ log.inner.pop.1.toList }
  | .close => { log with inner := log.inner.close }
  | .unsubscribe => { log with inner := log.inner.unsubscribe }

/-- The calls, one at a time. -/
def run (log : QueueLog) (calls : List QueueCall) : QueueLog := calls.foldl step log

/-- What holds of a queue of a capacity and a policy after any calls. -/
structure Law (capacity : ℕ) (policy : BackPressurePolicy) (log : QueueLog) : Prop where
  capacity_eq : log.inner.capacity = capacity
  policy_eq : log.inner.policy = policy
  length_le : log.inner.queue.length ≤ capacity
  /-- Samples come out in the order in which they were accepted, each at most once. -/
  sublist_accepted : (log.popped ++ log.inner.queue).Sublist log.accepted
  accepted_sublist : log.accepted.Sublist log.pushed
  /-- What has left the queue is older than what is in it. -/
  suffix_accepted : log.inner.queue <:+ log.accepted
  popped_append : policy ≠ .dropOldest → log.popped ++ log.inner.queue = log.accepted
  accepted_eq : policy = .dropOldest → ¬ log.inner.Shut → log.accepted = log.pushed

variable {capacity : ℕ} {policy : BackPressurePolicy} {log : QueueLog}

lemma Law.new : Law capacity policy (.new capacity policy) where
  capacity_eq := rfl
  policy_eq := rfl
  length_le := Nat.zero_le _
  sublist_accepted := .refl _
  accepted_sublist := .refl _
  suffix_accepted := List.suffix_rfl
  popped_append _ := rfl
  accepted_eq _ _ := rfl

lemma Law.push (h : Law capacity policy log) (hcapacity : 1 ≤ capacity) (sample : Sample) :
    Law capacity policy (log.step (.push sample)) := by
  have hcapacity_eq := h.capacity_eq
  have hlength := h.length_le
  rcases log.inner.push_cases sample with
    ⟨hpush, hwhy⟩ | ⟨hopen, hroom, hpush⟩ | ⟨hopen, hpolicy, hfull, hpush⟩
  · -- the sample is refused
    have hstep : log.step (.push sample) = { log with pushed := log.pushed ++ [sample] } := by
      simp [step, hpush]
    rw [hstep]
    refine { h with accepted_sublist := h.accepted_sublist.trans (List.sublist_append_left _ _),
                    accepted_eq := fun hpolicy hopen => ?_ }
    rcases hwhy with hshut | ⟨hne, -⟩
    · exact absurd hshut hopen
    · exact absurd (h.policy_eq.trans hpolicy) hne
  · -- there is room for it
    refine ⟨?_, ?_, ?_, ?_, ?_, ?_, fun hpolicy => ?_, fun hpolicy _ => ?_⟩ <;>
      simp only [step, hpush, if_true]
    · exact h.capacity_eq
    · exact h.policy_eq
    · rw [List.length_append, List.length_singleton]
      omega
    · rw [← List.append_assoc]
      exact h.sublist_accepted.append_right [sample]
    · exact h.accepted_sublist.append_right [sample]
    · obtain ⟨gone, hgone⟩ := h.suffix_accepted
      exact ⟨gone, by rw [← hgone, List.append_assoc]⟩
    · rw [← List.append_assoc, h.popped_append hpolicy]
    · rw [h.accepted_eq hpolicy hopen]
  · -- the oldest one makes way
    have hpolicy' := h.policy_eq.symm.trans hpolicy
    refine ⟨?_, ?_, ?_, ?_, ?_, ?_, fun hne => absurd hpolicy' hne, fun hpolicy _ => ?_⟩ <;>
      simp only [step, hpush, if_true]
    · exact h.capacity_eq
    · exact h.policy_eq
    · rw [List.length_append, List.length_singleton, List.length_tail]
      omega
    · rw [← List.append_assoc]
      refine List.Sublist.append_right ?_ [sample]
      exact ((List.Sublist.refl _).append (List.tail_sublist _)).trans h.sublist_accepted
    · exact h.accepted_sublist.append_right [sample]
    · obtain ⟨gone, hgone⟩ := (List.tail_suffix log.inner.queue).trans h.suffix_accepted
      exact ⟨gone, by rw [← hgone, List.append_assoc]⟩
    · rw [h.accepted_eq hpolicy hopen]

lemma popped_append_pop (log : QueueLog) :
    (log.step .pop).popped ++ (log.step .pop).inner.queue = log.popped ++ log.inner.queue := by
  simp only [step, SubInner.pop]
  cases log.inner.queue <;> simp

lemma Law.pop (h : Law capacity policy log) : Law capacity policy (log.step .pop) where
  capacity_eq := h.capacity_eq
  policy_eq := h.policy_eq
  length_le := (List.tail_sublist _).length_le.trans h.length_le
  sublist_accepted := by
    rw [popped_append_pop]
    exact h.sublist_accepted
  accepted_sublist := h.accepted_sublist
  suffix_accepted := (List.tail_suffix _).trans h.suffix_accepted
  popped_append hpolicy := by
    rw [popped_append_pop]
    exact h.popped_append hpolicy
  accepted_eq := h.accepted_eq

lemma Law.step (h : Law capacity policy log) (hcapacity : 1 ≤ capacity) (call : QueueCall) :
    Law capacity policy (log.step call) := by
  cases call with
  | push sample => exact h.push hcapacity sample
  | pop => exact h.pop
  | close => exact { h with accepted_eq := fun _ hopen => absurd (.inr rfl) hopen }
  | unsubscribe => exact { h with accepted_eq := fun _ hopen => absurd (.inr rfl) hopen }

lemma law_run (hcapacity : 1 ≤ capacity) (calls : List QueueCall) :
    Law capacity policy ((new capacity policy).run calls) := by
  suffices ∀ log, Law capacity policy log → Law capacity policy (log.run calls) from this _ .new
  induction calls with
  | nil => exact fun _ h => h
  | cons call calls ih => exact fun _ h => ih _ (h.step hcapacity call)

/-- The push of a sample shows unless it is refused, or all of a full queue equals it. -/
lemma Law.push_eq_self_iff (h : Law capacity policy log) (hcapacity : 1 ≤ capacity)
    (sample : Sample) :
    (log.inner.push sample).2 = log.inner ↔
      (log.inner.push sample).1 = false ∨
        policy = .dropOldest ∧ ¬ log.inner.Shut ∧ log.inner.queue.length = capacity ∧
          ∀ queued ∈ log.inner.queue, queued = sample := by
  have hlength := h.length_le
  have hcapacity_eq := h.capacity_eq
  rcases log.inner.push_cases sample with
    ⟨hpush, -⟩ | ⟨-, hroom, hpush⟩ | ⟨hopen, hpolicy, hfull, hpush⟩
  · simp [hpush]
  · have hne : { log.inner with queue := log.inner.queue ++ [sample] } ≠ log.inner := fun h => by
      simpa using congrArg (List.length ∘ SubInner.queue) h
    simp only [hpush, Bool.true_eq_false, false_or]
    exact iff_of_false hne fun h => by omega
  · have hne : log.inner.queue ≠ [] := fun hnil => by
      rw [hnil, List.length_nil] at hfull
      omega
    have hsame : { log.inner with queue := log.inner.queue.tail ++ [sample] } = log.inner ↔
        log.inner.queue.tail ++ [sample] = log.inner.queue :=
      ⟨congrArg SubInner.queue, fun h => by rw [h]⟩
    simp only [hpush, Bool.true_eq_false, false_or]
    rw [hsame, tail_concat_eq_self hne]
    exact ⟨fun hall => ⟨h.policy_eq.symm.trans hpolicy, hopen, by omega, hall⟩,
      fun hall => hall.2.2.2⟩

/-- An open queue that does not drop the oldest refuses a sample just if it is full. -/
lemma Law.refuses_iff (h : Law capacity policy log) (hpolicy : policy ≠ .dropOldest)
    (hopen : ¬ log.inner.Shut) (sample : Sample) :
    (log.inner.push sample).1 = false ↔ log.inner.queue.length = capacity := by
  have hlength := h.length_le
  have hcapacity_eq := h.capacity_eq
  rcases log.inner.push_cases sample with
    ⟨hpush, hshut | ⟨-, hfull⟩⟩ | ⟨-, hroom, hpush⟩ | ⟨-, hpolicy', -⟩
  · exact absurd hshut hopen
  · simp only [hpush, true_iff]
    omega
  · simp only [hpush, Bool.true_eq_false, false_iff]
    omega
  · exact absurd (h.policy_eq.symm.trans hpolicy') hpolicy

/-- An open queue that drops the oldest takes every sample, in place of its oldest if it is
full. -/
lemma Law.push_of_dropOldest (h : Law capacity policy log) (hpolicy : policy = .dropOldest)
    (hopen : ¬ log.inner.Shut) (sample : Sample) :
    log.inner.push sample = (true, { log.inner with
      queue := (if log.inner.queue.length = capacity then log.inner.queue.tail
        else log.inner.queue) ++ [sample] }) := by
  have hlength := h.length_le
  have hcapacity_eq := h.capacity_eq
  rcases log.inner.push_cases sample with
    ⟨-, hshut | ⟨hne, -⟩⟩ | ⟨-, hroom, hpush⟩ | ⟨-, -, hfull, hpush⟩
  · exact absurd hshut hopen
  · exact absurd (h.policy_eq.trans hpolicy) hne
  · rw [hpush, if_neg (by omega)]
  · rw [hpush, if_pos (by omega)]

/-- What a shut queue holds can be taken, and nothing is added to it. -/
lemma run_of_shut (hshut : log.inner.Shut) (calls : List QueueCall) :
    (log.run calls).inner.Shut ∧ (log.run calls).accepted = log.accepted ∧
      (log.run calls).popped ++ (log.run calls).inner.queue = log.popped ++ log.inner.queue := by
  induction calls generalizing log with
  | nil => exact ⟨hshut, rfl, rfl⟩
  | cons call calls ih =>
    cases call with
    | push sample =>
      have hpush : log.inner.push sample = (false, log.inner) := by
        rw [SubInner.push_eq, if_pos (by simpa [SubInner.Shut] using hshut)]
      have hstep : log.step (.push sample) = { log with pushed := log.pushed ++ [sample] } := by
        simp [QueueLog.step, hpush]
      have hrest := @ih (log.step (.push sample)) (by rw [hstep]; exact hshut)
      rw [hstep] at hrest
      rw [run, List.foldl_cons, hstep]
      exact hrest
    | pop =>
      have hrest := @ih (log.step .pop) hshut
      rw [popped_append_pop] at hrest
      exact hrest
    | close => exact @ih (log.step .close) (.inr rfl)
    | unsubscribe => exact @ih (log.step .unsubscribe) (.inr rfl)

lemma shut_step (log : QueueLog) (call : QueueCall) :
    (log.step call).inner.Shut ↔ log.inner.Shut ∨ call = .close ∨ call = .unsubscribe := by
  cases call with
  | push sample =>
    have hpush : (log.inner.push sample).2.Shut ↔ log.inner.Shut := by
      rcases log.inner.push_cases sample with ⟨hpush, -⟩ | ⟨-, -, hpush⟩ | ⟨-, -, -, hpush⟩ <;>
        rw [hpush] <;> rfl
    simpa [step] using hpush
  | pop => simp [step, SubInner.pop, SubInner.Shut]
  | close => simp [step, SubInner.close, SubInner.Shut]
  | unsubscribe => simp [step, SubInner.unsubscribe, SubInner.close, SubInner.Shut]

/-- Only `close` and `unsubscribe` shut a queue. -/
lemma shut_run (log : QueueLog) (calls : List QueueCall) :
    (log.run calls).inner.Shut ↔ log.inner.Shut ∨ .close ∈ calls ∨ .unsubscribe ∈ calls := by
  induction calls generalizing log with
  | nil => simp [run]
  | cons call calls ih =>
    rw [run, List.foldl_cons, ← run, ih, shut_step, List.mem_cons, List.mem_cons]
    tauto

/-- **The queue law.**  After any calls on a queue of at least one place, it holds no more samples
than it has places, and what was popped and what is queued are pushed samples in push order.

A push that is refused changes nothing.  One that is accepted appends its sample, which shows
unless all samples of a full `DropOldest` queue are equal to it.  An open queue that drops the
newest or blocks refuses a sample exactly when it is full of accepted ones, of which it has lost
none.  An open queue that drops the oldest takes every sample, holds the most recently pushed
ones, and loses its oldest when it is full.  A queue that was closed or unsubscribed takes no
more. -/
theorem queue_law (capacity : ℕ) (hcapacity : 1 ≤ capacity) (policy : BackPressurePolicy)
    (calls : List QueueCall) :
    let log := (new capacity policy).run calls
    let inner := log.inner
    (inner.Shut ↔ .close ∈ calls ∨ .unsubscribe ∈ calls) ∧
    inner.queue.length ≤ capacity ∧
    (log.popped ++ inner.queue).Sublist log.pushed ∧
    (∀ sample, (inner.push sample).2 = inner ↔
      (inner.push sample).1 = false ∨
        policy = .dropOldest ∧ ¬ inner.Shut ∧ inner.queue.length = capacity ∧
          ∀ queued ∈ inner.queue, queued = sample) ∧
    (policy ≠ .dropOldest → ¬ inner.Shut → log.popped ++ inner.queue = log.accepted ∧
      ∀ sample, (inner.push sample).1 = false ↔ inner.queue.length = capacity) ∧
    (policy = .dropOldest → ¬ inner.Shut → inner.queue <:+ log.pushed ∧
      (inner.queue ≠ [] → inner.queue.getLast? = log.pushed.getLast?) ∧
      ∀ sample, inner.push sample = (true, { inner with
        queue := (if inner.queue.length = capacity then inner.queue.tail else inner.queue) ++
          [sample] })) ∧
    (inner.Shut → ∀ calls', let later := log.run calls'
      later.popped ++ later.inner.queue = log.popped ++ inner.queue ∧
        ∀ sample, later.inner.push sample = (false, later.inner)) := by
  intro log inner
  have hlaw : Law capacity policy log := law_run hcapacity calls
  have hpushed : (log.popped ++ inner.queue).Sublist log.pushed :=
    hlaw.sublist_accepted.trans hlaw.accepted_sublist
  refine ⟨?_, hlaw.length_le, hpushed, hlaw.push_eq_self_iff hcapacity,
    fun hpolicy hopen => ⟨hlaw.popped_append hpolicy, hlaw.refuses_iff hpolicy hopen⟩,
    fun hpolicy hopen => ?_, fun hshut calls' => ?_⟩
  · rw [shut_run]
    simp [new, SubInner.new, SubInner.Shut]
  · have hsuffix : inner.queue <:+ log.pushed :=
      hlaw.accepted_eq hpolicy hopen ▸ hlaw.suffix_accepted
    refine ⟨hsuffix, fun hne => ?_, hlaw.push_of_dropOldest hpolicy hopen⟩
    obtain ⟨gone, hgone⟩ := hsuffix
    rw [← hgone, List.getLast?_append_of_ne_nil _ hne]
  · obtain ⟨hshut', -, hsame⟩ := run_of_shut hshut calls'
    refine ⟨hsame, fun sample => ?_⟩
    rw [SubInner.push_eq, if_pos (by simpa [SubInner.Shut] using hshut')]

/-- A sample with no content. -/
def blank (sequenceNumber : ℕ) : Sample :=
  ⟨"a", [], 0, sequenceNumber, ⟨List.replicate 16 0, List.length_replicate⟩⟩

/-- A queue of one place that drops the oldest has been filled and overrun. -/
theorem queue_law_overrun :
    let inner := ((new 1 .dropOldest).run [.push (blank 1), .push (blank 2)]).inner
    inner.queue = [blank 2] ∧ inner.push (blank 3) = (true, { inner with queue := [blank 3] }) := by
  obtain ⟨-, -, -, -, -, hoverrun, -⟩ :=
    queue_law 1 (le_refl 1) .dropOldest [.push (blank 1), .push (blank 2)]
  exact ⟨by decide, (hoverrun rfl (by decide)).2.2 (blank 3)⟩

/-- An equal sample takes the place of the oldest, and nothing shows; a closed queue refuses with
nothing queued; and it no longer ends with the sample that was pushed last. -/
theorem queue_law_unqualified :
    (let inner := ((new 1 .dropOldest).run [.push (blank 1)]).inner
     inner.push (blank 1) = (true, inner)) ∧
    (let inner := ((new 1 .dropNewest).run [.close]).inner
     inner.queue = [] ∧ (inner.push (blank 1)).1 = false) ∧
    (let log := (new 1 .dropOldest).run [.push (blank 1), .close, .push (blank 2)]
     log.inner.queue.getLast? = some (blank 1) ∧ log.pushed.getLast? = some (blank 2)) := by
  decide

end QueueLog

end RustDds
