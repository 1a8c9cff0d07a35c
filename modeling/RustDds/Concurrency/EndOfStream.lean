import RustDds.Concurrency.Channel

/-!
# The end of the stream

Nothing should enter a queue once `close` has returned, and a `recv` that has returned nothing
should have been the last word (`MayFollow`).  A push tests the flags before it takes the queue's
mutex, and a close sets its flag without the mutex, so a push that has passed its tests enqueues
even if the queue was closed in the meantime (`exists_not_pairwise_mayFollow`).  In a run in
which no push stands at that point when the flag is set, the log keeps the order
(`pairwise_mayFollow_of_noneBetween`).
-/

namespace RustDds

/-- Whether an event may come after another: no sample enters a closed queue, and none is taken
out after a `recv` that returned nothing. -/
def ChannelEvent.MayFollow : ChannelEvent → ChannelEvent → Prop
  | .closed, .enqueued _ => False
  | .received none, .received (some _) => False
  | .received none, .tried (some _) => False
  | _, _ => True

namespace Channel

/-- No push stands between its tests of the flags and its enqueue when `closed` is set. -/
def NoneBetween (p : Pool Channel ChannelTask) : Pick Unit Consume → Prop
  | .task i _ => p.task i = .storeClosed → ∀ j sample, p.task j ≠ .enqueue sample
  | .env _ => True

/-- What the flag and the log say of the queue and the receiver. -/
structure Ended (c : Channel) : Prop where
  closed_of_closed : .closed ∈ c.log → c.inner.closed = true
  closed_of_none : .received none ∈ c.log → c.inner.closed = true
  empty_of_none : .received none ∈ c.log → c.inner.queue = []
  closed_of_finalPop : c.receiver = .finalPop → c.inner.closed = true
  order : c.log.Pairwise ChannelEvent.MayFollow

/-- What the flag says of a call: no push is past the tests of a closed queue, and a close that
notifies has set it. -/
def Settled (c : Channel) (t : ChannelTask) : Prop :=
  (c.inner.closed = true → ∀ sample, t ≠ .enqueue sample) ∧
    (t = .notifyWaiters → c.inner.closed = true)

lemma ended_new (capacity : ℕ) (policy : BackPressurePolicy) : (new capacity policy).Ended where
  closed_of_closed h := by cases h
  closed_of_none h := by cases h
  empty_of_none h := by cases h
  closed_of_finalPop h := by cases h
  order := .nil

lemma Settled.congr {c c' : Channel} {t : ChannelTask} (h : Settled c t)
    (hclosed : c'.inner.closed = c.inner.closed) : Settled c' t := by
  unfold Settled
  rw [hclosed]
  exact h

section Steps

variable {c : Channel}

/-- An event that may follow whatever happened so far. -/
lemma order_append (h : c.Ended) {e : ChannelEvent} (he : ∀ before ∈ c.log, before.MayFollow e) :
    (c.log ++ [e]).Pairwise ChannelEvent.MayFollow :=
  List.pairwise_append.mpr
    ⟨h.order, List.pairwise_singleton .., fun before hmem after hafter => by
      rw [List.mem_singleton.mp hafter]
      exact he before hmem⟩

/-- A sample enters an open queue. -/
lemma Ended.enqueue (h : c.Ended) (hopen : c.inner.closed = false) (sample : Sample) :
    ({ c with inner := (c.inner.enqueue sample).2, locked := true }.record
      (.enqueued sample)).Ended := by
  have hnone : ∀ e ∈ c.log, e ≠ .closed ∧ e ≠ .received none := by
    intro e he
    constructor
    · rintro rfl
      rw [h.closed_of_closed he] at hopen
      cases hopen
    · rintro rfl
      rw [h.closed_of_none he] at hopen
      cases hopen
  refine ⟨fun hmem => ?_, fun hmem => ?_, fun hmem => ?_, fun hr => ?_, ?_⟩
  · rcases List.mem_append.mp hmem with hmem | hmem
    · exact absurd rfl (hnone _ hmem).1
    · cases List.mem_singleton.mp hmem
  · rcases List.mem_append.mp hmem with hmem | hmem
    · exact absurd rfl (hnone _ hmem).2
    · cases List.mem_singleton.mp hmem
  · rcases List.mem_append.mp hmem with hmem | hmem
    · exact absurd rfl (hnone _ hmem).2
    · cases List.mem_singleton.mp hmem
  · rw [h.closed_of_finalPop hr] at hopen
    cases hopen
  · refine order_append h fun e he => ?_
    cases e with
    | closed => exact absurd rfl (hnone _ he).1
    | enqueued _ => trivial
    | received _ => cases ‹Option Sample› <;> trivial
    | tried _ => trivial

/-- The receiver's side of a pop: `e` says what was popped. -/
lemma Ended.pop (h : c.Ended) {r : Receiver} (hr : r = .finalPop → c.inner.closed = true)
    {e : ChannelEvent} (he : e = .received c.inner.pop.1 ∨ e = .tried c.inner.pop.1)
    (hclosed : e = .received none → c.inner.closed = true) :
    ({ c with inner := c.inner.pop.2, receiver := r }.record e).Ended := by
  have htail : c.inner.queue = [] → c.inner.pop.1 = none ∧ c.inner.pop.2.queue = [] := by
    intro hnil
    simp [SubInner.pop, hnil]
  refine ⟨fun hmem => ?_, fun hmem => ?_, fun hmem => ?_, hr, ?_⟩
  · rcases List.mem_append.mp hmem with hmem | hmem
    · exact h.closed_of_closed hmem
    · rw [← List.mem_singleton.mp hmem] at he
      rcases he with he | he <;> cases he
  · rcases List.mem_append.mp hmem with hmem | hmem
    · exact h.closed_of_none hmem
    · exact hclosed (List.mem_singleton.mp hmem).symm
  · rcases List.mem_append.mp hmem with hmem | hmem
    · exact (htail (h.empty_of_none hmem)).2
    · rw [← List.mem_singleton.mp hmem] at he
      rcases he with he | he
      · have hnil : c.inner.queue = [] := by
          simpa [SubInner.pop, eq_comm] using he
        exact (htail hnil).2
      · cases he
  · refine order_append h fun before hbefore => ?_
    -- what came before matters only if it was a `recv` that returned nothing
    by_cases hnone : before = .received none
    · subst hnone
      rw [(htail (h.empty_of_none hbefore)).1] at he
      rcases he with rfl | rfl <;> trivial
    · rcases he with rfl | rfl
      all_goals
        cases before with
        | received r => cases r with
          | none => exact absurd rfl hnone
          | some _ => trivial
        | closed => trivial
        | enqueued _ => trivial
        | tried _ => trivial

/-- A receiver that moves on without an event. -/
lemma Ended.move (h : c.Ended) {permit : Bool} {r : Receiver}
    (hr : r = .finalPop → c.inner.closed = true) :
    ({ c with permit, receiver := r } : Channel).Ended :=
  ⟨h.closed_of_closed, h.closed_of_none, h.empty_of_none, hr, h.order⟩

/-- **The receiver's step.** -/
lemma Ended.recv (h : c.Ended) : c.recv.Ended := by
  cases hr : c.receiver with
  | idle =>
    simp only [Channel.recv, hr]
    exact h.move (by simp)
  | pop =>
    by_cases hfree : c.locked = true
    · simp only [Channel.recv, hr, hfree, if_true]
      exact h
    cases hq : c.inner.queue.head? with
    | none =>
      have hnil : c.inner.queue = [] := List.head?_eq_none_iff.mp hq
      rw [recv_of_empty hr hfree hnil]
      refine ⟨h.closed_of_closed, h.closed_of_none, fun _ => ?_, by simp, h.order⟩
      simp [SubInner.pop, hnil]
    | some sample =>
      rw [recv_of_sample hr hfree hq]
      exact h.pop (by simp) (.inl rfl) (by simp [SubInner.pop, hq])
  | readClosed =>
    simp only [Channel.recv, hr]
    split
    · rename_i hclosed
      exact h.move fun _ => hclosed
    · exact h.move (by simp)
  | finalPop =>
    simp only [Channel.recv, hr]
    split
    · exact h
    · exact h.pop (by simp) (.inl rfl) fun _ => h.closed_of_finalPop hr
  | register =>
    simp only [Channel.recv, hr]
    split
    · exact h.move (by simp)
    · exact h.move (by simp)
  | parked =>
    simp only [Channel.recv, hr]
    exact h

lemma Ended.tryRecv (h : c.Ended) : c.tryRecv.Ended := by
  unfold Channel.tryRecv
  split
  · exact h
  · exact h.pop h.closed_of_finalPop (.inr rfl) (by simp)

lemma closed_recv (c : Channel) : c.recv.inner.closed = c.inner.closed := by
  cases hr : c.receiver with
  | pop =>
    by_cases hfree : c.locked = true
    · simp only [Channel.recv, hr, hfree, if_true]
    cases hq : c.inner.queue.head? with
    | none =>
      rw [recv_of_empty hr hfree (List.head?_eq_none_iff.mp hq)]
      rfl
    | some sample =>
      rw [recv_of_sample hr hfree hq]
      rfl
  | _ =>
    simp only [Channel.recv, hr]
    try split <;> rfl

lemma closed_tryRecv (c : Channel) : c.tryRecv.inner.closed = c.inner.closed := by
  unfold Channel.tryRecv
  split <;> rfl

/-- A notification wakes the receiver, and does nothing else to the channel. -/
lemma Ended.notifyOne (h : c.Ended) : ({ c.notifyOne with locked := false } : Channel).Ended := by
  unfold Channel.notifyOne
  split
  · exact ⟨h.closed_of_closed, h.closed_of_none, h.empty_of_none, by simp, h.order⟩
  · exact ⟨h.closed_of_closed, h.closed_of_none, h.empty_of_none, h.closed_of_finalPop, h.order⟩

/-- A close returns, having set the flag. -/
lemma Ended.notifyWaiters (h : c.Ended) (hclosed : c.inner.closed = true) :
    (c.notifyWaiters.record .closed).Ended := by
  have hlog : c.notifyWaiters.log = c.log ∧ c.notifyWaiters.inner = c.inner := by
    unfold Channel.notifyWaiters
    split <;> exact ⟨rfl, rfl⟩
  have hnone : .received none ∈ (c.notifyWaiters.record .closed).log → .received none ∈ c.log := by
    intro hmem
    rw [Channel.record, hlog.1] at hmem
    simpa using hmem
  refine ⟨fun _ => ?_, fun _ => ?_, fun hmem => ?_, fun _ => ?_, ?_⟩
  · rw [Channel.record, hlog.2, hclosed]
  · rw [Channel.record, hlog.2, hclosed]
  · rw [Channel.record, hlog.2]
    exact h.empty_of_none (hnone hmem)
  · rw [Channel.record, hlog.2, hclosed]
  · rw [Channel.record, hlog.1]
    refine order_append h fun before _ => ?_
    cases before with
    | received r => cases r <;> trivial
    | _ => trivial

/-- The flag is set. -/
lemma Ended.setClosed (h : c.Ended) : c.setClosed.Ended :=
  ⟨fun _ => rfl, fun _ => rfl, h.empty_of_none, fun _ => rfl, h.order⟩

lemma Ended.setUnsubscribed (h : c.Ended) : c.setUnsubscribed.Ended :=
  ⟨h.closed_of_closed, h.closed_of_none, h.empty_of_none, h.closed_of_finalPop, h.order⟩

lemma closed_notifyOne (c : Channel) : c.notifyOne.inner = c.inner := by
  unfold Channel.notifyOne
  split <;> rfl

lemma closed_notifyWaiters (c : Channel) : c.notifyWaiters.inner = c.inner := by
  unfold Channel.notifyWaiters
  split <;> rfl

end Steps

/-! ## Runs -/

/-- A call that is over, or has no sample to enqueue and no notification to send, is settled. -/
lemma settled_of_ne {c : Channel} {t : ChannelTask} (henqueue : ∀ sample, t ≠ .enqueue sample)
    (hnotify : t ≠ .notifyWaiters) : Settled c t :=
  ⟨fun _ => henqueue, fun h => absurd h hnotify⟩

/-- **The step of a call.** -/
lemma holds_move {p : Pool Channel ChannelTask} {i : ℕ} (h : p.Holds Ended Settled)
    (hbetween : NoneBetween p (.task i ())) :
    (p.shared.move (p.task i)).1.Ended ∧
      Settled (p.shared.move (p.task i)).1 (p.shared.move (p.task i)).2 ∧
      ∀ j ≠ i, Settled (p.shared.move (p.task i)).1 (p.task j) := by
  obtain ⟨hended, hsettled⟩ := h
  have hi := hsettled i
  cases ht : p.task i with
  | testUnsubscribed sample =>
    simp only [Channel.move]
    split
    · exact ⟨hended, settled_of_ne (by simp) (by simp), fun j _ => hsettled j⟩
    · exact ⟨hended, settled_of_ne (by simp) (by simp), fun j _ => hsettled j⟩
  | testClosed sample =>
    simp only [Channel.move]
    split
    · exact ⟨hended, settled_of_ne (by simp) (by simp), fun j _ => hsettled j⟩
    · rename_i hopen
      exact ⟨hended, ⟨fun hclosed => absurd hclosed hopen, by simp⟩, fun j _ => hsettled j⟩
  | enqueue sample =>
    simp only [Channel.move]
    split
    · exact ⟨hended, ht ▸ hi, fun j _ => hsettled j⟩
    split
    · have hopen : p.shared.inner.closed = false := by
        cases hclosed : p.shared.inner.closed with
        | false => rfl
        | true => exact absurd ht (hi.1 hclosed sample)
      exact ⟨hended.enqueue hopen sample, settled_of_ne (by simp) (by simp),
        fun j _ => (hsettled j).congr (SubInner.closed_enqueue ..)⟩
    · exact ⟨hended, settled_of_ne (by simp) (by simp), fun j _ => hsettled j⟩
  | notifyOne =>
    refine ⟨hended.notifyOne, settled_of_ne (by simp [Channel.move]) (by simp [Channel.move]),
      fun j _ => (hsettled j).congr ?_⟩
    exact congrArg SubInner.closed (closed_notifyOne p.shared)
  | storeUnsubscribed =>
    exact ⟨hended.setUnsubscribed,
      settled_of_ne (by simp [Channel.move]) (by simp [Channel.move]), fun j _ => hsettled j⟩
  | storeClosed =>
    exact ⟨hended.setClosed, ⟨fun _ => by simp [Channel.move], fun _ => rfl⟩,
      fun j _ => ⟨fun _ => hbetween ht j, fun _ => rfl⟩⟩
  | notifyWaiters =>
    refine ⟨hended.notifyWaiters (hi.2 ht),
      settled_of_ne (by simp [Channel.move]) (by simp [Channel.move]),
      fun j _ => (hsettled j).congr ?_⟩
    exact congrArg SubInner.closed (closed_notifyWaiters p.shared)
  | done => exact ⟨hended, settled_of_ne (by simp [Channel.move]) (by simp [Channel.move]),
      fun j _ => hsettled j⟩

/-- **Closed is final.**  Take a run from a new queue, whatever the calls on it and however they
interleave with its consumer, in which no push stands between its tests and its enqueue when
`closed` is set.  No sample is enqueued after a `close` or an `unsubscribe` returned, and once a
`recv` has returned nothing, every later `recv` and `try_recv` returns nothing. -/
theorem pairwise_mayFollow_of_noneBetween (capacity : ℕ) (policy : BackPressurePolicy)
    (calls : ℕ → Call) (picks : List (Pick Unit Consume))
    (hbetween : Run.Each program.step NoneBetween (start capacity policy calls) picks) :
    (program.run (start capacity policy calls) picks).shared.log.Pairwise
      ChannelEvent.MayFollow := by
  have hstart : (start capacity policy calls).Holds Ended Settled := by
    refine ⟨ended_new capacity policy, fun i => ?_⟩
    change Settled _ (calls i).task
    cases calls i with
    | push sample => exact settled_of_ne (by simp [Call.task]) (by simp [Call.task])
    | close => exact settled_of_ne (by simp [Call.task]) (by simp [Call.task])
    | unsubscribe => exact settled_of_ne (by simp [Call.task]) (by simp [Call.task])
  refine (Program.each_holds ?_ ?_ hbetween hstart).1.order
  · intro p i choice hp hpick
    exact holds_move hp hpick
  · intro p e hp _
    cases e with
    | recv => exact ⟨hp.1.recv, fun j => (hp.2 j).congr (closed_recv _)⟩
    | tryRecv => exact ⟨hp.1.tryRecv, fun j => (hp.2 j).congr (closed_tryRecv _)⟩

/-! ### Two runs -/

/-- A sample. -/
def someSample : Sample := ⟨"t", [1], 0, 1, FixedBytes.zero 16⟩

/-- Call 0 pushes the sample, the others close the queue. -/
def pushAndClose : ℕ → Call
  | 0 => .push someSample
  | _ => .close

/-- The push comes after the close, and is turned away: `recv` returns nothing, and so does the
`try_recv` after it. -/
theorem pairwise_mayFollow_of_noneBetween_late :
    (program.run (start 8 .dropNewest pushAndClose)
      ([.task 1 (), .task 1 (), .task 0 (), .task 0 ()] ++ List.replicate 4 (.env .recv) ++
        [.env .tryRecv])).shared.log.Pairwise ChannelEvent.MayFollow :=
  pairwise_mayFollow_of_noneBetween 8 .dropNewest pushAndClose _ (by
    refine ⟨fun _ j sample => ?_, fun h => ?_, fun h => ?_, fun h => ?_, trivial, trivial, trivial,
      trivial, trivial, trivial⟩
    · rcases j with _ | j <;> simp [start, pushAndClose, Call.task]
    · cases h
    · cases h
    · cases h)

/-- A push tests the flags, the queue is closed, and `recv` returns nothing; then the push
enqueues its sample. -/
theorem exists_not_pairwise_mayFollow :
    ¬ ∀ (capacity : ℕ) (policy : BackPressurePolicy) (calls : ℕ → Call)
      (picks : List (Pick Unit Consume)),
      (program.run (start capacity policy calls) picks).shared.log.Pairwise
        ChannelEvent.MayFollow := by
  intro h
  have hrun := h 8 .dropNewest pushAndClose
    ([.task 0 (), .task 0 (), .task 1 (), .task 1 ()] ++ List.replicate 4 (.env .recv) ++
      [.task 0 (), .task 0 (), .env .tryRecv])
  have hlog : (program.run (start 8 .dropNewest pushAndClose)
      ([.task 0 (), .task 0 (), .task 1 (), .task 1 ()] ++ List.replicate 4 (.env .recv) ++
        [.task 0 (), .task 0 (), .env .tryRecv])).shared.log =
      [.closed, .received none, .enqueued someSample, .tried (some someSample)] := by
    decide +kernel
  rw [hlog] at hrun
  exact (List.pairwise_cons.mp hrun).1 (.enqueued someSample) (by simp)

end Channel

end RustDds
