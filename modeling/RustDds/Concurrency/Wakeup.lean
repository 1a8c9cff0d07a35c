import RustDds.Concurrency.Channel

/-!
# Lost wakeups

The receiver should not wait while the queue holds samples for it, or when it is closed, unless
a call under way is still to wake it (`LostWakeup`).  A push sees to that with `notify_one`,
whose permit stays if the receiver is not waiting yet.  A close uses `notify_waiters`, which
leaves nothing behind: if it comes after the receiver has read the closed flag and before it has
registered, the receiver waits for ever (`exists_lostWakeup`).  In a run in which no close does
that, no wakeup is lost, and a closed receiver returns (`not_lostWakeup_of_inTime`).
-/

namespace RustDds

/-- The call has changed the queue, and is still to send its notification. -/
def ChannelTask.Owes (t : ChannelTask) : Prop := t = .notifyOne ∨ t = .notifyWaiters

instance : DecidablePred ChannelTask.Owes := fun _ => inferInstanceAs (Decidable (_ ∨ _))

namespace Channel

/-- The receiver waits, no permit is stored, the queue is closed or has a sample, and no call
under way is still to send a notification. -/
def LostWakeup (p : Pool Channel ChannelTask) : Prop :=
  p.shared.receiver = .parked ∧ p.shared.permit = false ∧
    (p.shared.inner.closed = true ∨ p.shared.inner.queue ≠ []) ∧ ∀ i, ¬ (p.task i).Owes

/-- No close sends its notification while the receiver stands between the closed flag and its
registration, unless a permit is stored or another call is still to send a notification. -/
def InTime (p : Pool Channel ChannelTask) : Pick Unit Consume → Prop
  | .task i _ =>
    p.task i = .notifyWaiters → p.shared.receiver = .register →
      p.shared.permit = true ∨ ∃ j ≠ i, (p.task j).Owes
  | .env _ => True

/-! ## The invariant -/

/-- Whoever is about to wait will be woken, where `one` says that a call is still to send a
`notify_one`, and `any` that one is still to send some notification. -/
structure Awake (c : Channel) (one any : Prop) : Prop where
  /-- A sample that came after the receiver found the queue empty is announced. -/
  queue : c.receiver = .readClosed ∨ c.receiver = .register ∨ c.receiver = .parked →
    c.inner.queue ≠ [] → c.permit = true ∨ one
  /-- A close that came after the receiver read the flag is announced. -/
  closed : c.receiver = .register ∨ c.receiver = .parked → c.inner.closed = true →
    c.permit = true ∨ any
  parked : c.receiver = .parked → c.permit = false
  locked : c.locked = true → one
  any_of_one : one → any

lemma awake_new (capacity : ℕ) (policy : BackPressurePolicy) {one any : Prop} (h : one → any) :
    (new capacity policy).Awake one any where
  queue := by rintro (h | h | h) <;> cases h
  closed := by rintro (h | h) <;> cases h
  parked h := by cases h
  locked h := by cases h
  any_of_one := h

section Steps

variable {c : Channel} {one any : Prop}

/-- Nothing is lost if the same notifications are still to come. -/
lemma Awake.imp (h : c.Awake one any) {one' any' : Prop} (hone : one → one') (hany : any → any')
    (h' : one' → any') : c.Awake one' any' where
  queue hr hq := (h.queue hr hq).imp id hone
  closed hr hc := (h.closed hr hc).imp id hany
  parked := h.parked
  locked hl := hone (h.locked hl)
  any_of_one := h'

lemma Awake.record (h : c.Awake one any) (e : ChannelEvent) : (c.record e).Awake one any :=
  ⟨h.queue, h.closed, h.parked, h.locked, h.any_of_one⟩

/-- The step that appends a sample still has its `notify_one` to send. -/
lemma Awake.enqueue (h : c.Awake one any) (hone : one) (sample : Sample) :
    ({ c with inner := (c.inner.enqueue sample).2, locked := true } : Channel).Awake one any where
  queue _ _ := .inr hone
  closed hr hc := h.closed hr (by simpa using hc)
  parked := h.parked
  locked _ := hone
  any_of_one := h.any_of_one

/-- After `notify_one` the receiver runs, or finds the permit. -/
lemma Awake.notifyOne {one' any' : Prop} (h : one' → any') :
    ({ c.notifyOne with locked := false } : Channel).Awake one' any' := by
  unfold Channel.notifyOne
  split
  · exact ⟨by simp, by simp, by simp, by simp, h⟩
  · rename_i hparked
    exact ⟨by simp, by simp, by simp [hparked], by simp, h⟩

/-- The step that sets the flag still has its `notify_waiters` to send. -/
lemma Awake.setClosed (h : c.Awake one any) (hany : any) : c.setClosed.Awake one any where
  queue := h.queue
  closed _ _ := .inr hany
  parked := h.parked
  locked := h.locked
  any_of_one := h.any_of_one

lemma Awake.setUnsubscribed (h : c.Awake one any) : c.setUnsubscribed.Awake one any :=
  ⟨h.queue, h.closed, h.parked, h.locked, h.any_of_one⟩

/-- `notify_waiters` wakes a waiting receiver.  One that is about to wait must have another
notification to come. -/
lemma Awake.notifyWaiters (h : c.Awake one any) {any' : Prop} (h' : one → any')
    (hintime : c.receiver = .register → c.permit = true ∨ any') :
    c.notifyWaiters.Awake one any' := by
  unfold Channel.notifyWaiters
  split
  · exact ⟨by simp, by simp, by simp, h.locked, h'⟩
  · rename_i hparked
    refine ⟨h.queue, ?_, h.parked, h.locked, h'⟩
    rintro (hr | hr) _
    · exact hintime hr
    · exact absurd hr hparked

/-- A shorter queue needs no more wakeups. -/
lemma Awake.tail (h : c.Awake one any) :
    ({ c with inner := { c.inner with queue := c.inner.queue.tail } } : Channel).Awake one any where
  queue hr hq := h.queue hr fun hnil => hq (by simp [hnil])
  closed := h.closed
  parked := h.parked
  locked := h.locked
  any_of_one := h.any_of_one

/-- A receiver that does not wait, and is not about to, needs no wakeup. -/
lemma Awake.of_running (h : c.Awake one any) {r : Receiver}
    (hr : r = .idle ∨ r = .pop ∨ r = .finalPop) :
    ({ c with receiver := r } : Channel).Awake one any := by
  refine ⟨?_, ?_, ?_, h.locked, h.any_of_one⟩ <;> rcases hr with rfl | rfl | rfl <;> simp

/-- **The receiver's step.** -/
lemma Awake.recv (h : c.Awake one any) : c.recv.Awake one any := by
  cases hr : c.receiver with
  | idle =>
    simp only [Channel.recv, hr]
    exact h.of_running (.inr (.inl rfl))
  | pop =>
    by_cases hfree : c.locked = true
    · simp only [Channel.recv, hr, hfree, if_true]
      exact h
    cases hq : c.inner.queue.head? with
    | none =>
      have hnil : c.inner.queue = [] := List.head?_eq_none_iff.mp hq
      rw [recv_of_empty hr hfree hnil]
      refine ⟨fun _ hne => absurd ?_ hne, by simp, by simp, h.locked, h.any_of_one⟩
      simp [SubInner.pop, hnil]
    | some sample =>
      rw [recv_of_sample hr hfree hq]
      exact (h.tail.of_running (.inl rfl)).record _
  | readClosed =>
    simp only [Channel.recv, hr]
    split
    · exact h.of_running (.inr (.inr rfl))
    · rename_i hopen
      exact ⟨fun _ => h.queue (.inl hr), fun _ hclosed => absurd hclosed hopen, by simp,
        h.locked, h.any_of_one⟩
  | finalPop =>
    simp only [Channel.recv, hr]
    split
    · exact h
    · exact (h.tail.of_running (.inl rfl)).record _
  | register =>
    simp only [Channel.recv, hr]
    split
    · exact ⟨by simp, by simp, by simp, h.locked, h.any_of_one⟩
    · rename_i hpermit
      exact ⟨fun _ => h.queue (.inr (.inl hr)), fun _ => h.closed (.inl hr),
        fun _ => by simpa using hpermit, h.locked, h.any_of_one⟩
  | parked =>
    simp only [Channel.recv, hr]
    exact h

lemma Awake.tryRecv (h : c.Awake one any) : c.tryRecv.Awake one any := by
  unfold Channel.tryRecv
  split
  · exact h
  · exact h.tail.record _

end Steps

/-! ## Runs -/

/-- The invariant of a pool. -/
def AllAwake (p : Pool Channel ChannelTask) : Prop :=
  p.shared.Awake (∃ i, p.task i = .notifyOne) (∃ i, (p.task i).Owes)

/-- Where a `notify_one` is still to come, so is a notification. -/
lemma exists_owes_of_notifyOne {task : ℕ → ChannelTask} (h : ∃ i, task i = .notifyOne) :
    ∃ i, (task i).Owes := by
  obtain ⟨i, hi⟩ := h
  exact ⟨i, .inl hi⟩

lemma allAwake_start (capacity : ℕ) (policy : BackPressurePolicy) (calls : ℕ → Call) :
    AllAwake (start capacity policy calls) :=
  awake_new capacity policy exists_owes_of_notifyOne

/-- **The step.**  A close that is in time loses no wakeup, and no other step does. -/
lemma AllAwake.step {p : Pool Channel ChannelTask} {pick : Pick Unit Consume} (h : AllAwake p)
    (hintime : InTime p pick) : AllAwake (program.step p pick) := by
  cases pick with
  | env e =>
    cases e with
    | recv => exact Awake.recv h
    | tryRecv => exact Awake.tryRecv h
  | task i choice =>
    unfold AllAwake
    rw [Program.shared_step_task]
    -- the notifications still to come, but for the one of the task that moves
    have hone : p.task i ≠ .notifyOne → (∃ j, p.task j = .notifyOne) →
        ∃ j, (program.step p (.task i choice)).task j = .notifyOne := fun hi hj =>
      program.exists_task_step (Q := (· = .notifyOne)) hj fun h => absurd h hi
    have hany : ¬ (p.task i).Owes → (∃ j, (p.task j).Owes) →
        ∃ j, ((program.step p (.task i choice)).task j).Owes := fun hi hj =>
      program.exists_task_step hj fun h => absurd h hi
    have hself := program.task_step_self p i choice
    have hlift : ¬ (p.task i).Owes →
        p.shared.Awake (∃ j, (program.step p (.task i choice)).task j = .notifyOne)
          (∃ j, ((program.step p (.task i choice)).task j).Owes) := fun hi =>
      Awake.imp h (hone fun heq => hi (.inl heq)) (hany hi) exists_owes_of_notifyOne
    cases ht : p.task i with
    | testUnsubscribed sample =>
      have hawake := hlift (by simp [ht, ChannelTask.Owes])
      change Awake (p.shared.move (.testUnsubscribed sample)).1 _ _
      simp only [Channel.move]
      split <;> exact hawake
    | testClosed sample =>
      have hawake := hlift (by simp [ht, ChannelTask.Owes])
      change Awake (p.shared.move (.testClosed sample)).1 _ _
      simp only [Channel.move]
      split <;> exact hawake
    | enqueue sample =>
      have hawake := hlift (by simp [ht, ChannelTask.Owes])
      rw [ht] at hself
      change _ = (p.shared.move (.enqueue sample)).2 at hself
      change Awake (p.shared.move (.enqueue sample)).1 _ _
      simp only [Channel.move] at hself ⊢
      split
      · exact hawake
      · rename_i hfree
        rw [if_neg hfree] at hself
        split
        · rename_i haccepted
          rw [if_pos haccepted] at hself
          exact (hawake.enqueue ⟨i, hself⟩ sample).record _
        · exact hawake
    | notifyOne => exact Awake.notifyOne exists_owes_of_notifyOne
    | storeUnsubscribed => exact (hlift (by simp [ht, ChannelTask.Owes])).setUnsubscribed
    | storeClosed =>
      have hawake := hlift (by simp [ht, ChannelTask.Owes])
      rw [ht] at hself
      exact hawake.setClosed ⟨i, .inr hself⟩
    | notifyWaiters =>
      have hone' := hone (by simp [ht])
      have hawake : p.shared.Awake _ True := Awake.imp h hone' (fun _ => trivial) fun _ => trivial
      refine (Awake.notifyWaiters hawake exists_owes_of_notifyOne fun hreg => ?_).record _
      rcases hintime ht hreg with hpermit | ⟨j, hj, howes⟩
      · exact .inl hpermit
      · exact .inr ⟨j, by rw [program.task_step_of_ne p hj]; exact howes⟩
    | done => exact hlift (by simp [ht, ChannelTask.Owes])

/-! ## A closed receiver returns -/

/-- The last pop returns what is at the front of the queue, or that there is nothing. -/
lemma log_recv_finalPop {c : Channel} (hr : c.receiver = .finalPop) (hfree : c.locked = false) :
    c.recv.log = c.log ++ [.received c.inner.queue.head?] := by
  simp [Channel.recv, hr, hfree, Channel.record, SubInner.pop]

/-- A receiver that is to read the flag of a closed queue returns in two steps. -/
lemma log_recv_readClosed {c : Channel} (hr : c.receiver = .readClosed) (hfree : c.locked = false)
    (hclosed : c.inner.closed = true) :
    (recv^[2] c).log = c.log ++ [.received c.inner.queue.head?] := by
  have hstep : c.recv = { c with receiver := .finalPop } := by simp [Channel.recv, hr, hclosed]
  rw [Function.iterate_succ_apply, hstep, Function.iterate_one,
    log_recv_finalPop (c := { c with receiver := .finalPop }) rfl hfree]

/-- A receiver that is to pop from a closed queue returns within three steps. -/
lemma log_recv_pop {c : Channel} (hr : c.receiver = .pop) (hfree : c.locked = false)
    (hclosed : c.inner.closed = true) :
    ∃ n ≤ 3, (recv^[n] c).log = c.log ++ [.received c.inner.queue.head?] := by
  cases hq : c.inner.queue with
  | cons sample rest =>
    refine ⟨1, by omega, ?_⟩
    simp [Channel.recv, hr, hfree, SubInner.pop, hq, Channel.record]
  | nil =>
    have hstep : c.recv =
        { c with inner := { c.inner with queue := [] }, receiver := .readClosed } := by
      simp [Channel.recv, hr, hfree, SubInner.pop, hq]
    refine ⟨3, le_refl 3, ?_⟩
    rw [Function.iterate_succ_apply, hstep]
    exact log_recv_readClosed
      (c := { c with inner := { c.inner with queue := [] }, receiver := .readClosed })
      rfl hfree hclosed

/-- If no notification is still to come, the receiver of a closed queue returns within four of
its own steps. -/
lemma Awake.log_recv {c : Channel} {one any : Prop} (h : c.Awake one any) (hany : ¬ any)
    (hclosed : c.inner.closed = true) :
    ∃ n ≤ 4, (Channel.recv^[n] c).log = c.log ++ [.received c.inner.queue.head?] := by
  have hfree : c.locked = false := by
    cases hl : c.locked with
    | false => rfl
    | true => exact absurd (h.any_of_one (h.locked hl)) hany
  cases hr : c.receiver with
  | idle =>
    have hstep : c.recv = { c with receiver := .pop } := by simp [Channel.recv, hr]
    obtain ⟨n, hn, hlog⟩ := log_recv_pop (c := { c with receiver := .pop }) rfl hfree hclosed
    exact ⟨n + 1, by omega, by rw [Function.iterate_succ_apply, hstep, hlog]⟩
  | pop =>
    obtain ⟨n, hn, hlog⟩ := log_recv_pop hr hfree hclosed
    exact ⟨n, by omega, hlog⟩
  | readClosed => exact ⟨2, by omega, log_recv_readClosed hr hfree hclosed⟩
  | finalPop => exact ⟨1, by omega, log_recv_finalPop hr hfree⟩
  | register =>
    have hpermit : c.permit = true := (h.closed (.inl hr) hclosed).resolve_right hany
    have hstep : c.recv = { c with permit := false, receiver := .pop } := by
      simp [Channel.recv, hr, hpermit]
    obtain ⟨n, hn, hlog⟩ :=
      log_recv_pop (c := { c with permit := false, receiver := .pop }) rfl hfree hclosed
    exact ⟨n + 1, by omega, by rw [Function.iterate_succ_apply, hstep, hlog]⟩
  | parked =>
    have hpermit := (h.closed (.inr hr) hclosed).resolve_right hany
    rw [h.parked hr] at hpermit
    cases hpermit

/-- A run of the receiver alone. -/
lemma shared_run_recv (p : Pool Channel ChannelTask) (n : ℕ) :
    (program.run p (List.replicate n (.env .recv))).shared = recv^[n] p.shared := by
  induction n generalizing p with
  | zero => rfl
  | succ n ih => rw [List.replicate_succ, Program.run_cons, ih, Function.iterate_succ_apply]; rfl

/-- **No lost wakeup.**  Take a run from a new queue, whatever the calls on it and however they
interleave with the receiver, in which every close is in time.  In the state it reaches the
receiver does not wait while the queue is closed or has a sample, unless a call is still to
notify it.  If the queue is closed and no call is still to notify, `recv` returns within four of
the receiver's own steps, with the sample at the front of the queue, or with nothing once the
queue is drained. -/
theorem not_lostWakeup_of_inTime (capacity : ℕ) (policy : BackPressurePolicy) (calls : ℕ → Call)
    (picks : List (Pick Unit Consume))
    (hintime : Run.Each program.step InTime (start capacity policy calls) picks) :
    ¬ LostWakeup (program.run (start capacity policy calls) picks) ∧
    ((program.run (start capacity policy calls) picks).shared.inner.closed = true →
      (∀ i, ¬ ((program.run (start capacity policy calls) picks).task i).Owes) →
      ∃ n ≤ 4,
        (program.run (start capacity policy calls)
            (picks ++ List.replicate n (.env .recv))).shared.log =
          (program.run (start capacity policy calls) picks).shared.log ++
            [.received
              (program.run (start capacity policy calls) picks).shared.inner.queue.head?]) := by
  have hawake : AllAwake (program.run (start capacity policy calls) picks) :=
    Run.Each.foldl (I := AllAwake) (fun p pick hp hpick => hp.step hpick) hintime
      (allAwake_start capacity policy calls)
  simp only [Program.run_append]
  generalize program.run (start capacity policy calls) picks = p at hawake
  constructor
  · rintro ⟨hparked, hpermit, hready, hnone⟩
    have hno : ¬ ∃ i, (p.task i).Owes := fun ⟨i, hi⟩ => hnone i hi
    have hwoken : p.shared.permit = true := by
      rcases hready with hclosed | hqueue
      · exact (hawake.closed (.inr hparked) hclosed).resolve_right hno
      · refine (hawake.queue (.inr (.inr hparked)) hqueue).resolve_right fun hone => ?_
        exact hno (exists_owes_of_notifyOne hone)
    rw [hpermit] at hwoken
    cases hwoken
  · intro hclosed hnone
    obtain ⟨n, hn, hlog⟩ := Awake.log_recv hawake (fun ⟨i, hi⟩ => hnone i hi) hclosed
    exact ⟨n, hn, by rw [shared_run_recv, hlog]⟩

/-! ### Two runs -/

/-- The picks of a close, and of a receiver that finds the queue empty: the close sets the flag
and notifies at the two given points of the receiver's way. -/
def closeAt (pre mid post : ℕ) : List (Pick Unit Consume) :=
  List.replicate pre (.env .recv) ++ [.task 0 ()] ++ List.replicate mid (.env .recv) ++
    [.task 0 ()] ++ List.replicate post (.env .recv)

/-- A close that notifies a receiver that waits is in time, and the receiver returns. -/
theorem not_lostWakeup_of_inTime_parked :
    ¬ LostWakeup (program.run (start 8 .dropNewest fun _ => .close) (closeAt 4 0 3)) :=
  (not_lostWakeup_of_inTime 8 .dropNewest (fun _ => .close) (closeAt 4 0 3) (by
    simp only [closeAt, List.replicate, List.nil_append, List.append_nil, List.cons_append]
    simp [Run.Each, InTime, Program.step, program, start, Call.task, move, recv, new, SubInner.new,
      SubInner.pop, setClosed])).1

/-- A close that comes after the receiver has read the flag, and before it has registered, is
lost on it. -/
theorem exists_lostWakeup :
    ¬ ∀ (capacity : ℕ) (policy : BackPressurePolicy) (calls : ℕ → Call)
      (picks : List (Pick Unit Consume)),
      ¬ LostWakeup (program.run (start capacity policy calls) picks) := by
  intro h
  refine h 8 .dropNewest (fun _ => .close) (closeAt 3 0 1) ⟨by decide, by decide, by decide, ?_⟩
  intro i
  have htask : (program.run (start 8 .dropNewest fun _ => .close) (closeAt 3 0 1)).task i =
      if i = 0 then .done else .storeClosed := by
    by_cases hi : i = 0
    · subst hi
      rfl
    · simp [closeAt, Program.run, Program.step, program, start, hi, Call.task, move]
  rw [htask]
  split <;> decide

end Channel

end RustDds
