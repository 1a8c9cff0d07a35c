import RustDds.Concurrency.Overtaking

/-!
# A reader that joins while a writer writes

The UDP participant keeps the last sample of each topic.  A write stores its sample there, then
looks up the readers and pushes the sample to them; a new `TransientLocal` reader is put into the
dispatch table, and then handed the last sample of its topic.  Nothing is held from one step to
the next, on either side.

So a write that is stored between the two steps of the reader reaches it twice, and the sample
before it not at all (`not_joinsInOrder`).  Where no write is stored in that time, and the one
that was stored last has completed when the reader comes, the reader is handed the last completed
one, and all that it gets of a publisher rises (`joinsInOrder_of_undisturbed`).
-/

namespace RustDds

open scoped List

namespace Subscription

/-- A sample that is pushed now will be in the queue. -/
def Accepts (sub : Subscription) : Prop :=
  sub.unsubscribed = false ∧ sub.closed = false ∧
    (sub.policy = .dropOldest ∨ sub.queue.length < sub.capacity)

instance (sub : Subscription) : Decidable sub.Accepts := inferInstanceAs (Decidable (_ ∧ _ ∧ _))

lemma mem_queue_push {sub : Subscription} (h : sub.Accepts) (x : Delivery) :
    x ∈ (sub.push x).queue := by
  obtain ⟨hunsubscribed, hclosed, hroom⟩ := h
  rw [push, hunsubscribed, hclosed]
  change x ∈ (sub.policy.offer sub.capacity sub.queue x).2
  rcases hroom with hpolicy | hroom
  · rw [hpolicy]
    exact List.mem_append_right _ (List.mem_singleton_self x)
  · rcases sub.policy.offer_cases sub.capacity sub.queue x with h | h | h
    · cases hpolicy : sub.policy <;> simp [hpolicy, BackPressurePolicy.offer] at h <;> omega
    all_goals
      rw [h]
      exact List.mem_append_right _ (List.mem_singleton_self x)

lemma topic_push (sub : Subscription) (x : Delivery) : (sub.push x).topic = sub.topic := by
  unfold push
  split <;> rfl

lemma topic_recv (sub : Subscription) : sub.recv.topic = sub.topic := by
  unfold recv
  split
  · rfl
  · split <;> rfl

end Subscription

/-! ## What is stored -/

namespace DeliveryTask

/-- The task has stored the sample, and has not failed since. -/
def Beyond (x : Delivery) : DeliveryTask → Prop
  | .snapshot y | .push _ y | .enqueue _ _ y => y = x
  | .returned result => result = .ok ()
  | _ => False

/-- The task has stored the sample, and is not through with it. -/
def UnderWay (x : Delivery) : DeliveryTask → Prop
  | .snapshot y | .push _ y | .enqueue _ _ y => y = x
  | _ => False

/-- The call has not begun, or it has returned. -/
def Resting : DeliveryTask → Prop
  | .call _ | .returned _ => True
  | _ => False

instance : DecidablePred Resting
  | .call _ | .returned _ => inferInstanceAs (Decidable True)
  | .createPublisher .. | .insertWriter .. | .subscribe .. | .insertReader .. | .deliverCached _
  | .enlist _ | .startPoller .. | .poll .. | .readFile .. | .pushRead .. | .enqueueRead ..
  | .draw .. | .publish _ | .retain .. | .snapshot _ | .push .. | .enqueue .. | .storeClosed _
  | .removeSubscriber _ | .lockSubscribers | .closeEach _ | .done =>
    inferInstanceAs (Decidable False)

lemma Resting.not_carries {t : DeliveryTask} (h : t.Resting) {k : ℕ} : ¬ t.Carries k := by
  cases t with
  | call | returned => exact id
  | _ => exact h.elim

/-- Reader `r` is to be handed `x`, the last sample of its topic, or has been handed it. -/
def Awaits (r : ℕ) (topic : String) (x : Delivery) (s : DeliveryState) : DeliveryTask → Prop
  | .deliverCached r' => r' = r ∧ s.lastSample.lookup topic = some x ∧
    ∃ sub : Subscription, s.subscriptions[r]? = some sub ∧ sub.topic = topic
  | .enlist _ | .returned _ => True
  | _ => False

lemma Beyond.returned {x : Delivery} {t : DeliveryTask} (h : t.Beyond x) (hnot : ¬ t.UnderWay x) :
    t = .returned (.ok ()) := by
  cases t with
  | snapshot | push | enqueue => exact absurd h hnot
  | returned result => exact congrArg _ h
  | _ => exact h.elim

end DeliveryTask

namespace DeliveryState

variable {cfg : DeliveryConfig} {s s' : DeliveryState} {p : Pool DeliveryState DeliveryTask}

/-- A step that stores nothing, and leaves the subscribers on their topics. -/
structure Still (s s' : DeliveryState) : Prop where
  last : s'.lastSample = s.lastSample
  topics : ∀ (r : ℕ) (sub : Subscription), s.subscriptions[r]? = some sub →
    ∃ sub', s'.subscriptions[r]? = some sub' ∧ sub'.topic = sub.topic

namespace Still

lemma of_eq (hsubscriptions : s'.subscriptions = s.subscriptions)
    (hlast : s'.lastSample = s.lastSample) : Still s s' :=
  ⟨hlast, fun _ sub hsub => ⟨sub, hsubscriptions ▸ hsub, rfl⟩⟩

lemma refl (s : DeliveryState) : Still s s := of_eq rfl rfl

lemma modifySub (s : DeliveryState) (r : ℕ) {f : Subscription → Subscription}
    (hf : ∀ sub, (f sub).topic = sub.topic) : Still s (s.modifySub r f) := by
  refine ⟨rfl, fun r' sub hsub => ?_⟩
  rw [getElem?_modifySub, hsub]
  split
  · exact ⟨f sub, rfl, hf sub⟩
  · exact ⟨sub, rfl, rfl⟩

lemma concat (sub : Subscription) (hsubscriptions : s'.subscriptions = s.subscriptions ++ [sub])
    (hlast : s'.lastSample = s.lastSample) : Still s s' :=
  ⟨hlast, fun _ sub' hsub' => ⟨sub', hsubscriptions ▸ getElem?_concat_of_eq_some hsub', rfl⟩⟩

end Still

/-- Only a write stores a sample. -/
lemma still_move (rd : Reading) {t : DeliveryTask} (h : ∀ x, t ≠ .publish x) :
    Still s (s.move cfg rd t).1 := by
  have hmoves := moves_move cfg rd s t
  generalize s.move cfg rd t = moved at hmoves ⊢
  cases hmoves with
  | unsubscribe r | enqueueRead r | enqueue r | storeClosed r | closeEach r =>
    exact .modifySub s r fun _ => rfl
  | subscribe | insertReader => exact .concat _ rfl rfl
  | deliverCached r => exact .modifySub s r fun sub => sub.topic_push _
  | publish x => exact absurd rfl (h x)
  | _ => exact .of_eq rfl rfl

lemma still_env (cfg : DeliveryConfig) (s : DeliveryState) (e : Surrounding) :
    Still s ((program cfg).env e s) := by
  cases e with
  | recv r => exact .modifySub s r Subscription.topic_recv
  | arrive r sample =>
    dsimp only [program]
    split
    · exact .modifySub s r fun sub => sub.topic_push _
    · exact .refl s

lemma move_publish (hrtps : cfg.transport = .rtps) (rd : Reading) (x : Delivery) :
    s.move cfg rd (.publish x) =
      ({ s with lastSample := s.lastSample.insert x.sample.topic x }, .snapshot x) := by
  change s.publish cfg x = _
  rw [publish, hrtps]

lemma beyond_move (rd : Reading) {t : DeliveryTask} {x : Delivery} (h : t.Beyond x) :
    (s.move cfg rd t).2.Beyond x := by
  cases t with
  | snapshot y => exact h
  | push left y =>
    cases left with
    | nil => exact Eq.refl (Except.ok ())
    | cons r left =>
      rw [move]
      split <;> exact h
  | enqueue r left y => exact h
  | returned => exact h
  | _ => exact h.elim

/-- What a step stores as the last sample of its topic, and which task does it. -/
def stored (p : Pool DeliveryState DeliveryTask) : Turn → List (ℕ × Delivery)
  | .env _ => []
  | .task i _ =>
    match p.task i with
    | .publish x => [(i, x)]
    | _ => []

/-- All that was stored for a topic. -/
def storedOn (topic : String) (l : List (ℕ × Delivery)) : List (ℕ × Delivery) :=
  l.filter fun e => e.2.sample.topic = topic

/-- What a run that has stored these samples keeps. -/
structure Logged (p : Pool DeliveryState DeliveryTask) (l : List (ℕ × Delivery)) : Prop where
  last : ∀ topic, p.shared.lastSample.lookup topic = (storedOn topic l).getLast?.map Prod.snd
  beyond : ∀ e ∈ l, (p.task e.1).Beyond e.2

lemma logged_step (hrtps : cfg.transport = .rtps) {l : List (ℕ × Delivery)} (h : Logged p l)
    (turn : Turn) : Logged ((program cfg).step p turn) (l ++ stored p turn) := by
  cases turn with
  | env e =>
    rw [stored, List.append_nil]
    refine ⟨fun topic => ?_, h.beyond⟩
    rw [← h.last topic, Program.step_env, (still_env cfg p.shared e).last]
  | task i rd =>
    have hkept : ∀ e ∈ l, (((program cfg).step p (.task i rd)).task e.1).Beyond e.2 := by
      intro e he
      by_cases hi : e.1 = i
      · rw [hi, Program.task_step_self]
        exact beyond_move rd (hi ▸ h.beyond e he)
      · rw [Program.task_step_of_ne _ _ hi]
        exact h.beyond e he
    by_cases hpublish : ∃ x, p.task i = .publish x
    · obtain ⟨x, hx⟩ := hpublish
      have hmove : (program cfg).move rd p.shared (p.task i) = _ :=
        (congrArg (p.shared.move cfg rd) hx).trans (move_publish hrtps rd x)
      have hstored : stored p (.task i rd) = [(i, x)] := by rw [stored, hx]
      rw [hstored]
      refine ⟨fun topic => ?_, fun e he => ?_⟩
      · rw [Program.shared_step_task, hmove, storedOn, List.filter_append]
        by_cases htopic : topic = x.sample.topic
        · subst htopic
          simp [AList.lookup_insert]
        · rw [AList.lookup_insert_ne htopic, h.last topic]
          simp [storedOn, Ne.symm htopic]
      · rcases List.mem_append.1 he with hold | hnew
        · exact hkept e hold
        · rw [List.mem_singleton.1 hnew, Program.task_step_self, hmove]
          exact Eq.refl x
    · have hnone : stored p (.task i rd) = [] := by
        rw [stored]
        split
        · next x hx => exact absurd ⟨x, hx⟩ hpublish
        · rfl
      rw [hnone, List.append_nil]
      refine ⟨fun topic => ?_, hkept⟩
      rw [← h.last topic, Program.shared_step_task]
      exact congrArg _ (still_move rd fun x hx => hpublish ⟨x, hx⟩).last

lemma logged_run (hrtps : cfg.transport = .rtps) (calls : ℕ → DeliveryCall) (turns : List Turn) :
    Logged ((program cfg).run (start calls) turns)
      (Run.trace (program cfg).step stored (start calls) turns) := by
  have heach : Run.Each (program cfg).step (fun _ _ => True) (start calls) turns :=
    Run.each_of_forall fun _ _ _ => trivial
  have hstart : Logged (start calls) [] := ⟨fun _ => rfl, fun _ he => absurd he List.not_mem_nil⟩
  exact heach.foldl_trace (J := Logged) (fun _ turn _ hJ _ => logged_step hrtps hJ turn) hstart

/-! ## The reader that joins -/

/-- The samples of a topic whose writes have completed, in the order in which they were stored. -/
def completed (cfg : DeliveryConfig) (calls : ℕ → DeliveryCall) (turns : List Turn)
    (topic : String) : List Delivery :=
  let p := (program cfg).run (start calls) turns
  ((storedOn topic (Run.trace (program cfg).step stored (start calls) turns)).filter fun e =>
    p.task e.1 = .returned (.ok ())).map Prod.snd

/-- Every subscriber has the samples of publisher `k` once and in order, and every
`TransientLocal` reader is handed the last of the samples on its topic whose writes had completed
when it was put into the dispatch table. -/
structure JoinsInOrder (cfg : DeliveryConfig) (calls : ℕ → DeliveryCall) (turns : List Turn)
    (k : ℕ) : Prop where
  rising : ∀ (r : ℕ) (sub : Subscription),
    ((program cfg).run (start calls) turns).shared.subscriptions[r]? = some sub →
      (numbers (some k) sub.history).Pairwise (· < ·)
  cached : ∀ before i rd between rd' after,
    turns = before ++ .task i rd :: between ++ .task i rd' :: after →
    ∀ topic qos opts eid r x,
    ((program cfg).run (start calls) before).task i = .insertReader topic qos opts eid →
    qos.transientLocal = true →
    ((program cfg).run (start calls) (before ++ .task i rd :: between)).task i =
      .deliverCached r →
    (completed cfg calls before topic).getLast? = some x →
    ∃ sub : Subscription, ((program cfg).run (start calls)
      (before ++ .task i rd :: between ++ [.task i rd'])).shared.subscriptions[r]? = some sub ∧
        x ∈ sub.queue

/-- What a step must not do while a reader joins: put the reader into the dispatch table while the
write that was stored last is under way, store a sample for it before it is handed the last one,
or hand that to a queue that does not take it. -/
def Undisturbed (p : Pool DeliveryState DeliveryTask) : Turn → Prop
  | .env _ => True
  | .task i _ =>
    match p.task i with
    | .insertReader topic qos _ _ => qos.transientLocal = true →
      ∀ x, p.shared.lastSample.lookup topic = some x → ∀ j, ¬ (p.task j).UnderWay x
    | .publish x => ∀ j r (sub : Subscription), p.task j = .deliverCached r →
      p.shared.subscriptions[r]? = some sub → sub.topic ≠ x.sample.topic
    | .deliverCached r => ∀ sub : Subscription, p.shared.subscriptions[r]? = some sub →
      sub.Accepts
    | _ => True

/-- Where the last sample is not under way, it is the last completed one. -/
lemma Logged.lookup_of_completed {l : List (ℕ × Delivery)} (h : Logged p l) {topic : String}
    (hquiet : ∀ x, p.shared.lastSample.lookup topic = some x → ∀ j, ¬ (p.task j).UnderWay x)
    {x : Delivery}
    (hx : (((storedOn topic l).filter fun e => p.task e.1 = .returned (.ok ())).map
      Prod.snd).getLast? = some x) : p.shared.lastSample.lookup topic = some x := by
  have hlast := h.last topic
  rcases List.eq_nil_or_concat (storedOn topic l) with hnil | ⟨front, e, hconcat⟩
  · rw [hnil] at hx
    cases hx
  rw [hconcat, List.concat_eq_append, List.getLast?_concat] at hlast
  have hmem : e ∈ l := by
    refine List.mem_of_mem_filter (p := fun e => e.2.sample.topic = topic) ?_
    change e ∈ storedOn topic l
    rw [hconcat, List.concat_eq_append]
    exact List.mem_append_right _ (List.mem_singleton_self e)
  have hreturned : p.task e.1 = .returned (.ok ()) :=
    (h.beyond e hmem).returned (hquiet e.2 hlast e.1)
  rw [hconcat, List.concat_eq_append, List.filter_append] at hx
  simp only [List.filter_singleton, hreturned, decide_true, cond_true, List.map_append,
    List.map_cons, List.map_nil, List.getLast?_concat, Option.some.injEq] at hx
  rw [hlast, ← hx]
  rfl

lemma awaits_of_still {t : DeliveryTask} {r : ℕ} {topic : String} {x : Delivery}
    (h : t.Awaits r topic x s) (hstill : Still s s') : t.Awaits r topic x s' := by
  cases t with
  | deliverCached r' =>
    obtain ⟨hr, hlast, sub, hsub, htopic⟩ := h
    obtain ⟨sub', hsub', hsame⟩ := hstill.topics r sub hsub
    exact ⟨hr, hstill.last ▸ hlast, sub', hsub', hsame.trans htopic⟩
  | _ => exact h

lemma awaits_move {t : DeliveryTask} {r : ℕ} {topic : String} {x : Delivery}
    (h : t.Awaits r topic x s) (rd : Reading) :
    (s.move cfg rd t).2.Awaits r topic x (s.move cfg rd t).1 := by
  cases t with
  | deliverCached r' =>
    rw [move]
    split <;> trivial
  | enlist r' =>
    rw [move]
    split <;> trivial
  | returned => trivial
  | _ => exact h.elim

lemma awaits_step (hrtps : cfg.transport = .rtps) {i r : ℕ} {topic : String} {x : Delivery}
    (h : (p.task i).Awaits r topic x p.shared) (turn : Turn) (hturn : Undisturbed p turn) :
    (((program cfg).step p turn).task i).Awaits r topic x ((program cfg).step p turn).shared := by
  cases turn with
  | env e => exact awaits_of_still h (still_env cfg p.shared e)
  | task j rd =>
    by_cases hji : i = j
    · subst hji
      rw [Program.task_step_self]
      exact awaits_move h rd
    rw [Program.task_step_of_ne _ _ hji, Program.shared_step_task]
    by_cases hpublish : ∃ y, p.task j = .publish y
    swap
    · exact awaits_of_still h (still_move rd fun y hy => hpublish ⟨y, hy⟩)
    obtain ⟨y, hy⟩ := hpublish
    have hmove : (program cfg).move rd p.shared (p.task j) = _ :=
      (congrArg (p.shared.move cfg rd) hy).trans (move_publish hrtps rd y)
    rw [hmove]
    rw [Undisturbed, hy] at hturn
    cases ht : p.task i with
    | deliverCached r' =>
      rw [ht] at h
      obtain ⟨rfl, hlast, sub, hsub, htopic⟩ := h
      have hne : topic ≠ y.sample.topic := htopic ▸ hturn i r' sub ht hsub
      exact ⟨rfl, (AList.lookup_insert_ne hne).trans hlast, sub, hsub, htopic⟩
    | _ =>
      rw [ht] at h
      exact h

lemma awaits_insertReader {i : ℕ} (rd : Reading) {topic : String} {qos : DeliveryQoS}
    {opts : SubscriberOptions} {eid : EntityId} {x : Delivery}
    (hinsert : p.task i = .insertReader topic qos opts eid) (hlocal : qos.transientLocal = true)
    (hlast : p.shared.lastSample.lookup topic = some x) :
    (((program cfg).step p (.task i rd)).task i).Awaits p.shared.subscriptions.length topic x
      ((program cfg).step p (.task i rd)).shared := by
  have hmove : (program cfg).move rd p.shared (p.task i) =
      p.shared.move cfg rd (.insertReader topic qos opts eid) :=
    congrArg (p.shared.move cfg rd) hinsert
  rw [Program.task_step_self, Program.shared_step_task, hmove, move]
  dsimp only
  rw [if_pos hlocal]
  exact ⟨rfl, hlast, .new topic eid opts, List.getElem?_concat_length .., rfl⟩

lemma mem_queue_of_awaits {i r r' : ℕ} (rd : Reading) {topic : String} {x : Delivery}
    (hdeliver : p.task i = .deliverCached r) (h : (p.task i).Awaits r' topic x p.shared)
    (hturn : Undisturbed p (.task i rd)) :
    ∃ sub : Subscription,
      ((program cfg).step p (.task i rd)).shared.subscriptions[r]? = some sub ∧
        x ∈ sub.queue := by
  rw [Undisturbed, hdeliver] at hturn
  rw [hdeliver] at h
  obtain ⟨rfl, hlast, sub, hsub, rfl⟩ := h
  refine ⟨sub.push x, ?_, sub.mem_queue_push (hturn sub hsub) x⟩
  have hmove : (program cfg).move rd p.shared (p.task i) =
      p.shared.move cfg rd (.deliverCached r) := congrArg (p.shared.move cfg rd) hdeliver
  rw [Program.shared_step_task, hmove, move, hsub]
  dsimp only [Option.map_some, Option.getD_some]
  rw [hlast]
  dsimp only
  rw [getElem?_modifySub, if_pos rfl, hsub]
  rfl

/-- **A reader that joins undisturbed.**  Where no step is out of turn for the publisher, and none
disturbs a reader that joins, each reader gets each sample of the publisher once, in the order of
the numbers, and the last completed one with them. -/
theorem joinsInOrder_of_undisturbed (hrtps : cfg.transport = .rtps) (calls : ℕ → DeliveryCall)
    (turns : List Turn) (k : ℕ)
    (h : Run.Each (program cfg).step (fun p turn => InTurn cfg k p turn ∧ Undisturbed p turn)
      (start calls) turns) : JoinsInOrder cfg calls turns k where
  rising r sub hsub := by
    have hturns : Run.Each (program cfg).step (InTurn cfg k) (start calls) turns :=
      h.imp (I := fun _ => True) (fun _ _ _ _ => trivial) (fun _ _ _ hP => hP.1) trivial
    exact ((inOrder_run hturns).shared.histories r sub hsub).1
  cached := by
    rintro before i rd between rd' after rfl topic qos opts eid r x hinsert hlocal hdeliver hx
    obtain ⟨hfront, hhand, -⟩ := Run.each_append.1 h
    obtain ⟨-, hcreate, hbetween⟩ := Run.each_append.1 hfront
    have hlast : ((program cfg).run (start calls) before).shared.lastSample.lookup topic =
        some x := by
      refine (logged_run hrtps calls before).lookup_of_completed ?_ hx
      have hquiet := hcreate.2
      change Undisturbed ((program cfg).run (start calls) before) _ at hquiet
      rw [Undisturbed, hinsert] at hquiet
      exact hquiet hlocal
    set q := (program cfg).run (start calls) before
    have hawaits := hbetween.foldl
      (I := fun p => (p.task i).Awaits q.shared.subscriptions.length topic x p.shared)
      (fun _ turn hI hP => awaits_step hrtps hI turn hP.2)
      (awaits_insertReader rd hinsert hlocal hlast)
    have hwindow : (((program cfg).run (start calls)
        (before ++ .task i rd :: between)).task i).Awaits q.shared.subscriptions.length topic x
          ((program cfg).run (start calls) (before ++ .task i rd :: between)).shared := by
      rw [Program.run_append, Program.run_cons]
      exact hawaits
    rw [Program.run_append _ _ (before ++ .task i rd :: between)]
    exact mem_queue_of_awaits rd' hdeliver hwindow hhand.2

/-! ### Two runs -/

/-- One call after the other, of the first `n`, and nothing overflows. -/
def Sequential (n k : ℕ) (p : Pool DeliveryState DeliveryTask) : Turn → Prop
  | .env _ => True
  | .task i _ => i < n ∧ (∀ j < n, j = i ∨ (p.task j).Resting) ∧
    match p.task i with
    | .draw _ _ => p.shared.seqOf k + 1 < 2 ^ 64
    | .insertWriter _ _ eid => p.shared.writers.lookup eid = none
    | .deliverCached r => ∀ sub ∈ p.shared.subscriptions[r]?, sub.Accepts
    | _ => True

instance (n k : ℕ) (p : Pool DeliveryState DeliveryTask) (turn : Turn) :
    Decidable (Sequential n k p turn) :=
  match turn with
  | .env _ => inferInstanceAs (Decidable True)
  | .task i _ => @instDecidableAnd _ _ _ (@instDecidableAnd _ _ _ <|
    match p.task i with
    | .draw .. | .insertWriter .. | .deliverCached _ => inferInstance
    | .call _ | .createPublisher .. | .subscribe .. | .insertReader .. | .enlist _
    | .startPoller .. | .poll .. | .readFile .. | .pushRead .. | .enqueueRead .. | .publish _
    | .retain .. | .snapshot _ | .push .. | .enqueue .. | .storeClosed _ | .removeSubscriber _
    | .lockSubscribers | .closeEach _ | .returned _ | .done => inferInstanceAs (Decidable True))

/-- Calls that do not overlap are in turn, and disturb no reader. -/
lemma each_undisturbed_of_sequential (n k : ℕ) {calls : ℕ → DeliveryCall} {turns : List Turn}
    (h : Run.Each (program cfg).step (Sequential n k) (start calls) turns) :
    Run.Each (program cfg).step (fun p turn => InTurn cfg k p turn ∧ Undisturbed p turn)
      (start calls) turns := by
  refine h.imp (I := fun p => ∀ j ≥ n, (p.task j).Resting) (fun p turn hp hturn => ?_)
    (fun p turn hp hturn => ?_) fun _ _ => trivial
  · cases turn with
    | env e => exact hp
    | task i rd =>
      intro j hj
      rw [Program.task_step_of_ne _ _ (by have := hturn.1; omega)]
      exact hp j hj
  cases turn with
  | env e => exact ⟨trivial, trivial⟩
  | task i rd =>
    obtain ⟨-, hamong, hturn⟩ := hturn
    have hothers : ∀ j, j = i ∨ (p.task j).Resting := fun j =>
      (Nat.lt_or_ge j n).elim (hamong j) fun hge => .inr (hp j hge)
    -- whatever a task does that is neither at rest nor the one that moves, none does
    have hnone : ∀ {Q : DeliveryTask → Prop}, ¬ Q (p.task i) → (∀ t, t.Resting → ¬ Q t) →
        ∀ j, ¬ Q (p.task j) := by
      intro Q hself hresting j
      rcases hothers j with rfl | hj
      · exact hself
      · exact hresting _ hj
    have hbehind : ∀ (x : Delivery) (Q : DeliveryTask → Prop),
        (p.task i).number = x.sample.sequenceNumber →
          NoneBehind k p x.sample.sequenceNumber Q := by
      intro x Q hnumber j hcarries hlt
      rcases hothers j with rfl | hj
      · exact absurd hlt (hnumber ▸ lt_irrefl _)
      · exact absurd hcarries hj.not_carries
    rw [InTurn, Undisturbed]
    cases ht : p.task i with
    | draw k' payload =>
      rw [ht] at hturn
      exact ⟨fun _ => hturn, trivial⟩
    | insertWriter topic qos eid =>
      rw [ht] at hturn
      exact ⟨hturn, trivial⟩
    | publish x =>
      refine ⟨fun _ _ => hbehind x _ (by rw [ht]; rfl), fun j r sub hj => ?_⟩
      exact absurd hj (hnone (Q := (· = .deliverCached r)) (by rw [ht]; rintro ⟨⟩)
        (fun t hrest heq => by rw [heq] at hrest; exact hrest) j)
    | enqueue r left x => exact ⟨fun _ => hbehind x _ (by rw [ht]; rfl), trivial⟩
    | snapshot x =>
      refine ⟨fun _ j r _ => ?_, trivial⟩
      exact hnone (Q := (· = .deliverCached r)) (by rw [ht]; rintro ⟨⟩)
        (fun t hrest heq => by rw [heq] at hrest; exact hrest) j
    | insertReader topic qos opts eid =>
      refine ⟨trivial, fun _ x _ => hnone (by rw [ht]; exact id) fun t hrest hx => ?_⟩
      cases t <;> first | exact hrest | exact hx
    | deliverCached r =>
      rw [ht] at hturn
      refine ⟨fun _ _ _ _ _ j y hj => ?_, fun sub hsub => hturn sub hsub⟩
      exact absurd hj (hnone (Q := (· = .snapshot y)) (by rw [ht]; rintro ⟨⟩)
        (fun t hrest heq => by rw [heq] at hrest; exact hrest) j)
    | _ => exact ⟨trivial, trivial⟩

/-- A write, a reader that joins, and another write. -/
def joinBetweenWrites : ℕ → DeliveryCall
  | 0 => .newPublisher 0 "a" ⟨true, 1, 0⟩
  | 2 => .newSubscriber 0 "a" ⟨true, 1, 0⟩ ⟨0, .dropNewest⟩
  | i => .write 0 [UInt8.ofNat i]

/-- The second write is stored once the reader is in the dispatch table. -/
def storedWhileJoining : List Turn :=
  List.replicate 3 (turn 0) ++ List.replicate 5 (turn 1) ++ List.replicate 3 (turn 2) ++
    List.replicate 3 (turn 3) ++ [turn 2] ++ List.replicate 4 (turn 3)

/-- The reader gets the second sample twice, and the first not at all. -/
theorem not_joinsInOrder :
    ¬ ∀ (cfg : DeliveryConfig) (calls : ℕ → DeliveryCall) (turns : List Turn) (k : ℕ),
      cfg.transport = .rtps → JoinsInOrder cfg calls turns k := by
  intro h
  have hhistory : (((program (.plain .rtps)).run (start joinBetweenWrites)
      storedWhileJoining).shared.subscriptions[0]?).map
        (fun sub => numbers (some 0) sub.history) = some [2, 2] := by
    decide +kernel
  obtain ⟨sub, hsub, hnumbers⟩ := Option.map_eq_some_iff.mp hhistory
  have hrising := (h (.plain .rtps) joinBetweenWrites storedWhileJoining 0 rfl).rising 0 sub hsub
  rw [hnumbers] at hrising
  exact absurd hrising (by decide)

/-- One call after the other. -/
def joinsInTurn : List Turn :=
  List.replicate 3 (turn 0) ++ List.replicate 5 (turn 1) ++ List.replicate 5 (turn 2) ++
    List.replicate 7 (turn 3)

/-- The reader gets both samples. -/
theorem joinsInOrder_inTurn :
    JoinsInOrder (.plain .rtps) joinBetweenWrites joinsInTurn 0 ∧
      (((program (.plain .rtps)).run (start joinBetweenWrites)
        joinsInTurn).shared.subscriptions[0]?).map (fun sub => numbers (some 0) sub.history) =
          some [1, 2] := by
  have hsequential : Run.Each (program (.plain .rtps)).step (Sequential 4 0)
      (start joinBetweenWrites) joinsInTurn := by decide +kernel
  refine ⟨?_, by decide +kernel⟩
  exact joinsInOrder_of_undisturbed rfl joinBetweenWrites joinsInTurn 0
    (each_undisturbed_of_sequential 4 0 hsequential)

end DeliveryState

end RustDds
