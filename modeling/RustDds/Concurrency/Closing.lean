import RustDds.Concurrency.Moves

/-!
# What closing a participant does

`close` sets a flag, which every `new_publisher` and `new_subscriber` tests first.  The mock and
the UDP participant then close each subscriber on their list.  A publisher has a flag of its own,
which `close` leaves alone.

A subscriber that a call has returned is on the list or closed (`Listed`), and one that is on it
before `close` takes the list is closed when `close` has returned (`Awaited`).  Nothing is said
of a `new_subscriber` that tests the flag before `close` sets it and reaches the list later, nor
of a second `close` that returns while the first one is at work.
-/

namespace RustDds

namespace DeliveryState

variable {cfg : DeliveryConfig} {s s' : DeliveryState} {r : ℕ}

/-- The subscriber is closed. -/
def Shut (s : DeliveryState) (r : ℕ) : Prop :=
  ∃ sub, s.subscriptions[r]? = some sub ∧ sub.closed = true

/-- The publisher is closed. -/
def PublisherShut (s : DeliveryState) (k : ℕ) : Prop :=
  ∃ pub, s.publishers[k]? = some pub ∧ pub.closed = true

lemma isClosed_iff_shut : s.isClosed r = true ↔ s.Shut r := by
  rw [isClosed, Shut]
  cases s.subscriptions[r]? <;> simp

/-- A closed subscriber's `recv` does not wait: it returns what is left, and then `none`. -/
lemma recv_of_closed {sub : Subscription} (h : sub.closed = true) :
    sub.recv.received = sub.received ++ [sub.queue.head?] := by
  unfold Subscription.recv
  split
  · rename_i hqueue
    rw [hqueue]
    rfl
  · rename_i hqueue
    rw [if_pos h, hqueue]
    rfl

lemma mem_listed_of_broker (h : cfg.transport ≠ .rtps) :
    r ∈ s.listed cfg ↔ ∃ topic st, s.topics.lookup topic = some st ∧ r ∈ st.subscribers := by
  rw [listed, if_neg h, List.mem_flatMap]
  constructor
  · rintro ⟨st, hst, hr⟩
    obtain ⟨topic, htopic⟩ := Table.mem_values_iff.mp hst
    exact ⟨topic, st, htopic, hr⟩
  · rintro ⟨topic, st, htopic, hr⟩
    exact ⟨st, Table.mem_values_iff.mpr ⟨topic, htopic⟩, hr⟩

lemma listed_of_rtps (h : cfg.transport = .rtps) : s.listed cfg = s.subscribers := if_pos h

/-- What a step may do: nothing that is closed is opened, a subscriber leaves the lists when it
is closed, and a new one is on them. -/
structure Keeps (cfg : DeliveryConfig) (s s' : DeliveryState) : Prop where
  closed : s.closed ⊆ s'.closed
  publishers : ∀ k, s.PublisherShut k → s'.PublisherShut k
  subscriptions : ∀ r, s.Shut r → s'.Shut r
  length_le : s.subscriptions.length ≤ s'.subscriptions.length
  listed : ∀ r ∈ s.listed cfg, r ∈ s'.listed cfg ∨ s'.Shut r
  subscribers : ∀ r, s'.HasSubscriber cfg r → s.HasSubscriber cfg r ∨ r ∈ s'.listed cfg

/-- A step that touches none of these. -/
lemma Keeps.of_eq (hclosed : s'.closed = s.closed) (hpublishers : s'.publishers = s.publishers)
    (hsubscriptions : s'.subscriptions = s.subscriptions) (htopics : s'.topics = s.topics)
    (hsubscribers : s'.subscribers = s.subscribers) : Keeps cfg s s' where
  closed := hclosed ▸ Finset.Subset.refl _
  publishers k hk := by
    rw [PublisherShut, hpublishers]
    exact hk
  subscriptions r hr := by
    rw [Shut, hsubscriptions]
    exact hr
  length_le := by rw [hsubscriptions]
  listed r hr := by
    rw [DeliveryState.listed, htopics, hsubscribers]
    exact .inl hr
  subscribers r hr := by
    rw [HasSubscriber, hsubscriptions, hsubscribers] at hr
    exact .inl hr

lemma Keeps.refl (cfg : DeliveryConfig) (s : DeliveryState) : Keeps cfg s s :=
  .of_eq rfl rfl rfl rfl rfl

lemma shut_modifySub (r' : ℕ) {f : Subscription → Subscription}
    (hf : ∀ sub, sub.closed = true → (f sub).closed = true) (h : s.Shut r) :
    (s.modifySub r' f).Shut r := by
  obtain ⟨sub, hsub, hclosed⟩ := h
  refine ⟨if r' = r then f sub else sub, ?_, ?_⟩
  · rw [modifySub, List.getElem?_modify, hsub]
    split <;> rfl
  · split
    · exact hf sub hclosed
    · exact hclosed

/-- A step that updates a subscriber. -/
lemma Keeps.modifySub (s : DeliveryState) (r' : ℕ) {f : Subscription → Subscription}
    (hf : ∀ sub, sub.closed = true → (f sub).closed = true) : Keeps cfg s (s.modifySub r' f) where
  closed := Finset.Subset.refl _
  publishers _ hk := hk
  subscriptions _ hr := shut_modifySub r' hf hr
  length_le := by rw [DeliveryState.modifySub, List.length_modify]
  listed _ hr := .inl hr
  subscribers r hr := by
    rw [HasSubscriber, DeliveryState.modifySub, List.length_modify] at hr
    exact .inl hr

lemma closed_push (sub : Subscription) (x : Delivery) : (sub.push x).closed = sub.closed := by
  unfold Subscription.push
  split <;> rfl

lemma closed_recv (sub : Subscription) : sub.recv.closed = sub.closed := by
  unfold Subscription.recv
  split
  · rfl
  · split <;> rfl

lemma publisherShut_append (pub : Publication) {k : ℕ} (h : s.PublisherShut k) :
    ({ s with publishers := s.publishers ++ [pub] } : DeliveryState).PublisherShut k := by
  obtain ⟨pub', hpub, hclosed⟩ := h
  have hlt := (List.getElem?_eq_some_iff.mp hpub).1
  exact ⟨pub', (List.getElem?_append_left hlt).trans hpub, hclosed⟩

lemma publisherShut_modify (counter : ℕ) {f : Publication → Publication}
    (hf : ∀ pub, pub.closed = true → (f pub).closed = true) {k : ℕ} (h : s.PublisherShut k) :
    ({ s with publishers := s.publishers.modify counter f } : DeliveryState).PublisherShut k := by
  obtain ⟨pub, hpub, hclosed⟩ := h
  refine ⟨if counter = k then f pub else pub, ?_, ?_⟩
  · change (s.publishers.modify counter f)[k]? = _
    rw [List.getElem?_modify, hpub]
    split <;> rfl
  · split
    · exact hf pub hclosed
    · exact hclosed

lemma shut_append (sub : Subscription) (h : s.Shut r) :
    ({ s with subscriptions := s.subscriptions ++ [sub] } : DeliveryState).Shut r := by
  obtain ⟨sub', hsub, hclosed⟩ := h
  have hlt := (List.getElem?_eq_some_iff.mp hsub).1
  exact ⟨sub', (List.getElem?_append_left hlt).trans hsub, hclosed⟩

/-- A step that takes a closed subscriber off the list of a topic. -/
lemma Keeps.erase (topic : String) (h : s.Shut r) :
    Keeps cfg s { s with topics := s.topics.adjust topic fun st =>
      { st with subscribers := st.subscribers.erase r } } where
  closed := Finset.Subset.refl _
  publishers _ hk := hk
  subscriptions _ hr := hr
  length_le := le_rfl
  listed r' hr' := by
    by_cases hrtps : cfg.transport = .rtps
    · rw [listed_of_rtps hrtps] at hr' ⊢
      exact .inl hr'
    by_cases heq : r' = r
    · exact .inr (heq ▸ h)
    obtain ⟨topic', st, hst, hmem⟩ := (mem_listed_of_broker hrtps).mp hr'
    refine .inl ((mem_listed_of_broker hrtps).mpr ?_)
    by_cases htopic : topic' = topic
    · subst htopic
      exact ⟨topic', _, by rw [Table.lookup_adjust_self, hst]; rfl,
        (List.mem_erase_of_ne heq).mpr hmem⟩
    · exact ⟨topic', st, by rw [Table.lookup_adjust_of_ne htopic, hst], hmem⟩
  subscribers _ hr := .inl hr

/-- A step that replaces a topic by one with all its subscribers. -/
lemma Keeps.insertTopic (cfg : DeliveryConfig) (s : DeliveryState) (topic : String)
    (qos : DeliveryQoS) (st : TopicState)
    (hst : ∀ r ∈ (s.topicState cfg topic qos).subscribers, r ∈ st.subscribers) :
    Keeps cfg s { s with topics := s.topics.insert topic st } where
  closed := Finset.Subset.refl _
  publishers _ hk := hk
  subscriptions _ hr := hr
  length_le := le_rfl
  listed r hr := by
    by_cases hrtps : cfg.transport = .rtps
    · rw [listed_of_rtps hrtps] at hr ⊢
      exact .inl hr
    obtain ⟨topic', st', hst', hmem⟩ := (mem_listed_of_broker hrtps).mp hr
    refine .inl ((mem_listed_of_broker hrtps).mpr ?_)
    by_cases htopic : topic' = topic
    · subst htopic
      refine ⟨topic', st, AList.lookup_insert .., hst r ?_⟩
      rw [topicState, hst']
      exact hmem
    · exact ⟨topic', st', (AList.lookup_insert_ne htopic).trans hst', hmem⟩
  subscribers _ hr := .inl hr

end DeliveryState

/-- A subscriber that is to be taken off a list is closed; readers are those of the UDP
participant. -/
def DeliveryTask.Honest (cfg : DeliveryConfig) (s : DeliveryState) : DeliveryTask → Prop
  | .storeClosed r => r < s.subscriptions.length
  | .removeSubscriber r => s.Shut r
  | .insertReader .. => cfg.transport = .rtps
  | _ => True

namespace DeliveryState

variable {cfg : DeliveryConfig} {s s' : DeliveryState} {r : ℕ}

/-- With a broker, a new subscriber is on the list of its topic. -/
lemma Keeps.subscribe (hbroker : cfg.transport ≠ .rtps) (s : DeliveryState) (topic : String)
    (qos : DeliveryQoS) (sub : Subscription) : Keeps cfg s { s with
      subscriptions := s.subscriptions ++ [sub]
      topics := s.topics.insert topic { s.topicState cfg topic qos with
        subscribers :=
          (s.topicState cfg topic qos).subscribers ++ [s.subscriptions.length] } } := by
  have htopic := Keeps.insertTopic cfg s topic qos { s.topicState cfg topic qos with
      subscribers := (s.topicState cfg topic qos).subscribers ++ [s.subscriptions.length] }
    fun _ hr => List.mem_append_left _ hr
  refine ⟨htopic.closed, htopic.publishers, fun _ hr => shut_append sub hr, ?_, ?_, ?_⟩
  · rw [List.length_append]
    exact Nat.le_add_right _ _
  · exact fun r hr => (htopic.listed r hr).imp id fun hshut => shut_append sub hshut
  · rintro r ⟨hlt, -⟩
    rw [List.length_append, List.length_singleton] at hlt
    rcases Nat.lt_succ_iff_lt_or_eq.mp hlt with hold | rfl
    · exact .inl ⟨hold, fun h => absurd h hbroker⟩
    · refine .inr ((mem_listed_of_broker hbroker).mpr ⟨topic, _, AList.lookup_insert .., ?_⟩)
      exact List.mem_append_right _ (List.mem_singleton_self _)

/-- A step that adds to the list of those the UDP participant will close. -/
lemma Keeps.enlist (cfg : DeliveryConfig) (s : DeliveryState) (r : ℕ) :
    Keeps cfg s { s with subscribers := s.subscribers ++ [r] } := by
  refine ⟨Finset.Subset.refl _, fun _ hk => hk, fun _ hr => hr, le_rfl, fun r' hr => ?_,
    fun r' hr => ?_⟩
  · by_cases hrtps : cfg.transport = .rtps
    · rw [listed_of_rtps hrtps] at hr ⊢
      exact .inl (List.mem_append_left _ hr)
    · rw [mem_listed_of_broker hrtps] at hr ⊢
      exact .inl hr
  · by_cases hrtps : cfg.transport = .rtps
    · rw [listed_of_rtps hrtps]
      exact .inr (hr.2 hrtps)
    · exact .inl ⟨hr.1, fun h => absurd h hrtps⟩

/-- **The step.** -/
lemma keeps_move (rd : Reading) {t : DeliveryTask} (h : t.Honest cfg s) :
    Keeps cfg s (s.move cfg rd t).1 := by
  have hmoves := moves_move cfg rd s t
  generalize s.move cfg rd t = moved at hmoves ⊢
  cases hmoves with
  | closePublisher k =>
    exact { Keeps.refl cfg s with
      publishers := fun _ hk => publisherShut_modify k (fun _ _ => rfl) hk }
  | unsubscribe r | enqueueRead r | enqueue r => exact .modifySub s r fun _ hclosed => hclosed
  | setFlag | close => exact { Keeps.refl cfg s with closed := Finset.subset_insert _ _ }
  | createPublisher | insertWriter =>
    exact { Keeps.refl cfg s with publishers := fun _ hk => publisherShut_append _ hk }
  | overflows | newWriter | newReader | publish | unlock | removeReader | lockSubscribers
  | closedEach => exact .of_eq rfl rfl rfl rfl rfl
  | subscribe topic qos opts sub _ hbroker => exact .subscribe hbroker s topic qos sub
  | insertReader =>
    refine ⟨Finset.Subset.refl _, fun _ hk => hk, fun _ hr => shut_append _ hr, ?_,
      fun _ hr => .inl hr, fun r hr => .inr ?_⟩
    · dsimp only
      rw [List.length_append]
      exact Nat.le_add_right _ _
    · rw [listed_of_rtps h]
      exact hr.2 h
  | deliverCached r => exact .modifySub s r fun sub hsub => (closed_push sub _).trans hsub
  | enlist r => exact .enlist cfg s r
  | drawOverflows | draw =>
    exact { Keeps.refl cfg s with
      publishers := fun _ hk =>
        publisherShut_modify _ (f := fun pub => { pub with seq := pub.seq + 1 }) (fun _ h => h) hk }
  | cache x qos =>
    obtain ⟨hclosed, hpublishers, hsubscriptions, hlength, hlisted, hsubscribers⟩ :=
      Keeps.insertTopic cfg s x.sample.topic qos
        (if qos.transientLocal then (s.topicState cfg x.sample.topic qos).pushToCache x
          else s.topicState cfg x.sample.topic qos) fun r hr => by
            split
            · rw [TopicState.pushToCache]
              split <;> exact hr
            · exact hr
    exact ⟨hclosed, hpublishers, hsubscriptions, hlength, hlisted, hsubscribers⟩
  | sweep r left x hclosed => exact .erase _ (isClosed_iff_shut.mp hclosed)
  | storeClosed r | closeEach r => exact .modifySub s r fun _ _ => rfl
  | removeSubscriber => exact .erase _ h
  | _ => exact .refl cfg s

lemma Keeps.honest (h : Keeps cfg s s') {t : DeliveryTask} (ht : t.Honest cfg s) :
    t.Honest cfg s' := by
  cases t with
  | storeClosed r => exact lt_of_lt_of_le ht h.length_le
  | removeSubscriber r => exact h.subscriptions r ht
  | insertReader => exact ht
  | _ => trivial

lemma shut_storeClosed (h : r < s.subscriptions.length) :
    (s.modifySub r fun sub => { sub with closed := true }).Shut r := by
  refine ⟨{ s.subscriptions[r] with closed := true }, ?_, rfl⟩
  rw [modifySub, List.getElem?_modify, List.getElem?_eq_getElem h]
  simp

lemma honest_move (rd : Reading) {t : DeliveryTask} (h : t.Honest cfg s) :
    (s.move cfg rd t).2.Honest cfg (s.move cfg rd t).1 := by
  have hmoves := moves_move cfg rd s t
  generalize s.move cfg rd t = moved at hmoves ⊢
  cases hmoves with
  | waits => exact h
  | closeSubscriber r hr => exact hr.1
  | unsubscribe r hr =>
    change r < (s.subscriptions.modify r _).length
    rw [List.length_modify]
    exact hr.1
  | newReader _ _ _ _ hrtps => exact hrtps
  | subscribe _ _ _ _ _ _ _ _ ht | insertReader _ _ _ _ _ ht =>
    rw [ht]
    dsimp only
    split <;> trivial
  | storeClosed r _ ht =>
    rw [ht]
    split
    · trivial
    · exact shut_storeClosed h
  | _ => trivial

/-! ## Runs -/

variable {p : Pool DeliveryState DeliveryTask}

lemma keeps_env (cfg : DeliveryConfig) (s : DeliveryState) (e : Surrounding) :
    Keeps cfg s ((program cfg).env e s) := by
  cases e with
  | recv r => exact .modifySub s r fun sub h => (closed_recv sub).trans h
  | arrive r sample =>
    dsimp only [program]
    split
    · exact .modifySub s r fun sub h => (closed_push sub _).trans h
    · exact .refl cfg s

/-- The step of a pool. -/
lemma keeps_step (h : ∀ i, (p.task i).Honest cfg p.shared) (turn : Turn) :
    Keeps cfg p.shared ((program cfg).step p turn).shared ∧
      ∀ i, (((program cfg).step p turn).task i).Honest cfg ((program cfg).step p turn).shared := by
  cases turn with
  | env e =>
    have hkeeps := keeps_env cfg p.shared e
    exact ⟨hkeeps, fun i => hkeeps.honest (h i)⟩
  | task i rd =>
    have hkeeps : Keeps cfg p.shared (p.shared.move cfg rd (p.task i)).1 := keeps_move rd (h i)
    refine ⟨hkeeps, fun j => ?_⟩
    by_cases hj : j = i
    · subst hj
      rw [Program.task_step_self]
      exact honest_move rd (h j)
    · rw [Program.task_step_of_ne _ _ hj]
      exact hkeeps.honest (h j)

lemma honest_run (h : ∀ i, (p.task i).Honest cfg p.shared) (turns : List Turn) (i : ℕ) :
    (((program cfg).run p turns).task i).Honest cfg ((program cfg).run p turns).shared :=
  (program cfg).run_of_step (J := fun q => ∀ i, (q.task i).Honest cfg q.shared)
    (fun _ turn hq => (keeps_step hq turn).2) h turns i

/-- The call has not begun, or it has returned `Error::Closed`, and it changes nothing. -/
def FailsClosed (cfg : DeliveryConfig) (q : Pool DeliveryState DeliveryTask) (j : ℕ)
    (c : DeliveryCall) : Prop :=
  (q.task j = .call c ∨ q.task j = .returned (.error .closed)) ∧
    ∀ rd, ((program cfg).step q (.task j rd)).shared = q.shared

/-- A call that fails as long as something holds which no step ends. -/
lemma failsClosed_of_stable {S : DeliveryState → Prop} {c : DeliveryCall}
    (hstable : ∀ s s', Keeps cfg s s' → S s → S s')
    (henter : ∀ s, S s → s.enter cfg c = (s, .returned (.error .closed)))
    (hhonest : ∀ i, (p.task i).Honest cfg p.shared) (hS : S p.shared) {j : ℕ}
    (hj : p.task j = .call c) (turns : List Turn) :
    FailsClosed cfg ((program cfg).run p turns) j c := by
  have hstep : ∀ (q : Pool DeliveryState DeliveryTask) (rd : Reading), S q.shared →
      q.task j = .call c ∨ q.task j = .returned (.error .closed) →
        (program cfg).move rd q.shared (q.task j) = (q.shared, .returned (.error .closed)) := by
    rintro q rd hq (hcall | hreturned)
    · rw [hcall]
      exact henter q.shared hq
    · rw [hreturned]
      rfl
  have hrun := (program cfg).run_of_step
    (J := fun q => (∀ i, (q.task i).Honest cfg q.shared) ∧ S q.shared ∧
      (q.task j = .call c ∨ q.task j = .returned (.error .closed)))
    (fun q turn ⟨hq, hSq, hcq⟩ => by
      obtain ⟨hkeeps, hhonest⟩ := keeps_step hq turn
      refine ⟨hhonest, hstable _ _ hkeeps hSq, ?_⟩
      cases turn with
      | env e => exact hcq
      | task i rd =>
        by_cases hi : j = i
        · subst hi
          rw [Program.task_step_self, hstep q rd hSq hcq]
          exact .inr rfl
        · rw [Program.task_step_of_ne _ _ hi]
          exact hcq)
    ⟨hhonest, hS, .inl hj⟩ turns
  refine ⟨hrun.2.2, fun rd => ?_⟩
  rw [Program.shared_step_task, hstep _ rd hrun.2.1 hrun.2.2]

lemma honest_start (cfg : DeliveryConfig) (calls : ℕ → DeliveryCall) (i : ℕ) :
    ((start calls).task i).Honest cfg (start calls).shared := trivial

/-- A `close` that has begun has set the flag. -/
lemma mem_closed_of_begun {calls : ℕ → DeliveryCall} {i who : ℕ} (hclose : calls i = .close who)
    (turns : List Turn) :
    ((program cfg).run (start calls) turns).task i = .call (.close who) ∨
      cfg.owner who ∈ ((program cfg).run (start calls) turns).shared.closed := by
  have hrun := (program cfg).run_of_step
    (J := fun q => (∀ i, (q.task i).Honest cfg q.shared) ∧
      (q.task i = .call (.close who) ∨ cfg.owner who ∈ q.shared.closed))
    (fun q turn ⟨hq, hcq⟩ => by
      obtain ⟨hkeeps, hhonest⟩ := keeps_step hq turn
      refine ⟨hhonest, ?_⟩
      rcases hcq with hcall | hmem
      · cases turn with
        | env e => exact .inl hcall
        | task j rd =>
          by_cases hj : i = j
          · subst hj
            refine .inr ?_
            have hmove : (program cfg).move rd q.shared (q.task i) =
                q.shared.enter cfg (.close who) :=
              congrArg (q.shared.move cfg rd) hcall
            rw [Program.shared_step_task, hmove, enter]
            split
            · exact Finset.mem_insert_self _ _
            all_goals
              split
              · rename_i hmem
                exact hmem
              · exact Finset.mem_insert_self _ _
          · rw [Program.task_step_of_ne _ _ hj]
            exact .inl hcall
      · exact .inr (hkeeps.closed hmem))
    (p := start calls) ⟨honest_start cfg calls, .inl (congrArg DeliveryTask.call hclose)⟩ turns
  exact hrun.2

/-- A subscriber that was returned is closed, or it is on the lists. -/
lemma shut_or_listed (cfg : DeliveryConfig) (calls : ℕ → DeliveryCall) (turns : List Turn) :
    let q := (program cfg).run (start calls) turns
    ∀ r, q.shared.HasSubscriber cfg r → q.shared.Shut r ∨ r ∈ q.shared.listed cfg := by
  have hrun := (program cfg).run_of_step
    (J := fun q => (∀ i, (q.task i).Honest cfg q.shared) ∧
      ∀ r, q.shared.HasSubscriber cfg r → q.shared.Shut r ∨ r ∈ q.shared.listed cfg)
    (fun q turn ⟨hq, hlisted⟩ => by
      obtain ⟨hkeeps, hhonest⟩ := keeps_step hq turn
      refine ⟨hhonest, fun r hr => ?_⟩
      rcases hkeeps.subscribers r hr with hold | hnew
      · rcases hlisted r hold with hshut | hmem
        · exact .inl (hkeeps.subscriptions r hshut)
        · exact (hkeeps.listed r hmem).symm
      · exact .inr hnew)
    (p := start calls) ⟨honest_start cfg calls, fun _ hr => absurd hr.1 (Nat.not_lt_zero _)⟩ turns
  exact hrun.2

/-- No `close` of the participant has taken the lists of subscribers yet. -/
def Unwalked (cfg : DeliveryConfig) (who : ℕ) (p : Pool DeliveryState DeliveryTask) : Prop :=
  cfg.owner who ∉ p.shared.closed ∨ ∃ j, p.task j = .lockSubscribers

/-- The task is a `close` at work on them. -/
def Walks : DeliveryTask → Prop
  | .lockSubscribers => True
  | .closeEach _ => True
  | _ => False

/-- The subscriber is closed, or it will be. -/
def Awaited (cfg : DeliveryConfig) (who r : ℕ) (p : Pool DeliveryState DeliveryTask) : Prop :=
  p.shared.Shut r ∨ (r ∈ p.shared.listed cfg ∧ Unwalked cfg who p) ∨
    ∃ j left, p.task j = .closeEach left ∧ r ∈ left

/-- Only the first step of a call sets the flag. -/
lemma closed_move (rd : Reading) {t : DeliveryTask} (h : ∀ c, t ≠ .call c) :
    (s.move cfg rd t).1.closed = s.closed := by
  have hmoves := moves_move cfg rd s t
  generalize s.move cfg rd t = moved at hmoves ⊢
  cases hmoves with
  | setFlag | close => exact absurd rfl (h _)
  | _ => rfl

/-- A call that sets the flag goes on to the lists. -/
lemma enter_sets (htransport : cfg.transport ≠ .shmem) (c : DeliveryCall) {who : ℕ}
    (h : who ∉ s.closed) :
    who ∉ (s.enter cfg c).1.closed ∨ (s.enter cfg c).2 = .lockSubscribers := by
  have hmoves : Moves cfg ⟨0, none⟩ s (.call c) (s.enter cfg c) := moves_enter c
  generalize s.enter cfg c = moved at hmoves ⊢
  cases hmoves with
  | setFlag who' hshmem => exact absurd hshmem htransport
  | close => exact .inr rfl
  | _ => exact .inl h

/-- **The step.** -/
lemma awaited_step (htransport : cfg.transport ≠ .shmem) {who : ℕ}
    (hhonest : ∀ i, (p.task i).Honest cfg p.shared) (hlt : r < p.shared.subscriptions.length)
    (h : Awaited cfg who r p) (turn : Turn) : Awaited cfg who r ((program cfg).step p turn) := by
  obtain ⟨hkeeps, -⟩ := keeps_step hhonest turn
  rcases h with hshut | ⟨hlisted, hunwalked⟩ | ⟨j, left, hj, hr⟩
  · exact .inl (hkeeps.subscriptions r hshut)
  · rcases hkeeps.listed r hlisted with hlisted' | hshut
    swap
    · exact .inl hshut
    cases turn with
    | env e =>
      refine .inr (.inl ⟨hlisted', hunwalked.imp_left fun hflag => ?_⟩)
      cases e with
      | recv => exact hflag
      | arrive =>
        dsimp only [program, Program.step_env]
        split <;> exact hflag
    | task i rd =>
      rcases hunwalked with hflag | ⟨j, hj⟩
      · -- a close that sets the flag is next to take the lists
        refine .inr (.inl ⟨hlisted', ?_⟩)
        have hcases : cfg.owner who ∉ (p.shared.move cfg rd (p.task i)).1.closed ∨
            (p.shared.move cfg rd (p.task i)).2 = .lockSubscribers := by
          by_cases hcall : ∃ c, p.task i = .call c
          · obtain ⟨c, hc⟩ := hcall
            rw [hc]
            exact enter_sets htransport c hflag
          · rw [closed_move rd fun c hc => hcall ⟨c, hc⟩]
            exact .inl hflag
        exact hcases.imp id fun hlock => ⟨i, ((program cfg).task_step_self p i rd).trans hlock⟩
      · by_cases hji : j = i
        · subst hji
          have hmove : (program cfg).move rd p.shared (p.task j) =
              p.shared.move cfg rd .lockSubscribers := congrArg (p.shared.move cfg rd) hj
          by_cases hlocked : p.shared.locked = true
          · refine .inr (.inl ⟨hlisted', .inr ⟨j, ?_⟩⟩)
            rw [Program.task_step_self, hmove, move, if_pos hlocked]
          · refine .inr (.inr ⟨j, p.shared.listed cfg, ?_, hlisted⟩)
            rw [Program.task_step_self, hmove, move, if_neg hlocked]
        · refine .inr (.inl ⟨hlisted', .inr ⟨j, ?_⟩⟩)
          rw [Program.task_step_of_ne _ _ hji, hj]
  · cases turn with
    | env e => exact .inr (.inr ⟨j, left, hj, hr⟩)
    | task i rd =>
      by_cases hji : j = i
      swap
      · exact .inr (.inr ⟨j, left, by rw [Program.task_step_of_ne _ _ hji, hj], hr⟩)
      subst hji
      have hmove : (program cfg).move rd p.shared (p.task j) =
          p.shared.move cfg rd (.closeEach left) := congrArg (p.shared.move cfg rd) hj
      cases left with
      | nil => cases hr
      | cons r' left =>
        rcases List.mem_cons.mp hr with rfl | hrest
        · refine .inl ?_
          rw [Program.shared_step_task, hmove]
          exact shut_storeClosed hlt
        · refine .inr (.inr ⟨j, left, ?_, hrest⟩)
          rw [Program.task_step_self, hmove]
          rfl

/-- Where no close is at work on the lists any more, those awaited are closed. -/
lemma Awaited.shut {who : ℕ} (h : Awaited cfg who r p) (hflag : cfg.owner who ∈ p.shared.closed)
    (hquiet : ∀ j, ¬ Walks (p.task j)) : p.shared.Shut r := by
  rcases h with hshut | ⟨-, hnot | ⟨j, hj⟩⟩ | ⟨j, left, hj, -⟩
  · exact hshut
  · exact absurd hflag hnot
  · exact (hquiet j (by rw [hj]; trivial)).elim
  · exact (hquiet j (by rw [hj]; trivial)).elim

/-- **What `close` promises.**  Once a `close` of a participant has returned, whatever follows:
a write on a publisher that is closed itself returns `Error::Closed` and enqueues nothing; a
`new_publisher` or `new_subscriber` of that participant that has not begun returns
`Error::Closed`; and, but for the shared-memory participants, a subscriber that was returned
before `close` took the lists is closed, provided that no other `close` is still at work on them:
each `recv` returns what is left in its queue, and then `none`. -/
theorem closed_of_returned (cfg : DeliveryConfig) (calls : ℕ → DeliveryCall) (turns : List Turn)
    (i who : ℕ) (hclose : calls i = .close who)
    (hreturned : ((program cfg).run (start calls) turns).task i = .returned (.ok ()))
    (turns' : List Turn) :
    let p := (program cfg).run (start calls) turns
    let q := (program cfg).run p turns'
    (∀ j k payload, p.task j = .call (.write k payload) → p.shared.PublisherShut k →
      FailsClosed cfg q j (.write k payload)) ∧
    (∀ j who' topic qos, p.task j = .call (.newPublisher who' topic qos) →
      cfg.owner who' = cfg.owner who → FailsClosed cfg q j (.newPublisher who' topic qos)) ∧
    (∀ j who' topic qos opts, p.task j = .call (.newSubscriber who' topic qos opts) →
      cfg.owner who' = cfg.owner who → FailsClosed cfg q j (.newSubscriber who' topic qos opts)) ∧
    (cfg.transport ≠ .shmem → ∀ before after, turns = before ++ after →
      let o := (program cfg).run (start calls) before
      Unwalked cfg who o → (∀ j, ¬ Walks (p.task j)) → ∀ r, o.shared.HasSubscriber cfg r →
        ∃ sub, q.shared.subscriptions[r]? = some sub ∧ sub.closed = true ∧
          sub.recv.received = sub.received ++ [sub.queue.head?]) := by
  intro p q
  have hhonest : ∀ i, (p.task i).Honest cfg p.shared := honest_run (honest_start cfg calls) turns
  have hflag : cfg.owner who ∈ p.shared.closed :=
    (mem_closed_of_begun hclose turns).resolve_left fun hcall => by
      rw [hreturned] at hcall
      cases hcall
  refine ⟨fun j k payload hj hk => ?_, fun j who' topic qos hj howner => ?_,
    fun j who' topic qos opts hj howner => ?_, ?_⟩
  · refine failsClosed_of_stable (S := fun s => s.PublisherShut k)
      (fun _ _ hkeeps hk => hkeeps.publishers k hk) (fun s hs => ?_) hhonest hk hj turns'
    obtain ⟨pub, hpub, hclosed⟩ := hs
    rw [enter, hpub]
    exact if_pos hclosed
  · refine failsClosed_of_stable (S := fun s => cfg.owner who ∈ s.closed)
      (fun _ _ hkeeps hmem => hkeeps.closed hmem) (fun s hs => ?_) hhonest hflag hj turns'
    rw [enter, howner, if_pos hs]
  · refine failsClosed_of_stable (S := fun s => cfg.owner who ∈ s.closed)
      (fun _ _ hkeeps hmem => hkeeps.closed hmem) (fun s hs => ?_) hhonest hflag hj turns'
    rw [enter, howner, if_pos hs]
  · rintro htransport before after rfl o hunwalked hquiet r hr
    have hawaited : Awaited cfg who r o :=
      (shut_or_listed cfg calls before r hr).imp id fun hlisted => .inl ⟨hlisted, hunwalked⟩
    have hrun := (program cfg).run_of_step
      (J := fun p => (∀ i, (p.task i).Honest cfg p.shared) ∧ r < p.shared.subscriptions.length ∧
        Awaited cfg who r p)
      (fun p turn hinv => by
        obtain ⟨hp, hlt, hr⟩ := hinv
        obtain ⟨hkeeps, hhonest⟩ := keeps_step hp turn
        exact ⟨hhonest, hlt.trans_le hkeeps.length_le, awaited_step htransport hp hlt hr turn⟩)
      ⟨honest_run (honest_start cfg calls) before, hr.1, hawaited⟩ after
    rw [← Program.run_append] at hrun
    have hshut : p.shared.Shut r := hrun.2.2.shut hflag hquiet
    have hlater := (program cfg).run_of_step
      (J := fun p => (∀ i, (p.task i).Honest cfg p.shared) ∧ p.shared.Shut r)
      (fun p turn hinv => by
        obtain ⟨hp, hr⟩ := hinv
        obtain ⟨hkeeps, hhonest⟩ := keeps_step hp turn
        exact ⟨hhonest, hkeeps.subscriptions r hr⟩)
      ⟨hhonest, hshut⟩ turns'
    obtain ⟨sub, hsub, hclosed⟩ := hlater.2
    exact ⟨sub, hsub, hclosed, recv_of_closed hclosed⟩

/-! ### Two runs -/

/-- A subscriber is created, and the participant closed. -/
def subscribeAndClose : ℕ → DeliveryCall
  | 0 => .newSubscriber 0 "a" .default ⟨0, .dropNewest⟩
  | 1 => .close 0
  | _ => .newPublisher 0 "a" .default

/-- The subscriber of a UDP participant is returned, then the participant is closed. -/
theorem closed_of_returned_rtps :
    ∃ sub, ((program (.plain .rtps)).run (start subscribeAndClose)
        (List.replicate 4 (turn 0) ++ List.replicate 4 (turn 1))).shared.subscriptions[0]? =
      some sub ∧ sub.closed = true ∧ sub.recv.received = sub.received ++ [sub.queue.head?] := by
  obtain ⟨-, -, -, hshut⟩ := closed_of_returned (.plain .rtps) subscribeAndClose
    (List.replicate 4 (turn 0) ++ List.replicate 4 (turn 1)) 1 0 rfl (by decide +kernel) []
  refine hshut (by decide) _ _ rfl (.inl (by decide +kernel)) (fun j => ?_) 0 (by decide +kernel)
  have htask : ((program (.plain .rtps)).run (start subscribeAndClose)
      (List.replicate 4 (turn 0) ++ List.replicate 4 (turn 1))).task j =
        if j ≤ 1 then .returned (.ok ()) else .call (.newPublisher 0 "a" .default) := by
    match j with
    | 0 => decide +kernel
    | 1 => decide +kernel
    | j + 2 => exact Program.task_run_of_notMem _ fun _ => by simp [turn]
  rw [htask]
  split <;> exact id

/-- A publisher is created, the participant closed, and the publisher used. -/
def closeAndWrite : ℕ → DeliveryCall
  | 0 => .newPublisher 0 "a" .default
  | 1 => .close 0
  | _ => .write 0 [1]

/-- The write that follows the close goes through. -/
theorem exists_write_of_closed :
    ¬ ∀ (cfg : DeliveryConfig) (calls : ℕ → DeliveryCall) (who : ℕ), (∀ j, (calls j).On who) →
      ∀ (turns : List Turn) (i : ℕ), calls i = .close who →
        ((program cfg).run (start calls) turns).task i = .returned (.ok ()) →
      ∀ turns' : List Turn,
        let p := (program cfg).run (start calls) turns
        let q := (program cfg).run p turns'
        (∀ j k payload, p.task j = .call (.write k payload) →
          FailsClosed cfg q j (.write k payload)) ∧
        (∀ j topic qos, p.task j = .call (.newPublisher who topic qos) →
          FailsClosed cfg q j (.newPublisher who topic qos)) ∧
        (∀ j topic qos opts, p.task j = .call (.newSubscriber who topic qos opts) →
          FailsClosed cfg q j (.newSubscriber who topic qos opts)) ∧
        ∀ r, q.shared.HasSubscriber cfg r → q.shared.Shut r := by
  intro h
  obtain ⟨hwrite, -⟩ := h (.plain .mock) closeAndWrite 0
    (by rintro (_ | _ | j) <;> first | rfl | trivial)
    (List.replicate 2 (turn 0) ++ List.replicate 3 (turn 1)) 1 rfl (by decide +kernel) [turn 2]
  obtain ⟨hcall | hreturned, -⟩ := hwrite 2 0 [1] (by decide +kernel)
  · exact absurd hcall (by decide +kernel)
  · exact absurd hreturned (by decide +kernel)

end DeliveryState

end RustDds
