import RustDds.Concurrency.Ordering
import RustDds.Shmem.Crossing

/-!
# Samples from another process

The poller of a subscriber reads the rendezvous file of its topic again and again.  It takes what
it reads if the number is above the last one it took, whichever publisher it is from, so what it
hands to the subscriber is in order in any run (`followed_run`).
-/

namespace RustDds

open scoped List

namespace DeliveryTask

/-- The task is the poller of the subscriber. -/
def Polls (r : ℕ) : DeliveryTask → Prop
  | .startPoller r' _ | .poll r' _ | .readFile r' _ | .pushRead r' _ | .enqueueRead r' _ => r' = r
  | _ => False

/-- What a poller has pushed is below this number. -/
def nextSeq : DeliveryTask → ℕ
  | .poll _ lastSeq | .readFile _ lastSeq => lastSeq + 1
  | .pushRead _ x | .enqueueRead _ x => x.sample.sequenceNumber
  | _ => 0

/-- A sample from elsewhere is with a poller only, and no reader is handed the last sample. -/
def Local : DeliveryTask → Prop
  | .insertReader .. | .deliverCached _ => False
  | .pushRead _ x | .enqueueRead _ x => x.publisher = none
  | .publish x | .retain _ x | .snapshot x | .push _ x | .enqueue _ _ x => x.publisher ≠ none
  | _ => True

end DeliveryTask

namespace DeliveryState

variable {cfg : DeliveryConfig} {r : ℕ} {s s' : DeliveryState}
  {p : Pool DeliveryState DeliveryTask}

/-- How a poller goes on from what it makes of the file. -/
def afterRead (s : DeliveryState) (r : ℕ) : ℕ × Option Decoded → DeliveryTask
  | (_, some d) => .pushRead r (s.readSample r d)
  | (lastSeq, none) => .poll r lastSeq

/-- The task of the poller decides as `seedPoller` does, and then as `tickPoller` does. -/
lemma move_startPoller (s : DeliveryState) (rd : Reading) (transientLocal : Bool) :
    s.move cfg rd (.startPoller r transientLocal) =
      (s, s.afterRead r (seedPoller cfg.originId transientLocal rd.file)) := by
  rw [move]
  cases rd.file with
  | none => rfl
  | some d =>
    by_cases h : d.originId ≠ cfg.originId ∧ transientLocal <;> simp [seedPoller, afterRead, h]

lemma move_readFile (s : DeliveryState) (rd : Reading) (lastSeq : ℕ) :
    s.move cfg rd (.readFile r lastSeq) =
      (s, s.afterRead r (tickPoller cfg.originId lastSeq rd.file)) := by
  rw [move]
  cases rd.file with
  | none => rfl
  | some d =>
    by_cases h : d.originId = cfg.originId ∨ d.seq ≤ lastSeq <;> simp [tickPoller, afterRead, h]

/-- All numbers from elsewhere that the subscriber has seen are below `n`. -/
def Seen (s : DeliveryState) (r n : ℕ) : Prop :=
  ∀ sub, s.subscriptions[r]? = some sub → ∀ m ∈ numbers none sub.history, m < n

/-- No sample from elsewhere is in a cache. -/
def Own (s : DeliveryState) : Prop :=
  ∀ topic st, s.topics.lookup topic = some st → numbers none st.cache = []

/-- A step that brings the subscriber no sample from elsewhere. -/
structure Quiet (r : ℕ) (s s' : DeliveryState) : Prop where
  length_le : s.subscriptions.length ≤ s'.subscriptions.length
  own : s'.Own
  seen : ∀ sub', s'.subscriptions[r]? = some sub' →
    numbers none sub'.history = [] ∧ s.subscriptions.length ≤ r ∨
      ∃ sub, s.subscriptions[r]? = some sub ∧
        numbers none sub'.history <+ numbers none sub.history

namespace Quiet

lemma of_eq (hsubscriptions : s'.subscriptions = s.subscriptions) (hown : s'.Own) :
    Quiet r s s' where
  length_le := by rw [hsubscriptions]
  own := hown
  seen sub' hsub' := .inr ⟨sub', by rw [← hsubscriptions]; exact hsub', .refl _⟩

lemma modifySub (hown : s.Own) (r' : ℕ) {f : Subscription → Subscription}
    (hf : r' = r → ∀ sub : Subscription,
      numbers none (f sub).history <+ numbers none sub.history) :
    Quiet r s (s.modifySub r' f) where
  length_le := (List.length_modify ..).ge
  own := hown
  seen sub' hsub' := by
    rw [getElem?_modifySub] at hsub'
    split at hsub'
    · rename_i heq
      obtain ⟨sub, hsub, rfl⟩ := Option.map_eq_some_iff.mp hsub'
      exact .inr ⟨sub, hsub, hf heq sub⟩
    · exact .inr ⟨sub', hsub', .refl _⟩

lemma seen_mono {n n' : ℕ} (h : Quiet r s s') (hs : s.Seen r n) (hr : r < s.subscriptions.length)
    (hle : n ≤ n') : s'.Seen r n' := by
  intro sub' hsub' m hm
  rcases h.seen sub' hsub' with ⟨-, hnew⟩ | ⟨sub, hsub, hunseen⟩
  · exact absurd hr (not_lt.mpr hnew)
  · exact (hs sub hsub m (hunseen.subset hm)).trans_le hle

end Quiet

lemma Own.insert (h : s.Own) (topic : String) {st : TopicState} (hst : numbers none st.cache = []) :
    ∀ topic' st', (s.topics.insert topic st).lookup topic' = some st' →
      numbers none st'.cache = [] := by
  intro topic' st' hst'
  rcases Table.lookup_insert_eq_some.mp hst' with ⟨-, rfl⟩ | ⟨-, hold⟩
  · exact hst
  · exact h topic' st' hold

lemma Own.topicState (h : s.Own) (cfg : DeliveryConfig) (topic : String) (qos : DeliveryQoS) :
    numbers none (s.topicState cfg topic qos).cache = [] := by
  rcases s.topicState_cases cfg topic qos with hst | hnew
  · exact h topic _ hst
  · rw [hnew]
    rfl

lemma Own.adjust (h : s.Own) (topic : String) {f : TopicState → TopicState}
    (hcache : ∀ st, (f st).cache = st.cache) :
    ∀ topic' st', (s.topics.adjust topic f).lookup topic' = some st' →
      numbers none st'.cache = [] := by
  intro topic' st' hst'
  rw [Table.lookup_adjust] at hst'
  split at hst'
  · obtain ⟨st, hst, rfl⟩ := Option.map_eq_some_iff.mp hst'
    rw [hcache]
    exact h topic' st hst
  · exact h topic' st' hst'

/-- What the step of a task leaves, but for that of the poller that enqueues. -/
structure Follows (r : ℕ) (s : DeliveryState) (t : DeliveryTask)
    (moved : DeliveryState × DeliveryTask) : Prop where
  quiet : Quiet r s moved.1
  self : moved.2.Local
  polls : moved.2.Polls r → t.Polls r ∧ t.nextSeq ≤ moved.2.nextSeq ∨
    r = s.subscriptions.length ∧ ∃ sub, moved.1.subscriptions = s.subscriptions ++ [sub] ∧
      numbers none sub.history = []

lemma Follows.of_quiet {t : DeliveryTask} {moved : DeliveryState × DeliveryTask}
    (hquiet : Quiet r s moved.1) (hself : moved.2.Local) (hpolls : ¬ moved.2.Polls r) :
    Follows r s t moved :=
  ⟨hquiet, hself, fun h => absurd h hpolls⟩

lemma numbers_push_of_local {x : Delivery} (hx : x.publisher ≠ none) (sub : Subscription) :
    numbers none (sub.enqueue (addressed cfg x sub)).history <+ numbers none sub.history := by
  have hsub := numbers_sublist none (sub.history_enqueue (addressed cfg x sub))
  have hne : (addressed cfg x sub).publisher ≠ none := by
    rw [addressed]
    split <;> exact hx
  rwa [numbers_append_of_ne hne] at hsub

/-- What the cache of a topic hands to a new subscriber is not from elsewhere. -/
lemma follows_subscribe (hown : s.Own) (topic : String) (qos : DeliveryQoS)
    (opts : SubscriberOptions) {sub : Subscription}
    (hsub : sub = if qos.transientLocal then
        (s.topicState cfg topic qos).cache.foldl Subscription.push (.new topic entityIdUnknown opts)
      else .new topic entityIdUnknown opts) (t : DeliveryTask) {t' : DeliveryTask}
    (ht : t'.Local) (hpolls : t'.Polls r → r = s.subscriptions.length) :
    Follows r s t ({ s with
      subscriptions := s.subscriptions ++ [sub]
      topics := s.topics.insert topic { s.topicState cfg topic qos with
        subscribers :=
          (s.topicState cfg topic qos).subscribers ++ [s.subscriptions.length] } }, t') := by
  have hcache := hown.topicState cfg topic qos
  have hnil : numbers none sub.history = [] := by
    rw [hsub]
    split
    · have hhistory := numbers_sublist none (Subscription.history_foldl_push
        (s.topicState cfg topic qos).cache (.new topic entityIdUnknown opts))
      rw [numbers_append, hcache] at hhistory
      exact List.sublist_nil.mp hhistory
    · rfl
  refine ⟨⟨?_, hown.insert topic hcache, fun sub' hsub' => ?_⟩, ht,
    fun hr => .inr ⟨hpolls hr, _, rfl, hnil⟩⟩
  · rw [List.length_append]
    exact Nat.le_add_right _ _
  · rcases getElem?_concat_eq_some hsub' with hold | ⟨rfl, rfl⟩
    · exact .inr ⟨sub', hold, .refl _⟩
    · exact .inl ⟨hnil, le_rfl⟩

lemma follows_cache (hown : s.Own) {x : Delivery} (hx : x.publisher ≠ none) (qos : DeliveryQoS)
    (left : List ℕ) :
    Follows r s (.publish x) ({ s with
      topics := s.topics.insert x.sample.topic
        (if qos.transientLocal then (s.topicState cfg x.sample.topic qos).pushToCache x
          else s.topicState cfg x.sample.topic qos)
      locked := true }, .retain left x) := by
  refine .of_quiet (.of_eq rfl (hown.insert x.sample.topic ?_)) hx id
  have hcache := hown.topicState cfg x.sample.topic qos
  split
  · have hsub := numbers_sublist none
      (TopicState.cache_pushToCache (s.topicState cfg x.sample.topic qos) x)
    rw [numbers_append_of_ne hx, hcache] at hsub
    exact List.sublist_nil.mp hsub
  · exact hcache

lemma follows_move (hshmem : cfg.transport = .shmem) (hown : s.Own) {t : DeliveryTask}
    (hlocal : t.Local) (hnot : ∀ x, t ≠ .enqueueRead r x) (rd : Reading) :
    Follows r s t (s.move cfg rd t) := by
  have hrefl : Quiet r s s := .of_eq rfl hown
  have hmoves := moves_move cfg rd s t
  generalize s.move cfg rd t = moved at hmoves ⊢
  cases hmoves with
  | waits => exact ⟨hrefl, hlocal, fun hr => .inl ⟨hr, le_rfl⟩⟩
  | unsubscribe r' | closeEach r' =>
    exact .of_quiet (.modifySub hown r' fun _ _ => .refl _) trivial id
  | overflows _ hrtps | newWriter _ _ _ _ hrtps | newReader _ _ _ _ hrtps | publish _ hrtps
  | written _ hrtps | removeReader _ _ _ hrtps => simp [hshmem] at hrtps
  | subscribe topic qos opts sub _ _ _ hsub ht =>
    rw [ht, if_pos hshmem]
    exact follows_subscribe hown topic qos opts hsub _ trivial Eq.symm
  | insertReader | deliverNone | deliverCached => exact hlocal.elim
  | startPoller => exact ⟨hrefl, trivial, fun hr => .inl ⟨hr, Nat.zero_le _⟩⟩
  | readFirst => exact ⟨hrefl, rfl, fun hr => .inl ⟨hr, Nat.zero_le _⟩⟩
  | poll | readNothing => exact ⟨hrefl, trivial, fun hr => .inl ⟨hr, le_rfl⟩⟩
  | readFile _ _ d _ _ hnew => exact ⟨hrefl, rfl, fun hr => .inl ⟨hr, Nat.succ_le_of_lt hnew⟩⟩
  | skipRead => exact ⟨hrefl, trivial, fun hr => .inl ⟨hr, Nat.le_succ _⟩⟩
  | pushRead => exact ⟨hrefl, hlocal, fun hr => .inl ⟨hr, le_rfl⟩⟩
  | enqueueRead r' x =>
    have hne : r' ≠ r := fun heq => hnot x (heq ▸ rfl)
    exact .of_quiet (.modifySub hown r' fun heq => absurd heq hne) trivial hne
  | draw publisher => exact .of_quiet (.of_eq rfl hown) (Option.some_ne_none publisher) id
  | cache x qos => exact follows_cache hown hlocal qos _
  | sweep r' left x =>
    exact .of_quiet (.of_eq rfl (hown.adjust x.sample.topic fun _ => rfl)) hlocal id
  | spare | retain | snapshot | skip | push => exact .of_quiet hrefl hlocal id
  | enqueue r' left x =>
    exact .of_quiet (.modifySub hown r' fun _ => numbers_push_of_local hlocal) hlocal id
  | storeClosed r' _ ht =>
    rw [ht, hshmem]
    exact .of_quiet (.modifySub hown r' fun _ _ => .refl _) trivial id
  | removeSubscriber => exact .of_quiet (.of_eq rfl (hown.adjust _ fun _ => rfl)) trivial id
  | _ => exact .of_quiet (.of_eq rfl hown) trivial id

/-- The subscriber has one poller at most, which is ahead of all that the subscriber has seen. -/
structure Followed (r : ℕ) (p : Pool DeliveryState DeliveryTask) : Prop where
  own : p.shared.Own
  rising : ∀ sub, p.shared.subscriptions[r]? = some sub →
    (numbers none sub.history).Pairwise (· < ·)
  task : ∀ i, (p.task i).Local
  polls : ∀ i, (p.task i).Polls r →
    r < p.shared.subscriptions.length ∧ p.shared.Seen r (p.task i).nextSeq
  sole : ∀ i j, (p.task i).Polls r → (p.task j).Polls r → i = j

lemma Followed.rising_of_quiet (h : Followed r p) (hquiet : Quiet r p.shared s')
    (sub' : Subscription) (hsub' : s'.subscriptions[r]? = some sub') :
    (numbers none sub'.history).Pairwise (· < ·) := by
  rcases hquiet.seen sub' hsub' with ⟨hnil, -⟩ | ⟨sub, hsub, hunseen⟩
  · rw [hnil]
    exact .nil
  · exact (h.rising sub hsub).sublist hunseen

/-- A step of the environment is quiet. -/
lemma Followed.env (h : Followed r p) (hshmem : cfg.transport = .shmem) (e : Surrounding) :
    Followed r ((program cfg).step p (.env e)) := by
  have hquiet : Quiet r p.shared ((program cfg).env e p.shared) := by
    cases e with
    | recv r' =>
      exact .modifySub h.own r' fun _ sub => by rw [sub.history_recv]
    | arrive r' sample =>
      dsimp only [program]
      rw [if_neg (by rw [hshmem]; exact nofun)]
      exact .of_eq rfl h.own
  exact ⟨hquiet.own, h.rising_of_quiet hquiet, h.task, fun i hi =>
    ⟨(h.polls i hi).1.trans_le hquiet.length_le,
      hquiet.seen_mono (h.polls i hi).2 (h.polls i hi).1 le_rfl⟩, h.sole⟩

/-- The poller enqueues a sample it has read. -/
lemma Followed.push (h : Followed r p) {i : ℕ} {x : Delivery} (hx : p.task i = .enqueueRead r x)
    (rd : Reading) : Followed r ((program cfg).step p (.task i rd)) := by
  have hself := (program cfg).task_step_self p i rd
  have hothers : ∀ j ≠ i, ((program cfg).step p (.task i rd)).task j = p.task j :=
    fun j hj => (program cfg).task_step_of_ne p hj rd
  have hmove : (program cfg).move rd p.shared (p.task i) =
      (p.shared.modifySub r fun sub => sub.enqueue x, .poll r x.sample.sequenceNumber) :=
    congrArg (p.shared.move cfg rd) hx
  have hpolls : (p.task i).Polls r := by rw [hx]; rfl
  have hlocal := h.task i
  obtain ⟨hlt, hseen⟩ := h.polls i hpolls
  rw [hx] at hlocal hseen
  have honly : ∀ j, (((program cfg).step p (.task i rd)).task j).Polls r → j = i := by
    intro j hj
    by_contra hji
    rw [hothers j hji] at hj
    exact hji (h.sole j i hj hpolls)
  have hnumbers : ∀ sub', ((program cfg).step p (.task i rd)).shared.subscriptions[r]? =
      some sub' → ∃ sub, p.shared.subscriptions[r]? = some sub ∧
        numbers none sub'.history <+ numbers none sub.history ++ [x.sample.sequenceNumber] := by
    intro sub' hsub'
    rw [Program.shared_step_task, hmove, getElem?_modifySub, if_pos rfl] at hsub'
    obtain ⟨sub, hsub, rfl⟩ := Option.map_eq_some_iff.mp hsub'
    refine ⟨sub, hsub, ?_⟩
    rw [← numbers_singleton hlocal, ← numbers_append]
    exact numbers_sublist _ (sub.history_enqueue x)
  refine ⟨?_, fun sub' hsub' => ?_, fun j => ?_, fun j hj => ?_,
    fun j l hj hl => (honly j hj).trans (honly l hl).symm⟩
  · rw [Program.shared_step_task, hmove]
    exact h.own
  · obtain ⟨sub, hsub, hold⟩ := hnumbers sub' hsub'
    refine List.Pairwise.sublist hold (List.pairwise_append.mpr ⟨h.rising sub hsub,
      List.pairwise_singleton _ _, fun m hm n hn => ?_⟩)
    rw [List.mem_singleton.mp hn]
    exact hseen sub hsub m hm
  · by_cases hji : j = i
    · rw [hji, hself, hmove]
      trivial
    · rw [hothers j hji]
      exact h.task j
  · rw [honly j hj, hself, hmove, Program.shared_step_task, hmove]
    refine ⟨hlt.trans_eq (List.length_modify ..).symm, fun sub' hsub' m hm => ?_⟩
    obtain ⟨sub, hsub, hold⟩ := hnumbers sub' (by
      rw [Program.shared_step_task, hmove]
      exact hsub')
    rcases List.mem_append.mp (hold.subset hm) with hm | hm
    · exact Nat.lt_succ_of_lt (hseen sub hsub m hm)
    · rw [List.mem_singleton.mp hm]
      exact Nat.lt_succ_self _

/-- Any other step of a task is quiet. -/
lemma Followed.move (h : Followed r p) (hshmem : cfg.transport = .shmem) {i : ℕ}
    (hpush : ∀ x, p.task i ≠ .enqueueRead r x) (rd : Reading) :
    Followed r ((program cfg).step p (.task i rd)) := by
  have hself := (program cfg).task_step_self p i rd
  have hothers : ∀ j ≠ i, ((program cfg).step p (.task i rd)).task j = p.task j :=
    fun j hj => (program cfg).task_step_of_ne p hj rd
  obtain ⟨hquiet, hlocal, hpolls⟩ := follows_move (r := r) hshmem h.own (h.task i) hpush rd
  refine ⟨hquiet.own, h.rising_of_quiet hquiet, fun j => ?_, fun j hj => ?_,
    fun j l hj hl => ?_⟩
  · by_cases hji : j = i
    · rw [hji, hself]
      exact hlocal
    · rw [hothers j hji]
      exact h.task j
  · by_cases hji : j = i
    · rw [hji, hself] at hj ⊢
      rcases hpolls hj with ⟨hold, hle⟩ | ⟨hr, sub, hsub, hnil⟩
      · obtain ⟨hlt, hseen⟩ := h.polls i hold
        exact ⟨hlt.trans_le hquiet.length_le, hquiet.seen_mono hseen hlt hle⟩
      · have hlast : (p.shared.subscriptions ++ [sub])[r]? = some sub := by
          rw [hr]
          exact List.getElem?_concat_length ..
        rw [← hsub] at hlast
        refine ⟨(List.getElem?_eq_some_iff.mp hlast).1, fun sub' hsub' m hm => ?_⟩
        rw [Program.shared_step_task] at hsub'
        have hsame : sub' = sub := Option.some.inj (hsub'.symm.trans hlast)
        rw [hsame, hnil] at hm
        exact absurd hm List.not_mem_nil
    · rw [hothers j hji] at hj ⊢
      obtain ⟨hlt, hseen⟩ := h.polls j hj
      exact ⟨hlt.trans_le hquiet.length_le, hquiet.seen_mono hseen hlt le_rfl⟩
  · -- a new poller is for a new subscriber
    have hback : ∀ j, (((program cfg).step p (.task i rd)).task j).Polls r →
        (p.task j).Polls r ∨ j = i ∧ r = p.shared.subscriptions.length := by
      intro j hj
      by_cases hji : j = i
      · rw [hji, hself] at hj
        rw [hji]
        exact (hpolls hj).imp And.left fun hnew => ⟨rfl, hnew.1⟩
      · rw [hothers j hji] at hj
        exact .inl hj
    rcases hback j hj with hold | ⟨rfl, hr⟩ <;> rcases hback l hl with hold' | ⟨rfl, hr'⟩
    · exact h.sole j l hold hold'
    · exact absurd (h.polls j hold).1 (by rw [← hr']; exact lt_irrefl _)
    · exact absurd (h.polls l hold').1 (by rw [← hr]; exact lt_irrefl _)
    · rfl

/-- **The step.** -/
lemma followed_step (hshmem : cfg.transport = .shmem) (h : Followed r p) (turn : Turn) :
    Followed r ((program cfg).step p turn) := by
  cases turn with
  | env e => exact h.env hshmem e
  | task i rd =>
    by_cases hpush : ∃ x, p.task i = .enqueueRead r x
    · obtain ⟨x, hx⟩ := hpush
      exact h.push hx rd
    · exact h.move hshmem (fun x hx => hpush ⟨x, hx⟩) rd

lemma followed_start (r : ℕ) (calls : ℕ → DeliveryCall) : Followed r (start calls) where
  own _ _ h := by cases h
  rising _ h := by cases h
  task _ := trivial
  polls _ h := h.elim
  sole _ _ h := h.elim

lemma followed_run (hshmem : cfg.transport = .shmem) (r : ℕ) (calls : ℕ → DeliveryCall)
    (turns : List Turn) : Followed r ((program cfg).run (start calls) turns) :=
  (program cfg).run_of_step (J := Followed r) (fun _ turn hp => followed_step hshmem hp turn)
    (followed_start r calls) turns

end DeliveryState

end RustDds
