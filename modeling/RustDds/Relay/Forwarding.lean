import RustDds.Relay.Node

/-!
# What a relay subscriber is delivered

A message that was sent is in the queue of the subscriber, held by the forwarding task, in the
channel, or delivered, and in this order the four make up all that was sent, as long as no step
loses a message (`Conserved`).  A step loses one when a sample comes to a queue that is full or
closed, when the task of `DropNewest` comes to a full channel, when the backlog of `DropOldest` is
full, and when the task of `DropOldest` learns that the queue is closed while it has a backlog.
-/

namespace RustDds

open scoped List

namespace Forwarder

/-- The task belongs to the policy. -/
def Suits (policy : BackPressurePolicy) : Forwarder → Prop
  | .receiving | .sending _ => policy ≠ .dropOldest
  | .relaying _ => policy = .dropOldest
  | .done => True

end Forwarder

namespace DdsNode

variable {cfg : DeliveryConfig} {s : DdsNode}

/-- Where the messages are that were sent. -/
structure Conserved (s : DdsNode) (sent : List RelayMessage) : Prop where
  suits : s.forwarder.Suits s.inner.policy
  flow : s.dropped = false → s.delivered.reduceOption ++ s.channel ++ s.forwarder.held ++
    s.inner.queue.map Sample.toMessage = sent
  finished : s.dropped = false → s.forwarder = .done →
    s.inner.closed = true ∧ s.inner.queue = []
  ended : none ∈ s.delivered → s.inner.closed = true ∧ s.delivered.reduceOption = sent
  order : s.delivered.reduceOption <+: sent

/-- The queue takes the next sample. -/
def Room (s : DdsNode) : Prop :=
  s.inner.unsubscribed = false ∧ s.inner.closed = false ∧
    s.inner.queue.length < s.inner.capacity

/-- The step of the forwarding task does not overflow the channel, nor the backlog. -/
def Fits (s : DdsNode) (handoff : Bool) : Prop :=
  s.inner.queue ≠ [] →
    match s.forwarder with
    | .receiving => s.inner.policy = .dropNewest → s.channel.length < s.channelCapacity
    | .relaying backlog => handoff = false → backlog.length < max s.inner.capacity 1
    | _ => True

/-- The task does not learn that the queue is closed while it has a backlog. -/
def Empties (s : DdsNode) (handoff : Bool) : Prop :=
  s.inner.queue = [] → s.inner.closed = true → handoff = false →
    match s.forwarder with
    | .relaying backlog => backlog = []
    | _ => True

lemma push_of_room (h : s.Room) (x : Sample) :
    (s.inner.push x).2 = { s.inner with queue := s.inner.queue ++ [x] } := by
  obtain ⟨hunsubscribed, hclosed, hroom⟩ := h
  have hfull : ¬ s.inner.queue.length ≥ s.inner.capacity := by omega
  rw [SubInner.push, hunsubscribed, hclosed]
  cases hpolicy : s.inner.policy <;> simp [hfull, hpolicy, hclosed, hunsubscribed]

lemma Conserved.publish {sent : List RelayMessage} (h : s.Conserved sent) (hroom : s.Room)
    (x : Sample) :
    Conserved { s with inner := (s.inner.push x).2 } (sent ++ [x.toMessage]) := by
  have hopen := hroom.2.1
  rw [push_of_room hroom]
  refine ⟨h.suits, fun hkept => ?_, fun hkept hdone => ?_, fun hnone => ?_, ?_⟩
  · rw [← h.flow hkept]
    simp
  · exact absurd (h.finished hkept hdone).1 (by simp [hopen])
  · exact absurd (h.ended hnone).1 (by simp [hopen])
  · exact h.order.trans (List.prefix_append _ _)

lemma Conserved.recv {sent : List RelayMessage} (h : s.Conserved sent) :
    s.recv.Conserved sent := by
  unfold DdsNode.recv
  split
  · exact h
  rename_i hdropped
  rw [Bool.not_eq_true] at hdropped
  have hflow := h.flow hdropped
  split
  · rename_i m channel hchannel
    have hdelivered : (s.delivered ++ [some m]).reduceOption = s.delivered.reduceOption ++ [m] := by
      simp [List.reduceOption_append]
    have hflow' : (s.delivered ++ [some m]).reduceOption ++ channel ++ s.forwarder.held ++
        s.inner.queue.map Sample.toMessage = sent := by
      rw [← hflow, hchannel, hdelivered]
      simp
    refine ⟨h.suits, fun _ => hflow', h.finished, fun hnone => ?_, ?_⟩
    · -- the end of the stream has not come before
      have hended := (h.ended (by simpa using hnone)).2
      rw [← hflow, hchannel] at hended
      simp at hended
    · rw [← hflow', List.append_assoc, List.append_assoc]
      exact List.prefix_append _ _
  · rename_i hchannel
    split
    · rename_i hdone
      obtain ⟨hclosed, hqueue⟩ := h.finished hdropped hdone
      have hdelivered : (s.delivered ++ [none]).reduceOption = s.delivered.reduceOption := by
        simp [List.reduceOption_append]
      have hall : (s.delivered ++ [none]).reduceOption = sent := by
        rw [hdelivered, ← hflow, hchannel, hdone, hqueue]
        simp [Forwarder.held]
      refine ⟨h.suits, fun _ => ?_, h.finished, fun _ => ⟨hclosed, hall⟩, ?_⟩
      · rw [hdelivered]
        exact hflow
      · rw [hall]
    · exact h

/-- A step of the forwarding task that passes a message on, or keeps it, in its place. -/
lemma Conserved.pass {sent : List RelayMessage} (h : s.Conserved sent) {inner : SubInner}
    {forwarder : Forwarder} {channel : List RelayMessage}
    (hsuits : forwarder.Suits inner.policy) (hclosed : inner.closed = s.inner.closed)
    (hdone : s.dropped = false → forwarder = .done →
      inner.closed = true ∧ inner.queue = [])
    (hsame : s.dropped = false → channel ++ forwarder.held ++ inner.queue.map Sample.toMessage =
      s.channel ++ s.forwarder.held ++ s.inner.queue.map Sample.toMessage) :
    Conserved { s with inner, forwarder, channel } sent := by
  refine ⟨hsuits, fun hkept => ?_, hdone, fun hnone => ?_, h.order⟩
  · rw [← h.flow hkept]
    have hsame' := hsame hkept
    simp only [List.append_assoc] at hsame' ⊢
    rw [hsame']
  · rw [← (h.ended hnone).2]
    exact ⟨hclosed.trans (h.ended hnone).1, rfl⟩

lemma recv_of_cons {q : SubInner} {x : Sample} {queue : List Sample} (h : q.queue = x :: queue) :
    q.recv = (.sample x, { q with queue }) := by
  rw [SubInner.recv, h]

lemma recv_of_nil {q : SubInner} (h : q.queue = []) :
    q.recv = (if q.closed then .finished else .pending, q) := by
  rw [SubInner.recv, h]

/-- The task is over as the caller is gone. -/
lemma Conserved.leave {sent : List RelayMessage} (h : s.Conserved sent)
    (hdropped : s.dropped = true) {inner : SubInner} (hclosed : inner.closed = s.inner.closed) :
    Conserved { s with inner, forwarder := .done } sent :=
  h.pass trivial hclosed (fun hkept => by rw [hdropped] at hkept; cases hkept)
    fun hkept => by rw [hdropped] at hkept; cases hkept

/-- The task is over as the queue is. -/
lemma Conserved.finish {sent : List RelayMessage} (h : s.Conserved sent)
    (hqueue : s.inner.queue = []) (hclosed : s.inner.closed = true)
    (hheld : s.forwarder.held = []) : Conserved { s with forwarder := .done } sent := by
  refine h.pass trivial rfl (fun _ _ => ⟨hclosed, hqueue⟩) fun _ => ?_
  rw [hheld]
  rfl

/-- The task goes on. -/
lemma Conserved.goOn {sent : List RelayMessage} (h : s.Conserved sent) {inner : SubInner}
    {forwarder : Forwarder} {channel : List RelayMessage}
    (hsuits : forwarder.Suits inner.policy) (hclosed : inner.closed = s.inner.closed)
    (hgoes : forwarder ≠ .done)
    (hsame : channel ++ forwarder.held ++ inner.queue.map Sample.toMessage =
      s.channel ++ s.forwarder.held ++ s.inner.queue.map Sample.toMessage) :
    Conserved { s with inner, forwarder, channel } sent :=
  h.pass hsuits hclosed (fun _ hdone => absurd hdone hgoes) fun _ => hsame

/-- **The step of the forwarding task.** -/
lemma Conserved.forward {sent : List RelayMessage} (h : s.Conserved sent) {handoff : Bool}
    (hfits : s.Fits handoff) (hempties : s.Empties handoff) :
    (s.forward handoff).Conserved sent := by
  have hsuits := h.suits
  unfold Fits at hfits
  unfold Empties at hempties
  unfold DdsNode.forward
  cases hforwarder : s.forwarder with
  | done => exact h
  | receiving =>
    rw [hforwarder] at hsuits hfits
    cases hqueue : s.inner.queue with
    | nil =>
      simp only [recv_of_nil hqueue]
      cases hclosed : s.inner.closed with
      | false => exact h
      | true =>
        refine h.finish hqueue hclosed ?_
        rw [hforwarder]
        rfl
    | cons x queue =>
      simp only [recv_of_cons hqueue]
      cases hpolicy : s.inner.policy with
      | dropOldest => exact absurd hpolicy hsuits
      | dropNewest =>
        dsimp only
        split
        · rename_i hdropped
          exact h.leave hdropped rfl
        rw [if_pos (hfits (by simp [hqueue]) hpolicy)]
        rw [hpolicy] at hsuits
        refine h.goOn (by exact hsuits) rfl Forwarder.noConfusion ?_
        rw [hforwarder, hqueue]
        simp [Forwarder.held]
      | block =>
        rw [hpolicy] at hsuits
        refine h.goOn (by exact hsuits) rfl Forwarder.noConfusion ?_
        rw [hforwarder, hqueue]
        simp [Forwarder.held]
  | sending m =>
    rw [hforwarder] at hsuits
    dsimp only
    split
    · rename_i hdropped
      exact h.leave hdropped rfl
    split
    · refine h.goOn (by exact hsuits) rfl Forwarder.noConfusion ?_
      rw [hforwarder]
      simp [Forwarder.held]
    · exact h
  | relaying backlog =>
    rw [hforwarder] at hsuits hfits hempties
    cases handoff with
    | true =>
      cases backlog with
      | nil => exact h
      | cons m rest =>
        dsimp only
        rw [if_pos rfl]
        split
        · rename_i hdropped
          exact h.leave hdropped rfl
        split
        · refine h.goOn (by exact hsuits) rfl Forwarder.noConfusion ?_
          rw [hforwarder]
          simp [Forwarder.held]
        · exact h
    | false =>
      dsimp only
      rw [if_neg Bool.false_ne_true]
      cases hqueue : s.inner.queue with
      | nil =>
        simp only [recv_of_nil hqueue]
        cases hclosed : s.inner.closed with
        | false => exact h
        | true =>
          have hnil : backlog = [] := hempties hqueue hclosed rfl
          refine h.finish hqueue hclosed ?_
          rw [hforwarder, hnil]
          rfl
      | cons x queue =>
        have hroom : ¬ backlog.length ≥ max s.inner.capacity 1 :=
          Nat.not_le.2 (hfits (by simp [hqueue]) rfl)
        simp only [recv_of_cons hqueue]
        rw [if_neg hroom]
        refine h.goOn (by exact hsuits) rfl Forwarder.noConfusion ?_
        rw [hforwarder, hqueue]
        simp [Forwarder.held]

/-! ## What was sent -/

/-- How far the call has come, if these were published.  A call to send publishes once, before it
returns. -/
def Stage (topic : String) (l : List (ℕ × Sample)) (i : ℕ) (c : NodeCall) : NodeTask → Prop
  | .send id payload _ | .acquire id payload | .write id payload =>
    (∃ done, c = .send id payload done) ∧ i ∉ l.map Prod.fst
  | .publish x => (∃ done, c = .send x.topic x.payload done) ∧ i ∉ l.map Prod.fst
  | .returned (.ok ()) => ∀ payload done, c = .send topic payload done →
    ∃ x, (i, x) ∈ l ∧ x.payload = payload
  | .close | .closeParticipant | .closeSubscribers => ∀ id payload done, c ≠ .send id payload done
  | .returned (.error _) | .unwound => True

/-- What a run that has published these keeps. -/
structure Accounted (topic : String) (policy : BackPressurePolicy) (calls : ℕ → NodeCall)
    (p : Pool DdsNode NodeTask) (l : List (ℕ × Sample)) : Prop where
  onTopic : p.shared.topic = topic
  policy : p.shared.inner.policy = policy
  once : (l.map Prod.fst).Nodup
  stage : ∀ i, Stage topic l i (calls i) (p.task i)
  conserved : p.shared.Conserved (l.map fun e => e.2.toMessage)

/-- No message that was sent is lost: each whose `send` has returned `Ok` is among those
published, of which each is of one call; they are delivered in their order, and all of them before
the stream ends. -/
structure LosesNothing (topic : String) (calls : ℕ → NodeCall) (p : Pool DdsNode NodeTask)
    (l : List (ℕ × Sample)) : Prop where
  sent : ∀ i payload done, calls i = .send topic payload done → p.task i = .returned (.ok ()) →
    ∃ x, (i, x) ∈ l ∧ x.payload = payload
  once : (l.map Prod.fst).Nodup
  order : p.shared.delivered.reduceOption <+: l.map fun e => e.2.toMessage
  ended : none ∈ p.shared.delivered →
    p.shared.delivered.reduceOption = l.map fun e => e.2.toMessage

lemma Accounted.losesNothing {topic : String} {policy : BackPressurePolicy}
    {calls : ℕ → NodeCall} {p : Pool DdsNode NodeTask} {l : List (ℕ × Sample)}
    (h : Accounted topic policy calls p l) : LosesNothing topic calls p l where
  sent i payload done hi hreturned := by
    have hstage := h.stage i
    rw [hreturned] at hstage
    exact hstage payload done hi
  once := h.once
  order := h.conserved.order
  ended hnone := (h.conserved.ended hnone).2

section
variable {topic : String} {l : List (ℕ × Sample)} {i : ℕ} {c : NodeCall} {t : NodeTask}

/-- What another call publishes does not matter. -/
lemma Stage.append (h : Stage topic l i c t) {j : ℕ} (hji : j ≠ i) (x : Sample) :
    Stage topic (l ++ [(j, x)]) i c t := by
  have hmem : i ∉ l.map Prod.fst → i ∉ (l ++ [(j, x)]).map Prod.fst := by
    simp [Ne.symm hji]
  cases t with
  | send | acquire | write | publish => exact ⟨h.1, hmem h.2⟩
  | returned result =>
    cases result with
    | error => trivial
    | ok =>
      intro payload done hc
      obtain ⟨y, hy, hpayload⟩ := h payload done hc
      exact ⟨y, List.mem_append_left _ hy, hpayload⟩
  | close | closeParticipant | closeSubscribers => exact h
  | unwound => trivial

/-- A step that does not publish. -/
lemma stage_move (h : Stage topic l i c t) (hpublish : ∀ x, t ≠ .publish x) (now : ℤ) :
    Stage topic l i c (s.move cfg now t).2 := by
  have herror : ∀ e, Stage topic l i c (.returned (.error e)) := fun _ => trivial
  have hok : (∀ id payload done, c ≠ .send id payload done) →
      Stage topic l i c (.returned (.ok ())) :=
    fun hnot payload done hc => absurd hc (hnot topic payload done)
  cases t with
  | publish x => exact absurd rfl (hpublish x)
  | send id payload done =>
    rw [move]
    split
    · exact herror _
    · split
      · exact herror _
      · exact h
  | acquire id payload =>
    change Stage topic l i c (s.acquire cfg id payload).2
    unfold acquire
    split
    · exact h
    split
    · exact herror _
    split
    · exact herror _
    · exact h
  | write id payload =>
    change Stage topic l i c (s.write now id payload).2
    unfold write
    split
    · trivial
    dsimp only
    split
    · trivial
    · exact h
  | close =>
    rw [move]
    split
    · exact hok h
    · exact h
  | closeParticipant =>
    rw [move]
    split
    · exact hok h
    · exact h
  | closeSubscribers => exact hok h
  | returned result => exact h
  | unwound => trivial

end

/-- A step that leaves the messages where they are. -/
lemma Conserved.of_eq {s' : DdsNode} {sent : List RelayMessage} (h : s.Conserved sent)
    (hinner : s'.inner = s.inner) (hforwarder : s'.forwarder = s.forwarder)
    (hchannel : s'.channel = s.channel) (hdropped : s'.dropped = s.dropped)
    (hdelivered : s'.delivered = s.delivered) : s'.Conserved sent := by
  refine ⟨?_, ?_, ?_, ?_, ?_⟩
  · rw [hforwarder, hinner]
    exact h.suits
  · rw [hdropped, hdelivered, hchannel, hforwarder, hinner]
    exact h.flow
  · rw [hdropped, hforwarder, hinner]
    exact h.finished
  · rw [hdelivered, hinner]
    exact h.ended
  · rw [hdelivered]
    exact h.order

lemma Conserved.close {sent : List RelayMessage} (h : s.Conserved sent) :
    Conserved { s with inner := { s.inner with closed := true } } sent :=
  ⟨h.suits, h.flow, fun hkept hdone => ⟨rfl, (h.finished hkept hdone).2⟩,
    fun hnone => ⟨rfl, (h.ended hnone).2⟩, h.order⟩

lemma Conserved.drop {sent : List RelayMessage} (h : s.Conserved sent) :
    Conserved { s with dropped := true } sent :=
  ⟨h.suits, nofun, nofun, h.ended, h.order⟩

/-- The topic of the subscriber and its policy are as they were. -/
def Stays (s s' : DdsNode) : Prop := s'.topic = s.topic ∧ s'.inner.policy = s.inner.policy

lemma stays_refl (s : DdsNode) : Stays s s := ⟨rfl, rfl⟩

/-- A step of a call that does not publish. -/
lemma conserved_move {sent : List RelayMessage} (h : s.Conserved sent) {t : NodeTask}
    (hpublish : ∀ x, t ≠ .publish x) (now : ℤ) :
    (s.move cfg now t).1.Conserved sent ∧ Stays s (s.move cfg now t).1 := by
  cases t with
  | publish x => exact absurd rfl (hpublish x)
  | send id payload done =>
    rw [move]
    split
    · exact ⟨h, stays_refl s⟩
    · split <;> exact ⟨h, stays_refl s⟩
  | acquire id payload =>
    change (s.acquire cfg id payload).1.Conserved sent ∧ Stays s (s.acquire cfg id payload).1
    unfold acquire
    split
    · exact ⟨h, stays_refl s⟩
    split
    · exact ⟨h, stays_refl s⟩
    split
    · exact ⟨h, stays_refl s⟩
    · exact ⟨h.of_eq rfl rfl rfl rfl rfl, rfl, rfl⟩
  | write id payload =>
    change (s.write now id payload).1.Conserved sent ∧ Stays s (s.write now id payload).1
    unfold write
    split
    · exact ⟨h, stays_refl s⟩
    dsimp only
    split <;> exact ⟨h.of_eq rfl rfl rfl rfl rfl, rfl, rfl⟩
  | close =>
    rw [move]
    split
    · exact ⟨h, stays_refl s⟩
    · exact ⟨h.of_eq rfl rfl rfl rfl rfl, rfl, rfl⟩
  | closeParticipant =>
    rw [move]
    split
    · exact ⟨h, stays_refl s⟩
    · exact ⟨h.of_eq rfl rfl rfl rfl rfl, rfl, rfl⟩
  | closeSubscribers => exact ⟨h.close, rfl, rfl⟩
  | returned | unwound => exact ⟨h, stays_refl s⟩

lemma policy_recv (q : SubInner) : q.recv.2.policy = q.policy := by
  unfold SubInner.recv
  split <;> rfl

lemma stays_forward (s : DdsNode) (handoff : Bool) : Stays s (s.forward handoff) := by
  have hpolicy := policy_recv s.inner
  unfold DdsNode.forward
  cases s.forwarder with
  | done => exact stays_refl s
  | receiving =>
    dsimp only
    split
    · exact stays_refl s
    · exact ⟨rfl, rfl⟩
    · next x inner hrecv =>
      rw [hrecv] at hpolicy
      split
      · split
        · exact ⟨rfl, hpolicy⟩
        · split <;> exact ⟨rfl, hpolicy⟩
      · exact ⟨rfl, hpolicy⟩
      · exact ⟨rfl, hpolicy⟩
  | sending m =>
    dsimp only
    split
    · exact ⟨rfl, rfl⟩
    · split <;> exact ⟨rfl, rfl⟩
  | relaying backlog =>
    dsimp only
    split
    · split
      · exact stays_refl s
      · split
        · exact ⟨rfl, rfl⟩
        · split <;> exact ⟨rfl, rfl⟩
    · split
      · exact stays_refl s
      · exact ⟨rfl, rfl⟩
      · next x inner hrecv =>
        rw [hrecv] at hpolicy
        exact ⟨rfl, hpolicy⟩

lemma stays_recv (s : DdsNode) : Stays s s.recv := by
  unfold DdsNode.recv
  split
  · exact stays_refl s
  · split
    · exact ⟨rfl, rfl⟩
    · split <;> exact ⟨rfl, rfl⟩

/-! ## Runs -/

/-- The step does not bring a sample to a queue that is full, or closed. -/
def Unblocked (p : Pool DdsNode NodeTask) : Turn → Prop
  | .env _ => True
  | .task i _ =>
    match p.task i with
    | .publish x => x.topic = p.shared.topic → p.shared.Room
    | _ => True

/-- The step of the forwarding task loses nothing. -/
def Lossless (p : Pool DdsNode NodeTask) : Turn → Prop
  | .env (.forward handoff) => p.shared.Fits handoff ∧ p.shared.Empties handoff
  | _ => True

lemma published_of_ne {p : Pool DdsNode NodeTask} {i : ℕ} (h : ∀ x, p.task i ≠ .publish x)
    (now : ℤ) : published p (.task i now) = [] := by
  rw [published]
  split
  · next x hx => exact absurd hx (h x)
  · rfl

section
variable {topic : String} {policy : BackPressurePolicy} {calls : ℕ → NodeCall}
  {p : Pool DdsNode NodeTask} {l : List (ℕ × Sample)}

/-- A sample is published. -/
lemma accounted_publish (h : Accounted topic policy calls p l) {i : ℕ} {x : Sample}
    (hx : p.task i = .publish x) (hroom : x.topic = p.shared.topic → p.shared.Room) (now : ℤ) :
    Accounted topic policy calls ((program cfg).step p (.task i now))
      (l ++ published p (.task i now)) := by
  have hmove : (program cfg).move now p.shared (p.task i) =
      (if x.topic = p.shared.topic then { p.shared with inner := (p.shared.inner.push x).2 }
        else p.shared, .returned (.ok ())) := congrArg (p.shared.move cfg now) hx
  have hself := (program cfg).task_step_self p i now
  have hshared := (program cfg).shared_step_task p i now
  rw [hmove] at hself hshared
  have hothers : ∀ j ≠ i, ((program cfg).step p (.task i now)).task j = p.task j :=
    fun j hj => (program cfg).task_step_of_ne p hj now
  obtain ⟨⟨done, hcall⟩, hnot⟩ : (∃ done, calls i = .send x.topic x.payload done) ∧
      i ∉ l.map Prod.fst := by
    have hstage := h.stage i
    rw [hx] at hstage
    exact hstage
  have hpublished : published p (.task i now) =
      if x.topic = p.shared.topic then [(i, x)] else [] := by
    rw [published, hx]
  rw [hpublished]
  by_cases htopic : x.topic = p.shared.topic
  · rw [if_pos htopic] at hshared ⊢
    have hpushed : (p.shared.inner.push x).2.policy = p.shared.inner.policy := by
      rw [push_of_room (hroom htopic)]
    refine ⟨by rw [hshared]; exact h.onTopic, by rw [hshared]; exact hpushed.trans h.policy, ?_,
      fun j => ?_, ?_⟩
    · rw [List.map_append]
      refine List.nodup_append.2 ⟨h.once, List.nodup_singleton _, fun j hj k hk heq => ?_⟩
      rw [heq, List.mem_singleton.1 hk] at hj
      exact hnot hj
    · by_cases hji : j = i
      · subst hji
        rw [hself]
        intro payload done' hcall'
        rw [hcall] at hcall'
        obtain ⟨-, hpayload, -⟩ := NodeCall.send.inj hcall'
        exact ⟨x, List.mem_append_right _ (List.mem_singleton_self _), hpayload⟩
      · rw [hothers j hji]
        exact (h.stage j).append (Ne.symm hji) x
    · rw [hshared, List.map_append]
      exact h.conserved.publish (hroom htopic) x
  · rw [if_neg htopic] at hshared ⊢
    rw [List.append_nil]
    refine ⟨by rw [hshared]; exact h.onTopic, by rw [hshared]; exact h.policy, h.once,
      fun j => ?_, by rw [hshared]; exact h.conserved⟩
    by_cases hji : j = i
    · subst hji
      rw [hself]
      intro payload done' hcall'
      rw [hcall] at hcall'
      obtain ⟨hid, -, -⟩ := NodeCall.send.inj hcall'
      exact absurd (hid.trans h.onTopic.symm) htopic
    · rw [hothers j hji]
      exact h.stage j

/-- **The step.** -/
lemma accounted_step (h : Accounted topic policy calls p l) {turn : Turn}
    (hunblocked : Unblocked p turn) (hlossless : Lossless p turn) :
    Accounted topic policy calls ((program cfg).step p turn) (l ++ published p turn) := by
  cases turn with
  | env e =>
    rw [published, List.append_nil]
    cases e with
    | forward handoff =>
      obtain ⟨htopic, hpolicy⟩ := stays_forward p.shared handoff
      exact ⟨htopic.trans h.onTopic, hpolicy.trans h.policy, h.once, h.stage,
        h.conserved.forward hlossless.1 hlossless.2⟩
    | recv =>
      obtain ⟨htopic, hpolicy⟩ := stays_recv p.shared
      exact ⟨htopic.trans h.onTopic, hpolicy.trans h.policy, h.once, h.stage, h.conserved.recv⟩
    | drop => exact ⟨h.onTopic, h.policy, h.once, h.stage, h.conserved.drop⟩
  | task i now =>
    by_cases hpublish : ∃ x, p.task i = .publish x
    · obtain ⟨x, hx⟩ := hpublish
      rw [Unblocked, hx] at hunblocked
      exact accounted_publish h hx hunblocked now
    have hnot : ∀ x, p.task i ≠ .publish x := fun x hx => hpublish ⟨x, hx⟩
    have hmoved : ((program cfg).step p (.task i now)).shared.Conserved
        (l.map fun e => e.2.toMessage) ∧
          Stays p.shared ((program cfg).step p (.task i now)).shared :=
      conserved_move h.conserved hnot now
    rw [published_of_ne hnot, List.append_nil]
    refine ⟨hmoved.2.1.trans h.onTopic, hmoved.2.2.trans h.policy, h.once, fun j => ?_, hmoved.1⟩
    by_cases hji : j = i
    · subst hji
      rw [Program.task_step_self]
      exact stage_move (h.stage j) hnot now
    · rw [Program.task_step_of_ne _ _ hji]
      exact h.stage j

end

lemma accounted_start (s : DdsNode) (topic : String) (opts : SubscriberOptions)
    (calls : ℕ → NodeCall) :
    Accounted topic opts.backPressure calls (start s topic opts calls) [] where
  onTopic := rfl
  policy := rfl
  once := List.nodup_nil
  stage i := by
    change Stage topic [] i (calls i) (calls i).task
    cases calls i with
    | send id payload done => exact ⟨⟨done, rfl⟩, List.not_mem_nil⟩
    | close | closeParticipant => exact fun _ _ _ => nofun
  conserved := by
    refine ⟨?_, fun _ => ?_, fun _ hdone => ?_, nofun, List.nil_prefix⟩
    · change Forwarder.Suits opts.backPressure
        (if opts.backPressure = .dropOldest then .relaying [] else .receiving)
      split
      · assumption
      · assumption
    · change [] ++ [] ++ (if opts.backPressure = .dropOldest then Forwarder.relaying []
        else .receiving).held ++ [] = _
      split <;> rfl
    · change (if opts.backPressure = .dropOldest then Forwarder.relaying [] else .receiving) =
        .done at hdone
      split at hdone <;> cases hdone

/-- What a run publishes to the topic of the subscriber. -/
def sent (cfg : DeliveryConfig) (s : DdsNode) (topic : String) (opts : SubscriberOptions)
    (calls : ℕ → NodeCall) (turns : List Turn) : List (ℕ × Sample) :=
  Run.trace (program cfg).step published (start s topic opts calls) turns

lemma losesNothing_run {topic : String} {opts : SubscriberOptions} {calls : ℕ → NodeCall}
    {turns : List Turn}
    (h : Run.Each (program cfg).step (fun p turn => Unblocked p turn ∧ Lossless p turn)
      (start s topic opts calls) turns) :
    LosesNothing topic calls ((program cfg).run (start s topic opts calls) turns)
      (sent cfg s topic opts calls turns) := by
  have hrun := h.foldl_trace (J := Accounted topic opts.backPressure calls)
    (fun _ _ _ hJ hP => accounted_step hJ hP.1 hP.2) (accounted_start s topic opts calls)
  exact hrun.losesNothing

end DdsNode

end RustDds
