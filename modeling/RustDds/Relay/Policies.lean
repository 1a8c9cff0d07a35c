import RustDds.Relay.Forwarding

/-!
# The back-pressure policies of the relay

Under `Block` the forwarding task waits for the channel, but nobody waits for the task: a sample
that finds the queue full is rejected, and `send` returns `Ok` all the same
(`not_losesNothing_block`).  Where no sample comes to a full or a closed queue, none is lost
(`losesNothing_of_unblocked`).

Where nothing overflows, the three policies should agree.  Under `DropOldest` the task ends when
it learns that the queue is closed, with what is left of its backlog (`not_losesNothing`).
Where the backlog is empty by then, the stream is complete under all policies
(`losesNothing_of_emptied`).
-/

namespace RustDds

namespace DdsNode

variable {cfg : DeliveryConfig} {s : DdsNode}

/-! ## The policy that should wait -/

/-- The task of `Block` loses nothing. -/
lemma lossless_of_block {p : Pool DdsNode NodeTask}
    (hsuits : p.shared.forwarder.Suits p.shared.inner.policy)
    (hblock : p.shared.inner.policy = .block) (turn : Turn) : Lossless p turn := by
  have hnewest : p.shared.inner.policy ≠ .dropNewest := by rw [hblock]; exact nofun
  have hoffered : ∀ backlog, p.shared.forwarder ≠ .relaying backlog := by
    intro backlog hforwarder
    rw [hforwarder, hblock] at hsuits
    cases hsuits
  cases turn with
  | task => trivial
  | env e =>
    cases e with
    | forward handoff =>
      constructor
      · intro _
        cases hforwarder : p.shared.forwarder with
        | receiving => exact fun hpolicy => absurd hpolicy hnewest
        | relaying backlog => exact absurd hforwarder (hoffered backlog)
        | sending | done => trivial
      · intro _ _ _
        cases hforwarder : p.shared.forwarder with
        | relaying backlog => exact absurd hforwarder (hoffered backlog)
        | receiving | sending | done => trivial
    | recv | drop => trivial

/-- **Block without waiting.**  Where every sample finds its queue open and not full, `Block`
delivers all that was sent. -/
theorem losesNothing_of_unblocked (cfg : DeliveryConfig) (s : DdsNode) (topic : String)
    (opts : SubscriberOptions) (calls : ℕ → NodeCall) (turns : List Turn)
    (hblock : opts.backPressure = .block)
    (h : Run.Each (program cfg).step Unblocked (start s topic opts calls) turns) :
    LosesNothing topic calls ((program cfg).run (start s topic opts calls) turns)
      (sent cfg s topic opts calls turns) := by
  refine losesNothing_run (h.imp (I := fun p =>
    ∃ l, Accounted topic opts.backPressure calls p l) ?_ ?_
      ⟨[], accounted_start s topic opts calls⟩)
  · rintro p turn ⟨l, hp⟩ hunblocked
    have hlossless := lossless_of_block hp.conserved.suits (hp.policy.trans hblock) turn
    exact ⟨_, accounted_step hp hunblocked hlossless⟩
  · rintro p turn ⟨l, hp⟩ hunblocked
    exact ⟨hunblocked, lossless_of_block hp.conserved.suits (hp.policy.trans hblock) turn⟩

/-! ## Where nothing overflows -/

/-- The step overflows no queue, and it does not bring a sample to a closed one. -/
def NoOverflow (p : Pool DdsNode NodeTask) : Turn → Prop
  | .env (.forward handoff) => p.shared.Fits handoff
  | turn => Unblocked p turn

/-- The forwarding task does not end with a backlog. -/
def Emptied (p : Pool DdsNode NodeTask) : Turn → Prop
  | .env (.forward handoff) => p.shared.Empties handoff
  | _ => True

/-- **The policies agree**, and lose nothing, where nothing overflows and the backlog of
`DropOldest` is empty when its task learns that the queue is closed. -/
theorem losesNothing_of_emptied (cfg : DeliveryConfig) (s : DdsNode) (topic : String)
    (opts : SubscriberOptions) (calls : ℕ → NodeCall) (turns : List Turn)
    (h : Run.Each (program cfg).step (fun p turn => NoOverflow p turn ∧ Emptied p turn)
      (start s topic opts calls) turns) :
    LosesNothing topic calls ((program cfg).run (start s topic opts calls) turns)
      (sent cfg s topic opts calls turns) := by
  refine losesNothing_run (h.imp (I := fun _ => True) (fun _ _ _ _ => trivial) ?_ trivial)
  rintro p turn - ⟨hfits, hemptied⟩
  cases turn with
  | task => exact ⟨hfits, trivial⟩
  | env e =>
    cases e with
    | forward handoff => exact ⟨trivial, hfits, hemptied⟩
    | recv | drop => exact ⟨trivial, trivial⟩

/-! ### Four runs -/

instance (s : DdsNode) : Decidable s.Room := inferInstanceAs (Decidable (_ ∧ _ ∧ _))

instance (s : DdsNode) (handoff : Bool) : Decidable (s.Fits handoff) := by
  refine @instDecidableForall _ _ _ ?_
  split <;> infer_instance

instance (s : DdsNode) (handoff : Bool) : Decidable (s.Empties handoff) := by
  refine @instDecidableForall _ _ _ (@instDecidableForall _ _ _ (@instDecidableForall _ _ _ ?_))
  split <;> infer_instance

instance (p : Pool DdsNode NodeTask) (turn : Turn) : Decidable (Unblocked p turn) := by
  cases turn with
  | env => exact inferInstanceAs (Decidable True)
  | task i now =>
    rw [Unblocked]
    split <;> infer_instance

instance (p : Pool DdsNode NodeTask) : DecidablePred (NoOverflow p)
  | .env (.forward handoff) => inferInstanceAs (Decidable (p.shared.Fits handoff))
  | .env .recv | .env .drop => inferInstanceAs (Decidable True)
  | .task i now => inferInstanceAs (Decidable (Unblocked p (.task i now)))

instance (p : Pool DdsNode NodeTask) : DecidablePred (Emptied p)
  | .env (.forward handoff) => inferInstanceAs (Decidable (p.shared.Empties handoff))
  | .env .recv | .env .drop | .task _ _ => inferInstanceAs (Decidable True)

/-- A step, at time zero. -/
def turn (i : ℕ) : Turn := .task i 0

/-- Two messages, and the end. -/
def sendTwice : ℕ → NodeCall
  | 0 => .send "a" [1] false
  | 1 => .send "a" [2] false
  | _ => .close

/-- Both are sent before the task runs, and then it all ends. -/
def sentAtOnce : List Turn :=
  List.replicate 4 (turn 0) ++ List.replicate 4 (turn 1) ++ List.replicate 3 (turn 2) ++
    List.replicate 5 (.env (.forward false)) ++ List.replicate 3 (.env .recv)

/-- The second message finds the queue full, and its `send` returns `Ok`. -/
theorem not_losesNothing_block :
    ¬ ∀ (cfg : DeliveryConfig) (s : DdsNode) (topic : String) (opts : SubscriberOptions)
      (calls : ℕ → NodeCall) (turns : List Turn), opts.backPressure = .block →
      LosesNothing topic calls ((program cfg).run (start s topic opts calls) turns)
        (sent cfg s topic opts calls turns) := by
  intro h
  have hended := (h (.plain .mock) new "a" ⟨1, .block⟩ sendTwice sentAtOnce rfl).ended
    (by decide +kernel)
  exact absurd (congrArg List.length hended) (by decide +kernel)

/-- The queue has room for both. -/
theorem losesNothing_of_unblocked_two :
    LosesNothing "a" sendTwice ((program (.plain .mock)).run
      (start new "a" ⟨2, .block⟩ sendTwice) sentAtOnce)
        (sent (.plain .mock) new "a" ⟨2, .block⟩ sendTwice sentAtOnce) :=
  losesNothing_of_unblocked (.plain .mock) new "a" ⟨2, .block⟩ sendTwice sentAtOnce rfl
    (by decide +kernel)

/-- Under `DropOldest`, both are taken into the backlog, and the node is closed. -/
theorem not_losesNothing :
    ¬ ∀ (cfg : DeliveryConfig) (s : DdsNode) (topic : String) (opts : SubscriberOptions)
      (calls : ℕ → NodeCall) (turns : List Turn),
      Run.Each (program cfg).step NoOverflow (start s topic opts calls) turns →
      LosesNothing topic calls ((program cfg).run (start s topic opts calls) turns)
        (sent cfg s topic opts calls turns) := by
  intro h
  have hended := (h (.plain .mock) new "a" ⟨2, .dropOldest⟩ sendTwice sentAtOnce
    (by decide +kernel)).ended (by decide +kernel)
  exact absurd (congrArg List.length hended) (by decide +kernel)

/-- The task hands both on before it takes notice of the end. -/
def handedOn : List Turn :=
  List.replicate 4 (turn 0) ++ List.replicate 4 (turn 1) ++ List.replicate 3 (turn 2) ++
    [.env (.forward false), .env (.forward true), .env (.forward false), .env .recv,
      .env (.forward true), .env (.forward false), .env .recv, .env .recv]

theorem losesNothing_of_emptied_handedOn :
    LosesNothing "a" sendTwice ((program (.plain .mock)).run
      (start new "a" ⟨2, .dropOldest⟩ sendTwice) handedOn)
        (sent (.plain .mock) new "a" ⟨2, .dropOldest⟩ sendTwice handedOn) :=
  losesNothing_of_emptied (.plain .mock) new "a" ⟨2, .dropOldest⟩ sendTwice handedOn
    (by decide +kernel)

end DdsNode

end RustDds
