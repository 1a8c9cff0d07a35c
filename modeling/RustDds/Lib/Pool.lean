import Mathlib.Logic.Function.Basic
import RustDds.Lib.Run

/-!
# Tasks that interleave on a shared state

A `Pool` is a shared state and a family of tasks, one for each natural number.  A task is
whatever is left of the call it runs, so a family of calls is a pool in which no task has moved
yet, and the tasks that a run never picks are calls that were never made.  One pick of the
scheduler moves one task by one atomic step, or lets the environment act on the shared state.
A run is any list of picks; a task that cannot move stays as it is when it is picked.

`Program.each_holds` is the proof rule.  A property of the shared state and a property of each
task in it hold throughout a run if every step keeps them: the step of a task those of the task
itself, and those of all others, which it can only disturb through the shared state.
-/

/-- A shared state and the tasks that work on it. -/
structure Pool (σ τ : Type*) where
  shared : σ
  task : ℕ → τ

/-- A pick of the scheduler: a task, with what the step leaves open, or the environment. -/
inductive Pick (χ ε : Type*)
  | task (i : ℕ) (choice : χ)
  | env (e : ε)
  deriving DecidableEq

/-- The atomic steps of the tasks and of the environment. -/
structure Program (σ τ χ ε : Type*) where
  move : χ → σ → τ → σ × τ
  env : ε → σ → σ

namespace Program

variable {σ τ χ ε : Type*} (prog : Program σ τ χ ε)

/-- One step of the pool. -/
def step (p : Pool σ τ) : Pick χ ε → Pool σ τ
  | .task i choice =>
    let moved := prog.move choice p.shared (p.task i)
    ⟨moved.1, Function.update p.task i moved.2⟩
  | .env e => ⟨prog.env e p.shared, p.task⟩

/-- The pool after a run. -/
def run (p : Pool σ τ) (picks : List (Pick χ ε)) : Pool σ τ := picks.foldl prog.step p

@[simp] lemma run_nil (p : Pool σ τ) : prog.run p [] = p := rfl

lemma run_cons (p : Pool σ τ) (pick : Pick χ ε) (picks : List (Pick χ ε)) :
    prog.run p (pick :: picks) = prog.run (prog.step p pick) picks := rfl

lemma run_append (p : Pool σ τ) (picks picks' : List (Pick χ ε)) :
    prog.run p (picks ++ picks') = prog.run (prog.run p picks) picks' := List.foldl_append

@[simp] lemma step_env (p : Pool σ τ) (e : ε) :
    prog.step p (.env e) = ⟨prog.env e p.shared, p.task⟩ := rfl

lemma shared_step_task (p : Pool σ τ) (i : ℕ) (choice : χ) :
    (prog.step p (.task i choice)).shared = (prog.move choice p.shared (p.task i)).1 := rfl

lemma task_step_self (p : Pool σ τ) (i : ℕ) (choice : χ) :
    (prog.step p (.task i choice)).task i = (prog.move choice p.shared (p.task i)).2 :=
  Function.update_self ..

lemma task_step_of_ne (p : Pool σ τ) {i j : ℕ} (h : j ≠ i) (choice : χ) :
    (prog.step p (.task i choice)).task j = p.task j :=
  Function.update_of_ne h ..

/-- A task that no pick takes stays as it is. -/
lemma task_run_of_notMem {p : Pool σ τ} {picks : List (Pick χ ε)} {i : ℕ}
    (h : ∀ choice, .task i choice ∉ picks) : (prog.run p picks).task i = p.task i := by
  induction picks generalizing p with
  | nil => rfl
  | cons pick picks ih =>
    rw [run_cons, ih fun choice hmem => h choice (List.mem_cons_of_mem _ hmem)]
    cases pick with
    | task j choice =>
      refine task_step_of_ne prog p (fun hij => ?_) choice
      exact h choice (hij ▸ List.mem_cons_self)
    | env e => rfl

omit prog in
/-- A run takes finitely many tasks. -/
lemma exists_forall_lt (picks : List (Pick χ ε)) :
    ∃ n, ∀ i choice, .task i choice ∈ picks → i < n := by
  induction picks with
  | nil => exact ⟨0, fun _ _ h => absurd h List.not_mem_nil⟩
  | cons pick picks ih =>
    obtain ⟨n, hn⟩ := ih
    cases pick with
    | task j _ =>
      refine ⟨max n (j + 1), fun i choice h => ?_⟩
      rcases List.mem_cons.mp h with heq | h
      · cases heq
        omega
      · have hi := hn i choice h
        omega
    | env e => exact ⟨n, fun i choice h => hn i choice ((List.mem_cons.mp h).resolve_left nofun)⟩

/-- An invariant of the pool. -/
lemma run_of_step {J : Pool σ τ → Prop} (hstep : ∀ p pick, J p → J (prog.step p pick))
    {p : Pool σ τ} (hp : J p) (picks : List (Pick χ ε)) : J (prog.run p picks) := by
  induction picks generalizing p with
  | nil => exact hp
  | cons pick picks ih => exact ih (hstep p pick hp)

/-- What holds of some task still does after a step that does not take it from the one that
moves. -/
lemma exists_task_step {Q : τ → Prop} {p : Pool σ τ} {i : ℕ} {choice : χ}
    (h : ∃ j, Q (p.task j))
    (hmove : Q (p.task i) → Q (prog.move choice p.shared (p.task i)).2) :
    ∃ j, Q ((prog.step p (.task i choice)).task j) := by
  obtain ⟨j, hj⟩ := h
  by_cases hji : j = i
  · subst hji
    exact ⟨j, by rw [task_step_self]; exact hmove hj⟩
  · exact ⟨j, by rw [task_step_of_ne _ _ hji]; exact hj⟩

end Program

/-- The shared state and every task in it are as they should be. -/
def Pool.Holds {σ τ : Type*} (I : σ → Prop) (A : σ → τ → Prop) (p : Pool σ τ) : Prop :=
  I p.shared ∧ ∀ i, A p.shared (p.task i)

namespace Program

variable {σ τ χ ε : Type*} {prog : Program σ τ χ ε} {P : Pool σ τ → Pick χ ε → Prop}
  {I : σ → Prop} {A : σ → τ → Prop}

/-- **The rule for interleavings.**  What every step keeps, of the shared state, of the task that
moves and of the tasks that do not, holds at the end of every run. -/
lemma each_holds
    (htask : ∀ p i choice, p.Holds I A → P p (.task i choice) →
      I (prog.move choice p.shared (p.task i)).1 ∧
      A (prog.move choice p.shared (p.task i)).1 (prog.move choice p.shared (p.task i)).2 ∧
      ∀ j ≠ i, A (prog.move choice p.shared (p.task i)).1 (p.task j))
    (henv : ∀ p e, p.Holds I A → P p (.env e) →
      I (prog.env e p.shared) ∧ ∀ j, A (prog.env e p.shared) (p.task j))
    {p : Pool σ τ} {picks : List (Pick χ ε)} (hrun : Run.Each prog.step P p picks)
    (hp : p.Holds I A) : (prog.run p picks).Holds I A := by
  refine Run.Each.foldl (I := Pool.Holds I A) (fun q pick hq hpick => ?_) hrun hp
  cases pick with
  | task i choice =>
    obtain ⟨hI, hself, hothers⟩ := htask q i choice hq hpick
    refine ⟨hI, fun j => ?_⟩
    by_cases hj : j = i
    · rw [hj, task_step_self]
      exact hself
    · rw [task_step_of_ne _ _ hj]
      exact hothers j hj
  | env e => exact henv q e hq hpick

/-! ### Debts

Where one task leaves something for another to do, a pair of things that must meet, say, or an
event that must be handled, what is due is either done or still owed by some task. -/

variable {α : Type*} {due paid : σ → α → Prop} {owes : α → τ → Prop}

/-- All that is due is paid, or some task owes it. -/
def Covers (due paid : σ → α → Prop) (owes : α → τ → Prop) (p : Pool σ τ) : Prop :=
  ∀ x, due p.shared x → paid p.shared x ∨ ∃ i, owes x (p.task i)

/-- The step of task `i` to `s'` and `t'` leaves `x` paid or owed. -/
def Settles (paid : σ → α → Prop) (owes : α → τ → Prop) (p : Pool σ τ) (i : ℕ) (s' : σ) (t' : τ)
    (x : α) : Prop :=
  paid s' x ∨ owes x t' ∨ ∃ j ≠ i, owes x (p.task j)

/-- **No debt is lost** by the step of a task that settles what becomes due in it, what was paid
before it, and what the task owed. -/
lemma Covers.step_task {p : Pool σ τ} (h : Covers due paid owes p) (i : ℕ) (choice : χ)
    {s' : σ} {t' : τ} (hmove : prog.move choice p.shared (p.task i) = (s', t'))
    (hdue : ∀ x, due s' x → due p.shared x ∨ Settles paid owes p i s' t' x)
    (hpaid : ∀ x, due s' x → paid p.shared x → Settles paid owes p i s' t' x)
    (howes : ∀ x, due s' x → owes x (p.task i) → Settles paid owes p i s' t' x) :
    Covers due paid owes (prog.step p (.task i choice)) := by
  have hshared : (prog.step p (.task i choice)).shared = s' := congrArg Prod.fst hmove
  have htask : (prog.step p (.task i choice)).task i = t' := by
    rw [prog.task_step_self, hmove]
  intro x hx
  rw [hshared] at hx ⊢
  have hsettled : Settles paid owes p i s' t' x := by
    rcases hdue x hx with hold | hnew
    · rcases h x hold with hpaid' | ⟨j, hj⟩
      · exact hpaid x hx hpaid'
      · by_cases hji : j = i
        · exact howes x hx (hji ▸ hj)
        · exact .inr (.inr ⟨j, hji, hj⟩)
    · exact hnew
  rcases hsettled with hpaid' | hself | ⟨j, hji, hj⟩
  · exact .inl hpaid'
  · exact .inr ⟨i, by rw [htask]; exact hself⟩
  · exact .inr ⟨j, by rw [prog.task_step_of_ne p hji]; exact hj⟩

/-- The environment keeps the debts if nothing becomes due in it, and nothing paid is undone. -/
lemma Covers.step_env {p : Pool σ τ} (h : Covers due paid owes p) (e : ε)
    (hdue : ∀ x, due (prog.env e p.shared) x → due p.shared x)
    (hpaid : ∀ x, paid p.shared x → paid (prog.env e p.shared) x) :
    Covers due paid owes (prog.step p (.env e)) :=
  fun x hx => (h x (hdue x hx)).imp_left (hpaid x)

/-- Where no task owes anything, all that is due is paid. -/
lemma Covers.of_free {p : Pool σ τ} (h : Covers due paid owes p)
    (hfree : ∀ i x, ¬ owes x (p.task i)) {x : α} (hx : due p.shared x) : paid p.shared x :=
  (h x hx).resolve_right fun ⟨i, hi⟩ => hfree i x hi

end Program
