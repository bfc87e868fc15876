import BrowserSteps.Proofs.Run.Completion
import BrowserSteps.Proofs.Session.Orderly
import BrowserSteps.Run.Opened

/-!
Bounds on runs. A run that comes to its end within a bound does the same within every larger one, so
that all bounds that suffice agree. If none suffices, the run never ends: it makes any number of
executions.
-/

namespace BrowserSteps

variable {σ δ : Type}

/-- A group that comes to an end does the same with more turns. -/
theorem Routine.Group.run_of_le {α : Type} {g : Group σ α} {bound more : Nat}
    (finished : (g.run bound).1 ≠ .unfinished) (le : bound ≤ more) : g.run more = g.run bound := by
  induction bound generalizing g more with
  | zero => exact absurd rfl finished
  | succ bound ih =>
      obtain ⟨more, rfl⟩ := Nat.exists_eq_add_one_of_ne_zero (show more ≠ 0 by omega)
      obtain ⟨next, -, hrun⟩ := g.run_steps
      rw [hrun] at finished
      rw [hrun, hrun]
      cases next with
      | inl onward => exact ih finished (Nat.le_of_succ_le_succ le)
      | inr close => rfl

/-- An activity that comes to an end does the same with more turns. -/
theorem Activity.run_of_le {activity : Activity σ} {turns more : Nat} {w : World σ}
    (finished : (activity.run turns w).1 ≠ .unfinished) (le : turns ≤ more) :
    activity.run more w = activity.run turns w := by
  cases activity with
  | alone routine => rfl
  | together workers judge selectors =>
      have closed : (Routine.runTogether turns workers w).1 ≠ .unfinished := by
        intro unclosed
        simp only [run] at finished
        rcases hclose : Routine.runTogether turns workers w with ⟨close, later⟩
        rw [hclose] at unclosed finished
        subst unclosed
        exact finished rfl
      have hsame : Routine.runTogether more workers w = Routine.runTogether turns workers w :=
        Routine.Group.run_of_le closed le
      simp only [run, hsame]
  | rest micros ended woken interrupted => cases micros <;> rfl

namespace Run

variable {env : Env σ} {turns more : Nat}

/-- An execution that comes to an end does the same with more turns. -/
theorem execute_of_le {capturing : Bool} {step : Step} {s : State σ}
    (finished : (execute { env with turns } capturing step s).1 ≠ .unfinished)
    (le : turns ≤ more) :
    execute { env with turns := more } capturing step s =
      execute { env with turns } capturing step s := by
  have ended : ((activity env step).run turns s.world).1 ≠ .unfinished := by
    intro unended
    have hactivity : ((activity { env with turns } step).run turns s.world).1 = .unfinished := unended
    simp only [execute, world_markStart] at finished
    rcases hran : (activity { env with turns } step).run turns s.world with ⟨exit, later⟩
    rw [hran] at hactivity finished
    subst hactivity
    exact finished rfl
  have hsame : (activity { env with turns := more } step).run more s.world =
      (activity { env with turns } step).run turns s.world := Activity.run_of_le ended le
  simp only [execute, world_markStart, hsame]
  rfl

/-- A loop that comes to an end does the same with more turns and more executions. -/
theorem loop_of_le {capturing : Bool} {steps : List Step} {bound limit : Nat} {s : State σ}
    (finished : (loop { env with turns } capturing steps bound s).1 ≠ .unfinished)
    (turns_le : turns ≤ more) (bound_le : bound ≤ limit) :
    loop { env with turns := more } capturing steps limit s =
      loop { env with turns } capturing steps bound s := by
  induction bound generalizing s limit with
  | zero => exact absurd rfl finished
  | succ bound ih =>
      obtain ⟨limit, rfl⟩ := Nat.exists_eq_add_one_of_ne_zero (show limit ≠ 0 by omega)
      simp only [loop] at finished ⊢
      cases hstep : steps[s.next]? with
      | none => rfl
      | some step =>
          cases hcancelled : s.world.cancelled with
          | true => rfl
          | false =>
              simp only [hstep, hcancelled, Bool.false_eq_true, if_false] at finished ⊢
              have executed : (execute { env with turns } capturing step s).1 ≠ .unfinished := by
                intro unexecuted
                rcases hexecuted : execute { env with turns } capturing step s with ⟨ending, t⟩
                rw [hexecuted] at unexecuted finished
                subst unexecuted
                exact finished rfl
              rw [execute_of_le executed turns_le]
              rcases hexecuted : execute { env with turns } capturing step s with ⟨ending, t⟩
              rw [hexecuted] at finished
              cases ending with
              | goOn jump => exact ih finished (Nat.le_of_succ_le_succ bound_le)
              | stop | cut | unfinished => rfl

/-- A run that comes to an end does the same with more turns and more executions. -/
theorem run_of_le {steps : List Step} {order : Order} {bound limit : Nat} {world : World σ}
    {files : FileTree}
    (finished : (run { env with turns } steps order bound world files).1 ≠ .unfinished)
    (turns_le : turns ≤ more) (bound_le : bound ≤ limit) :
    run { env with turns := more } steps order limit world files =
      run { env with turns } steps order bound world files := by
  simp only [run, opening_turns] at finished ⊢
  rw [loop_of_le finished turns_le bound_le]
  rfl

/-- A run makes any number of executions, given the turns that they take. -/
def Endless (env : Env σ) (steps : List Step) (order : Order) (world : World σ) (files : FileTree) :
    Prop :=
  ∀ count, ∃ turns, (history { env with turns } steps order count world files).length = count

/-- A run that no bound suffices for never ends. -/
theorem endless_of_unfinished {steps : List Step} {order : Order} {world : World σ}
    {files : FileTree} (h : ∀ step ∈ steps, (activity env step).Orderly)
    (unfinished : ∀ bound, (run { env with turns := bound } steps order bound world files).1 =
      .unfinished) : Endless env steps order world files := by
  intro count
  obtain ⟨enough, hcount⟩ := run_completes env h order count world files
  refine ⟨max enough count, hcount _ (le_max_left _ _) ?_⟩
  by_contra finished
  have hsame := run_of_le finished le_rfl (le_max_right enough count)
  exact finished (hsame ▸ unfinished _)

variable {host : Host δ} {config : Config} {steps : List Step} {order : Order} {files : FileTree}
  {world : World (Owned δ)}

/-- All bounds that suffice for a use of an open browser agree. -/
theorem Host.use_of_le (finished : (host.use config steps order files world).1.1.1 ≠ .unfinished)
    (le : host.bound ≤ more) :
    Host.use { host with bound := more } config steps order files world =
      host.use config steps order files world := by
  have ended : (run { host.env config with turns := host.bound } steps order host.bound world
      files).1 ≠ .unfinished := finished
  have hsame : run { host.env config with turns := more } steps order more world files =
      run (host.env config) steps order host.bound world files := run_of_le ended le le
  simp only [Host.use]
  rw [← hsame]
  rfl

/-- A use of an open browser that no bound suffices for never ends. -/
theorem Host.endless_of_unfinished
    (unfinished : ∀ bound,
      (Host.use { host with bound } config steps order files world).1.1.1 = .unfinished) :
    Endless (host.env config) steps order world files := by
  refine Run.endless_of_unfinished (fun step _ => ?_) unfinished
  exact Handler.orderly_activity .binary
    (fun kind value => Session.orderly_find_exclusive host.browser kind value) _ _ _ step

end Run

end BrowserSteps
