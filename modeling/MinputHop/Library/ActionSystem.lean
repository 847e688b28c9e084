import Mathlib.Algebra.GroupWithZero.Nat

/-!
# Systems that take actions

A state and the actions that are possible in it, as a partial step function.
`Reach` collects the states of all runs whose actions meet a side condition on
the action and the state before it.
-/

namespace ActionSystem

variable {α σ : Type} {step : α → σ → Option σ} {Admits Admits' : α → σ → Prop} {start : σ}

/-- The states met in the runs all of whose actions are admitted. -/
inductive Reach (step : α → σ → Option σ) (Admits : α → σ → Prop) (start : σ) : σ → Prop where
  | start : Reach step Admits start start
  | step {state next : σ} (action : α) :
      Reach step Admits start state → Admits action state → step action state = some next →
      Reach step Admits start next

/-- The invariant rule. -/
theorem Reach.invariant {Inv : σ → Prop} (initial : Inv start)
    (preserved : ∀ action state next, Admits action state → step action state = some next →
      Inv state → Inv next)
    {state : σ} (reach : Reach step Admits start state) : Inv state := by
  induction reach with
  | start => exact initial
  | step action _ admits taken ih => exact preserved action _ _ admits taken ih

/-- Weakening the side condition admits more runs. -/
theorem Reach.mono (weaker : ∀ action state, Admits action state → Admits' action state)
    {state : σ} (reach : Reach step Admits start state) : Reach step Admits' start state := by
  induction reach with
  | start => exact .start
  | step action _ admits taken ih => exact .step action ih (weaker action _ admits) taken

/-- A run through these actions; `none` where one of them is not admitted or not
possible. -/
def run (step : α → σ → Option σ) (admits : α → σ → Bool) : List α → σ → Option σ
  | [], state => some state
  | action :: rest, state =>
      if admits action state then (step action state).bind (run step admits rest) else none

/-- One run goes on where the other ends. -/
theorem run_append {admits : α → σ → Bool} {first second : List α} {state middle : σ}
    (ran : run step admits first state = some middle) :
    run step admits (first ++ second) state = run step admits second middle := by
  induction first generalizing state with
  | nil => exact Option.some.inj ran ▸ rfl
  | cons action rest ih =>
      rw [run] at ran
      rw [List.cons_append, run]
      split at ran
      · next admitted =>
          obtain ⟨next, taken, ran⟩ := Option.bind_eq_some_iff.mp ran
          rw [if_pos admitted, taken]
          exact ih ran
      · cases ran

/-- Such a run ends in a state of a run. -/
theorem Reach.of_run {admits : α → σ → Bool}
    (sound : ∀ action state, admits action state = true → Admits action state) {actions : List α}
    {state final : σ} (reach : Reach step Admits start state)
    (ran : run step admits actions state = some final) : Reach step Admits start final := by
  induction actions generalizing state with
  | nil => exact Option.some.inj ran ▸ reach
  | cons action rest ih =>
      rw [run] at ran
      split at ran
      · next admitted =>
          obtain ⟨next, taken, ran⟩ := Option.bind_eq_some_iff.mp ran
          exact ih (.step action reach (sound _ _ admitted) taken) ran
      · cases ran

/-- What each action may add, a run adds at most. -/
theorem run_amortized {admits : α → σ → Bool} {potential : σ → Nat} {allowance : α → Nat}
    (paid : ∀ action state next, step action state = some next →
      potential next ≤ potential state + allowance action)
    {actions : List α} {state final : σ} (ran : run step admits actions state = some final) :
    potential final ≤ potential state + (actions.map allowance).sum := by
  induction actions generalizing state with
  | nil =>
      obtain rfl := Option.some.inj ran
      exact Nat.le_refl _
  | cons action rest ih =>
      rw [run] at ran
      split at ran
      · next admitted =>
          obtain ⟨next, taken, ran⟩ := Option.bind_eq_some_iff.mp ran
          have first := paid action state next taken
          have later := ih ran
          rw [List.map_cons, List.sum_cons]
          omega
      · cases ran

end ActionSystem
