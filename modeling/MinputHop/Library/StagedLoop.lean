import Mathlib.Logic.Function.Iterate

/-!
# Loops whose body runs in stages

A pass of the loop goes through stages until it returns; then the next pass
starts with a fresh input from outside.  `Reach` collects every state met at
every stage of every run, restricted to steps that a side condition admits, so
an invariant over it speaks about the inside of a pass as well as about its
result.
-/

namespace StagedLoop

/-- A loop body cut into stages. -/
structure Loop (ι κ σ : Type) where
  step : ι → κ → σ → κ × σ
  /-- The stage at which a pass starts. -/
  entry : κ
  /-- The stage from which another pass may start. -/
  again : κ

variable {ι κ σ : Type} (loop : Loop ι κ σ)

/-- The stages and states met in one pass. -/
inductive Visits (input : ι) (start : σ) : κ → σ → Prop where
  | enter : Visits input start loop.entry start
  | step {stage : κ} {state : σ} :
      Visits input start stage state →
      Visits input start (loop.step input stage state).1 (loop.step input stage state).2

/-- The stages and states met in a run all of whose steps are admitted. -/
inductive Reach (Admits : ι → κ → σ → Prop) (start : σ) : ι → κ → σ → Prop where
  | first (input : ι) : Reach Admits start input loop.entry start
  | step {input : ι} {stage : κ} {state : σ} :
      Reach Admits start input stage state → Admits input stage state →
      Reach Admits start input (loop.step input stage state).1 (loop.step input stage state).2
  | next {input : ι} {state : σ} (fresh : ι) :
      Reach Admits start input loop.again state → Reach Admits start fresh loop.entry state

/-- `n` steps of one pass. -/
def Loop.steps (input : ι) : Nat → κ × σ → κ × σ
  | 0, reached => reached
  | n + 1, reached => Loop.steps input n (loop.step input reached.1 reached.2)

/-- Whether `n` steps of one pass, and the one behind them, are admitted. -/
def Loop.admits (Admits : ι → κ → σ → Prop) [∀ input stage state, Decidable (Admits input stage state)]
    (input : ι) : Nat → κ × σ → Bool
  | 0, reached => decide (Admits input reached.1 reached.2)
  | n + 1, reached =>
      decide (Admits input reached.1 reached.2) &&
        Loop.admits Admits input n (loop.step input reached.1 reached.2)

variable {loop} {Admits Admits' : ι → κ → σ → Prop} {start : σ}

/-- The invariant rule.  A step may use that its state is itself reached. -/
theorem Reach.invariant {Inv : κ → σ → Prop}
    (initial : Inv loop.entry start)
    (preserved : ∀ input stage state, Reach loop Admits start input stage state →
      Admits input stage state → Inv stage state →
      Inv (loop.step input stage state).1 (loop.step input stage state).2)
    (restart : ∀ state, Inv loop.again state → Inv loop.entry state)
    {input : ι} {stage : κ} {state : σ} (reach : Reach loop Admits start input stage state) :
    Inv stage state := by
  induction reach with
  | first input => exact initial
  | step reach admits ih => exact preserved _ _ _ reach admits ih
  | next fresh _ ih => exact restart _ ih

/-- Weakening the side condition admits more runs. -/
theorem Reach.mono (weaker : ∀ input stage state, Admits input stage state →
      Admits' input stage state)
    {input : ι} {stage : κ} {state : σ} (reach : Reach loop Admits start input stage state) :
    Reach loop Admits' start input stage state := by
  induction reach with
  | first input => exact .first input
  | step _ admits ih => exact .step ih (weaker _ _ _ admits)
  | next fresh _ ih => exact .next fresh ih

/-- A pass that starts in a reached state stays inside the run. -/
theorem Reach.visits {input : ι} {state : σ}
    (reach : Reach loop Admits start input loop.entry state)
    (admits : ∀ stage state', Visits loop input state stage state' → Admits input stage state')
    {stage : κ} {state' : σ} (visits : Visits loop input state stage state') :
    Reach loop Admits start input stage state' := by
  induction visits with
  | enter => exact reach
  | step visits ih => exact .step ih (admits _ _ visits)

/-- Each of the steps that were checked is admitted. -/
theorem Loop.admits_steps [∀ input stage state, Decidable (Admits input stage state)] {input : ι}
    {n k : Nat} {reached : κ × σ} (admits : loop.admits Admits input n reached = true) (le : k ≤ n) :
    Admits input (loop.steps input k reached).1 (loop.steps input k reached).2 := by
  induction n generalizing k reached with
  | zero =>
      obtain rfl := Nat.le_zero.mp le
      exact of_decide_eq_true admits
  | succ n ih =>
      obtain ⟨first, rest⟩ := (Bool.and_eq_true _ _).mp admits
      cases k with
      | zero => exact of_decide_eq_true first
      | succ k =>
          have later := ih rest (Nat.le_of_succ_le_succ le)
          exact later

/-- A run goes on for as many steps as are admitted. -/
theorem Reach.steps_within {input : ι} {reached : κ × σ}
    (reach : Reach loop Admits start input reached.1 reached.2) (n : Nat)
    (admits : ∀ k < n, Admits input (loop.steps input k reached).1 (loop.steps input k reached).2) :
    Reach loop Admits start input (loop.steps input n reached).1 (loop.steps input n reached).2 := by
  induction n generalizing reached with
  | zero => exact reach
  | succ n ih =>
      have first : Admits input reached.1 reached.2 := admits 0 n.succ_pos
      exact ih (.step reach first) fun k less => admits (k + 1) (Nat.succ_lt_succ less)

/-- Where every step is admitted, it goes on for any number of steps. -/
theorem Reach.steps (everything : ∀ input stage state, Admits input stage state) {input : ι}
    {reached : κ × σ} (reach : Reach loop Admits start input reached.1 reached.2) (n : Nat) :
    Reach loop Admits start input (loop.steps input n reached).1 (loop.steps input n reached).2 :=
  reach.steps_within n fun _ _ => everything _ _ _

theorem Loop.steps_eq_iterate (input : ι) (n : Nat) (reached : κ × σ) :
    loop.steps input n reached =
      (fun reached : κ × σ => loop.step input reached.1 reached.2)^[n] reached := by
  induction n generalizing reached with
  | zero => rfl
  | succ n ih => exact ih _

/-- The stages and states of a pass are those that the steps lead to. -/
theorem Visits.exists_iterate {input : ι} {stage : κ} {state : σ}
    (visits : Visits loop input start stage state) :
    ∃ n, (fun reached : κ × σ => loop.step input reached.1 reached.2)^[n] (loop.entry, start) =
      (stage, state) := by
  induction visits with
  | enter => exact ⟨0, rfl⟩
  | step _ ih =>
      obtain ⟨n, reached⟩ := ih
      exact ⟨n + 1, by rw [Function.iterate_succ_apply', reached]⟩

/-- A pass that comes to rest behind steps that were checked visits nothing else. -/
theorem Visits.admitted [∀ input stage state, Decidable (Admits input stage state)] {input : ι} {n : Nat}
    {stage : κ} {state : σ} (visits : Visits loop input start stage state)
    (admits : loop.admits Admits input n (loop.entry, start) = true)
    (rests : loop.step input (loop.steps input n (loop.entry, start)).1
      (loop.steps input n (loop.entry, start)).2 = loop.steps input n (loop.entry, start)) :
    Admits input stage state := by
  obtain ⟨m, reached⟩ := visits.exists_iterate
  rw [← Loop.steps_eq_iterate] at reached
  rcases Nat.le_total m n with le | le
  · have admitted := Loop.admits_steps admits le
    rwa [reached] at admitted
  · obtain ⟨more, rfl⟩ := Nat.exists_eq_add_of_le' le
    rw [Loop.steps_eq_iterate, Function.iterate_add_apply, ← Loop.steps_eq_iterate input n,
      Function.iterate_fixed rests] at reached
    have admitted := Loop.admits_steps admits n.le_refl
    rwa [reached] at admitted

/-- A pass comes to rest in one way at most. -/
theorem Visits.eq_of_rests {input : ι} {stage stage' : κ} {state state' : σ}
    (visits : Visits loop input start stage state)
    (rests : loop.step input stage state = (stage, state))
    (visits' : Visits loop input start stage' state')
    (rests' : loop.step input stage' state' = (stage', state')) :
    (stage, state) = (stage', state') := by
  obtain ⟨n, reached⟩ := visits.exists_iterate
  obtain ⟨m, reached'⟩ := visits'.exists_iterate
  rcases Nat.le_total n m with le | le
  · obtain ⟨more, rfl⟩ := Nat.exists_eq_add_of_le' le
    rw [Function.iterate_add_apply, reached, Function.iterate_fixed rests] at reached'
    exact reached'
  · obtain ⟨more, rfl⟩ := Nat.exists_eq_add_of_le' le
    rw [Function.iterate_add_apply, reached', Function.iterate_fixed rests'] at reached
    exact reached.symm

end StagedLoop
