import Mathlib.Algebra.Order.BigOperators.Group.List
import Mathlib.Algebra.Order.Floor.Div

/-!
# Service in bounded rounds

A queue whose jobs are served in order, a bounded number of them in each
round.  While nothing joins the queue, it is empty after enough rounds and
further rounds change nothing.  What joins it in each round beyond the capacity
of the round adds up.
-/

namespace Service

variable {α : Type*}

/-- The jobs that were served, in order, and the jobs that wait. -/
structure Queue (α : Type*) where
  served : List α
  waiting : List α

namespace Queue

/-- One round, in which at most `budget` jobs are served. -/
def serve (budget : Nat) (queue : Queue α) : Queue α where
  served := queue.served ++ queue.waiting.take budget
  waiting := queue.waiting.drop budget

theorem serve_zero (queue : Queue α) : queue.serve 0 = queue := by
  rw [serve, List.take_zero, List.append_nil, List.drop_zero]

/-- Nothing waits, so nothing is served. -/
theorem serve_idle (served : List α) (budget : Nat) :
    (Queue.mk served []).serve budget = ⟨served, []⟩ := by
  rw [serve, List.take_nil, List.append_nil, List.drop_nil]

/-- A round serves its first job and then the others. -/
theorem serve_cons (served : List α) (job : α) (waiting : List α) (budget : Nat) :
    (Queue.mk served (job :: waiting)).serve (budget + 1) =
      (Queue.mk (served ++ [job]) waiting).serve budget := by
  simp only [serve, List.take_succ_cons, List.drop_succ_cons, List.append_assoc,
    List.singleton_append]

/-- Rounds add up. -/
theorem serve_serve (first second : Nat) (queue : Queue α) :
    (queue.serve first).serve second = queue.serve (first + second) := by
  simp only [serve, List.append_assoc, List.take_add, List.drop_drop]

theorem serve_iterate (budget rounds : Nat) (queue : Queue α) :
    (serve budget)^[rounds] queue = queue.serve (budget * rounds) := by
  induction rounds generalizing queue with
  | zero => exact queue.serve_zero.symm
  | succ rounds ih =>
      rw [Function.iterate_succ_apply, ih, serve_serve, Nat.mul_succ, Nat.add_comm]

/-- The number of rounds that serve everything. -/
theorem waiting_iterate_eq_nil {budget : Nat} (positive : 0 < budget) (queue : Queue α)
    (rounds : Nat) :
    ((serve budget)^[rounds] queue).waiting = [] ↔ queue.waiting.length ⌈/⌉ budget ≤ rounds := by
  rw [serve_iterate, ceilDiv_le_iff_le_mul positive]
  exact List.drop_eq_nil_iff

/-- Whatever the budget, a queue is served in the order in which it waits. -/
theorem served_append_waiting (budget rounds : Nat) (queue : Queue α) :
    ((serve budget)^[rounds] queue).served ++ ((serve budget)^[rounds] queue).waiting =
      queue.served ++ queue.waiting := by
  rw [serve_iterate, serve, List.append_assoc, List.take_append_drop]

end Queue

/-! ## Load beyond the capacity of a round -/

/-- What these arrivals, one in each round, add up to beyond the capacity of each round. -/
def excess (capacity : Nat) (arrivals : List Nat) : Nat :=
  (arrivals.map fun arrival => arrival - capacity).sum

theorem excess_concat (capacity : Nat) (arrivals : List Nat) (arrival : Nat) :
    excess capacity (arrivals ++ [arrival]) = excess capacity arrivals + (arrival - capacity) := by
  rw [excess, List.map_append, List.sum_append, List.map_singleton, List.sum_singleton, excess]

end Service
