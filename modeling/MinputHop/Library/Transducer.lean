import Mathlib.Data.List.Forall2

/-!
# Transducers

A transducer reads symbols one at a time and writes some output for each.  A
simulation between two of them, over related symbols, makes their outputs the
same.
-/

/-- A machine over states `σ` that reads `α` and writes `β`. -/
structure Transducer (σ α β : Type*) where
  next : σ → α → σ
  emit : σ → α → List β

namespace Transducer

variable {σ σ' α α' β : Type*}

/-- The state after some symbols. -/
def final (machine : Transducer σ α β) (state : σ) (input : List α) : σ :=
  input.foldl machine.next state

/-- The output on some symbols. -/
def run (machine : Transducer σ α β) : σ → List α → List β
  | _, [] => []
  | state, symbol :: rest => machine.emit state symbol ++ machine.run (machine.next state symbol) rest

variable {machine : Transducer σ α β}

theorem final_concat (state : σ) (input : List α) (last : α) :
    machine.final state (input ++ [last]) = machine.next (machine.final state input) last :=
  List.foldl_concat ..

theorem run_append (state : σ) (first second : List α) :
    machine.run state (first ++ second) =
      machine.run state first ++ machine.run (machine.final state first) second := by
  induction first generalizing state with
  | nil => rfl
  | cons symbol first ih =>
      rw [List.cons_append, run, run, ih, List.append_assoc]
      rfl

theorem run_concat (state : σ) (input : List α) (last : α) :
    machine.run state (input ++ [last]) =
      machine.run state input ++ machine.emit (machine.final state input) last := by
  rw [run_append, run, run, List.append_nil]

/-- What was written was written for some symbol. -/
theorem mem_run {state : σ} {input : List α} {output : β} (member : output ∈ machine.run state input) :
    ∃ reached, ∃ symbol ∈ input, output ∈ machine.emit reached symbol := by
  induction input generalizing state with
  | nil => simp [run] at member
  | cons symbol rest ih =>
      rcases List.mem_append.mp member with here | later
      · exact ⟨state, symbol, List.mem_cons_self, here⟩
      · obtain ⟨reached, other, among, written⟩ := ih later
        exact ⟨reached, other, List.mem_cons_of_mem symbol among, written⟩

/-- A part of the output that each symbol decides alone. -/
theorem filterMap_run {γ : Type*} {part : β → Option γ} {part' : α → Option γ}
    {input : List α} (decided : ∀ state, ∀ symbol ∈ input,
      (machine.emit state symbol).filterMap part = (part' symbol).toList) (state : σ) :
    (machine.run state input).filterMap part = input.filterMap part' := by
  induction input generalizing state with
  | nil => rfl
  | cons symbol rest ih =>
      have later := ih fun state other member => decided state other (List.mem_cons_of_mem _ member)
      rw [run, List.filterMap_append, decided state symbol List.mem_cons_self, later]
      cases written : part' symbol <;> simp [written]

/-- Related states and symbols give the same output and related states. -/
structure Simulates (machine : Transducer σ α β) (machine' : Transducer σ' α' β)
    (State : σ → σ' → Prop) (Symbol : α → α' → Prop) : Prop where
  emit : ∀ {state state' symbol symbol'}, State state state' → Symbol symbol symbol' →
    machine.emit state symbol = machine'.emit state' symbol'
  next : ∀ {state state' symbol symbol'}, State state state' → Symbol symbol symbol' →
    State (machine.next state symbol) (machine'.next state' symbol')

theorem Simulates.run {machine' : Transducer σ' α' β} {State : σ → σ' → Prop}
    {Symbol : α → α' → Prop} (simulates : Simulates machine machine' State Symbol)
    {state : σ} {state' : σ'} (related : State state state')
    {input : List α} {input' : List α'} (symbols : List.Forall₂ Symbol input input') :
    machine.run state input = machine'.run state' input' := by
  induction symbols generalizing state state' with
  | nil => rfl
  | cons symbol _ ih =>
      rw [Transducer.run, Transducer.run, simulates.emit related symbol,
        ih (simulates.next related symbol)]

theorem Simulates.final {machine' : Transducer σ' α' β} {State : σ → σ' → Prop}
    {Symbol : α → α' → Prop} (simulates : Simulates machine machine' State Symbol)
    {state : σ} {state' : σ'} (related : State state state')
    {input : List α} {input' : List α'} (symbols : List.Forall₂ Symbol input input') :
    State (machine.final state input) (machine'.final state' input') := by
  induction symbols generalizing state state' with
  | nil => exact related
  | cons symbol _ ih => exact ih (simulates.next related symbol)

end Transducer
