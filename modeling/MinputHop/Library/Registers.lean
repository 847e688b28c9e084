import Mathlib.Data.List.Induction
import Mathlib.Logic.Function.Basic
import Mathlib.Tactic.Common
import MinputHop.Library.ActionSystem

/-!
# Registers that are written one at a time

A log of writes and the registers that it leaves.  Each register holds what the
latest write to it wrote, or what it held at the start.  A log in which every
write is undone later leaves all registers at rest.
-/

namespace Registers

variable {ι κ β : Type*} [DecidableEq ι]

/-- The registers after some writes. -/
def store (init : ι → β) (writes : List (ι × β)) : ι → β :=
  writes.foldl (fun registers write => Function.update registers write.1 write.2) init

/-- What the latest write to a register wrote. -/
def latest? (writes : List (ι × β)) (i : ι) : Option β :=
  (writes.reverse.find? (·.1 = i)).map Prod.snd

variable {init : ι → β} {writes : List (ι × β)} {i : ι} {b : β}

@[simp] theorem store_nil (init : ι → β) : store init [] = init := rfl

theorem store_append (init : ι → β) (first second : List (ι × β)) :
    store init (first ++ second) = store (store init first) second :=
  List.foldl_append

theorem store_concat (init : ι → β) (writes : List (ι × β)) (write : ι × β) :
    store init (writes ++ [write]) = Function.update (store init writes) write.1 write.2 :=
  store_append init writes [write]

@[simp] theorem latest?_nil (i : ι) : latest? ([] : List (ι × β)) i = none := rfl

theorem latest?_concat (writes : List (ι × β)) (write : ι × β) (i : ι) :
    latest? (writes ++ [write]) i = if write.1 = i then some write.2 else latest? writes i := by
  unfold latest?
  by_cases same : write.1 = i <;> simp [same]

/-- A register holds what was written last, or what it held at the start. -/
theorem store_apply (init : ι → β) (writes : List (ι × β)) (i : ι) :
    store init writes i = (latest? writes i).getD (init i) := by
  induction writes using List.reverseRecOn with
  | nil => simp
  | append_singleton writes write ih =>
      rw [store_concat, latest?_concat]
      by_cases same : write.1 = i
      · subst same
        simp
      · have other : i ≠ write.1 := fun eq => same eq.symm
        simp [same, Function.update_of_ne other, ih]

/-- The latest write to a register has no other one to it behind it. -/
theorem latest?_eq_some_iff :
    latest? writes i = some b ↔
      ∃ before after, writes = before ++ (i, b) :: after ∧ ∀ write ∈ after, write.1 ≠ i := by
  rw [latest?, Option.map_eq_some_iff]
  constructor
  · rintro ⟨write, found, rfl⟩
    obtain ⟨same, after, before, split, later⟩ := List.find?_eq_some_iff_append.mp found
    obtain rfl := of_decide_eq_true same
    refine ⟨before.reverse, after.reverse, ?_, fun other member => ?_⟩
    · rw [← List.reverse_reverse writes, split]
      simp
    · simpa using later other (List.mem_reverse.mp member)
  · rintro ⟨before, after, rfl, later⟩
    refine ⟨(i, b), List.find?_eq_some_iff_append.mpr ?_, rfl⟩
    refine ⟨decide_eq_true rfl, after.reverse, before.reverse, by simp, fun other member => ?_⟩
    simpa using later other (List.mem_reverse.mp member)

/-- Every write of something else than `rest` has a write of `rest` to the same
register behind it. -/
def Undone (rest : β) (writes : List (ι × β)) : Prop :=
  ∀ before i b after, writes = before ++ (i, b) :: after → b ≠ rest → (i, rest) ∈ after

/-- Where everything is undone, all registers are at rest. -/
theorem Undone.store_eq {rest : β} (undone : Undone rest writes) :
    store (fun _ => rest) writes = fun _ => rest := by
  funext i
  rw [store_apply]
  cases latest : latest? writes i with
  | none => rfl
  | some b =>
      obtain ⟨before, after, split, later⟩ := latest?_eq_some_iff.mp latest
      by_contra busy
      exact later (i, rest) (undone before i b after split busy) rfl

/-- A component of a state that each entry of a log writes to once at most. -/
theorem store_foldl {σ : Type*} (component : σ → ι → β) {after : σ → κ → σ}
    {write? : κ → Option (ι × β)}
    (one : ∀ state entry, component (after state entry) =
      store (component state) (write? entry).toList) (state : σ) (log : List κ) :
    component (log.foldl after state) = store (component state) (log.filterMap write?) := by
  induction log generalizing state with
  | nil => rfl
  | cons entry log ih =>
      rw [List.foldl_cons, ih, one, ← store_append]
      cases written : write? entry <;> simp [written]

/-- What comes out of a log when its entries are writes, or none. -/
theorem latest?_filterMap_eq_some_iff {log : List κ} {write? : κ → Option (ι × β)} :
    latest? (log.filterMap write?) i = some b ↔
      ∃ before entry after, log = before ++ entry :: after ∧ write? entry = some (i, b) ∧
        ∀ later ∈ after, ∀ c, write? later ≠ some (i, c) := by
  rw [latest?_eq_some_iff]
  constructor
  · rintro ⟨before, after, split, later⟩
    obtain ⟨front, back, rfl, front_eq, back_eq⟩ := List.filterMap_eq_append_iff.mp split
    obtain ⟨skipped, entry, rest, rfl, none, entry_eq, rest_eq⟩ :=
      List.filterMap_eq_cons_iff.mp back_eq
    refine ⟨front ++ skipped, entry, rest, by simp, entry_eq, fun other member c same => ?_⟩
    exact later (i, c) (rest_eq ▸ List.mem_filterMap.mpr ⟨other, member, same⟩) rfl
  · rintro ⟨before, entry, after, rfl, entry_eq, later⟩
    refine ⟨before.filterMap write?, after.filterMap write?, ?_, fun write member same => ?_⟩
    · rw [List.filterMap_append, List.filterMap_cons_some entry_eq]
    · obtain ⟨other, behind, write_eq⟩ := List.mem_filterMap.mp member
      exact later other behind write.2 (by rw [write_eq, ← same])

omit [DecidableEq ι] in
/-- Where each entry of a log that writes something else than `rest` has an entry
behind it that writes `rest` to the same register, everything is undone. -/
theorem undone_filterMap {log : List κ} {write? : κ → Option (ι × β)} {rest : β}
    (undoes : ∀ before entry after i b, log = before ++ entry :: after →
      write? entry = some (i, b) → b ≠ rest → ∃ later ∈ after, write? later = some (i, rest)) :
    Undone rest (log.filterMap write?) := by
  intro before i b after split busy
  obtain ⟨front, back, rfl, _, back_eq⟩ := List.filterMap_eq_append_iff.mp split
  obtain ⟨skipped, entry, behind, rfl, _, entry_eq, behind_eq⟩ :=
    List.filterMap_eq_cons_iff.mp back_eq
  obtain ⟨later, member, undo⟩ :=
    undoes (front ++ skipped) entry behind i b (by simp) entry_eq busy
  exact behind_eq ▸ List.mem_filterMap.mpr ⟨later, member, undo⟩

/-! ## One register -/

/-- The latest value in a log that has a value in some of its entries. -/
def last? (value? : κ → Option β) (log : List κ) : Option β := (log.filterMap value?).getLast?

theorem last?_concat (value? : κ → Option β) (log : List κ) (entry : κ) :
    last? value? (log ++ [entry]) = (value? entry).or (last? value? log) := by
  unfold last?
  cases value : value? entry <;> simp [value]

theorem last?_append (value? : κ → Option β) (first second : List κ) :
    last? value? (first ++ second) = (last? value? second).or (last? value? first) := by
  unfold last?
  rw [List.filterMap_append, List.getLast?_append]

theorem last?_cons (value? : κ → Option β) (entry : κ) (log : List κ) :
    last? value? (entry :: log) = (last? value? log).or (value? entry) := by
  unfold last?
  cases value : value? entry with
  | none => rw [List.filterMap_cons_none value, Option.or_none]
  | some b =>
      rw [List.filterMap_cons_some value, List.getLast?_cons]
      cases (log.filterMap value?).getLast? <;> rfl

/-- The latest value has no other one behind it. -/
theorem last?_eq_some_iff {value? : κ → Option β} {log : List κ} :
    last? value? log = some b ↔
      ∃ before entry after, log = before ++ entry :: after ∧ value? entry = some b ∧
        ∀ later ∈ after, value? later = none := by
  rw [last?, List.getLast?_eq_some_iff]
  constructor
  · rintro ⟨values, split⟩
    obtain ⟨front, back, rfl, _, back_eq⟩ := List.filterMap_eq_append_iff.mp split
    obtain ⟨skipped, entry, behind, rfl, _, entry_eq, behind_eq⟩ :=
      List.filterMap_eq_cons_iff.mp back_eq
    refine ⟨front ++ skipped, entry, behind, by simp, entry_eq, ?_⟩
    exact List.filterMap_eq_nil_iff.mp behind_eq
  · rintro ⟨before, entry, after, rfl, entry_eq, later⟩
    refine ⟨before.filterMap value?, ?_⟩
    rw [List.filterMap_append, List.filterMap_cons_some entry_eq,
      List.filterMap_eq_nil_iff.mpr later]

/-- A component of the state that some actions replace holds, behind a run, what the
last of these put there; `Good` is what the steps need and keep. -/
theorem last?_run {α σ : Type} {step : α → σ → Option σ} {admits : α → σ → Bool}
    {Good : σ → Prop} (component : σ → β) {value? : α → Option β}
    (one : ∀ {action state next}, Good state → step action state = some next →
      Good next ∧ component next = (value? action).getD (component state))
    {actions : List α} {state final : σ} (good : Good state)
    (ran : ActionSystem.run step admits actions state = some final) :
    Good final ∧ component final = (last? value? actions).getD (component state) := by
  induction actions generalizing state with
  | nil => exact Option.some.inj ran ▸ ⟨good, rfl⟩
  | cons action actions ih =>
      rw [ActionSystem.run] at ran
      split at ran
      · obtain ⟨next, taken, ran⟩ := Option.bind_eq_some_iff.mp ran
        obtain ⟨still, put⟩ := one good taken
        obtain ⟨good, held⟩ := ih still ran
        refine ⟨good, ?_⟩
        rw [held, put, last?_cons]
        cases last? value? actions <;> rfl
      · cases ran

end Registers
