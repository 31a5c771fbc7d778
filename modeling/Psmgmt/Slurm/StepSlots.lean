import Mathlib

/-!
# Slots of a step

`setStepSlots()` of `psslurmpin.c` fills the slots of a step by the task IDs
that the launch request gives for each node.
-/

namespace Psmgmt.Slurm.StepSlots

open List Function

/-- A global task ID and what `setCPUset()` does for it: whether it succeeds
and what it leaves in the CPU set. -/
structure Task (CpuSet : Type*) where
  tid : Nat
  pinned : Bool
  cpuSet : CpuSet

/-- A CPU set, and if it succeeded a node, written to a slot. -/
structure Write (CpuSet : Type*) where
  tid : Nat
  cpuSet : CpuSet
  node : Option Int

structure Step (CpuSet : Type*) where
  np : Nat
  globalTaskIds : List (Int × List (Task CpuSet))

variable {CpuSet : Type*}

/-- The tasks in the order of both loops. -/
def Step.tasks (step : Step CpuSet) : List (Int × Task CpuSet) :=
  step.globalTaskIds.flatMap fun (node, tasks) => tasks.map (node, ·)

/-- The loops over nodes and task IDs and whether they end without error. -/
def setSlots (slotsSize : Nat) :
    List (Int × Task CpuSet) → List (Write CpuSet) → Bool × List (Write CpuSet)
  | [], writes => (true, writes)
  | (node, task) :: rest, writes =>
    if task.tid > slotsSize then (false, writes)
    else if task.pinned = false then
      (false, writes ++ [⟨task.tid, task.cpuSet, none⟩])
    else
      setSlots slotsSize rest (writes ++ [⟨task.tid, task.cpuSet, some node⟩])

/-- The CPU sets in memory that was not initialised before. -/
def cpuSets (memory : Nat → CpuSet) (writes : List (Write CpuSet)) : Nat → CpuSet :=
  writes.foldl (fun sets write => update sets write.tid write.cpuSet) memory

def countThreads (getCPUs : CpuSet → Nat) (slotsSize : Nat) (sets : Nat → CpuSet) : Nat :=
  ((List.range slotsSize).map fun slot => getCPUs (sets slot)).sum % 2 ^ 32

/-- The number of HW-threads, if the step gets its slots, and what has been
written to them. -/
def setStepSlots (getCPUs : CpuSet → Nat) (memory : Nat → CpuSet)
    (step : Step CpuSet) : Option Nat × List (Write CpuSet) :=
  match setSlots step.np step.tasks [] with
  | (false, writes) => (none, writes)
  | (true, writes) =>
    let numThreads := countThreads getCPUs step.np (cpuSets memory writes)
    if numThreads = 0 then (none, writes) else (some numThreads, writes)

/-- Only slots of the step are written to, and if it gets them each of them is
assigned exactly once. -/
structure Filled (np : Nat) (result : Option Nat × List (Write CpuSet)) :
    Prop where
  inside : ∀ write ∈ result.2, write.tid < np
  complete : result.1.isSome = true → ∀ slot < np, (result.2.map Write.tid).count slot = 1

/-! ## The tasks that are reached -/

/-- The loops go on behind the task. -/
def passes (slotsSize : Nat) (task : Int × Task CpuSet) : Bool :=
  decide (task.2.tid ≤ slotsSize) && task.2.pinned

/-- The tasks whose slots are written to: those before the first that does not
pass, and this one if it is `setCPUset()` that fails. -/
def reached (slotsSize : Nat) : List (Int × Task CpuSet) → List (Int × Task CpuSet)
  | [] => []
  | task :: rest =>
    if task.2.tid > slotsSize then []
    else if task.2.pinned = false then [task]
    else task :: reached slotsSize rest

def writeOf (task : Int × Task CpuSet) : Write CpuSet where
  tid := task.2.tid
  cpuSet := task.2.cpuSet
  node := if task.2.pinned then some task.1 else none

/-- No task ID is the number of slots, up to the first that is too large or not
pinned, and if there is none of these the IDs are those of the slots, each once,
unless all CPU sets are empty. -/
structure Consistent (getCPUs : CpuSet → Nat) (memory : Nat → CpuSet)
    (step : Step CpuSet) : Prop where
  inside : ∀ task ∈ reached step.np step.tasks, task.2.tid ≠ step.np
  complete : step.tasks.all (passes step.np) = true →
    countThreads getCPUs step.np (cpuSets memory (step.tasks.map writeOf)) ≠ 0 →
      (step.tasks.map (·.2.tid)).Perm (List.range step.np)

variable {slotsSize : Nat} {tasks : List (Int × Task CpuSet)}

theorem setSlots_eq (tasks : List (Int × Task CpuSet)) :
    ∀ writes, setSlots slotsSize tasks writes = (tasks.all (passes slotsSize),
      writes ++ (reached slotsSize tasks).map writeOf) := by
  induction tasks with
  | nil =>
    intro writes
    simp [setSlots, reached]
  | cons first rest induction =>
    intro writes
    obtain ⟨node, task⟩ := first
    rw [setSlots, reached, all_cons, passes]
    by_cases large : task.tid > slotsSize
    · simp [large, Nat.not_le.mpr large]
    cases pinned : task.pinned with
    | false => simp [large, pinned, writeOf]
    | true => simp [large, pinned, writeOf, Nat.not_lt.mp large, induction]

theorem reached_of_all (passing : tasks.all (passes slotsSize) = true) :
    reached slotsSize tasks = tasks := by
  induction tasks with
  | nil => rfl
  | cons task rest induction =>
    obtain ⟨first, later⟩ := Bool.and_eq_true_iff.mp passing
    obtain ⟨small, pinned⟩ := Bool.and_eq_true_iff.mp first
    rw [reached, if_neg (Nat.not_lt.mpr (of_decide_eq_true small)),
      if_neg (by simp [pinned]), induction later]

theorem reached_le (tasks : List (Int × Task CpuSet)) :
    ∀ task ∈ reached slotsSize tasks, task.2.tid ≤ slotsSize := by
  induction tasks with
  | nil => simp [reached]
  | cons first rest induction =>
    intro task member
    rw [reached] at member
    split at member
    · cases member
    next small =>
    split at member
    · cases mem_singleton.mp member
      exact Nat.not_lt.mp small
    · rcases mem_cons.mp member with rfl | later
      · exact Nat.not_lt.mp small
      · exact induction task later

theorem perm_range_iff {n : Nat} {tids : List Nat}
    (inside : ∀ tid ∈ tids, tid < n) :
    tids.Perm (List.range n) ↔ ∀ slot < n, tids.count slot = 1 := by
  rw [perm_iff_count]
  constructor
  · intro counts slot below
    rw [counts, count_range, if_pos below]
  · intro once slot
    rw [count_range]
    split
    · next below => exact once slot below
    · next above => exact count_eq_zero.mpr fun member => above (inside slot member)

/-- The slots are filled completely and within bounds if and only if the task
IDs are consistent. -/
theorem filled_iff (getCPUs : CpuSet → Nat) (memory : Nat → CpuSet)
    (step : Step CpuSet) :
    Filled step.np (setStepSlots getCPUs memory step) ↔ Consistent getCPUs memory step := by
  have inside : (∀ write ∈ (reached step.np step.tasks).map writeOf,
      write.tid < step.np) ↔ ∀ task ∈ reached step.np step.tasks, task.2.tid ≠ step.np := by
    rw [forall_mem_map]
    refine forall₂_congr fun task member => ?_
    have most := reached_le step.tasks task member
    exact ⟨Nat.ne_of_lt, Nat.lt_of_le_of_ne most⟩
  rw [setStepSlots, setSlots_eq, nil_append]
  cases passing : step.tasks.all (passes step.np) with
  | false =>
    constructor
    · intro filled
      exact ⟨inside.mp filled.inside, fun all => by simp [passing] at all⟩
    · intro right
      exact ⟨inside.mpr right.inside, fun some => nomatch some⟩
  | true =>
    dsimp only
    split
    · next none =>
      rw [reached_of_all passing] at none
      constructor
      · intro filled
        exact ⟨inside.mp filled.inside, fun _ some => absurd none some⟩
      · intro right
        exact ⟨inside.mpr right.inside, fun some => nomatch some⟩
    · next some =>
      rw [reached_of_all passing] at some inside ⊢
      have once (within : ∀ task ∈ step.tasks, task.2.tid ≠ step.np) :
          (step.tasks.map (·.2.tid)).Perm (List.range step.np) ↔
            ∀ slot < step.np, ((step.tasks.map writeOf).map Write.tid).count slot = 1 := by
        rw [map_map]
        exact perm_range_iff (forall_mem_map.mpr (forall_mem_map.mp (inside.mpr within)))
      constructor
      · intro filled
        have within := inside.mp filled.inside
        exact ⟨by rw [reached_of_all passing]; exact within,
          fun _ _ => (once within).mpr (filled.complete rfl)⟩
      · intro right
        have within := right.inside
        rw [reached_of_all passing] at within
        exact ⟨inside.mpr within,
          fun _ => (once within).mp (right.complete passing some)⟩

/-- The task ID of a single task is too large by one. -/
theorem not_filled : ¬ ∀ (getCPUs : Nat → Nat) (memory : Nat → Nat) (step : Step Nat),
        Filled step.np (setStepSlots getCPUs memory step) := by
  intro all
  have filled := all id (fun _ => 1) ⟨1, [(0, [⟨1, true, 1⟩])]⟩
  exact absurd (filled.inside ⟨1, 1, some 0⟩ (.head _)) (by decide)

end Psmgmt.Slurm.StepSlots
