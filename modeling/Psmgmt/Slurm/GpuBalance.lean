import Psmgmt.Slurm.GpuAssignment
import Psmgmt.Library.Sharing

/-!
# What the default GPU assignment gives to the tasks

In every round each task takes one GPU it does not have, whichever rank asks.
Where all GPUs are closest ones, it is a least assigned one.
-/

namespace Psmgmt.Slurm

open Partition Sharing List

/-! ## The least assigned GPU -/

/-- The number of tasks a GPU is assigned to. -/
def assigned (assignments : List Nat) (gpu : Nat) : Nat := assignments.getD gpu 0

theorem getElem?_assigned {assignments : List Nat} {gpu : Nat}
    (inside : gpu < assignments.length) :
    assignments[gpu]? = some (assigned assignments gpu) := by
  rw [assigned, getD_eq_getElem?_getD, getElem?_eq_getElem inside, Option.getD_some]

theorem assigned_set {assignments : List Nat} {gpu : Nat}
    (inside : gpu < assignments.length) (count other : Nat) :
    assigned (assignments.set gpu count) other =
      if other = gpu then count else assigned assignments other := by
  unfold assigned
  rw [getD_eq_getElem?_getD, getD_eq_getElem?_getD, getElem?_set]
  by_cases same : gpu = other
  · subst same
    simp [inside]
  · simp [same, Ne.symm same]

theorem cpuAny_iff {set : CPUSet} {numBits : Nat} (most : numBits ≤ cpuMax)
    (below : ∀ cpu ∈ set, cpu < numBits) :
    cpuAny set numBits = true ↔ set.Nonempty := by
  rw [cpuAny, decide_eq_true_iff]
  constructor
  · rintro ⟨cpu, member, _⟩
    exact ⟨cpu, member⟩
  · rintro ⟨cpu, member⟩
    have bound := below cpu member
    refine ⟨cpu, member, ?_⟩
    rw [Nat.min_eq_left most]
    omega

theorem findMinimum_spec {values : List Nat} {idcs : CPUSet} (below : ∀ i ∈ idcs, i < values.length)
    (indices : List Nat) {ret minVal : Nat} (member : ret ∈ idcs)
    (value : assigned values ret = minVal) :
    ∃ found, findMinimum values idcs indices ret minVal = some found ∧
      found ∈ idcs ∧ assigned values found ≤ minVal ∧
      ∀ i ∈ indices, i ∈ idcs → assigned values found ≤ assigned values i := by
  induction indices generalizing ret minVal with
  | nil => exact ⟨ret, rfl, member, Nat.le_of_eq value, by simp⟩
  | cons i rest induction =>
    by_cases used : i ∈ idcs
    · rw [findMinimum, if_neg (not_not.mpr used), getElem?_assigned (below i used)]
      dsimp only
      by_cases less : assigned values i < minVal
      · obtain ⟨found, equation, inside, least, others⟩ :=
          induction used rfl
        rw [if_pos less]
        refine ⟨found, equation, inside, by omega, ?_⟩
        intro other otherMember otherUsed
        rcases mem_cons.mp otherMember with rfl | later
        · exact least
        · exact others other later otherUsed
      · obtain ⟨found, equation, inside, least, others⟩ :=
          induction member value
        rw [if_neg less]
        refine ⟨found, equation, inside, least, ?_⟩
        intro other otherMember otherUsed
        rcases mem_cons.mp otherMember with rfl | later
        · omega
        · exact others other later otherUsed
    · obtain ⟨found, equation, inside, least, others⟩ :=
        induction member value
      rw [findMinimum, if_pos used]
      refine ⟨found, equation, inside, least, ?_⟩
      intro other otherMember otherUsed
      rcases mem_cons.mp otherMember with rfl | later
      · exact absurd otherUsed used
      · exact others other later otherUsed

theorem getMinimumIndex_spec {values : List Nat} {idcs : CPUSet} (some : idcs.Nonempty)
    (most : values.length ≤ cpuMax) (below : ∀ i ∈ idcs, i < values.length) :
    ∃ found, getMinimumIndex values idcs values.length = Option.some found ∧ found ∈ idcs ∧ ∀ i ∈
      idcs, assigned values found ≤ assigned values i := by
  have any := (cpuAny_iff most below).mpr some
  cases first : (List.range cpuMax).find? (fun cpu => decide (cpu ∈ idcs)) with
  | none =>
    obtain ⟨cpu, member⟩ := some
    have absent := find?_eq_none.mp first cpu
      (mem_range.mpr (Nat.lt_of_lt_of_le (below cpu member) most))
    simp [member] at absent
  | some ret =>
    have member : ret ∈ idcs := by
      have holds := find?_some first
      simpa using holds
    obtain ⟨found, equation, inside, least, others⟩ :=
      findMinimum_spec below (List.range' (ret + 1) (values.length - ret)) member rfl
    refine ⟨found, ?_, inside, ?_⟩
    · rw [getMinimumIndex, if_neg (by simp [any]), first]
      simp only [getElem?_assigned (below ret member)]
      exact equation
    · intro i used
      have bound := below i used
      rcases Nat.lt_trichotomy i ret with before | here | later
      · -- the first index is the smallest one
        have earlier := find?_range_eq_some.mp first
        have absent := earlier.2.2 i before
        simp [used] at absent
      · rw [here]
        exact least
      · refine others i ?_ used
        rw [mem_range'_1]
        omega

/-! ## One task -/

structure StepGpus (stepGPUs : CPUSet) (numGPUs : Nat) : Prop where
  most : numGPUs ≤ cpuMax
  below : ∀ gpu ∈ stepGPUs, gpu < numGPUs

/-- A task after it got a GPU in each of some rounds. -/
structure Served (stepGPUs : CPUSet) (rounds : Nat) (task : TaskGpus) :
    Prop where
  held : task.assGPUs ⊆ stepGPUs
  card : task.assGPUs.card = rounds
  avail : task.availGPUs ⊆ stepGPUs \ task.assGPUs
  all : task.useClosest = false → task.availGPUs = stepGPUs \ task.assGPUs

/-- The task may take any GPU of the step that it does not have. -/
def Free (stepGPUs : CPUSet) (task : TaskGpus) : Prop := task.availGPUs = stepGPUs \ task.assGPUs

section Task

variable {stepGPUs : CPUSet} {numGPUs rounds : Nat} {task : TaskGpus}
  {assignments : List Nat}

section

variable (served : Served stepGPUs rounds task)

include served

theorem Served.useAny : Served stepGPUs rounds (task.useAny stepGPUs) :=
  ⟨served.held, served.card, Finset.Subset.refl _, fun _ => rfl⟩

theorem Served.rest_nonempty (more : rounds < stepGPUs.card) :
    (stepGPUs \ task.assGPUs).Nonempty := by
  rw [← Finset.card_pos, Finset.card_sdiff_of_subset served.held, served.card]
  omega

theorem Served.avail_below (gpus : StepGpus stepGPUs numGPUs) :
    ∀ gpu ∈ task.availGPUs, gpu < numGPUs := by
  intro gpu member
  exact gpus.below gpu (Finset.mem_sdiff.mp (served.avail member)).1

theorem takeGpu_spec (gpus : StepGpus stepGPUs numGPUs) (length : assignments.length = numGPUs)
    {gpu : Nat} (available : gpu ∈ task.availGPUs) :
    ∃ after, takeGpu task assignments gpu =
        some (after, assignments.set gpu (assigned assignments gpu + 1)) ∧
      after.assGPUs = insert gpu task.assGPUs ∧
      Served stepGPUs (rounds + 1) after ∧
      (Free stepGPUs task → Free stepGPUs after) := by
  obtain ⟨supplied, new⟩ := Finset.mem_sdiff.mp (served.avail available)
  have bound : gpu < numGPUs := gpus.below gpu supplied
  have small : gpu < cpuMax := Nat.lt_of_lt_of_le bound gpus.most
  have set : setCPU task.assGPUs gpu = insert gpu task.assGPUs := if_pos small
  have rest : (stepGPUs \ task.assGPUs).erase gpu = stepGPUs \ insert gpu task.assGPUs := by
    ext other
    simp only [Finset.mem_erase, Finset.mem_sdiff, Finset.mem_insert]
    tauto
  refine ⟨{ task with
    availGPUs := task.availGPUs.erase gpu
    assGPUs := insert gpu task.assGPUs }, ?_, rfl, ⟨?_, ?_, ?_, ?_⟩, ?_⟩
  · rw [takeGpu, getElem?_assigned (by omega), set]
  · exact Finset.insert_subset supplied served.held
  · rw [Finset.card_insert_of_notMem new, served.card]
  · dsimp only
    rw [← rest]
    exact Finset.erase_subset_erase gpu served.avail
  · intro any
    dsimp only
    rw [served.all any, rest]
  · intro free
    unfold Free at free ⊢
    dsimp only
    rw [free, rest]

end

/-- What one pass of the inner loop does for a task, whichever rank asks. -/
theorem assignOne_spec (gpus : StepGpus stepGPUs numGPUs)
    (served : Served stepGPUs rounds task) (more : rounds < stepGPUs.card)
    (length : assignments.length = numGPUs) (spread : Bool) (lTID : Nat) :
    ∃ after gpu,
      (∀ localRankId, assignOne localRankId stepGPUs numGPUs spread lTID task
        assignments = some (after, assignments.set gpu (assigned assignments gpu + 1))) ∧
      gpu ∈ stepGPUs ∧ gpu ∉ task.assGPUs ∧
      after.assGPUs = insert gpu task.assGPUs ∧
      Served stepGPUs (rounds + 1) after ∧
      (Free stepGPUs task → Free stepGPUs after ∧ ∀ other ∈ stepGPUs, other ∉ task.assGPUs →
          assigned assignments gpu ≤ assigned assignments other) := by
  have rest := served.rest_nonempty more
  -- the task the search starts with
  obtain ⟨current, chosen, currentServed, currentNonempty, sameHeld, sameFree⟩ :
      ∃ current, (if task.useClosest ∧ cpuAny task.availGPUs numGPUs = false
          then task.useAny stepGPUs else task) = current ∧
        Served stepGPUs rounds current ∧ current.availGPUs.Nonempty ∧
        current.assGPUs = task.assGPUs ∧
        (Free stepGPUs task → Free stepGPUs current) := by
    have any := cpuAny_iff gpus.most (served.avail_below gpus)
    by_cases switch : task.useClosest ∧ cpuAny task.availGPUs numGPUs = false
    · exact ⟨_, if_pos switch, served.useAny, rest, rfl, fun _ => rfl⟩
    · refine ⟨_, if_neg switch, served, ?_, rfl, id⟩
      by_cases closest : task.useClosest = true
      · refine any.mp ?_
        by_contra none
        exact switch ⟨closest, by simpa using none⟩
      · rw [served.all (by simpa using closest)]
        exact rest
  have bound := currentServed.avail_below gpus
  have any := (cpuAny_iff gpus.most bound).mpr currentNonempty
  obtain ⟨least, found, available, minimal⟩ := getMinimumIndex_spec currentNonempty
    (by rw [length]; exact gpus.most) (by rw [length]; exact bound)
  rw [length] at found
  have leastBound := bound least available
  have most := gpus.most
  have noError : least ≠ uint16Max := by
    unfold uint16Max
    unfold cpuMax at most
    omega
  by_cases wider : spread = true ∧ 0 < assigned assignments least ∧ current.useClosest = true
  · -- look for a GPU among all of the step
    have widerNonempty : (current.useAny stepGPUs).availGPUs.Nonempty :=
      currentServed.rest_nonempty more
    have widerBound := currentServed.useAny.avail_below gpus
    obtain ⟨gpu, widerFound, widerAvailable, widerMinimal⟩ :=
      getMinimumIndex_spec widerNonempty (by rw [length]; exact most)
        (by rw [length]; exact widerBound)
    rw [length] at widerFound
    have gpuBound := widerBound gpu widerAvailable
    have gpuValid : gpu ≠ uint16Max := by
      unfold uint16Max
      unfold cpuMax at most
      omega
    obtain ⟨after, taken, held, afterServed, afterFree⟩ :=
      takeGpu_spec currentServed.useAny gpus length widerAvailable
    have parts := Finset.mem_sdiff.mp widerAvailable
    refine ⟨after, gpu, ?_, parts.1, ?_, ?_, afterServed, ?_⟩
    · intro localRankId
      unfold assignOne
      simp only [chosen, any, Bool.true_eq_false, false_and, if_false, found,
        if_neg noError, getElem?_assigned (length ▸ leastBound), if_pos wider,
        widerFound, if_neg gpuValid, taken]
    · rw [← sameHeld]
      exact parts.2
    · rw [held, ← sameHeld]
      rfl
    · intro free
      refine ⟨afterFree rfl, ?_⟩
      intro other supplied new
      apply widerMinimal
      exact Finset.mem_sdiff.mpr ⟨supplied, by rwa [sameHeld]⟩
  · obtain ⟨after, taken, held, afterServed, afterFree⟩ :=
      takeGpu_spec currentServed gpus length available
    have parts := Finset.mem_sdiff.mp (currentServed.avail available)
    refine ⟨after, least, ?_, parts.1, ?_, ?_, afterServed, ?_⟩
    · intro localRankId
      unfold assignOne
      simp only [chosen, any, Bool.true_eq_false, false_and, if_false, found,
        if_neg noError, getElem?_assigned (length ▸ leastBound), if_neg wider,
        taken]
    · rw [← sameHeld]
      exact parts.2
    · rw [held, sameHeld]
    · intro free
      have currentFree := sameFree free
      refine ⟨afterFree currentFree, ?_⟩
      intro other supplied new
      apply minimal
      rw [currentFree]
      exact Finset.mem_sdiff.mpr ⟨supplied, by rwa [sameHeld]⟩

end Task

/-! ## All tasks -/

def heldGPUs (tasks : List TaskGpus) : List (Finset Nat) := tasks.map TaskGpus.assGPUs

section Rounds

variable {stepGPUs : CPUSet} {numGPUs : Nat} {tasks : List TaskGpus}
  {assignments : List Nat}

/-- The counters tell how many of the sharers have a GPU. -/
def Counted (stepGPUs : CPUSet) (assignments : List Nat) (table : List (Finset Nat)) : Prop :=
  ∀ gpu ∈ stepGPUs, assigned assignments gpu = load table gpu

/-- The inner loop, behind the tasks `done` that were served before. -/
theorem assignRound_spec (gpus : StepGpus stepGPUs numGPUs) {rounds : Nat}
    (served : ∀ task ∈ tasks, Served stepGPUs rounds task) (more : rounds < stepGPUs.card)
    (length : assignments.length = numGPUs) (spread : Bool) (lTID : Nat) :
    ∃ after counts,
      (∀ localRankId, assignRound localRankId stepGPUs numGPUs spread lTID
        tasks assignments = some (after, counts)) ∧
      after.length = tasks.length ∧ counts.length = numGPUs ∧
      (∀ task ∈ after, Served stepGPUs (rounds + 1) task) ∧
      ∀ done, (∀ task ∈ tasks, Free stepGPUs task) →
        Counted stepGPUs assignments (done ++ heldGPUs tasks) →
        (∀ task ∈ after, Free stepGPUs task) ∧
        Counted stepGPUs counts (done ++ heldGPUs after) ∧
        Relation.ReflTransGen (Gives stepGPUs) (done ++ heldGPUs tasks)
          (done ++ heldGPUs after) := by
  induction tasks generalizing assignments lTID with
  | nil =>
    refine ⟨[], assignments, fun _ => rfl, rfl, length, by simp, ?_⟩
    intro done _ counted
    exact ⟨by simp, counted, Relation.ReflTransGen.refl⟩
  | cons task rest induction =>
    obtain ⟨first, gpu, one, supplied, new, held, firstServed, least⟩ :=
      assignOne_spec gpus (served task (by simp)) more length spread lTID
    have bound := gpus.below gpu supplied
    obtain ⟨after, counts, all, sameLength, countsLength, afterServed, shared⟩ :=
      @induction (assignments.set gpu (assigned assignments gpu + 1))
        (fun other member => served other (mem_cons_of_mem _ member))
        (by simpa using length) (lTID + 1)
    refine ⟨first :: after, counts, ?_, by simp [sameLength], countsLength, ?_, ?_⟩
    · intro localRankId
      rw [assignRound, one localRankId]
      dsimp only
      rw [all localRankId]
    · intro other member
      rcases mem_cons.mp member with rfl | later
      · exact firstServed
      · exact afterServed other later
    · intro done free counted
      obtain ⟨firstFree, minimal⟩ := least (free task (by simp))
      -- the task takes its GPU, then the others are served
      have step : Gives stepGPUs (done ++ heldGPUs (task :: rest))
          (done ++ heldGPUs (first :: rest)) := by
        simp only [heldGPUs, map_cons, held]
        refine Gives.give done _ task.assGPUs gpu supplied new ?_
        intro other otherSupplied otherNew
        have before := counted gpu supplied
        have beforeOther := counted other otherSupplied
        simp only [heldGPUs, map_cons] at before beforeOther
        rw [← before, ← beforeOther]
        exact minimal other otherSupplied otherNew
      have countedFirst : Counted stepGPUs (assignments.set gpu (assigned assignments gpu + 1))
          ((done ++ [first.assGPUs]) ++ heldGPUs rest) := by
        intro other otherSupplied
        have before := counted other otherSupplied
        simp only [heldGPUs, map_cons] at before
        rw [assigned_set (by omega), append_assoc,
          singleton_append, held, heldGPUs, load_insert _ _ new,
          ← before]
        by_cases same : other = gpu
        · rw [if_pos same, if_pos same, same]
        · rw [if_neg same, if_neg same, Nat.add_zero]
      obtain ⟨restFree, countedAll, run⟩ :=
        shared (done ++ [first.assGPUs]) (fun other member => free other (mem_cons_of_mem _ member))
          countedFirst
      refine ⟨?_, ?_, ?_⟩
      · intro other member
        rcases mem_cons.mp member with rfl | later
        · exact firstFree
        · exact restFree other later
      · simpa [heldGPUs] using countedAll
      · refine Relation.ReflTransGen.head step ?_
        simpa [heldGPUs] using run

/-- The outer loop. -/
theorem assignRounds_spec (gpus : StepGpus stepGPUs numGPUs) {rounds : Nat} (i : Nat)
    (served : ∀ task ∈ tasks, Served stepGPUs rounds task) (enough : rounds + i ≤ stepGPUs.card)
    (length : assignments.length = numGPUs) (spread : Bool) :
    ∃ after counts,
      (∀ localRankId, assignRounds localRankId stepGPUs numGPUs spread i tasks
        assignments = some (after, counts)) ∧
      after.length = tasks.length ∧
      (∀ task ∈ after, Served stepGPUs (rounds + i) task) ∧
      ((∀ task ∈ tasks, Free stepGPUs task) →
        Counted stepGPUs assignments (heldGPUs tasks) →
        Relation.ReflTransGen (Gives stepGPUs) (heldGPUs tasks) (heldGPUs after)) := by
  induction i generalizing tasks assignments rounds with
  | zero =>
    refine ⟨tasks, assignments, fun _ => rfl, rfl, served, ?_⟩
    intro _ _
    exact Relation.ReflTransGen.refl
  | succ i induction =>
    obtain ⟨next, counts, one, nextLength, countsLength, nextServed, shared⟩ :=
      assignRound_spec gpus served (by omega) length spread 0
    obtain ⟨after, final, all, sameLength, afterServed, run⟩ :=
      @induction next counts (rounds + 1) nextServed (by omega) countsLength
    refine ⟨after, final, ?_, by omega, ?_, ?_⟩
    · intro localRankId
      rw [assignRounds, one localRankId]
      exact all localRankId
    · have sum : rounds + (i + 1) = rounds + 1 + i := by omega
      rw [sum]
      exact afterServed
    · intro free counted
      obtain ⟨nextFree, nextCounted, first⟩ := shared [] free counted
      exact first.trans (run nextFree nextCounted)

end Rounds

/-! ## The assignment -/

theorem mem_foldl_setCPU {closeList : List Nat} (set : CPUSet)
    (small : ∀ gpu ∈ closeList, gpu < cpuMax) (gpu : Nat) :
    gpu ∈ closeList.foldl setCPU set ↔ gpu ∈ set ∨ gpu ∈ closeList := by
  induction closeList generalizing set with
  | nil => simp
  | cons first rest induction =>
    have firstSmall : first < cpuMax := small first (by simp)
    rw [foldl_cons, induction (setCPU set first)
      (fun other member => small other (mem_cons_of_mem _ member)),
      setCPU, if_pos firstSmall, Finset.mem_insert, mem_cons]
    tauto

theorem startTask_spec {stepGPUs : CPUSet} {numGPUs : Nat} (gpus : StepGpus stepGPUs numGPUs)
    {closeList : List Nat} (inside : ∀ gpu ∈ closeList, gpu ∈ stepGPUs) :
    Served stepGPUs 0 (startTask closeList) ∧
      ((∀ gpu ∈ stepGPUs, gpu ∈ closeList) → Free stepGPUs (startTask closeList)) := by
  have members := fun gpu => @mem_foldl_setCPU closeList ∅
    (fun other member => Nat.lt_of_lt_of_le (gpus.below other (inside other member)) gpus.most) gpu
  refine ⟨⟨Finset.empty_subset _, rfl, ?_, ?_⟩, ?_⟩
  · intro gpu member
    have close := (members gpu).mp member
    exact Finset.mem_sdiff.mpr ⟨inside gpu (by simpa using close), by
      simp [startTask]⟩
  · intro any
    cases any
  · intro all
    unfold Free
    ext gpu
    have close := members gpu
    simp only [startTask, Finset.sdiff_empty]
    rw [close]
    constructor
    · intro member
      exact inside gpu (by simpa using member)
    · intro member
      exact .inr (all gpu member)

end Psmgmt.Slurm
