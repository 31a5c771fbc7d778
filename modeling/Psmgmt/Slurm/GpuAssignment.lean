import Psmgmt.Partition.Slot

/-!
# Default GPU assignment

`getDefaultGpuAssignment()` of `psslurmpin.c`.  The lists of close GPUs are what
`PSIDpin_getCloseDevs()` delivers for each local task.  An access to the
assignment counters beyond their end is kept apart from any result.
-/

namespace Psmgmt.Slurm

open Partition

/-- `UINT16_MAX`. -/
def uint16Max : Nat := 65535

/-- `PSCPU_any()`.  The mask that holds bit `numBits` counts as a whole, since
the shifted mask is not cut off. -/
def cpuAny (set : CPUSet) (numBits : Nat) : Bool :=
  decide (∃ cpu ∈ set, cpu < 16 * ((min numBits cpuMax + 15) / 16))

/-- The loop of `getMinimumIndex()` over the further indices. -/
def findMinimum (values : List Nat) (idcs : CPUSet) : List Nat → (ret minVal : Nat) → Option Nat
  | [], ret, _ => some ret
  | i :: rest, ret, minVal =>
    if i ∉ idcs then findMinimum values idcs rest ret minVal
    else
      match values[i]? with
      | none => none
      | some value =>
        -- found new minimum
        if value < minVal then findMinimum values idcs rest i value
        else findMinimum values idcs rest ret minVal

/-- `getMinimumIndex()`; `none` is an access beyond the end of `values`. -/
def getMinimumIndex (values : List Nat) (idcs : CPUSet) (max : Nat) : Option Nat :=
  if cpuAny idcs max = false then some uint16Max
  else
    -- find first index
    match (List.range cpuMax).find? (fun cpu => decide (cpu ∈ idcs)) with
    | none => none
    | some ret =>
      match values[ret]? with
      | none => none
      | some minVal => findMinimum values idcs (List.range' (ret + 1) (max - ret)) ret minVal

/-- What `getDefaultGpuAssignment()` keeps for each local task. -/
structure TaskGpus where
  assGPUs : CPUSet
  availGPUs : CPUSet
  useClosest : Bool
  deriving DecidableEq

def TaskGpus.useAny (task : TaskGpus) (stepGPUs : CPUSet) : TaskGpus :=
  { task with useClosest := false, availGPUs := stepGPUs \ task.assGPUs }

/-- `PSCPU_setCPU()`. -/
def setCPU (set : CPUSet) (cpu : Nat) : CPUSet :=
  if cpu < cpuMax then insert cpu set else set

def takeGpu (task : TaskGpus) (assignments : List Nat) (gpu : Nat) : Option (TaskGpus × List Nat) :=
  match assignments[gpu]? with
  | none => none
  | some count =>
    some ({ task with
      availGPUs := task.availGPUs.erase gpu
      assGPUs := setCPU task.assGPUs gpu }, assignments.set gpu (count + 1))

section Assignment

variable (localRankId : Nat) (stepGPUs : CPUSet) (numGPUs : Nat)
  (spreadGPUsFirst : Bool)

/-- The body of the inner loop for the local task `lTID`. -/
def assignOne (lTID : Nat) (task : TaskGpus) (assignments : List Nat) :
    Option (TaskGpus × List Nat) :=
  -- switch from closest to any?
  let task :=
    if task.useClosest ∧ cpuAny task.availGPUs numGPUs = false then
      task.useAny stepGPUs
    else task
  if cpuAny task.availGPUs numGPUs = false ∧ lTID = localRankId then
    some (task, assignments)
  else
    match getMinimumIndex assignments task.availGPUs numGPUs with
    | none => none
    | some leastAssGPU =>
      if leastAssGPU = uint16Max then some (task, assignments)
      else
        match assignments[leastAssGPU]? with
        | none => none
        | some count =>
          if spreadGPUsFirst ∧ 0 < count ∧ task.useClosest then
            let task := task.useAny stepGPUs
            match getMinimumIndex assignments task.availGPUs numGPUs with
            | none => none
            | some leastAssGPU =>
              if leastAssGPU = uint16Max then some (task, assignments)
              else takeGpu task assignments leastAssGPU
          else takeGpu task assignments leastAssGPU

/-- The inner loop over the local tasks from `lTID` on. -/
def assignRound : (lTID : Nat) → List TaskGpus → List Nat → Option (List TaskGpus × List Nat)
  | _, [], assignments => some ([], assignments)
  | lTID, task :: rest, assignments =>
    match assignOne localRankId stepGPUs numGPUs spreadGPUsFirst lTID task assignments with
    | none => none
    | some (task, assignments) =>
      match assignRound (lTID + 1) rest assignments with
      | none => none
      | some (rest, assignments) => some (task :: rest, assignments)

/-- The outer loop. -/
def assignRounds : (i : Nat) → List TaskGpus → List Nat → Option (List TaskGpus × List Nat)
  | 0, tasks, assignments => some (tasks, assignments)
  | i + 1, tasks, assignments =>
    match assignRound localRankId stepGPUs numGPUs spreadGPUsFirst 0 tasks assignments with
    | none => none
    | some (tasks, assignments) => assignRounds i tasks assignments

/-- A task with its list of close GPUs morphed into a bit mask. -/
def startTask (closeList : List Nat) : TaskGpus :=
  { assGPUs := ∅, availGPUs := closeList.foldl setCPU ∅, useClosest := true }

/-- `getDefaultGpuAssignment()`: `none` is an access out of bounds, and
`some none` the return value false. -/
def getDefaultGpuAssignment (closeLists : List (Option (List Nat)))
    (gpusPerTask : Int) : Option (Option CPUSet) :=
  if numGPUs > cpuMax then some none
  else if closeLists.any Option.isNone then some none
  else
    let tasks := (closeLists.filterMap id).map startTask
    match assignRounds localRankId stepGPUs numGPUs spreadGPUsFirst
      gpusPerTask.toNat tasks (List.replicate numGPUs 0) with
    | none => none
    | some (tasks, _) =>
      match tasks[localRankId]? with
      | none => none
      | some task => some (some task.assGPUs)

end Assignment

end Psmgmt.Slurm
