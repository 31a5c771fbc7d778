import Mathlib

/-!
# Memory limits of a step

`setStepMemLimits()` of `psslurmproto.c` looks up the limits in two run-length
encoded arrays of the credential, one over the job's and one over the step's
nodes.
-/

namespace Psmgmt.Slurm.StepMemLimits

open List

def NO_VAL : BitVec 32 := 0xfffffffe

def NO_VAL64 : BitVec 64 := 0xfffffffffffffffe

/-- An entry of a memory array and its number of repetitions. -/
structure MemAlloc where
  value : BitVec 64
  repCount : BitVec 32

structure JobCred where
  jobNodes : List Int
  jobMemAlloc : List MemAlloc
  stepMemAlloc : List MemAlloc

structure Step where
  nodes : List Int
  localNodeId : BitVec 32
  credID : BitVec 32
  jobMemLimit : BitVec 64
  stepMemLimit : BitVec 64
  cred : JobCred

def getLocalID (myID : Int) (nodes : List Int) : BitVec 32 :=
  match nodes.idxOf? myID with
  | some i => BitVec.ofNat 32 i
  | none => NO_VAL

/-- The loop over an array; `idx` counts the nodes of the entries passed. -/
def findMemAlloc (localNodeId : BitVec 32) : List MemAlloc → BitVec 32 → Option (BitVec 64)
  | [], _ => none
  | alloc :: rest, idx =>
    if idx + alloc.repCount ≤ localNodeId then
      findMemAlloc localNodeId rest (idx + alloc.repCount)
    else some alloc.value

def setJobMemLimit (step : Step) : Step :=
  if step.jobMemLimit = NO_VAL64 then
    match findMemAlloc step.localNodeId step.cred.jobMemAlloc 0 with
    | some value => { step with jobMemLimit := value }
    | none => step
  else step

def setStepMemLimit (step : Step) : Step :=
  if step.stepMemLimit = NO_VAL64 then
    match findMemAlloc step.localNodeId step.cred.stepMemAlloc 0 with
    | some value => { step with stepMemLimit := value * 1024 * 1024 }
    | none => step
  else step

def setStepMemLimits (step : Step) : Step :=
  if step.localNodeId = NO_VAL then step
  else setStepMemLimit (setJobMemLimit step)

/-- What `handleLaunchTasks()` does about the node's IDs and the limits. -/
def handleLaunchTasks (myID : Int) (step : Step) : Option Step :=
  let step := { step with localNodeId := getLocalID myID step.nodes }
  if step.localNodeId = NO_VAL then none
  else
    let step := { step with credID := getLocalID myID step.cred.jobNodes }
    if step.credID = NO_VAL then none
    else some (setStepMemLimits step)

/-! ## What the arrays mean -/

def expand (allocs : List MemAlloc) : List (BitVec 64) :=
  allocs.flatMap fun alloc => replicate alloc.repCount.toNat alloc.value

/-- A limit that is unset is the node's entry, if there is one. -/
def limit (old : BitVec 64) (entries : List (BitVec 64)) (position : Nat) : BitVec 64 :=
  if old = NO_VAL64 then entries[position]?.getD NO_VAL64 else old

/-- The limits a step is to get on a node. -/
structure Limited (myID : Int) (before after : Step) : Prop where
  job : after.jobMemLimit = limit before.jobMemLimit
    (expand before.cred.jobMemAlloc) (before.cred.jobNodes.idxOf myID)
  known : before.stepMemLimit ≠ NO_VAL64 → after.stepMemLimit = before.stepMemLimit
  missing : before.stepMemLimit = NO_VAL64 →
    (expand before.cred.stepMemAlloc)[before.nodes.idxOf myID]? = none →
      after.stepMemLimit = NO_VAL64
  bytes : before.stepMemLimit = NO_VAL64 → ∀ value,
    (expand before.cred.stepMemAlloc)[before.nodes.idxOf myID]? = some value →
      value.toNat < 2 ^ 43 → after.stepMemLimit.toNat = value.toNat * 1024 * 1024

/-- The nodes and the entries of the arrays over them are counted by a
`uint32_t`. -/
structure Counted (step : Step) : Prop where
  nodes : step.nodes.length < 2 ^ 32
  job : (expand step.cred.jobMemAlloc).length < 2 ^ 32
  step : (expand step.cred.stepMemAlloc).length < 2 ^ 32

/-! ## Looking up an entry -/

theorem findMemAlloc_eq (localNodeId : BitVec 32) (allocs : List MemAlloc) :
    ∀ idx : BitVec 32, idx ≤ localNodeId → idx.toNat + (expand allocs).length < 2 ^ 32 →
      findMemAlloc localNodeId allocs idx = (expand allocs)[localNodeId.toNat - idx.toNat]? := by
  induction allocs with
  | nil =>
    intro idx _ _
    rfl
  | cons alloc rest induction =>
    intro idx before few
    have split : expand (alloc :: rest) =
        replicate alloc.repCount.toNat alloc.value ++ expand rest := rfl
    rw [split, length_append, length_replicate] at few
    have sum : (idx + alloc.repCount).toNat = idx.toNat + alloc.repCount.toNat := by
      rw [BitVec.toNat_add, Nat.mod_eq_of_lt (by omega)]
    rw [BitVec.le_def] at before
    rw [findMemAlloc, split]
    by_cases passed : idx + alloc.repCount ≤ localNodeId
    · have below := BitVec.le_def.mp passed
      rw [if_pos passed, induction _ passed (by omega), getElem?_append_right
        (by rw [length_replicate]; omega), length_replicate, sum]
      congr 1
      omega
    · have above : localNodeId.toNat < idx.toNat + alloc.repCount.toNat := by
        rw [BitVec.le_def, sum] at passed
        omega
      rw [if_neg passed, getElem?_append_left
        (by rw [length_replicate]; omega), getElem?_replicate,
        if_pos (by omega)]

theorem findMemAlloc_zero (localNodeId : BitVec 32) {allocs : List MemAlloc}
    (few : (expand allocs).length < 2 ^ 32) :
    findMemAlloc localNodeId allocs 0 = (expand allocs)[localNodeId.toNat]? :=
  findMemAlloc_eq localNodeId allocs 0 (BitVec.le_def.mpr (Nat.zero_le _)) (by simpa using few)

theorem getLocalID_toNat {myID : Int} {nodes : List Int}
    (few : nodes.length < 2 ^ 32) (found : getLocalID myID nodes ≠ NO_VAL) :
    (getLocalID myID nodes).toNat = nodes.idxOf myID := by
  rw [getLocalID] at found ⊢
  cases index : nodes.idxOf? myID with
  | none => exact absurd (by rw [index]) found
  | some i =>
    obtain ⟨bound, same⟩ := findIdx?_eq_some_iff_findIdx_eq.mp index
    change _ = nodes.findIdx (· == myID)
    rw [same]
    exact Nat.mod_eq_of_lt (Nat.lt_trans bound few)

/-! ## The limits set -/

theorem setJobMemLimit_cred (step : Step) :
    (setJobMemLimit step).cred = step.cred ∧ (setJobMemLimit step).localNodeId = step.localNodeId ∧
      (setJobMemLimit step).stepMemLimit = step.stepMemLimit := by
  unfold setJobMemLimit
  split
  · split
    · exact ⟨rfl, rfl, rfl⟩
    · exact ⟨rfl, rfl, rfl⟩
  · exact ⟨rfl, rfl, rfl⟩

/-- The job's limit is looked up at the node's position in the step. -/
theorem setJobMemLimit_limit (step : Step)
    (few : (expand step.cred.jobMemAlloc).length < 2 ^ 32) :
    (setJobMemLimit step).jobMemLimit = limit step.jobMemLimit
      (expand step.cred.jobMemAlloc) step.localNodeId.toNat := by
  rw [setJobMemLimit, limit, findMemAlloc_zero _ few]
  split
  · cases (expand step.cred.jobMemAlloc)[step.localNodeId.toNat]? with
    | some value => rfl
    | none => assumption
  · rfl

theorem setStepMemLimit_limit (step : Step) (few : (expand step.cred.stepMemAlloc).length < 2 ^ 32)
    {position : Nat} (here : step.localNodeId.toNat = position) :
    (setStepMemLimit step).jobMemLimit = step.jobMemLimit ∧
      (step.stepMemLimit ≠ NO_VAL64 → (setStepMemLimit step).stepMemLimit = step.stepMemLimit) ∧
      (step.stepMemLimit = NO_VAL64 → (setStepMemLimit step).stepMemLimit =
          ((expand step.cred.stepMemAlloc)[position]?.map (· * 1024 * 1024)).getD NO_VAL64) := by
  subst here
  rw [setStepMemLimit, findMemAlloc_zero _ few]
  split
  · next unset =>
    refine ⟨?_, fun set => absurd unset set, fun _ => ?_⟩
    · split
      · rfl
      · rfl
    · cases (expand step.cred.stepMemAlloc)[step.localNodeId.toNat]? with
      | some value => rfl
      | none => exact unset
  · next set => exact ⟨rfl, fun _ => rfl, fun unset => absurd unset set⟩

theorem bytes_toNat {value : BitVec 64} (small : value.toNat < 2 ^ 43) :
    (value * 1024 * 1024).toNat = value.toNat * 1024 * 1024 := by
  rw [BitVec.toNat_mul, BitVec.toNat_mul]
  change value.toNat * 1024 % 2 ^ 64 * 1024 % 2 ^ 64 = _
  omega

/-- The limits are those of the node if and only if the job's limit is set
already or the nodes at its positions in the step and in the job have the same
memory. -/
theorem limited_iff (myID : Int) (step after : Step) (counted : Counted step)
    (launched : handleLaunchTasks myID step = some after) :
    Limited myID step after ↔ step.jobMemLimit ≠ NO_VAL64 ∨
        (expand step.cred.jobMemAlloc)[step.nodes.idxOf myID]?.getD NO_VAL64 =
          (expand step.cred.jobMemAlloc)[step.cred.jobNodes.idxOf myID]?.getD NO_VAL64 := by
  have here := @getLocalID_toNat myID _ counted.nodes
  simp only [handleLaunchTasks] at launched
  generalize getLocalID myID step.nodes = localNodeId at here launched
  generalize getLocalID myID step.cred.jobNodes = credID at launched
  split at launched
  · cases launched
  next known =>
  split at launched
  · cases launched
  cases launched
  rw [setStepMemLimits, if_neg known]
  generalize middle : setJobMemLimit _ = changed
  have job := setJobMemLimit_limit { step with localNodeId, credID } counted.job
  obtain ⟨cred, sameID, stepLimit⟩ := setJobMemLimit_cred { step with localNodeId, credID }
  rw [middle] at job cred sameID stepLimit
  obtain ⟨same, set, unset⟩ := setStepMemLimit_limit changed
    (cred ▸ counted.step) ((congrArg BitVec.toNat sameID).trans (here known))
  rw [stepLimit] at set unset
  rw [cred] at unset
  have limited : Limited myID step (setStepMemLimit changed) ↔
      limit step.jobMemLimit (expand step.cred.jobMemAlloc) (step.nodes.idxOf myID) =
        limit step.jobMemLimit (expand step.cred.jobMemAlloc) (step.cred.jobNodes.idxOf myID) := by
    rw [← here known]
    constructor
    · exact fun limited => (same.trans job).symm.trans limited.job
    · exact fun equal =>
        { job := (same.trans job).trans equal
          known := set
          missing := fun old none => by rw [unset old, none]; rfl
          bytes := fun old value some small => by
            rw [unset old, some]
            exact bytes_toNat small }
  rw [limited]
  by_cases old : step.jobMemLimit = NO_VAL64
  · simp [limit, old]
  · simp [limit, old]

/-- A step on the second node of a job gets the limit of the first. -/
theorem not_limited : ∃ step after, Counted step ∧ step.nodes.Sublist step.cred.jobNodes ∧
      handleLaunchTasks 2 step = some after ∧ ¬ Limited 2 step after := by
  refine ⟨⟨[2], 0, 0, NO_VAL64, NO_VAL64,
    ⟨[1, 2], [⟨100, 1⟩, ⟨200, 1⟩], [⟨200, 1⟩]⟩⟩, _, ⟨by decide, by decide,
    by decide⟩, by decide, rfl, fun limited => ?_⟩
  exact absurd limited.job (by decide)

theorem limited_iff_whole :
    Limited 2 ⟨[1, 2], 0, 0, NO_VAL64, NO_VAL64, ⟨[1, 2], [⟨100, 1⟩, ⟨200, 1⟩], []⟩⟩
      ⟨[1, 2], 1, 1, 200, NO_VAL64, ⟨[1, 2], [⟨100, 1⟩, ⟨200, 1⟩], []⟩⟩ :=
  (limited_iff 2 _ _ ⟨by decide, by decide, by decide⟩ rfl).mpr (.inr rfl)

end Psmgmt.Slurm.StepMemLimits
