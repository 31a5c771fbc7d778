import Psmgmt.Partition.Slot

/-!
# The free CPUs of a node

`PSCPU_getCPUs()`, `PSCPU_getUnset()` and `getFreeCPUs()`.
-/

namespace Psmgmt.Partition

open List

/-- The loop of `PSCPU_getCPUs()`. -/
def getCPUsLoop (origSet : CPUSet) (num : Nat) : List Nat → CPUSet × Nat → CPUSet × Nat
  | [], result => result
  | cpu :: rest, (newSet, found) =>
    if found < num then
      if cpu ∈ origSet then
        getCPUsLoop origSet num rest (insert cpu newSet, found + 1)
      else getCPUsLoop origSet num rest (newSet, found)
    else (newSet, found)

def getCPUs (origSet : CPUSet) (num : Nat) : CPUSet × Nat :=
  getCPUsLoop origSet num (List.range cpuMax) (∅, 0)

/-- The first loop of `PSCPU_getUnset()`. -/
def collectUnset (set_ : CPUSet) : (numBits : Nat) → CPUSet × Nat
  | 0 => (∅, 0)
  | cpu + 1 =>
    let before := collectUnset set_ cpu
    if cpu ∉ set_ then (insert cpu before.1, before.2 + 1) else before

/-- The second loop of `PSCPU_getUnset()`, below the given CPU. -/
def trimUnset (tpp : Nat) : (cpus : Nat) → CPUSet × Nat → CPUSet × Nat
  | 0, result => result
  | cpu + 1, (free, found) =>
    if found % tpp = 0 then (free, found)
    else if cpu ∈ free then trimUnset tpp cpu (free.erase cpu, found - 1)
    else trimUnset tpp cpu (free, found)

def getUnset (set_ : CPUSet) (numBits tpp : Nat) : CPUSet × Nat :=
  let numBits := if numBits > cpuMax then cpuMax else numBits
  trimUnset tpp numBits (collectUnset set_ numBits)

/-- What is known of the nodes; `none` stands for `PSNODES_ANYPROC`. -/
structure Nodes where
  numThrds : Nat → Nat
  procs : Nat → Option Nat

/-- The CPUs a node offers to processes. -/
def Nodes.Usable (nodes : Nodes) (node cpu : Nat) : Prop :=
  cpu < nodes.numThrds node ∧ ∀ procs, nodes.procs node = some procs → cpu < procs

def getFreeCPUs (nodes : Nodes) (nodeStat : Nat → CPUSet) (node tpp : Nat) : CPUSet × Nat :=
  let numBits := nodes.numThrds node
  let numBits :=
    match nodes.procs node with
    | some procs => if procs < numBits then procs else numBits
    | none => numBits
  getUnset (nodeStat node) numBits tpp

/-! ## Taking some of the CPUs -/

section Taking

variable {origSet : CPUSet} {num : Nat}

theorem getCPUsLoop_subset (cpus : List Nat) (newSet : CPUSet) (found : Nat)
    (old : newSet ⊆ origSet) :
    (getCPUsLoop origSet num cpus (newSet, found)).1 ⊆ origSet := by
  induction cpus generalizing newSet found with
  | nil => exact old
  | cons cpu rest next =>
    rw [getCPUsLoop]
    split
    · split
      · rename_i member
        apply next
        exact Finset.insert_subset member old
      · exact next _ _ old
    · exact old

/-- As many CPUs are taken as are asked for and left. -/
theorem getCPUsLoop_card (cpus : List Nat) (newSet : CPUSet) (found : Nat) (distinct : cpus.Nodup)
    (apart : ∀ cpu ∈ cpus, cpu ∉ newSet) (count : newSet.card = found) (most : found ≤ num)
    (enough : num ≤ found + (cpus.filter (· ∈ origSet)).length) :
    (getCPUsLoop origSet num cpus (newSet, found)).1.card = num := by
  induction cpus generalizing newSet found with
  | nil =>
    rw [filter_nil, length_nil] at enough
    rw [getCPUsLoop, count]
    omega
  | cons cpu rest next =>
    obtain ⟨new, distinct⟩ := nodup_cons.mp distinct
    rw [getCPUsLoop]
    split
    · split
      · rename_i member
        apply next _ _ distinct
        · intro other otherMember
          rw [Finset.mem_insert]
          rintro (same | old)
          · exact new (same ▸ otherMember)
          · exact apart other (mem_cons_of_mem _ otherMember) old
        · rw [Finset.card_insert_of_notMem (apart cpu mem_cons_self), count]
        · omega
        · rw [filter_cons, if_pos (decide_eq_true member), length_cons] at enough
          omega
      · rename_i absent
        apply next _ _ distinct _ count most
        · rwa [filter_cons, if_neg (by rwa [decide_eq_true_eq])] at enough
        · intro other otherMember
          exact apart other (mem_cons_of_mem _ otherMember)
    · change newSet.card = num
      omega

theorem getCPUs_subset : (getCPUs origSet num).1 ⊆ origSet := by
  rw [getCPUs]
  exact getCPUsLoop_subset (List.range cpuMax) ∅ 0 (Finset.empty_subset origSet)

theorem length_filter_range (bound : Nat) (set_ : CPUSet)
    (covered : ∀ cpu ∈ set_, cpu < bound) :
    ((List.range bound).filter (· ∈ set_)).length = set_.card := by
  have same : ((List.range bound).filter (· ∈ set_)).toFinset = set_ := by
    ext cpu
    simp only [toFinset_filter, Finset.mem_filter, mem_toFinset, mem_range, decide_eq_true_eq]
    constructor
    · intro both
      exact both.2
    · intro member
      exact ⟨covered cpu member, member⟩
  rw [← toFinset_card_of_nodup (nodup_range.filter _), same]

theorem getCPUs_card (covered : ∀ cpu ∈ origSet, cpu < cpuMax)
    (enough : num ≤ origSet.card) : (getCPUs origSet num).1.card = num := by
  rw [getCPUs]
  apply getCPUsLoop_card (List.range cpuMax) ∅ 0 nodup_range
  · intro cpu _
    exact Finset.notMem_empty cpu
  · rfl
  · exact Nat.zero_le _
  · rw [length_filter_range cpuMax origSet covered, Nat.zero_add]
    exact enough

end Taking

/-! ## The CPUs not yet in use -/

variable (tpp cpus : Nat)

section Unset

variable {set_ : CPUSet}

theorem collectUnset_fst (set_ : CPUSet) (numBits : Nat) :
    (collectUnset set_ numBits).1 = (Finset.range numBits).filter (· ∉ set_) := by
  induction numBits with
  | zero => rfl
  | succ cpu before =>
    rw [collectUnset, Finset.range_add_one, Finset.filter_insert, ← before]
    split <;> rfl

theorem collectUnset_snd (set_ : CPUSet) (numBits : Nat) :
    (collectUnset set_ numBits).2 = (collectUnset set_ numBits).1.card := by
  induction numBits with
  | zero => rfl
  | succ cpu before =>
    have new : cpu ∉ (collectUnset set_ cpu).1 := by
      rw [collectUnset_fst]
      simp
    rw [collectUnset]
    split
    · rw [Finset.card_insert_of_notMem new, before]
    · exact before

/-- CPUs are dropped from the top until their number is a multiple. -/
structure Trimmed (tpp : Nat) (before : CPUSet) (after : CPUSet × Nat) :
    Prop where
  subset : after.1 ⊆ before
  card : after.1.card = after.2
  multiple : tpp ∣ after.2

theorem trimUnset_trimmed (free : CPUSet) (below : ∀ cpu ∈ free, cpu < cpus) :
    Trimmed tpp free (trimUnset tpp cpus (free, free.card)) := by
  induction cpus generalizing free with
  | zero =>
    have none : free = ∅ :=
      Finset.eq_empty_of_forall_notMem (fun cpu member => by
        have bound := below cpu member
        omega)
    subst none
    exact ⟨Finset.Subset.refl ∅, rfl, ⟨0, rfl⟩⟩
  | succ cpu lower =>
    rw [trimUnset]
    split
    · rename_i multiple
      exact ⟨Finset.Subset.refl free, rfl, Nat.dvd_of_mod_eq_zero multiple⟩
    · split
      · rename_i member
        have trimmed := lower (free.erase cpu) (fun other member => by
          have bound := below other (Finset.mem_of_mem_erase member)
          have apart := Finset.ne_of_mem_erase member
          omega)
        rw [Finset.card_erase_of_mem member] at trimmed
        exact ⟨trimmed.subset.trans (Finset.erase_subset cpu free), trimmed.card, trimmed.multiple⟩
      · rename_i absent
        apply lower
        intro other member
        have bound := below other member
        have apart : other ≠ cpu := fun same => absent (same ▸ member)
        omega

theorem pred_div {found tpp : Nat} (rest : found % tpp ≠ 0) : (found - 1) / tpp = found / tpp := by
  rcases Nat.eq_zero_or_pos tpp with rfl | positive
  · rw [Nat.div_zero, Nat.div_zero]
  · have small := Nat.mod_lt found positive
    have whole := Nat.div_add_mod found tpp
    have split_ : found - 1 = tpp * (found / tpp) + (found % tpp - 1) := by
      omega
    have nothing : (found % tpp - 1) / tpp = 0 :=
      Nat.div_eq_of_lt (lt_of_le_of_lt (Nat.sub_le _ _) small)
    rw [split_, Nat.mul_add_div positive, nothing, Nat.add_zero]

/-- Only what exceeds a multiple is dropped, and it is dropped from the top. -/
structure Lowest (tpp : Nat) (before : CPUSet) (after : CPUSet × Nat) :
    Prop where
  count : after.2 = before.card / tpp * tpp
  lowest : ∀ cpu ∈ after.1, ∀ lower ∈ before, lower < cpu → lower ∈ after.1

theorem trimUnset_lowest (free : CPUSet) (below : ∀ cpu ∈ free, cpu < cpus) :
    Lowest tpp free (trimUnset tpp cpus (free, free.card)) := by
  induction cpus generalizing free with
  | zero =>
    have none : free = ∅ :=
      Finset.eq_empty_of_forall_notMem (fun cpu member => by
        have bound := below cpu member
        omega)
    subst none
    refine ⟨?_, fun cpu member => absurd member (Finset.notMem_empty cpu)⟩
    rw [trimUnset, Finset.card_empty, Nat.zero_div, Nat.zero_mul]
  | succ cpu next =>
    rw [trimUnset]
    split
    · rename_i multiple
      refine ⟨?_, fun _ _ lower member _ => member⟩
      exact (Nat.div_mul_cancel (Nat.dvd_of_mod_eq_zero multiple)).symm
    · rename_i rest
      split
      · rename_i member
        have below_ : ∀ other ∈ free.erase cpu, other < cpu := by
          intro other member
          have bound := below other (Finset.mem_of_mem_erase member)
          have apart := Finset.ne_of_mem_erase member
          omega
        have trimmed := trimUnset_trimmed tpp cpu (free.erase cpu) below_
        have lowest := next (free.erase cpu) below_
        rw [Finset.card_erase_of_mem member] at lowest trimmed
        constructor
        · rw [lowest.count, Finset.card_erase_of_mem member, pred_div rest]
        · intro other stays lower inside less
          have bound := below other (Finset.mem_of_mem_erase (trimmed.subset stays))
          apply lowest.lowest other stays lower _ less
          exact Finset.mem_erase_of_ne_of_mem (by omega) inside
      · rename_i absent
        apply next
        intro other member
        have bound := below other member
        have apart : other ≠ cpu := fun same => absent (same ▸ member)
        omega

theorem collectUnset_below (set_ : CPUSet) (numBits : Nat) :
    ∀ cpu ∈ (collectUnset set_ numBits).1, cpu < numBits := by
  intro cpu member
  rw [collectUnset_fst, Finset.mem_filter, Finset.mem_range] at member
  exact member.1

theorem getUnset_eq (set_ : CPUSet) (numBits tpp : Nat) : getUnset set_ numBits tpp =
      trimUnset tpp (min numBits cpuMax)
        ((collectUnset set_ (min numBits cpuMax)).1,
          (collectUnset set_ (min numBits cpuMax)).1.card) := by
  have bits : (if numBits > cpuMax then cpuMax else numBits) = min numBits cpuMax := by
    split <;> omega
  rw [getUnset, bits, ← collectUnset_snd]

theorem getUnset_trimmed (set_ : CPUSet) (numBits tpp : Nat) :
    Trimmed tpp ((Finset.range (min numBits cpuMax)).filter (· ∉ set_))
      (getUnset set_ numBits tpp) := by
  rw [getUnset_eq, ← collectUnset_fst]
  exact trimUnset_trimmed tpp _ _ (collectUnset_below set_ _)

theorem getUnset_lowest (set_ : CPUSet) (numBits tpp : Nat) :
    Lowest tpp ((Finset.range (min numBits cpuMax)).filter (· ∉ set_))
      (getUnset set_ numBits tpp) := by
  rw [getUnset_eq, ← collectUnset_fst]
  exact trimUnset_lowest tpp _ _ (collectUnset_below set_ _)

end Unset

/-! ## The free CPUs -/

/-- CPUs of a node that a partition may get. -/
structure Free (nodes : Nodes) (nodeStat : Nat → CPUSet) (node : Nat)
    (cpus : CPUSet) : Prop where
  apart : Disjoint cpus (nodeStat node)
  usable : ∀ cpu ∈ cpus, nodes.Usable node cpu
  bounded : ∀ cpu ∈ cpus, cpu < cpuMax

variable {nodes : Nodes} {nodeStat : Nat → CPUSet} {node tpp : Nat}

theorem Free.subset {cpus part : CPUSet} (free : Free nodes nodeStat node cpus)
    (subset : part ⊆ cpus) :
    Free nodes nodeStat node part where
  apart := Finset.disjoint_of_subset_left subset free.apart
  usable := fun cpu member => free.usable cpu (subset member)
  bounded := fun cpu member => free.bounded cpu (subset member)

theorem getFreeCPUs_trimmed : ∃ numBits, (∀ cpu, cpu < numBits → nodes.Usable node cpu) ∧
      Trimmed tpp ((Finset.range (min numBits cpuMax)).filter (· ∉ nodeStat node))
        (getFreeCPUs nodes nodeStat node tpp) := by
  refine ⟨_, ?_, getUnset_trimmed _ _ _⟩
  intro cpu bound
  rcases limit : nodes.procs node with _ | procs
  · rw [limit] at bound
    exact ⟨bound, fun procs named => nomatch limit.symm.trans named⟩
  · rw [limit] at bound
    dsimp only at bound
    constructor
    · split at bound <;> omega
    · intro other named
      cases limit.symm.trans named
      split at bound <;> omega

theorem getFreeCPUs_free : Free nodes nodeStat node (getFreeCPUs nodes nodeStat node tpp).1 := by
  obtain ⟨numBits, usable, trimmed⟩ := @getFreeCPUs_trimmed nodes nodeStat node tpp
  constructor
  · rw [Finset.disjoint_left]
    intro cpu member
    exact (Finset.mem_filter.mp (trimmed.subset member)).2
  · intro cpu member
    have bound := Finset.mem_range.mp (Finset.mem_filter.mp (trimmed.subset member)).1
    exact usable cpu (lt_of_lt_of_le bound (min_le_left _ _))
  · intro cpu member
    have bound := Finset.mem_range.mp (Finset.mem_filter.mp (trimmed.subset member)).1
    exact lt_of_lt_of_le bound (min_le_right _ _)

theorem getFreeCPUs_card :
    (getFreeCPUs nodes nodeStat node tpp).1.card = (getFreeCPUs nodes nodeStat node tpp).2 ∧
      tpp ∣ (getFreeCPUs nodes nodeStat node tpp).2 := by
  obtain ⟨_, _, trimmed⟩ := @getFreeCPUs_trimmed nodes nodeStat node tpp
  exact ⟨trimmed.card, trimmed.multiple⟩

end Psmgmt.Partition
