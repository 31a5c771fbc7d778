import Psmgmt.Partition.Usage
import Psmgmt.Slurm.StepReservation

/-!
# Reservations and releases agree

An entry is used if it is the first one of its HW-thread and the HW-thread is in
a slot that is handed out.  A reservation that finds these entries adds the
HW-threads of its slots to those used, a release takes them away.
-/

namespace Psmgmt.Slurm.StepReservation

open Partition List Function

/-! ## The entries -/

/-- Each entry with the index of the slot it comes from. -/
def pairs (step : Step) : List (Nat × Nat) :=
  (List.range step.np).flatMap fun index =>
    (cpus (step.slots index).cpuSet cpuMax).map (Prod.mk index)

def threadOf (step : Step) (pair : Nat × Nat) : HWThread :=
  { node := (step.slots pair.1).node, id := pair.2, timesUsed := 0 }

theorem genThreadsArray_eq (step : Step) :
    genThreadsArray step = (pairs step).map (threadOf step) := by
  unfold genThreadsArray addThreadsToArray pairs
  rw [flatMap_map, map_flatMap]
  refine congrArg (List.flatMap · _) (funext fun index => ?_)
  rw [map_map]
  exact map_congr_left fun _ _ => rfl

variable {num cpu t node firstThread index : Nat}

theorem mem_cpus {cpuSet : CPUSet} : cpu ∈ cpus cpuSet num ↔ cpu < num ∧ cpu ∈ cpuSet := by
  simp [cpus]

theorem cpus_sorted (cpuSet : CPUSet) (num : Nat) : (cpus cpuSet num).Pairwise (· < ·) :=
  pairwise_lt_range.filter _

/-- The order of the entries. -/
def Before (left right : Nat × Nat) : Prop := left.1 < right.1 ∨ left.1 = right.1 ∧ left.2 < right.2

theorem pairs_sorted (step : Step) : (pairs step).Pairwise Before := by
  unfold pairs
  rw [pairwise_flatMap]
  constructor
  · intro index _
    rw [pairwise_map]
    exact (cpus_sorted _ _).imp fun less => .inr ⟨rfl, less⟩
  · refine pairwise_lt_range.imp fun less first member second later => ?_
    obtain ⟨_, -, rfl⟩ := mem_map.mp member
    obtain ⟨_, -, rfl⟩ := mem_map.mp later
    exact .inl less

/-- Where the entries come from. -/
structure Layout (step : Step) (owner : Nat → Nat) : Prop where
  inside : ∀ t < (newPool step).totalThreads, owner t < step.np
  node : ∀ t < (newPool step).totalThreads,
    ((newPool step).partThrds t).node = (step.slots (owner t)).node
  cpu : ∀ t < (newPool step).totalThreads,
    ((newPool step).partThrds t).id ∈ (step.slots (owner t)).cpuSet
  ordered : ∀ t' < (newPool step).totalThreads, ∀ t < t', owner t < owner t'
    ∨ owner t = owner t' ∧ ((newPool step).partThrds t).id
      < ((newPool step).partThrds t').id
  covered : ∀ index < step.np, ∀ cpu ∈ (step.slots index).cpuSet,
    ∃ t < (newPool step).totalThreads, owner t = index ∧ ((newPool step).partThrds t).id = cpu

theorem layout (step : Step) : ∃ owner, Layout step owner := by
  have length : (newPool step).totalThreads = (pairs step).length := by
    show (genThreadsArray step).length = _
    rw [genThreadsArray_eq, length_map]
  have entry : ∀ t, (bound : t < (pairs step).length) →
      (newPool step).partThrds t = threadOf step ((pairs step)[t]) := by
    intro t bound
    show (genThreadsArray step).getD t ⟨0, 0, 0⟩ = _
    rw [genThreadsArray_eq, getD_eq_getElem?_getD, getElem?_map, getElem?_eq_getElem bound]
    rfl
  have owned : ∀ t, (bound : t < (pairs step).length) →
      ((pairs step).getD t (0, 0)) = (pairs step)[t] := by
    intro t bound
    rw [getD_eq_getElem?_getD, getElem?_eq_getElem bound]
    rfl
  have member : ∀ t, (bound : t < (pairs step).length) →
      ((pairs step)[t]).1 < step.np ∧ ((pairs step)[t]).2
        ∈ (step.slots ((pairs step)[t]).1).cpuSet := by
    intro t bound
    have inside := getElem_mem bound
    obtain ⟨index, small, pair⟩ := mem_flatMap.mp inside
    obtain ⟨cpu, listed, same⟩ := mem_map.mp pair
    rw [← same]
    exact ⟨mem_range.mp small, (mem_cpus.mp listed).2⟩
  refine ⟨fun t => ((pairs step).getD t (0, 0)).1, ?_, ?_, ?_, ?_, ?_⟩
  · intro t bound
    rw [length] at bound
    show ((pairs step).getD t (0, 0)).1 < step.np
    rw [owned t bound]
    exact (member t bound).1
  · intro t bound
    rw [length] at bound
    show _ = (step.slots ((pairs step).getD t (0, 0)).1).node
    rw [owned t bound, entry t bound]
    rfl
  · intro t bound
    rw [length] at bound
    show _ ∈ (step.slots ((pairs step).getD t (0, 0)).1).cpuSet
    rw [owned t bound, entry t bound]
    exact (member t bound).2
  · intro t' bound t less
    rw [length] at bound
    have bound' : t < (pairs step).length := less.trans bound
    have before := pairwise_iff_getElem.mp (pairs_sorted step) t t' bound' bound less
    show ((pairs step).getD t (0, 0)).1 < ((pairs step).getD t' (0, 0)).1
      ∨ ((pairs step).getD t (0, 0)).1 = ((pairs step).getD t' (0, 0)).1 ∧ _
    rw [owned t bound', owned t' bound, entry t bound', entry t' bound]
    exact before
  · intro index small cpu inside
    have few := step.bits index cpu inside
    have pair : (index, cpu) ∈ pairs step := mem_flatMap.mpr
      ⟨index, mem_range.mpr small, mem_map.mpr ⟨cpu, mem_cpus.mpr ⟨few, inside⟩, rfl⟩⟩
    obtain ⟨t, bound, same⟩ := getElem_of_mem pair
    refine ⟨t, length ▸ bound, ?_, ?_⟩
    · show ((pairs step).getD t (0, 0)).1 = index
      rw [owned t bound, same]
    · rw [entry t bound, same]
      rfl

/-! ## The uses of the entries -/

/-- The HW-thread of an entry. -/
def key (step : Step) (t : Nat) : Nat × Nat :=
  (((newPool step).partThrds t).node, ((newPool step).partThrds t).id)

/-- The first entry of its HW-thread. -/
def Home (step : Step) (t : Nat) : Prop := ∀ t' < t, key step t' ≠ key step t

/-- The first entries of the HW-threads in use are used once. -/
structure Counted (step : Step) (inUse : Finset (Nat × Nat))
    (pool : ThreadPool) : Prop where
  same : SameThreads (newPool step) pool
  used : ∀ t < (newPool step).totalThreads, Home step t → key step t ∈ inUse →
    (pool.partThrds t).timesUsed = 1
  unused : ∀ t < (newPool step).totalThreads,
    ¬(Home step t ∧ key step t ∈ inUse) → (pool.partThrds t).timesUsed = 0

section Counted

variable {step : Step} {inUse : Finset (Nat × Nat)} {pool : ThreadPool}

theorem Counted.low (counted : Counted step inUse pool)
    (bound : t < (newPool step).totalThreads) :
    0 ≤ (pool.partThrds t).timesUsed := by
  by_cases here : Home step t ∧ key step t ∈ inUse
  · rw [counted.used t bound here.1 here.2]
    exact Int.one_nonneg
  · rw [counted.unused t bound here]

/-- The first entry of a HW-thread gets used. -/
theorem Counted.use (counted : Counted step inUse pool) (bound : t < (newPool step).totalThreads)
    (home : Home step t) (fresh : key step t ∉ inUse) :
    Counted step (insert (key step t) inUse) (use pool t) := by
  have unused := counted.unused t bound fun both => fresh both.2
  have here : ((StepReservation.use pool t).partThrds t).timesUsed = 1 := by
    simp [StepReservation.use, unused, int16]
  have other : ∀ t', t' ≠ t → (StepReservation.use pool t).partThrds t'
      = pool.partThrds t' := fun t' different =>
    update_of_ne different _ _
  have away : ∀ t', t' ≠ t → Home step t' → key step t' ≠ key step t := by
    intro t' different home' same
    rcases Nat.lt_or_gt_of_ne different with before | after
    · exact home t' before same
    · exact home' t after same.symm
  refine ⟨⟨counted.same.totalThreads, fun t' => ?_, fun t' => ?_⟩, ?_, ?_⟩
  · rw [← counted.same.node t']
    by_cases same : t' = t
    · rw [same]
      simp [StepReservation.use]
    · rw [other t' same]
  · rw [← counted.same.id t']
    by_cases same : t' = t
    · rw [same]
      simp [StepReservation.use]
    · rw [other t' same]
  · intro t' bound' home' member
    by_cases same : t' = t
    · rw [same, here]
    · rw [other t' same]
      refine counted.used t' bound' home' ?_
      exact (Finset.mem_insert.mp member).resolve_left (away t' same home')
  · intro t' bound' none_used
    by_cases same : t' = t
    · rw [same] at none_used
      exact absurd ⟨home, Finset.mem_insert_self _ _⟩ none_used
    · rw [other t' same]
      exact counted.unused t' bound' fun both => none_used ⟨both.1, Finset.mem_insert_of_mem both.2⟩

end Counted

/-! ## Marking the uses of slots -/

section Marking

variable {step : Step} {pool : ThreadPool} {owner : Nat → Nat}

theorem findCPU_same (same : SameThreads (newPool step) pool)
    (firstThread cpu : Nat) :
    findCPU pool firstThread cpu = findCPU (newPool step) firstThread cpu := by
  unfold findCPU
  rw [same.totalThreads]
  congr 1
  funext t
  rw [same.id]

theorem findNode_same (same : SameThreads (newPool step) pool)
    (firstThread node : Nat) :
    findNode pool firstThread node = findNode (newPool step) firstThread node := by
  unfold findNode
  rw [same.totalThreads]
  congr 1
  funext t
  rw [same.node]

/-- The search for the CPUs of a slot leads to the first entries of its
HW-threads. -/
def Finds (step : Step) (firstThread : Nat) (slot : Slot) : Prop :=
  ∀ cpu ∈ slot.cpuSet, ∃ t, findCPU (newPool step) firstThread cpu = some t ∧ t <
    (newPool step).totalThreads ∧ key step t = (slot.node, cpu) ∧ Home step t

/-- The loops after some uses were marked that make `inUse` of what it was. -/
structure Going (step : Step) (before : Finset (Nat × Nat))
    (inUse : Finset (Nat × Nat)) (marking : Marking) : Prop where
  counted : Counted step inUse marking.pool
  used : inUse.card = before.card + marking.usedThreads
  own : ∀ mark ∈ marking.marks, mark.1 = mark.2

variable {before : Finset (Nat × Nat)} {inUse : Finset (Nat × Nat)} {marking : Marking}

theorem Going.markCPU (going : Going step before inUse marking)
    (found : findCPU (newPool step) marking.firstThread cpu = some t)
    (bound : t < (newPool step).totalThreads) (entry : key step t = (node, cpu))
    (home : Home step t) (fresh : (node, cpu) ∉ inUse) :
    Going step before (insert (node, cpu) inUse) (StepReservation.markCPU node marking cpu)
      ∧ (StepReservation.markCPU node marking cpu).firstThread = marking.firstThread := by
  have same := going.counted.same
  rw [← entry] at fresh ⊢
  have unused := going.counted.unused t bound fun both => fresh both.2
  have marked : StepReservation.markCPU node marking cpu = { marking with
      pool := use marking.pool t
      usedThreads := marking.usedThreads + 1
      marks := marking.marks ++ [(node, (marking.pool.partThrds t).node)] } := by
    unfold StepReservation.markCPU
    rw [findCPU_same same, found]
    simp only [unused, if_true]
  rw [marked]
  refine ⟨⟨going.counted.use bound home fresh, ?_, ?_⟩, rfl⟩
  · show _ = before.card + (marking.usedThreads + 1)
    rw [Finset.card_insert_of_notMem fresh, going.used, Nat.add_assoc]
  · intro mark member
    rcases mem_append.mp member with old | new
    · exact going.own mark old
    · rw [mem_singleton.mp new, same.node]
      exact (congrArg Prod.fst entry).symm

theorem Going.markCPUs {list : List Nat} (distinct : list.Nodup)
    (going : Going step before inUse marking) (finds : ∀ cpu ∈ list, ∃ t,
      findCPU (newPool step) marking.firstThread cpu = some t ∧ t < (newPool step).totalThreads ∧
        key step t = (node, cpu) ∧ Home step t) (fresh : ∀ cpu ∈ list, (node, cpu) ∉ inUse) :
    Going step before (inUse ∪ (list.map (Prod.mk node)).toFinset)
        (list.foldl (StepReservation.markCPU node) marking)
      ∧ (list.foldl (StepReservation.markCPU node) marking).firstThread = marking.firstThread
      ∧ (list.foldl (StepReservation.markCPU node) marking).thisNode = marking.thisNode := by
  induction list generalizing marking inUse with
  | nil =>
    rw [map_nil, toFinset_nil, Finset.union_empty]
    exact ⟨going, rfl, rfl⟩
  | cons cpu list induction =>
    obtain ⟨absent, distinct⟩ := nodup_cons.mp distinct
    obtain ⟨t, found, bound, entry, home⟩ := finds cpu mem_cons_self
    obtain ⟨marked, first⟩ := going.markCPU found bound entry home (fresh cpu mem_cons_self)
    obtain ⟨last, firstThread, thisNode⟩ := induction distinct marked
      (fun other member => by
        rw [first]
        exact finds other (mem_cons_of_mem _ member))
      (fun other member => by
        rw [Finset.mem_insert, not_or]
        refine ⟨fun same => absent ?_, fresh other (mem_cons_of_mem _ member)⟩
        rw [← (Prod.mk.inj same).2]
        exact member)
    have this : (StepReservation.markCPU node marking cpu).thisNode = marking.thisNode := by
      unfold StepReservation.markCPU
      split
      · rfl
      · rfl
    rw [map_cons, toFinset_cons, Finset.union_insert, ← Finset.insert_union]
    exact ⟨last, firstThread.trans first, thisNode.trans this⟩

theorem slotKeys_eq (slot : Slot) (few : ∀ cpu ∈ slot.cpuSet, cpu < num) :
    ((cpus slot.cpuSet num).map (Prod.mk slot.node)).toFinset = slotKeys slot := by
  ext pair
  simp only [mem_toFinset, mem_map, slotKeys, Finset.mem_image, mem_cpus]
  constructor
  · rintro ⟨cpu, ⟨-, inside⟩, rfl⟩
    exact ⟨cpu, inside, rfl⟩
  · rintro ⟨cpu, inside, rfl⟩
    exact ⟨cpu, ⟨few cpu inside, inside⟩, rfl⟩

inductive Sought (step : Step) (slot : Slot) (firstThread : Nat)
    (thisNode : Option Nat) : Nat → Option Nat → Prop where
  | atHand (same : thisNode = some slot.node) (finds : Finds step firstThread slot) :
      Sought step slot firstThread thisNode firstThread thisNode
  | found (t : Nat) (other : thisNode ≠ some slot.node)
      (node : findNode (newPool step) firstThread slot.node = some t) (finds : Finds step t slot) :
      Sought step slot firstThread thisNode t (some slot.node)
  | missing (other : thisNode ≠ some slot.node)
      (node : findNode (newPool step) firstThread slot.node = none) (empty : slot.cpuSet = ∅) :
      Sought step slot firstThread thisNode firstThread thisNode

theorem Going.markSlot {getNumThrds : Nat → Nat} {slot : Slot}
    (going : Going step before inUse marking) {node : Option Nat}
    (sought : Sought step slot marking.firstThread marking.thisNode t node)
    (few : ∀ cpu ∈ slot.cpuSet, cpu < getNumThrds slot.node)
    (fresh : Disjoint inUse (slotKeys slot)) :
    Going step before (inUse ∪ slotKeys slot) (StepReservation.markSlot getNumThrds marking slot)
      ∧ (StepReservation.markSlot getNumThrds marking slot).firstThread = t
      ∧ (StepReservation.markSlot getNumThrds marking slot).thisNode = node := by
  have marks : ∀ firstThread thisNode, Finds step firstThread slot →
      Going step before (inUse ∪ slotKeys slot)
          ((cpus slot.cpuSet (getNumThrds slot.node)).foldl
            (StepReservation.markCPU slot.node)
            { marking with firstThread, thisNode })
        ∧ ((cpus slot.cpuSet (getNumThrds slot.node)).foldl
            (StepReservation.markCPU slot.node)
            { marking with firstThread, thisNode }).firstThread = firstThread
        ∧ ((cpus slot.cpuSet (getNumThrds slot.node)).foldl
            (StepReservation.markCPU slot.node)
            { marking with firstThread, thisNode }).thisNode = thisNode := by
    intro firstThread thisNode finds
    rw [← slotKeys_eq slot few]
    refine Going.markCPUs ((cpus_sorted _ _).imp fun less => Nat.ne_of_lt less)
      ⟨going.counted, going.used, going.own⟩ ?_ ?_
    · intro cpu member
      exact finds cpu (mem_cpus.mp member).2
    · intro cpu member used
      refine Finset.disjoint_left.mp fresh used ?_
      exact Finset.mem_image_of_mem _ (mem_cpus.mp member).2
  have same := going.counted.same
  cases sought with
  | atHand this finds =>
    have seek : seekNode marking slot.node = some marking := if_pos this
    simp only [StepReservation.markSlot, seek]
    exact marks marking.firstThread marking.thisNode finds
  | found t other node finds =>
    have seek : seekNode marking slot.node = some { marking with
        firstThread := t, thisNode := some slot.node } := by
      unfold seekNode
      rw [if_neg other, findNode_same same, node]
      rfl
    simp only [StepReservation.markSlot, seek]
    exact marks t (some slot.node) finds
  | missing other node empty =>
    have seek : seekNode marking slot.node = none := by
      unfold seekNode
      rw [if_neg other, findNode_same same, node]
      rfl
    have skipped : StepReservation.markSlot getNumThrds marking slot = marking := by
      simp only [StepReservation.markSlot, seek]
    rw [skipped]
    refine ⟨?_, rfl, rfl⟩
    rw [slotKeys, empty, Finset.image_empty, Finset.union_empty]
    exact going

/-- A way to look for the nodes of slots that follow each other. -/
def Leads (step : Step) (at_ : Nat → Nat → Option Nat → Prop) : Prop :=
  ∀ index < step.np, ∀ firstThread thisNode, at_ index firstThread thisNode →
    ∃ t node, Sought step (step.slots index) firstThread thisNode t node ∧ at_ (index + 1) t node

theorem Going.markSlots {getNumThrds : Nat → Nat}
    {at_ : Nat → Nat → Option Nat → Prop} (leads : Leads step at_) {first : Nat}
    (inside : first + num ≤ step.np) (going : Going step before inUse marking)
    (here : at_ first marking.firstThread marking.thisNode)
    (few : ∀ index ∈ List.range' first num, ∀ cpu ∈ (step.slots index).cpuSet,
      cpu < getNumThrds (step.slots index).node)
    (fresh : ∀ index ∈ List.range' first num, Disjoint inUse (slotKeys (step.slots index)))
    (apart : (List.range' first num).Pairwise (Apart step)) :
    ∃ all : Finset (Nat × Nat),
      (∀ pair, pair ∈ all ↔ ∃ index ∈ List.range' first num, pair ∈ slotKeys (step.slots index))
      ∧ Going step before (inUse ∪ all)
        (((List.range' first num).map step.slots).foldl
          (StepReservation.markSlot getNumThrds) marking) := by
  induction num generalizing first marking inUse with
  | zero =>
    refine ⟨∅, by simp, ?_⟩
    rw [Finset.union_empty]
    exact going
  | succ num induction =>
    rw [range'_succ] at few fresh apart ⊢
    obtain ⟨t, node, sought, next⟩ := leads first (by omega) _ _ here
    obtain ⟨marked, firstThread, thisNode⟩ := going.markSlot sought
      (few first mem_cons_self) (fresh first mem_cons_self)
    obtain ⟨away, apart⟩ := pairwise_cons.mp apart
    obtain ⟨all, member, last⟩ := induction (by omega) marked
      (by rw [firstThread, thisNode]; exact next)
      (fun index inside => few index (mem_cons_of_mem _ inside))
      (fun index inside => Finset.disjoint_union_left.mpr
        ⟨fresh index (mem_cons_of_mem _ inside), away index inside⟩)
      apart
    refine ⟨slotKeys (step.slots first) ∪ all, fun pair => ?_, ?_⟩
    · rw [Finset.mem_union, member]
      simp only [mem_cons, exists_eq_or_imp]
    · rw [← Finset.union_assoc]
      exact last

end Marking

/-! ## Looking for nodes -/

section Seek

variable {step : Step} {owner : Nat → Nat}

theorem findCPU_eq (bound : t < (newPool step).totalThreads)
    (above : firstThread ≤ t) (here : ((newPool step).partThrds t).id = cpu)
    (before : ∀ t', firstThread ≤ t' → t' < t → ((newPool step).partThrds t').id ≠ cpu) :
    findCPU (newPool step) firstThread cpu = some t := by
  unfold findCPU
  rw [find?_range'_eq_some, mem_range'_1]
  refine ⟨by simpa using here, ⟨above, by omega⟩, fun t' first less => ?_⟩
  simpa using before t' first less

theorem findNode_eq {firstThread t node way : Nat}
    (inside : way < (newPool step).totalThreads)
    (leads : (firstThread + way) % (newPool step).totalThreads = t)
    (here : ((newPool step).partThrds t).node = node)
    (before : ∀ earlier < way, ((newPool step).partThrds
      ((firstThread + earlier) % (newPool step).totalThreads)).node ≠ node) :
    findNode (newPool step) firstThread node = some t := by
  unfold findNode
  rw [find?_map, Option.map_eq_some_iff]
  refine ⟨way, ?_, leads⟩
  rw [find?_range_eq_some, mem_range]
  refine ⟨?_, inside, fun earlier less => ?_⟩
  · simp [leads, here]
  · simpa using before earlier less

theorem findNode_ahead (bound : t < (newPool step).totalThreads)
    (above : firstThread ≤ t) (here : ((newPool step).partThrds t).node = node)
    (before : ∀ t', firstThread ≤ t' → t' < t → ((newPool step).partThrds t').node ≠ node) :
    findNode (newPool step) firstThread node = some t := by
  have near : ∀ {way}, firstThread + way ≤ t →
      (firstThread + way) % (newPool step).totalThreads = firstThread + way :=
    fun close => Nat.mod_eq_of_lt (by omega)
  refine @findNode_eq _ _ _ _ (t - firstThread) (by omega) ?_ here ?_
  · rw [near (by omega)]
    omega
  · intro earlier less
    rw [near (by omega)]
    exact before _ (by omega) (by omega)

theorem findNode_around (start : firstThread < (newPool step).totalThreads)
    (below : t < firstThread) (here : ((newPool step).partThrds t).node = node)
    (ahead : ∀ t', firstThread ≤ t' → t' < (newPool step).totalThreads →
      ((newPool step).partThrds t').node ≠ node)
    (before : ∀ t' < t, ((newPool step).partThrds t').node ≠ node) :
    findNode (newPool step) firstThread node = some t := by
  generalize total : (newPool step).totalThreads = n at start ahead
  have wrapped : ∀ {way}, n ≤ firstThread + way → firstThread + way < 2 * n →
      (firstThread + way) % n = firstThread + way - n := by
    intro way past short
    rw [Nat.mod_eq_sub_mod past, Nat.mod_eq_of_lt (by omega)]
  refine @findNode_eq _ _ _ _ (n - firstThread + t) (by omega) ?_ here ?_
  · rw [total, wrapped (by omega) (by omega)]
    omega
  · intro earlier less
    rw [total]
    by_cases near : firstThread + earlier < n
    · rw [Nat.mod_eq_of_lt near]
      exact ahead _ (by omega) near
    · rw [wrapped (by omega) (by omega)]
      exact before _ (by omega)

theorem findNode_none (absent : ∀ t < (newPool step).totalThreads,
      ((newPool step).partThrds t).node ≠ node) :
    findNode (newPool step) firstThread node = none := by
  unfold findNode
  rw [find?_eq_none]
  intro t member
  obtain ⟨way, inside, rfl⟩ := mem_map.mp member
  have some_entry := mem_range.mp inside
  simpa using absent _ (Nat.mod_lt _ (by omega))

/-- The first of the numbers with a property. -/
theorem exists_first {p : Nat → Prop} (some_one : ∃ t, p t) : ∃ t, p t ∧ ∀ t' < t, ¬p t' := by
  classical
  exact ⟨Nat.find some_one, Nat.find_spec some_one,
    fun _ less => Nat.find_min some_one less⟩

theorem Layout.le (layout : Layout step owner) {t' : Nat}
    (bound : t' < (newPool step).totalThreads) (less : t ≤ t') :
    owner t ≤ owner t' := by
  rcases Nat.eq_or_lt_of_le less with rfl | before
  · exact Nat.le_refl _
  · rcases layout.ordered t' bound t before with lower | ⟨same, -⟩
    · exact Nat.le_of_lt lower
    · exact Nat.le_of_eq same

/-- Entries of a node follow each other. -/
theorem Layout.between (layout : Layout step owner) (grouped : Grouped step)
    {first second third : Nat} (bound : third < (newPool step).totalThreads)
    (left : first ≤ second) (right : second ≤ third)
    (same : ((newPool step).partThrds first).node = ((newPool step).partThrds third).node) :
    ((newPool step).partThrds second).node = ((newPool step).partThrds third).node := by
  have low := layout.le (show second < _ by omega) left
  have high := layout.le bound right
  rw [layout.node _ (by omega), layout.node _ bound] at same ⊢
  rcases Nat.eq_or_lt_of_le low with equal | lower
  · rw [← equal]
    exact same
  · rcases Nat.eq_or_lt_of_le high with equal | higher
    · rw [equal]
    · exact grouped _ (layout.inside _ bound) _ higher _ lower same

def FirstOf (step : Step) (node t : Nat) : Prop :=
  (t < (newPool step).totalThreads ∧ ((newPool step).partThrds t).node = node)
    ∧ ∀ t' < t, ¬(t' < (newPool step).totalThreads ∧ ((newPool step).partThrds t').node = node)

theorem Layout.finds_grouped (layout : Layout step owner) (grouped : Grouped step)
    (inside : index < step.np) (first : FirstOf step (step.slots index).node firstThread) :
    Finds step firstThread (step.slots index) := by
  intro cpu member
  obtain ⟨t, bound, from_, here⟩ := layout.covered index inside cpu member
  have entry : key step t = ((step.slots index).node, cpu) := by
    rw [key, layout.node t bound, from_, here]
  obtain ⟨home, ⟨bound', entry'⟩, earlier⟩ := exists_first
    (p := fun t => t < (newPool step).totalThreads
      ∧ key step t = ((step.slots index).node, cpu)) ⟨t, bound, entry⟩
  have node' := congrArg Prod.fst entry'
  have id' := congrArg Prod.snd entry'
  have above : firstThread ≤ home := by
    by_contra below
    exact first.2 home (by omega) ⟨bound', node'⟩
  refine ⟨home, findCPU_eq bound' above id' ?_, bound', entry', ?_⟩
  · intro other from_first less same
    have node := layout.between grouped bound' from_first (Nat.le_of_lt less)
      (first.1.2.trans node'.symm)
    exact earlier other less ⟨by omega, Prod.ext (node.trans node') same⟩
  · intro other less same
    exact earlier other less ⟨by omega, same.trans entry'⟩

theorem leads_grouped (grouped : Grouped step) :
    Leads step fun _ firstThread thisNode =>
      (thisNode = none ∧ firstThread = 0)
        ∨ ∃ node, thisNode = some node ∧ FirstOf step node firstThread := by
  obtain ⟨owner, layout⟩ := layout step
  intro index inside firstThread thisNode here
  by_cases same : thisNode = some (step.slots index).node
  · obtain ⟨node, is_node, first⟩ : ∃ node, thisNode = some node
        ∧ FirstOf step node firstThread := by
      rcases here with ⟨no, -⟩ | some_node
      · rw [no] at same
        exact absurd same (by simp)
      · exact some_node
    have equal : node = (step.slots index).node := Option.some.inj (is_node.symm.trans same)
    subst equal
    exact ⟨_, _, .atHand same (layout.finds_grouped grouped inside first), .inr ⟨_, same, first⟩⟩
  · by_cases exists_ : ∃ t, t < (newPool step).totalThreads
        ∧ ((newPool step).partThrds t).node = (step.slots index).node
    · obtain ⟨t, first⟩ := exists_first exists_
      have found : findNode (newPool step) firstThread (step.slots index).node = some t := by
        by_cases ahead : firstThread ≤ t
        · exact findNode_ahead first.1.1 ahead first.1.2 fun t' _ less node =>
            first.2 t' less ⟨by omega, node⟩
        · rcases here with ⟨-, zero⟩ | ⟨node, is_node, other⟩
          · omega
          · refine findNode_around other.1.1 (by omega) first.1.2 ?_ ?_
            · intro t' above bound node'
              have between := layout.between grouped bound (show t ≤ firstThread by omega) above
                (first.1.2.trans node'.symm)
              rw [other.1.2, node'] at between
              exact same (is_node.trans (congrArg some between))
            · exact fun t' less node' => first.2 t' less ⟨by omega, node'⟩
      exact ⟨_, _, .found t same found
        (layout.finds_grouped grouped inside first), .inr ⟨_, rfl, first⟩⟩
    · have empty : (step.slots index).cpuSet = ∅ := by
        rw [Finset.eq_empty_iff_forall_notMem]
        intro cpu member
        obtain ⟨t, bound, from_, -⟩ := layout.covered index inside cpu member
        refine exists_ ⟨t, bound, ?_⟩
        rw [layout.node t bound, from_]
      exact ⟨_, _, .missing same (findNode_none fun t bound node =>
        exists_ ⟨t, bound, node⟩) empty, here⟩

/-- From an entry on, those of the slots up to `index` are on its node. -/
def Reaches (step : Step) (owner : Nat → Nat) (index firstThread : Nat) : Prop :=
  ∀ t, firstThread ≤ t → t < (newPool step).totalThreads → owner t ≤ index →
    ((newPool step).partThrds t).node = (step.slots index).node

theorem Layout.finds_unshared (layout : Layout step owner)
    (unshared : Unshared step) (inside : index < step.np)
    (reaches : Reaches step owner index firstThread)
    (above : ∀ t < (newPool step).totalThreads, owner t = index →
      firstThread ≤ t) : Finds step firstThread (step.slots index) := by
  intro cpu member
  obtain ⟨t, bound, from_, here⟩ := layout.covered index inside cpu member
  have entry : key step t = ((step.slots index).node, cpu) := by
    rw [key, layout.node t bound, from_, here]
  have home : Home step t := by
    intro t' less same
    rcases layout.ordered t bound t' less with lower | ⟨-, lower⟩
    · have apart := (unshared index inside).2 (owner t') (from_ ▸ lower)
      refine Finset.disjoint_left.mp apart (?_ : key step t' ∈ _) ?_
      · rw [key, layout.node t' (by omega)]
        exact Finset.mem_image_of_mem _ (layout.cpu t' (by omega))
      · rw [same, entry]
        exact Finset.mem_image_of_mem _ member
    · have equal := congrArg Prod.snd same
      change ((newPool step).partThrds t').id = ((newPool step).partThrds t).id
        at equal
      omega
  refine ⟨t, findCPU_eq bound (above t bound from_) here ?_, bound, entry, home⟩
  intro t' first less same
  have node := reaches t' first (by omega) (from_ ▸ layout.le bound (Nat.le_of_lt less))
  exact home t' less ((Prod.ext node same).trans entry.symm)

theorem leads_unshared (unshared : Unshared step) :
    ∃ at_ : Nat → Nat → Option Nat → Prop, Leads step at_ ∧ at_ 0 0 none := by
  obtain ⟨owner, layout⟩ := layout step
  refine ⟨fun index firstThread thisNode =>
    (index = 0 ∧ firstThread = 0 ∧ thisNode = none)
      ∨ ∃ node, thisNode = some node ∧ firstThread < (newPool step).totalThreads
        ∧ owner firstThread < index
        ∧ ∀ t, firstThread ≤ t → t < (newPool step).totalThreads →
          owner t < index → ((newPool step).partThrds t).node = node,
    ?_, .inl ⟨rfl, rfl, rfl⟩⟩
  intro index inside firstThread thisNode here
  by_cases same : thisNode = some (step.slots index).node
  · rcases here with ⟨-, -, no⟩ | ⟨node, is_node, bound, lower, reached⟩
    · rw [no] at same
      exact absurd same (by simp)
    · have equal : node = (step.slots index).node :=
        Option.some.inj (is_node.symm.trans same)
      subst equal
      have reaches : Reaches step owner index firstThread := by
        intro t first bound' le
        rcases Nat.eq_or_lt_of_le le with from_ | less
        · rw [layout.node t bound', from_]
        · exact reached t first bound' less
      refine ⟨_, _, .atHand same (layout.finds_unshared unshared inside reaches
        fun t bound' from_ => ?_), .inr ⟨_, same, bound, by omega,
          fun t first bound' less => reaches t first bound' (by omega)⟩⟩
      by_contra before
      have le := layout.le bound (show t ≤ firstThread by omega)
      omega
  · obtain ⟨cpu, member⟩ := (unshared index inside).1
    obtain ⟨some_t, some_bound, some_from, -⟩ := layout.covered index inside cpu member
    obtain ⟨t, ⟨bound, from_⟩, earlier⟩ := exists_first
      (p := fun t => t < (newPool step).totalThreads ∧ owner t = index)
      ⟨some_t, some_bound, some_from⟩
    have node : ((newPool step).partThrds t).node = (step.slots index).node := by
      rw [layout.node t bound, from_]
    have reaches : Reaches step owner index t := by
      intro t' first bound' le
      have ge := layout.le bound' first
      rw [layout.node t' bound', show owner t' = index by omega]
    have above : ∀ t' < (newPool step).totalThreads, owner t' = index → t ≤ t' := by
      intro t' bound' from_'
      by_contra before
      exact earlier t' (by omega) ⟨bound', from_'⟩
    have found : findNode (newPool step) firstThread (step.slots index).node = some t := by
      rcases here with ⟨zero, first, -⟩ | ⟨other, is_node, bound', lower, reached⟩
      · refine findNode_ahead bound (by omega) node fun t' _ less => ?_
        have le := layout.le bound (Nat.le_of_lt less)
        exact absurd ⟨show t' < _ by omega, show owner t' = index by omega⟩ (earlier t' less)
      · have ahead : firstThread ≤ t := by
          by_contra before
          have le := layout.le bound' (show t ≤ firstThread by omega)
          omega
        refine findNode_ahead bound ahead node fun t' first less here => ?_
        have le := layout.le bound (Nat.le_of_lt less)
        have different : owner t' ≠ index := fun equal => earlier t' less ⟨by omega, equal⟩
        have others := reached t' first (by omega) (by omega)
        exact same (is_node.trans (congrArg some (others.symm.trans here)))
    exact ⟨_, _, .found t same found
      (layout.finds_unshared unshared inside reaches above),
      .inr ⟨_, rfl, bound, by omega,
        fun t' first bound' less => reaches t' first bound' (by omega)⟩⟩

end Seek

/-! ## Releasing a slot -/

section Release

def FirstIn (threads : List Nat) (partThrds : Nat → HWThread) (t : Nat) : Prop :=
  ∀ t' ∈ threads, t' < t → ((partThrds t').node, (partThrds t').id)
    ≠ ((partThrds t).node, (partThrds t).id)

theorem releaseLoop_first {node : Nat} {threads : List Nat}
    (sorted : threads.Pairwise (· < ·)) :
    ∀ {partThrds : Nat → HWThread} {cpuSet : CPUSet} (total : Nat),
      (∀ t ∈ threads, FirstIn threads partThrds t →
        (partThrds t).inSlot ⟨node, cpuSet⟩ = true → (partThrds t).timesUsed = 1) →
      (∀ cpu ∈ cpuSet, ∃ t ∈ threads, (partThrds t).node = node ∧ (partThrds t).id = cpu) →
      ∃ after slots, releaseLoop threads partThrds [⟨node, cpuSet⟩] total
          cpuSet.card = (after, slots, total, 0)
        ∧ (∀ t ∈ threads, FirstIn threads partThrds t → (partThrds t).inSlot ⟨node, cpuSet⟩ = true →
            after t = { partThrds t with timesUsed := 0 })
        ∧ ∀ t, ¬(t ∈ threads ∧ FirstIn threads partThrds t
          ∧ (partThrds t).inSlot ⟨node, cpuSet⟩ = true) → after t = partThrds t := by
  induction threads with
  | nil =>
    intro partThrds cpuSet total _ covered
    have empty : cpuSet = ∅ := by
      rw [Finset.eq_empty_iff_forall_notMem]
      intro cpu member
      obtain ⟨t, inside, -⟩ := covered cpu member
      exact absurd inside not_mem_nil
    refine ⟨partThrds, [⟨node, cpuSet⟩], ?_, ?_, fun _ _ => rfl⟩
    · rw [empty]
      rfl
    · exact fun t inside => absurd inside not_mem_nil
  | cons t threads induction =>
    intro partThrds cpuSet total once covered
    obtain ⟨above, sorted⟩ := pairwise_cons.mp sorted
    have first : FirstIn (t :: threads) partThrds t := by
      intro t' member less
      rcases mem_cons.mp member with rfl | later
      · exact absurd less (Nat.lt_irrefl _)
      · exact absurd less (Nat.lt_asymm (above t' later))
    have first_cons : ∀ t' ∈ threads, FirstIn (t :: threads) partThrds t' ↔
        ((partThrds t).node, (partThrds t).id) ≠ ((partThrds t').node, (partThrds t').id)
          ∧ FirstIn threads partThrds t' := by
      intro t' later
      constructor
      · exact fun all => ⟨all t mem_cons_self (above t' later),
          fun other member => all other (mem_cons_of_mem _ member)⟩
      · rintro ⟨head, rest⟩ other member less
        rcases mem_cons.mp member with rfl | member
        · exact head
        · exact rest other member less
    by_cases nothing : cpuSet.card = 0
    · have empty : cpuSet = ∅ := Finset.card_eq_zero.mp nothing
      refine ⟨partThrds, [⟨node, cpuSet⟩], ?_, ?_, fun _ _ => rfl⟩
      · rw [releaseLoop, if_pos nothing, nothing]
      · intro t' _ _ inside
        exact absurd (inSlot_iff.mp inside).2 (by simp [empty])
    · by_cases here : (partThrds t).inSlot ⟨node, cpuSet⟩ = true
      · obtain ⟨same_node, member⟩ := inSlot_iff.mp here
        have used := once t mem_cons_self first here
        have others : ∀ t' ∈ threads, update partThrds t
            { partThrds t with timesUsed := 0 } t' = partThrds t' :=
          fun t' later => update_of_ne (above t' later).ne' _ _
        have keeps : ∀ t', ((update partThrds t
            { partThrds t with timesUsed := 0 } t').node = (partThrds t').node)
              ∧ (update partThrds t
            { partThrds t with timesUsed := 0 } t').id = (partThrds t').id := by
          intro t'
          by_cases same : t' = t
          · rw [same, update_self]
            exact ⟨rfl, rfl⟩
          · rw [update_of_ne same]
            exact ⟨rfl, rfl⟩
        have first_same : ∀ t', FirstIn threads (update partThrds t
            { partThrds t with timesUsed := 0 }) t' ↔ FirstIn threads partThrds t' := by
          intro t'
          unfold FirstIn
          simp only [(keeps _).1, (keeps _).2]
        have inSlot_erase : ∀ t' ∈ threads, FirstIn threads partThrds t' →
            ((partThrds t').inSlot ⟨node, cpuSet.erase (partThrds t).id⟩ = true
              ↔ FirstIn (t :: threads) partThrds t'
                ∧ (partThrds t').inSlot ⟨node, cpuSet⟩ = true) := by
          intro t' later first'
          rw [first_cons t' later, inSlot_iff, inSlot_iff, Finset.mem_erase]
          constructor
          · rintro ⟨same, different, inside⟩
            exact ⟨⟨fun equal => different (Prod.mk.inj equal).2.symm, first'⟩, same, inside⟩
          · rintro ⟨⟨different, -⟩, same, inside⟩
            refine ⟨same, fun equal => different ?_, inside⟩
            exact Prod.ext (same_node.symm.trans same) equal.symm
        obtain ⟨after, slots, loop, taken, kept⟩ := @induction sorted
          (update partThrds t { partThrds t with timesUsed := 0 })
          (cpuSet.erase (partThrds t).id) total
          (by
            intro t' later first' inside
            rw [first_same] at first'
            rw [others t' later] at inside ⊢
            obtain ⟨first'', inside'⟩ := (inSlot_erase t' later first').mp inside
            exact once t' (mem_cons_of_mem _ later) first'' inside')
          (by
            intro cpu inside
            obtain ⟨different, inside⟩ := Finset.mem_erase.mp inside
            obtain ⟨t', listed, node', cpu'⟩ := covered cpu inside
            rcases mem_cons.mp listed with rfl | later
            · exact absurd cpu'.symm different
            · rw [← others t' later] at node' cpu'
              exact ⟨t', later, node', cpu'⟩)
        refine ⟨after, slots, ?_, ?_, ?_⟩
        · have card : (cpuSet.erase (partThrds t).id).card = cpuSet.card - 1 :=
            Finset.card_erase_of_mem member
          rw [releaseLoop, if_neg nothing]
          simp only [releaseSlots, if_pos (And.intro same_node member), used,
            Int.sub_self, Int.lt_irrefl, if_false]
          rw [← card]
          exact loop
        · intro t' listed first' inside
          rcases mem_cons.mp listed with rfl | later
          · rw [kept t' fun both => absurd (above t' both.1) (Nat.lt_irrefl _), update_self]
          · have rest := ((first_cons t' later).mp first').2
            have erased := (inSlot_erase t' later rest).mpr ⟨first', inside⟩
            rw [taken t' later ((first_same t').mpr rest)
              (by rw [others t' later]; exact erased), others t' later]
        · intro t' not_taken
          by_cases same : t' = t
          · rw [same] at not_taken
            exact absurd ⟨mem_cons_self, first, here⟩ not_taken
          · rw [kept, update_of_ne same]
            rintro ⟨later, first', inside⟩
            rw [first_same] at first'
            rw [others t' later] at inside
            obtain ⟨first'', inside'⟩ := (inSlot_erase t' later first').mp inside
            exact not_taken ⟨mem_cons_of_mem _ later, first'', inside'⟩
      · have apart : ¬(node = (partThrds t).node ∧ (partThrds t).id ∈ cpuSet) := fun both =>
          here (inSlot_iff.mpr both)
        have first_iff : ∀ t' ∈ threads, (partThrds t').inSlot ⟨node, cpuSet⟩ = true →
              (FirstIn (t :: threads) partThrds t' ↔ FirstIn threads partThrds t') := by
          intro t' later inside
          rw [first_cons t' later]
          refine and_iff_right fun equal => here ?_
          obtain ⟨node', cpu'⟩ := inSlot_iff.mp inside
          obtain ⟨same_node, same_id⟩ := Prod.mk.inj equal
          exact inSlot_iff.mpr ⟨node'.trans same_node.symm, same_id ▸ cpu'⟩
        obtain ⟨after, slots, loop, taken, kept⟩ := @induction sorted
          partThrds cpuSet total
          (fun t' later first' inside => once t'
            (mem_cons_of_mem _ later)
            ((first_iff t' later inside).mpr first') inside)
          (by
            intro cpu inside
            obtain ⟨t', listed, node', cpu'⟩ := covered cpu inside
            rcases mem_cons.mp listed with rfl | later
            · exact absurd ⟨node'.symm, cpu' ▸ inside⟩ apart
            · exact ⟨t', later, node', cpu'⟩)
        refine ⟨after, slots, ?_, ?_, ?_⟩
        · rw [releaseLoop, if_neg nothing]
          simp only [releaseSlots, if_neg apart]
          have same : update partThrds t { partThrds t with timesUsed := (partThrds t).timesUsed }
                = partThrds := update_eq_self t partThrds
          rw [same]
          exact loop
        · intro t' listed first' inside
          rcases mem_cons.mp listed with rfl | later
          · exact absurd inside here
          · exact taken t' later ((first_iff t' later inside).mp first') inside
        · intro t' not_taken
          refine kept t' ?_
          rintro ⟨later, first', inside⟩
          exact not_taken ⟨mem_cons_of_mem _ later, (first_iff t' later inside).mpr first', inside⟩

variable {step : Step} {inUse : Finset (Nat × Nat)} {pool : ThreadPool}

theorem Counted.release (counted : Counted step inUse pool)
    (inside : index < step.np) (sub : slotKeys (step.slots index) ⊆ inUse) :
    (releaseThreads [step.slots index] pool).1 = (step.slots index).cpuSet.card
      ∧ Counted step (inUse \ slotKeys (step.slots index))
        (releaseThreads [step.slots index] pool).2.2 := by
  obtain ⟨owner, layout⟩ := layout step
  have same := counted.same
  have total := same.totalThreads
  have in_keys : ∀ t, (pool.partThrds t).inSlot (step.slots index) = true
      ↔ key step t ∈ slotKeys (step.slots index) := by
    intro t
    rw [inSlot_iff, same.node, same.id, slotKeys, Finset.mem_image]
    constructor
    · rintro ⟨node, cpu⟩
      exact ⟨_, cpu, Prod.ext node rfl⟩
    · rintro ⟨cpu, member, equal⟩
      rw [key] at equal
      obtain ⟨node, is_cpu⟩ := Prod.mk.inj equal
      exact ⟨node, is_cpu ▸ member⟩
  have first_iff : ∀ t < (newPool step).totalThreads,
      (FirstIn (List.range pool.totalThreads) pool.partThrds t ↔ Home step t) := by
    intro t bound
    unfold FirstIn Home key
    simp only [same.node, same.id, total, mem_range]
    exact ⟨fun all t' less => all t' (by omega) less,
      fun all t' _ less => all t' less⟩
  obtain ⟨after, slots, loop, taken, kept⟩ :=
    @releaseLoop_first (step.slots index).node (List.range pool.totalThreads)
      pairwise_lt_range pool.partThrds (step.slots index).cpuSet (step.slots index).cpuSet.card
      (by
        intro t listed first inside'
        rw [mem_range, total] at listed
        exact counted.used t listed ((first_iff t listed).mp first) (sub ((in_keys t).mp inside')))
      (by
        intro cpu member
        obtain ⟨t, bound, from_, here⟩ := layout.covered index inside cpu member
        refine ⟨t, mem_range.mpr (total ▸ bound), ?_, ?_⟩
        · rw [same.node, layout.node t bound, from_]
        · rw [same.id, here])
  have released : releaseThreads [step.slots index] pool
      = ((step.slots index).cpuSet.card, slots, { pool with partThrds := after }) := by
    simp only [releaseThreads, map_cons, map_nil, sum_cons,
      sum_nil, Nat.add_zero, loop, Nat.sub_zero]
  have keeps : ∀ t, (after t).node = (pool.partThrds t).node
      ∧ (after t).id = (pool.partThrds t).id := by
    intro t
    by_cases both : t ∈ List.range pool.totalThreads ∧ FirstIn (List.range pool.totalThreads)
        pool.partThrds t ∧ (pool.partThrds t).inSlot (step.slots index) = true
    · rw [taken t both.1 both.2.1 both.2.2]
      exact ⟨rfl, rfl⟩
    · rw [kept t both]
      exact ⟨rfl, rfl⟩
  rw [released]
  refine ⟨rfl, ⟨total, fun t => (keeps t).1.trans (same.node t),
    fun t => (keeps t).2.trans (same.id t)⟩, ?_, ?_⟩
  · intro t bound home member
    obtain ⟨used, away⟩ := Finset.mem_sdiff.mp member
    show (after t).timesUsed = 1
    rw [kept t fun both => away ((in_keys t).mp both.2.2)]
    exact counted.used t bound home used
  · intro t bound not_used
    show (after t).timesUsed = 0
    by_cases both : Home step t ∧ key step t ∈ slotKeys (step.slots index)
    · rw [taken t (mem_range.mpr (total ▸ bound))
        ((first_iff t bound).mpr both.1) ((in_keys t).mpr both.2)]
    · rw [kept t fun three => both ⟨(first_iff t bound).mp three.2.1, (in_keys t).mp three.2.2⟩]
      refine counted.unused t bound fun used => ?_
      by_cases member : key step t ∈ slotKeys (step.slots index)
      · exact both ⟨used.1, member⟩
      · exact not_used ⟨used.1, Finset.mem_sdiff.mpr ⟨used.2, member⟩⟩

end Release

/-! ## Runs -/

section Runs

variable {getNumThrds : Nat → Nat} {step : Step} {task : Task}

structure Sound (step : Step) (inUse : Finset (Nat × Nat)) (task : Task) :
    Prop where
  holds : ∀ pair, pair ∈ inUse ↔ ∃ index ∈ task.held, pair ∈ slotKeys (step.slots index)
  counted : Counted step inUse task.pool
  used : task.pool.usedThreads = inUse.card
  apart : task.held.Pairwise (Apart step)
  held : ∀ index ∈ task.held, index < step.np
  handed : ∀ index ∈ task.handed, index < step.np
  own : ∀ mark ∈ task.marks, mark.1 = mark.2
  missed : task.missed = 0

variable {inUse : Finset (Nat × Nat)}

theorem Sound.agrees (sound : Sound step inUse task) : Agrees step task where
  inside := sound.handed
  own := sound.own
  low := fun t bound => sound.counted.low (sound.counted.same.totalThreads ▸ bound)
  inUse := sound.missed
  usedLow := by
    rw [sound.used]
    exact Int.natCast_nonneg _
  clear := by
    intro nothing
    have empty : inUse = ∅ := by
      rw [Finset.eq_empty_iff_forall_notMem]
      intro pair member
      obtain ⟨index, held, -⟩ := (sound.holds pair).mp member
      rw [nothing] at held
      exact absurd held not_mem_nil
    refine ⟨?_, fun t bound => ?_⟩
    · rw [sound.used, empty]
      rfl
    · refine sound.counted.unused t (sound.counted.same.totalThreads ▸ bound) ?_
      rw [empty]
      exact fun both => absurd both.2 (Finset.notMem_empty _)

theorem sound_start (step : Step) : Sound step ∅ (.start step) where
  holds := by simp [Task.start]
  counted := by
    refine ⟨SameThreads.refl _, fun t _ _ member =>
      absurd member (Finset.notMem_empty _), fun t bound _ => ?_⟩
    show ((genThreadsArray step).getD t ⟨0, 0, 0⟩).timesUsed = 0
    rw [genThreadsArray_eq, getD_eq_getElem?_getD, getElem?_map]
    cases (pairs step)[t]? with
    | none => rfl
    | some pair => rfl
  used := rfl
  apart := List.Pairwise.nil
  held := by simp [Task.start]
  handed := by simp [Task.start]
  own := by simp [Task.start]
  missed := rfl

theorem Sound.reserve (sound : Sound step inUse task) {nMin nMax : Nat} {allocated : Bool}
    (fits : Fits getNumThrds step task (.getReservation nMin nMax allocated)) :
    ∃ inUse, Sound step inUse (handleGetReservation getNumThrds step task nMin nMax allocated) := by
  unfold handleGetReservation
  by_cases dynamic : nMin ≠ nMax
  · rw [if_pos dynamic]
    exact ⟨inUse, sound⟩
  · rw [if_neg dynamic]
    cases allocated with
    | false =>
      rw [if_pos rfl]
      exact ⟨inUse, sound.holds, sound.counted, sound.used, sound.apart,
        sound.held, sound.handed, sound.own, sound.missed⟩
    | true =>
      rw [if_neg (by simp)]
      obtain ⟨inside, few, apart, easy⟩ := fits (not_not.mp dynamic) rfl
      obtain ⟨_, apart_next, apart_both⟩ := pairwise_append.mp apart
      obtain ⟨at_, leads, here⟩ : ∃ at_ : Nat → Nat → Option Nat → Prop,
          Leads step at_ ∧ at_ task.usedSlots 0 none := by
        rcases easy with grouped | ⟨zero, unshared⟩
        · exact ⟨_, leads_grouped grouped, .inl ⟨rfl, rfl⟩⟩
        · rw [zero]
          exact leads_unshared unshared
      have begins : Going step inUse inUse
          { pool := task.pool, firstThread := 0, thisNode := none
            usedThreads := 0, marks := [] } :=
        ⟨sound.counted, rfl, fun mark member => absurd member not_mem_nil⟩
      obtain ⟨all, member, going⟩ := begins.markSlots leads inside here few
        (fun index listed => by
          rw [Finset.disjoint_left]
          intro pair used
          obtain ⟨other, held, of_other⟩ := (sound.holds pair).mp used
          exact Finset.disjoint_left.mp (apart_both other held index listed) of_other)
        apart_next
      refine ⟨inUse ∪ all, ?_, ?_, ?_, apart, ?_, ?_, ?_, sound.missed⟩
      · intro pair
        rw [Finset.mem_union, sound.holds, member]
        constructor
        · rintro (⟨index, held, of_slot⟩ | ⟨index, listed, of_slot⟩)
          · exact ⟨index, mem_append_left _ held, of_slot⟩
          · exact ⟨index, mem_append_right _ listed, of_slot⟩
        · rintro ⟨index, held, of_slot⟩
          rcases mem_append.mp held with old | new
          · exact .inl ⟨index, old, of_slot⟩
          · exact .inr ⟨index, new, of_slot⟩
      · exact ⟨⟨going.counted.same.totalThreads, going.counted.same.node,
          going.counted.same.id⟩, going.counted.used, going.counted.unused⟩
      · show task.pool.usedThreads + _ = _
        rw [sound.used, going.used]
        exact (Int.natCast_add _ _).symm
      · intro index held
        rcases mem_append.mp held with old | new
        · exact sound.held index old
        · have range := mem_range'_1.mp new
          omega
      · intro index given
        rcases mem_append.mp given with old | new
        · exact sound.handed index old
        · have range := mem_range'_1.mp new
          omega
      · intro mark made
        rcases mem_append.mp made with old | new
        · exact sound.own mark old
        · exact going.own mark new

theorem card_slotKeys (slot : Slot) : (slotKeys slot).card = slot.cpuSet.card :=
  Finset.card_image_of_injective _ fun _ _ same => (Prod.mk.inj same).2

theorem Sound.release (sound : Sound step inUse task) (held : index ∈ task.held) :
    Sound step (inUse \ slotKeys (step.slots index)) (releaseSlot step task index) := by
  have sub : slotKeys (step.slots index) ⊆ inUse := fun pair member =>
    (sound.holds pair).mpr ⟨index, held, member⟩
  obtain ⟨released, counted⟩ := sound.counted.release (sound.held index held) sub
  have split := perm_cons_erase held
  have apart : (index :: task.held.erase index).Pairwise (Apart step) :=
    (split.pairwise_iff fun disjoint => Disjoint.symm disjoint).mp sound.apart
  have erased := pairwise_cons.mp apart
  refine ⟨?_, ⟨⟨counted.same.totalThreads, counted.same.node, counted.same.id⟩,
    counted.used, counted.unused⟩, ?_, erased.2, ?_, sound.handed, sound.own,
    ?_⟩
  · intro pair
    rw [Finset.mem_sdiff, sound.holds]
    constructor
    · rintro ⟨⟨other, listed, of_other⟩, away⟩
      rcases mem_cons.mp (split.mem_iff.mp listed) with rfl | still
      · exact absurd of_other away
      · exact ⟨other, still, of_other⟩
    · rintro ⟨other, still, of_other⟩
      refine ⟨⟨other, mem_of_mem_erase still, of_other⟩, fun member => ?_⟩
      exact Finset.disjoint_left.mp (erased.1 other still) member of_other
  · show (releaseThreads [step.slots index] task.pool).2.2.usedThreads
      - ((releaseThreads [step.slots index] task.pool).1 : Int) = _
    have same : (releaseThreads [step.slots index] task.pool).2.2.usedThreads
        = task.pool.usedThreads := rfl
    have most := Finset.card_le_card sub
    rw [same, released, sound.used, Finset.card_sdiff_of_subset sub, card_slotKeys]
    rw [card_slotKeys] at most
    omega
  · exact fun other still => sound.held other (mem_of_mem_erase still)
  · show task.missed + ((step.slots index).cpuSet.card
      - (releaseThreads [step.slots index] task.pool).1) = 0
    rw [released, sound.missed, Nat.sub_self]

theorem Sound.releases {indices : List Nat} (distinct : indices.Nodup)
    (sound : Sound step inUse task) (held : ∀ index ∈ indices, index ∈ task.held) :
    ∃ inUse, Sound step inUse (msgChildResRel step task indices) := by
  induction indices generalizing task inUse with
  | nil => exact ⟨inUse, sound⟩
  | cons index indices induction =>
    obtain ⟨absent, distinct⟩ := nodup_cons.mp distinct
    refine induction distinct (sound.release (held index mem_cons_self)) ?_
    intro other member
    show other ∈ task.held.erase index
    rw [mem_erase_of_ne]
    · exact held other (mem_cons_of_mem _ member)
    · rintro rfl
      exact absent member

/-- Reservations and releases agree while the slots are easy to find and those in
use share no HW-threads. -/
theorem reservations_agree
    (reachable : (fittingSystem getNumThrds step).Reachable task) :
    Agrees step task := by
  have invariant : (fittingSystem getNumThrds step).Invariant
      fun task => ∃ inUse, Sound step inUse task :=
    { initial := by
        intro task start
        rw [show task = Task.start step from start]
        exact ⟨∅, sound_start step⟩
      step := by
        rintro before after ⟨inUse, sound⟩ ⟨event, enabled, fits, rfl⟩
        cases event with
        | getReservation nMin nMax allocated => exact sound.reserve fits
        | childResRel node indices =>
          exact sound.releases enabled.1 fun index member => (enabled.2 index member).1 }
  obtain ⟨inUse, sound⟩ := invariant.reachable reachable
  exact sound.agrees

end Runs

/-! ## Two slots with one HW-thread -/

/-- Slots of one HW-thread each on one node. -/
def slotsOf (cpu : Nat → Nat) (small : ∀ index, cpu index < cpuMax) (np : Nat) : Step where
  np := np
  slots := fun index => ⟨0, {cpu index}⟩
  bits := by
    intro index cpu' member
    rw [Finset.mem_singleton.mp member]
    exact small index

/-- A step of two processes, each with a HW-thread of its own. -/
def plainStep : Step :=
  slotsOf (fun index => index % 2) (fun index => by
    have small := Nat.mod_lt index (show 2 > 0 by omega)
    simp only [cpuMax]
    omega) 2

/-- A step of two processes on one HW-thread. -/
def overbookedStep : Step := slotsOf (fun _ => 0) (fun _ => by decide) 2

/-- Nodes of two HW-threads. -/
def twoThrds (_node : Nat) : Nat := 2

theorem plain_fits : Fits twoThrds plainStep (.start plainStep) (.getReservation 2 2 true) := by
  intro _ _
  refine ⟨Nat.le_refl 2, ?_, ?_, .inl fun _ _ _ _ _ _ _ => rfl⟩
  · intro index _ cpu member
    have small := Nat.mod_lt index (show 2 > 0 by omega)
    rw [Finset.mem_singleton.mp member]
    exact small
  · show List.Pairwise (Apart plainStep) [0, 1]
    refine pairwise_pair.mpr ?_
    unfold Apart
    decide

theorem reservations_agree_plain : Agrees plainStep
    (perform twoThrds plainStep (.start plainStep) (.getReservation 2 2 true)) :=
  reservations_agree (.step (.initial rfl) ⟨.getReservation 2 2 true, trivial, plain_fits, rfl⟩)

/-- Both slots are handed out and released. -/
def overbooked : Task :=
  perform twoThrds overbookedStep
    (perform twoThrds overbookedStep (.start overbookedStep)
      (.getReservation 2 2 true)) (.childResRel 0 [0, 1])

/-- The HW-thread counts once for the reservation and twice for the release. -/
theorem not_reservations_agree :
    ¬∀ task, (taskSystem twoThrds overbookedStep).Reachable task → Agrees overbookedStep task := by
  intro all
  have held : (perform twoThrds overbookedStep (.start overbookedStep)
      (.getReservation 2 2 true)).held = [0, 1] := rfl
  have reachable : (taskSystem twoThrds overbookedStep).Reachable overbooked := by
    refine .step (.step (.initial rfl) ⟨.getReservation 2 2 true, trivial, rfl⟩)
        ⟨.childResRel 0 [0, 1], ⟨by decide, fun index member => ⟨?_, rfl⟩⟩, rfl⟩
    rw [held]
    exact member
  have below : overbooked.pool.usedThreads = -1 := by decide +kernel
  have low := (all _ reachable).usedLow
  rw [below] at low
  exact absurd low (by decide)

end Psmgmt.Slurm.StepReservation
