import Psmgmt.Library.FirstFit
import Psmgmt.Partition.CpuWords
import Psmgmt.Partition.Reserve

/-!
# Giving back spawn slots

`PSIDpart_cleanupSlots()` packs the spawn slots a task did not use into
`PSP_DD_CHILDRESREL` messages.
-/

namespace Psmgmt.Partition

open FirstFit Option
open List hiding count count_replicate

/-- `NUM_CPUSETS`. -/
def numCpuSets : Nat := 8

/-- What `PSCPU_extract()` takes out of a set and `PSCPU_inject()` puts back. -/
def packed (nBytes : Nat) (set_ : CPUSet) : CPUSet := inject ∅ (extract set_ nBytes) nBytes

/-- Find a set without overlap and add the CPUs to it. -/
def fit (bits : Nat) : List CPUSet → CPUSet → Option (List CPUSet)
  | [], _ => none
  | set_ :: rest, new =>
    if overlapCpu new set_ bits then (fit bits rest new).map (set_ :: ·)
    else some ((set_ ∪ new) :: rest)

/-- The sets added to a message: the first one, and others up to an empty
one. -/
def sentSets (nBytes : Nat) : List CPUSet → List CPUSet
  | [] => []
  | first :: rest =>
    packed nBytes first :: (rest.takeWhile (anyCpu · (nBytes * 8))).map (packed nBytes)

structure Collection where
  numSlots : Nat
  rankSets : List CPUSet

/-- The inner loop of `PSIDpart_cleanupSlots()` and the slots it leaves. -/
def mergeLoop (node bits : Nat) : List Slot → Collection → Collection × List Slot
  | [], got => (got, [])
  | slot :: rest, got =>
    if slot.node ≠ node then (got, slot :: rest)
    else if ¬anyCpu slot.cpuSet bits then mergeLoop node bits rest got
    else
      let got := { got with numSlots := (got.numSlots + 1) % 2 ^ 16 }
      match fit bits got.rankSets slot.cpuSet with
      -- the slot is visited again by the outer loop
      | none => (got, slot :: rest)
      | some rankSets => mergeLoop node bits rest { got with rankSets := rankSets }

/-- The outer loop of `PSIDpart_cleanupSlots()`, with the rounds left. -/
def cleanupLoop (numThrds : Nat → Nat) : (left : Nat) → List Slot → List ChildResRel
  | 0, _ => []
  | _ + 1, [] => []
  | left + 1, slot :: rest =>
    let rankNode := slot.node
    let nBytes := bytesForCPUs (numThrds rankNode)
    let rankSet := packed nBytes slot.cpuSet
    if ¬anyCpu rankSet (nBytes * 8) then cleanupLoop numThrds left rest
    else
      let (got, rest) := mergeLoop rankNode (8 * nBytes) rest
        ⟨1, rankSet :: List.replicate (numCpuSets - 1) ∅⟩
      ⟨rankNode, sentSets nBytes got.rankSets, got.numSlots, 0⟩ :: cleanupLoop numThrds left rest

def cleanupSlots (numThrds : Nat → Nat) (spawnSlots : List Slot) : List ChildResRel :=
  cleanupLoop numThrds spawnSlots.length spawnSlots

/-! ## What is to be given back -/

def sentFor (node cpu : Nat) (msgs : List ChildResRel) : Nat :=
  (msgs.map (fun msg => if msg.node = node then count cpu msg.cpuSets else 0)).sum

/-- How many slots of a node contain a CPU. -/
def heldOn (node cpu : Nat) (slots : List Slot) : Nat :=
  slots.countP (fun slot => slot.node = node ∧ cpu ∈ slot.cpuSet)

def filled (slots : List Slot) : Nat := slots.countP (·.cpuSet ≠ ∅)

structure GivenBack (slots : List Slot) (msgs : List ChildResRel) : Prop where
  numSlots : (msgs.map (·.numSlots)).sum = filled slots
  cpus : ∀ node cpu, sentFor node cpu msgs = heldOn node cpu slots

/-- The slots go into eight sets without overlap, first-fit and afresh whenever
the node changes. -/
def Fits : (current : Option (Nat × List CPUSet)) → List Slot → Prop
  | _, [] => True
  | current, slot :: rest =>
    let sets :=
      match current with
      | none => List.replicate numCpuSets ∅
      | some (node, sets) => if node = slot.node then sets else List.replicate numCpuSets ∅
    match place sets slot.cpuSet with
    | none => False
    | some sets => Fits (some (slot.node, sets)) rest

def packedBits (numThrds : Nat → Nat) (node : Nat) : Nat := 8 * bytesForCPUs (numThrds node)

structure Packable (numThrds : Nat → Nat) (slots : List Slot) : Prop where
  within : ∀ slot ∈ slots, ∀ cpu ∈ slot.cpuSet, cpu < packedBits numThrds slot.node
  fits : Fits none slots

/-! ## Packing sets -/

def low (bits : Nat) (set_ : CPUSet) : CPUSet := set_.filter (· < bits)

variable {bits cpu node : Nat} {set_ : CPUSet} {sets : List CPUSet}

theorem mem_low : cpu ∈ low bits set_ ↔ cpu ∈ set_ ∧ cpu < bits := by
  rw [low, Finset.mem_filter]

theorem low_union (bits : Nat) (first second : CPUSet) :
    low bits (first ∪ second) = low bits first ∪ low bits second :=
  Finset.filter_union _ _ _

theorem low_eq_self (within : ∀ cpu ∈ set_, cpu < bits) : low bits set_ = set_ :=
  Finset.filter_true_of_mem within

theorem bytesForCPUs_le (num : Nat) : bytesForCPUs num ≤ cpuMax / 8 := by
  rw [bytesForCPUs, cpuMax]
  split
  · omega
  · split <;> omega

theorem packed_eq {nBytes : Nat} (most : nBytes ≤ cpuMax / 8) (set_ : CPUSet) :
    packed nBytes set_ = low (8 * nBytes) set_ := by
  have same : extract set_ nBytes = extract (low (8 * nBytes) set_) nBytes := by
    rw [extract, extract]
    apply map_congr_left
    intro index member
    rw [mem_range] at member
    rw [cpuByte, cpuByte]
    congr 2
    funext bit
    have below : 8 * index + bit < 8 * nBytes := by omega
    simp [mem_low, below]
  rw [packed, same]
  apply inject_extract most
  intro cpu member
  exact (mem_low.mp member).2

theorem low_empty (bits : Nat) : low bits ∅ = ∅ := Finset.filter_empty _

/-- A set that is not looked at has nothing to be packed. -/
theorem low_of_anyCpu (without : anyCpu set_ bits = false) : low bits set_ = ∅ := by
  rw [anyCpu, decide_eq_false_iff_not] at without
  rw [Finset.eq_empty_iff_forall_notMem]
  intro cpu member
  obtain ⟨inside, below⟩ := mem_low.mp member
  exact without ⟨cpu, inside, SetWords.below_word below⟩

/-- Among the CPUs that are packed the test is exact. -/
theorem anyCpu_iff {bits : Nat} {set_ : CPUSet}
    (within : ∀ cpu ∈ set_, cpu < bits) :
    anyCpu set_ bits = true ↔ set_ ≠ ∅ := by
  rw [anyCpu, decide_eq_true_eq, ← Finset.nonempty_iff_ne_empty]
  constructor
  · rintro ⟨cpu, member, -⟩
    exact ⟨cpu, member⟩
  · rintro ⟨cpu, member⟩
    exact ⟨cpu, member, SetWords.below_word (within cpu member)⟩

theorem overlapCpu_iff (bits : Nat) (set_ new : CPUSet) :
    overlapCpu new set_ bits = true ↔ ¬Disjoint (low bits set_) (low bits new) := by
  rw [overlapCpu, decide_eq_true_eq, Finset.not_disjoint_iff]
  constructor
  · rintro ⟨cpu, inNew, inSet, below⟩
    exact ⟨cpu, mem_low.mpr ⟨inSet, below⟩, mem_low.mpr ⟨inNew, below⟩⟩
  · rintro ⟨cpu, inSet, inNew⟩
    exact ⟨cpu, (mem_low.mp inNew).1, (mem_low.mp inSet).1, (mem_low.mp inSet).2⟩

theorem fit_low (bits : Nat) (sets : List CPUSet) (new : CPUSet) :
    (fit bits sets new).map (·.map (low bits)) = place (sets.map (low bits)) (low bits new) := by
  induction sets with
  | nil => rfl
  | cons set_ rest next =>
    rw [fit, List.map_cons, place, ← next]
    by_cases overlap : overlapCpu new set_ bits = true
    · rw [if_pos overlap, if_neg ((overlapCpu_iff bits set_ new).mp overlap),
        Option.map_map, Option.map_map]
      rfl
    · have apart := (overlapCpu_iff bits set_ new).not.mp overlap
      rw [if_neg overlap, if_pos (not_not.mp apart), map_some, List.map_cons, low_union]

/-- Behind the first set, there is none with only CPUs that are not packed. -/
def Clean (bits : Nat) (sets : List CPUSet) : Prop :=
  ∀ set_ ∈ sets.tail, low bits set_ = ∅ → set_ = ∅

theorem mem_fit {after : List CPUSet} {new : CPUSet}
    (fitted : fit bits sets new = some after) (member : set_ ∈ after) :
    set_ ∈ sets ∨ ∃ old ∈ sets, set_ = old ∪ new := by
  induction sets generalizing after with
  | nil => exact nomatch fitted
  | cons first rest next =>
    rw [fit] at fitted
    split at fitted
    · rw [map_eq_some_iff] at fitted
      obtain ⟨tail, fitted, rfl⟩ := fitted
      rcases mem_cons.mp member with rfl | member
      · exact .inl mem_cons_self
      · rcases next fitted member with old | ⟨old, inside, same⟩
        · exact .inl (mem_cons_of_mem _ old)
        · exact .inr ⟨old, mem_cons_of_mem _ inside, same⟩
    · cases fitted
      rcases mem_cons.mp member with rfl | member
      · exact .inr ⟨first, mem_cons_self, rfl⟩
      · exact .inl (mem_cons_of_mem _ member)

theorem fit_clean {after : List CPUSet} {new : CPUSet} (clean : Clean bits sets)
    (fitted : fit bits sets new = some after) : Clean bits after := by
  cases sets with
  | nil => exact nomatch fitted
  | cons head rest =>
    rw [fit] at fitted
    split at fitted
    · rename_i overlap
      rw [map_eq_some_iff] at fitted
      obtain ⟨tail, fitted, rfl⟩ := fitted
      rw [overlapCpu_iff] at overlap
      have filled_ : low bits new ≠ ∅ := by
        intro empty
        rw [empty] at overlap
        exact overlap (Finset.disjoint_empty_right _)
      intro set_ member empty
      rcases mem_fit fitted member with old | ⟨old, -, rfl⟩
      · exact clean set_ old empty
      · rw [low_union, Finset.union_eq_empty] at empty
        exact absurd empty.2 filled_
    · cases fitted
      exact clean

theorem count_sentSets {nBytes : Nat} (most : nBytes ≤ cpuMax / 8) (clean : Clean (8 * nBytes) sets)
    (order : Packed (sets.map (low (8 * nBytes)))) (cpu : Nat) :
    count cpu (sentSets nBytes sets) = count cpu (sets.map (low (8 * nBytes))) := by
  cases sets with
  | nil => rfl
  | cons first rest =>
    have same : ((rest.takeWhile (anyCpu · (nBytes * 8))).map (packed nBytes)) =
        (rest.map (low (8 * nBytes))).takeWhile (· ≠ ∅) := by
      clear order
      induction rest with
      | nil => rfl
      | cons second rest next =>
        have clean_ : Clean (8 * nBytes) (first :: rest) := by
          intro set_ member
          exact clean set_ (mem_cons_of_mem _ member)
        rw [takeWhile_cons, List.map_cons, takeWhile_cons, ← next clean_, Nat.mul_comm nBytes 8]
        rcases test : anyCpu second (8 * nBytes) with _ | _
        · have empty := low_of_anyCpu test
          simp [empty]
        · have nonempty : low (8 * nBytes) second ≠ ∅ := by
            intro empty
            have none_ := clean second mem_cons_self empty
            rw [none_] at test
            exact absurd test (by simp [anyCpu])
          simp [nonempty, packed_eq most]
    rw [sentSets, same, packed_eq most, List.map_cons, count, count,
      List.countP_cons, List.countP_cons]
    have rest_ := order.2.count_takeWhile cpu
    rw [count, count] at rest_
    rw [rest_]

/-! ## Collecting slots -/

/-- The sets as they are packed. -/
def lows (bits : Nat) (slots : List Slot) : List CPUSet :=
  slots.map (fun slot => low bits slot.cpuSet)

def looked (bits : Nat) (slots : List Slot) : Nat :=
  slots.countP (fun slot => anyCpu slot.cpuSet bits)

/-- What the inner loop takes, and why it stops. -/
structure Merged (node bits : Nat) (start : Collection) (slots : List Slot)
    (got : Collection) (rest taken : List Slot) : Prop where
  parts : slots = taken ++ rest
  same : ∀ slot ∈ taken, slot.node = node
  placed : placeAll (start.rankSets.map (low bits)) (lows bits taken) =
    some (got.rankSets.map (low bits))
  clean : Clean bits got.rankSets
  stop : (got.numSlots = (start.numSlots + looked bits taken) % 2 ^ 16 ∧
      ∀ slot ∈ rest.head?, slot.node ≠ node) ∨
    (got.numSlots = (start.numSlots + looked bits taken + 1) % 2 ^ 16 ∧
      ∃ slot ∈ rest.head?, slot.node = node ∧
        place (got.rankSets.map (low bits)) (low bits slot.cpuSet) = none)

theorem place_low_empty (bits : Nat) (there : sets ≠ []) :
    place (sets.map (low bits)) ∅ = some (sets.map (low bits)) := by
  cases sets with
  | nil => exact absurd rfl there
  | cons set_ rest => exact place_empty

theorem mergeLoop_merged (node bits : Nat) (slots : List Slot)
    (start : Collection) (small : start.numSlots < 2 ^ 16)
    (there : start.rankSets ≠ []) (clean : Clean bits start.rankSets) :
    ∃ taken, Merged node bits start slots
      (mergeLoop node bits slots start).1 (mergeLoop node bits slots start).2
      taken := by
  induction slots generalizing start with
  | nil =>
    refine ⟨[], rfl, fun _ member => (nomatch member), rfl, clean, .inl ?_⟩
    exact ⟨(Nat.mod_eq_of_lt small).symm, fun _ member => nomatch member⟩
  | cons slot rest next =>
    rw [mergeLoop]
    by_cases here : slot.node = node
    · rw [if_neg (not_not.mpr here)]
      by_cases test : anyCpu slot.cpuSet bits = true
      · rw [if_neg (not_not.mpr test)]
        dsimp only
        have packing := fit_low bits start.rankSets slot.cpuSet
        rcases fitted : fit bits start.rankSets slot.cpuSet with _ | sets
        · rw [fitted] at packing
          refine ⟨[], rfl, fun _ member => (nomatch member), rfl, clean,
            .inr ⟨rfl, slot, rfl, here, packing.symm⟩⟩
        · rw [fitted] at packing
          have more : sets ≠ [] := by
            rintro rfl
            have same : ([] : List CPUSet).length = (start.rankSets.map (low bits)).length :=
              length_place packing.symm
            rw [length_map] at same
            exact there (length_eq_zero_iff.mp same.symm)
          obtain ⟨taken, merged⟩ := next ⟨(start.numSlots + 1) % 2 ^ 16, sets⟩
            (Nat.mod_lt _ (by decide)) more (fit_clean clean fitted)
          have count_ : looked bits (slot :: taken) = looked bits taken + 1 := by
            rw [looked, List.countP_cons, if_pos test, looked]
          refine ⟨slot :: taken, ?_, ?_, ?_, merged.clean, ?_⟩
          · rw [cons_append, ← merged.parts]
          · intro other member
            rcases mem_cons.mp member with rfl | member
            · exact here
            · exact merged.same other member
          · rw [lows, List.map_cons, placeAll_cons, ← packing]
            exact merged.placed
          · rw [count_]
            rcases merged.stop with ⟨number, stop⟩ | ⟨number, stop⟩
            · apply Or.inl
              refine ⟨number.trans ?_, stop⟩
              dsimp only
              omega
            · apply Or.inr
              refine ⟨number.trans ?_, stop⟩
              dsimp only
              omega
      · rw [if_pos test]
        obtain ⟨taken, merged⟩ := next start small there clean
        rw [Bool.not_eq_true] at test
        have count_ : looked bits (slot :: taken) = looked bits taken := by
          rw [looked, List.countP_cons, test, looked]
          rfl
        refine ⟨slot :: taken, ?_, ?_, ?_, merged.clean, ?_⟩
        · rw [cons_append, ← merged.parts]
        · intro other member
          rcases mem_cons.mp member with rfl | member
          · exact here
          · exact merged.same other member
        · rw [lows, List.map_cons, placeAll_cons, low_of_anyCpu test, place_low_empty bits there]
          exact merged.placed
        · rw [count_]
          exact merged.stop
    · rw [if_pos here]
      refine ⟨[], rfl, fun _ member => (nomatch member), rfl, clean, .inl ?_⟩
      refine ⟨(Nat.mod_eq_of_lt small).symm, ?_⟩
      intro other member
      cases member
      exact here

def startWith (bits : Nat) (slot : Slot) : Collection :=
  ⟨1, low bits slot.cpuSet :: List.replicate (numCpuSets - 1) ∅⟩

theorem low_low (bits : Nat) (set_ : CPUSet) : low bits (low bits set_) = low bits set_ :=
  low_eq_self (fun _ member => (mem_low.mp member).2)

theorem startWith_low (bits : Nat) (slot : Slot) :
    (startWith bits slot).rankSets.map (low bits) = (startWith bits slot).rankSets := by
  rw [startWith, List.map_cons, low_low, map_replicate, low_empty]

theorem startWith_clean (bits : Nat) (slot : Slot) : Clean bits (startWith bits slot).rankSets := by
  intro set_ member _
  exact eq_of_mem_replicate member

theorem startWith_small (bits : Nat) (slot : Slot) : (startWith bits slot).numSlots < 2 ^ 16 := by
  change 1 < 2 ^ 16
  decide

theorem place_fresh (set_ : CPUSet) : place (List.replicate numCpuSets ∅) set_ =
      some (set_ :: List.replicate (numCpuSets - 1) ∅) := by
  rw [numCpuSets, replicate_succ, place, if_pos (Finset.disjoint_empty_left _), Finset.empty_union]

inductive CleanupRound (numThrds : Nat → Nat) (left : Nat) (slot : Slot)
    (rest : List Slot) : List ChildResRel → Prop where
  | skipped (empty : low (packedBits numThrds slot.node) slot.cpuSet = ∅) :
      CleanupRound numThrds left slot rest (cleanupLoop numThrds left rest)
  | sent (filled : low (packedBits numThrds slot.node) slot.cpuSet ≠ ∅)
      (got : Collection) (after taken : List Slot)
      (merged : Merged slot.node (packedBits numThrds slot.node)
        (startWith (packedBits numThrds slot.node) slot) rest got after
        taken) :
      CleanupRound numThrds left slot rest
        (⟨slot.node, sentSets (bytesForCPUs (numThrds slot.node)) got.rankSets, got.numSlots, 0⟩ ::
          cleanupLoop numThrds left after)

variable (numThrds : Nat → Nat)

theorem cleanupLoop_round (left : Nat) (slot : Slot) (rest : List Slot) :
    CleanupRound numThrds left slot rest (cleanupLoop numThrds (left + 1) (slot :: rest)) := by
  have first := packed_eq (bytesForCPUs_le (numThrds slot.node)) slot.cpuSet
  have exact_ := @anyCpu_iff (packedBits numThrds slot.node)
    (low (packedBits numThrds slot.node) slot.cpuSet) (fun _ member => (mem_low.mp member).2)
  rw [cleanupLoop]
  dsimp only
  rw [first, Nat.mul_comm (bytesForCPUs (numThrds slot.node)) 8]
  change CleanupRound numThrds left slot rest
    (if ¬anyCpu (low (packedBits numThrds slot.node) slot.cpuSet)
        (packedBits numThrds slot.node) then _ else _)
  by_cases empty : low (packedBits numThrds slot.node) slot.cpuSet = ∅
  · rw [if_pos (fun test => exact_.mp test empty)]
    exact .skipped empty
  · rw [if_neg (not_not.mpr (exact_.mpr empty))]
    obtain ⟨taken, merged⟩ := mergeLoop_merged slot.node (packedBits numThrds slot.node) rest
      (startWith (packedBits numThrds slot.node) slot) (startWith_small _ slot) (cons_ne_nil _ _)
      (startWith_clean _ slot)
    exact .sent empty _ _ taken merged

/-! ## Every CPU is given back as often as it was held -/

theorem heldOn_cons (node cpu : Nat) (slot : Slot) (slots : List Slot) :
    heldOn node cpu (slot :: slots) = heldOn node cpu slots +
      if slot.node = node ∧ cpu ∈ slot.cpuSet then 1 else 0 := by
  rw [heldOn, heldOn, List.countP_cons]
  simp only [decide_eq_true_eq]

theorem heldOn_append (node cpu : Nat) (first second : List Slot) :
    heldOn node cpu (first ++ second) = heldOn node cpu first + heldOn node cpu second :=
  countP_append ..

theorem heldOn_same {slots : List Slot}
    (same : ∀ slot ∈ slots, slot.node = node) (below : cpu < bits) :
    heldOn node cpu slots = count cpu (lows bits slots) := by
  rw [heldOn, count, lows, List.countP_map]
  apply List.countP_congr
  intro slot member
  simp [same slot member, mem_low, below]

theorem heldOn_other {other : Nat} {slots : List Slot}
    (same : ∀ slot ∈ slots, slot.node = other) (apart : other ≠ node) :
    heldOn node cpu slots = 0 := by
  rw [heldOn, List.countP_eq_zero]
  intro slot member
  simp [same slot member, apart]

theorem sentFor_cons (node cpu : Nat) (msg : ChildResRel)
    (msgs : List ChildResRel) :
    sentFor node cpu (msg :: msgs) =
      (if msg.node = node then count cpu msg.cpuSets else 0) + sentFor node cpu msgs := by
  rw [sentFor, List.map_cons, sum_cons]
  rfl

/-- A message carries nothing that is not packed. -/
theorem count_beyond (sets : List CPUSet) (beyond : ¬cpu < bits) :
    count cpu (sets.map (low bits)) = 0 := by
  rw [count, List.countP_map, List.countP_eq_zero]
  intro set_ _
  simp [mem_low, beyond]

section Merging

variable {node bits : Nat} {slot : Slot} {rest after taken : List Slot}
  {got : Collection}

theorem Merged.order
    (merged : Merged node bits (startWith bits slot) rest got after taken) :
    Packed (got.rankSets.map (low bits)) := by
  apply placeAll_keeps _ _ merged.placed
  · intro sets after new _ placed packed_
    exact packed_.place placed
  · rw [startWith_low, startWith]
    exact (packed_replicate numCpuSets).place (place_fresh _)

theorem Merged.count_eq (merged : Merged node bits (startWith bits slot) rest got after taken)
    (cpu : Nat) :
    count cpu (got.rankSets.map (low bits)) =
      (if cpu ∈ low bits slot.cpuSet then 1 else 0) + count cpu (lows bits taken) := by
  rw [count_placeAll merged.placed, startWith_low, startWith]
  have fresh := count_place (place_fresh (low bits slot.cpuSet)) cpu
  rw [count_replicate, Nat.zero_add] at fresh
  rw [fresh]

end Merging

theorem cleanupLoop_sentFor (node cpu left : Nat) (slots : List Slot)
    (enough : slots.length ≤ left) :
    sentFor node cpu (cleanupLoop numThrds left slots) =
      if cpu < packedBits numThrds node then heldOn node cpu slots else 0 := by
  induction left generalizing slots with
  | zero =>
    rw [length_eq_zero_iff.mp (Nat.le_zero.mp enough)]
    split <;> rfl
  | succ left next =>
    cases slots with
    | nil =>
      rw [cleanupLoop]
      split <;> rfl
    | cons slot rest =>
      have shorter : rest.length ≤ left := Nat.le_of_succ_le_succ enough
      have round := cleanupLoop_round numThrds left slot rest
      generalize cleanupLoop numThrds (left + 1) (slot :: rest) = msgs
        at round
      cases round with
      | skipped empty =>
        rw [next rest shorter, heldOn_cons]
        split
        · rename_i below
          rw [if_neg, Nat.add_zero]
          rintro ⟨rfl, member⟩
          have lost := mem_low.mpr ⟨member, below⟩
          rw [empty] at lost
          exact Finset.notMem_empty cpu lost
        · rfl
      | sent filled got after taken merged =>
        have fewer : after.length ≤ left := by
          have length := congrArg List.length merged.parts
          rw [length_append] at length
          omega
        rw [sentFor_cons, next after fewer, heldOn_cons, merged.parts, heldOn_append]
        dsimp only
        rw [count_sentSets (bytesForCPUs_le _) merged.clean merged.order]
        by_cases here : slot.node = node
        · subst here
          rw [if_pos rfl]
          split
          · rename_i below
            have counted := merged.count_eq cpu
            rw [← heldOn_same merged.same below] at counted
            rw [packedBits] at counted
            rw [counted]
            have low_ : (cpu ∈ low (8 * bytesForCPUs (numThrds slot.node)) slot.cpuSet) =
                (slot.node = slot.node ∧ cpu ∈ slot.cpuSet) := by
              rw [mem_low, eq_self, true_and]
              exact propext (and_iff_left below)
            simp only [low_]
            omega
          · rename_i beyond
            have none_ := count_beyond got.rankSets beyond
            rw [packedBits] at none_
            rw [none_]
        · have without : ¬(slot.node = node ∧ cpu ∈ slot.cpuSet) :=
            fun both => here both.1
          rw [if_neg here, if_neg without,
            heldOn_other merged.same here, Nat.zero_add, Nat.zero_add,
            Nat.add_zero]

/-! ## Every slot is counted once, if the slots fit -/

theorem fits_cons_same {slot : Slot} {rest : List Slot}
    (same : slot.node = node) :
    Fits (some (node, sets)) (slot :: rest) ↔
      match place sets slot.cpuSet with
      | none => False
      | some sets => Fits (some (node, sets)) rest := by
  subst same
  rw [Fits, if_pos rfl]

theorem fits_none_cons (slot : Slot) (rest : List Slot) : Fits none (slot :: rest) ↔
      Fits (some (slot.node, slot.cpuSet :: List.replicate (numCpuSets - 1) ∅)) rest := by
  rw [Fits, place_fresh]

/-- A new node starts afresh. -/
theorem fits_switch {node : Nat} {sets : List CPUSet} {rest : List Slot}
    (other : ∀ slot ∈ rest.head?, slot.node ≠ node) :
    Fits (some (node, sets)) rest ↔ Fits none rest := by
  cases rest with
  | nil => exact Iff.rfl
  | cons slot rest =>
    have apart : node ≠ slot.node := (other slot rfl).symm
    rw [Fits, Fits, if_neg apart]

theorem fits_fresh (node : Nat) (rest : List Slot) :
    Fits (some (node, List.replicate numCpuSets ∅)) rest ↔ Fits none rest := by
  cases rest with
  | nil => exact Iff.rfl
  | cons slot rest => rw [Fits, Fits, ite_self]

theorem fits_taken {node : Nat} {sets after : List CPUSet}
    {taken rest : List Slot} (same : ∀ slot ∈ taken, slot.node = node)
    (placed : placeAll sets (taken.map (·.cpuSet)) = some after) :
    Fits (some (node, sets)) (taken ++ rest) ↔ Fits (some (node, after)) rest := by
  induction taken generalizing sets with
  | nil =>
    cases placed
    exact Iff.rfl
  | cons slot taken next =>
    rw [List.map_cons, placeAll_cons] at placed
    rw [cons_append, fits_cons_same (same slot mem_cons_self)]
    rcases first : place sets slot.cpuSet with _ | middle
    · rw [first] at placed
      exact nomatch placed
    · rw [first] at placed
      apply next _ placed
      intro other member
      exact same other (mem_cons_of_mem _ member)

theorem filled_cons (slot : Slot) (slots : List Slot) :
    filled (slot :: slots) = filled slots + if slot.cpuSet ≠ ∅ then 1 else 0 := by
  rw [filled, filled, List.countP_cons]
  simp only [decide_eq_true_eq]

section Counting

variable {node bits : Nat} {slots : List Slot}

theorem lows_eq (within : ∀ slot ∈ slots, ∀ cpu ∈ slot.cpuSet, cpu < bits) :
    lows bits slots = slots.map (·.cpuSet) := by
  apply map_congr_left
  intro slot member
  exact low_eq_self (within slot member)

theorem looked_eq (within : ∀ slot ∈ slots, ∀ cpu ∈ slot.cpuSet, cpu < bits) :
    looked bits slots = filled slots := by
  apply List.countP_congr
  intro slot member
  rw [anyCpu_iff (within slot member), decide_eq_true_eq]

theorem filled_le_card (slots : List Slot) :
    filled slots ≤ ((slots.map (·.cpuSet)).map Finset.card).sum := by
  induction slots with
  | nil => exact Nat.le_refl 0
  | cons slot slots next =>
    rw [filled_cons, List.map_cons, List.map_cons, sum_cons]
    split
    · rename_i some_
      have positive := Finset.card_pos.mpr (Finset.nonempty_iff_ne_empty.mpr some_)
      omega
    · omega

variable {slot : Slot} {rest after taken : List Slot} {got : Collection}

/-- A message does not collect more slots than its sets have room for. -/
theorem Merged.few (merged : Merged node bits (startWith bits slot) rest got after taken)
    (most : bits ≤ cpuMax) (nonempty : slot.cpuSet ≠ ∅)
    (within : ∀ slot' ∈ slot :: taken, ∀ cpu ∈ slot'.cpuSet, cpu < bits) :
    1 + filled taken ≤ numCpuSets * cpuMax := by
  have here := low_eq_self (within slot mem_cons_self)
  have rest_ := lows_eq (fun other member => within other (mem_cons_of_mem _ member))
  have placed := merged.placed
  rw [startWith_low, startWith, here, rest_] at placed
  have total := sum_card_placeAll placed
  rw [List.map_cons, sum_cons, map_replicate, Finset.card_empty,
    sum_replicate_nat, Nat.mul_zero, Nat.add_zero] at total
  have length := length_placeAll placed
  rw [length_map, length_cons, length_replicate] at length
  have small : ∀ set_ ∈ got.rankSets.map (low bits), set_.card ≤ cpuMax := by
    intro set_ member
    obtain ⟨whole, -, same⟩ := mem_map.mp member
    have inside : set_ ⊆ Finset.range cpuMax := by
      intro cpu inLow
      rw [← same] at inLow
      exact Finset.mem_range.mpr (lt_of_lt_of_le (mem_low.mp inLow).2 most)
    have few := Finset.card_le_card inside
    rwa [Finset.card_range] at few
  have bound := sum_card_le small
  rw [length_map, length] at bound
  have positive := Finset.card_pos.mpr (Finset.nonempty_iff_ne_empty.mpr nonempty)
  have many := filled_le_card taken
  have sets : numCpuSets - 1 + 1 = numCpuSets := rfl
  rw [sets] at bound
  omega

end Counting

theorem packedBits_le (node : Nat) : packedBits numThrds node ≤ cpuMax := by
  have most := bytesForCPUs_le (numThrds node)
  rw [packedBits, cpuMax] at *
  omega

structure Counted (slots : List Slot) (msgs : List ChildResRel) : Prop where
  atLeast : filled slots ≤ (msgs.map (·.numSlots)).sum
  exact_ : (msgs.map (·.numSlots)).sum = filled slots ↔ Fits none slots

theorem cleanupLoop_counted (left : Nat) (slots : List Slot) (enough : slots.length ≤ left)
    (within : ∀ slot ∈ slots, ∀ cpu ∈ slot.cpuSet, cpu < packedBits numThrds slot.node) :
    Counted slots (cleanupLoop numThrds left slots) := by
  induction left generalizing slots with
  | zero =>
    rw [length_eq_zero_iff.mp (Nat.le_zero.mp enough)]
    exact ⟨Nat.le_refl 0, ⟨fun _ => trivial, fun _ => rfl⟩⟩
  | succ left next =>
    cases slots with
    | nil => exact ⟨Nat.le_refl 0, ⟨fun _ => trivial, fun _ => rfl⟩⟩
    | cons slot rest =>
      have shorter : rest.length ≤ left := Nat.le_of_succ_le_succ enough
      have withinRest := fun other member => within other (mem_cons_of_mem _ member)
      have round := cleanupLoop_round numThrds left slot rest
      generalize cleanupLoop numThrds (left + 1) (slot :: rest) = msgs
        at round
      have here := low_eq_self (within slot mem_cons_self)
      cases round with
      | skipped empty =>
        rw [here] at empty
        obtain ⟨atLeast, exact_⟩ := next rest shorter withinRest
        have sets : slot.cpuSet ::
            List.replicate (numCpuSets - 1) ∅ =
            List.replicate numCpuSets ∅ := by
          rw [empty]
          rfl
        have same : filled (slot :: rest) = filled rest := by
          rw [filled_cons, if_neg (not_not.mpr empty), Nat.add_zero]
        constructor
        · rw [same]
          exact atLeast
        · rw [same, fits_none_cons, sets, fits_fresh]
          exact exact_
      | sent nonempty got after taken merged =>
        rw [here] at nonempty
        have parts := merged.parts
        have fewer : after.length ≤ left := by
          have length := congrArg List.length parts
          rw [length_append] at length
          omega
        obtain ⟨atLeast, exact_⟩ := next after fewer (by
          intro other member
          apply withinRest other
          rw [parts]
          exact mem_append_right _ member)
        have withinTaken : ∀ other ∈ taken, ∀ cpu ∈ other.cpuSet,
            cpu < packedBits numThrds slot.node := by
          intro other member
          rw [← merged.same other member]
          apply withinRest other
          rw [parts]
          exact mem_append_left _ member
        have few := merged.few (packedBits_le numThrds slot.node)
          nonempty (forall_mem_cons.mpr ⟨within slot mem_cons_self, withinTaken⟩)
        have total : filled (slot :: rest) = 1 + filled taken + filled after := by
          rw [filled_cons, if_pos nonempty, parts]
          have split_ : filled (taken ++ after) = filled taken + filled after := countP_append ..
          omega
        have placed := merged.placed
        rw [startWith_low, startWith, here, lows_eq withinTaken]
          at placed
        have fits := @fits_taken slot.node _ _ taken after merged.same placed
        rw [numCpuSets, cpuMax] at few
        have one : (startWith (packedBits numThrds slot.node) slot).numSlots = 1 := rfl
        have sum (msg : ChildResRel) (msgs : List ChildResRel) :
            ((msg :: msgs).map (·.numSlots)).sum = msg.numSlots + (msgs.map (·.numSlots)).sum :=
          sum_cons
        rcases merged.stop with ⟨number, other⟩ | ⟨number, more⟩
        · rw [looked_eq withinTaken, one, Nat.mod_eq_of_lt (by omega)] at number
          have switch := @fits_switch slot.node
            (got.rankSets.map (low (packedBits numThrds slot.node))) after other
          constructor
          · rw [sum]
            dsimp only
            omega
          · rw [sum, fits_none_cons, parts, fits, switch, ← exact_, ← parts, total]
            dsimp only
            omega
        · rw [looked_eq withinTaken, one, Nat.mod_eq_of_lt (by omega)] at number
          obtain ⟨stuck, first, stays, full⟩ := more
          constructor
          · rw [sum]
            dsimp only
            omega
          · rw [sum, total]
            dsimp only
            constructor
            · intro equal
              omega
            · intro fitting
              exfalso
              rw [fits_none_cons, parts, fits] at fitting
              cases after with
              | nil => cases first
              | cons head tail =>
                cases first
                rw [low_eq_self (stays ▸ withinRest stuck (by
                  rw [parts]
                  exact mem_append_right _ mem_cons_self))] at full
                rw [fits_cons_same stays, full] at fitting
                exact fitting

/-- What is given back is what was held, exactly if the slots can be packed. -/
theorem cleanupSlots_givenBack_iff (spawnSlots : List Slot) :
    GivenBack spawnSlots (cleanupSlots numThrds spawnSlots) ↔ Packable numThrds spawnSlots := by
  rw [cleanupSlots]
  have sent := fun node cpu => cleanupLoop_sentFor numThrds node cpu
    spawnSlots.length spawnSlots (Nat.le_refl _)
  constructor
  · intro back
    have within : ∀ slot ∈ spawnSlots, ∀ cpu ∈ slot.cpuSet,
        cpu < packedBits numThrds slot.node := by
      intro slot member cpu inside
      by_contra beyond
      have none_ := sent slot.node cpu
      rw [back.cpus, if_neg beyond, heldOn, List.countP_eq_zero] at none_
      exact none_ slot member (decide_eq_true ⟨rfl, inside⟩)
    have counted := cleanupLoop_counted numThrds spawnSlots.length spawnSlots (Nat.le_refl _) within
    exact ⟨within, counted.exact_.mp back.numSlots⟩
  · intro packable
    have counted := cleanupLoop_counted numThrds spawnSlots.length spawnSlots
      (Nat.le_refl _) packable.within
    constructor
    · exact counted.exact_.mpr packable.fits
    · intro node cpu
      rw [sent]
      split
      · rfl
      · rename_i beyond
        symm
        rw [heldOn, List.countP_eq_zero]
        intro slot member both
        obtain ⟨rfl, inside⟩ := of_decide_eq_true both
        exact beyond (packable.within slot member cpu inside)

/-- Each CPU is given back as often as it is held, however the slots are packed,
and no fewer slots are counted than there are. -/
theorem cleanupSlots_sentFor (spawnSlots : List Slot) :
    (∀ node cpu, sentFor node cpu (cleanupSlots numThrds spawnSlots) =
      if cpu < packedBits numThrds node then heldOn node cpu spawnSlots else 0) ∧
    ((∀ slot ∈ spawnSlots, ∀ cpu ∈ slot.cpuSet, cpu < packedBits numThrds slot.node) →
      filled spawnSlots ≤ ((cleanupSlots numThrds spawnSlots).map (·.numSlots)).sum) :=
  ⟨fun node cpu => cleanupLoop_sentFor numThrds node cpu _ spawnSlots (Nat.le_refl _),
    fun within => (cleanupLoop_counted numThrds _ spawnSlots (Nat.le_refl _) within).atLeast⟩

/-- Nine slots on the one CPU of a node. -/
theorem nine_not_givenBack : ¬∀ (numThrds : Nat → Nat) (spawnSlots : List Slot),
      GivenBack spawnSlots (cleanupSlots numThrds spawnSlots) := by
  intro back
  have number := (back (fun _ => 1) (List.replicate 9 ⟨0, {0}⟩)).numSlots
  exact absurd number (by decide +kernel)

end Psmgmt.Partition
