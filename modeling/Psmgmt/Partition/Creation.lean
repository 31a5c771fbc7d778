import Psmgmt.Partition.FreeCpus
import Psmgmt.Partition.Reserve

/-!
# Creating a partition

`createPartition()` of the master daemon.
-/

namespace Psmgmt.Partition

open List

/-- The flags of `PSpart_option_t` used for partitions. -/
structure PartOptions where
  exact_ : Bool
  overbook : Bool
  fullList : Bool
  wait : Bool
  exclusive : Bool
  deriving DecidableEq, Repr

/-- `PSpart_request_t`. -/
structure PartRequest where
  tid : TaskId
  size : Nat
  options : PartOptions
  num : Nat
  tpp : Nat
  nodes : Option (List Nat)
  slots : Option (List Slot)
  deleted : Bool
  freed : Bool
  deriving DecidableEq

/-- `sortentry_t`. -/
structure SortEntry where
  id : Nat
  cpuSet : CPUSet
  deriving DecidableEq

/-- `sortlist_t`; its `size` is the number of entries. -/
structure SortList where
  freeHWTs : Nat
  allPin : Bool
  entry : List SortEntry
  deriving DecidableEq

/-- What the allocator answers, and what it finds in a new array's first slot. -/
structure Memory where
  malloc : Bool
  realloc : Bool
  junk : Slot

/-! ## Exact partitions -/

/-- The inner loop: HW-threads of `cid` are added until none is `missing`. -/
def gatherThreads (cid : Nat) :
    (missing : Nat) → List SortEntry → CPUSet → Nat × List SortEntry × CPUSet
  | 0, entries, cpuSet => (0, entries, cpuSet)
  | missing + 1, [], cpuSet => (missing + 1, [], cpuSet)
  | missing + 1, entry :: rest, cpuSet =>
    if cid = entry.id then
      gatherThreads cid missing rest (cpuSet ∪ entry.cpuSet)
    else (missing + 1, entry :: rest, cpuSet)

/-- Slots are collected as long as some are `missing`; the current one is in
front. -/
def exactSlots (tpp : Nat) : (missing : Nat) → List SortEntry → List Slot → Nat × List Slot
  | 0, _, slots => (0, slots)
  | missing + 1, [], slots => (missing + 1, slots)
  | missing + 1, entry :: rest, slots =>
    let (current, before) :=
      match slots with
      | [] => ((⟨entry.id, ∅⟩ : Slot), [])
      | slot :: before =>
        if slot.node = entry.id then (slot, before)
        else (⟨entry.id, ∅⟩, slot :: before)
    let (lacking, entries, cpuSet) := gatherThreads entry.id tpp (entry :: rest) current.cpuSet
    let slots := ⟨current.node, cpuSet⟩ :: before
    if 0 < lacking then (missing + 1, slots)
    else exactSlots tpp missing entries slots

/-! ## Partitions defined by the user -/

section Create

variable (nodes : Nodes) (nodeStat : Nat → CPUSet) (memory : Memory)

/-- The variables of the loop; `used` holds the nodes with a `tmpStat`. -/
structure Filling where
  used : Finset Nat
  numSlots : Nat
  slots : List Slot
  overbook : Bool

/-- The slot filled with the free CPUs of a node, and the slots counted then. -/
def nextSlot (request : PartRequest) (numSlots node : Nat) : Slot × Nat :=
  let free := getFreeCPUs nodes nodeStat node request.tpp
  let numSlots := numSlots +
    if request.options.fullList then 1 else free.2 / request.tpp
  if numSlots > request.size then
    let numThrds := free.2 - (numSlots - request.size) * request.tpp
    (⟨node, (getCPUs free.1 numThrds).1⟩, request.size)
  else (⟨node, free.1⟩, numSlots)

def userSlots (request : PartRequest) : List SortEntry → Filling → Filling
  | [], fill => fill
  | entry :: rest, fill =>
    if ¬ fill.numSlots < request.size then fill
    else if entry.id ∈ fill.used then userSlots request rest fill
    else if (getFreeCPUs nodes nodeStat entry.id request.tpp).2 = 0 then
      { fill with overbook := false }
    else
      let next := nextSlot nodes nodeStat request fill.numSlots entry.id
      userSlots request rest
        { fill with
          used := insert entry.id fill.used, numSlots := next.2
          slots := fill.slots ++ [next.1] }

/-- `curSlot`, `numSlots`, the slots and whether to over-book. -/
def collectSlots (request : PartRequest) (entry : List SortEntry)
    (overbook : Bool) : Nat × List Slot × Bool :=
  if request.options.exact_ then
    let (missing, slots) := exactSlots request.tpp request.size entry []
    (request.size - missing,
      if slots.isEmpty then [memory.junk] else slots.reverse, overbook)
  else
    let fill := userSlots nodes nodeStat request entry ⟨∅, 0, [], overbook⟩
    (fill.numSlots, fill.slots, fill.overbook)

def createPartition (request : PartRequest) (candidates : SortList) : Int × PartRequest :=
  let overbook := request.options.overbook
  let overbook :=
    if overbook ∧ candidates.freeHWTs / request.tpp ≥ request.size then false
    else overbook
  if overbook ∧ !candidates.allPin then (-1, request)
  else if !memory.malloc then (-1, request)
  else
    let (numSlots, slots, overbook) :=
      collectSlots nodes nodeStat memory request candidates.entry overbook
    if numSlots < request.size ∧ (!overbook ∨ slots.length = 0 ∨ request.options.fullList) then
      (-1, request)
    else
      let numSlots := if numSlots < request.size then request.size else numSlots
      let stored :=
        if slots.length < request.size ∧ !memory.realloc then none
        else some slots
      (int32 numSlots, { request with slots := stored, size := slots.length })

end Create

/-! ## What the loop collects -/

section Filled

variable (nodes : Nodes) (nodeStat : Nat → CPUSet) (request : PartRequest)

def offer (node : Nat) : Nat :=
  if request.options.fullList then 1
  else (getFreeCPUs nodes nodeStat node request.tpp).2 / request.tpp

/-- The nodes of the entries that are not in use yet, each of them once. -/
def newNodes (used : Finset Nat) : List SortEntry → List Nat
  | [] => []
  | entry :: rest =>
    if entry.id ∈ used then newNodes used rest
    else entry.id :: newNodes (insert entry.id used) rest

/-- A slot made of free CPUs, their number a multiple of the threads. -/
structure WellFormed (slot : Slot) : Prop where
  free : Free nodes nodeStat slot.node slot.cpuSet
  positive : 0 < slot.cpuSet.card
  multiple : request.tpp ∣ slot.cpuSet.card

def cpus (slots : List Slot) : Nat := (slots.map (fun slot => slot.cpuSet.card)).sum

/-- What running over some entries adds to the slots. -/
structure Filled (entry : List SortEntry) (before after : Filling) : Prop where
  added : ∃ added, after.slots = before.slots ++ added ∧
    (added.map Slot.node).Sublist (newNodes before.used entry) ∧
    (∀ slot ∈ added, WellFormed nodes nodeStat request slot) ∧
    before.numSlots + added.length ≤ after.numSlots ∧
    (request.options.fullList = false →
      request.tpp * after.numSlots = request.tpp * before.numSlots + cpus added)
  most : after.numSlots ≤ request.size
  given : after.overbook = true → before.overbook = true
  failed : after.overbook ≠ before.overbook → after.numSlots < request.size

variable {nodes : Nodes} {nodeStat : Nat → CPUSet} {request : PartRequest}

section

variable (entry : List SortEntry) (used : Finset Nat)

include entry used

theorem newNodes_fresh : ∀ node ∈ newNodes used entry, node ∉ used := by
  induction entry generalizing used with
  | nil =>
    intro node member
    exact absurd member not_mem_nil
  | cons first rest next =>
    intro node member
    rw [newNodes] at member
    split at member
    · exact next used node member
    · rename_i fresh
      rcases mem_cons.mp member with same | later
      · exact same ▸ fresh
      · have apart := next (insert first.id used) node later
        exact fun old => apart (Finset.mem_insert_of_mem old)

theorem newNodes_nodup : (newNodes used entry).Nodup := by
  induction entry generalizing used with
  | nil => exact nodup_nil
  | cons first rest next =>
    rw [newNodes]
    split
    · exact next used
    · apply nodup_cons.mpr
      constructor
      · intro member
        exact newNodes_fresh rest _ _ member (Finset.mem_insert_self _ _)
      · exact next _

theorem newNodes_sublist : (newNodes used entry).Sublist (entry.map SortEntry.id) := by
  induction entry generalizing used with
  | nil => exact List.Sublist.refl []
  | cons first rest next =>
    rw [newNodes, map_cons]
    split
    · exact (next used).cons first.id
    · exact (next _).cons_cons first.id

end

structure Added (nodes : Nodes) (nodeStat : Nat → CPUSet)
    (request : PartRequest) (numSlots node : Nat) (next : Slot × Nat) :
    Prop where
  place : next.1.node = node
  formed : WellFormed nodes nodeStat request next.1
  count : next.2 = min request.size (numSlots + offer nodes nodeStat request node)
  cpus : request.options.fullList = false →
    request.tpp * next.2 = request.tpp * numSlots + next.1.cpuSet.card

theorem offer_pos (tpp : 1 ≤ request.tpp) {node : Nat}
    (some_ : (getFreeCPUs nodes nodeStat node request.tpp).2 ≠ 0) :
    0 < offer nodes nodeStat request node := by
  rw [offer]
  split
  · exact Nat.one_pos
  · apply Nat.div_pos _ tpp
    exact Nat.le_of_dvd (Nat.pos_of_ne_zero some_)
      (@getFreeCPUs_card nodes nodeStat node request.tpp).2

theorem nextSlot_added (tpp : 1 ≤ request.tpp) {numSlots node : Nat}
    (less : numSlots < request.size) (some_ : (getFreeCPUs nodes nodeStat node request.tpp).2 ≠ 0) :
    Added nodes nodeStat request numSlots node (nextSlot nodes nodeStat request numSlots node) := by
  have free := @getFreeCPUs_free nodes nodeStat node request.tpp
  obtain ⟨card, slots, threads⟩ := @getFreeCPUs_card nodes nodeStat node request.tpp
  have offered := offer_pos tpp some_
  have offers : offer nodes nodeStat request node =
      if request.options.fullList then 1 else slots := by
    rw [offer, threads, Nat.mul_div_cancel_left _ tpp]
  have next : nextSlot nodes nodeStat request numSlots node =
      if numSlots + offer nodes nodeStat request node > request.size then
        (⟨node, (getCPUs (getFreeCPUs nodes nodeStat node request.tpp).1
          ((getFreeCPUs nodes nodeStat node request.tpp).2 -
            (numSlots + offer nodes nodeStat request node - request.size) *
              request.tpp)).1⟩, request.size)
      else (⟨node, (getFreeCPUs nodes nodeStat node request.tpp).1⟩,
        numSlots + offer nodes nodeStat request node) := rfl
  rw [next]
  split
  · -- only a node that offers more than one slot is cut back
    rename_i more
    have user : request.options.fullList = false := by
      cases full : request.options.fullList with
      | false => rfl
      | true =>
        rw [offers, full, if_pos rfl] at more
        omega
    rw [user] at offers
    have offers : offer nodes nodeStat request node = slots := offers
    have left : (getFreeCPUs nodes nodeStat node request.tpp).2 -
        (numSlots + offer nodes nodeStat request node - request.size) *
          request.tpp = request.tpp * (request.size - numSlots) := by
      rw [threads, offers, Nat.mul_comm _ request.tpp, ← Nat.mul_sub]
      congr 1
      omega
    have taken : (getCPUs (getFreeCPUs nodes nodeStat node request.tpp).1
        (request.tpp * (request.size - numSlots))).1.card =
          request.tpp * (request.size - numSlots) := by
      apply getCPUs_card free.bounded
      rw [card, threads]
      apply Nat.mul_le_mul_left
      omega
    have cut := @getCPUs_subset (getFreeCPUs nodes nodeStat node request.tpp).1
      (request.tpp * (request.size - numSlots))
    rw [left]
    generalize (getCPUs (getFreeCPUs nodes nodeStat node request.tpp).1
      (request.tpp * (request.size - numSlots))).1 = mine at taken cut ⊢
    refine ⟨rfl, ⟨free.subset cut, ?_, ?_⟩, ?_, ?_⟩
    · change 0 < Finset.card _
      rw [taken]
      exact Nat.mul_pos tpp (Nat.sub_pos_of_lt less)
    · change request.tpp ∣ Finset.card _
      rw [taken]
      exact Dvd.intro _ rfl
    · exact (min_eq_left (Nat.le_of_lt more)).symm
    · intro _
      change request.tpp * request.size = _ + Finset.card _
      rw [taken, ← Nat.mul_add, Nat.add_sub_cancel' (Nat.le_of_lt less)]
  · rename_i fits
    refine ⟨rfl, ⟨free, ?_, ?_⟩, ?_, ?_⟩
    · change 0 < Finset.card _
      rw [card]
      exact Nat.pos_of_ne_zero some_
    · change request.tpp ∣ Finset.card _
      rw [card]
      exact Dvd.intro slots threads.symm
    · exact (min_eq_right (Nat.le_of_not_lt fits)).symm
    · intro user
      rw [user] at offers
      have offers : offer nodes nodeStat request node = slots := offers
      change _ = _ + Finset.card _
      rw [card, threads, offers, Nat.mul_add]

theorem Filled.refl (entry : List SortEntry) {fill : Filling}
    (most : fill.numSlots ≤ request.size) :
    Filled nodes nodeStat request entry fill fill where
  added := ⟨[], (append_nil _).symm, nil_sublist _,
    fun _ member => (nomatch member), Nat.le_refl _, fun _ => rfl⟩
  most := most
  given := fun given => given
  failed := fun differs => absurd rfl differs

theorem userSlots_filled (tpp : 1 ≤ request.tpp) (entry : List SortEntry)
    (fill : Filling) (most : fill.numSlots ≤ request.size) :
    Filled nodes nodeStat request entry fill (userSlots nodes nodeStat request entry fill) := by
  induction entry generalizing fill with
  | nil => exact Filled.refl [] most
  | cons first rest next =>
    rw [userSlots]
    split
    · exact Filled.refl _ most
    rename_i less
    have less := not_not.mp less
    split
    · rename_i old
      have filled := next fill most
      refine ⟨?_, filled.most, filled.given, filled.failed⟩
      rw [newNodes, if_pos old]
      exact filled.added
    rename_i fresh
    split
    · -- a node without free CPUs lets the creation fail
      obtain ⟨added, same, sublist, formed, grows, sum⟩ :=
        (@Filled.refl nodes nodeStat request (first :: rest) fill most).added
      exact ⟨⟨added, same, sublist, formed, grows, sum⟩, most,
        fun given => (nomatch given), fun _ => less⟩
    rename_i some_
    dsimp only
    have slot := nextSlot_added tpp less some_
    have offered := offer_pos tpp some_
    have filled := next
      { fill with
        used := insert first.id fill.used
        numSlots := (nextSlot nodes nodeStat request fill.numSlots first.id).2
        slots := fill.slots ++ [(nextSlot nodes nodeStat request fill.numSlots first.id).1] } (by
        rw [slot.count]
        exact min_le_left _ _)
    obtain ⟨added, same, sublist, formed, grows, sum⟩ := filled.added
    refine ⟨⟨(nextSlot nodes nodeStat request fill.numSlots first.id).1 ::
      added, ?_, ?_, ?_, ?_, ?_⟩, filled.most, filled.given, filled.failed⟩
    · exact same.trans (append_assoc _ _ _)
    · rw [newNodes, if_neg fresh, map_cons, slot.place]
      exact sublist.cons_cons first.id
    · intro other member
      rcases mem_cons.mp member with here | later
      · exact here ▸ slot.formed
      · exact formed other later
    · rw [length_cons]
      have count := slot.count
      dsimp only at grows
      omega
    · intro user
      have sum := sum user
      have cpus := slot.cpus user
      dsimp only at sum
      rw [sum, cpus, Nat.add_assoc]
      rfl

/-! ## How many slots are written -/

/-- Each slot but the last one is filled by a node that offers just that. -/
def Single (nodes : Nodes) (nodeStat : Nat → CPUSet) (request : PartRequest)
    (missing : Nat) (places : List Nat) : Prop :=
  missing ≤ places.length ∧
    ∀ node ∈ places.take (missing - 1), offer nodes nodeStat request node = 1

/-- Whatever has a free slot is counted until enough slots are found. -/
theorem userSlots_numSlots (tpp : 1 ≤ request.tpp) (entry : List SortEntry)
    (free : ∀ candidate ∈ entry, (getFreeCPUs nodes nodeStat candidate.id request.tpp).2 ≠ 0)
    (fill : Filling) (most : fill.numSlots ≤ request.size) :
    (userSlots nodes nodeStat request entry fill).numSlots =
        min request.size (fill.numSlots +
          ((newNodes fill.used entry).map (offer nodes nodeStat request)).sum) ∧
      (userSlots nodes nodeStat request entry fill).overbook = fill.overbook := by
  induction entry generalizing fill with
  | nil => exact ⟨(min_eq_right most).symm, rfl⟩
  | cons first rest next =>
    have others : ∀ candidate ∈ rest, (getFreeCPUs nodes nodeStat candidate.id request.tpp).2 ≠ 0 :=
      fun candidate member => free candidate (mem_cons_of_mem _ member)
    rw [userSlots]
    split
    · rename_i enough
      constructor
      · omega
      · rfl
    rename_i less
    have less := not_not.mp less
    split
    · rename_i old
      rw [newNodes, if_pos old]
      exact next others fill most
    rename_i fresh
    have some_ := free first mem_cons_self
    have slot := nextSlot_added tpp less some_
    rw [if_neg some_]
    dsimp only
    obtain ⟨count, overbook⟩ := next others
      { fill with
        used := insert first.id fill.used
        numSlots := (nextSlot nodes nodeStat request fill.numSlots first.id).2
        slots := fill.slots ++ [(nextSlot nodes nodeStat request fill.numSlots first.id).1] } (by
        rw [slot.count]
        exact min_le_left _ _)
    refine ⟨count.trans ?_, overbook⟩
    rw [newNodes, if_neg fresh, map_cons, sum_cons]
    dsimp only
    rw [slot.count]
    omega

theorem single_zero (places : List Nat) : Single nodes nodeStat request 0 places :=
  ⟨Nat.zero_le _, fun _ member => nomatch member⟩

theorem single_one (place : Nat) (places : List Nat) :
    Single nodes nodeStat request 1 (place :: places) :=
  ⟨Nat.succ_le_succ (Nat.zero_le _), fun _ member => nomatch member⟩

theorem single_cons (missing place : Nat) (places : List Nat) :
    Single nodes nodeStat request (missing + 2) (place :: places) ↔
      offer nodes nodeStat request place = 1 ∧
        Single nodes nodeStat request (missing + 1) places := by
  constructor
  · intro single
    have bound := single.1
    rw [length_cons] at bound
    refine ⟨single.2 place mem_cons_self, ?_, ?_⟩
    · omega
    · intro node member
      exact single.2 node (mem_cons_of_mem _ member)
  · rintro ⟨one, bound, others⟩
    constructor
    · rw [length_cons]
      omega
    · intro node member
      rcases mem_cons.mp member with here | later
      · exact here ▸ one
      · exact others node later

theorem Filled.length_le {entry : List SortEntry} {before after : Filling}
    (filled : Filled nodes nodeStat request entry before after) :
    after.slots.length ≤ before.slots.length + (request.size - before.numSlots) := by
  obtain ⟨added, same, _, _, grows, _⟩ := filled.added
  have most := filled.most
  rw [same, length_append]
  omega

/-- As many slots are written as are asked for just if no node fills two. -/
theorem userSlots_length (tpp : 1 ≤ request.tpp) (entry : List SortEntry)
    (free : ∀ candidate ∈ entry, (getFreeCPUs nodes nodeStat candidate.id request.tpp).2 ≠ 0)
    (fill : Filling) (most : fill.numSlots ≤ request.size) :
    (userSlots nodes nodeStat request entry fill).slots.length =
        fill.slots.length + (request.size - fill.numSlots) ↔
      Single nodes nodeStat request (request.size - fill.numSlots) (newNodes fill.used entry) := by
  induction entry generalizing fill with
  | nil =>
    rw [userSlots, newNodes, Single, take_nil, length_nil]
    constructor
    · intro same
      exact ⟨by omega, fun _ member => nomatch member⟩
    · intro single
      have bound := single.1
      omega
  | cons first rest next =>
    have others : ∀ candidate ∈ rest, (getFreeCPUs nodes nodeStat candidate.id request.tpp).2 ≠ 0 :=
      fun candidate member => free candidate (mem_cons_of_mem _ member)
    rw [userSlots]
    split
    · rename_i enough
      have zero : request.size - fill.numSlots = 0 := by omega
      rw [zero]
      exact ⟨fun _ => ⟨Nat.zero_le _, fun _ member => nomatch member⟩,
        fun _ => rfl⟩
    rename_i less
    have less := not_not.mp less
    split
    · rename_i old
      rw [newNodes, if_pos old]
      exact next others fill most
    rename_i fresh
    have some_ := free first mem_cons_self
    have slot := nextSlot_added tpp less some_
    have offered := offer_pos tpp some_
    rw [if_neg some_]
    dsimp only
    generalize filledNext : ({ fill with
        used := insert first.id fill.used
        numSlots := (nextSlot nodes nodeStat request fill.numSlots first.id).2
        slots := fill.slots ++ [(nextSlot nodes nodeStat request fill.numSlots first.id).1] } :
        Filling) = grown
    have count : grown.numSlots = min request.size
        (fill.numSlots + offer nodes nodeStat request first.id) := by
      rw [← filledNext, ← slot.count]
    have length : grown.slots.length = fill.slots.length + 1 := by
      rw [← filledNext, length_append, length_singleton]
    have used : grown.used = insert first.id fill.used := by
      rw [← filledNext]
    have few : grown.numSlots ≤ request.size := by
      rw [count]
      exact min_le_left _ _
    have same := next others grown few
    have bound := (@userSlots_filled nodes nodeStat request tpp rest grown few).length_le
    rw [newNodes, if_neg fresh, ← used]
    generalize newNodes grown.used rest = places at same ⊢
    obtain ⟨missing, rest_⟩ : ∃ missing, request.size - fill.numSlots = missing + 1 :=
      ⟨request.size - fill.numSlots - 1, by omega⟩
    rw [rest_]
    cases missing with
    | zero =>
      have full : request.size - grown.numSlots = 0 := by omega
      rw [full] at same
      have written := same.mpr (single_zero places)
      rw [length] at written
      exact ⟨fun _ => single_one _ _, fun _ => written⟩
    | succ missing =>
      rw [single_cons]
      by_cases one : offer nodes nodeStat request first.id = 1
      · have left : request.size - grown.numSlots = missing + 1 := by
          omega
        rw [left, length] at same
        rw [← same]
        constructor
        · intro written
          exact ⟨one, by omega⟩
        · intro written
          have written := written.2
          omega
      · constructor
        · intro written
          omega
        · intro both
          exact absurd both.1 one

end Filled

end Psmgmt.Partition
