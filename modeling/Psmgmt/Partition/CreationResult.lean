import Psmgmt.Partition.Creation

/-!
# Partitions that were created

What a non-negative result of `createPartition()` stands for.
-/

namespace Psmgmt.Partition

open List

section Result

variable (nodes : Nodes) (nodeStat : Nat → CPUSet) (memory : Memory)
  (request : PartRequest) (candidates : SortList)

/-- Whether over-booking is required. -/
def overbooks : Bool :=
  if request.options.overbook ∧ candidates.freeHWTs / request.tpp ≥ request.size then false
  else request.options.overbook

/-- What the loop collects for a request defined by the user. -/
def filling : Filling :=
  userSlots nodes nodeStat request candidates.entry ⟨∅, 0, [], overbooks request candidates⟩

/-- A partition made of the slots of a request. -/
structure ValidSlots (slots : List Slot) (result : Int) : Prop where
  apart : (slots.map Slot.node).Nodup
  inOrder : (slots.map Slot.node).Sublist (candidates.entry.map SortEntry.id)
  free : ∀ slot ∈ slots, Disjoint slot.cpuSet (nodeStat slot.node)
  usable : ∀ slot ∈ slots, ∀ cpu ∈ slot.cpuSet, nodes.Usable slot.node cpu
  filled : ∀ slot ∈ slots, 0 < slot.cpuSet.card
  multiple : ∀ slot ∈ slots, request.tpp ∣ slot.cpuSet.card
  most : slots.length ≤ request.size
  whole : request.options.overbook = false → request.options.fullList = false →
      cpus slots = request.tpp * request.size ∧ (cpus slots : Int) = result * request.tpp

def ValidPartition (after : PartRequest) (result : Int) : Prop :=
  ∃ slots, after.slots = some slots ∧ after.size = slots.length ∧
    ValidSlots nodes nodeStat request candidates slots result

def offered : Nat := ((newNodes ∅ candidates.entry).map (offer nodes nodeStat request)).sum

/-- A partition is created in fewer slots than were allocated. -/
structure CutBack : Prop where
  allocated : memory.malloc = true
  small : request.size < 2 ^ 31
  user : request.options.fullList = false
  enough : overbooks request candidates = false →
    request.size ≤ offered nodes nodeStat request candidates
  pinned : overbooks request candidates = true → candidates.allPin = true ∧ candidates.entry ≠ []
  shared : ¬ Single nodes nodeStat request request.size (newNodes ∅ candidates.entry)

variable {nodes : Nodes} {nodeStat : Nat → CPUSet} {memory : Memory}
  {request : PartRequest} {candidates : SortList}

theorem filling_filled (tpp : 1 ≤ request.tpp) :
    Filled nodes nodeStat request candidates.entry ⟨∅, 0, [], overbooks request candidates⟩
      (filling nodes nodeStat request candidates) :=
  userSlots_filled tpp candidates.entry _ (Nat.zero_le _)

theorem createPartition_eq (tpp : 1 ≤ request.tpp)
    (user : request.options.exact_ = false) :
    createPartition nodes nodeStat memory request candidates =
      if overbooks request candidates = true ∧ candidates.allPin = false then
        (-1, request)
      else if memory.malloc = false then (-1, request)
      else if (filling nodes nodeStat request candidates).numSlots < request.size ∧
          ((filling nodes nodeStat request candidates).overbook = false ∨
            (filling nodes nodeStat request candidates).slots.length = 0 ∨
            request.options.fullList = true) then
        (-1, request)
      else
        (int32 request.size,
          { request with
            slots :=
              if (filling nodes nodeStat request candidates).slots.length <
                  request.size ∧ memory.realloc = false then none
              else some (filling nodes nodeStat request candidates).slots
            size := (filling nodes nodeStat request candidates).slots.length }) := by
  have most := (@filling_filled nodes nodeStat request candidates tpp).most
  have collected : collectSlots nodes nodeStat memory request candidates.entry
      (overbooks request candidates) =
        ((filling nodes nodeStat request candidates).numSlots,
          (filling nodes nodeStat request candidates).slots,
          (filling nodes nodeStat request candidates).overbook) := by
    rw [collectSlots, user]
    rfl
  rw [overbooks] at collected ⊢
  rw [createPartition, collected]
  simp only [Bool.not_eq_true']
  have count : (if (filling nodes nodeStat request candidates).numSlots <
      request.size then request.size
      else (filling nodes nodeStat request candidates).numSlots) = request.size := by
    split <;> omega
  rw [count]

theorem overbooks_of_not (user : request.options.overbook = false) :
    overbooks request candidates = false := by
  rw [overbooks, user]
  split <;> rfl

theorem filling_valid (tpp : 1 ≤ request.tpp) {result : Int}
    (exact_ : 0 ≤ result → result = request.size) (success : 0 ≤ result)
    (enough : (filling nodes nodeStat request candidates).numSlots <
      request.size → (filling nodes nodeStat request candidates).overbook = true) :
    ValidSlots nodes nodeStat request candidates
      (filling nodes nodeStat request candidates).slots result := by
  have filled := @filling_filled nodes nodeStat request candidates tpp
  obtain ⟨added, same, sublist, formed, grows, sum⟩ := filled.added
  have most := filled.most
  have same : (filling nodes nodeStat request candidates).slots = added := same
  dsimp only at sublist grows sum
  rw [same]
  constructor
  · exact (newNodes_nodup _ _).sublist sublist
  · exact sublist.trans (newNodes_sublist _ _)
  · intro slot member
    exact (formed slot member).free.apart
  · intro slot member
    exact (formed slot member).free.usable
  · intro slot member
    exact (formed slot member).positive
  · intro slot member
    exact (formed slot member).multiple
  · omega
  · intro plain single
    have full : (filling nodes nodeStat request candidates).numSlots = request.size := by
      by_contra less
      have booked := filled.given (enough (by omega))
      have plain := @overbooks_of_not request candidates plain
      exact Bool.false_ne_true (plain.symm.trans booked)
    have sum := sum single
    rw [full, Nat.mul_zero, Nat.zero_add] at sum
    rw [← sum, exact_ success, Nat.mul_comm]
    exact ⟨rfl, by push_cast; rfl⟩

theorem int32_nonneg {value : Nat} (bound : value < 2 ^ 32)
    (success : 0 ≤ int32 value) : int32 value = value := by
  rw [int32] at success ⊢
  omega

theorem int32_small {value : Nat} (bound : value < 2 ^ 31) : int32 value = value := by
  rw [int32]
  omega

theorem overbook_of_enough
    (stays : ¬ ((filling nodes nodeStat request candidates).numSlots < request.size ∧
      ((filling nodes nodeStat request candidates).overbook = false ∨
        (filling nodes nodeStat request candidates).slots.length = 0 ∨
        request.options.fullList = true)))
    (short : (filling nodes nodeStat request candidates).numSlots < request.size) :
    (filling nodes nodeStat request candidates).overbook = true := by
  cases booked : (filling nodes nodeStat request candidates).overbook with
  | true => rfl
  | false => exact absurd ⟨short, .inl booked⟩ stays

theorem createPartition_valid (tpp : 1 ≤ request.tpp)
    (bound : request.size < 2 ^ 32) (user : request.options.exact_ = false)
    (kept : (filling nodes nodeStat request candidates).slots.length <
      request.size → memory.realloc = true)
    (success : 0 ≤ (createPartition nodes nodeStat memory request candidates).1) :
    ValidPartition nodes nodeStat request candidates
      (createPartition nodes nodeStat memory request candidates).2
      (createPartition nodes nodeStat memory request candidates).1 := by
  rw [createPartition_eq tpp user] at success ⊢
  split at success
  · exact absurd success (show ¬ (0 : Int) ≤ -1 by decide)
  split at success
  · exact absurd success (show ¬ (0 : Int) ≤ -1 by decide)
  split at success
  · exact absurd success (show ¬ (0 : Int) ≤ -1 by decide)
  rename_i pinned allocated stays
  rw [if_neg pinned, if_neg allocated, if_neg stays]
  refine ⟨(filling nodes nodeStat request candidates).slots, ?_, rfl, ?_⟩
  · apply if_neg
    rintro ⟨less, fails⟩
    exact Bool.false_ne_true (fails.symm.trans (kept less))
  · exact filling_valid tpp (int32_nonneg bound) success (overbook_of_enough stays)

section

variable (tpp : 1 ≤ request.tpp)
  (free : ∀ candidate ∈ candidates.entry, (getFreeCPUs nodes nodeStat
    candidate.id request.tpp).2 ≠ 0)

include tpp free

theorem filling_numSlots : (filling nodes nodeStat request candidates).numSlots =
        min request.size (offered nodes nodeStat request candidates) ∧
      (filling nodes nodeStat request candidates).overbook = overbooks request candidates := by
  obtain ⟨count, booked⟩ := userSlots_numSlots tpp candidates.entry free
    ⟨∅, 0, [], overbooks request candidates⟩ (Nat.zero_le _)
  dsimp only at count booked
  rw [Nat.zero_add] at count
  exact ⟨count, booked⟩

theorem filling_length : (filling nodes nodeStat request candidates).slots.length < request.size ↔
      ¬ Single nodes nodeStat request request.size (newNodes ∅ candidates.entry) := by
  have written := userSlots_length tpp candidates.entry free
    ⟨∅, 0, [], overbooks request candidates⟩ (Nat.zero_le _)
  have bound := (@filling_filled nodes nodeStat request candidates tpp).length_le
  dsimp only [length_nil] at written bound
  rw [Nat.zero_add, Nat.sub_zero] at written bound
  rw [← written]
  change _ ↔ ¬ (filling nodes nodeStat request candidates).slots.length = _
  omega

end

/-- A full list is never cut back: each node fills one slot. -/
theorem single_of_fullList (full : request.options.fullList = true)
    {missing : Nat} {places : List Nat} (enough : missing ≤ places.length) :
    Single nodes nodeStat request missing places :=
  ⟨enough, fun node _ => by rw [offer, full, if_pos rfl]⟩

theorem offered_of_fullList (full : request.options.fullList = true) :
    offered nodes nodeStat request candidates = (newNodes ∅ candidates.entry).length := by
  have ones : offer nodes nodeStat request = fun _ => 1 := by
    funext node
    rw [offer, full, if_pos rfl]
  rw [offered, ones, map_const', sum_replicate]
  exact Nat.mul_one _

/-- Where the array is cut back the partition depends on `realloc()`. -/
theorem cutBack_of_lost (tpp : 1 ≤ request.tpp)
    (bound : request.size < 2 ^ 32)
    (user : request.options.exact_ = false)
    (free : ∀ candidate ∈ candidates.entry,
      (getFreeCPUs nodes nodeStat candidate.id request.tpp).2 ≠ 0)
    (success : 0 ≤ (createPartition nodes nodeStat memory request candidates).1)
    (less : (filling nodes nodeStat request candidates).slots.length < request.size) :
    CutBack nodes nodeStat memory request candidates := by
  obtain ⟨count, booked⟩ := @filling_numSlots nodes nodeStat request candidates tpp free
  have shared := (filling_length tpp free).mp less
  rw [createPartition_eq tpp user] at success
  split at success
  · exact absurd success (show ¬ (0 : Int) ≤ -1 by decide)
  rename_i pinned
  split at success
  · exact absurd success (show ¬ (0 : Int) ≤ -1 by decide)
  rename_i allocated
  split at success
  · exact absurd success (show ¬ (0 : Int) ≤ -1 by decide)
  rename_i stays
  have small : request.size < 2 ^ 31 := by
    change 0 ≤ int32 request.size at success
    rw [int32] at success
    omega
  have reached : request.options.fullList = true →
      request.size ≤ offered nodes nodeStat request candidates := by
    intro full
    by_contra lack
    exact stays ⟨by omega, .inr (.inr full)⟩
  refine ⟨?_, small, ?_, ?_, ?_, shared⟩
  · exact (Bool.eq_false_or_eq_true memory.malloc).resolve_right allocated
  · cases full : request.options.fullList with
    | false => rfl
    | true =>
      have enough := reached full
      rw [offered_of_fullList full] at enough
      exact absurd (single_of_fullList full enough) shared
  · intro plain
    by_contra lack
    exact stays ⟨by omega, .inl (booked.trans plain)⟩
  · intro required
    constructor
    · cases pins : candidates.allPin with
      | true => rfl
      | false => exact absurd ⟨required, pins⟩ pinned
    · intro none_
      have empty : (filling nodes nodeStat request candidates).slots.length =
          0 := by
        rw [filling, none_]
        rfl
      have nothing : offered nodes nodeStat request candidates = 0 := by
        rw [offered, none_]
        rfl
      exact stays ⟨by omega, .inr (.inl empty)⟩

theorem filling_ne_nil (tpp : 1 ≤ request.tpp)
    (free : ∀ candidate ∈ candidates.entry,
      (getFreeCPUs nodes nodeStat candidate.id request.tpp).2 ≠ 0)
    (some_ : candidates.entry ≠ []) (size : 0 < request.size) :
    (filling nodes nodeStat request candidates).slots ≠ [] := by
  obtain ⟨first, rest, entry⟩ := exists_cons_of_ne_nil some_
  have slotFree := free first (entry ▸ mem_cons_self)
  have slot := nextSlot_added tpp size slotFree
  have filled := @userSlots_filled nodes nodeStat request tpp rest
    ⟨insert first.id ∅, (nextSlot nodes nodeStat request 0 first.id).2,
      [(nextSlot nodes nodeStat request 0 first.id).1],
      overbooks request candidates⟩ (by
        rw [slot.count]
        exact min_le_left _ _)
  obtain ⟨added, same, _⟩ := filled.added
  rw [filling, entry, userSlots, if_neg (not_not.mpr size),
    if_neg (Finset.notMem_empty first.id), if_neg slotFree]
  dsimp only
  rw [nil_append, same]
  exact cons_ne_nil _ _

theorem lost_of_cutBack (tpp : 1 ≤ request.tpp)
    (user : request.options.exact_ = false)
    (free : ∀ candidate ∈ candidates.entry,
      (getFreeCPUs nodes nodeStat candidate.id request.tpp).2 ≠ 0)
    (cut : CutBack nodes nodeStat memory request candidates)
    (fails : memory.realloc = false) :
    0 ≤ (createPartition nodes nodeStat memory request candidates).1 ∧
      (createPartition nodes nodeStat memory request candidates).2.slots =
        none := by
  obtain ⟨count, booked⟩ := @filling_numSlots nodes nodeStat request candidates tpp free
  have less := (@filling_length nodes nodeStat request candidates tpp free).mpr cut.shared
  have pinned : ¬ (overbooks request candidates = true ∧ candidates.allPin = false) := by
    rintro ⟨required, unpinned⟩
    have pins := (cut.pinned required).1
    exact Bool.false_ne_true (unpinned.symm.trans pins)
  have allocated : ¬ memory.malloc = false := by
    rw [cut.allocated]
    decide
  have stays : ¬ ((filling nodes nodeStat request candidates).numSlots < request.size ∧
      ((filling nodes nodeStat request candidates).overbook = false ∨
        (filling nodes nodeStat request candidates).slots.length = 0 ∨
        request.options.fullList = true)) := by
    rintro ⟨short, plain | empty | full⟩
    · have enough := cut.enough (booked.symm.trans plain)
      omega
    · cases required : overbooks request candidates with
      | false =>
        have enough := cut.enough required
        omega
      | true =>
        exact filling_ne_nil tpp free (cut.pinned required).2
          (Nat.zero_lt_of_lt less) (eq_nil_of_length_eq_zero empty)
    · exact Bool.false_ne_true (cut.user.symm.trans full)
  rw [createPartition_eq tpp user, if_neg pinned, if_neg allocated, if_neg stays]
  constructor
  · change 0 ≤ int32 request.size
    rw [int32_small cut.small]
    exact Int.natCast_nonneg _
  · exact if_pos ⟨less, fails⟩

/-- A non-negative result stands for a valid partition unless the array of slots
gets lost while it is cut back. -/
theorem createPartition_valid_iff (bound : request.size < 2 ^ 32)
    (tpp : 1 ≤ request.tpp)
    (user : request.options.exact_ = false)
    (free : ∀ candidate ∈ candidates.entry,
      (getFreeCPUs nodes nodeStat candidate.id request.tpp).2 ≠ 0) :
    (0 ≤ (createPartition nodes nodeStat memory request candidates).1 →
      ValidPartition nodes nodeStat request candidates
        (createPartition nodes nodeStat memory request candidates).2
        (createPartition nodes nodeStat memory request candidates).1) ↔
      (memory.realloc = true ∨ ¬ CutBack nodes nodeStat memory request candidates) := by
  constructor
  · intro valid
    by_contra neither
    obtain ⟨fails, cut⟩ := not_or.mp neither
    obtain ⟨success, none_⟩ := lost_of_cutBack tpp user free (not_not.mp cut)
      (Bool.eq_false_iff.mpr fails)
    obtain ⟨slots, stored, _⟩ := valid success
    exact nomatch none_.symm.trans stored
  · intro kept success
    apply createPartition_valid tpp bound user _ success
    intro less
    rcases kept with works | whole
    · exact works
    · exact absurd (cutBack_of_lost tpp bound user free success less) whole

end Result

/-! A node with four HW-threads provides three slots of one thread each, and
the array for three slots is cut back to a single one. -/

def fourThreads : Nodes where
  numThrds := fun _ => 4
  procs := fun _ => none

def threeProcs : PartRequest where
  tid := ⟨0, 100⟩
  size := 3
  options := ⟨false, false, false, false, false⟩
  num := 1
  tpp := 1
  nodes := some [0]
  slots := none
  deleted := false
  freed := false

def oneNode : SortList where
  freeHWTs := 4
  allPin := true
  entry := [⟨0, ∅⟩]

def unwilling : Memory where
  malloc := true
  realloc := false
  junk := ⟨0, ∅⟩

theorem oneNode_free : ∀ candidate ∈ oneNode.entry,
    (getFreeCPUs fourThreads (fun _ => ∅) candidate.id threeProcs.tpp).2 ≠
      0 := by
  decide +kernel

theorem threeProcs_valid_iff :
    (0 ≤ (createPartition fourThreads (fun _ => ∅) unwilling threeProcs oneNode).1 →
      ValidPartition fourThreads (fun _ => ∅) threeProcs oneNode
        (createPartition fourThreads (fun _ => ∅) unwilling threeProcs oneNode).2
        (createPartition fourThreads (fun _ => ∅) unwilling threeProcs oneNode).1) ↔
      (unwilling.realloc = true ∨
        ¬ CutBack fourThreads (fun _ => ∅) unwilling threeProcs oneNode) :=
  createPartition_valid_iff (by decide) (by decide) rfl oneNode_free

/-- The result is 3 while no slots are left. -/
theorem createPartition_loses_slots :
    ¬ (0 ≤ (createPartition fourThreads (fun _ => ∅) unwilling threeProcs oneNode).1 →
      ValidPartition fourThreads (fun _ => ∅) threeProcs oneNode
        (createPartition fourThreads (fun _ => ∅) unwilling threeProcs oneNode).2
        (createPartition fourThreads (fun _ => ∅) unwilling threeProcs oneNode).1) := by
  intro valid
  have success : (createPartition fourThreads (fun _ => ∅) unwilling threeProcs oneNode).1 = 3 := by
    decide +kernel
  have none_ : (createPartition fourThreads (fun _ => ∅) unwilling threeProcs
      oneNode).2.slots = none := by
    decide +kernel
  obtain ⟨slots, stored, _⟩ := valid (by
    rw [success]
    decide)
  exact nomatch none_.symm.trans stored

end Psmgmt.Partition
