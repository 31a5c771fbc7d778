import Psmgmt.Partition.Distribution

/-!
# The layout of distributed reservations

Every node learns which node each rank of a reservation is on, and the CPU sets
of its own ranks.
-/

namespace Psmgmt.Partition

open Serial Function Option
open List hiding getElem?_eq_some_iff

/-! ## Blocks of ranks -/

def Covers (rank : Int) (block : Nat × Int × Int) : Bool :=
  decide (block.2.1 ≤ rank ∧ rank ≤ block.2.2)

/-- The node of a rank while a block started before index `i` is still open;
its slots are on the node of the next slot. -/
def nodeOf (firstRank : Nat) (rest : List Slot) (i : Nat) (rank : Int) : Option Nat :=
  if rank < firstRank + i then rest.head?.map Slot.node
  else rest[(rank - (firstRank + i : Nat)).toNat]?.map Slot.node

variable {firstRank node : Nat} {task : Holder} {res : Reservation}
  {slots : List Slot} {numThrds : Nat → Nat}

variable (rest : List Slot)

theorem filter_rankBlocks : ∀ (i : Nat) (firstrank : Int), firstrank ≤ firstRank + i → rest ≠ [] →
      ∀ rank : Int,
        (firstrank ≤ rank → rank < firstRank + i + rest.length →
          ∃ block node, (rankBlocks firstRank rest i firstrank).filter (Covers rank) = [block] ∧
            nodeOf firstRank rest i rank = some node ∧ block.1 = node) ∧
        (rank < firstrank ∨ firstRank + i + rest.length ≤ rank →
          (rankBlocks firstRank rest i firstrank).filter (Covers rank) = []) := by
  induction rest with
  | nil => exact fun _ _ _ nonempty => absurd rfl nonempty
  | cons slot rest induction =>
    intro i firstrank started _ rank
    unfold rankBlocks
    have length : ((slot :: rest).length : Int) = rest.length + 1 := by simp
    split
    next same =>
      obtain ⟨next, tail, rfl⟩ : ∃ next tail, rest = next :: tail := by
        cases rest with
        | nil => simp at same
        | cons next tail => exact ⟨next, tail, rfl⟩
      have onNode : next.node = slot.node := by simpa using same
      obtain ⟨inside, outside⟩ := induction (i + 1) firstrank (by omega) (by simp) rank
      constructor
      · intro low high
        obtain ⟨block, node, filtered, named, blockNode⟩ := inside low (by push_cast at *; omega)
        refine ⟨block, node, filtered, ?_, blockNode⟩
        rw [← named]
        unfold nodeOf
        by_cases before : rank < firstRank + i
        · rw [if_pos before, if_pos (by push_cast; omega)]
          simp [onNode]
        · by_cases here : rank = firstRank + i
          · rw [if_neg before, if_pos (by push_cast; omega), here]
            simp [onNode]
          · rw [if_neg before, if_neg (by push_cast; omega)]
            have index : (rank - (firstRank + i : Nat)).toNat =
                (rank - (firstRank + (i + 1) : Nat)).toNat + 1 := by
              push_cast
              omega
            rw [index, getElem?_cons_succ]
      · intro out
        refine outside ?_
        clear inside outside
        push_cast at *
        omega
    next last =>
      cases rest with
      | nil =>
        simp only [rankBlocks]
        constructor
        · intro low high
          simp only [length_singleton] at high
          refine ⟨(slot.node, firstrank, (firstRank + i : Int)), slot.node, ?_, ?_, rfl⟩
          · have covered : Covers rank (slot.node, firstrank, (firstRank + i : Int)) = true :=
              decide_eq_true ⟨low, by push_cast at high ⊢; omega⟩
            rw [filter_cons_of_pos covered, filter_nil]
          · unfold nodeOf
            by_cases before : rank < firstRank + i
            · rw [if_pos before]
              rfl
            · have here : rank = firstRank + i := by
                push_cast at high
                omega
              rw [if_neg before, here]
              simp
        · intro out
          simp only [length_singleton] at out
          have uncovered : ¬Covers rank (slot.node, firstrank, (firstRank + i : Int)) = true := by
            intro covered
            have bounds : firstrank ≤ rank ∧ rank ≤ firstRank + i := of_decide_eq_true covered
            omega
          rw [filter_cons_of_neg uncovered, filter_nil]
      | cons next tail =>
        obtain ⟨inside, outside⟩ := induction (i + 1)
          ((firstRank + i : Int) + 1) (by push_cast; omega) (by simp) rank
        by_cases current : firstrank ≤ rank ∧ rank ≤ firstRank + i
        · have covered : Covers rank (slot.node, firstrank, (firstRank + i : Int)) = true :=
            decide_eq_true current
          have later := outside (.inl (by omega))
          constructor
          · intro low high
            refine ⟨(slot.node, firstrank, (firstRank + i : Int)), slot.node, ?_, ?_, rfl⟩
            · rw [filter_cons_of_pos covered, later]
            · unfold nodeOf
              by_cases before : rank < firstRank + i
              · rw [if_pos before]
                rfl
              · have here : rank = firstRank + i := by omega
                rw [if_neg before, here]
                simp
          · intro out
            omega
        · have uncovered : ¬Covers rank (slot.node, firstrank, (firstRank + i : Int)) = true :=
            fun covered => current (of_decide_eq_true covered)
          rw [filter_cons_of_neg uncovered]
          constructor
          · intro low high
            obtain ⟨block, node, filtered, named, blockNode⟩ :=
              inside (by omega) (by push_cast at *; omega)
            refine ⟨block, node, filtered, ?_, blockNode⟩
            rw [← named]
            unfold nodeOf
            rw [if_neg (by omega), if_neg (by push_cast; omega)]
            have index : (rank - (firstRank + i : Nat)).toNat =
                (rank - (firstRank + (i + 1) : Nat)).toNat + 1 := by
              push_cast
              omega
            rw [index, getElem?_cons_succ]
          · intro out
            refine outside ?_
            clear inside outside
            push_cast at *
            omega

structure BlockWithin (firstRank : Nat) (rest : List Slot) (i : Nat)
    (firstrank : Int) (block : Nat × Int × Int) : Prop where
  node : ∃ slot ∈ rest, block.1 = slot.node
  low : firstrank ≤ block.2.1
  ordered : block.2.1 ≤ block.2.2
  high : block.2.2 < firstRank + i + rest.length

theorem rankBlocks_within : ∀ (i : Nat) (firstrank : Int), firstrank ≤ firstRank + i →
      ∀ block ∈ rankBlocks firstRank rest i firstrank,
        BlockWithin firstRank rest i firstrank block := by
  induction rest with
  | nil => exact fun _ _ _ _ member => nomatch member
  | cons slot rest induction =>
    intro i firstrank started block member
    have later : ∀ firstrank' : Int, firstrank ≤ firstrank' → firstrank' ≤ firstRank + (i + 1 : Nat)
        → block ∈ rankBlocks firstRank rest (i + 1) firstrank' → BlockWithin firstRank
        (slot :: rest) i firstrank block := by
      intro firstrank' after started' member
      obtain ⟨⟨other, among, node⟩, low, ordered, high⟩ :=
        induction (i + 1) firstrank' started' block member
      refine ⟨⟨other, mem_cons_of_mem _ among, node⟩, by omega, ordered, ?_⟩
      rw [length_cons]
      push_cast at *
      omega
    unfold rankBlocks at member
    split at member
    · exact later firstrank (by omega) (by push_cast; omega) member
    · rcases mem_cons.mp member with same | member
      · subst same
        refine ⟨⟨slot, mem_cons_self, rfl⟩, Int.le_refl _, started, ?_⟩
        rw [length_cons]
        push_cast
        omega
      · exact later _ (by omega) (by push_cast; omega) member

def blockEntry (block : Nat × Int × Int) : ResInfoEntry := ⟨block.1, block.2.1, block.2.2⟩

def widen (bounds : Int × Int) (entry : ResInfoEntry) : Int × Int :=
  (if entry.firstRank < bounds.1 then entry.firstRank else bounds.1,
    if entry.lastRank > bounds.2 then entry.lastRank else bounds.2)

theorem widen_rankBlocks : ∀ (i : Nat) (firstrank low high : Int), low ≤ firstrank →
      high ≤ firstRank + i → firstrank ≤ firstRank + i → rest ≠ [] →
      ((rankBlocks firstRank rest i firstrank).map blockEntry).foldl widen
        (low, high) = (low, (firstRank + i + rest.length - 1 : Int)) := by
  induction rest with
  | nil => exact fun _ _ _ _ _ _ _ nonempty => absurd rfl nonempty
  | cons slot rest induction =>
    intro i firstrank low high lower upper started _
    unfold rankBlocks
    have length : ((slot :: rest).length : Int) = rest.length + 1 := by simp
    split
    next same =>
      have nonempty : rest ≠ [] := by
        rintro rfl
        simp at same
      rw [induction (i + 1) firstrank low high lower (by push_cast; omega)
        (by push_cast; omega) nonempty, length]
      push_cast
      ring_nf
    next last =>
      have wider : widen (low, high) (blockEntry (slot.node, firstrank, (firstRank + i : Int))) =
          (low, (firstRank + i : Int)) := by
        refine Prod.ext ?_ ?_
        · exact if_neg (show ¬firstrank < low by omega)
        · show (if (firstRank + i : Int) > high then (firstRank + i : Int)
            else high) = firstRank + i
          split <;> omega
      rw [map_cons, foldl_cons, wider]
      cases rest with
      | nil => simp [rankBlocks]
      | cons next tail =>
        rw [induction (i + 1) _ low _ (by omega) (by push_cast; omega)
          (by push_cast; omega) (by simp), length]
        push_cast
        ring_nf

theorem rankBounds_rankBlocks :
    ∀ (i : Nat) (firstrank : Int), firstrank ≤ firstRank + i → rest ≠ [] →
      rankBounds ((rankBlocks firstRank rest i firstrank).map blockEntry) =
        (firstrank, (firstRank + i + rest.length - 1 : Int)) := by
  induction rest with
  | nil => exact fun _ _ _ nonempty => absurd rfl nonempty
  | cons slot rest induction =>
    intro i firstrank started _
    have length : ((slot :: rest).length : Int) = rest.length + 1 := by simp
    unfold rankBlocks
    split
    next same =>
      have nonempty : rest ≠ [] := by
        rintro rfl
        simp at same
      rw [induction (i + 1) firstrank (by push_cast; omega) nonempty, length]
      push_cast
      ring_nf
    next last =>
      rw [map_cons]
      show ((rankBlocks firstRank rest (i + 1) _).map blockEntry).foldl widen
        (firstrank, (firstRank + i : Int)) = _
      cases rest with
      | nil => simp [rankBlocks]
      | cons next tail =>
        rw [widen_rankBlocks (next :: tail) (i + 1) _ firstrank _
          (by omega) (by push_cast; omega) (by push_cast; omega) (by simp),
          length]
        push_cast
        ring_nf

/-! ## The first message -/

/-- A reservation as it is distributed: its numbers fit their types. -/
structure Distributable (task : Holder) (res : Reservation)
    (slots : List Slot) : Prop where
  given : res.slots = some slots
  length : slots.length = res.nSlots
  some : 1 ≤ res.nSlots
  ranks : res.firstRank + res.nSlots ≤ 2 ^ 31
  nodes : ∀ slot ∈ slots, slot.node < 2 ^ 31
  ridLow : -2 ^ 31 ≤ res.rid
  ridHigh : res.rid < 2 ^ 31
  offset : res.rankOffset < 2 ^ 32
  logger : TidFits task.loggertid
  requester : TidFits res.requester
  holder : TidFits res.task

/-- What the nodes keep about a reservation. -/
def resInfoOf (res : Reservation) (slots : List Slot) : ResInfo where
  resID := res.rid
  partHolder := res.task
  rankOffset := res.rankOffset
  minRank := res.firstRank
  maxRank := res.firstRank + res.nSlots - 1
  entries := (rankBlocks res.firstRank slots 0 res.firstRank).map blockEntry
  nLocalSlots := 0
  localSlots := none

variable (blocks : List (Nat × Int × Int))

section Created

variable {flags : Flags}

theorem readEntries_blocks
    (fit : ∀ block ∈ blocks, block.1 < 2 ^ 31 ∧ -2 ^ 31 ≤ block.2.1 ∧
      block.2.1 < 2 ^ 31 ∧ -2 ^ 31 ≤ block.2.2 ∧ block.2.2 < 2 ^ 31) :
    ∀ before : List UInt8, readEntries flags blocks.length
        (readerAt before ((blocks.flatMap blockAdditions).flatMap (Addition.bytes flags))) =
        blocks.map blockEntry := by
  induction blocks with
  | nil => exact fun _ => rfl
  | cons block blocks induction =>
    intro before
    obtain ⟨node, low, lowHigh, high, highHigh⟩ := fit block mem_cons_self
    have remaining := induction (fun other member => fit other (mem_cons_of_mem _ member))
    simp only [flatMap_cons, blockAdditions, addNodeIdToMsg,
      cons_append, nil_append, length_cons, readEntries,
      getNodeId, map_cons]
    rw [getInt32_readerAt (by omega) (by exact_mod_cast node)]
    dsimp only
    rw [getInt32_readerAt low lowHigh]
    dsimp only
    rw [getInt32_readerAt high highHigh]
    dsimp only
    rw [remaining]
    rfl

theorem length_blocks (untyped : flags.typeInfo = false)
    (blocks : List (Nat × Int × Int)) :
    ((blocks.flatMap blockAdditions).flatMap (Addition.bytes flags)).length =
      entrySize * blocks.length := by
  induction blocks with
  | nil => rfl
  | cons block blocks induction =>
    rw [flatMap_cons, flatMap_append, length_append, induction]
    simp only [blockAdditions, addNodeIdToMsg, flatMap_cons,
      flatMap_nil, append_nil, length_append,
      length_int32 untyped, length_cons, entrySize]
    ring

theorem handleResCreated_msg (untyped : flags.typeInfo = false)
    (good : Distributable task res slots) (dests : List TaskId) (sessions : List Session) :
    handleResCreated flags (psdbNew ((resCreatedMsg task res slots dests).payload flags)) sessions =
      addReservation task.loggertid res.requester (resInfoOf res slots)
        sessions := by
  have all : slots.take res.nSlots = slots := by
    rw [← good.length, take_length]
  have nonempty : slots ≠ [] := by
    rintro rfl
    have count := good.length
    have atLeast := good.some
    simp only [length_nil] at count
    omega
  have ranks := good.ranks
  have count := good.length
  have within := rankBlocks_within slots 0 res.firstRank
    (show (res.firstRank : Int) ≤ res.firstRank + (0 : Nat) by omega)
  have fit : ∀ block ∈ rankBlocks res.firstRank slots 0 res.firstRank,
      block.1 < 2 ^ 31 ∧ -2 ^ 31 ≤ block.2.1 ∧ block.2.1 < 2 ^ 31 ∧
        -2 ^ 31 ≤ block.2.2 ∧ block.2.2 < 2 ^ 31 := by
    intro block member
    obtain ⟨⟨slot, among, node⟩, low, ordered, high⟩ := within block member
    refine ⟨node ▸ good.nodes slot among, ?_⟩
    push_cast at *
    omega
  have bounds := rankBounds_rankBlocks slots 0 res.firstRank
    (show (res.firstRank : Int) ≤ res.firstRank + (0 : Nat) by omega) nonempty
  have reader (bytes : List UInt8) : psdbNew bytes = readerAt [] bytes := rfl
  rw [reader, Emission.payload, resCreatedMsg]
  simp only [cons_append, nil_append, flatMap_cons, all]
  unfold handleResCreated
  rw [getInt32_readerAt good.ridLow good.ridHigh]
  dsimp only
  rw [getTaskId_readerAt good.logger]
  dsimp only
  rw [getTaskId_readerAt good.requester]
  dsimp only
  rw [getUint32_readerAt good.offset]
  dsimp only
  rw [getTaskId_readerAt good.holder]
  dsimp only
  have available (before rest : List UInt8) : (readerAt before rest).getAvail = rest.length := by
    simp [DataBuffer.getAvail, DataBuffer.offset, readerAt]
  rw [available, length_blocks untyped, Nat.mul_div_cancel_left _ (by decide),
    readEntries_blocks _ fit, bounds, resInfoOf]
  have last : (res.firstRank : Int) + (0 : Nat) + slots.length - 1 =
      res.firstRank + res.nSlots - 1 := by
    rw [good.length]
    push_cast
    ring
  rw [last]

end Created

/-! ## What is stored -/

section Stored

variable {α : Type}

theorem find?_upsert (found : α → Bool) (change : α → α) (new : α)
    (keeps : ∀ element, found element = true → found (change element) = true)
    (fresh : found (change new) = true) (list : List α) :
    ∃ element, (upsert found change new list).find? found = some (change element) := by
  induction list with
  | nil => exact ⟨new, by simp [upsert, fresh]⟩
  | cons head rest induction =>
    cases here : found head with
    | true => exact ⟨head, by simp [upsert, here, keeps head here]⟩
    | false => simpa [upsert, here] using induction

theorem find?_updateFirst (found : α → Bool) (change : α → α)
    (keeps : ∀ element, found element = true → found (change element) = true) (list : List α) :
    (updateFirst found change list).find? found = (list.find? found).map change := by
  induction list with
  | nil => rfl
  | cons head rest induction =>
    cases here : found head with
    | true => simp [updateFirst, here, keeps head here]
    | false => simpa [updateFirst, here] using induction

theorem findResInfo_addReservation (sessionID jobID : TaskId) (res : ResInfo)
    (sessions : List Session) :
    findResInfo (addReservation sessionID jobID res sessions) sessionID jobID
      res.resID = some res := by
  obtain ⟨session, sessionFound⟩ := find?_upsert
    (fun session : Session => decide (session.ID = sessionID))
    (fun session =>
      { session with
        jobs := upsert (fun job => job.ID = jobID) (addReservationToJob res)
          ⟨jobID, []⟩ session.jobs })
    ⟨sessionID, []⟩ (fun _ same => same) (by simp) sessions
  obtain ⟨job, jobFound⟩ := find?_upsert (fun job : Job => decide (job.ID = jobID))
    (addReservationToJob res) ⟨jobID, []⟩ (fun _ same => same) (by simp [addReservationToJob])
    session.jobs
  have others : (job.resInfos.filter (fun cur => decide (cur.resID ≠ res.resID))).find?
        (fun cur => decide (cur.resID = res.resID)) = none := by
    refine find?_eq_none.mpr fun cur member => ?_
    have differs := of_mem_filter member
    simpa using differs
  unfold findResInfo addReservation
  rw [sessionFound]
  dsimp only
  rw [jobFound]
  dsimp only [addReservationToJob]
  rw [find?_append, others]
  simp

theorem findResInfo_changeResInfo {change : ResInfo → ResInfo}
    (keeps : ∀ res, (change res).resID = res.resID) (sessionID jobID : TaskId)
    (resID : Int) (sessions : List Session) :
    findResInfo (changeResInfo sessionID jobID resID change sessions) sessionID jobID resID =
      (findResInfo sessions sessionID jobID resID).map change := by
  have sessionFound := find?_updateFirst
    (fun session : Session => decide (session.ID = sessionID))
    (fun session =>
      { session with
        jobs := updateFirst (fun job => job.ID = jobID)
          (fun job =>
            { job with
              resInfos := updateFirst (fun res => res.resID = resID) change job.resInfos })
          session.jobs })
    (fun _ same => same) sessions
  have jobFound := find?_updateFirst
    (fun job : Job => decide (job.ID = jobID))
    (fun job =>
      { job with
        resInfos := updateFirst (fun res => res.resID = resID) change job.resInfos })
    (fun _ same => same)
  have resFound := find?_updateFirst (fun res : ResInfo => decide (res.resID = resID)) change
    (fun res same => decide_eq_true ((keeps res).trans (of_decide_eq_true same)))
  unfold findResInfo changeResInfo
  rw [sessionFound]
  cases sessions.find? (fun session => decide (session.ID = sessionID)) with
  | none => rfl
  | some session =>
    dsimp only [map_some]
    rw [jobFound]
    cases session.jobs.find? (fun job => decide (job.ID = jobID)) with
    | none => rfl
    | some job => exact resFound job.resInfos

end Stored

/-! ## The second message -/

def localSlotsOf (firstRank node : Nat) (rest : List Slot) (s : Nat) : List ResSlot :=
  ((rest.zipIdx s).filter (fun slot => slot.1.node = node)).map
    (fun slot => ⟨(firstRank + slot.2 : Nat), slot.1.cpuSet⟩)

def numLocal (node : Nat) (rest : List Slot) : Nat := rest.countP (fun slot => slot.node = node)

def pairAdditions (nBytes : Nat) (slot : ResSlot) : List Addition :=
  [addInt32ToMsg slot.rank, addMemToMsg (extract slot.cpuSet nBytes)]

theorem localSlotsOf_cons (firstRank node s : Nat) (slot : Slot)
    (rest : List Slot) :
    localSlotsOf firstRank node (slot :: rest) s =
      if slot.node = node then
        ⟨(firstRank + s : Nat), slot.cpuSet⟩ :: localSlotsOf firstRank node rest (s + 1)
      else localSlotsOf firstRank node rest (s + 1) := by
  unfold localSlotsOf
  rw [zipIdx_cons]
  split
  next here => rw [filter_cons_of_pos (by simpa using here), map_cons]
  next other => rw [filter_cons_of_neg (by simpa using other)]

theorem numLocal_cons (node : Nat) (slot : Slot) (rest : List Slot) : numLocal node (slot :: rest) =
      if slot.node = node then numLocal node rest + 1
      else numLocal node rest := by
  unfold numLocal
  rw [countP_cons]
  by_cases here : slot.node = node
  · simp [here]
  · simp [here]

theorem length_localSlotsOf (firstRank node : Nat) (rest : List Slot) :
    ∀ s, (localSlotsOf firstRank node rest s).length = numLocal node rest := by
  induction rest with
  | nil => exact fun _ => rfl
  | cons slot rest induction =>
    intro s
    rw [localSlotsOf_cons, numLocal_cons]
    split
    · rw [length_cons, induction]
    · exact induction (s + 1)

theorem localPairs_eq {nBytes : Nat} (bytes : nBytes ≠ 0) (rest : List Slot) :
    ∀ ss, localPairs firstRank node nBytes rest ss (numLocal node rest) =
      ((localSlotsOf firstRank node rest ss).flatMap (pairAdditions nBytes), 0) := by
  induction rest with
  | nil => exact fun _ => rfl
  | cons slot rest induction =>
    intro ss
    unfold localPairs
    split
    next none =>
      have empty : localSlotsOf firstRank node (slot :: rest) ss = [] := by
        rw [← length_eq_zero_iff, length_localSlotsOf, none]
      rw [empty]
      rfl
    next some =>
      rw [localSlotsOf_cons, numLocal_cons]
      by_cases here : slot.node = node
      · rw [if_neg (not_not.mpr here), if_pos here, if_pos here]
        dsimp only
        rw [Nat.add_sub_cancel]
        rw [induction]
        rfl
      · rw [if_pos here, if_neg here, if_neg here, induction]

theorem countSlots_eq (node : Nat) (slots : List Slot) :
    ∀ sendCount : Nat → Nat, sendCount node + numLocal node slots < 2 ^ 16 → countSlots slots
      sendCount node = sendCount node + numLocal node slots := by
  induction slots with
  | nil => exact fun _ _ => rfl
  | cons slot rest induction =>
    intro sendCount bound
    rw [numLocal_cons] at bound ⊢
    unfold countSlots
    by_cases here : slot.node = node
    · rw [if_pos here] at bound ⊢
      rw [induction, here, update_self, Nat.mod_eq_of_lt (by omega)]
      · omega
      · rw [here, update_self, Nat.mod_eq_of_lt (by omega)]
        omega
    · rw [if_neg here] at bound ⊢
      have same : update sendCount slot.node
          ((sendCount slot.node + 1) % 2 ^ 16) node = sendCount node :=
        update_of_ne (Ne.symm here) _ _
      rw [induction _ (same ▸ bound), same]

/-- The message for a node. -/
def localMsg (numThrds : Nat → Nat) (task : Holder) (res : Reservation)
    (node : Nat) (slots : List ResSlot) : Emission :=
  let nBytes := bytesForCPUs (numThrds node)
  resSlotsMsg task res node nBytes slots.length (slots.flatMap (pairAdditions nBytes))

def Addressed (node : Nat) (msg : Emission) : Bool := decide (⟨node, 0⟩ ∈ msg.dests)

/-- Each node with slots left is sent a single message. -/
theorem filter_resSlotsLoop (node : Nat) (rest : List Slot)
    (bytes : ∀ slot ∈ rest, bytesForCPUs (numThrds slot.node) ≠ 0) :
    ∀ (s : Nat) (sendCount : Nat → Nat),
      (∀ n, sendCount n = 0 ∨ sendCount n = numLocal n rest) →
      (resSlotsLoop numThrds task res rest s sendCount).filter (Addressed node) =
        if sendCount node = 0 then []
        else
          [localMsg numThrds task res node (localSlotsOf res.firstRank node rest s)] := by
  induction rest with
  | nil =>
    intro s sendCount counts
    have none : sendCount node = 0 := by
      rcases counts node with zero | count
      · exact zero
      · exact count
    rw [if_pos none]
    rfl
  | cons slot rest induction =>
    intro s sendCount counts
    have later := induction (fun other member => bytes other (mem_cons_of_mem _ member))
    unfold resSlotsLoop
    split
    next done =>
      have counts' : ∀ n, sendCount n = 0 ∨ sendCount n = numLocal n rest := by
        intro n
        rcases counts n with zero | count
        · exact .inl zero
        · by_cases here : slot.node = n
          · exact .inl (here ▸ done)
          · rw [numLocal_cons, if_neg here] at count
            exact .inr count
      rw [later (s + 1) sendCount counts']
      split
      next zero => rfl
      next some =>
        have other : slot.node ≠ node := fun here => some (here ▸ done)
        rw [localSlotsOf_cons, if_neg other]
    next pending =>
      have count : sendCount slot.node = numLocal slot.node (slot :: rest) :=
        (counts slot.node).resolve_left pending
      have nBytes := bytes slot mem_cons_self
      dsimp only
      rw [count, localPairs_eq nBytes]
      dsimp only
      have counts' : ∀ n, update sendCount slot.node 0 n = 0 ∨
            update sendCount slot.node 0 n = numLocal n rest := by
        intro n
        by_cases here : n = slot.node
        · exact .inl (by rw [here, update_self])
        · rw [update_of_ne here]
          rcases counts n with zero | count
          · exact .inl zero
          · rw [numLocal_cons, if_neg (Ne.symm here)] at count
            exact .inr count
      have message : resSlotsMsg task res slot.node
          (bytesForCPUs (numThrds slot.node))
          (numLocal slot.node (slot :: rest))
          ((localSlotsOf res.firstRank slot.node (slot :: rest) s).flatMap
            (pairAdditions (bytesForCPUs (numThrds slot.node)))) =
          localMsg numThrds task res slot.node
            (localSlotsOf res.firstRank slot.node (slot :: rest) s) := by
        unfold localMsg
        dsimp only
        rw [length_localSlotsOf]
      rw [message]
      by_cases here : slot.node = node
      · have addressed : Addressed node (localMsg numThrds task res slot.node
            (localSlotsOf res.firstRank slot.node (slot :: rest) s)) = true :=
          decide_eq_true (here ▸ mem_singleton.mpr rfl)
        rw [filter_cons_of_pos addressed, later (s + 1) _ counts', here,
          update_self, if_pos rfl, if_neg (here ▸ pending)]
      · have foreign : ¬Addressed node (localMsg numThrds task res slot.node
            (localSlotsOf res.firstRank slot.node (slot :: rest) s)) =
            true := by
          intro addressed
          have same := mem_singleton.mp (of_decide_eq_true addressed)
          have nodes : (node : Int) = slot.node := congrArg TaskId.node same
          omega
        rw [filter_cons_of_neg foreign, later (s + 1) _ counts',
          update_of_ne (Ne.symm here), localSlotsOf_cons,
          if_neg here]

section Slots

variable {flags : Flags}

theorem readSlots_pairs {nBytes : Nat} {minRank maxRank : Int}
    (most : nBytes ≤ cpuMax / 8) (slots : List ResSlot)
    (valid : ∀ slot ∈ slots, 0 ≤ slot.rank ∧ slot.rank < 2 ^ 31 ∧
      minRank ≤ slot.rank ∧ slot.rank ≤ maxRank ∧
      ∀ cpu ∈ slot.cpuSet, cpu < 8 * nBytes) (rest : List UInt8) :
    ∀ (rank : Int) (before : List UInt8), readSlots flags nBytes minRank maxRank slots.length rank
        (readerAt before
          ((slots.flatMap (pairAdditions nBytes)).flatMap (Addition.bytes flags) ++ rest)) =
        some slots := by
  induction slots with
  | nil => exact fun _ _ => rfl
  | cons slot slots induction =>
    intro rank before
    obtain ⟨nonneg, small, low, high, covered⟩ := valid slot mem_cons_self
    have remaining := induction (fun other member => valid other (mem_cons_of_mem _ member))
    simp only [flatMap_cons, pairAdditions, cons_append,
      nil_append, length_cons, readSlots, append_assoc]
    rw [getInt32_readerAt (by omega) small]
    dsimp only
    rw [if_neg (by omega)]
    have mem := fun before rest => @getMem_readerAt flags
      (extract slot.cpuSet nBytes) before rest []
    simp only [length_extract] at mem
    rw [mem]
    dsimp only
    rw [remaining, inject_extract most covered]
    rfl

/-- The slots of a reservation lie within the HW-threads of their nodes. -/
structure Pinned (numThrds : Nat → Nat) (slots : List Slot) : Prop where
  threads : ∀ slot ∈ slots, slot.cpuSet.Nonempty
  within : ∀ slot ∈ slots, ∀ cpu ∈ slot.cpuSet, cpu < numThrds slot.node
  most : ∀ slot ∈ slots, numThrds slot.node ≤ cpuMax
  numLocal : ∀ node, numLocal node slots < 2 ^ 16

theorem Pinned.bytes (pinned : Pinned numThrds slots) {slot : Slot}
    (member : slot ∈ slots) :
    bytesForCPUs (numThrds slot.node) ≠ 0 ∧ bytesForCPUs (numThrds slot.node) ≤ cpuMax / 8 ∧
      numThrds slot.node ≤ 8 * bytesForCPUs (numThrds slot.node) := by
  obtain ⟨cpu, inSet⟩ := pinned.threads slot member
  have below := pinned.within slot member cpu inSet
  have most := pinned.most slot member
  unfold bytesForCPUs cpuMax at *
  rw [if_neg (by omega), if_neg (by omega)]
  omega

theorem mem_localSlotsOf {s : Nat} {entry : ResSlot}
    (member : entry ∈ localSlotsOf firstRank node slots s) :
    ∃ i slot, slots[i]? = some slot ∧ slot.node = node ∧
      entry = ⟨(firstRank + (s + i) : Nat), slot.cpuSet⟩ := by
  unfold localSlotsOf at member
  obtain ⟨⟨slot, index⟩, filtered, rfl⟩ := mem_map.mp member
  obtain ⟨among, onNode⟩ := mem_filter.mp filtered
  obtain ⟨above, found⟩ := mem_zipIdx_iff_le_and_getElem?_sub.mp among
  refine ⟨index - s, slot, found, of_decide_eq_true onNode, ?_⟩
  rw [Nat.add_sub_cancel' above]

/-- The second message is stored with the reservation of the first one. -/
theorem handleResSlots_msg (good : Distributable task res slots)
    (pinned : Pinned numThrds slots)
    (involved : ∃ slot ∈ slots, slot.node = node) {sessions : List Session}
    (found : findResInfo sessions task.loggertid res.requester res.rid =
      some (resInfoOf res slots)) :
    ∃ info, findResInfo
        (handleResSlots flags (numThrds node)
          (psdbNew ((localMsg numThrds task res node
            (localSlotsOf res.firstRank node slots 0)).payload flags))
          sessions)
        task.loggertid res.requester res.rid = some info ∧
      info.localSlots = some (localSlotsOf res.firstRank node slots 0) := by
  obtain ⟨here, among, rfl⟩ := involved
  obtain ⟨some, most, enough⟩ := pinned.bytes among
  have ranks := good.ranks
  have valid : ∀ slot ∈ localSlotsOf res.firstRank here.node slots 0,
      0 ≤ slot.rank ∧ slot.rank < 2 ^ 31 ∧ (res.firstRank : Int) ≤ slot.rank ∧ slot.rank ≤
        res.firstRank + res.nSlots - 1 ∧ ∀ cpu ∈ slot.cpuSet, cpu < 8 * bytesForCPUs
        (numThrds here.node) := by
    intro entry member
    obtain ⟨i, slot, at_i, onNode, rfl⟩ := mem_localSlotsOf member
    have index := (List.getElem?_eq_some_iff.mp at_i).1
    rw [good.length] at index
    dsimp only
    push_cast
    refine ⟨by omega, by omega, by omega, by omega, ?_⟩
    intro cpu inSet
    have below := pinned.within slot (mem_of_getElem? at_i) cpu inSet
    rw [onNode] at below
    omega
  have num : (localSlotsOf res.firstRank here.node slots 0).length < 2 ^ 16 := by
    rw [length_localSlotsOf]
    exact pinned.numLocal here.node
  have bytes : bytesForCPUs (numThrds here.node) < 2 ^ 16 := by
    unfold cpuMax at most
    omega
  have reader (bytes : List UInt8) : psdbNew bytes = readerAt [] bytes := rfl
  have empty : ¬(resInfoOf res slots).localSlots.isSome = true := by
    simp [resInfoOf]
  rw [reader, Emission.payload, localMsg, resSlotsMsg]
  simp only [cons_append, nil_append, flatMap_cons, flatMap_append]
  unfold handleResSlots
  rw [getTaskId_readerAt good.logger]
  dsimp only
  rw [getTaskId_readerAt good.requester]
  dsimp only
  rw [getInt32_readerAt good.ridLow good.ridHigh]
  dsimp only
  rw [found]
  dsimp only
  rw [if_neg empty, getUint16_readerAt bytes]
  dsimp only
  rw [if_neg (by simp [some]), getUint16_readerAt num]
  dsimp only
  rw [findResInfo_changeResInfo, found, map_some]
  · refine ⟨_, rfl, ?_⟩
    exact readSlots_pairs most _ valid _ 0 _
  · exact fun _ => rfl

end Slots

/-! ## The layout -/

def ResInfoEntry.covers (rank : Int) (entry : ResInfoEntry) : Bool :=
  decide (entry.firstRank ≤ rank ∧ rank ≤ entry.lastRank)

structure LaidOut (res : Reservation) (slots : List Slot)
    (info : ResInfo) : Prop where
  covered : ∀ (i : Nat) (slot : Slot), slots[i]? = some slot →
    ∃ entry, info.entries.filter (ResInfoEntry.covers (res.firstRank + i)) =
      [entry] ∧ entry.node = slot.node
  other : ∀ rank : Int, (∀ i : Nat, i < res.nSlots → rank ≠ res.firstRank + i) → info.entries.filter
    (ResInfoEntry.covers rank) = []
  minRank : info.minRank = res.firstRank
  maxRank : info.maxRank = res.firstRank + res.nSlots - 1

def pairsOn (res : Reservation) (slots : List Slot) (node : Nat) : List ResSlot :=
  (slots.zipIdx.filter (fun slot => slot.1.node = node)).map
    (fun slot => ⟨(res.firstRank + slot.2 : Nat), slot.1.cpuSet⟩)

theorem filter_entries (rank : Int) : (blocks.map blockEntry).filter (ResInfoEntry.covers rank) =
      (blocks.filter (Covers rank)).map blockEntry := by
  rw [List.filter_map]
  rfl

theorem resInfoOf_laidOut (good : Distributable task res slots) :
    LaidOut res slots (resInfoOf res slots) := by
  have nonempty : slots ≠ [] := by
    rintro rfl
    have count := good.length
    have atLeast := good.some
    simp only [length_nil] at count
    omega
  have blocks := filter_rankBlocks slots 0 res.firstRank
    (show (res.firstRank : Int) ≤ res.firstRank + (0 : Nat) by omega) nonempty
  have count := good.length
  constructor
  · intro i slot at_i
    have index := (List.getElem?_eq_some_iff.mp at_i).1
    obtain ⟨block, node, filtered, named, blockNode⟩ :=
      (blocks (res.firstRank + i)).1 (by omega) (by push_cast; omega)
    refine ⟨blockEntry block, ?_, ?_⟩
    · show ((rankBlocks _ _ _ _).map blockEntry).filter _ = _
      rw [filter_entries, filtered]
      rfl
    · unfold nodeOf at named
      rw [if_neg (by push_cast; omega)] at named
      have shift : ((res.firstRank + i : Int) - (res.firstRank + 0 : Nat)).toNat = i := by
        push_cast
        omega
      rw [shift, at_i] at named
      have same : slot.node = node := by simpa using named
      exact congrArg Int.ofNat (blockNode.trans same.symm)
  · intro rank outside
    show ((rankBlocks _ _ _ _).map blockEntry).filter _ = _
    rw [filter_entries, (blocks rank).2, map_nil]
    by_contra inside
    push_cast at inside
    have differs := outside (rank - res.firstRank).toNat (by omega)
    omega
  · rfl
  · rfl

/-- Three slots on two nodes. -/
def threeSlots : List Slot := [⟨1, {0, 9}⟩, ⟨2, {1}⟩, ⟨1, {3}⟩]

def threeRanks : Reservation where
  request := 0
  task := ⟨0, 7⟩
  requester := ⟨0, 8⟩
  nMin := 3
  nMax := 3
  ppn := 0
  tpp := 1
  hwType := 0
  options := ⟨false, false, false, false, false, false⟩
  rid := 1
  firstRank := 4
  rankOffset := 0
  nSlots := 3
  slots := some threeSlots
  nextSlot := 0
  relSlots := 0
  checked := false
  dynSent := false

def threeHolder : Holder := ⟨⟨0, 7⟩, [1, 2], []⟩

end Psmgmt.Partition
