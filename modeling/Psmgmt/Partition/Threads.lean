import Psmgmt.Partition.Slot

/-!
# The HW-threads of a partition

`createSlots()` and `releaseThreads()`.  An array of HW-threads is a function
on its indices.  The loop collecting slots may not end; it runs with `fuel`.
-/

namespace Psmgmt.Partition

open Function

/-- `PSpart_HWThread_t`. -/
structure HWThread where
  node : Nat
  id : Nat
  timesUsed : Int
  deriving DecidableEq, Repr

/-- The HW-threads of a task with the number of those in use. -/
structure ThreadPool where
  totalThreads : Nat
  partThrds : Nat → HWThread
  usedThreads : Int

/-- Conversion to a 16-bit integer. -/
def int16 (value : Int) : Int := (value + 2 ^ 15) % 2 ^ 16 - 2 ^ 15

/-- What slots are asked for. -/
structure SlotSpec where
  np : Nat
  ppn : Nat
  tpp : Nat
  hwType : Nat
  options : Options
  deriving DecidableEq, Repr

def hwFits (hwStatus : Nat → Nat) (hwType node : Nat) : Bool :=
  decide (hwType = 0) || decide (hwStatus node &&& hwType = hwType)

/-! ## Creating slots -/

section Create

variable (hwStatus : Nat → Nat) (spec : SlotSpec) (pool : ThreadPool)

/-- What the first loop of `createSlots()` collects. -/
structure Scan where
  first : Nat
  nextMinUsed : Int
  nodeTPP : Nat
  maxTPP : Nat
  deriving DecidableEq, Repr

def scanStep (scan : Scan) (t : Nat) : Scan :=
  let node := (pool.partThrds t).node
  if !hwFits hwStatus spec.hwType node then scan
  else
    let scan :=
      if t ≠ 0 ∧ (pool.partThrds (t - 1)).node = node then
        { scan with nodeTPP := scan.nodeTPP + 1 }
      else
        { scan with maxTPP := max scan.maxTPP scan.nodeTPP, nodeTPP := 1 }
    if (pool.partThrds t).timesUsed < scan.nextMinUsed then
      { scan with first := t, nextMinUsed := (pool.partThrds t).timesUsed }
    else scan

def scanThreads : Scan :=
  let scan := (List.range pool.totalThreads).foldl (scanStep hwStatus spec pool)
    { first := 0, nextMinUsed := (pool.partThrds 0).timesUsed, nodeTPP := 0,
      maxTPP := 0 }
  { scan with maxTPP := max scan.maxTPP scan.nodeTPP }

/-- The variables of the second loop; `current` is `slots[got]`. -/
structure Collect where
  t : Nat
  minUsed : Int
  nextMinUsed : Int
  got : Nat
  roundGot : Nat
  thrdsGot : Nat
  fullRound : Bool
  myUse : Nat → Int
  procsPerNode : Nat → Nat
  slots : List Slot
  current : Slot

/-- The start of a round; `none` leaves the loop. -/
def startRound (c : Collect) : Option Collect :=
  if c.t ≠ 0 then some c
  else
    let minUsed := c.nextMinUsed
    let c := { c with
      minUsed := minUsed, nextMinUsed := int16 (c.nextMinUsed + 1) }
    if c.fullRound ∧ c.roundGot = 0 ∧ !spec.options.overbook then none
    else if spec.options.nodeFirst ∧ minUsed ≠ 0 ∧ !spec.options.overbook then
      none
    else some { c with fullRound := true, roundGot := 0 }

/-- The HW-threads of the current slot are put back, up to `numToRel`. -/
def putBack (t : Nat) (slot : Slot) :
    (rest : List Nat) → (numToRel : Nat) → (Nat → Int) → Nat × (Nat → Int)
  | [], numToRel, myUse => (numToRel, myUse)
  | tt :: rest, numToRel, myUse =>
    let ttt := (t + pool.totalThreads - tt) % pool.totalThreads
    let thread := pool.partThrds ttt
    if numToRel = 0 then (0, myUse)
    else if slot.node = thread.node ∧ thread.id ∈ slot.cpuSet then
      putBack t slot rest (numToRel - 1) (update myUse ttt (int16 (myUse ttt - 1)))
    else putBack t slot rest numToRel myUse

/-- The current slot has to be on the node of the HW-thread `c.t`. -/
def prepareSlot (c : Collect) : Option Collect :=
  let node := (pool.partThrds c.t).node
  let c := if c.thrdsGot = 0 then { c with current := ⟨node, ∅⟩ } else c
  if node ≠ c.current.node then
    let (numToRel, myUse) := putBack pool c.t c.current
      (List.range' 1 (pool.totalThreads - 1)) c.current.cpuSet.card c.myUse
    if numToRel ≠ 0 then none
    else some { c with myUse := myUse, current := ⟨node, ∅⟩, thrdsGot := 0 }
  else some c

/-- Take the HW-thread `c.t` for the current slot. -/
def takeThread (c : Collect) : Collect :=
  let thread := pool.partThrds c.t
  let c := { c with
    current := ⟨c.current.node, insert thread.id c.current.cpuSet⟩
    myUse := update c.myUse c.t (int16 (c.myUse c.t + 1))
    thrdsGot := c.thrdsGot + 1 }
  if c.thrdsGot = spec.tpp then
    { c with
      procsPerNode :=
        if spec.ppn ≠ 0 then
          update c.procsPerNode thread.node (c.procsPerNode thread.node + 1)
        else c.procsPerNode
      slots := c.slots ++ [c.current], got := c.got + 1
      roundGot := c.roundGot + 1, thrdsGot := 0 }
  else c

/-- The rest of the loop's body, for the HW-thread `c.t`. -/
def tryThread (c : Collect) : Option Collect :=
  let node := (pool.partThrds c.t).node
  if c.myUse c.t > c.minUsed then some c
  else if !hwFits hwStatus spec.hwType node then some c
  else if spec.ppn ≠ 0 ∧ c.procsPerNode node ≥ spec.ppn then some c
  else if spec.options.nodeFirst ∧ c.roundGot ≠ 0 ∧ c.slots.getLast?.map Slot.node = some node then
    some { c with
      nextMinUsed :=
        if c.myUse c.t < c.nextMinUsed then c.myUse c.t else c.nextMinUsed }
  else (prepareSlot pool c).map (takeThread spec pool)

def collectBody (c : Collect) : Option Collect :=
  (startRound spec c).bind (tryThread hwStatus spec pool)

/-- The second loop; it ends with `got` below `np` if it is left early. -/
def collect (mod : Nat) : (fuel : Nat) → Collect → Option Collect
  | 0, _ => none
  | fuel + 1, c =>
    if c.t < pool.totalThreads ∧ c.got < spec.np then
      match collectBody hwStatus spec pool c with
      | none => some c
      | some c => collect mod fuel { c with t := (c.t + 1) % mod }
    else some c

/-- The state the second loop starts from, unless there is nothing to get. -/
def collectStart : Option Collect :=
  let scan := scanThreads hwStatus spec pool
  if scan.nextMinUsed ≠ 0 ∧ !spec.options.overbook then none
  else if spec.tpp > scan.maxTPP then none
  else
    some
      { t := scan.first
        minUsed := scan.nextMinUsed
        nextMinUsed :=
          if !spec.options.nodeFirst ∧ scan.first ≠ 0 then
            int16 (scan.nextMinUsed + 1)
          else scan.nextMinUsed
        got := 0
        roundGot := 0
        thrdsGot := 0
        fullRound := false
        myUse := fun t => (pool.partThrds t).timesUsed
        procsPerNode := fun _ => 0
        slots := []
        current := ⟨0, ∅⟩ }

/-- Make the use of the HW-threads collected the actual one. -/
def commitUse (myUse : Nat → Int) : ThreadPool :=
  { pool with
    partThrds := fun t => { pool.partThrds t with timesUsed := myUse t }
    usedThreads := pool.usedThreads +
      ∑ t ∈ Finset.range pool.totalThreads, (myUse t - (pool.partThrds t).timesUsed) }

/-- `createSlots()`: the slots found, and the resources after it. -/
def createSlots (fuel : Nat) (dryRun : Bool) : Option (List Slot × ThreadPool) :=
  match collectStart hwStatus spec pool with
  | none => some ([], pool)
  | some start =>
    let mod := pool.totalThreads +
      if spec.options.overbook || spec.options.nodeFirst then 0 else 1
    (collect hwStatus spec pool mod fuel start).map (fun c =>
      (c.slots,
        if !dryRun ∧ c.got = spec.np then commitUse pool c.myUse else pool))

end Create

/-! ## Releasing threads -/

/-- The counters of `releaseThreads()` and the use of the current HW-thread. -/
structure Release where
  totalRelease : Nat
  numToRelease : Nat
  timesUsed : Int
  deriving DecidableEq, Repr

/-- The loop over the slots for one HW-thread. -/
def releaseSlots (node id : Nat) : List Slot → Release → List Slot × Release
  | [], r => ([], r)
  | slot :: rest, r =>
    if slot.node = node ∧ id ∈ slot.cpuSet then
      let r :=
        if r.timesUsed - 1 < 0 then
          { totalRelease := r.totalRelease - 1
            numToRelease := r.numToRelease - 1, timesUsed := 0 }
        else
          { r with
            numToRelease := r.numToRelease - 1
            timesUsed := r.timesUsed - 1 }
      let (rest, r) := releaseSlots node id rest r
      (⟨slot.node, slot.cpuSet.erase id⟩ :: rest, r)
    else
      let (rest, r) := releaseSlots node id rest r
      (slot :: rest, r)

def releaseLoop : (threads : List Nat) → (Nat → HWThread) → List Slot →
    (totalRelease numToRelease : Nat) → (Nat → HWThread) × List Slot × Nat × Nat
  | [], partThrds, slots, totalRelease, numToRelease =>
    (partThrds, slots, totalRelease, numToRelease)
  | t :: rest, partThrds, slots, totalRelease, numToRelease =>
    if numToRelease = 0 then (partThrds, slots, totalRelease, numToRelease)
    else
      let thread := partThrds t
      let (slots, r) := releaseSlots thread.node thread.id slots
        ⟨totalRelease, numToRelease, thread.timesUsed⟩
      releaseLoop rest (update partThrds t { thread with timesUsed := r.timesUsed }) slots
        r.totalRelease r.numToRelease

/-- `releaseThreads()`: how many HW-threads are released, the slots without
them, and the HW-threads after it. -/
def releaseThreads (slots : List Slot) (pool : ThreadPool) : Nat × List Slot × ThreadPool :=
  let totalRelease := (slots.map (fun slot => slot.cpuSet.card)).sum
  let (partThrds, slots, totalRelease, numToRelease) :=
    releaseLoop (List.range pool.totalThreads) pool.partThrds slots totalRelease totalRelease
  (totalRelease - numToRelease, slots, { pool with partThrds := partThrds })

end Psmgmt.Partition
