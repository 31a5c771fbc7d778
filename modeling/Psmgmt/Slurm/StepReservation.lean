import Psmgmt.Library.Transition
import Psmgmt.Partition.Threads

/-!
# Reservations of a step

The slots of a step are worked out by pinning.  A reservation hands out the next
ones and marks their HW-threads as used in the partition of the task, which was
generated from all the slots.
-/

namespace Psmgmt.Slurm.StepReservation

open Partition (CPUSet Slot HWThread ThreadPool cpuMax int16
  releaseThreads)

/-- The parts of `Step_t` used here; what `slots` points to from `np` on is other
memory.  A CPU set has got `PSCPU_MAX` bits. -/
structure Step where
  np : Nat
  slots : Nat → Slot
  bits : ∀ index, ∀ cpu ∈ (slots index).cpuSet, cpu < cpuMax

/-- The CPUs of a slot in the order of the loops over them. -/
def cpus (cpuSet : CPUSet) (num : Nat) : List Nat := (List.range num).filter (· ∈ cpuSet)

def addThreadsToArray (slots : List Slot) : List HWThread :=
  slots.flatMap fun slot => (cpus slot.cpuSet cpuMax).map fun cpu =>
    { node := slot.node, id := cpu, timesUsed := 0 }

/-- `genThreadsArray()` of a step without pack. -/
def genThreadsArray (step : Step) : List HWThread :=
  addThreadsToArray ((List.range step.np).map step.slots)

/-- What `handleRequestPart()` sets up in the task. -/
def newPool (step : Step) : ThreadPool :=
  { totalThreads := (genThreadsArray step).length
    partThrds := fun t => (genThreadsArray step).getD t ⟨0, 0, 0⟩
    usedThreads := 0 }

/-! ## Marking HW-threads -/

/-- The first entry of a node, from `firstThread` on and around. -/
def findNode (pool : ThreadPool) (firstThread node : Nat) : Option Nat :=
  ((List.range pool.totalThreads).map fun i =>
    (firstThread + i) % pool.totalThreads).find? fun t => (pool.partThrds t).node = node

/-- The first entry of a CPU, from `firstThread` on. -/
def findCPU (pool : ThreadPool) (firstThread cpu : Nat) : Option Nat :=
  (List.range' firstThread (pool.totalThreads - firstThread)).find? fun t =>
    (pool.partThrds t).id = cpu

/-- The variables of the loops in `handleGetReservation()`, and for each use
marked the node of the slot and the one of the entry. -/
structure Marking where
  pool : ThreadPool
  firstThread : Nat
  thisNode : Option Nat
  usedThreads : Nat
  marks : List (Nat × Nat)

/-- One more use of an entry. -/
def use (pool : ThreadPool) (t : Nat) : ThreadPool :=
  { pool with
    partThrds := Function.update pool.partThrds t
      { pool.partThrds t with
        timesUsed := int16 ((pool.partThrds t).timesUsed + 1) } }

def markCPU (node : Nat) (marking : Marking) (cpu : Nat) : Marking :=
  match findCPU marking.pool marking.firstThread cpu with
  | none => marking
  | some t =>
    { marking with
      pool := use marking.pool t
      usedThreads := marking.usedThreads + if (marking.pool.partThrds t).timesUsed = 0 then 1 else 0
      marks := marking.marks ++ [(node, (marking.pool.partThrds t).node)] }

/-- The node of the slot is looked for unless it is the one of the slot before. -/
def seekNode (marking : Marking) (node : Nat) : Option Marking :=
  if marking.thisNode = some node then some marking
  else (findNode marking.pool marking.firstThread node).map fun t =>
    { marking with firstThread := t, thisNode := some node }

def markSlot (getNumThrds : Nat → Nat) (marking : Marking) (slot : Slot) :
    Marking :=
  match seekNode marking slot.node with
  | none => marking
  | some marking => (cpus slot.cpuSet (getNumThrds slot.node)).foldl (markCPU slot.node) marking

def markSlots (getNumThrds : Nat → Nat) (pool : ThreadPool) (slots : List Slot) : Marking :=
  slots.foldl (markSlot getNumThrds)
    { pool, firstThread := 0, thisNode := none, usedThreads := 0, marks := [] }

/-! ## The task -/

/-- The partition of the task and `usedSlots` of its step; the indices of all
slots handed out and of those not released yet, the marks made, and how many
HW-threads released were not in use. -/
structure Task where
  pool : ThreadPool
  usedSlots : Nat
  handed : List Nat
  held : List Nat
  marks : List (Nat × Nat)
  missed : Nat

def Task.start (step : Step) : Task :=
  { pool := newPool step, usedSlots := 0, handed := [], held := [], marks := []
    missed := 0 }

section Step

variable (getNumThrds : Nat → Nat) (step : Step)

/-- The indices of the slots a request gets. -/
def Task.next (task : Task) (nSlots : Nat) : List Nat := List.range' task.usedSlots nSlots

/-- `handleGetReservation()` -/
def handleGetReservation (task : Task) (nMin nMax : Nat) (allocated : Bool) :
    Task :=
  if nMin ≠ nMax then task
  else if allocated = false then
    { task with usedSlots := (task.usedSlots + nMin) % 2 ^ 32 }
  else
    let marking := markSlots getNumThrds task.pool ((task.next nMin).map step.slots)
    { task with
      usedSlots := (task.usedSlots + nMin) % 2 ^ 32
      pool := { marking.pool with
        usedThreads := task.pool.usedThreads + marking.usedThreads }
      handed := task.handed ++ task.next nMin
      held := task.held ++ task.next nMin
      marks := task.marks ++ marking.marks }

/-- One of the CPU sets of `PSP_DD_CHILDRESREL`. -/
def releaseSlot (task : Task) (index : Nat) : Task :=
  let slot := step.slots index
  let (released, _, pool) := releaseThreads [slot] task.pool
  { task with
    pool := { pool with usedThreads := pool.usedThreads - released }
    held := task.held.erase index
    missed := task.missed + (slot.cpuSet.card - released) }

/-- `msg_CHILDRESREL()` for the slots of children of one node. -/
def msgChildResRel (task : Task) (indices : List Nat) : Task :=
  indices.foldl (releaseSlot step) task

inductive Event where
  /-- A client gets a reservation unless there is no memory. -/
  | getReservation (nMin nMax : Nat) (allocated : Bool)
  | childResRel (node : Nat) (indices : List Nat)

/-- Slots are released that were handed out and not released since. -/
def Enabled (task : Task) : Event → Prop
  | .getReservation .. => True
  | .childResRel node indices => indices.Nodup
      ∧ ∀ index ∈ indices, index ∈ task.held ∧ (step.slots index).node = node

def perform (task : Task) : Event → Task
  | .getReservation nMin nMax allocated =>
    handleGetReservation getNumThrds step task nMin nMax allocated
  | .childResRel _ indices => msgChildResRel step task indices

def taskSystem : TransitionSystem Task where
  initial := fun task => task = .start step
  step := fun before after =>
    ∃ event, Enabled step before event ∧ after = perform getNumThrds step before event

/-- Slots of the step only are handed out, each use marks an entry of its node,
no counter gets below 0, and all are 0 once everything is released. -/
structure Agrees (task : Task) : Prop where
  inside : ∀ index ∈ task.handed, index < step.np
  own : ∀ mark ∈ task.marks, mark.1 = mark.2
  low : ∀ t < task.pool.totalThreads, 0 ≤ (task.pool.partThrds t).timesUsed
  inUse : task.missed = 0
  usedLow : 0 ≤ task.pool.usedThreads
  clear : task.held = [] → task.pool.usedThreads = 0
    ∧ ∀ t < task.pool.totalThreads, (task.pool.partThrds t).timesUsed = 0

/-! ## Reservations that fit -/

/-- The HW-threads of a slot. -/
def slotKeys (slot : Slot) : Finset (Nat × Nat) := slot.cpuSet.image (Prod.mk slot.node)

def Apart (left right : Nat) : Prop :=
  Disjoint (slotKeys (step.slots left)) (slotKeys (step.slots right))

/-- Slots of a node follow each other. -/
def Grouped : Prop :=
  ∀ first < step.np, ∀ second < first, ∀ third < second,
    (step.slots third).node = (step.slots first).node →
      (step.slots second).node = (step.slots first).node

/-- No HW-thread is in two slots, and each slot has got one. -/
def Unshared : Prop :=
  ∀ first < step.np, (step.slots first).cpuSet.Nonempty ∧ ∀ second < first, Apart step second first

/-- A request is for slots of the step whose CPUs their node has, none of which
shares HW-threads with another one in use, and they are easy to find: slots of a
node follow each other, or it is for the first slots and none are shared. -/
def Fits (task : Task) : Event → Prop
  | .getReservation nMin nMax allocated => nMin = nMax → allocated = true →
      task.usedSlots + nMin ≤ step.np
        ∧ (∀ index ∈ task.next nMin, ∀ cpu ∈ (step.slots index).cpuSet,
          cpu < getNumThrds (step.slots index).node)
        ∧ (task.held ++ task.next nMin).Pairwise (Apart step)
        ∧ (Grouped step ∨ (task.usedSlots = 0 ∧ Unshared step))
  | .childResRel .. => True

/-- The runs all of whose events fit. -/
def fittingSystem : TransitionSystem Task where
  initial := (taskSystem getNumThrds step).initial
  step := fun before after =>
    ∃ event, Enabled step before event ∧ Fits getNumThrds step before event
      ∧ after = perform getNumThrds step before event

end Step

end Psmgmt.Slurm.StepReservation
