import Psmgmt.Slurm.GpuAssignment

/-!
# Default CPU binding

The thread iterator and `getThreadsBinding()` of `psslurmpin.c`.  Hardware
threads are numbered in cores-sockets-threads order.
-/

namespace Psmgmt.Slurm.Pin

open Partition

structure NodeInfo where
  socketCount : Nat
  coresPerSocket : Nat
  threadsPerCore : Nat
  stepHWthreads : CPUSet
  sockets : 0 < socketCount
  cores : 0 < coresPerSocket
  threads : 0 < threadsPerCore

namespace NodeInfo

variable (nodeinfo : NodeInfo)

def coreCount : Nat := nodeinfo.socketCount * nodeinfo.coresPerSocket

def threadCount : Nat := nodeinfo.coreCount * nodeinfo.threadsPerCore

def getCore (thread : Nat) : Nat := thread % nodeinfo.coreCount

def getSocketByThread (thread : Nat) : Nat := nodeinfo.getCore thread / nodeinfo.coresPerSocket

def getCorethread (thread : Nat) : Nat := thread / nodeinfo.coreCount

end NodeInfo

/-! ## The thread iterator -/

inductive ThreadIterStrategy where
  | cycleCores
  | cycleSocketsCycleCores
  | cycleSocketsFillCores
  | fillSocketsCycleCores
  | fillSocketsFillCores
  deriving DecidableEq

/-- How `thread_iter_next()` moves on from a thread. -/
def iterNext (strategy : ThreadIterStrategy) (nodeinfo : NodeInfo) (next : Nat) : Nat :=
  let coresPerSocket := nodeinfo.coresPerSocket
  let coreCount := nodeinfo.coreCount
  let threadCount := nodeinfo.threadCount
  -- the last thread is always followed by thread 0
  if next = threadCount - 1 then 0
  else
    let thread := next / coreCount
    let core := next % coreCount
    let socket := core / coresPerSocket
    match strategy with
    | .cycleCores => next + 1
    | .cycleSocketsCycleCores =>
      -- on the last core, move to next thread
      if (next + 1) % coreCount = 0 then (thread + 1) * coreCount
      else
        let virtual := next % coreCount + coresPerSocket
        let virtual := virtual + if virtual ≥ coreCount then 1 else 0
        virtual % coreCount + coreCount * thread
    | .cycleSocketsFillCores =>
      let further := next + coresPerSocket
      let further := further + if further ≥ threadCount then 1 else 0
      further % threadCount
    | .fillSocketsCycleCores =>
      let further := next + 1
      let nextcore := further % coreCount
      let nextsocket := nextcore / coresPerSocket
      if nextsocket > socket ∨ nextcore = 0 then
        -- use next hw thread
        let further := further + (coreCount - coresPerSocket)
        if further / threadCount ≥ 1 then
          further % threadCount + coresPerSocket
        else further
      else further
    | .fillSocketsFillCores =>
      let further := next + coreCount
      if further ≥ threadCount then further % threadCount + 1
      else further

/-- The next `count` results of the iterator. -/
def iterate (strategy : ThreadIterStrategy) (nodeinfo : NodeInfo) : (count next : Nat) → List Nat
  | 0, _ => []
  | count + 1, next => next :: iterate strategy nodeinfo count (iterNext strategy nodeinfo next)

/-- All results of the iterator that starts at `start`. -/
def threadIter (strategy : ThreadIterStrategy) (nodeinfo : NodeInfo) (start : Nat) : List Nat :=
  if start < nodeinfo.threadCount then
    iterate strategy nodeinfo nodeinfo.threadCount start
  else []

/-! ## Where to start -/

inductive NextStartStrategy where
  | cyclicCyclic
  | blockBlock
  | cyclicBlock
  | blockCyclic
  deriving DecidableEq

/-- What `pininfo_t` holds; a missing `lastUsedThread` stands for -1. -/
structure PinInfo where
  usedHwThreads : Nat → Nat
  lastUsedThread : Option Nat
  threadIterStrategy : ThreadIterStrategy
  nextStartStrategy : NextStartStrategy
  tasksPerSocket : Option (Nat → Nat)
  firstThread : Option Nat
  overcommit : Bool
  maxuse : Nat
  threadsPerTask : Nat

/-- The first thread of the next socket (round-robin). -/
def getNextSocketStart (thread : Nat) (nodeinfo : NodeInfo) (respectThread : Bool) : Nat :=
  let ret := (nodeinfo.getSocketByThread thread + 1) % nodeinfo.socketCount *
    nodeinfo.coresPerSocket
  if respectThread then
    ret + nodeinfo.getCorethread thread * nodeinfo.coreCount
  else ret

/-- The first thread of the next core (round-robin). -/
def getNextCoreStart (thread : Nat) (nodeinfo : NodeInfo) : Nat :=
  (nodeinfo.getCore thread + 1) % nodeinfo.coreCount

/-- The iterator of `getNextStartThread()`. -/
def startIter (nodeinfo : NodeInfo) (lastUsedThread : Nat) : NextStartStrategy → List Nat
  | .cyclicCyclic => threadIter .fillSocketsCycleCores nodeinfo
      (getNextSocketStart lastUsedThread nodeinfo false)
  | .blockBlock => threadIter .fillSocketsFillCores nodeinfo lastUsedThread
  | .cyclicBlock => threadIter .fillSocketsFillCores nodeinfo
      (getNextSocketStart lastUsedThread nodeinfo false)
  | .blockCyclic => threadIter .fillSocketsFillCores nodeinfo
      (getNextCoreStart lastUsedThread nodeinfo)

/-- The step may use the thread, and it is not assigned `maxuse` times. -/
def usable (nodeinfo : NodeInfo) (pininfo : PinInfo) (thread : Nat) : Bool :=
  thread ∈ nodeinfo.stepHWthreads ∧ pininfo.usedHwThreads thread < pininfo.maxuse

def socketOpen (nodeinfo : NodeInfo) (pininfo : PinInfo) (thread : Nat) :
    Bool :=
  match pininfo.tasksPerSocket with
  | none => true
  | some tasksPerSocket => tasksPerSocket (nodeinfo.getSocketByThread thread) ≠ 0

/-- The next unused thread to start from; `none` stands for `UINT32_MAX`. -/
def getNextStartThread (nodeinfo : NodeInfo) (pininfo : PinInfo)
    (lastUsedThread : Nat) : Option Nat :=
  (startIter nodeinfo lastUsedThread pininfo.nextStartStrategy).find?
    (fun thread => usable nodeinfo pininfo thread && socketOpen nodeinfo pininfo thread)

/-! ## Selecting threads -/

def lowerThread (nodeinfo : NodeInfo) (pininfo : PinInfo) (thread : Nat) :
    Nat :=
  (((List.range (nodeinfo.getCorethread thread)).map
    (fun t => t * nodeinfo.coreCount + nodeinfo.getCore thread)).find?
      (fun checkthread => pininfo.usedHwThreads checkthread < pininfo.maxuse)).getD thread

/-- The variables of the loop in `getThreadsBinding()`. -/
structure Selection where
  cpuSet : CPUSet
  pininfo : PinInfo
  thread : Option Nat
  threadsLeft : Nat
  usableThreads : Nat

/-- The body of the loop for a thread. -/
def selectThread (nodeinfo : NodeInfo) (selection : Selection) (thread : Nat) : Selection :=
  let pininfo := selection.pininfo
  -- omit cpus not in core map
  if thread ∉ nodeinfo.stepHWthreads then
    { selection with thread := some thread }
  -- omit cpus already assigned
  else if pininfo.usedHwThreads thread ≥ pininfo.maxuse then
    { selection with
      thread := some thread
      usableThreads := selection.usableThreads + 1 }
  else
    let thread := lowerThread nodeinfo pininfo thread
    { cpuSet := setCPU selection.cpuSet thread
      pininfo := { pininfo with
        firstThread :=
          if selection.threadsLeft = pininfo.threadsPerTask then some thread
          else pininfo.firstThread
        usedHwThreads := Function.update pininfo.usedHwThreads thread
          (pininfo.usedHwThreads thread + 1) }
      thread := some thread
      threadsLeft := selection.threadsLeft - 1
      usableThreads := selection.usableThreads + 1 }

def selectLoop (nodeinfo : NodeInfo) : List Nat → Selection → Selection
  | [], selection => selection
  | thread :: rest, selection =>
    if selection.threadsLeft = 0 then selection
    else selectLoop nodeinfo rest (selectThread nodeinfo selection thread)

/-- The CPUs of a task, and whether it was reported to be bound to all. -/
structure Binding where
  cpuSet : CPUSet
  all : Bool

/-- `pinToAllThreads()` with the message to the user. -/
def bindToAll (nodeinfo : NodeInfo) : Binding := { cpuSet := nodeinfo.stepHWthreads, all := true }

/-- The rounds of `getThreadsBinding()`.  With overcommitment every further
round finds a thread, so that there are not more rounds than threads to
find. -/
def bindRounds (nodeinfo : NodeInfo) : (rounds start : Nat) → Selection → Binding × PinInfo
  | 0, _, selection => (bindToAll nodeinfo, selection.pininfo)
  | rounds + 1, start, selection =>
    let selection := selectLoop nodeinfo
      (threadIter selection.pininfo.threadIterStrategy nodeinfo start)
      { selection with usableThreads := 0 }
    let pininfo := { selection.pininfo with lastUsedThread := selection.thread }
    if selection.threadsLeft = 0 then
      ({ cpuSet := selection.cpuSet, all := false }, pininfo)
    -- there are not enough threads left
    else if pininfo.overcommit = false then (bindToAll nodeinfo, pininfo)
    else if selection.usableThreads = 0 then (bindToAll nodeinfo, pininfo)
    else
      -- overbook further
      bindRounds nodeinfo rounds 0 { selection with
        pininfo := { selection.pininfo with
          maxuse := selection.pininfo.maxuse + 1
          lastUsedThread := none } }

/-- `getThreadsBinding()` for an empty CPU set. -/
def getThreadsBinding (nodeinfo : NodeInfo) (pininfo : PinInfo) : Binding × PinInfo :=
  let rounds := pininfo.threadsPerTask + 1
  let select (start : Nat) (pininfo : PinInfo) :=
    bindRounds nodeinfo rounds start {
      cpuSet := ∅
      pininfo := pininfo
      thread := none
      threadsLeft := pininfo.threadsPerTask
      usableThreads := 0 }
  if pininfo.threadsPerTask = 0 then ({ cpuSet := ∅, all := false }, pininfo)
  else
    match pininfo.lastUsedThread with
    | none => select 0 pininfo
    | some lastUsedThread =>
      match getNextStartThread nodeinfo pininfo lastUsedThread with
      | some start => select start pininfo
      | none =>
        if pininfo.overcommit = false then (bindToAll nodeinfo, pininfo)
        else
          -- overbook further
          select 0 { pininfo with
            maxuse := pininfo.maxuse + 1
            lastUsedThread := none }

/-! ## The tasks of a node -/

/-- How `setStepSlots()` initializes the pinning information of a node. -/
def initPinInfo (threadIterStrategy : ThreadIterStrategy)
    (nextStartStrategy : NextStartStrategy) (threadsPerTask : Nat) :
    PinInfo :=
  { usedHwThreads := fun _ => 0
    lastUsedThread := none
    threadIterStrategy := threadIterStrategy
    nextStartStrategy := nextStartStrategy
    tasksPerSocket := none
    firstThread := none
    overcommit := false
    maxuse := 1
    threadsPerTask := threadsPerTask }

/-- The bindings of tasks that are pinned one after the other, each with the
pinning information it was made from. -/
def pinTasks (nodeinfo : NodeInfo) : (tasks : Nat) → PinInfo → List (PinInfo × Binding)
  | 0, _ => []
  | tasks + 1, pininfo =>
    (pininfo, (getThreadsBinding nodeinfo pininfo).1) ::
      pinTasks nodeinfo tasks (getThreadsBinding nodeinfo pininfo).2

end Psmgmt.Slurm.Pin
