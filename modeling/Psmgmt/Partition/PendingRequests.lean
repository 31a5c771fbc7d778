import Psmgmt.Partition.Creation

/-!
# Handling pending requests

`getPartition()` and `handlePartRequests()` of the master daemon.  Requests are
known by their addresses.
-/

namespace Psmgmt.PartHandler

open Partition Function

/-- The part of `nodeStat_t` that follows the running requests. -/
structure NodeStat where
  assgndThrds : Int
  exclusive : Bool
  cpuSet : CPUSet
  deriving DecidableEq

/-- The master daemon's requests.  `registered` holds the requests counted in
`nodeStat`, `gone` those that were deleted. -/
structure Handler where
  request : Nat → PartRequest
  pendReq : List Nat
  runReq : List Nat
  suspReq : List Nat
  nodeStat : Option (Nat → NodeStat)
  pendingTaskReq : Nat
  doHandle : Bool
  doCleanup : Bool
  answers : List (TaskId × Nat)
  registered : List Nat
  gone : List Nat

def enospc : Nat := 28
def eagain : Nat := 11
def enomem : Nat := 12
def ebusy : Nat := 16

/-- What is decided elsewhere: `candidates` is the list `getCandidateList()`
finds, sorted as the request asks for, or its error; `sendFragMsg` is the error
of sending the partition of a request, if any. -/
structure World where
  nodes : Nodes
  exclusive : Nat → Bool
  nrOfNodes : Nat
  nodesMalloc : Nat → Bool
  candidates : Handler → PartRequest → Except Nat SortList
  memory : Nat → Memory
  sendFragMsg : Nat → Option Nat

/-! ## Queues and resources -/

def Handler.setRequest (id : Nat) (req : PartRequest) (state : Handler) :
    Handler :=
  { state with request := update state.request id req }

def findPart (state : Handler) (queue : List Nat) (tid : TaskId) : Option Nat :=
  queue.find? (fun id => (state.request id).tid = tid)

/-- The queue without the request, or `none` if it is not removed. -/
def deqPart (state : Handler) (queue : List Nat) (part : Nat) : Option (List Nat) :=
  match findPart state queue (state.request part).tid with
  | none => none
  | some id => if id ≠ part then none else some (queue.erase part)

def delReq (id : Nat) (state : Handler) : Handler := { state with gone := id :: state.gone }

/-- The resources of one slot are counted. -/
def allocSlot (world : World) (options : PartOptions)
    (nodeStat : Nat → NodeStat) (slot : Slot) : Nat → NodeStat :=
  let stat := nodeStat slot.node
  update nodeStat slot.node
    { assgndThrds :=
        int16 (stat.assgndThrds + (getCPUs slot.cpuSet cpuMax).2)
      exclusive :=
        if options.exclusive ∧ world.exclusive slot.node then true
        else stat.exclusive
      cpuSet := stat.cpuSet ∪ slot.cpuSet }

/-- The resources of one slot are given back. -/
def freeSlot (options : PartOptions) (nodeStat : Nat → NodeStat) (slot : Slot) : Nat → NodeStat :=
  let stat := nodeStat slot.node
  let assgndThrds := int16 (stat.assgndThrds - (getCPUs slot.cpuSet cpuMax).2)
  update nodeStat slot.node
    { assgndThrds := assgndThrds
      exclusive :=
        if options.exclusive ∧ assgndThrds = 0 then false else stat.exclusive
      cpuSet := stat.cpuSet \ slot.cpuSet }

def registerReq (world : World) (id : Nat) (state : Handler) : Handler :=
  let req := state.request id
  match req.slots, state.nodeStat with
  | some slots, some nodeStat =>
    if req.size = 0 then state
    else
      { state with
        nodeStat := some ((slots.take req.size).foldl (allocSlot world req.options) nodeStat)
        registered := id :: state.registered }
  | _, _ => state

def unregisterReq (id : Nat) (state : Handler) : Handler :=
  let req := state.request id
  match req.slots, state.nodeStat with
  | some slots, some nodeStat =>
    if req.size = 0 then state
    else
      { state with
        nodeStat := some ((slots.take req.size).foldl (freeSlot req.options) nodeStat)
        registered := state.registered.erase id
        doHandle := true }
  | _, _ => state

def jobFinished (id : Nat) (state : Handler) : Handler :=
  let state :=
    if !(state.request id).freed then unregisterReq id state else state
  let state :=
    match deqPart state state.runReq id with
    | some queue => { state with runReq := queue }
    | none =>
      match deqPart state state.suspReq id with
      | some queue => { state with suspReq := queue }
      | none => state
  delReq id state

/-! ## Cleaning up -/

def cleanupRunning : List Nat → Handler → Handler
  | [], state => state
  | id :: rest, state =>
    if (state.request id).deleted then
      cleanupRunning rest (jobFinished id state)
    else cleanupRunning rest state

/-- A request is dequeued, if possible, and deleted. -/
def discard (id : Nat) (state : Handler) : Handler :=
  match deqPart state state.pendReq id with
  | some queue => delReq id { state with pendReq := queue }
  | none => delReq id state

def cleanupPending : List Nat → Handler → Handler
  | [], state => state
  | id :: rest, state =>
    if (state.request id).deleted then
      cleanupPending rest (discard id state)
    else cleanupPending rest state

def cleanupReqQueues (state : Handler) : Handler :=
  let state := cleanupRunning state.runReq state
  let state := cleanupPending state.pendReq state
  { state with doCleanup := false }

/-! ## Creating partitions -/

section Handling

variable (world : World)

def fetchNodes (id : Nat) (req : PartRequest) : Except Nat PartRequest :=
  if req.num = 0 then
    if world.nodesMalloc id then
      .ok { req with
        num := world.nrOfNodes, nodes := some (List.range world.nrOfNodes) }
    else .error enomem
  else .ok req

/-- A partition is searched for: the error, if any, and the request. -/
def allocate (id : Nat) (state : Handler) : Option Nat × PartRequest :=
  let req := state.request id
  match fetchNodes world id req with
  | .error errno => (some errno, { req with nodes := none })
  | .ok req =>
    let req :=
      if req.options.fullList then { req with tpp := 1 } else req
    match world.candidates state req with
    | .error errno => (some errno, req)
    | .ok candidates =>
      if candidates.entry.length = 0 then (some eagain, req)
      else
        let req :=
          if req.options.fullList then
            { req with size := candidates.entry.length }
          else req
        let numExpected := int32 req.size
        let cpuSets := fun node =>
          match state.nodeStat with
          | some nodeStat => (nodeStat node).cpuSet
          | none => ∅
        let (result, req) := createPartition world.nodes cpuSets (world.memory id) req candidates
        if result < numExpected then (some eagain, req) else (none, req)

/-- `getPartition()`; `none` stands for success. -/
def getPartition (id : Nat) (state : Handler) : Option Nat × Handler :=
  let (failed, req) := allocate world id state
  let state := state.setRequest id req
  match failed with
  | some errno => (some errno, state)
  | none =>
    match deqPart state state.pendReq id with
    | none => (some ebusy, state)
    | some queue =>
      let state := { state with pendReq := queue }
      let state := state.setRequest id { req with nodes := none }
      let state := { state with runReq := state.runReq ++ [id] }
      let state := registerReq world id state
      (world.sendFragMsg id, state)

/-- A request that got no partition is answered and deleted. -/
def refuse (id errno : Nat) (state : Handler) : Handler :=
  let errno := if (deqPart state state.pendReq id).isNone then ebusy else errno
  discard id { state with
    answers := state.answers ++ [((state.request id).tid, errno)] }

/-- Whether a failure ends the loop with the request left as it is. -/
def waits (req : PartRequest) (errno : Nat) : Bool := req.options.wait && errno != enospc

/-- One round of the loop, and whether it is the last one. -/
def handleRequest (id : Nat) (state : Handler) : Bool × Handler :=
  let (failed, state) := getPartition world id state
  match failed with
  | none => (false, state)
  | some errno =>
    if waits (state.request id) errno then (true, state)
    else (false, refuse id errno state)

/-- The loop over the pending requests.  It is not followed any further once it
would use a deleted request. -/
def handleLoop : List Nat → Handler → Handler
  | [], state => state
  | id :: rest, state =>
    if id ∈ state.gone then state
    else
      let (last, state) := handleRequest world id state
      if last then state else handleLoop rest state

def handlePartRequests (state : Handler) : Handler :=
  let state := if state.doCleanup then cleanupReqQueues state else state
  if state.nodeStat.isNone ∨ state.pendingTaskReq ≠ 0 ∨ !state.doHandle then
    state
  else handleLoop world state.pendReq { state with doHandle := false }

end Handling

/-! ## The state of a request -/

/-- A request that waits for a partition. -/
structure Pending (state : Handler) (id : Nat) : Prop where
  queued : id ∈ state.pendReq
  notRunning : id ∉ state.runReq
  notSuspended : id ∉ state.suspReq
  notRegistered : id ∉ state.registered
  alive : id ∉ state.gone

/-- A request that holds a partition; one without slots has none to count. -/
structure Running (state : Handler) (id : Nat) : Prop where
  queued : id ∈ state.runReq
  notPending : id ∉ state.pendReq
  notSuspended : id ∉ state.suspReq
  registered : id ∈ state.registered ∨ (state.request id).size = 0
  alive : id ∉ state.gone

structure Deleted (state : Handler) (id : Nat) : Prop where
  gone : id ∈ state.gone
  notPending : id ∉ state.pendReq
  notRunning : id ∉ state.runReq
  notSuspended : id ∉ state.suspReq
  notRegistered : id ∉ state.registered

/-- A request is handled as a whole or not at all. -/
def Handled (state : Handler) (id : Nat) : Prop :=
  Pending state id ∨ Running state id ∨ Deleted state id

/-! ## The branches that go wrong -/

/-- A request is the first pending one of its task. -/
def Foremost (state : Handler) (id : Nat) : Prop :=
  findPart state state.pendReq (state.request id).tid = some id

/-- Handling a pending request goes wrong: one that is not the first of its task
is refused, or one with a partition lacks the slots, or it is refused because
its partition could not be sent. -/
def Slips (world : World) (state : Handler) (id : Nat) : Prop :=
  let (failed, req) := allocate world id state
  match failed with
  | some errno => waits req errno = false ∧ ¬ Foremost state id
  | none =>
    if findPart state state.pendReq req.tid ≠ some id then
      waits req ebusy = false
    else
      (req.size ≠ 0 ∧ req.slots = none) ∨
        ∃ errno, world.sendFragMsg id = some errno ∧ waits req errno = false

def LoopSound (world : World) : List Nat → Handler → Prop
  | [], _ => True
  | id :: rest, state =>
    ¬ Slips world state id ∧
      ((handleRequest world id state).1 = false →
        LoopSound world rest (handleRequest world id state).2)

/-- Each request marked for deletion is the first of its task. -/
def CleanupSound : List Nat → Handler → Prop
  | [], _ => True
  | id :: rest, state =>
    if (state.request id).deleted then
      Foremost state id ∧ CleanupSound rest (discard id state)
    else CleanupSound rest state

def afterRunning (state : Handler) : Handler := cleanupRunning state.runReq state

/-- No branch that goes wrong is taken while requests are handled. -/
def Sound (world : World) (state : Handler) : Prop :=
  (state.doCleanup = true → CleanupSound (afterRunning state).pendReq (afterRunning state)) ∧
  (let cleaned := if state.doCleanup then cleanupReqQueues state else state
   ¬ (cleaned.nodeStat.isNone ∨ cleaned.pendingTaskReq ≠ 0 ∨ !cleaned.doHandle) →
    LoopSound world cleaned.pendReq { cleaned with doHandle := false })

end Psmgmt.PartHandler
