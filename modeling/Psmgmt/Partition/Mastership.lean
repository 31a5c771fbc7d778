import Psmgmt.Library.Transition

/-!
# The master and the partitions it knows

A daemon that becomes master asks each node that is up for the partitions its
tasks hold.  The model is one daemon with the channels to and from the nodes;
what the other daemons do among each other is left open.  `Slots` is what a
partition consists of.
-/

namespace Psmgmt.Mastership

open Function

variable {Slots : Type*}

/-- A request in the queue `runReq` or `suspReq`. -/
structure Request (Slots : Type*) where
  node : Nat
  pid : Nat
  slots : Slots
  suspended : Bool
  freed : Bool
  deleted : Bool

/-- A request in the queue `pendReq`. -/
structure Pending where
  node : Nat
  pid : Nat
  wait : Bool
  deleted : Bool

/-- What the daemon keeps: the master as it knows it, the nodes that are up, the
numbers of pending PSP_DD_GETTASKS messages, and the queues. -/
structure Daemon (Slots : Type*) where
  knowMaster : Bool
  masterNode : Nat
  isUp : Nat → Bool
  nodeStat : Option (Nat → Nat)
  pendingTaskReq : Int
  doHandle : Bool
  doCleanup : Bool
  pendReq : List Pending
  runReq : List (Request Slots)
  suspReq : List (Request Slots)

/-- Messages of a node about its tasks. -/
inductive FromNode (Slots : Type*) where
  | provideTask (pid : Nat) (slots : Slots) (suspended : Bool)
  | endOfTasks
  | taskDead (pid : Nat)
  | taskSuspend (pid : Nat)
  | taskResume (pid : Nat)
  | createPart (pid : Nat) (wait : Bool)
  | cancelPart (pid : Nat)

inductive ToNode (Slots : Type*) where
  | getTasks
  | providePart (pid : Nat) (slots : Slots)

/-! ## Asking the nodes -/

/-- `send_GETTASKS()`, with the nodes the message goes to. -/
def sendGETTASKS (daemon : Daemon Slots) (node : Nat) : Daemon Slots × List Nat :=
  match daemon.nodeStat with
  | none => (daemon, [])
  | some stat =>
    if daemon.isUp node = false then (daemon, [])
    else if stat node ≠ 0 then (daemon, [])
    else
      ({ daemon with
          nodeStat := some (update stat node (stat node + 1))
          pendingTaskReq := daemon.pendingTaskReq + 1 }, [node])

/-- The loop of `initPartHandler()`. -/
def initNodes : List Nat → Daemon Slots → Daemon Slots × List Nat
  | [], daemon => (daemon, [])
  | node :: nodes, daemon =>
    let cleared : Daemon Slots :=
      { daemon with
        nodeStat := daemon.nodeStat.map fun stat => update stat node 0 }
    let sent :=
      if cleared.isUp node then sendGETTASKS cleared node else (cleared, [])
    let rest := initNodes nodes sent.1
    (rest.1, sent.2 ++ rest.2)

def initPartHandler (nrOfNodes : Nat) (daemon : Daemon Slots) : Daemon Slots × List Nat :=
  initNodes (List.range nrOfNodes)
    { daemon with
      nodeStat := some (daemon.nodeStat.getD fun _ => 0)
      pendingTaskReq := 0 }

def exitPartHandler (daemon : Daemon Slots) : Daemon Slots :=
  { daemon with pendReq := [], runReq := [], suspReq := [], nodeStat := none }

def cleanupRequests (daemon : Daemon Slots) (node : Nat) : Daemon Slots :=
  let marked : Daemon Slots :=
    { daemon with
      runReq := daemon.runReq.map fun req =>
        if req.node = node then { req with deleted := true } else req
      pendReq := daemon.pendReq.map fun req =>
        if req.node = node then { req with deleted := true } else req
      doCleanup := true }
  match daemon.nodeStat with
  | none => marked
  | some stat =>
    { marked with
      pendingTaskReq := daemon.pendingTaskReq - stat node
      nodeStat := some (update stat node 0) }

/-! ## Who is master -/

def declareMaster (nrOfNodes me : Nat) (daemon : Daemon Slots)
    (newMaster : Nat) : Daemon Slots × List Nat :=
  if daemon.knowMaster = true ∧ newMaster = daemon.masterNode then (daemon, [])
  else
    let left :=
      if daemon.knowMaster = true ∧ daemon.masterNode = me then
        exitPartHandler daemon
      else daemon
    let declared : Daemon Slots := { left with masterNode := newMaster, knowMaster := true }
    if newMaster = me then initPartHandler nrOfNodes declared
    else (declared, [])

/-- A node that comes up may be the new master. -/
def masterOnAlive (nrOfNodes me : Nat) (daemon : Daemon Slots) (id : Nat) :
    Daemon Slots × List Nat :=
  if daemon.knowMaster = false then
    if id < me then declareMaster nrOfNodes me daemon id
    else if me < id then declareMaster nrOfNodes me daemon me
    else (daemon, [])
  else if id < daemon.masterNode then declareMaster nrOfNodes me daemon id
  else (daemon, [])

def declareNodeAlive (nrOfNodes me : Nat) (daemon : Daemon Slots)
    (id : Nat) : Daemon Slots × List Nat :=
  let wasUp := daemon.isUp id
  let declared := masterOnAlive nrOfNodes me { daemon with isUp := update daemon.isUp id true } id
  if declared.1.masterNode = me ∧ wasUp = false then
    let sent := sendGETTASKS declared.1 id
    (sent.1, declared.2 ++ sent.2)
  else declared

/-- The first node from `node` on that is up, at most `me`. -/
def nextMaster (isUp : Nat → Bool) (me : Nat) : Nat → Nat → Nat
  | 0, node => node
  | fuel + 1, node =>
    if node < me then
      if isUp node then node else nextMaster isUp me fuel (node + 1)
    else node

def declareNodeDead (nrOfNodes me : Nat) (daemon : Daemon Slots) (id : Nat) :
    Daemon Slots × List Nat :=
  if daemon.isUp id = false then (daemon, [])
  else
    let lowered : Daemon Slots := { daemon with isUp := update daemon.isUp id false }
    if id = lowered.masterNode then
      declareMaster nrOfNodes me lowered (nextMaster lowered.isUp me me id)
    else if me = lowered.masterNode then (cleanupRequests lowered id, [])
    else (lowered, [])

/-! ## Messages of the nodes -/

def isTask (node pid : Nat) (req : Request Slots) : Bool := req.node = node && req.pid = pid

/-- Remove the partition found first for a task. -/
def deqPart (queue : List (Request Slots)) (node pid : Nat) : List (Request Slots) :=
  queue.eraseP (isTask node pid)

def findPart (queue : List (Request Slots)) (node pid : Nat) : Option (Request Slots) :=
  queue.find? (isTask node pid)

def taskDead (daemon : Daemon Slots) (node pid : Nat) : Daemon Slots :=
  match daemon.nodeStat with
  | none => daemon
  | some _ =>
    match findPart daemon.runReq node pid with
    | some req =>
      { daemon with
        runReq := deqPart daemon.runReq node pid
        doHandle := daemon.doHandle || !req.freed }
    | none =>
      match findPart daemon.suspReq node pid with
      | some req =>
        { daemon with
          suspReq := deqPart daemon.suspReq node pid
          doHandle := daemon.doHandle || !req.freed }
      | none => daemon

def taskSuspend (freeOnSuspend : Bool) (daemon : Daemon Slots) (node pid : Nat) : Daemon Slots :=
  match daemon.nodeStat, findPart daemon.runReq node pid with
  | some _, some req =>
    { daemon with
      runReq := deqPart daemon.runReq node pid
      suspReq := daemon.suspReq ++ [{ req with
        freed := req.freed || freeOnSuspend }]
      doHandle := daemon.doHandle || freeOnSuspend }
  | _, _ => daemon

def taskResume (daemon : Daemon Slots) (node pid : Nat) : Daemon Slots :=
  match daemon.nodeStat, findPart daemon.suspReq node pid with
  | some _, some req =>
    { daemon with
      suspReq := deqPart daemon.suspReq node pid
      runReq := daemon.runReq ++ [{ req with freed := false }] }
  | _, _ => daemon

/-- The request that a provided one replaces is removed. -/
def removeOld (daemon : Daemon Slots) (req : Request Slots) : Daemon Slots :=
  match findPart daemon.runReq req.node req.pid with
  | some old =>
    { daemon with
      runReq := deqPart daemon.runReq req.node req.pid
      doHandle := daemon.doHandle || !old.freed }
  | none =>
    if req.suspended then
      match findPart daemon.suspReq req.node req.pid with
      | some old =>
        { daemon with
          suspReq := deqPart daemon.suspReq req.node req.pid
          doHandle := daemon.doHandle || !old.freed }
      | none => daemon
    else daemon

/-- `handleMasterPart()` -/
def masterPart (freeOnSuspend : Bool) (daemon : Daemon Slots)
    (req : Request Slots) : Daemon Slots :=
  let removed := removeOld daemon req
  if req.suspended then
    { removed with
      suspReq := removed.suspReq ++ [{ req with freed := freeOnSuspend }] }
  else { removed with runReq := removed.runReq ++ [req] }

/-- The 'end of tasks' branch of `handleProvideTask()`. -/
def endOfTasks (daemon : Daemon Slots) (node : Nat) : Daemon Slots :=
  match daemon.nodeStat with
  | none => daemon
  | some stat =>
    { daemon with
      nodeStat := some (update stat node 0)
      pendingTaskReq := daemon.pendingTaskReq - stat node
      doHandle := if daemon.pendingTaskReq - stat node = 0 then true
        else daemon.doHandle }

/-- The new partition of a granted request. -/
def granted (req : Pending) (slots : Slots) : Request Slots :=
  { node := req.node, pid := req.pid, slots, suspended := false,
    freed := false, deleted := false }

/-- `handleCreatePart()`, where `choice` is the partition found, if any. -/
def createPart (daemon : Daemon Slots) (req : Pending)
    (choice : Option Slots) : Daemon Slots × List (Request Slots) :=
  if req.wait = true ∨ daemon.pendingTaskReq ≠ 0 then
    ({ daemon with pendReq := daemon.pendReq ++ [req], doHandle := true }, [])
  else
    match choice with
    | none => (daemon, [])
    | some slots =>
      ({ daemon with runReq := daemon.runReq ++ [granted req slots] }, [granted req slots])

/-- A message of `node`, with the partitions created at once. -/
def receive (freeOnSuspend : Bool) (me : Nat) (daemon : Daemon Slots)
    (node : Nat) (choice : Option Slots) :
    FromNode Slots → Daemon Slots × List (Request Slots)
  | .provideTask pid slots suspended =>
    if daemon.knowMaster = true ∧ me = daemon.masterNode then
      (masterPart freeOnSuspend daemon
        { node, pid, slots, suspended, freed := false, deleted := false }, [])
    else (daemon, [])
  | .endOfTasks =>
    if daemon.knowMaster = true ∧ me = daemon.masterNode then
      (endOfTasks daemon node, [])
    else (daemon, [])
  | .taskDead pid => (taskDead daemon node pid, [])
  | .taskSuspend pid => (taskSuspend freeOnSuspend daemon node pid, [])
  | .taskResume pid => (taskResume daemon node pid, [])
  | .createPart pid wait =>
    if daemon.knowMaster = true ∧ me = daemon.masterNode then
      createPart daemon { node, pid, wait, deleted := false } choice
    else (daemon, [])
  | .cancelPart pid =>
    match daemon.nodeStat with
    | none => (daemon, [])
    | some _ =>
      ({ daemon with
          pendReq := daemon.pendReq.eraseP fun req => req.node = node && req.pid = pid }, [])

/-! ## Creating partitions -/

def cleanupReqQueues (daemon : Daemon Slots) : Daemon Slots :=
  { daemon with
    runReq := daemon.runReq.filter fun req => !req.deleted
    pendReq := daemon.pendReq.filter fun req => !req.deleted
    doHandle := daemon.doHandle
      || daemon.runReq.any fun req => req.deleted && !req.freed
    doCleanup := false }

/-- The requests granted and those left.  `choice` is the partition found for a
request, `stop` tells whether a request that waits ends the loop. -/
def grantRequests (choice : Pending → Option Slots) (stop : Pending → Bool) :
    List Pending → List (Request Slots) × List Pending
  | [] => ([], [])
  | req :: reqs =>
    match choice req with
    | some slots =>
      let rest := grantRequests choice stop reqs
      (granted req slots :: rest.1, rest.2)
    | none =>
      if req.wait && stop req then ([], req :: reqs)
      else grantRequests choice stop reqs

/-- `handlePartRequests()`, with the partitions it creates. -/
def handlePartRequests (choice : Pending → Option Slots)
    (stop : Pending → Bool) (daemon : Daemon Slots) :
    Daemon Slots × List (Request Slots) :=
  let cleaned :=
    if daemon.doCleanup then cleanupReqQueues daemon else daemon
  if cleaned.nodeStat.isNone ∨ cleaned.pendingTaskReq ≠ 0 ∨ cleaned.doHandle = false then
    (cleaned, [])
  else
    let result := grantRequests choice stop cleaned.pendReq
    ({ cleaned with
        doHandle := false
        pendReq := result.2
        runReq := cleaned.runReq ++ result.1 }, result.1)

/-! ## The daemon among the nodes -/

/-- The daemon, its channels, the partitions the tasks on each node hold by
process ID, and those of them the node held when it was last asked. -/
structure Net (Slots : Type*) where
  daemon : Daemon Slots
  toNode : Nat → List (ToNode Slots)
  fromNode : Nat → List (FromNode Slots)
  held : Nat → List (Nat × Slots)
  asked : Nat → List (Nat × Slots)

/-- A change of the daemon that sends PSP_DD_GETTASKS to some nodes. -/
def Net.ask (net : Net Slots) (result : Daemon Slots × List Nat) : Net Slots :=
  { net with
    daemon := result.1
    toNode := fun node =>
      if node ∈ result.2 then net.toNode node ++ [.getTasks]
      else net.toNode node
    asked := fun node => if node ∈ result.2 then net.held node else net.asked node }

/-- A change of the daemon that creates partitions. -/
def Net.create (net : Net Slots) (result : Daemon Slots × List (Request Slots)) : Net Slots :=
  { net with
    daemon := result.1
    toNode := fun node => net.toNode node
      ++ (result.2.filter fun req => req.node = node).map fun req =>
        .providePart req.pid req.slots }

/-- `msg_GETTASKS()` on a node: all partitions, with the flags of their tasks,
the requests if they go to this daemon, and the end of tasks. -/
def answer (held : List (Nat × Slots)) (suspended : Nat → Bool)
    (requests : List (Nat × Bool)) : List (FromNode Slots) :=
  held.map (fun part => .provideTask part.1 part.2 (suspended part.1)) ++ requests.map
    (fun request => .createPart request.1 request.2) ++ [.endOfTasks]

def Net.send (net : Net Slots) (node : Nat) (msgs : List (FromNode Slots)) : Net Slots :=
  { net with
    fromNode := update net.fromNode node (net.fromNode node ++ msgs) }

/-- A partition starts to be held. -/
def Net.hold (net : Net Slots) (node pid : Nat) (slots : Slots) : Net Slots :=
  { net with
    held := update net.held node (net.held node ++ [(pid, slots)]) }

/-- The partition of a process is given up or replaced. -/
def Net.drop (net : Net Slots) (node pid : Nat) : Net Slots :=
  { net with
    held := update net.held node ((net.held node).filter fun part => part.1 ≠ pid)
    asked := update net.asked node ((net.asked node).filter fun part => part.1 ≠ pid) }

/-- The steps, each with the nodes that are sent PSP_DD_GETTASKS in it. -/
inductive NetStep (nrOfNodes me : Nat) (freeOnSuspend : Bool) :
    Net Slots → List Nat → Net Slots → Prop where
  /-- Another daemon tells who is master. -/
  | master {net : Net Slots} (newMaster : Nat) :
      NetStep nrOfNodes me freeOnSuspend net (declareMaster nrOfNodes me net.daemon newMaster).2
        (net.ask (declareMaster nrOfNodes me net.daemon newMaster))
  | alive {net : Net Slots} {id : Nat} (valid : id < nrOfNodes) :
      NetStep nrOfNodes me freeOnSuspend net (declareNodeAlive nrOfNodes me net.daemon id).2
        (net.ask (declareNodeAlive nrOfNodes me net.daemon id))
  | dead {net : Net Slots} {id : Nat} (other : id ≠ me) :
      NetStep nrOfNodes me freeOnSuspend net (declareNodeDead nrOfNodes me net.daemon id).2
        (net.ask (declareNodeDead nrOfNodes me net.daemon id))
  /-- The action of the main loop. -/
  | handle {net : Net Slots} (choice : Pending → Option Slots)
      (stop : Pending → Bool) :
      NetStep nrOfNodes me freeOnSuspend net []
        (net.create (handlePartRequests choice stop net.daemon))
  /-- The daemon receives a message of a node. -/
  | receive {net : Net Slots} {node : Nat} {msg : FromNode Slots} {rest : List (FromNode Slots)}
      (choice : Option Slots) (head : net.fromNode node = msg :: rest) :
      NetStep nrOfNodes me freeOnSuspend net []
        ({ net with
            fromNode := update net.fromNode node rest }.create
          (receive freeOnSuspend me net.daemon node choice msg))
  /-- A node answers PSP_DD_GETTASKS. -/
  | answer {net : Net Slots} {node : Nat} {rest : List (ToNode Slots)} (suspended : Nat → Bool)
      (requests : List (Nat × Bool)) (head : net.toNode node = .getTasks :: rest) :
      NetStep nrOfNodes me freeOnSuspend net []
        ({ net with
            toNode := update net.toNode node rest }.send node
          (answer (net.held node) suspended requests))
  /-- A node takes a partition for a task that holds none. -/
  | accept {net : Net Slots} {node pid : Nat} {slots : Slots} {rest : List (ToNode Slots)}
      (head : net.toNode node = .providePart pid slots :: rest)
      (free : ∀ part ∈ net.held node, part.1 ≠ pid) :
      NetStep nrOfNodes me freeOnSuspend net []
        ({ net with
            toNode := update net.toNode node rest }.hold node pid slots)
  /-- Or finds no task for it. -/
  | refuse {net : Net Slots} {node pid : Nat} {slots : Slots} {rest : List (ToNode Slots)}
      (head : net.toNode node = .providePart pid slots :: rest) :
      NetStep nrOfNodes me freeOnSuspend net [] { net with toNode := update net.toNode node rest }
  /-- A task gets a partition some other way, as from another master. -/
  | hold {net : Net Slots} {node pid : Nat} {slots : Slots}
      (free : ∀ part ∈ net.held node, part.1 ≠ pid) :
      NetStep nrOfNodes me freeOnSuspend net [] (net.hold node pid slots)
  /-- A task's partition is extended, which its master is told. -/
  | extend {net : Net Slots} {node pid : Nat} {slots : Slots} {msgs : List (FromNode Slots)}
      (told : msgs = [] ∨ ∃ suspended, msgs = [.provideTask pid slots suspended]) :
      NetStep nrOfNodes me freeOnSuspend net []
        (((net.drop node pid).hold node pid slots).send node msgs)
  /-- A task ends, which its master is told. -/
  | finish {net : Net Slots} {node pid : Nat} {msgs : List (FromNode Slots)}
      (told : msgs = [] ∨ msgs = [.taskDead pid]) :
      NetStep nrOfNodes me freeOnSuspend net [] ((net.drop node pid).send node msgs)
  /-- A message about a task without partition, as one sent again. -/
  | late {net : Net Slots} {node pid : Nat}
      (free : ∀ part ∈ net.held node, part.1 ≠ pid) :
      NetStep nrOfNodes me freeOnSuspend net [] (net.send node [.taskDead pid])
  | suspend {net : Net Slots} {node pid : Nat} :
      NetStep nrOfNodes me freeOnSuspend net [] (net.send node [.taskSuspend pid])
  | resume {net : Net Slots} {node pid : Nat} :
      NetStep nrOfNodes me freeOnSuspend net [] (net.send node [.taskResume pid])
  | request {net : Net Slots} {node pid : Nat} {wait : Bool} :
      NetStep nrOfNodes me freeOnSuspend net [] (net.send node [.createPart pid wait])
  | cancel {net : Net Slots} {node pid : Nat} :
      NetStep nrOfNodes me freeOnSuspend net [] (net.send node [.cancelPart pid])
  /-- The connection to a node is lost with all that is under way. -/
  | reset {net : Net Slots} {node : Nat} : NetStep nrOfNodes me freeOnSuspend net []
        { net with
          toNode := update net.toNode node []
          fromNode := update net.fromNode node [] }

def Net.start : Net Slots :=
  { daemon :=
      { knowMaster := false, masterNode := 0, isUp := fun _ => false,
        nodeStat := none, pendingTaskReq := 0, doHandle := false,
        doCleanup := false, pendReq := [], runReq := [], suspReq := [] }
    toNode := fun _ => []
    fromNode := fun _ => []
    held := fun _ => []
    asked := fun _ => [] }

/-- All runs of the daemon among the nodes. -/
def netSystem (Slots : Type*) (nrOfNodes me : Nat) (freeOnSuspend : Bool) :
    TransitionSystem (Net Slots) where
  initial := fun net => net = Net.start
  step := fun before after => ∃ asked, NetStep nrOfNodes me freeOnSuspend before asked after

/-- No PSP_DD_GETTASKS to this node and no end of its answer is under way. -/
def Quiet (net : Net Slots) (node : Nat) : Prop :=
  (∀ msg ∈ net.toNode node, msg ≠ .getTasks) ∧ ∀ msg ∈ net.fromNode node, msg ≠ .endOfTasks

/-- The runs in which a node is asked only when no earlier round is left. -/
def quietSystem (Slots : Type*) (nrOfNodes me : Nat) (freeOnSuspend : Bool) :
    TransitionSystem (Net Slots) where
  initial := fun net => net = Net.start
  step := fun before after =>
    ∃ asked, NetStep nrOfNodes me freeOnSuspend before asked after
      ∧ ∀ node ∈ asked, Quiet before node

/-- A partition is registered: a request of its task in one of the queues has
its slots and is not marked to be removed. -/
def Registered (daemon : Daemon Slots) (node : Nat) (part : Nat × Slots) :
    Prop :=
  ∃ req ∈ daemon.runReq ++ daemon.suspReq, req.node = node
    ∧ req.pid = part.1 ∧ req.slots = part.2 ∧ req.deleted = false

/-- Whenever `handlePartRequests()` creates a partition, the partitions each node
that is up has held since it was last asked are registered. -/
def KnowsAll (net : Net Slots) : Prop :=
  ∀ choice stop, (handlePartRequests choice stop net.daemon).2 ≠ [] →
    ∀ node, net.daemon.isUp node = true → ∀ part ∈ net.asked node,
      Registered (handlePartRequests choice stop net.daemon).1 node part

/-- The pending messages are counted right and never negative. -/
def CountsRight (nrOfNodes : Nat) (daemon : Daemon Slots) : Prop :=
  0 ≤ daemon.pendingTaskReq ∧ ∀ stat, daemon.nodeStat = some stat →
      daemon.pendingTaskReq = ((Finset.range nrOfNodes).sum stat : Nat)

end Psmgmt.Mastership
