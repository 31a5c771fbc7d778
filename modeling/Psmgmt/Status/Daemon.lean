import Psmgmt.Library.Transition
import Psmgmt.Serial.Message

/-!
# Node states and the master

A transcription of `psidstatus.c` and of the daemon's RDP callback, without
multicast.  What RDP does while a message is sent, and which stored messages are
dropped, is taken from the environment; messages to the own node are handled at
once.  Timers can always be registered and memory can be allocated.  Load
values, scripts and what other modules do about tasks of a node are left out;
the messages other modules send are part of the environment.
-/

namespace Psmgmt.Status

open Function

/-- The messages between daemons that matter here.  Truncated ones lack their
content. -/
inductive Message where
  | daemonConnect (sender : Nat)
  | daemonEstablished (sender : Nat) (complete : Bool)
  | daemonShutdown (sender : Nat)
  | masterIs (sender : Nat) (master : Option Nat)
  | activeNodes (sender : Nat) (nodes : List Nat)
  | deadNode (dead : Option Nat)
  | load (sender : Nat) (clientNodes : Int)
  | other
  deriving DecidableEq, Repr

inductive Errno where
  | hostunreach | connrefused | pipe | nobufs | wouldblock | other
  deriving DecidableEq, Repr

/-- What RDP tells the daemon: a new or a lost connection, or a
`PSP_DD_DAEMONCONNECT` message to be dropped. -/
inductive RdpEvent where
  | newConnection (node : Nat)
  | lostConnection (node : Nat)
  | dropConnect (dest : Nat)
  deriving DecidableEq, Repr

/-- Calls into this module while it sends. -/
inductive Upcall where
  | rdp (event : RdpEvent)
  | handle (message : Message)
  deriving DecidableEq, Repr

/-- The outcome of sending to another node. -/
structure Reply where
  events : List RdpEvent
  errno : Option Errno
  deriving DecidableEq, Repr

/-- `ClientStatus_t`, as far as it is used here. -/
structure ClientStatus where
  lastPing : Int
  missCounter : Nat
  wrongClients : Nat
  deriving DecidableEq, Repr

/-- `MAX_WRONG_CLIENTS`. -/
def maxWrongClients : Nat := 10

/-- The variables of a daemon.  `nodeStat` tells if the master's space in
`psidpartition.c` is allocated; a `timerID` of -1 is not registered.  What RDP
does is read from `replies`, and from `hookReplies` while the functions at
`PSIDHOOK_NODE_UP` are called for another node. -/
structure Daemon where
  myID : Nat
  nrOfNodes : Nat
  up : Nat → Bool
  totNodes : Int
  masterNode : Nat
  timerID : Int
  nextTimer : Nat
  clientStat : Option (Nat → ClientStatus)
  nodeStat : Bool
  shutdown : Bool
  statusTimeout : Int
  deadLimit : Nat
  statusBcasts : Nat
  maxStatusBcasts : Nat
  round : Nat
  next : Option Nat
  firstUntested : Nat
  block : Bool
  clock : Nat → Int
  ticks : Nat
  replies : Nat → Reply
  sent : Nat
  hookReplies : Nat → Nat → Reply

def isUp (d : Daemon) (node : Nat) : Bool := decide (node < d.nrOfNodes) && d.up node

def bringUp (node : Nat) (d : Daemon) : Daemon := { d with up := update d.up node true }

def bringDown (node : Nat) (d : Daemon) : Daemon := { d with up := update d.up node false }

def knowMaster (d : Daemon) : Bool := d.timerID ≠ -1

def getMasterID (d : Daemon) : Nat := d.masterNode

def gettimeofday (d : Daemon) : Int × Daemon := (d.clock d.ticks, { d with ticks := d.ticks + 1 })

section Functions

variable (cb : Upcall → Daemon → Daemon)

/-- What happens while a message to another node is handed to RDP, or other
messages are sent or dropped. -/
def exchange (d : Daemon) : Option Errno × Daemon :=
  let reply := d.replies d.sent
  (reply.errno, reply.events.foldl (fun d event => cb (.rdp event) d) { d with sent := d.sent + 1 })

/-- Messages sent by other modules. -/
def traffic (d : Daemon) : Daemon := (exchange cb d).2

/-- `clearRDPMsgs()`. -/
def clearRDPMsgs (d : Daemon) : Daemon := traffic cb d

/-- The errors for which `sendMsg()` drops the message. -/
def Errno.drops (errno : Option Errno) : Bool :=
  errno = some .hostunreach || errno = some .pipe || errno = some .nobufs

def sendMsg (dest : Nat) (msg : Message) (d : Daemon) : Option Errno × Daemon :=
  if dest = d.myID then (none, cb (.handle msg) d)
  else
    let (errno, d) := exchange cb d
    match msg with
    | .daemonConnect _ =>
      (errno,
        if Errno.drops errno then cb (.rdp (.dropConnect dest)) d else d)
    | _ => (errno, d)

def sendDaemonConnect (id : Nat) (d : Daemon) : Option Errno × Daemon :=
  sendMsg cb id (.daemonConnect d.myID) d

def sendMasterIs (dest : Nat) (d : Daemon) : Daemon :=
  (sendMsg cb dest (.masterIs d.myID (some (getMasterID d))) d).2

def sendGetTasks (node : Nat) (d : Daemon) : Daemon := (sendMsg cb node .other d).2

/-- `send_OPTIONS()`. -/
def sendOptions (node : Nat) (d : Daemon) : Daemon := (sendMsg cb node .other d).2

/-- The node IDs a `PSP_DD_ACTIVE_NODES` message holds. -/
def nodesPerMsg : Nat := Serial.bufMsgSize / 2

def activeNodesLoop (dest : Nat) : (rest buf : List Nat) → Daemon → Daemon
  | [], buf, d =>
    if buf = [] then d
    else (sendMsg cb dest (.activeNodes d.myID buf) d).2
  | n :: rest, buf, d =>
    if !isUp d n then activeNodesLoop dest rest buf d
    else if buf.length < nodesPerMsg then
      activeNodesLoop dest rest (buf ++ [n]) d
    else
      match sendMsg cb dest (.activeNodes d.myID buf) d with
      | (some _, d) => d
      | (none, d) => activeNodesLoop dest rest [n] d

def sendActiveNodes (dest : Nat) (d : Daemon) : Daemon :=
  if dest = d.myID then d
  else activeNodesLoop cb dest (List.range d.nrOfNodes) [] d

def broadcastLoop (msg : Message) : List Nat → Daemon → Daemon
  | [], d => d
  | n :: rest, d =>
    broadcastLoop msg rest (if isUp d n ∧ n ≠ d.myID then (sendMsg cb n msg d).2 else d)

def broadcastMsg (msg : Message) (d : Daemon) : Daemon :=
  broadcastLoop cb msg (List.range d.nrOfNodes) d

def sendDeadNode (deadnode : Nat) (d : Daemon) : Daemon :=
  let exceeded := d.statusBcasts > d.maxStatusBcasts
  let d := { d with statusBcasts := d.statusBcasts + 1 }
  if exceeded then d else broadcastMsg cb (.deadNode (some deadnode)) d

/-- The loop of `handleMasterTasks()` over all nodes; it counts the nodes that
are down. -/
def pingLoop (lastCheck : Int) : List Nat → (nrDownNodes : Nat) → Daemon → Nat × Daemon
  | [], nrDownNodes, d => (nrDownNodes, d)
  | n :: rest, nrDownNodes, d =>
    if isUp d n then
      let d := { d with
        clientStat := d.clientStat.map (fun stat =>
          if (stat n).lastPing < lastCheck then
            update stat n { stat n with missCounter := (stat n).missCounter + 1 }
          else stat) }
      let d :=
        if d.clientStat.any (fun stat => (stat n).missCounter > d.deadLimit)
        then (sendDaemonConnect cb n d).2
        else d
      pingLoop lastCheck rest nrDownNodes d
    else pingLoop lastCheck rest (nrDownNodes + 1) d

/-- The loop of `handleMasterTasks()` ringing down nodes, until it is back at
`last`. -/
def ringLoop (last : Nat) : (fuel next : Nat) → (count : Int) → Daemon → Daemon
  | 0, next, _, d => { d with next := some next }
  | fuel + 1, next, count, d =>
    let (rung, d) :=
      if !isUp d next then
        let (errno, d) := sendDaemonConnect cb next d
        (decide (errno ≠ some .hostunreach), d)
      else (false, d)
    let count := if rung then count - 1 else count
    let next := (next + 1) % d.nrOfNodes
    if count ≠ 0 ∧ next ≠ last then ringLoop last fuel next count d
    else { d with next := some next }

def handleMasterTasks (d : Daemon) : Daemon :=
  if d.shutdown then d
  else
    let (timeNow, d) := gettimeofday d
    let (nrDownNodes, d) := pingLoop cb (timeNow - d.statusTimeout) (List.range d.nrOfNodes) 0 d
    let d := { d with statusBcasts := 0 }
    let d :=
      if d.round = 0 then
        let next := d.next.getD d.myID
        ringLoop cb next d.nrOfNodes next (min nrDownNodes 10 : Nat) d
      else d
    { d with round := (d.round + 1) % 10 }

def sendRDPPing (d : Daemon) : Daemon :=
  let d := (sendMsg cb (getMasterID d) (.load d.myID d.totNodes) d).2
  if getMasterID d = d.myID then handleMasterTasks cb d else d

def allocMasterSpace (d : Daemon) : Daemon :=
  let (timeNow, d) := gettimeofday d
  { d with
    clientStat := some (fun _ => { lastPing := timeNow, missCounter := 0, wrongClients := 0 }) }

/-- `freeMasterSpace()` with `exitPartHandler()`. -/
def freeMasterSpace (d : Daemon) : Daemon := { d with clientStat := none, nodeStat := false }

def getTasksLoop : List Nat → Daemon → Daemon
  | [], d => d
  | n :: rest, d => getTasksLoop rest (if isUp d n then sendGetTasks cb n d else d)

def initPartHandler (d : Daemon) : Daemon :=
  getTasksLoop cb (List.range d.nrOfNodes) { d with nodeStat := true }

/-- `Timer_register()` of `sendRDPPing()`. -/
def registerTimer (d : Daemon) : Daemon :=
  { d with timerID := d.nextTimer, nextTimer := d.nextTimer + 1 }

def releaseStatusTimer (d : Daemon) : Daemon := { d with timerID := -1 }

/-- The variables `declareMaster()` sets before it starts the status timer. -/
def takeMaster (newMaster : Nat) (d : Daemon) : Daemon :=
  let d := if knowMaster d ∧ getMasterID d = d.myID then freeMasterSpace d else d
  let d := { d with masterNode := newMaster }
  if d.shutdown then d
  else if newMaster = d.myID then allocMasterSpace d else d

def declareMaster (newMaster : Nat) (d : Daemon) : Daemon :=
  if knowMaster d ∧ newMaster = getMasterID d then d
  else
    let d := takeMaster newMaster d
    if d.shutdown then d
    else
      let d := if !knowMaster d then sendRDPPing cb (registerTimer d) else d
      if newMaster = d.myID then initPartHandler cb d else d

/-- The loop of `declareNodeDead()` searching the new master. -/
def searchMaster (d : Daemon) : (count node : Nat) → Nat
  | 0, node => node
  | count + 1, node => if isUp d node then node else searchMaster d count (node + 1)

def declareNodeDead (id : Nat) (sendDeadnode : Bool) (d : Daemon) : Bool × Daemon :=
  if ¬id < d.nrOfNodes then (false, d)
  else if !isUp d id then (true, clearRDPMsgs cb d)
  else
    let d := bringDown id { d with totNodes := d.totNodes - 1 }
    let d := traffic cb d
    let d :=
      if id = getMasterID d then
        declareMaster cb (searchMaster d (d.myID - id) id) d
      else if d.myID = getMasterID d then traffic cb d
      else d
    let d := clearRDPMsgs cb d
    (true,
      if getMasterID d = d.myID ∧ sendDeadnode then sendDeadNode cb id d
      else d)

/-- The part of `declareNodeAlive()` electing a master. -/
def electMaster (id : Nat) (d : Daemon) : Daemon :=
  if !knowMaster d then
    if id < d.myID then declareMaster cb id d
    else if id > d.myID then declareMaster cb d.myID d
    else d
  else if id < getMasterID d then
    let oldMaster := getMasterID d
    sendMasterIs cb oldMaster (declareMaster cb id d)
  else d

/-- `PSIDHOOK_NODE_UP`; a plugin may send messages from there. -/
def callNodeUp (id : Nat) (d : Daemon) : Daemon :=
  if id = d.myID then traffic cb d
  else
    { traffic cb { d with replies := d.hookReplies id } with
      replies := d.replies }

def declareNodeAlive (id : Nat) (d : Daemon) : Bool × Daemon :=
  if ¬id < d.nrOfNodes then (false, d)
  else
    let wasUp := isUp d id
    let d := if wasUp then d else { d with totNodes := d.totNodes + 1 }
    let d := bringUp id d
    let d := if wasUp then d else callNodeUp cb id d
    let d := electMaster cb id d
    let d :=
      if getMasterID d = d.myID ∧ !wasUp then sendActiveNodes cb id d else d
    (true,
      if getMasterID d = d.myID ∧ !wasUp then sendGetTasks cb id d else d)

/-- The loop of `drop_DAEMONCONNECT()`. -/
def connectLoop : (count next : Nat) → Daemon → Nat × Daemon
  | 0, next, d => (next, d)
  | count + 1, next, d =>
    match sendDaemonConnect cb next d with
    | (some .hostunreach, d) => connectLoop count (next + 1) d
    | (some .connrefused, d) => connectLoop count (next + 1) d
    | (_, d) => (next, d)

def dropDaemonConnect (dest : Nat) (d : Daemon) : Daemon :=
  if d.block ∨ knowMaster d ∨ d.shutdown then d
  else
    let next := dest + 1
    let (next, d) := connectLoop cb (d.myID - next) next { d with block := true }
    let d := { d with block := false }
    if next = d.myID then declareMaster cb next d else d

def msgDaemonConnect (id : Nat) (d : Daemon) : Daemon :=
  match declareNodeAlive cb id d with
  | (false, d) => d
  | (true, d) =>
    match sendMsg cb id (.daemonEstablished d.myID true) d with
    | (none, d) => sendOptions cb id d
    | (some .wouldblock, d) => sendOptions cb id d
    | (some _, d) => d

def msgDaemonEstablished (id : Nat) (complete : Bool) (d : Daemon) : Daemon :=
  if !complete then d
  else
    match declareNodeAlive cb id d with
    | (false, d) => d
    | (true, d) => sendOptions cb id d

/-- `closeConnRDP()` returns undeliverable messages. -/
def msgDaemonShutdown (id : Nat) (d : Daemon) : Daemon :=
  traffic cb (declareNodeDead cb id false d).2

def msgMasterIs (sender : Nat) (master : Option Nat) (d : Daemon) : Daemon :=
  match master with
  | none => d
  | some newM =>
    if newM = getMasterID d then d
    else if newM < getMasterID d then (sendDaemonConnect cb newM d).2
    else sendMasterIs cb sender d

/-- Tell the nodes listed that are up, or connect to them. -/
def contactLoop (contact : Nat → Daemon → Daemon) : List Nat → Daemon → Daemon
  | [], d => d
  | n :: rest, d => contactLoop contact rest (if isUp d n then contact n d else d)

def msgActiveNodes (sender : Nat) : List Nat → Daemon → Daemon
  | [], d => d
  | node :: rest, d =>
    let d :=
      if node = sender then
        { contactLoop (fun n d => (sendDaemonConnect cb n d).2)
            (List.range node) d with firstUntested := node + 1 }
      else d
    let d := contactLoop (sendMasterIs cb) (List.range' d.firstUntested (node - d.firstUntested)) d
    let d := if !isUp d node then (sendDaemonConnect cb node d).2 else d
    msgActiveNodes sender rest { d with firstUntested := node + 1 }

def msgDeadNode (dead : Option Nat) (d : Daemon) : Daemon :=
  match dead with
  | none => d
  | some dead => (sendDaemonConnect cb dead d).2

def msgLoad (client : Nat) (clientNodes : Int) (d : Daemon) : Daemon :=
  if d.myID ≠ getMasterID d then sendMasterIs cb client d
  else
    match d.clientStat with
    | none => d
    | some stat =>
      let (timeNow, d) := gettimeofday d
      let entry := { stat client with lastPing := timeNow, missCounter := 0 }
      if clientNodes ≠ d.totNodes then
        let d := { d with
          clientStat := some (update stat client
            { entry with wrongClients := entry.wrongClients + 1 }) }
        if entry.wrongClients + 1 > maxWrongClients then
          let d := sendActiveNodes cb client d
          { d with
            clientStat := d.clientStat.map (fun stat =>
              update stat client { stat client with wrongClients := 0 }) }
        else d
      else
        { d with
          clientStat := some (update stat client { entry with wrongClients := 0 }) }

def handleMsg (msg : Message) (d : Daemon) : Daemon :=
  match msg with
  | .daemonConnect sender => msgDaemonConnect cb sender d
  | .daemonEstablished sender complete => msgDaemonEstablished cb sender complete d
  | .daemonShutdown sender => msgDaemonShutdown cb sender d
  | .masterIs sender master => msgMasterIs cb sender master d
  | .activeNodes sender nodes => msgActiveNodes cb sender nodes d
  | .deadNode dead => msgDeadNode cb dead d
  | .load sender clientNodes => msgLoad cb sender clientNodes d
  | .other => d

/-- `RDPCallBack()`, and `PSID_dropMsg()` of a `PSP_DD_DAEMONCONNECT`
message. -/
def rdpCallBack (event : RdpEvent) (d : Daemon) : Daemon :=
  match event with
  | .newConnection node =>
    if d.shutdown ∨ node = d.myID ∨ isUp d node then d
    else (sendDaemonConnect cb node d).2
  | .lostConnection node =>
    if d.shutdown ∨ node = d.myID then d
    else (declareNodeDead cb node true d).2
  | .dropConnect dest => dropDaemonConnect cb dest d

def setStatusTimeout (timeout : Int) (d : Daemon) : Daemon :=
  let d := { d with statusTimeout := timeout }
  if d.timerID > 0 then registerTimer (releaseStatusTimer d) else d

/-- What drives a daemon from outside. -/
inductive Input where
  | message (msg : Message)
  | rdp (event : RdpEvent)
  | statusTimer
  | statusTimeout (timeout : Int)
  | shutdown
  deriving DecidableEq, Repr

def handleInput (input : Input) (d : Daemon) : Daemon :=
  match input with
  | .message msg => handleMsg cb msg d
  | .rdp event => rdpCallBack cb event d
  | .statusTimer => if d.timerID > 0 then sendRDPPing cb d else d
  | .statusTimeout timeout => setStatusTimeout timeout d
  | .shutdown => { d with shutdown := true }

/-- The first connection attempts of `main()`. -/
def firstConnects : (count id : Nat) → Daemon → Daemon
  | 0, id, d => if id = d.myID then declareMaster cb id d else d
  | count + 1, id, d =>
    match sendDaemonConnect cb id d with
    | (some .hostunreach, d) => firstConnects count (id + 1) d
    | (_, d) => d

/-- `main()` up to its main loop. -/
def startup (d : Daemon) : Daemon :=
  let d := (declareNodeAlive cb d.myID d).2
  firstConnects cb d.myID 0 d

end Functions

/-- Calls nested deeper than `depth` find nothing to do. -/
def upcall : (depth : Nat) → Upcall → Daemon → Daemon
  | 0, _, d => d
  | depth + 1, .rdp event, d => rdpCallBack (upcall depth) event d
  | depth + 1, .handle msg, d => handleMsg (upcall depth) msg d

/-- The variables of a daemon that has just been started. -/
structure Fresh (d : Daemon) : Prop where
  myID : d.myID < d.nrOfNodes
  up : ∀ node, d.up node = false
  totNodes : d.totNodes = 0
  masterNode : d.masterNode = 0
  timerID : d.timerID = -1
  clientStat : d.clientStat = none
  nodeStat : d.nodeStat = false
  block : d.block = false
  shutdown : d.shutdown = false

/-- The runs of a daemon in which what happens while the functions at
`PSIDHOOK_NODE_UP` are called is `allowed`. -/
def daemonSystem (allowed : (Nat → Nat → Reply) → Prop) (depth : Nat) :
    TransitionSystem Daemon where
  initial d := ∃ fresh, Fresh fresh ∧ allowed fresh.hookReplies ∧ d = startup (upcall depth) fresh
  step before after := ∃ input replies hookReplies clock,
    allowed hookReplies ∧
    after = handleInput (upcall depth) input
      { before with
        replies := replies, sent := 0, hookReplies := hookReplies,
        clock := clock, ticks := 0 }

end Psmgmt.Status
