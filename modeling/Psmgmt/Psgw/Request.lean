import Psmgmt.Library.History
import Psmgmt.Library.Transition

/-!
# Requests of gateways

The life of one request of the psgw plugin: `psgwres.c`, `psgwrequest.c` and
`psgwpart.c`.  An access to a deleted request or through a resource pointer
that has been reset is a fault.
-/

namespace Psmgmt.Psgw

/-- `pelogueState`, `unset` for -1. -/
inductive PelogueState where
  | unset
  | prologueStart
  | prologueFinish
  | epilogueStart
  deriving DecidableEq, Repr

/-- `PSGWD_t`. -/
structure Psgwd where
  node : Int
  pid : Int
  addr : Option (List Char)
  deriving DecidableEq, Repr

/-- What is used of `PSGW_Req_t`; `res` tells that the resource is set. -/
structure Request where
  res : Bool
  routeRes : Int
  routePID : Int
  pelogueState : PelogueState
  psgwdPerNode : BitVec 32
  gwNodes : List Int
  psgwd : List Psgwd
  numGWstarted : Nat
  timerRouteScript : Int
  fwdata : Bool
  timerPartReq : Int
  deriving DecidableEq, Repr

/-- What happens to a request, in order. -/
inductive Act where
  /-- A timer is registered for the request. -/
  | registered (id : Int)
  /-- Cancelling removes a timer. -/
  | removed (id : Int)
  /-- The start of a psgwd is requested. -/
  | startPsgwd (index : Nat)
  /-- A psgwd has told its address. -/
  | psgwdUp (index : Nat)
  /-- The result of the gateways' prologue. -/
  | prologue (exit : Int)
  /-- The routing script is started. -/
  | execScript (pid : Int)
  /-- The routing script is known to have ended. -/
  | scriptExit (exit : Int)
  /-- Cancelling sends SIGKILL. -/
  | kill (pid : Int)
  /-- The pelogue resource callback is invoked. -/
  | answer (ret : Int)
  | delete
  deriving DecidableEq, Repr

inductive Fault where
  /-- The request is accessed after it was deleted. -/
  | deleted
  /-- The resource is accessed after its callback was invoked. -/
  | resource
  deriving DecidableEq, Repr

/-- What the pelogue plugin does with a request to start or to signal. -/
inductive PeAnswer where
  /-- It knows no such job. -/
  | missing
  | sent
  /-- The message is dropped and the job cancelled, which calls back. -/
  | dropped
  deriving DecidableEq, Repr

/-- What the psexec plugin does with a start script. -/
structure ExecAnswer where
  /-- The call returns a value other than -1. -/
  started : Bool
  /-- The message is dropped, which calls back with an exit code. -/
  dropped : Option Int
  deriving DecidableEq, Repr

/-- The outcomes of the calls made while one event is handled. -/
structure Env where
  pe : List PeAnswer
  exec : List ExecAnswer
  addJob : Bool
  getpwnam : Bool
  /-- The process ID of the routing script, if it is started. -/
  script : Option Nat
  /-- The routing script is timed, and its timer can be registered. -/
  timer : Option Bool
  deriving DecidableEq, Repr

inductive TimerKind where
  | part
  | script
  deriving DecidableEq, Repr

/-- What has become of the request of a partition. -/
inductive Partition where
  | awaited
  | refused
  | settled
  deriving DecidableEq, Repr

structure World where
  request : Option Request
  trace : List Act
  fault : Option Fault
  env : Env
  part : Partition
  forwarder : Bool
  /-- The nodes whose start scripts are running. -/
  scripts : List Int
  /-- The routing script is running. -/
  running : Bool
  /-- The number of results the pelogue plugin is to return. -/
  pending : Nat
  timers : List (Int × TimerKind)
  nextTimer : Nat

namespace World

def log (act : Act) (world : World) : World := { world with trace := world.trace ++ [act] }

def put (req : Request) (world : World) : World := { world with request := some req }

/-- An access to the request. -/
def req (world : World) : Except Fault Request :=
  match world.request with
  | some req => .ok req
  | none => .error .deleted

/-- `Timer_registerEnhanced()`. -/
def registerTimer (kind : TimerKind) (registers : Bool) (world : World) : Int × World :=
  if registers then
    (world.nextTimer,
      { world with
        trace := world.trace ++ [.registered world.nextTimer]
        timers := (world.nextTimer, kind) :: world.timers
        nextTimer := world.nextTimer + 1 })
  else (-1, world)

/-- `Timer_remove()`. -/
def removeTimer (id : Int) (world : World) : World :=
  { world with timers := world.timers.filter (fun timer => timer.1 ≠ id) }

def peAnswer (world : World) : PeAnswer := world.env.pe.headD .sent

def nextPe (world : World) : World :=
  { world with env := { world.env with pe := world.env.pe.tail } }

def execAnswer (world : World) : ExecAnswer :=
  world.env.exec.headD { started := true, dropped := none }

def nextExec (world : World) : World :=
  { world with env := { world.env with exec := world.env.exec.tail } }

/-- `Request_setNodes()`. -/
def setNodes (nodes : List Int) (req : Request) : Request :=
  { req with
    gwNodes := nodes
    psgwd := List.replicate (nodes.length * req.psgwdPerNode.toNat % 2 ^ 32)
      { node := -1, pid := -1, addr := none } }

/-- `Request_delete()`. -/
def requestDelete (world : World) : Except Fault World := do
  let _ ← world.req
  return { world.log .delete with request := none, pending := 0 }

def silence (req : Request) (world : World) : World :=
  let world :=
    if req.routePID ≠ -1 then world.log (.kill req.routePID) else world
  let world :=
    if req.timerRouteScript ≠ -1 then
      (world.log (.removed req.timerRouteScript)).removeTimer req.timerRouteScript
    else world
  let world :=
    if req.timerPartReq ≠ -1 then
      (world.log (.removed req.timerPartReq)).removeTimer req.timerPartReq
    else world
  world.put { req with timerRouteScript := -1, timerPartReq := -1 }

/-- `psPelogueSignalPE()`; a message dropped calls back. -/
def signalPE (callback : World → Except Fault World) (world : World) : Except Fault World :=
  match world.peAnswer with
  | .dropped => callback world.nextPe
  | _ => return world.nextPe

/-- `psPelogueStartPE()`. -/
def startPE (callback : World → Except Fault World) (world : World) : Except Fault (Bool × World) :=
  match world.peAnswer with
  | .missing => return (false, world.nextPe)
  | .sent => return (true, { world.nextPe with pending := world.pending + 1 })
  | .dropped => do
      let world ← callback world.nextPe
      return (true, world)

/-- `startPElogue()` of an epilogue; the request is deleted if that fails. -/
def startEpilogue (callback : World → Except Fault World) (world : World) : Except Fault World := do
  let (started, world) ← world.startPE callback
  if started then
    let req ← world.req
    return world.put { req with pelogueState := .epilogueStart }
  else world.requestDelete

/-- `__cancelReq()`. -/
def cancelReq (callback : World → Except Fault World) (world : World) : Except Fault World := do
  let req ← world.req
  let world ← (world.silence req).signalPE callback
  let req ← world.req
  if req.res then
    ((world.log (.answer 0)).put { req with res := false }).startEpilogue callback
  else world.startEpilogue callback

/-- `finalizeRequest()`. -/
def finalizeRequest (world : World) : Except Fault World := do
  let req ← world.req
  if req.routeRes = -1 then return world
  else if req.pelogueState = .prologueStart then return world
  else if req.res = false then .error .resource
  else return (world.log (.answer 1)).put { req with res := false }

/-- The body of `pelogueCB()`. -/
def handleResult (cancel : World → Except Fault World) (exit : Int)
    (world : World) : Except Fault World :=
  match world.request with
  | none => return world
  | some req =>
    if req.pelogueState = .prologueStart then
      let world := (world.log (.prologue exit)).put { req with pelogueState := .prologueFinish }
      if exit ≠ 0 then cancel world else world.finalizeRequest
    else world.requestDelete

/-- `pelogueCB()` called by the pelogue plugin while it is called itself, at
most `depth` times again. -/
def pelogueCB : Nat → Int → World → Except Fault World
  | 0, exit, world => world.handleResult (cancelReq pure) exit
  | depth + 1, exit, world => world.handleResult (cancelReq (pelogueCB depth (-4))) exit

/-- The call for a dropped message; each of them uses up an answer. -/
def dropped (world : World) : World → Except Fault World := pelogueCB world.env.pe.length (-4)

/-- `cancelReq()`. -/
def cancel (world : World) : Except Fault World := world.cancelReq world.dropped

/-- `execRoutingScript()`. -/
def execRoutingScript (world : World) : Except Fault (Bool × World) := do
  let req ← world.req
  if req.res = false then .error .resource
  else if world.env.getpwnam = false then return (false, world)
  else
    match world.env.script with
    | none => return (false, world.put { req with routePID := -1 })
    | some pid =>
      let world := { world.log (.execScript pid) with running := true }
      let req := { req with routePID := pid }
      match world.env.timer with
      | none => return (true, world.put req)
      | some registers =>
        let (id, world) := world.registerTimer .script registers
        return (true, world.put { req with timerRouteScript := id })

/-- The address of a psgwd is saved in the first entry of its node. -/
def saveAddr (dest pid : Int) (addr : List Char) : List Psgwd → Option (Nat × List Psgwd)
  | [] => none
  | entry :: rest =>
    if entry.node = dest ∧ entry.addr = none then
      some (0, { entry with pid := pid, addr := some addr } :: rest)
    else
      (saveAddr dest pid addr rest).map (fun result => (result.1 + 1, entry :: result.2))

/-- `cbStartPSGWD()`; `output` is what could be parsed. -/
def cbStartPSGWD (dest exit : Int) (output : Option (List Char × Int))
    (world : World) : Except Fault World :=
  match world.request with
  | none => return world
  | some req =>
    if exit ≠ 0 then world.cancel
    else
      match output with
      | none => world.cancel
      | some (addr, pid) =>
        match saveAddr dest pid addr req.psgwd with
        | none => world.cancel
        | some (index, psgwd) => do
            let req := { req with
              psgwd := psgwd, numGWstarted := req.numGWstarted + 1 }
            let world := (world.log (.psgwdUp index)).put req
            if psgwd.length = req.numGWstarted then
              let (started, world) ← world.execRoutingScript
              if started then return world else world.cancel
            else return world

/-- What the psexec plugin does with a start script. -/
def awaitScript (node : Int) (answer : ExecAnswer) (world : World) : Except Fault World :=
  match answer.dropped with
  | some exit => world.cbStartPSGWD node exit none
  | none =>
    if answer.started then
      return { world with scripts := world.scripts ++ [node] }
    else return world

/-- One round of the loop of `startPSGWD()`. -/
def startNext (node : Int) (gIdx : Nat) (world : World) : Except Fault (Bool × World) := do
  let req ← world.req
  if req.psgwd.length ≤ gIdx then
    let world ← world.cancel
    return (false, world)
  else
    let answer := world.execAnswer
    let world := (world.log (.startPsgwd gIdx)).nextExec.put
      { req with
        psgwd := req.psgwd.modify gIdx (fun entry => { entry with node := node }) }
    let world ← world.awaitScript node answer
    if answer.started then return (true, world)
    else
      let world ← world.cancel
      return (false, world)

/-- The loop of `startPSGWD()`. -/
def startAll : List Int → Nat → World → Except Fault World
  | [], _, world => do
      let _ ← world.req
      return world
  | node :: rest, gIdx, world => do
      let (goes, world) ← world.startNext node gIdx
      if goes then startAll rest (gIdx + 1) world else return world

/-- The gateway node of each psgwd. -/
def targets (req : Request) : List Int :=
  req.gwNodes.flatMap (fun node => List.replicate req.psgwdPerNode.toNat node)

/-- `startPSGWD()`. -/
def startPSGWD (world : World) : Except Fault World := do
  let req ← world.req
  if req.res = false then .error .resource
  else world.startAll (targets req) 0

/-- `startPElogue()` of a prologue. -/
def startPrologue (world : World) : Except Fault (Bool × World) := do
  if world.env.addJob = false then
    let world ← world.cancel
    return (false, world)
  else
    let (started, world) ← world.startPE world.dropped
    if started then
      let req ← world.req
      return (true, world.put { req with pelogueState := .prologueStart })
    else
      let world ← world.cancel
      return (false, world)

/-- `handleReceivePart()`. -/
def handleReceivePart (nodes : List Int) (world : World) : Except Fault World :=
  match world.request with
  | none => return world
  | some req =>
    if req.fwdata = false then return world
    else do
      let world :=
        if req.timerPartReq ≠ -1 then world.removeTimer req.timerPartReq
        else world
      let world := world.put (setNodes nodes { req with timerPartReq := -1 })
      let (started, world) ← world.startPrologue
      if started then world.startPSGWD else return world

/-- `partTimeout()`. -/
def partTimeout (id : Int) (world : World) : Except Fault World :=
  let world := world.removeTimer id
  match world.request with
  | none => return world
  | some req => (world.put { req with timerPartReq := -1 }).cancel

/-- `routeScriptTimeout()`. -/
def routeScriptTimeout (id : Int) (world : World) : Except Fault World :=
  let world := world.removeTimer id
  match world.request with
  | none => return world
  | some req => (world.put { req with timerRouteScript := -1 }).cancel

/-- `fwCallback()`. -/
def fwCallback (status : Int) (world : World) : Except Fault World :=
  match world.request with
  | none => return world
  | some req =>
    let world := world.put { req with fwdata := false }
    if status ≠ 0 then world.cancel else return world

/-- `cbRouteScript()`. -/
def cbRouteScript (exit : Int) (world : World) : Except Fault World :=
  match world.request with
  | none => return world
  | some req =>
    let world :=
      if req.timerRouteScript ≠ -1 then
        world.removeTimer req.timerRouteScript
      else world
    let world := (world.log (.scriptExit exit)).put
      { req with timerRouteScript := -1, routeRes := exit, routePID := -1 }
    if exit ≠ 0 then world.cancel else world.finalizeRequest

/-- `handleFinAlloc()`. -/
def handleFinAlloc (world : World) : Except Fault World :=
  match world.request with
  | none => return world
  | some _ => world.startEpilogue world.dropped

end World

/-- The environment of a job whose pelogue asks for resources. -/
structure Resource where
  packNodelist : Bool
  psgwNum : Option Int
  packID : Bool
  user : Bool
  psgwdPerNode : Option (BitVec 32)
  deriving DecidableEq, Repr

/-- What becomes of the request to the master. -/
structure Setup where
  forwarder : Bool
  task : Bool
  newReq : Bool
  gatewayAttr : Bool
  knowMaster : Bool
  sent : Bool
  timer : Bool
  deriving DecidableEq, Repr

/-- `Request_add()`. -/
def requestAdd : Request :=
  { res := true, routeRes := -1, routePID := -2, pelogueState := .unset
    psgwdPerNode := 1, gwNodes := [], psgwd := [], numGWstarted := 0
    timerRouteScript := -1, fwdata := false, timerPartReq := 0 }

/-- `sendPartitionReq()`. -/
def sendPartitionReq (setup : Setup) (world : World) (req : Request) : Option World :=
  if setup.newReq = false ∨ setup.gatewayAttr = false then none
  else if setup.knowMaster = false then some (world.put req)
  else if setup.sent = false then none
  else
    let (id, world) := world.registerTimer .part setup.timer
    some (world.put { req with timerPartReq := id })

/-- `requestGWnodes()`. -/
def requestGWnodes (setup : Setup) (world : World) (req : Request) : Option World :=
  if setup.forwarder = false ∨ setup.task = false then none
  else
    sendPartitionReq setup { world with forwarder := true } { req with fwdata := true }

/-- `handlePElogueRes()`, with the request that is pending afterwards. -/
def handlePElogueRes (res : Resource) (setup : Setup) (env : Env)
    (nextTimer : Nat) : Int × Option World :=
  if res.packNodelist = false ∨ res.psgwNum.getD 0 = 0 then (0, none)
  else if res.packID = false ∨ res.user = false then (2, none)
  else
    let req := { requestAdd with
      psgwdPerNode := res.psgwdPerNode.getD requestAdd.psgwdPerNode }
    let world : World :=
      { request := none, trace := [], fault := none, env := env
        part := .awaited, forwarder := false, scripts := [], running := false
        pending := 0, timers := [], nextTimer := nextTimer }
    match requestGWnodes setup world req with
    | none => (2, none)
    | some world => (1, some world)

inductive Event where
  | partition (nodes : List Int)
  /-- The partition is refused: the forwarder is going to exit. -/
  | refusal
  | forwarderExit (status : Int)
  | timeout (id : Int) (kind : TimerKind)
  | pelogueResult (exit : Int)
  | startResult (dest exit : Int) (output : Option (List Char × Int))
  | scriptExit (exit : Int)
  | finAlloc
  deriving DecidableEq, Repr

namespace World

/-- The event may occur. -/
def Possible (event : Event) (world : World) : Prop :=
  match event with
  | .partition _ => world.part = .awaited
  | .refusal => world.part = .awaited
  | .forwarderExit _ => world.forwarder = true
  | .timeout id kind => (id, kind) ∈ world.timers
  | .pelogueResult _ => 0 < world.pending
  | .startResult dest _ _ => dest ∈ world.scripts
  | .scriptExit _ => world.running = true
  | .finAlloc => True

def handle (event : Event) (world : World) : Except Fault World :=
  match event with
  | .partition nodes => { world with part := .settled }.handleReceivePart nodes
  | .refusal => return { world with part := .refused }
  | .forwarderExit status =>
    { world with
      forwarder := false
      part :=
        if world.part = Partition.refused then .settled else world.part
    }.fwCallback status
  | .timeout id .part => world.partTimeout id
  | .timeout id .script => world.routeScriptTimeout id
  | .pelogueResult exit => { world with pending := world.pending - 1 }.handleResult cancel exit
  | .startResult dest exit output =>
    { world with scripts := world.scripts.erase dest }.cbStartPSGWD dest exit output
  | .scriptExit exit => { world with running := false }.cbRouteScript exit
  | .finAlloc => world.handleFinAlloc

def perform (event : Event) (env : Env) (world : World) : World :=
  match { world with env := env }.handle event with
  | .ok after => after
  | .error fault => { world with fault := some fault }

/-- `handlePElogueRes()` has returned 1. -/
def Initial (world : World) : Prop :=
  ∃ res setup env nextTimer, 0 < nextTimer ∧
    handlePElogueRes res setup env nextTimer = (1, some world)

end World

/-- The life of a request. -/
def requestSystem : TransitionSystem World where
  initial := World.Initial
  step before after :=
    before.fault = none ∧ ∃ event env, before.Possible event ∧ after = before.perform event env

end Psmgmt.Psgw
