import Psmgmt.Library.Transition

/-!
# Spawns of a PMIx server

A client spawns processes through its server.  The forwarder of the client
answers the request, the nodes tell how many processes are ready, and the caller
gets one answer.  Requests are put on the list by the library thread, messages
are handled by the main thread.
-/

namespace Psmgmt.Pmix.Respawn

inductive SpawnState where
  | initialized
  | requested
  | inProgress
  | allSuccess
  | failed
  deriving DecidableEq, Repr

/-- `PspmixSpawn_t`; `sdata` is what identifies the call. -/
structure Spawn where
  id : Nat
  np : Nat
  ready : Nat
  state : SpawnState
  nspace : Option String
  sdata : Nat
  deriving DecidableEq

/-- The messages about a spawn, without its ID. -/
inductive Msg where
  /-- The forwarder answers the request. -/
  | response (success : Bool)
  /-- A node tells how many processes are ready. -/
  | info (success : Bool) (nspace : String) (np : Nat)
  | spawnerFailed
  deriving DecidableEq, Repr

/-- What `pspmix_server_spawnRes()` is called with. -/
structure Answer where
  sdata : Nat
  success : Bool

def findSpawn (spawnList : List Spawn) (id : Nat) : Option Spawn :=
  spawnList.find? fun spawn => spawn.id = id

/-- `list_del()` of the spawn found. -/
def delSpawn (spawnList : List Spawn) (id : Nat) : List Spawn :=
  spawnList.eraseP fun spawn => spawn.id = id

/-- Change the spawn found first. -/
def changeSpawn (which : Spawn → Bool) (change : Spawn → Spawn) : List Spawn → List Spawn
  | [] => []
  | spawn :: spawns =>
    if which spawn then change spawn :: spawns
    else spawn :: changeSpawn which change spawns

def setSpawn (spawnList : List Spawn) (id : Nat) (change : Spawn → Spawn) : List Spawn :=
  changeSpawn (fun spawn => spawn.id = id) change spawnList

/-- `pspmix_service_spawnRes()` -/
def spawnRes (spawnList : List Spawn) (spawnID : Nat) (success : Bool) : List Spawn × List Answer :=
  match findSpawn spawnList spawnID with
  | none => (spawnList, [])
  | some spawn =>
    if success then
      if spawn.state = .allSuccess then
        (delSpawn spawnList spawnID, [⟨spawn.sdata, true⟩])
      else
        (setSpawn spawnList spawnID fun spawn => { spawn with state := .inProgress }, [])
    else (delSpawn spawnList spawnID, [⟨spawn.sdata, false⟩])

/-- The namespace of an info fits the ones before. -/
def fitsNamespace (spawn : Spawn) (nsName : String) : Bool :=
  spawn.ready = 0 || spawn.nspace = some nsName

def addReady (nsName : String) (np : Nat) (spawn : Spawn) : Spawn :=
  { spawn with
    nspace := if spawn.ready = 0 then some nsName else spawn.nspace
    ready := (spawn.ready + np) % 2 ^ 32 }

/-- `pspmix_service_spawnInfo()` -/
def spawnInfo (spawnList : List Spawn) (spawnID : Nat) (succ : Bool)
    (nsName : String) (np : Nat) : List Spawn × List Answer :=
  match findSpawn spawnList spawnID with
  | none => (spawnList, [])
  | some spawn =>
    if succ = false then
      (delSpawn spawnList spawnID, [⟨spawn.sdata, false⟩])
    else if fitsNamespace spawn nsName = false then
      (delSpawn spawnList spawnID, [⟨spawn.sdata, false⟩])
    else if (addReady nsName np spawn).ready < spawn.np then
      (setSpawn spawnList spawnID (addReady nsName np), [])
    else if spawn.np < (addReady nsName np spawn).ready then
      (delSpawn spawnList spawnID, [⟨spawn.sdata, false⟩])
    else if spawn.state = .inProgress then
      (delSpawn spawnList spawnID, [⟨spawn.sdata, true⟩])
    else
      (setSpawn spawnList spawnID fun spawn =>
        { addReady nsName np spawn with state := .allSuccess }, [])

def handleMsg (spawnList : List Spawn) (spawnID : Nat) : Msg → List Spawn × List Answer
  | .response success => spawnRes spawnList spawnID success
  | .info success nspace np => spawnInfo spawnList spawnID success nspace np
  | .spawnerFailed => spawnRes spawnList spawnID false

/-- The spawn `pspmix_service_spawn()` sets up. -/
def newSpawn (spawnID : Nat) (maxprocs : List Nat) (sdata : Nat) : Spawn :=
  { id := (spawnID + 1) % 2 ^ 16, np := maxprocs.sum % 2 ^ 32, ready := 0
    state := .initialized, nspace := none, sdata }

/-! ## The server among forwarders and nodes -/

/-- A message under way, with the call it belongs to. -/
structure Wire where
  sdata : Nat
  id : Nat
  msg : Msg
  deriving DecidableEq

/-- What a call of the library thread has got to do. -/
inductive Call where
  | add (spawn : Spawn)
  | setRequested (spawn : Spawn)

/-- The server, the call of the library thread, the number of calls so far, those
that were requested, how many processes each call spawns, the messages under way,
the messages handled for each call, and the answers, each with the messages
handled for its call up to it. -/
structure Service where
  spawnID : Nat
  spawnList : List Spawn
  call : Option Call
  calls : Nat
  requested : List Nat
  size : Nat → Nat
  wire : List Wire
  heard : Nat → List Msg
  answers : List (Answer × List Msg)

def Service.start : Service :=
  { spawnID := 0, spawnList := [], call := none, calls := 0, requested := []
    size := fun _ => 0, wire := [], heard := fun _ => [], answers := [] }

def isResponse : Msg → Bool
  | .response _ => true
  | _ => false

def isFailure : Msg → Bool
  | .response success => !success
  | .info success _ _ => !success
  | .spawnerFailed => true

def readyOf : Msg → Nat
  | .info true _ np => np
  | _ => 0

def total (msgs : List Msg) : Nat := (msgs.map readyOf).sum

/-- The messages a spawn of `np` processes leads to: one response, infos of one
or more processes in one namespace, all of the processes if nothing fails. -/
structure Script (np : Nat) (nspace : String) (msgs : List Msg) : Prop where
  response : msgs.countP isResponse = 1
  positive : ∀ ns count, .info true ns count ∈ msgs → 0 < count ∧ ns = nspace
  bounded : total msgs ≤ np
  complete : (∀ msg ∈ msgs, isFailure msg = false) → total msgs = np

inductive Event where
  /-- A client spawns processes; the request is sent unless it fails. -/
  | spawn (maxprocs : List Nat) (nspace : String) (sent : Bool) (msgs : List Msg)
  | add
  | setRequested
  | handle (wire : Wire)

def Enabled (service : Service) : Event → Prop
  | .spawn maxprocs nspace _ msgs => service.call.isNone = true ∧ Script maxprocs.sum nspace msgs
  | .add => ∃ spawn, service.call = some (.add spawn)
  | .setRequested => ∃ spawn, service.call = some (.setRequested spawn)
  | .handle wire => wire ∈ service.wire

def Service.send (service : Service) (spawn : Spawn) (np : Nat) (msgs : List Msg) : Service :=
  { service with
    spawnID := spawn.id
    call := some (.add spawn)
    calls := service.calls + 1
    requested := service.requested ++ [spawn.sdata]
    size := fun sdata => if sdata = spawn.sdata then np else service.size sdata
    wire := service.wire ++ msgs.map fun msg => ⟨spawn.sdata, spawn.id, msg⟩ }

/-- The messages handled for a call with one more. -/
def heardWith (heard : Nat → List Msg) (wire : Wire) (sdata : Nat) : List Msg :=
  if sdata = wire.sdata then heard sdata ++ [wire.msg] else heard sdata

/-- A message is handled by the main thread. -/
def Service.hear (service : Service) (wire : Wire) : Service :=
  { service with
    wire := service.wire.erase wire
    heard := heardWith service.heard wire
    spawnList := (handleMsg service.spawnList wire.id wire.msg).1
    answers := service.answers
      ++ (handleMsg service.spawnList wire.id wire.msg).2.map fun answer =>
        (answer, heardWith service.heard wire answer.sdata) }

def perform (service : Service) : Event → Service
  | .spawn maxprocs _ sent msgs =>
    if sent then
      service.send (newSpawn service.spawnID maxprocs service.calls) maxprocs.sum msgs
    else
      { service with
        spawnID := (service.spawnID + 1) % 2 ^ 16
        calls := service.calls + 1 }
  | .add =>
    match service.call with
    | some (.add spawn) =>
      { service with
        spawnList := service.spawnList ++ [spawn]
        call := some (.setRequested spawn) }
    | _ => service
  | .setRequested =>
    match service.call with
    | some (.setRequested spawn) =>
      { service with
        spawnList := changeSpawn (fun other => other.sdata = spawn.sdata)
          (fun spawn => { spawn with state := .requested }) service.spawnList
        call := none }
    | _ => service
  | .handle wire => service.hear wire

def serviceSystem : TransitionSystem Service where
  initial := fun service => service = Service.start
  step := fun before after => ∃ event, Enabled before event ∧ after = perform before event

/-! ## One correct answer -/

/-- The answer fits what was handled up to it. -/
def AnswerRight (np : Nat) (heard : List Msg) (success : Bool) : Prop :=
  success = true ↔ .response true ∈ heard ∧ total heard = np ∧ ∀ msg ∈ heard, isFailure msg = false

/-- The call a spawn belongs to is not over. -/
def Calling (service : Service) (sdata : Nat) : Prop :=
  ∃ spawn, spawn.sdata = sdata ∧ (service.call = some (.add spawn)
    ∨ service.call = some (.setRequested spawn))

/-- Open spawns have different IDs other than 0, each spawn is answered at most
once and rightly, none is left open without a message under way, and all that are
requested get answered. -/
structure Answered (service : Service) : Prop where
  different : (service.spawnList.map Spawn.id).Nodup
  nonzero : ∀ spawn ∈ service.spawnList, spawn.id ≠ 0
  once : (service.answers.map fun answer => answer.1.sdata).Nodup
  right : ∀ answer ∈ service.answers,
    AnswerRight (service.size answer.1.sdata) answer.2 answer.1.success
  open_ : ∀ spawn ∈ service.spawnList, ∃ wire ∈ service.wire, wire.sdata = spawn.sdata
  all : ∀ sdata ∈ service.requested, ¬Calling service sdata →
    (∀ wire ∈ service.wire, wire.sdata ≠ sdata) → ∃ answer ∈ service.answers, answer.1.sdata = sdata

/-- The ID of a spawn is not 0 and new among open spawns and messages under way,
its processes can be counted, and its messages are handled when its call is over.
-/
def Fits (service : Service) : Event → Prop
  | .spawn maxprocs _ sent _ => sent = true →
      0 < maxprocs.sum ∧ maxprocs.sum < 2 ^ 32 ∧ (service.spawnID + 1) % 2 ^ 16 ≠ 0 ∧
        (∀ spawn ∈ service.spawnList, spawn.id ≠ (service.spawnID + 1) % 2 ^ 16) ∧ ∀ wire ∈
        service.wire, wire.id ≠ (service.spawnID + 1) % 2 ^ 16
  | .handle wire => ¬Calling service wire.sdata
  | _ => True

/-- The runs all of whose events fit. -/
def fittingSystem : TransitionSystem Service where
  initial := serviceSystem.initial
  step := fun before after =>
    ∃ event, Enabled before event ∧ Fits before event ∧ after = perform before event

end Psmgmt.Pmix.Respawn
