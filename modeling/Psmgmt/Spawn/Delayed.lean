import Psmgmt.Partition.Distribution
import Psmgmt.Partition.Reserve
import Psmgmt.Library.Sweep

/-!
# Spawn requests and delayed tasks

A daemon's handling of the tasks it is asked to spawn, up to `spawnTask()`,
with the reservation information it stores.  The daemon gets the memory it asks
for unless a clone fails, and its messages are sent.
-/

namespace Psmgmt.Spawn

open Serial Partition Sweep

/-- `PStask_group_t`. -/
inductive TaskGroup where
  | any | admin | reset | logger | forwarder | adminTask | service | account
  | serviceSig | kvs | delegate | pluginFW
  deriving DecidableEq, Repr

def isServiceTask : TaskGroup → Bool
  | .service | .serviceSig | .adminTask | .kvs => true
  | _ => false

inductive Errno where
  | ebadmsg | einval | enomem | eaddrnotavail | eaddrinuse | echild
  | other (code : Nat)
  deriving DecidableEq, Repr

/-- The bits of `PStask_delay_t`. -/
abbrev DelayReasons : Type := BitVec 32

def delayResInfo : DelayReasons := 0x0001

def delayPsslurm : DelayReasons := 0x0002

/-- The number of a request and of a rank in it; the daemon keeps no such
number. -/
structure Origin where
  request : Nat
  index : Nat
  deriving DecidableEq, Repr

/-- What spawning uses of a `PStask_t`. -/
structure Task where
  origin : Origin
  tid : TaskId
  loggertid : TaskId
  spawnertid : TaskId
  group : TaskGroup
  resID : Int
  rank : Int
  jobRank : Int
  cpuSet : CPUSet
  partHolder : TaskId
  firstLocal : Bool
  argV : List String
  delayReasons : DelayReasons
  deleted : Bool
  deriving DecidableEq

/-- `PSP_CD_SPAWNFAILED`. -/
structure SpawnFailed where
  sender : TaskId
  dest : TaskId
  error : Errno
  request : Int
  deriving DecidableEq, Repr

/-- The end of a rank's way through the daemon. -/
inductive Outcome where
  /-- `spawnTask()` succeeded. -/
  | handed
  | answered (msg : SpawnFailed)
  /-- Removed by `PSIDspawn_cleanupByNode()`. -/
  | lost (node : Int)
  /-- Removed by `PSIDspawn_cleanupDelayedTasks()`. -/
  | dropped
  deriving DecidableEq, Repr

abbrev Record : Type := Origin × Outcome

/-- What `PStask_decodeTask()` finds in a request. -/
structure DecodedTask where
  tid : TaskId
  loggertid : TaskId
  group : TaskGroup
  resID : Int
  rank : Int

/-- `PSP_CD_SPAWNREQUEST`. -/
structure SpawnReq where
  sender : TaskId
  dest : TaskId
  num : Nat
  task : Option DecodedTask
  argV : List String
  /-- The strings and environments are unpacked without error. -/
  unpacked : Bool

/-- A request that names its ranks. -/
structure Asked where
  sender : TaskId
  num : Nat
  rank : Int
  deriving DecidableEq, Repr

structure State where
  sessions : List Session
  delayedTasks : List Task
  /-- The requests decoded so far. -/
  requests : List Asked
  records : List Record
  /-- The answers to requests that cannot be decoded. -/
  rejected : List SpawnFailed

/-- What the daemon's surroundings do during an event. -/
structure Env where
  myTID : TaskId
  /-- `PSIDHOOK_RECV_SPAWNREQ`: the delay reasons it sets, or its failure. -/
  recvSpawnReq : Task → Option DelayReasons
  /-- There is memory for the clone of a rank. -/
  memory : Nat → Bool
  spawnTask : Task → Option Errno

/-- `PSCPU_setAll()`. -/
def allCPUs : CPUSet := Finset.range cpuMax

/-! ## Requests -/

/-- `PSIDspawn_fillTaskFromResInfo()`. -/
def fillTaskFromResInfo (task : Task) (res : Option ResInfo) : Option Errno × Task :=
  match res.filter (fun res => res.nLocalSlots ≠ 0) with
  | none => (none, { task with delayReasons := task.delayReasons ||| delayResInfo })
  | some res =>
    let task := { task with jobRank := int32 (task.rank - res.rankOffset) }
    if task.jobRank < res.minRank ∨ task.jobRank > res.maxRank then
      (some .eaddrnotavail, task)
    else
      match res.localSlots with
      | none => (some .eaddrnotavail, task)
      | some localSlots =>
        match localSlots.find? (fun slot => slot.rank = task.jobRank) with
        | none => (some .eaddrnotavail, task)
        | some slot =>
          let task := { task with
            cpuSet := slot.cpuSet
            partHolder := res.partHolder }
          if slot.cpuSet = ∅ then (some .eaddrinuse, task)
          else (none, task)

/-- `PStask_clone()`; the clone's own task ID stays unset. -/
def psTaskClone (memory : Bool) (task : Task) : Option Task :=
  if task.argV = [] then none
  else if memory then some { task with tid := noTid }
  else none

/-- One round of the loop in `handleSpawnReq()`; `error` is `answer.error` of
the round before. -/
def spawnRank (env : Env) (req : SpawnReq) (number : Nat) (proto : Task)
    (res : Option ResInfo) (r : Nat) (error : Option Errno) :
    Option Errno × Action Task Record :=
  let origin : Origin := ⟨number, r⟩
  let request : Int := uint32 (proto.rank + r)
  let failed (error : Errno) : Option Errno × Action Task Record :=
    (some error, none, some (origin, .answered ⟨req.dest, req.sender, error, request⟩))
  match psTaskClone (env.memory r) proto with
  | none => failed .enomem
  | some clone =>
    let clone := { clone with
      origin := origin
      rank := int32 request
      firstLocal := r = 0 }
    let filled :=
      if isServiceTask proto.group then (none, clone)
      else fillTaskFromResInfo clone res
    match filled with
    | (some error, _) => failed error
    | (none, clone) =>
      let error := if isServiceTask proto.group then error else none
      let error :=
        if clone.delayReasons ≠ 0 then error else env.spawnTask clone
      match error with
      | some error => failed error
      | none =>
        if clone.delayReasons ≠ 0 then (none, some clone, none)
        else (none, none, some (origin, .handed))

/-- The loop of `handleSpawnReq()`. -/
def rankLoop (env : Env) (req : SpawnReq) (number : Nat) (proto : Task)
    (res : Option ResInfo) :
    List Nat → Option Errno → List Task × List Record
  | [], _ => ([], [])
  | r :: rest, error =>
    let (error, task, record) := spawnRank env req number proto res r error
    let (tasks, records) := rankLoop env req number proto res rest error
    (task.toList ++ tasks, record.toList ++ records)

def failAll (req : SpawnReq) (number : Nat) (rank : Int) (error : Errno) : List Record :=
  (List.range req.num).map (fun r =>
    (⟨number, r⟩, .answered ⟨req.dest, req.sender, error, uint32 (rank + r)⟩))

/-- The prototype of a request's tasks. -/
def prototype (req : SpawnReq) (number : Nat) (task : DecodedTask) : Task where
  origin := ⟨number, 0⟩
  tid := task.tid
  loggertid := task.loggertid
  spawnertid := req.sender
  group := task.group
  resID := task.resID
  rank := task.rank
  jobRank := -1
  cpuSet := ∅
  partHolder := ⟨-1, -1⟩
  firstLocal := false
  argV := req.argV
  delayReasons := 0
  deleted := false

def handleSpawnReq (env : Env) (req : SpawnReq) (state : State) : State :=
  match req.task with
  | none =>
    let answer : SpawnFailed := ⟨req.dest, req.sender, .ebadmsg, 0⟩
    { state with rejected := state.rejected ++ [answer] }
  | some task =>
    let number := state.requests.length
    let proto := prototype req number task
    let asked : Asked := ⟨req.sender, req.num, task.rank⟩
    let state := { state with requests := state.requests ++ [asked] }
    if ¬ req.unpacked then
      { state with
        records := state.records ++ failAll req number task.rank .ebadmsg }
    else
      match env.recvSpawnReq proto with
      | none =>
        { state with
          records := state.records ++ failAll req number task.rank .einval }
      | some delayReasons =>
        let proto := { proto with
          delayReasons := delayReasons
          cpuSet :=
            if isServiceTask proto.group then allCPUs else proto.cpuSet }
        let res := findResInfo state.sessions proto.loggertid proto.spawnertid proto.resID
        let (tasks, records) := rankLoop env req number proto res (List.range req.num) none
        { state with
          delayedTasks := state.delayedTasks ++ tasks
          records := state.records ++ records }

/-! ## Delayed tasks -/

def sweep (body : Task → Action Task Record) (state : State) : State :=
  { state with
    delayedTasks := kept body state.delayedTasks
    records := state.records ++ recorded body state.delayedTasks }

/-- What a filter passed to `PSIDspawn_startDelayedTasks()` does with a task: it
returns true or false, or it evicts the task, answers and returns false. -/
inductive Filtered where
  | pass (task : Task)
  | hold (task : Task)
  | evict (msg : SpawnFailed)

/-- A plugin's filter: its return value and the delay reasons it leaves. -/
abbrev PluginFilter : Type := Task → Bool × DelayReasons

def PluginFilter.filtered (filter : PluginFilter) (task : Task) : Filtered :=
  let (result, delayReasons) := filter task
  let task := { task with delayReasons := delayReasons }
  if result then .pass task else .hold task

/-- The loop body of `PSIDspawn_startDelayedTasks()`. -/
def startBody (env : Env) (filter : Task → Filtered) (task : Task) : Action Task Record :=
  if task.deleted then (some task, none)
  else
    match filter task with
    | .hold task => (some task, none)
    | .evict msg => (none, some (task.origin, .answered msg))
    | .pass task =>
      if task.delayReasons ≠ 0 then (some task, none)
      else
        match env.spawnTask task with
        | none => (none, some (task.origin, .handed))
        | some error =>
          (none, some (task.origin, .answered ⟨env.myTID, task.tid, error, task.rank⟩))

def startDelayedTasks (env : Env) (filter : Task → Filtered) : State → State :=
  sweep (startBody env filter)

/-- The loop body of `PSIDspawn_cleanupDelayedTasks()`. -/
def cleanupBody (filter : PluginFilter) (task : Task) : Action Task Record :=
  if task.deleted then (some task, none)
  else
    let (result, delayReasons) := filter task
    let task := { task with delayReasons := delayReasons }
    if result then
      (some { task with deleted := true }, some (task.origin, .dropped))
    else (some task, none)

def cleanupDelayedTasks (filter : PluginFilter) : State → State := sweep (cleanupBody filter)

/-- The loop body of `PSIDspawn_cleanupByNode()`. -/
def byNodeBody (myID node : Int) (task : Task) : Action Task Record :=
  if task.tid.getID myID = node then
    (some { task with deleted := true },
      if task.deleted then none else some (task.origin, .lost node))
  else (some task, none)

def cleanupByNode (env : Env) (node : Int) : State → State := sweep (byNodeBody env.myTID.node node)

/-- The loop body of `PSIDspawn_cleanupBySpawner()`. -/
def bySpawnerBody (myTID tid : TaskId) (task : Task) : Action Task Record :=
  if task.deleted then (some task, none)
  else if task.tid ≠ tid then (some task, none)
  else
    (some { task with deleted := true, cpuSet := ∅ },
      some (task.origin, .answered ⟨myTID, task.tid, .echild, task.rank⟩))

def cleanupBySpawner (env : Env) (tid : TaskId) : State → State :=
  sweep (bySpawnerBody env.myTID tid)

def cleanupSpawnTasks : State → State :=
  sweep (fun task => if task.deleted then (none, none) else (some task, none))

/-! ## Reservations -/

def cleanupFilter (resID : Int) : PluginFilter := fun task =>
  if task.resID ≠ resID then (false, task.delayReasons)
  else (true, task.delayReasons &&& ~~~ delayResInfo)

/-- What `putResinfo()` does to the delayed tasks. -/
def putResinfo (resID : Int) : State → State := cleanupDelayedTasks (cleanupFilter resID)

def startFilter (myTID : TaskId) (res : ResInfo) (task : Task) : Filtered :=
  if task.resID ≠ res.resID ∨ res.nLocalSlots = 0 ∨
      task.delayReasons &&& delayResInfo = 0 then .hold task
  else
    match fillTaskFromResInfo task (some res) with
    | (some error, task) => .evict ⟨myTID, task.spawnertid, error, task.rank⟩
    | (none, task) =>
      .pass { task with
        delayReasons := task.delayReasons &&& ~~~ delayResInfo }

/-- The reservations of a job. -/
def resInfosOf (sessions : List Session) (sessionID jobID : TaskId) : List ResInfo :=
  match sessions.find? (fun session => session.ID = sessionID) with
  | none => []
  | some session =>
    match session.jobs.find? (fun job => job.ID = jobID) with
    | none => []
    | some job => job.resInfos

/-- The reservation a `PSP_DD_RESCREATED` is about. -/
def resCreatedIDs (flags : Flags) (rData : DataBuffer) : Int × TaskId × TaskId :=
  let (resID, rData) := getInt32 flags rData 0
  let (sessionID, rData) := getTaskId flags rData noTid
  let (jobID, _) := getTaskId flags rData noTid
  (resID, sessionID, jobID)

/-- The remnants `addReservationToJob()` drops. -/
def remnants (flags : Flags) (rData : DataBuffer) (sessions : List Session) : List Int :=
  let (resID, sessionID, jobID) := resCreatedIDs flags rData
  ((resInfosOf sessions sessionID jobID).map ResInfo.resID).filter (· = resID)

def msgResCreated (flags : Flags) (rData : DataBuffer) (state : State) :
    State :=
  let state := (remnants flags rData state.sessions).foldr putResinfo state
  { state with sessions := handleResCreated flags rData state.sessions }

/-- The reservation a `PSP_DD_RESSLOTS` is about. -/
def resSlotsIDs (flags : Flags) (rData : DataBuffer) : TaskId × TaskId × Int :=
  let (sessionID, rData) := getTaskId flags rData noTid
  let (jobID, rData) := getTaskId flags rData noTid
  let (resID, _) := getInt32 flags rData 0
  (sessionID, jobID, resID)

def resOfSlots (flags : Flags) (rData : DataBuffer) (sessions : List Session) : Option ResInfo :=
  let (sessionID, jobID, resID) := resSlotsIDs flags rData
  findResInfo sessions sessionID jobID resID

/-- A reservation not known, whose delayed tasks `handleResSlots()` cleans
up. -/
def unknownRes (flags : Flags) (rData : DataBuffer) (sessions : List Session) : List Int :=
  match resOfSlots flags rData sessions with
  | none => [(resSlotsIDs flags rData).2.2]
  | some _ => []

/-- The reservation for which `handleResSlots()` starts delayed tasks: it had
no slots before and got some. -/
def filledRes (flags : Flags) (numThrds : Nat) (rData : DataBuffer)
    (sessions : List Session) : Option ResInfo :=
  match resOfSlots flags rData sessions with
  | none => none
  | some res =>
    if res.localSlots.isSome then none
    else
      (resOfSlots flags rData
        (handleResSlots flags numThrds rData sessions)).filter (fun res => res.localSlots.isSome)

def msgResSlots (env : Env) (flags : Flags) (numThrds : Nat)
    (rData : DataBuffer) (state : State) : State :=
  let filled := filledRes flags numThrds rData state.sessions
  let state := (unknownRes flags rData state.sessions).foldr putResinfo state
  let state := { state with
    sessions := handleResSlots flags numThrds rData state.sessions }
  match filled with
  | none => state
  | some res => startDelayedTasks env (startFilter env.myTID res) state

/-- The reservation `msg_RESRELEASED()` finds. -/
def releasedRes (sessionID jobID : TaskId) (resID : Int) (sessions : List Session) : List Int :=
  (((resInfosOf sessions sessionID jobID).map ResInfo.resID).find? (· = resID)).toList

/-- Remove a reservation with its job and session once these are empty. -/
def removeRes (sessionID jobID : TaskId) (resID : Int) (sessions : List Session) : List Session :=
  match sessions.find? (fun session => session.ID = sessionID) with
  | none => sessions
  | some session =>
    match session.jobs.find? (fun job => job.ID = jobID) with
    | none => sessions
    | some job =>
      let resInfos := job.resInfos.eraseP (fun res => res.resID = resID)
      let jobs :=
        if resInfos = [] then
          session.jobs.eraseP (fun job => job.ID = jobID)
        else
          updateFirst (fun job => job.ID = jobID)
            (fun job => { job with resInfos := resInfos }) session.jobs
      if jobs = [] then
        sessions.eraseP (fun session => session.ID = sessionID)
      else
        updateFirst (fun session => session.ID = sessionID)
          (fun session => { session with jobs := jobs }) sessions

def msgResReleased (sessionID jobID : TaskId) (resID : Int) (state : State) :
    State :=
  let state := (releasedRes sessionID jobID resID state.sessions).foldr putResinfo state
  { state with sessions := removeRes sessionID jobID resID state.sessions }

/-- The reservations of a session. -/
def sessionRes (sessionID : TaskId) (sessions : List Session) : List Int :=
  match sessions.find? (fun session => session.ID = sessionID) with
  | none => []
  | some session => session.jobs.flatMap (fun job => job.resInfos.map ResInfo.resID)

def msgResCleanup (sender : TaskId) (state : State) : State :=
  let state := (sessionRes sender state.sessions).foldr putResinfo state
  { state with
    sessions := state.sessions.eraseP (fun session => session.ID = sender) }

/-! ## Events -/

inductive Event where
  | spawnReq (req : SpawnReq)
  | resCreated (flags : Flags) (rData : DataBuffer)
  | resSlots (flags : Flags) (numThrds : Nat) (rData : DataBuffer)
  | resReleased (sessionID jobID : TaskId) (resID : Int)
  | resCleanup (sender : TaskId)
  | startDelayedTasks (filter : PluginFilter)
  | cleanupDelayedTasks (filter : PluginFilter)
  | cleanupByNode (node : Int)
  | cleanupBySpawner (tid : TaskId)
  | cleanupSpawnTasks

def handle (env : Env) : Event → State → State
  | .spawnReq req => handleSpawnReq env req
  | .resCreated flags rData => msgResCreated flags rData
  | .resSlots flags numThrds rData => msgResSlots env flags numThrds rData
  | .resReleased sessionID jobID resID => msgResReleased sessionID jobID resID
  | .resCleanup sender => msgResCleanup sender
  | .startDelayedTasks filter => startDelayedTasks env filter.filtered
  | .cleanupDelayedTasks filter => cleanupDelayedTasks filter
  | .cleanupByNode node => cleanupByNode env node
  | .cleanupBySpawner tid => cleanupBySpawner env tid
  | .cleanupSpawnTasks => cleanupSpawnTasks

end Psmgmt.Spawn
