import Psmgmt.Partition.Threads

/-!
# Reservations of a task

How a task with a partition serves its reservation requests and takes back
slots.  Within a queue `request` plays the part of a reservation's address.
-/

namespace Psmgmt.Partition

open List Option

/-- Conversion to a 32-bit integer. -/
def int32 (value : Int) : Int := (value + 2 ^ 31) % 2 ^ 32 - 2 ^ 31

/-- Conversion to an unsigned 32-bit integer. -/
def uint32 (value : Int) : Nat := (value % 2 ^ 32).toNat

inductive Errno where
  | eacces | ebadrqc | einval | enospc | ebusy | ecanceled
  | other (eno : Nat)
  deriving DecidableEq, Repr

/-- What a request is answered with. -/
inductive Answer where
  | granted (rid : Int) (nSlots : Nat)
  | refused (eno : Errno)
  deriving DecidableEq, Repr

/-- The messages sent on behalf of the task. -/
inductive Sent where
  | reservationRes (request : Nat) (dest : TaskId) (answer : Answer)
  | resCreated (res : Reservation)
  | placeholder (res : Reservation)
  | placeholderRefused (request : Nat) (dest : TaskId) (eno : Errno)
  | askLogger (request : Nat)
  | forwarded (dest : TaskId)
  | resReleased (res : Reservation)
  | slotsRes (dest : TaskId) (rid : Int) (rank : Int) (slots : List Slot)
  | slotsRefused (dest : TaskId) (eno : Errno)
  deriving DecidableEq

/-- The part of `PStask_t` reservations deal with, and what was sent. -/
structure Task where
  tid : TaskId
  ptid : Option TaskId
  loggertid : TaskId
  pluginFw : Bool
  partition : Bool
  options : Options
  pool : ThreadPool
  resRequests : List Reservation
  reservations : List Reservation
  firstSpawner : TaskId
  numChild : Int
  activeSlots : Int
  nextResID : Int
  sent : List Sent

/-- The result of `PSIDHOOK_GETRESERVATION`. -/
inductive HookResult where
  | nofunc
  | failed
  | done (nSlots : Nat) (slots : List Slot)
  deriving DecidableEq

/-- The daemon around the task. -/
structure Env where
  hwStatus : Nat → Nat
  fuel : Nat
  getReservation : Task → Reservation → HookResult
  xtndPartDynamic : Bool

/-! ## Queues -/

def enqRes (queue : List Reservation) (res : Reservation) : List Reservation := queue ++ [res]

def findRes (queue : List Reservation) (rid : Int) : Option Reservation :=
  queue.find? (fun res => res.rid = rid)

def removeRes (queue : List Reservation) (request : Nat) : List Reservation :=
  queue.filter (fun res => res.request ≠ request)

/-- Nothing is removed where another reservation with this ID is found. -/
def deqRes (queue : List Reservation) (res : Reservation) : List Reservation :=
  match findRes queue res.rid with
  | none => queue
  | some found =>
    if found.request = res.request then removeRes queue res.request
    else queue

def findResByRequester (queue : List Reservation) (requester : TaskId) : Option Reservation :=
  queue.foldl
    (fun (answer : Option Reservation) (res : Reservation) =>
      if res.requester ≠ requester then answer
      else
        match answer with
        | some found => if found.firstRank > res.firstRank then answer else res
        | none => some res)
    none

/-- A reservation is changed in place. -/
def storeRes : List Reservation → Reservation → List Reservation
  | [], _ => []
  | r :: rest, res =>
    if r.request = res.request ∧ r.rid = res.rid then res :: rest
    else r :: storeRes rest res

variable {queue : List Reservation}

theorem mem_deqRes {res other : Reservation} (member : other ∈ deqRes queue res) :
    other ∈ queue := by
  unfold deqRes at member
  split at member
  · exact member
  · split at member
    · exact (mem_filter.mp member).1
    · exact member

theorem mem_storeRes {res other : Reservation}
    (member : other ∈ storeRes queue res) : other ∈ queue ∨ other = res := by
  induction queue with
  | nil => cases member
  | cons r rest induction =>
    unfold storeRes at member
    split at member
    · rcases mem_cons.mp member with first | later
      · exact .inr first
      · exact .inl (mem_cons_of_mem _ later)
    · rcases mem_cons.mp member with first | later
      · exact .inl (first ▸ mem_cons_self)
      · rcases induction later with queued | stored
        · exact .inl (mem_cons_of_mem _ queued)
        · exact .inr stored

theorem findRes_rid {rid : Int} {res : Reservation}
    (found : findRes queue rid = some res) : res ∈ queue ∧ res.rid = rid := by
  refine ⟨mem_of_find?_eq_some found, ?_⟩
  simpa using find?_some found

/-- `PStask_getNextResID()`. -/
def getNextResID (task : Task) : Int × Task :=
  let next := int32 (task.nextResID + 1)
  let next := if next = -2 then 1 else next
  (next, { task with nextResID := next })

/-! ## Creating reservations -/

def Reservation.spec (res : Reservation) (np : Nat) : SlotSpec :=
  ⟨np, res.ppn, res.tpp, res.hwType, res.options⟩

/-- How many slots of the kind requested the whole partition offers. -/
def slotsPossible (hwStatus : Nat → Nat) (pool : ThreadPool) (res : Reservation) : Nat :=
  ((List.range pool.totalThreads).foldl
    (fun (count : Nat × Nat) t =>
      let node := (pool.partThrds t).node
      if !hwFits hwStatus res.hwType node then count
      else
        let thrdsGot :=
          if t ≠ 0 ∧ (pool.partThrds (t - 1)).node = node then count.2 + 1
          else 1
        if thrdsGot = res.tpp then (count.1 + 1, 0) else (count.1, thrdsGot))
    (0, 0)).1

/-- `PSIDpart_getReservation()`: the number of slots got or -1. -/
def getReservation (env : Env) (task : Task) (res : Reservation) :
    Option (Int × Reservation × Task) :=
  let create := fun np => createSlots env.hwStatus (res.spec np) task.pool env.fuel
  (create res.nMax true).bind fun (dry, _) =>
    let got := dry.length
    let res := { res with slots := some dry }
    if got < res.nMin then
      if res.options.dynamic then
        (create got false).map fun (slots, pool) =>
          (int32 got, { res with slots := some slots }, { task with pool := pool })
      else if res.checked then some (0, res, task)
      else if slotsPossible env.hwStatus task.pool res < res.nMin then
        some (-1, res, task)
      else some (0, { res with checked := true }, task)
    else if !res.options.dynamic ∧ got = 0 then
      some (-1, { res with slots := none }, task)
    else
      (create got false).map fun (slots, pool) =>
        (int32 slots.length, { res with slots := some slots }, { task with pool := pool })

def Task.send (task : Task) (msg : Sent) : Task := { task with sent := task.sent ++ [msg] }

/-- The request is answered with an error. -/
def refuse (task : Task) (res : Reservation) (eno : Errno) : Task :=
  task.send (.reservationRes res.request res.requester (.refused eno))

/-- The ranks a new reservation starts from. -/
def rankRes (task : Task) (res : Reservation) : Reservation × Task :=
  if task.numChild = 0 then (res, { task with firstSpawner := res.requester })
  else if res.requester ≠ task.firstSpawner then
    let firstRank :=
      match findResByRequester task.reservations res.requester with
      | some prev => uint32 (prev.firstRank + prev.nSlots)
      | none => 0
    ({ res with
        firstRank := firstRank
        rankOffset := uint32 (task.numChild - firstRank) }, task)
  else (res, task)

/-- The request became a reservation with `got` slots. -/
def announce (task : Task) (res : Reservation) (got : Int) : Task :=
  { task with
    numChild := int32 (task.numChild + got)
    reservations := enqRes task.reservations res
    sent := task.sent ++
      [.resCreated res, .reservationRes res.request res.requester (.granted res.rid res.nSlots)] }

def grant (task : Task) (res : Reservation) (got : Int) : Task :=
  let (res, task) := rankRes task res
  announce task res got

def dequeue (task : Task) (res : Reservation) : Task :=
  { task with resRequests := deqRes task.resRequests res }

def storeRequest (task : Task) (res : Reservation) : Task :=
  { task with resRequests := storeRes task.resRequests res }

/-- The first `num` slots are released. -/
def releaseSlotsOf (task : Task) (slots : List Slot) : Task :=
  let (released, _, pool) := releaseThreads slots task.pool
  { task with
    pool := { pool with usedThreads := pool.usedThreads - released } }

/-- A dynamic request got less than `nMax` slots. -/
def handlePart (env : Env) (got : Int) (res : Reservation) (task : Task) : Bool × Task :=
  let res := if got < 0 then { res with nSlots := 0 } else res
  let numChild := int32 (task.numChild + res.nMax)
  if env.xtndPartDynamic then
    (true, storeRequest { task with numChild := numChild } { res with dynSent := true })
  else if got < int32 res.nMin then
    let task := { task with numChild := int32 (numChild - res.nMax) }
    let task :=
      if got > 0 then
        releaseSlotsOf task ((res.slots.getD []).take got.toNat)
      else task
    (true, refuse (dequeue task res) res .enospc)
  else
    let task := { task with numChild := int32 (numChild - (res.nMax - got)) }
    (true, grant (dequeue task res) res got)

/-- The generic creation got `got` slots. -/
def handleGot (env : Env) (got : Int) (res : Reservation) (task : Task) : Bool × Task :=
  let res := { res with nSlots := uint32 got }
  if got < int32 res.nMax ∧ res.options.dynamic then
    handlePart env got res task
  else if got = 0 then
    if res.options.wait then (false, storeRequest task res)
    else (true, refuse (dequeue task res) res .ebusy)
  else if got < 0 then (true, refuse (dequeue task res) res .enospc)
  else (true, grant (dequeue task res) res got)

/-- The request before slots are looked for. -/
def prepare (task : Task) (res : Reservation) : Reservation :=
  { res with firstRank := uint32 task.numChild, nextSlot := 0, relSlots := 0 }

/-- Whether further requests shall be handled, and the task afterwards. -/
def handleSingleResRequest (env : Env) (res : Reservation) (task : Task) : Option (Bool × Task) :=
  if res.dynSent then some (true, task)
  else
    let res := prepare task res
    match env.getReservation task res with
    | .done nSlots slots =>
      let res := { res with nSlots := nSlots, slots := some slots }
      some (true, grant (dequeue task res) res (int32 nSlots))
    | .failed => some (true, refuse (dequeue task res) res .ecanceled)
    | .nofunc =>
      (getReservation env task res).map fun (got, res, task) => handleGot env got res task

/-- The loop of `handleResRequests()` over the requests that were queued. -/
def handleLoop (env : Env) : List Reservation → Task → Option Task
  | [], task => some task
  | res :: rest, task =>
    (handleSingleResRequest env res task).bind fun (next, task) =>
      if next then handleLoop env rest task else some task

def handleResRequests (env : Env) (task : Task) : Option Task :=
  handleLoop env task.resRequests task

/-- Looking for slots changes the HW-threads and the slots noted down. -/
structure Looked (task : Task) (res : Reservation)
    (found : Int × Reservation × Task) : Prop where
  res : ∃ slots checked, found.2.1 = { res with slots := slots, checked := checked }
  task : ∃ pool, found.2.2 = { task with pool := pool }

theorem getReservation_looked {env : Env} {task : Task} {res : Reservation}
    {found : Int × Reservation × Task} (result : getReservation env task res = some found) :
    Looked task res found := by
  unfold getReservation at result
  rcases bind_eq_some_iff.mp result with ⟨⟨dry, pool⟩, _, result⟩
  simp only at result
  split at result
  · split at result
    · rcases map_eq_some_iff.mp result with ⟨⟨slots, pool⟩, _, rfl⟩
      exact ⟨⟨some slots, res.checked, rfl⟩, ⟨pool, rfl⟩⟩
    · split at result
      · cases result
        exact ⟨⟨some dry, res.checked, rfl⟩, ⟨task.pool, rfl⟩⟩
      · split at result
        · cases result
          exact ⟨⟨some dry, res.checked, rfl⟩, ⟨task.pool, rfl⟩⟩
        · cases result
          exact ⟨⟨some dry, true, rfl⟩, ⟨task.pool, rfl⟩⟩
  · split at result
    · cases result
      exact ⟨⟨none, res.checked, rfl⟩, ⟨task.pool, rfl⟩⟩
    · rcases map_eq_some_iff.mp result with ⟨⟨slots, pool⟩, _, rfl⟩
      exact ⟨⟨some slots, res.checked, rfl⟩, ⟨pool, rfl⟩⟩

/-! ## Messages -/

/-- `PSP_CD_GETRESERVATION`; `complete` unless some information is missing,
`sendErr` where sending to the logger or to the parent fails. -/
structure GetReservation where
  sender : TaskId
  nMin : Nat
  nMax : Nat
  ppn : Nat
  tpp : Nat
  hwType : Nat
  options : Options
  complete : Bool
  sendErr : Option Errno
  deriving DecidableEq, Repr

/-- The request as it is read from the message. -/
def GetReservation.res (msg : GetReservation) (task : TaskId) (request : Nat) : Reservation where
  request := request
  task := task
  requester := msg.sender
  nMin := msg.nMin
  nMax := msg.nMax
  ppn := msg.ppn
  tpp := msg.tpp
  hwType := msg.hwType
  options := msg.options
  rid := 0
  firstRank := 0
  rankOffset := 0
  nSlots := 0
  slots := none
  nextSlot := 0
  relSlots := 0
  checked := false
  dynSent := false

/-- A step forwarder asks its logger for a reservation ID. -/
def requestDummy (task : Task) (res : Reservation) (sendErr : Option Errno) :
    Task :=
  let res := { res with options := { res.options with dummy := true } }
  let task := { task with resRequests := enqRes task.resRequests res }
  match sendErr with
  | none => task.send (.askLogger res.request)
  | some eno => refuse (dequeue task res) res eno

/-- The logger gives a reservation ID and a range of ranks away. -/
def giveDummy (task : Task) (res : Reservation) : Task :=
  if res.nMin ≠ res.nMax then
    task.send (.placeholderRefused res.request res.requester .einval)
  else
    let res := { res with firstRank := uint32 task.numChild }
    { task with
      numChild := int32 (task.numChild + res.nMax)
      reservations := enqRes task.reservations res
      sent := task.sent ++ [.placeholder res] }

/-- The request may be tried at once. -/
def mayServe (task : Task) (res : Reservation) : Bool :=
  decide (uint32 (task.pool.usedThreads + res.nMin * res.tpp) ≤ task.pool.totalThreads) ||
    res.options.overbook || res.options.wait || res.options.dynamic

def serveRequest (env : Env) (task : Task) (res : Reservation) : Option Task :=
  if task.resRequests ≠ [] then
    if res.options.wait ∨ res.options.dynamic then
      some { task with resRequests := enqRes task.resRequests res }
    else some (refuse task res .ebusy)
  else if mayServe task res then
    let task := { task with resRequests := enqRes task.resRequests res }
    (handleSingleResRequest env res task).map Prod.snd
  else some (refuse task res .enospc)

/-- The request as the logger takes it up. -/
def takeUp (task : Task) (request : Nat) (msg : GetReservation) : Reservation × Task :=
  let (rid, task) := getNextResID task
  let res := msg.res task.tid request
  ({ res with
      rid := rid
      options := if res.options.dflt then task.options else res.options }, task)

def msgGetReservation (env : Env) (request : Nat) (msg : GetReservation)
    (task : Task) : Option Task :=
  let res := msg.res task.tid request
  match task.ptid, task.partition with
  | some ptid, false =>
    match msg.sendErr with
    | none => some (task.send (.forwarded ptid))
    | some eno => some (refuse task res eno)
  | _, _ =>
    if task.pool.totalThreads = 0 then some (refuse task res .ebadrqc)
    else if !msg.complete then some (refuse task res .einval)
    else if task.tid ≠ task.loggertid then
      if !task.pluginFw then some (refuse task res .eacces)
      else some (requestDummy task res msg.sendErr)
    else
      let (res, task) := takeUp task request msg
      if res.options.dummy then some (giveDummy task res)
      else serveRequest env task res

/-- `PSP_DD_RESERVATIONRES`: the logger's answer to a step forwarder. -/
structure ReservationRes where
  rid : Int
  got : Nat
  firstRank : Option Nat
  eno : Errno
  deriving DecidableEq, Repr

/-- Build the reservation the logger gave an ID for. -/
def buildDummy (env : Env) (msg : ReservationRes) (task : Task) (res : Reservation) : Task :=
  match msg.firstRank with
  | none => refuse task res .einval
  | some frstRnk =>
    if msg.got ≠ res.nMin then refuse task res .enospc
    else
      let options := { res.options with dummy := false }
      let options := if options.dflt then task.options else options
      let res := { res with options := options }
      if uint32 (task.pool.usedThreads + msg.got * res.tpp) >
          task.pool.totalThreads then refuse task res .ebusy
      else
        let res := prepare task res
        match env.getReservation task res with
        | .done nSlots slots =>
          let res := { res with
            nSlots := nSlots
            slots := some slots
            rankOffset := uint32 ((frstRnk : Int) - res.firstRank) }
          announce task res msg.got
        | _ => refuse task res .ecanceled

def msgReservationRes (env : Env) (msg : ReservationRes) (task : Task) : Task :=
  if !task.pluginFw ∨ !task.partition then task
  else
    match task.resRequests with
    | [] => task
    | res :: _ =>
      if res.rid ≠ 0 ∨ !res.options.dummy then task
      else
        let task := dequeue task res
        if msg.rid = 0 then refuse task res msg.eno
        else buildDummy env msg task { res with rid := msg.rid }

/-- `PSP_DD_CHILDRESREL`; `cpuSets` are on the sender's node. -/
structure ChildResRel where
  node : Nat
  cpuSets : List CPUSet
  numSlots : Nat
  rid : Int
  deriving DecidableEq

def countReleased (task : Task) (res : Reservation) (numSlots : Nat) : Task :=
  let res := { res with relSlots := uint32 (res.relSlots + numSlots) }
  if res.relSlots ≥ res.nSlots then
    { task with
      reservations := deqRes task.reservations res
      sent := task.sent ++ [.resReleased res] }
  else { task with reservations := storeRes task.reservations res }

def releaseCPUSets (node : Nat) (cpuSets : List CPUSet) (task : Task) : Task :=
  cpuSets.foldl (fun task cpuSet => releaseSlotsOf task [⟨node, cpuSet⟩]) task

theorem releaseCPUSets_keeps (node : Nat) (cpuSets : List CPUSet) :
    ∀ task : Task, ∃ pool, releaseCPUSets node cpuSets task = { task with pool := pool } := by
  induction cpuSets with
  | nil => exact fun task => ⟨task.pool, rfl⟩
  | cons cpuSet rest induction =>
    intro task
    rcases induction (releaseSlotsOf task [⟨node, cpuSet⟩]) with ⟨pool, after⟩
    exact ⟨pool, after⟩

/-- The step forwarder a placeholder was given to. -/
def placeholderOf (task : Task) (rid : Int) : Option TaskId :=
  (findRes task.reservations rid).bind fun res =>
    if res.options.dummy then some res.requester else none

def countMsg (task : Task) (msg : ChildResRel) : Task :=
  match findRes task.reservations msg.rid with
  | some res => countReleased task res msg.numSlots
  | none => task

def takeBack (task : Task) (msg : ChildResRel) : Task :=
  let task := releaseCPUSets msg.node msg.cpuSets (countMsg task msg)
  { task with activeSlots := int32 (task.activeSlots - msg.numSlots) }

def msgChildResRel (env : Env) (msg : ChildResRel) (task : Task) : Option Task :=
  if task.pool.totalThreads = 0 then some task
  else
    match placeholderOf task msg.rid with
    | some requester => some (task.send (.forwarded requester))
    | none => handleResRequests env (takeBack task msg)

/-- `PSIDpart_extendRes()`, the callback of `PSIDHOOK_XTND_PART_DYNAMIC`. -/
def extendRes (env : Env) (resID : Int) (slots : List Slot) (sendErr : Bool)
    (task : Task) : Option Task :=
  match findRes task.resRequests resID with
  | none => some task
  | some res =>
    let task := dequeue task res
    let got := slots.length
    let total := uint32 (res.nSlots + got)
    match res.slots with
    | none => some (refuse task res .enospc)
    | some held =>
      if got = 0 ∨ total < res.nMin ∨ total > res.nMax then
        some (refuse (releaseSlotsOf task (held.take res.nSlots)) res .enospc)
      else
        let res := { res with
          slots := some (held.take res.nSlots ++ slots), nSlots := total }
        let task := announce task res 0
        if sendErr then some task else handleResRequests env task

/-- The slots of a reservation not handed out yet. -/
def Reservation.unused (res : Reservation) : List Slot :=
  ((res.slots.getD []).take res.nSlots).drop res.nextSlot

/-- `PSIDpart_cleanupRes()`. -/
def cleanupRes (task : Task) : Task :=
  let release := fun (acc : Nat × ThreadPool) (res : Reservation) =>
    let (released, _, pool) := releaseThreads res.unused acc.2
    (acc.1 + released, pool)
  let (released, pool) := task.reservations.foldl release (0, task.pool)
  { task with
    pool := { pool with usedThreads := pool.usedThreads - released }
    reservations := []
    sent := task.sent ++ task.reservations.map .resReleased }

/-- `NODES_CHUNK`. -/
def nodesChunk : Nat := 256

/-- `PSP_CD_GETSLOTS`. -/
structure GetSlots where
  sender : TaskId
  rid : Int
  num : Nat
  complete : Bool
  sendErr : Option Errno
  deriving DecidableEq, Repr

def msgGetSlots (msg : GetSlots) (task : Task) : Task :=
  match task.ptid, task.partition with
  | some ptid, false =>
    match msg.sendErr with
    | none => task.send (.forwarded ptid)
    | some eno => task.send (.slotsRefused msg.sender eno)
  | _, _ =>
    if !msg.complete then task.send (.slotsRefused msg.sender .einval)
    else
      match findRes task.reservations msg.rid with
      | none => task.send (.slotsRefused msg.sender .ebadrqc)
      | some res =>
        match res.slots with
        | none => task.send (.slotsRefused msg.sender .ebadrqc)
        | some slots =>
          if msg.num > nodesChunk then
            task.send (.slotsRefused msg.sender .einval)
          -- no reservation has more than `INT32_MAX` slots
          else if res.nextSlot + msg.num > res.nSlots then
            task.send (.slotsRefused msg.sender .enospc)
          else
            let out := (slots.drop res.nextSlot).take msg.num
            let rank := int32 (res.rankOffset + res.firstRank + res.nextSlot)
            { task with
              activeSlots := int32 (task.activeSlots + msg.num)
              reservations := storeRes task.reservations
                { res with nextSlot := res.nextSlot + msg.num }
              sent := task.sent ++ [.slotsRes msg.sender res.rid rank out] }

/-! ## Events -/

inductive Event where
  | getReservation (request : Nat) (msg : GetReservation)
  | getSlots (msg : GetSlots)
  | childResRel (msg : ChildResRel)
  | reservationRes (msg : ReservationRes)
  | cleanupRes

def handle (env : Env) : Event → Task → Option Task
  | .getReservation request msg, task => msgGetReservation env request msg task
  | .getSlots msg, task => some (msgGetSlots msg task)
  | .childResRel msg, task => msgChildResRel env msg task
  | .reservationRes msg, task => some (msgReservationRes env msg task)
  | .cleanupRes, task => some (cleanupRes task)

/-- No plugin hooks into the creation of reservations. -/
structure Unhooked (env : Env) : Prop where
  getReservation : ∀ task res, env.getReservation task res = .nofunc
  xtndPartDynamic : env.xtndPartDynamic = false

/-- The request is taken up. -/
def accepted (task : Task) (msg : GetReservation) : Bool :=
  (task.ptid.isNone || task.partition) &&
    decide (task.pool.totalThreads ≠ 0) && msg.complete

/-- A condition on every request handled in a row. -/
def LoopMeets (served : Env → Reservation → Task → Prop) (env : Env) :
    List Reservation → Task → Prop
  | [], _ => True
  | res :: rest, task =>
    served env res task ∧ ∀ task', handleSingleResRequest env res task = some (true, task') →
        LoopMeets served env rest task'

/-- Conditions on the placeholders given away and on the requests handled. -/
def EventMeets (given : Reservation → Task → Prop)
    (served : Env → Reservation → Task → Prop) (env : Env) (task : Task) :
    Event → Prop
  | .getReservation request msg =>
    accepted task msg = true → task.tid = task.loggertid →
      let (res, task) := takeUp task request msg
      if res.options.dummy then given res task
      else
        task.resRequests = [] → mayServe task res = true →
          served env res { task with resRequests := enqRes task.resRequests res }
  | .childResRel msg =>
    task.pool.totalThreads ≠ 0 → placeholderOf task msg.rid = none →
      LoopMeets served env (takeBack task msg).resRequests (takeBack task msg)
  | _ => True

end Psmgmt.Partition
