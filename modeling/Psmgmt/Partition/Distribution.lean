import Psmgmt.Partition.Slot
import Psmgmt.Serial.Accessors

/-!
# Distributing reservations

The messages telling the nodes of a partition about a new reservation, as the
daemon holding the partition builds them and as the nodes store them.  Each
message is sent successfully; its payload is what the receiver unpacks.
-/

namespace Psmgmt.Partition

open Serial Function

/-- What is used of a task with a partition: the nodes in its or its delegate's
partition and in its sister partitions. -/
structure Holder where
  loggertid : TaskId
  partition : List Nat
  sisterParts : List Nat

/-- `PSP_DD_RESCREATED`. -/
def pspResCreated : Int := 0x0140

/-- `PSP_DD_RESSLOTS`. -/
def pspResSlots : Int := 0x0142

/-! ## Sending -/

/-- The loops of `prepareDestinations()`. -/
def destinationLoop : List Nat → (sendCount : Nat → Bool) → List TaskId
  | [], _ => []
  | node :: rest, sendCount =>
    if sendCount node then destinationLoop rest sendCount
    else
      ⟨node, 0⟩ :: destinationLoop rest (update sendCount node true)

def prepareDestinations (task : Holder) (filter : Nat → Bool) : List TaskId :=
  destinationLoop (task.partition ++ task.sisterParts) filter

/-- The loop of `send_RESCREATED()` compressing slots on one node. -/
def rankBlocks (firstRank : Nat) :
    List Slot → (i : Nat) → (firstrank : Int) → List (Nat × Int × Int)
  | [], _, _ => []
  | slot :: rest, i, firstrank =>
    if rest.head?.any (fun next => next.node = slot.node) then
      rankBlocks firstRank rest (i + 1) firstrank
    else
      let lastrank : Int := firstRank + i
      (slot.node, firstrank, lastrank) :: rankBlocks firstRank rest (i + 1) (lastrank + 1)

def blockAdditions (block : Nat × Int × Int) : List Addition :=
  [addNodeIdToMsg block.1, addInt32ToMsg block.2.1, addInt32ToMsg block.2.2]

def resCreatedMsg (task : Holder) (res : Reservation) (slots : List Slot)
    (dests : List TaskId) : Emission where
  headType := pspResCreated
  msgType := -1
  extra := []
  dests := dests
  additions :=
    [addInt32ToMsg res.rid, addTaskIdToMsg task.loggertid,
      addTaskIdToMsg res.requester, addUint32ToMsg res.rankOffset,
      addTaskIdToMsg res.task] ++
      (rankBlocks res.firstRank (slots.take res.nSlots) 0 res.firstRank).flatMap blockAdditions
  complete := true

def sendResCreated (task : Holder) (res : Reservation)
    (filter : Nat → Bool) : Bool × List Emission :=
  if res.nSlots < 1 then (false, [])
  else
    let dests := prepareDestinations task filter
    if dests = [] then (true, [])
    else (true, [resCreatedMsg task res (res.slots.getD []) dests])

/-- The slots on each node, counted by 16-bit integers. -/
def countSlots : List Slot → (sendCount : Nat → Nat) → Nat → Nat
  | [], sendCount => sendCount
  | slot :: rest, sendCount =>
    countSlots rest (update sendCount slot.node ((sendCount slot.node + 1) % 2 ^ 16))

/-- The inner loop of `send_RESSLOTS()`, with what is left of
`sendCount[node]`. -/
def localPairs (firstRank node nBytes : Nat) :
    List Slot → (ss sendCount : Nat) → List Addition × Nat
  | [], _, sendCount => ([], sendCount)
  | slot :: rest, ss, sendCount =>
    if sendCount = 0 then ([], 0)
    else if slot.node ≠ node then
      localPairs firstRank node nBytes rest (ss + 1) sendCount
    else
      let (mem, sendCount) :=
        if nBytes ≠ 0 then
          ([addMemToMsg (extract slot.cpuSet nBytes)], sendCount - 1)
        else ([], sendCount)
      let (pairs, left) := localPairs firstRank node nBytes rest (ss + 1) sendCount
      (addInt32ToMsg (firstRank + ss : Nat) :: mem ++ pairs, left)

def resSlotsMsg (task : Holder) (res : Reservation) (node nBytes num : Nat)
    (pairs : List Addition) : Emission where
  headType := pspResSlots
  msgType := -1
  extra := []
  dests := [⟨node, 0⟩]
  additions :=
    [addTaskIdToMsg task.loggertid, addTaskIdToMsg res.requester,
      addInt32ToMsg res.rid, addUint16ToMsg nBytes, addUint16ToMsg num] ++
      pairs ++ [addInt32ToMsg (-1)]
  complete := true

/-- The outer loop of `send_RESSLOTS()`. -/
def resSlotsLoop (numThrds : Nat → Nat) (task : Holder) (res : Reservation) :
    List Slot → (s : Nat) → (sendCount : Nat → Nat) → List Emission
  | [], _, _ => []
  | slot :: rest, s, sendCount =>
    if sendCount slot.node = 0 then
      resSlotsLoop numThrds task res rest (s + 1) sendCount
    else
      let nBytes := bytesForCPUs (numThrds slot.node)
      let (pairs, left) := localPairs res.firstRank slot.node nBytes
        (slot :: rest) s (sendCount slot.node)
      resSlotsMsg task res slot.node nBytes (sendCount slot.node) pairs ::
        resSlotsLoop numThrds task res rest (s + 1) (update sendCount slot.node left)

def sendResSlots (numThrds : Nat → Nat) (task : Holder) (res : Reservation) :
    Bool × List Emission :=
  if res.nSlots < 1 then (false, [])
  else
    let slots := (res.slots.getD []).take res.nSlots
    (true, resSlotsLoop numThrds task res slots 0 (countSlots slots (fun _ => 0)))

/-! ## Storing -/

/-- `PSresinfoentry_t`. -/
structure ResInfoEntry where
  node : Int
  firstRank : Int
  lastRank : Int
  deriving DecidableEq, Repr

/-- `PSresslot_t`. -/
structure ResSlot where
  rank : Int
  cpuSet : CPUSet
  deriving DecidableEq

/-- `PSresinfo_t`. -/
structure ResInfo where
  resID : Int
  partHolder : TaskId
  rankOffset : Nat
  minRank : Int
  maxRank : Int
  entries : List ResInfoEntry
  nLocalSlots : Nat
  localSlots : Option (List ResSlot)
  deriving DecidableEq

/-- `PSjob_t`. -/
structure Job where
  ID : TaskId
  resInfos : List ResInfo
  deriving DecidableEq

/-- `PSsession_t`. -/
structure Session where
  ID : TaskId
  jobs : List Job
  deriving DecidableEq

/-- Change the first element found, or a new one at the end. -/
def upsert {α : Type} (found : α → Bool) (change : α → α) (new : α) : List α → List α
  | [] => [change new]
  | head :: rest =>
    if found head then change head :: rest
    else head :: upsert found change new rest

def updateFirst {α : Type} (found : α → Bool) (change : α → α) : List α → List α
  | [] => []
  | head :: rest =>
    if found head then change head :: rest
    else head :: updateFirst found change rest

def findResInfo (sessions : List Session) (sessionID jobID : TaskId)
    (resID : Int) : Option ResInfo :=
  match sessions.find? (fun session => session.ID = sessionID) with
  | none => none
  | some session =>
    match session.jobs.find? (fun job => job.ID = jobID) with
    | none => none
    | some job => job.resInfos.find? (fun res => res.resID = resID)

def addReservationToJob (res : ResInfo) (job : Job) : Job :=
  { job with
    resInfos := job.resInfos.filter (fun cur => cur.resID ≠ res.resID) ++ [res] }

def addReservation (sessionID jobID : TaskId) (res : ResInfo)
    (sessions : List Session) : List Session :=
  upsert (fun session => session.ID = sessionID)
    (fun session =>
      { session with
        jobs := upsert (fun job => job.ID = jobID) (addReservationToJob res)
          ⟨jobID, []⟩ session.jobs })
    ⟨sessionID, []⟩ sessions

def changeResInfo (sessionID jobID : TaskId) (resID : Int)
    (change : ResInfo → ResInfo) (sessions : List Session) : List Session :=
  updateFirst (fun session => session.ID = sessionID)
    (fun session =>
      { session with
        jobs := updateFirst (fun job => job.ID = jobID)
          (fun job =>
            { job with
              resInfos := updateFirst (fun res => res.resID = resID) change job.resInfos })
          session.jobs })
    sessions

/-- The loop of `handleResCreated()` fetching the entries. -/
def readEntries (flags : Flags) : (nEntries : Nat) → DataBuffer → List ResInfoEntry
  | 0, _ => []
  | nEntries + 1, rData =>
    let (node, rData) := getNodeId flags rData 0
    let (firstRank, rData) := getInt32 flags rData 0
    let (lastRank, rData) := getInt32 flags rData 0
    ⟨node, firstRank, lastRank⟩ :: readEntries flags nEntries rData

/-- The minimum and maximum rank collected along with the entries. -/
def rankBounds : List ResInfoEntry → Int × Int
  | [] => (0, 0)
  | first :: rest =>
    rest.foldl
      (fun bounds entry =>
        (if entry.firstRank < bounds.1 then entry.firstRank else bounds.1,
          if entry.lastRank > bounds.2 then entry.lastRank else bounds.2))
      (first.firstRank, first.lastRank)

def entrySize : Nat := 4 + 4 + 4

def noTid : TaskId := ⟨0, 0⟩

def handleResCreated (flags : Flags) (rData : DataBuffer)
    (sessions : List Session) : List Session :=
  let (resID, rData) := getInt32 flags rData 0
  let (sessionID, rData) := getTaskId flags rData noTid
  let (jobID, rData) := getTaskId flags rData noTid
  let (rankOffset, rData) := getUint32 flags rData 0
  let (partHolder, rData) := getTaskId flags rData noTid
  let nEntries := rData.getAvail / entrySize
  let entries := readEntries flags nEntries rData
  let (minRank, maxRank) := rankBounds entries
  addReservation sessionID jobID
    { resID := resID, partHolder := partHolder, rankOffset := rankOffset,
      minRank := minRank, maxRank := maxRank, entries := entries,
      nLocalSlots := 0, localSlots := none }
    sessions

/-- The loop of `handleResSlots()`; an invalid rank drops the slots. -/
def readSlots (flags : Flags) (nBytes : Nat) (minRank maxRank : Int) :
    (num : Nat) → (rank : Int) → DataBuffer → Option (List ResSlot)
  | 0, _, _ => some []
  | num + 1, rank, rData =>
    let (rank, rData) := getInt32 flags rData rank
    if rank < 0 ∨ rank < minRank ∨ rank > maxRank then none
    else
      let (cpuBuf, rData) := getMem flags rData nBytes []
      (readSlots flags nBytes minRank maxRank num rank rData).map
        (⟨rank, inject ∅ cpuBuf nBytes⟩ :: ·)

/-- `handleResSlots()` on a node with `numThrds` HW-threads, up to starting
delayed tasks. -/
def handleResSlots (flags : Flags) (numThrds : Nat) (rData : DataBuffer)
    (sessions : List Session) : List Session :=
  let (sessionID, rData) := getTaskId flags rData noTid
  let (jobID, rData) := getTaskId flags rData noTid
  let (resID, rData) := getInt32 flags rData 0
  match findResInfo sessions sessionID jobID resID with
  | none => sessions
  | some res =>
    if res.localSlots.isSome then sessions
    else
      let (nBytes, rData) := getUint16 flags rData 0
      if nBytes = 0 ∨ nBytes ≠ bytesForCPUs numThrds then sessions
      else
        let (num, rData) := getUint16 flags rData 0
        changeResInfo sessionID jobID resID
          (fun res =>
            { res with
              nLocalSlots := num
              localSlots := readSlots flags nBytes res.minRank res.maxRank num 0 rData })
          sessions

end Psmgmt.Partition
