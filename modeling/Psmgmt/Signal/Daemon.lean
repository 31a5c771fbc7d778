import Psmgmt.Spawn.Delayed

/-!
# Releasing and inheriting tasks

The handlers of the messages by which tasks are released from each other and
pass on their children.  Handlers call each other through messages to the local
node; the calls below a handler are its argument.
-/

namespace Psmgmt.Signal

open Function

open Spawn (TaskGroup)
open Partition (noTid)

def esrch : Int := 3

def eacces : Int := 13

def ehostunreach : Int := 113

/-- What signalling uses of a `PStask_t`.  Children are stored without the
signal, which is always -1; a forwarder is named by its process ID. -/
structure Task where
  ptid : TaskId
  group : TaskGroup
  connected : Bool
  forwarder : Option Int
  noParricide : Bool
  partition : Bool
  relativesignal : Int
  released : Bool
  releaseAnswer : Bool
  parentReleased : Bool
  pendingReleaseRes : Int
  pendingReleaseErr : Int
  removeIt : Bool
  /-- A delegate or a callback keeps the task. -/
  held : Bool
  childList : List TaskId
  releasedBefore : List TaskId
  deadBefore : List TaskId
  keptChildren : List TaskId
  assignedSigs : List (TaskId × Int)
  signalReceiver : List (TaskId × Int)
  /-- The answers sent to the initiator of the task's release; the daemon does
  not count them. -/
  answered : Nat
  deriving DecidableEq

inductive Msg where
  | notifyDead (sender dest : TaskId) (signal : Int)
  | notifyDeadRes (sender dest : TaskId) (signal param : Int)
  | release (sender dest : TaskId) (signal : Int) (answer : Bool)
  | releaseRes (sender dest : TaskId) (signal param : Int)
  | signal (sender dest : TaskId) (signal : Int)
  | spawnSuccess (sender dest : TaskId)
  | newAncestor (sender dest request : TaskId)
  | adoptChildSet (sender dest : TaskId) (buf : List UInt8)
  | adoptFailed (sender dest : TaskId) (buf : List UInt8)
  | inheritDone (sender dest keptChild : TaskId)
  | inheritFailed (sender dest : TaskId)
  | childDead (sender dest request : TaskId) (failed : Bool)
  deriving DecidableEq

def Msg.dest : Msg → TaskId
  | .notifyDead _ dest _ => dest
  | .notifyDeadRes _ dest _ _ => dest
  | .release _ dest _ _ => dest
  | .releaseRes _ dest _ _ => dest
  | .signal _ dest _ => dest
  | .spawnSuccess _ dest => dest
  | .newAncestor _ dest _ => dest
  | .adoptChildSet _ dest _ => dest
  | .adoptFailed _ dest _ => dest
  | .inheritDone _ dest _ => dest
  | .inheritFailed _ dest => dest
  | .childDead _ dest _ _ => dest

/-- The message is of a type `PSP_CD_*`. -/
def Msg.toClient : Msg → Bool
  | .notifyDead .. => true
  | .notifyDeadRes .. => true
  | .release .. => true
  | .releaseRes .. => true
  | .signal .. => true
  | .spawnSuccess .. => true
  | _ => false

/-- A signal sent to a local process on behalf of a task. -/
structure Kill where
  dest : TaskId
  sender : TaskId
  signal : Int
  deriving DecidableEq

/-- Ways of a release that the daemon does not notice. -/
inductive Slip where
  /-- A `PSP_CD_RELEASE` forwarded to the parent's parent is answered before
  `deregisterFromParent()` has returned. -/
  | bounced (tid : TaskId)
  /-- A `PSP_CD_RELEASE` comes back to the task itself or to its forwarder's
  client. -/
  | returned (tid : TaskId)
  /-- A `PSP_CD_RELEASE` of a child that does not deregister from its parent. -/
  | stray (tid : TaskId)
  /-- A message that owes an answer is thrown away. -/
  | lost (msg : Msg)
  deriving DecidableEq

structure Daemon where
  myID : Int
  /-- `PSIDnodes_isUp()`. -/
  up : Int → Bool
  /-- `PStasklist_find()` in `managedTasks`. -/
  tasks : TaskId → Option Task
  /-- The order of `managedTasks`. -/
  managed : List TaskId
  out : List Msg
  clients : List Msg
  kills : List Kill
  slips : List Slip

/-! ## Tasks and messages -/

def Daemon.isLocal (d : Daemon) (tid : TaskId) : Bool := tid.getID d.myID = d.myID

/-- `PSC_getMyTID()`. -/
def Daemon.myTID (d : Daemon) : TaskId := ⟨d.myID, 0⟩

def Daemon.modify (tid : TaskId) (change : Task → Task) (d : Daemon) :
    Daemon :=
  { d with tasks := update d.tasks tid ((d.tasks tid).map change) }

def Daemon.slip (slip : Slip) (d : Daemon) : Daemon := { d with slips := d.slips ++ [slip] }

/-- `task->pendingReleaseRes`; nothing is pending for a task deleted. -/
def Daemon.pending (d : Daemon) (tid : TaskId) : Int :=
  ((d.tasks tid).map Task.pendingReleaseRes).getD 0

/-- The last part of `PSIDtask_cleanup()`. -/
def markDeleted (tid : TaskId) (d : Daemon) : Daemon :=
  match d.tasks tid with
  | none => d
  | some task =>
    if task.childList = [] ∧ task.held = false ∧ task.pendingReleaseRes = 0 then
      { d with tasks := update d.tasks tid none }
    else d

/-- The functions a handler calls. -/
structure Calls where
  sendMsg : Msg → Daemon → Daemon
  msgRelease : (registrarTid tid : TaskId) → (signal : Int) → (answer : Bool) → Daemon → Daemon
  cleanup : TaskId → Daemon → Daemon

/-! ## Signals -/

/-- `PSID_sendSignal()`, neither pervasive nor answered. -/
def sendSignal (calls : Calls) (tid sender : TaskId) (signal : Int) (d : Daemon) : Daemon :=
  if ¬ d.isLocal tid then calls.sendMsg (.signal sender tid signal) d
  else
    match d.tasks tid with
    | none => d
    | some _ =>
      if tid.getPID = 0 then d
      else
        let d := d.modify tid (fun dest =>
          { dest with
            assignedSigs := dest.assignedSigs.erase (sender, signal) })
        { d with kills := d.kills ++ [⟨tid, sender, signal⟩] }

/-- The loop of `PSID_sendAllSignals()`. -/
def sendAllSignals (calls : Calls) (tid : TaskId) : Nat → Daemon → Daemon
  | 0, d => d
  | n + 1, d =>
    match (d.tasks tid).map Task.signalReceiver with
    | some ((sigtid, sig) :: rest) =>
      let d := d.modify tid (fun task => { task with signalReceiver := rest })
      sendAllSignals calls tid n (sendSignal calls sigtid tid sig d)
    | _ => d

def sendSignalsToRelatives (calls : Calls) (tid : TaskId) (task : Task) (d : Daemon) : Daemon :=
  let d :=
    if task.ptid ≠ noTid then sendSignal calls task.ptid tid (-1) d else d
  task.childList.foldl
    (fun d child =>
      if d.up (child.getID d.myID) then sendSignal calls child tid (-1) d
      else d)
    d

def msgNotifyDeadRes (calls : Calls) (sender dest : TaskId)
    (signal param : Int) (d : Daemon) : Daemon :=
  if ¬ d.isLocal dest then
    calls.sendMsg (.notifyDeadRes sender dest signal param) d
  else
    let d :=
      if param ≠ 0 then d
      else
        d.modify dest (fun task =>
          { task with assignedSigs := task.assignedSigs ++ [(sender, signal)] })
    calls.sendMsg (.notifyDeadRes sender dest signal param) d

/-- `msg_NOTIFYDEAD()`, all nodes being valid. -/
def msgNotifyDead (calls : Calls) (registrarTid tid : TaskId) (signal : Int)
    (d : Daemon) : Daemon :=
  if tid = noTid then
    match d.tasks registrarTid with
    | none => calls.sendMsg (.notifyDeadRes tid registrarTid signal esrch) d
    | some _ =>
      let d := d.modify registrarTid (fun task => { task with relativesignal := signal })
      calls.sendMsg (.notifyDeadRes tid registrarTid signal 0) d
  else if d.isLocal tid then
    match d.tasks tid with
    | none => calls.sendMsg (.notifyDeadRes tid registrarTid signal esrch) d
    | some _ =>
      let d := d.modify tid (fun task =>
        { task with
          signalReceiver := task.signalReceiver ++ [(registrarTid, signal)] })
      let d :=
        if d.isLocal registrarTid then
          d.modify registrarTid (fun task =>
            { task with assignedSigs := task.assignedSigs ++ [(tid, signal)] })
        else d
      calls.sendMsg (.notifyDeadRes tid registrarTid signal 0) d
  else calls.sendMsg (.notifyDead registrarTid tid signal) d

/-! ## Inheritance -/

/-- The task is passed on as a child of `sender`. -/
def inherits (sender : TaskId) (task : Task) : Bool :=
  task.ptid = sender && !task.released && task.group ≠ .forwarder &&
    !(task.group = .pluginFW && task.partition)

/-! The buffer of a message of the inheritance is the list of its bytes in use. -/

/-- A `PStask_ID_t` in memory. -/
def tidMem (tid : TaskId) : List UInt8 :=
  ByteMemory.toMem 4 (tid.pid % 2 ^ 32).toNat ++ ByteMemory.toMem 4 (tid.node % 2 ^ 32).toNat

/-- The `int32_t` in these bytes. -/
def int32Of (bytes : List UInt8) : Int :=
  if ByteMemory.ofMem bytes < 2 ^ 31 then ByteMemory.ofMem bytes
  else ByteMemory.ofMem bytes - 2 ^ 32

/-- The `PStask_ID_t` in these bytes. -/
def tidOf (bytes : List UInt8) : TaskId := ⟨int32Of (bytes.drop 4), int32Of (bytes.take 4)⟩

/-- `PSP_tryPutMsgBuf()`. -/
def tryPutMsgBuf (data buf : List UInt8) : Option (List UInt8) :=
  if data.length ≤ Serial.bufMsgSize - buf.length then some (buf ++ data)
  else none

/-- `PSP_putMsgBuf()`. -/
def putMsgBuf (data buf : List UInt8) : List UInt8 := (tryPutMsgBuf data buf).getD buf

def setParent (tid ptid : TaskId) (d : Daemon) : Daemon :=
  match d.tasks tid with
  | none => d
  | some task =>
    let d := d.modify tid (fun task => { task with ptid := ptid })
    match task.forwarder with
    | none => d
    | some pid =>
      d.modify ⟨d.myID, pid⟩ (fun forwarder => { forwarder with ptid := ptid })

/-- The message that tells no child yet. -/
def emptyBuf (sender : TaskId) : List UInt8 := putMsgBuf (tidMem sender) []

/-- The loop of `msg_NEWANCESTOR()` over the tasks if the new parent's node is
up. -/
def adoptLoop (calls : Calls) (sender dest request : TaskId) :
    List TaskId → List UInt8 → Daemon → List UInt8 × Daemon
  | [], buf, d => (buf, d)
  | tid :: rest, buf, d =>
    if (d.tasks tid).any (inherits sender) then
      let released : List UInt8 :=
        if (d.tasks tid).any Task.released then [1] else [0]
      let d := setParent tid request d
      match (tryPutMsgBuf (tidMem tid) buf).bind (tryPutMsgBuf released) with
      | some buf => adoptLoop calls sender dest request rest buf d
      | none =>
        let d := calls.sendMsg (.adoptChildSet dest request buf) d
        adoptLoop calls sender dest request rest
          (putMsgBuf released (putMsgBuf (tidMem tid) (emptyBuf sender))) d
    else adoptLoop calls sender dest request rest buf d

def msgNewAncestor (calls : Calls) (sender dest request : TaskId) (d : Daemon) : Daemon :=
  if d.up (request.getID d.myID) then
    let (buf, d) := adoptLoop calls sender dest request d.managed (emptyBuf sender) d
    match tryPutMsgBuf (tidMem noTid) buf with
    | some buf => calls.sendMsg (.adoptChildSet dest request buf) d
    | none =>
      let d := calls.sendMsg (.adoptChildSet dest request buf) d
      calls.sendMsg (.adoptChildSet dest request (putMsgBuf (tidMem noTid) (emptyBuf sender))) d
  else
    let d := d.managed.foldl
      (fun d tid =>
        if (d.tasks tid).any (inherits sender) then
          sendSignal calls tid request (-1) d
        else d)
      d
    calls.sendMsg (.inheritFailed dest sender) d

/-- Take up one child of a `PSP_DD_ADOPTCHILDSET`. -/
def adoptChild (task : Task) (tid : TaskId) : Task :=
  let deadBefore := tid ∈ task.deadBefore
  let task := { task with
    deadBefore := task.deadBefore.erase tid
    releasedBefore := task.releasedBefore.erase tid }
  if deadBefore then task
  else { task with childList := task.childList ++ [tid] }

def dropAdoptChildSet (calls : Calls) (sender dest : TaskId) (buf : List UInt8) : Daemon → Daemon :=
  calls.sendMsg (.adoptFailed dest sender buf)

/-- The children that the loop of `msg_ADOPTCHILDSET()` reads, and whether it
finds the last one. -/
def adoptedTids : (rest : List UInt8) → List TaskId × Bool
  | a :: b :: c :: e :: f :: g :: h :: i :: rest =>
    let tid := tidOf [a, b, c, e, f, g, h, i]
    if tid = noTid then ([], true)
    else
      match rest with
      | [] => ([tid], false)
      | _ :: rest =>
        let (tids, last) := adoptedTids rest
        (tid :: tids, last)
  | _ => ([], false)

def msgAdoptChildSet (calls : Calls) (sender dest : TaskId)
    (buf : List UInt8) (d : Daemon) : Daemon :=
  if (d.tasks dest).isNone ∨ ¬ d.up (sender.getID d.myID) then
    dropAdoptChildSet calls sender dest buf d
  else if buf.length < 8 then d
  else
    let child := tidOf (buf.take 8)
    let (tids, last) := adoptedTids (buf.drop 8)
    let d := d.modify dest (fun task => tids.foldl adoptChild task)
    if last then calls.sendMsg (.inheritDone dest child sender) d else d

/-- The loop of `msg_ADOPTFAILED()` over what is left of the message. -/
def failLoop (calls : Calls) (dest ptid : TaskId) : (rest : List UInt8) → Daemon → Daemon
  | a :: b :: c :: e :: f :: g :: h :: i :: rest, d =>
    let tid := tidOf [a, b, c, e, f, g, h, i]
    if tid = noTid then calls.sendMsg (.inheritFailed dest ptid) d
    else
      match d.tasks tid with
      | none => failLoop calls dest ptid rest d
      | some _ =>
        failLoop calls dest ptid rest (sendSignal calls tid ptid (-1) (setParent tid ptid d))
  | _, d => d

def msgAdoptFailed (calls : Calls) (dest : TaskId) (buf : List UInt8) (d : Daemon) : Daemon :=
  if buf.length < 8 then d
  else failLoop calls dest (tidOf (buf.take 8)) (buf.drop 8) d

/-! ## Releases -/

def releaseChild (calls : Calls) (parent child : TaskId) (answer : Bool)
    (d : Daemon) : Int × Daemon :=
  match d.tasks parent with
  | none => (esrch, d)
  | some task =>
    if child ∉ task.childList then
      if task.ptid ≠ noTid then
        let d :=
          if d.isLocal child then
            d.modify child (fun childTask =>
              if childTask.parentReleased then childTask
              else
                { childTask with
                  pendingReleaseRes := childTask.pendingReleaseRes + answer.toInt
                  parentReleased := true })
          else d
        (-1, calls.msgRelease child task.ptid (-1) answer d)
      else
        (0, d.modify parent (fun task =>
          { task with releasedBefore := task.releasedBefore ++ [child] }))
    else
      let d := d.modify parent (fun task => { task with childList := task.childList.erase child })
      if task.childList.erase child = [] ∧ task.removeIt then
        (0, markDeleted parent d)
      else (0, d)

def releaseSignal (sigSndr sigRcvr : TaskId) (sig : Int) (d : Daemon) : Int × Daemon :=
  match d.tasks sigSndr with
  | none => (esrch, d)
  | some _ =>
    (0, d.modify sigSndr (fun task =>
      { task with signalReceiver := task.signalReceiver.erase (sigRcvr, sig) }))

/-- The loop of `releaseTask()` over the children. -/
def passChildren (calls : Calls) (tid : TaskId) : Nat → (sentToNode : Int → Bool) → Daemon → Daemon
  | 0, _, d => d
  | n + 1, sentToNode, d =>
    match d.tasks tid with
    | none => d
    | some task =>
      match task.childList with
      | [] => d
      | child :: rest =>
        let childNode := child.getID d.myID
        let d := d.modify tid (fun task => { task with childList := rest })
        if task.group = .kvs ∧ task.noParricide then
          passChildren calls tid n sentToNode d
        else if task.group = .pluginFW ∧ task.partition then
          passChildren calls tid n sentToNode d
        else if sentToNode childNode then
          passChildren calls tid n sentToNode d
        else
          let d := d.modify tid (fun task =>
            { task with pendingReleaseRes := task.pendingReleaseRes + 1 })
          let d := calls.sendMsg (.newAncestor tid child task.ptid) d
          let d := d.modify tid (fun task =>
            { task with keptChildren := task.keptChildren ++ [child] })
          passChildren calls tid n (update sentToNode childNode true) d

/-- The loop of `releaseTask()` over the signals assigned. -/
def releaseSigs (calls : Calls) (tid : TaskId) : Nat → Daemon → Daemon
  | 0, d => d
  | n + 1, d =>
    match d.tasks tid with
    | none => d
    | some task =>
      match task.assignedSigs with
      | [] => d
      | (sender, sig) :: rest =>
        let d := d.modify tid (fun task => { task with assignedSigs := rest })
        if d.isLocal sender then
          let (ret, d) := releaseSignal sender tid sig d
          let d :=
            if ret > 0 then
              d.modify tid (fun task => { task with pendingReleaseErr := ret })
            else d
          releaseSigs calls tid n d
        else
          let d := calls.sendMsg (.release tid sender sig task.releaseAnswer) d
          let d := d.modify tid (fun task =>
            { task with
              pendingReleaseRes := task.pendingReleaseRes + task.releaseAnswer.toInt })
          releaseSigs calls tid n d

def releaseTask (calls : Calls) (tid : TaskId) (d : Daemon) : Daemon :=
  -- keeps answers from being sent before all requests are
  let d := d.modify tid (fun task =>
    { task with
      released := true
      pendingReleaseRes := task.pendingReleaseRes + 1 })
  let d :=
    match d.tasks tid with
    | none => d
    | some task =>
      if task.ptid ≠ noTid then
        passChildren calls tid task.childList.length (fun _ => false) d
      else d
  let d :=
    match d.tasks tid with
    | none => d
    | some task => releaseSigs calls tid task.assignedSigs.length d
  d.modify tid (fun task => { task with pendingReleaseRes := task.pendingReleaseRes - 1 })

def deregisterFromParent (calls : Calls) (tid : TaskId) (d : Daemon) : Bool × Daemon :=
  match d.tasks tid with
  | none => (true, d)
  | some task =>
    let d :=
      if d.isLocal task.ptid then
        let (ret, d) := releaseChild calls task.ptid tid task.releaseAnswer d
        let d :=
          if ret > 0 then
            d.modify tid (fun task => { task with pendingReleaseErr := ret })
          else d
        if ret < 0 ∧ task.releaseAnswer ∧ d.pending tid = 0 then
          d.slip (.bounced tid)
        else d
      else
        let d := calls.sendMsg (.release tid task.ptid (-1) task.releaseAnswer) d
        d.modify tid (fun task =>
          if task.parentReleased then task
          else
            { task with
              pendingReleaseRes := task.pendingReleaseRes + task.releaseAnswer.toInt })
    let d := d.modify tid (fun task => { task with parentReleased := true })
    (d.pending tid = 0, d)

/-- The initiator of a task's release. -/
def initiator (d : Daemon) (tid : TaskId) (task : Task) : TaskId :=
  match task.forwarder with
  | none => tid
  | some pid => if task.connected then tid else ⟨d.myID, pid⟩

/-- Tell the initiator the result of the release. -/
def answerInitiator (calls : Calls) (sender tid : TaskId) (signal param : Int)
    (d : Daemon) : Daemon :=
  match d.tasks tid with
  | none => d
  | some task =>
    let param :=
      if task.pendingReleaseErr ≠ 0 then task.pendingReleaseErr else param
    if task.releaseAnswer then
      let d := d.modify tid (fun task => { task with answered := task.answered + 1 })
      calls.sendMsg (.releaseRes sender (initiator d tid task) signal param) d
    else d

/-- The part `msg_RELEASERES()`, `msg_INHERITDONE()` and `msg_INHERITFAILED()`
have in common: one answer less is pending. -/
def countDown (calls : Calls) (sender tid : TaskId) (signal param : Int) (d : Daemon) : Daemon :=
  let d := d.modify tid (fun task => { task with pendingReleaseRes := task.pendingReleaseRes - 1 })
  match d.tasks tid with
  | none => d
  | some task =>
    if task.pendingReleaseRes ≠ 0 then d
    else
      let (done, d) :=
        if task.parentReleased then (true, d)
        else deregisterFromParent calls tid d
      if ¬ done then d
      else
        let d := answerInitiator calls sender tid signal param d
        if task.removeIt then markDeleted tid d else d

def msgReleaseRes (calls : Calls) (sender tid : TaskId) (signal param : Int)
    (d : Daemon) : Daemon :=
  if ¬ d.isLocal tid then calls.sendMsg (.releaseRes sender tid signal param) d
  else
    match d.tasks tid with
    | none => d
    | some _ =>
      let d := d.modify tid (fun task =>
        if param ≠ 0 ∧ task.pendingReleaseErr = 0 ∧ param ≠ esrch then
          { task with pendingReleaseErr := param }
        else task)
      countDown calls sender tid signal param d

def msgInheritDone (calls : Calls) (sender tid keptChild : TaskId) (d : Daemon) : Daemon :=
  match d.tasks tid with
  | none => d
  | some _ =>
    let d := d.modify tid (fun task =>
      { task with keptChildren := task.keptChildren.erase keptChild })
    countDown calls sender tid (-1) 0 d

def msgInheritFailed (calls : Calls) (sender tid : TaskId) (d : Daemon) :
    Daemon :=
  match d.tasks tid with
  | none => d
  | some _ =>
    let d := d.modify tid (fun task =>
      { task with
        keptChildren := task.keptChildren.erase sender
        pendingReleaseErr :=
          if task.pendingReleaseErr = 0 then eacces
          else task.pendingReleaseErr })
    countDown calls sender tid (-1) 0 d

def releasesItself (d : Daemon) (registrarTid tid : TaskId) (task : Task) :
    Bool :=
  registrarTid = tid ||
    (task.forwarder.any (fun pid => registrarTid = ⟨d.myID, pid⟩) && !task.connected)

def msgRelease (calls : Calls) (registrarTid tid : TaskId) (signal : Int)
    (answer : Bool) (d : Daemon) : Daemon :=
  if ¬ d.isLocal tid then
    calls.sendMsg (.release registrarTid tid signal answer) d
  else
    match d.tasks tid with
    | none =>
      if answer then d.slip (.lost (.release registrarTid tid signal answer))
      else d
    | some task =>
      if releasesItself d registrarTid tid task then
        if task.released then
          if answer then
            calls.sendMsg (.releaseRes tid registrarTid signal 0) d
          else d
        else
          let d := d.modify tid (fun task => { task with releaseAnswer := answer })
          let d := releaseTask calls tid d
          let param := ((d.tasks tid).map Task.pendingReleaseErr).getD 0
          if d.pending tid ≠ 0 then d
          else
            let (done, d) := deregisterFromParent calls tid d
            if ¬ done then d
            else if answer then
              let d := d.modify tid (fun task => { task with answered := task.answered + 1 })
              calls.sendMsg (.releaseRes tid registrarTid signal param) d
            else d
      else if task.forwarder.any (fun pid => registrarTid = ⟨d.myID, pid⟩)
          then
        if answer then
          calls.sendMsg (.releaseRes tid registrarTid signal 0) d
        else d
      else
        let (param, d) :=
          if signal = -1 then releaseChild calls tid registrarTid answer d
          else releaseSignal tid registrarTid signal d
        if param < 0 then d
        else if answer then
          msgReleaseRes calls tid registrarTid signal param d
        else d

/-! ## Births and deaths -/

def msgSpawnSuccess (calls : Calls) (tid ptid : TaskId) (d : Daemon) :
    Daemon :=
  match d.tasks ptid with
  | none => sendSignal calls tid ptid (-1) d
  | some task =>
    if task.connected ∨ task.group = .any then
      let d := d.modify ptid (fun task => { task with childList := task.childList ++ [tid] })
      let dest :=
        if task.group = .any ∧ ¬ task.connected then
          (task.forwarder.map (fun pid => ⟨d.myID, pid⟩)).getD ptid
        else ptid
      calls.sendMsg (.spawnSuccess tid dest) d
    else sendSignal calls tid ptid (-1) d

/-- The part of `msg_CHILDDEAD()` for messages to a task; `failed` tells that
the child did not exit normally. -/
def msgChildDead (calls : Calls) (sender dest request : TaskId)
    (failed : Bool) (d : Daemon) : Daemon :=
  if ¬ d.isLocal dest then calls.sendMsg (.childDead sender dest request failed) d
  else
    match d.tasks dest with
    | none => d
    | some task =>
      let d :=
        if request ∈ task.childList then
          d.modify dest (fun task => { task with childList := task.childList.erase request })
        else
          let d :=
            if task.ptid ≠ noTid then
              calls.sendMsg (.childDead d.myTID task.ptid request failed) d
            else d
          d.modify dest (fun task => { task with deadBefore := task.deadBefore ++ [request] })
      match d.tasks dest with
      | none => d
      | some task =>
        if task.removeIt ∧ task.childList = [] then calls.cleanup dest d
        else if task.group = .serviceSig ∧ (failed ∨ task.childList = []) then
          sendSignal calls dest request (-1) d
        else d

/-- The loop of `PSIDtask_cleanup()` over the children of an unreleased
forwarder. -/
def reportChildren (calls : Calls) (tid : TaskId) : Nat → Daemon → Daemon
  | 0, d => d
  | n + 1, d =>
    match d.tasks tid with
    | none => d
    | some task =>
      match task.childList with
      | [] => d
      | childTID :: rest =>
        let d := d.modify tid (fun task => { task with childList := rest })
        let mine := (d.tasks childTID).any (fun child =>
          child.forwarder.any (fun pid => tid = ⟨d.myID, pid⟩))
        let d := calls.sendMsg (.childDead tid task.ptid childTID false) d
        let d :=
          if mine then
            let d := d.modify childTID (fun child => { child with forwarder := none })
            if (d.tasks childTID).any (fun child => !child.connected) then
              calls.cleanup childTID d
            else d
          else d
        reportChildren calls tid n d

/-- `PSIDtask_cleanup()`. -/
def cleanup (calls : Calls) (tid : TaskId) (d : Daemon) : Daemon :=
  match d.tasks tid with
  | none => d
  | some task =>
    let d :=
      if task.removeIt then d
      else
        let d := d.modify tid (fun task => { task with removeIt := true })
        let d := sendAllSignals calls tid task.signalReceiver.length d
        let d :=
          match d.tasks tid with
          | none => d
          | some task =>
            if task.released then d
            else sendSignalsToRelatives calls tid task d
        match d.tasks tid with
        | none => d
        | some task =>
          if task.group = .forwarder ∧ ¬ task.released then
            reportChildren calls tid task.childList.length d
          else d
    markDeleted tid d

/-! ## Sending and handling -/

/-- A message not sent, whose dropper is called.  One without dropper that
owes an answer is lost. -/
def dropMsg (calls : Calls) (msg : Msg) (d : Daemon) : Daemon :=
  match msg with
  | .notifyDead sender _ signal => msgNotifyDeadRes calls d.myTID sender signal ehostunreach d
  | .release sender _ signal answer =>
    if answer then msgReleaseRes calls d.myTID sender signal ehostunreach d
    else d
  | .adoptChildSet sender dest buf => dropAdoptChildSet calls sender dest buf d
  | .notifyDeadRes .. => d
  | .signal .. => d
  | .spawnSuccess .. => d
  | .childDead .. => d
  | msg => d.slip (.lost msg)

def handleMsg (calls : Calls) (msg : Msg) (d : Daemon) : Daemon :=
  match msg with
  | .notifyDead sender dest signal => msgNotifyDead calls sender dest signal d
  | .notifyDeadRes sender dest signal param => msgNotifyDeadRes calls sender dest signal param d
  | .release sender dest signal answer => calls.msgRelease sender dest signal answer d
  | .releaseRes sender dest signal param => msgReleaseRes calls sender dest signal param d
  | .signal sender dest signal => sendSignal calls dest sender signal d
  | .spawnSuccess sender dest => msgSpawnSuccess calls sender dest d
  | .newAncestor sender dest request => msgNewAncestor calls sender dest request d
  | .adoptChildSet sender dest buf => msgAdoptChildSet calls sender dest buf d
  | .adoptFailed _ dest buf => msgAdoptFailed calls dest buf d
  | .inheritDone sender dest keptChild => msgInheritDone calls sender dest keptChild d
  | .inheritFailed sender dest => msgInheritFailed calls sender dest d
  | .childDead sender dest request failed => msgChildDead calls sender dest request failed d

/-- `sendMsg()`: messages to the local node are handled at once or go to a
connected client; a client's message that cannot be sent is forgotten. -/
def route (handle drop : Msg → Daemon → Daemon) (msg : Msg) (d : Daemon) :
    Daemon :=
  if msg.dest = d.myTID then handle msg d
  else if d.isLocal msg.dest then
    if msg.toClient then
      if (d.tasks msg.dest).any Task.connected then
        { d with clients := d.clients ++ [msg] }
      else d
    else handle msg d
  else if d.up (msg.dest.getID d.myID) then { d with out := d.out ++ [msg] }
  else drop msg d

/-- Keep a message for later. -/
def defer (msg : Msg) (d : Daemon) : Daemon := { d with out := d.out ++ [msg] }

/-- `msg_RELEASE()` for a message that does not come from a client. -/
def relayRelease (calls : Calls) (registrarTid tid : TaskId) (signal : Int)
    (answer : Bool) (d : Daemon) : Daemon :=
  let returned := d.isLocal tid && (d.tasks tid).any (fun task =>
    releasesItself d registrarTid tid task ||
      task.forwarder.any (fun pid => registrarTid = ⟨d.myID, pid⟩))
  let stray := signal = -1 && (d.tasks registrarTid).any (fun task => !task.parentReleased)
  let d := if returned then d.slip (.returned registrarTid) else d
  let d := if stray then d.slip (.stray registrarTid) else d
  msgRelease calls registrarTid tid signal answer d

/-- The functions called at most so deep into each other; what lies deeper is
kept for later. -/
def callsTo : Nat → Calls
  | 0 =>
    { sendMsg := route defer defer
      msgRelease := fun registrarTid tid signal answer =>
        defer (.release registrarTid tid signal answer)
      cleanup := markDeleted }
  | depth + 1 =>
    { sendMsg := route (handleMsg (callsTo depth)) (dropMsg (callsTo depth))
      msgRelease := relayRelease (callsTo depth)
      cleanup := cleanup (callsTo depth) }

end Psmgmt.Signal
