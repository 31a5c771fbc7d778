import Mathlib
import Psmgmt.Common.TaskId

/-!
# Messages to clients

`psidclient.c` with the calls that are under way.  Sending or dropping a message
may call any of its functions again; what these calls do is up to the rest of
the daemon, as is the outcome of writing to a socket.
-/

namespace Psmgmt.Client

open Function

/-- A message for a client as `PSIDclient_send()` gets it. -/
structure Msg where
  dest : TaskId
  sender : TaskId
  type : Nat
  len : Nat
  deriving DecidableEq, Repr

/-- `PSIDmsgbuf_t`. -/
structure MsgBuf where
  msg : Msg
  offset : Nat
  deriving DecidableEq, Repr

/-- `client_t` with its flags one by one. -/
structure ClientSlot where
  tid : TaskId
  task : Option Nat
  initialContact : Bool
  flush : Bool
  close : Bool
  pendingACKs : Int
  msgs : List MsgBuf

/-- What `doSend()` returns. -/
inductive Sent where
  | upTo (offset : Nat)
  | failed
  deriving DecidableEq, Repr

/-- A call that is under way. -/
inductive Frame where
  /-- `flushClientMsgs()` whose `doSend()` has called `PSIDclient_delete()` -/
  | flushFailed (fd : Int)
  /-- `flushClientMsgs()` within `PSIDFlwCntrl_sendContMsgs()` -/
  | flushCont (fd : Int)
  /-- `PSIDclient_send()` before it looks for messages to be flushed -/
  | sending (fd : Int) (msg : Msg)
  /-- `closeConnection()` within its loop -/
  | closing (fd : Int) (last : Bool)
  /-- `closeConnection()` within `PSIDFlwCntrl_sendContMsgs()` -/
  | closeCont (fd : Int)
  /-- `PSIDclient_delete()` after `closeConnection()` -/
  | deleting (task : Option Nat)
  /-- `PSIDclient_releaseACK()` within `PSIDFlwCntrl_sendContMsgs()` -/
  | releaseCont
  deriving DecidableEq, Repr

/-- The clients and the tasks of the daemon; the innermost call comes first. -/
structure Daemon where
  maxClientFD : Nat
  clients : Int → ClientSlot
  managedTasks : TaskId → Option Nat
  taskFd : Nat → Int
  stack : List Frame

section Functions

variable (myID : Int)

/-- The message types flow control is not applied to. -/
def flowExempt : List Nat :=
  [ 0x0030 -- PSP_CD_ACCOUNT
  , 0x0071 -- PSP_CD_SENDCONT
  , 0x0070 -- PSP_CD_SENDSTOP
  , 0x0109 -- PSP_DD_SENDCONT
  , 0x0108 -- PSP_DD_SENDSTOP
  , 0x010A -- PSP_DD_SENDSTOPACK
  , 0x0122 -- PSP_DD_REGISTERPART
  ]

/-- `PSIDFlwCntrl_applicable()`. -/
def applicable (msg : Msg) : Bool :=
  !(decide (msg.sender.getPID ≠ 0) && decide (msg.type ∈ flowExempt))

def checkClient (fd : Int) (d : Daemon) : Bool := decide (0 ≤ fd ∧ fd < d.maxClientFD)

def setClient (fd : Int) (client : ClientSlot) (d : Daemon) : Daemon :=
  { d with clients := update d.clients fd client }

def push (frame : Frame) (d : Daemon) : Daemon := { d with stack := frame :: d.stack }

/-- `PSIDclient_register()`. -/
def register (fd : Int) (tid : TaskId) (task : Option Nat) (d : Daemon) : Daemon :=
  if !checkClient fd d then d
  else
    setClient fd { d.clients fd with
      tid := tid, task := task, initialContact := true, pendingACKs := 0
      msgs := [] } d

/-- `PSIDclient_setEstablished()`. -/
def setEstablished (fd : Int) (d : Daemon) : Daemon :=
  setClient fd { d.clients fd with initialContact := false } d

/-- `PSIDclient_releaseACK()`. -/
def releaseACK (fd : Int) (d : Daemon) : Daemon :=
  if !checkClient fd d then d
  else
    let client := { d.clients fd with
      pendingACKs := (d.clients fd).pendingACKs - 1 }
    let d := setClient fd client d
    if client.pendingACKs = 0 ∧ client.msgs = [] then push .releaseCont d
    else d

/-- `closeConnection()` up to its loop. -/
def closeConnection (fd : Int) (d : Daemon) : Daemon :=
  if !checkClient fd d then d
  else
    let client := d.clients fd
    let d := { d with
      taskFd :=
        match client.task with
        | some task => update d.taskFd task (-1)
        | none => d.taskFd }
    let client := { client with tid := ⟨-1, -1⟩, task := none }
    if client.close then setClient fd client d
    else
      push (.closing fd client.msgs.isEmpty) (setClient fd { client with close := true } d)

/-- `PSIDclient_delete()` up to the loop of `closeConnection()`. -/
def delete (fd : Int) (d : Daemon) : Daemon :=
  if fd < 0 then d
  else
    let task := if checkClient fd d then (d.clients fd).task else none
    closeConnection fd (push (.deleting task) d)

/-- The error path of `doSend()`. -/
def sendError (fd : Int) (d : Daemon) : Daemon :=
  if (d.clients fd).task.isSome then d else delete fd d

/-- The loop of `flushClientMsgs()`: the messages left and whether `doSend()`
has failed. -/
def flushLoop : List MsgBuf → (sends : Nat → Sent) → List MsgBuf × Bool
  | [], _ => ([], false)
  | msgbuf :: rest, sends =>
    match sends 0 with
    | .failed => (msgbuf :: rest, true)
    | .upTo sent =>
      if sent ≠ msgbuf.msg.len then
        ({ msgbuf with offset := sent } :: rest, false)
      else flushLoop rest (fun i => sends (i + 1))

/-- `flushClientMsgs()` up to `PSIDFlwCntrl_sendContMsgs()`. -/
def flushClientMsgs (fd : Int) (sends : Nat → Sent) (d : Daemon) : Daemon :=
  if !checkClient fd d then d
  else
    let client := d.clients fd
    if client.flush || client.close then d
    else
      let looped := flushLoop client.msgs sends
      let client : ClientSlot := { client with msgs := looped.1 }
      if looped.2 then
        let d := setClient fd { client with flush := true } d
        match client.task with
        | some _ => d
        | none => delete fd (push (.flushFailed fd) d)
      else if client.msgs = [] ∧ client.pendingACKs = 0 then
        push (.flushCont fd) (setClient fd { client with flush := true } d)
      else setClient fd { client with flush := false } d

/-- The file descriptor `PSIDclient_send()` uses. -/
def sendFd (msg : Msg) (d : Daemon) : Option Int :=
  if msg.dest.getID myID ≠ myID then none
  else
    match d.managedTasks msg.dest with
    | none => none
    | some task =>
      if d.taskFd task = -1 then none
      else if !checkClient (d.taskFd task) d then none
      else some (d.taskFd task)

/-- `PSIDclient_send()` up to the end of `flushClientMsgs()`. -/
def send (msg : Msg) (sends : Nat → Sent) (d : Daemon) : Daemon :=
  match sendFd myID msg d with
  | none => d
  | some fd =>
    let d := push (.sending fd msg) d
    if (d.clients fd).msgs ≠ [] then flushClientMsgs fd sends d else d

/-- `storeMsg()` and what `PSIDclient_send()` does thereafter. -/
def storeMsg (fd : Int) (msg : Msg) (offset : Nat) (addStop : Int) (d : Daemon) : Daemon :=
  let client := d.clients fd
  let client := { client with msgs := client.msgs ++ [⟨msg, offset⟩] }
  if applicable msg ∧ 0 < addStop then
    setClient fd { client with pendingACKs := client.pendingACKs + 1 } d
  else setClient fd client d

/-- The rest of `PSIDclient_send()`. -/
def finishSend (fd : Int) (msg : Msg) (sent : Sent) (stored : Bool)
    (addStop : Int) (d : Daemon) : Daemon :=
  let sent := if (d.clients fd).msgs = [] then sent else .upTo 0
  match sent with
  | .failed => sendError fd d
  | .upTo offset =>
    if offset = msg.len then d
    else if !stored then d
    else storeMsg fd msg offset addStop d

/-- The rest of the call under way. -/
def continueCall (sent : Sent) (stored : Bool) (addStop : Int) (d : Daemon) :
    Daemon :=
  match d.stack with
  | [] => d
  | frame :: stack =>
    let d := { d with stack := stack }
    match frame with
    | .flushFailed _ => d
    | .flushCont fd => setClient fd { d.clients fd with flush := false } d
    | .sending fd msg => finishSend fd msg sent stored addStop d
    | .closing fd last =>
      match last, (d.clients fd).msgs with
      | false, _ :: rest =>
        push (.closing fd rest.isEmpty) (setClient fd { d.clients fd with msgs := rest } d)
      | _, _ => push (.closeCont fd) d
    | .closeCont fd => setClient fd { d.clients fd with close := false } d
    | .deleting _ => d
    | .releaseCont => d

/-- Calls may be made from outside and while messages are sent or dropped. -/
def Frame.calls : Frame → Bool
  | .flushFailed _ => false
  | .sending _ _ => false
  | _ => true

/-- What happens next. -/
inductive Event where
  | register (fd : Int) (tid : TaskId) (task : Option Nat)
  | setEstablished (fd : Int)
  | releaseACK (fd : Int)
  | send (msg : Msg) (sends : Nat → Sent)
  | flush (fd : Int) (sends : Nat → Sent)
  | delete (fd : Int)
  | tasks (managedTasks : TaskId → Option Nat) (taskFd : Nat → Int)
  | continued (sent : Sent) (stored : Bool) (addStop : Int)

def step (event : Event) (d : Daemon) : Option Daemon :=
  match event with
  | .continued sent stored addStop => some (continueCall sent stored addStop d)
  | event =>
    if d.stack.head?.all Frame.calls then
      match event with
      | .register fd tid task => some (register fd tid task d)
      | .setEstablished fd => some (setEstablished fd d)
      | .releaseACK fd => some (releaseACK fd d)
      | .send msg sends => some (send myID msg sends d)
      | .flush fd sends => some (flushClientMsgs fd sends d)
      | .delete fd => some (delete fd d)
      | .tasks managedTasks taskFd => some { d with managedTasks := managedTasks, taskFd := taskFd }
      | .continued _ _ _ => none
    else none

end Functions

end Psmgmt.Client
