import Mathlib
import Psmgmt.Common.TaskId

/-!
# Access lists and option messages

The user and group lists of `psidnodes.c` and the handling of option messages
in `psidoption.c` as far as it concerns them.  A list either holds ANY alone or
different IDs without it.
-/

namespace Psmgmt.Options

open List Function

/-- `PSIDnodes_guid_t`, a user or group ID. -/
abbrev Guid := BitVec 32

/-- `PSIDnodes_gu_t`. -/
inductive GuType where
  | user | group | admUser | admGroup
  deriving DecidableEq, Repr

/-- `PSNODES_ANYUSER` and `PSNODES_ANYGROUP`. -/
def anyGuid : GuType → Guid
  | .user => -1
  | .group => -1
  | .admUser => -1
  | .admGroup => -1

structure GuidList (what : GuType) where
  ids : List Guid
  distinct : ids.Nodup
  alone : anyGuid what ∈ ids → ids = [anyGuid what]

namespace GuidList

variable {what : GuType}

def empty (what : GuType) : GuidList what :=
  ⟨[], nodup_nil, fun member => absurd member not_mem_nil⟩

/-- `clear_GUID_list()`. -/
def clear (_list : GuidList what) : GuidList what := empty what

def append (guid : Guid) (list : GuidList what) (absent : guid ∉ list.ids)
    (restricted : anyGuid what ∉ list.ids)
    (cleared : guid = anyGuid what → list.ids = []) : GuidList what :=
  { ids := list.ids ++ [guid]
    distinct := list.distinct.append (nodup_singleton guid) (disjoint_singleton.mpr absent)
    alone := by
      intro member
      rcases mem_append.mp member with earlier | last
      · exact absurd earlier restricted
      · have same := (mem_singleton.mp last).symm
        rw [cleared same, same]
        rfl }

/-- The list `PSIDnodes_addGUID()` searches: ANY replaces all others. -/
def opened (guid : Guid) (list : GuidList what) : GuidList what :=
  if guid = anyGuid what then list.clear else list

theorem opened_any {guid : Guid} (list : GuidList what)
    (any : guid = anyGuid what) : (list.opened guid).ids = [] := by
  rw [opened, if_pos any]
  rfl

/-- The part of `PSIDnodes_addGUID()` concerning the list. -/
def add (guid : Guid) (list : GuidList what) : Int × GuidList what :=
  if restricted : anyGuid what ∈ (list.opened guid).ids then
    (-1, list.opened guid)
  else if present : guid ∈ (list.opened guid).ids then
    (-1, list.opened guid)
  else
    (0, (list.opened guid).append guid present restricted (list.opened_any))

/-- The part of `PSIDnodes_remGUID()` concerning the list. -/
def rem (guid : Guid) (list : GuidList what) : Int × GuidList what :=
  if guid ∈ list.ids then
    (0,
      { ids := list.ids.erase guid
        distinct := list.distinct.erase guid
        alone := by
          intro member
          have earlier := list.alone (mem_of_mem_erase member)
          rw [earlier] at member ⊢
          by_cases same : guid = anyGuid what
          · rw [same, erase_cons_head] at member
            exact absurd member not_mem_nil
          · rw [erase_cons_tail]
            · rfl
            · simpa using Ne.symm same })
  else (-1, list)

/-- The part of `PSIDnodes_testGUID()` concerning the list. -/
def test (guid : Guid) (list : GuidList what) : Bool :=
  list.ids.any (fun id => id = guid || id = anyGuid what)

theorem mem_add (guid other : Guid) (list : GuidList what) : other ∈ (list.add guid).2.ids ↔
      if guid = anyGuid what then other = guid
      else if anyGuid what ∈ list.ids then other ∈ list.ids
      else other = guid ∨ other ∈ list.ids := by
  by_cases any : guid = anyGuid what
  · have restricted : anyGuid what ∉ (list.opened guid).ids := by
      simp [list.opened_any any]
    have absent : guid ∉ (list.opened guid).ids := by
      simp [list.opened_any any]
    rw [add, dif_neg restricted, dif_neg absent, if_pos any]
    simp [append, list.opened_any any]
  · have same : (list.opened guid).ids = list.ids :=
      congrArg ids (if_neg any)
    rw [add, if_neg any, ← same]
    by_cases restricted : anyGuid what ∈ (list.opened guid).ids
    · rw [dif_pos restricted, if_pos restricted]
    · rw [dif_neg restricted, if_neg restricted]
      by_cases present : guid ∈ (list.opened guid).ids
      · rw [dif_pos present]
        constructor
        · exact .inr
        · rintro (rfl | member)
          · exact present
          · exact member
      · rw [dif_neg present]
        simp [append, or_comm]

theorem mem_rem (guid other : Guid) (list : GuidList what) :
    other ∈ (list.rem guid).2.ids ↔ other ≠ guid ∧ other ∈ list.ids := by
  rw [rem]
  split
  · exact list.distinct.mem_erase_iff
  · next absent =>
      constructor
      · intro member
        exact ⟨fun same => absent (same ▸ member), member⟩
      · exact And.right

theorem test_eq_true (guid : Guid) (list : GuidList what) :
    list.test guid = true ↔ guid ∈ list.ids ∨ anyGuid what ∈ list.ids := by
  simp only [test, any_eq_true, Bool.or_eq_true, decide_eq_true_eq]
  constructor
  · rintro ⟨id, member, rfl | rfl⟩
    · exact .inl member
    · exact .inr member
  · rintro (member | member)
    · exact ⟨_, member, .inl rfl⟩
    · exact ⟨_, member, .inr rfl⟩

end GuidList

/-- The options concerning access lists; any other leaves them alone. -/
inductive OptionType where
  | unknown
  | listEnd
  | plain (what : GuType)
  | set (what : GuType)
  | add (what : GuType)
  | rem (what : GuType)
  | other (number : Nat)
  deriving DecidableEq, Repr

/-- `DDOption_t`. -/
structure OptionEntry where
  option : OptionType
  value : BitVec 32
  deriving DecidableEq, Repr

/-- `DDOptionMsgMax`. -/
def optionMsgMax : Nat := 16

/-- `DDOptionMsg_t` of type PSP_CD_SETOPTION. -/
structure OptionMsg where
  sender : TaskId
  dest : TaskId
  count : Nat
  opt : Nat → OptionEntry

/-- The options a receiver looks at. -/
def OptionMsg.entries (msg : OptionMsg) : List OptionEntry := (List.range msg.count).map msg.opt

/-- Set the option of the entry at `count`. -/
def OptionMsg.putOption (option : OptionType) (msg : OptionMsg) : OptionMsg :=
  { msg with
    opt := update msg.opt msg.count { msg.opt msg.count with option := option } }

def OptionMsg.putValue (value : BitVec 32) (msg : OptionMsg) : OptionMsg :=
  { msg with
    opt := update msg.opt msg.count { msg.opt msg.count with value := value } }

/-- A managed task's user and group. -/
structure Account where
  uid : Guid
  gid : Guid

/-- What a daemon uses of its tables. -/
structure Daemon where
  myID : Int
  nrOfNodes : Int
  guids : Int → (what : GuType) → GuidList what
  managedTasks : TaskId → Option Account

namespace Daemon

/-- `PSC_getMyTID()` of a daemon. -/
def myTID (daemon : Daemon) : TaskId := ⟨daemon.myID, 0⟩

def validID (id : Int) (daemon : Daemon) : Bool := 0 ≤ id && id < daemon.nrOfNodes

/-- `get_GUID_list()`. -/
def getGuidList (id : Int) (what : GuType) (daemon : Daemon) : Option (GuidList what) :=
  if daemon.validID id then some (daemon.guids id what) else none

def putGuidList (id : Int) (what : GuType) (list : GuidList what) (daemon : Daemon) : Daemon :=
  { daemon with
    guids := update daemon.guids id (update (daemon.guids id) what list) }

/-- `PSIDnodes_addGUID()`. -/
def addGuid (id : Int) (what : GuType) (guid : Guid) (daemon : Daemon) : Int × Daemon :=
  match daemon.getGuidList id what with
  | none => (-1, daemon)
  | some list => ((list.add guid).1, daemon.putGuidList id what (list.add guid).2)

/-- `PSIDnodes_setGUID()`. -/
def setGuid (id : Int) (what : GuType) (guid : Guid) (daemon : Daemon) : Int × Daemon :=
  match daemon.getGuidList id what with
  | none => (-1, daemon)
  | some list => (daemon.putGuidList id what list.clear).addGuid id what guid

/-- `PSIDnodes_remGUID()`. -/
def remGuid (id : Int) (what : GuType) (guid : Guid) (daemon : Daemon) : Int × Daemon :=
  match daemon.getGuidList id what with
  | none => (-1, daemon)
  | some list => ((list.rem guid).1, daemon.putGuidList id what (list.rem guid).2)

/-- `PSIDnodes_testGUID()`. -/
def testGuid (id : Int) (what : GuType) (guid : Guid) (daemon : Daemon) :
    Bool :=
  match daemon.getGuidList id what with
  | none => false
  | some list => list.test guid

/-- The loop of `send_GUID_OPTIONS()` over the list, with the message being
filled and those sent. -/
def sendLoop (option : OptionType) :
    List Guid → OptionMsg → List OptionMsg → OptionMsg × List OptionMsg
  | [], msg, sent => (msg, sent)
  | guid :: rest, msg, sent =>
    let msg := (msg.putOption option).putValue guid
    let msg := { msg with count := msg.count + 1 }
    if msg.count = optionMsgMax then
      sendLoop option rest { msg with count := 0 } (sent ++ [msg])
    else
      sendLoop option rest msg sent

/-- `send_GUID_OPTIONS()`: the messages sent to `dest`. -/
def sendGuidOptions (dest : TaskId) (what : GuType) (daemon : Daemon) : List OptionMsg :=
  match daemon.getGuidList daemon.myID what with
  | none => []
  | some list =>
    let msg : OptionMsg :=
      { sender := daemon.myTID, dest := dest, count := 0
        opt := fun _ => { option := .unknown, value := 0 } }
    let (msg, option) :=
      if dest.getPID ≠ 0 then
        (msg.putOption (.plain what), OptionType.plain what)
      else
        -- the entry is written again for the first ID of the list
        (msg.putOption (.set what), OptionType.add what)
    let (msg, sent) := sendLoop option list.ids msg []
    let msg := (msg.putOption .listEnd).putValue 0
    sent ++ [{ msg with count := msg.count + 1 }]

/-- `PSID_checkPrivilege()`. -/
def checkPrivilege (sender : TaskId) (daemon : Daemon) : Bool :=
  if sender.getID daemon.myID ≠ daemon.myID then true
  else if sender.getPID = 0 then true
  else
    match daemon.managedTasks sender with
    | none => false
    | some task =>
      !(task.uid != 0 && task.gid != 0 &&
        !daemon.testGuid daemon.myID .admUser task.uid &&
        !daemon.testGuid daemon.myID .admGroup task.gid)

/-- The options `broadcastMsg()` sends to all other daemons; its destination is
filled in for each. -/
def info (entry : OptionEntry) (daemon : Daemon) : OptionMsg :=
  { sender := daemon.myTID, dest := ⟨0, 0⟩, count := 1, opt := fun _ => entry }

/-- The node whose list a sender changes. -/
def subject (sender : TaskId) (daemon : Daemon) : Int :=
  if sender.getPID ≠ 0 then daemon.myID else sender.getID daemon.myID

/-- One turn of the loop of `msg_SETOPTION()`, with the messages broadcast. -/
def setOption (sender : TaskId) (entry : OptionEntry) (daemon : Daemon) : Daemon × List OptionMsg :=
  let node := daemon.subject sender
  let broadcast := if sender.getPID ≠ 0 then [daemon.info entry] else []
  match entry.option with
  | .set what => ((daemon.setGuid node what entry.value).2, broadcast)
  | .add what => ((daemon.addGuid node what entry.value).2, broadcast)
  | .rem what => ((daemon.remGuid node what entry.value).2, broadcast)
  | _ => (daemon, [])

def setOptions (sender : TaskId) : List OptionEntry → Daemon → Daemon × List OptionMsg
  | [], daemon => (daemon, [])
  | entry :: rest, daemon =>
    let (daemon, first) := daemon.setOption sender entry
    let (daemon, later) := setOptions sender rest daemon
    (daemon, first ++ later)

/-- `msg_SETOPTION()` of a message for the local daemon or one it forwards. -/
def msgSetOption (msg : OptionMsg) (daemon : Daemon) : Daemon × List OptionMsg :=
  if daemon.checkPrivilege msg.sender = false then (daemon, [])
  else if msg.dest = daemon.myTID then
    setOptions msg.sender msg.entries daemon
  else (daemon, [])

/-- A daemon handling messages in the order they arrive. -/
def receive (daemon : Daemon) (msgs : List OptionMsg) : Daemon :=
  msgs.foldl (fun daemon msg => (daemon.msgSetOption msg).1) daemon

end Daemon

end Psmgmt.Options
