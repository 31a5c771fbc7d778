import Psmgmt.Library.Transition

/-!
# Infos on the components of a heterogeneous step

Each component of a heterogeneous step has a mother superior that sends a
`PSP_PACK_INFO` to the pack leader.  The leader keeps the messages that come
before the launch request, and it starts the step when the infos are complete.
-/

namespace Psmgmt.Slurm.PackInfo

def noVal : Nat := 0xfffffffe

def slurmInteractiveStep : Nat := 0xfffffffa

/-- `PSCPU_MAX` -/
def maxCPU : Nat := 1024

/-- `Head_ID_t` -/
structure HeadID where
  sluid : Nat
  jobid : Nat
  stepid : Nat
  deriving DecidableEq

/-- `PSpart_slot_t` -/
structure Slot where
  node : Nat
  cpuSet : Finset Nat
  deriving DecidableEq

/-- The slots as read from a message, and whether all of it could be read. -/
structure SlotsData where
  len : Nat
  slots : List Slot
  intact : Bool
  deriving DecidableEq

/-- A `PSP_PACK_INFO` -/
structure InfoMsg where
  sender : Nat
  packJobid : Nat
  hID : HeadID
  firstRank : Nat
  np : Nat
  tpp : Nat
  argV : List String
  slots : SlotsData
  deriving DecidableEq

/-- `JobCompInfo_t` -/
structure JobCompInfo where
  followerID : Nat
  firstRank : Nat
  np : Nat
  tpp : Nat
  argV : List String
  slots : List Slot

/-- `Step_t`; `key` is its address. -/
structure Step where
  key : Nat
  hID : HeadID
  packJobid : Nat
  packStepCount : Nat
  packNtasks : Nat
  packTaskOffset : Nat
  np : Nat
  tpp : Nat
  argV : List String
  slots : List Slot
  numPackInfo : Nat
  rcvdPackInfos : Nat
  rcvdPackProcs : Nat
  jobCompInfos : List JobCompInfo

/-- A message to the pack leader: `num` tells the ones about a step apart. -/
structure Wire where
  key : Nat
  num : Nat
  msg : InfoMsg
  deriving DecidableEq

/-- `Msg_Cache_t`; `read` tells that the data was read. -/
structure Cached where
  hID : HeadID
  wire : Wire
  read : Bool

structure Alloc where
  packID : Nat
  jobid : Nat

/-- The node of the pack leader. -/
structure Node where
  myID : Nat
  getNumThrds : Nat → Nat
  allocs : List Alloc
  /-- The protocol is newer than `SLURM_25_05_PROTO_VERSION`. -/
  sluids : Bool

/-! ## The info a mother superior sends -/

/-- `PSCPU_bytesForCPUs()` -/
def bytesForCPUs (num : Nat) : Nat :=
  if maxCPU < num then 0 else if num = 0 then 0 else (num - 1) / 8 + 1

section Node

variable (node : Node)

/-- `addSlotsToMsg()` -/
def addSlots (slots : List Slot) (len : Nat) : SlotsData :=
  let maxCPUs := slots.foldl (fun most slot =>
    if most < node.getNumThrds slot.node then node.getNumThrds slot.node
    else most) 0
  let bytes := bytesForCPUs maxCPUs
  if bytes = 0 then { len := 0, slots := [], intact := true }
  else
    { len
      slots := slots.map fun slot => { slot with cpuSet := slot.cpuSet.filter (· < 8 * bytes) }
      intact := true }

/-- `_packStepIDs()` as it is read again. -/
def packStepIDs (hID : HeadID) : HeadID :=
  if node.sluids then hID else { hID with sluid := 0 }

/-- `send_PS_PackInfo()` -/
def sendPackInfo (step : Step) : InfoMsg :=
  { sender := node.myID, packJobid := step.packJobid
    hID := packStepIDs node step.hID, firstRank := step.packTaskOffset
    np := step.np, tpp := step.tpp, argV := step.argV
    slots := addSlots node step.slots step.np }

/-! ## The pack leader -/

/-- `Alloc_findByPackID()` finds one. -/
def findByPackID (packID : Nat) : Bool :=
  node.allocs.any fun alloc =>
    alloc.packID = packID || (alloc.packID = noVal && alloc.jobid = packID)

end Node

/-- The test of `Step_findByStepId()`. -/
def Step.named (step : Step) (hID : HeadID) : Bool :=
  (hID.jobid = step.hID.jobid && step.hID.stepid = hID.stepid)
    || (step.packJobid ≠ noVal && hID.jobid = step.packJobid && hID.stepid = step.hID.stepid)

def findByStepId (steps : List Step) (hID : HeadID) : Option Step :=
  steps.find? fun step => step.named hID

/-- `Step_addJobCompInfo()` -/
def addJobCompInfo (info : JobCompInfo) : List JobCompInfo → List JobCompInfo
  | [] => [info]
  | cur :: infos =>
    if info.firstRank < cur.firstRank then info :: cur :: infos
    else cur :: addJobCompInfo info infos

def getSlotsFromMsg (data : SlotsData) : Option (List Slot) :=
  if data.len = 0 then some []
  else if data.slots.any fun slot => slot.cpuSet = ∅ then none
  else if data.intact then some data.slots
  else none

/-- The ID a message looks its step up with. -/
def InfoMsg.headID (msg : InfoMsg) : HeadID :=
  if msg.packJobid ≠ noVal then { msg.hID with jobid := msg.packJobid }
  else msg.hID

def InfoMsg.jobcomp (msg : InfoMsg) (slots : List Slot) : JobCompInfo :=
  { followerID := msg.sender, firstRank := msg.firstRank, np := msg.np
    tpp := msg.tpp, argV := msg.argV, slots }

/-- A launch request under way to the node.  `mother` tells that the node is the
first one of the component; `others` are the messages sent to a pack leader by
other mother superiors. -/
structure Launch where
  step : Step
  leader : Bool
  mother : Bool
  others : List InfoMsg

/-- The daemon of the pack leader.  While `handleCachedMsg()` replays messages to
a step, the cache is `msgCache` up to its position and `ahead` from there on.
Around it: launch requests and messages under way, messages of its own that the
leader has got to send, everything issued and sent so far, which message was
applied to which step, the steps `execStepLeader()` was called with, steps before
and after a message was rejected, and deleted steps that were accessed. -/
structure Daemon where
  steps : List Step
  msgCache : List Cached
  ahead : List Cached
  replaying : Option Nat
  requests : List Launch
  wire : List Wire
  unsent : List Wire
  issued : List Launch
  sent : List Wire
  applied : List (Wire × Nat)
  starts : List Step
  rejects : List (Step × Step)
  touched : List Nat

def Daemon.start : Daemon :=
  { steps := [], msgCache := [], ahead := [], replaying := none, requests := []
    wire := [], unsent := [], issued := [], sent := [], applied := []
    starts := [], rejects := [], touched := [] }

/-- The whole list of cached messages. -/
def Daemon.cache (daemon : Daemon) : List Cached := daemon.msgCache ++ daemon.ahead

/-- A loop at the last entry of the list does not get to one added behind it. -/
def Daemon.addCached (daemon : Daemon) (cached : Cached) : Daemon :=
  match daemon.ahead with
  | [] => { daemon with msgCache := daemon.msgCache ++ [cached] }
  | _ :: _ => { daemon with ahead := daemon.ahead ++ [cached] }

/-- The test of `deleteCachedMsg()`. -/
def Cached.purged (hID : HeadID) (cached : Cached) : Bool :=
  cached.hID.jobid = hID.jobid && cached.hID.stepid = hID.stepid && cached.hID.sluid = hID.sluid

def Daemon.deleteCachedMsg (daemon : Daemon) (hID : HeadID) : Daemon :=
  { daemon with
    msgCache := daemon.msgCache.filter fun cached => !cached.purged hID
    ahead := daemon.ahead.filter fun cached => !cached.purged hID }

/-- `Step_delete()` -/
def Daemon.deleteStep (daemon : Daemon) (step : Step) : Daemon :=
  { daemon.deleteCachedMsg step.hID with
    steps := daemon.steps.filter fun other => other.key ≠ step.key }

/-- `execStepLeader()` is called and fails unless `ok`. -/
def Daemon.execStep (daemon : Daemon) (step : Step) (ok : Bool) : Daemon :=
  let called := { daemon with starts := daemon.starts ++ [step] }
  if ok then called else called.deleteStep step

def Daemon.setStep (daemon : Daemon) (step : Step) : Daemon :=
  { daemon with
    steps := daemon.steps.map fun other => if other.key = step.key then step else other }

/-- The step when the processes of a message were counted. -/
def Step.count (step : Step) (np : Nat) : Step :=
  { step with
    rcvdPackProcs := (step.rcvdPackProcs + np) % 2 ^ 32
    rcvdPackInfos := (step.rcvdPackInfos + 1) % 2 ^ 32 }

def Step.nTasks (step : Step) : Nat :=
  if step.hID.stepid = slurmInteractiveStep then 1 else step.packNtasks

/-- A message was counted and is dropped then. -/
def Daemon.reject (daemon : Daemon) (step counted : Step) : Daemon :=
  { daemon.setStep counted with
    rejects := daemon.rejects ++ [(step, counted)] }

section Node

variable (node : Node)

/-- `handlePackInfo()`; `msg` is what is read from the data of `wire`. -/
def handlePackInfo (daemon : Daemon) (wire : Wire) (msg : InfoMsg) (ok : Bool) :
    Daemon :=
  if findByPackID node msg.headID.jobid = false then daemon
  else
    match findByStepId daemon.steps msg.headID with
    | none => daemon.addCached { hID := msg.headID, wire, read := false }
    | some step =>
      if step.numPackInfo = step.packStepCount then daemon
      else
        let counted := step.count msg.np
        match getSlotsFromMsg msg.slots with
        | none => daemon.reject step counted
        | some slots =>
          if msg.slots.len ≠ msg.np then daemon.reject step counted
          else
            let grown := { counted with
              jobCompInfos := addJobCompInfo (msg.jobcomp slots) counted.jobCompInfos }
            let added := { daemon.setStep grown with
              applied := daemon.applied ++ [(wire, step.key)] }
            if grown.rcvdPackProcs = grown.nTasks then
              added.execStep grown ok
            else added

/-- The test of `handleCachedMsg()`. -/
def Cached.replays (step : Step) (cached : Cached) : Bool :=
  cached.hID.stepid = step.hID.stepid
    && !((step.packJobid = noVal || step.packJobid ≠ cached.hID.jobid)
      && (cached.hID.jobid ≠ step.hID.jobid && cached.hID.sluid ≠ step.hID.sluid))

/-- The step is led by the node and waits for infos. -/
def Launch.leads (launch : Launch) : Bool := launch.leader && launch.step.packStepCount ≠ 1

/-- The end of `handleLaunchTasks()` up to the replay of cached messages. -/
def handleLaunchTasks (daemon : Daemon) (launch : Launch) (ok : Bool) : Daemon :=
  let added := { daemon with
    steps := daemon.steps ++ [launch.step]
    requests := daemon.requests.filter fun other => other.step.key ≠ launch.step.key }
  if launch.leader = false then added
  else if launch.step.packStepCount = 1 then added.execStep launch.step ok
  else
    { added with
      msgCache := [], ahead := added.msgCache
      replaying := some launch.step.key }

/-- One round of the loop in `handleCachedMsg()`, or what comes after it.  Data
that was read before reads as `spent`.  Where the step was deleted, the access
to it is noted and the handler is not followed any further. -/
def iterate (daemon : Daemon) (spent : InfoMsg) (ok : Bool) : Daemon :=
  match daemon.replaying with
  | none => daemon
  | some key =>
    match daemon.steps.find? fun step => step.key = key with
    | none =>
      { daemon with
        msgCache := daemon.cache, ahead := [], replaying := none
        touched := daemon.touched ++ [key] }
    | some step =>
      match daemon.ahead with
      | [] =>
        { daemon.deleteCachedMsg step.hID with
          replaying := none
          wire := daemon.wire ++ daemon.unsent.filter fun wire => wire.key = key
          unsent := daemon.unsent.filter fun wire => wire.key ≠ key }
      | cached :: rest =>
        if cached.replays step then
          handlePackInfo node { daemon with
            msgCache := daemon.msgCache ++ [{ cached with read := true }]
            ahead := rest } cached.wire (if cached.read then spent else cached.wire.msg) ok
        else
          { daemon with
            msgCache := daemon.msgCache ++ [cached], ahead := rest }

/-! ## The pack leader among slurmctld and mother superiors -/

/-- The messages of other mother superiors. -/
def Launch.forwarded (launch : Launch) : List Wire :=
  launch.others.zipIdx.map fun entry => ⟨launch.step.key, entry.2, entry.1⟩

/-- The message the pack leader sends to itself. -/
def Launch.own (launch : Launch) : List Wire :=
  if launch.leads && launch.mother then
    [⟨launch.step.key, launch.others.length, sendPackInfo node launch.step⟩]
  else []

def Launch.wires (launch : Launch) : List Wire := launch.forwarded ++ launch.own node

/-- The job ID that the infos of a step come with. -/
def Step.packID (step : Step) : Nat :=
  if step.packJobid ≠ noVal then step.packJobid else step.hID.jobid

/-- A step as it is launched.  If it is heterogeneous and led by the node, there
is one info for each component, with the IDs of the step and all of its tasks
together, and its allocation is known. -/
structure Launch.Proper (launch : Launch) : Prop where
  jobCompInfos : launch.step.jobCompInfos = []
  numPackInfo : launch.step.numPackInfo = 0
  rcvdPackProcs : launch.step.rcvdPackProcs = 0
  rcvdPackInfos : launch.step.rcvdPackInfos = 0
  plain : launch.leads = false → launch.others = []
  count : launch.leads = true → 1 < launch.step.packStepCount
    ∧ (launch.wires node).length = launch.step.packStepCount
  ids : ∀ wire ∈ launch.wires node,
    wire.msg.packJobid = launch.step.packJobid ∧ wire.msg.hID.stepid = launch.step.hID.stepid ∧
      (launch.step.packJobid = noVal → wire.msg.hID.jobid = launch.step.hID.jobid)
  total : launch.leads = true →
    ((launch.wires node).map fun wire => wire.msg.np).sum = launch.step.packNtasks
      ∧ launch.step.packNtasks < 2 ^ 32
  alloc : launch.leads = true → findByPackID node launch.step.packID = true

inductive Event where
  /-- A step is launched; the request and the infos are under way. -/
  | submit (launch : Launch)
  | launch (launch : Launch) (ok : Bool)
  | iterate (spent : InfoMsg) (ok : Bool)
  | packInfo (wire : Wire) (ok : Bool)
  /-- A step is over. -/
  | delete (step : Step)

/-- Steps go by different names. -/
def Launch.Apart (left right : Launch) : Prop :=
  ∀ hID, left.step.named hID = true → right.step.named hID = false

/-- The daemon handles one thing after the other. -/
def Enabled (daemon : Daemon) : Event → Prop
  | .submit launch => launch.Proper node ∧ launch.step.key = daemon.issued.length ∧ ∀ other ∈
      daemon.issued, launch.Apart other
  | .launch launch _ => daemon.replaying = none ∧ launch ∈ daemon.requests
  | .iterate _ _ => daemon.replaying.isSome = true
  | .packInfo wire _ => daemon.replaying = none ∧ wire ∈ daemon.wire
  | .delete step => daemon.replaying = none ∧ step ∈ daemon.steps
      ∧ ∀ launch ∈ daemon.issued, launch.step.key = step.key →
        launch.leads = true → step.key ∈ daemon.starts.map Step.key

def perform (daemon : Daemon) : Event → Daemon
  | .submit launch =>
    { daemon with
      issued := daemon.issued ++ [launch]
      requests := daemon.requests ++ [launch]
      sent := daemon.sent ++ launch.wires node
      wire := daemon.wire ++ launch.forwarded
      unsent := daemon.unsent ++ launch.own node }
  | .launch launch ok => handleLaunchTasks daemon launch ok
  | .iterate spent ok => iterate node daemon spent ok
  | .packInfo wire ok =>
    handlePackInfo node { daemon with wire := daemon.wire.erase wire } wire wire.msg ok
  | .delete step => daemon.deleteStep step

def packSystem : TransitionSystem Daemon where
  initial := fun daemon => daemon = Daemon.start
  step := fun before after => ∃ event, Enabled node before event ∧ after = perform node before event

/-! ## One complete start -/

/-- The info on a component as the leader keeps it. -/
def Wire.jobcomp (wire : Wire) : JobCompInfo := wire.msg.jobcomp wire.msg.slots.slots

structure Complete (launch : Launch) (infos : List JobCompInfo) : Prop where
  all : infos.Perm ((launch.wires node).map Wire.jobcomp)
  sorted : infos.Pairwise fun left right => left.firstRank ≤ right.firstRank
  length : infos.length = launch.step.packStepCount
  total : (infos.map JobCompInfo.np).sum = launch.step.packNtasks

def Daemon.Launched (daemon : Daemon) (launch : Launch) : Prop :=
  launch ∈ daemon.issued ∧ (∀ other ∈ daemon.requests, other.step.key ≠ launch.step.key) ∧
    daemon.replaying ≠ some launch.step.key

/-- Heterogeneous steps are started once and complete, each message is applied
once and to its step, messages that are rejected change nothing, and no deleted
step is accessed. -/
structure Right (daemon : Daemon) : Prop where
  once : (daemon.starts.map Step.key).Nodup
  complete : ∀ step ∈ daemon.starts, ∀ launch ∈ daemon.issued,
    launch.step.key = step.key → launch.leads = true → Complete node launch step.jobCompInfos
  started : ∀ launch, daemon.Launched launch → launch.leads = true →
    (∀ wire ∈ daemon.wire, wire.key ≠ launch.step.key) →
      launch.step.key ∈ daemon.starts.map Step.key
  own : ∀ entry ∈ daemon.applied, entry.2 = entry.1.key
  different : (daemon.applied.map Prod.fst).Nodup
  applied : ∀ launch, daemon.Launched launch → ∀ wire ∈ launch.wires node,
    wire ∉ daemon.wire → wire ∈ daemon.applied.map Prod.fst
  unchanged : ∀ entry ∈ daemon.rejects, entry.1 = entry.2
  untouched : daemon.touched = []

/-- The leader takes the infos of a step and counts a process in each, and the
number of tasks is what it waits for. -/
structure Launch.Fine (launch : Launch) : Prop where
  counted : launch.step.hID.stepid ≠ slurmInteractiveStep
  accepted : ∀ wire ∈ launch.wires node, getSlotsFromMsg wire.msg.slots = some wire.msg.slots.slots
      ∧ wire.msg.slots.len = wire.msg.np ∧ 0 < wire.msg.np

/-- The infos of a step are fine, all messages replayed to it are its own, and
its start in the replay does not fail. -/
def Fits (daemon : Daemon) : Event → Prop
  | .submit launch => launch.leads = true → launch.Fine node
  | .launch launch _ => launch.leads = true → ∀ cached ∈ daemon.msgCache,
      cached.replays launch.step = true → cached.wire.key = launch.step.key
  | .iterate _ ok => ok = true
  | _ => True

/-- The runs all of whose events fit. -/
def fittingSystem : TransitionSystem Daemon where
  initial := (packSystem node).initial
  step := fun before after =>
    ∃ event, Enabled node before event ∧ Fits node before event ∧ after = perform node before event

end Node

end Psmgmt.Slurm.PackInfo
