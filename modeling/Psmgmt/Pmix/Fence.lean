import Psmgmt.Library.Transition

/-!
# The fence of the PMIx servers

The PMIx servers of the nodes in a fence exchange their blobs over a tree of
their node ranks.  A node is addressed by its rank in the fence and there is one
fence ID, so that a node has at most one fence object.  The data of a message is
the concatenation of the blobs in it.
-/

namespace Psmgmt.Pmix

open Function

variable {Byte : Type*}

/-- Pending fence message container. -/
structure FenceMsg (Byte : Type*) where
  sender : Nat
  sRank : Nat
  nBlobs : Nat
  data : List Byte

/-- Fence object: `nSrcs`, `nRcvrs` and `nMsgs` are the lengths of the lists. -/
structure Fence (Byte : Type*) where
  nNodes : Nat
  rank : Nat
  srcs : List Nat
  nGot : Nat
  dest : Nat
  rcvrs : List Nat
  msgs : List (FenceMsg Byte)
  nBlobs : Nat
  data : List Byte

/-- All fields 0, apart from `dest`, which is -1 in 16 bits. -/
def createFenceObject : Fence Byte :=
  { nNodes := 0, rank := 0, srcs := [], nGot := 0, dest := 65535, rcvrs := [],
    msgs := [], nBlobs := 0, data := [] }

def dropMsg (fence : Fence Byte) (msg : Nat) : Fence Byte :=
  { fence with msgs := fence.msgs.eraseIdx msg }

def appendMsg (fence : Fence Byte) (msg : FenceMsg Byte) : Fence Byte :=
  { fence with
    data := fence.data ++ msg.data
    nBlobs := fence.nBlobs + msg.nBlobs }

/-- Messages to be put on their way, with their receivers. -/
abbrev Sends (Byte : Type*) := List (Nat × FenceMsg Byte)

def sendFenceData (fence : Fence Byte) (dests : List Nat) (nBlobs : Nat)
    (data : List Byte) : Sends Byte :=
  dests.map fun dest => (dest, { sender := fence.rank, sRank := fence.rank, nBlobs, data })

/-- The next expected upward message. -/
def isUpward (fence : Fence Byte) (msg : FenceMsg Byte) : Prop :=
  fence.srcs[fence.nGot]? = some msg.sRank

/-- A side-ward or downward message once all receivers are known. -/
def isDownward (fence : Fence Byte) (msg : FenceMsg Byte) : Prop :=
  msg.sRank = fence.dest ∧ fence.rcvrs.length = fence.srcs.length

instance (fence : Fence Byte) (msg : FenceMsg Byte) : Decidable (isUpward fence msg) :=
  inferInstanceAs (Decidable (_ = _))

instance (fence : Fence Byte) (msg : FenceMsg Byte) : Decidable (isDownward fence msg) :=
  inferInstanceAs (Decidable (_ ∧ _))

/-- Accumulated data goes side-ward to the next expected sender or upward. -/
def sendAccumulated (fence : Fence Byte) : Sends Byte :=
  match fence.srcs[fence.nGot]? with
  | some destRank => sendFenceData fence [destRank] fence.nBlobs fence.data
  | none =>
    if fence.rank ≠ 0 then
      sendFenceData fence [fence.dest] fence.nBlobs fence.data
    else []

def countUpward (fence : Fence Byte) (msg : FenceMsg Byte) : Fence Byte :=
  { appendMsg fence msg with nGot := fence.nGot + 1 }

/-- Extend the local sub-tree by a new sender. -/
def addReceiver (fence : Fence Byte) (sender : Nat) : Fence Byte :=
  { fence with rcvrs := fence.rcvrs ++ [sender] }

/-- One pass of the loop in `checkFence` over message number `m`. -/
def handleMsg (fence : Fence Byte) (m : Nat) : Fence Byte × Sends Byte :=
  match fence.msgs[m]? with
  | none => (fence, [])
  | some msg =>
    if isUpward fence msg then
      let appended := countUpward fence msg
      (dropMsg (addReceiver appended msg.sender) m,
        sendAccumulated appended ++ sendFenceData appended appended.rcvrs msg.nBlobs msg.data)
    else if isDownward fence msg then
      (dropMsg (appendMsg fence msg) m, sendFenceData fence fence.rcvrs msg.nBlobs msg.data)
    else
      -- postponed or no match
      (fence, [])

/-- The first message that can be handled, `nMsgs` if there is none. -/
def nextMsg (fence : Fence Byte) : Nat :=
  fence.msgs.findIdx fun msg => isUpward fence msg ∨ isDownward fence msg

/-- The loop of `checkFence`.  Each pass but the first one drops a message. -/
def checkLoop : Nat → Fence Byte → Nat → Fence Byte × Sends Byte
  | 0, fence, _ => (fence, [])
  | fuel + 1, fence, m =>
    let (handled, sends) := handleMsg fence m
    if nextMsg handled < handled.msgs.length then
      let (checked, more) := checkLoop fuel handled (nextMsg handled)
      (checked, sends ++ more)
    else (handled, sends)

/-- What a call leaves behind: the fence object, the messages sent, the data
given to `pspmix_server_fenceOut`, and the object freed after that. -/
structure Outcome (Byte : Type*) where
  fence : Option (Fence Byte)
  sends : Sends Byte
  fenceOut : Option (List Byte)
  freed : Option (Fence Byte)

def checkFence (fence : Fence Byte) : Outcome Byte :=
  if fence.nNodes = 0 then ⟨some fence, [], none, none⟩
  else if fence.msgs.length = 0 then ⟨some fence, [], none, none⟩
  else
    -- investigate the newly appended message first
    let (checked, sends) := checkLoop (fence.msgs.length + 1) fence (fence.msgs.length - 1)
    if checked.nBlobs = checked.nNodes then
      ⟨none, sends, some checked.data, some checked⟩
    else ⟨some checked, sends, none, none⟩

/-- The sources and the last offset of the tree for a rank.  The offset doubles
in each round, `nNodes + 1` rounds are enough. -/
def treeLoop (nNodes rank : Nat) : Nat → Nat → List Nat → List Nat × Nat
  | 0, off, srcs => (srcs, off)
  | fuel + 1, off, srcs =>
    if rank % (2 * off) ≠ 0 then (srcs, off)
    else if rank + off < nNodes then
      treeLoop nNodes rank fuel (2 * off) (srcs ++ [rank + off])
    else if rank = 0 then (srcs, off)
    else treeLoop nNodes rank fuel (2 * off) srcs

/-- Fill the fence object when the node enters the fence. -/
def fillFence (fence : Fence Byte) (nNodes rank : Nat) (data : List Byte) : Fence Byte :=
  let tree := treeLoop nNodes rank (nNodes + 1) 1 fence.srcs
  { fence with
    nNodes, rank, data
    srcs := tree.1
    nBlobs := 1
    dest := if rank ≠ 0 then rank - tree.2 else fence.dest }

/-- `pspmix_service_fenceIn` -/
def fenceIn (found : Option (Fence Byte)) (nNodes rank : Nat) (data : List Byte) : Outcome Byte :=
  let fence := found.getD createFenceObject
  -- unexpected, the object must not have its nodes set
  if fence.nNodes ≠ 0 then ⟨found, [], none, none⟩
  -- only the local node in the fence
  else if nNodes = 1 then ⟨found, [], none, none⟩
  else
    let filled := fillFence fence nNodes rank data
    let sends := sendFenceData filled [filled.srcs.head?.getD filled.dest] filled.nBlobs filled.data
    if filled.msgs.length ≠ 0 then
      let checked := checkFence filled
      { checked with sends := sends ++ checked.sends }
    else ⟨some filled, sends, none, none⟩

/-- `pspmix_service_handleFenceData` -/
def handleFenceData (found : Option (Fence Byte)) (msg : FenceMsg Byte) : Outcome Byte :=
  let fence := found.getD createFenceObject
  let appended := { fence with msgs := fence.msgs ++ [msg] }
  if appended.nNodes ≠ 0 then checkFence appended
  else ⟨some appended, [], none, none⟩

/-! ## All nodes of the fence -/

/-- The nodes with their fence objects, how often each of them called
`fenceIn`, what each of them was given by `fenceOut`, the objects freed with
their left over messages, and the messages under way between each pair of
nodes. -/
structure Cluster (Byte : Type*) where
  fence : Nat → Option (Fence Byte)
  calls : Nat → Nat
  outs : Nat → List (List Byte)
  freed : List (Fence Byte)
  wire : Nat → Nat → List (FenceMsg Byte)

/-- The messages among `sends` for one receiver. -/
def posted (sends : Sends Byte) (target : Nat) : List (FenceMsg Byte) :=
  (sends.filter fun send => send.1 = target).map Prod.snd

def post (wire : Nat → Nat → List (FenceMsg Byte)) (rank : Nat)
    (sends : Sends Byte) (source target : Nat) : List (FenceMsg Byte) :=
  if source = rank then wire source target ++ posted sends target
  else wire source target

def Cluster.put (cluster : Cluster Byte) (rank : Nat) (outcome : Outcome Byte) : Cluster Byte :=
  { cluster with
    fence := update cluster.fence rank outcome.fence
    outs := update cluster.outs rank (cluster.outs rank ++ outcome.fenceOut.toList)
    freed := cluster.freed ++ outcome.freed.toList
    wire := post cluster.wire rank outcome.sends }

/-- A call of `fenceIn` on one node. -/
def Cluster.enter (cluster : Cluster Byte) (nNodes rank : Nat) (data : List Byte) : Cluster Byte :=
  { cluster with
    calls := update cluster.calls rank (cluster.calls rank + 1) }.put
      rank (fenceIn (cluster.fence rank) nNodes rank data)

/-- The delivery of the first message on one wire. -/
def Cluster.deliver (cluster : Cluster Byte) (source target : Nat)
    (msg : FenceMsg Byte) (rest : List (FenceMsg Byte)) : Cluster Byte :=
  { cluster with
    wire := update cluster.wire source (update (cluster.wire source) target rest) }.put target
      (handleFenceData (cluster.fence target) msg)

/-- `blob rank k` is what node `rank` contributes to its fence number `k`. -/
inductive FenceStep (nNodes : Nat) (blob : Nat → Nat → List Byte) :
    Cluster Byte → Cluster Byte → Prop where
  /-- A node enters the next fence after the `fenceOut` of its last one. -/
  | enter {cluster : Cluster Byte} {rank : Nat} (participant : rank < nNodes)
      (idle : cluster.calls rank = (cluster.outs rank).length) :
      FenceStep nNodes blob cluster (cluster.enter nNodes rank (blob rank (cluster.calls rank)))
  | deliver {cluster : Cluster Byte} {source target : Nat} {msg : FenceMsg Byte}
      {rest : List (FenceMsg Byte)} (head : cluster.wire source target = msg :: rest) :
      FenceStep nNodes blob cluster (cluster.deliver source target msg rest)

def Cluster.start : Cluster Byte :=
  { fence := fun _ => none, calls := fun _ => 0, outs := fun _ => [],
    freed := [], wire := fun _ _ => [] }

/-- All runs of the nodes of one fence ID. -/
def fenceSystem (nNodes : Nat) (blob : Nat → Nat → List Byte) :
    TransitionSystem (Cluster Byte) where
  initial := fun cluster => cluster = Cluster.start
  step := FenceStep nNodes blob

end Psmgmt.Pmix
