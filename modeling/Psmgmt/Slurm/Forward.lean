import Mathlib
import Psmgmt.Common.TaskId

/-!
# Forwarded Slurm messages

The part of `psslurmcomm.c` and `psslurmproto.c` that forwards a message to other
nodes, collects their results with the local one on the connection the message
came from, and answers there.  Allocations succeed, and sending the answer does.
-/

namespace Psmgmt.Slurm

/-- `Slurm_Forward_Res_t`. -/
structure ForwardRes where
  error : Nat
  type : Nat
  node : Int
  body : List UInt8
  deriving DecidableEq, Repr

/-- `Msg_Forward_t` with the part of its `head` that forwarding uses.  The
length of `fwRes` is `fwResSize`, that of `nodes` is `nodesCount`. -/
structure MsgForward where
  nodes : List Int
  numRes : Nat
  body : List UInt8
  type : Nat
  uid : Nat
  forward : Nat
  fwRes : List ForwardRes
  fwResRcvd : Nat
  deriving DecidableEq, Repr

/-- The answer to a forwarded message.  `none` stands for results read from
beyond the end of `fwRes`. -/
structure FwAnswer where
  type : Nat
  uid : Nat
  results : Option (List ForwardRes)
  body : List UInt8
  deriving DecidableEq, Repr

/-- `Connection_t` as far as forwarding needs it, and the answers sent. -/
structure FwConnection where
  fw : MsgForward
  isOpen : Bool
  answers : List FwAnswer
  deriving DecidableEq, Repr

/-- `Slurm_Msg_t` as far as saving a result needs it. -/
structure SlurmMsg where
  source : TaskId
  type : Nat
  uid : Nat
  reply : List UInt8
  deriving DecidableEq, Repr

/-- `RESPONSE_FORWARD_FAILED`. -/
def responseForwardFailed : Nat := 9001

/-- `SLURM_SUCCESS`. -/
def slurmSuccess : Nat := 0

/-- `SLURM_COMMUNICATIONS_CONNECTION_ERROR`. -/
def connectionError : Nat := 1001

/-- A slot of `fwRes` before a result is saved. -/
def ForwardRes.free : ForwardRes :=
  { error := connectionError, type := responseForwardFailed, node := -1,
    body := [] }

/-- The header of a message to forward, as far as `slurmTreeForward()` uses
it. -/
structure FwHeader where
  forward : Nat
  fwResRcvd : Nat
  uid : Nat
  deriving DecidableEq, Repr

/-- `slurmTreeForward()` once the node list has been resolved. -/
def slurmTreeForward (head : FwHeader) (nodes : List Int) (con : FwConnection) :
    FwConnection :=
  if head.forward = 0 then con
  else
    { con with
      fw := { con.fw with
        nodes := nodes
        forward := head.forward
        fwResRcvd := head.fwResRcvd
        fwRes := List.replicate head.forward .free
        uid := head.uid } }

/-- What the loop over the slots comes to. -/
inductive Saved where
  | again
  | saved (fwRes : List ForwardRes)
  | full
  deriving DecidableEq, Repr

/-- The loop of `saveFrwrdMsgReply()` over the slots. -/
def saveResult (srcNode : Int) (error type : Nat) (reply : List UInt8) : List ForwardRes → Saved
  | [] => .full
  | slot :: rest =>
    if slot.node = srcNode then .again
    else if slot.node = -1 then
      .saved ({ error := error, type := type, node := srcNode,
                body := slot.body ++ reply } :: rest)
    else
      match saveResult srcNode error type reply rest with
      | .saved fwRes => .saved (slot :: fwRes)
      | other => other

/-- `saveFrwrdMsgReply()`. -/
def saveFrwrdMsgReply (myID : Int) (sMsg : SlurmMsg) (error : Nat)
    (fw : MsgForward) : Bool × MsgForward :=
  let fw := { fw with numRes := fw.numRes + 1 }
  let srcNode := sMsg.source.getID myID
  if srcNode = myID then
    -- save local processed message
    (true, { fw with type := sMsg.type, uid := sMsg.uid,
                     body := fw.body ++ sMsg.reply })
  else
    match saveResult srcNode error sMsg.type sMsg.reply fw.fwRes with
    | .again => (false, { fw with numRes := fw.numRes - 1 })
    | .saved fwRes => (true, { fw with fwRes := fwRes, fwResRcvd := fw.fwResRcvd + 1 })
    | .full => (true, fw)

/-- The results `packSlurmHeader()` adds to the answer. -/
def packedResults (fw : MsgForward) : Option (List ForwardRes) :=
  if fw.fwResRcvd ≤ fw.fwRes.length then some (fw.fwRes.take fw.fwResRcvd)
  else none

/-- The second half of `handleFrwrdMsgReply()`: answer if all results are
there. -/
def answerIfComplete (fw : MsgForward) (con : FwConnection) : FwConnection :=
  if fw.numRes = fw.nodes.length + 1 then
    -- all answers collected
    let fw := { fw with forward := 0 }
    if fw.body = [] then { con with fw := fw, isOpen := false }
    else
      { con with
        fw := fw
        answers := con.answers ++
          [{ type := fw.type, uid := fw.uid, results := packedResults fw,
             body := fw.body }] }
  else { con with fw := fw }

/-- `handleFrwrdMsgReply()`. -/
def handleFrwrdMsgReply (myID : Int) (sMsg : SlurmMsg) (error : Nat)
    (con : FwConnection) : FwConnection :=
  if con.isOpen = false then con
  else
    match saveFrwrdMsgReply myID sMsg error con.fw with
    | (false, fw) => { con with fw := fw }
    | (true, fw) => answerIfComplete fw con

/-- What `handleBrokenConnection()` does for one connection. -/
def handleBrokenConnection (myID nodeID : Int) (con : FwConnection) :
    FwConnection :=
  if con.fw.nodes.contains nodeID then
    let sMsg : SlurmMsg :=
      { source := TaskId.getTID myID nodeID 0, type := responseForwardFailed,
        uid := 0, reply := [] }
    handleFrwrdMsgReply myID sMsg connectionError con
  else con

/-- What happens to a message that has been forwarded: the local result, the
result or a dropped message reported from a node, and a node that goes down. -/
inductive FwEvent where
  | own (type uid : Nat) (reply : List UInt8)
  | result (node : Int) (error type : Nat) (reply : List UInt8)
  | down (node : Int)
  deriving DecidableEq, Repr

/-- One event.  The local result comes from `sendSlurmReply()`, with no source;
a remote one from `handleFWslurmMsgRes()` or `saveForwardError()`. -/
def FwEvent.handle (myID : Int) (con : FwConnection) : FwEvent → FwConnection
  | .own type uid reply => handleFrwrdMsgReply myID ⟨⟨-1, -1⟩, type, uid, reply⟩ slurmSuccess con
  | .result node error type reply =>
    handleFrwrdMsgReply myID ⟨TaskId.getTID myID node 0, type, 0, reply⟩ error con
  | .down node => handleBrokenConnection myID node con

end Psmgmt.Slurm
