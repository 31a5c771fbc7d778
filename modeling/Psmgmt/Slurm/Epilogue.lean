import Psmgmt.Library.Transition
import Psmgmt.Library.Triple

/-!
# Counting epilogues

The leader of an allocation waits until the epilogue has finished on all nodes,
then starts the finalize script.  An allocation that was deleted may not be
accessed any more: a handler that does so faults.
-/

namespace Psmgmt.Epilogue

open Triple

inductive AllocState where
  | init
  | prologueFinish
  | running
  | epilogue
  | epilogueFinish
  | exit
  | prologue
  deriving DecidableEq, Repr

def AllocState.value : AllocState → Nat
  | .init => 0x020
  | .prologueFinish => 0x022
  | .running => 0x023
  | .epilogue => 0x024
  | .epilogueFinish => 0x025
  | .exit => 0x026
  | .prologue => 0x027

/-- `Alloc_t` of an allocation led by this node. -/
structure Alloc where
  nodes : List Nat
  state : AllocState
  prologCnt : Nat
  epilogRes : List Bool
  epilogCnt : Nat
  /-- The finalize script was started. -/
  epilogFin : Bool
  terminate : Nat
  nodeFail : Bool

/-- The allocation as long as it is not deleted, and what each start of the
finalize script found in `epilogRes`. -/
structure Daemon where
  alloc : Option Alloc
  starts : List (List Bool)

inductive Fault where
  | useAfterFree

abbrev Access (Value : Type) := StateT Daemon (Except Fault) Value

/-- Read the allocation through a pointer to it. -/
def deref : Access Alloc := fun daemon =>
  match daemon.alloc with
  | some alloc => .ok (alloc, daemon)
  | none => .error .useAfterFree

/-- Write to the allocation through a pointer to it. -/
def update (change : Alloc → Alloc) : Access Unit := fun daemon =>
  match daemon.alloc with
  | some alloc => .ok ((), { daemon with alloc := some (change alloc) })
  | none => .error .useAfterFree

/-- `Alloc_find()` -/
def find : Access Bool := fun daemon => .ok (daemon.alloc.isSome, daemon)

def allocDelete : Access Unit := fun daemon => .ok ((), { daemon with alloc := none })

/-- `execEpilogueFin()`, which may fail to start the script. -/
def execEpilogueFin (starts : Bool) : Access Bool := fun daemon =>
  match daemon.alloc with
  | some alloc => .ok (starts, { daemon with starts := daemon.starts ++ [alloc.epilogRes] })
  | none => .error .useAfterFree

/-- `finalizeEpilogue()` tells whether it has deleted the allocation. -/
def finalizeEpilogue (starts : Bool) : Access Bool := do
  let alloc ← deref
  if alloc.epilogFin = false ∧ alloc.nodes.length = alloc.epilogCnt then
    update fun alloc => { alloc with epilogFin := true }
    let started ← execEpilogueFin starts
    if started then pure false
    else
      let alloc ← deref
      if alloc.terminate ≠ 0 then
        allocDelete
        pure true
      else pure false
  else pure false

/-- `getSlurmNodeID()` -/
def getSlurmNodeID (nodes : List Nat) (node : Nat) : Option Nat :=
  if nodes.idxOf node < nodes.length then some (nodes.idxOf node) else none

/-- The entry of a node gets set, and counted once. -/
def setEpilogRes (index : Nat) (alloc : Alloc) : Alloc :=
  if alloc.epilogRes[index]? = some false then
    { alloc with
      epilogRes := alloc.epilogRes.set index true
      epilogCnt := alloc.epilogCnt + 1 }
  else alloc

def handleEpilogueStateRes (starts : Bool) (sender res : Nat) : Access Unit := do
  if ← find then
    let alloc ← deref
    match getSlurmNodeID alloc.nodes sender with
    | none => pure ()
    | some localID =>
      whenever (res = 0 || res = AllocState.epilogueFinish.value
          || res = AllocState.exit.value)
        (update (setEpilogRes localID))
      let _ ← finalizeEpilogue starts
  else pure ()

/-- `handleEpilogueStateReq()` on the node itself, which answers at once. -/
def handleEpilogueStateReq (starts : Bool) (sender : Nat) : Access Unit := do
  if ← find then
    let alloc ← deref
    whenever (alloc.state ≠ .epilogue && alloc.state ≠ .epilogueFinish && alloc.state ≠ .exit)
      (update fun alloc => { alloc with state := .epilogue })
    handleEpilogueStateRes starts sender alloc.state.value
  else handleEpilogueStateRes starts sender 0

/-- `handlePElogueRes()`: a result that is not pending. -/
def handlePElogueRes (starts : Bool) (sender : Nat) (pending prologue : Bool) : Access Unit := do
  if ← find then
    let alloc ← deref
    match getSlurmNodeID alloc.nodes sender with
    | none => pure ()
    | some localID =>
      if pending then pure ()
      else if prologue then
        update fun alloc => { alloc with prologCnt := alloc.prologCnt + 1 }
      else
        update (setEpilogRes localID)
        let _ ← finalizeEpilogue starts
  else pure ()

/-- `handleDroppedEpilogue()` -/
def handleDroppedEpilogue (starts : Bool) (dest : Nat) : Access Unit := do
  if ← find then
    let alloc ← deref
    match getSlurmNodeID alloc.nodes dest with
    | none => pure ()
    | some localID =>
      update (setEpilogRes localID)
      let _ ← finalizeEpilogue starts
  else pure ()

/-- `nodeDownAlloc()` -/
def nodeDownAlloc (node : Nat) : Access Unit := do
  if ← find then
    let alloc ← deref
    match getSlurmNodeID alloc.nodes node with
    | none => pure ()
    | some index =>
      update (setEpilogRes index)
      update fun alloc => { alloc with nodeFail := true }
  else pure ()

/-- The nodes that are asked for the state of their epilogue. -/
def unfinished (alloc : Alloc) : List Nat :=
  ((alloc.nodes.zip alloc.epilogRes).filter fun entry => !entry.2).map Prod.fst

/-- Requests to nodes that are down are dropped at once. -/
def dropAll (starts : Bool) (down : Nat → Bool) : List Nat → Access Unit
  | [] => pure ()
  | dest :: dests => do
      whenever (down dest) (handleDroppedEpilogue starts dest)
      dropAll starts down dests

/-- `send_PS_EpilogueStateReq()`; the request to the own node is the last one. -/
def sendEpilogueStateReq (starts : Bool) (down : Nat → Bool) (me : Nat) : Access Unit := do
  let alloc ← deref
  let dests := unfinished alloc
  dropAll starts down (dests.filter fun dest => dest ≠ me)
  whenever (dests.contains me) (handleEpilogueStateReq starts me)

def terminateAlloc (starts : Bool) (down : Nat → Bool) (me : Nat)
    (signalled : Bool) : Access Unit := do
  let alloc ← deref
  match alloc.state with
  | .running =>
    if signalled then pure ()
    else update fun alloc => { alloc with state := .epilogue }
  | .epilogue => pure ()
  | .prologue => pure ()
  | .epilogueFinish | .exit =>
    let deleted ← finalizeEpilogue starts
    if deleted then pure ()
    else
      let _ ← deref
      sendEpilogueStateReq starts down me
  | .prologueFinish | .init => update fun alloc => { alloc with state := .epilogue }

/-- The part of `handleTerminateAlloc()` that counts the requests. -/
def handleTerminate (starts : Bool) (down : Nat → Bool) (me : Nat)
    (signalled : Bool) (maxTermReq : Nat) : Access Unit := do
  if ← find then
    let alloc ← deref
    if 0 < maxTermReq then
      update fun alloc => { alloc with terminate := alloc.terminate + 1 }
      if maxTermReq ≤ alloc.terminate then allocDelete
      else terminateAlloc starts down me signalled
    else terminateAlloc starts down me signalled
  else pure ()

/-- `epiFinCallback()` -/
def epiFinCallback : Access Unit := do
  if ← find then
    let alloc ← deref
    whenever (alloc.terminate ≠ 0) allocDelete
  else pure ()

/-- What happens to the allocation; each event that may start the finalize
script tells whether it can be started. -/
inductive Event where
  | pelogueRes (starts : Bool) (sender : Nat) (pending prologue : Bool)
  | stateRes (starts : Bool) (sender res : Nat)
  | dropped (starts : Bool) (dest : Nat)
  | nodeDown (node : Nat)
  | terminate (starts : Bool) (down : Nat → Bool) (me : Nat) (signalled : Bool) (maxTermReq : Nat)
  | scriptEnds
  /-- Prologue, job and steps move the allocation on. -/
  | state (state : AllocState)
  | delete

def handle : Event → Access Unit
  | .pelogueRes starts sender pending prologue => handlePElogueRes starts sender pending prologue
  | .stateRes starts sender res => handleEpilogueStateRes starts sender res
  | .dropped starts dest => handleDroppedEpilogue starts dest
  | .nodeDown node => nodeDownAlloc node
  | .terminate starts down me signalled maxTermReq =>
    handleTerminate starts down me signalled maxTermReq
  | .scriptEnds => epiFinCallback
  | .state state => do
      let found ← find
      whenever found (update fun alloc => { alloc with state })
  | .delete => allocDelete

/-- A new allocation of at least one node. -/
def Daemon.start (nodes : List Nat) : Daemon :=
  { alloc := some
      { nodes, state := .init, prologCnt := 0
        epilogRes := nodes.map fun _ => false
        epilogCnt := 0, epilogFin := false, terminate := 0, nodeFail := false }
    starts := [] }

def epilogueSystem : TransitionSystem Daemon where
  initial := fun daemon => ∃ nodes, nodes ≠ [] ∧ daemon = Daemon.start nodes
  step := fun before after => ∃ event, handle event before = .ok ((), after)

/-! ## Counting right -/

def AllSet (alloc : Alloc) : Prop := ∀ res ∈ alloc.epilogRes, res = true

structure Right (daemon : Daemon) : Prop where
  count : ∀ alloc, daemon.alloc = some alloc →
    alloc.epilogCnt = alloc.epilogRes.count true ∧ alloc.epilogCnt ≤ alloc.nodes.length
  once : daemon.starts.length ≤ 1
  last : ∀ res ∈ daemon.starts, ∀ entry ∈ res, entry = true
  started : ∀ alloc, daemon.alloc = some alloc → (AllSet alloc ↔ daemon.starts ≠ [])

/-- A node that goes down does not set the last entry. -/
def Fits (daemon : Daemon) : Event → Prop
  | .nodeDown node => ∀ alloc, daemon.alloc = some alloc → ∀ index,
      getSlurmNodeID alloc.nodes node = some index → alloc.epilogRes[index]? = some true
          ∨ ∃ other, other ≠ index ∧ alloc.epilogRes[other]? = some false
  | _ => True

/-- The runs in which no node going down sets the last entry. -/
def fittingSystem : TransitionSystem Daemon where
  initial := epilogueSystem.initial
  step := fun before after => ∃ event, Fits before event ∧ handle event before = .ok ((), after)

end Psmgmt.Epilogue
