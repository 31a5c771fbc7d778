import Psmgmt.Library.ByteMemory

/-!
# State of the RDP protocol

The data of `rdp.c`: connections with their pending messages, the pools of
message buffers and the list of pending ACKs.  Statistics and log messages are
left out.  A message buffer is identified by its index in the pool.  What the
operating system answers is taken from the state as well, and what the module
does towards its environment is recorded in a trace.
-/

namespace Psmgmt.Rdp

open ByteMemory

/-- `int32_t` in sequence space. -/
abbrev SeqNo := BitVec 32

/-- `RSEQCMP()`: the signed difference of two sequence numbers. -/
def rseqcmp (a b : SeqNo) : Int := (a - b).toInt

/-- The packet types of RDP; any other number is unknown. -/
inductive PktType where
  | data | syn | ack | synack | nack | unknown
  deriving DecidableEq, Repr

/-- `rdphdr_t`. -/
structure Header where
  type : PktType
  len : Nat
  seqno : SeqNo
  ackno : SeqNo
  connid : SeqNo
  deriving DecidableEq, Repr

structure Packet where
  header : Header
  data : List UInt8
  deriving DecidableEq, Repr

/-- `RDP_SMALL_DATA_SIZE`. -/
def smallDataSize : Nat := 64

/-- `RDP_MAX_DATA_SIZE`. -/
def maxDataSize : Nat := 1472 - 16

/-- `MAX_WINDOW_SIZE`. -/
def maxWindowSize : Nat := 32

/-- `msgbuf_t`, in use.  Its `node` is the one whose connection holds it. -/
structure MsgBuf where
  id : Nat
  len : Nat
  header : Header
  data : List UInt8
  deleted : Bool
  deriving DecidableEq, Repr

def MsgBuf.packet (msg : MsgBuf) : Packet := { header := msg.header, data := msg.data }

/-- `RDPState_t`. -/
inductive ConnState where
  | closed | synSent | synRecvd | active
  deriving DecidableEq, Repr

/-- `INADDR_ANY`. -/
def inaddrAny : Nat := 0

/-- `INADDR_NONE`. -/
def inaddrNone : Nat := 0xffffffff

/-- `Rconninfo_t`.  A timer of 0 is not set. -/
structure Conn where
  window : Int
  ackPending : Nat
  msgPending : Nat
  addr : Nat
  frameToSend : SeqNo
  ackExpected : SeqNo
  frameExpected : SeqNo
  connIDIn : SeqNo
  connIDOut : SeqNo
  state : ConnState
  pendList : List MsgBuf
  tmout : Nat
  closed : Nat
  retrans : Nat
  deriving DecidableEq, Repr

inductive Errno where
  | intr | connrefused | hostunreach | noent | again | nobufs | msgsize
  | connreset | inval | nomem | other
  deriving DecidableEq, Repr

/-- The errors that make `handleErr()` close a connection. -/
def Errno.unreachable (eno : Errno) : Bool :=
  eno = .connrefused || eno = .hostunreach || eno = .noent

/-- What `recvmsg()` finds in the socket's error queue: nothing, something
`handleErr()` cannot use, or an error concerning a node. -/
inductive ErrQueue where
  | empty
  | unusable (eno : Errno)
  | node (node : Nat)
  deriving DecidableEq, Repr

/-- A failing `sendto()`. -/
structure SendError where
  eno : Errno
  queue : ErrQueue
  deriving DecidableEq, Repr

/-- The notifications passed to `RDPCallback()`. -/
inductive Callback where
  | newConnection (node : Nat)
  | pktUndeliverable (node : Nat) (buf : List UInt8)
  | canContinue (node : Nat)
  | lostConnection (node : Nat)
  deriving DecidableEq, Repr

/-- What is recorded: packets handed to `MYsendto()` and those it gets through,
the messages accepted by `Rsendto()`, those returned by `Rrecvfrom()`, calls of
`closeConnection()` and of the callback. -/
inductive Event where
  | submit (node : Nat) (packet : Packet)
  | sendto (node : Nat) (packet : Packet)
  | queued (node : Nat) (message : Packet)
  | received (node : Nat) (message : Packet)
  | closing (node : Nat)
  | callback (info : Callback)
  deriving DecidableEq, Repr

/-- A call of `Rsendto()` requested from within a callback. -/
structure Request where
  node : Nat
  buf : List UInt8
  deriving DecidableEq, Repr

/-- The module's variables on one node.  The environment answers with the failures of each
call of `MYsendto()` before it gets through, the results of `malloc()`, the
requests made by each callback, and endless sequences of times and random
numbers. -/
structure Station where
  nrOfNodes : Nat
  rdpID : Nat
  conntable : Nat → Conn
  ackList : List (Nat × Nat)
  msgFreeList : List Nat
  sMsgFree : Nat
  cleanupReq : Bool
  maxRetransCount : Nat
  maxAckPending : Int
  resendTimeout : Nat
  closedTimeout : Nat
  sends : List (List SendError)
  mallocs : List Bool
  requests : List (List Request)
  clock : Nat → Nat
  ticks : Nat
  randoms : Nat → SeqNo
  draws : Nat
  trace : List Event

/-- Change the connection to `node`. -/
def Station.modify (rdp : Station) (node : Nat) (change : Conn → Conn) : Station :=
  { rdp with
    conntable := Function.update rdp.conntable node (change (rdp.conntable node)) }

@[simp] theorem Station.modify_self (rdp : Station) (node : Nat)
    (change : Conn → Conn) :
    (rdp.modify node change).conntable node = change (rdp.conntable node) := by
  simp [Station.modify]

@[simp] theorem Station.modify_trace (rdp : Station) (node : Nat)
    (change : Conn → Conn) : (rdp.modify node change).trace = rdp.trace :=
  rfl

theorem Station.modify_other {node other : Nat} (different : other ≠ node)
    (rdp : Station) (change : Conn → Conn) :
    (rdp.modify node change).conntable other = rdp.conntable other := by
  simp [Station.modify, different]

theorem Station.modify_modify (rdp : Station) (node : Nat)
    (first second : Conn → Conn) :
    (rdp.modify node first).modify node second =
      rdp.modify node (fun conn => second (first conn)) := by
  simp [Station.modify]

def Station.log (rdp : Station) (event : Event) : Station :=
  { rdp with trace := rdp.trace ++ [event] }

/-- What `gettimeofday()` returns; each call is followed by a `tick`. -/
def gettimeofday (rdp : Station) : Nat := rdp.clock rdp.ticks

def Station.tick (rdp : Station) : Station := { rdp with ticks := rdp.ticks + 1 }

/-- `getMsg()`. -/
def getMsg (rdp : Station) : Option (Nat × Station) :=
  match rdp.msgFreeList with
  | [] => none
  | id :: rest => some (id, { rdp with msgFreeList := rest })

/-- The frame of a message of `len` bytes: `getSMsg()` or `malloc()`. -/
def getFrame (len : Nat) (rdp : Station) : Bool × Station :=
  if len ≤ smallDataSize then
    if rdp.sMsgFree = 0 then (false, rdp)
    else (true, { rdp with sMsgFree := rdp.sMsgFree - 1 })
  else
    (rdp.mallocs.head?.getD true, { rdp with mallocs := rdp.mallocs.tail })

/-- `putMsg()` of a message pending to `node`. -/
def putMsg (node : Nat) (msg : MsgBuf) (rdp : Station) : Station :=
  let rdp := rdp.modify node (fun conn => { conn with pendList := conn.pendList.erase msg })
  { rdp with
    sMsgFree :=
      if msg.len > smallDataSize then rdp.sMsgFree else rdp.sMsgFree + 1
    ackList := rdp.ackList.erase (node, msg.id)
    msgFreeList := rdp.msgFreeList ++ [msg.id] }

/-- `RDP_init()` of `nodes` nodes with the addresses `hosts`. -/
def rdpInit (nodes : Nat) (hosts : Nat → Nat) (localID : Nat)
    (clock : Nat → Nat) (randoms : Nat → SeqNo) : Station :=
  { nrOfNodes := nodes
    rdpID := localID
    conntable := fun node =>
      { window := maxWindowSize, ackPending := 0, msgPending := 0
        addr := hosts node
        frameToSend := randoms (3 * node)
        ackExpected := randoms (3 * node)
        frameExpected := randoms (3 * node + 1)
        connIDIn := -1
        connIDOut := randoms (3 * node + 2)
        state := .closed, pendList := [], tmout := 0, closed := 0
        retrans := 0 }
    ackList := []
    msgFreeList := List.range (nodes * maxWindowSize)
    sMsgFree := nodes * maxWindowSize
    cleanupReq := false
    maxRetransCount := 32
    maxAckPending := 4
    resendTimeout := 300000
    closedTimeout := 2000000
    sends := []
    mallocs := []
    requests := []
    clock := clock
    ticks := 1
    randoms := randoms
    draws := 3 * nodes
    trace := [] }

end Psmgmt.Rdp
