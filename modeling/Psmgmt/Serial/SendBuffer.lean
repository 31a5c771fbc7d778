import Psmgmt.Serial.Message

/-!
# Adding data to a send buffer

The writing half of `psserial.c`.  Data go either to the common `sendBuf` or,
if the send buffer is initialized for fragmentation, to `fragMsg`, which is
handed to the send function whenever it is full.  All allocations succeed.
Integers live in little-endian memory, i.e. `SLURM_BIGENDIAN` is not set and
conversion to network byte-order reverses the bytes.
-/

namespace Psmgmt.Serial

open ByteMemory

/-- `PS_DataType_t`. -/
inductive DataType where
  | string | time | int8 | int16 | int32 | int64
  | uint8 | uint16 | uint32 | uint64 | pid | mem | double | data
  deriving DecidableEq, Repr

def DataType.tag : DataType → UInt8
  | .string => 3
  | .time => 4
  | .int8 => 5
  | .int16 => 6
  | .int32 => 7
  | .int64 => 8
  | .uint8 => 9
  | .uint16 => 10
  | .uint32 => 11
  | .uint64 => 12
  | .pid => 13
  | .mem => 14
  | .double => 15
  | .data => 16

/-- The global flags set by `setByteOrder()` and `setTypeInfo()`. -/
structure Flags where
  byteOrder : Bool
  typeInfo : Bool
  deriving DecidableEq, Repr

/-- `PS_SendDB_t`; `buf` tells whether the pointer has been set. -/
structure SendDB where
  buf : Bool
  bufUsed : Nat
  useFrag : Bool
  headType : Int
  msgType : Int
  fragNum : Nat
  numDest : Nat
  extra : List UInt8
  deriving DecidableEq, Repr

/-- The module's state in a sending process.  `sent` lists the messages handed
to `sendPSMsg()` so far. -/
structure Sender where
  myID : Int
  myTID : TaskId
  sendBuf : List UInt8
  fragMsg : TypedMsg
  destTIDs : List TaskId
  db : SendDB
  sent : List TypedMsg
  deriving DecidableEq, Repr

/-- `FRAGMENT_PART`. -/
def fragmentPart : UInt8 := 1

/-- `FRAGMENT_END`. -/
def fragmentEnd : UInt8 := 2

/-- The increment of fragment numbers on both sides: 16 bits, avoiding a second
0. -/
def nextFragNum (fragNum : Nat) : Nat :=
  if (fragNum + 1) % 2 ^ 16 = 0 then 1 else (fragNum + 1) % 2 ^ 16

/-- `sendDBnoFrag`. -/
def sendDBnoFrag : SendDB :=
  { buf := false, bufUsed := 0, useFrag := false, headType := 0, msgType := 0
    fragNum := 0, numDest := 0, extra := [] }

/-- The state of a process that has called `initSerial()`. -/
def initSerial (myID : Int) (myTID : TaskId) : Sender :=
  { myID := myID
    myTID := myTID
    sendBuf := []
    fragMsg :=
      { headType := 0, len := 0, sender := ⟨0, 0⟩, dest := ⟨0, 0⟩, type := 0
        buf := List.replicate bufTypedMsgSize 0 }
    destTIDs := []
    db := sendDBnoFrag
    sent := [] }

/-- `initFragBufferExtra()`; a missing `extra` is the empty one. -/
def initFragBufferExtra (sender : Sender) (headType msgType : Int) (extra : List UInt8) : Sender :=
  { sender with
    db := { sender.db with
      useFrag := true, bufUsed := 0, headType := headType, msgType := msgType
      fragNum := 0, numDest := 0, extra := extra } }

/-- `setFragDest()` of a valid task ID while there is room. -/
def setFragDest (sender : Sender) (tid : TaskId) : Sender :=
  { sender with
    destTIDs := sender.destTIDs.take sender.db.numDest ++ [tid]
    db := { sender.db with numDest := sender.db.numDest + 1 } }

/-- The destinations in the order `sendFragment()` serves them: those on other
nodes first, then the last one on the own node.  A task ID of -1 left in
`localDest` counts as none. -/
def fragmentDests (myID : Int) (destTIDs : List TaskId) : List TaskId :=
  destTIDs.filter (fun tid => tid.getID myID ≠ myID) ++
    ((destTIDs.filter (fun tid => tid.getID myID = myID)).getLast?.filter
      (fun tid => tid ≠ ⟨-1, -1⟩)).toList

def sendFragment (sender : Sender) : Bool × Sender :=
  if sender.db.numDest = 0 then
    (false, sender)
  else
    (true, { sender with
      sent := sender.sent ++
        (fragmentDests sender.myID (sender.destTIDs.take sender.db.numDest)).map
            (fun tid => { sender.fragMsg with dest := tid }) })

/-- `setupFragMsg()`. -/
def setupFragMsg (sender : Sender) : Sender :=
  let msg := { sender.fragMsg with
    headType := sender.db.headType, len := 0
    sender := sender.myTID, type := sender.db.msgType }
  let msg := (putTypedMsgBuf msg [fragmentPart]).2
  let msg := (putTypedMsgBuf msg (toMem 2 sender.db.fragNum)).2
  let msg := (putTypedMsgBuf msg [UInt8.ofNat sender.db.extra.length]).2
  let msg :=
    if sender.db.extra.length ≠ 0 then
      (putTypedMsgBuf msg sender.db.extra).2
    else msg
  { sender with fragMsg := msg }

/-- The loop of `addFragmentedData()`.  Each round copies at least one byte, so
as many rounds as there are bytes are enough. -/
def addFragmentedLoop : (rounds : Nat) → Sender → List UInt8 → Sender
  | 0, sender, _ => sender
  | rounds + 1, sender, data =>
    if data.length = 0 then sender
    else
      let off := sender.fragMsg.len - ddTypedBufMsgOffset
      let chunkLeft := bufTypedMsgSize - off
      let tocopy := if data.length > chunkLeft then chunkLeft else data.length
      let sender := { sender with
        fragMsg := (putTypedMsgBuf sender.fragMsg (data.take tocopy)).2
        db := { sender.db with
          bufUsed := (sender.db.bufUsed + tocopy) % 2 ^ 32 } }
      let sender :=
        if chunkLeft - tocopy = 0 then
          let sender := (sendFragment sender).2
          setupFragMsg { sender with
            db := { sender.db with fragNum := nextFragNum sender.db.fragNum } }
        else sender
      addFragmentedLoop rounds sender (data.drop tocopy)

/-- `addFragmentedData()`. -/
def addFragmentedData (sender : Sender) (data : List UInt8) : Sender :=
  let sender := if sender.db.bufUsed = 0 then setupFragMsg sender else sender
  addFragmentedLoop data.length sender data

/-- `addData()`; the allocation of `sendBuf` is not part of the model. -/
def addData (sender : Sender) (data : List UInt8) : Bool × Sender :=
  if sender.db.useFrag then
    (true, addFragmentedData sender data)
  else
    let bufUsed := if sender.db.buf then sender.db.bufUsed else 0
    (true, { sender with
      sendBuf := poke bufUsed data sender.sendBuf
      db := { sender.db with
        buf := true, bufUsed := (bufUsed + data.length) % 2 ^ 32 } })

/-- Conversion of an integer's memory to network byte-order and back, i.e.
`htons()`, `htonl()` and `HTON64()`, depending on the size. -/
def shuffle (bytes : List UInt8) : List UInt8 :=
  if bytes.length = 2 ∨ bytes.length = 4 ∨ bytes.length = 8 then bytes.reverse
  else bytes

/-- A type whose elements are annotated by a length. -/
def hasLen (type : DataType) : Bool := type = .string ∨ type = .data

/-- `addToBuf()`; a missing `val` is a NULL pointer. -/
def addToBuf (flags : Flags) (val : Option (List UInt8)) (size : Nat)
    (type : DataType) (sender : Sender) : Bool × Sender :=
  match val with
  | none =>
    if ¬hasLen type ∨ size ≠ 0 then (false, sender)
    else addItem [] sender
  | some memory => addItem (memory.take size) sender
where
  /-- The parts written for the element `bytes`. -/
  addItem (bytes : List UInt8) (sender : Sender) : Bool × Sender :=
    let sender :=
      if flags.typeInfo then (addData sender [type.tag]).2 else sender
    let sender :=
      if hasLen type then
        let len := toMem 4 size
        (addData sender (if flags.byteOrder then shuffle len else len)).2
      else sender
    if flags.byteOrder ∧ ¬hasLen type ∧ type ≠ .mem then
      addData sender (shuffle bytes)
    else
      addData sender bytes

/-- The loop of `addArrayToBuf()`, which ignores the results of `addToBuf()`. -/
def addElements (flags : Flags) (type : DataType) (size : Nat) : List (List UInt8) → Sender → Sender
  | [], sender => sender
  | element :: rest, sender =>
    addElements flags type size rest (addToBuf flags (some element) size type sender).2

/-- `addArrayToBuf()` of the array holding `elements`, each of `size` bytes. -/
def addArrayToBuf (flags : Flags) (elements : List (List UInt8))
    (type : DataType) (size : Nat) (sender : Sender) : Bool × Sender :=
  let num := elements.length % 2 ^ 32
  match addToBuf flags (some (toMem 4 num)) 4 .uint32 sender with
  | (false, sender) => (false, sender)
  | (true, sender) => (true, addElements flags type size (elements.take num) sender)

/-- `PSP_strLen()` of a C string. -/
def strLen (string : List UInt8) : Nat := string.length + 1

/-- The memory of a C string, its terminating 0 included. -/
def strMem (string : List UInt8) : List UInt8 := string ++ [0]

/-- The loop of `__addStringArrayToBuf()`. -/
def addStrings (flags : Flags) : List (List UInt8) → Sender → Bool × Sender
  | [], sender => (true, sender)
  | string :: rest, sender =>
    match addToBuf flags (some (strMem string)) (strLen string % 2 ^ 32) .string sender with
    | (false, sender) => (false, sender)
    | (true, sender) => addStrings flags rest sender

/-- `__addStringArrayToBuf()` of an array holding `strings` up to its
terminating NULL. -/
def addStringArrayToBuf (flags : Flags) (strings : List (List UInt8))
    (sender : Sender) : Bool × Sender :=
  let num := strings.length % 2 ^ 32
  match addToBuf flags (some (toMem 4 num)) 4 .uint32 sender with
  | (false, sender) => (false, sender)
  | (true, sender) => addStrings flags (strings.take num) sender

/-- `__sendFragMsg()`: the number of payload bytes or -1. -/
def sendFragMsg (sender : Sender) : Int × Sender :=
  let sender := if sender.db.bufUsed = 0 then setupFragMsg sender else sender
  let sender := { sender with
    fragMsg := { sender.fragMsg with
      buf := poke 0 [fragmentEnd] sender.fragMsg.buf } }
  match sendFragment sender with
  | (false, sender) => (-1, sender)
  | (true, sender) => (sender.db.bufUsed, sender)

end Psmgmt.Serial
