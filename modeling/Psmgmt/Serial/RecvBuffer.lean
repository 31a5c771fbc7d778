import Psmgmt.Serial.SendBuffer

/-!
# Receiving fragmented messages

`__recvFragMsg()` reassembles the fragments of each sender in a receive buffer
of its own.  All allocations succeed.
-/

namespace Psmgmt.Serial

open ByteMemory

/-- `recvBuf_t`; `buf` holds the used bytes of the data buffer. -/
structure RecvBuf where
  tid : TaskId
  buf : List UInt8
  size : Nat
  nextFrag : Nat
  deriving DecidableEq, Repr

/-- `DEFAULT_BUFFER_SIZE`. -/
def defaultBufferSize : Nat := 128 * 1024

def findRecvBuf (tid : TaskId) (activeRecvBufs : List RecvBuf) : Option RecvBuf :=
  activeRecvBufs.find? (fun recvBuf => recvBuf.tid = tid)

/-- Modify the active buffer of a sender in place, or add it to the tail. -/
def setRecvBuf (recvBuf : RecvBuf) : List RecvBuf → List RecvBuf
  | [] => [recvBuf]
  | first :: rest =>
    if first.tid = recvBuf.tid then recvBuf :: rest
    else first :: setRecvBuf recvBuf rest

def putRecvBuf (tid : TaskId) (activeRecvBufs : List RecvBuf) : List RecvBuf :=
  activeRecvBufs.eraseP (fun recvBuf => recvBuf.tid = tid)

/-- `fetchFragHeader()`: fragment type, fragment number and the offset of the
payload.  Messages too short for the size of the extra data are refused here,
the function leaves that size uninitialized. -/
def fetchFragHeader (msg : TypedMsg) : Option (UInt8 × Nat × Nat) :=
  match getTypedMsgBuf msg 0 1 with
  | some ([fragType], used) =>
    match getTypedMsgBuf msg used 2 with
    | some (fragNum, used) =>
      match getTypedMsgBuf msg used 1 with
      | some ([extraSize], used) => some (fragType, ofMem fragNum, used + extraSize.toNat)
      | _ => none
    | none => none
  | _ => none

/-- Grow a receive buffer in order to hold `toCopy` more bytes. -/
def growRecvBuf (recvBuf : RecvBuf) (toCopy : Nat) : RecvBuf :=
  if recvBuf.buf.length + toCopy > recvBuf.size then
    { recvBuf with size := recvBuf.size * 2 }
  else
    recvBuf

/-- The receive buffer of `tid` after copying a fragment's payload to it. -/
def copyPayload (found : Option RecvBuf) (tid : TaskId) (fragNum : Nat)
    (toCopy : Nat) (payload : List UInt8) : RecvBuf :=
  let recvBuf := found.getD { tid := tid, buf := [], size := 0, nextFrag := 0 }
  let recvBuf :=
    if fragNum = 0 then
      { recvBuf with buf := [], size := defaultBufferSize, nextFrag := 0 }
    else recvBuf
  let recvBuf := growRecvBuf recvBuf toCopy
  { recvBuf with
    buf := recvBuf.buf ++ payload
    nextFrag := nextFragNum recvBuf.nextFrag }

/-- `__recvFragMsg()`: success, the active receive buffers afterwards, and the
message and data passed to the callback if it is invoked. -/
def recvFragMsg (activeRecvBufs : List RecvBuf) (msg : TypedMsg) :
    Bool × List RecvBuf × Option (TypedMsg × List UInt8) :=
  match fetchFragHeader msg with
  | none => (false, activeRecvBufs, none)
  | some (fragType, fragNum, used) =>
    if fragType ≠ fragmentPart ∧ fragType ≠ fragmentEnd then
      (false, activeRecvBufs, none)
    else
      let toCopy := msg.len - ddTypedBufMsgOffset - used
      let payload := ((getTypedMsgBuf msg used toCopy).map Prod.fst).getD []
      if fragType = fragmentEnd ∧ fragNum = 0 then
        -- the message consists of just one fragment
        (true, activeRecvBufs, some (msg, payload))
      else
        let found := findRecvBuf msg.sender activeRecvBufs
        if fragNum ≠ (found.map RecvBuf.nextFrag).getD 0 ∧ fragNum ≠ 0 then
          (false, activeRecvBufs, none)
        else
          let recvBuf := copyPayload found msg.sender fragNum toCopy payload
          let activeRecvBufs := setRecvBuf recvBuf activeRecvBufs
          if fragType = fragmentEnd then
            (true, putRecvBuf msg.sender activeRecvBufs, some (msg, recvBuf.buf))
          else
            (true, activeRecvBufs, none)

/-- Handle messages one after the other, collecting the callbacks. -/
def recvRun : List RecvBuf → List TypedMsg → List RecvBuf × List (TypedMsg × List UInt8)
  | activeRecvBufs, [] => (activeRecvBufs, [])
  | activeRecvBufs, msg :: rest =>
    let (_, activeRecvBufs, callback) := recvFragMsg activeRecvBufs msg
    let (activeRecvBufs, callbacks) := recvRun activeRecvBufs rest
    (activeRecvBufs, callback.toList ++ callbacks)

theorem recvRun_append (activeRecvBufs : List RecvBuf)
    (first second : List TypedMsg) :
    recvRun activeRecvBufs (first ++ second) =
      ((recvRun (recvRun activeRecvBufs first).1 second).1, (recvRun activeRecvBufs first).2 ++
          (recvRun (recvRun activeRecvBufs first).1 second).2) := by
  induction first generalizing activeRecvBufs with
  | nil => simp [recvRun]
  | cons msg first induction => simp only [List.cons_append, recvRun, induction, List.append_assoc]

end Psmgmt.Serial
