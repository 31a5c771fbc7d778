import Psmgmt.Serial.Accessors

/-!
# Reading messages from a Slurm connection

`readSlurmMsg()` of `psslurmcomm.c` and the growing receive buffer of
`psserial.c` it collects a message in.  The connection's socket is the list of
bytes that may be read without blocking.  Messages handed to the callback are
recorded; the callback leaves the connection open, and all allocations succeed.
-/

namespace Psmgmt.Slurm

open Serial

/-- `PS_DataBuffer_t` as far as receiving needs it: the allocated size and the
bytes used. -/
structure RecvData where
  size : Nat
  data : List UInt8
  deriving DecidableEq, Repr

/-- `growDataBuffer()`. -/
def growDataBuffer (len : Nat) (buffer : RecvData) : RecvData :=
  let newLen :=
    if len ≠ 0 then
      ((buffer.data.length + len - 1) / bufMsgSize + 1) * bufMsgSize
    else if buffer.size ≠ 0 then buffer.size
    else bufMsgSize
  if newLen ≥ 2 ^ 32 then buffer
  else if newLen > buffer.size then { buffer with size := newLen }
  else buffer

/-- `PSdbGrow()`. -/
def psdbGrow (buffer : RecvData) (newSize : Nat) : RecvData :=
  if buffer.size ≥ newSize then buffer
  else growDataBuffer (newSize - buffer.data.length) buffer

/-- `PSdbClearBuf()`. -/
def psdbClearBuf (buffer : RecvData) : RecvData := { buffer with data := [] }

/-- What `PSdbRecvPProg()` reports: all data, `ENODATA`, or another error. -/
inductive Received where
  | all | noData | error
  deriving DecidableEq, Repr

/-- `PSdbRecvPProg()` to a socket with `unread` bytes.  The first read takes
all there is, and the retries that follow find nothing more. -/
def psdbRecvPProg (toRecv : Nat) (buffer : RecvData) (unread : List UInt8) :
    Received × RecvData × List UInt8 :=
  if buffer.size = 0 ∨ toRecv > buffer.size then (.error, buffer, unread)
  else
    let missing := toRecv - buffer.data.length
    let received := { buffer with data := buffer.data ++ unread.take missing }
    if received.data.length < toRecv then
      (.noData, received, unread.drop missing)
    else
      (.all, received, unread.drop missing)

/-- `Connection_t` as far as reading needs it, with its socket. -/
structure Connection where
  data : RecvData
  readSize : Nat
  isOpen : Bool
  unread : List UInt8
  passed : List (List UInt8)
  deriving DecidableEq, Repr

/-- `MAX_MSG_SIZE`. -/
def maxMsgSize : Nat := 128 * 1024 * 1024

/-- The default of the flags in `psserial.c`. -/
def networkFlags : Flags := { byteOrder := true, typeInfo := false }

/-- `doResetCon()`. -/
def doResetCon (con : Connection) : Connection :=
  { con with data := psdbClearBuf con.data, readSize := 0 }

/-- `closeSlurmCon()`. -/
def closeSlurmCon (con : Connection) : Connection := { con with isOpen := false }

/-- The second half of `readSlurmMsg()`: read the missing payload. -/
def readPayload (con : Connection) : Connection :=
  match psdbRecvPProg con.readSize con.data con.unread with
  | (.noData, data, unread) => { con with data := data, unread := unread }
  | (.error, data, unread) => closeSlurmCon { con with data := data, unread := unread }
  | (.all, data, unread) =>
    -- `processSlurmMsg()` gets the message
    doResetCon { con with
      data := data
      unread := unread
      passed := con.passed ++ [data.data] }

/-- The first half of `readSlurmMsg()`: read the message size. -/
def readSize (con : Connection) : Connection :=
  let dBuf := psdbClearBuf (psdbGrow con.data 4)
  match psdbRecvPProg 4 dBuf con.unread with
  | (.noData, data, unread) => { con with data := data, unread := unread }
  | (.error, data, unread) => closeSlurmCon { con with data := data, unread := unread }
  | (.all, data, unread) =>
    let size := (getUint32 networkFlags (psdbNew data.data) 0).1
    let con := { con with data := data, readSize := size, unread := unread }
    if size > maxMsgSize then closeSlurmCon con
    else if size = 0 then closeSlurmCon con
    else
      readPayload { con with data := psdbClearBuf (psdbGrow data size) }

/-- `readSlurmMsg()`. -/
def readSlurmMsg (con : Connection) : Connection :=
  let con :=
    if con.data.size ≠ 0 ∧ con.data.data.length = con.data.size then
      doResetCon con
    else con
  if con.readSize = 0 then readSize con else readPayload con

/-- The selector calls `readSlurmMsg()` while there is something to read. -/
def serve : Nat → Connection → Connection
  | 0, con => con
  | rounds + 1, con =>
    if con.isOpen ∧ con.unread ≠ [] then serve rounds (readSlurmMsg con)
    else con

/-- A chunk of the stream becomes readable. -/
def arrive (con : Connection) (chunk : List UInt8) : Connection :=
  let unread := con.unread ++ chunk
  serve unread.length { con with unread := unread }

/-- The big-endian length and the payload of a message. -/
def wire : List (List UInt8) → List UInt8
  | [] => []
  | body :: rest => (ByteMemory.toMem 4 body.length).reverse ++ body ++ wire rest

end Psmgmt.Slurm
