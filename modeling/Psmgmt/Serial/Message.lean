import Psmgmt.Common.TaskId
import Psmgmt.Library.ByteMemory

/-!
# Typed message buffers

The part of `psprotocol.c` that the serialization layer rests on: the layout of
`DDTypedBufferMsg_t` and the helpers appending to and fetching from its
payload.  Offsets and sizes are those of the 24-byte `DDMsg_t` header.
-/

namespace Psmgmt.Serial

open ByteMemory List

/-- `DDBufferMsgOffset`, i.e. `sizeof(DDMsg_t)`. -/
def ddBufferMsgOffset : Nat := 24

/-- `BufMsgSize`. -/
def bufMsgSize : Nat := 1456 - ddBufferMsgOffset

/-- `DDTypedBufMsgOffset`. -/
def ddTypedBufMsgOffset : Nat := ddBufferMsgOffset + 4

/-- `BufTypedMsgSize`. -/
def bufTypedMsgSize : Nat := bufMsgSize - 4

/-- `DDTypedBufferMsg_t`; `buf` is the memory of the payload buffer, of which
`len - ddTypedBufMsgOffset` bytes are in use. -/
structure TypedMsg where
  headType : Int
  len : Nat
  sender : TaskId
  dest : TaskId
  type : Int
  buf : List UInt8
  deriving DecidableEq, Repr

/-- `PSP_putTypedMsgBuf()`: success and the message afterwards.  Even an item
of size 0 takes a byte, and the length is adapted to the type member before the
remaining space is tested. -/
def putTypedMsgBuf (msg : TypedMsg) (data : List UInt8) : Bool × TypedMsg :=
  let len := if msg.len = 0 then ddBufferMsgOffset else msg.len
  let len := if len = ddBufferMsgOffset then ddTypedBufMsgOffset else len
  let off := len - ddTypedBufMsgOffset
  let s := if data.length = 0 then 1 else data.length
  if s ≤ bufTypedMsgSize - off then
    (true, { msg with buf := poke off data msg.buf, len := len + s })
  else
    (false, { msg with len := len })

/-- `PSP_getTypedMsgBuf()` of `size` bytes at `used`: the bytes and the new
offset, if the message holds that much. -/
def getTypedMsgBuf (msg : TypedMsg) (used size : Nat) : Option (List UInt8 × Nat) :=
  if (size + used + ddTypedBufMsgOffset : Int) ≤ msg.len then
    some ((msg.buf.drop used).take size, used + size)
  else
    none

/-- The payload bytes in use. -/
def TypedMsg.content (msg : TypedMsg) : List UInt8 := msg.buf.take (msg.len - ddTypedBufMsgOffset)

/-- A message that has been started: its length covers at least the typed
header and its content lies within the payload buffer. -/
structure TypedMsg.Started (msg : TypedMsg) : Prop where
  header : ddTypedBufMsgOffset ≤ msg.len
  capacity : msg.buf.length = bufTypedMsgSize
  inside : msg.len - ddTypedBufMsgOffset ≤ bufTypedMsgSize

theorem TypedMsg.Started.length_content {msg : TypedMsg}
    (started : msg.Started) :
    msg.content.length = msg.len - ddTypedBufMsgOffset := by
  have capacity := started.capacity
  have inside := started.inside
  simp only [TypedMsg.content, length_take]
  omega

/-- Appending a non-empty item that fits to a message whose content is
`content`. -/
theorem putTypedMsgBuf_content {msg : TypedMsg} {data : List UInt8} (started : msg.Started)
    (nonempty : data ≠ []) (fits : msg.content.length + data.length ≤ bufTypedMsgSize) :
    (putTypedMsgBuf msg data).2.Started ∧
      (putTypedMsgBuf msg data).2.content = msg.content ++ data := by
  have header := started.header
  have capacity := started.capacity
  have used := started.length_content
  have dataLength : data.length ≠ 0 := by simpa using nonempty
  have notFresh : msg.len ≠ 0 := by
    simp only [ddTypedBufMsgOffset] at header
    omega
  have notUntyped : msg.len ≠ ddBufferMsgOffset := by
    simp only [ddTypedBufMsgOffset] at header
    omega
  have room : data.length ≤ bufTypedMsgSize - (msg.len - ddTypedBufMsgOffset) := by
    omega
  have result : (putTypedMsgBuf msg data).2 =
      { msg with
        buf := poke (msg.len - ddTypedBufMsgOffset) data msg.buf
        len := msg.len + data.length } := by
    simp [putTypedMsgBuf, notFresh, notUntyped, dataLength, room]
  rw [result]
  refine ⟨⟨?_, ?_, ?_⟩, ?_⟩
  · simp only
    omega
  · rw [length_poke]
    · exact capacity
    · omega
  · simp only
    omega
  · have split : msg.len + data.length - ddTypedBufMsgOffset =
        (msg.len - ddTypedBufMsgOffset) + data.length := by omega
    simp only [TypedMsg.content, split]
    exact take_poke (by omega)

theorem putTypedMsgBuf_first {msg : TypedMsg} {data : List UInt8}
    (reset : msg.len = 0) (capacity : msg.buf.length = bufTypedMsgSize)
    (nonempty : data ≠ []) (fits : data.length ≤ bufTypedMsgSize) :
    (putTypedMsgBuf msg data).2.Started ∧ (putTypedMsgBuf msg data).2.content = data := by
  have dataLength : data.length ≠ 0 := by simpa using nonempty
  have result : (putTypedMsgBuf msg data).2 =
      { msg with
        buf := poke 0 data msg.buf
        len := ddTypedBufMsgOffset + data.length } := by
    simp [putTypedMsgBuf, reset, dataLength, fits]
  rw [result]
  refine ⟨⟨?_, ?_, ?_⟩, ?_⟩
  · simp
  · rw [length_poke]
    · exact capacity
    · omega
  · simp only
    omega
  · have written := @take_poke 0 data msg.buf (Nat.zero_le _)
    simpa [TypedMsg.content] using written

/-- Fetching `data` that follows `before` in the content of a message. -/
theorem getTypedMsgBuf_append {msg : TypedMsg} {before data after : List UInt8}
    (started : msg.Started) (layout : msg.content = before ++ data ++ after) :
    getTypedMsgBuf msg before.length data.length = some (data, before.length + data.length) := by
  have header := started.header
  have lengths : before.length + data.length + after.length = msg.len - ddTypedBufMsgOffset := by
    rw [← started.length_content, layout]
    simp [Nat.add_assoc]
  have available : (data.length + before.length + ddTypedBufMsgOffset : Int) ≤ msg.len := by
    omega
  have bytes : (msg.buf.drop before.length).take data.length = data := by
    have cut : (msg.content.drop before.length).take data.length = data := by
      simp [layout]
    rw [TypedMsg.content, drop_take, take_take, Nat.min_eq_left (by omega)] at cut
    exact cut
  simp [getTypedMsgBuf, available, bytes]

end Psmgmt.Serial
