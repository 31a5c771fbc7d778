import Psmgmt.Serial.SendBuffer

/-!
# Reading from a data buffer

The reading half of `psserial.c`.  A data buffer tracks how far its content has
been unpacked and remembers the first error.  All allocations succeed.
-/

namespace Psmgmt.Serial

open ByteMemory

/-- `serial_Err_Types_t` without `E_PSSERIAL_SUCCESS`. -/
inductive SerialErr where
  | insuf | param | type | bufsize | mem | conv
  deriving DecidableEq, Repr

/-- `struct PS_DataBuffer` as far as unpacking needs it: `buf` holds the used
bytes, `unpackPtr` is an offset into them or NULL. -/
structure DataBuffer where
  buf : List UInt8
  unpackPtr : Option Nat
  unpackErr : Option SerialErr
  deriving DecidableEq, Repr

/-- `PSdbNew()` of an existing buffer. -/
def psdbNew (buffer : List UInt8) : DataBuffer :=
  { buf := buffer, unpackPtr := some 0, unpackErr := none }

namespace DataBuffer

/-- The offset of the next byte to unpack. -/
def offset (data : DataBuffer) : Nat := data.unpackPtr.getD 0

/-- `PSdbGetAvail()`. -/
def getAvail (data : DataBuffer) : Nat := data.buf.length - data.offset

/-- The next `size` bytes to unpack. -/
def peek (data : DataBuffer) (size : Nat) : List UInt8 := (data.buf.drop data.offset).take size

/-- Move the unpack pointer. -/
def advance (data : DataBuffer) (size : Nat) : DataBuffer :=
  { data with unpackPtr := some (data.offset + size) }

/-- Note an error. -/
def fail (data : DataBuffer) (err : SerialErr) : DataBuffer := { data with unpackErr := some err }

end DataBuffer

/-- `verifyDataBuf()`. -/
def verifyDataBuf (flags : Flags) (data : DataBuffer) (size : Nat)
    (addTypeInfo : Bool) : Bool × DataBuffer :=
  if data.unpackErr.isSome then
    (false, data)
  else
    let toread := if addTypeInfo ∧ flags.typeInfo then 1 + size else size
    if toread > data.getAvail then (false, data.fail .insuf)
    else (true, data)

/-- `verifyTypeInfo()`. -/
def verifyTypeInfo (flags : Flags) (data : DataBuffer)
    (expectedType : DataType) : Bool × DataBuffer :=
  if ¬flags.typeInfo then
    (true, data)
  else
    let type := data.peek 1
    let data := data.advance 1
    if type ≠ [expectedType.tag] then (false, data.fail .type)
    else (true, data)

/-- `getFromBuf()` to valid memory: the bytes stored there on success. -/
def getFromBuf (flags : Flags) (data : DataBuffer) (type : DataType)
    (size : Nat) : Option (List UInt8) × DataBuffer :=
  if data.unpackPtr.isNone then
    (none, data.fail .param)
  else
    match verifyDataBuf flags data size true with
    | (false, data) => (none, data)
    | (true, data) =>
      match verifyTypeInfo flags data type with
      | (false, data) => (none, data)
      | (true, data) =>
        let val := data.peek size
        if flags.byteOrder ∧ type ≠ .mem then
          if size = 1 ∨ size = 2 ∨ size = 4 ∨ size = 8 then
            (some (shuffle val), data.advance size)
          else
            (none, data.fail .conv)
        else
          (some val, data.advance size)

/-- The loop of `getArrayFromBuf()`. -/
def getElements (flags : Flags) (type : DataType) (size : Nat) :
    Nat → DataBuffer → Option (List (List UInt8)) × DataBuffer
  | 0, data => (some [], data)
  | count + 1, data =>
    match getFromBuf flags data type size with
    | (none, data) => (none, data)
    | (some element, data) =>
      match getElements flags type size count data with
      | (none, data) => (none, data)
      | (some rest, data) => (some (element :: rest), data)

/-- `getArrayFromBuf()`: the elements of the array on success. -/
def getArrayFromBuf (flags : Flags) (data : DataBuffer) (type : DataType)
    (size : Nat) : Option (List (List UInt8)) × DataBuffer :=
  match getFromBuf flags data .uint32 4 with
  | (none, data) => (none, data)
  | (some len, data) => getElements flags type size (ofMem len) data

/-- The bytes `getMemFromBuf()` leaves at its destination. -/
def terminate (type : DataType) (bytes : List UInt8) : List UInt8 :=
  if type = .string then bytes.dropLast ++ [0] else bytes

/-- `getMemFromBuf()`; `destSize` is the size of a given destination, a missing
one makes the function allocate the memory. -/
def getMemFromBuf (flags : Flags) (data : DataBuffer)
    (destSize : Option Nat) (type : DataType) :
    Option (List UInt8) × DataBuffer :=
  if data.unpackPtr.isNone then
    (none, data.fail .param)
  else
    match verifyDataBuf flags data 4 true with
    | (false, data) => (none, data)
    | (true, data) =>
      match verifyTypeInfo flags data type with
      | (false, data) => (none, data)
      | (true, data) =>
        let len := data.peek 4
        let data := data.advance 4
        let l := ofMem (if flags.byteOrder then shuffle len else len)
        match verifyDataBuf flags data l false with
        | (false, data) => (none, data)
        | (true, data) =>
          if destSize.any (fun size => size ≤ l) then
            (none, data.fail .bufsize)
          else
            (some (terminate type (data.peek l)), data.advance l)

/-- The loop of `__getStringArrayM()`. -/
def getStrings (flags : Flags) : Nat → DataBuffer → Option (List (List UInt8)) × DataBuffer
  | 0, data => (some [], data)
  | count + 1, data =>
    match getMemFromBuf flags data none .string with
    | (none, data) => (none, data)
    | (some string, data) =>
      if data.unpackErr.isSome then (none, data)
      else
        match getStrings flags count data with
        | (none, data) => (none, data)
        | (some rest, data) => (some (string :: rest), data)

/-- `__getStringArrayM()`: the memory of each string of the array. -/
def getStringArrayM (flags : Flags) (data : DataBuffer) : Option (List (List UInt8)) × DataBuffer :=
  match getFromBuf flags data .uint32 4 with
  | (none, data) => (none, data)
  | (some len, data) => getStrings flags (ofMem len) data

end Psmgmt.Serial
