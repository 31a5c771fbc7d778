import Psmgmt.Serial.Fragmentation
import Psmgmt.Serial.RoundTrip

/-!
# Typed access to messages

The macros of `psserial.h` that add single values to a message and get them
back.
-/

namespace Psmgmt.Serial

open ByteMemory Option

/-- The memory of an integer of `size` bytes holds it modulo the word size. -/
def toWord (size : Nat) (value : Int) : Nat := (value % (256 ^ size : Nat)).toNat

def ofWord (size : Nat) (word : Nat) : Int :=
  if 2 * word < 256 ^ size then word else (word : Int) - (256 ^ size : Nat)

theorem toWord_lt (size : Nat) (value : Int) : toWord size value < 256 ^ size := by
  have positive : (0 : Int) < (256 ^ size : Nat) := by
    exact_mod_cast Nat.pow_pos (by decide)
  have low := Int.emod_nonneg value positive.ne'
  have high := Int.emod_lt_of_pos value positive
  unfold toWord
  omega

theorem ofWord_toWord {size : Nat} {value : Int} (low : -(256 ^ size : Nat) ≤ 2 * value)
    (high : 2 * value < (256 ^ size : Nat)) :
    ofWord size (toWord size value) = value := by
  have positive : (0 : Int) < (256 ^ size : Nat) := by
    exact_mod_cast Nat.pow_pos (by decide)
  unfold ofWord toWord
  generalize (256 ^ size : Nat) = modulus at *
  rcases Int.lt_or_le value 0 with negative | nonneg
  · have wrapped : value % (modulus : Int) = value + modulus := by
      rw [← Int.add_emod_right]
      exact Int.emod_eq_of_lt (by omega) (by omega)
    rw [wrapped]
    split <;> omega
  · rw [Int.emod_eq_of_lt nonneg (by omega)]
    split <;> omega

def addInt32ToMsg (val : Int) : Addition := ⟨some (toMem 4 (toWord 4 val)), 4, .int32⟩

def addUint32ToMsg (val : Nat) : Addition := ⟨some (toMem 4 val), 4, .uint32⟩

def addUint16ToMsg (val : Nat) : Addition := ⟨some (toMem 2 val), 2, .uint16⟩

def addUint8ToMsg (val : Nat) : Addition := ⟨some (toMem 1 val), 1, .uint8⟩

def tidWord (tid : TaskId) : Nat := toWord 4 tid.node * 256 ^ 4 + toWord 4 tid.pid

def wordTid (word : Nat) : TaskId := ⟨ofWord 4 (word / 256 ^ 4), ofWord 4 (word % 256 ^ 4)⟩

def addTaskIdToMsg (val : TaskId) : Addition := ⟨some (toMem 8 (tidWord val)), 8, .int64⟩

def addNodeIdToMsg (val : Int) : Addition := addInt32ToMsg val

def addMemToMsg (mem : List UInt8) : Addition := ⟨some mem, mem.length, .mem⟩

section Getters

variable (flags : Flags)

/-- A value that cannot be fetched stays what it was. -/
def getInt32 (data : DataBuffer) (old : Int) : Int × DataBuffer :=
  let (val, data) := getFromBuf flags data .int32 4
  ((val.map (fun bytes => ofWord 4 (ofMem bytes))).getD old, data)

def getUint32 (data : DataBuffer) (old : Nat) : Nat × DataBuffer :=
  let (val, data) := getFromBuf flags data .uint32 4
  ((val.map ofMem).getD old, data)

def getUint16 (data : DataBuffer) (old : Nat) : Nat × DataBuffer :=
  let (val, data) := getFromBuf flags data .uint16 2
  ((val.map ofMem).getD old, data)

def getUint8 (data : DataBuffer) (old : Nat) : Nat × DataBuffer :=
  let (val, data) := getFromBuf flags data .uint8 1
  ((val.map ofMem).getD old, data)

def getTaskId (data : DataBuffer) (old : TaskId) : TaskId × DataBuffer :=
  let (val, data) := getFromBuf flags data .int64 8
  ((val.map (fun bytes => wordTid (ofMem bytes))).getD old, data)

def getNodeId (data : DataBuffer) (old : Int) : Int × DataBuffer := getInt32 flags data old

def getMem (data : DataBuffer) (len : Nat) (old : List UInt8) : List UInt8 × DataBuffer :=
  let (val, data) := getFromBuf flags data .mem len
  (val.getD old, data)

end Getters

section RoundTrip

variable {flags : Flags}

theorem bytes_word {type : DataType} {size word : Nat}
    (integer : IntegerType type size) :
    (Addition.mk (some (toMem size word)) size type).bytes flags =
      encodeWord flags type (toMem size word) := by
  rcases integer with ⟨noLength, notMem, sizes⟩
  have all : (toMem size word).take size = toMem size word := by
    rw [List.take_of_length_le (length_toMem size word).le]
  simp only [Addition.bytes, all, encodeItem, encodeLength, encodeValue,
    encodeWord, noLength, Bool.false_eq_true, if_false, List.append_nil,
    not_false_eq_true, notMem, ne_eq, and_true, Psmgmt.Serial.word]

theorem getInt32_readerAt {val : Int} (low : -2 ^ 31 ≤ val)
    (high : val < 2 ^ 31) (before rest : List UInt8) (old : Int) :
    getInt32 flags (readerAt before ((addInt32ToMsg val).bytes flags ++ rest)) old =
      (val, readerAt (before ++ (addInt32ToMsg val).bytes flags) rest) := by
  have integer : IntegerType .int32 4 := by simp [IntegerType, hasLen]
  have value : ofMem (toMem 4 (toWord 4 val)) = toWord 4 val := ofMem_toMem (toWord_lt 4 val)
  have signed : ofWord 4 (toWord 4 val) = val :=
    ofWord_toWord (by norm_num; omega) (by norm_num; omega)
  rw [addInt32ToMsg, bytes_word integer, getInt32, getFromBuf_word flags integer (length_toMem 4 _)]
  simp only [map_some, getD_some, value, signed]

theorem getUint32_readerAt {val : Nat} (bound : val < 2 ^ 32)
    (before rest : List UInt8) (old : Nat) :
    getUint32 flags (readerAt before ((addUint32ToMsg val).bytes flags ++ rest)) old =
      (val, readerAt (before ++ (addUint32ToMsg val).bytes flags) rest) := by
  have integer : IntegerType .uint32 4 := integerType_uint32
  have value : ofMem (toMem 4 val) = val := ofMem_toMem (by omega)
  rw [addUint32ToMsg, bytes_word integer, getUint32,
    getFromBuf_word flags integer (length_toMem 4 _)]
  simp only [map_some, getD_some, value]

theorem getUint16_readerAt {val : Nat} (bound : val < 2 ^ 16)
    (before rest : List UInt8) (old : Nat) :
    getUint16 flags (readerAt before ((addUint16ToMsg val).bytes flags ++ rest)) old =
      (val, readerAt (before ++ (addUint16ToMsg val).bytes flags) rest) := by
  have integer : IntegerType .uint16 2 := by simp [IntegerType, hasLen]
  have value : ofMem (toMem 2 val) = val := ofMem_toMem (by omega)
  rw [addUint16ToMsg, bytes_word integer, getUint16,
    getFromBuf_word flags integer (length_toMem 2 _)]
  simp only [map_some, getD_some, value]

/-- A task ID whose halves fit their words. -/
structure TidFits (tid : TaskId) : Prop where
  nodeLow : -2 ^ 31 ≤ tid.node
  nodeHigh : tid.node < 2 ^ 31
  pidLow : -2 ^ 31 ≤ tid.pid
  pidHigh : tid.pid < 2 ^ 31

theorem wordTid_tidWord {tid : TaskId} (fits : TidFits tid) : wordTid (tidWord tid) = tid := by
  have node : ofWord 4 (toWord 4 tid.node) = tid.node := by
    have low := fits.nodeLow
    have high := fits.nodeHigh
    exact ofWord_toWord (by norm_num; omega) (by norm_num; omega)
  have pid : ofWord 4 (toWord 4 tid.pid) = tid.pid := by
    have low := fits.pidLow
    have high := fits.pidHigh
    exact ofWord_toWord (by norm_num; omega) (by norm_num; omega)
  have bound := toWord_lt 4 tid.pid
  have upper : tidWord tid / 256 ^ 4 = toWord 4 tid.node := by
    unfold tidWord
    omega
  have lower : tidWord tid % 256 ^ 4 = toWord 4 tid.pid := by
    unfold tidWord
    omega
  rw [wordTid, upper, lower, node, pid]

theorem getTaskId_readerAt {val : TaskId} (fits : TidFits val)
    (before rest : List UInt8) (old : TaskId) :
    getTaskId flags (readerAt before ((addTaskIdToMsg val).bytes flags ++ rest)) old =
      (val, readerAt (before ++ (addTaskIdToMsg val).bytes flags) rest) := by
  have integer : IntegerType .int64 8 := by simp [IntegerType, hasLen]
  have node := toWord_lt 4 val.node
  have pid := toWord_lt 4 val.pid
  have value : ofMem (toMem 8 (tidWord val)) = tidWord val := by
    refine ofMem_toMem ?_
    unfold tidWord
    norm_num at *
    omega
  rw [addTaskIdToMsg, bytes_word integer, getTaskId,
    getFromBuf_word flags integer (length_toMem 8 _)]
  simp only [map_some, getD_some, value, wordTid_tidWord fits]

theorem getMem_readerAt (mem before rest old : List UInt8) :
    getMem flags (readerAt before ((addMemToMsg mem).bytes flags ++ rest)) mem.length old =
      (mem, readerAt (before ++ (addMemToMsg mem).bytes flags) rest) := by
  have bytes : (addMemToMsg mem).bytes flags = encodeMem flags mem := by
    simp [addMemToMsg, Addition.bytes, encodeItem, encodeLength, encodeValue, encodeMem, hasLen]
  rw [bytes, getMem, getFromBuf_mem]
  simp only [getD_some]

/-- Without type information a value takes its own size. -/
theorem length_int32 (untyped : flags.typeInfo = false) (val : Int) :
    ((addInt32ToMsg val).bytes flags).length = 4 := by
  have integer : IntegerType .int32 4 := by simp [IntegerType, hasLen]
  rw [addInt32ToMsg, bytes_word integer, encodeWord]
  simp [encodeTag, untyped]

end RoundTrip

end Psmgmt.Serial
