import Psmgmt.Serial.DataBuffer
import Psmgmt.Serial.Encoding

/-!
# Round trip of typed serialization

Items are written to a common send buffer and read back by the matching calls.
Every write appends the item's encoding, and every read of an encoding returns
the item.  The number of bytes used is a 32-bit counter that wraps silently:
the round trip is exact as long as the encodings stay below `2 ^ 32` bytes, and
never succeeds beyond.
-/

namespace Psmgmt.Serial

open ByteMemory List Option

/-- What an application writes with one call. -/
inductive Item where
  | int (type : DataType) (size value : Nat)
  | mem (bytes : List UInt8)
  | string (chars : List UInt8)
  | data (bytes : List UInt8)
  | array (type : DataType) (size : Nat) (values : List Nat)
  | strings (list : List (List UInt8))
  deriving DecidableEq, Repr

/-- What the reader has to know in order to fetch an item. -/
inductive Shape where
  | int (type : DataType) (size : Nat)
  | mem (size : Nat)
  | string
  | data
  | array (type : DataType) (size : Nat)
  | strings
  deriving DecidableEq, Repr

def Item.shape : Item → Shape
  | .int type size _ => .int type size
  | .mem bytes => .mem bytes.length
  | .string _ => .string
  | .data _ => .data
  | .array type size _ => .array type size
  | .strings _ => .strings

def IntegerType (type : DataType) (size : Nat) : Prop :=
  hasLen type = false ∧ type ≠ .mem ∧ (size = 1 ∨ size = 2 ∨ size = 4 ∨ size = 8)

/-- A C string whose memory has a 32-bit length. -/
def CString (chars : List UInt8) : Prop := (∀ char ∈ chars, char ≠ 0) ∧ strLen chars < 2 ^ 32

def Item.WellTyped : Item → Prop
  | .int type size value => IntegerType type size ∧ value < 256 ^ size
  | .mem bytes => bytes.length < 2 ^ 32
  | .string chars => CString chars
  | .data bytes => bytes.length < 2 ^ 32
  | .array type size values =>
    IntegerType type size ∧ values.length < 2 ^ 32 ∧ ∀ value ∈ values, value < 256 ^ size
  | .strings list => list.length < 2 ^ 32 ∧ ∀ chars ∈ list, CString chars

/-- The call writing an item. -/
def writeItem (flags : Flags) : Item → Sender → Bool × Sender
  | .int type size value => addToBuf flags (some (toMem size value)) size type
  | .mem bytes => addToBuf flags (some bytes) bytes.length .mem
  | .string chars => addToBuf flags (some (strMem chars)) (strLen chars) .string
  | .data bytes => addToBuf flags (some bytes) bytes.length .data
  | .array type size values => addArrayToBuf flags (values.map (toMem size)) type size
  | .strings list => addStringArrayToBuf flags list

def writeItems (flags : Flags) : List Item → Sender → Bool × Sender
  | [], sender => (true, sender)
  | item :: rest, sender =>
    let (ok, sender) := writeItem flags item sender
    let (restOk, sender) := writeItems flags rest sender
    (ok && restOk, sender)

def cString (memory : List UInt8) : List UInt8 := memory.takeWhile (· ≠ 0)

def readItem (flags : Flags) (shape : Shape) (data : DataBuffer) : Option Item × DataBuffer :=
  match shape with
  | .int type size =>
    let (val, data) := getFromBuf flags data type size
    (val.map (fun bytes => .int type size (ofMem bytes)), data)
  | .mem size =>
    let (val, data) := getFromBuf flags data .mem size
    (val.map .mem, data)
  | .string =>
    let (val, data) := getMemFromBuf flags data none .string
    (val.map (fun memory => .string (cString memory)), data)
  | .data =>
    let (val, data) := getMemFromBuf flags data none .data
    (val.map .data, data)
  | .array type size =>
    let (val, data) := getArrayFromBuf flags data type size
    (val.map (fun elements => .array type size (elements.map ofMem)), data)
  | .strings =>
    let (val, data) := getStringArrayM flags data
    (val.map (fun list => .strings (list.map cString)), data)

def readItems (flags : Flags) : List Shape → DataBuffer → Option (List Item) × DataBuffer
  | [], data => (some [], data)
  | shape :: rest, data =>
    match readItem flags shape data with
    | (none, data) => (none, data)
    | (some item, data) =>
      match readItems flags rest data with
      | (none, data) => (none, data)
      | (some items, data) => (some (item :: items), data)

/-- The bytes a sender has collected in the common send buffer. -/
def Sender.written (sender : Sender) : List UInt8 := sender.sendBuf.take sender.db.bufUsed

/-- All writes succeed, and the matching reads of the resulting bytes return
the items, note no error and consume everything. -/
def RoundTrip (flags : Flags) (items : List Item) (sender : Sender) : Prop :=
  let result := writeItems flags items sender
  let received := readItems flags (items.map Item.shape) (psdbNew result.2.written)
  result.1 = true ∧ received.1 = some items ∧ received.2.unpackErr = none ∧ received.2.unpackPtr =
    some result.2.written.length

/-! ## Encodings -/

def encodeWord (flags : Flags) (type : DataType) (bytes : List UInt8) : List UInt8 :=
  encodeTag flags type ++ word flags bytes

def encodeMem (flags : Flags) (bytes : List UInt8) : List UInt8 := encodeTag flags .mem ++ bytes

def encodeBlob (flags : Flags) (type : DataType) (bytes : List UInt8) : List UInt8 :=
  encodeTag flags type ++ word flags (toMem 4 bytes.length) ++ bytes

def encodeCount (flags : Flags) (count : Nat) : List UInt8 :=
  encodeWord flags .uint32 (toMem 4 count)

def Item.encode (flags : Flags) : Item → List UInt8
  | .int type size value => encodeWord flags type (toMem size value)
  | .mem bytes => encodeMem flags bytes
  | .string chars => encodeBlob flags .string (strMem chars)
  | .data bytes => encodeBlob flags .data bytes
  | .array type size values =>
    encodeCount flags values.length ++
      values.flatMap (fun value => encodeWord flags type (toMem size value))
  | .strings list =>
    encodeCount flags list.length ++
      list.flatMap (fun chars => encodeBlob flags .string (strMem chars))

def encodedSize (flags : Flags) (items : List Item) : Nat :=
  (items.flatMap (Item.encode flags)).length

variable (chars : List UInt8)

@[simp] theorem length_strMem : (strMem chars).length = strLen chars := by
  simp [strMem, strLen]

/-- What `verifyDataBuf()` requires to be available. -/
theorem toread_eq (flags : Flags) (size : Nat) (typed : Bool) :
    (if typed ∧ flags.typeInfo then 1 + size else size) =
      (if typed then tagSize flags else 0) + size := by
  cases typed <;> cases tagged : flags.typeInfo <;> simp [tagSize, tagged]

/-! ## Writing -/

/-- A send buffer without fragmentation holding `bytes`, as far as the counter
of used bytes has not wrapped. -/
structure Holds (sender : Sender) (bytes : List UInt8) : Prop where
  plain : sender.db.useFrag = false
  used : sender.db.bufUsed = bytes.length % 2 ^ 32
  fresh : sender.db.buf = false → bytes = []
  inside : sender.db.bufUsed ≤ sender.sendBuf.length
  content : bytes.length < 2 ^ 32 → sender.sendBuf.take bytes.length = bytes

variable {sender : Sender} {bytes : List UInt8} {type : DataType} {size : Nat}
  {item : Item} {flags : Flags} {data after : DataBuffer}

theorem Holds.nil (fresh : sender.db = sendDBnoFrag) : Holds sender [] := by
  constructor <;> simp [fresh, sendDBnoFrag]

/-- `addData()` returns true whether or not the counter wraps. -/
theorem Holds.addData (holds : Holds sender bytes) (data : List UInt8) :
    (addData sender data).1 = true ∧ Holds (addData sender data).2 (bytes ++ data) := by
  have start : (if sender.db.buf then sender.db.bufUsed else 0) = sender.db.bufUsed := by
    cases allocated : sender.db.buf with
    | true => rfl
    | false =>
      have used := holds.used
      rw [holds.fresh allocated] at used
      simp [used]
  have result : Psmgmt.Serial.addData sender data =
      (true, { sender with
        sendBuf := poke sender.db.bufUsed data sender.sendBuf
        db := { sender.db with
          buf := true
          bufUsed := (sender.db.bufUsed + data.length) % 2 ^ 32 } }) := by
    simp only [Psmgmt.Serial.addData, holds.plain, start]
    rfl
  rw [result]
  refine ⟨rfl, ?_, ?_, ?_, ?_, ?_⟩
  · exact holds.plain
  · simp [holds.used, Nat.add_mod]
  · intro impossible
    cases impossible
  · have room := @length_take_poke _ data _ holds.inside
    have reduced := Nat.mod_le (sender.db.bufUsed + data.length) (2 ^ 32)
    exact Nat.le_trans reduced room
  · intro small
    rw [length_append] at small ⊢
    have unwrapped : sender.db.bufUsed = bytes.length := by
      rw [holds.used]
      exact Nat.mod_eq_of_lt (by omega)
    have inside := holds.inside
    simp only [unwrapped] at inside ⊢
    rw [take_poke inside, holds.content (by omega)]

theorem appends_holds : Appends Holds (fun _ => True) :=
  { shorter := fun _ _ _ => trivial
    step := fun _ _ data holds _ => (holds.addData data).2 }

theorem Holds.addToBuf_word (holds : Holds sender bytes) (flags : Flags)
    (integer : IntegerType type size) {value : List UInt8} (length : value.length = size) :
    (addToBuf flags (some value) size type sender).1 = true ∧
      Holds (addToBuf flags (some value) size type sender).2
        (bytes ++ encodeWord flags type value) := by
  rcases integer with ⟨noLen, notMem, _⟩
  have encoded : encodeItem flags type size value = encodeWord flags type value := by
    simp [encodeItem, encodeWord, encodeLength, encodeValue, word, noLen, notMem]
  rw [addToBuf, ← length, take_length, length, ← encoded]
  exact ⟨addItem_fst .., addItem_of_appends appends_holds flags type size holds trivial⟩

theorem Holds.addToBuf_mem (holds : Holds sender bytes) (flags : Flags)
    (block : List UInt8) :
    (addToBuf flags (some block) block.length .mem sender).1 = true ∧
      Holds (addToBuf flags (some block) block.length .mem sender).2
        (bytes ++ encodeMem flags block) := by
  have encoded : encodeItem flags .mem block.length block = encodeMem flags block := by
    simp [encodeItem, encodeMem, encodeLength, encodeValue, hasLen]
  rw [addToBuf, take_length, ← encoded]
  exact ⟨addItem_fst .., addItem_of_appends appends_holds flags .mem _ holds
    trivial⟩

theorem Holds.addToBuf_blob (holds : Holds sender bytes) (flags : Flags)
    (type : DataType) (annotated : hasLen type = true) (block : List UInt8) :
    (addToBuf flags (some block) block.length type sender).1 = true ∧
      Holds (addToBuf flags (some block) block.length type sender).2
        (bytes ++ encodeBlob flags type block) := by
  have encoded : encodeItem flags type block.length block = encodeBlob flags type block := by
    simp [encodeItem, encodeBlob, encodeLength, encodeValue, annotated]
  rw [addToBuf, take_length, ← encoded]
  exact ⟨addItem_fst .., addItem_of_appends appends_holds flags type _ holds
    trivial⟩

theorem Holds.addElements (flags : Flags) (integer : IntegerType type size)
    (values : List Nat) :
    ∀ {sender : Sender} {bytes : List UInt8}, Holds sender bytes →
      Holds (addElements flags type size (values.map (toMem size)) sender)
        (bytes ++ values.flatMap (fun value => encodeWord flags type (toMem size value))) := by
  induction values with
  | nil =>
    intro sender bytes holds
    simpa [Psmgmt.Serial.addElements] using holds
  | cons value rest induction =>
    intro sender bytes holds
    have first := holds.addToBuf_word flags integer (length_toMem size value)
    have remaining := induction first.2
    simpa [Psmgmt.Serial.addElements] using remaining

theorem Holds.addStrings (flags : Flags) (list : List (List UInt8))
    (valid : ∀ chars ∈ list, CString chars) :
    ∀ {sender : Sender} {bytes : List UInt8}, Holds sender bytes →
      (addStrings flags list sender).1 = true ∧ Holds (addStrings flags list sender).2
          (bytes ++ list.flatMap (fun chars => encodeBlob flags .string (strMem chars))) := by
  induction list with
  | nil =>
    intro sender bytes holds
    simpa [Psmgmt.Serial.addStrings] using holds
  | cons chars rest induction =>
    intro sender bytes holds
    have size : strLen chars % 2 ^ 32 = (strMem chars).length := by
      rw [length_strMem]
      exact Nat.mod_eq_of_lt (valid chars (by simp)).2
    have first := holds.addToBuf_blob flags .string (by decide) (strMem chars)
    have remaining := induction (fun other member => valid other (by simp [member])) first.2
    have step : Psmgmt.Serial.addStrings flags (chars :: rest) sender =
        Psmgmt.Serial.addStrings flags rest
          (addToBuf flags (some (strMem chars)) (strMem chars).length .string sender).2 := by
      rw [Psmgmt.Serial.addStrings, size]
      rcases equality : addToBuf flags (some (strMem chars))
        (strMem chars).length .string sender with ⟨ok, after⟩
      rw [equality] at first
      cases first.1
      rfl
    rw [step]
    simpa using remaining

theorem integerType_uint32 : IntegerType .uint32 4 := by
  refine ⟨by decide, by decide, ?_⟩
  simp

theorem Holds.writeItem (holds : Holds sender bytes) (flags : Flags)
    (wellTyped : item.WellTyped) :
    (writeItem flags item sender).1 = true ∧
      Holds (writeItem flags item sender).2 (bytes ++ item.encode flags) := by
  cases item with
  | int type size value => exact holds.addToBuf_word flags wellTyped.1 (length_toMem size value)
  | mem block => exact holds.addToBuf_mem flags block
  | string chars =>
    have result := holds.addToBuf_blob flags .string (by decide) (strMem chars)
    rwa [length_strMem] at result
  | data block => exact holds.addToBuf_blob flags .data (by decide) block
  | array type size values =>
    have count : (values.map (toMem size)).length % 2 ^ 32 = values.length := by
      rw [length_map]
      exact Nat.mod_eq_of_lt wellTyped.2.1
    have header := holds.addToBuf_word flags integerType_uint32 (length_toMem 4 values.length)
    have elements := Holds.addElements flags wellTyped.1 values header.2
    have all : (values.map (toMem size)).take values.length = values.map (toMem size) := by
      rw [← length_map (toMem size), take_length]
    simp only [Psmgmt.Serial.writeItem, addArrayToBuf, count, all]
    rcases equality : addToBuf flags (some (toMem 4 values.length)) 4 .uint32
      sender with ⟨ok, after⟩
    rw [equality] at header elements
    cases header.1
    exact ⟨rfl, by simpa [Item.encode, encodeCount] using elements⟩
  | strings list =>
    have count : list.length % 2 ^ 32 = list.length := Nat.mod_eq_of_lt wellTyped.1
    have header := holds.addToBuf_word flags integerType_uint32 (length_toMem 4 list.length)
    have elements := Holds.addStrings flags list wellTyped.2 header.2
    simp only [Psmgmt.Serial.writeItem, addStringArrayToBuf, count, take_length]
    rcases equality : addToBuf flags (some (toMem 4 list.length)) 4 .uint32 sender with ⟨ok, after⟩
    rw [equality] at header elements
    cases header.1
    simpa [Item.encode, encodeCount] using elements

theorem Holds.writeItems (flags : Flags) (items : List Item)
    (wellTyped : ∀ item ∈ items, item.WellTyped) :
    ∀ {sender : Sender} {bytes : List UInt8}, Holds sender bytes →
      (writeItems flags items sender).1 = true ∧
        Holds (writeItems flags items sender).2 (bytes ++ items.flatMap (Item.encode flags)) := by
  induction items with
  | nil =>
    intro sender bytes holds
    simpa [Psmgmt.Serial.writeItems] using holds
  | cons item rest induction =>
    intro sender bytes holds
    have first := holds.writeItem flags (wellTyped item (by simp))
    have remaining := induction (fun other member => wellTyped other (by simp [member])) first.2
    simp only [Psmgmt.Serial.writeItems, first.1, remaining.1,
      Bool.and_self, flatMap_cons, true_and]
    rw [← append_assoc]
    exact remaining.2

/-! ## Reading -/

/-- A data buffer unpacked up to `before`, with `rest` still to be read. -/
def readerAt (before rest : List UInt8) : DataBuffer :=
  { buf := before ++ rest, unpackPtr := some before.length, unpackErr := none }

variable (before rest : List UInt8)

@[simp] theorem unpackPtr_readerAt : (readerAt before rest).unpackPtr = some before.length := rfl

@[simp] theorem unpackErr_readerAt : (readerAt before rest).unpackErr = none := rfl

theorem verifyDataBuf_readerAt (flags : Flags) (before : List UInt8) {rest : List UInt8}
    {typed : Bool} (enough : (if typed then tagSize flags else 0) + size ≤ rest.length) :
    verifyDataBuf flags (readerAt before rest) size typed = (true, readerAt before rest) := by
  have available : (readerAt before rest).getAvail = rest.length := by
    simp [DataBuffer.getAvail, DataBuffer.offset, readerAt]
  have sane : ¬(if typed then tagSize flags else 0) + size > rest.length := by
    omega
  simp only [verifyDataBuf, toread_eq, available, sane, if_false]
  rfl

theorem peek_readerAt (before data rest : List UInt8) :
    (readerAt before (data ++ rest)).peek data.length = data := by
  simp [DataBuffer.peek, DataBuffer.offset, readerAt]

theorem advance_readerAt (before data rest : List UInt8) :
    (readerAt before (data ++ rest)).advance data.length = readerAt (before ++ data) rest := by
  simp [DataBuffer.advance, DataBuffer.offset, readerAt]

theorem verifyTypeInfo_readerAt (flags : Flags) (type : DataType)
    (before rest : List UInt8) :
    verifyTypeInfo flags (readerAt before (encodeTag flags type ++ rest)) type =
      (true, readerAt (before ++ encodeTag flags type) rest) := by
  cases tagged : flags.typeInfo with
  | false => simp [verifyTypeInfo, encodeTag, tagged]
  | true =>
    have tag : (readerAt before ([type.tag] ++ rest)).peek 1 = [type.tag] :=
      peek_readerAt before [type.tag] rest
    have next := advance_readerAt before [type.tag] rest
    simp only [length_singleton] at next
    simp only [verifyTypeInfo, encodeTag, tagged, not_true_eq_false, if_true,
      if_false, tag, next, ne_eq]

theorem getFromBuf_word (flags : Flags) (integer : IntegerType type size)
    (length : bytes.length = size) (before rest : List UInt8) :
    getFromBuf flags (readerAt before (encodeWord flags type bytes ++ rest)) type size =
      (some bytes, readerAt (before ++ encodeWord flags type bytes) rest) := by
  rcases integer with ⟨_, notMem, sizes⟩
  have transferred : (word flags bytes).length = size := by
    rw [length_word, length]
  have enough : (if true then tagSize flags else 0) + size ≤
      (encodeWord flags type bytes ++ rest).length := by
    simp only [encodeWord, length_append, length_encodeTag, transferred, if_true]
    omega
  have val := peek_readerAt (before ++ encodeTag flags type) (word flags bytes) rest
  have next := advance_readerAt (before ++ encodeTag flags type) (word flags bytes) rest
  rw [transferred] at val next
  simp only [getFromBuf, verifyDataBuf_readerAt flags before enough]
  simp only [encodeWord, append_assoc, verifyTypeInfo_readerAt]
  simp only [val, next, notMem, sizes, ne_eq, not_false_eq_true, and_true, if_true]
  cases ordered : flags.byteOrder with
  | false => simp [readerAt, word, ordered]
  | true => simp [readerAt, word, ordered, shuffle_shuffle]

theorem getFromBuf_mem (flags : Flags) (bytes before rest : List UInt8) :
    getFromBuf flags (readerAt before (encodeMem flags bytes ++ rest)) .mem bytes.length =
      (some bytes, readerAt (before ++ encodeMem flags bytes) rest) := by
  have enough : (if true then tagSize flags else 0) + bytes.length ≤
      (encodeMem flags bytes ++ rest).length := by
    simp only [encodeMem, length_append, length_encodeTag, if_true]
    omega
  have val := peek_readerAt (before ++ encodeTag flags .mem) bytes rest
  have next := advance_readerAt (before ++ encodeTag flags .mem) bytes rest
  simp only [getFromBuf, verifyDataBuf_readerAt flags before enough]
  simp only [encodeMem, append_assoc, verifyTypeInfo_readerAt]
  simp only [val, next, ne_eq, not_true_eq_false, and_false, if_false,
    unpackPtr_readerAt, isNone_some, Bool.false_eq_true,
    append_assoc]

theorem getMemFromBuf_blob (flags : Flags) (type : DataType)
    (small : bytes.length < 2 ^ 32) (before rest : List UInt8) :
    getMemFromBuf flags (readerAt before (encodeBlob flags type bytes ++ rest)) none type =
      (some (terminate type bytes), readerAt (before ++ encodeBlob flags type bytes) rest) := by
  have lenLength : (word flags (toMem 4 bytes.length)).length = 4 := by simp
  have enough : (if true then tagSize flags else 0) + 4 ≤
      (encodeBlob flags type bytes ++ rest).length := by
    simp only [encodeBlob, length_append, length_encodeTag, lenLength, if_true]
    omega
  have len := peek_readerAt (before ++ encodeTag flags type)
    (word flags (toMem 4 bytes.length)) (bytes ++ rest)
  have afterLen := advance_readerAt (before ++ encodeTag flags type)
    (word flags (toMem 4 bytes.length)) (bytes ++ rest)
  rw [lenLength] at len afterLen
  have decoded : ofMem (if flags.byteOrder then
      shuffle (word flags (toMem 4 bytes.length))
      else word flags (toMem 4 bytes.length)) = bytes.length := by
    have twice := word_word flags (toMem 4 bytes.length)
    rw [word] at twice
    rw [twice]
    exact ofMem_toMem (by omega)
  have bodyEnough : (if false then tagSize flags else 0) + bytes.length ≤
      (bytes ++ rest).length := by
    simp
  simp only [getMemFromBuf, verifyDataBuf_readerAt flags before enough]
  simp only [encodeBlob, append_assoc, verifyTypeInfo_readerAt]
  simp only [len, afterLen, decoded,
    verifyDataBuf_readerAt flags _ bodyEnough, peek_readerAt,
    advance_readerAt]
  simp [readerAt]

theorem getElements_words (flags : Flags) (integer : IntegerType type size)
    (values : List Nat) :
    ∀ before rest : List UInt8, getElements flags type size values.length
          (readerAt before (values.flatMap
            (fun value => encodeWord flags type (toMem size value)) ++ rest)) =
        (some (values.map (toMem size)),
          readerAt (before ++ values.flatMap
            (fun value => encodeWord flags type (toMem size value))) rest) := by
  induction values with
  | nil =>
    intro before rest
    simp [getElements]
  | cons value values induction =>
    intro before rest
    simp only [length_cons, flatMap_cons, append_assoc,
      getElements, getFromBuf_word flags integer (length_toMem size value),
      induction, map_cons]

theorem terminate_strMem : terminate .string (strMem chars) = strMem chars := by
  simp [terminate, strMem]

theorem getStrings_blobs (flags : Flags) (list : List (List UInt8))
    (valid : ∀ chars ∈ list, CString chars) :
    ∀ before rest : List UInt8, getStrings flags list.length
          (readerAt before (list.flatMap
            (fun chars => encodeBlob flags .string (strMem chars)) ++ rest)) =
        (some (list.map strMem),
          readerAt (before ++ list.flatMap
            (fun chars => encodeBlob flags .string (strMem chars))) rest) := by
  induction list with
  | nil =>
    intro before rest
    simp [getStrings]
  | cons chars list induction =>
    intro before rest
    have small : (strMem chars).length < 2 ^ 32 := by
      rw [length_strMem]
      exact (valid chars (by simp)).2
    have remaining := induction (fun other member => valid other (by simp [member]))
    simp only [length_cons, flatMap_cons, append_assoc,
      getStrings, getMemFromBuf_blob flags .string small, unpackErr_readerAt,
      isSome_none, Bool.false_eq_true, if_false, remaining,
      terminate_strMem, map_cons]

theorem getFromBuf_count (flags : Flags) (count : Nat)
    (before rest : List UInt8) :
    getFromBuf flags (readerAt before (encodeCount flags count ++ rest)) .uint32 4 =
      (some (toMem 4 count), readerAt (before ++ encodeCount flags count) rest) :=
  getFromBuf_word flags integerType_uint32 (length_toMem 4 count) before rest

theorem cString_strMem {chars : List UInt8} (valid : CString chars) :
    cString (strMem chars) = chars := by
  have all : ∀ char ∈ chars, decide (char ≠ 0) = true := by
    simpa using valid.1
  rw [cString, strMem, takeWhile_append_of_pos all]
  simp

theorem readItem_encode (flags : Flags) (wellTyped : item.WellTyped)
    (before rest : List UInt8) :
    readItem flags item.shape (readerAt before (item.encode flags ++ rest)) =
      (some item, readerAt (before ++ item.encode flags) rest) := by
  cases item with
  | int type size value =>
    simp only [Item.shape, Item.encode, readItem,
      getFromBuf_word flags wellTyped.1 (length_toMem size value),
      Option.map_some, ofMem_toMem wellTyped.2]
  | mem bytes => simp only [Item.shape, Item.encode, readItem, getFromBuf_mem, Option.map_some]
  | string chars =>
    have small : (strMem chars).length < 2 ^ 32 := by
      rw [length_strMem]
      exact wellTyped.2
    simp only [Item.shape, Item.encode, readItem,
      getMemFromBuf_blob flags .string small, terminate_strMem,
      Option.map_some, cString_strMem wellTyped]
  | data bytes =>
    simp only [Item.shape, Item.encode, readItem,
      getMemFromBuf_blob flags .data wellTyped, Option.map_some, terminate,
      reduceCtorEq, if_false]
  | array type size values =>
    rcases wellTyped with ⟨integer, count, bounds⟩
    have number : ofMem (toMem 4 values.length) = values.length := ofMem_toMem (by omega)
    have same : values.map (ofMem ∘ toMem size) = values := by
      conv_rhs => rw [← map_id values]
      apply map_congr_left
      intro value member
      exact ofMem_toMem (bounds value member)
    simp only [Item.shape, Item.encode, readItem, getArrayFromBuf,
      append_assoc, getFromBuf_count, number,
      getElements_words flags integer, Option.map_some, List.map_map, same]
  | strings list =>
    rcases wellTyped with ⟨count, valid⟩
    have number : ofMem (toMem 4 list.length) = list.length := ofMem_toMem (by omega)
    have same : list.map (cString ∘ strMem) = list := by
      conv_rhs => rw [← map_id list]
      apply map_congr_left
      intro chars member
      exact cString_strMem (valid chars member)
    simp only [Item.shape, Item.encode, readItem, getStringArrayM,
      append_assoc, getFromBuf_count, number,
      getStrings_blobs flags list valid, Option.map_some, List.map_map, same]

theorem readItems_encode (flags : Flags) (items : List Item)
    (wellTyped : ∀ item ∈ items, item.WellTyped) :
    ∀ before : List UInt8,
      readItems flags (items.map Item.shape) (readerAt before (items.flatMap (Item.encode flags))) =
        (some items, readerAt (before ++ items.flatMap (Item.encode flags)) []) := by
  induction items with
  | nil =>
    intro before
    simp [readItems]
  | cons item items induction =>
    intro before
    have remaining := induction (fun other member => wellTyped other (by simp [member]))
    simp only [map_cons, flatMap_cons, readItems,
      readItem_encode flags (wellTyped item (by simp)), remaining,
      append_assoc]

theorem roundTrip_of_fits {items : List Item} (fresh : sender.db = sendDBnoFrag)
    (wellTyped : ∀ item ∈ items, item.WellTyped) (fits : encodedSize flags items < 2 ^ 32) :
    RoundTrip flags items sender := by
  have written := Holds.writeItems flags items wellTyped (Holds.nil fresh)
  rw [nil_append] at written
  have used := written.2.used
  rw [encodedSize] at fits
  rw [Nat.mod_eq_of_lt fits] at used
  have content : (writeItems flags items sender).2.written = items.flatMap (Item.encode flags) := by
    rw [Sender.written, used]
    exact written.2.content fits
  have reader : psdbNew (items.flatMap (Item.encode flags)) =
      readerAt [] (items.flatMap (Item.encode flags)) := rfl
  have received := readItems_encode flags items wellTyped []
  simp only [RoundTrip, content, reader, received]
  exact ⟨written.1, trivial, rfl, by simp⟩

/-! ## Beyond 32 bits -/

/-- Unpacking moved on by `size` bytes within the buffer. -/
structure Consumed (size : Nat) (data after : DataBuffer) : Prop where
  buf : after.buf = data.buf
  offset : after.offset = data.offset + size
  inside : after.offset ≤ after.buf.length

theorem Consumed.trans {first second : Nat} {middle : DataBuffer}
    (left : Consumed first data middle) (right : Consumed second middle after) :
    Consumed (first + second) data after := by
  constructor
  · rw [right.buf, left.buf]
  · rw [right.offset, left.offset, Nat.add_assoc]
  · exact right.inside

theorem verifyDataBuf_true {typed : Bool}
    (success : verifyDataBuf flags data size typed = (true, after)) :
    after = data ∧ (if typed then tagSize flags else 0) + size ≤ data.getAvail := by
  rw [verifyDataBuf, toread_eq] at success
  by_cases erroneous : data.unpackErr.isSome
  · simp [erroneous] at success
  · by_cases insufficient : (if typed then tagSize flags else 0) + size > data.getAvail
    · simp [erroneous, insufficient] at success
    · simp only [erroneous, insufficient, Bool.false_eq_true, if_false,
        Prod.mk.injEq, true_and] at success
      exact ⟨success.symm, by omega⟩

theorem verifyTypeInfo_true
    (success : verifyTypeInfo flags data type = (true, after)) :
    after.buf = data.buf ∧ after.offset = data.offset + tagSize flags := by
  unfold verifyTypeInfo at success
  cases tagged : flags.typeInfo with
  | false =>
    simp only [tagged, Bool.false_eq_true, not_false_eq_true, if_true,
      Prod.mk.injEq, true_and] at success
    simp [← success, tagSize, tagged]
  | true =>
    simp only [tagged, not_true_eq_false, if_false] at success
    split at success
    · simp at success
    · simp only [Prod.mk.injEq, true_and] at success
      simp [← success, tagSize, tagged, DataBuffer.advance, DataBuffer.offset]

theorem getFromBuf_consumed {val : List UInt8} (inside : data.offset ≤ data.buf.length)
    (success : getFromBuf flags data type size = (some val, after)) :
    Consumed (tagSize flags + size) data after ∧ val.length = size := by
  unfold getFromBuf at success
  split at success
  · simp at success
  · rcases verified : verifyDataBuf flags data size true with ⟨sane, checked⟩
    cases sane with
    | false => simp [verified] at success
    | true =>
      rcases verifyDataBuf_true verified with ⟨rfl, enough⟩
      rcases typed : verifyTypeInfo flags checked type with ⟨same, untagged⟩
      cases same with
      | false => simp [verified, typed] at success
      | true =>
        rcases verifyTypeInfo_true typed with ⟨sameBuf, offset⟩
        simp only [if_true, DataBuffer.getAvail] at enough
        have length : (untagged.peek size).length = size := by
          simp only [DataBuffer.peek, length_take, length_drop, sameBuf, offset]
          omega
        have moved : Consumed (tagSize flags + size) checked (untagged.advance size) := by
          constructor
          · exact sameBuf
          · simp only [DataBuffer.advance, DataBuffer.offset, getD_some] at offset ⊢
            omega
          · simp only [DataBuffer.advance, DataBuffer.offset,
              getD_some, sameBuf] at offset enough inside ⊢
            omega
        simp only [verified, typed] at success
        split at success
        · split at success
          · cases success
            exact ⟨moved, by rw [length_shuffle, length]⟩
          · simp at success
        · cases success
          exact ⟨moved, length⟩

theorem getMemFromBuf_consumed {val : List UInt8} (inside : data.offset ≤ data.buf.length)
    (success : getMemFromBuf flags data none type = (some val, after)) :
    ∃ bytes, val = terminate type bytes ∧
      Consumed (tagSize flags + 4 + bytes.length) data after := by
  unfold getMemFromBuf at success
  split at success
  · simp at success
  · rcases verified : verifyDataBuf flags data 4 true with ⟨sane, checked⟩
    cases sane with
    | false => simp [verified] at success
    | true =>
      rcases verifyDataBuf_true verified with ⟨rfl, enough⟩
      rcases typed : verifyTypeInfo flags checked type with ⟨same, untagged⟩
      cases same with
      | false => simp [verified, typed] at success
      | true =>
        rcases verifyTypeInfo_true typed with ⟨sameBuf, offset⟩
        simp only [if_true] at enough
        simp only [verified, typed] at success
        generalize ofMem (if flags.byteOrder then shuffle (untagged.peek 4)
          else untagged.peek 4) = l at success
        rcases body : verifyDataBuf flags (untagged.advance 4) l false with ⟨sane, checkedBody⟩
        cases sane with
        | false => simp [body] at success
        | true =>
          rcases verifyDataBuf_true body with ⟨rfl, bodyEnough⟩
          simp only [body, any_none, Bool.false_eq_true, if_false] at success
          cases success
          refine ⟨_, rfl, ?_⟩
          simp only [Bool.false_eq_true, if_false, zero_add,
            DataBuffer.getAvail, DataBuffer.advance, DataBuffer.offset,
            getD_some, sameBuf] at offset enough bodyEnough inside
          have length : ((untagged.advance 4).peek l).length = l := by
            simp only [DataBuffer.peek, DataBuffer.advance,
              DataBuffer.offset, length_take, length_drop,
              getD_some, sameBuf]
            omega
          rw [length]
          constructor
          · exact sameBuf
          · simp only [DataBuffer.advance, DataBuffer.offset, getD_some]
            omega
          · simp only [DataBuffer.advance, DataBuffer.offset, getD_some, sameBuf]
            omega

theorem getElements_consumed (count : Nat) :
    ∀ {data after : DataBuffer} {elements : List (List UInt8)},
      data.offset ≤ data.buf.length →
      getElements flags type size count data = (some elements, after) →
        Consumed (elements.length * (tagSize flags + size)) data after := by
  induction count with
  | zero =>
    intro data after elements inside success
    simp only [getElements] at success
    cases success
    exact ⟨rfl, by simp, inside⟩
  | succ count induction =>
    intro data after elements inside success
    rw [getElements] at success
    rcases head : getFromBuf flags data type size with ⟨val, middle⟩
    cases val with
    | none => simp [head] at success
    | some element =>
      have first := getFromBuf_consumed inside head
      rcases tail : getElements flags type size count middle with ⟨rest, last⟩
      cases rest with
      | none => simp [head, tail] at success
      | some rest =>
        simp only [head, tail] at success
        cases success
        have both := first.1.trans (induction first.1.inside tail)
        rw [length_cons, Nat.succ_mul, Nat.add_comm]
        exact both

/-- A string read may be shorter than the memory unpacked for it, and at most
one byte longer, when that memory is empty. -/
theorem length_cString_terminate (bytes : List UInt8) :
    strLen (cString (terminate .string bytes)) ≤ bytes.length + 1 := by
  have shorter : ((bytes.dropLast ++ [0]).takeWhile (· ≠ 0)).length ≤ bytes.dropLast.length := by
    rw [takeWhile_append]
    split
    · simp
    · exact (takeWhile_sublist _).length_le
  rw [length_dropLast] at shorter
  simp only [strLen, cString, terminate, if_true]
  omega

theorem getStrings_consumed (count : Nat) :
    ∀ {data after : DataBuffer} {strings : List (List UInt8)},
      data.offset ≤ data.buf.length →
      getStrings flags count data = (some strings, after) → ∃ size, Consumed size data after ∧
          ((strings.map cString).flatMap
            (fun chars => encodeBlob flags .string (strMem chars))).length ≤ 2 * size := by
  induction count with
  | zero =>
    intro data after strings inside success
    simp only [getStrings] at success
    cases success
    exact ⟨0, ⟨rfl, by simp, inside⟩, by simp⟩
  | succ count induction =>
    intro data after strings inside success
    rw [getStrings] at success
    rcases head : getMemFromBuf flags data none .string with ⟨val, middle⟩
    cases val with
    | none => simp [head] at success
    | some string =>
      rcases getMemFromBuf_consumed inside head with
        ⟨bytes, rfl, consumed⟩
      rcases tail : getStrings flags count middle with ⟨rest, last⟩
      cases erroneous : middle.unpackErr.isSome with
      | true => simp [head, erroneous] at success
      | false =>
        cases rest with
        | none => simp [head, tail, erroneous] at success
        | some rest =>
          simp only [head, tail, erroneous, Bool.false_eq_true, if_false] at success
          cases success
          rcases induction consumed.inside tail with
            ⟨size, remaining, bound⟩
          refine ⟨_, consumed.trans remaining, ?_⟩
          have one := length_cString_terminate bytes
          simp only [map_cons, flatMap_cons,
            length_append, encodeBlob, length_encodeTag,
            length_word, length_toMem, length_strMem] at bound ⊢
          omega

theorem read_of_map {α β : Type*} {read : Option α × DataBuffer} {f : α → β}
    {val : β} (success : (read.1.map f, read.2) = (some val, after)) :
    ∃ fetched, read = (some fetched, after) ∧ f fetched = val := by
  obtain ⟨result, last⟩ := read
  obtain ⟨same, rfl⟩ := Prod.mk.inj success
  obtain ⟨fetched, rfl, given⟩ := map_eq_some_iff.mp same
  exact ⟨fetched, rfl, given⟩

theorem readItem_consumed {shape : Shape} (inside : data.offset ≤ data.buf.length)
    (success : readItem flags shape data = (some item, after)) :
    ∃ size, Consumed size data after ∧ (item.encode flags).length ≤ 2 * size := by
  cases shape with
  | int type size =>
    obtain ⟨bytes, fetched, rfl⟩ := read_of_map success
    refine ⟨_, (getFromBuf_consumed inside fetched).1, ?_⟩
    simp only [Item.encode, encodeWord, length_append, length_encodeTag, length_word, length_toMem]
    omega
  | mem size =>
    obtain ⟨bytes, fetched, rfl⟩ := read_of_map success
    rcases getFromBuf_consumed inside fetched with ⟨consumed, length⟩
    refine ⟨_, consumed, ?_⟩
    simp only [Item.encode, encodeMem, length_append, length_encodeTag, length]
    omega
  | string =>
    obtain ⟨memory, fetched, rfl⟩ := read_of_map success
    rcases getMemFromBuf_consumed inside fetched with
      ⟨bytes, rfl, consumed⟩
    refine ⟨_, consumed, ?_⟩
    have one := length_cString_terminate bytes
    simp only [Item.encode, encodeBlob, length_append,
      length_encodeTag, length_word, length_toMem, length_strMem]
    omega
  | data =>
    obtain ⟨memory, fetched, rfl⟩ := read_of_map success
    rcases getMemFromBuf_consumed inside fetched with
      ⟨bytes, rfl, consumed⟩
    refine ⟨_, consumed, ?_⟩
    simp only [Item.encode, encodeBlob, length_append, length_encodeTag, length_word, length_toMem]
    omega
  | array type size =>
    rcases counted : getFromBuf flags data .uint32 4 with ⟨len, middle⟩
    cases len with
    | none => simp [readItem, getArrayFromBuf, counted] at success
    | some len =>
      rcases fetched : getElements flags type size (ofMem len) middle with ⟨val, last⟩
      cases val with
      | none => simp [readItem, getArrayFromBuf, counted, fetched] at success
      | some elements =>
        simp only [readItem, getArrayFromBuf, counted, fetched, Option.map_some] at success
        cases success
        have header := (getFromBuf_consumed inside counted).1
        refine ⟨_, header.trans (getElements_consumed _ header.inside fetched), ?_⟩
        have sizes : ∀ values : List Nat, (values.flatMap (fun value =>
            encodeWord flags type (toMem size value))).length =
              values.length * (tagSize flags + size) := by
          intro values
          simp [length_flatMap, encodeWord, length_encodeTag]
        rw [Item.encode, length_append, sizes, encodeCount,
          encodeWord, length_append, length_encodeTag, length_word,
          length_toMem, length_map]
        omega
  | strings =>
    rcases counted : getFromBuf flags data .uint32 4 with ⟨len, middle⟩
    cases len with
    | none => simp [readItem, getStringArrayM, counted] at success
    | some len =>
      rcases fetched : getStrings flags (ofMem len) middle with ⟨val, last⟩
      cases val with
      | none => simp [readItem, getStringArrayM, counted, fetched] at success
      | some memories =>
        simp only [readItem, getStringArrayM, counted, fetched, Option.map_some] at success
        cases success
        have header := (getFromBuf_consumed inside counted).1
        rcases getStrings_consumed _ header.inside fetched with
          ⟨size, consumed, bound⟩
        refine ⟨_, header.trans consumed, ?_⟩
        simp only [Item.encode, encodeCount, length_append,
          encodeWord, length_encodeTag, length_word, length_toMem]
        omega

theorem readItems_consumed (shapes : List Shape) : ∀ {items : List Item} {data after : DataBuffer},
      data.offset ≤ data.buf.length →
      readItems flags shapes data = (some items, after) →
        ∃ size, Consumed size data after ∧ encodedSize flags items ≤ 2 * size := by
  induction shapes with
  | nil =>
    intro items data after inside success
    simp only [readItems] at success
    cases success
    exact ⟨0, ⟨rfl, by simp, inside⟩, by simp [encodedSize]⟩
  | cons shape shapes induction =>
    intro items data after inside success
    rw [readItems] at success
    rcases head : readItem flags shape data with ⟨val, middle⟩
    cases val with
    | none => simp [head] at success
    | some item =>
      rcases readItem_consumed inside head with ⟨first, moved, bound⟩
      rcases tail : readItems flags shapes middle with ⟨rest, last⟩
      cases rest with
      | none => simp [head, tail] at success
      | some rest =>
        simp only [head, tail] at success
        cases success
        rcases induction moved.inside tail with
          ⟨second, remaining, restBound⟩
        refine ⟨_, moved.trans remaining, ?_⟩
        simp only [encodedSize, flatMap_cons, length_append]
          at restBound ⊢
        omega

theorem not_roundTrip_of_wrap {items : List Item} (fresh : sender.db = sendDBnoFrag)
    (wellTyped : ∀ item ∈ items, item.WellTyped) (wrap : 2 ^ 32 ≤ encodedSize flags items) :
    ¬RoundTrip flags items sender := by
  intro roundTrip
  have written := Holds.writeItems flags items wellTyped (Holds.nil fresh)
  rw [nil_append] at written
  have used := written.2.used
  rcases received : readItems flags (items.map Item.shape)
    (psdbNew (writeItems flags items sender).2.written) with ⟨result, after⟩
  have same : result = some items := by
    have second := roundTrip.2.1
    rwa [received] at second
  rw [same] at received
  have start : (psdbNew (writeItems flags items sender).2.written).offset ≤
      (psdbNew (writeItems flags items sender).2.written).buf.length := by
    simp [psdbNew, DataBuffer.offset]
  rcases readItems_consumed _ start received with ⟨size, consumed, bound⟩
  have available : size ≤ encodedSize flags items % 2 ^ 32 := by
    have moved := consumed.inside
    rw [consumed.offset, consumed.buf] at moved
    have stored : (writeItems flags items sender).2.written.length ≤
        encodedSize flags items % 2 ^ 32 := by
      rw [Sender.written, length_take, used]
      exact Nat.min_le_left _ _
    simp only [psdbNew, DataBuffer.offset, getD_some] at moved
    omega
  have reduced : encodedSize flags items % 2 ^ 32 < 2 ^ 32 := Nat.mod_lt _ (by norm_num)
  have remainder := Nat.mod_add_div (encodedSize flags items) (2 ^ 32)
  have quotient : 1 ≤ encodedSize flags items / 2 ^ 32 := Nat.div_pos wrap (by norm_num)
  omega

/-- Exactly the items whose encodings stay below `2 ^ 32` bytes in total make
the round trip. -/
theorem roundTrip_iff_encodedSize_lt {flags : Flags} {items : List Item} {sender : Sender}
    (fresh : sender.db = sendDBnoFrag) (wellTyped : ∀ item ∈ items, item.WellTyped) :
    RoundTrip flags items sender ↔ encodedSize flags items < 2 ^ 32 := by
  constructor
  · intro roundTrip
    by_contra wrap
    exact not_roundTrip_of_wrap fresh wellTyped (by omega) roundTrip
  · intro fits
    exact roundTrip_of_fits fresh wellTyped fits

theorem roundTrip_iff_one_int : (initSerial 0 ⟨0, 0⟩).db = sendDBnoFrag ∧
      (RoundTrip ⟨true, true⟩ [.int .int32 4 7, .string [104, 105]] (initSerial 0 ⟨0, 0⟩) ↔
        encodedSize ⟨true, true⟩ [.int .int32 4 7, .string [104, 105]] < 2 ^ 32) :=
  ⟨rfl, roundTrip_iff_encodedSize_lt rfl (by
    intro item member
    simp only [mem_cons, not_mem_nil, or_false] at member
    rcases member with rfl | rfl
    · simp [Item.WellTyped, IntegerType, hasLen]
    · simp [Item.WellTyped, CString, strLen])⟩

/-- A blob of `2 ^ 32 - 1` bytes and its length do not fit. -/
theorem not_roundTrip_huge_data :
    (∀ item ∈ [Item.data (List.replicate (2 ^ 32 - 1) 0)], item.WellTyped) ∧
      ¬RoundTrip ⟨false, false⟩ [.data (List.replicate (2 ^ 32 - 1) 0)] (initSerial 0 ⟨0, 0⟩) := by
  have wellTyped : ∀ item ∈ [Item.data (List.replicate (2 ^ 32 - 1) 0)], item.WellTyped := by
    intro item member
    rw [mem_singleton] at member
    subst member
    rw [Item.WellTyped, length_replicate]
    norm_num
  refine ⟨wellTyped, not_roundTrip_of_wrap rfl wellTyped ?_⟩
  simp only [encodedSize, flatMap_cons, flatMap_nil, append_nil,
    Item.encode, encodeBlob, length_append, length_word, length_toMem,
    length_replicate]
  omega

end Psmgmt.Serial
