import Psmgmt.Serial.SendBuffer

/-!
# The bytes of an item

`addToBuf()` adds an optional type tag, an optional length and the value, each
by a call of `addData()`.  Whatever every `addData()` establishes for the bytes
added so far, `addToBuf()` establishes for the encoded item.
-/

namespace Psmgmt.Serial

open ByteMemory List

def encodeTag (flags : Flags) (type : DataType) : List UInt8 :=
  if flags.typeInfo then [type.tag] else []

/-- An integer's bytes as they are transferred. -/
def word (flags : Flags) (bytes : List UInt8) : List UInt8 :=
  if flags.byteOrder then shuffle bytes else bytes

def encodeLength (flags : Flags) (type : DataType) (size : Nat) : List UInt8 :=
  if hasLen type then word flags (toMem 4 size) else []

def encodeValue (flags : Flags) (type : DataType) (bytes : List UInt8) : List UInt8 :=
  if flags.byteOrder ∧ ¬hasLen type ∧ type ≠ .mem then shuffle bytes else bytes

/-- An element of `size` bytes as it is transferred. -/
def encodeItem (flags : Flags) (type : DataType) (size : Nat) (bytes : List UInt8) : List UInt8 :=
  encodeTag flags type ++ encodeLength flags type size ++ encodeValue flags type bytes

theorem length_shuffle (bytes : List UInt8) : (shuffle bytes).length = bytes.length := by
  unfold shuffle
  split <;> simp

theorem shuffle_shuffle (bytes : List UInt8) : shuffle (shuffle bytes) = bytes := by
  by_cases swapped : bytes.length = 2 ∨ bytes.length = 4 ∨ bytes.length = 8
  · simp [shuffle, swapped]
  · simp [shuffle, swapped]

@[simp] theorem length_word (flags : Flags) (bytes : List UInt8) :
    (word flags bytes).length = bytes.length := by
  unfold word
  split <;> simp [length_shuffle]

@[simp] theorem word_word (flags : Flags) (bytes : List UInt8) :
    word flags (word flags bytes) = bytes := by
  unfold word
  cases flags.byteOrder <;> simp [shuffle_shuffle]

def tagSize (flags : Flags) : Nat := if flags.typeInfo then 1 else 0

@[simp] theorem length_encodeTag (flags : Flags) (type : DataType) :
    (encodeTag flags type).length = tagSize flags := by
  unfold encodeTag tagSize
  split <;> simp

@[simp] theorem addData_fst (sender : Sender) (data : List UInt8) :
    (addData sender data).1 = true := by
  unfold addData
  split <;> rfl

theorem addItem_fst (flags : Flags) (size : Nat) (type : DataType)
    (bytes : List UInt8) (sender : Sender) :
    (addToBuf.addItem flags size type bytes sender).1 = true := by
  simp only [addToBuf.addItem]
  split <;> simp

/-- `Added` holds of a sender and the bytes added to it, as long as these
satisfy `Fits`. -/
structure Appends (Added : Sender → List UInt8 → Prop)
    (Fits : List UInt8 → Prop) : Prop where
  shorter : ∀ bytes data, Fits (bytes ++ data) → Fits bytes
  step : ∀ sender bytes data, Added sender bytes → Fits (bytes ++ data) →
    Added (addData sender data).2 (bytes ++ data)

theorem addItem_of_appends {Added : Sender → List UInt8 → Prop} {Fits : List UInt8 → Prop}
    (appends : Appends Added Fits) (flags : Flags) (type : DataType) (size : Nat) {sender : Sender}
    {bytes value : List UInt8} (added : Added sender bytes)
    (fits : Fits (bytes ++ encodeItem flags type size value)) :
    Added (addToBuf.addItem flags size type value sender).2
      (bytes ++ encodeItem flags type size value) := by
  rw [encodeItem, ← append_assoc, ← append_assoc] at fits ⊢
  have fitsLength := appends.shorter _ _ fits
  have fitsTag := appends.shorter _ _ fitsLength
  have tagged : Added (if flags.typeInfo then (addData sender [type.tag]).2 else sender)
      (bytes ++ encodeTag flags type) := by
    unfold encodeTag at fitsTag ⊢
    by_cases typed : flags.typeInfo
    · rw [if_pos typed] at fitsTag
      rw [if_pos typed, if_pos typed]
      exact appends.step _ _ _ added fitsTag
    · rw [if_neg typed, if_neg typed, append_nil]
      exact added
  have annotated : ∀ sender, Added sender (bytes ++ encodeTag flags type) → Added
        (if hasLen type then
          (addData sender (if flags.byteOrder then shuffle (toMem 4 size)
            else toMem 4 size)).2
        else sender)
        (bytes ++ encodeTag flags type ++ encodeLength flags type size) := by
    intro sender added
    unfold encodeLength at fitsLength ⊢
    by_cases sized : hasLen type
    · rw [if_pos sized] at fitsLength
      rw [if_pos sized, if_pos sized]
      exact appends.step _ _ _ added fitsLength
    · rw [if_neg sized, if_neg sized, append_nil]
      exact added
  have complete := appends.step _ _ _ (annotated _ tagged) fits
  unfold encodeValue at complete ⊢
  simp only [addToBuf.addItem]
  split
  · next swapped =>
      rw [if_pos swapped] at complete
      exact complete
  · next plain =>
      rw [if_neg plain] at complete
      exact complete

end Psmgmt.Serial
