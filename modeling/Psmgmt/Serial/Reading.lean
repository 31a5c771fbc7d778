import Psmgmt.Serial.DataBuffer

/-!
# Reading arbitrary bytes

The readers of `psserial.c` with all they are called with: memory that may be
missing and allocations that may fail.  Each call notes which bytes of the
buffer it copies.
-/

namespace Psmgmt.Serial

open ByteMemory List Option

/-! ## The readers -/

/-- The size of an object in memory, at most `PTRDIFF_MAX`. -/
abbrev ObjSize := { size : Nat // size < 2 ^ 63 }

/-- What a reader does: its result, the bytes it stores, the buffer after it,
and the offsets and lengths it copies from. -/
structure Outcome where
  ok : Bool
  val : List UInt8
  data : DataBuffer
  copied : List (Nat × Nat)

/-- The call fails without reading. -/
def Outcome.failed (data : DataBuffer) : Outcome := ⟨false, [], data, []⟩

/-- `PSdbSkip()`. -/
def psdbSkip (data : DataBuffer) (num : Nat) : Outcome :=
  if data.unpackErr.isSome then .failed data
  else if num > data.getAvail then .failed (data.fail .insuf)
  else
    ⟨true, [], { data with unpackPtr := data.unpackPtr.map (· + num) }, []⟩

/-- `PSdbRewind()`. -/
def psdbRewind (data : DataBuffer) : DataBuffer :=
  { data with unpackPtr := data.unpackPtr.map (fun _ => 0), unpackErr := none }

/-- `PSdbClearBuf()`. -/
def psdbClearBuf (data : DataBuffer) : DataBuffer := psdbRewind { data with buf := [] }

/-- The type tag that `verifyTypeInfo()` reads. -/
def tagRead (flags : Flags) (data : DataBuffer) : List (Nat × Nat) :=
  if flags.typeInfo then [(data.offset, 1)] else []

/-- `getFromBuf()`; `val` tells whether there is memory to store to. -/
def readFromBuf (flags : Flags) (data : DataBuffer) (val : Bool)
    (type : DataType) (size : Nat) : Outcome :=
  if data.unpackPtr.isNone then .failed (data.fail .param)
  else if !val then .failed (data.fail .param)
  else
    match verifyDataBuf flags data size true with
    | (false, data) => .failed data
    | (true, data) =>
      let tag := tagRead flags data
      match verifyTypeInfo flags data type with
      | (false, data) => ⟨false, [], data, tag⟩
      | (true, data) =>
        let copied := tag ++ [(data.offset, size)]
        let bytes := data.peek size
        if flags.byteOrder ∧ type ≠ .mem then
          if size = 1 ∨ size = 2 ∨ size = 4 ∨ size = 8 then
            ⟨true, shuffle bytes, data.advance size, copied⟩
          else ⟨false, bytes, data.fail .conv, copied⟩
        else ⟨true, bytes, data.advance size, copied⟩

/-- The loop of `getArrayFromBuf()`. -/
def readElements (flags : Flags) (type : DataType) (size : Nat) : Nat → DataBuffer → Outcome
  | 0, data => ⟨true, [], data, []⟩
  | count + 1, data =>
    let first := readFromBuf flags data true type size
    if first.ok then
      let rest := readElements flags type size count first.data
      ⟨rest.ok, first.val ++ rest.val, rest.data,
        first.copied ++ rest.copied⟩
    else first

/-- `getArrayFromBuf()`; `mem` tells whether there is memory left. -/
def readArrayFromBuf (flags : Flags) (data : DataBuffer) (type : DataType)
    (size : Nat) (mem : Bool) : Outcome :=
  let len := readFromBuf flags data true .uint32 4
  if !len.ok then len
  else if ofMem len.val = 0 then len
  else if !mem then { len with ok := false, data := len.data.fail .mem }
  else
    let rest := readElements flags type size (ofMem len.val) len.data
    ⟨rest.ok, rest.val, rest.data, len.copied ++ rest.copied⟩

/-- `getMemFromBuf()`; `dest` tells whether a destination is given, `mem`
whether there is memory left. -/
def readMemFromBuf (flags : Flags) (data : DataBuffer) (dest : Bool)
    (destSize : Nat) (type : DataType) (mem : Bool) : Outcome :=
  if data.unpackPtr.isNone then .failed (data.fail .param)
  else if destSize ≠ 0 ∧ !dest then .failed (data.fail .param)
  else
    match verifyDataBuf flags data 4 true with
    | (false, data) => .failed data
    | (true, data) =>
      let tag := tagRead flags data
      match verifyTypeInfo flags data type with
      | (false, data) => ⟨false, [], data, tag⟩
      | (true, data) =>
        let len := data.peek 4
        let copied := tag ++ [(data.offset, 4)]
        let data := data.advance 4
        let l := ofMem (if flags.byteOrder then shuffle len else len)
        match verifyDataBuf flags data l false with
        | (false, data) => ⟨false, [], data, copied⟩
        | (true, data) =>
          if dest ∧ l ≥ destSize then
            ⟨false, [], data.fail .bufsize, copied⟩
          else if !dest ∧ !mem then
            ⟨false, [], data.fail .mem, copied⟩
          else
            ⟨true, terminate type (data.peek l), data.advance l, copied ++ [(data.offset, l)]⟩

/-- The loop of `__getStringArrayM()`, with the memory for each string. -/
def readStrings (flags : Flags) (mem : Nat → Bool) : Nat → DataBuffer → Outcome
  | 0, data => ⟨true, [], data, []⟩
  | count + 1, data =>
    let first := readMemFromBuf flags data false 0 .string (mem count)
    if first.data.unpackErr.isSome then { first with ok := false }
    else
      let rest := readStrings flags mem count first.data
      ⟨rest.ok, first.val ++ rest.val, rest.data,
        first.copied ++ rest.copied⟩

/-- `__getStringArrayM()`; `array` tells whether there is a place for the
result. -/
def readStringArrayM (flags : Flags) (data : DataBuffer) (array mem : Bool)
    (mems : Nat → Bool) : Outcome :=
  if !array then .failed (data.fail .param)
  else
    let len := readFromBuf flags data true .uint32 4
    if !len.ok then len
    else if ofMem len.val = 0 then len
    else if !mem then { len with ok := false, data := len.data.fail .mem }
    else
      let rest := readStrings flags mems (ofMem len.val) len.data
      ⟨rest.ok, rest.val, rest.data, len.copied ++ rest.copied⟩

/-! ## Calls -/

/-- A call of a reader. -/
inductive Read where
  | skip (num : Nat)
  | fromBuf (val : Bool) (type : DataType) (size : ObjSize)
  | arrayFromBuf (type : DataType) (size : ObjSize) (mem : Bool)
  | memFromBuf (dest : Bool) (destSize : Nat) (type : DataType) (mem : Bool)
  | stringArrayM (array mem : Bool) (mems : Nat → Bool)

def Read.run (flags : Flags) (data : DataBuffer) : Read → Outcome
  | .skip num => psdbSkip data num
  | .fromBuf val type size => readFromBuf flags data val type size
  | .arrayFromBuf type size mem => readArrayFromBuf flags data type size mem
  | .memFromBuf dest destSize type mem => readMemFromBuf flags data dest destSize type mem
  | .stringArrayM array mem mems => readStringArrayM flags data array mem mems

/-- What is done with a buffer; the flags may change at any time. -/
inductive Use where
  | read (flags : Flags) (call : Read)
  | rewind
  | clearBuf

def Use.run (data : DataBuffer) : Use → DataBuffer
  | .read flags call => (call.run flags data).data
  | .rewind => psdbRewind data
  | .clearBuf => psdbClearBuf data

/-- The call has all it needs: memory in the buffer, and for what is read. -/
def Read.Proper (data : DataBuffer) : Read → Prop
  | .skip _ => True
  | .fromBuf val _ _ => data.unpackPtr.isSome = true ∧ val = true
  | .arrayFromBuf _ _ _ => data.unpackPtr.isSome = true
  | .memFromBuf dest destSize _ _ => data.unpackPtr.isSome = true ∧ (destSize = 0 ∨ dest = true)
  | .stringArrayM array _ _ => data.unpackPtr.isSome = true ∧ array = true

/-! ## The checks before reading -/

section Checks

variable {flags : Flags} {data after : DataBuffer} {size : Nat} {typed : Bool}
  {type : DataType}

theorem verifyDataBuf_passed
    (verified : verifyDataBuf flags data size typed = (true, after)) :
    after = data ∧ data.unpackErr = none ∧
      (if typed ∧ flags.typeInfo then 1 + size else size) ≤ data.getAvail := by
  unfold verifyDataBuf at verified
  split at verified
  · simp at verified
  · rename_i noError
    by_cases short : (if typed ∧ flags.typeInfo then 1 + size else size) > data.getAvail
    · rw [if_pos short] at verified
      simp at verified
    · rw [if_neg short] at verified
      exact ⟨(Prod.mk.inj verified).2.symm, by simpa using noError, Nat.not_lt.mp short⟩

theorem verifyDataBuf_refused
    (verified : verifyDataBuf flags data size typed = (false, after)) :
    (after = data ∧ data.unpackErr ≠ none) ∨
      (data.unpackErr = none ∧ after = data.fail .insuf) := by
  unfold verifyDataBuf at verified
  split at verified
  · rename_i error
    left
    refine ⟨(Prod.mk.inj verified).2.symm, ?_⟩
    intro none
    rw [none] at error
    simp at error
  · rename_i noError
    right
    by_cases short : (if typed ∧ flags.typeInfo then 1 + size else size) > data.getAvail
    · rw [if_pos short] at verified
      exact ⟨by simpa using noError, (Prod.mk.inj verified).2.symm⟩
    · rw [if_neg short] at verified
      simp at verified

def DataBuffer.afterTag (flags : Flags) (data : DataBuffer) : DataBuffer :=
  if flags.typeInfo then data.advance 1 else data

theorem verifyTypeInfo_passed
    (verified : verifyTypeInfo flags data type = (true, after)) :
    after = data.afterTag flags := by
  unfold verifyTypeInfo at verified
  unfold DataBuffer.afterTag
  split at verified
  · rename_i untyped
    rw [if_neg (by simpa using untyped)]
    exact (Prod.mk.inj verified).2.symm
  · rename_i isTyped
    rw [if_pos (by simpa using isTyped)]
    dsimp only at verified
    split at verified
    · simp at verified
    · exact (Prod.mk.inj verified).2.symm

theorem verifyTypeInfo_refused
    (verified : verifyTypeInfo flags data type = (false, after)) :
    after = (data.afterTag flags).fail .type := by
  unfold verifyTypeInfo at verified
  unfold DataBuffer.afterTag
  split at verified
  · simp at verified
  · rename_i isTyped
    rw [if_pos (by simpa using isTyped)]
    dsimp only at verified
    split at verified
    · exact (Prod.mk.inj verified).2.symm
    · simp at verified

end Checks

/-! ## What a call leaves -/

/-- The call stays inside of the buffer. -/
structure Outcome.Inside (before : DataBuffer) (outcome : Outcome) : Prop where
  buf : outcome.data.buf = before.buf
  range : outcome.data.offset ≤ before.buf.length
  copied : ∀ part ∈ outcome.copied, part.1 + part.2 ≤ before.buf.length

section Inside

variable {flags : Flags} {data before : DataBuffer} {size : Nat}
  {type : DataType} {outcome rest : Outcome}

theorem inside_failed {err : SerialErr}
    (range : data.offset ≤ data.buf.length) :
    (Outcome.failed (data.fail err)).Inside data :=
  ⟨rfl, range, fun _ member => nomatch member⟩

theorem inside_unchanged (range : data.offset ≤ data.buf.length) :
    (Outcome.failed data).Inside data :=
  ⟨rfl, range, fun _ member => nomatch member⟩

theorem Outcome.Inside.fail {err : SerialErr} (inside : outcome.Inside before) :
    { outcome with ok := false, data := outcome.data.fail err }.Inside before :=
  ⟨inside.buf, inside.range, inside.copied⟩

theorem Outcome.Inside.unset (inside : outcome.Inside before) :
    { outcome with ok := false }.Inside before :=
  ⟨inside.buf, inside.range, inside.copied⟩

/-- One call after the other. -/
theorem Outcome.Inside.trans (first : outcome.Inside before)
    (second : rest.Inside outcome.data) (ok : Bool) (val : List UInt8) :
    Outcome.Inside before ⟨ok, val, rest.data, outcome.copied ++ rest.copied⟩ := by
  refine ⟨second.buf.trans first.buf, ?_, ?_⟩
  · rw [← first.buf]
    exact second.range
  · intro part member
    rcases mem_append.mp member with early | late
    · exact first.copied part early
    · rw [← first.buf]
      exact second.copied part late

theorem offset_advance (data : DataBuffer) (size : Nat) :
    (data.advance size).offset = data.offset + size := rfl

theorem offset_afterTag (flags : Flags) (data : DataBuffer) :
    (data.afterTag flags).offset = data.offset + if flags.typeInfo then 1 else 0 := by
  unfold DataBuffer.afterTag
  split <;> rfl

theorem buf_afterTag (flags : Flags) (data : DataBuffer) :
    (data.afterTag flags).buf = data.buf := by
  unfold DataBuffer.afterTag
  split <;> rfl

theorem tagRead_inside {bound : Nat}
    (enough : data.offset + (if flags.typeInfo then 1 else 0) ≤ bound) :
    ∀ part ∈ tagRead flags data, part.1 + part.2 ≤ bound := by
  intro part member
  unfold tagRead at member
  split at member
  · rename_i isTyped
    rw [if_pos isTyped] at enough
    rw [mem_singleton.mp member]
    exact enough
  · exact absurd member not_mem_nil

/-- What the check before a typed value has made sure of. -/
theorem room_of_verified (range : data.offset ≤ data.buf.length)
    (enough : (if true ∧ flags.typeInfo then 1 + size else size) ≤ data.getAvail) :
    data.offset + (if flags.typeInfo then 1 else 0) + size ≤ data.buf.length := by
  unfold DataBuffer.getAvail at enough
  split at enough
  · rename_i isTyped
    rw [if_pos isTyped.2]
    omega
  · rename_i untyped
    rw [if_neg (by simpa using untyped)]
    omega

end Inside

/-! ## The readers stay inside -/

section Readers

variable (flags : Flags) {data : DataBuffer}

theorem psdbSkip_inside (num : Nat) (range : data.offset ≤ data.buf.length) :
    (psdbSkip data num).Inside data := by
  unfold psdbSkip
  split
  · exact inside_unchanged range
  · split
    · exact inside_failed range
    · rename_i enough
      refine ⟨rfl, ?_, fun _ member => nomatch member⟩
      unfold DataBuffer.getAvail at enough
      unfold DataBuffer.offset at enough range ⊢
      cases pointer : data.unpackPtr with
      | none => simp
      | some at_ =>
        rw [pointer] at enough range
        simp only [getD_some, map_some] at enough range ⊢
        omega

theorem readFromBuf_inside (val : Bool) (type : DataType) (size : Nat)
    (range : data.offset ≤ data.buf.length) :
    (readFromBuf flags data val type size).Inside data := by
  unfold readFromBuf
  split
  · exact inside_failed range
  · split
    · exact inside_failed range
    · rcases checked : verifyDataBuf flags data size true with ⟨_ | _, after⟩
      · rcases verifyDataBuf_refused checked with ⟨rfl, -⟩ | ⟨-, rfl⟩
        · exact inside_unchanged range
        · exact inside_failed range
      · obtain ⟨rfl, -, enough⟩ := verifyDataBuf_passed checked
        have room := room_of_verified range enough
        have tag := @tagRead_inside flags after after.buf.length (by omega)
        rcases typed : verifyTypeInfo flags after type with ⟨_ | _, behind⟩
        · dsimp only
          rw [typed]
          obtain rfl := verifyTypeInfo_refused typed
          refine ⟨buf_afterTag flags after, ?_, tag⟩
          change (after.afterTag flags).offset ≤ after.buf.length
          rw [offset_afterTag]
          omega
        · dsimp only
          rw [typed]
          obtain rfl := verifyTypeInfo_passed typed
          have copied : ∀ part ∈ tagRead flags after ++ [((after.afterTag flags).offset, size)],
              part.1 + part.2 ≤ after.buf.length := by
            intro part member
            rcases mem_append.mp member with isTag | bytes
            · exact tag part isTag
            · rw [mem_singleton.mp bytes, offset_afterTag]
              exact room
          have good : ∀ ok bytes, Outcome.Inside after ⟨ok, bytes,
              (after.afterTag flags).advance size, tagRead flags after ++
                [((after.afterTag flags).offset, size)]⟩ := by
            intro ok bytes
            refine ⟨buf_afterTag flags after, ?_, copied⟩
            change ((after.afterTag flags).advance size).offset ≤ _
            rw [offset_advance, offset_afterTag]
            exact room
          dsimp only
          split
          · split
            · exact good _ _
            · refine ⟨buf_afterTag flags after, ?_, copied⟩
              change (after.afterTag flags).offset ≤ after.buf.length
              rw [offset_afterTag]
              omega
          · exact good _ _

theorem readElements_inside (type : DataType) (size count : Nat)
    (range : data.offset ≤ data.buf.length) :
    (readElements flags type size count data).Inside data := by
  induction count generalizing data with
  | zero => exact ⟨rfl, range, fun _ member => nomatch member⟩
  | succ count induction =>
    have first := readFromBuf_inside flags true type size range
    rw [readElements]
    dsimp only
    split
    · apply first.trans
      apply induction
      rw [first.buf]
      exact first.range
    · exact first

theorem readArrayFromBuf_inside (type : DataType) (size : Nat) (mem : Bool)
    (range : data.offset ≤ data.buf.length) :
    (readArrayFromBuf flags data type size mem).Inside data := by
  have len := readFromBuf_inside flags true .uint32 4 range
  unfold readArrayFromBuf
  dsimp only
  split
  · exact len
  · split
    · exact len
    · split
      · exact len.fail
      · apply len.trans
        apply readElements_inside
        rw [len.buf]
        exact len.range

theorem readMemFromBuf_inside (dest : Bool) (destSize : Nat)
    (type : DataType) (mem : Bool) (range : data.offset ≤ data.buf.length) :
    (readMemFromBuf flags data dest destSize type mem).Inside data := by
  unfold readMemFromBuf
  split
  · exact inside_failed range
  · split
    · exact inside_failed range
    · rcases checked : verifyDataBuf flags data 4 true with ⟨_ | _, after⟩
      · rcases verifyDataBuf_refused checked with ⟨rfl, -⟩ | ⟨-, rfl⟩
        · exact inside_unchanged range
        · exact inside_failed range
      · obtain ⟨rfl, -, enough⟩ := verifyDataBuf_passed checked
        have room := room_of_verified range enough
        have tag := @tagRead_inside flags after after.buf.length (by omega)
        rcases typed : verifyTypeInfo flags after type with ⟨_ | _, behind⟩
        · dsimp only
          rw [typed]
          obtain rfl := verifyTypeInfo_refused typed
          refine ⟨buf_afterTag flags after, ?_, tag⟩
          change (after.afterTag flags).offset ≤ after.buf.length
          rw [offset_afterTag]
          omega
        · dsimp only
          rw [typed]
          obtain rfl := verifyTypeInfo_passed typed
          dsimp only
          generalize ofMem (if flags.byteOrder = true
            then shuffle ((after.afterTag flags).peek 4)
            else (after.afterTag flags).peek 4) = l
          have copied : ∀ part ∈ tagRead flags after ++ [((after.afterTag flags).offset, 4)], part.1
              + part.2 ≤ after.buf.length := by
            intro part member
            rcases mem_append.mp member with isTag | bytes
            · exact tag part isTag
            · rw [mem_singleton.mp bytes, offset_afterTag]
              exact room
          have behindLen : ((after.afterTag flags).advance 4).offset ≤ after.buf.length := by
            rw [offset_advance, offset_afterTag]
            exact room
          have same : ((after.afterTag flags).advance 4).buf = after.buf := buf_afterTag flags after
          split
          · rename_i failed
            rcases verifyDataBuf_refused failed with ⟨rfl, -⟩ | ⟨-, rfl⟩
            · exact ⟨same, behindLen, copied⟩
            · exact ⟨same, behindLen, copied⟩
          · rename_i passed
            obtain ⟨rfl, -, enough⟩ := verifyDataBuf_passed passed
            split
            · exact ⟨same, behindLen, copied⟩
            · split
              · exact ⟨same, behindLen, copied⟩
              · rw [if_neg (by simp), DataBuffer.getAvail, same] at enough
                refine ⟨same, ?_, ?_⟩
                · rw [offset_advance]
                  omega
                · intro part member
                  rcases mem_append.mp member with early | late
                  · exact copied part early
                  · rw [mem_singleton.mp late]
                    dsimp only
                    omega

theorem readStrings_inside (mem : Nat → Bool) (count : Nat)
    (range : data.offset ≤ data.buf.length) :
    (readStrings flags mem count data).Inside data := by
  induction count generalizing data with
  | zero => exact ⟨rfl, range, fun _ member => nomatch member⟩
  | succ count induction =>
    have first := readMemFromBuf_inside flags false 0 .string (mem count) range
    rw [readStrings]
    dsimp only
    split
    · exact first.unset
    · apply first.trans
      apply induction
      rw [first.buf]
      exact first.range

theorem readStringArrayM_inside (array mem : Bool) (mems : Nat → Bool)
    (range : data.offset ≤ data.buf.length) :
    (readStringArrayM flags data array mem mems).Inside data := by
  have len := readFromBuf_inside flags true .uint32 4 range
  unfold readStringArrayM
  split
  · exact inside_failed range
  · dsimp only
    split
    · exact len
    · split
      · exact len
      · split
        · exact len.fail
        · apply len.trans
          apply readStrings_inside
          rw [len.buf]
          exact len.range

theorem Read.run_inside (call : Read)
    (range : data.offset ≤ data.buf.length) :
    (call.run flags data).Inside data := by
  cases call with
  | skip num => exact psdbSkip_inside num range
  | fromBuf val type size => exact readFromBuf_inside flags val type size range
  | arrayFromBuf type size mem => exact readArrayFromBuf_inside flags type size mem range
  | memFromBuf dest destSize type mem =>
    exact readMemFromBuf_inside flags dest destSize type mem range
  | stringArrayM array mem mems => exact readStringArrayM_inside flags array mem mems range

end Readers

/-! ## After an error -/

section Failed

variable (flags : Flags) {data : DataBuffer} {err : SerialErr}

theorem verifyDataBuf_failed (size : Nat) (typed : Bool)
    (failed : data.unpackErr = some err) :
    verifyDataBuf flags data size typed = (false, data) := by
  rw [verifyDataBuf, if_pos (by rw [failed]; rfl)]

/-- After an error a call with all it needs leaves the buffer as it is; any
other call notes that a parameter is invalid. -/
structure Outcome.Refused (data : DataBuffer) (proper : Prop)
    (outcome : Outcome) : Prop where
  ok : outcome.ok = false
  copied : outcome.copied = []
  same : proper → outcome.data = data
  param : ¬proper → outcome.data = data.fail .param

theorem readFromBuf_failed (val : Bool) (type : DataType) (size : Nat)
    (failed : data.unpackErr = some err) :
    (readFromBuf flags data val type size).Refused data
      (data.unpackPtr.isSome = true ∧ val = true) := by
  unfold readFromBuf
  split
  · rename_i null
    refine ⟨rfl, rfl, ?_, fun _ => rfl⟩
    rintro ⟨pointer, -⟩
    rw [isNone_iff_eq_none] at null
    rw [null] at pointer
    simp at pointer
  · rename_i pointer
    split
    · rename_i missing
      refine ⟨rfl, rfl, ?_, fun _ => rfl⟩
      rintro ⟨-, isThere⟩
      rw [isThere] at missing
      simp at missing
    · rename_i isThere
      rw [verifyDataBuf_failed flags size true failed]
      refine ⟨rfl, rfl, fun _ => rfl, ?_⟩
      intro improper
      exfalso
      apply improper
      exact ⟨by simpa [isSome_iff_ne_none] using pointer, by simpa using isThere⟩

theorem readMemFromBuf_failed (dest : Bool) (destSize : Nat)
    (type : DataType) (mem : Bool) (failed : data.unpackErr = some err) :
    (readMemFromBuf flags data dest destSize type mem).Refused data
      (data.unpackPtr.isSome = true ∧ (destSize = 0 ∨ dest = true)) := by
  unfold readMemFromBuf
  split
  · rename_i null
    refine ⟨rfl, rfl, ?_, fun _ => rfl⟩
    rintro ⟨pointer, -⟩
    rw [isNone_iff_eq_none] at null
    rw [null] at pointer
    simp at pointer
  · rename_i pointer
    split
    · rename_i missing
      refine ⟨rfl, rfl, ?_, fun _ => rfl⟩
      rintro ⟨-, none | isThere⟩
      · exact absurd none missing.1
      · rw [isThere] at missing
        simp at missing
    · rename_i isThere
      rw [verifyDataBuf_failed flags 4 true failed]
      refine ⟨rfl, rfl, fun _ => rfl, ?_⟩
      intro improper
      exfalso
      apply improper
      refine ⟨by simpa [isSome_iff_ne_none] using pointer, ?_⟩
      by_cases none : destSize = 0
      · exact .inl none
      · right
        simpa [none] using isThere

/-- The readers that fetch a length first. -/
theorem Outcome.Refused.of_length {len : Outcome}
    (refused : len.Refused data (data.unpackPtr.isSome = true ∧ true = true)) :
    len.Refused data (data.unpackPtr.isSome = true) :=
  ⟨refused.ok, refused.copied, fun proper => refused.same ⟨proper, rfl⟩,
    fun improper => refused.param (fun proper => improper proper.1)⟩

theorem readArrayFromBuf_failed (type : DataType) (size : Nat) (mem : Bool)
    (failed : data.unpackErr = some err) :
    (readArrayFromBuf flags data type size mem).Refused data (data.unpackPtr.isSome = true) := by
  have len := (readFromBuf_failed flags true .uint32 4 failed).of_length
  unfold readArrayFromBuf
  dsimp only
  rw [if_pos (by rw [len.ok]; rfl)]
  exact len

theorem readStringArrayM_failed (array mem : Bool) (mems : Nat → Bool)
    (failed : data.unpackErr = some err) :
    (readStringArrayM flags data array mem mems).Refused data
      (data.unpackPtr.isSome = true ∧ array = true) := by
  have len := (readFromBuf_failed flags true .uint32 4 failed).of_length
  unfold readStringArrayM
  cases array with
  | false => exact ⟨rfl, rfl, fun proper => (nomatch proper.2), fun _ => rfl⟩
  | true =>
    rw [if_neg (by simp)]
    dsimp only
    rw [if_pos (by rw [len.ok]; rfl)]
    exact ⟨len.ok, len.copied, fun proper => len.same proper.1,
      fun improper => len.param (fun proper => improper ⟨proper, rfl⟩)⟩

theorem Read.run_failed (call : Read) (failed : data.unpackErr = some err) :
    (call.run flags data).Refused data (call.Proper data) := by
  cases call with
  | skip num =>
    have skipped : psdbSkip data num = .failed data := by
      rw [psdbSkip, if_pos (by rw [failed]; rfl)]
    change (psdbSkip data num).Refused data True
    rw [skipped]
    exact ⟨rfl, rfl, fun _ => rfl, fun improper => absurd trivial improper⟩
  | fromBuf val type size => exact readFromBuf_failed flags val type size failed
  | arrayFromBuf type size mem => exact readArrayFromBuf_failed flags type size mem failed
  | memFromBuf dest destSize type mem =>
    exact readMemFromBuf_failed flags dest destSize type mem failed
  | stringArrayM array mem mems => exact readStringArrayM_failed flags array mem mems failed

end Failed

/-! ## All uses of a buffer -/

/-- `PSdbNew()`, also without any memory. -/
def newBuffer : Option (List UInt8) → DataBuffer
  | none => { buf := [], unpackPtr := none, unpackErr := none }
  | some content => psdbNew content

/-- What is promised of one use: the cursor and all copies are inside of the
buffer, and after an error a call fails and changes nothing. -/
structure Safe (data : DataBuffer) (use : Use) : Prop where
  range : (use.run data).offset ≤ (use.run data).buf.length
  copied : ∀ flags call, use = .read flags call →
    ∀ part ∈ (call.run flags data).copied, part.1 + part.2 ≤ data.buf.length
  sticky : ∀ flags call, use = .read flags call → ∀ err, data.unpackErr = some err →
      (call.run flags data).ok = false ∧ (call.run flags data).data.unpackPtr = data.unpackPtr ∧
          (call.run flags data).data.unpackErr = some err

/-- No parameter is invalid once there is another error. -/
def Fits (data : DataBuffer) (use : Use) : Prop :=
  ∀ flags call, use = .read flags call →
    ∀ err, data.unpackErr = some err → err ≠ .param → call.Proper data

/-- All uses, one after the other, in the states they find. -/
def Throughout (property : DataBuffer → Use → Prop) : DataBuffer → List Use → Prop
  | _, [] => True
  | data, use :: uses => property data use ∧ Throughout property (use.run data) uses

section

variable {data : DataBuffer}

theorem Use.run_range (use : Use) (range : data.offset ≤ data.buf.length) :
    (use.run data).offset ≤ (use.run data).buf.length := by
  have rewound : ∀ data : DataBuffer, (psdbRewind data).offset = 0 := by
    intro data
    unfold psdbRewind DataBuffer.offset
    cases data.unpackPtr <;> rfl
  cases use with
  | read flags call =>
    have inside := call.run_inside flags range
    change (call.run flags data).data.offset ≤ (call.run flags data).data.buf.length
    rw [inside.buf]
    exact inside.range
  | rewind =>
    change (psdbRewind data).offset ≤ _
    rw [rewound]
    exact Nat.zero_le _
  | clearBuf =>
    change (psdbRewind _).offset ≤ _
    rw [rewound]
    exact Nat.zero_le _

theorem safe_iff_fits (use : Use) (range : data.offset ≤ data.buf.length) :
    Safe data use ↔ Fits data use := by
  constructor
  · intro safe flags call isRead err failed other
    by_contra improper
    have refused := call.run_failed flags failed
    have kept := (safe.sticky flags call isRead err failed).2.2
    rw [refused.param improper] at kept
    exact other (Option.some.inj kept).symm
  · intro fits
    refine ⟨use.run_range range, ?_, ?_⟩
    · intro flags call _ part member
      exact (call.run_inside flags range).copied part member
    · intro flags call isRead err failed
      have refused := call.run_failed flags failed
      by_cases proper : call.Proper data
      · rw [refused.same proper]
        exact ⟨refused.ok, rfl, failed⟩
      · rw [refused.param proper]
        refine ⟨refused.ok, rfl, ?_⟩
        have isParam : err = .param := by
          by_contra other
          exact proper (fits flags call isRead err failed other)
        rw [isParam]
        rfl

theorem throughout_safe_iff (uses : List Use)
    (range : data.offset ≤ data.buf.length) :
    Throughout Safe data uses ↔ Throughout Fits data uses := by
  induction uses generalizing data with
  | nil => exact Iff.rfl
  | cons use uses induction =>
    exact and_congr (safe_iff_fits use range) (induction (use.run_range range))

end

/-- Reading is safe and the first error stays exactly if no call after it has
an invalid parameter. -/
theorem reading_safe_iff (content : Option (List UInt8)) (uses : List Use) :
    Throughout Safe (newBuffer content) uses ↔ Throughout Fits (newBuffer content) uses := by
  apply throughout_safe_iff
  cases content with
  | none => exact Nat.zero_le _
  | some content => exact Nat.zero_le _

/-- A buffer without memory forgets that there was too little data. -/
theorem not_reading_safe : ¬∀ (content : Option (List UInt8)) (uses : List Use),
      Throughout Safe (newBuffer content) uses := by
  intro safe
  have first := safe none
    [.read ⟨true, true⟩ (.skip 1), .read ⟨true, true⟩ (.fromBuf true .uint8 ⟨1, by norm_num⟩)]
  have second := first.2.1.sticky _ _ rfl .insuf rfl
  exact absurd second.2.2 (by decide)

end Psmgmt.Serial
