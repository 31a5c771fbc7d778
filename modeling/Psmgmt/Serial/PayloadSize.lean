import Psmgmt.Serial.RecvBuffer

/-!
# The size of a received payload

`__recvFragMsg()` with the sizes it computes, for messages that no sender of
this layer has built: the header may be cut, and its length byte may exceed what
follows it.  Sizes are unsigned, so that a difference below 0 wraps.
-/

namespace Psmgmt.Serial

open ByteMemory List Function

/-- `fetchFragHeader()`.  If the message ends before the size of the extra data,
the variable for it still holds `stale`. -/
def fetchFragHeaderAny (stale : UInt8) (msg : TypedMsg) : Option (UInt8 × Nat × Nat) :=
  match getTypedMsgBuf msg 0 1 with
  | some ([fragType], used) =>
    match getTypedMsgBuf msg used 2 with
    | some (fragNum, used) =>
      match getTypedMsgBuf msg used 1 with
      | some ([extraSize], used) => some (fragType, ofMem fragNum, used + extraSize.toNat)
      | _ => some (fragType, ofMem fragNum, used + stale.toNat)
    | none => none
  | _ => none

/-- The counts of a receive buffer. -/
structure RecvCount where
  used : Nat
  size : Nat
  nextFrag : Nat
  deriving DecidableEq, Repr

/-- What a call does: its result, the active receive buffers afterwards, the
number of bytes it takes for the fragment's payload and the length of the data
passed to the callback. -/
structure Receipt where
  result : Bool
  active : TaskId → Option RecvCount
  payload : Option Nat
  callback : Option Nat

/-- A message that is not taken. -/
def Receipt.refused (active : TaskId → Option RecvCount) : Receipt :=
  { result := false, active := active, payload := none, callback := none }

/-- The fragment number that is expected from a sender. -/
def expectedFrag (active : TaskId → Option RecvCount) (tid : TaskId) : Nat :=
  ((active tid).map RecvCount.nextFrag).getD 0

/-- `header.len - DDTypedBufMsgOffset - used` in an unsigned type of `bits`. -/
def payloadSize (bits : Nat) (msg : TypedMsg) (used : Nat) : Nat :=
  (((msg.len : Int) - ddTypedBufMsgOffset - used) % (2 ^ bits : Nat)).toNat

/-- The receive buffer after copying `toCopy` bytes to it. -/
def countPayload (found : Option RecvCount) (fragNum toCopy : Nat) :
    RecvCount :=
  let recvBuf := found.getD { used := 0, size := 0, nextFrag := 0 }
  let recvBuf :=
    if fragNum = 0 then
      { used := 0, size := defaultBufferSize, nextFrag := 0 }
    else recvBuf
  { used := (recvBuf.used + toCopy) % 2 ^ 64
    size :=
      if (recvBuf.used + toCopy) % 2 ^ 64 > recvBuf.size then recvBuf.size * 2
      else recvBuf.size
    nextFrag := nextFragNum recvBuf.nextFrag }

/-- `__recvFragMsg()`. -/
def recvFragSizes (stale : UInt8) (active : TaskId → Option RecvCount) (msg : TypedMsg) : Receipt :=
  match fetchFragHeaderAny stale msg with
  | none => .refused active
  | some (fragType, fragNum, used) =>
    if fragType ≠ fragmentPart ∧ fragType ≠ fragmentEnd then
      .refused active
    else if fragType = fragmentEnd ∧ fragNum = 0 then
      -- the message consists of just one fragment
      let s := payloadSize 32 msg used
      { result := true, active := active, payload := some s
        callback := some s }
    else if fragNum ≠ expectedFrag active msg.sender ∧ fragNum ≠ 0 then
      .refused active
    else
      let toCopy := payloadSize 64 msg used
      let recvBuf := countPayload (active msg.sender) fragNum toCopy
      if fragType = fragmentEnd then
        { result := true, active := update active msg.sender none
          payload := some toCopy, callback := some recvBuf.used }
      else
        { result := true
          active := update active msg.sender (some recvBuf)
          payload := some toCopy, callback := none }

/-! ## The header of any message -/

variable {msg : TypedMsg}

section Header

/-- The bytes behind the typed header. -/
def TypedMsg.present (msg : TypedMsg) : Nat := msg.len - ddTypedBufMsgOffset

def TypedMsg.fragType (msg : TypedMsg) : UInt8 := msg.buf.getD 0 0

def TypedMsg.fragNum (msg : TypedMsg) : Nat := ofMem ((msg.buf.drop 1).take 2)

def TypedMsg.extraSize (msg : TypedMsg) : UInt8 := msg.buf.getD 3 0

theorem take_one_drop {buf : List UInt8} {index : Nat}
    (inside : index < buf.length) :
    (buf.drop index).take 1 = [buf.getD index 0] := by
  rw [drop_eq_getElem_cons inside, take_succ_cons, take_zero,
    getD_eq_getElem?_getD, getElem?_eq_getElem inside]
  rfl

theorem getTypedMsgBuf_eq (header : ddTypedBufMsgOffset ≤ msg.len)
    (used size : Nat) :
    getTypedMsgBuf msg used size =
      if size + used ≤ msg.present then
        some ((msg.buf.drop used).take size, used + size)
      else none := by
  have same : ((size + used + ddTypedBufMsgOffset : Int) ≤ msg.len) ↔
      size + used ≤ msg.present := by
    unfold TypedMsg.present
    omega
  simp only [getTypedMsgBuf, same]

theorem fetchFragHeaderAny_eq (stale : UInt8) (started : msg.Started) :
    fetchFragHeaderAny stale msg =
      if msg.present < 3 then none
      else some (msg.fragType, msg.fragNum,
        if msg.present = 3 then 3 + stale.toNat
        else 4 + msg.extraSize.toNat) := by
  have room : 4 ≤ msg.buf.length := by
    rw [started.capacity]
    decide
  have first := take_one_drop (show 0 < msg.buf.length by omega)
  have fourth := take_one_drop (show 3 < msg.buf.length by omega)
  rw [drop_zero] at first
  unfold fetchFragHeaderAny
  simp only [getTypedMsgBuf_eq started.header]
  by_cases one : 1 ≤ msg.present
  · by_cases three : 3 ≤ msg.present
    · by_cases four : 4 ≤ msg.present
      · simp [one, three, four, first, fourth, show ¬ msg.present < 3 by omega,
          show msg.present ≠ 3 by omega, TypedMsg.fragType, TypedMsg.fragNum,
          TypedMsg.extraSize]
      · have exact_three : msg.present = 3 := by omega
        simp [exact_three, first, TypedMsg.fragType, TypedMsg.fragNum]
    · simp [one, three, first, show msg.present < 3 by omega]
  · simp [one, show msg.present < 3 by omega]

end Header

/-! ## What is taken for payload -/

/-- The message is refused, or what is taken for its payload is exactly what
follows the header. -/
def Contained (stale : UInt8) (active : TaskId → Option RecvCount) (msg : TypedMsg) : Prop :=
  ((recvFragSizes stale active msg).result = false ∧
      (recvFragSizes stale active msg).callback = none ∧
      (recvFragSizes stale active msg).payload = none ∧
      (recvFragSizes stale active msg).active = active) ∨
    ((recvFragSizes stale active msg).result = true ∧ ∃ payload : Nat,
        (payload : Int) = (msg.len : Int) - ddTypedBufMsgOffset - 4 - (msg.extraSize.toNat : Int) ∧
          (recvFragSizes stale active msg).payload = some payload ∧ payload ≤ msg.present)

/-- A message that is refused before its payload is looked at. -/
def Refused (active : TaskId → Option RecvCount) (msg : TypedMsg) : Prop :=
  msg.present < 3 ∨ (msg.fragType ≠ fragmentPart ∧ msg.fragType ≠ fragmentEnd) ∨
    (msg.fragNum ≠ 0 ∧ msg.fragNum ≠ expectedFrag active msg.sender)

theorem recvFragSizes_refused (stale : UInt8) {active : TaskId → Option RecvCount}
    (started : msg.Started) (refused : Refused active msg) :
    recvFragSizes stale active msg = .refused active := by
  unfold recvFragSizes
  rw [fetchFragHeaderAny_eq stale started]
  by_cases short : msg.present < 3
  · simp [short]
  · simp only [short, if_false]
    rcases refused with missing | strange | late
    · exact absurd missing short
    · rw [if_pos strange]
    · split
      · rfl
      · rw [if_neg (fun single => late.1 single.2), if_pos ⟨late.2, late.1⟩]

/-- What another message does: it is taken, with the difference of the lengths
for its payload. -/
theorem recvFragSizes_taken (stale : UInt8) {active : TaskId → Option RecvCount}
    (started : msg.Started) (taken : ¬ Refused active msg) :
    ∃ bits, 32 ≤ bits ∧
      (recvFragSizes stale active msg).result = true ∧
      (recvFragSizes stale active msg).payload = some
        (payloadSize bits msg
          (if msg.present = 3 then 3 + stale.toNat
          else 4 + msg.extraSize.toNat)) := by
  simp only [Refused, not_or] at taken
  rcases taken with ⟨enough, known, expected⟩
  have ordered : ¬ (msg.fragNum ≠ expectedFrag active msg.sender ∧
      msg.fragNum ≠ 0) := fun late => expected ⟨late.2, late.1⟩
  unfold recvFragSizes
  rw [fetchFragHeaderAny_eq stale started]
  simp only [enough, if_false]
  rw [if_neg known]
  by_cases single : msg.fragType = fragmentEnd ∧ msg.fragNum = 0
  · rw [if_pos single]
    exact ⟨32, le_rfl, rfl, rfl⟩
  · rw [if_neg single, if_neg ordered]
    refine ⟨64, by decide, ?_⟩
    split
    · exact ⟨rfl, rfl⟩
    · exact ⟨rfl, rfl⟩

/-- A difference that is not below 0 does not wrap. -/
theorem payloadSize_eq {bits used : Nat} (wide : 32 ≤ bits)
    (started : msg.Started) (inside : used ≤ msg.present) :
    payloadSize bits msg used = msg.present - used := by
  have header := started.header
  have small : msg.present ≤ bufTypedMsgSize := started.inside
  have limit : 2 ^ 32 ≤ 2 ^ bits := Nat.pow_le_pow_right (by decide) wide
  have bound : bufTypedMsgSize < 2 ^ 32 := by decide
  have difference : (msg.len : Int) - ddTypedBufMsgOffset - used =
      ((msg.present - used : Nat) : Int) := by
    unfold TypedMsg.present at *
    omega
  unfold payloadSize
  rw [difference]
  norm_cast
  exact Nat.mod_eq_of_lt (by omega)

/-- No byte outside of a message is taken for its payload exactly if the message
is refused or its header lies within it. -/
theorem contained_iff (stale : UInt8) (active : TaskId → Option RecvCount)
    (msg : TypedMsg) (started : msg.Started) :
    Contained stale active msg ↔ Refused active msg ∨ 4 + msg.extraSize.toNat ≤ msg.present := by
  have header := started.header
  by_cases refused : Refused active msg
  · have same := recvFragSizes_refused stale started refused
    apply iff_of_true
    · left
      rw [same]
      exact ⟨rfl, rfl, rfl, rfl⟩
    · exact .inl refused
  · rcases recvFragSizes_taken stale started refused with
      ⟨bits, wide, result, payload⟩
    constructor
    · rintro (⟨failed, _⟩ | ⟨_, size, exact_size, _⟩)
      · rw [result] at failed
        exact absurd failed (by decide)
      · right
        unfold TypedMsg.present
        omega
    · rintro (old | inside)
      · exact absurd old refused
      · right
        rw [if_neg (by omega), payloadSize_eq wide started inside] at payload
        refine ⟨result, _, ?_, payload, Nat.sub_le _ _⟩
        unfold TypedMsg.present at *
        omega

/-- A message of one byte of payload. -/
def smallMsg (extraSize : UInt8) : TypedMsg :=
  { headType := 0, len := ddTypedBufMsgOffset + 5, sender := ⟨0, 7⟩
    dest := ⟨0, 8⟩, type := 0
    buf := [fragmentEnd, 0, 0, extraSize, 42] ++ List.replicate (bufTypedMsgSize - 5) 0 }

theorem smallMsg_started (extraSize : UInt8) : (smallMsg extraSize).Started := by
  constructor
  · exact Nat.le_add_right _ _
  · simp only [smallMsg, length_append, length_replicate, length_cons, length_nil]
    decide
  · simp only [smallMsg]
    decide

theorem contained_iff_small : Contained 0 (fun _ => none) (smallMsg 0) :=
  (contained_iff 0 (fun _ => none) (smallMsg 0) (smallMsg_started 0)).2 (.inr (by decide +kernel))

/-- Two bytes of extra data are announced, one is there: the callback is told of
4 GiB less one byte. -/
theorem not_contained : ¬ ∀ (stale : UInt8) (active : TaskId → Option RecvCount) (msg : TypedMsg),
      msg.Started → Contained stale active msg := by
  intro every
  rcases every 0 (fun _ => none) (smallMsg 2) (smallMsg_started 2) with
    ⟨failed, _⟩ | ⟨_, payload, exact_size, _⟩
  · exact absurd failed (by decide +kernel)
  · have extra : (smallMsg 2).extraSize.toNat = 2 := rfl
    rw [extra] at exact_size
    simp only [smallMsg] at exact_size
    omega

end Psmgmt.Serial
