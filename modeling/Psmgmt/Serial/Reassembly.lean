import Psmgmt.Serial.RecvBuffer

/-!
# Reassembly is independent for each sender

The receive buffers of one sender and the callbacks for its messages depend on
that sender's fragments only, however they are interleaved with others.  The
second half tells what a single well-formed fragment does.
-/

namespace Psmgmt.Serial

open ByteMemory List Option

/-- The active receive buffers of one sender. -/
def ownBufs (tid : TaskId) (bufs : List RecvBuf) : List RecvBuf :=
  bufs.filter (fun recvBuf => recvBuf.tid = tid)

variable {tid : TaskId} {bufs : List RecvBuf} {msg : TypedMsg} {fragNum : Nat}
  {payload collected : List UInt8}

theorem findRecvBuf_tid {recvBuf : RecvBuf}
    (found : findRecvBuf tid bufs = some recvBuf) : recvBuf.tid = tid := by
  have satisfied := find?_some found
  simpa using satisfied

attribute [local simp] ownBufs

theorem findRecvBuf_ownBufs (tid : TaskId) (bufs : List RecvBuf) :
    findRecvBuf tid (ownBufs tid bufs) = findRecvBuf tid bufs := by
  induction bufs with
  | nil => rfl
  | cons first rest induction =>
    by_cases own : first.tid = tid
    · simp [findRecvBuf, own]
    · simp only [ownBufs, findRecvBuf] at induction
      simp [findRecvBuf, own]

variable (recvBuf : RecvBuf)

attribute [local simp] setRecvBuf

theorem findRecvBuf_setRecvBuf (bufs : List RecvBuf) :
    findRecvBuf recvBuf.tid (setRecvBuf recvBuf bufs) = some recvBuf := by
  induction bufs with
  | nil => simp [findRecvBuf]
  | cons first rest induction =>
    by_cases own : first.tid = recvBuf.tid
    · simp [findRecvBuf, own]
    · simpa [findRecvBuf, own] using induction

theorem ownBufs_setRecvBuf (bufs : List RecvBuf) : ownBufs recvBuf.tid (setRecvBuf recvBuf bufs) =
      setRecvBuf recvBuf (ownBufs recvBuf.tid bufs) := by
  induction bufs with
  | nil => simp
  | cons first rest induction =>
    by_cases own : first.tid = recvBuf.tid
    · simp [own]
    · simpa [own] using induction

theorem ownBufs_setRecvBuf_other {recvBuf : RecvBuf} (other : recvBuf.tid ≠ tid)
    (bufs : List RecvBuf) :
    ownBufs tid (setRecvBuf recvBuf bufs) = ownBufs tid bufs := by
  induction bufs with
  | nil => simp [other]
  | cons first rest induction =>
    by_cases same : first.tid = recvBuf.tid
    · have firstOther : first.tid ≠ tid := by rwa [same]
      simp [same, other]
    · simp only [ownBufs] at induction
      simp [same, filter_cons, induction]

theorem ownBufs_putRecvBuf (tid : TaskId) (bufs : List RecvBuf) :
    ownBufs tid (putRecvBuf tid bufs) = putRecvBuf tid (ownBufs tid bufs) := by
  induction bufs with
  | nil => rfl
  | cons first rest induction =>
    by_cases own : first.tid = tid
    · simp [putRecvBuf, own]
    · simpa [putRecvBuf, own] using induction

theorem ownBufs_putRecvBuf_other {sender : TaskId} (other : sender ≠ tid)
    (bufs : List RecvBuf) :
    ownBufs tid (putRecvBuf sender bufs) = ownBufs tid bufs := by
  induction bufs with
  | nil => rfl
  | cons first rest induction =>
    by_cases theirs : first.tid = sender
    · have firstOther : first.tid ≠ tid := by rwa [theirs]
      simp [putRecvBuf, theirs, other]
    · simp only [putRecvBuf, ownBufs] at induction
      simp [putRecvBuf, theirs, filter_cons, induction]

theorem growRecvBuf_tid (toCopy : Nat) : (growRecvBuf recvBuf toCopy).tid = recvBuf.tid := by
  unfold growRecvBuf
  split <;> rfl

theorem growRecvBuf_buf (toCopy : Nat) : (growRecvBuf recvBuf toCopy).buf = recvBuf.buf := by
  unfold growRecvBuf
  split <;> rfl

theorem growRecvBuf_nextFrag (toCopy : Nat) :
    (growRecvBuf recvBuf toCopy).nextFrag = recvBuf.nextFrag := by
  unfold growRecvBuf
  split <;> rfl

theorem copyPayload_tid {found : Option RecvBuf} {tid : TaskId}
    (own : ∀ recvBuf ∈ found, recvBuf.tid = tid) (fragNum toCopy : Nat) (payload : List UInt8) :
    (copyPayload found tid fragNum toCopy payload).tid = tid := by
  have base : (found.getD { tid := tid, buf := [], size := 0, nextFrag := 0 }).tid = tid := by
    cases found with
    | none => rfl
    | some recvBuf => exact own recvBuf rfl
  by_cases first : fragNum = 0
  · simpa [copyPayload, first, growRecvBuf_tid] using base
  · simpa [copyPayload, first, growRecvBuf_tid] using base

/-- Handling a message commutes with restricting the receive buffers to those
of its sender. -/
theorem recvFragMsg_ownBufs (bufs : List RecvBuf) (msg : TypedMsg) :
    recvFragMsg (ownBufs msg.sender bufs) msg =
      ((recvFragMsg bufs msg).1,
        ownBufs msg.sender (recvFragMsg bufs msg).2.1,
        (recvFragMsg bufs msg).2.2) := by
  rcases header : fetchFragHeader msg with _ | ⟨fragType, fragNum, used⟩
  · simp only [recvFragMsg, header]
  · have copied := fun toCopy payload => @copyPayload_tid (findRecvBuf msg.sender bufs) msg.sender
      (fun recvBuf found => findRecvBuf_tid found) fragNum toCopy payload
    have set : ∀ recvBuf : RecvBuf, recvBuf.tid = msg.sender →
        setRecvBuf recvBuf (ownBufs msg.sender bufs) =
          ownBufs msg.sender (setRecvBuf recvBuf bufs) := by
      intro recvBuf own
      rw [← own, ownBufs_setRecvBuf]
    simp only [recvFragMsg, header, findRecvBuf_ownBufs]
    split
    · rfl
    · split
      · rfl
      · split
        · rfl
        · split
          · rw [set _ (copied _ _), ownBufs_putRecvBuf]
          · rw [set _ (copied _ _)]

/-- A message of another sender leaves the receive buffers alone. -/
theorem recvFragMsg_other (other : msg.sender ≠ tid) (bufs : List RecvBuf) :
    ownBufs tid (recvFragMsg bufs msg).2.1 = ownBufs tid bufs := by
  rcases header : fetchFragHeader msg with _ | ⟨fragType, fragNum, used⟩
  · simp only [recvFragMsg, header]
  · have copied := fun toCopy payload => @copyPayload_tid (findRecvBuf msg.sender bufs) msg.sender
      (fun recvBuf found => findRecvBuf_tid found) fragNum toCopy payload
    have set : ∀ recvBuf : RecvBuf, recvBuf.tid = msg.sender →
        ownBufs tid (setRecvBuf recvBuf bufs) = ownBufs tid bufs := by
      intro recvBuf theirs
      exact ownBufs_setRecvBuf_other (by rwa [theirs]) bufs
    simp only [recvFragMsg, header]
    split
    · rfl
    · split
      · rfl
      · split
        · rfl
        · split
          · rw [ownBufs_putRecvBuf_other other, set _ (copied _ _)]
          · exact set _ (copied _ _)

/-- The callback gets the message just handled. -/
theorem recvFragMsg_callback {callback : TypedMsg × List UInt8}
    (invoked : (recvFragMsg bufs msg).2.2 = some callback) :
    callback.1 = msg := by
  rcases header : fetchFragHeader msg with _ | ⟨fragType, fragNum, used⟩
  · simp [recvFragMsg, header] at invoked
  · simp only [recvFragMsg, header] at invoked
    split at invoked
    · cases invoked
    · split at invoked
      · cases invoked
        rfl
      · split at invoked
        · cases invoked
        · split at invoked
          · cases invoked
            rfl
          · cases invoked

theorem recvRun_filter (tid : TaskId) (msgs : List TypedMsg) : ∀ bufs : List RecvBuf,
      (recvRun bufs msgs).2.filter (fun callback => callback.1.sender = tid) =
        (recvRun (ownBufs tid bufs) (msgs.filter (fun msg => msg.sender = tid)) ).2 := by
  induction msgs with
  | nil =>
    intro bufs
    rfl
  | cons msg rest induction =>
    intro bufs
    have remaining := induction (recvFragMsg bufs msg).2.1
    by_cases own : msg.sender = tid
    · have projected := recvFragMsg_ownBufs bufs msg
      rw [own] at projected
      have kept : (recvFragMsg bufs msg).2.2.toList.filter
          (fun callback => callback.1.sender = tid) = (recvFragMsg bufs msg).2.2.toList := by
        rw [filter_eq_self]
        intro callback member
        have same := recvFragMsg_callback (mem_toList.mp member)
        simpa [same] using own
      simp only [recvRun, filter_append, kept, remaining,
        filter_cons, own, decide_true, if_true, projected]
    · have dropped : (recvFragMsg bufs msg).2.2.toList.filter
          (fun callback => callback.1.sender = tid) = [] := by
        rw [filter_eq_nil_iff]
        intro callback member
        have same := recvFragMsg_callback (mem_toList.mp member)
        simpa [same] using own
      rw [recvFragMsg_other own] at remaining
      simp only [recvRun, filter_append, dropped, remaining,
        filter_cons, own, decide_false, nil_append,
        Bool.false_eq_true, if_false]

/-! ## One fragment -/

def fragmentHeader (fragType : UInt8) (fragNum : Nat) (extra : List UInt8) : List UInt8 :=
  [fragType] ++ toMem 2 fragNum ++ [UInt8.ofNat extra.length] ++ extra

/-- A message that is a fragment with the given header fields and payload. -/
structure Fragment (msg : TypedMsg) (fragType : UInt8) (fragNum : Nat)
    (payload : List UInt8) : Prop where
  started : msg.Started
  layout : ∃ extra : List UInt8, extra.length ≤ 255 ∧
    msg.content = fragmentHeader fragType fragNum extra ++ payload
  number : fragNum < 2 ^ 16

theorem Fragment.fetch {fragType : UInt8}
    (fragment : Fragment msg fragType fragNum payload) :
    ∃ used, fetchFragHeader msg = some (fragType, fragNum, used) ∧
      msg.content.length = used + payload.length ∧
      getTypedMsgBuf msg used payload.length = some (payload, used + payload.length) := by
  rcases fragment.layout with ⟨extra, short, layout⟩
  have started := fragment.started
  have typeField := @getTypedMsgBuf_append msg [] [fragType]
    (toMem 2 fragNum ++ [UInt8.ofNat extra.length] ++ extra ++ payload)
    started (by simp [layout, fragmentHeader])
  have numField := @getTypedMsgBuf_append msg [fragType] (toMem 2 fragNum)
    ([UInt8.ofNat extra.length] ++ extra ++ payload) started (by simp [layout, fragmentHeader])
  have sizeField := @getTypedMsgBuf_append msg ([fragType] ++ toMem 2 fragNum)
    [UInt8.ofNat extra.length] (extra ++ payload) started (by simp [layout, fragmentHeader])
  have body := @getTypedMsgBuf_append msg (fragmentHeader fragType fragNum extra) payload [] started
    (by simp [layout])
  simp only [length_nil, length_singleton, length_append,
    length_toMem, Nat.zero_add, Nat.reduceAdd] at typeField numField sizeField
  have number : ofMem (toMem 2 fragNum) = fragNum := ofMem_toMem (by simpa using fragment.number)
  have size : (UInt8.ofNat extra.length).toNat = extra.length := by
    simp only [UInt8.toNat_ofNat']
    exact Nat.mod_eq_of_lt (by omega)
  have headerLength : (fragmentHeader fragType fragNum extra).length = 4 + extra.length := by
    simp only [fragmentHeader, length_append, length_toMem, length_singleton]
  refine ⟨4 + extra.length, ?_, ?_, ?_⟩
  · simp only [fetchFragHeader, typeField, numField, sizeField, number, size]
  · rw [layout, length_append, headerLength]
  · rwa [headerLength] at body

/-- What `__recvFragMsg()` takes as the payload of a fragment. -/
theorem Fragment.payload_eq {fragType : UInt8} {used : Nat}
    (fragment : Fragment msg fragType fragNum payload)
    (length : msg.content.length = used + payload.length)
    (body : getTypedMsgBuf msg used payload.length = some (payload, used + payload.length)) :
    ((getTypedMsgBuf msg used (msg.len - ddTypedBufMsgOffset - used)).map
      Prod.fst).getD [] = payload := by
  have toCopy : msg.len - ddTypedBufMsgOffset - used = payload.length := by
    have total := fragment.started.length_content
    omega
  rw [toCopy, body]
  rfl

/-- The bytes collected so far when the fragment `fragNum` is about to arrive;
whatever an abandoned message left behind does not matter. -/
structure Expects (tid : TaskId) (bufs : List RecvBuf) (fragNum : Nat)
    (collected : List UInt8) : Prop where
  first : fragNum = 0 → collected = []
  later : fragNum ≠ 0 → ∃ recvBuf, findRecvBuf tid bufs = some recvBuf ∧
    recvBuf.nextFrag = fragNum ∧ recvBuf.buf = collected

theorem Expects.accepted (expects : Expects tid bufs fragNum collected) :
    ¬(fragNum ≠ ((findRecvBuf tid bufs).map RecvBuf.nextFrag).getD 0 ∧ fragNum ≠ 0) := by
  rintro ⟨unexpected, nonzero⟩
  rcases expects.later nonzero with ⟨recvBuf, found, next, _⟩
  apply unexpected
  simp [found, next]

theorem Expects.copied (expects : Expects tid bufs fragNum collected)
    (toCopy : Nat) (payload : List UInt8) :
    (copyPayload (findRecvBuf tid bufs) tid fragNum toCopy payload).buf = collected ++ payload ∧
      (copyPayload (findRecvBuf tid bufs) tid fragNum toCopy
        payload).nextFrag = nextFragNum fragNum := by
  by_cases first : fragNum = 0
  · simp [copyPayload, first, growRecvBuf_buf, growRecvBuf_nextFrag, expects.first first]
  · rcases expects.later first with ⟨recvBuf, found, next, content⟩
    simp [copyPayload, first, found, growRecvBuf_buf, growRecvBuf_nextFrag,
      next, content]

theorem nextFragNum_ne_zero (fragNum : Nat) : nextFragNum fragNum ≠ 0 := by
  unfold nextFragNum
  split <;> omega

theorem nextFragNum_lt (fragNum : Nat) : nextFragNum fragNum < 2 ^ 16 := by
  unfold nextFragNum
  split <;> omega

theorem recvFragMsg_part (fragment : Fragment msg fragmentPart fragNum payload)
    (expects : Expects msg.sender bufs fragNum collected) :
    (recvFragMsg bufs msg).2.2 = none ∧
      Expects msg.sender (recvFragMsg bufs msg).2.1 (nextFragNum fragNum)
        (collected ++ payload) := by
  rcases fragment.fetch with ⟨used, header, length, body⟩
  have copied := fragment.payload_eq length body
  have content := expects.copied (msg.len - ddTypedBufMsgOffset - used) payload
  have own := @copyPayload_tid (findRecvBuf msg.sender bufs) msg.sender
    (fun recvBuf found => findRecvBuf_tid found) fragNum
    (msg.len - ddTypedBufMsgOffset - used) payload
  have notEnd : fragmentPart ≠ fragmentEnd := by decide
  simp only [recvFragMsg, header, copied, expects.accepted, notEnd, ne_eq,
    not_true_eq_false, false_and, if_false]
  refine ⟨trivial, ?_, ?_⟩
  · intro impossible
    exact absurd impossible (nextFragNum_ne_zero fragNum)
  · intro _
    refine ⟨_, ?_, content.2, content.1⟩
    have found := findRecvBuf_setRecvBuf
      (copyPayload (findRecvBuf msg.sender bufs) msg.sender fragNum
        (msg.len - ddTypedBufMsgOffset - used) payload) bufs
    rwa [own] at found

theorem recvFragMsg_end (fragment : Fragment msg fragmentEnd fragNum payload)
    (expects : Expects msg.sender bufs fragNum collected) :
    (recvFragMsg bufs msg).2.2 = some (msg, collected ++ payload) := by
  rcases fragment.fetch with ⟨used, header, length, body⟩
  have copied := fragment.payload_eq length body
  have content := expects.copied (msg.len - ddTypedBufMsgOffset - used) payload
  have valid : ¬(fragmentEnd ≠ fragmentPart ∧ fragmentEnd ≠ fragmentEnd) := by
    decide
  by_cases single : fragNum = 0
  · simp [recvFragMsg, header, copied, single, expects.first single]
  · have several : ¬(True ∧ fragNum = 0) := by
      rintro ⟨_, zero⟩
      exact single zero
    simp only [recvFragMsg, header, copied, if_neg valid, if_neg several,
      if_neg expects.accepted, if_true, content.1]

end Psmgmt.Serial
