import Psmgmt.Serial.Encoding
import Psmgmt.Serial.Reassembly

/-!
# Round trip of fragmented messages

Senders emit messages fragment by fragment, possibly abandoning some of them.
As long as each sender's fragments arrive in order, the receiver's callbacks
get exactly the payloads of the completed messages.  The invariant relates a
sender in the middle of a message to the receive buffer built from the
fragments it has already sent.
-/

namespace Psmgmt.Serial

open ByteMemory List

/-- The arguments of a call of `addToBuf()`. -/
structure Addition where
  val : Option (List UInt8)
  size : Nat
  type : DataType
  deriving DecidableEq, Repr

/-- A fragmented message.  A message that is not `complete` is abandoned after
its additions, without calling `__sendFragMsg()`. -/
structure Emission where
  headType : Int
  msgType : Int
  extra : List UInt8
  dests : List TaskId
  additions : List Addition
  complete : Bool
  deriving DecidableEq, Repr

def add (flags : Flags) (sender : Sender) (addition : Addition) : Sender :=
  (addToBuf flags addition.val addition.size addition.type sender).2

def emit (flags : Flags) (sender : Sender) (emission : Emission) : Sender :=
  let sender := initFragBufferExtra sender emission.headType emission.msgType emission.extra
  let sender := emission.dests.foldl setFragDest sender
  let sender := emission.additions.foldl (add flags) sender
  if emission.complete then (sendFragMsg sender).2 else sender

/-- What a call of `addToBuf()` contributes to the payload. -/
def Addition.bytes (flags : Flags) (addition : Addition) : List UInt8 :=
  match addition.val with
  | none =>
    if ¬hasLen addition.type ∨ addition.size ≠ 0 then []
    else encodeItem flags addition.type addition.size []
  | some memory => encodeItem flags addition.type addition.size (memory.take addition.size)

def Emission.payload (flags : Flags) (emission : Emission) : List UInt8 :=
  emission.additions.flatMap (Addition.bytes flags)

/-- The messages a sender has sent to `me`. -/
def Sender.stream (me : TaskId) (sender : Sender) : List TypedMsg :=
  sender.sent.filter (fun msg => msg.dest = me)

/-- A message on its way: who sends and who receives it, the receive buffers
at the start of the sender's stream and the payloads delivered before. -/
structure Transfer where
  emission : Emission
  myID : Int
  tid : TaskId
  me : TaskId
  bufs : List RecvBuf
  delivered : List (List UInt8)

/-- The receiver is served exactly once per fragment. -/
def Reaches (myID : Int) (me : TaskId) (dests : List TaskId) : Prop :=
  (fragmentDests myID dests).count me = 1

/-- What stays fixed while a message is built and sent. -/
structure Transfer.Chosen (transfer : Transfer) (sender : Sender) : Prop where
  useFrag : sender.db.useFrag = true
  extra : sender.db.extra = transfer.emission.extra
  short : transfer.emission.extra.length ≤ 255
  numDest : sender.db.numDest = transfer.emission.dests.length
  dests : sender.destTIDs.take sender.db.numDest = transfer.emission.dests
  reaches : Reaches transfer.myID transfer.me transfer.emission.dests
  myID : sender.myID = transfer.myID
  myTID : sender.myTID = transfer.tid

def Transfer.received (transfer : Transfer) (sender : Sender) :
    List RecvBuf × List (TypedMsg × List UInt8) :=
  recvRun transfer.bufs (sender.stream transfer.me)

/-- No payload has been added so far. -/
structure Transfer.Fresh (transfer : Transfer) (sender : Sender) : Prop where
  chosen : transfer.Chosen sender
  used : sender.db.bufUsed = 0
  number : sender.db.fragNum = 0
  memory : sender.fragMsg.buf.length = bufTypedMsgSize
  delivered : (transfer.received sender).2.map Prod.snd = transfer.delivered

/-- The receiver has collected all payload but `rest`, which is still in the
sender's fragment. -/
structure Transfer.Filling (transfer : Transfer) (sender : Sender)
    (collected rest : List UInt8) : Prop where
  chosen : transfer.Chosen sender
  used : sender.db.bufUsed = (collected ++ rest).length
  number : sender.db.fragNum < 2 ^ 16
  started : sender.fragMsg.Started
  content : sender.fragMsg.content =
    fragmentHeader fragmentPart sender.db.fragNum transfer.emission.extra ++ rest
  origin : sender.fragMsg.sender = transfer.tid
  room : 4 + transfer.emission.extra.length + rest.length < bufTypedMsgSize
  delivered : (transfer.received sender).2.map Prod.snd = transfer.delivered
  expects : Expects transfer.tid (transfer.received sender).1 sender.db.fragNum collected

theorem Transfer.Chosen.congr {transfer : Transfer} {sender other : Sender}
    (chosen : transfer.Chosen sender) (useFrag : other.db.useFrag = sender.db.useFrag)
    (extra : other.db.extra = sender.db.extra) (numDest : other.db.numDest = sender.db.numDest)
    (destTIDs : other.destTIDs = sender.destTIDs) (myID : other.myID = sender.myID)
    (myTID : other.myTID = sender.myTID) :
    transfer.Chosen other := by
  constructor
  · rw [useFrag, chosen.useFrag]
  · rw [extra, chosen.extra]
  · exact chosen.short
  · rw [numDest, chosen.numDest]
  · rw [numDest, destTIDs, chosen.dests]
  · exact chosen.reaches
  · rw [myID, chosen.myID]
  · rw [myTID, chosen.myTID]

theorem length_fragmentHeader (fragType : UInt8) (fragNum : Nat)
    (extra : List UInt8) :
    (fragmentHeader fragType fragNum extra).length = 4 + extra.length := by
  simp only [fragmentHeader, length_append, length_toMem, length_singleton]

/-- `setupFragMsg()` leaves a fragment without payload. -/
theorem setupFragMsg_content {sender : Sender}
    (memory : sender.fragMsg.buf.length = bufTypedMsgSize) (short : sender.db.extra.length ≤ 255) :
    (setupFragMsg sender).fragMsg.Started ∧ (setupFragMsg sender).fragMsg.content =
        fragmentHeader fragmentPart sender.db.fragNum sender.db.extra := by
  have size : bufTypedMsgSize = 1428 := rfl
  obtain ⟨reset, reset_eq⟩ : ∃ reset, reset = { sender.fragMsg with
      headType := sender.db.headType, len := 0
      sender := sender.myTID, type := sender.db.msgType } := ⟨_, rfl⟩
  obtain ⟨typed, typed_eq⟩ : ∃ msg, msg = (putTypedMsgBuf reset [fragmentPart]).2 := ⟨_, rfl⟩
  obtain ⟨numbered, numbered_eq⟩ : ∃ msg, msg =
      (putTypedMsgBuf typed (toMem 2 sender.db.fragNum)).2 := ⟨_, rfl⟩
  obtain ⟨sized, sized_eq⟩ : ∃ msg, msg =
      (putTypedMsgBuf numbered [UInt8.ofNat sender.db.extra.length]).2 :=
    ⟨_, rfl⟩
  have resetLen : reset.len = 0 := by rw [reset_eq]
  have resetMemory : reset.buf.length = bufTypedMsgSize := by
    rw [reset_eq]
    exact memory
  have afterType := putTypedMsgBuf_first resetLen resetMemory
    (cons_ne_nil fragmentPart []) (by simp [size])
  rw [← typed_eq] at afterType
  have afterNum := @putTypedMsgBuf_content _ (toMem 2 sender.db.fragNum)
    afterType.1 (by simp [toMem]) (by rw [afterType.2]; simp [size])
  rw [← numbered_eq, afterType.2] at afterNum
  have afterSize := @putTypedMsgBuf_content _ [UInt8.ofNat sender.db.extra.length] afterNum.1
    (by simp) (by rw [afterNum.2]; simp [size])
  rw [← sized_eq, afterNum.2] at afterSize
  have result : (setupFragMsg sender).fragMsg =
      if sender.db.extra.length ≠ 0 then
        (putTypedMsgBuf sized sender.db.extra).2
      else sized := by
    rw [sized_eq, numbered_eq, typed_eq, reset_eq]
    rfl
  rw [result, fragmentHeader]
  by_cases empty : sender.db.extra.length = 0
  · rw [if_neg (by simp [empty]), length_eq_zero_iff.mp empty, append_nil]
    rw [length_eq_zero_iff.mp empty] at afterSize
    exact afterSize
  · rw [if_pos empty]
    have afterExtra := @putTypedMsgBuf_content _ sender.db.extra afterSize.1
      (by simpa using empty)
      (by
        rw [afterSize.2]
        simp only [length_append, length_singleton, length_toMem, size]
        omega)
    rwa [afterSize.2] at afterExtra

theorem putTypedMsgBuf_sender (msg : TypedMsg) (data : List UInt8) :
    (putTypedMsgBuf msg data).2.sender = msg.sender := by
  simp only [putTypedMsgBuf, apply_ite Prod.snd, apply_ite TypedMsg.sender, ite_self]

theorem setupFragMsg_origin (sender : Sender) :
    (setupFragMsg sender).fragMsg.sender = sender.myTID := by
  simp only [setupFragMsg]
  split <;> simp [putTypedMsgBuf_sender]

variable {transfer : Transfer} {sender : Sender}
  {collected rest data payload : List UInt8}

theorem Transfer.Fresh.setup (fresh : transfer.Fresh sender) :
    transfer.Filling (setupFragMsg sender) [] [] := by
  have short := fresh.chosen.short
  have prepared := setupFragMsg_content fresh.memory (by rw [fresh.chosen.extra]; exact short)
  have size : bufTypedMsgSize = 1428 := rfl
  constructor
  · exact fresh.chosen.congr rfl rfl rfl rfl rfl rfl
  · exact fresh.used
  · show sender.db.fragNum < 2 ^ 16
    rw [fresh.number]
    norm_num
  · exact prepared.1
  · rw [prepared.2, fresh.chosen.extra, append_nil]
    rfl
  · rw [setupFragMsg_origin]
    exact fresh.chosen.myTID
  · rw [size, length_nil]
    omega
  · exact fresh.delivered
  · constructor
    · intro _
      rfl
    · intro later
      exact absurd fresh.number later

theorem Transfer.Chosen.sendFragment (chosen : transfer.Chosen sender) :
    (sendFragment sender).1 = true ∧ (sendFragment sender).2.stream transfer.me =
        sender.stream transfer.me ++ [{ sender.fragMsg with dest := transfer.me }] ∧
      ∃ sent, (sendFragment sender).2 = { sender with sent := sent } := by
  have someDest : sender.db.numDest ≠ 0 := by
    intro none
    have empty : transfer.emission.dests = [] := by
      rw [← length_eq_zero_iff, ← chosen.numDest, none]
    have reaches := chosen.reaches
    rw [Reaches, empty] at reaches
    simp [fragmentDests] at reaches
  have once : (fragmentDests sender.myID (sender.destTIDs.take sender.db.numDest)).filter
        (fun tid => tid = transfer.me) = [transfer.me] := by
    rw [chosen.dests, chosen.myID, filter_eq, chosen.reaches]
    rfl
  have copies : ((fragmentDests sender.myID (sender.destTIDs.take sender.db.numDest)).map
        (fun tid => { sender.fragMsg with dest := tid })).filter
          (fun msg => msg.dest = transfer.me) =
      [{ sender.fragMsg with dest := transfer.me }] := by
    rw [filter_map]
    have same : ((fun msg : TypedMsg => decide (msg.dest = transfer.me)) ∘
        fun tid => { sender.fragMsg with dest := tid }) =
          fun tid => decide (tid = transfer.me) := rfl
    rw [same, once]
    rfl
  simp only [Psmgmt.Serial.sendFragment, someDest, if_false]
  refine ⟨trivial, ?_, ⟨_, rfl⟩⟩
  simp only [Sender.stream, filter_append, copies]

/-- Adding a piece of payload that leaves room in the fragment. -/
theorem Transfer.Filling.put (filling : transfer.Filling sender collected rest)
    (nonempty : data ≠ [])
    (fits : 4 + transfer.emission.extra.length + rest.length + data.length ≤ bufTypedMsgSize) :
    (putTypedMsgBuf sender.fragMsg data).2.Started ∧
      (putTypedMsgBuf sender.fragMsg data).2.content = fragmentHeader fragmentPart sender.db.fragNum
            transfer.emission.extra ++ (rest ++ data) := by
  have put := putTypedMsgBuf_content filling.started nonempty (by
    rw [filling.content, length_append, length_fragmentHeader]
    omega)
  rw [filling.content, append_assoc] at put
  exact put

theorem Transfer.Filling.sends {full : Sender} {fragType : UInt8}
    (filling : transfer.Filling sender collected rest)
    (chosen : transfer.Chosen full) (sent : full.sent = sender.sent)
    (started : full.fragMsg.Started) (content : full.fragMsg.content =
      fragmentHeader fragType sender.db.fragNum transfer.emission.extra ++
        payload) (origin : full.fragMsg.sender = transfer.tid) :
    ∃ msg, Fragment msg fragType sender.db.fragNum payload ∧
      msg.sender = transfer.tid ∧
      recvRun transfer.bufs ((sendFragment full).2.stream transfer.me) =
        ((recvFragMsg (transfer.received sender).1 msg).2.1, (transfer.received sender).2 ++
            (recvFragMsg (transfer.received sender).1 msg).2.2.toList) := by
  rcases chosen.sendFragment with ⟨_, stream, _⟩
  have before : full.stream transfer.me = sender.stream transfer.me := by
    rw [Sender.stream, Sender.stream, sent]
  refine ⟨{ full.fragMsg with dest := transfer.me }, ?_, origin, ?_⟩
  · exact
      { started := ⟨started.header, started.capacity, started.inside⟩
        layout := ⟨_, filling.chosen.short, content⟩
        number := filling.number }
  · rw [stream, before, recvRun_append]
    simp only [recvRun, append_nil]
    rfl

/-- The sender after copying `data` to its fragment. -/
def copyToFragment (sender : Sender) (data : List UInt8) : Sender :=
  { sender with
    fragMsg := (putTypedMsgBuf sender.fragMsg data).2
    db := { sender.db with
      bufUsed := (sender.db.bufUsed + data.length) % 2 ^ 32 } }

/-- The sender after sending a full fragment and preparing the next one. -/
def nextFragment (sender : Sender) : Sender :=
  let sender := (sendFragment sender).2
  setupFragMsg { sender with
    db := { sender.db with fragNum := nextFragNum sender.db.fragNum } }

section

variable (filling : transfer.Filling sender collected rest)

include filling

theorem Transfer.Filling.copied_used
    (small : (collected ++ rest ++ data).length < 2 ^ 32) :
    (copyToFragment sender data).db.bufUsed = (collected ++ rest ++ data).length := by
  rw [length_append] at small ⊢
  show (sender.db.bufUsed + data.length) % 2 ^ 32 = _
  rw [filling.used]
  exact Nat.mod_eq_of_lt small

theorem Transfer.Filling.copy (nonempty : data ≠ [])
    (room : 4 + transfer.emission.extra.length + rest.length + data.length <
      bufTypedMsgSize) (small : (collected ++ rest ++ data).length < 2 ^ 32) :
    transfer.Filling (copyToFragment sender data) collected (rest ++ data) := by
  have put := filling.put nonempty (Nat.le_of_lt room)
  constructor
  · exact filling.chosen.congr rfl rfl rfl rfl rfl rfl
  · rw [filling.copied_used small, append_assoc]
  · exact filling.number
  · exact put.1
  · exact put.2
  · exact (putTypedMsgBuf_sender _ _).trans filling.origin
  · rw [length_append]
    omega
  · exact filling.delivered
  · exact filling.expects

theorem Transfer.Filling.flush (nonempty : data ≠ [])
    (full : 4 + transfer.emission.extra.length + rest.length + data.length =
      bufTypedMsgSize) (small : (collected ++ rest ++ data).length < 2 ^ 32) :
    transfer.Filling (nextFragment (copyToFragment sender data))
      (collected ++ rest ++ data) [] := by
  have put := filling.put nonempty (Nat.le_of_eq full)
  have chosen : transfer.Chosen (copyToFragment sender data) :=
    filling.chosen.congr rfl rfl rfl rfl rfl rfl
  rcases chosen.sendFragment with ⟨_, _, sent, result⟩
  rcases filling.sends chosen rfl put.1 put.2
    ((putTypedMsgBuf_sender _ _).trans filling.origin) with
    ⟨msg, fragment, origin, stream⟩
  have step := recvFragMsg_part fragment (by
    rw [origin]
    exact filling.expects)
  have received : transfer.received (nextFragment (copyToFragment sender data)) =
        ((recvFragMsg (transfer.received sender).1 msg).2.1, (transfer.received sender).2) := by
    rw [step.1, Option.toList_none, append_nil] at stream
    exact stream
  have prepared := @setupFragMsg_content
    { (sendFragment (copyToFragment sender data)).2 with
      db := { (sendFragment (copyToFragment sender data)).2.db with
        fragNum := nextFragNum (sendFragment (copyToFragment sender data)).2.db.fragNum } }
    (by
      rw [result]
      exact put.1.capacity)
    (by
      rw [result]
      show sender.db.extra.length ≤ 255
      rw [filling.chosen.extra]
      exact filling.chosen.short)
  have size : bufTypedMsgSize = 1428 := rfl
  have short := filling.chosen.short
  constructor
  · rw [nextFragment, result]
    exact chosen.congr rfl rfl rfl rfl rfl rfl
  · rw [nextFragment, result, append_nil]
    exact filling.copied_used small
  · rw [nextFragment, result]
    exact nextFragNum_lt _
  · exact prepared.1
  · rw [append_nil, nextFragment, prepared.2, result]
    exact congrArg _ filling.chosen.extra
  · rw [nextFragment, setupFragMsg_origin, result]
    exact filling.chosen.myTID
  · rw [size, length_nil]
    omega
  · rw [received]
    exact filling.delivered
  · rw [received, nextFragment, result, append_assoc]
    have expects := step.2
    rw [origin] at expects
    exact expects

end

theorem addFragmentedLoop_nil (rounds : Nat) (sender : Sender) :
    addFragmentedLoop rounds sender [] = sender := by
  cases rounds with
  | zero => rfl
  | succ rounds => simp [addFragmentedLoop]

section

variable {rounds chunkLeft : Nat} (nonempty : data ≠ [])
  (left : bufTypedMsgSize - (sender.fragMsg.len - ddTypedBufMsgOffset) = chunkLeft)

include nonempty left

theorem addFragmentedLoop_stays (stays : data.length < chunkLeft) :
    addFragmentedLoop (rounds + 1) sender data = copyToFragment sender data := by
  have nonzero : data.length ≠ 0 := by simpa using nonempty
  have notMore : ¬data.length > chunkLeft := by omega
  have notFull : chunkLeft - data.length ≠ 0 := by omega
  simp only [addFragmentedLoop, nonzero, left, notMore, notFull, if_false,
    take_length, drop_length, addFragmentedLoop_nil]
  rfl

theorem addFragmentedLoop_fills (fills : chunkLeft ≤ data.length) :
    addFragmentedLoop (rounds + 1) sender data =
      addFragmentedLoop rounds (nextFragment (copyToFragment sender (data.take chunkLeft)))
        (data.drop chunkLeft) := by
  have nonzero : data.length ≠ 0 := by simpa using nonempty
  have tocopy : (if data.length > chunkLeft then chunkLeft else data.length) =
      chunkLeft := by
    split <;> omega
  have size : (data.take chunkLeft).length = chunkLeft := by
    rw [length_take]
    omega
  simp only [addFragmentedLoop, nonzero, left, tocopy, if_false, if_true,
    Nat.sub_self, nextFragment, copyToFragment, size]

end

theorem addFragmentedLoop_filling (rounds : Nat) :
    ∀ {sender : Sender} {collected rest data : List UInt8},
      transfer.Filling sender collected rest → data.length ≤ rounds →
      (collected ++ rest ++ data).length < 2 ^ 32 →
        ∃ collected' rest', collected' ++ rest' = collected ++ rest ++ data ∧
          transfer.Filling (addFragmentedLoop rounds sender data) collected' rest' := by
  induction rounds with
  | zero =>
    intro sender collected rest data filling enough small
    have empty : data = [] := length_eq_zero_iff.mp (by omega)
    subst empty
    exact ⟨collected, rest, by simp, filling⟩
  | succ rounds induction =>
    intro sender collected rest data filling enough small
    by_cases empty : data = []
    · subst empty
      rw [addFragmentedLoop_nil]
      exact ⟨collected, rest, by simp, filling⟩
    · have off : sender.fragMsg.len - ddTypedBufMsgOffset =
          4 + transfer.emission.extra.length + rest.length := by
        rw [← filling.started.length_content, filling.content, length_append, length_fragmentHeader]
      have room := filling.room
      obtain ⟨chunkLeft, left⟩ : ∃ chunkLeft, bufTypedMsgSize -
          (sender.fragMsg.len - ddTypedBufMsgOffset) = chunkLeft :=
        ⟨_, rfl⟩
      by_cases stays : data.length < chunkLeft
      · rw [addFragmentedLoop_stays empty left stays]
        exact ⟨collected, rest ++ data, by simp, filling.copy empty (by omega) small⟩
      · rw [addFragmentedLoop_fills empty left (by omega)]
        have pieces := take_append_drop chunkLeft data
        have lengths := congrArg List.length pieces
        simp only [length_append] at lengths small
        have size : (data.take chunkLeft).length = chunkLeft := by
          rw [length_take]
          omega
        have flushed := filling.flush
          (by
            intro none
            rw [none, length_nil] at size
            omega)
          (show 4 + transfer.emission.extra.length + rest.length +
            (data.take chunkLeft).length = bufTypedMsgSize by omega)
          (by
            simp only [length_append]
            omega)
        rcases @induction _ _ _ (data.drop chunkLeft) flushed (by omega) (by
          simp only [length_append, append_nil]
          omega) with ⟨collected', rest', payload, result⟩
        refine ⟨collected', rest', ?_, result⟩
        rw [payload, append_nil, append_assoc _ (data.take _), pieces]

/-! ## Building and sending a message -/

/-- A sender that has added `payload` to its message. -/
def Transfer.Holding (transfer : Transfer) (sender : Sender) (payload : List UInt8) : Prop :=
  (payload = [] ∧ transfer.Fresh sender) ∨
    ∃ collected rest, payload ≠ [] ∧ payload = collected ++ rest ∧
      transfer.Filling sender collected rest

section

variable (holding : transfer.Holding sender payload)

include holding

theorem Transfer.Holding.addFragmentedData
    (small : (payload ++ data).length < 2 ^ 32) :
    transfer.Holding (addFragmentedData sender data) (payload ++ data) := by
  rcases holding with ⟨rfl, fresh⟩ | ⟨collected, rest, nonempty, rfl, filling⟩
  · rw [Psmgmt.Serial.addFragmentedData, if_pos fresh.used]
    by_cases empty : data = []
    · subst empty
      rw [addFragmentedLoop_nil]
      refine .inl ⟨rfl, ?_⟩
      have prepared := fresh.setup
      exact
        { chosen := prepared.chosen
          used := prepared.used
          number := fresh.number
          memory := prepared.started.capacity
          delivered := prepared.delivered }
    · rcases addFragmentedLoop_filling data.length fresh.setup
        (Nat.le_refl _) small with ⟨collected, rest, payload, filling⟩
      refine .inr ⟨collected, rest, ?_, payload.symm, filling⟩
      simpa using empty
  · have started : sender.db.bufUsed ≠ 0 := by
      rw [filling.used]
      simpa using nonempty
    rw [Psmgmt.Serial.addFragmentedData, if_neg started]
    rcases addFragmentedLoop_filling data.length filling
      (Nat.le_refl _) small with ⟨collected', rest', payload, filled⟩
    refine .inr ⟨collected', rest', ?_, payload.symm, filled⟩
    intro none
    exact nonempty (append_eq_nil_iff.mp none).1

theorem Transfer.Holding.chosen : transfer.Chosen sender := by
  rcases holding with ⟨_, fresh⟩ | ⟨_, _, _, _, filling⟩
  · exact fresh.chosen
  · exact filling.chosen

theorem Transfer.Holding.addData (small : (payload ++ data).length < 2 ^ 32) :
    transfer.Holding (addData sender data).2 (payload ++ data) := by
  rw [Psmgmt.Serial.addData, if_pos holding.chosen.useFrag]
  exact holding.addFragmentedData small

end

theorem Transfer.appends_holding (transfer : Transfer) :
    Appends transfer.Holding (fun bytes => bytes.length < 2 ^ 32) :=
  { shorter := by
      intro bytes data small
      rw [length_append] at small
      omega
    step := fun _ _ _ holding small => holding.addData small }

/-- `addToBuf()` adds the bytes of its item. -/
theorem Transfer.Holding.add (holding : transfer.Holding sender payload) (flags : Flags)
    (addition : Addition) (small : (payload ++ addition.bytes flags).length < 2 ^ 32) :
    transfer.Holding (add flags sender addition) (payload ++ addition.bytes flags) := by
  rcases addition with ⟨val, size, type⟩
  cases val with
  | none =>
    by_cases invalid : ¬hasLen type ∨ size ≠ 0
    · simp only [Psmgmt.Serial.add, addToBuf, Addition.bytes, if_pos invalid, append_nil]
      exact holding
    · simp only [Psmgmt.Serial.add, addToBuf, Addition.bytes, if_neg invalid] at small ⊢
      exact addItem_of_appends transfer.appends_holding flags type size holding small
  | some memory => exact addItem_of_appends transfer.appends_holding flags type size holding small

theorem Transfer.Holding.additions (flags : Flags) (additions : List Addition) :
    ∀ {sender : Sender} {payload : List UInt8},
      transfer.Holding sender payload →
      (payload ++ additions.flatMap (Addition.bytes flags)).length < 2 ^ 32 →
        transfer.Holding (additions.foldl (Psmgmt.Serial.add flags) sender)
          (payload ++ additions.flatMap (Addition.bytes flags)) := by
  induction additions with
  | nil =>
    intro sender payload holding small
    simpa using holding
  | cons addition rest induction =>
    intro sender payload holding small
    rw [flatMap_cons, ← append_assoc] at small ⊢
    have first : (payload ++ addition.bytes flags).length < 2 ^ 32 := by
      rw [length_append] at small
      omega
    exact induction (holding.add flags addition first) small

theorem poke_fragmentEnd {msg : TypedMsg} {fragType : UInt8} {fragNum : Nat}
    {extra : List UInt8} (started : msg.Started)
    (content : msg.content = fragmentHeader fragType fragNum extra ++ rest) :
    let full := { msg with buf := poke 0 [fragmentEnd] msg.buf }
    full.Started ∧ full.content = fragmentHeader fragmentEnd fragNum extra ++ rest := by
  have length := started.length_content
  rw [content, length_append, length_fragmentHeader] at length
  have capacity := started.capacity
  have inside := started.inside
  have kept : (poke 0 [fragmentEnd] msg.buf).length = msg.buf.length := by
    apply length_poke
    simp only [length_singleton]
    omega
  refine ⟨⟨started.header, kept.trans capacity, inside⟩, ?_⟩
  obtain ⟨size, used⟩ : ∃ size, msg.len - ddTypedBufMsgOffset = size + 1 :=
    ⟨msg.len - ddTypedBufMsgOffset - 1, by omega⟩
  have rewritten : poke 0 [fragmentEnd] msg.buf = fragmentEnd :: msg.buf.drop 1 := by
    simp [poke]
  have tail : (msg.buf.drop 1).take size = msg.content.drop 1 := by
    rw [TypedMsg.content, used, drop_take]
    rfl
  show (poke 0 [fragmentEnd] msg.buf).take (msg.len - ddTypedBufMsgOffset) = _
  rw [rewritten, used, take_succ_cons, tail, content]
  rfl

/-- `__sendFragMsg()` of a fragment under construction. -/
theorem Transfer.Filling.finish {transfer : Transfer} {sender : Sender}
    {collected rest : List UInt8} (filling : transfer.Filling sender collected rest) :
    let full := { sender with
      fragMsg := { sender.fragMsg with
        buf := poke 0 [fragmentEnd] sender.fragMsg.buf } }
    (transfer.received (sendFragment full).2).2.map Prod.snd =
      transfer.delivered ++ [collected ++ rest] := by
  intro full
  have written := poke_fragmentEnd filling.started filling.content
  have chosen : transfer.Chosen full := filling.chosen.congr rfl rfl rfl rfl rfl rfl
  rcases filling.sends chosen rfl written.1 written.2 filling.origin with
    ⟨msg, fragment, origin, received⟩
  have last := recvFragMsg_end fragment (by
    rw [origin]
    exact filling.expects)
  rw [Transfer.received, received, last, map_append, filling.delivered]
  rfl

/-- A completed message reaches the receiver as it was built. -/
theorem Transfer.Holding.sendFragMsg (holding : transfer.Holding sender payload) :
    ∃ filled collected rest, payload = collected ++ rest ∧
      transfer.Filling filled collected rest ∧
      (Psmgmt.Serial.sendFragMsg sender).2 =
        (sendFragment { filled with
          fragMsg := { filled.fragMsg with
            buf := poke 0 [fragmentEnd] filled.fragMsg.buf } }).2 := by
  have finish : ∀ filled : Sender, transfer.Chosen filled →
      (if sender.db.bufUsed = 0 then setupFragMsg sender else sender) = filled →
      (Psmgmt.Serial.sendFragMsg sender).2 =
        (sendFragment { filled with
          fragMsg := { filled.fragMsg with
            buf := poke 0 [fragmentEnd] filled.fragMsg.buf } }).2 := by
    intro filled chosen equality
    have chosenFull : transfer.Chosen { filled with
        fragMsg := { filled.fragMsg with
          buf := poke 0 [fragmentEnd] filled.fragMsg.buf } } :=
      chosen.congr rfl rfl rfl rfl rfl rfl
    have sent := chosenFull.sendFragment.1
    simp only [Psmgmt.Serial.sendFragMsg, equality]
    rcases result : sendFragment { filled with
      fragMsg := { filled.fragMsg with
        buf := poke 0 [fragmentEnd] filled.fragMsg.buf } } with ⟨ok, after⟩
    rw [result] at sent
    cases sent
    rfl
  rcases holding with ⟨rfl, fresh⟩ | ⟨collected, rest, nonempty, rfl, filling⟩
  · have filling := fresh.setup
    exact ⟨_, [], [], rfl, filling, finish _ filling.chosen (if_pos fresh.used)⟩
  · have started : sender.db.bufUsed ≠ 0 := by
      rw [filling.used]
      simpa using nonempty
    exact ⟨_, collected, rest, rfl, filling, finish _ filling.chosen (if_neg started)⟩

/-- A sender between two messages, with the payloads delivered so far. -/
structure Idle (myID : Int) (tid me : TaskId) (bufs : List RecvBuf)
    (sender : Sender) (delivered : List (List UInt8)) : Prop where
  myID : sender.myID = myID
  myTID : sender.myTID = tid
  memory : sender.fragMsg.buf.length = bufTypedMsgSize
  delivered : (recvRun bufs (sender.stream me)).2.map Prod.snd = delivered

/-- A message that fits the fragment header and is addressed to `me`. -/
structure Emission.Valid (flags : Flags) (myID : Int) (me : TaskId)
    (emission : Emission) : Prop where
  short : emission.extra.length ≤ 255
  reaches : Reaches myID me emission.dests
  small : (emission.payload flags).length < 2 ^ 32

theorem foldl_setFragDest (dests : List TaskId) :
    ∀ sender : Sender, sender.db.numDest ≤ sender.destTIDs.length →
      ∃ destTIDs, dests.foldl setFragDest sender =
          { sender with
            destTIDs := destTIDs
            db := { sender.db with
              numDest := sender.db.numDest + dests.length } } ∧
        destTIDs.take (sender.db.numDest + dests.length) =
          sender.destTIDs.take sender.db.numDest ++ dests := by
  induction dests with
  | nil =>
    intro sender room
    exact ⟨sender.destTIDs, rfl, by simp⟩
  | cons tid rest induction =>
    intro sender room
    have length : (sender.destTIDs.take sender.db.numDest).length = sender.db.numDest := by
      rw [length_take]
      omega
    rcases induction (setFragDest sender tid) (by
      simp only [setFragDest, length_append, length, length_singleton]
      omega) with ⟨destTIDs, result, taken⟩
    have prior : (setFragDest sender tid).destTIDs.take
        (setFragDest sender tid).db.numDest = sender.destTIDs.take sender.db.numDest ++ [tid] := by
      apply take_of_length_le
      simp only [setFragDest, length_append, length, length_singleton]
      omega
    have count : (setFragDest sender tid).db.numDest + rest.length =
        sender.db.numDest + (tid :: rest).length := by
      simp only [setFragDest, length_cons]
      omega
    rw [prior, count] at taken
    refine ⟨destTIDs, ?_, ?_⟩
    · rw [foldl_cons, result, count]
      rfl
    · simpa using taken

variable {myID : Int}
variable {bufs : List RecvBuf}
variable {flags : Flags}

theorem Idle.start {tid me : TaskId} {sender : Sender} {delivered : List (List UInt8)}
    (idle : Idle myID tid me bufs sender delivered) {emission : Emission}
    (valid : emission.Valid flags myID me) :
    Transfer.Fresh ⟨emission, myID, tid, me, bufs, delivered⟩
      (emission.dests.foldl setFragDest
        (initFragBufferExtra sender emission.headType emission.msgType emission.extra)) := by
  rcases foldl_setFragDest emission.dests
    (initFragBufferExtra sender emission.headType emission.msgType
      emission.extra) (Nat.zero_le _) with ⟨destTIDs, result, taken⟩
  rw [result]
  constructor
  · constructor
    · rfl
    · rfl
    · exact valid.short
    · exact Nat.zero_add _
    · rw [taken]
      rfl
    · exact valid.reaches
    · exact idle.myID
    · exact idle.myTID
  · rfl
  · rfl
  · exact idle.memory
  · exact idle.delivered

variable {tid me : TaskId}

theorem Idle.emit {delivered : List (List UInt8)} (idle : Idle myID tid me bufs sender delivered)
    {emission : Emission} (valid : emission.Valid flags myID me) :
    Idle myID tid me bufs (emit flags sender emission)
      (delivered ++
        if emission.complete then [emission.payload flags] else []) := by
  have small : ([] ++ emission.payload flags).length < 2 ^ 32 := valid.small
  have holding := Transfer.Holding.additions flags emission.additions
    (.inl ⟨rfl, idle.start valid⟩) small
  rw [nil_append] at holding
  by_cases complete : emission.complete
  · rw [Psmgmt.Serial.emit, if_pos complete, if_pos complete]
    rcases holding.sendFragMsg with
      ⟨filled, collected, rest, payload, filling, result⟩
    rw [result]
    rcases (filling.chosen.congr rfl rfl rfl rfl rfl rfl :
      Transfer.Chosen _ { filled with
        fragMsg := { filled.fragMsg with
          buf := poke 0 [fragmentEnd] filled.fragMsg.buf } }).sendFragment with
      ⟨_, _, sent, after⟩
    have delivered := filling.finish
    rw [← payload] at delivered
    constructor
    · rw [after]
      exact filling.chosen.myID
    · rw [after]
      exact filling.chosen.myTID
    · rw [after]
      exact (poke_fragmentEnd filling.started filling.content).1.capacity
    · exact delivered
  · rw [Psmgmt.Serial.emit, if_neg complete, if_neg complete, append_nil]
    rcases holding with ⟨_, fresh⟩ | ⟨_, _, _, _, filling⟩
    · exact ⟨fresh.chosen.myID, fresh.chosen.myTID, fresh.memory, fresh.delivered⟩
    · exact ⟨filling.chosen.myID, filling.chosen.myTID, filling.started.capacity, filling.delivered⟩

def completedPayloads (flags : Flags) (emissions : List Emission) : List (List UInt8) :=
  (emissions.filter Emission.complete).map (Emission.payload flags)

theorem Idle.emissions (emissions : List Emission)
    (valid : ∀ emission ∈ emissions, emission.Valid flags myID me) :
    ∀ {sender : Sender} {delivered : List (List UInt8)}, Idle myID tid me bufs sender delivered →
        Idle myID tid me bufs (emissions.foldl (Psmgmt.Serial.emit flags) sender)
          (delivered ++ completedPayloads flags emissions) := by
  induction emissions with
  | nil =>
    intro sender delivered idle
    simpa [completedPayloads] using idle
  | cons emission rest induction =>
    intro sender delivered idle
    have first := idle.emit (valid emission (by simp))
    have remaining := induction (fun other member => valid other (by simp [member])) first
    have payloads : completedPayloads flags (emission :: rest) =
        (if emission.complete then [emission.payload flags] else []) ++
          completedPayloads flags rest := by
      cases complete : emission.complete <;>
        simp [completedPayloads, complete]
    rw [payloads, ← append_assoc]
    exact remaining

/-- Senders that have not sent anything so far. -/
structure Ready (senders : TaskId → Sender) : Prop where
  myTID : ∀ tid, (senders tid).myTID = tid
  memory : ∀ tid, (senders tid).fragMsg.buf.length = bufTypedMsgSize
  sent : ∀ tid, (senders tid).sent = []

/-- However the fragments of different senders are interleaved, the callbacks
for each sender get the payloads of its completed messages in order. -/
theorem recvRun_completedPayloads {me : TaskId} {senders : TaskId → Sender}
    {emissions : TaskId → List Emission} {arrivals : List TypedMsg}
    (ready : Ready senders)
    (valid : ∀ tid, ∀ emission ∈ emissions tid, emission.Valid flags (senders tid).myID me)
    (inOrder : ∀ tid, arrivals.filter (fun msg => msg.sender = tid) =
      ((emissions tid).foldl (emit flags) (senders tid)).stream me)
    (bufs : List RecvBuf) (tid : TaskId) :
    ((recvRun bufs arrivals).2.filter (fun callback => callback.1.sender = tid)).map Prod.snd =
      completedPayloads flags (emissions tid) := by
  have idle : Idle (senders tid).myID tid me (ownBufs tid bufs) (senders tid) [] := by
    constructor
    · rfl
    · exact ready.myTID tid
    · exact ready.memory tid
    · rw [Sender.stream, ready.sent tid]
      rfl
  have finished := idle.emissions (emissions tid) (valid tid)
  rw [recvRun_filter, inOrder tid, finished.delivered, nil_append]

/-- Two tasks sending to the task 9 on node 0; the first abandons a message. -/
def twoEmissions (tid : TaskId) : List Emission :=
  let emission : Emission :=
    { headType := 0, msgType := 0, extra := [1, 2], dests := [⟨0, 9⟩]
      additions := [⟨some [3, 4], 2, .data⟩], complete := true }
  if tid = ⟨1, 5⟩ then [{ emission with complete := false }, emission]
  else if tid = ⟨2, 7⟩ then [emission]
  else []

def twoArrivals : List TypedMsg :=
  ((twoEmissions ⟨2, 7⟩).foldl (emit ⟨true, false⟩) (initSerial 2 ⟨2, 7⟩)).stream ⟨0, 9⟩ ++
    ((twoEmissions ⟨1, 5⟩).foldl (emit ⟨true, false⟩) (initSerial 1 ⟨1, 5⟩)).stream ⟨0, 9⟩

theorem recvRun_completedPayloads_two :
    ((recvRun [] twoArrivals).2.filter (fun callback => callback.1.sender = ⟨1, 5⟩)).map Prod.snd =
      completedPayloads ⟨true, false⟩ (twoEmissions ⟨1, 5⟩) := by
  apply @recvRun_completedPayloads ⟨true, false⟩ ⟨0, 9⟩
    (fun tid => initSerial tid.node tid) twoEmissions twoArrivals
  · exact ⟨fun _ => rfl, fun _ => length_replicate, fun _ => rfl⟩
  · intro tid emission member
    have valid : ∀ complete myID, myID = 1 ∨ myID = 2 → Emission.Valid ⟨true, false⟩ myID ⟨0, 9⟩
          { headType := 0, msgType := 0, extra := [1, 2], dests := [⟨0, 9⟩]
            additions := [⟨some [3, 4], 2, .data⟩], complete := complete } := by
      rintro complete myID (rfl | rfl)
      · exact ⟨by simp, by rw [Reaches]; decide +revert, by decide +revert⟩
      · exact ⟨by simp, by rw [Reaches]; decide +revert, by decide +revert⟩
    unfold twoEmissions at member
    split at member
    · next first =>
        subst first
        simp only [mem_cons, not_mem_nil, or_false] at member
        rcases member with rfl | rfl
        · exact valid false 1 (.inl rfl)
        · exact valid true 1 (.inl rfl)
    · split at member
      · next second =>
          subst second
          simp only [mem_cons, not_mem_nil, or_false] at member
          rw [member]
          exact valid true 2 (.inr rfl)
      · cases member
  · intro tid
    by_cases first : tid = ⟨1, 5⟩
    · subst first
      decide +kernel
    · by_cases second : tid = ⟨2, 7⟩
      · subst second
        decide +kernel
      · have none : twoEmissions tid = [] := by
          simp [twoEmissions, first, second]
        have senders : ∀ msg ∈ twoArrivals, msg.sender = ⟨1, 5⟩ ∨ msg.sender = ⟨2, 7⟩ := by
          decide +kernel
        rw [none, filter_eq_nil_iff.mpr]
        · rfl
        · intro msg member
          rcases senders msg member with equality | equality
          · simpa [equality] using Ne.symm first
          · simpa [equality] using Ne.symm second

end Psmgmt.Serial
