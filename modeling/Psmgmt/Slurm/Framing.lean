import Psmgmt.Library.Framing
import Psmgmt.Slurm.Connection

/-!
# Framing on a Slurm connection

A reader that is in step with the stream stays so, unless a chunk ends inside a
length: the part of the length that was read is cleared by the next call.  Bytes
once dropped are never made up for, since the messages passed on account for no
more bytes than were read.
-/

namespace Psmgmt.Slurm

open Serial ByteMemory Framing
open List hiding span

/-- The bytes of messages passed on, of the message in progress and of what may
still be read. -/
def Connection.account (con : Connection) : Nat :=
  span 4 con.passed +
    (if con.readSize = 0 ∨ con.isOpen = false then 0
    else 4 + con.data.data.length) +
    con.unread.length

/-! ## Nothing is accounted for twice -/

theorem psdbRecvPProg_length (toRecv : Nat) (buffer : RecvData)
    (unread : List UInt8) :
    (psdbRecvPProg toRecv buffer unread).2.1.data.length +
        (psdbRecvPProg toRecv buffer unread).2.2.length =
      buffer.data.length + unread.length := by
  unfold psdbRecvPProg
  split
  · rfl
  · dsimp only
    split <;> simp only [List.length_append, length_take, length_drop] <;> omega

theorem psdbRecvPProg_all {toRecv : Nat} {buffer : RecvData} {unread : List UInt8}
    (all : (psdbRecvPProg toRecv buffer unread).1 = .all) :
    toRecv ≤ (psdbRecvPProg toRecv buffer unread).2.1.data.length := by
  unfold psdbRecvPProg at all ⊢
  split at all
  · cases all
  · rename_i room
    rw [if_neg room]
    dsimp only at all ⊢
    split at all
    · cases all
    · rename_i enough
      rw [if_neg enough]
      exact Nat.le_of_not_lt enough

variable {con : Connection}

theorem readPayload_account (sized : con.readSize ≠ 0)
    (isOpen : con.isOpen = true) : (readPayload con).account ≤ con.account := by
  have lengths := psdbRecvPProg_length con.readSize con.data con.unread
  unfold readPayload
  rcases received : psdbRecvPProg con.readSize con.data con.unread with
    ⟨result, data, unread⟩
  rw [received] at lengths
  dsimp only at lengths
  cases result with
  | noData =>
    simp only [Connection.account, sized, isOpen, false_or, Bool.true_eq_false, if_false]
    omega
  | error =>
    simp only [Connection.account, closeSlurmCon, sized, isOpen, false_or,
      Bool.true_eq_false, if_false, if_true]
    omega
  | all =>
    simp only [Connection.account, doResetCon, sized, isOpen, true_or,
      false_or, Bool.true_eq_false, if_false, if_true, span_append, span]
    omega

theorem readSize_account (unsized : con.readSize = 0)
    (isOpen : con.isOpen = true) : (readSize con).account ≤ con.account := by
  have lengths := psdbRecvPProg_length 4 (psdbClearBuf (psdbGrow con.data 4)) con.unread
  have start : con.account = span 4 con.passed + con.unread.length := by
    simp [Connection.account, unsized]
  unfold readSize
  dsimp only
  rcases received : psdbRecvPProg 4 (psdbClearBuf (psdbGrow con.data 4))
    con.unread with ⟨result, data, unread⟩
  rw [received] at lengths
  simp only [psdbClearBuf, List.length_nil, Nat.zero_add] at lengths
  cases result with
  | noData =>
    simp only [Connection.account, unsized, true_or, if_true]
    omega
  | error =>
    simp only [Connection.account, closeSlurmCon, or_true, if_true]
    omega
  | all =>
    have four : 4 ≤ data.data.length := by
      have enough := psdbRecvPProg_all (congrArg Prod.fst received)
      rwa [received] at enough
    dsimp only
    split
    · simp only [Connection.account, closeSlurmCon, or_true, if_true]
      omega
    · split
      · simp only [Connection.account, closeSlurmCon, or_true, if_true]
        omega
      · rename_i _ sized
        refine Nat.le_trans (readPayload_account sized isOpen) ?_
        simp only [Connection.account, psdbClearBuf, sized, isOpen,
          false_or, Bool.true_eq_false, if_false, List.length_nil]
        omega

theorem doResetCon_account (con : Connection) : (doResetCon con).account ≤ con.account := by
  simp only [Connection.account, doResetCon, true_or, if_true]
  omega

theorem readSlurmMsg_account (isOpen : con.isOpen = true) :
    (readSlurmMsg con).account ≤ con.account := by
  have step : ∀ other : Connection, other.isOpen = true →
      (if other.readSize = 0 then readSize other
        else readPayload other).account ≤ other.account := by
    intro other otherOpen
    split
    · rename_i unsized
      exact readSize_account unsized otherOpen
    · rename_i sized
      exact readPayload_account sized otherOpen
  unfold readSlurmMsg
  split
  · exact Nat.le_trans (step (doResetCon con) isOpen) (doResetCon_account con)
  · exact step con isOpen

theorem serve_account (rounds : Nat) (con : Connection) :
    (serve rounds con).account ≤ con.account := by
  induction rounds generalizing con with
  | zero => exact Nat.le_refl _
  | succ rounds induction =>
    unfold serve
    split
    · rename_i ready
      exact Nat.le_trans (induction _) (readSlurmMsg_account ready.1)
    · exact Nat.le_refl _

theorem arrive_account (con : Connection) (chunk : List UInt8) :
    (arrive con chunk).account ≤ con.account + chunk.length := by
  refine Nat.le_trans (serve_account _ _) ?_
  simp only [Connection.account, List.length_append]
  omega

theorem arrivals_account (chunks : List (List UInt8)) (con : Connection) :
    (chunks.foldl arrive con).account ≤ con.account + chunks.flatten.length := by
  induction chunks generalizing con with
  | nil => simp
  | cons chunk rest induction =>
    have first := arrive_account con chunk
    have later := induction (arrive con chunk)
    simp only [foldl_cons, flatten_cons, List.length_append]
    omega

/-! ## A reader in step with the stream -/

/-- A length that may be sent. -/
def ValidBody (body : List UInt8) : Prop := 0 < body.length ∧ body.length ≤ maxMsgSize

/-- The connection has passed on the messages in `done` and stands between two
messages or inside a body; `future` is what has not arrived yet. -/
inductive InStep (earlier messages : List (List UInt8)) (future : List UInt8)
    (con : Connection) : Prop where
  | between (done todo : List (List UInt8)) :
      messages = done ++ todo → con.passed = earlier ++ done →
      con.isOpen = true → con.readSize = 0 → con.data.data = [] →
      con.unread ++ future = wire todo →
      InStep earlier messages future con
  | inside (done : List (List UInt8)) (body more : List UInt8)
      (todo : List (List UInt8)) :
      messages = done ++ body :: todo → con.passed = earlier ++ done →
      con.isOpen = true → con.readSize = body.length →
      body.length ≤ con.data.size → body = con.data.data ++ more →
      more ≠ [] → con.unread ++ future = more ++ wire todo →
      InStep earlier messages future con

theorem length_wire (messages : List (List UInt8)) : (wire messages).length = span 4 messages := by
  induction messages with
  | nil => rfl
  | cons body rest induction =>
    simp only [wire, span, List.length_append, List.length_reverse, length_toMem, induction]

/-- The big-endian length is what `getUint32()` reads. -/
theorem getUint32_length {length : Nat} (bound : length < 2 ^ 32) :
    (getUint32 networkFlags (psdbNew (toMem 4 length).reverse) 0).1 =
      length := by
  have bytes : (addUint32ToMsg length).bytes networkFlags = (toMem 4 length).reverse := by
    rw [addUint32ToMsg, bytes_word integerType_uint32]
    simp [encodeWord, encodeTag, word, networkFlags, shuffle]
  have read := @getUint32_readerAt networkFlags length bound [] [] 0
  rw [List.append_nil, bytes] at read
  have same : readerAt [] (toMem 4 length).reverse = psdbNew (toMem 4 length).reverse := rfl
  rw [same] at read
  rw [read]

/-- The buffer has room for what it was grown for. -/
theorem psdbGrow_size {buffer : RecvData} {newSize : Nat}
    (used : buffer.data.length < newSize ∨ newSize ≤ buffer.size) (bound : newSize ≤ maxMsgSize) :
    newSize ≤ (psdbGrow buffer newSize).size := by
  unfold psdbGrow
  split
  · assumption
  · rename_i small
    have less : buffer.data.length < newSize := by omega
    have total : buffer.data.length + (newSize - buffer.data.length) - 1 = newSize - 1 := by omega
    have positive : bufMsgSize = 1432 := rfl
    have rounded : newSize ≤ ((newSize - 1) / bufMsgSize + 1) * bufMsgSize := by
      rw [positive]
      omega
    have small' : ((newSize - 1) / bufMsgSize + 1) * bufMsgSize < 2 ^ 32 := by
      rw [positive]
      unfold maxMsgSize at bound
      omega
    have grows : newSize - buffer.data.length ≠ 0 := by omega
    unfold growDataBuffer
    simp only [total, if_pos grows]
    rw [if_neg (Nat.not_le_of_lt small')]
    split
    · exact rounded
    · rename_i enough
      exact Nat.le_trans rounded (Nat.le_of_not_lt enough)

section Run

variable {earlier messages : List (List UInt8)} {future : List UInt8}
  {con : Connection}

theorem readPayload_inStep (done : List (List UInt8)) (body more : List UInt8)
    (todo : List (List UInt8)) (whole : messages = done ++ body :: todo)
    (passed : con.passed = earlier ++ done) (isOpen : con.isOpen = true)
    (sized : con.readSize = body.length) (room : body.length ≤ con.data.size)
    (split : body = con.data.data ++ more) (rest : more ≠ [])
    (stream : con.unread ++ future = more ++ wire todo) :
    InStep earlier messages future (readPayload con) ∧
      (readPayload con).unread = con.unread.drop more.length := by
  have positive : 0 < more.length := length_pos_iff.mpr rest
  have lengths := congrArg List.length split
  rw [List.length_append] at lengths
  have fits : ¬ (con.data.size = 0 ∨ con.readSize > con.data.size) := by omega
  have missing : con.readSize - con.data.data.length = more.length := by omega
  unfold readPayload psdbRecvPProg
  rw [if_neg fits]
  simp only [missing]
  by_cases short : con.unread.length < more.length
  · -- the body stays incomplete
    have taken : con.unread.take more.length = con.unread := take_of_length_le (Nat.le_of_lt short)
    have dropped : con.unread.drop more.length = [] := drop_eq_nil_of_le (Nat.le_of_lt short)
    rw [taken, dropped, if_pos (by rw [List.length_append]; omega)]
    refine ⟨?_, rfl⟩
    rcases append_eq_append_iff.mp stream with
      ⟨later, moreSplit, futureSplit⟩ | ⟨later, unreadSplit, _⟩
    · refine .inside done body later todo whole passed isOpen sized room ?_ ?_ ?_
      · rw [split, moreSplit, append_assoc]
      · rintro rfl
        rw [moreSplit, List.append_nil] at short
        exact Nat.lt_irrefl _ short
      · exact futureSplit
    · rw [unreadSplit, List.length_append] at short
      omega
  · have enough : more.length ≤ con.unread.length := Nat.le_of_not_lt short
    have moreTaken : con.unread.take more.length = more := by
      have taken := congrArg (List.take more.length) stream
      rwa [take_append_of_le_length enough, take_left] at taken
    have rest : con.unread.drop more.length ++ future = wire todo := by
      have dropped := congrArg (List.drop more.length) stream
      rwa [drop_append_of_le_length enough, drop_left] at dropped
    rw [moreTaken, ← split, if_neg (by omega)]
    refine ⟨.between (done ++ [body]) todo ?_ ?_ isOpen rfl rfl rest, rfl⟩
    · rw [whole, append_assoc]
      rfl
    · simp only [doResetCon, passed, append_assoc]

theorem readSize_inStep (valid : ∀ body ∈ messages, ValidBody body) (done todo : List (List UInt8))
    (whole : messages = done ++ todo) (passed : con.passed = earlier ++ done)
    (isOpen : con.isOpen = true) (noSize : con.readSize = 0) (noData : con.data.data = [])
    (unread : con.unread ≠ []) (stream : con.unread ++ future = wire todo) :
    (InStep earlier messages future (readSize con) ∧
      (readSize con).unread.length < con.unread.length) ∨
    (con.unread.length < 4 ∧ todo ≠ [] ∧ (readSize con).unread = [] ∧
      (readSize con).account < con.account) := by
  cases todo with
  | nil =>
    rw [wire, append_eq_nil_iff] at stream
    exact absurd stream.1 unread
  | cons body later =>
    have bodyValid : ValidBody body := valid body (by simp [whole])
    have positive : 0 < con.unread.length := length_pos_iff.mpr unread
    have room : 4 ≤ (psdbGrow con.data 4).size :=
      psdbGrow_size (.inl (by simp [noData])) (by decide)
    have fits : ¬ ((psdbGrow con.data 4).size = 0 ∨ 4 > (psdbGrow con.data 4).size) := by omega
    have headLength : (toMem 4 body.length).reverse.length = 4 := by
      rw [List.length_reverse, length_toMem]
    have start : con.account = span 4 con.passed + con.unread.length := by
      simp [Connection.account, noSize]
    by_cases short : con.unread.length < 4
    · right
      have dropped : con.unread.drop 4 = [] := drop_eq_nil_of_le (Nat.le_of_lt short)
      have result : readSize con = { con with
          data := { psdbClearBuf (psdbGrow con.data 4) with
            data := con.unread }
          unread := [] } := by
        unfold readSize psdbRecvPProg
        simp only [if_neg fits, psdbClearBuf, List.length_nil,
          Nat.sub_zero, nil_append, take_of_length_le (Nat.le_of_lt short), dropped, if_pos short]
      rw [result]
      refine ⟨short, cons_ne_nil _ _, rfl, ?_⟩
      simp only [Connection.account, noSize, true_or, if_true, List.length_nil]
      omega
    · left
      have enough : 4 ≤ con.unread.length := Nat.le_of_not_lt short
      have head : con.unread.take 4 = (toMem 4 body.length).reverse := by
        have taken := congrArg (List.take 4) stream
        rwa [take_append_of_le_length enough, wire, append_assoc,
          take_append_of_le_length headLength.ge,
          take_of_length_le headLength.le] at taken
      have rest : con.unread.drop 4 ++ future = body ++ wire later := by
        have dropped := congrArg (List.drop 4) stream
        rwa [drop_append_of_le_length enough, wire, append_assoc,
          drop_append_of_le_length headLength.ge,
          drop_eq_nil_of_le headLength.le, nil_append] at dropped
      have size : (getUint32 networkFlags
          (psdbNew (toMem 4 body.length).reverse) 0).1 = body.length := by
        refine getUint32_length (Nat.lt_of_le_of_lt bodyValid.2 ?_)
        decide
      let sized : Connection := { con with
        data := psdbClearBuf (psdbGrow { psdbGrow con.data 4 with
          data := (toMem 4 body.length).reverse } body.length)
        readSize := body.length
        unread := con.unread.drop 4 }
      have result : readSize con = readPayload sized := by
        unfold readSize psdbRecvPProg
        simp only [if_neg fits, psdbClearBuf, List.length_nil,
          Nat.sub_zero, nil_append, head, headLength,
          Nat.lt_irrefl, if_false, size]
        rw [if_neg (Nat.not_lt_of_le bodyValid.2), if_neg (Nat.ne_of_gt bodyValid.1)]
        rfl
      have bodyRoom : body.length ≤ sized.data.size := by
        refine psdbGrow_size ?_ bodyValid.2
        by_cases small : body.length ≤ 4
        · exact .inr (Nat.le_trans small room)
        · exact .inl (by rw [headLength]; omega)
      have bodyNonempty : body ≠ [] := length_pos_iff.mp bodyValid.1
      obtain ⟨inStep, left⟩ := @readPayload_inStep earlier messages future sized done body body
        later whole passed isOpen rfl bodyRoom rfl bodyNonempty rest
      rw [result]
      refine ⟨inStep, ?_⟩
      rw [left, length_drop, length_drop]
      omega

/-- The bytes that have arrived end inside a length. -/
def EndsInLength (messages : List (List UInt8)) (future : List UInt8) : Prop :=
  InHeader 4 (span 4 messages - future.length) messages

theorem readSlurmMsg_inStep (valid : ∀ body ∈ messages, ValidBody body)
    (inStep : InStep earlier messages future con) (unread : con.unread ≠ []) :
    (InStep earlier messages future (readSlurmMsg con) ∧
      (readSlurmMsg con).unread.length < con.unread.length) ∨
    (EndsInLength messages future ∧ (readSlurmMsg con).unread = [] ∧
      (readSlurmMsg con).account < con.account) := by
  have positive : 0 < con.unread.length := length_pos_iff.mpr unread
  cases inStep with
  | between done todo whole passed isOpen noSize noData stream =>
    have notFull : ¬ (con.data.size ≠ 0 ∧ con.data.data.length = con.data.size) := by
      rw [noData, List.length_nil]
      rintro ⟨sized, empty⟩
      exact sized empty.symm
    have same : readSlurmMsg con = readSize con := by
      rw [readSlurmMsg, if_neg notFull]
      exact if_pos noSize
    rw [same]
    rcases readSize_inStep valid done todo whole passed isOpen noSize noData
      unread stream with next | ⟨short, some, emptied, dropped⟩
    · exact .inl next
    · refine .inr ⟨?_, emptied, dropped⟩
      cases todo with
      | nil => exact absurd rfl some
      | cons body later =>
        have lengths := congrArg List.length stream
        rw [List.length_append, length_wire] at lengths
        have position : span 4 messages - future.length = span 4 done + con.unread.length := by
          rw [whole, span_append]
          omega
        rw [EndsInLength, position, whole, inHeader_append]
        exact .inl ⟨positive, short⟩
  | inside done body more todo whole passed isOpen sized room split rest
      stream =>
      have moreLength : 0 < more.length := length_pos_iff.mpr rest
      have lengths := congrArg List.length split
      rw [List.length_append] at lengths
      have notFull : ¬ (con.data.size ≠ 0 ∧ con.data.data.length = con.data.size) := by omega
      have same : readSlurmMsg con = readPayload con := by
        rw [readSlurmMsg, if_neg notFull]
        exact if_neg (by omega)
      obtain ⟨next, left⟩ := readPayload_inStep done body more todo whole passed
        isOpen sized room split rest stream
      rw [same]
      refine .inl ⟨next, ?_⟩
      rw [left, length_drop]
      omega

theorem InStep.isOpen (inStep : InStep earlier messages future con) : con.isOpen = true := by
  cases inStep with
  | between _ _ _ _ isOpen => exact isOpen
  | inside _ _ _ _ _ _ isOpen => exact isOpen

theorem serve_empty (rounds : Nat) (empty : con.unread = []) : serve rounds con = con := by
  cases rounds with
  | zero => rfl
  | succ rounds => simp [serve, empty]

/-- All that is readable is read; the reader stays in step or drops bytes. -/
theorem serve_inStep (valid : ∀ body ∈ messages, ValidBody body) (rounds : Nat)
    (enough : con.unread.length ≤ rounds) (inStep : InStep earlier messages future con) :
    (InStep earlier messages future (serve rounds con) ∧ (serve rounds con).unread = []) ∨
    (EndsInLength messages future ∧ (serve rounds con).account < con.account) := by
  induction rounds generalizing con with
  | zero => exact .inl ⟨inStep, length_eq_zero_iff.mp (Nat.le_zero.mp enough)⟩
  | succ rounds induction =>
    by_cases empty : con.unread = []
    · rw [serve_empty _ empty]
      exact .inl ⟨inStep, empty⟩
    · have next : serve (rounds + 1) con = serve rounds (readSlurmMsg con) := by
        rw [serve, if_pos ⟨inStep.isOpen, empty⟩]
      have less := readSlurmMsg_account inStep.isOpen
      rw [next]
      rcases readSlurmMsg_inStep valid inStep empty with
        ⟨still, shorter⟩ | ⟨ends, emptied, dropped⟩
      · rcases induction (by omega) still with good | ⟨ends, dropped⟩
        · exact .inl good
        · exact .inr ⟨ends, Nat.lt_of_lt_of_le dropped less⟩
      · rw [serve_empty _ emptied]
        exact .inr ⟨ends, dropped⟩

/-- A reader that is in step and has read all is not inside a length, and has
accounted for every byte. -/
theorem InStep.accounted (inStep : InStep earlier messages future con)
    (empty : con.unread = []) :
    ¬ EndsInLength messages future ∧
      con.account + future.length = span 4 earlier + span 4 messages := by
  cases inStep with
  | between done todo whole passed isOpen noSize noData stream =>
    rw [empty, nil_append] at stream
    have lengths := congrArg List.length stream
    rw [length_wire] at lengths
    have position : span 4 messages - future.length = span 4 done + 0 := by
      rw [whole, span_append]
      omega
    constructor
    · rw [EndsInLength, position, whole, inHeader_append]
      cases todo with
      | nil => exact id
      | cons body later =>
        rintro (inside | later)
        · exact absurd inside.1 (Nat.lt_irrefl 0)
        · omega
    · rw [whole, span_append]
      simp only [Connection.account, noSize, passed, empty, true_or, if_true,
        span_append, List.length_nil]
      omega
  | inside done body more todo whole passed isOpen sized room split rest
      stream =>
      rw [empty, nil_append] at stream
      have moreLength : 0 < more.length := length_pos_iff.mpr rest
      have lengths := congrArg List.length stream
      have bodyLengths := congrArg List.length split
      rw [List.length_append, length_wire] at lengths
      rw [List.length_append] at bodyLengths
      have position : span 4 messages - future.length =
          span 4 done + (4 + con.data.data.length) := by
        rw [whole, span_append, span]
        omega
      constructor
      · rw [EndsInLength, position, whole, inHeader_append]
        rintro (inside | later)
        · omega
        · omega
      · have inBody : ¬ (con.readSize = 0 ∨ con.isOpen = false) := by
          rw [isOpen]
          simp only [Bool.true_eq_false, or_false]
          omega
        rw [whole, span_append, span]
        simp only [Connection.account, passed, empty, if_neg inBody, span_append, List.length_nil]
        omega

/-- At the end of the stream everything has been passed on. -/
theorem InStep.finished (inStep : InStep earlier messages [] con)
    (empty : con.unread = []) : con.passed = earlier ++ messages := by
  cases inStep with
  | between done todo whole passed isOpen noSize noData stream =>
    cases todo with
    | nil => rw [passed, whole, List.append_nil]
    | cons body later =>
      have lengths := congrArg List.length stream
      rw [length_wire, empty] at lengths
      simp only [List.append_nil, List.length_nil, span] at lengths
      omega
  | inside done body more todo whole passed isOpen sized room split rest
      stream =>
      rw [empty, List.append_nil] at stream
      exact absurd (append_eq_nil_iff.mp stream.symm).1 rest

theorem arrive_inStep (valid : ∀ body ∈ messages, ValidBody body) {chunk : List UInt8}
    (inStep : InStep earlier messages (chunk ++ future) con) :
    (InStep earlier messages future (arrive con chunk) ∧ (arrive con chunk).unread = []) ∨
    (EndsInLength messages future ∧ (arrive con chunk).account < con.account + chunk.length) := by
  have received : InStep earlier messages future { con with unread := con.unread ++ chunk } := by
    cases inStep with
    | between done todo whole passed isOpen noSize noData stream =>
      exact .between done todo whole passed isOpen noSize noData (by rw [append_assoc, stream])
    | inside done body more todo whole passed isOpen sized room split rest
        stream =>
        exact .inside done body more todo whole passed isOpen sized room split
          rest (by rw [append_assoc, stream])
  have account : { con with unread := con.unread ++ chunk : Connection }.account
      = con.account + chunk.length := by
    simp only [Connection.account, List.length_append]
    omega
  have served := serve_inStep valid (con.unread ++ chunk).length (Nat.le_refl _) received
  rw [account] at served
  exact served

/-- From any point between two chunks on. -/
theorem arrivals_inStep (valid : ∀ body ∈ messages, ValidBody body) {chunks : List (List UInt8)}
    (inStep : InStep earlier messages chunks.flatten con) (empty : con.unread = []) :
    (chunks.foldl arrive con).passed = earlier ++ messages ↔
      HeadersWhole 4 messages (span 4 messages - chunks.flatten.length)
        chunks := by
  induction chunks generalizing con with
  | nil =>
    refine iff_of_true ?_ trivial
    exact inStep.finished empty
  | cons chunk rest induction =>
    obtain ⟨_, accounted⟩ := inStep.accounted empty
    rw [flatten_cons] at inStep accounted ⊢
    rw [List.length_append] at accounted ⊢
    have bound : chunk.length + rest.flatten.length ≤ span 4 messages := by
      have before : span 4 earlier ≤ con.account := by
        cases inStep with
        | between _ _ _ passed =>
          simp only [Connection.account, passed, span_append]
          omega
        | inside _ _ _ _ _ passed =>
          simp only [Connection.account, passed, span_append]
          omega
      omega
    have position : span 4 messages - (chunk.length + rest.flatten.length) + chunk.length =
          span 4 messages - rest.flatten.length := by omega
    rw [HeadersWhole, position, foldl_cons]
    rcases arrive_inStep valid inStep with ⟨still, emptied⟩ | ⟨ends, dropped⟩
    · rw [induction still emptied]
      exact ⟨fun later => ⟨(still.accounted emptied).1, later⟩,
        fun both => both.2⟩
    · refine iff_of_false ?_ (fun both => both.1 ends)
      intro complete
      have final := arrivals_account rest (arrive con chunk)
      have least : span 4 (rest.foldl arrive (arrive con chunk)).passed ≤
          (rest.foldl arrive (arrive con chunk)).account := by
        simp only [Connection.account]
        omega
      rw [complete, span_append] at least
      omega

end Run

/-- The connection waits for a new message. -/
structure Connection.Idle (con : Connection) : Prop where
  isOpen : con.isOpen = true
  noSize : con.readSize = 0
  noData : con.data.data = []
  unread : con.unread = []

/-- `readSlurmMsg()` passes on exactly the messages of a stream if and only if
no chunk ends inside a length. -/
theorem readSlurmMsg_framing_iff (con : Connection) (idle : con.Idle)
    (messages chunks : List (List UInt8))
    (valid : ∀ body ∈ messages, 1 ≤ body.length ∧ body.length ≤ maxMsgSize)
    (stream : chunks.flatten = wire messages) :
    (chunks.foldl arrive con).passed = con.passed ++ messages ↔
      HeadersWhole 4 messages 0 chunks := by
  have inStep : InStep con.passed messages chunks.flatten con := by
    refine .between [] messages rfl (List.append_nil _).symm idle.isOpen idle.noSize idle.noData ?_
    rw [idle.unread, nil_append, stream]
  have start := arrivals_inStep valid inStep idle.unread
  rwa [stream, length_wire, Nat.sub_self] at start

/-- A connection as `addConnection()` creates it. -/
def Connection.new : Connection :=
  { data := ⟨0, []⟩, readSize := 0, isOpen := true, unread := [], passed := [] }

theorem new_idle : Connection.new.Idle := ⟨rfl, rfl, rfl, rfl⟩

theorem readSlurmMsg_framing_bodies :
    ([[0, 0, 0, 2, 7], [8, 0, 0, 0, 1, 9]].foldl arrive Connection.new).passed =
        [] ++ [[7, 8], [9]] ↔
      HeadersWhole 4 [[7, 8], [9]] 0 [[0, 0, 0, 2, 7], [8, 0, 0, 0, 1, 9]] :=
  readSlurmMsg_framing_iff Connection.new new_idle [[7, 8], [9]] _ (by decide) (by decide)

/-- One message whose length arrives in two chunks is never passed on. -/
theorem split_length_lost : ([[0, 0], [0, 1, 9]].foldl arrive Connection.new).passed ≠ [[9]] := by
  decide

end Psmgmt.Slurm
