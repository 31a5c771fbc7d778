import Psmgmt.Slurm.Output

/-!
# What a rank's line buffered output becomes

Every chunk of a rank's stdout is either kept or written together with what was
kept before it.  Labelled output drops what no newline ends, and a close with a
filled buffer sends no end-of-file message.
-/

namespace Psmgmt.Slurm

open Lines List Option

/-! ## The writes of a rank -/

/-- The writes of a local rank's stdout. -/
def rankOutput (lrank : Nat) (state : IOState) : List Write :=
  state.written.filter (fun write => write.lrank == lrank && write.type == OutType.stdout)

def bytesOf (writes : List Write) : List UInt8 := (writes.map Write.msg).flatten

def dataOf (writes : List Write) : List UInt8 :=
  bytesOf (writes.filter (fun write => !write.isLabel))

/-- Labels stand at the beginning of lines, after `before` was written. -/
def LabelsAtLineStart (before : List UInt8) : List Write → Prop
  | [] => True
  | write :: rest =>
    (write.isLabel = true → Ended newline before) ∧ LabelsAtLineStart (before ++ write.msg) rest

/-- One empty message, after all the others. -/
def OneEndOfFile (writes : List Write) : Prop :=
  ∃ before last, writes = before ++ [last] ∧ last.msg = [] ∧ ∀ write ∈ before, write.msg ≠ []

/-- The rank's output goes to srun. -/
def Step.ToSrun (step : Step) : Prop := step.stdOutOpt = .srun ∨ step.stdOutOpt = .srunRank

instance (step : Step) : Decidable step.ToSrun := by
  unfold Step.ToSrun
  infer_instance

/-- All of `data` was written for the rank, with labels at the beginning of
lines, and an end-of-file message followed if srun is the target. -/
structure OutputComplete (step : Step) (lrank : Nat) (data : List UInt8)
    (state : IOState) : Prop where
  data : dataOf (rankOutput lrank state) = data
  labels : LabelsAtLineStart [] (rankOutput lrank state)
  endOfFile : step.ToSrun → OneEndOfFile (rankOutput lrank state)

/-! ## What a sequence of chunks leaves unflushed -/

/-- The number of bytes waiting for a newline after one more chunk. -/
def pendingStep (pending : Nat) (chunk : List UInt8) : Nat :=
  match lastBreak newline chunk with
  | some position => chunk.length - (position + 1)
  | none =>
    if pending + chunk.length > maxLineBufLength then 0
    else pending + chunk.length

/-- The number of bytes that wait for a newline at the end. -/
def pendingAfter (chunks : List (List UInt8)) : Nat := chunks.foldl pendingStep 0

/-- A line longer than the limit is cut. -/
def Cuts (pending : Nat) (chunk : List UInt8) : Prop :=
  newline ∉ chunk ∧ pending + chunk.length > maxLineBufLength

instance (pending : Nat) (chunk : List UInt8) : Decidable (Cuts pending chunk) :=
  by unfold Cuts; infer_instance

/-- No line is cut, where `pending` bytes wait already. -/
def NoLineCut (pending : Nat) : List (List UInt8) → Prop
  | [] => True
  | chunk :: rest => ¬ Cuts pending chunk ∧ NoLineCut (pendingStep pending chunk) rest

/-- psslurm labels the rank's lines itself. -/
def Step.Labels (step : Step) : Prop := step.labelIO = true ∧ ¬ step.ToSrun

/-- Output to srun must not leave bytes waiting for a newline, labelled output
to a file must not even have a line cut.  Other output is never lost. -/
def OutputCondition (step : Step) (chunks : List (List UInt8)) : Prop :=
  (step.ToSrun → pendingAfter chunks = 0) ∧
    (step.Labels → NoLineCut 0 chunks ∧ pendingAfter chunks = 0)

variable (chunks : List (List UInt8))

@[simp] theorem pendingAfter_snoc
    (chunk : List UInt8) :
    pendingAfter (chunks ++ [chunk]) = pendingStep (pendingAfter chunks) chunk := by
  simp [pendingAfter]

theorem noLineCut_append (pending : Nat) (first second : List (List UInt8)) :
    NoLineCut pending (first ++ second) ↔
      NoLineCut pending first ∧ NoLineCut (first.foldl pendingStep pending) second := by
  induction first generalizing pending with
  | nil => simp [NoLineCut]
  | cons chunk rest induction =>
    simp only [cons_append, NoLineCut, foldl_cons, induction]
    exact and_assoc.symm

theorem noLineCut_snoc (chunk : List UInt8) :
    NoLineCut 0 (chunks ++ [chunk]) ↔ NoLineCut 0 chunks ∧ ¬ Cuts (pendingAfter chunks) chunk := by
  rw [noLineCut_append]
  simp [NoLineCut, pendingAfter]

/-! ## Lists of writes -/

variable (first second : List Write)

@[simp] theorem bytesOf_append : bytesOf (first ++ second) = bytesOf first ++ bytesOf second := by
  simp [bytesOf]

@[simp] theorem dataOf_append : dataOf (first ++ second) = dataOf first ++ dataOf second := by
  simp [dataOf]

theorem labelsAtLineStart_append (before : List UInt8)
    (first second : List Write) :
    LabelsAtLineStart before (first ++ second) ↔
      LabelsAtLineStart before first ∧ LabelsAtLineStart (before ++ bytesOf first) second := by
  induction first generalizing before with
  | nil => simp [LabelsAtLineStart, bytesOf]
  | cons write rest induction =>
    simp only [cons_append, LabelsAtLineStart, induction]
    simp [bytesOf, and_assoc]

def IOState.write (state : IOState) (writes : List Write) : IOState :=
  { state with written := state.written ++ writes }

variable {lrank : Nat} {writes : List Write} {step : Step}

theorem rankOutput_write (owner : ∀ write ∈ writes, write.lrank = lrank ∧ write.type = .stdout)
    (state : IOState) :
    rankOutput lrank (state.write writes) = rankOutput lrank state ++ writes := by
  have all : writes.filter (fun write =>
      write.lrank == lrank && write.type == OutType.stdout) = writes := by
    rw [filter_eq_self]
    intro write member
    simp [owner write member]
  simp [rankOutput, IOState.write, all]

theorem rankOutput_write_other
    (other : ∀ write ∈ writes, ¬ (write.lrank = lrank ∧ write.type = .stdout)) (state : IOState) :
    rankOutput lrank (state.write writes) = rankOutput lrank state := by
  have nothing : writes.filter (fun write =>
      write.lrank == lrank && write.type == OutType.stdout) = [] := by
    rw [filter_eq_nil_iff]
    intro write member
    simpa using other write member
  simp [rankOutput, IOState.write, nothing]

/-! ## Writing lines -/

structure BlockWrites (step : Step) (lrank : Nat) (type : OutType)
    (text : List UInt8) (writes : List Write) : Prop where
  owner : ∀ write ∈ writes, write.lrank = lrank ∧ write.type = type
  full : text ≠ [] → ∀ write ∈ writes, write.msg ≠ []
  labels : ∀ before, (step.Labels → Ended newline before) → LabelsAtLineStart before writes
  ended : step.Labels → Ended newline (bytesOf writes)
  data : (step.Labels → Ended newline text) → dataOf writes = text
  unbroken : step.Labels → newline ∉ text → writes = []
  plain : ¬ step.Labels → ∃ write, writes = [write] ∧ write.isLabel = false ∧ write.msg = text

theorem ioWriteMsg_eq (noPty : step.pty = false) (isLabel : Bool) (msg : List UInt8) (grank : Nat)
    (type : OutType) (lrank : Nat) (state : IOState) :
    ioWriteMsg step isLabel msg grank type lrank state =
      state.write [{
        isLabel := isLabel
        msg := msg
        grank := grank
        type := type
        lrank := lrank
        dest := writeDest step grank type lrank }] := by
  simp [ioWriteMsg, noPty, IOState.write]

theorem rankLabel_ne_nil (step : Step) (grank : Nat) : rankLabel step grank ≠ [] := by
  simp [rankLabel]

variable (state : IOState)

theorem IOState.write_write (first second : List Write) :
    (state.write first).write second = state.write (first ++ second) := by
  simp [IOState.write]

theorem writeLabelledLines_spec (noPty : step.pty = false) (labels : step.Labels)
    (text : List UInt8) (grank : Nat) (type : OutType) (lrank : Nat) :
    ∃ writes, (∀ state, writeLabelledLines step text grank type lrank state = state.write writes) ∧
      (∀ write ∈ writes, write.msg ≠ []) ∧ BlockWrites step lrank type text writes := by
  induction size : text.length using Nat.strongRecOn generalizing text with
  | _ length induction =>
    cases found : firstBreak newline text with
    | none =>
      refine ⟨[], ?_, by simp, ?_⟩
      · intro state
        rw [writeLabelledLines]
        split
        · simp [IOState.write]
        · rename_i position foundSome
          rw [found] at foundSome
          cases foundSome
      · have absent := firstBreak_none.mp found
        refine ⟨by simp, by simp, by simp [LabelsAtLineStart],
          fun _ => .inl rfl, ?_, fun _ _ => rfl,
          fun plain => absurd labels plain⟩
        intro ended
        rcases ended labels with empty | last
        · simp [empty, dataOf, bytesOf]
        · exact absurd (mem_of_getLast? last) absent
    | some position =>
      obtain ⟨inside, lineEnded⟩ := firstBreak_some found
      obtain ⟨writes, equation, full, block⟩ :=
        induction (text.drop (position + 1)).length (by
          rw [← size, length_drop]
          omega) (text.drop (position + 1)) rfl
      have lineNonempty : text.take (position + 1) ≠ [] := by
        intro empty
        have := congrArg List.length empty
        simp only [length_take, length_nil] at this
        omega
      let label : Write :=
        { isLabel := true, msg := rankLabel step grank, grank := grank,
          type := type, lrank := lrank,
          dest := writeDest step grank type lrank }
      let line : Write :=
        { isLabel := false, msg := text.take (position + 1),
          grank := grank, type := type, lrank := lrank,
          dest := writeDest step grank type lrank }
      have lineBytes : bytesOf (label :: line :: writes) =
          rankLabel step grank ++ (text.take (position + 1) ++ bytesOf writes) := by
        simp [bytesOf, label, line]
      have restEnded := block.ended labels
      refine ⟨label :: line :: writes, ?_, ?_, ?_⟩
      · intro state
        rw [writeLabelledLines]
        split
        · rename_i foundNone
          rw [found] at foundNone
          cases foundNone
        · rename_i other foundSome
          rw [found] at foundSome
          cases foundSome
          simp only [ioWriteMsg_eq noPty, equation, IOState.write_write]
          rfl
      · intro write member
        rcases mem_cons.mp member with rfl | member
        · exact rankLabel_ne_nil step grank
        · rcases mem_cons.mp member with rfl | member
          · exact lineNonempty
          · exact full write member
      · refine ⟨?_, ?_, ?_, ?_, ?_, ?_, fun plain => absurd labels plain⟩
        · intro write member
          rcases mem_cons.mp member with rfl | member
          · exact ⟨rfl, rfl⟩
          · rcases mem_cons.mp member with rfl | member
            · exact ⟨rfl, rfl⟩
            · exact block.owner write member
        · intro _ write member
          rcases mem_cons.mp member with rfl | member
          · exact rankLabel_ne_nil step grank
          · rcases mem_cons.mp member with rfl | member
            · exact lineNonempty
            · exact full write member
        · intro before beforeEnded
          refine ⟨fun _ => beforeEnded labels, by simp [line], ?_⟩
          exact block.labels _ (fun _ => Ended.append_right lineNonempty lineEnded)
        · intro _
          rw [lineBytes, ← append_assoc]
          exact (Ended.append_right lineNonempty lineEnded).append restEnded
        · intro ended
          have rest := block.data (fun _ => (ended labels).drop _)
          have dataEq : dataOf (label :: line :: writes) =
              text.take (position + 1) ++ dataOf writes := by
            simp [dataOf, bytesOf, label, line]
          rw [dataEq, rest, take_append_drop]
        · intro _ absent
          rw [firstBreak_none.mpr absent] at found
          cases found

theorem noLabel_stdout (step : Step) (text : List UInt8) :
    noLabel step text .stdout = true ↔ ¬ step.Labels ∨ text = [] := by
  unfold Step.Labels Step.ToSrun noLabel
  cases step.labelIO <;> cases text <;> simp
  cases step.stdOutOpt <;> simp

theorem writeLabelIOmsg_spec (noPty : step.pty = false) (text : List UInt8)
    (grank lrank : Nat) (nonempty : step.Labels → text ≠ []) :
    ∃ writes, (∀ state, writeLabelIOmsg step text grank .stdout lrank state = state.write writes) ∧
      BlockWrites step lrank .stdout text writes := by
  by_cases labels : step.Labels
  · obtain ⟨writes, equation, _, block⟩ :=
      writeLabelledLines_spec noPty labels text grank .stdout lrank
    refine ⟨writes, ?_, block⟩
    intro state
    have labelled : ¬ noLabel step text .stdout = true := by
      rw [noLabel_stdout]
      rintro (plain | empty)
      · exact plain labels
      · exact nonempty labels empty
    rw [writeLabelIOmsg, if_neg labelled, equation]
  · refine ⟨[{
      isLabel := false
      msg := text
      grank := grank
      type := .stdout
      lrank := lrank
      dest := writeDest step grank .stdout lrank }], ?_, ?_⟩
    · intro state
      rw [writeLabelIOmsg, if_pos ((noLabel_stdout step text).mpr (.inl labels)),
        ioWriteMsg_eq noPty]
    · refine ⟨by simp, by simp, ?_, fun labels' => absurd labels' labels, ?_,
        fun labels' => absurd labels' labels, fun _ => ⟨_, rfl, rfl, rfl⟩⟩
      · intro before _
        simp [LabelsAtLineStart]
      · intro _
        simp [dataOf, bytesOf]

/-! ## One chunk -/

@[simp] theorem buffer_setBuffer (lrank : Nat)
    (type : OutType) (data : List UInt8) :
    (state.setBuffer lrank type data).buffer lrank type = data := by
  cases type <;> simp [IOState.buffer, IOState.setBuffer, LineBuf.get, LineBuf.set]

@[simp] theorem buffer_write (writes : List Write)
    (lrank : Nat) (type : OutType) :
    (state.write writes).buffer lrank type = state.buffer lrank type := rfl

@[simp] theorem setBuffer_setBuffer (lrank : Nat)
    (type : OutType) (first second : List UInt8) :
    (state.setBuffer lrank type first).setBuffer lrank type second =
      state.setBuffer lrank type second := by
  cases type <;> simp [IOState.setBuffer, LineBuf.set]

theorem setBuffer_self (lrank : Nat) (type : OutType) :
    state.setBuffer lrank type (state.buffer lrank type) = state := by
  cases type <;> simp [IOState.setBuffer, LineBuf.set, IOState.buffer, LineBuf.get]

theorem setBuffer_write (writes : List Write) (lrank : Nat) (type : OutType)
    (data : List UInt8) :
    (state.setBuffer lrank type data).write writes =
      (state.write writes).setBuffer lrank type data := rfl

/-- The length of what a message ends, as `handleBufferedMsg()` counts it. -/
def flushLength (msg : List UInt8) : Nat :=
  match lastBreak newline msg with
  | some position => position + 1
  | none => msg.length

/-- The message makes `handleBufferedMsg()` write. -/
def Flushes (used : Nat) (msg : List UInt8) : Prop :=
  newline ∈ msg ∨ msg = [] ∨ used + msg.length > maxLineBufLength

theorem handleBufferedMsg_keep {msg : List UInt8} {grank : Nat} {state : IOState}
    (keeps : ¬ Flushes (state.buffer lrank .stdout).length msg) :
    handleBufferedMsg step msg grank .stdout lrank state =
      state.setBuffer lrank .stdout (state.buffer lrank .stdout ++ msg) := by
  have absent : lastBreak newline msg = none :=
    lastBreak_none.mpr (fun member => keeps (.inl member))
  have nonempty : msg ≠ [] := fun empty => keeps (.inr (.inl empty))
  have fits : ¬ (state.buffer lrank .stdout).length + msg.length >
      maxLineBufLength := fun beyond => keeps (.inr (.inr beyond))
  rw [handleBufferedMsg]
  simp only [absent]
  rw [if_neg]
  · rfl
  · simp [nonempty]
    omega

/-- The buffer and a first part of the message are written, the rest is kept. -/
theorem flushed_eq {step : Step} {msg : List UInt8} {grank lrank : Nat}
    {state : IOState} {writes : List Write} {count : Nat}
    (equation : ∀ other, writeLabelIOmsg step
      (state.buffer lrank .stdout ++ msg.take count) grank .stdout lrank other =
        other.write writes) :
    (let flushed :=
      if (state.buffer lrank .stdout).length ≠ 0 then
        let joined := state.memToDataBuffer (msg.take count) lrank .stdout
        let written := writeLabelIOmsg step (joined.buffer lrank .stdout) grank .stdout lrank joined
        written.setBuffer lrank .stdout []
      else
        writeLabelIOmsg step (msg.take count) grank .stdout lrank state
    if msg.length > count then
      flushed.memToDataBuffer (msg.drop count) lrank .stdout
    else flushed) = (state.write writes).setBuffer lrank .stdout (msg.drop count) := by
  have flushed : (if (state.buffer lrank .stdout).length ≠ 0 then
        let joined := state.memToDataBuffer (msg.take count) lrank .stdout
        let written := writeLabelIOmsg step (joined.buffer lrank .stdout) grank .stdout lrank joined
        written.setBuffer lrank .stdout []
      else
        writeLabelIOmsg step (msg.take count) grank .stdout lrank state) =
      (state.write writes).setBuffer lrank .stdout [] := by
    by_cases empty : state.buffer lrank .stdout = []
    · have same := setBuffer_self (state.write writes) lrank .stdout
      rw [buffer_write, empty] at same
      rw [empty, nil_append] at equation
      simp only [empty, length_nil, ne_eq, not_true_eq_false, if_false]
      rw [equation, same]
    · rw [if_pos (by simpa using empty)]
      simp only [IOState.memToDataBuffer, buffer_setBuffer, equation,
        setBuffer_write, setBuffer_setBuffer]
  dsimp only at flushed ⊢
  rw [flushed]
  by_cases rest : msg.length > count
  · rw [if_pos rest]
    simp [IOState.memToDataBuffer]
  · rw [if_neg rest, drop_eq_nil_of_le (by omega)]

theorem handleBufferedMsg_flush {msg : List UInt8} {grank : Nat}
    {state : IOState}
    (flushes : Flushes (state.buffer lrank .stdout).length msg)
    (equation : ∀ other, writeLabelIOmsg step
      (state.buffer lrank .stdout ++ msg.take (flushLength msg)) grank .stdout
        lrank other = other.write writes) :
    handleBufferedMsg step msg grank .stdout lrank state =
      (state.write writes).setBuffer lrank .stdout (msg.drop (flushLength msg)) := by
  unfold flushLength at equation ⊢
  unfold handleBufferedMsg
  cases found : lastBreak newline msg with
  | some position =>
    simp only [found] at equation
    simp only [isSome_some, true_or, if_true]
    exact flushed_eq equation
  | none =>
    have absent := lastBreak_none.mp found
    simp only [found] at equation
    simp only [isSome_none, Bool.false_eq_true, false_or]
    rw [if_pos]
    · exact flushed_eq equation
    · rcases flushes with member | empty | beyond
      · exact absurd member absent
      · exact .inl (by simp [empty])
      · exact .inr beyond

end Psmgmt.Slurm
