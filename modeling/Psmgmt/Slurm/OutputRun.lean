import Psmgmt.Slurm.LineOutput

/-!
# Output of a rank over a whole run

Messages of all local ranks and of both types arrive in any order.  A rank's
stdout depends on its own stdout messages only, and is complete exactly when
these leave nothing for labels or the end of file to lose.
-/

namespace Psmgmt.Slurm

open Lines List Function

/-- A call of `IO_printStepMsg()`. -/
structure OutMsg where
  rank : Nat
  type : OutType
  msg : List UInt8
  deriving DecidableEq, Repr

/-- `IO_printStepMsg()` for one message after the other. -/
def printStepMsgs (step : Step) (messages : List OutMsg) (state : IOState) :
    IOState :=
  messages.foldl (fun state out => ioPrintStepMsg step out.msg out.rank out.type state) state

/-- The message belongs to the local rank's stdout. -/
def OutMsg.Stdout (step : Step) (lrank : Nat) (out : OutMsg) : Prop :=
  getLocalRankID out.rank step = some lrank ∧ out.type = .stdout

instance (step : Step) (lrank : Nat) (out : OutMsg) : Decidable (out.Stdout step lrank) := by
  unfold OutMsg.Stdout
  infer_instance

/-- The chunks of a local rank's stdout, an empty one for closing it. -/
def stdoutChunks (step : Step) (lrank : Nat) (messages : List OutMsg) : List (List UInt8) :=
  (messages.filter (fun out => out.Stdout step lrank)).map OutMsg.msg

/-- The rank's stdout channel takes further output. -/
def ChannelOpen (lrank : Nat) (state : IOState) : Prop :=
  ∀ channels, state.outChannels = some channels → channels lrank = true

/-! ## Messages that do not concern the rank -/

/-- Nothing that concerns the rank's stdout has changed. -/
structure SameForRank (lrank : Nat) (before after : IOState) : Prop where
  output : rankOutput lrank after = rankOutput lrank before
  buffer : after.buffer lrank .stdout = before.buffer lrank .stdout
  channel : ChannelOpen lrank before → ChannelOpen lrank after

theorem SameForRank.refl (lrank : Nat) (state : IOState) :
    SameForRank lrank state state := ⟨rfl, rfl, id⟩

variable {lrank other : Nat} {writes : List Write} {step : Step}
  {msg : List UInt8} {out : OutMsg} {sent : List (List UInt8)}
  {after state : IOState}

theorem SameForRank.trans {first second third : IOState} (one : SameForRank lrank first second)
    (two : SameForRank lrank second third) : SameForRank lrank first third :=
  ⟨two.output.trans one.output, two.buffer.trans one.buffer,
    fun isOpen => two.channel (one.channel isOpen)⟩

theorem sameForRank_write (other : ∀ write ∈ writes, ¬ (write.lrank = lrank ∧ write.type = .stdout))
    (state : IOState) : SameForRank lrank state (state.write writes) :=
  ⟨rankOutput_write_other other state, rfl, id⟩

theorem sameForRank_setBuffer (different : other ≠ lrank) (type : OutType)
    (data : List UInt8) (state : IOState) :
    SameForRank lrank state (state.setBuffer other type data) := by
  refine ⟨rfl, ?_, id⟩
  simp [IOState.buffer, IOState.setBuffer, update_of_ne (Ne.symm different)]

section

variable (noPty : step.pty = false)

include noPty

theorem sameForRank_ioWriteMsg (isLabel : Bool) (msg : List UInt8) (grank : Nat) (type : OutType)
    (different : ¬ (other = lrank ∧ type = .stdout)) (state : IOState) :
    SameForRank lrank state (ioWriteMsg step isLabel msg grank type other state) := by
  rw [ioWriteMsg_eq noPty]
  apply sameForRank_write
  intro write member
  rw [mem_singleton.mp member]
  exact different

/-- A block of text is written for its own rank only. -/
theorem writeLabelIOmsg_owner (text : List UInt8) (grank lrank : Nat) :
    ∃ writes, (∀ state, writeLabelIOmsg step text grank .stdout lrank state = state.write writes) ∧
      ∀ write ∈ writes, write.lrank = lrank ∧ write.type = .stdout := by
  by_cases empty : text = []
  · refine ⟨[{
      isLabel := false
      msg := text
      grank := grank
      type := .stdout
      lrank := lrank
      dest := writeDest step grank .stdout lrank }], fun state => ?_, by simp⟩
    rw [writeLabelIOmsg, if_pos ((noLabel_stdout step text).mpr (.inr empty)), ioWriteMsg_eq noPty]
  · obtain ⟨writes, equation, block⟩ :=
      writeLabelIOmsg_spec noPty text grank lrank (fun _ => empty)
    exact ⟨writes, equation, block.owner⟩

theorem sameForRank_handleBufferedMsg (msg : List UInt8) (grank : Nat)
    (different : other ≠ lrank) (state : IOState) :
    SameForRank lrank state (handleBufferedMsg step msg grank .stdout other state) := by
  by_cases flushes : Flushes (state.buffer other .stdout).length msg
  · obtain ⟨writes, equation, owner⟩ := writeLabelIOmsg_owner noPty
      (state.buffer other .stdout ++ msg.take (flushLength msg)) grank other
    rw [handleBufferedMsg_flush flushes equation]
    refine (sameForRank_write ?_ state).trans (sameForRank_setBuffer different _ _ _)
    intro write member own
    exact different ((owner write member).1.symm.trans own.1)
  · rw [handleBufferedMsg_keep flushes]
    exact sameForRank_setBuffer different _ _ _

theorem sameForRank_printRankMsg (msg : List UInt8) (grank : Nat) (type : OutType)
    (different : ¬ (other = lrank ∧ type = .stdout)) (state : IOState) :
    SameForRank lrank state (printRankMsg step msg grank type other state) := by
  unfold printRankMsg
  split
  · exact sameForRank_ioWriteMsg noPty _ _ _ _ different _
  · rename_i buffered
    cases type with
    | stderr => simp at buffered
    | stdout =>
      refine sameForRank_handleBufferedMsg noPty msg grank ?_ state
      intro same
      exact different ⟨same, rfl⟩

end

/-- Closing another rank's channel leaves this one open. -/
theorem trackChannel_other (different : other ≠ lrank) {before after : Option (Nat → Bool)}
    (tracked : trackChannel msg other before = some after)
    (isOpen : ∀ channels, before = some channels → channels lrank = true) :
    ∀ channels, after = some channels → channels lrank = true := by
  cases before with
  | none =>
    cases tracked
    exact isOpen
  | some channels =>
    simp only [trackChannel] at tracked
    split at tracked
    · cases tracked
    · split at tracked
      · cases tracked
        intro updated equality
        cases equality
        rw [update_of_ne (Ne.symm different)]
        exact isOpen channels rfl
      · cases tracked
        exact isOpen

/-- A message of another rank or to stderr. -/
theorem sameForRank_other (noPty : step.pty = false)
    (other : ¬ out.Stdout step lrank) (state : IOState) :
    SameForRank lrank state (ioPrintStepMsg step out.msg out.rank out.type state) := by
  obtain ⟨rank, type, msg⟩ := out
  unfold ioPrintStepMsg
  cases found : getLocalRankID rank step with
  | none => exact SameForRank.refl lrank state
  | some owner =>
    have different : ¬ (owner = lrank ∧ type = .stdout) := by
      rintro ⟨rfl, rfl⟩
      exact other ⟨found, rfl⟩
    dsimp only
    cases type with
    | stdout =>
      have apart : owner ≠ lrank := fun same => different ⟨same, rfl⟩
      dsimp only
      cases tracked : trackChannel msg owner state.outChannels with
      | none => exact SameForRank.refl lrank state
      | some channels =>
        have channel : SameForRank lrank state { state with outChannels := channels } :=
          ⟨rfl, rfl, trackChannel_other apart tracked⟩
        exact channel.trans (sameForRank_printRankMsg noPty _ _ _ different _)
    | stderr =>
      dsimp only
      cases trackChannel msg owner state.errChannels with
      | none => exact SameForRank.refl lrank state
      | some channels =>
        have channel : SameForRank lrank state
            { state with errChannels := channels } := ⟨rfl, rfl, id⟩
        exact channel.trans (sameForRank_printRankMsg noPty _ _ _ different _)

/-! ## The rank's own messages -/

/-- The rank's stdout after the chunks in `sent`. -/
structure Streamed (step : Step) (lrank : Nat) (sent : List (List UInt8))
    (state : IOState) : Prop where
  channel : ChannelOpen lrank state
  pending : (state.buffer lrank .stdout).length = pendingAfter sent
  unbroken : newline ∉ state.buffer lrank .stdout
  full : ∀ write ∈ rankOutput lrank state, write.msg ≠ []
  labels : LabelsAtLineStart [] (rankOutput lrank state)
  ended : step.Labels → Ended newline (bytesOf (rankOutput lrank state))
  kept : (step.Labels → NoLineCut 0 sent) →
    dataOf (rankOutput lrank state) ++ state.buffer lrank .stdout = sent.flatten
  lost : step.Labels → ¬ NoLineCut 0 sent → (dataOf (rankOutput lrank state)).length +
      (state.buffer lrank .stdout).length < sent.flatten.length

theorem Streamed.same {before : IOState} (streamed : Streamed step lrank sent before)
    (same : SameForRank lrank before after) :
    Streamed step lrank sent after := by
  obtain ⟨channel, pending, unbroken, full, labels, ended, kept, lost⟩ := streamed
  constructor
  · exact same.channel channel
  · rw [same.buffer, pending]
  · rwa [same.buffer]
  · rwa [same.output]
  · rwa [same.output]
  · rwa [same.output]
  · rwa [same.output, same.buffer]
  · rwa [same.output, same.buffer]

theorem OutputComplete.same {data : List UInt8} {before : IOState}
    (same : SameForRank lrank before after) :
    OutputComplete step lrank data after ↔ OutputComplete step lrank data before := by
  constructor
  · rintro ⟨written, labels, endOfFile⟩
    rw [same.output] at written labels endOfFile
    exact ⟨written, labels, endOfFile⟩
  · rintro ⟨written, labels, endOfFile⟩
    rw [← same.output] at written labels endOfFile
    exact ⟨written, labels, endOfFile⟩

theorem rankOutput_block {text : List UInt8} (block : BlockWrites step lrank .stdout text writes)
    (state : IOState) (rest : List UInt8) :
    rankOutput lrank ((state.write writes).setBuffer lrank .stdout rest) =
      rankOutput lrank state ++ writes :=
  rankOutput_write block.owner state

theorem flatten_snoc (chunks : List (List UInt8)) (chunk : List UInt8) :
    (chunks ++ [chunk]).flatten = chunks.flatten ++ chunk := by
  simp

theorem Streamed.keep (streamed : Streamed step lrank sent state) {chunk : List UInt8}
    (keeps : ¬ Flushes (state.buffer lrank .stdout).length chunk) :
    Streamed step lrank (sent ++ [chunk])
      (state.setBuffer lrank .stdout (state.buffer lrank .stdout ++ chunk)) := by
  have absent : newline ∉ chunk := fun member => keeps (.inl member)
  have fits : ¬ pendingAfter sent + chunk.length > maxLineBufLength := by
    rw [← streamed.pending]
    exact fun beyond => keeps (.inr (.inr beyond))
  have noCut : ¬ Cuts (pendingAfter sent) chunk := fun cut => fits cut.2
  constructor
  · exact streamed.channel
  · rw [buffer_setBuffer, pendingAfter_snoc, pendingStep, lastBreak_none.mpr absent]
    simp only [if_neg fits, length_append, streamed.pending]
  · rw [buffer_setBuffer, mem_append]
    rintro (before | inChunk)
    · exact streamed.unbroken before
    · exact absent inChunk
  · exact streamed.full
  · exact streamed.labels
  · exact streamed.ended
  · intro whole
    rw [buffer_setBuffer, ← append_assoc, flatten_snoc]
    congr 1
    exact streamed.kept (fun labels => ((noLineCut_snoc _ _).mp (whole labels)).1)
  · intro labels cut
    have lost := streamed.lost labels (fun whole => cut ((noLineCut_snoc _ _).mpr ⟨whole, noCut⟩))
    rw [buffer_setBuffer, flatten_snoc, length_append, length_append]
    have same : rankOutput lrank (state.setBuffer lrank .stdout
        (state.buffer lrank .stdout ++ chunk)) = rankOutput lrank state := rfl
    rw [same]
    omega

/-- A chunk that makes the buffer be written up to some point. -/
theorem Streamed.flush (streamed : Streamed step lrank sent state)
    {chunk : List UInt8} {count : Nat} (nonempty : chunk.take count ≠ [])
    (block : BlockWrites step lrank .stdout (state.buffer lrank .stdout ++ chunk.take count) writes)
    (pending : (chunk.drop count).length = pendingStep (pendingAfter sent) chunk)
    (unbroken : newline ∉ chunk.drop count)
    (whole : ¬ Cuts (pendingAfter sent) chunk →
      Ended newline (state.buffer lrank .stdout ++ chunk.take count))
    (cut : Cuts (pendingAfter sent) chunk →
      newline ∉ state.buffer lrank .stdout ++ chunk.take count) :
    Streamed step lrank (sent ++ [chunk])
      ((state.write writes).setBuffer lrank .stdout (chunk.drop count)) := by
  have textNonempty : state.buffer lrank .stdout ++ chunk.take count ≠ [] := by
    intro empty
    exact nonempty (append_eq_nil_iff.mp empty).2
  have parts : (chunk.take count).length + (chunk.drop count).length = chunk.length := by
    rw [← length_append, take_append_drop]
  have allBytes : (state.buffer lrank .stdout ++ chunk.take count) ++
      chunk.drop count = state.buffer lrank .stdout ++ chunk := by
    rw [append_assoc, take_append_drop]
  have output := rankOutput_block block state (chunk.drop count)
  constructor
  · exact streamed.channel
  · rw [buffer_setBuffer, pendingAfter_snoc, pending]
  · rwa [buffer_setBuffer]
  · rw [output]
    intro write member
    rcases mem_append.mp member with before | new
    · exact streamed.full write before
    · exact block.full textNonempty write new
  · rw [output, labelsAtLineStart_append]
    exact ⟨streamed.labels, block.labels _ streamed.ended⟩
  · intro labels
    rw [output, bytesOf_append]
    exact (streamed.ended labels).append (block.ended labels)
  · intro noCuts
    have wrote := block.data (fun labels => whole ((noLineCut_snoc _ _).mp (noCuts labels)).2)
    have before := streamed.kept (fun labels => ((noLineCut_snoc _ _).mp (noCuts labels)).1)
    rw [output, buffer_setBuffer, dataOf_append, wrote, flatten_snoc, ← before,
      append_assoc, allBytes, append_assoc]
  · intro labels cuts
    rw [output, buffer_setBuffer, dataOf_append, flatten_snoc, length_append, length_append]
    by_cases cutHere : Cuts (pendingAfter sent) chunk
    · rw [block.unbroken labels (cut cutHere)]
      have taken : 0 < (chunk.take count).length := length_pos_iff.mpr nonempty
      have bound : (dataOf (rankOutput lrank state)).length +
          (state.buffer lrank .stdout).length ≤ sent.flatten.length := by
        by_cases before : NoLineCut 0 sent
        · exact Nat.le_of_eq (by
            rw [← streamed.kept (fun _ => before), length_append])
        · exact Nat.le_of_lt (streamed.lost labels before)
      have nothing : (dataOf []).length = 0 := rfl
      omega
    · have wrote := block.data (fun _ => whole cutHere)
      have before := streamed.lost labels
        (fun noCuts => cuts ((noLineCut_snoc _ _).mpr ⟨noCuts, cutHere⟩))
      rw [wrote, length_append]
      omega

theorem flushLength_break {position : Nat}
    (found : lastBreak newline msg = some position) :
    flushLength msg = position + 1 := by
  simp [flushLength, found]

theorem flushLength_unbroken (absent : newline ∉ msg) : flushLength msg = msg.length := by
  simp [flushLength, lastBreak_none.mpr absent]

/-- Every chunk of the rank keeps its output streamed. -/
theorem Streamed.chunk (noPty : step.pty = false) (streamed : Streamed step lrank sent state)
    {chunk : List UInt8} (nonempty : chunk ≠ []) (grank : Nat) :
    Streamed step lrank (sent ++ [chunk])
      (handleBufferedMsg step chunk grank .stdout lrank state) := by
  by_cases flushes : Flushes (state.buffer lrank .stdout).length chunk
  · have positive : 0 < chunk.length := length_pos_iff.mpr nonempty
    cases found : lastBreak newline chunk with
    | some position =>
      obtain ⟨inside, ended, unbroken⟩ := lastBreak_some found
      have member : newline ∈ chunk := by
        by_contra absent
        rw [lastBreak_none.mpr absent] at found
        cases found
      have taken : chunk.take (flushLength chunk) ≠ [] := by
        rw [flushLength_break found]
        intro empty
        have lengths := congrArg List.length empty
        simp only [length_take, length_nil] at lengths
        omega
      obtain ⟨writes, equation, block⟩ := writeLabelIOmsg_spec noPty
        (state.buffer lrank .stdout ++ chunk.take (flushLength chunk)) grank
        lrank (fun _ => append_ne_nil_of_right_ne_nil _ taken)
      rw [handleBufferedMsg_flush flushes equation]
      apply streamed.flush taken block
      · rw [pendingStep, found, length_drop, flushLength_break found]
      · rwa [flushLength_break found]
      · intro _
        rw [flushLength_break found] at taken ⊢
        exact Ended.append_right taken ended
      · intro cut
        exact absurd member cut.1
    | none =>
      have absent := lastBreak_none.mp found
      have all : chunk.take (flushLength chunk) = chunk := by
        rw [flushLength_unbroken absent, take_length]
      have beyond : Cuts (pendingAfter sent) chunk := by
        refine ⟨absent, ?_⟩
        rw [← streamed.pending]
        rcases flushes with member | empty | beyond
        · exact absurd member absent
        · exact absurd empty nonempty
        · exact beyond
      obtain ⟨writes, equation, block⟩ := writeLabelIOmsg_spec noPty
        (state.buffer lrank .stdout ++ chunk.take (flushLength chunk)) grank
        lrank (fun _ => by rw [all]; simp [nonempty])
      rw [handleBufferedMsg_flush flushes equation]
      apply streamed.flush (by rwa [all]) block
      · rw [pendingStep, found, flushLength_unbroken absent, drop_length]
        simp only [if_pos beyond.2, length_nil]
      · rw [flushLength_unbroken absent, drop_length]
        simp
      · intro noCut
        exact absurd beyond noCut
      · intro _
        rw [all, mem_append]
        rintro (before | inChunk)
        · exact streamed.unbroken before
        · exact absent inChunk
  · rw [handleBufferedMsg_keep flushes]
    exact streamed.keep flushes

/-! ## Closing the channel -/

theorem labels_or_plain_of_pending (positive : pendingAfter sent ≠ 0) :
    OutputCondition step sent ↔ ¬ step.ToSrun ∧ ¬ step.Labels := by
  constructor
  · rintro ⟨srun, labelled⟩
    exact ⟨fun toSrun => positive (srun toSrun),
      fun labels => positive (labelled labels).2⟩
  · rintro ⟨noSrun, noLabels⟩
    exact ⟨fun toSrun => absurd toSrun noSrun,
      fun labels => absurd labels noLabels⟩

/-- The channel is closed while nothing is kept. -/
theorem Streamed.close_empty (streamed : Streamed step lrank sent state)
    (empty : state.buffer lrank .stdout = []) {write : Write}
    (noLabel : write.isLabel = false) (noData : write.msg = [])
    (output : rankOutput lrank after = rankOutput lrank state ++ [write]) :
    OutputComplete step lrank sent.flatten after ↔ OutputCondition step sent := by
  have nothing : pendingAfter sent = 0 := by
    rw [← streamed.pending, empty]
    rfl
  have data : dataOf (rankOutput lrank after) = dataOf (rankOutput lrank state) := by
    rw [output, dataOf_append]
    simp [dataOf, bytesOf, noLabel, noData]
  constructor
  · intro complete
    refine ⟨fun _ => nothing, fun labels => ⟨?_, nothing⟩⟩
    by_contra cut
    have lost := streamed.lost labels cut
    rw [← data, complete.data] at lost
    omega
  · intro condition
    have kept := streamed.kept (fun labels => (condition.2 labels).1)
    rw [empty, append_nil] at kept
    refine ⟨data.trans kept, ?_, fun _ => ⟨_, write, output, noData, streamed.full⟩⟩
    rw [output, labelsAtLineStart_append]
    exact ⟨streamed.labels, by simp [LabelsAtLineStart, noLabel]⟩

/-- The channel is closed while some bytes are kept. -/
theorem Streamed.close_pending (streamed : Streamed step lrank sent state)
    (kept : state.buffer lrank .stdout ≠ [])
    (block : BlockWrites step lrank .stdout (state.buffer lrank .stdout) writes)
    (output : rankOutput lrank after = rankOutput lrank state ++ writes) :
    OutputComplete step lrank sent.flatten after ↔ OutputCondition step sent := by
  have positive : 0 < (state.buffer lrank .stdout).length := length_pos_iff.mpr kept
  rw [labels_or_plain_of_pending (by rw [← streamed.pending]; omega)]
  constructor
  · intro complete
    refine ⟨?_, ?_⟩
    · intro toSrun
      obtain ⟨write, single, _, sameText⟩ := block.plain (fun labels => labels.2 toSrun)
      obtain ⟨before, last, split, empty, _⟩ := complete.endOfFile toSrun
      rw [output, single] at split
      have same := (append_inj' split rfl).2
      rw [singleton_inj] at same
      rw [← same, sameText] at empty
      exact kept empty
    · intro labels
      have written := complete.data
      rw [output, block.unbroken labels streamed.unbroken, append_nil]
        at written
      by_cases whole : NoLineCut 0 sent
      · have all := streamed.kept (fun _ => whole)
        rw [written] at all
        have lengths := congrArg List.length all
        rw [length_append] at lengths
        omega
      · have lost := streamed.lost labels whole
        rw [written] at lost
        omega
  · rintro ⟨noSrun, noLabels⟩
    have data := block.data (fun labels => absurd labels noLabels)
    refine ⟨?_, ?_, fun toSrun => absurd toSrun noSrun⟩
    · rw [output, dataOf_append, data]
      exact streamed.kept (fun labels => absurd labels noLabels)
    · rw [output, labelsAtLineStart_append]
      exact ⟨streamed.labels, block.labels _ streamed.ended⟩

theorem Streamed.close (noPty : step.pty = false) (streamed : Streamed step lrank sent state)
    (grank : Nat) (channels : Option (Nat → Bool)) :
    OutputComplete step lrank sent.flatten
        (handleBufferedMsg step [] grank .stdout lrank { state with outChannels := channels }) ↔
      OutputCondition step sent := by
  let closing : IOState := { state with outChannels := channels }
  have flushes : Flushes (closing.buffer lrank .stdout).length [] :=
    .inr (.inl rfl)
  by_cases empty : state.buffer lrank .stdout = []
  · let write : Write := {
      isLabel := false
      msg := []
      grank := grank
      type := .stdout
      lrank := lrank
      dest := writeDest step grank .stdout lrank }
    have equation : ∀ other, writeLabelIOmsg step
        (closing.buffer lrank .stdout ++ [].take (flushLength [])) grank
          .stdout lrank other = other.write [write] := by
      intro other
      have same : closing.buffer lrank .stdout = [] := empty
      rw [same, take_nil, append_nil, writeLabelIOmsg,
        if_pos ((noLabel_stdout step []).mpr (.inr rfl)), ioWriteMsg_eq noPty]
    rw [handleBufferedMsg_flush flushes equation]
    have output : rankOutput lrank ((closing.write [write]).setBuffer lrank
        .stdout (([] : List UInt8).drop (flushLength []))) =
        rankOutput lrank state ++ [write] :=
      rankOutput_write (by simp [write]) closing
    exact streamed.close_empty empty rfl rfl output
  · obtain ⟨writes, equation, block⟩ := writeLabelIOmsg_spec noPty
      (state.buffer lrank .stdout) grank lrank (fun _ => empty)
    have whole : ∀ other, writeLabelIOmsg step
        (closing.buffer lrank .stdout ++ [].take (flushLength [])) grank
          .stdout lrank other = other.write writes := by
      intro other
      rw [take_nil, append_nil]
      exact equation other
    rw [handleBufferedMsg_flush flushes whole]
    exact streamed.close_pending empty block (rankOutput_block block closing _)

/-! ## The run -/

theorem ioPrintStepMsg_stdout (own : out.Stdout step lrank) (noPty : step.pty = false)
    (buffered : step.labelIO = true ∨ step.bufferedIO = true) (isOpen : ChannelOpen lrank state) :
    ∃ channels grank,
      (out.msg ≠ [] → channels = state.outChannels) ∧
      ioPrintStepMsg step out.msg out.rank out.type state =
        handleBufferedMsg step out.msg grank .stdout lrank
          { state with outChannels := channels } := by
  obtain ⟨found, isStdout⟩ := own
  have lined : ¬ (OutType.stdout = .stderr ∨
      (step.labelIO = false ∧ step.bufferedIO = false) ∨ step.pty) := by
    rintro (stderr | plain | pty)
    · cases stderr
    · rcases buffered with label | buffer
      · simp [plain.1] at label
      · simp [plain.2] at buffer
    · simp [noPty] at pty
  have tracked : ∃ channels, trackChannel out.msg lrank state.outChannels = some channels ∧
        (out.msg ≠ [] → channels = state.outChannels) := by
    cases same : state.outChannels with
    | none => exact ⟨none, rfl, fun _ => rfl⟩
    | some channels =>
      simp only [trackChannel, isOpen channels same, Bool.not_true, Bool.false_eq_true, if_false]
      by_cases empty : out.msg = []
      · refine ⟨some (update channels lrank false), ?_,
          fun nonempty => absurd empty nonempty⟩
        simp [empty]
      · refine ⟨some channels, ?_, fun _ => rfl⟩
        simp [empty]
  obtain ⟨channels, tracking, unchanged⟩ := tracked
  refine ⟨channels, (out.rank + 2 ^ 32 - step.packTaskOffset) % 2 ^ 32, unchanged, ?_⟩
  simp only [ioPrintStepMsg, found, isStdout, tracking, printRankMsg, if_neg lined]

theorem stdoutChunks_own (own : out.Stdout step lrank) (rest : List OutMsg) :
    stdoutChunks step lrank (out :: rest) = out.msg :: stdoutChunks step lrank rest := by
  simp [stdoutChunks, own]

theorem stdoutChunks_other (other : ¬ out.Stdout step lrank)
    (rest : List OutMsg) :
    stdoutChunks step lrank (out :: rest) = stdoutChunks step lrank rest := by
  simp [stdoutChunks, other]

variable {messages : List OutMsg}

theorem sameForRank_others (noPty : step.pty = false)
    (none : stdoutChunks step lrank messages = []) (state : IOState) :
    SameForRank lrank state (printStepMsgs step messages state) := by
  induction messages generalizing state with
  | nil => exact SameForRank.refl lrank state
  | cons out rest induction =>
    by_cases own : out.Stdout step lrank
    · rw [stdoutChunks_own own] at none
      cases none
    · rw [stdoutChunks_other own] at none
      exact (sameForRank_other noPty own state).trans (induction none _)

/-- What is still to come after the chunks in `sent`. -/
theorem Streamed.rest (buffered : step.labelIO = true ∨ step.bufferedIO = true)
    (noPty : step.pty = false) {chunks : List (List UInt8)}
    (streamed : Streamed step lrank sent state)
    (own : stdoutChunks step lrank messages = chunks ++ [[]])
    (nonempty : ∀ chunk ∈ chunks, chunk ≠ []) :
    OutputComplete step lrank (sent ++ chunks).flatten (printStepMsgs step messages state) ↔
      OutputCondition step (sent ++ chunks) := by
  induction messages generalizing sent chunks state with
  | nil =>
    have lengths := congrArg List.length own
    simp [stdoutChunks] at lengths
  | cons out rest induction =>
    have next : printStepMsgs step (out :: rest) state =
        printStepMsgs step rest (ioPrintStepMsg step out.msg out.rank out.type state) := rfl
    rw [next]
    by_cases isOwn : out.Stdout step lrank
    · obtain ⟨channels, grank, unchanged, equation⟩ :=
        ioPrintStepMsg_stdout isOwn noPty buffered streamed.channel
      rw [stdoutChunks_own isOwn] at own
      rw [equation]
      cases chunks with
      | nil =>
        rw [nil_append, List.cons.injEq] at own
        obtain ⟨closes, others⟩ := own
        rw [closes, append_nil, OutputComplete.same (sameForRank_others noPty others _)]
        exact streamed.close noPty grank channels
      | cons chunk later =>
        rw [cons_append, List.cons.injEq] at own
        obtain ⟨rfl, remaining⟩ := own
        have chunkNonempty := nonempty out.msg (mem_cons_self ..)
        rw [unchanged chunkNonempty, append_cons]
        exact induction (streamed.chunk noPty chunkNonempty grank) remaining
          (fun chunk member => nonempty chunk (mem_cons_of_mem _ member))
    · rw [stdoutChunks_other isOwn] at own
      exact induction (streamed.same (sameForRank_other noPty isOwn state)) own nonempty

/-- The state before the first message of a rank on this node. -/
theorem streamed_init (isLocal : lrank < step.localTaskIds.length) :
    Streamed step lrank [] (IOState.init step) := by
  constructor
  · intro channels equality
    have isAll : ∀ opened, openOutChannels step = some opened → opened lrank = true := by
      intro opened found
      unfold openOutChannels allChannels at found
      split at found
      · cases found
        simpa using isLocal
      · cases found
    exact isAll channels equality
  · rfl
  · simp [IOState.buffer, IOState.init, LineBuf.get]
  · simp [rankOutput, IOState.init]
  · simp [rankOutput, IOState.init, LabelsAtLineStart]
  · intro _
    exact .inl rfl
  · intro _
    rfl
  · intro _ cut
    exact absurd trivial cut

theorem local_of_rankID {rank : Nat}
    (found : getLocalRankID rank step = some lrank) :
    lrank < step.localTaskIds.length := by
  unfold getLocalRankID at found
  split at found
  · cases found
  · dsimp only at found
    generalize (if 0 < rank then rank - step.packTaskOffset else 0) = adjRank
      at found
    split at found
    · rename_i member
      cases found
      exact idxOf_lt_length_of_mem member
    · cases found

/-- A rank that has sent anything is a rank of this node. -/
theorem local_of_stdoutChunks (some : stdoutChunks step lrank messages ≠ []) :
    lrank < step.localTaskIds.length := by
  induction messages with
  | nil => exact absurd rfl some
  | cons out rest induction =>
    by_cases own : out.Stdout step lrank
    · exact local_of_rankID own.1
    · rw [stdoutChunks_other own] at some
      exact induction some

/-- In every run of the forwarder, line buffered output of a rank is complete
exactly when no line to be labelled is cut and nothing waits for a newline at
the close, as far as the target makes a difference. -/
theorem rank_output_complete_iff (step : Step) (lrank : Nat) (messages : List OutMsg)
    (chunks : List (List UInt8)) (buffered : step.labelIO = true ∨ step.bufferedIO = true)
    (noPty : step.pty = false) (own : stdoutChunks step lrank messages = chunks ++ [[]])
    (nonempty : ∀ chunk ∈ chunks, chunk ≠ []) :
    OutputComplete step lrank chunks.flatten (printStepMsgs step messages (IOState.init step)) ↔
      OutputCondition step chunks := by
  have isLocal : lrank < step.localTaskIds.length :=
    local_of_stdoutChunks (by
      rw [own]
      simp)
  exact (streamed_init isLocal).rest buffered noPty own nonempty

def srunStep : Step :=
  { labelIO := true, bufferedIO := false, pty := false, stdOut := "",
    stdErr := "", stdOutOpt := .srun, stdErrOpt := .srun, stdErrRank := -1,
    np := 1, packTaskOffset := 0, localNodeId := 0, globalTaskIds := [[0]] }

theorem rank_output_complete_of_line : OutputComplete srunStep 0 [97, 10]
        (printStepMsgs srunStep
          [⟨0, .stdout, [97]⟩, ⟨0, .stdout, [10]⟩, ⟨0, .stdout, []⟩]
          (IOState.init srunStep)) ↔
      OutputCondition srunStep [[97], [10]] :=
  rank_output_complete_iff srunStep 0 _ [[97], [10]] (by decide) (by decide) (by decide) (by decide)

/-- One unterminated character, and srun gets no end-of-file message. -/
theorem unterminated_output_incomplete : ¬ OutputComplete srunStep 0 [97]
        (printStepMsgs srunStep [⟨0, .stdout, [97]⟩, ⟨0, .stdout, []⟩]
          (IOState.init srunStep)) := by
  intro complete
  have written : (rankOutput 0 (printStepMsgs srunStep
      [⟨0, .stdout, [97]⟩, ⟨0, .stdout, []⟩] (IOState.init srunStep))).map Write.msg = [[97]] := by
    decide
  obtain ⟨before, last, split, empty, _⟩ := complete.endOfFile (by decide)
  rw [split, map_append, map_singleton, empty] at written
  have lengths := congrArg List.getLast? written
  simp at lengths

end Psmgmt.Slurm
