import Psmgmt.Library.Lines

/-!
# Task output in the step forwarder

The part of `psslurmio.c` that takes the output of a step's local ranks, buffers
it by lines, labels it and writes it to srun or to a file.  Each write keeps a
note of whether it is a label, so that proofs can tell labels from data.
Sattach clients and the ring buffer for them are left out.
-/

namespace Psmgmt.Slurm

open Lines Function

/-- `IO_Opt_t`. -/
inductive IOOpt where
  | undef | srun | srunRank | globalFile | rankFile | nodeFile
  deriving DecidableEq, Repr

/-- The two output types of `PSLog_Msg_t`. -/
inductive OutType where
  | stdout | stderr
  deriving DecidableEq, Repr

/-- `Step_t` as far as output needs it; `labelIO`, `bufferedIO` and `pty` are
the bits `LAUNCH_LABEL_IO`, `LAUNCH_BUFFERED_IO` and `LAUNCH_PTY` of
`taskFlags`. -/
structure Step where
  labelIO : Bool
  bufferedIO : Bool
  pty : Bool
  stdOut : String
  stdErr : String
  stdOutOpt : IOOpt
  stdErrOpt : IOOpt
  stdErrRank : Int
  np : Nat
  packTaskOffset : Nat
  localNodeId : Nat
  globalTaskIds : List (List Nat)
  deriving DecidableEq, Repr

/-- `SLURM_IO_STDOUT` and `SLURM_IO_STDERR`. -/
inductive SlurmIOType where
  | stdout | stderr
  deriving DecidableEq, Repr

/-- Where a write goes to. -/
inductive Dest where
  | stdOutFile
  | outFD (lrank : Nat)
  | stdErrFile
  | errFD (lrank : Nat)
  | srun (type : SlurmIOType) (grank : Nat)
  deriving DecidableEq, Repr

/-- One call of `IO_writeMsg()` that was not discarded. -/
structure Write where
  isLabel : Bool
  msg : List UInt8
  grank : Nat
  type : OutType
  lrank : Nat
  dest : Dest
  deriving DecidableEq, Repr

/-- An entry of `lineBuf`. -/
structure LineBuf where
  out : List UInt8
  err : List UInt8
  deriving DecidableEq, Repr

/-- What the forwarder keeps about output, and what it has written.  Channels
are tracked only where srun is the target. -/
structure IOState where
  outChannels : Option (Nat → Bool)
  errChannels : Option (Nat → Bool)
  lineBuf : Nat → LineBuf
  written : List Write

/-- The line break. -/
def newline : UInt8 := 10

/-- `MAX_LINE_BUF_LENGTH`. -/
def maxLineBufLength : Nat := 1024 * 1024

def Step.localTaskIds (step : Step) : List Nat := (step.globalTaskIds[step.localNodeId]?).getD []

/-- `getLocalRankID()`, where `none` stands for `NO_VAL`. -/
def getLocalRankID (rank : Nat) (step : Step) : Option Nat :=
  if 0 < rank ∧ rank < step.packTaskOffset then none
  else
    let adjRank := if 0 < rank then rank - step.packTaskOffset else 0
    if adjRank ∈ step.localTaskIds then
      some (step.localTaskIds.idxOf adjRank)
    else none

def allChannels (step : Step) : Option (Nat → Bool) :=
  some (fun lrank => decide (lrank < step.localTaskIds.length))

/-- `outChannels` as `srunOpenIOConnectionEx()` sets it up. -/
def openOutChannels (step : Step) : Option (Nat → Bool) :=
  if step.stdOutOpt = .srun ∨ step.stdOutOpt = .srunRank ∨ step.pty then
    allChannels step
  else none

/-- `errChannels` as `srunOpenIOConnectionEx()` sets it up. -/
def openErrChannels (step : Step) : Option (Nat → Bool) :=
  if step.pty ∨ step.stdOut ≠ "" ∨ (step.stdErrRank = -1 ∧ step.stdErr ≠ "") then
    none
  else allChannels step

/-- The forwarder's state before the first output. -/
def IOState.init (step : Step) : IOState :=
  { outChannels := openOutChannels step
    errChannels := openErrChannels step
    lineBuf := fun _ => ⟨[], []⟩
    written := [] }

/-- The file or connection `IO_writeMsg()` writes to. -/
def writeDest (step : Step) (grank : Nat) (type : OutType) (lrank : Nat) :
    Dest :=
  match type with
  | .stdout =>
    if step.stdOutOpt = .nodeFile then .stdOutFile
    else if step.stdOutOpt = .rankFile then .outFD lrank
    else .srun .stdout grank
  | .stderr =>
    if step.stdErrOpt = .nodeFile then .stdErrFile
    else if step.stdErrOpt = .rankFile then .errFD lrank
    else if step.pty then .srun .stdout grank
    else .srun .stderr grank

/-- `IO_writeMsg()`. -/
def ioWriteMsg (step : Step) (isLabel : Bool) (msg : List UInt8) (grank : Nat)
    (type : OutType) (lrank : Nat) (state : IOState) : IOState :=
  if step.pty ∧ 0 < grank then state
  else
    { state with
      written := state.written ++
        [{ isLabel := isLabel, msg := msg, grank := grank, type := type,
           lrank := lrank, dest := writeDest step grank type lrank }] }

/-- `getWidth()`. -/
def getWidth (num : Int) : Nat := (Nat.toDigits 10 num.natAbs).length

/-- The label `"%0*u: "` of a rank. -/
def rankLabel (step : Step) (grank : Nat) : List UInt8 :=
  let digits := Nat.toDigits 10 grank
  let padding := List.replicate (getWidth ((step.np : Int) - 1) - digits.length) '0'
  (padding ++ digits ++ [':', ' ']).map (fun c => c.toNat.toUInt8)

/-- The loop of `writeLabelIOmsg()`. -/
def writeLabelledLines (step : Step) (ptr : List UInt8) (grank : Nat)
    (type : OutType) (lrank : Nat) (state : IOState) : IOState :=
  match _found : firstBreak newline ptr with
  | none => state
  | some nl =>
    let labelled := ioWriteMsg step true (rankLabel step grank) grank type lrank state
    let written := ioWriteMsg step false (ptr.take (nl + 1)) grank type lrank labelled
    writeLabelledLines step (ptr.drop (nl + 1)) grank type lrank written
  termination_by ptr.length
  decreasing_by
    have inside := (firstBreak_some _found).1
    simp only [List.length_drop]
    omega

/-- The test of `writeLabelIOmsg()` for output that gets no label here.  For
`STDERR` the source looks at `stdOutOpt` as well. -/
def noLabel (step : Step) (msg : List UInt8) (type : OutType) : Bool :=
  !step.labelIO || msg.isEmpty ||
    (type == .stdout && (step.stdOutOpt == .srun || step.stdOutOpt == .srunRank))
    ||
    (type == .stderr && (step.stdOutOpt == .srun || step.stdOutOpt == .srunRank))

/-- `writeLabelIOmsg()`. -/
def writeLabelIOmsg (step : Step) (msg : List UInt8) (grank : Nat)
    (type : OutType) (lrank : Nat) (state : IOState) : IOState :=
  if noLabel step msg type then
    ioWriteMsg step false msg grank type lrank state
  else
    writeLabelledLines step msg grank type lrank state

/-- The buffer of a type. -/
def LineBuf.get (buf : LineBuf) : OutType → List UInt8
  | .stdout => buf.out
  | .stderr => buf.err

def LineBuf.set (buf : LineBuf) (type : OutType) (data : List UInt8) :
    LineBuf :=
  match type with
  | .stdout => { buf with out := data }
  | .stderr => { buf with err := data }

/-- The buffer `lineBuf[lrank].out` or `lineBuf[lrank].err`. -/
def IOState.buffer (state : IOState) (lrank : Nat) (type : OutType) : List UInt8 :=
  (state.lineBuf lrank).get type

def IOState.setBuffer (state : IOState) (lrank : Nat) (type : OutType)
    (data : List UInt8) : IOState :=
  { state with
    lineBuf := update state.lineBuf lrank ((state.lineBuf lrank).set type data) }

/-- `memToDataBuffer()` to the rank's buffer. -/
def IOState.memToDataBuffer (state : IOState) (data : List UInt8)
    (lrank : Nat) (type : OutType) : IOState :=
  state.setBuffer lrank type (state.buffer lrank type ++ data)

/-- `handleBufferedMsg()`. -/
def handleBufferedMsg (step : Step) (msg : List UInt8) (grank : Nat)
    (type : OutType) (lrank : Nat) (state : IOState) : IOState :=
  let nl := lastBreak newline msg
  if nl.isSome ∨ msg.length = 0 ∨
      (state.buffer lrank type).length + msg.length > maxLineBufLength then
    -- messages with newline or empty
    let nlLen := match nl with
      | some position => position + 1
      | none => msg.length
    let flushed :=
      if (state.buffer lrank type).length ≠ 0 then
        let joined := state.memToDataBuffer (msg.take nlLen) lrank type
        let written := writeLabelIOmsg step (joined.buffer lrank type) grank type lrank joined
        written.setBuffer lrank type []
      else
        writeLabelIOmsg step (msg.take nlLen) grank type lrank state
    if msg.length > nlLen then
      flushed.memToDataBuffer (msg.drop nlLen) lrank type
    else flushed
  else
    state.memToDataBuffer msg lrank type

/-- The channel tracking at the top of `IO_printStepMsg()`: `none` where the
channel is closed already. -/
def trackChannel (msg : List UInt8) (lrank : Nat) :
    Option (Nat → Bool) → Option (Option (Nat → Bool))
  | none => some none
  | some channels =>
    if !channels lrank then none
    else if msg.length = 0 then
      some (some (update channels lrank false))
    else some (some channels)

/-- `IO_printStepMsg()` once the local rank is known. -/
def printRankMsg (step : Step) (msg : List UInt8) (grank : Nat)
    (type : OutType) (lrank : Nat) (state : IOState) : IOState :=
  if type = .stderr ∨ (step.labelIO = false ∧ step.bufferedIO = false) ∨ step.pty then
    -- handle unbuffered I/O
    ioWriteMsg step false msg grank type lrank state
  else
    handleBufferedMsg step msg grank type lrank state

/-- `IO_printStepMsg()`.  The rank is adjusted as an unsigned number. -/
def ioPrintStepMsg (step : Step) (msg : List UInt8) (rank : Nat)
    (type : OutType) (state : IOState) : IOState :=
  match getLocalRankID rank step with
  | none => state
  | some lrank =>
    let grank := (rank + 2 ^ 32 - step.packTaskOffset) % 2 ^ 32
    match type with
    | .stdout =>
      match trackChannel msg lrank state.outChannels with
      | none => state
      | some channels =>
        printRankMsg step msg grank type lrank { state with outChannels := channels }
    | .stderr =>
      match trackChannel msg lrank state.errChannels with
      | none => state
      | some channels =>
        printRankMsg step msg grank type lrank { state with errChannels := channels }

/-- `IO_closeChannel()`. -/
def ioCloseChannel (step : Step) (rank : Nat) (type : OutType) (state : IOState) : IOState :=
  ioPrintStepMsg step [] rank type state

end Psmgmt.Slurm
