import Psmgmt.Slurm.Output

/-!
# Replay for late attachers

The ring buffer of `psslurmio.c` and what a new sattach connection gets of it.
-/

namespace Psmgmt.Slurm.Sattach

open List Function

/-- A message saved, with its type in Slurm. -/
structure RingMsg where
  grank : UInt32
  type : SlurmIOType
  msg : List UInt8
  deriving DecidableEq

/-- `RING_BUFFER_LEN` -/
def ringBufferLen : Nat := 1024

/-- The ring buffer; no message stands for `msg` being NULL. -/
structure RingBuf where
  ringBuf : Nat → Option RingMsg
  ringBufStart : Nat
  ringBufLast : Nat

def RingBuf.empty : RingBuf := { ringBuf := fun _ => none, ringBufStart := 0, ringBufLast := 0 }

def nextIndex (index : Nat) : Nat :=
  if index + 1 = ringBufferLen then 0 else index + 1

/-- An output message of a rank. -/
structure Saved where
  msg : List UInt8
  grank : UInt32
  type : OutType
  deriving DecidableEq

def Saved.ringMsg (saved : Saved) : RingMsg :=
  { grank := saved.grank
    type := if saved.type = .stdout then .stdout else .stderr
    msg := saved.msg }

def msg2Buffer (ring : RingBuf) (saved : Saved) : RingBuf :=
  if saved.msg = [] then ring
  else
    let last := nextIndex ring.ringBufLast
    { ringBuf :=
        update ring.ringBuf ring.ringBufLast (some saved.ringMsg)
      ringBufLast := last
      ringBufStart :=
        if last = ring.ringBufStart then nextIndex ring.ringBufStart
        else ring.ringBufStart }

/-- A message of Slurm's I/O protocol. -/
structure IOFrame where
  type : SlurmIOType
  grank : UInt16
  body : List UInt8
  deriving DecidableEq

/-- `SLURM_IO_MAX_LEN` -/
def slurmIOMaxLen : Nat := 1024

/-- The length of the next frame: up to the last newline that fits, if the
signed length is too large for one frame. -/
def frameLen (buf : List UInt8) : Nat :=
  if slurmIOMaxLen < buf.length ∧ buf.length < 2 ^ 31 then
    match Lines.lastBreak 10 (buf.take slurmIOMaxLen) with
    | some nl => nl + 1
    | none => slurmIOMaxLen
  else buf.length

/-- `srunSendIOEx()` on a working connection. -/
def srunSendIOEx (type : SlurmIOType) (grank : UInt16) : (fuel : Nat) → List UInt8 → List IOFrame
  | 0, _ => []
  | fuel + 1, buf =>
    let rest := buf.drop (frameLen buf)
    { type, grank, body := buf.take (frameLen buf) } ::
      if rest = [] then [] else srunSendIOEx type grank fuel rest

/-- The header has 16 bits for the rank. -/
def RingMsg.frames (ringMsg : RingMsg) : List IOFrame :=
  srunSendIOEx ringMsg.type ringMsg.grank.toUInt16 ringMsg.msg.length ringMsg.msg

/-- The loop of `IO_sattachTasks()` on a working connection. -/
def replayLoop (ring : RingBuf) : (turns index : Nat) → List IOFrame
  | 0, _ => []
  | turns + 1, index =>
    match ring.ringBuf index with
    | none => []
    | some ringMsg =>
      ringMsg.frames ++
        if nextIndex index = ring.ringBufLast then []
        else replayLoop ring turns (nextIndex index)

def sattachTasks (ring : RingBuf) : List IOFrame := replayLoop ring ringBufferLen ring.ringBufStart

/-! ## The ring -/

/-- The ring after some messages: entry `j` of them is at `j` modulo the length
of the ring, unless it was overwritten. -/
structure Rings (ring : RingBuf) (saved : List RingMsg) : Prop where
  last : ring.ringBufLast = saved.length % 1024
  start : ring.ringBufStart =
    if saved.length < 1024 then 0 else (saved.length + 1) % 1024
  filled : ∀ j, saved.length ≤ j + 1024 → j < saved.length →
    ring.ringBuf (j % 1024) = saved[j]?
  unused : saved = [] → ring.ringBuf 0 = none

theorem nextIndex_mod (j : Nat) : nextIndex (j % 1024) = (j + 1) % 1024 := by
  unfold nextIndex ringBufferLen
  by_cases wraps : j % 1024 + 1 = 1024
  · rw [if_pos wraps]
    omega
  · rw [if_neg wraps]
    omega

variable {ring : RingBuf}

theorem Rings.save {before : List RingMsg} (rings : Rings ring before)
    (saved : Saved) :
    Rings (msg2Buffer ring saved)
      (if saved.msg = [] then before else before ++ [saved.ringMsg]) := by
  rw [msg2Buffer]
  split
  · exact rings
  · have start := rings.start
    have next : nextIndex ring.ringBufLast = (before.length + 1) % 1024 := by
      rw [rings.last, nextIndex_mod]
    refine ⟨?_, ?_, ?_, fun none => by simp at none⟩
    · rw [next, length_append, length_singleton]
    · change (if nextIndex ring.ringBufLast = ring.ringBufStart then
          nextIndex ring.ringBufStart else ring.ringBufStart) = _
      rw [next, length_append, length_singleton]
      by_cases small : before.length < 1024
      · rw [if_pos small] at start
        rw [start]
        by_cases full : before.length + 1 = 1024
        · rw [full]
          rfl
        · rw [if_neg (by omega), if_pos (by omega)]
      · rw [if_neg small] at start
        rw [start, if_pos rfl, nextIndex_mod, if_neg (by omega)]
    · intro j recent inside
      rw [length_append, length_singleton] at recent inside
      dsimp only
      rw [rings.last]
      by_cases new : j = before.length
      · rw [new, update_self, getElem?_concat_length]
      · rw [update_of_ne (by omega), rings.filled j (by omega)
          (by omega), getElem?_append_left (by omega)]

theorem rings_foldl {before : List RingMsg} (rings : Rings ring before)
    (saves : List Saved) :
    Rings (saves.foldl msg2Buffer ring) (before ++
      (saves.filter (fun saved => saved.msg ≠ [])).map Saved.ringMsg) := by
  induction saves generalizing ring before with
  | nil => simpa using rings
  | cons saved saves induction =>
    have rest := induction (rings.save saved)
    by_cases empty : saved.msg = [] <;> simpa [empty] using rest

/-- From a message on, the loop goes through all later ones. -/
theorem replayLoop_eq {saved : List RingMsg} (rings : Rings ring saved)
    {turns j : Nat} (inside : j < saved.length)
    (recent : saved.length ≤ j + 1023) (enough : saved.length ≤ j + turns) :
    replayLoop ring turns (j % 1024) = (saved.drop j).flatMap RingMsg.frames := by
  induction turns generalizing j with
  | zero => omega
  | succ turns induction =>
    rw [replayLoop, rings.filled j (by omega) inside,
      getElem?_eq_getElem inside, drop_eq_getElem_cons inside,
      flatMap_cons]
    dsimp only
    rw [nextIndex_mod, rings.last]
    by_cases ended : j + 1 = saved.length
    · rw [if_pos (by rw [ended]), ended, drop_length, flatMap_nil]
    · rw [if_neg (by omega), induction (by omega) (by omega) (by omega)]

theorem sattachTasks_eq {saved : List RingMsg} (rings : Rings ring saved) :
    sattachTasks ring = (saved.drop (saved.length - 1023)).flatMap RingMsg.frames := by
  have start : ring.ringBufStart = (saved.length - 1023) % 1024 := by
    rw [rings.start]
    by_cases small : saved.length < 1024
    · rw [if_pos small]
      omega
    · rw [if_neg small]
      omega
  rw [sattachTasks, start]
  by_cases nothing : saved = []
  · subst nothing
    have none := rings.unused rfl
    simp [ringBufferLen, replayLoop, none]
  · have positive := length_pos_of_ne_nil nothing
    exact replayLoop_eq rings (by omega) (by omega) (by unfold ringBufferLen; omega)

/-! ## The frames -/

theorem frameLen_pos {buf : List UInt8} (nonempty : buf ≠ []) : 0 < frameLen buf := by
  have positive := length_pos_of_ne_nil nonempty
  unfold frameLen
  split
  · split
    · exact Nat.succ_pos _
    · decide
  · exact positive

theorem frames_whole (type : SlurmIOType) (grank : UInt16) {fuel : Nat}
    {buf : List UInt8} (nonempty : buf ≠ []) (enough : buf.length ≤ fuel) :
    (srunSendIOEx type grank fuel buf).flatMap IOFrame.body = buf ∧
      ∀ frame ∈ srunSendIOEx type grank fuel buf, frame.type = type ∧ frame.grank = grank := by
  induction fuel generalizing buf with
  | zero => exact absurd (length_eq_zero_iff.mp (by omega)) nonempty
  | succ fuel induction =>
    have positive := frameLen_pos nonempty
    rw [srunSendIOEx, flatMap_cons, forall_mem_cons]
    by_cases ended : buf.drop (frameLen buf) = []
    · simp only [if_pos ended, flatMap_nil, append_nil]
      have all : buf.length ≤ frameLen buf := drop_eq_nil_iff.mp ended
      exact ⟨take_of_length_le all, ⟨trivial, trivial⟩, by simp⟩
    · obtain ⟨whole, same⟩ := induction ended (by rw [length_drop]; omega)
      simp only [if_neg ended]
      exact ⟨by rw [whole, take_append_drop], ⟨trivial, trivial⟩, same⟩

/-- A new connection gets the last messages saved, in order and in full, with
their types and the lower 16 bits of their ranks. -/
theorem sattach_replays (saves : List Saved) : sattachTasks (saves.foldl msg2Buffer .empty) =
        (((saves.filter (fun saved => saved.msg ≠ [])).rtake 1023).map
          Saved.ringMsg).flatMap RingMsg.frames ∧
      ∀ saved : Saved, saved.msg ≠ [] → saved.ringMsg.frames.flatMap IOFrame.body = saved.msg ∧
          ∀ frame ∈ saved.ringMsg.frames,
            frame.type = saved.ringMsg.type ∧ frame.grank = saved.grank.toUInt16 := by
  constructor
  · have start : Rings .empty [] :=
      ⟨rfl, rfl, fun j _ inside => absurd inside (Nat.not_lt_zero j),
        fun _ => rfl⟩
    rw [sattachTasks_eq (rings_foldl start saves), nil_append, length_map, ← map_drop]
    rfl
  · intro saved nonempty
    exact frames_whole _ _ nonempty (Nat.le_refl _)

/-- Rank 65536 is sent as rank 0. -/
theorem not_sattach_replays : ¬ ∀ saved : Saved,
      ∀ frame ∈ sattachTasks (msg2Buffer .empty saved), frame.grank.toNat = saved.grank.toNat := by
  intro replays
  exact absurd (replays ⟨[97], 65536, .stdout⟩ ⟨.stdout, 0, [97]⟩ (by decide +kernel)) (by decide)

end Psmgmt.Slurm.Sattach
