import Psmgmt.Library.History
import Psmgmt.Library.Snoc
import Psmgmt.Library.Transition

/-!
# Input of the forwarder's client

`writeMsg()` and `flushMsgs()` of `psidforwarder.c` pass the payloads of
`STDIN` messages to the client and tell the logger to stop and to continue.
-/

namespace Psmgmt.Forwarder

open List

/-- How many bytes `write()` takes if there are as many, none if it blocks, or
that it fails with `EPIPE`. -/
inductive Write where
  | wrote (count : Nat)
  | epipe

inductive Control where
  | stop
  | cont
  deriving DecidableEq

/-- What the client gets, that its stdin is closed or found closed, and the
messages to the logger. -/
inductive Event where
  | wrote (bytes : List UInt8)
  | closed
  | epipe
  | control (type : Control)
  deriving DecidableEq

structure MsgBuf where
  msg : List UInt8
  offset : Nat

/-- Whether the descriptor is open and `flushMsgs()` waits for it, the messages
stored and what has happened. -/
structure State where
  stdin_fd : Bool
  awaitWrite : Bool
  oldMsgs : List MsgBuf
  trace : List Event

def State.log (state : State) (events : List Event) : State :=
  { state with trace := state.trace ++ events }

def doClntWrite (write : Write) (msg : List UInt8) (offset : Nat)
    (state : State) : Option Nat × State :=
  if state.stdin_fd = false then (none, state)
  else if msg = [] then
    (some 0, { state with stdin_fd := false, awaitWrite := false }.log [.closed])
  else
    match write with
    | .epipe =>
      (none, { state with stdin_fd := false, awaitWrite := false }.log [.epipe, .control .stop])
    | .wrote count =>
      let rest := msg.drop offset
      (some (offset + min count rest.length), state.log [.wrote (rest.take count)])

def storeMsg (msg : List UInt8) (offset : Nat) (state : State) : State :=
  { state with oldMsgs := state.oldMsgs ++ [⟨msg, offset⟩] }

def dropAllMsgs (state : State) : State := { state with oldMsgs := [] }

/-- The loop of `flushMsgs()` and whether it empties the list. -/
def flushLoop (writes : Nat → Write) : Nat → List MsgBuf → State → Bool × State
  | _, [], state => (true, state)
  | count, msgbuf :: rest, state =>
    match doClntWrite (writes count) msgbuf.msg msgbuf.offset state with
    | (none, state) => (false, dropAllMsgs state)
    | (some written, state) =>
      if written ≠ msgbuf.msg.length then
        (false, { state with oldMsgs := { msgbuf with offset := written } :: rest })
      else flushLoop writes (count + 1) rest { state with oldMsgs := rest }

def flushMsgs (writes : Nat → Write) (state : State) : State :=
  match flushLoop writes 0 state.oldMsgs state with
  | (false, state) => state
  | (true, state) => { state with awaitWrite := false }.log [.control .cont]

def writeMsg (writes : Nat → Write) (write : Write) (msg : List UInt8) (state : State) : State :=
  let state := if state.oldMsgs.isEmpty then state else flushMsgs writes state
  if state.oldMsgs.isEmpty then
    match doClntWrite write msg 0 state with
    | (none, state) => state
    | (some written, state) =>
      if written = msg.length then state
      else
        let state := storeMsg msg written state
        if state.stdin_fd = false then state
        else { state with awaitWrite := true }.log (if msg = [] then [] else [.control .stop])
  else storeMsg msg 0 state

/-! ## Runs -/

/-- The forwarder and the payloads it has got. -/
structure World extends State where
  input : List (List UInt8)

/-- An empty payload is the last one, and `flushMsgs()` is called as long as
it waits. -/
def stdinSystem : TransitionSystem World where
  initial := fun world => world = ⟨⟨true, false, [], []⟩, []⟩
  step := fun before after =>
    ([] ∉ before.input ∧ ∃ writes write msg, after =
      ⟨writeMsg writes write msg before.toState, before.input ++ [msg]⟩) ∨
    (before.awaitWrite = true ∧ ∃ writes, after = ⟨flushMsgs writes before.toState, before.input⟩)

def Event.bytes : Event → List UInt8
  | .wrote bytes => bytes
  | _ => []

def Event.control? : Event → Option Control
  | .control type => some type
  | _ => none

def written (trace : List Event) : List UInt8 := trace.flatMap Event.bytes

def controls (trace : List Event) : List Control := trace.filterMap Event.control?

/-- The messages start with STOP, and those at even places are. -/
def Alternate (types : List Control) : Prop :=
  ∀ (i : Nat) type, types[i]? = some type → type = if i % 2 = 0 then .stop else .cont

/-- The descriptor is closed after everything is written. -/
def Closes (input : List (List UInt8)) (before : List Event) (event : Event) : Prop :=
  event = .closed → written before = input.flatten

def pending (msgs : List MsgBuf) : List UInt8 :=
  msgs.flatMap fun msgbuf => msgbuf.msg.drop msgbuf.offset

/-! ## What holds between two writes -/

structure Sound (input : List (List UInt8)) (state : State) : Prop where
  opened : state.stdin_fd = true → .closed ∉ state.trace ∧ .epipe ∉ state.trace
  shut : state.stdin_fd = false → state.oldMsgs = [] ∧
    (.closed ∈ state.trace ∨ .epipe ∈ state.trace)
  bytes : .epipe ∉ state.trace → written state.trace ++ pending state.oldMsgs = input.flatten
  part : written state.trace <+: input.flatten
  offset : ∀ msgbuf ∈ state.oldMsgs, msgbuf.offset ≤ msgbuf.msg.length
  last : state.oldMsgs.Pairwise fun msgbuf _ => msgbuf.msg ≠ []
  ends : (.closed ∈ state.trace ∨ ∃ msgbuf ∈ state.oldMsgs, msgbuf.msg = []) → [] ∈ input
  closes : Lawful (Closes input) state.trace
  alternate : .epipe ∉ state.trace → Alternate (controls state.trace)

variable {input : List (List UInt8)} {state : State}

theorem written_append (trace events : List Event) :
    written (trace ++ events) = written trace ++ written events :=
  flatMap_append

theorem controls_append (trace events : List Event) :
    controls (trace ++ events) = controls trace ++ controls events :=
  filterMap_append ..

/-- Something else than the end of file happens. -/
theorem Sound.event (sound : Sound input state) {event : Event}
    (other : event ≠ .closed) :
    Lawful (Closes input) (state.trace ++ [event]) :=
  sound.closes.concat fun same => absurd same other

attribute [local simp] State.log dropAllMsgs

theorem Sound.isOpen (sound : Sound input state)
    (queue : state.oldMsgs ≠ []) : state.stdin_fd = true := by
  by_contra closed
  exact queue (sound.shut (Bool.not_eq_true _ ▸ closed)).1

theorem take_min (count : Nat) (bytes : List UInt8) :
    bytes.take count ++ bytes.drop (min count bytes.length) = bytes := by
  rcases Nat.le_total count bytes.length with less | more
  · rw [Nat.min_eq_left less, take_append_drop]
  · rw [Nat.min_eq_right more, drop_length, append_nil, take_of_length_le more]

/-- What `doClntWrite()` does with the first message: it fails and nothing is
kept, or some of the message is written. -/
inductive Wrote (input : List (List UInt8)) (state : State) (msgbuf : MsgBuf)
    (rest : List MsgBuf) : Option Nat × State → Prop where
  | failed (after : State) (sound : Sound input (dropAllMsgs after))
      (epipe : .epipe ∈ after.trace) (vacated : after.awaitWrite = false) :
      Wrote input state msgbuf rest (none, after)
  | all (after : State) (sound : Sound input { after with oldMsgs := rest })
      (silent : controls after.trace = controls state.trace) (alive : .epipe ∉ after.trace) :
      Wrote input state msgbuf rest (some msgbuf.msg.length, after)
  | some (written : Nat) (after : State) (less : written ≠ msgbuf.msg.length)
      (sound : Sound input { after with oldMsgs := { msgbuf with offset := written } :: rest })
      (silent : controls after.trace = controls state.trace) (alive : .epipe ∉ after.trace) :
      Wrote input state msgbuf rest (some written, after)

theorem Sound.wrote {msgbuf : MsgBuf} {rest : List MsgBuf} (sound : Sound input state)
    (queue : state.oldMsgs = msgbuf :: rest) (write : Write) :
    Wrote input state msgbuf rest (doClntWrite write msgbuf.msg msgbuf.offset state) := by
  have isOpen := sound.isOpen (by simp [queue])
  obtain ⟨notClosed, alive⟩ := sound.opened isOpen
  have bytes := sound.bytes alive
  have within := sound.offset msgbuf (queue ▸ mem_cons_self)
  have older := sound.last
  rw [queue, pairwise_cons] at older
  simp only [queue, pending, flatMap_cons] at bytes
  unfold doClntWrite
  rw [if_neg (by simp [isOpen])]
  by_cases ends : msgbuf.msg = []
  · -- the end of file is the last message
    have alone : rest = [] := by
      refine eq_nil_iff_forall_not_mem.mpr fun other member => ?_
      exact older.1 other member ends
    subst alone
    have everything : written state.trace = input.flatten := by
      simpa [ends] using bytes
    rw [if_pos ends]
    have length : 0 = msgbuf.msg.length := by simp [ends]
    rw [length]
    have silent : controls (state.trace ++ [.closed]) = controls state.trace := by
      rw [controls_append]
      exact append_nil _
    refine .all _ ?_ silent (by simpa using alive)
    exact
      { opened := fun still => nomatch still
        shut := fun _ => ⟨rfl, .inl (by simp)⟩
        bytes := fun _ => by
          simpa [written_append, written, Event.bytes, pending]
            using everything
        part := by
          simpa [written, Event.bytes] using sound.part
        offset := by simp
        last := by simp
        ends := fun _ => sound.ends (.inr ⟨msgbuf, by simp [queue], ends⟩)
        closes := sound.closes.concat fun _ => everything
        alternate := fun _ => silent ▸ sound.alternate alive }
  rw [if_neg ends]
  cases write with
  | epipe =>
    refine .failed _ ?_ (by simp) rfl
    have lawful : Lawful (Closes input) (_ ++ [Event.epipe] ++ [.control .stop]) :=
      (sound.event (by simp)).concat (fun same => nomatch same)
    rw [append_assoc] at lawful
    exact
      { opened := fun still => nomatch still
        shut := fun _ => ⟨rfl, .inr (by simp)⟩
        bytes := fun still => absurd (by simp) still
        part := by
          simpa [written, Event.bytes] using sound.part
        offset := by simp
        last := by simp
        ends := by simp [notClosed]
        closes := lawful
        alternate := fun still => absurd (by simp) still }
  | wrote count =>
    dsimp only
    generalize total : msgbuf.offset + min count (msgbuf.msg.drop msgbuf.offset).length = reached
    have split : (msgbuf.msg.drop msgbuf.offset).take count ++
        msgbuf.msg.drop reached = msgbuf.msg.drop msgbuf.offset := by
      rw [← total, ← drop_drop]
      exact take_min _ _
    have bound : reached ≤ msgbuf.msg.length := by
      rw [length_drop] at total
      omega
    have all : written (state.trace ++ [.wrote ((msgbuf.msg.drop msgbuf.offset).take count)]) ++
          (msgbuf.msg.drop reached ++ pending rest) = input.flatten := by
      have last : written [.wrote ((msgbuf.msg.drop msgbuf.offset).take count)] =
          (msgbuf.msg.drop msgbuf.offset).take count := append_nil _
      rw [written_append, last, append_assoc, ← append_assoc (take _ _), split]
      exact bytes
    have silent : controls (state.trace ++
        [.wrote ((msgbuf.msg.drop msgbuf.offset).take count)]) = controls state.trace := by
      rw [controls_append]
      exact append_nil _
    have goesOn (msgs : List MsgBuf) (same : pending msgs = msgbuf.msg.drop reached ++ pending rest)
        (offset : ∀ other ∈ msgs, other.offset ≤ other.msg.length)
        (last : msgs.Pairwise fun other _ => other.msg ≠ [])
        (ends : (∃ other ∈ msgs, other.msg = []) → [] ∈ input) :
        Sound input { state.log [.wrote ((msgbuf.msg.drop
          msgbuf.offset).take count)] with oldMsgs := msgs } :=
      { opened := fun _ => by simp [notClosed, alive]
        shut := fun closed => nomatch isOpen.symm.trans closed
        bytes := fun _ => same ▸ all
        part := ⟨_, all⟩
        offset, last
        ends := fun some => ends (some.resolve_left (by simp [notClosed]))
        closes := sound.event (fun same => nomatch same)
        alternate := fun _ => silent ▸ sound.alternate alive }
    have later (other : MsgBuf) (member : other ∈ rest) :
        other.offset ≤ other.msg.length ∧ (other.msg = [] → [] ∈ input) :=
      have old : other ∈ state.oldMsgs := queue ▸ mem_cons_of_mem _ member
      ⟨sound.offset other old, fun empty => sound.ends (.inr ⟨other, old, empty⟩)⟩
    by_cases whole : reached = msgbuf.msg.length
    · rw [whole] at goesOn ⊢
      exact .all _ (goesOn rest (by simp) (fun other member =>
        (later other member).1) older.2 fun ⟨other, member, empty⟩ =>
          (later other member).2 empty) silent (by simp [alive])
    · refine .some _ _ whole (goesOn _ (by simp [pending]) ?_
        (pairwise_cons.mpr older) ?_) silent (by simp [alive])
      · exact forall_mem_cons.mpr ⟨bound, fun other member => (later other member).1⟩
      · rintro ⟨other, member, empty⟩
        rcases mem_cons.mp member with rfl | behind
        · exact absurd empty ends
        · exact (later other behind).2 empty

theorem Sound.control (sound : Sound input state) (type : Control)
    (parity : .epipe ∉ state.trace →
      type = if (controls state.trace).length % 2 = 0 then .stop else .cont) :
    Sound input (state.log [.control type]) where
  opened isOpen := by simpa using sound.opened isOpen
  shut closed := (sound.shut closed).imp_right fun past => by
    simpa using past
  bytes alive := by
    have bytes := sound.bytes (by simpa using alive)
    simpa [written, Event.bytes] using bytes
  part := by simpa [written, Event.bytes] using sound.part
  offset := sound.offset
  last := sound.last
  ends := by simpa using sound.ends
  closes := sound.event (fun same => nomatch same)
  alternate alive := by
    have before : .epipe ∉ state.trace := by simpa using alive
    rw [State.log, controls_append]
    exact Snoc.forall_getElem? (sound.alternate before) (parity before)

/-! ## Runs keep it -/

/-- The last message to the logger is STOP. -/
def Stopped (state : State) : Prop := (controls state.trace).length % 2 = 1

theorem Stopped.congr {after : State} (stopped : Stopped state)
    (silent : controls after.trace = controls state.trace) : Stopped after := by
  rw [Stopped, silent]
  exact stopped

structure Good (input : List (List UInt8)) (state : State) : Prop where
  sound : Sound input state
  waits : state.awaitWrite = true → state.oldMsgs ≠ []
  stopped : state.oldMsgs ≠ [] → Stopped state
  continued : state.oldMsgs = [] → .epipe ∉ state.trace → (controls state.trace).length % 2 = 0

/-- How the loop of `flushMsgs()` is left. -/
inductive Flushed (input : List (List UInt8)) : Bool × State → Prop where
  | all (after : State) (sound : Sound input after) (empty : after.oldMsgs = [])
      (alive : .epipe ∉ after.trace) (stopped : Stopped after) :
      Flushed input (true, after)
  | stuck (after : State) (sound : Sound input after)
      (queue : after.oldMsgs ≠ []) (stopped : Stopped after) :
      Flushed input (false, after)
  | failed (after : State) (sound : Sound input (dropAllMsgs after))
      (epipe : .epipe ∈ after.trace) (vacated : after.awaitWrite = false) :
      Flushed input (false, dropAllMsgs after)

theorem flushLoop_flushed (writes : Nat → Write) (todo : List MsgBuf) :
    ∀ count state, state.oldMsgs = todo → Sound input state → .epipe ∉ state.trace → Stopped state →
      Flushed input (flushLoop writes count todo state) := by
  induction todo with
  | nil =>
    intro count state queue sound alive stopped
    exact .all state sound queue alive stopped
  | cons msgbuf rest induction =>
    intro count state queue sound alive stopped
    rw [flushLoop]
    have wrote := sound.wrote queue (writes count)
    generalize doClntWrite (writes count) msgbuf.msg msgbuf.offset state = result at wrote ⊢
    cases wrote with
    | failed after sound epipe vacated => exact .failed after sound epipe vacated
    | all after sound silent alive =>
      simp only [ne_eq, not_true_eq_false, if_false]
      exact induction _ _ rfl sound alive (stopped.congr silent)
    | some written after less sound silent alive =>
      simp only [if_pos less]
      exact .stuck _ sound (by simp) (stopped.congr silent)

theorem Good.flushMsgs (good : Good input state) (queue : state.oldMsgs ≠ [])
    (writes : Nat → Write) :
    Good input (Forwarder.flushMsgs writes state) := by
  have alive := (good.sound.opened (good.sound.isOpen queue)).2
  have flushed := flushLoop_flushed writes state.oldMsgs 0 state rfl good.sound
    alive (good.stopped queue)
  unfold Forwarder.flushMsgs
  generalize flushLoop writes 0 state.oldMsgs state = result at flushed ⊢
  cases flushed with
  | all after sound empty alive stopped =>
    have vacated : Sound input { after with awaitWrite := false } := { sound with }
    have odd : (controls after.trace).length % 2 = 1 := stopped
    refine ⟨vacated.control .cont fun _ => ?_, (fun waits => nomatch waits),
      fun queue => absurd empty queue, fun _ _ => ?_⟩
    · rw [if_neg (by simp [odd])]
    · change (controls (after.trace ++ [.control .cont])).length % 2 = 0
      rw [controls_append, length_append, Nat.add_mod, odd]
      rfl
  | stuck after sound queue stopped =>
    exact ⟨sound, fun _ => queue, fun _ => stopped,
      fun empty => absurd empty queue⟩
  | failed after sound epipe vacated =>
    exact ⟨sound, (fun waits => nomatch vacated.symm.trans waits),
      fun queue => absurd rfl queue, fun _ alive => absurd epipe alive⟩

theorem doClntWrite_queue (write : Write) (msg : List UInt8) (offset : Nat)
    (state : State) (msgs : List MsgBuf) :
    doClntWrite write msg offset { state with oldMsgs := msgs } =
      ((doClntWrite write msg offset state).1,
        { (doClntWrite write msg offset state).2 with oldMsgs := msgs }) := by
  unfold doClntWrite
  split
  · rfl
  · split
    · rfl
    · cases write with
      | epipe => rfl
      | wrote count => rfl

theorem lawful_open {trace : List Event} (notClosed : .closed ∉ trace) :
    Lawful (Closes input) trace := by
  rintro before event after split rfl
  exact absurd (by simp [split]) notClosed

theorem doClntWrite_awaitWrite (write : Write) (msg : List UInt8)
    (offset : Nat) (state : State) (idle : state.awaitWrite = false) :
    (doClntWrite write msg offset state).2.awaitWrite = false := by
  unfold doClntWrite
  split
  · exact idle
  · split
    · rfl
    · cases write with
      | epipe => rfl
      | wrote count => exact idle

/-- Another message is stored behind the others. -/
theorem Sound.store (sound : Sound input state) (goesOn : [] ∉ input)
    (isOpen : state.stdin_fd = true) (msg : List UInt8) :
    Sound (input ++ [msg]) (storeMsg msg 0 state) where
  opened := sound.opened
  shut closed := nomatch isOpen.symm.trans closed
  bytes alive := by
    have bytes := sound.bytes alive
    simp only [storeMsg, pending, flatMap_append, flatMap_cons, drop_zero,
      flatMap_nil, append_nil, flatten_append, flatten_cons, flatten_nil]
    rw [← append_assoc, ← bytes]
    rfl
  part := by
    rw [flatten_append]
    exact sound.part.trans (prefix_append _ _)
  offset := Snoc.forall_mem sound.offset (Nat.zero_le _)
  last := by
    refine pairwise_append.mpr ⟨sound.last, pairwise_singleton _ _,
      fun msgbuf member _ _ empty => ?_⟩
    exact goesOn (sound.ends (.inr ⟨msgbuf, member, empty⟩))
  ends := by
    rintro (closed | ⟨msgbuf, member, empty⟩)
    · exact absurd closed (sound.opened isOpen).1
    · rcases mem_append.mp member with old | last
      · exact mem_append_left _ (sound.ends (.inr ⟨msgbuf, old, empty⟩))
      · cases mem_singleton.mp last
        exact mem_append_right _ (mem_singleton.mpr empty.symm)
  closes := lawful_open (sound.opened isOpen).1
  alternate := sound.alternate

theorem Good.writeMsg (good : Good input state) (goesOn : [] ∉ input)
    (writes : Nat → Write) (write : Write) (msg : List UInt8) :
    Good (input ++ [msg]) (Forwarder.writeMsg writes write msg state) := by
  have flushed : Good input (if state.oldMsgs.isEmpty then state
      else Forwarder.flushMsgs writes state) := by
    split
    · exact good
    · next queue => exact good.flushMsgs (by simpa using queue) writes
  unfold Forwarder.writeMsg
  generalize (if state.oldMsgs.isEmpty then state
    else Forwarder.flushMsgs writes state) = before at flushed
  obtain ⟨sound, waits, stopped, continued⟩ := flushed
  by_cases queue : before.oldMsgs = []
  · simp only [queue, isEmpty_nil, if_true]
    cases isOpen : before.stdin_fd with
    | false =>
      -- the client has closed its end before
      have epipe := (sound.shut isOpen).2.resolve_left fun closed =>
        goesOn (sound.ends (.inl closed))
      simp only [doClntWrite, isOpen, if_true]
      refine ⟨{ sound with bytes := ?_, part := ?_, ends := ?_, closes := ?_ },
        waits, stopped, continued⟩
      · exact fun alive => absurd epipe alive
      · rw [flatten_append]
        exact sound.part.trans (prefix_append _ _)
      · exact fun some => mem_append_left _ (sound.ends some)
      · exact lawful_open fun closed => goesOn (sound.ends (.inl closed))
    | true =>
      have even := continued queue (sound.opened isOpen).2
      have idle : before.awaitWrite = false := by
        by_contra waiting
        exact waits (by simpa using waiting) queue
      have back : { storeMsg msg 0 before with oldMsgs := [] } = before := by
        rw [← queue]
        rfl
      have wrote : Wrote _ _ ⟨msg, 0⟩ [] _ := (sound.store goesOn isOpen msg).wrote
        (by simp [storeMsg, queue]) write
      have still := doClntWrite_awaitWrite write msg 0 (storeMsg msg 0 before) idle
      have same := doClntWrite_queue write msg 0 (storeMsg msg 0 before) []
      rw [back] at same
      rw [same]
      generalize doClntWrite write msg 0 (storeMsg msg 0 before) = result
        at wrote still ⊢
      cases wrote with
      | failed after sound epipe vacated =>
        exact ⟨sound, (fun waits => nomatch vacated.symm.trans waits),
          fun queue => absurd rfl queue, fun _ alive => absurd epipe alive⟩
      | all after sound silent alive =>
        simp only [if_true]
        exact ⟨sound, (fun waits => nomatch still.symm.trans waits),
          fun queue => absurd rfl queue, fun _ _ => silent ▸ even⟩
      | some written after less sound silent alive =>
        have isOpen : ¬ after.stdin_fd = false := by
          simpa using sound.isOpen (by simp)
        have nonempty : msg ≠ [] := by
          rintro rfl
          have within := sound.offset _ mem_cons_self
          exact less (Nat.le_zero.mp within)
        have waiting : Sound (input ++ [msg]) { after with
            oldMsgs := [⟨msg, written⟩], awaitWrite := true } := { sound with }
        have counted : (controls after.trace).length % 2 = 0 := silent ▸ even
        simp only [if_neg less, if_neg nonempty, if_neg isOpen, storeMsg, nil_append]
        refine ⟨waiting.control .stop fun _ => (if_pos counted).symm,
          fun _ => by simp, fun _ => ?_, fun none => nomatch none⟩
        change (controls (after.trace ++ [.control .stop])).length % 2 = 1
        rw [controls_append, length_append, Nat.add_mod, counted]
        rfl
  · have isOpen := sound.isOpen queue
    simp only [List.isEmpty_iff, queue, if_false]
    exact ⟨sound.store goesOn isOpen msg, fun _ => by simp [storeMsg],
      fun _ => stopped queue, fun none => absurd none (by simp [storeMsg])⟩

theorem good_invariant : stdinSystem.Invariant (fun world => Good world.input world.toState) where
  initial := by
    rintro world rfl
    have sound : Sound [] ⟨true, false, [], []⟩ :=
      { opened := by simp
        shut := fun closed => nomatch closed
        bytes := fun _ => rfl
        part := nil_prefix
        offset := by simp
        last := Pairwise.nil
        ends := by simp
        closes := Lawful.nil
        alternate := fun _ i type item => by simp [controls] at item }
    exact ⟨sound, (fun waits => nomatch waits), fun queue => absurd rfl queue,
      fun _ _ => rfl⟩
  step := by
    rintro before after good (⟨goesOn, writes, write, msg, rfl⟩ | ⟨waits, writes, rfl⟩)
    · exact good.writeMsg goesOn writes write msg
    · exact good.flushMsgs (good.waits waits) writes

/-- What the client gets is the beginning of the input, and all of it once
nothing is kept, unless the client has closed its end; then nothing is kept any
more. -/
theorem stdin_delivered (world : World)
    (reachable : stdinSystem.Reachable world) :
    written world.trace <+: world.input.flatten ∧
      Lawful (Closes world.input) world.trace ∧
      (.epipe ∉ world.trace →
        (world.oldMsgs = [] → written world.trace = world.input.flatten) ∧
        Alternate (controls world.trace) ∧
        (world.oldMsgs = [] → ∀ type, (controls world.trace).getLast? = some type → type = .cont)) ∧
      (.epipe ∈ world.trace → world.oldMsgs = []) := by
  have good := good_invariant.reachable reachable
  refine ⟨good.sound.part, good.sound.closes, fun alive => ⟨fun queue => ?_,
    good.sound.alternate alive, fun queue type last => ?_⟩, fun epipe => ?_⟩
  · have bytes := good.sound.bytes alive
    rw [queue] at bytes
    exact (append_nil _).symm.trans bytes
  · have even := good.continued queue alive
    rw [getLast?_eq_getElem?] at last
    have bound := (List.getElem?_eq_some_iff.mp last).1
    rw [good.sound.alternate alive _ type last, if_neg (by omega)]
  · by_contra queue
    exact (good.sound.opened (good.sound.isOpen queue)).2 epipe

theorem stdin_delivered_blocked :
    written (writeMsg (fun _ => .epipe) (.wrote 1) [1, 2]
      ⟨true, false, [], []⟩).trace <+: [[1, 2]].flatten :=
  (stdin_delivered ⟨writeMsg (fun _ => .epipe) (.wrote 1) [1, 2] ⟨true, false, [], []⟩, [[1, 2]]⟩
    (.step (.initial rfl) (.inl ⟨by simp, _, _, _, rfl⟩))).1

end Psmgmt.Forwarder
