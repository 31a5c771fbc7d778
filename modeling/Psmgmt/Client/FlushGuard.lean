import Psmgmt.Client.Flush

/-!
# The guard against flushing messages recursively

`FLUSH` is set for the clients whose messages are being flushed and for those
that were left by `flushClientMsgs()` with an error.
-/

namespace Psmgmt.Client

open List Function

/-! ## Calls that flush messages -/

/-- The client whose messages a call flushes. -/
def Frame.flushes : Frame → Option Int
  | .flushFailed fd => some fd
  | .flushCont fd => some fd
  | _ => none

/-- The clients whose messages are being flushed. -/
def active (d : Daemon) : List Int := d.stack.filterMap Frame.flushes

/-- Neither flags nor the calls flushing messages change. -/
structure SameFlush (before after : Daemon) : Prop where
  flush : ∀ fd, (after.clients fd).flush = (before.clients fd).flush
  active : active after = active before

theorem SameFlush.refl (d : Daemon) : SameFlush d d := ⟨fun _ => rfl, rfl⟩

theorem SameFlush.trans {first second third : Daemon}
    (left : SameFlush first second) (right : SameFlush second third) :
    SameFlush first third :=
  ⟨fun fd => (right.flush fd).trans (left.flush fd),
    right.active.trans left.active⟩

theorem setClient_flush (fd other : Int) (client : ClientSlot) (d : Daemon) :
    ((setClient fd client d).clients other).flush =
      if other = fd then client.flush else (d.clients other).flush := by
  change (update d.clients fd client other).flush = _
  rw [update_apply]
  split
  · rfl
  · rfl

theorem setClient_self (fd : Int) (client : ClientSlot) (d : Daemon) :
    (setClient fd client d).clients fd = client :=
  update_self _ _ _

variable {fd : Int} {d : Daemon} {sends : Nat → Sent}

theorem setClient_same {client : ClientSlot}
    (flush : client.flush = (d.clients fd).flush) :
    SameFlush d (setClient fd client d) := by
  refine ⟨fun other => ?_, rfl⟩
  rw [setClient_flush]
  split
  · rename_i here
    rw [here, flush]
  · rfl

theorem push_same {frame : Frame} {d : Daemon} (none_ : frame.flushes = none) :
    SameFlush d (push frame d) :=
  ⟨fun _ => rfl, filterMap_cons_none none_⟩

theorem register_same (fd : Int) (tid : TaskId) (task : Option Nat)
    (d : Daemon) : SameFlush d (register fd tid task d) := by
  unfold register
  split
  · exact SameFlush.refl d
  · exact setClient_same rfl

theorem releaseACK_same (fd : Int) (d : Daemon) : SameFlush d (releaseACK fd d) := by
  unfold releaseACK
  split
  · exact SameFlush.refl d
  · dsimp only
    split
    · exact SameFlush.trans (setClient_same (by rfl)) (push_same rfl)
    · exact setClient_same rfl

theorem closeConnection_same (fd : Int) (d : Daemon) : SameFlush d (closeConnection fd d) := by
  unfold closeConnection
  split
  · exact SameFlush.refl d
  · dsimp only
    have tasks : ∀ taskFd, SameFlush d { d with taskFd := taskFd } :=
      fun _ => ⟨fun _ => rfl, rfl⟩
    split
    · exact (tasks _).trans (setClient_same rfl)
    · exact (tasks _).trans (SameFlush.trans (setClient_same (by rfl)) (push_same rfl))

theorem delete_same (fd : Int) (d : Daemon) : SameFlush d (delete fd d) := by
  unfold delete
  split
  · exact SameFlush.refl d
  · exact (push_same rfl).trans (closeConnection_same fd _)

theorem sendError_same (fd : Int) (d : Daemon) : SameFlush d (sendError fd d) := by
  unfold sendError
  split
  · exact SameFlush.refl d
  · exact delete_same fd d

theorem storeMsg_same (fd : Int) (msg : Msg) (offset : Nat) (addStop : Int)
    (d : Daemon) : SameFlush d (storeMsg fd msg offset addStop d) := by
  unfold storeMsg
  dsimp only
  split
  · exact setClient_same rfl
  · exact setClient_same rfl

theorem finishSend_same (fd : Int) (msg : Msg) (sent : Sent) (stored : Bool)
    (addStop : Int) (d : Daemon) :
    SameFlush d (finishSend fd msg sent stored addStop d) := by
  unfold finishSend
  dsimp only
  split
  · exact sendError_same fd d
  · split
    · exact SameFlush.refl d
    · split
      · exact SameFlush.refl d
      · exact storeMsg_same fd msg _ addStop d

/-! ## Errors while flushing -/

/-- `flushClientMsgs()` returns with an error from `doSend()` at once. -/
def flushLeaks (fd : Int) (sends : Nat → Sent) (d : Daemon) : Bool :=
  checkClient fd d && !((d.clients fd).flush || (d.clients fd).close) &&
    (flushLoop (d.clients fd).msgs sends).2 && (d.clients fd).task.isSome

/-- The client for which `flushClientMsgs()` returns with an error. -/
def leakOf (myID : Int) (event : Event) (d : Daemon) : Option Int :=
  match event with
  | .flush fd sends => if flushLeaks fd sends d then some fd else none
  | .send msg sends =>
    (sendFd myID msg d).bind (fun fd => if flushLeaks fd sends d then some fd else none)
  | .continued _ _ _ =>
    match d.stack with
    | .flushFailed fd :: _ => some fd
    | _ => none
  | _ => none

/-- What a call of `flushClientMsgs()` does to the flags. -/
inductive Flushed (fd : Int) (sends : Nat → Sent) (before after : Daemon) :
    Prop where
  | same (sound : flushLeaks fd sends before = false) (same : SameFlush before after)
  | begun (sound : flushLeaks fd sends before = false)
      (free : (before.clients fd).flush = false)
      (flush : ∀ other, (after.clients other).flush =
        if other = fd then true else (before.clients other).flush)
      (active : active after = fd :: active before)
  | leaked (leaks : flushLeaks fd sends before = true)
      (free : (before.clients fd).flush = false)
      (flush : ∀ other, (after.clients other).flush =
        if other = fd then true else (before.clients other).flush)
      (active : active after = active before)

theorem flushClientMsgs_flushed (fd : Int) (sends : Nat → Sent) (d : Daemon) :
    Flushed fd sends d (flushClientMsgs fd sends d) := by
  unfold flushClientMsgs
  cases check : checkClient fd d with
  | false =>
    rw [Bool.not_false, if_pos rfl]
    refine Flushed.same ?_ (SameFlush.refl d)
    rw [flushLeaks, check]
    rfl
  | true =>
    rw [Bool.not_true, if_neg Bool.false_ne_true]
    dsimp only
    by_cases guarded : ((d.clients fd).flush || (d.clients fd).close) = true
    · rw [if_pos guarded]
      refine Flushed.same ?_ (SameFlush.refl d)
      rw [flushLeaks, check, guarded]
      rfl
    · rw [if_neg guarded]
      have open_ := Bool.eq_false_iff.mpr guarded
      have free := (Bool.or_eq_false_iff.mp open_).1
      have value : flushLeaks fd sends d =
          ((flushLoop (d.clients fd).msgs sends).2 && (d.clients fd).task.isSome) := by
        rw [flushLeaks, check, open_]
        simp only [Bool.not_false, Bool.and_self, Bool.true_and]
      cases failed : (flushLoop (d.clients fd).msgs sends).2 with
      | true =>
        rw [failed, Bool.true_and] at value
        rw [if_pos rfl]
        generalize made : ({ d.clients fd with
          msgs := (flushLoop (d.clients fd).msgs sends).1
          flush := true } : ClientSlot) = slot
        have isSet : slot.flush = true := by rw [← made]
        have flush : ∀ other, ((setClient fd slot d).clients other).flush =
            if other = fd then true else (d.clients other).flush := by
          intro other
          rw [setClient_flush, isSet]
        rcases task : (d.clients fd).task with _ | task
        · have same := delete_same fd (push (.flushFailed fd) (setClient fd slot d))
          refine Flushed.begun ?_ free ?_ same.active
          · rw [value, task]
            rfl
          · intro other
            exact (same.flush other).trans (flush other)
        · refine Flushed.leaked ?_ free flush rfl
          rw [value, task]
          rfl
      | false =>
        rw [failed, Bool.false_and] at value
        rw [if_neg Bool.false_ne_true]
        split
        · refine Flushed.begun value free ?_ rfl
          intro other
          exact setClient_flush _ _ _ _
        · exact Flushed.same value (setClient_same free.symm)

/-! ## Runs -/

/-- The table after `PSIDclient_init()`. -/
structure Initial (d : Daemon) : Prop where
  flush : ∀ fd, (d.clients fd).flush = false
  stack : d.stack = []

/-- What a run has come to, with the states its events have met. -/
inductive Reaches (myID : Int) : List (Daemon × Event) → Daemon → Prop where
  | start {d : Daemon} (initial : Initial d) : Reaches myID [] d
  | next {history : List (Daemon × Event)} {before after : Daemon} {event : Event}
      (reaches : Reaches myID history before) (step : step myID event before = some after) :
      Reaches myID (history ++ [(before, event)]) after

/-- `flushClientMsgs()` was left with an error for the client. -/
def Leaked (myID : Int) (history : List (Daemon × Event)) (fd : Int) : Prop :=
  ∃ entry ∈ history, leakOf myID entry.2 entry.1 = some fd

/-- The flag is set for the clients being flushed and those left behind. -/
structure Guard (myID : Int) (history : List (Daemon × Event)) (d : Daemon) :
    Prop where
  flush : ∀ fd, (d.clients fd).flush = true ↔ fd ∈ active d ∨ Leaked myID history fd
  once : (active d).Nodup
  apart : ∀ fd, Leaked myID history fd → fd ∉ active d

variable {myID : Int} {history : List (Daemon × Event)} {before after : Daemon}
  {event : Event}

theorem leaked_concat (fd : Int) : Leaked myID (history ++ [(before, event)]) fd ↔
      Leaked myID history fd ∨ leakOf myID event before = some fd := by
  rw [Leaked]
  constructor
  · rintro ⟨entry, member, leak⟩
    rcases mem_append.mp member with earlier | last
    · exact .inl ⟨entry, earlier, leak⟩
    · rw [mem_singleton.mp last] at leak
      exact .inr leak
  · rintro (⟨entry, member, leak⟩ | leak)
    · exact ⟨entry, mem_append_left _ member, leak⟩
    · exact ⟨(before, event), mem_append_right _ mem_cons_self, leak⟩

theorem Guard.same (guard : Guard myID history before)
    (sound : leakOf myID event before = none) (same : SameFlush before after) :
    Guard myID (history ++ [(before, event)]) after := by
  have leaks : ∀ fd, Leaked myID (history ++ [(before, event)]) fd ↔ Leaked myID history fd := by
    intro fd
    rw [leaked_concat, sound]
    exact or_iff_left (fun never => nomatch never)
  refine ⟨?_, ?_, ?_⟩
  · intro fd
    rw [same.flush, same.active, leaks]
    exact guard.flush fd
  · rw [same.active]
    exact guard.once
  · intro fd leaked
    rw [same.active]
    exact guard.apart fd ((leaks fd).mp leaked)

/-- A call of `flushClientMsgs()` begins or is left with an error. -/
theorem Guard.flushed (guard : Guard myID history before)
    (leak : leakOf myID event before =
      if flushLeaks fd sends before then some fd else none)
    (flushed : Flushed fd sends before after) :
    Guard myID (history ++ [(before, event)]) after := by
  have fresh : (before.clients fd).flush = false →
      fd ∉ active before ∧ ¬ Leaked myID history fd := by
    intro free
    rw [← not_or, ← guard.flush, free]
    exact Bool.false_ne_true
  cases flushed with
  | same sound same =>
    rw [sound, if_neg Bool.false_ne_true] at leak
    exact guard.same leak same
  | begun sound free flush active_ =>
    obtain ⟨idle, clean⟩ := fresh free
    rw [sound, if_neg Bool.false_ne_true] at leak
    have leaks : ∀ other, Leaked myID (history ++ [(before, event)]) other ↔
        Leaked myID history other := by
      intro other
      rw [leaked_concat, leak]
      exact or_iff_left (fun never => nomatch never)
    refine ⟨?_, ?_, ?_⟩
    · intro other
      rw [flush, active_, leaks, mem_cons]
      by_cases here : other = fd
      · rw [if_pos here]
        exact ⟨fun _ => .inl (.inl here), fun _ => rfl⟩
      · rw [if_neg here, or_iff_right here]
        exact guard.flush other
    · rw [active_]
      exact nodup_cons.mpr ⟨idle, guard.once⟩
    · intro other leaked
      rw [active_, mem_cons, not_or]
      have earlier := (leaks other).mp leaked
      exact ⟨fun here => clean (here ▸ earlier), guard.apart other earlier⟩
  | leaked leaks free flush active_ =>
    obtain ⟨idle, _⟩ := fresh free
    rw [leaks, if_pos rfl] at leak
    have leaks : ∀ other, Leaked myID (history ++ [(before, event)]) other ↔
        Leaked myID history other ∨ fd = other := by
      intro other
      rw [leaked_concat, leak, Option.some.injEq]
    refine ⟨?_, ?_, ?_⟩
    · intro other
      rw [flush, active_, leaks, ← or_assoc]
      by_cases here : other = fd
      · rw [if_pos here]
        exact ⟨fun _ => .inr here.symm, fun _ => rfl⟩
      · rw [if_neg here, or_iff_left (fun same => here same.symm)]
        exact guard.flush other
    · rw [active_]
      exact guard.once
    · intro other leaked
      rw [active_]
      rcases (leaks other).mp leaked with earlier | here
      · exact guard.apart other earlier
      · exact here ▸ idle

/-- The innermost call goes on. -/
theorem Guard.continued {sent : Sent} {stored : Bool} {addStop : Int}
    (guard : Guard myID history before) :
    Guard myID (history ++ [(before, .continued sent stored addStop)])
      (continueCall sent stored addStop before) := by
  rcases stack : before.stack with _ | ⟨frame, rest⟩
  · rw [continueCall, stack]
    exact guard.same (by rw [leakOf, stack]) (SameFlush.refl before)
  · have popped : frame.flushes = none → SameFlush before { before with stack := rest } := by
      intro none_
      refine ⟨fun _ => rfl, ?_⟩
      rw [active, active, stack]
      exact (filterMap_cons_none none_).symm
    have sound : (∀ fd, frame ≠ .flushFailed fd) →
        leakOf myID (.continued sent stored addStop) before = none := by
      intro other
      rw [leakOf, stack]
      cases frame with
      | flushFailed fd => exact absurd rfl (other fd)
      | _ => rfl
    rw [continueCall, stack]
    cases frame with
    | flushFailed fd =>
      have leak : leakOf myID (.continued sent stored addStop) before = some fd := by
        rw [leakOf, stack]
      have was : active before = fd :: rest.filterMap Frame.flushes := by
        rw [active, stack]
        rfl
      have once := was ▸ guard.once
      have leaks : ∀ other, Leaked myID
          (history ++ [(before, .continued sent stored addStop)]) other ↔
            Leaked myID history other ∨ fd = other := by
        intro other
        rw [leaked_concat, leak, Option.some.injEq]
      refine ⟨?_, (nodup_cons.mp once).2, ?_⟩
      · intro other
        rw [leaks]
        change (before.clients other).flush = true ↔ other ∈ rest.filterMap Frame.flushes ∨ _
        rw [guard.flush, was, mem_cons]
        constructor
        · rintro ((here | inside) | earlier)
          · exact .inr (.inr here.symm)
          · exact .inl inside
          · exact .inr (.inl earlier)
        · rintro (inside | earlier | here)
          · exact .inl (.inr inside)
          · exact .inr earlier
          · exact .inl (.inl here.symm)
      · intro other leaked
        change other ∉ rest.filterMap Frame.flushes
        rcases (leaks other).mp leaked with earlier | here
        · have apart := guard.apart other earlier
          rw [was, mem_cons, not_or] at apart
          exact apart.2
        · exact here ▸ (nodup_cons.mp once).1
    | flushCont fd =>
      have leak := sound (fun _ never => nomatch never)
      have was : active before = fd :: rest.filterMap Frame.flushes := by
        rw [active, stack]
        rfl
      have once := was ▸ guard.once
      have leaks : ∀ other, Leaked myID
          (history ++ [(before, .continued sent stored addStop)]) other ↔
            Leaked myID history other := by
        intro other
        rw [leaked_concat, leak]
        exact or_iff_left (fun never => nomatch never)
      refine ⟨?_, (nodup_cons.mp once).2, ?_⟩
      · intro other
        rw [leaks]
        change ((setClient fd { before.clients fd with flush := false }
          { before with stack := rest }).clients other).flush = true ↔
            other ∈ rest.filterMap Frame.flushes ∨ _
        rw [setClient_flush]
        by_cases here : other = fd
        · rw [if_pos here, here]
          constructor
          · intro never
            exact nomatch never
          · rintro (inside | leaked)
            · exact absurd inside (nodup_cons.mp once).1
            · have apart := guard.apart fd leaked
              rw [was] at apart
              exact absurd mem_cons_self apart
        · rw [if_neg here]
          change (before.clients other).flush = true ↔ _
          rw [guard.flush, was, mem_cons, or_iff_right here]
      · intro other leaked
        change other ∉ rest.filterMap Frame.flushes
        have apart := guard.apart other ((leaks other).mp leaked)
        rw [was, mem_cons, not_or] at apart
        exact apart.2
    | sending fd msg =>
      exact guard.same (sound (fun _ never => nomatch never))
        ((popped rfl).trans (finishSend_same fd msg sent stored addStop _))
    | closing fd last =>
      refine guard.same (sound (fun _ never => nomatch never)) ((popped rfl).trans ?_)
      dsimp only
      split
      · exact SameFlush.trans (setClient_same (by rfl)) (push_same rfl)
      · exact push_same rfl
    | closeCont fd =>
      exact guard.same (sound (fun _ never => nomatch never))
        ((popped rfl).trans (setClient_same rfl))
    | deleting task => exact guard.same (sound (fun _ never => nomatch never)) (popped rfl)
    | releaseCont => exact guard.same (sound (fun _ never => nomatch never)) (popped rfl)

theorem Guard.send {msg : Msg} (guard : Guard myID history before) :
    Guard myID (history ++ [(before, .send msg sends)]) (send myID msg sends before) := by
  rcases found : sendFd myID msg before with _ | fd
  · rw [Client.send, found]
    exact guard.same (by rw [leakOf, found]; rfl) (SameFlush.refl before)
  · have leak : leakOf myID (.send msg sends) before =
        if flushLeaks fd sends before then some fd else none := by
      rw [leakOf, found]
      rfl
    have pushed := @push_same (.sending fd msg) before rfl
    rw [Client.send, found]
    dsimp only
    split
    · refine guard.flushed leak ?_
      cases flushClientMsgs_flushed fd sends (push (.sending fd msg) before) with
      | same sound same => exact Flushed.same sound (pushed.trans same)
      | begun sound free flush active_ => exact Flushed.begun sound free flush active_
      | leaked leaks free flush active_ => exact Flushed.leaked leaks free flush active_
    · rename_i none_
      refine guard.flushed leak (Flushed.same ?_ pushed)
      have empty : (before.clients fd).msgs = [] := not_not.mp none_
      rw [flushLeaks, empty, flushLoop, Bool.and_false, Bool.false_and]

theorem Guard.step (guard : Guard myID history before)
    (step : step myID event before = some after) :
    Guard myID (history ++ [(before, event)]) after := by
  cases event with
  | continued sent stored addStop =>
    cases Option.some.inj step
    exact guard.continued
  | register fd tid task =>
    obtain ⟨_, same⟩ := Option.ite_none_right_eq_some.mp step
    cases same
    exact guard.same rfl (register_same fd tid task before)
  | setEstablished fd =>
    obtain ⟨_, same⟩ := Option.ite_none_right_eq_some.mp step
    cases same
    exact guard.same rfl (setClient_same rfl)
  | releaseACK fd =>
    obtain ⟨_, same⟩ := Option.ite_none_right_eq_some.mp step
    cases same
    exact guard.same rfl (releaseACK_same fd before)
  | send msg sends =>
    obtain ⟨_, same⟩ := Option.ite_none_right_eq_some.mp step
    cases same
    exact guard.send
  | flush fd sends =>
    obtain ⟨_, same⟩ := Option.ite_none_right_eq_some.mp step
    cases same
    exact guard.flushed rfl (flushClientMsgs_flushed fd sends before)
  | delete fd =>
    obtain ⟨_, same⟩ := Option.ite_none_right_eq_some.mp step
    cases same
    exact guard.same rfl (delete_same fd before)
  | tasks managedTasks taskFd =>
    obtain ⟨_, same⟩ := Option.ite_none_right_eq_some.mp step
    cases same
    exact guard.same rfl ⟨fun _ => rfl, rfl⟩

theorem Reaches.guard (reaches : Reaches myID history d) : Guard myID history d := by
  induction reaches with
  | @start d initial =>
    have idle : active d = [] := by
      rw [active, initial.stack]
      rfl
    have clean : ∀ fd, ¬ Leaked myID [] fd := by
      rintro fd ⟨_, member, _⟩
      exact nomatch member
    refine ⟨?_, ?_, fun fd leaked => absurd leaked (clean fd)⟩
    · intro fd
      rw [initial.flush, idle]
      constructor
      · intro never
        exact nomatch never
      · rintro (never | leaked)
        · exact nomatch never
        · exact absurd leaked (clean fd)
    · rw [idle]
      exact nodup_nil
  | next _ step guard => exact guard.step step

/-! ## Later messages -/

/-- The socket takes all of the messages. -/
def Takes : List MsgBuf → (Nat → Sent) → Prop
  | [], _ => True
  | msgbuf :: rest, sends => sends 0 = .upTo msgbuf.msg.len ∧ Takes rest (fun i => sends (i + 1))

theorem flushLoop_takes {msgs : List MsgBuf} (takes : Takes msgs sends) :
    flushLoop msgs sends = ([], false) := by
  induction msgs generalizing sends with
  | nil => rfl
  | cons msgbuf rest next =>
    obtain ⟨first, later⟩ := takes
    rw [flushLoop, first]
    dsimp only
    rw [if_neg (not_not.mpr rfl)]
    exact next later

/-- The flag is released: only calls under way hold it, and the messages stored
for any other client are flushed. -/
structure Guarded (d : Daemon) : Prop where
  released : ∀ fd, (d.clients fd).flush = true → fd ∈ active d
  flushes : ∀ fd, checkClient fd d = true → fd ∉ active d →
    (d.clients fd).close = false → ∀ sends, Takes (d.clients fd).msgs sends →
      ((flushClientMsgs fd sends d).clients fd).msgs = []

theorem flushClientMsgs_takes (check : checkClient fd d = true)
    (free : (d.clients fd).flush = false) (going : (d.clients fd).close = false)
    (takes : Takes (d.clients fd).msgs sends) :
    ((flushClientMsgs fd sends d).clients fd).msgs = [] := by
  unfold flushClientMsgs
  rw [check, Bool.not_true, if_neg Bool.false_ne_true]
  dsimp only
  rw [free, going, flushLoop_takes takes, Bool.or_false,
    if_neg Bool.false_ne_true, if_neg Bool.false_ne_true]
  split
  · exact congrArg ClientSlot.msgs (setClient_self fd _ d)
  · exact congrArg ClientSlot.msgs (setClient_self fd _ d)

/-- The flag is released on every path of a run just if no call of
`flushClientMsgs()` has returned with an error of `doSend()`. -/
theorem flush_guarded_iff {d : Daemon} (reaches : Reaches myID history d) :
    Guarded d ↔ ∀ entry ∈ history, leakOf myID entry.2 entry.1 = none := by
  have guard := reaches.guard
  constructor
  · intro guarded entry member
    rcases leak : leakOf myID entry.2 entry.1 with _ | fd
    · rfl
    · have leaked : Leaked myID history fd := ⟨entry, member, leak⟩
      have flush := (guard.flush fd).mpr (.inr leaked)
      exact absurd (guarded.released fd flush) (guard.apart fd leaked)
  · intro sound
    have released : ∀ fd, (d.clients fd).flush = true → fd ∈ active d := by
      intro fd flush
      rcases (guard.flush fd).mp flush with inside | ⟨entry, member, leak⟩
      · exact inside
      · exact nomatch (sound entry member).symm.trans leak
    refine ⟨released, ?_⟩
    intro fd check idle going sends takes
    have free := Bool.eq_false_iff.mpr (fun flush => idle (released fd flush))
    exact flushClientMsgs_takes check free going takes

/-! A message is stored for a client whose connection breaks thereafter. -/

def idleDaemon : Daemon where
  maxClientFD := 8
  clients := fun _ => ⟨⟨-1, -1⟩, none, false, false, false, 0, []⟩
  managedTasks := fun _ => some 0
  taskFd := fun _ => 5
  stack := []

def heldMsg : Msg := ⟨⟨0, 77⟩, ⟨0, 78⟩, 0x0020, 100⟩

def registered : Daemon := register 5 ⟨0, 77⟩ (some 0) idleDaemon

def beingSent : Daemon := send 0 heldMsg (fun _ => .failed) registered

def storedFor : Daemon := continueCall (.upTo 0) true 0 beingSent

def brokenOff : Daemon := flushClientMsgs 5 (fun _ => .failed) storedFor

def brokenRun : List (Daemon × Event) :=
  [ (idleDaemon, .register 5 ⟨0, 77⟩ (some 0))
  , (registered, .send heldMsg (fun _ => .failed))
  , (beingSent, .continued (.upTo 0) true 0)
  , (storedFor, .flush 5 (fun _ => .failed)) ]

theorem brokenRun_reaches : Reaches 0 brokenRun brokenOff := by
  have start : Reaches 0 [] idleDaemon := .start ⟨fun _ => rfl, rfl⟩
  have first := @Reaches.next 0 _ _ _ (.register 5 ⟨0, 77⟩ (some 0)) start rfl
  have second := @Reaches.next 0 _ _ _ (.send heldMsg (fun _ => .failed))
    first rfl
  have third := @Reaches.next 0 _ _ _ (.continued (.upTo 0) true 0) second rfl
  exact @Reaches.next 0 _ _ _ (.flush 5 (fun _ => .failed)) third rfl

theorem brokenRun_guarded_iff :
    Guarded brokenOff ↔ ∀ entry ∈ brokenRun, leakOf 0 entry.2 entry.1 = none :=
  flush_guarded_iff brokenRun_reaches

/-- The flag is still set although no call is under way. -/
theorem not_flush_guarded : ¬ ∀ history d, Reaches 0 history d → Guarded d := by
  intro guarded
  have released := (guarded brokenRun brokenOff brokenRun_reaches).released 5 rfl
  exact nomatch released

end Psmgmt.Client
