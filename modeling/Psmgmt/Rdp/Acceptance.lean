import Psmgmt.Rdp.Rejection

/-!
# What the result of `Rsendto()` tells

A message that `Rsendto()` has taken is pending or has been handed back as
undeliverable.  The messages of a connection are counted over both, and only a
taken message adds to them.  Callbacks do not send here: one that does may close
a connection while its messages are being handed back.
-/

namespace Psmgmt.Rdp

open List Station

/-- The message an event hands back as undeliverable. -/
def Event.undeliverable (node : Nat) : Event → Option (List UInt8)
  | .callback (.pktUndeliverable dest buf) => if dest = node then some buf else none
  | _ => none

/-- The messages to `node` that are pending or have been handed back. -/
def accounted (node : Nat) (rdp : Station) : List (List UInt8) :=
  (rdp.conntable node).live.map MsgBuf.data ++ rdp.trace.filterMap (Event.undeliverable node)

/-- No callback is going to send. -/
def Silent (rdp : Station) : Prop := ∀ requests ∈ rdp.requests, requests = []

/-- What `Rsendto()` returns. -/
def returned : Except Errno Int → Int
  | .ok count => count
  | .error _ => -1

/-- The length is returned for a message that is accounted for from now on, and
-1 for one that is not. -/
def Contract (cb : RdpCallback) (node : Nat) (buf : List UInt8) (rdp : Station) : Prop :=
  (returned (rsendto cb node buf rdp).1 = buf.length ∧
      (accounted node (rsendto cb node buf rdp).2).Perm (accounted node rdp ++ [buf])) ∨
    (returned (rsendto cb node buf rdp).1 = -1 ∧
      (accounted node (rsendto cb node buf rdp).2).Perm (accounted node rdp))

/-- A failure that `MYsendto()` to `node` gets over. -/
def SendError.Harmless (node : Nat) (error : SendError) : Prop :=
  error.eno = .intr ∨
    (error.eno.unreachable = true ∧
      (error.queue = .empty ∨ ∃ other, other ≠ node ∧ error.queue = .node other))

/-- The message is refused, waits for its connection or gets through. -/
def Accepting (node : Nat) (buf : List UInt8) (rdp : Station) : Prop :=
  Refused node buf rdp ∨ (rdp.conntable node).state ≠ .active ∨
    ∀ error ∈ rdp.sends.head?.getD [], error.Harmless node

/-! ## Silent callbacks -/

variable {rdp : Station} {node : Nat}

variable (errors : List SendError)

variable {before after : Station}

section Silent

variable {depth : Nat}

theorem callbackAt_silent (silent : Silent rdp) (info : Callback) :
    ∃ requests, callbackAt depth rdp info = { rdp with requests := requests } ∧
      ∀ request ∈ requests, request = [] := by
  cases depth with
  | zero => exact ⟨rdp.requests, rfl, silent⟩
  | succ depth =>
    refine ⟨rdp.requests.tail, ?_, ?_⟩
    · have none : rdp.requests.head?.getD [] = [] := by
        rcases scripted : rdp.requests with _ | ⟨requests, rest⟩
        · rfl
        · apply silent
          rw [scripted]
          exact mem_cons_self
      show serve (callbackAt depth) (rdp.requests.head?.getD []) _ = _
      rw [none]
      rfl
    · intro request member
      exact silent request (mem_of_mem_tail member)

/-- The messages of a connection are still accounted for. -/
structure Carries (node : Nat) (before after : Station) : Prop where
  accounted : (accounted node after).Perm (accounted node before)
  silent : Silent after

theorem Carries.refl {node : Nat} {rdp : Station} (silent : Silent rdp) : Carries node rdp rdp :=
  ⟨List.Perm.refl _, silent⟩

theorem Carries.trans {middle : Station} (first : Carries node before middle)
    (second : Carries node middle after) :
    Carries node before after :=
  ⟨second.accounted.trans first.accounted, second.silent⟩

/-- Nothing changes for the messages of a connection. -/
theorem Carries.same (silent : Silent before)
    (requests : after.requests = before.requests)
    (live : (after.conntable node).live.map MsgBuf.data =
      (before.conntable node).live.map MsgBuf.data)
    (trace : after.trace.filterMap (Event.undeliverable node) =
      before.trace.filterMap (Event.undeliverable node)) :
    Carries node before after := by
  constructor
  · rw [Rdp.accounted, Rdp.accounted, live, trace]
  · intro request member
    rw [requests] at member
    exact silent request member

theorem Carries.log {node : Nat} {rdp : Station} (silent : Silent rdp)
    {event : Event} (other : event.undeliverable node = none) :
    Carries node rdp (rdp.log event) := by
  refine Carries.same silent rfl rfl ?_
  simp [Station.log, filterMap_append, other]

theorem Carries.modify {node peer : Nat} {rdp : Station} (silent : Silent rdp)
    {change : Conn → Conn} (pendList : ∀ conn, (change conn).pendList = conn.pendList) :
    Carries node rdp (rdp.modify peer change) := by
  refine Carries.same silent rfl ?_ rfl
  by_cases own : node = peer
  · rw [own, modify_self, Conn.live, Conn.live, pendList]
  · rw [modify_other own]

theorem notify_silent {rdp : Station} (silent : Silent rdp) (info : Callback) :
    Silent (notify (callbackAt depth) info rdp) ∧
      (notify (callbackAt depth) info rdp).conntable = rdp.conntable ∧
      (notify (callbackAt depth) info rdp).trace = rdp.trace ++ [.callback info] := by
  have logged : Silent (rdp.log (.callback info)) := silent
  rcases callbackAt_silent logged info with ⟨requests, result, kept⟩
  rw [notify, result]
  exact ⟨kept, rfl, rfl⟩

theorem Carries.notify (silent : Silent rdp) {info : Callback}
    (other : (Event.callback info).undeliverable node = none) :
    Carries node rdp (notify (callbackAt depth) info rdp) := by
  rcases notify_silent silent info with ⟨kept, conntable, trace⟩
  refine ⟨?_, kept⟩
  rw [Rdp.accounted, Rdp.accounted, conntable, trace, filterMap_append]
  simp [other]

theorem live_markDeleted {conn : Conn} {index : Nat} {mp : MsgBuf}
    (found : conn.pendList[index]? = some mp) (live : mp.deleted = false) :
    (conn.live.map MsgBuf.data).Perm
      (mp.data :: (conn.markDeleted index).live.map MsgBuf.data) := by
  unfold Conn.live Conn.markDeleted
  simp only
  generalize conn.pendList = pendList at found
  induction pendList generalizing index with
  | nil => simp at found
  | cons first rest induction =>
    cases index with
    | zero =>
      rw [getElem?_cons_zero, Option.some.injEq] at found
      subst found
      simp [List.modify, live]
    | succ index =>
      rw [getElem?_cons_succ] at found
      have remaining := induction found
      rw [modify_succ_cons]
      cases gone : first.deleted with
      | true => simpa [gone] using remaining
      | false =>
        simp only [filter_cons, gone, Bool.not_false, if_true, map_cons]
        exact (remaining.cons _).trans (List.Perm.swap _ _ _)

theorem Carries.handBack {node peer index : Nat} {rdp : Station} {mp : MsgBuf} (silent : Silent rdp)
    (found : (rdp.conntable peer).pendList[index]? = some mp) (live : mp.deleted = false) :
    Carries node rdp (markDeleted peer index
      (Rdp.notify (callbackAt depth) (.pktUndeliverable peer mp.data) rdp)) := by
  rcases @notify_silent depth rdp silent (.pktUndeliverable peer mp.data) with
    ⟨kept, conntable, trace⟩
  refine ⟨?_, kept⟩
  have told : (markDeleted peer index (Rdp.notify (callbackAt depth)
      (.pktUndeliverable peer mp.data) rdp)).trace =
        rdp.trace ++ [.callback (.pktUndeliverable peer mp.data)] := trace
  rw [Rdp.accounted, Rdp.accounted, told, filterMap_append]
  by_cases own : node = peer
  · subst own
    have marked : (markDeleted node index (Rdp.notify
        (callbackAt depth) (.pktUndeliverable node mp.data) rdp)).conntable
          node = (rdp.conntable node).markDeleted index := by
      rw [← conntable]
      exact modify_self _ _ _
    rw [marked]
    have handed : [Event.callback (.pktUndeliverable node mp.data)].filterMap
        (Event.undeliverable node) = [mp.data] := by
      simp [Event.undeliverable]
    rw [handed]
    have taken := live_markDeleted found live
    refine List.Perm.trans ?_ (taken.symm.append_right _)
    rw [cons_append, ← append_assoc]
    exact perm_append_comm
  · have other : (markDeleted peer index (Rdp.notify
        (callbackAt depth) (.pktUndeliverable peer mp.data) rdp)).conntable
          node = rdp.conntable node := by
      rw [← conntable]
      exact modify_other own _ _
    rw [other]
    have none : [Event.callback (.pktUndeliverable peer mp.data)].filterMap
        (Event.undeliverable node) = [] := by
      simp [Event.undeliverable, Ne.symm own]
    rw [none, append_nil]

/-! ## Closing and sending -/

theorem clearLoop_carries (node peer count index : Nat) {rdp : Station}
    (silent : Silent rdp) :
    Carries node rdp (clearLoop (callbackAt depth) peer count index rdp) := by
  induction count generalizing index rdp with
  | zero => exact Carries.refl silent
  | succ count induction =>
    rw [clearLoop]
    split
    · exact Carries.refl silent
    · next mp found =>
        split
        · exact induction _ silent
        · next live =>
            have handed := @Carries.handBack depth node peer index rdp mp
              silent found (by simpa using live)
            exact handed.trans (induction _ handed.silent)

/-- Closing a connection leaves the other ones alone. -/
theorem clearLoop_other {peer : Nat} (other : node ≠ peer) (count index : Nat)
    (silent : Silent rdp) :
    (clearLoop (callbackAt depth) peer count index rdp).conntable node = rdp.conntable node := by
  induction count generalizing index rdp with
  | zero => rfl
  | succ count induction =>
    rw [clearLoop]
    split
    · rfl
    · next mp found =>
        split
        · exact induction _ silent
        · rcases @notify_silent depth rdp silent
            (.pktUndeliverable peer mp.data) with ⟨kept, conntable, _⟩
          have marked : (markDeleted peer index (notify (callbackAt depth)
              (.pktUndeliverable peer mp.data) rdp)).conntable node = rdp.conntable node := by
            rw [← conntable]
            exact modify_other other _ _
          rw [← marked]
          exact induction _ kept

theorem closeConnection_carries (node peer : Nat) (callback : Bool)
    {rdp : Station} (silent : Silent rdp) :
    Carries node rdp (closeConnection (callbackAt depth) peer callback rdp) := by
  have logged := @Carries.log node rdp silent (.closing peer) rfl
  have cleared := logged.trans (@clearLoop_carries depth node peer maxWindowSize 0 _ logged.silent)
  have closed : Carries node rdp (finishClosing peer
      (clearLoop (callbackAt depth) peer maxWindowSize 0 (rdp.log (.closing peer)))) := by
    generalize clearLoop (callbackAt depth) peer maxWindowSize 0
      (rdp.log (.closing peer)) = queue at cleared
    have modified := @Carries.modify node peer queue cleared.silent
      (Conn.closeWith (queue.randoms queue.draws)) (fun _ => rfl)
    exact (cleared.trans modified).trans (Carries.same modified.silent rfl rfl rfl)
  rw [closeConnection_eq]
  cases callback with
  | false => exact closed
  | true => exact closed.trans (Carries.notify closed.silent rfl)

theorem closeConnection_conn {node peer : Nat} {rdp : Station}
    (silent : Silent rdp) :
    (node ≠ peer →
        (closeConnection (callbackAt depth) peer true rdp).conntable node = rdp.conntable node) ∧
      ((closeConnection (callbackAt depth) peer true rdp).conntable peer).state = .closed := by
  have logged := @Carries.log node rdp silent (.closing peer) rfl
  have cleared := @clearLoop_carries depth node peer maxWindowSize 0 _ logged.silent
  have closed : Silent (finishClosing peer
      (clearLoop (callbackAt depth) peer maxWindowSize 0
        (rdp.log (.closing peer)))) := cleared.silent
  rcases @notify_silent depth _ closed (.lostConnection peer) with
    ⟨_, conntable, _⟩
  rw [closeConnection_eq]
  simp only [if_true, conntable]
  constructor
  · intro other
    exact (modify_other other _ _).trans (clearLoop_other other _ _ logged.silent)
  · rw [finishClosing, modify_self]
    rfl

theorem handleErr_carries (node : Nat) (eno : Errno) (queue : ErrQueue)
    {rdp : Station} (silent : Silent rdp) :
    Carries node rdp (handleErr (callbackAt depth) eno queue rdp).2 := by
  cases queue with
  | empty => exact Carries.refl silent
  | unusable leno => exact Carries.refl silent
  | node peer =>
    rw [handleErr]
    split
    · exact closeConnection_carries node peer true silent
    · exact Carries.refl silent

theorem sendLoop_carries (node peer : Nat) (packet : Packet)
    (errors : List SendError) (silent : Silent rdp) :
    Carries node rdp (sendLoop (callbackAt depth) peer packet errors rdp).2 := by
  induction errors generalizing rdp with
  | nil => exact Carries.log silent rfl
  | cons error rest induction =>
    rw [sendLoop]
    split
    · exact induction silent
    · split
      · have handled := @handleErr_carries depth node error.eno error.queue rdp silent
        rcases result : handleErr (callbackAt depth) error.eno error.queue rdp with ⟨failure, after⟩
        rw [result] at handled
        cases failure with
        | some leno => exact handled
        | none =>
          simp only
          split
          · exact handled
          · exact handled.trans (induction handled.silent)
      · exact Carries.refl silent

theorem mysendto_carries (node peer : Nat) (packet : Packet) {rdp : Station}
    (silent : Silent rdp) :
    Carries node rdp (mysendto (callbackAt depth) peer packet rdp).2 := by
  have logged := @Carries.log node rdp silent (.submit peer packet) rfl
  rw [mysendto]
  split
  · exact logged
  · have next : Carries node rdp { rdp.log (.submit peer packet) with sends := rdp.sends.tail } :=
      logged.trans (Carries.same logged.silent rfl rfl rfl)
    exact next.trans (sendLoop_carries node peer packet _ next.silent)

attribute [local simp] SendError.Harmless

/-- A packet on an active connection gets through exactly if `MYsendto()` gets
over all failures. -/
theorem sendLoop_harmless {packet : Packet} (silent : Silent rdp)
    (active : (rdp.conntable node).state = .active) :
    (sendLoop (callbackAt depth) node packet errors rdp).1 = none ↔
      ∀ error ∈ errors, error.Harmless node := by
  induction errors generalizing rdp with
  | nil => simp [sendLoop]
  | cons error rest induction =>
    rw [sendLoop, forall_mem_cons]
    by_cases interrupted : error.eno = .intr
    · rw [if_pos interrupted, induction silent active]
      simp [interrupted]
    · rw [if_neg interrupted]
      by_cases unreachable : error.eno.unreachable = true
      · rw [if_pos unreachable]
        cases queue : error.queue with
        | empty =>
          have open_still : (rdp.conntable node).state ≠ .closed := by
            simp [active]
          simp only [handleErr, open_still, if_false]
          rw [induction silent active]
          simp [unreachable, queue]
        | unusable leno => simp [handleErr, interrupted, queue]
        | node peer =>
          have closed := @closeConnection_carries depth node peer true rdp silent
          rcases @closeConnection_conn depth node peer rdp silent with
            ⟨others, down⟩
          simp only [handleErr, unreachable, if_true]
          by_cases own : node = peer
          · subst own
            rw [if_pos down]
            simp [interrupted, queue]
          · have stays : ((closeConnection (callbackAt depth) peer true
                rdp).conntable node).state = .active := by
              rw [others own]
              exact active
            rw [if_neg (by simp [stays]), induction closed.silent stays]
            simp [unreachable, queue, Ne.symm own]
      · rw [if_neg unreachable]
        simp [interrupted, unreachable]

/-- What `Rsendto()` has put to a connection before it transmits. -/
structure Taken (node : Nat) (buf : List UInt8) (before after : Station) :
    Prop where
  accounted : (accounted node after).Perm (accounted node before ++ [buf])
  silent : Silent after
  sends : after.sends = before.sends
  addr : (after.conntable node).addr = (before.conntable node).addr
  active : (before.conntable node).state = .active → (after.conntable node).state = .active

theorem enqueue_taken (node id : Nat) (buf : List UInt8) (silent : Silent rdp) :
    Taken node buf rdp (enqueue node id buf rdp) := by
  have conn : (enqueue node id buf rdp).conntable node =
      (rdp.conntable node).queue ((rdp.conntable node).newMsg id buf) :=
    modify_self rdp node (fun conn => conn.queue ((rdp.conntable node).newMsg id buf))
  have trace : (enqueue node id buf rdp).trace = rdp.trace ++
      [.queued node ((rdp.conntable node).newMsg id buf).packet] := rfl
  constructor
  · rw [Rdp.accounted, Rdp.accounted, conn, trace,
      Conn.live_queue _ rfl, filterMap_append, map_append]
    have none : [Event.queued node ((rdp.conntable node).newMsg id buf).packet].filterMap
          (Event.undeliverable node) = [] := rfl
    rw [none, append_nil, append_assoc, append_assoc]
    exact perm_append_comm.append_left _
  · exact silent
  · rfl
  · rw [conn]
    simp only [Conn.queue, Conn.count]
    split
    · rfl
    · rfl
    · rfl
    · rfl
  · intro active
    rw [conn]
    simp [Conn.queue, Conn.count, active]

theorem rsendto_taken {cb : RdpCallback} {node : Nat} {buf : List UInt8}
    {rdp : Station} (silent : Silent rdp) (taken : ¬ Refused node buf rdp) :
    ∃ msg queued, Taken node buf rdp queued ∧ rsendto cb node buf rdp =
        (sendResult buf.length (transmit cb node msg (rdp.conntable node).state queued).1,
          (transmit cb node msg (rdp.conntable node).state queued).2) := by
  have early : ¬ RefusedEarly node buf rdp := fun refused => taken (.inl refused)
  rcases passClosed_fields node rdp with
    ⟨free, _, _, sends, requests, trace, state, addr, pendList⟩
  rw [rsendto_passed cb early, sendMessage, getMsg]
  rcases buffers : rdp.msgFreeList with _ | ⟨id, rest⟩
  · exact absurd (.inr (.inl buffers)) taken
  · rcases getFrame_eq buf.length (passClosed node rdp) with
      ⟨ok, small, mallocs, framed⟩
    have same := framed (passClosed node rdp).msgFreeList
      (passClosed node rdp).ticks (passClosed node rdp).conntable
    have frame : ok = true := by
      by_contra failed
      apply taken
      right; right
      rw [← getFrame_passClosed buf.length node rdp,
        show getFrame buf.length (passClosed node rdp) = _ from same]
      simpa using failed
    subst frame
    have allocated := framed rest (passClosed node rdp).ticks (passClosed node rdp).conntable
    rw [free, buffers]
    simp only [allocated]
    generalize is_started : ({ passClosed node rdp with
      msgFreeList := rest, sMsgFree := small, mallocs := mallocs } : Station) = started
    have conntable : started.conntable = (passClosed node rdp).conntable := by
      rw [← is_started]
    rcases restartTimer_eq node started with ⟨tmout, retrans, restarted⟩
    rw [restarted]
    generalize is_ready : started.tick.modify node (Conn.timer tmout retrans) = ready
    have conn : ready.conntable node = (started.conntable node).timer tmout retrans := by
      rw [← is_ready]
      exact modify_self _ _ _
    have sameState : (ready.conntable node).state = (rdp.conntable node).state := by
      rw [conn, conntable]
      exact state
    have readySilent : Silent ready := by
      rw [← is_ready, ← is_started]
      intro request member
      exact silent request (requests ▸ member)
    have queued := enqueue_taken node id buf readySilent
    refine ⟨(ready.conntable node).newMsg id buf, enqueue node id buf ready, ?_, ?_⟩
    · constructor
      · refine queued.accounted.trans (List.Perm.of_eq ?_)
        rw [accounted, accounted, conn, conntable, ← is_ready, ← is_started]
        show (Conn.live _).map _ ++ (passClosed node rdp).trace.filterMap _ ++ _ = _
        rw [trace, Conn.live, Conn.timer]
        simp only [pendList]
        rfl
      · exact queued.silent
      · rw [queued.sends, ← is_ready, ← is_started]
        exact sends
      · rw [queued.addr, conn, conntable]
        exact addr
      · intro active
        exact queued.active (sameState.trans active)
    · rw [sameState]

theorem transmit_waiting (node : Nat) (msg : MsgBuf) {state : ConnState}
    (waiting : state ≠ .active) {rdp : Station} (silent : Silent rdp) :
    (transmit (callbackAt depth) node msg state rdp).1 = none ∧
      Carries node rdp (transmit (callbackAt depth) node msg state rdp).2 := by
  cases state with
  | closed => exact ⟨rfl, mysendto_carries node node _ silent⟩
  | synSent => exact ⟨rfl, mysendto_carries node node _ silent⟩
  | synRecvd =>
    have sent := @mysendto_carries depth node node
      ((rdp.conntable node).control .synack (rdp.conntable node).frameToSend) rdp silent
    have cleared := @Carries.modify node node _ sent.silent
      (fun conn => { conn with ackPending := 0 }) (fun _ => rfl)
    exact ⟨rfl, sent.trans cleared⟩
  | active => exact absurd rfl waiting

theorem mysendto_harmless {node : Nat} {packet : Packet} {rdp : Station}
    (silent : Silent rdp) (active : (rdp.conntable node).state = .active)
    (configured : (rdp.conntable node).addr ≠ inaddrAny) :
    (mysendto (callbackAt depth) node packet rdp).1 = none ↔
      ∀ error ∈ rdp.sends.head?.getD [], error.Harmless node := by
  rw [mysendto, if_neg (show ¬ ((rdp.log (.submit node packet)).conntable
    node).addr = inaddrAny from configured)]
  exact sendLoop_harmless _ silent active

end Silent

/-- Two nodes with an established connection; `sendto()` fails as given. -/
def connected (errors : List SendError) : Station :=
  { (rdpInit 2 (fun _ => 1) 0 (fun _ => 0) (fun _ => 0)).modify 1
      (fun conn => { conn with state := .active }) with
    sends := [errors] }

theorem connected_silent : Silent (connected errors) := by
  intro requests member
  exact absurd member not_mem_nil

end Psmgmt.Rdp
