import Psmgmt.Rdp.Protocol

/-!
# Rules for the sending functions

Everything a callback can set off consists of a few updates of the station.
`SendRules` lists them; a property that survives each of them survives
`closeConnection()`, `MYsendto()` and `Rsendto()`, including all callbacks.
Properties may depend on what the calling functions are in the middle of.
-/

namespace Psmgmt.Rdp

open Option

open List hiding getElem?_eq_some_iff

/-- What functions of the station are in the middle of: closing connections,
innermost first, and activating a connection with pending messages.  The flag
tells whether that connection may be closed meanwhile. -/
structure Phase where
  clearing : List Nat
  activating : Option (Nat × Bool)

def Phase.idle : Phase := { clearing := [], activating := none }

def Phase.clear (phase : Phase) (node : Nat) : Phase :=
  { phase with clearing := node :: phase.clearing }

/-- The window accounts for all pending messages. -/
def Bounded (rdp : Station) : Prop :=
  ∀ node, 0 ≤ (rdp.conntable node).window ∧
    (rdp.conntable node).window + (rdp.conntable node).pendList.length = maxWindowSize

variable {rdp : Station} {node index : Nat} {phase : Phase} {buf : List UInt8}

theorem Bounded.length_le (bounded : Bounded rdp) (node : Nat) :
    (rdp.conntable node).pendList.length ≤ maxWindowSize := by
  rcases bounded node with ⟨nonneg, total⟩
  omega

/-- The message an event tells to be queued to `node`. -/
def Event.queuedTo (node : Nat) : Event → Option Packet
  | .queued dest message => if dest = node then some message else none
  | _ => none

/-- What a connection keeps while the station sends and runs callbacks:
messages stay where they are and deleted ones stay deleted, an inactive
connection does not become active, and each new frame takes a slot of the
window. -/
structure Conn.Extends (before after : Conn) : Prop where
  kept : ∀ (index : Nat) (msg : MsgBuf), before.pendList[index]? = some msg →
    ∃ msg' : MsgBuf, after.pendList[index]? = some msg' ∧ (msg.deleted = true → msg'.deleted = true)
  inactive : before.state ≠ .active → after.state ≠ .active
  connIDIn : after.connIDIn = before.connIDIn
  frameExpected : after.frameExpected = before.frameExpected
  frames : ∃ count : Nat, after.frameToSend = before.frameToSend + BitVec.ofNat 32 count ∧
      count + after.window ≤ before.window

variable (conn : Conn)

theorem Conn.Extends.refl : conn.Extends conn := by
  constructor
  · intro index msg found
    exact ⟨msg, found, id⟩
  · exact id
  · rfl
  · rfl
  · exact ⟨0, by simp, by simp⟩

theorem Conn.Extends.trans {before middle after : Conn}
    (first : before.Extends middle) (second : middle.Extends after) :
    before.Extends after := by
  constructor
  · intro index msg found
    rcases first.kept index msg found with ⟨msg', found', stays⟩
    rcases second.kept index msg' found' with ⟨msg'', found'', stays'⟩
    exact ⟨msg'', found'', fun deleted => stays' (stays deleted)⟩
  · exact fun inactive => second.inactive (first.inactive inactive)
  · rw [second.connIDIn, first.connIDIn]
  · rw [second.frameExpected, first.frameExpected]
  · rcases first.frames with ⟨count, frames, slots⟩
    rcases second.frames with ⟨count', frames', slots'⟩
    refine ⟨count + count', ?_, ?_⟩
    · rw [frames', frames, BitVec.ofNat_add, BitVec.add_assoc]
    · push_cast
      omega

structure Extends (before after : Station) : Prop where
  conns : ∀ node, (before.conntable node).Extends (after.conntable node)
  trace : before.trace <+: after.trace
  slots : ∀ node, (after.trace.filterMap (Event.queuedTo node)).length +
    (after.conntable node).window ≤
      (before.trace.filterMap (Event.queuedTo node)).length + (before.conntable node).window

variable {before after : Station}

theorem Extends.of_eq (conntable : after.conntable = before.conntable)
    (trace : after.trace = before.trace) : Extends before after := by
  constructor
  · intro node
    rw [conntable]
    exact Conn.Extends.refl _
  · exact trace ▸ prefix_refl _
  · intro node
    rw [conntable, trace]

theorem Extends.refl (rdp : Station) : Extends rdp rdp := Extends.of_eq rfl rfl

theorem Extends.log (rdp : Station) {event : Event}
    (other : ∀ node, event.queuedTo node = none) :
    Extends rdp (rdp.log event) := by
  constructor
  · exact fun node => Conn.Extends.refl (rdp.conntable node)
  · exact prefix_append _ _
  · intro node
    simp [Station.log, filterMap_append, other node]

theorem Extends.trans {middle : Station} (first : Extends before middle)
    (second : Extends middle after) :
    Extends before after :=
  ⟨fun node => (first.conns node).trans (second.conns node),
    first.trace.trans second.trace,
    fun node => (second.slots node).trans (first.slots node)⟩

theorem Extends.modify {rdp : Station} {node : Nat} {change : Conn → Conn}
    (extends_conn : (rdp.conntable node).Extends (change (rdp.conntable node)))
    (window : (change (rdp.conntable node)).window ≤ (rdp.conntable node).window) :
    Extends rdp (rdp.modify node change) := by
  constructor
  · intro other
    by_cases same : other = node
    · rw [same, Station.modify_self]
      exact extends_conn
    · rw [Station.modify_other same]
      exact Conn.Extends.refl _
  · exact prefix_refl _
  · intro other
    by_cases same : other = node
    · rw [same, Station.modify_self]
      simpa [Station.modify] using window
    · rw [Station.modify_other same]
      exact le_refl _

/-- The packets a connection may send in its present state. -/
inductive Sendable (conn : Conn) : Packet → Prop where
  | syn (syn : conn.state = .synSent) (data : List UInt8) : Sendable conn
        { header :=
            { type := .syn, len := 4, seqno := conn.frameToSend, ackno := 0
              connid := conn.connIDOut }
          data := data }
  | synack (syn : conn.state = .synRecvd) : Sendable conn (conn.control .synack conn.frameToSend)
  | control {type : PktType} (plain : type = .ack ∨ type = .nack) :
      Sendable conn (conn.control type 0)
  | data {msg : MsgBuf} (pending : msg ∈ conn.pendList) (live : msg.deleted = false)
      (ackno : msg.header.ackno = conn.frameExpected - 1) :
      Sendable conn msg.packet

/-- The connection left by `closeConnection()`. -/
def Conn.closeWith (connid : SeqNo) (conn : Conn) : Conn :=
  Conn.close connid { conn with ackExpected := conn.frameToSend }

/-- The last update of `closeConnection()` before the callback. -/
def finishClosing (node : Nat) (rdp : Station) : Station :=
  { rdp.modify node (Conn.closeWith (rdp.randoms rdp.draws)) with
    draws := rdp.draws + 1 }

/-- A callback that respects the window and only extends connections. -/
def Extending (cb : RdpCallback) : Prop :=
  ∀ rdp info, Bounded rdp → Bounded (notify cb info rdp) ∧ Extends rdp (notify cb info rdp)

def Conn.timer (tmout retrans : Nat) (conn : Conn) : Conn :=
  { conn with tmout := tmout, retrans := retrans }

/-- A failure that makes `MYsendto()` close the connection to `node`. -/
def SendError.Closes (error : SendError) (node : Nat) : Prop :=
  error.eno.unreachable = true ∧ error.queue = .node node

/-- The messages before `index` are deleted. -/
def DeletedBefore (node index : Nat) (rdp : Station) : Prop :=
  ∀ position < index, ∀ msg,
    (rdp.conntable node).pendList[position]? = some msg → msg.deleted = true

/-- What a property has to survive in order to survive sending. -/
structure SendRules (cb : RdpCallback)
    (Closable Queueable : Phase → Nat → Prop)
    (property : Phase → Station → Prop) : Prop where
  bounded : ∀ phase rdp, property phase rdp → Bounded rdp
  extending : Extending cb
  notify : ∀ phase rdp info, property phase rdp → property phase (notify cb info rdp)
  tick : ∀ phase rdp, property phase rdp → property phase rdp.tick
  nextSend : ∀ phase rdp, property phase rdp → property phase { rdp with sends := rdp.sends.tail }
  errors : ∀ phase rdp errors, property phase rdp →
    rdp.sends.head? = some errors → ∀ error ∈ errors, ∀ node,
      error.Closes node → Closable phase node
  submit : ∀ phase rdp node packet, property phase rdp →
    Sendable (rdp.conntable node) packet → property phase (rdp.log (.submit node packet))
  sent : ∀ phase submitted rdp node packet, property phase submitted →
    submitted.trace.getLast? = some (.submit node packet) →
    Extends submitted rdp → property phase rdp → property phase (rdp.log (.sendto node packet))
  startClosing : ∀ phase rdp node, property phase rdp →
    Closable phase node → property (phase.clear node) (rdp.log (.closing node))
  markDeleted : ∀ phase rdp node index, property phase rdp →
    node ∈ phase.clearing → DeletedBefore node index rdp →
      property phase (markDeleted node index rdp)
  finishClosing : ∀ phase rdp node, property (phase.clear node) rdp →
    (∀ msg ∈ (rdp.conntable node).pendList, msg.deleted = true) →
      property phase (finishClosing node rdp)
  clearAckPending : ∀ phase rdp node, property phase rdp → property phase (clearAckPending node rdp)
  closedTimer : ∀ phase rdp node time, property phase rdp →
    property phase (rdp.modify node (fun conn => { conn with closed := time }))
  timer : ∀ phase rdp node tmout retrans, property phase rdp →
    property phase (rdp.modify node (Conn.timer tmout retrans))
  enqueue : ∀ phase rdp node buf id rest small mallocs, property phase rdp →
    Queueable phase node → node < rdp.nrOfNodes →
    (rdp.conntable node).window ≠ 0 → buf.length ≤ maxDataSize →
    rdp.msgFreeList = id :: rest →
    getFrame buf.length rdp =
      (true, { rdp with sMsgFree := small, mallocs := mallocs }) →
      property phase (enqueue node id buf
        { rdp with
          msgFreeList := rest, sMsgFree := small, mallocs := mallocs })
  leak : ∀ phase rdp length id rest small mallocs, property phase rdp →
    rdp.msgFreeList = id :: rest →
    getFrame length rdp =
      (false, { rdp with sMsgFree := small, mallocs := mallocs }) →
      property phase
        { rdp with
          msgFreeList := rest, sMsgFree := small, mallocs := mallocs }

section Loops

variable {cb : RdpCallback}

theorem Conn.extends_markDeleted (index : Nat) : conn.Extends (conn.markDeleted index) := by
  constructor
  · intro position msg found
    simp only [Conn.markDeleted, getElem?_modify, found]
    refine ⟨_, rfl, ?_⟩
    intro deleted
    split
    · rfl
    · exact deleted
  · exact id
  · rfl
  · rfl
  · exact ⟨0, by simp [Conn.markDeleted], by simp [Conn.markDeleted]⟩

theorem extends_markDeleted (rdp : Station) (node index : Nat) :
    Extends rdp (markDeleted node index rdp) :=
  (@Extends.modify rdp node (Conn.markDeleted index)
    (Conn.extends_markDeleted _ index) (le_refl _)).trans (Extends.of_eq rfl rfl)

theorem bounded_modify {rdp : Station} (bounded : Bounded rdp) {node : Nat}
    {change : Conn → Conn}
    (window : (change (rdp.conntable node)).window = (rdp.conntable node).window)
    (length : (change (rdp.conntable node)).pendList.length =
      (rdp.conntable node).pendList.length) :
    Bounded (rdp.modify node change) := by
  intro other
  by_cases same : other = node
  · rw [same, Station.modify_self, window, length]
    exact bounded node
  · rw [Station.modify_other same]
    exact bounded other

theorem bounded_markDeleted (bounded : Bounded rdp) (node index : Nat) :
    Bounded (markDeleted node index rdp) :=
  @bounded_modify rdp bounded node (Conn.markDeleted index) rfl (length_modify _ _ _)

theorem DeletedBefore.of_extends (deleted : DeletedBefore node index before)
    (extended : Extends before after) (inside : index ≤ (before.conntable node).pendList.length) :
    DeletedBefore node index after := by
  intro position earlier msg found
  have present : position < (before.conntable node).pendList.length := by omega
  rcases (extended.conns node).kept position _
    (List.getElem?_eq_getElem present) with ⟨msg', found', stays⟩
  rw [found] at found'
  cases found'
  exact stays (deleted position earlier _ (List.getElem?_eq_getElem present))

theorem DeletedBefore.succ (deleted : DeletedBefore node index rdp)
    {mp : MsgBuf} (found : (rdp.conntable node).pendList[index]? = some mp)
    (already : mp.deleted = true) : DeletedBefore node (index + 1) rdp := by
  intro position earlier other otherFound
  by_cases last : position = index
  · rw [last, found] at otherFound
    cases otherFound
    exact already
  · exact deleted position (by omega) other otherFound

theorem DeletedBefore.mark (deleted : DeletedBefore node index rdp)
    (inside : index < (rdp.conntable node).pendList.length) :
    DeletedBefore node (index + 1) (markDeleted node index rdp) := by
  have stays := deleted.of_extends (extends_markDeleted rdp node index) (Nat.le_of_lt inside)
  intro position earlier other otherFound
  by_cases last : position = index
  · subst last
    have marked : (((rdp.conntable node).markDeleted position).pendList)[
        position]? = some other := by
      rw [← Station.modify_self rdp node (Conn.markDeleted position)]
      exact otherFound
    simp only [Conn.markDeleted, getElem?_modify,
      List.getElem?_eq_getElem inside, Option.map_eq_map, map_some,
      if_true, Option.some.injEq] at marked
    rw [← marked]
  · exact stays position (by omega) other otherFound

/-- What the callback for an undeliverable message leaves before it is
marked. -/
theorem DeletedBefore.notify (extending : Extending cb) (bounded : Bounded rdp)
    (deleted : DeletedBefore node index rdp) {mp : MsgBuf}
    (found : (rdp.conntable node).pendList[index]? = some mp) (info : Callback) :
    DeletedBefore node index (notify cb info rdp) ∧
      index < ((notify cb info rdp).conntable node).pendList.length := by
  rcases extending rdp info bounded with ⟨_, notified⟩
  rcases (notified.conns node).kept index mp found with ⟨_, there, _⟩
  have present := (List.getElem?_eq_some_iff.mp found).1
  exact ⟨deleted.of_extends notified (by omega), (List.getElem?_eq_some_iff.mp there).1⟩

theorem length_markDeleted (node index : Nat) (rdp : Station) :
    ((markDeleted node index rdp).conntable node).pendList.length =
      (rdp.conntable node).pendList.length := by
  have conn := Station.modify_self rdp node (Conn.markDeleted index)
  have length := congrArg (fun conn => conn.pendList.length) conn
  simp only [Conn.markDeleted, length_modify] at length
  exact length

/-- `clearMsgQ()` reaches the end of the list whatever callbacks append. -/
theorem clearLoop_deleted (extending : Extending cb) (node count : Nat) :
    ∀ index rdp, Bounded rdp → maxWindowSize ≤ index + count →
      index ≤ (rdp.conntable node).pendList.length →
      DeletedBefore node index rdp →
        ∀ msg ∈ ((clearLoop cb node count index rdp).conntable node).pendList,
          msg.deleted = true := by
  induction count with
  | zero =>
    intro index rdp bounded covered inside deleted msg member
    rw [clearLoop] at member
    have length := bounded.length_le node
    rcases getElem?_of_mem member with ⟨position, found⟩
    have present := (List.getElem?_eq_some_iff.mp found).1
    exact deleted position (by omega) msg found
  | succ count induction =>
    intro index rdp bounded covered inside deleted msg member
    rw [clearLoop] at member
    rcases found : (rdp.conntable node).pendList[index]? with _ | mp
    · simp only [found] at member
      rcases getElem?_of_mem member with ⟨position, present⟩
      have before := (List.getElem?_eq_some_iff.mp present).1
      have after := List.getElem?_eq_none_iff.mp found
      exact deleted position (by omega) msg present
    · simp only [found] at member
      have present := (List.getElem?_eq_some_iff.mp found).1
      by_cases already : mp.deleted = true
      · rw [if_pos already] at member
        exact induction (index + 1) rdp bounded (by omega) (by omega)
          (deleted.succ found already) msg member
      · rw [if_neg already] at member
        rcases deleted.notify extending bounded found
          (.pktUndeliverable node mp.data) with ⟨stays, reached⟩
        refine induction (index + 1) _ (bounded_markDeleted
          (extending rdp (.pktUndeliverable node mp.data) bounded).1 node
            index) (by omega) ?_ (stays.mark reached) msg member
        rw [length_markDeleted]
        omega

theorem clearLoop_extends (extending : Extending cb) (node count : Nat) : ∀ index rdp, Bounded rdp →
      Bounded (clearLoop cb node count index rdp) ∧
        Extends rdp (clearLoop cb node count index rdp) := by
  induction count with
  | zero =>
    intro index rdp bounded
    exact ⟨bounded, Extends.refl rdp⟩
  | succ count induction =>
    intro index rdp bounded
    rw [clearLoop]
    split
    · exact ⟨bounded, Extends.refl rdp⟩
    · next mp _ =>
        split
        · exact induction _ _ bounded
        · rcases extending rdp (.pktUndeliverable node mp.data) bounded with
            ⟨notifiedBounded, notified⟩
          rcases induction (index + 1) _
            (bounded_markDeleted notifiedBounded node index) with
            ⟨loopBounded, extended⟩
          exact ⟨loopBounded, (notified.trans (extends_markDeleted _ node index)).trans extended⟩

theorem closeConnection_eq (node : Nat) (callback : Bool) (rdp : Station) :
    closeConnection cb node callback rdp =
      let closed := finishClosing node (clearLoop cb node maxWindowSize 0 (rdp.log (.closing node)))
      if callback then notify cb (.lostConnection node) closed
      else closed := by
  simp only [closeConnection, clearMsgQ, finishClosing, Station.modify_modify]
  rfl

theorem Conn.extends_closeWith (connid : SeqNo) : conn.Extends (conn.closeWith connid) := by
  constructor
  · intro index msg found
    exact ⟨msg, found, id⟩
  · intro _ active
    cases active
  · rfl
  · rfl
  · exact ⟨0, by simp [Conn.closeWith, Conn.close], by simp [Conn.closeWith, Conn.close]⟩

theorem extends_finishClosing (node : Nat) (rdp : Station) : Extends rdp (finishClosing node rdp) :=
  (@Extends.modify rdp node (Conn.closeWith (rdp.randoms rdp.draws))
    (Conn.extends_closeWith _ _) (le_refl _)).trans (Extends.of_eq rfl rfl)

theorem bounded_finishClosing (bounded : Bounded rdp) (node : Nat) :
    Bounded (finishClosing node rdp) :=
  @bounded_modify rdp bounded node (Conn.closeWith (rdp.randoms rdp.draws))
    rfl rfl

/-- Closing a connection leaves it inactive, also if a callback opens it
again. -/
theorem closeConnection_extends (extending : Extending cb) (node : Nat)
    (callback : Bool) (bounded : Bounded rdp) :
    Bounded (closeConnection cb node callback rdp) ∧
      Extends (rdp.log (.closing node)) (closeConnection cb node callback rdp) ∧
      ((closeConnection cb node callback rdp).conntable node).state ≠ .active := by
  rcases clearLoop_extends extending node maxWindowSize 0
    (rdp.log (.closing node)) bounded with ⟨clearedBounded, cleared⟩
  have finishedBounded := bounded_finishClosing clearedBounded node
  have finished := cleared.trans (extends_finishClosing node _)
  have inactive : ((finishClosing node (clearLoop cb node maxWindowSize 0
      (rdp.log (.closing node)))).conntable node).state ≠ .active := by
    rw [finishClosing, Station.modify_self]
    exact ConnState.noConfusion
  rw [closeConnection_eq]
  cases callback with
  | false => exact ⟨finishedBounded, finished, inactive⟩
  | true =>
    rcases extending _ (.lostConnection node) finishedBounded with
      ⟨notifiedBounded, notified⟩
    exact ⟨notifiedBounded, finished.trans notified, (notified.conns node).inactive inactive⟩

theorem handleErr_extends (extending : Extending cb) (eno : Errno)
    (queue : ErrQueue) (bounded : Bounded rdp) :
    Extends rdp (handleErr cb eno queue rdp).2 := by
  cases queue with
  | empty => exact Extends.refl rdp
  | unusable leno => exact Extends.refl rdp
  | node node =>
    rw [handleErr]
    split
    · exact (Extends.log rdp (fun _ => rfl)).trans
        (closeConnection_extends extending node true bounded).2.1
    · exact Extends.refl rdp

/-- `getFrame()` uses nothing but the small frames and the heap. -/
theorem getFrame_eq (length : Nat) (rdp : Station) : ∃ ok small mallocs, ∀ rest ticks conntable,
      getFrame length
        { rdp with
          msgFreeList := rest, ticks := ticks, conntable := conntable } =
      (ok, { rdp with
        msgFreeList := rest, ticks := ticks, conntable := conntable
        sMsgFree := small, mallocs := mallocs }) := by
  by_cases small : length ≤ smallDataSize
  · by_cases empty : rdp.sMsgFree = 0
    · refine ⟨false, rdp.sMsgFree, rdp.mallocs, ?_⟩
      intro rest ticks conntable
      simp only [getFrame, if_pos small, if_pos empty]
    · refine ⟨true, rdp.sMsgFree - 1, rdp.mallocs, ?_⟩
      intro rest ticks conntable
      simp only [getFrame, if_pos small, if_neg empty]
  · refine ⟨rdp.mallocs.head?.getD true, rdp.sMsgFree, rdp.mallocs.tail, ?_⟩
    intro rest ticks conntable
    simp only [getFrame, if_neg small]

theorem restartTimer_eq (node : Nat) (rdp : Station) :
    ∃ tmout retrans, restartTimer node rdp = rdp.tick.modify node (Conn.timer tmout retrans) := by
  rw [restartTimer]
  split
  · exact ⟨_, _, rfl⟩
  · refine ⟨(rdp.conntable node).tmout, (rdp.conntable node).retrans, ?_⟩
    simp [Station.modify, Conn.timer, Station.tick]

end Loops

namespace SendRules

variable {cb : RdpCallback} {Closable Queueable : Phase → Nat → Prop}
  {property : Phase → Station → Prop}
  (rules : SendRules cb Closable Queueable property)

include rules

theorem clearLoop (clearing : node ∈ phase.clearing) (count : Nat) :
    ∀ index rdp, property phase rdp → DeletedBefore node index rdp →
      property phase (clearLoop cb node count index rdp) := by
  induction count with
  | zero =>
    intro index rdp holds _
    exact holds
  | succ count induction =>
    intro index rdp holds deleted
    rw [Rdp.clearLoop]
    split
    · exact holds
    · next mp found =>
        split
        · next already => exact induction _ _ holds (deleted.succ found already)
        · rcases deleted.notify rules.extending (rules.bounded _ _ holds)
            found (.pktUndeliverable node mp.data) with ⟨stays, reached⟩
          exact induction _ _ (rules.markDeleted _ _ _ _
            (rules.notify _ _ _ holds) clearing stays) (stays.mark reached)

theorem closeConnection (node : Nat) (callback : Bool)
    (holds : property phase rdp) (closable : Closable phase node) :
    property phase (closeConnection cb node callback rdp) := by
  have started := rules.startClosing phase rdp node holds closable
  have cleared := rules.clearLoop (mem_cons_self : node ∈ (phase.clear node).clearing) maxWindowSize
    0 _ started (fun position earlier => absurd earlier (Nat.not_lt_zero _))
  have deleted := clearLoop_deleted rules.extending node maxWindowSize 0 _
    (rules.bounded _ _ started) (by simp) (by simp)
    (fun position earlier => absurd earlier (Nat.not_lt_zero _))
  have finished := rules.finishClosing phase _ node cleared deleted
  rw [closeConnection_eq]
  cases callback with
  | false => exact finished
  | true => exact rules.notify _ _ _ finished

variable {phase : Phase}

theorem handleErr {rdp : Station} {eno : Errno} {queue : ErrQueue} (holds : property phase rdp)
    (closable : ∀ node, eno.unreachable = true → queue = .node node → Closable phase node) :
    property phase (handleErr cb eno queue rdp).2 := by
  cases queue with
  | empty => exact holds
  | unusable leno => exact holds
  | node node =>
    rw [Rdp.handleErr]
    split
    · next unreachable =>
        exact rules.closeConnection node true holds (closable node unreachable rfl)
    · exact holds

theorem sendLoop {packet : Packet} {submitted : Station} (valid : property phase submitted)
    (last : submitted.trace.getLast? = some (.submit node packet)) (errors : List SendError)
    (closable : ∀ error ∈ errors, ∀ node, error.Closes node → Closable phase node) :
    ∀ rdp, property phase rdp → Extends submitted rdp →
      property phase (sendLoop cb node packet errors rdp).2 := by
  induction errors with
  | nil =>
    intro rdp holds extended
    exact rules.sent _ _ _ _ _ valid last extended holds
  | cons error rest induction =>
    intro rdp holds extended
    have remaining := induction (fun other member => closable other (by simp [member]))
    rw [Rdp.sendLoop]
    split
    · exact remaining _ holds extended
    · split
      · have handled := @handleErr cb _ _ _ rules phase rdp error.eno
          error.queue holds (fun node unreachable queue =>
            closable error (by simp) node ⟨unreachable, queue⟩)
        have further := handleErr_extends rules.extending error.eno
          error.queue (rules.bounded _ _ holds)
        rcases result : Rdp.handleErr cb error.eno error.queue rdp with ⟨failure, after⟩
        rw [result] at handled further
        cases failure with
        | some leno => exact handled
        | none =>
          simp only
          split
          · exact handled
          · exact remaining _ handled (extended.trans further)
      · exact holds

theorem mysendto {packet : Packet} (holds : property phase rdp)
    (sendable : Sendable (rdp.conntable node) packet) :
    property phase (mysendto cb node packet rdp).2 := by
  have submitted := rules.submit _ _ _ _ holds sendable
  rw [Rdp.mysendto]
  split
  · exact submitted
  · apply rules.sendLoop submitted (by simp [Station.log]) _ _ _
      (rules.nextSend _ _ submitted) (Extends.of_eq rfl rfl)
    intro error member
    cases scripted : rdp.sends.head? with
    | none => simp [scripted, Station.log] at member
    | some errors =>
      simp only [Station.log, scripted, getD_some] at member
      exact rules.errors phase rdp errors holds scripted error member

theorem sendSYN {dest : Nat} (holds : property phase rdp)
    (syn : (rdp.conntable dest).state = .synSent) :
    property phase (sendSYN cb dest rdp) :=
  rules.mysendto holds (.syn syn _)

theorem sendACK (node : Nat) (holds : property phase rdp) : property phase (sendACK cb node rdp) :=
  rules.clearAckPending _ _ _ (rules.mysendto holds (.control (.inl rfl)))

theorem sendNACK (node : Nat) (holds : property phase rdp) :
    property phase (sendNACK cb node rdp) :=
  rules.mysendto holds (.control (.inr rfl))

theorem sendSYNACK (holds : property phase rdp)
    (syn : (rdp.conntable node).state = .synRecvd) :
    property phase (sendSYNACK cb node rdp) :=
  rules.clearAckPending _ _ _ (rules.mysendto holds (.synack syn))

theorem answerData (hdr : Header) (node : Nat) (holds : property phase rdp) :
    property phase (answerData cb hdr node rdp) := by
  have acked : property phase
      (if rseqcmp hdr.seqno (rdp.conntable node).frameExpected < 0 then
        Rdp.sendACK cb node rdp
      else rdp) := by
    split
    · exact rules.sendACK node holds
    · exact holds
  have nacked : ∀ after, property phase after → property phase
      (if rseqcmp hdr.seqno (after.conntable node).frameExpected > 0 then
        Rdp.sendNACK cb node after
      else after) := by
    intro after survived
    split
    · exact rules.sendNACK node survived
    · exact survived
  rw [Rdp.answerData]
  split
  · exact nacked _ acked
  · exact holds

/-- The connection `Rsendto()` leaves is one it may transmit on. -/
theorem transmit {id : Nat}
    (holds : property phase (Rdp.enqueue node id buf rdp)) :
    property phase
      (Rdp.transmit cb node ((rdp.conntable node).newMsg id buf)
        (rdp.conntable node).state (Rdp.enqueue node id buf rdp)).2 := by
  have conn : (Rdp.enqueue node id buf rdp).conntable node =
      (rdp.conntable node).queue ((rdp.conntable node).newMsg id buf) :=
    Station.modify_self rdp node (fun conn => conn.queue ((rdp.conntable node).newMsg id buf))
  cases state : (rdp.conntable node).state with
  | closed =>
    apply rules.sendSYN holds
    simp [conn, Conn.queue, Conn.count, state]
  | synSent =>
    apply rules.sendSYN holds
    simp [conn, Conn.queue, Conn.count, state]
  | synRecvd =>
    apply rules.sendSYNACK holds
    simp [conn, Conn.queue, Conn.count, state]
  | active =>
    apply rules.mysendto holds
    apply Sendable.data
    · simp [conn, Conn.queue, Conn.count, state]
    · rfl
    · simp [conn, Conn.queue, Conn.count, state, Conn.newMsg]

theorem sendMessage (holds : property phase rdp)
    (queueable : Queueable phase node) (known : node < rdp.nrOfNodes)
    (window : (rdp.conntable node).window ≠ 0) (size : buf.length ≤ maxDataSize) :
    property phase (sendMessage cb node buf rdp).2 := by
  rw [Rdp.sendMessage, getMsg]
  cases free : rdp.msgFreeList with
  | nil => exact holds
  | cons id rest =>
    rcases getFrame_eq buf.length rdp with ⟨ok, small, mallocs, framed⟩
    cases ok with
    | false =>
      have failed := framed rest rdp.ticks rdp.conntable
      simp only [failed]
      exact rules.leak _ _ _ _ _ _ _ holds free (framed rdp.msgFreeList rdp.ticks rdp.conntable)
    | true =>
      have allocated := framed rest rdp.ticks rdp.conntable
      rcases restartTimer_eq node
        { rdp with
          msgFreeList := rest, sMsgFree := small, mallocs := mallocs } with
        ⟨tmout, retrans, restarted⟩
      have timed := rules.timer _ _ node tmout retrans (rules.tick _ _ holds)
      have queued := rules.enqueue _ _ node _ _ _ small mallocs timed queueable known
        (by rw [Station.modify_self]; exact window) size free (framed _ _ _)
      have sent := rules.transmit queued
      simp only [allocated, restarted]
      exact sent

theorem rsendto (holds : property phase rdp) (queueable : Queueable phase node) :
    property phase (rsendto cb node buf rdp).2 := by
  rw [Rdp.rsendto]
  split
  · exact holds
  · next known =>
      split
      · exact holds
      · split
        · exact holds
        · next window =>
            split
            · exact holds
            · next size =>
                split
                · have ticked := rules.tick _ _ holds
                  simp only
                  split
                  · exact ticked
                  · apply rules.sendMessage (rules.closedTimer _ _ node 0 ticked) queueable
                    · exact Nat.lt_of_not_le known
                    · rw [Station.modify_self]
                      exact window
                    · exact Nat.le_of_not_lt size
                · exact rules.sendMessage holds queueable
                    (Nat.lt_of_not_le known) window (Nat.le_of_not_lt size)

end SendRules

variable {start : Station}

section Callbacks

variable {cb : RdpCallback}

/-- What happens from `start` on respects the window and only extends
connections. -/
def Continues (start : Station) (_phase : Phase) (rdp : Station) : Prop :=
  Bounded rdp ∧ Extends start rdp

theorem Continues.of_eq (continues : Continues start phase before)
    (conntable : after.conntable = before.conntable)
    (trace : after.trace = before.trace) : Continues start phase after := by
  rcases continues with ⟨bounded, extended⟩
  constructor
  · intro node
    rw [conntable]
    exact bounded node
  · exact extended.trans (Extends.of_eq conntable trace)

theorem Continues.log {rdp : Station} (continues : Continues start phase rdp)
    {event : Event} (other : ∀ node, event.queuedTo node = none) :
    Continues start phase (rdp.log event) :=
  ⟨continues.1, continues.2.trans (Extends.log rdp other)⟩

/-- Changes to neither messages nor counters. -/
theorem Continues.modify {rdp : Station} (continues : Continues start phase rdp)
    (node : Nat) {change : Conn → Conn}
    (pendList : (change (rdp.conntable node)).pendList = (rdp.conntable node).pendList)
    (window : (change (rdp.conntable node)).window = (rdp.conntable node).window)
    (state : (change (rdp.conntable node)).state = (rdp.conntable node).state)
    (connIDIn : (change (rdp.conntable node)).connIDIn = (rdp.conntable node).connIDIn)
    (frameExpected : (change (rdp.conntable node)).frameExpected =
      (rdp.conntable node).frameExpected)
    (frameToSend : (change (rdp.conntable node)).frameToSend = (rdp.conntable node).frameToSend) :
    Continues start phase (rdp.modify node change) := by
  rcases continues with ⟨bounded, extended⟩
  constructor
  · exact bounded_modify bounded window (by rw [pendList])
  · apply extended.trans
    refine Extends.modify ?_ (le_of_eq window)
    constructor
    · intro index msg found
      rw [pendList]
      exact ⟨msg, found, id⟩
    · rw [state]
      exact id
    · exact connIDIn
    · exact frameExpected
    · refine ⟨0, by simp [frameToSend], ?_⟩
      simp [window]

theorem Conn.queue_window (msg : MsgBuf) : (conn.queue msg).window = conn.window - 1 := by
  simp only [Conn.queue, Conn.count]
  split <;> rfl

theorem Conn.queue_pendList (msg : MsgBuf) :
    (conn.queue msg).pendList = conn.pendList ++ [msg] := by
  simp only [Conn.queue, Conn.count]
  split <;> rfl

theorem Conn.extends_queue {conn : Conn} (msg : MsgBuf) : conn.Extends (conn.queue msg) := by
  constructor
  · intro index other found
    refine ⟨other, ?_, id⟩
    rw [Conn.queue_pendList]
    exact getElem?_append_left (List.getElem?_eq_some_iff.mp found).1 ▸ found
  · intro inactive
    simp only [Conn.queue, Conn.count]
    split
    · exact ConnState.noConfusion
    · next state =>
        rw [state]
        exact ConnState.noConfusion
    · next state =>
        rw [state]
        exact ConnState.noConfusion
    · next state => exact absurd state inactive
  · simp only [Conn.queue, Conn.count]
    split <;> rfl
  · simp only [Conn.queue, Conn.count]
    split <;> rfl
  · rw [Conn.queue_window]
    cases state : conn.state with
    | active => exact ⟨1, by simp [Conn.queue, Conn.count, state], by simp⟩
    | closed => exact ⟨0, by simp [Conn.queue, Conn.count, state], by simp⟩
    | synSent => exact ⟨0, by simp [Conn.queue, Conn.count, state], by simp⟩
    | synRecvd => exact ⟨0, by simp [Conn.queue, Conn.count, state], by simp⟩

theorem bounded_queue (bounded : Bounded rdp)
    (window : (rdp.conntable node).window ≠ 0) (msg : MsgBuf) :
    Bounded (rdp.modify node (fun conn => conn.queue msg)) := by
  intro other
  by_cases same : other = node
  · subst same
    rcases bounded other with ⟨nonneg, total⟩
    rw [Station.modify_self, Conn.queue_window, Conn.queue_pendList,
      length_append, length_singleton]
    push_cast
    omega
  · rw [Station.modify_other same]
    exact bounded other

theorem extends_enqueue (node id : Nat) (buf : List UInt8) {rest : List Nat}
    {small : Nat} {mallocs : List Bool} :
    Extends rdp (enqueue node id buf
      { rdp with
        msgFreeList := rest, sMsgFree := small, mallocs := mallocs }) := by
  constructor
  · intro other
    by_cases same : other = node
    · rw [same]
      have conn := Station.modify_self rdp node
        (fun conn => conn.queue ((rdp.conntable node).newMsg id buf))
      exact conn ▸ Conn.extends_queue _
    · have conn := Station.modify_other same rdp
        (fun conn => conn.queue ((rdp.conntable node).newMsg id buf))
      exact conn ▸ Conn.Extends.refl _
  · exact prefix_append _ _
  · intro other
    simp only [enqueue, Station.log, filterMap_append, length_append]
    by_cases same : other = node
    · subst same
      rw [Station.modify_self]
      simp [Event.queuedTo, Conn.queue_window]
    · rw [Station.modify_other same]
      simp [Event.queuedTo, Ne.symm same]

theorem sendRules_continues (extending : Extending cb) (start : Station) :
    SendRules cb (fun _ _ => True) (fun _ _ => True) (Continues start) where
  bounded := fun phase rdp continues => continues.1
  extending := extending
  notify := by
    intro phase rdp info continues
    rcases extending rdp info continues.1 with ⟨bounded, extended⟩
    exact ⟨bounded, continues.2.trans extended⟩
  tick := fun _ _ continues => continues.of_eq rfl rfl
  nextSend := fun _ _ continues => continues.of_eq rfl rfl
  errors := fun _ _ _ _ _ _ _ _ _ => trivial
  submit := fun _ _ _ _ continues _ => continues.log (fun _ => rfl)
  sent := fun _ _ _ _ _ _ _ _ continues => continues.log (fun _ => rfl)
  startClosing := fun _ _ _ continues _ => continues.log (fun _ => rfl)
  markDeleted := by
    intro phase rdp node index continues _ _
    exact ⟨bounded_markDeleted continues.1 node index,
      continues.2.trans (extends_markDeleted rdp node index)⟩
  finishClosing := by
    intro phase rdp node continues _
    exact ⟨bounded_finishClosing continues.1 node,
      continues.2.trans (extends_finishClosing node rdp)⟩
  clearAckPending := fun phase rdp node continues => continues.modify node rfl rfl rfl rfl rfl rfl
  closedTimer := fun phase rdp node time continues => continues.modify node rfl rfl rfl rfl rfl rfl
  timer := fun phase rdp node tmout retrans continues =>
    continues.modify node rfl rfl rfl rfl rfl rfl
  enqueue := by
    intro phase rdp node buf id rest small mallocs continues _ known window size free framed
    rcases continues with ⟨bounded, extended⟩
    have queued := bounded_queue bounded window ((rdp.conntable node).newMsg id buf)
    exact ⟨queued, extended.trans (extends_enqueue node id buf)⟩
  leak := fun _ _ _ _ _ _ _ continues _ _ => continues.of_eq rfl rfl

theorem SendRules.serve {Closable Queueable : Phase → Nat → Prop}
    {property : Phase → Station → Prop}
    (rules : SendRules cb Closable Queueable property) (requests : List Request) :
    ∀ rdp, property phase rdp → (∀ request ∈ requests, Queueable phase request.node) →
        property phase (serve cb requests rdp) := by
  induction requests with
  | nil =>
    intro rdp holds _
    exact holds
  | cons request rest induction =>
    intro rdp holds queueable
    rw [Rdp.serve]
    apply induction _ (rules.rsendto holds (queueable request (by simp)))
    intro other member
    exact queueable other (by simp [member])

theorem extending_quiet : Extending quiet := by
  intro rdp info bounded
  exact ⟨bounded, Extends.log rdp (fun _ => rfl)⟩

theorem extending_callbackAt (depth : Nat) : Extending (callbackAt depth) := by
  induction depth with
  | zero => exact extending_quiet
  | succ depth extending =>
    intro rdp info bounded
    have started : Continues rdp .idle
        { rdp.log (.callback info) with requests := rdp.requests.tail } :=
      ⟨bounded, (Extends.log rdp (fun _ => rfl)).trans (Extends.of_eq rfl rfl)⟩
    exact (sendRules_continues extending rdp).serve _ _ started (fun _ _ => trivial)

theorem SendRules.callbackAt {Closable Queueable : Phase → Nat → Prop}
    {property : Phase → Station → Prop}
    (rules : ∀ cb, Extending cb →
      (∀ phase rdp info, property phase rdp → property phase (Rdp.notify cb info rdp)) → SendRules
        cb Closable Queueable property)
    (called : ∀ phase rdp info, property phase rdp → property phase (rdp.log (.callback info)))
    (served : ∀ phase rdp, property phase rdp →
      property phase { rdp with requests := rdp.requests.tail })
    (requested : ∀ phase rdp requests, property phase rdp →
      rdp.requests.head? = some requests → ∀ request ∈ requests, Queueable phase request.node)
    (depth : Nat) :
    SendRules (callbackAt depth) Closable Queueable property := by
  induction depth with
  | zero => exact rules _ extending_quiet called
  | succ depth nested =>
    apply rules _ (extending_callbackAt (depth + 1))
    intro phase rdp info holds
    apply nested.serve _ _ (served _ _ (called _ _ _ holds))
    intro request member
    cases scripted : rdp.requests.head? with
    | none => simp [scripted, Station.log] at member
    | some requests =>
      simp only [Station.log, scripted, getD_some] at member
      exact requested _ _ _ holds scripted request member

end Callbacks

end Psmgmt.Rdp
