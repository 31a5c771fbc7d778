import Psmgmt.Rdp.Incarnations

/-!
# One endpoint across reconnects

What a station does with the connection to its peer keeps the invariants of the
sender of its own messages and of the receiver of the peer's messages.
-/

namespace Psmgmt.Rdp

open List Station

/-- One side of a connection when it takes a step, with the connection IDs it
has drawn and what it has accepted and sent before. -/
structure Endpoint where
  peer : Nat
  origin : Origin
  drawn : Nat → Prop
  entries : List Entry
  flights : List (Packet × Nat)

/-- A condition on the connection ID and the frame expected from the peer, and
on the messages returned in the present step. -/
abbrev Taking := SeqNo → SeqNo → List Packet → Prop

variable {rdp : Station} {node : Nat} {phase : Phase} {packet : Packet}

namespace Endpoint

/-- The number of messages accepted up to a point of the step. -/
def count (endpoint : Endpoint) (trace : List Event) : Nat :=
  endpoint.entries.length + (trace.filterMap (Event.queuedTo endpoint.peer)).length

/-- A packet handed out is valid at a state of the step. -/
def Valid (endpoint : Endpoint) (new : List Entry) (frames slack count : Nat)
    (rdp : Station) (packet : Packet) : Prop :=
  endpoint.origin.Valid (Drawn endpoint.peer rdp) (endpoint.entries ++ new) frames
    (frames + (rdp.conntable endpoint.peer).msgPending) slack count packet

/-- The messages `new` were accepted in the step. -/
structure Sends (endpoint : Endpoint) (new : List Entry)
    (current frames : Nat) (rdp : Station) : Prop where
  randoms : rdp.randoms = endpoint.origin.randoms
  draws : 3 * rdp.nrOfNodes ≤ rdp.draws
  drawn : ∀ draw, endpoint.drawn draw → Drawn endpoint.peer rdp draw
  queued : (rdp.trace.filterMap (Event.queuedTo endpoint.peer)).map
    Packet.withoutAck = new.map endpoint.origin.message
  sender : Sender endpoint.origin (Drawn endpoint.peer rdp)
    (endpoint.entries ++ new) (rdp.conntable endpoint.peer) current frames
  submitted : ∀ before packet, before ++ [.submit endpoint.peer packet] <+: rdp.trace →
      endpoint.Valid new frames maxWindowSize (endpoint.count before) rdp packet
  sent : ∀ flight ∈ endpoint.flights ++ flightsOf endpoint.peer endpoint.entries.length rdp.trace,
    endpoint.Valid new frames (2 * maxWindowSize) flight.2 rdp flight.1

def Keeps (endpoint : Endpoint) (taking : Taking) (phase : Phase) (rdp : Station) : Prop :=
  Waits endpoint.peer maxWindowSize phase rdp ∧
    (∃ new current frames, endpoint.Sends new current frames rdp) ∧
    taking (rdp.conntable endpoint.peer).connIDIn (rdp.conntable endpoint.peer).frameExpected
      (rdp.trace.filterMap (Event.receivedFrom endpoint.peer))

section Steps

variable {endpoint : Endpoint} {new : List Entry} {current frames : Nat}

theorem Sends.count (sends : endpoint.Sends new current frames rdp) :
    endpoint.count rdp.trace = (endpoint.entries ++ new).length := by
  have lengths := congrArg List.length sends.queued
  rw [length_map, length_map] at lengths
  rw [Endpoint.count, lengths, length_append]

theorem Sends.congr {before after : Station}
    (sends : endpoint.Sends new current frames before)
    (randoms : after.randoms = before.randoms)
    (nrOfNodes : after.nrOfNodes = before.nrOfNodes)
    (draws : before.draws ≤ after.draws)
    (trace : after.trace = before.trace)
    (connIDOut : (after.conntable endpoint.peer).connIDOut =
      (before.conntable endpoint.peer).connIDOut)
    (frameToSend : (after.conntable endpoint.peer).frameToSend =
      (before.conntable endpoint.peer).frameToSend)
    (msgPending : (after.conntable endpoint.peer).msgPending =
      (before.conntable endpoint.peer).msgPending)
    (pending : endpoint.origin.Pending (endpoint.entries ++ new)
      (after.conntable endpoint.peer).pendList) :
    endpoint.Sends new current frames after := by
  have later : ∀ draw, Drawn endpoint.peer before draw → Drawn endpoint.peer after draw :=
    fun _ => Drawn.later nrOfNodes draws
  constructor
  · exact randoms.trans sends.randoms
  · rw [nrOfNodes]
    exact sends.draws.trans draws
  · exact fun draw known => later draw (sends.drawn draw known)
  · rw [trace]
    exact sends.queued
  · exact sends.sender.congr later connIDOut frameToSend msgPending pending
  · intro earlier packet submitted
    rw [trace] at submitted
    rw [Valid, msgPending]
    exact (sends.submitted earlier packet submitted).congr later (le_refl _) (le_refl _)
  · intro flight member
    rw [trace] at member
    rw [Valid, msgPending]
    exact (sends.sent flight member).congr later (le_refl _) (le_refl _)

/-- An event that accepts no message. -/
theorem Sends.log {rdp : Station}
    (sends : endpoint.Sends new current frames rdp) {event : Event}
    (unqueued : event.queuedTo endpoint.peer = none)
    (submitted : ∀ packet, event = .submit endpoint.peer packet →
      endpoint.Valid new frames maxWindowSize (endpoint.count rdp.trace) rdp packet)
    (sent : ∀ packet, event.sentTo endpoint.peer = some packet →
      endpoint.Valid new frames (2 * maxWindowSize) (endpoint.count rdp.trace) rdp packet) :
    endpoint.Sends new current frames (rdp.log event) := by
  refine { sends with queued := ?_, submitted := ?_, sent := ?_ }
  · rw [Station.log, filterMap_append]
    simpa [unqueued] using sends.queued
  · intro before packet prefixed
    rcases prefix_concat_iff.mp prefixed with same | earlier
    · rw [append_inj_left' same rfl]
      have last := append_inj_right' same rfl
      rw [List.cons.injEq] at last
      exact submitted packet last.1.symm
    · exact sends.submitted before packet earlier
  · intro flight member
    rw [Station.log, flightsOf_append] at member
    rcases mem_append.mp member with earlier | later
    · exact sends.sent flight (mem_append_left _ earlier)
    · rcases mem_append.mp later with earlier | last
      · exact sends.sent flight (mem_append_right _ earlier)
      · cases packet : event.sentTo endpoint.peer with
        | none => simp [flightsOf, packet] at last
        | some packet' =>
          simp only [flightsOf, packet, Option.toList_some, map_cons,
            map_nil, append_nil, mem_singleton] at last
          rw [last]
          exact sent packet' packet

/-- The connection ID is drawn anew. -/
theorem Sends.renew (sends : endpoint.Sends new current frames rdp)
    (peer : node = endpoint.peer) :
    endpoint.Sends new rdp.draws frames (finishClosing node rdp) := by
  subst peer
  have conn : (finishClosing endpoint.peer rdp).conntable endpoint.peer =
      (rdp.conntable endpoint.peer).closeWith (rdp.randoms rdp.draws) :=
    modify_self rdp endpoint.peer (Conn.closeWith (rdp.randoms rdp.draws))
  have later : ∀ draw, Drawn endpoint.peer rdp draw →
      Drawn endpoint.peer (finishClosing endpoint.peer rdp) draw :=
    fun _ => Drawn.later rfl (Nat.le_succ _)
  have uncounted : ((finishClosing endpoint.peer rdp).conntable endpoint.peer).msgPending = 0 := by
    rw [conn]
    rfl
  constructor
  · exact sends.randoms
  · exact sends.draws.trans (Nat.le_succ _)
  · exact fun draw known => later draw (sends.drawn draw known)
  · exact sends.queued
  · apply sends.sender.renew later sends.sender.known.1
    · exact ⟨Nat.lt_succ_self _, .inr sends.draws⟩
    · rw [conn, ← sends.randoms]
      rfl
    · rw [conn]
      rfl
    · exact uncounted
    · rw [conn]
      rfl
  · intro before packet submitted
    rw [Valid, uncounted]
    exact (sends.submitted before packet submitted).congr later (le_refl _) (Nat.le_add_right _ _)
  · intro flight member
    rw [Valid, uncounted]
    exact (sends.sent flight member).congr later (le_refl _) (Nat.le_add_right _ _)

attribute [local simp] Conn.queue Conn.count

/-- The frame numbers of a connection that takes one more message. -/
theorem queue_frames (conn : Conn) (msg : MsgBuf) (base : SeqNo)
    (frameToSend : conn.frameToSend = base + BitVec.ofNat 32 frames) :
    ∃ frames', (conn.queue msg).frameToSend = base + BitVec.ofNat 32 frames' ∧ frames ≤ frames' ∧
      frames' + (conn.queue msg).msgPending = frames + conn.msgPending + 1 := by
  have waiting : (conn.queue msg).frameToSend = conn.frameToSend →
      (conn.queue msg).msgPending = conn.msgPending + 1 →
      ∃ frames', (conn.queue msg).frameToSend = base + BitVec.ofNat 32 frames' ∧ frames ≤ frames' ∧
        frames' + (conn.queue msg).msgPending = frames + conn.msgPending + 1 := by
    intro same counted
    exact ⟨frames, same.trans frameToSend, le_refl _, by omega⟩
  cases state : conn.state with
  | closed =>
    apply waiting
    · simp [state]
    · simp [state]
  | synSent =>
    apply waiting
    · simp [state]
    · simp [state]
  | synRecvd =>
    apply waiting
    · simp [state]
    · simp [state]
  | active =>
    refine ⟨frames + 1, ?_, Nat.le_succ _, ?_⟩
    · simp only [Conn.queue, Conn.count, state]
      rw [frameToSend, BitVec.ofNat_add, BitVec.add_assoc]
      rfl
    · simp only [Conn.queue, Conn.count, state]
      omega

theorem Sends.queue (sends : endpoint.Sends new current frames rdp)
    (waiting : (rdp.conntable endpoint.peer).msgPending ≤ 2 * maxWindowSize)
    (id : Nat) {buf : List UInt8} (size : buf.length ≤ maxDataSize) :
    ∃ new' frames', endpoint.Sends new' current frames' (enqueue endpoint.peer id buf rdp) := by
  have conn : (enqueue endpoint.peer id buf rdp).conntable endpoint.peer =
      (rdp.conntable endpoint.peer).queue ((rdp.conntable endpoint.peer).newMsg id buf) :=
    modify_self rdp endpoint.peer (fun conn =>
      conn.queue ((rdp.conntable endpoint.peer).newMsg id buf))
  have connIDOut : ((rdp.conntable endpoint.peer).queue
      ((rdp.conntable endpoint.peer).newMsg id buf)).connIDOut =
        (rdp.conntable endpoint.peer).connIDOut := by
    simp only [Conn.queue, Conn.count]
    split <;> rfl
  rcases queue_frames (rdp.conntable endpoint.peer) ((rdp.conntable endpoint.peer).newMsg id buf)
    endpoint.origin.base sends.sender.frameToSend with ⟨frames', frameToSend, grown, next⟩
  have carries : ((rdp.conntable endpoint.peer).newMsg id
      buf).packet.withoutAck = endpoint.origin.message
        { incarnation := current
          number := frames + (rdp.conntable endpoint.peer).msgPending
          payload := buf } := by
    simp only [Packet.withoutAck, MsgBuf.packet, Conn.newMsg, Origin.message,
      sends.sender.frameToSend, sends.sender.connIDOut, BitVec.ofNat_add,
      BitVec.add_assoc]
  have grew : ∀ {slack count packet},
      endpoint.Valid new frames slack count rdp packet →
      endpoint.Valid (new ++ [{ incarnation := current
                                number := frames + (rdp.conntable endpoint.peer).msgPending
                                payload := buf }]) frames' slack count
        (enqueue endpoint.peer id buf rdp) packet := by
    intro slack count packet valid
    rw [Valid, conn, next, ← append_assoc]
    exact Origin.Valid.append valid rfl (Nat.le_add_right _ _) grown
  refine ⟨new ++ [{ incarnation := current
                    number := frames + (rdp.conntable endpoint.peer).msgPending
                    payload := buf }], frames', ?_⟩
  constructor
  · exact sends.randoms
  · exact sends.draws
  · exact sends.drawn
  · simp only [enqueue, Station.log, modify_trace,
      filterMap_append, map_append, sends.queued, map_cons,
      map_nil, ← carries]
    simp [Event.queuedTo]
  · rw [conn, ← append_assoc]
    apply sends.sender.append rfl rfl size waiting connIDOut frameToSend grown
      next
    rw [Conn.queue_pendList]
    exact sends.sender.pending.queue rfl carries
  · intro before packet submitted
    apply grew
    apply sends.submitted
    rcases prefix_concat_iff.mp submitted with same | earlier
    · have last := append_inj_right' same rfl
      rw [List.cons.injEq] at last
      exact absurd last.1 Event.noConfusion
    · exact earlier
  · intro flight member
    apply grew
    apply sends.sent
    rw [enqueue, Station.log, flightsOf_append] at member
    simpa [flightsOf, Event.sentTo] using member

/-- The frames of an activated connection are counted. -/
theorem Sends.flush (sends : endpoint.Sends new current frames rdp)
    (peer : node = endpoint.peer) :
    endpoint.Sends new current (frames + (rdp.conntable endpoint.peer).msgPending)
      (flushPending node rdp) := by
  subst peer
  have conn : (flushPending endpoint.peer rdp).conntable endpoint.peer =
      (rdp.conntable endpoint.peer).flush :=
    modify_self rdp endpoint.peer Conn.flush
  have flushed : ∀ {slack count packet},
      endpoint.Valid new frames slack count rdp packet →
      endpoint.Valid new (frames + (rdp.conntable endpoint.peer).msgPending)
        slack count (flushPending endpoint.peer rdp) packet := by
    intro slack count packet valid
    rw [Valid, conn]
    exact Origin.Valid.congr valid (fun _ drawn => drawn) (Nat.le_add_right _ _) (le_refl _)
  constructor
  · exact sends.randoms
  · exact sends.draws
  · exact sends.drawn
  · exact sends.queued
  · rw [conn]
    exact sends.sender.flush
  · exact fun before packet submitted => flushed (sends.submitted before packet submitted)
  · exact fun flight member => flushed (sends.sent flight member)

end Steps

/-- Changes of a connection that concern no message accepted. -/
structure SameMessages (origin : Origin) (before after : Conn) : Prop where
  connIDOut : after.connIDOut = before.connIDOut
  frameToSend : after.frameToSend = before.frameToSend
  msgPending : after.msgPending = before.msgPending
  pending : ∀ entries, origin.Pending entries before.pendList →
    origin.Pending entries after.pendList

section Rules

variable {endpoint : Endpoint} {taking taken : Taking}

theorem Keeps.congr {phase : Phase} {before after : Station}
    (keeps : endpoint.Keeps taking phase before) (conntable : after.conntable = before.conntable)
    (trace : after.trace = before.trace) (randoms : after.randoms = before.randoms)
    (nrOfNodes : after.nrOfNodes = before.nrOfNodes) (draws : after.draws = before.draws) :
    endpoint.Keeps taking phase after := by
  rcases keeps with ⟨waits, ⟨new, current, frames, sends⟩, holds⟩
  refine ⟨waits.congr conntable, ⟨new, current, frames, ?_⟩, ?_⟩
  · apply sends.congr randoms nrOfNodes (le_of_eq draws.symm) trace
    · rw [conntable]
    · rw [conntable]
    · rw [conntable]
    · rw [conntable]
      exact sends.sender.pending
  · rw [conntable, trace]
    exact holds

theorem Keeps.modify {phase phase' : Phase} {rdp : Station}
    (keeps : endpoint.Keeps taking phase rdp) (node : Nat)
    {change : Conn → Conn}
    (waits : Waits endpoint.peer maxWindowSize phase' (rdp.modify node change))
    (same : node = endpoint.peer → SameMessages endpoint.origin
      (rdp.conntable node) (change (rdp.conntable node)))
    (takes : node = endpoint.peer → ∀ returned,
      taking (rdp.conntable node).connIDIn (rdp.conntable node).frameExpected returned →
      taking (change (rdp.conntable node)).connIDIn
        (change (rdp.conntable node)).frameExpected returned) :
    endpoint.Keeps taking phase' (rdp.modify node change) := by
  rcases keeps with ⟨_, ⟨new, current, frames, sends⟩, holds⟩
  by_cases peer : node = endpoint.peer
  · subst peer
    have messages := same rfl
    refine ⟨waits, ⟨new, current, frames, ?_⟩, ?_⟩
    · refine sends.congr rfl rfl (le_refl _) rfl ?_ ?_ ?_ ?_
      · rw [modify_self]
        exact messages.connIDOut
      · rw [modify_self]
        exact messages.frameToSend
      · rw [modify_self]
        exact messages.msgPending
      · rw [modify_self]
        exact messages.pending _ sends.sender.pending
    · rw [modify_self]
      exact takes rfl _ holds
  · have conn := modify_other (Ne.symm peer) rdp change
    refine ⟨waits, ⟨new, current, frames, ?_⟩, ?_⟩
    · refine sends.congr rfl rfl (le_refl _) rfl ?_ ?_ ?_ ?_
      · rw [conn]
      · rw [conn]
      · rw [conn]
      · rw [conn]
        exact sends.sender.pending
    · rw [conn]
      exact holds

theorem Keeps.modify_same {phase : Phase} {rdp : Station}
    (keeps : endpoint.Keeps taking phase rdp) (node : Nat)
    {change : Conn → Conn}
    (waits : Waits endpoint.peer maxWindowSize phase (rdp.modify node change))
    (same : SameMessages endpoint.origin (rdp.conntable node) (change (rdp.conntable node)))
    (connIDIn : (change (rdp.conntable node)).connIDIn = (rdp.conntable node).connIDIn)
    (frameExpected : (change (rdp.conntable node)).frameExpected =
      (rdp.conntable node).frameExpected) :
    endpoint.Keeps taking phase (rdp.modify node change) := by
  apply keeps.modify node waits (fun _ => same)
  intro _ returned holds
  rw [connIDIn, frameExpected]
  exact holds

section

variable {phase phase' : Phase} {rdp : Station}
  (keeps : endpoint.Keeps taking phase rdp) {event : Event}
  (waits : Waits endpoint.peer maxWindowSize phase' (rdp.log event))
  (unqueued : event.queuedTo endpoint.peer = none)
  (unreceived : event.receivedFrom endpoint.peer = none)

include keeps waits unqueued unreceived

theorem Keeps.log (submitted : ∀ new current frames,
      endpoint.Sends new current frames rdp → ∀ packet,
      event = .submit endpoint.peer packet →
        endpoint.Valid new frames maxWindowSize (endpoint.count rdp.trace) rdp
          packet) (sent : ∀ new current frames,
      endpoint.Sends new current frames rdp → ∀ packet,
      event.sentTo endpoint.peer = some packet →
        endpoint.Valid new frames (2 * maxWindowSize) (endpoint.count rdp.trace) rdp packet) :
    endpoint.Keeps taking phase' (rdp.log event) := by
  rcases keeps with ⟨_, ⟨new, current, frames, sends⟩, holds⟩
  refine ⟨waits, ⟨new, current, frames, ?_⟩, ?_⟩
  · exact sends.log unqueued (submitted new current frames sends) (sent new current frames sends)
  · rw [Station.log, filterMap_append]
    simpa [unreceived] using holds

theorem Keeps.log_other (unsubmitted : ∀ packet, event ≠ .submit endpoint.peer packet)
    (unsent : event.sentTo endpoint.peer = none) :
    endpoint.Keeps taking phase' (rdp.log event) := by
  apply keeps.log waits unqueued unreceived
  · exact fun _ _ _ _ packet same => absurd same (unsubmitted packet)
  · intro _ _ _ _ packet same
    rw [unsent] at same
    cases same

end

theorem Keeps.finishClosing
    (keeps : endpoint.Keeps taking (phase.clear node) rdp) :
    endpoint.Keeps taking phase (finishClosing node rdp) := by
  have conns := Extends.conns (extends_finishClosing node rdp) endpoint.peer
  rcases keeps with ⟨waits, ⟨new, current, frames, sends⟩, holds⟩
  refine ⟨waits.finishClosing, ?_, ?_⟩
  · by_cases peer : node = endpoint.peer
    · exact ⟨new, rdp.draws, frames, sends.renew peer⟩
    · have conn : (Rdp.finishClosing node rdp).conntable
          endpoint.peer = rdp.conntable endpoint.peer :=
        modify_other (Ne.symm peer) rdp (Conn.closeWith (rdp.randoms rdp.draws))
      refine ⟨new, current, frames, ?_⟩
      refine sends.congr rfl rfl (Nat.le_succ _) rfl ?_ ?_ ?_ ?_
      · rw [conn]
      · rw [conn]
      · rw [conn]
      · rw [conn]
        exact sends.sender.pending
  · rw [conns.connIDIn, conns.frameExpected]
    exact holds

theorem Keeps.enqueue {id : Nat} {buf : List UInt8} (keeps : endpoint.Keeps taking phase rdp)
    (waits : Waits endpoint.peer maxWindowSize phase (enqueue node id buf rdp))
    (size : buf.length ≤ maxDataSize) :
    endpoint.Keeps taking phase (enqueue node id buf rdp) := by
  have conns := @Conn.extends_queue (rdp.conntable node) ((rdp.conntable node).newMsg id buf)
  by_cases peer : node = endpoint.peer
  · subst peer
    have conn : (Rdp.enqueue endpoint.peer id buf rdp).conntable
        endpoint.peer = (rdp.conntable endpoint.peer).queue
          ((rdp.conntable endpoint.peer).newMsg id buf) :=
      modify_self rdp endpoint.peer (fun conn =>
        conn.queue ((rdp.conntable endpoint.peer).newMsg id buf))
    rcases keeps with ⟨before, ⟨new, current, frames, sends⟩, holds⟩
    have counted := before.2.pendList
    have length := before.1.length_le endpoint.peer
    rcases sends.queue (by omega) id size with ⟨new', frames', queued⟩
    refine ⟨waits, ⟨new', current, frames', queued⟩, ?_⟩
    rw [conn, conns.connIDIn, conns.frameExpected, Rdp.enqueue,
      Station.log, filterMap_append, filterMap_cons_none rfl,
      filterMap_nil, append_nil]
    exact holds
  · have waits' : Waits endpoint.peer maxWindowSize phase
        (rdp.modify node (fun conn => conn.queue ((rdp.conntable node).newMsg id buf))) :=
      waits.congr rfl
    have modified := keeps.modify node waits'
      (fun same => absurd same peer) (fun same => absurd same peer)
    have listed : endpoint.Keeps taking phase
        { rdp.modify node (fun conn =>
            conn.queue ((rdp.conntable node).newMsg id buf)) with
          ackList := rdp.ackList ++ [(node, id)] } :=
      modified.congr rfl rfl rfl rfl rfl
    apply listed.log_other waits
    · simp [Event.queuedTo, peer]
    · rfl
    · exact fun _ => Event.noConfusion
    · rfl

theorem sendRules_keeps {cb : RdpCallback} (extending : Extending cb)
    (notify : ∀ phase rdp info, endpoint.Keeps taking phase rdp →
      endpoint.Keeps taking phase (notify cb info rdp)) :
    SendRules cb (fun _ _ => True) (fun _ _ => True) (endpoint.Keeps taking) where
  bounded := fun _ _ keeps => keeps.1.1
  extending := extending
  notify := notify
  tick := fun _ _ keeps => keeps.congr rfl rfl rfl rfl rfl
  nextSend := fun _ _ keeps => keeps.congr rfl rfl rfl rfl rfl
  errors := fun _ _ _ _ _ _ _ _ _ => trivial
  submit := by
    intro phase rdp node packet keeps sendable
    apply keeps.log (keeps.1.congr rfl) rfl rfl
    · intro new current frames sends other same
      cases same
      have counted := keeps.1.2.pendList
      have length := keeps.1.1.length_le endpoint.peer
      rw [sends.count]
      exact sends.sender.valid (by omega) length sendable
    · intro _ _ _ _ _ same
      cases same
  sent := by
    intro phase submitted rdp node packet before last extended keeps
    apply keeps.log (keeps.1.congr rfl) rfl rfl
    · exact fun _ _ _ _ _ same => absurd same Event.noConfusion
    · intro new current frames sends other same
      have peer : node = endpoint.peer ∧ packet = other := by
        by_cases peer : node = endpoint.peer
        · simpa [Event.sentTo, peer] using same
        · simp [Event.sentTo, peer] at same
      rcases peer with ⟨rfl, rfl⟩
      rcases getLast?_eq_some_iff.mp last with ⟨earlier, trace⟩
      have handed := extended.trace
      rw [trace] at handed
      have valid := sends.submitted earlier packet handed
      have count : endpoint.count earlier = endpoint.count submitted.trace := by
        rw [trace, Endpoint.count, Endpoint.count, filterMap_append]
        simp [Event.queuedTo]
      have slots := extended.slots endpoint.peer
      have window := before.1.1 endpoint.peer
      have window' := keeps.1.1 endpoint.peer
      have within := sends.count
      rw [count] at valid
      apply Origin.Valid.delay valid
      · simp only [Endpoint.count]
        omega
      · omega
      · rw [within]
  startClosing := by
    intro phase rdp node keeps _
    have waits := (@sendRules_waits_callbackAt endpoint.peer maxWindowSize
      0).startClosing phase rdp node keeps.1 trivial
    exact keeps.log_other waits rfl rfl (fun _ => Event.noConfusion) rfl
  markDeleted := by
    intro phase rdp node index keeps clearing deleted
    have waits := (@sendRules_waits_callbackAt endpoint.peer maxWindowSize
      0).markDeleted phase rdp node index keeps.1 clearing deleted
    have marked := keeps.modify_same node (waits.congr rfl)
      ⟨rfl, rfl, rfl, fun _ pending => pending.markDeleted deleted⟩ rfl rfl
    exact marked.congr rfl rfl rfl rfl rfl
  finishClosing := fun _ _ _ keeps _ => keeps.finishClosing
  clearAckPending := fun _ _ node keeps =>
    keeps.modify_same node (keeps.1.modify_same node rfl rfl rfl id)
      ⟨rfl, rfl, rfl, fun _ pending => pending⟩ rfl rfl
  closedTimer := fun _ _ node _ keeps =>
    keeps.modify_same node (keeps.1.modify_same node rfl rfl rfl id)
      ⟨rfl, rfl, rfl, fun _ pending => pending⟩ rfl rfl
  timer := fun _ _ node _ _ keeps =>
    keeps.modify_same node (keeps.1.modify_same node rfl rfl rfl id)
      ⟨rfl, rfl, rfl, fun _ pending => pending⟩ rfl rfl
  enqueue := by
    intro phase rdp node buf id rest small mallocs keeps queueable known window size free framed
    have waits := (@sendRules_waits_callbackAt endpoint.peer maxWindowSize
      0).enqueue phase rdp node buf id rest small mallocs keeps.1 queueable
        known window size free framed
    have allocated : endpoint.Keeps taking phase
        { rdp with
          msgFreeList := rest, sMsgFree := small, mallocs := mallocs } :=
      keeps.congr rfl rfl rfl rfl rfl
    exact allocated.enqueue waits size
  leak := fun _ _ _ _ _ _ _ keeps _ _ => keeps.congr rfl rfl rfl rfl rfl

theorem sendRules_keeps_callbackAt (depth : Nat) :
    SendRules (callbackAt depth) (fun _ _ => True) (fun _ _ => True) (endpoint.Keeps taking) := by
  apply SendRules.callbackAt
  · exact fun cb => sendRules_keeps
  · exact fun _ _ _ keeps => keeps.log_other (keeps.1.congr rfl) rfl rfl
      (fun _ => Event.noConfusion) rfl
  · exact fun _ _ keeps => keeps.congr rfl rfl rfl rfl rfl
  · exact fun _ _ _ _ _ _ _ => trivial

theorem localRules_keeps (depth : Nat) :
    LocalRules (callbackAt depth) (fun _ _ => True) (fun _ _ => True) (endpoint.Keeps taking) where
  toSendRules := sendRules_keeps_callbackAt depth
  closable_idle := fun _ => trivial
  refreshAck := by
    intro phase rdp node index keeps
    exact keeps.modify_same node ((localRules_waits depth).refreshAck phase rdp node index keeps.1)
      ⟨rfl, rfl, rfl, fun _ pending => pending.refreshAck index _⟩ rfl rfl
  release := by
    intro rdp node msg keeps pending deleted
    have conntable := release_conntable node msg rdp
    have waits := (localRules_waits depth).release rdp node msg keeps.1 pending deleted
    have dropped := keeps.modify_same node (waits.congr conntable.symm)
      ⟨rfl, rfl, rfl, fun _ pending => pending.release deleted⟩ rfl rfl
    exact dropped.congr conntable rfl rfl rfl rfl
  cleanupDone := fun _ keeps => keeps.congr rfl rfl rfl rfl rfl
  address := fun _ node _ keeps =>
    keeps.modify_same node (keeps.1.modify_same node rfl rfl rfl id)
      ⟨rfl, rfl, rfl, fun _ pending => pending⟩ rfl rfl

theorem rseqcmp_eq_zero {a b : SeqNo} (same : rseqcmp a b = 0) : a = b := by
  rw [rseqcmp, ← BitVec.toInt_zero, BitVec.toInt_inj] at same
  bv_omega

/-- A connection ID and a frame are taken over from a packet with `hdr`. -/
def Accepts (conn : Conn) (hdr : Header) : Prop :=
  hdr.type = .syn ∨ (hdr.type = .synack ∧
    (conn.state = .synSent ∨ conn.state = .synRecvd ∨
      (conn.state = .active ∧ hdr.connid ≠ conn.connIDIn)))

/-- What is `taking` from the peer before a packet that arrives at `conn` is
handled, is `taken` afterwards. -/
structure Handles (taking taken : Taking) (conn : Conn) (packet : Packet) :
    Prop where
  accept : ∀ connIDIn frameExpected returned,
    taking connIDIn frameExpected returned → Accepts conn packet.header →
      taking packet.header.connid packet.header.seqno returned
  take : ∀ connIDIn frameExpected returned,
    taking connIDIn frameExpected returned → packet.header.type = .data →
    conn.state = .active → packet.header.seqno = conn.frameExpected →
    frameExpected = packet.header.seqno →
      packet.data.take packet.header.len = packet.data ∧ packet.header.len ≤ maxDataSize ∧ taken
        connIDIn (frameExpected + 1) (returned ++ [packet])

theorem Keeps.accept {state : ConnState}
    (keeps : endpoint.Keeps taking .idle rdp) (inactive : state ≠ .active)
    (takes : node = endpoint.peer → ∀ connIDIn frameExpected returned,
      taking connIDIn frameExpected returned →
        taking packet.header.connid packet.header.seqno returned) :
    endpoint.Keeps taking .idle (accept state packet.header node rdp) := by
  apply keeps.modify node
  · apply keeps.1.modify_same node rfl rfl rfl
    exact fun active => absurd active inactive
  · exact fun _ => ⟨rfl, rfl, rfl, fun _ pending => pending⟩
  · exact fun peer returned => takes peer _ _ returned

theorem SameMessages.activate (origin : Origin) (hdr : Header) (conn : Conn) :
    SameMessages origin conn (conn.activate hdr) := by
  rw [Conn.activate]
  split
  · exact ⟨rfl, rfl, rfl, fun _ pending => pending⟩
  · exact ⟨rfl, rfl, rfl, fun _ pending => pending⟩

theorem Keeps.becomeActive {start : Station} (keeps : endpoint.Keeps taking .idle start)
    (waits : Waits endpoint.peer maxWindowSize phase (becomeActive packet.header node start))
    (activates : Activates (start.conntable node).state packet.header.type)
    (handles : node = endpoint.peer → Handles taking taken (start.conntable node) packet) :
    endpoint.Keeps taking phase (becomeActive packet.header node start) := by
  apply keeps.modify node waits
  · exact fun _ => SameMessages.activate _ _ _
  · intro peer returned holds
    rw [Conn.activate]
    split
    · next synack =>
        apply (handles peer).accept _ _ _ holds
        refine .inr ⟨synack, ?_⟩
        rcases activates with ⟨synSent, _⟩ | ⟨synRecvd, _⟩
        · exact .inl synSent
        · exact .inr (.inl synRecvd)
    · exact holds

theorem Keeps.flushPending
    (keeps : endpoint.Keeps taking (.activate node true) rdp) :
    endpoint.Keeps taking .idle (flushPending node rdp) := by
  rcases keeps with ⟨waits, ⟨new, current, frames, sends⟩, holds⟩
  by_cases peer : node = endpoint.peer
  · refine ⟨waits.flushPending, ⟨new, current, _, sends.flush peer⟩, ?_⟩
    subst peer
    have conn : (Rdp.flushPending endpoint.peer rdp).conntable
        endpoint.peer = (rdp.conntable endpoint.peer).flush :=
      modify_self rdp endpoint.peer Conn.flush
    rw [conn]
    exact holds
  · exact Keeps.modify ⟨waits, ⟨new, current, frames, sends⟩, holds⟩ node waits.flushPending
      (fun same => absurd same peer) (fun same => absurd same peer)

theorem Keeps.acknowledged {mp : MsgBuf} {rest : List MsgBuf}
    (keeps : endpoint.Keeps taking .idle rdp) (few : node = endpoint.peer →
      (rdp.conntable endpoint.peer).msgPending ≤ maxWindowSize)
    (pending : (rdp.conntable node).pendList = mp :: rest)
    (live : mp.deleted = false) :
    endpoint.Keeps taking .idle (acknowledged node (release node mp rdp)) := by
  have conntable := acknowledged_conntable node mp rdp
  have left : ((rdp.conntable node).acknowledge mp).pendList = rest := by
    simp [Conn.acknowledge, Conn.drop, pending]
  have bounded : Bounded (rdp.modify node (Conn.acknowledge mp)) := by
    intro other
    rw [← conntable]
    exact bounded_modify (keeps.1.1.release (by simp [pending])) rfl rfl other
  have waits := keeps.1.modify node bounded (by
    rintro rfl
    have few := few rfl
    refine ⟨?_, fun _ => ?_, keeps.1.2.active⟩
    · simp only [Conn.acknowledge, Conn.drop]
      omega
    · simp only [Conn.acknowledge, Conn.drop]
      omega)
  have modified := keeps.modify_same node waits
    ⟨rfl, rfl, rfl, by
      intro entries before
      rw [pending] at before
      rw [left]
      exact before.acknowledge live⟩ rfl rfl
  exact modified.congr conntable rfl rfl rfl rfl

theorem Keeps.take {conn : Conn} (keeps : endpoint.Keeps taking .idle rdp)
    (settle : ∀ connIDIn frameExpected returned,
      taking connIDIn frameExpected returned → taken connIDIn frameExpected returned)
    (handles : node = endpoint.peer → Handles taking taken conn packet)
    (data : packet.header.type = .data) (active : conn.state = .active)
    (own : packet.header.seqno = conn.frameExpected)
    (expected : (rdp.conntable node).frameExpected = packet.header.seqno) :
    endpoint.Keeps taken .idle (countFrame packet maxDataSize node rdp) := by
  have waits : Waits endpoint.peer maxWindowSize .idle
      (rdp.modify node (fun conn =>
        { conn with
          frameExpected := conn.frameExpected + 1
          ackPending := conn.ackPending + 1 })) :=
    keeps.1.modify_same node rfl rfl rfl id
  have settled : endpoint.Keeps taken .idle rdp := ⟨keeps.1, keeps.2.1, settle _ _ _ keeps.2.2⟩
  by_cases peer : node = endpoint.peer
  · subst peer
    rcases (handles rfl).take _ _ _ keeps.2.2 data active own expected with
      ⟨whole, fits, holds⟩
    rcases keeps with ⟨_, ⟨new, current, frames, sends⟩, _⟩
    have counted : endpoint.Sends new current frames
        (rdp.modify endpoint.peer (fun conn =>
          { conn with
            frameExpected := conn.frameExpected + 1
            ackPending := conn.ackPending + 1 })) := by
      refine sends.congr rfl rfl (le_refl _) rfl ?_ ?_ ?_ ?_
      · rw [modify_self]
      · rw [modify_self]
      · rw [modify_self]
      · rw [modify_self]
        exact sends.sender.pending
    rw [countFrame, if_neg (Nat.not_lt.mpr fits)]
    refine ⟨waits.congr rfl, ⟨new, current, frames, ?_⟩, ?_⟩
    · apply counted.log rfl
      · exact fun _ same => absurd same Event.noConfusion
      · exact fun _ same => absurd same (by simp [Event.sentTo])
    · simp only [Station.log, modify_self, modify_trace, filterMap_append, whole]
      simpa [Event.receivedFrom] using holds
  · have counted := settled.modify node waits (fun same => absurd same peer)
      (fun same => absurd same peer)
    rw [countFrame]
    split
    · exact counted
    · apply counted.log_other (waits.congr rfl) rfl
      · simp [Event.receivedFrom, peer]
      · exact fun _ => Event.noConfusion
      · rfl

theorem packetRules_keeps (depth : Nat) {start : Station}
    (waits : Waits endpoint.peer maxWindowSize .idle start)
    (settle : ∀ connIDIn frameExpected returned, taking connIDIn frameExpected returned →
        taken connIDIn frameExpected returned) (handles : node = endpoint.peer →
      Handles taking taken (start.conntable node) packet) :
    PacketRules (callbackAt depth) (fun _ _ => True) (fun _ _ => True)
      (endpoint.Keeps taking) (endpoint.Keeps taken)
      (fun rdp => node = endpoint.peer → (rdp.conntable endpoint.peer).msgPending ≤ maxWindowSize)
      start node packet where
  toLocalRules := localRules_keeps depth
  takenRules := sendRules_keeps_callbackAt depth
  settle := fun _ keeps => ⟨keeps.1, keeps.2.1, settle _ _ _ keeps.2.2⟩
  synRecvd := fun _ keeps _ _ syn =>
    keeps.accept ConnState.noConfusion (fun peer _ _ _ holds =>
      (handles peer).accept _ _ _ holds (.inl syn))
  synSent := fun _ keeps _ _ synack active foreign =>
    keeps.accept ConnState.noConfusion (fun peer _ _ _ holds =>
      (handles peer).accept _ _ _ holds (.inr ⟨synack, .inr (.inr ⟨active, foreign⟩)⟩))
  enterSynSent := by
    intro keeps _
    exact keeps.modify_same node
      (keeps.1.modify_same node rfl rfl rfl (fun active => absurd active ConnState.noConfusion))
      ⟨rfl, rfl, rfl, fun _ pending => pending⟩ rfl rfl
  activate := by
    intro keeps activates uncounted
    have messages := SameMessages.activate endpoint.origin packet.header (start.conntable node)
    apply keeps.becomeActive _ activates handles
    apply keeps.1.modify node
    · exact bounded_modify keeps.1.1 (Conn.activate_counters _ _).1 (Conn.length_activate _ _)
    · rintro rfl
      exact Waiting.empty (messages.msgPending.trans uncounted)
  activatePending := by
    intro keeps activates _
    exact ⟨.activate node true,
      keeps.becomeActive (keeps.1.activatePending packet.header node) activates handles,
      fun _ => trivial, fun _ active => active.flushPending⟩
  answered := by
    rintro rdp keeps _ active _ rfl peer
    exact waits.answered peer active
  skipped := by
    intro rdp mp rest keeps few _ _ peer
    rw [release_conntable]
    subst peer
    rw [modify_self]
    exact few rfl
  acknowledged := by
    intro rdp mp rest keeps few pending live _
    refine ⟨keeps.acknowledged few pending live, ?_⟩
    intro peer
    rw [acknowledged_conntable]
    subst peer
    rw [modify_self]
    exact few rfl
  take := by
    intro rdp keeps data active own expected
    exact keeps.take settle handles data active (rseqcmp_eq_zero own) expected

theorem Keeps.perform (depth : Nat) (keeps : endpoint.Keeps taking .idle rdp)
    (call : Call) (settle : ∀ connIDIn frameExpected returned,
      taking connIDIn frameExpected returned → taken connIDIn frameExpected returned)
    (handles : ∀ packet, call = .handleRDP endpoint.peer packet →
      (rdp.conntable endpoint.peer).closed ≤ gettimeofday rdp →
        Handles taking taken (rdp.conntable endpoint.peer) packet) :
    endpoint.Keeps taken .idle (perform (callbackAt depth) call rdp) := by
  have rules := @localRules_keeps endpoint taking depth
  have settled : ∀ after, endpoint.Keeps taking .idle after → endpoint.Keeps taken .idle after :=
    fun _ kept => ⟨kept.1, kept.2.1, settle _ _ _ kept.2.2⟩
  cases call with
  | rsendto node buf => exact settled _ (rules.rsendto keeps trivial)
  | handleRDP node packet =>
    apply handleRDP_rules rules.toSendRules settled _ keeps
    rintro begun (⟨unset, rfl⟩ | ⟨expired, rfl⟩)
    · refine ⟨_, packetRules_keeps depth keeps.1 settle ?_⟩
      rintro rfl
      exact handles packet rfl (by omega)
    · have cleared := rules.closedTimer _ _ node 0 (rules.tick _ _ keeps)
      refine ⟨_, packetRules_keeps depth cleared.1 settle ?_⟩
      rintro rfl
      have before := handles packet rfl (Nat.le_of_not_lt expired)
      rw [modify_self]
      exact ⟨before.accept, before.take⟩
  | handleTimeoutRDP => exact settled _ (rules.handleTimeoutRDP keeps)
  | closeConnRDP node => exact settled _ (rules.closeConnRDP node keeps)
  | rdpUpdateNode node addr => exact settled _ (rules.rdpUpdateNode node addr keeps)

end Rules

end Endpoint

end Psmgmt.Rdp
