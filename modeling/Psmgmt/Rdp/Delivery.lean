import Psmgmt.Rdp.PendingList
import Psmgmt.Library.Snoc

/-!
# One endpoint of an established connection

As long as the connection to its peer is not closed, an endpoint numbers the
messages it accepts and those it returns without gaps, keeps what the peer may
still need, and sends nothing but its own frames and valid ACKs.
-/

namespace Psmgmt.Rdp

open Station

open List hiding getElem?_eq_some_iff

/-- The message an event tells to be returned by `Rrecvfrom()`. -/
def Event.receivedFrom (node : Nat) : Event → Option Packet
  | .received source message => if source = node then some message else none
  | _ => none

def Event.sentTo (node : Nat) : Event → Option Packet
  | .sendto dest packet => if dest = node then some packet else none
  | _ => none

/-- The packets sent to `peer`, each with the number of messages accepted
before. -/
def flightsOf (peer : Nat) : (count : Nat) → List Event → List (Packet × Nat)
  | _, [] => []
  | count, event :: rest =>
    (event.sentTo peer).toList.map (fun packet => (packet, count)) ++
      flightsOf peer (count + (event.queuedTo peer).toList.length) rest

/-- A packet apart from its ackno, which changes with each transmission. -/
def Packet.withoutAck (packet : Packet) : Packet :=
  { packet with header := { packet.header with ackno := 0 } }

/-- The DATA packets of consecutive messages, numbered from `first` on. -/
def framesFrom (connid first : SeqNo) : List (List UInt8) → List Packet
  | [] => []
  | payload :: rest =>
    { header :=
        { type := .data, len := payload.length, seqno := first, ackno := 0
          connid := connid }
      data := payload } :: framesFrom connid (first + 1) rest

theorem framesFrom_append (connid : SeqNo) (payloads : List (List UInt8))
    (last : List UInt8) : ∀ first, framesFrom connid first (payloads ++ [last]) =
      framesFrom connid first payloads ++
        framesFrom connid (first + BitVec.ofNat 32 payloads.length) [last] := by
  induction payloads with
  | nil =>
    intro first
    simp [framesFrom]
  | cons payload rest induction =>
    intro first
    have next : first + 1 + BitVec.ofNat 32 rest.length =
        first + BitVec.ofNat 32 (rest.length + 1) := by
      rw [BitVec.ofNat_add]
      bv_omega
    simp only [cons_append, framesFrom, induction, length_cons,
      next]

variable {packet : Packet} {before after : List Event} {rdp : Station}

theorem mem_framesFrom {connid : SeqNo} {payloads : List (List UInt8)} : ∀ {first : SeqNo},
      packet ∈ framesFrom connid first payloads → ∃ index payload, payloads[index]? = some payload ∧
          packet = { header :=
            { type := .data, len := payload.length
              seqno := first + BitVec.ofNat 32 index, ackno := 0
              connid := connid }
                     data := payload } := by
  induction payloads with
  | nil =>
    intro first member
    exact absurd member not_mem_nil
  | cons payload rest induction =>
    intro first member
    rcases mem_cons.mp member with same | later
    · exact ⟨0, payload, rfl, by simpa using same⟩
    · rcases induction later with ⟨index, other, found, equality⟩
      refine ⟨index + 1, other, found, ?_⟩
      rw [equality, BitVec.ofNat_add]
      congr 2
      bv_omega

theorem length_framesFrom (connid : SeqNo) (payloads : List (List UInt8)) :
    ∀ first, (framesFrom connid first payloads).length = payloads.length := by
  induction payloads with
  | nil => exact fun _ => rfl
  | cons payload rest induction =>
    intro first
    rw [framesFrom, length_cons, length_cons, induction]

theorem flightsOf_append (peer : Nat) (events : List Event) (last : Event) :
    ∀ count, flightsOf peer count (events ++ [last]) = flightsOf peer count events ++
        flightsOf peer (count + (events.filterMap (Event.queuedTo peer)).length) [last] := by
  induction events with
  | nil =>
    intro count
    simp [flightsOf]
  | cons event rest induction =>
    intro count
    have queued : ((event :: rest).filterMap (Event.queuedTo peer)).length =
        (event.queuedTo peer).toList.length + (rest.filterMap (Event.queuedTo peer)).length := by
      rw [filterMap_cons]
      cases event.queuedTo peer with
      | none => simp
      | some message => simp [Nat.add_comm]
    rw [cons_append, flightsOf, induction, ← append_assoc, queued, ← Nat.add_assoc]
    rfl

/-- A connection seen from one endpoint, with what both sides have accepted
and returned when the endpoint takes a step. -/
structure Session where
  peer : Nat
  connIDIn : SeqNo
  connIDOut : SeqNo
  base : SeqNo
  peerBase : SeqNo
  accepted : List (List UInt8)
  returned : List (List UInt8)
  peerAccepted : List (List UInt8)
  peerReturned : Nat

namespace Session

/-- The messages accepted up to a state of the step. -/
def acceptedBy (session : Session) (trace : List Event) : List (List UInt8) :=
  session.accepted ++ (trace.filterMap (Event.queuedTo session.peer)).map Packet.data

def returnedBy (session : Session) (trace : List Event) : List (List UInt8) :=
  session.returned ++ (trace.filterMap (Event.receivedFrom session.peer)).map Packet.data

/-- A packet of the session: a frame that was accepted or an ACK of frames that
were returned.  At most `slack` newer frames have been accepted. -/
structure Carried (session : Session) (slack : Nat) (trace : List Event)
    (packet : Packet) (count : Nat) : Prop where
  connid : packet.header.connid = session.connIDOut
  type : packet.header.type = .data ∨ packet.header.type = .ack ∨ packet.header.type = .nack
  data : packet.header.type = .data → ∃ index payload,
    (session.acceptedBy trace)[index]? = some payload ∧ packet.header.seqno = session.base +
      BitVec.ofNat 32 index ∧ packet.data = payload ∧ packet.header.len = payload.length ∧
      payload.length ≤ maxDataSize ∧ count ≤ index + slack
  ackno : ∃ acked, session.returned.length ≤ acked ∧ acked ≤ (session.returnedBy trace).length ∧
    packet.header.ackno = session.peerBase + BitVec.ofNat 32 acked - 1

/-- The state of an endpoint that has not closed the connection. -/
structure Open (session : Session) (conn : Conn) (trace : List Event) :
    Prop where
  active : conn.state = .active
  connIDIn : conn.connIDIn = session.connIDIn
  connIDOut : conn.connIDOut = session.connIDOut
  msgPending : conn.msgPending = 0
  frameToSend : conn.frameToSend = session.base + BitVec.ofNat 32 (session.acceptedBy trace).length
  frameExpected : conn.frameExpected = session.peerBase +
    BitVec.ofNat 32 (session.returnedBy trace).length
  sizes : ∀ payload ∈ session.acceptedBy trace, payload.length ≤ maxDataSize
  pending : ∃ released unreleased, session.acceptedBy trace = released ++ unreleased ∧
      released.length ≤ session.peerReturned ∧
      conn.live.map (fun mp => mp.packet.withoutAck) =
        framesFrom session.connIDOut (session.base + BitVec.ofNat 32 released.length) unreleased
  delivered : session.returnedBy trace <+: session.peerAccepted
  submitted : ∀ packet, trace.getLast? = some (.submit session.peer packet) →
    session.Carried maxWindowSize trace packet (session.acceptedBy trace).length
  flights : ∀ flight ∈ flightsOf session.peer session.accepted.length trace,
      session.Carried (2 * maxWindowSize) trace flight.1 flight.2

def Holds (session : Session) (phase : Phase) (rdp : Station) : Prop :=
  Bounded rdp ∧ (.closing session.peer ∈ rdp.trace ∨
    (session.peer ∉ phase.clearing ∧ session.Open (rdp.conntable session.peer) rdp.trace))

section Steps

variable {session : Session}

attribute [local simp] filterMap_append

theorem acceptedBy_mono (grown : before <+: after) :
    session.acceptedBy before <+: session.acceptedBy after := by
  rcases grown with ⟨rest, rfl⟩
  simp [acceptedBy]

theorem returnedBy_mono (grown : before <+: after) :
    session.returnedBy before <+: session.returnedBy after := by
  rcases grown with ⟨rest, rfl⟩
  simp [returnedBy]

theorem acceptedBy_log {trace : List Event} {event : Event}
    (other : event.queuedTo session.peer = none) :
    session.acceptedBy (trace ++ [event]) = session.acceptedBy trace := by
  simp [acceptedBy, other]

theorem returnedBy_log {trace : List Event} {event : Event}
    (other : event.receivedFrom session.peer = none) :
    session.returnedBy (trace ++ [event]) = session.returnedBy trace := by
  simp [returnedBy, other]

theorem length_acceptedBy (session : Session) (trace : List Event) :
    (session.acceptedBy trace).length = session.accepted.length +
      (trace.filterMap (Event.queuedTo session.peer)).length := by
  simp [acceptedBy]

theorem getElem?_mono {before after : List (List UInt8)} (grown : before <+: after) {index : Nat}
    {payload : List UInt8} (found : before[index]? = some payload) :
    after[index]? = some payload := by
  rcases grown with ⟨rest, rfl⟩
  exact getElem?_append_left (List.getElem?_eq_some_iff.mp found).1 ▸ found

/-- A packet stays valid; it ages by the messages accepted since. -/
theorem Carried.later {slack slack' count count' : Nat}
    (carried : session.Carried slack before packet count)
    (grown : before <+: after) (age : count' + slack ≤ count + slack') :
    session.Carried slack' after packet count' := by
  constructor
  · exact carried.connid
  · exact carried.type
  · intro data
    rcases carried.data data with
      ⟨index, payload, found, seqno, same, len, size, recent⟩
    exact ⟨index, payload, getElem?_mono (acceptedBy_mono grown) found,
      seqno, same, len, size, by omega⟩
  · rcases carried.ackno with ⟨acked, least, most, ackno⟩
    exact ⟨acked, least, most.trans (returnedBy_mono grown).length_le, ackno⟩

theorem Open.log {conn : Conn} {trace : List Event}
    (holds : session.Open conn trace) {event : Event}
    (unqueued : event.queuedTo session.peer = none)
    (unreceived : event.receivedFrom session.peer = none)
    (submitted : ∀ packet, event = .submit session.peer packet →
      session.Carried maxWindowSize trace packet (session.acceptedBy trace).length)
    (sent : ∀ packet, event.sentTo session.peer = some packet →
      session.Carried (2 * maxWindowSize) trace packet (session.acceptedBy trace).length) :
    session.Open conn (trace ++ [event]) := by
  have accepted := @acceptedBy_log session trace event unqueued
  have returned := @returnedBy_log session trace event unreceived
  have grown : trace <+: trace ++ [event] := prefix_append _ _
  constructor
  · exact holds.active
  · exact holds.connIDIn
  · exact holds.connIDOut
  · exact holds.msgPending
  · rw [accepted]
    exact holds.frameToSend
  · rw [returned]
    exact holds.frameExpected
  · rw [accepted]
    exact holds.sizes
  · rw [accepted]
    exact holds.pending
  · rw [returned]
    exact holds.delivered
  · intro packet last
    rw [getLast?_concat, Option.some.injEq] at last
    rw [accepted]
    exact (submitted packet last).later grown (le_refl _)
  · intro flight member
    rw [flightsOf_append, ← length_acceptedBy] at member
    rcases mem_append.mp member with earlier | last
    · exact (holds.flights flight earlier).later grown (le_refl _)
    · cases packet : event.sentTo session.peer with
      | none => simp [flightsOf, packet] at last
      | some packet' =>
        simp only [flightsOf, packet, Option.toList_some, map_cons,
          map_nil, append_nil, mem_singleton] at last
        rw [last]
        exact (sent packet' packet).later grown (le_refl _)

/-- What a change of the connection must not touch. -/
structure SameSession (before after : Conn) : Prop where
  state : after.state = before.state
  connIDIn : after.connIDIn = before.connIDIn
  connIDOut : after.connIDOut = before.connIDOut
  msgPending : after.msgPending = before.msgPending
  frameToSend : after.frameToSend = before.frameToSend
  frameExpected : after.frameExpected = before.frameExpected
  live : after.live.map (fun mp => mp.packet.withoutAck) =
    before.live.map (fun mp => mp.packet.withoutAck)

theorem Open.congr {before after : Conn} {trace : List Event}
    (holds : session.Open before trace) (same : SameSession before after) :
    session.Open after trace := by
  constructor
  · rw [same.state]
    exact holds.active
  · rw [same.connIDIn]
    exact holds.connIDIn
  · rw [same.connIDOut]
    exact holds.connIDOut
  · rw [same.msgPending]
    exact holds.msgPending
  · rw [same.frameToSend]
    exact holds.frameToSend
  · rw [same.frameExpected]
    exact holds.frameExpected
  · exact holds.sizes
  · rw [same.live]
    exact holds.pending
  · exact holds.delivered
  · exact holds.submitted
  · exact holds.flights

theorem Open.length {conn : Conn} {trace : List Event}
    (holds : session.Open conn trace) :
    ∃ released unreleased, session.acceptedBy trace = released ++ unreleased ∧
        released.length ≤ session.peerReturned ∧
        unreleased.length = conn.live.length ∧
        conn.live.map (fun mp => mp.packet.withoutAck) = framesFrom session.connIDOut
            (session.base + BitVec.ofNat 32 released.length)
              unreleased := by
  rcases holds.pending with ⟨released, unreleased, split, behind, live⟩
  refine ⟨released, unreleased, split, behind, ?_, live⟩
  have lengths := congrArg List.length live
  rw [length_map, length_framesFrom] at lengths
  exact lengths.symm

theorem live_length_le (bounded : Bounded rdp) (node : Nat) :
    (rdp.conntable node).live.length ≤ maxWindowSize :=
  (length_filter_le _ _).trans (bounded.length_le node)

/-- Whatever an open connection sends belongs to the session. -/
theorem Open.carried (bounded : Bounded rdp)
    (holds : session.Open (rdp.conntable session.peer) rdp.trace)
    (sendable : Sendable (rdp.conntable session.peer) packet) :
    session.Carried maxWindowSize rdp.trace packet (session.acceptedBy rdp.trace).length := by
  have acked : ∃ acked, session.returned.length ≤ acked ∧
      acked ≤ (session.returnedBy rdp.trace).length ∧
      (rdp.conntable session.peer).frameExpected - 1 =
        session.peerBase + BitVec.ofNat 32 acked - 1 := by
    refine ⟨(session.returnedBy rdp.trace).length, ?_, le_refl _, ?_⟩
    · simp [returnedBy]
    · rw [holds.frameExpected]
  cases sendable with
  | syn syn data => exact absurd (syn.symm.trans holds.active) ConnState.noConfusion
  | synack syn => exact absurd (syn.symm.trans holds.active) ConnState.noConfusion
  | control plain =>
    constructor
    · exact holds.connIDOut
    · exact .inr plain
    · intro data
      simp only [Conn.control] at data
      rcases plain with ack | nack
      · exact absurd (ack.symm.trans data) PktType.noConfusion
      · exact absurd (nack.symm.trans data) PktType.noConfusion
    · exact acked
  | @data msg pending live ackno =>
    rcases holds.length with
      ⟨released, unreleased, split, behind, lengths, frames⟩
    have window := live_length_le bounded session.peer
    have member : msg.packet.withoutAck ∈ framesFrom session.connIDOut
          (session.base + BitVec.ofNat 32 released.length) unreleased := by
      rw [← frames]
      apply mem_map_of_mem
      simp [Conn.live, pending, live]
    rcases mem_framesFrom member with ⟨index, payload, found, equality⟩
    have header := congrArg Packet.header equality
    have data := congrArg Packet.data equality
    simp only [Packet.withoutAck, MsgBuf.packet] at header data
    have located : (session.acceptedBy rdp.trace)[released.length + index]? = some payload := by
      rw [split, getElem?_append_right (Nat.le_add_right _ _), Nat.add_sub_cancel_left]
      exact found
    constructor
    · exact congrArg Header.connid header
    · exact .inl (congrArg Header.type header)
    · intro _
      refine ⟨released.length + index, payload, located, ?_, data,
        congrArg Header.len header, ?_, ?_⟩
      · have seqno := congrArg Header.seqno header
        simp only at seqno
        rw [MsgBuf.packet, seqno, BitVec.ofNat_add, BitVec.add_assoc]
      · exact holds.sizes payload (mem_of_getElem? located)
      · rw [split, length_append]
        omega
    · rw [MsgBuf.packet, ackno]
      exact acked

end Steps

section Rules

variable {session : Session}

theorem Holds.congr {phase : Phase} {before after : Station}
    (holds : session.Holds phase before)
    (conntable : after.conntable = before.conntable)
    (trace : after.trace = before.trace) : session.Holds phase after := by
  rcases holds with ⟨bounded, still⟩
  constructor
  · intro node
    rw [conntable]
    exact bounded node
  · rw [conntable, trace]
    exact still

section

variable {phase : Phase} {rdp : Station} (holds : session.Holds phase rdp)
  (node : Nat) {change : Conn → Conn}

include holds node

theorem Holds.modify (bounded : Bounded (rdp.modify node change))
    (same : node = session.peer → session.peer ∉ phase.clearing →
      session.Open (rdp.conntable session.peer) rdp.trace → .closing session.peer ∉ rdp.trace →
          session.Open (change (rdp.conntable session.peer)) rdp.trace) :
    session.Holds phase (rdp.modify node change) := by
  refine ⟨bounded, ?_⟩
  by_cases closing : .closing session.peer ∈ rdp.trace
  · exact .inl closing
  · rcases holds.2 with closing' | ⟨outside, opened⟩
    · exact absurd closing' closing
    · refine .inr ⟨outside, ?_⟩
      rw [modify_trace]
      by_cases peer : node = session.peer
      · rw [peer, modify_self]
        exact same peer outside opened closing
      · rw [modify_other (Ne.symm peer)]
        exact opened

theorem Holds.modify_same (window : (change (rdp.conntable node)).window =
      (rdp.conntable node).window)
    (length : (change (rdp.conntable node)).pendList.length = (rdp.conntable node).pendList.length)
    (same : SameSession (rdp.conntable node) (change (rdp.conntable node))) :
    session.Holds phase (rdp.modify node change) := by
  apply holds.modify node (bounded_modify holds.1 window length)
  intro peer _ opened _
  rw [peer] at same
  exact opened.congr same

end

section

variable {phase : Phase} {rdp : Station} (holds : session.Holds phase rdp)
  {event : Event} (unqueued : event.queuedTo session.peer = none)
  (unreceived : event.receivedFrom session.peer = none)

include holds unqueued unreceived

theorem Holds.log (submitted : ∀ packet, event = .submit session.peer packet →
      session.Open (rdp.conntable session.peer) rdp.trace →
        session.Carried maxWindowSize rdp.trace packet (session.acceptedBy rdp.trace).length)
    (sent : ∀ packet, event.sentTo session.peer = some packet → .closing session.peer ∉ rdp.trace →
        session.Carried (2 * maxWindowSize) rdp.trace packet
          (session.acceptedBy rdp.trace).length) :
    session.Holds phase (rdp.log event) := by
  rcases holds with ⟨bounded, still⟩
  refine ⟨bounded, ?_⟩
  by_cases closing : .closing session.peer ∈ rdp.trace
  · exact .inl (mem_append_left _ closing)
  · rcases still with closing' | ⟨outside, opened⟩
    · exact absurd closing' closing
    · exact .inr ⟨outside, opened.log unqueued unreceived
        (fun packet same => submitted packet same opened)
        (fun packet same => sent packet same closing)⟩

/-- Events that say nothing about the messages of the session. -/
theorem Holds.log_other (unsent : event.sentTo session.peer = none)
    (unsubmitted : ∀ packet, event ≠ .submit session.peer packet) :
    session.Holds phase (rdp.log event) := by
  apply holds.log unqueued unreceived
  · exact fun packet same => absurd same (unsubmitted packet)
  · intro packet same
    rw [unsent] at same
    cases same

end

theorem Open.queue (opened : session.Open (rdp.conntable session.peer) rdp.trace) (id : Nat)
    {buf : List UInt8} (size : buf.length ≤ maxDataSize) :
    session.Open ((rdp.conntable session.peer).queue
      ((rdp.conntable session.peer).newMsg id buf))
      (rdp.trace ++ [.queued session.peer
        ((rdp.conntable session.peer).newMsg id buf).packet]) := by
  have accepted : session.acceptedBy (rdp.trace ++ [.queued session.peer
      ((rdp.conntable session.peer).newMsg id buf).packet]) =
        session.acceptedBy rdp.trace ++ [buf] := by
    simp [acceptedBy, Event.queuedTo, Conn.newMsg, MsgBuf.packet]
  have returned := @returnedBy_log session rdp.trace (.queued session.peer
    ((rdp.conntable session.peer).newMsg id buf).packet) rfl
  have grown : rdp.trace <+: rdp.trace ++ [.queued session.peer
      ((rdp.conntable session.peer).newMsg id buf).packet] :=
    prefix_append _ _
  have live := (rdp.conntable session.peer).live_queue
    (rfl : ((rdp.conntable session.peer).newMsg id buf).deleted = false)
  have conn : (rdp.conntable session.peer).queue ((rdp.conntable session.peer).newMsg id buf) =
        { rdp.conntable session.peer with
          pendList := (rdp.conntable session.peer).pendList ++
            [(rdp.conntable session.peer).newMsg id buf]
          ackPending := 0
          window := (rdp.conntable session.peer).window - 1
          frameToSend := (rdp.conntable session.peer).frameToSend + 1 } := by
    simp only [Conn.queue, Conn.count, opened.active]
  constructor
  · rw [conn]
    exact opened.active
  · rw [conn]
    exact opened.connIDIn
  · rw [conn]
    exact opened.connIDOut
  · rw [conn]
    exact opened.msgPending
  · rw [conn, accepted, length_append, length_singleton, BitVec.ofNat_add, opened.frameToSend]
    exact BitVec.add_assoc _ _ _
  · rw [conn, returned]
    exact opened.frameExpected
  · rw [accepted]
    exact Snoc.forall_mem opened.sizes size
  · rcases opened.pending with ⟨released, unreleased, split, behind, frames⟩
    refine ⟨released, unreleased ++ [buf], ?_, behind, ?_⟩
    · rw [accepted, split, append_assoc]
    · rw [live, map_append, frames, framesFrom_append]
      congr 1
      have seqno : (rdp.conntable session.peer).frameToSend =
          session.base + BitVec.ofNat 32 released.length + BitVec.ofNat 32 unreleased.length := by
        rw [opened.frameToSend, split, length_append, BitVec.ofNat_add, BitVec.add_assoc]
      simp [Conn.newMsg, MsgBuf.packet, Packet.withoutAck, framesFrom,
        opened.msgPending, opened.connIDOut, seqno]
  · rw [returned]
    exact opened.delivered
  · intro packet last
    rw [getLast?_concat, Option.some.injEq] at last
    cases last
  · intro flight member
    rw [flightsOf_append] at member
    rcases mem_append.mp member with earlier | last
    · exact (opened.flights flight earlier).later grown (le_refl _)
    · simp [flightsOf, Event.sentTo] at last

theorem sendRules_holds {cb : RdpCallback} (extending : Extending cb)
    (notify : ∀ phase rdp info, session.Holds phase rdp →
      session.Holds phase (notify cb info rdp)) :
    SendRules cb (fun _ _ => True) (fun _ _ => True) session.Holds where
  bounded := fun _ _ holds => holds.1
  extending := extending
  notify := notify
  tick := fun _ _ holds => holds.congr rfl rfl
  nextSend := fun _ _ holds => holds.congr rfl rfl
  errors := fun _ _ _ _ _ _ _ _ _ => trivial
  submit := by
    intro phase rdp node packet holds sendable
    apply holds.log rfl rfl
    · intro other same opened
      cases same
      exact opened.carried holds.1 sendable
    · intro _ same
      cases same
  sent := by
    intro phase submitted rdp node packet before last extended holds
    apply holds.log rfl rfl
    · exact fun _ same => absurd same Event.noConfusion
    · intro other same open'
      have peer : node = session.peer ∧ packet = other := by
        by_cases peer : node = session.peer
        · simpa [Event.sentTo, peer] using same
        · simp [Event.sentTo, peer] at same
      rcases peer with ⟨rfl, rfl⟩
      rcases before.2 with closing | ⟨_, opened⟩
      · exact absurd (extended.trace.subset closing) open'
      · apply (opened.submitted packet last).later extended.trace
        have slots := extended.slots session.peer
        have window := before.1 session.peer
        have window' := holds.1 session.peer
        have accepted := session.length_acceptedBy submitted.trace
        have accepted' := session.length_acceptedBy rdp.trace
        simp only [maxWindowSize] at window window' ⊢
        omega
  startClosing := by
    intro phase rdp node holds _
    by_cases peer : node = session.peer
    · exact ⟨holds.1, .inl (by simp [Station.log, peer])⟩
    · have logged := @Holds.log_other session phase rdp holds (.closing node)
        rfl rfl rfl (fun _ => Event.noConfusion)
      refine ⟨logged.1, logged.2.imp_right ?_⟩
      rintro ⟨outside, opened⟩
      refine ⟨?_, opened⟩
      intro member
      exact (mem_cons.mp member).elim (fun same => peer same.symm) outside
  markDeleted := by
    intro phase rdp node index holds clearing _
    have marked := @Holds.modify session phase rdp holds node (Conn.markDeleted index)
      (bounded_modify holds.1 rfl (length_modify _ _ _))
      (fun peer outside => absurd (peer ▸ clearing) outside)
    exact marked.congr rfl rfl
  finishClosing := by
    intro phase rdp node holds _
    have finished := @Holds.modify session (phase.clear node) rdp holds node
      (Conn.closeWith (rdp.randoms rdp.draws)) (bounded_modify holds.1 rfl rfl)
      (fun peer outside => absurd (peer ▸ mem_cons_self) outside)
    refine ⟨finished.1, finished.2.imp_right ?_⟩
    rintro ⟨outside, opened⟩
    exact ⟨fun member => outside (mem_cons_of_mem _ member), opened⟩
  clearAckPending := fun _ _ node holds =>
    holds.modify_same node rfl rfl ⟨rfl, rfl, rfl, rfl, rfl, rfl, rfl⟩
  closedTimer := fun _ _ node _ holds =>
    holds.modify_same node rfl rfl ⟨rfl, rfl, rfl, rfl, rfl, rfl, rfl⟩
  timer := fun _ _ node _ _ holds =>
    holds.modify_same node rfl rfl ⟨rfl, rfl, rfl, rfl, rfl, rfl, rfl⟩
  enqueue := by
    intro phase rdp node buf id rest small mallocs holds _ _ window size _ _
    have bounded := bounded_queue holds.1 window ((rdp.conntable node).newMsg id buf)
    refine ⟨bounded, ?_⟩
    rcases holds.2 with closing | ⟨outside, opened⟩
    · exact .inl (mem_append_left _ closing)
    · refine .inr ⟨outside, ?_⟩
      by_cases peer : node = session.peer
      · subst peer
        have queued := opened.queue id size
        have conn := modify_self rdp session.peer (fun conn =>
          conn.queue ((rdp.conntable session.peer).newMsg id buf))
        rw [← conn] at queued
        exact queued
      · have conn := modify_other (Ne.symm peer) rdp (fun conn =>
          conn.queue ((rdp.conntable node).newMsg id buf))
        rw [← conn] at opened
        apply opened.log
        · simp [Event.queuedTo, peer]
        · rfl
        · exact fun _ same => absurd same Event.noConfusion
        · intro _ same
          cases same
  leak := fun _ _ _ _ _ _ _ holds _ _ => holds.congr rfl rfl

theorem sendRules_holds_callbackAt (depth : Nat) :
    SendRules (callbackAt depth) (fun _ _ => True) (fun _ _ => True) session.Holds := by
  apply SendRules.callbackAt
  · exact fun cb => sendRules_holds
  · exact fun _ _ _ holds => holds.log_other rfl rfl rfl (fun _ => Event.noConfusion)
  · exact fun _ _ holds => holds.congr rfl rfl
  · exact fun _ _ _ _ _ _ _ => trivial

theorem SameSession.refreshAck (conn : Conn) (index : Nat) :
    SameSession conn (conn.refreshAck index) := by
  refine ⟨rfl, rfl, rfl, rfl, rfl, rfl, ?_⟩
  apply filter_map_modify
  exact fun mp => ⟨rfl, rfl⟩

theorem localRules_holds (depth : Nat) :
    LocalRules (callbackAt depth) (fun _ _ => True) (fun _ _ => True) session.Holds where
  toSendRules := sendRules_holds_callbackAt depth
  closable_idle := fun _ => trivial
  refreshAck := fun _ _ node index holds =>
    holds.modify_same node rfl (length_modify _ _ _) (SameSession.refreshAck _ index)
  release := by
    intro rdp node msg holds pending deleted
    have bounded : Bounded (rdp.modify node (Conn.drop msg)) := by
      intro other
      rw [← release_conntable]
      exact holds.1.release pending other
    have dropped := holds.modify node bounded (by
      intro peer _ opened _
      apply opened.congr
      refine ⟨rfl, rfl, rfl, rfl, rfl, rfl, ?_⟩
      rw [Conn.live_drop _ deleted])
    exact dropped.congr (release_conntable node msg rdp) rfl
  cleanupDone := fun _ holds => holds.congr rfl rfl
  address := fun _ node _ holds =>
    holds.modify_same node rfl rfl ⟨rfl, rfl, rfl, rfl, rfl, rfl, rfl⟩

/-- A packet of the peer arriving while it is not too old. -/
structure Arrives (session : Session) (packet : Packet) : Prop where
  type : packet.header.type = .data ∨ packet.header.type = .ack ∨ packet.header.type = .nack
  data : packet.header.type = .data → ∃ index payload,
    session.peerAccepted[index]? = some payload ∧ packet.header.seqno = session.peerBase +
      BitVec.ofNat 32 index ∧ packet.data = payload ∧ packet.header.len = payload.length ∧
      payload.length ≤ maxDataSize ∧ session.peerAccepted.length < index + 2 ^ 31
  ackno : ∃ acked, acked ≤ session.peerReturned ∧ packet.header.ackno = session.base + BitVec.ofNat
    32 acked - 1 ∧ session.accepted.length + maxWindowSize < acked + 2 ^ 31
  ahead : session.peerAccepted.length ≤ session.returned.length + maxWindowSize

/-- Sequence numbers less than half the space apart compare like the frames
they number. -/
theorem lt_of_rseqcmp_le {base : SeqNo} {index acked : Nat}
    (covered : rseqcmp (base + BitVec.ofNat 32 index) (base + BitVec.ofNat 32 acked - 1) ≤ 0)
    (near : index < acked + 2 ^ 31 - 1) : index < acked := by
  by_contra beyond
  rw [Nat.not_lt] at beyond
  have difference : base + BitVec.ofNat 32 index -
      (base + BitVec.ofNat 32 acked - 1) = BitVec.ofNat 32 (index - acked + 1) := by
    have split : BitVec.ofNat 32 index =
        BitVec.ofNat 32 (index - acked) + BitVec.ofNat 32 acked := by
      rw [← BitVec.ofNat_add, Nat.sub_add_cancel beyond]
    rw [split, BitVec.ofNat_add]
    bv_omega
  have value : (BitVec.ofNat 32 (index - acked + 1)).toNat = index - acked + 1 := by
    rw [BitVec.toNat_ofNat, Nat.mod_eq_of_lt]
    omega
  rw [rseqcmp, difference, BitVec.toInt_eq_toNat_of_lt (by omega), value]
    at covered
  omega

theorem Open.acknowledge {conn : Conn} {trace : List Event}
    (opened : session.Open conn trace) (arrives : session.Arrives packet)
    (recent : (session.acceptedBy trace).length ≤
      session.accepted.length + maxWindowSize) {mp : MsgBuf}
    {rest : List MsgBuf} (pending : conn.pendList = mp :: rest)
    (live : mp.deleted = false)
    (covered : rseqcmp mp.header.seqno packet.header.ackno ≤ 0) :
    session.Open (conn.acknowledge mp) trace := by
  have head := Conn.live_acknowledge pending live
  rcases opened.pending with ⟨released, unreleased, split, behind, frames⟩
  rw [head, map_cons] at frames
  cases unreleased with
  | nil => exact absurd frames (cons_ne_nil _ _)
  | cons payload unreleased =>
    rw [framesFrom, List.cons.injEq] at frames
    have seqno : mp.header.seqno = session.base + BitVec.ofNat 32 released.length :=
      congrArg (fun packet => packet.header.seqno) frames.1
    rcases arrives.ackno with ⟨acked, most, ackno, near⟩
    rw [seqno, ackno] at covered
    have length := congrArg List.length split
    rw [length_append, length_cons] at length
    have returned := lt_of_rseqcmp_le covered (by omega)
    constructor
    · exact opened.active
    · exact opened.connIDIn
    · exact opened.connIDOut
    · exact opened.msgPending
    · exact opened.frameToSend
    · exact opened.frameExpected
    · exact opened.sizes
    · refine ⟨released ++ [payload], unreleased, ?_, ?_, ?_⟩
      · rw [split, append_assoc]
        rfl
      · rw [length_append, length_singleton]
        omega
      · rw [frames.2, length_append, length_singleton, BitVec.ofNat_add, BitVec.add_assoc]
        rfl
    · exact opened.delivered
    · exact opened.submitted
    · exact opened.flights

theorem Open.take (opened : session.Open (rdp.conntable session.peer) rdp.trace)
    (arrives : session.Arrives packet) (data : packet.header.type = .data)
    (expected : (rdp.conntable session.peer).frameExpected = packet.header.seqno) :
    session.Open ((countFrame packet maxDataSize session.peer rdp).conntable session.peer)
      (countFrame packet maxDataSize session.peer rdp).trace := by
  rcases arrives.data data with
    ⟨index, payload, found, seqno, same, len, size, near⟩
  have inside := (List.getElem?_eq_some_iff.mp found).1
  have behind := opened.delivered.length_le
  have ahead := arrives.ahead
  have returned : session.returned.length ≤ (session.returnedBy rdp.trace).length := by
    simp [returnedBy]
  have next : index = (session.returnedBy rdp.trace).length := by
    rw [opened.frameExpected, seqno] at expected
    have numbers := congrArg BitVec.toNat ((BitVec.add_right_inj _).mp expected)
    rw [BitVec.toNat_ofNat, BitVec.toNat_ofNat] at numbers
    simp only [maxWindowSize] at ahead
    omega
  have fits : ¬maxDataSize < packet.header.len := by omega
  have returned : session.returnedBy (rdp.trace ++
      [.received session.peer { packet with data := packet.data.take packet.header.len }]) =
      session.returnedBy rdp.trace ++ [payload] := by
    simp [returnedBy, Event.receivedFrom, same, len]
  have accepted := @acceptedBy_log session rdp.trace
    (.received session.peer { packet with data := packet.data.take packet.header.len }) rfl
  have grown : rdp.trace <+: rdp.trace ++
      [.received session.peer { packet with data := packet.data.take packet.header.len }] :=
    prefix_append _ _
  rw [countFrame]
  simp only [if_neg fits, Station.log, modify_self, modify_trace]
  constructor
  · exact opened.active
  · exact opened.connIDIn
  · exact opened.connIDOut
  · exact opened.msgPending
  · rw [accepted]
    exact opened.frameToSend
  · rw [returned, length_append, length_singleton, BitVec.ofNat_add, opened.frameExpected]
    exact BitVec.add_assoc _ _ _
  · rw [accepted]
    exact opened.sizes
  · rw [accepted]
    exact opened.pending
  · rw [returned]
    rcases opened.delivered with ⟨rest, split⟩
    rw [next, ← split] at found
    cases rest with
    | nil => simp at found
    | cons other rest =>
      simp only [getElem?_append_right (le_refl _), Nat.sub_self,
        getElem?_cons_zero, Option.some.injEq] at found
      refine ⟨rest, ?_⟩
      rw [← split, found, append_assoc]
      rfl
  · intro other last
    rw [getLast?_concat, Option.some.injEq] at last
    cases last
  · intro flight member
    rw [flightsOf_append] at member
    rcases mem_append.mp member with earlier | last
    · exact (opened.flights flight earlier).later grown (le_refl _)
    · simp [flightsOf, Event.sentTo] at last

/-- A state in which an open connection is left alone. -/
theorem Holds.unless_active {phase : Phase} (holds : session.Holds phase rdp)
    (node : Nat) {change : Conn → Conn}
    (window : (change (rdp.conntable node)).window = (rdp.conntable node).window)
    (length : (change (rdp.conntable node)).pendList.length = (rdp.conntable node).pendList.length)
    (inactive : (rdp.conntable node).state ≠ .active) :
    session.Holds phase (rdp.modify node change) := by
  apply holds.modify node (bounded_modify holds.1 window length)
  intro peer _ opened _
  rw [peer] at inactive
  exact absurd opened.active inactive

theorem Holds.flushPending {phase : Phase} (holds : session.Holds phase rdp)
    (node : Nat) : session.Holds phase (flushPending node rdp) := by
  refine @Holds.modify session phase rdp holds node Conn.flush (bounded_modify holds.1 rfl rfl) ?_
  intro peer _ opened _
  apply opened.congr
  refine ⟨rfl, rfl, rfl, opened.msgPending.symm, ?_, rfl, rfl⟩
  simp [Conn.flush, opened.msgPending]

theorem not_active_of_activates {state : ConnState} {type : PktType}
    (activates : Activates state type) : state ≠ .active := by
  rcases activates with ⟨syn, _⟩ | ⟨syn, _⟩
  · rw [syn]
    exact ConnState.noConfusion
  · rw [syn]
    exact ConnState.noConfusion

theorem bounded_countFrame (bounded : Bounded rdp) (packet : Packet)
    (len node : Nat) : Bounded (countFrame packet len node rdp) := by
  have counted := @bounded_modify rdp bounded node
    (fun conn => { conn with
      frameExpected := conn.frameExpected + 1
      ackPending := conn.ackPending + 1 }) rfl rfl
  rw [countFrame]
  split
  · exact counted
  · exact counted

theorem trace_countFrame (packet : Packet) (len node : Nat) (rdp : Station) :
    rdp.trace <+: (countFrame packet len node rdp).trace := by
  rw [countFrame]
  split
  · exact prefix_refl _
  · exact prefix_append _ _

/-- The ACK loop runs before many messages could be accepted. -/
def Recent (session : Session) (rdp : Station) : Prop :=
  .closing session.peer ∈ rdp.trace ∨
    (session.acceptedBy rdp.trace).length ≤ session.accepted.length + maxWindowSize

theorem packetRules_holds (depth : Nat) {start : Station} {node : Nat} (bounded : Bounded start)
    (silent : start.trace = []) (arrives : node = session.peer → session.Arrives packet) :
    PacketRules (callbackAt depth) (fun _ _ => True) (fun _ _ => True)
      session.Holds session.Holds session.Recent start node packet where
  toLocalRules := localRules_holds depth
  takenRules := sendRules_holds_callbackAt depth
  settle := fun _ holds => holds
  synRecvd := fun _ holds _ inactive _ => holds.unless_active node rfl rfl inactive
  synSent := fun _ holds _ inactive _ _ _ => holds.unless_active node rfl rfl inactive
  enterSynSent := by
    intro holds states
    apply holds.unless_active node rfl rfl
    rcases states with state | state
    · simp [state]
    · simp [state]
  activate := by
    intro holds activates _
    exact holds.unless_active node (Conn.activate_counters _ _).1
      (Conn.length_activate _ _) (not_active_of_activates activates)
  activatePending := by
    intro holds activates _
    refine ⟨.idle, ?_, fun _ => trivial,
      fun _ survived => survived.flushPending node⟩
    exact holds.unless_active node (Conn.activate_counters _ _).1
      (Conn.length_activate _ _) (not_active_of_activates activates)
  answered := by
    intro rdp answered extended _ _ _
    apply Or.inr
    have slots := extended.slots session.peer
    have window := bounded session.peer
    have window' := answered.1 session.peer
    rw [silent, filterMap_nil, length_nil] at slots
    rw [length_acceptedBy]
    simp only [maxWindowSize] at window window' ⊢
    omega
  skipped := fun _ _ _ _ recent _ _ => recent
  acknowledged := by
    intro rdp mp rest holds recent pending live covered
    refine ⟨?_, recent⟩
    have bounded : Bounded (rdp.modify node (Conn.acknowledge mp)) := by
      intro other
      rw [← acknowledged_conntable]
      exact bounded_modify (holds.1.release (by simp [pending])) rfl rfl other
    have acknowledged := holds.modify node bounded (by
      intro peer _ opened open'
      subst peer
      rcases recent with closing | recent
      · exact absurd closing open'
      · exact opened.acknowledge (arrives rfl) recent pending live covered)
    exact acknowledged.congr (acknowledged_conntable node mp rdp) rfl
  take := by
    intro rdp holds data _ _ expected
    refine ⟨bounded_countFrame holds.1 _ _ _, ?_⟩
    rcases holds.2 with closing | ⟨outside, opened⟩
    · exact .inl ((trace_countFrame _ _ _ _).subset closing)
    · refine .inr ⟨outside, ?_⟩
      by_cases peer : node = session.peer
      · subst peer
        exact opened.take (arrives rfl) data expected
      · rw [countFrame]
        split
        · rw [modify_other (Ne.symm peer)]
          exact opened
        · have conn := modify_other (Ne.symm peer) rdp
            (fun conn => { conn with
              frameExpected := conn.frameExpected + 1
              ackPending := conn.ackPending + 1 })
          rw [← conn] at opened
          apply opened.log
          · rfl
          · simp [Event.receivedFrom, peer]
          · exact fun _ same => absurd same Event.noConfusion
          · intro _ same
            cases same

/-- Whatever an endpoint does, an open session stays consistent. -/
theorem Holds.perform (depth : Nat) (holds : session.Holds .idle rdp)
    (silent : rdp.trace = []) (call : Call)
    (arrives : ∀ packet, call = .handleRDP session.peer packet → session.Arrives packet) :
    session.Holds .idle (perform (callbackAt depth) call rdp) := by
  have rules := @localRules_holds session depth
  cases call with
  | rsendto node buf => exact rules.rsendto holds trivial
  | handleRDP node packet =>
    have delivers : node = session.peer → session.Arrives packet := by
      rintro rfl
      exact arrives packet rfl
    apply handleRDP_rules rules.toSendRules (fun _ settled => settled) _ holds
    rintro begun (⟨_, rfl⟩ | ⟨_, rfl⟩)
    · exact ⟨_, packetRules_holds depth holds.1 silent delivers⟩
    · refine ⟨_, packetRules_holds depth ?_ silent delivers⟩
      exact @bounded_modify rdp.tick holds.1 node (fun conn => { conn with closed := 0 }) rfl rfl
  | handleTimeoutRDP => exact rules.handleTimeoutRDP holds
  | closeConnRDP node => exact rules.closeConnRDP node holds
  | rdpUpdateNode node addr => exact rules.rdpUpdateNode node addr holds

end Rules

end Session

end Psmgmt.Rdp
