import Psmgmt.Rdp.Delivery

/-!
# Two endpoints of one connection

Two stations with an established connection and a network that may lose,
duplicate and reorder what they send.  As long as neither side closes the
connection, each side returns a prefix of what the other side has accepted.
-/

namespace Psmgmt.Rdp

open List Function

/-- A packet on its way, with the number of messages each side had accepted
when it was sent. -/
structure Flight where
  sender : Bool
  packet : Packet
  sent : Bool → Nat

/-- Both stations and the history of their connection.  A message is accepted
when `Rsendto()` puts it to the pending list, even if sending it fails. -/
structure Link where
  station : Bool → Station
  accepted : Bool → List (List UInt8)
  returned : Bool → List (List UInt8)
  flights : List Flight
  closed : Bool

variable {link before after : Link} {base ids : Bool → SeqNo} {side : Bool}
  {call : Call}

namespace Link

variable (node : Bool → Nat)

/-- The connection of one side to the other. -/
def conn (link : Link) (side : Bool) : Conn := (link.station side).conntable (node (!side))

/-- One side runs a function of the module. -/
def act (depth : Nat) (side : Bool) (call : Call) (sends : List (List SendError))
    (requests : List (List Request)) (link : Link) : Link :=
  let after := perform (callbackAt depth) call ((link.station side).scripted sends requests)
  let peer := node (!side)
  { station := update link.station side after
    accepted := update link.accepted side (link.accepted side ++
      (after.trace.filterMap (Event.queuedTo peer)).map Packet.data)
    returned := update link.returned side (link.returned side ++
      (after.trace.filterMap (Event.receivedFrom peer)).map Packet.data)
    flights := link.flights ++ (flightsOf peer (link.accepted side).length after.trace).map
        (fun flight =>
          { sender := side, packet := flight.1
            sent := update (fun other => (link.accepted other).length) side flight.2 })
    closed := link.closed || decide (.closing peer ∈ after.trace) }

/-- A packet received from the peer is one the peer has sent, and fewer than
`2 ^ 31 - 64` newer frames have been sent meanwhile. -/
def Delivers (link : Link) (side : Bool) (call : Call) : Prop :=
  ∀ packet, call = .handleRDP (node (!side)) packet →
    ∃ flight ∈ link.flights, flight.sender = !side ∧ flight.packet = packet ∧ ∀ other,
      (link.accepted other).length < flight.sent other + (2 ^ 31 - 64)

/-- Two endpoints in ACTIVE that agree on connection IDs and frame numbers.
The messages pending count as accepted. -/
structure Established (link : Link) : Prop where
  bounded : ∀ side, Bounded (link.station side)
  active : ∀ side, (link.conn node side).state = .active
  connIDs : ∀ side, (link.conn node side).connIDIn = (link.conn node (!side)).connIDOut
  frameExpected : ∀ side, (link.conn node side).frameExpected = (link.conn node (!side)).ackExpected
  msgPending : ∀ side, (link.conn node side).msgPending = 0
  frameToSend : ∀ side, (link.conn node side).frameToSend =
    (link.conn node side).ackExpected + BitVec.ofNat 32 (link.accepted side).length
  pending : ∀ side, (link.conn node side).live.map (fun mp => mp.packet.withoutAck) =
    framesFrom (link.conn node side).connIDOut
      (link.conn node side).ackExpected (link.accepted side)
  sizes : ∀ side, ∀ payload ∈ link.accepted side, payload.length ≤ maxDataSize
  returned : ∀ side, link.returned side = []
  flights : link.flights = []
  closed : link.closed = false

/-- The runs of two stations with an established connection. -/
def system (depth : Nat) : TransitionSystem Link where
  initial := Established node
  step before after := ∃ side call sends requests,
    before.Delivers node side call ∧ after = before.act node depth side call sends requests

/-- What one side knows of the connection. -/
def session (base ids : Bool → SeqNo) (link : Link) (side : Bool) : Session :=
  { peer := node (!side)
    connIDIn := ids (!side)
    connIDOut := ids side
    base := base side
    peerBase := base (!side)
    accepted := link.accepted side
    returned := link.returned side
    peerAccepted := link.accepted (!side)
    peerReturned := (link.returned (!side)).length }

/-- A packet on its way carries an accepted message and acknowledges messages
that were returned; it was not much behind when it was sent. -/
structure Valid (base : Bool → SeqNo) (link : Link) (flight : Flight) :
    Prop where
  type : flight.packet.header.type = .data ∨
    flight.packet.header.type = .ack ∨ flight.packet.header.type = .nack
  data : flight.packet.header.type = .data → ∃ index payload,
    (link.accepted flight.sender)[index]? = some payload ∧ flight.packet.header.seqno = base
      flight.sender + BitVec.ofNat 32 index ∧ flight.packet.data = payload ∧
      flight.packet.header.len = payload.length ∧ payload.length ≤ maxDataSize ∧ flight.sent
      flight.sender ≤ index + 2 * maxWindowSize
  ackno : ∃ acked, acked ≤ (link.returned flight.sender).length ∧
    flight.packet.header.ackno = base (!flight.sender) + BitVec.ofNat 32 acked - 1 ∧
    flight.sent (!flight.sender) ≤ acked + maxWindowSize

structure Consistent (base ids : Bool → SeqNo) (link : Link) : Prop where
  bounded : ∀ side, Bounded (link.station side)
  opened : ∀ side, (link.session node base ids side).Open (link.conn node side) []
  flights : ∀ flight ∈ link.flights, Valid base link flight

variable {node}

attribute [local simp] Link.act Session.returnedBy Session.acceptedBy

attribute [local simp] session

theorem Established.consistent (established : link.Established node) :
    ∃ base ids, link.Consistent node base ids := by
  refine ⟨fun side => (link.conn node side).ackExpected,
    fun side => (link.conn node side).connIDOut, established.bounded, ?_, ?_⟩
  · intro side
    constructor
    · exact established.active side
    · exact established.connIDs side
    · rfl
    · exact established.msgPending side
    · simpa using established.frameToSend side
    · simpa [established.returned side] using established.frameExpected side
    · simpa using established.sizes side
    · refine ⟨[], link.accepted side, ?_, Nat.zero_le _, ?_⟩
      · simp
      · simpa using established.pending side
    · simp [established.returned side]
    · exact fun packet last => by cases last
    · exact fun flight member => absurd member not_mem_nil
  · intro flight member
    rw [established.flights] at member
    exact absurd member not_mem_nil

theorem Consistent.behind (consistent : link.Consistent node base ids)
    (side : Bool) :
    (link.accepted side).length ≤ (link.returned (!side)).length + maxWindowSize := by
  rcases (consistent.opened side).length with
    ⟨released, unreleased, split, behind, lengths, _⟩
  have window := Session.live_length_le (consistent.bounded side) (node (!side))
  have length := congrArg List.length split
  simp only [session, Session.acceptedBy, filterMap_nil, map_nil,
    append_nil, length_append] at length behind
  simp only [conn] at lengths
  omega

theorem Consistent.arrives (consistent : link.Consistent node base ids)
    (delivers : link.Delivers node side call) {packet : Packet}
    (received : call = .handleRDP (node (!side)) packet) :
    (link.session node base ids side).Arrives packet := by
  rcases delivers packet received with ⟨flight, member, sender, rfl, recent⟩
  have valid := consistent.flights flight member
  have behind := consistent.behind (!side)
  constructor
  · exact valid.type
  · intro data
    rcases valid.data data with
      ⟨index, payload, found, seqno, same, len, size, old⟩
    have newer := recent (!side)
    rw [sender] at found seqno old
    refine ⟨index, payload, found, seqno, same, len, size, ?_⟩
    simp only [session, maxWindowSize] at old ⊢
    omega
  · rcases valid.ackno with ⟨acked, most, ackno, old⟩
    have newer := recent side
    rw [sender] at most ackno old
    rw [Bool.not_not] at ackno old
    refine ⟨acked, most, ackno, ?_⟩
    simp only [session, maxWindowSize] at old ⊢
    omega
  · simpa using behind

theorem Valid.later {flight : Flight} (valid : Valid base before flight)
    (accepted : ∀ side, before.accepted side <+: after.accepted side)
    (returned : ∀ side, before.returned side <+: after.returned side) :
    Valid base after flight := by
  constructor
  · exact valid.type
  · intro data
    rcases valid.data data with
      ⟨index, payload, found, seqno, same, len, size, old⟩
    exact ⟨index, payload,
      Session.getElem?_mono (accepted flight.sender) found, seqno, same,
      len, size, old⟩
  · rcases valid.ackno with ⟨acked, most, ackno, old⟩
    exact ⟨acked, most.trans (returned flight.sender).length_le, ackno, old⟩

theorem Consistent.other (opened : (before.session node base ids side).Open
      (before.conn node side) [])
    (conn : after.conn node side = before.conn node side)
    (accepted : after.accepted side = before.accepted side)
    (returned : after.returned side = before.returned side)
    (peerAccepted : before.accepted (!side) <+: after.accepted (!side))
    (peerReturned : before.returned (!side) <+: after.returned (!side)) :
    (after.session node base ids side).Open (after.conn node side) [] := by
  rw [conn]
  constructor
  · exact opened.active
  · exact opened.connIDIn
  · exact opened.connIDOut
  · exact opened.msgPending
  · have frameToSend := opened.frameToSend
    simp only [session, Session.acceptedBy] at frameToSend ⊢
    rw [accepted]
    exact frameToSend
  · have frameExpected := opened.frameExpected
    simp only [session, Session.returnedBy] at frameExpected ⊢
    rw [returned]
    exact frameExpected
  · have sizes := opened.sizes
    simp only [session, Session.acceptedBy] at sizes ⊢
    rw [accepted]
    exact sizes
  · rcases opened.pending with ⟨released, unreleased, split, behind, frames⟩
    refine ⟨released, unreleased, ?_, ?_, frames⟩
    · simp only [session, Session.acceptedBy] at split ⊢
      rw [accepted]
      exact split
    · exact behind.trans peerReturned.length_le
  · have delivered := opened.delivered
    simp only [session, Session.returnedBy] at delivered ⊢
    rw [returned]
    exact delivered.trans peerAccepted
  · exact fun packet last => by cases last
  · exact fun flight member => absurd member not_mem_nil

/-- The side that has taken a step, with its histories brought up to date. -/
theorem Consistent.stepped {conn : Conn} {trace : List Event}
    (opened : (before.session node base ids side).Open conn trace)
    (stepped : after.conn node side = conn) (accepted : after.accepted side =
      (before.session node base ids side).acceptedBy trace)
    (returned : after.returned side = (before.session node base ids side).returnedBy trace)
    (peerAccepted : after.accepted (!side) = before.accepted (!side))
    (peerReturned : after.returned (!side) = before.returned (!side)) :
    (after.session node base ids side).Open (after.conn node side) [] := by
  have acceptedBy : (after.session node base ids side).acceptedBy [] =
      (before.session node base ids side).acceptedBy trace := by
    simpa using accepted
  have returnedBy : (after.session node base ids side).returnedBy [] =
      (before.session node base ids side).returnedBy trace := by
    simpa using returned
  rw [stepped]
  constructor
  · exact opened.active
  · exact opened.connIDIn
  · exact opened.connIDOut
  · exact opened.msgPending
  · rw [acceptedBy]
    exact opened.frameToSend
  · rw [returnedBy]
    exact opened.frameExpected
  · rw [acceptedBy]
    exact opened.sizes
  · rw [acceptedBy]
    have pending := opened.pending
    simp only [session, peerReturned] at pending ⊢
    exact pending
  · rw [returnedBy]
    have delivered := opened.delivered
    simp only [session, peerAccepted] at delivered ⊢
    exact delivered
  · exact fun packet last => by cases last
  · exact fun flight member => absurd member not_mem_nil

theorem Consistent.act (consistent : link.Consistent node base ids)
    {depth : Nat} {sends : List (List SendError)}
    {requests : List (List Request)} (delivers : link.Delivers node side call)
    (opened : (link.act node depth side call sends requests).closed = false) :
    (link.act node depth side call sends requests).Consistent node base
      ids := by
  have holds : (link.session node base ids side).Holds .idle
      ((link.station side).scripted sends requests) :=
    ⟨consistent.bounded side, .inr ⟨not_mem_nil, consistent.opened side⟩⟩
  have performed := holds.perform depth rfl call
    (fun packet received => consistent.arrives delivers received)
  rcases performed with ⟨bounded, closing | ⟨_, stepped⟩⟩
  · simp only [Link.act, Bool.or_eq_false_iff, decide_eq_false_iff_not] at opened
    exact absurd closing opened.2
  · have grown : ∀ other, link.accepted other <+:
        (link.act node depth side call sends requests).accepted other := by
      intro other
      by_cases same : other = side
      · subst same
        simp
      · simp [same]
    have returned : ∀ other, link.returned other <+:
        (link.act node depth side call sends requests).returned other := by
      intro other
      by_cases same : other = side
      · subst same
        simp
      · simp [same]
    have different : (!side) ≠ side := Bool.not_ne_self side
    constructor
    · intro other
      by_cases same : other = side
      · subst same
        simpa using bounded
      · simpa [same] using consistent.bounded other
    · intro other
      by_cases same : other = side
      · subst same
        apply Consistent.stepped stepped
        · simp [conn]
        · simp
        · simp
        · simp [different]
        · simp [different]
      · apply Consistent.other (consistent.opened other)
        · simp [conn, same]
        · simp [same]
        · simp [same]
        · exact grown _
        · exact returned _
    · intro flight member
      simp only [Link.act] at member
      rcases mem_append.mp member with earlier | new
      · exact (consistent.flights flight earlier).later grown returned
      · rcases mem_map.mp new with ⟨⟨packet, count⟩, sent, rfl⟩
        have carried := stepped.flights _ sent
        have behind := consistent.behind (!side)
        constructor
        · exact carried.type
        · intro data
          rcases carried.data data with
            ⟨index, payload, found, seqno, same, len, size, old⟩
          refine ⟨index, payload, ?_, seqno, same, len, size, ?_⟩
          · simpa using found
          · simpa using old
        · rcases carried.ackno with ⟨acked, least, most, ackno⟩
          refine ⟨acked, ?_, ackno, ?_⟩
          · simpa using most
          · simp only [session, Bool.not_not] at least behind
            simp only [update_of_ne different]
            omega

theorem act_closed {depth : Nat} {sends : List (List SendError)}
    {requests : List (List Request)} (closed : link.closed = true) :
    (link.act node depth side call sends requests).closed = true := by
  simp [act, closed]

theorem invariant_consistent (depth : Nat) :
    (system node depth).Invariant (fun link => link.closed = false →
      ∃ base ids, link.Consistent node base ids) where
  initial := fun _ established _ => Established.consistent established
  step := by
    rintro before after consistent ⟨side, call, sends, requests, delivers, rfl⟩ opened
    cases closed : before.closed with
    | true =>
      rw [act_closed closed] at opened
      cases opened
    | false =>
      rcases consistent closed with ⟨base, ids, consistent⟩
      exact ⟨base, ids, consistent.act delivers opened⟩

theorem framesFrom_data (connid : SeqNo) (payloads : List (List UInt8)) :
    ∀ first, (framesFrom connid first payloads).map Packet.data =
      payloads := by
  induction payloads with
  | nil => exact fun _ => rfl
  | cons payload rest induction =>
    intro first
    rw [framesFrom, map_cons, induction]

/-- As long as the connection is not closed, each side returns the messages
accepted by the other in order and without gaps, and what the sender has
released has been returned. -/
theorem reachable_returned {depth : Nat} {link : Link}
    (reachable : (system node depth).Reachable link) (opened : link.closed = false) (side : Bool) :
    link.returned (!side) <+: link.accepted side ∧
      ∃ released, link.accepted side = released ++ (link.conn node side).live.map MsgBuf.data ∧
        released <+: link.returned (!side) := by
  rcases (invariant_consistent depth).reachable reachable opened with
    ⟨base, ids, consistent⟩
  have delivered : link.returned (!side) <+: link.accepted side := by
    simpa using (consistent.opened (!side)).delivered
  refine ⟨delivered, ?_⟩
  rcases (consistent.opened side).pending with
    ⟨released, unreleased, split, behind, frames⟩
  have payloads := congrArg (List.map Packet.data) frames
  rw [framesFrom_data, map_map] at payloads
  simp only [session, Session.acceptedBy, filterMap_nil, map_nil, append_nil] at split behind
  refine ⟨released, ?_, ?_⟩
  · rw [split, ← payloads]
    rfl
  · apply prefix_of_prefix_length_le _ delivered behind
    rw [split]
    exact prefix_append _ _

/-- Both sides number the messages alike, and what is on its way fits to that. -/
def InSync (node : Bool → Nat) (link : Link) : Prop :=
  ∃ base : Bool → SeqNo,
    (∀ side, (link.conn node side).state = .active ∧
      (link.conn node side).connIDIn = (link.conn node (!side)).connIDOut ∧
      (link.conn node side).frameToSend =
        base side + BitVec.ofNat 32 (link.accepted side).length ∧
      (link.conn node (!side)).frameExpected =
        base side + BitVec.ofNat 32 (link.returned (!side)).length) ∧
    ∀ flight ∈ link.flights, Valid base link flight

/-- As long as the connection is not closed, a packet on its way carries the
message of its number and acknowledges nothing that was not returned. -/
theorem reachable_inSync {depth : Nat} {link : Link}
    (reachable : (system node depth).Reachable link) (opened : link.closed = false) :
    link.InSync node := by
  rcases (invariant_consistent depth).reachable reachable opened with
    ⟨base, ids, consistent⟩
  refine ⟨base, fun side => ?_, consistent.flights⟩
  have here := consistent.opened side
  have there := consistent.opened (!side)
  refine ⟨here.active, here.connIDIn.trans there.connIDOut.symm, ?_, ?_⟩
  · simpa using here.frameToSend
  · simpa using there.frameExpected

/-- Two stations with a new connection between nodes 0 and 1. -/
def fresh : Link :=
  { station := fun side =>
      (rdpInit 2 (fun _ => 1) 0 id (fun _ => 5)).modify (if side then 0 else 1)
        (fun conn => { conn with state := .active, connIDIn := 5 })
    accepted := fun _ => []
    returned := fun _ => []
    flights := []
    closed := false }

theorem established_fresh : fresh.Established Bool.toNat := by
  constructor
  · intro side
    exact @bounded_modify (rdpInit 2 (fun _ => 1) 0 id (fun _ => 5))
      (fun _ => ⟨Int.natCast_nonneg _, rfl⟩) (if side then 0 else 1)
      (fun conn => { conn with state := .active, connIDIn := 5 }) rfl rfl
  · decide
  · decide
  · decide
  · decide
  · decide
  · decide
  · exact fun _ _ member => absurd member not_mem_nil
  · exact fun _ => rfl
  · rfl
  · rfl

/-- A message of one side and its arrival at the other side. -/
def firstMessage : Link :=
  (fresh.act Bool.toNat 1 true (.rsendto 0 [7]) [] []).act Bool.toNat 1 false
    (.handleRDP 1
      { header :=
          { type := .data, len := 1, seqno := 5, ackno := 4, connid := 5 }
        data := [7] }) [] []

theorem reachable_returned_firstMessage :
    firstMessage.returned false <+: firstMessage.accepted true ∧
      ∃ released, firstMessage.accepted true =
          released ++ (firstMessage.conn Bool.toNat true).live.map MsgBuf.data ∧
        released <+: firstMessage.returned false := by
  have sent : (system Bool.toNat 1).Reachable
      (fresh.act Bool.toNat 1 true (.rsendto 0 [7]) [] []) :=
    .step (.initial established_fresh)
      ⟨true, .rsendto 0 [7], [], [], fun _ same => (by cases same), rfl⟩
  have received : (system Bool.toNat 1).Reachable firstMessage := by
    refine .step sent ⟨false, _, [], [], ?_, rfl⟩
    intro packet same
    cases same
    decide +kernel
  exact reachable_returned received (by decide +kernel) true

theorem reachable_inSync_rsendto :
    (fresh.act Bool.toNat 1 true (.rsendto 0 [7]) [] []).InSync Bool.toNat :=
  reachable_inSync (.step (.initial established_fresh)
    ⟨true, .rsendto 0 [7], [], [], fun _ same => (by cases same), rfl⟩) (by decide +kernel)

end Link

end Psmgmt.Rdp
