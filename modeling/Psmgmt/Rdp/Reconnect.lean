import Psmgmt.Rdp.Endpoint

/-!
# Two stations that reconnect

Two stations from `RDP_init()` on and a network that may delay, lose, duplicate
and reorder what they send.  A late SYN may move the frame expected back, so
messages are returned at most once and in order only if the packets taken over
announce frames after those returned.
-/

namespace Psmgmt.Rdp

open List Function

/-- Both stations, the messages each has accepted for the other one and those
it has returned, and the packets it has sent, each with the number of messages
accepted before. -/
structure Pair where
  station : Bool → Station
  accepted : Bool → List Packet
  returned : Bool → List Packet
  flights : Bool → List (Packet × Nat)

namespace Pair

variable (node : Bool → Nat)

/-- The connection of one side to the other. -/
def conn (pair : Pair) (side : Bool) : Conn := (pair.station side).conntable (node (!side))

/-- The draws that gave one side a connection ID. -/
def drawn (pair : Pair) (side : Bool) : Nat → Prop := Drawn (node (!side)) (pair.station side)

/-- One side runs a function of the module. -/
def act (depth : Nat) (side : Bool) (call : Call) (sends : List (List SendError))
    (requests : List (List Request)) (pair : Pair) : Pair :=
  let after := perform (callbackAt depth) call ((pair.station side).scripted sends requests)
  let peer := node (!side)
  { station := update pair.station side after
    accepted := update pair.accepted side (pair.accepted side ++
      after.trace.filterMap (Event.queuedTo peer))
    returned := update pair.returned side (pair.returned side ++
      after.trace.filterMap (Event.receivedFrom peer))
    flights := update pair.flights side (pair.flights side ++
      flightsOf peer (pair.accepted side).length after.trace) }

/-- The connection IDs drawn by each side are pairwise distinct. -/
def Distinct (pair : Pair) : Prop :=
  ∀ side first second, pair.drawn node side first →
    pair.drawn node side second →
    (pair.station side).randoms first = (pair.station side).randoms second →
      first = second

/-- Two stations that have not been in contact. -/
def Initial (pair : Pair) : Prop :=
  (∀ side, ∃ nodes hosts localID clock randoms, node (!side) < nodes ∧
    pair.station side = rdpInit nodes hosts localID clock randoms) ∧
  ∀ side, pair.accepted side = [] ∧ pair.returned side = [] ∧ pair.flights side = []

/-- A packet received from the peer is one the peer has sent, at any time and
any number of times, and meets `condition`. -/
def Delivers (condition : Pair → Bool → Packet → Nat → Prop) (pair : Pair)
    (side : Bool) (call : Call) : Prop :=
  ∀ packet, call = .handleRDP (node (!side)) packet →
    ∃ count, (packet, count) ∈ pair.flights (!side) ∧ condition pair side packet count

/-- The runs of two stations, for all packets meeting `condition`. -/
def system (depth : Nat) (condition : Pair → Bool → Packet → Nat → Prop) :
    TransitionSystem Pair where
  initial := Initial node
  step before after := ∃ side call sends requests,
    before.Delivers node condition side call ∧ after = before.act node depth side call sends
      requests ∧ after.Distinct node

/-- Each side returns messages the other side has accepted, in the same order
and each of them at most once. -/
def InOrder (pair : Pair) : Prop :=
  ∀ side, ((pair.returned (!side)).map Packet.withoutAck).Sublist
    ((pair.accepted side).map Packet.withoutAck)

/-- A packet is handled while it is not too old.  Unless it is dropped by the
closed timer, a SYN or SYNACK taken over announces a frame after the one
returned last, and a DATA packet with the frame expected on an active
connection has the connection's ID. -/
structure Current (pair : Pair) (side : Bool) (packet : Packet)
    (count : Nat) : Prop where
  recent : (pair.accepted (!side)).length < count + (2 ^ 31 - 128)
  fresh : (pair.conn node side).closed ≤ gettimeofday (pair.station side) →
    Endpoint.Accepts (pair.conn node side) packet.header →
    ∀ last, (pair.returned side).getLast? = some last →
      0 < rseqcmp packet.header.seqno last.header.seqno
  own : (pair.conn node side).closed ≤ gettimeofday (pair.station side) →
    (pair.conn node side).state = .active → packet.header.type = .data →
    packet.header.seqno = (pair.conn node side).frameExpected →
      packet.header.connid = (pair.conn node side).connIDIn

/-- One side as the sender of its messages. -/
def endpoint (origin : Bool → Origin) (entries : Bool → List Entry)
    (pair : Pair) (side : Bool) : Endpoint :=
  { peer := node (!side)
    origin := origin side
    drawn := pair.drawn node side
    entries := entries side
    flights := pair.flights side }

def Receives (origin : Bool → Origin) (entries received : Bool → List Entry)
    (pair : Pair) (side : Bool) : Taking :=
  fun connIDIn frameExpected returned => returned = [] ∧
    Receiver (origin (!side)) (pair.drawn node (!side)) (entries (!side))
      (received side) connIDIn frameExpected (pair.returned side)

structure Consistent (origin : Bool → Origin)
    (entries received : Bool → List Entry) (pair : Pair) : Prop where
  distinct : pair.Distinct node
  keeps : ∀ side, (pair.endpoint node origin entries side).Keeps
    (pair.Receives node origin entries received side) .idle ((pair.station side).scripted [] [])
  accepted : ∀ side, (pair.accepted side).map Packet.withoutAck =
    (entries side).map (origin side).message

section Steps

variable {node : Bool → Nat} {origin : Bool → Origin}
  {entries received : Bool → List Entry} {pair : Pair}

section

variable (consistent : pair.Consistent node origin entries received)

include consistent

/-- Between two steps, a side has accepted what is listed. -/
theorem Consistent.sends (side : Bool) : ∃ current frames,
      (pair.endpoint node origin entries side).Sends [] current frames
        ((pair.station side).scripted [] []) := by
  rcases (consistent.keeps side).2.1 with ⟨new, current, frames, sends⟩
  have none := sends.queued
  rw [Station.scripted, filterMap_nil, map_nil] at none
  rw [map_eq_nil_iff.mp none.symm] at sends
  exact ⟨current, frames, sends⟩

theorem Consistent.length (side : Bool) : (pair.accepted side).length = (entries side).length := by
  have lengths := congrArg List.length (consistent.accepted side)
  rwa [length_map, length_map] at lengths

/-- What a packet of the peer tells if it is not too old. -/
theorem Consistent.arrives {side : Bool} {packet : Packet} {count : Nat}
    (sent : (packet, count) ∈ pair.flights (!side))
    (recent : (pair.accepted (!side)).length < count + (2 ^ 31 - 128)) :
    (origin (!side)).Arrives (pair.drawn node (!side)) (entries (!side))
      packet := by
  rcases consistent.sends (!side) with ⟨current, frames, sends⟩
  have valid := sends.sent (packet, count) (mem_append_left _ sent)
  have sender := sends.sender
  simp only [Endpoint.Valid, endpoint, append_nil] at valid sender
  rw [consistent.length] at recent
  constructor
  · intro data
    rcases valid.data data with ⟨index, entry, found, same, old⟩
    refine ⟨index, entry, found, same, (sender.numbered entry (mem_of_getElem? found)).1, ?_⟩
    simp only [maxWindowSize] at old
    omega
  · intro opening
    rcases valid.opening opening with
      ⟨incarnation, first, drawn, connid, seqno, least, later, near, most⟩
    refine ⟨incarnation, first, drawn, connid, seqno, later, ?_, ?_⟩
    · intro entry member
      rcases getElem?_of_mem member with ⟨index, found⟩
      have inside := (List.getElem?_eq_some_iff.mp found).1
      have bound := near index entry found
      simp only [maxWindowSize] at bound
      omega
    · intro index entry found
      have counted := sender.counted index entry found
      omega

theorem Consistent.handles {side : Bool} {packet : Packet} {count : Nat}
    (sent : (packet, count) ∈ pair.flights (!side)) (current : pair.Current node side packet count)
    (expired : (pair.conn node side).closed ≤ gettimeofday (pair.station side)) :
    Endpoint.Handles
      (fun connIDIn frameExpected returned =>
        pair.Receives node origin entries received side connIDIn frameExpected returned ∧
        (packet.header.type = .data → connIDIn = (pair.conn node side).connIDIn))
      (fun connIDIn frameExpected returned => ∃ received',
        Receiver (origin (!side)) (pair.drawn node (!side)) (entries (!side))
          received' connIDIn frameExpected (pair.returned side ++ returned))
      (pair.conn node side) packet := by
  have arrives := consistent.arrives sent current.recent
  constructor
  · rintro connIDIn frameExpected returned ⟨⟨none, receiver⟩, _⟩ accepts
    have opening : packet.header.type.opening := accepts.imp id (fun synack => synack.1)
    refine ⟨⟨none, receiver.accept arrives opening (current.fresh expired accepts)⟩, ?_⟩
    intro data
    rw [data] at opening
    exact opening.elim PktType.noConfusion PktType.noConfusion
  · rintro connIDIn frameExpected returned ⟨⟨rfl, receiver⟩, unchanged⟩ data active next expected
    have own := (unchanged data).trans (current.own expired active data next).symm
    rcases consistent.sends (!side) with ⟨_, _, sends⟩
    have accepted := sends.sender.accepted
    simp only [endpoint, append_nil] at accepted
    have distinct : (origin (!side)).Distinct (pair.drawn node (!side)) := by
      have randoms := sends.randoms
      simp only [endpoint, Station.scripted] at randoms
      intro first second known known' same
      rw [← randoms] at same
      exact consistent.distinct (!side) first second known known' same
    rcases receiver.take distinct accepted arrives data own expected with
      ⟨whole, fits, entry, taken⟩
    exact ⟨whole, fits, _, taken⟩

/-- What one side has in store for its next step changes nothing. -/
theorem Consistent.scripted (side : Bool) (sends : List (List SendError))
    (requests : List (List Request)) :
    (pair.endpoint node origin entries side).Keeps (pair.Receives node origin entries received side)
      .idle ((pair.station side).scripted sends requests) :=
  (consistent.keeps side).congr rfl rfl rfl rfl rfl

theorem Consistent.perform {depth : Nat} {side : Bool} {call : Call} (sends : List (List SendError))
    (requests : List (List Request)) (delivers : pair.Delivers node (Current node) side call) :
    (pair.endpoint node origin entries side).Keeps
      (fun connIDIn frameExpected returned => ∃ received',
        Receiver (origin (!side)) (pair.drawn node (!side)) (entries (!side))
          received' connIDIn frameExpected (pair.returned side ++ returned))
      .idle (perform (callbackAt depth) call ((pair.station side).scripted sends requests)) := by
  have keeps := consistent.scripted side sends requests
  have settle : ∀ connIDIn frameExpected returned,
      pair.Receives node origin entries received side connIDIn frameExpected
        returned → ∃ received',
        Receiver (origin (!side)) (pair.drawn node (!side)) (entries (!side))
          received' connIDIn frameExpected (pair.returned side ++ returned) := by
    rintro connIDIn frameExpected returned ⟨rfl, receiver⟩
    rw [append_nil]
    exact ⟨_, receiver⟩
  by_cases handles : ∃ packet, call = .handleRDP (node (!side)) packet
  · rcases handles with ⟨packet, rfl⟩
    rcases delivers packet rfl with ⟨count, sent, current⟩
    have started : (pair.endpoint node origin entries side).Keeps
        (fun connIDIn frameExpected returned =>
          pair.Receives node origin entries received side connIDIn frameExpected returned ∧
          (packet.header.type = .data → connIDIn = (pair.conn node side).connIDIn)) .idle
        ((pair.station side).scripted sends requests) :=
      ⟨keeps.1, keeps.2.1, keeps.2.2, fun _ => rfl⟩
    apply started.perform depth _ (fun _ _ _ holds => settle _ _ _ holds.1)
    intro other same expired
    cases same
    exact consistent.handles sent current expired
  · apply keeps.perform depth call settle
    exact fun packet same => absurd ⟨packet, same⟩ handles

end

end Steps

section Runs

variable {node : Bool → Nat} {origin : Bool → Origin}
  {entries received : Bool → List Entry} {pair : Pair}

/-- The messages of a step become part of the history. -/
theorem committed {endpoint : Endpoint} {new : List Entry} {current frames : Nat} {rdp : Station}
    (sends : endpoint.Sends new current frames rdp) (errors : List (List SendError))
    (requests : List (List Request)) :
    Endpoint.Sends
      { endpoint with
        drawn := Drawn endpoint.peer rdp
        entries := endpoint.entries ++ new
        flights := endpoint.flights ++ flightsOf endpoint.peer endpoint.entries.length rdp.trace }
      [] current frames (rdp.scripted errors requests) := by
  constructor
  · exact sends.randoms
  · exact sends.draws
  · exact fun _ drawn => drawn
  · rfl
  · rw [append_nil]
    exact sends.sender
  · intro before packet submitted
    have nil := prefix_nil.mp submitted
    exact absurd nil (append_ne_nil_of_right_ne_nil _ (by simp))
  · intro flight member
    simp only [Station.scripted, flightsOf, append_nil] at member
    have valid := sends.sent flight member
    simp only [Endpoint.Valid, append_nil] at valid ⊢
    exact valid

theorem Consistent.act (consistent : pair.Consistent node origin entries received) {depth : Nat}
    {side : Bool} {call : Call} {sends : List (List SendError)} {requests : List (List Request)}
    (delivers : pair.Delivers node (Current node) side call)
    (distinct : (pair.act node depth side call sends requests).Distinct node) :
    ∃ entries' received',
      (pair.act node depth side call sends requests).Consistent node origin entries' received' := by
  rcases consistent.perform sends requests delivers with
    ⟨waits, ⟨new, current, frames, sent⟩, received', receiver⟩
  have different : (!side) ≠ side := Bool.not_ne_self side
  have length := consistent.length side
  refine ⟨update entries side (entries side ++ new),
    update received side received', distinct, ?_, ?_⟩
  · intro other
    by_cases same : other = side
    · subst same
      have stepped := committed sent [] []
      refine ⟨?_, ⟨[], current, frames, ?_⟩, ?_⟩
      · simp only [endpoint, Pair.act, update_self]
        exact waits.congr rfl
      · simp only [endpoint, drawn, Pair.act, update_self, length] at stepped ⊢
        exact stepped
      · refine ⟨rfl, ?_⟩
        simp only [endpoint, drawn, Pair.act, update_self,
          update_of_ne different, Station.scripted] at receiver ⊢
        exact receiver
    · have peer : side = !other := by
        cases side
        · cases other
          · exact absurd rfl same
          · rfl
        · cases other
          · rfl
          · exact absurd rfl same
      subst peer
      have grown := sent.sender.accepted
      rcases consistent.keeps other with ⟨waits', sends', none, receiver'⟩
      have later := receiver'.later sent.drawn grown
      refine ⟨?_, ?_, rfl, ?_⟩
      · simp only [endpoint, Pair.act, update_of_ne same]
        exact waits'
      · simp only [endpoint, drawn, Pair.act, update_of_ne same]
          at sends' ⊢
        exact sends'
      · simp only [endpoint, drawn, Pair.act, update_of_ne same,
          update_self, Bool.not_not] at later ⊢
        exact later
  · intro other
    by_cases same : other = side
    · subst same
      have queued := sent.queued
      simp only [endpoint] at queued
      simp only [Pair.act, update_self, map_append, consistent.accepted other, queued]
    · simp only [Pair.act, update_of_ne same]
      exact consistent.accepted other

theorem Initial.consistent (initial : pair.Initial node) :
    ∃ origin, pair.Consistent node origin (fun _ => []) (fun _ => []) := by
  rcases initial with ⟨stations, empty⟩
  refine ⟨fun side =>
    { randoms := (pair.station side).randoms
      base := (pair.station side).randoms (3 * node (!side)) }, ?_, ?_, ?_⟩
  · intro side first second known known' _
    rcases stations side with
      ⟨nodes, hosts, localID, clock, randoms, inside, same⟩
    simp only [drawn, Drawn, same, rdpInit] at known known'
    omega
  · intro side
    rcases empty side with ⟨accepted, returned, flights⟩
    rcases stations side with
      ⟨nodes, hosts, localID, clock, randoms, inside, same⟩
    have known : Drawn (node (!side)) ((pair.station side).scripted [] [])
        (3 * node (!side) + 2) := by
      refine ⟨?_, .inl rfl⟩
      simp only [Station.scripted, same, rdpInit]
      omega
    refine ⟨⟨?_, Waiting.empty ?_⟩, ⟨[], 3 * node (!side) + 2, 0, ?_⟩, rfl, ?_⟩
    · rw [same]
      exact fun _ => ⟨Int.natCast_nonneg _, rfl⟩
    · rw [same]
      rfl
    · constructor
      · rfl
      · rw [same]
        exact le_refl _
      · exact fun _ drawn => drawn
      · rfl
      · constructor
        · exact ⟨List.Pairwise.nil,
            fun _ _ _ _ found => absurd found (by simp [endpoint]),
            fun _ member => absurd member not_mem_nil⟩
        · simp only [endpoint, Station.scripted, same]
          rfl
        · exact known
        · simp only [endpoint, Station.scripted, same, rdpInit]
          simp
        · exact fun _ _ found => absurd found (by simp [endpoint])
        · exact fun _ member => absurd member not_mem_nil
        · refine ⟨[], [], [], [], rfl, ?_,
            fun _ member => absurd member not_mem_nil,
            fun _ member => absurd member not_mem_nil, rfl⟩
          simp only [endpoint, Station.scripted, same]
          rfl
      · intro before packet submitted
        have nil := prefix_nil.mp submitted
        exact absurd nil (append_ne_nil_of_right_ne_nil _ (by simp))
      · intro flight member
        simp [endpoint, flights, Station.scripted, flightsOf] at member
    · constructor
      · simp [returned]
      · exact List.Pairwise.nil
      · exact fun _ member => absurd member not_mem_nil
      · intro last final
        cases final
  · intro side
    rw [(empty side).1]
    rfl

theorem invariant_consistent (depth : Nat) : (system node depth (Current node)).Invariant
      (fun pair => ∃ origin entries received, pair.Consistent node origin entries received) where
  initial := by
    intro pair initial
    rcases initial.consistent with ⟨origin, consistent⟩
    exact ⟨origin, _, _, consistent⟩
  step := by
    rintro before after ⟨origin, entries, received, consistent⟩
      ⟨side, call, sends, requests, delivers, rfl, distinct⟩
    exact ⟨origin, consistent.act delivers distinct⟩

end Runs

section Replay

/-- Two stations with distinct random numbers, for nodes 0 and 1. -/
def fresh : Pair :=
  { station := fun _ => rdpInit 2 (fun _ => 1) 0 id (BitVec.ofNat 32)
    accepted := fun _ => []
    returned := fun _ => []
    flights := fun _ => [] }

theorem initial_fresh : fresh.Initial Bool.toNat :=
  ⟨fun side => ⟨2, fun _ => 1, 0, id, BitVec.ofNat 32, by cases side <;> decide,
    rfl⟩, fun _ => ⟨rfl, rfl, rfl⟩⟩

instance (pair : Pair) : Decidable (pair.Distinct Bool.toNat) :=
  decidable_of_iff
    (∀ side, ∀ first < (pair.station side).draws,
      ∀ second < (pair.station side).draws,
      (first = 3 * Bool.toNat (!side) + 2 ∨ 3 * (pair.station side).nrOfNodes ≤ first) →
      (second = 3 * Bool.toNat (!side) + 2 ∨ 3 * (pair.station side).nrOfNodes ≤ second) →
      (pair.station side).randoms first = (pair.station side).randoms second →
        first = second)
    ⟨fun distinct side first second known known' same =>
        distinct side first known.1 second known'.1 known.2 known'.2 same,
      fun distinct side first inside second inside' known known' same =>
        distinct side first second ⟨inside, known⟩ ⟨inside', known'⟩ same⟩

/-- A step of a run: a side sends a message to its peer, or handles the packet
at a position among those the peer has sent. -/
inductive Move where
  | rsendto (side : Bool) (buf : List UInt8)
  | receive (side : Bool) (index : Nat)

def Move.side : Move → Bool
  | .rsendto side _ => side
  | .receive side _ => side

def Move.call (pair : Pair) : Move → Call
  | .rsendto side buf => .rsendto (!side).toNat buf
  | .receive side index =>
    match (pair.flights (!side))[index]? with
    | none => .handleTimeoutRDP
    | some flight => .handleRDP (!side).toNat flight.1

def run (pair : Pair) : List Move → Pair
  | [] => pair
  | move :: rest => run (pair.act Bool.toNat 0 move.side (move.call pair) [] []) rest

/-- The connection IDs stay distinct. -/
def StaysDistinct (pair : Pair) : List Move → Prop
  | [] => True
  | move :: rest =>
    (pair.act Bool.toNat 0 move.side (move.call pair) [] []).Distinct Bool.toNat ∧
    StaysDistinct (pair.act Bool.toNat 0 move.side (move.call pair) [] []) rest

instance decidableStaysDistinct : (moves : List Move) → (pair : Pair) →
    Decidable (pair.StaysDistinct moves)
  | [], _ => inferInstanceAs (Decidable True)
  | move :: rest, pair =>
    have := decidableStaysDistinct rest (pair.act Bool.toNat 0 move.side (move.call pair) [] [])
    inferInstanceAs (Decidable (_ ∧ _))

theorem reachable_run (moves : List Move) :
    ∀ pair, (system Bool.toNat 0 (fun _ _ _ _ => True)).Reachable pair → pair.StaysDistinct moves →
      (system Bool.toNat 0 (fun _ _ _ _ => True)).Reachable (pair.run moves) := by
  induction moves with
  | nil => exact fun _ reachable _ => reachable
  | cons move rest induction =>
    intro pair reachable distinct
    apply induction _ _ distinct.2
    refine .step reachable ⟨move.side, move.call pair, [], [], ?_, rfl, distinct.1⟩
    intro packet received
    cases move with
    | rsendto side buf => cases received
    | receive side index =>
      simp only [Move.call] at received
      rcases found : (pair.flights (!side))[index]? with _ | flight
      · rw [found] at received
        cases received
      · rw [found, Call.handleRDP.injEq] at received
        rw [← received.2]
        exact ⟨flight.2, mem_of_getElem? found, trivial⟩

/-- One message with its handshake; then its SYN and its DATA packet arrive once
more. -/
def replay : List Move :=
  [.rsendto true [7], .receive false 0, .receive true 0, .receive false 1,
    .receive false 1, .receive false 0, .receive false 1, .receive false 1]

end Replay

end Pair

end Psmgmt.Rdp
