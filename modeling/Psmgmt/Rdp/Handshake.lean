import Psmgmt.Rdp.PendingList

/-!
# The announced first frame

A SYN or SYNACK announces `frameToSend`, and `msgPending` counts the messages
waiting for the connection.  With callbacks calling `Rsendto()` this goes wrong
in two places: when the resend of an activation loses the connection to a new
handshake, and when the answer to a packet does so before its ACK is handled.
-/

namespace Psmgmt.Rdp

open List

/-- A callback is going to send to `node`. -/
def Requested (rdp : Station) (node : Nat) : Prop :=
  ∃ requests ∈ rdp.requests, ∃ request ∈ requests, request.node = node

/-- A failing `sendto()` is going to close the connection to `node`. -/
def Failing (rdp : Station) (node : Nat) : Prop :=
  ∃ errors ∈ rdp.sends, ∃ error ∈ errors, error.Closes node

/-- An opening connection announces its first pending message and counts all
of them. -/
structure Announced (conn : Conn) : Prop where
  closed : conn.state = .closed → conn.live = [] ∧ conn.msgPending = 0
  opening : conn.state = .synSent ∨ conn.state = .synRecvd →
    Numbered conn.frameToSend conn.live ∧ conn.msgPending = conn.live.length

variable {conn : Conn} {start rdp : Station} {node : Nat}

theorem Announced.of_active (active : conn.state = .active) : Announced conn := by
  constructor
  · intro closed
    exact absurd (active.symm.trans closed) ConnState.noConfusion
  · intro opening
    rw [active] at opening
    exact opening.elim ConnState.noConfusion ConnState.noConfusion

theorem Announced.congr {before after : Conn} (announced : Announced before)
    (same : before.SameCounters after) : Announced after := by
  have length : after.live.length = before.live.length := by
    simpa using congrArg List.length same.live
  constructor
  · intro closed
    rcases announced.closed (same.state ▸ closed) with ⟨empty, pending⟩
    rw [same.msgPending, eq_nil_iff_length_eq_zero, length, empty]
    exact ⟨rfl, pending⟩
  · intro opening
    rw [same.state] at opening
    rcases announced.opening opening with ⟨numbered, pending⟩
    rw [same.frameToSend, same.msgPending, length]
    exact ⟨numbered_congr numbered same.live, pending⟩

/-- An inactive connection starting or continuing its handshake. -/
theorem Announced.opened {before after : Conn} (announced : Announced before)
    (inactive : before.state ≠ .active) (live : after.live = before.live)
    (frameToSend : after.frameToSend = before.frameToSend)
    (msgPending : after.msgPending = before.msgPending)
    (opening : after.state = .synSent ∨ after.state = .synRecvd) :
    Announced after := by
  constructor
  · intro closed
    rw [closed] at opening
    exact opening.elim ConnState.noConfusion ConnState.noConfusion
  · intro _
    rw [live, frameToSend, msgPending]
    cases state : before.state with
    | closed =>
      rcases announced.closed state with ⟨empty, pending⟩
      rw [empty, pending]
      exact ⟨trivial, rfl⟩
    | synSent => exact announced.opening (.inl state)
    | synRecvd => exact announced.opening (.inr state)
    | active => exact absurd state inactive

theorem Announced.queue (announced : Announced conn) (id : Nat)
    (buf : List UInt8) : Announced (conn.queue (conn.newMsg id buf)) := by
  have live := conn.live_queue (rfl : (conn.newMsg id buf).deleted = false)
  cases state : conn.state with
  | active =>
    apply Announced.of_active
    simp only [Conn.queue, Conn.count, state]
  | closed =>
    rcases announced.closed state with ⟨empty, pending⟩
    rw [empty] at live
    have counted : (conn.queue (conn.newMsg id buf)).frameToSend = conn.frameToSend ∧
        (conn.queue (conn.newMsg id buf)).msgPending = 1 ∧ (conn.queue (conn.newMsg id buf)).state =
        .synSent := by
      simp [Conn.queue, Conn.count, state, pending]
    rcases counted with ⟨frameToSend, msgPending, opening⟩
    constructor
    · intro closed
      exact absurd (opening.symm.trans closed) ConnState.noConfusion
    · intro _
      rw [live, frameToSend, msgPending]
      refine ⟨⟨?_, trivial⟩, rfl⟩
      simp [Conn.newMsg, pending]
  | synSent =>
    rcases announced.opening (.inl state) with ⟨numbered, pending⟩
    have appended := @numbered_append _ (conn.newMsg id buf) _ numbered (by rw [← pending]; rfl)
    constructor
    · intro closed
      simp only [Conn.queue, Conn.count, state] at closed
      exact absurd closed ConnState.noConfusion
    · intro _
      rw [live, length_append, ← pending]
      simp only [Conn.queue, Conn.count, state]
      exact ⟨appended, rfl⟩
  | synRecvd =>
    rcases announced.opening (.inr state) with ⟨numbered, pending⟩
    have appended := @numbered_append _ (conn.newMsg id buf) _ numbered (by rw [← pending]; rfl)
    constructor
    · intro closed
      simp only [Conn.queue, Conn.count, state] at closed
      exact absurd closed ConnState.noConfusion
    · intro _
      rw [live, length_append, ← pending]
      simp only [Conn.queue, Conn.count, state]
      exact ⟨appended, rfl⟩

/-- The connection being activated is not closed if messages may be queued to
it, and not queued to if it may be closed. -/
def Phase.MayClose (phase : Phase) (node : Nat) : Prop := phase.activating ≠ some (node, false)

def Phase.MayQueue (phase : Phase) (node : Nat) : Prop := phase.activating ≠ some (node, true)

structure Announcing (phase : Phase) (rdp : Station) : Prop where
  bounded : Bounded rdp
  clearing : ∀ node ∈ phase.clearing, phase.MayClose node
  announced : ∀ node, node ∉ phase.clearing → Announced (rdp.conntable node)
  unrequested : ∀ node, ¬phase.MayQueue node → ¬Requested rdp node ∧
    ((rdp.conntable node).state = .active ∨ (rdp.conntable node).state = .closed)
  unfailing : ∀ node, ¬phase.MayClose node → ¬Failing rdp node ∧
    (rdp.conntable node).state = .active

variable {phase : Phase}

theorem Announcing.congr {before after : Station} (announcing : Announcing phase before)
    (conntable : after.conntable = before.conntable) (requests : after.requests ⊆ before.requests)
    (sends : after.sends ⊆ before.sends) : Announcing phase after := by
  constructor
  · intro node
    rw [conntable]
    exact announcing.bounded node
  · exact announcing.clearing
  · intro node outside
    rw [conntable]
    exact announcing.announced node outside
  · intro node shielded
    rcases announcing.unrequested node shielded with ⟨unrequested, states⟩
    rw [conntable]
    refine ⟨?_, states⟩
    rintro ⟨entry, member, requested⟩
    exact unrequested ⟨entry, requests member, requested⟩
  · intro node kept
    rcases announcing.unfailing node kept with ⟨unfailing, active⟩
    rw [conntable]
    refine ⟨?_, active⟩
    rintro ⟨errors, member, failing⟩
    exact unfailing ⟨errors, sends member, failing⟩

theorem Announcing.modify {phase' : Phase} {rdp : Station}
    (announcing : Announcing phase rdp) (node : Nat) {change : Conn → Conn}
    (bounded : Bounded (rdp.modify node change))
    (activating : phase'.activating = phase.activating)
    (clearing : ∀ other ∈ phase'.clearing, other ∈ phase.clearing)
    (others : ∀ other, other ≠ node → other ∉ phase'.clearing → other ∉ phase.clearing)
    (announced : node ∉ phase'.clearing → Announced (change (rdp.conntable node)))
    (settled : (rdp.conntable node).state = .active ∨ (rdp.conntable node).state = .closed →
      (change (rdp.conntable node)).state = .active ∨ (change (rdp.conntable node)).state = .closed
        ∨ phase.MayQueue node)
    (active : (rdp.conntable node).state = .active →
      (change (rdp.conntable node)).state = .active ∨ phase.MayClose node) :
    Announcing phase' (rdp.modify node change) := by
  constructor
  · exact bounded
  · intro other member
    rw [Phase.MayClose, activating]
    exact announcing.clearing other (clearing other member)
  · intro other outside
    by_cases same : other = node
    · subst same
      rw [Station.modify_self]
      exact announced outside
    · rw [Station.modify_other same]
      exact announcing.announced other (others other same outside)
  · intro other shielded
    rw [Phase.MayQueue, activating] at shielded
    rcases announcing.unrequested other shielded with ⟨unrequested, states⟩
    refine ⟨unrequested, ?_⟩
    by_cases same : other = node
    · subst same
      rw [Station.modify_self]
      rcases settled states with kept | kept | queueable
      · exact .inl kept
      · exact .inr kept
      · exact absurd queueable shielded
    · rw [Station.modify_other same]
      exact states
  · intro other kept
    rw [Phase.MayClose, activating] at kept
    rcases announcing.unfailing other kept with ⟨unfailing, established⟩
    refine ⟨unfailing, ?_⟩
    by_cases same : other = node
    · subst same
      rw [Station.modify_self]
      rcases active established with still | closable
      · exact still
      · exact absurd closable kept
    · rw [Station.modify_other same]
      exact established

theorem Announcing.modify_same {rdp : Station} (announcing : Announcing phase rdp) (node : Nat)
    {change : Conn → Conn} (bounded : Bounded (rdp.modify node change))
    (state : (change (rdp.conntable node)).state = (rdp.conntable node).state)
    (announced : node ∉ phase.clearing → Announced (change (rdp.conntable node))) :
    Announcing phase (rdp.modify node change) := by
  apply announcing.modify node bounded rfl (fun _ member => member)
    (fun _ _ outside => outside) announced
  · intro states
    rw [state]
    exact states.elim .inl (fun closed => .inr (.inl closed))
  · intro active
    rw [state]
    exact .inl active

theorem Announcing.modify_fields {rdp : Station}
    (announcing : Announcing phase rdp) (node : Nat) {change : Conn → Conn}
    (window : (change (rdp.conntable node)).window = (rdp.conntable node).window)
    (length : (change (rdp.conntable node)).pendList.length = (rdp.conntable node).pendList.length)
    (same : (rdp.conntable node).SameCounters (change (rdp.conntable node))) :
    Announcing phase (rdp.modify node change) :=
  announcing.modify_same node (bounded_modify announcing.bounded window length) same.state
    (fun outside => (announcing.announced node outside).congr same)

theorem Announced.closeWith
    (deleted : ∀ msg ∈ conn.pendList, msg.deleted = true) (connid : SeqNo) :
    Announced (conn.closeWith connid) := by
  have live : (conn.closeWith connid).live = [] := by
    rw [Conn.live, filter_eq_nil_iff]
    intro msg member
    simpa using deleted msg member
  constructor
  · exact fun _ => ⟨live, rfl⟩
  · exact fun opening => opening.elim ConnState.noConfusion ConnState.noConfusion

theorem sendRules_announcing {cb : RdpCallback} (extending : Extending cb)
    (notify : ∀ phase rdp info, Announcing phase rdp → Announcing phase (notify cb info rdp)) :
    SendRules cb Phase.MayClose Phase.MayQueue Announcing where
  bounded := fun _ _ announcing => announcing.bounded
  extending := extending
  notify := notify
  tick := fun _ _ announcing => announcing.congr rfl (List.Subset.refl _) (List.Subset.refl _)
  nextSend := fun _ _ announcing =>
    announcing.congr rfl (List.Subset.refl _) (fun _ member => mem_of_mem_tail member)
  errors := by
    intro phase rdp errors announcing scripted error member node closes
    by_contra kept
    apply (announcing.unfailing node kept).1
    exact ⟨errors, mem_of_mem_head? scripted, error, member, closes⟩
  submit := fun _ _ _ _ announcing _ =>
    announcing.congr rfl (List.Subset.refl _) (List.Subset.refl _)
  sent := fun _ _ _ _ _ _ _ _ announcing =>
    announcing.congr rfl (List.Subset.refl _) (List.Subset.refl _)
  startClosing := by
    intro phase rdp node announcing closable
    constructor
    · exact announcing.bounded
    · intro other member
      rcases mem_cons.mp member with same | earlier
      · exact same ▸ closable
      · exact announcing.clearing other earlier
    · intro other outside
      apply announcing.announced other
      exact fun member => outside (mem_cons_of_mem _ member)
    · exact announcing.unrequested
    · exact announcing.unfailing
  markDeleted := by
    intro phase rdp node index announcing clearing _
    have marked := @Announcing.modify_same phase rdp announcing node (Conn.markDeleted index)
      (bounded_modify announcing.bounded rfl (length_modify _ _ _)) rfl
      (fun outside => absurd clearing outside)
    exact marked.congr rfl (List.Subset.refl _) (List.Subset.refl _)
  finishClosing := by
    intro phase rdp node announcing deleted
    have closed := @Announcing.modify (phase.clear node) phase rdp announcing
      node (Conn.closeWith (rdp.randoms rdp.draws))
      (bounded_modify announcing.bounded rfl rfl) rfl
      (fun other member => mem_cons_of_mem _ member)
      (fun other different outside member => (mem_cons.mp member).elim different outside)
      (fun _ => Announced.closeWith deleted _)
      (fun _ => .inr (.inl rfl))
      (fun _ => .inr (announcing.clearing node mem_cons_self))
    exact closed.congr rfl (List.Subset.refl _) (List.Subset.refl _)
  clearAckPending := fun _ _ node announcing =>
    announcing.modify_fields node rfl rfl ⟨rfl, rfl, rfl, rfl, rfl⟩
  closedTimer := fun _ _ node _ announcing =>
    announcing.modify_fields node rfl rfl ⟨rfl, rfl, rfl, rfl, rfl⟩
  timer := fun _ _ node _ _ announcing =>
    announcing.modify_fields node rfl rfl ⟨rfl, rfl, rfl, rfl, rfl⟩
  enqueue := by
    intro phase rdp node buf id rest small mallocs announcing queueable _ window _ _ _
    have queued := @Announcing.modify phase phase rdp announcing node
      (fun conn => conn.queue ((rdp.conntable node).newMsg id buf))
      (bounded_queue announcing.bounded window _) rfl (fun _ member => member)
      (fun _ _ outside => outside) (fun outside => (announcing.announced node outside).queue id buf)
      (fun _ => .inr (.inr queueable))
      (fun active => .inl (by simp only [Conn.queue, Conn.count, active]))
    exact queued.congr rfl (List.Subset.refl _) (List.Subset.refl _)
  leak := fun _ _ _ _ _ _ _ announcing _ _ =>
    announcing.congr rfl (List.Subset.refl _) (List.Subset.refl _)

theorem sendRules_announcing_callbackAt (depth : Nat) :
    SendRules (callbackAt depth) Phase.MayClose Phase.MayQueue Announcing := by
  apply SendRules.callbackAt
  · exact fun cb => sendRules_announcing
  · exact fun _ _ _ announcing => announcing.congr rfl (List.Subset.refl _) (List.Subset.refl _)
  · exact fun _ _ announcing =>
      announcing.congr rfl (fun _ member => mem_of_mem_tail member) (List.Subset.refl _)
  · intro phase rdp requests announcing scripted request member
    by_contra shielded
    apply (announcing.unrequested request.node shielded).1
    exact ⟨requests, mem_of_mem_head? scripted, request, member, rfl⟩

theorem Conn.drop_same (conn : Conn) {msg : MsgBuf}
    (deleted : msg.deleted = true) : conn.SameCounters (conn.drop msg) :=
  ⟨by rw [conn.live_drop deleted], rfl, rfl, rfl, rfl⟩

theorem localRules_announcing (depth : Nat) :
    LocalRules (callbackAt depth) Phase.MayClose Phase.MayQueue Announcing where
  toSendRules := sendRules_announcing_callbackAt depth
  closable_idle := by
    intro node closable
    cases closable
  refreshAck := fun _ _ node index announcing =>
    announcing.modify_fields node rfl (length_modify _ _ _) (Conn.refreshAck_same _ index)
  release := by
    intro rdp node msg announcing pending deleted
    have bounded : Bounded (rdp.modify node (Conn.drop msg)) := by
      intro other
      rw [← release_conntable]
      exact announcing.bounded.release pending other
    have dropped := announcing.modify_same node bounded rfl
      (fun outside => (announcing.announced node outside).congr (Conn.drop_same _ deleted))
    exact dropped.congr (release_conntable node msg rdp) (List.Subset.refl _) (List.Subset.refl _)
  cleanupDone := fun _ announcing => announcing.congr rfl (List.Subset.refl _) (List.Subset.refl _)
  address := fun _ node _ announcing =>
    announcing.modify_fields node rfl rfl ⟨rfl, rfl, rfl, rfl, rfl⟩

/-- The connection being activated keeps its handshake to itself: callbacks do
not send to the node, or nothing closes the connection meanwhile. -/
def UndisturbedActivation (rdp : Station) (node : Nat) (type : PktType) :
    Prop :=
  Activates (rdp.conntable node).state type →
    (rdp.conntable node).msgPending ≠ 0 → Requested rdp node →
      ¬Failing rdp node ∧ (rdp.conntable node).retrans ≤ rdp.maxRetransCount

/-- Answering a packet does not start a handshake, or the packet acknowledges
frames already sent only. -/
def UndisturbedAnswer (rdp : Station) (node : Nat) (hdr : Header) : Prop :=
  hdr.type = .data → (rdp.conntable node).state = .active →
    hdr.connid = (rdp.conntable node).connIDIn →
    rseqcmp hdr.seqno (rdp.conntable node).frameExpected ≠ 0 →
    Requested rdp node → Failing rdp node →
      0 < ((rdp.conntable node).frameToSend - hdr.ackno).toNat ∧
        ((rdp.conntable node).frameToSend - hdr.ackno).toNat + maxWindowSize < 2 ^ 31

/-- `doACK()` meets no message of a new handshake that it would release. -/
def Unacknowledged (node : Nat) (ackno : SeqNo) (rdp : Station) : Prop :=
  (rdp.conntable node).state = .active ∨ (rdp.conntable node).live = [] ∨
    0 < rseqcmp (rdp.conntable node).frameToSend ackno

theorem rseqcmp_pos_of_frames {frames ackno : SeqNo} {count : Nat}
    (small : count ≤ maxWindowSize) (positive : 0 < (frames - ackno).toNat)
    (bound : (frames - ackno).toNat + maxWindowSize < 2 ^ 31) :
    0 < rseqcmp (frames + BitVec.ofNat 32 count) ackno := by
  have distance : (frames + BitVec.ofNat 32 count - ackno).toNat =
      (frames - ackno).toNat + count := by
    have split : frames + BitVec.ofNat 32 count - ackno =
        (frames - ackno) + BitVec.ofNat 32 count := by
      bv_omega
    rw [split, BitVec.toNat_add, BitVec.toNat_ofNat]
    simp only [maxWindowSize] at small bound
    omega
  rw [rseqcmp, BitVec.toInt_eq_toNat_of_lt]
  · rw [distance]
    omega
  · rw [distance]
    omega

/-- Connections whose messages and counters stay as they are. -/
theorem Announcing.change {rdp : Station} (announcing : Announcing .idle rdp)
    (node : Nat) {change : Conn → Conn}
    (window : (change (rdp.conntable node)).window = (rdp.conntable node).window)
    (length : (change (rdp.conntable node)).pendList.length = (rdp.conntable node).pendList.length)
    (announced : Announced (change (rdp.conntable node))) :
    Announcing .idle (rdp.modify node change) := by
  apply announcing.modify node (bounded_modify announcing.bounded window length) rfl
    (fun _ member => member) (fun _ _ outside => outside) (fun _ => announced)
  · intro _
    refine .inr (.inr ?_)
    intro queueable
    cases queueable
  · intro _
    apply Or.inr
    intro closable
    cases closable

/-- Keep a connection from being closed, or from being queued to. -/
theorem Announcing.shield {rdp : Station} (announcing : Announcing .idle rdp)
    {node : Nat} (active : (rdp.conntable node).state = .active)
    {closable : Bool} (unrequested : closable = true → ¬Requested rdp node)
    (unfailing : closable = false → ¬Failing rdp node) :
    Announcing (.activate node closable) rdp := by
  constructor
  · exact announcing.bounded
  · exact fun other member => absurd member not_mem_nil
  · exact fun other _ => announcing.announced other not_mem_nil
  · intro other shielded
    rcases not_not.mp shielded with ⟨_, _⟩
    exact ⟨unrequested rfl, .inl active⟩
  · intro other kept
    rcases not_not.mp kept with ⟨_, _⟩
    exact ⟨unfailing rfl, active⟩

theorem Announcing.becomeActive (announcing : Announcing .idle start)
    (node : Nat) (hdr : Header) :
    Announcing .idle (becomeActive hdr node start) := by
  apply announcing.change node
  · exact (Conn.activate_counters _ _).1
  · rw [Conn.activate]
    split
    · rfl
    · rfl
  · exact Announced.of_active (Conn.activate_counters _ _).2.2.2.2

theorem Announcing.flushPending {closable : Bool}
    (announcing : Announcing (.activate node closable) rdp) :
    Announcing .idle (flushPending node rdp) := by
  have flushed : Announced (rdp.conntable node).flush := by
    have states : (rdp.conntable node).state = .active ∨ (rdp.conntable node).state = .closed := by
      cases closable with
      | true => exact (announcing.unrequested node (not_not.mpr rfl)).2
      | false => exact .inl (announcing.unfailing node (not_not.mpr rfl)).2
    rcases states with active | closed
    · exact Announced.of_active active
    · constructor
      · intro _
        exact ⟨((announcing.announced node not_mem_nil).closed closed).1, rfl⟩
      · intro opening
        have state : (rdp.conntable node).state = .synSent ∨
            (rdp.conntable node).state = .synRecvd := opening
        rw [closed] at state
        exact state.elim ConnState.noConfusion ConnState.noConfusion
  have unshielded : Announcing .idle rdp := by
    constructor
    · exact announcing.bounded
    · exact fun other member => absurd member not_mem_nil
    · exact announcing.announced
    · intro other shielded
      exact absurd (fun queueable => by cases queueable) shielded
    · intro other kept
      exact absurd (fun closable => by cases closable) kept
  exact @Announcing.change rdp unshielded node Conn.flush rfl rfl flushed

theorem answerData_eq_self (cb : RdpCallback) {hdr : Header}
    (inOrder : hdr.type = .data → rseqcmp hdr.seqno (rdp.conntable node).frameExpected = 0) :
    answerData cb hdr node rdp = rdp := by
  rw [answerData]
  split
  · next data =>
      have equal := inOrder data
      simp [equal]
  · rfl

theorem unacknowledged_answerData {depth : Nat} {hdr : Header}
    (announcing : Announcing .idle start)
    (active : (start.conntable node).state = .active)
    (own : hdr.connid = (start.conntable node).connIDIn)
    (undisturbed : UndisturbedAnswer start node hdr) (extended : Extends start
      (answerData (callbackAt depth) hdr node start))
    (bounded : Bounded (answerData (callbackAt depth) hdr node start)) :
    Unacknowledged node hdr.ackno (answerData (callbackAt depth) hdr node start) := by
  have rules := sendRules_announcing_callbackAt depth
  by_cases requested : Requested start node
  · by_cases failing : Failing start node
    · by_cases inOrder : hdr.type = .data →
          rseqcmp hdr.seqno (start.conntable node).frameExpected = 0
      · rw [answerData_eq_self _ inOrder]
        exact .inl active
      · rw [Classical.not_imp] at inOrder
        rcases undisturbed inOrder.1 active own inOrder.2 requested failing with ⟨positive, bound⟩
        rcases (extended.conns node).frames with ⟨count, frames, slots⟩
        have window := announcing.bounded node
        have window' := bounded node
        refine .inr (.inr ?_)
        rw [frames]
        exact rseqcmp_pos_of_frames (by omega) positive bound
    · have shielded := @Announcing.shield start announcing node active false
        Bool.noConfusion (fun _ => failing)
      have answered := rules.answerData hdr node shielded
      exact .inl (answered.unfailing node (not_not.mpr rfl)).2
  · have shielded := @Announcing.shield start announcing node active true
      (fun _ => requested) Bool.noConfusion
    have answered := rules.answerData hdr node shielded
    rcases (answered.unrequested node (not_not.mpr rfl)).2 with still | closed
    · exact .inl still
    · exact .inr (.inl ((answered.announced node not_mem_nil).closed closed).1)

theorem Announced.acknowledge (announced : Announced conn) {msg : MsgBuf}
    {rest : List MsgBuf} (pending : conn.pendList = msg :: rest)
    (live : msg.deleted = false) {ackno : SeqNo}
    (covered : rseqcmp msg.header.seqno ackno ≤ 0)
    (unacknowledged : conn.state = .active ∨ conn.live = [] ∨
      0 < rseqcmp conn.frameToSend ackno) : conn.state = .active := by
  have head := Conn.live_acknowledge pending live
  rcases unacknowledged with active | empty | later
  · exact active
  · rw [head] at empty
    exact absurd empty (cons_ne_nil _ _)
  · have opening : ∀ syn : conn.state = .synSent ∨ conn.state = .synRecvd,
        conn.state = .active := by
      intro syn
      have numbered := (announced.opening syn).1
      rw [head] at numbered
      rw [numbered.1] at covered
      omega
    cases state : conn.state with
    | active => rfl
    | closed =>
      have empty := (announced.closed state).1
      rw [head] at empty
      exact absurd empty (cons_ne_nil _ _)
    | synSent => exact state ▸ opening (.inl state)
    | synRecvd => exact state ▸ opening (.inr state)

theorem packetRules_announcing (depth : Nat) {packet : Packet} (begun : Announcing .idle start)
    (activation : UndisturbedActivation start node packet.header.type)
    (answer : UndisturbedAnswer start node packet.header) :
    PacketRules (callbackAt depth) Phase.MayClose Phase.MayQueue Announcing Announcing
      (Unacknowledged node packet.header.ackno) start node packet where
  toLocalRules := localRules_announcing depth
  takenRules := sendRules_announcing_callbackAt depth
  settle := fun _ announcing => announcing
  synRecvd := by
    intro rdp announcing _ inactive _
    apply announcing.change node
    · rfl
    · rfl
    · exact (announcing.announced node not_mem_nil).opened inactive rfl
        rfl rfl (.inr rfl)
  synSent := by
    intro rdp announcing _ inactive _ _ _
    apply announcing.change node
    · rfl
    · rfl
    · exact (announcing.announced node not_mem_nil).opened inactive rfl
        rfl rfl (.inl rfl)
  enterSynSent := by
    intro announcing states
    have inactive : (start.conntable node).state ≠ .active := by
      rcases states with state | state
      · simp [state]
      · simp [state]
    apply announcing.change node
    · rfl
    · rfl
    · exact (announcing.announced node not_mem_nil).opened inactive rfl
        rfl rfl (.inl rfl)
  activate := fun announcing _ _ => announcing.becomeActive node _
  activatePending := by
    intro announcing activates pending
    have active : ((becomeActive packet.header node start).conntable node).state = .active := by
      rw [becomeActive, Station.modify_self]
      exact (Conn.activate_counters _ _).2.2.2.2
    have activated := announcing.becomeActive node packet.header
    by_cases requested : Requested start node
    · rcases activation activates pending requested with ⟨unfailing, few⟩
      refine ⟨.activate node false, ?_, ?_,
        fun _ announcing => announcing.flushPending⟩
      · exact activated.shield active Bool.noConfusion (fun _ => unfailing)
      · exact fun exhausted => absurd exhausted (Nat.not_lt.mpr few)
    · refine ⟨.activate node true, ?_, ?_,
        fun _ announcing => announcing.flushPending⟩
      · exact activated.shield active (fun _ => requested) Bool.noConfusion
      · intro _ closable
        cases closable
  answered := by
    intro rdp answered extended active own equality
    subst equality
    exact unacknowledged_answerData begun active own answer extended answered.bounded
  skipped := by
    intro rdp mp rest announcing unacknowledged pending deleted
    have same := Conn.drop_same (rdp.conntable node) deleted
    rw [Unacknowledged, release_conntable, Station.modify_self]
    rcases unacknowledged with active | empty | later
    · exact Or.inl active
    · apply Or.inr (Or.inl ?_)
      have live := same.live
      rw [empty] at live
      exact map_eq_nil_iff.mp live
    · exact Or.inr (Or.inr later)
  acknowledged := by
    intro rdp mp rest announcing unacknowledged pending live covered
    have active := (announcing.announced node not_mem_nil).acknowledge
      pending live covered unacknowledged
    have bounded : Bounded (rdp.modify node (Conn.acknowledge mp)) := by
      intro other
      rw [← acknowledged_conntable]
      exact bounded_modify (announcing.bounded.release (by simp [pending])) rfl rfl other
    have acknowledged := announcing.modify_same node bounded rfl
      (fun _ => Announced.of_active active)
    refine ⟨acknowledged.congr (acknowledged_conntable node mp rdp)
      (List.Subset.refl _) (List.Subset.refl _), ?_⟩
    rw [Unacknowledged, acknowledged_conntable, Station.modify_self]
    exact .inl active
  take := by
    intro rdp announcing _ _ _ _
    have counted := @Announcing.modify_fields .idle rdp announcing node
      (fun conn => { conn with
        frameExpected := conn.frameExpected + 1
        ackPending := conn.ackPending + 1 }) rfl rfl
      ⟨rfl, rfl, rfl, rfl, rfl⟩
    rw [countFrame]
    split
    · exact counted
    · exact counted.congr rfl (List.Subset.refl _) (List.Subset.refl _)

/-- The condition on a call for the handshake to stay consistent. -/
def Undisturbing (call : Call) (rdp : Station) : Prop :=
  match call with
  | .handleRDP node packet =>
    (rdp.conntable node).closed ≤ gettimeofday rdp →
      UndisturbedActivation rdp node packet.header.type ∧ UndisturbedAnswer rdp node packet.header
  | _ => True

theorem Announcing.handleRDP (depth node : Nat) (packet : Packet)
    (announcing : Announcing .idle rdp) (undisturbing : Undisturbing (.handleRDP node packet) rdp) :
    Announcing .idle (handleRDP (callbackAt depth) packet node rdp) := by
  apply handleRDP_rules (sendRules_announcing_callbackAt depth)
    (fun _ settled => settled) _ announcing
  rintro begun (⟨unset, rfl⟩ | ⟨expired, rfl⟩)
  · rcases undisturbing (by omega) with ⟨activation, answer⟩
    exact ⟨_, packetRules_announcing depth announcing activation answer⟩
  · rcases undisturbing (Nat.le_of_not_lt expired) with ⟨activation, answer⟩
    have cleared := (sendRules_announcing_callbackAt depth).closedTimer _ _
      node 0 ((sendRules_announcing_callbackAt depth).tick _ _ announcing)
    refine ⟨_, packetRules_announcing depth cleared ?_ ?_⟩
    · simpa [UndisturbedActivation, Requested, Failing, Station.tick,
        Station.modify] using activation
    · simpa [UndisturbedAnswer, Requested, Failing, Station.tick, Station.modify] using answer

theorem Announcing.perform (depth : Nat) (announcing : Announcing .idle rdp)
    (call : Call) (undisturbing : Undisturbing call rdp) :
    Announcing .idle (perform (callbackAt depth) call rdp) := by
  have rules := localRules_announcing depth
  cases call with
  | rsendto node buf =>
    apply rules.rsendto announcing
    intro shielded
    cases shielded
  | handleRDP node packet => exact announcing.handleRDP depth node packet undisturbing
  | handleTimeoutRDP => exact rules.handleTimeoutRDP announcing
  | closeConnRDP node => exact rules.closeConnRDP node announcing
  | rdpUpdateNode node addr => exact rules.rdpUpdateNode node addr announcing

/-- A station whose environment disturbs no handshake. -/
def undisturbedSystem (depth : Nat) : TransitionSystem Station where
  initial rdp := ∃ nodes hosts localID clock randoms,
    rdp = rdpInit nodes hosts localID clock randoms
  step before after := ∃ call sends requests, Undisturbing call (before.scripted sends requests) ∧
      after = perform (callbackAt depth) call (before.scripted sends requests)

theorem announcing_rdpInit (nodes : Nat) (hosts : Nat → Nat) (localID : Nat)
    (clock : Nat → Nat) (randoms : Nat → SeqNo) :
    Announcing .idle (rdpInit nodes hosts localID clock randoms) := by
  constructor
  · intro node
    exact ⟨Int.natCast_nonneg _, rfl⟩
  · exact fun node member => absurd member not_mem_nil
  · intro node _
    constructor
    · exact fun _ => ⟨rfl, rfl⟩
    · exact fun opening => opening.elim ConnState.noConfusion ConnState.noConfusion
  · intro node shielded
    exact absurd (fun queueable => by cases queueable) shielded
  · intro node kept
    exact absurd (fun closable => by cases closable) kept

theorem invariant_announcing (depth : Nat) :
    (undisturbedSystem depth).Invariant (Announcing .idle) where
  initial := by
    rintro rdp ⟨nodes, hosts, localID, clock, randoms, rfl⟩
    exact announcing_rdpInit nodes hosts localID clock randoms
  step := by
    rintro before after announcing ⟨call, sends, requests, undisturbing, rfl⟩
    have scripted : Announcing .idle (before.scripted sends requests) := by
      constructor
      · exact announcing.bounded
      · exact announcing.clearing
      · exact announcing.announced
      · intro node shielded
        exact absurd (fun queueable => by cases queueable) shielded
      · intro node kept
        exact absurd (fun closable => by cases closable) kept
    exact scripted.perform depth call undisturbing

/-- The handshake announces the first pending message and `msgPending` counts
all of them. -/
def AnnouncesFirst (conn : Conn) : Prop :=
  conn.state = .synSent ∨ conn.state = .synRecvd →
    (∀ first, conn.live.head? = some first →
      first.header.seqno = conn.frameToSend) ∧
      conn.msgPending = conn.live.length

instance (conn : Conn) : Decidable (AnnouncesFirst conn) :=
  match first : conn.live.head? with
  | none => decidable_of_iff
      (conn.state = .synSent ∨ conn.state = .synRecvd → conn.msgPending = conn.live.length)
      (by simp [AnnouncesFirst, first])
  | some msg => decidable_of_iff
      (conn.state = .synSent ∨ conn.state = .synRecvd →
        msg.header.seqno = conn.frameToSend ∧ conn.msgPending = conn.live.length)
      (by simp [AnnouncesFirst, first])

theorem reachable_announcesFirst {depth : Nat} {rdp : Station}
    (reachable : (undisturbedSystem depth).Reachable rdp) (node : Nat) :
    AnnouncesFirst (rdp.conntable node) := by
  have announcing := (invariant_announcing depth).reachable reachable
  intro opening
  rcases (announcing.announced node not_mem_nil).opening opening with
    ⟨numbered, pending⟩
  refine ⟨?_, pending⟩
  intro first head
  cases live : (rdp.conntable node).live with
  | nil =>
    rw [live] at head
    cases head
  | cons msg rest =>
    rw [live] at head numbered
    cases head
    exact numbered.1

theorem reachable_announcesFirst_rsendto :
    AnnouncesFirst ((perform (callbackAt 1) (.rsendto 1 [7])
      ((rdpInit 2 (fun _ => 1) 0 id (fun _ => 5)).scripted [] [])).conntable 1) :=
  reachable_announcesFirst (.step (.initial ⟨2, fun _ => 1, 0, id,
    fun _ => 5, rfl⟩) ⟨.rsendto 1 [7], [], [], trivial, rfl⟩) 1

/-- The SYNACK activates a connection with a pending message; resending it
fails, and the callback for the lost connection sends to the node again. -/
def lostActivation : Station :=
  perform (callbackAt 1)
    (.handleRDP 1
      { header :=
          { type := .synack, len := 0, seqno := 9, ackno := 0, connid := 3 }
        data := [] })
    ((perform (callbackAt 1) (.rsendto 1 [7])
      ((rdpInit 2 (fun _ => 1) 0 id (fun _ => 5)).scripted [] [])).scripted
        [[{ eno := .connrefused, queue := .node 1 }]] [[], [{ node := 1, buf := [8] }]])

theorem not_reachable_announcesFirst : ¬∀ rdp, (rdpSystem (callbackAt 1)).Reachable rdp →
      ∀ node, AnnouncesFirst (rdp.conntable node) := by
  intro announces
  have sent : (rdpSystem (callbackAt 1)).Reachable
      (perform (callbackAt 1) (.rsendto 1 [7])
        ((rdpInit 2 (fun _ => 1) 0 id (fun _ => 5)).scripted [] [])) :=
    .step (.initial ⟨2, fun _ => 1, 0, id, fun _ => 5, rfl⟩) ⟨.rsendto 1 [7], [], [], rfl⟩
  have lost : (rdpSystem (callbackAt 1)).Reachable lostActivation :=
    .step sent ⟨_, _, _, rfl⟩
  exact absurd (announces lostActivation lost 1) (by decide +kernel)

end Psmgmt.Rdp
