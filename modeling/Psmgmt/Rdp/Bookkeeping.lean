import Psmgmt.Rdp.BufferPool
import Psmgmt.Rdp.PendingList

/-!
# The sender's bookkeeping

Window, sequence numbers and counters of a connection fit its list of pending
messages in every state a station reaches, as long as callbacks do not send.
-/

namespace Psmgmt.Rdp

open List Conn Station

/-- The counters of a connection fit its pending messages.  While it is being
activated `msgPending` is not yet part of `frameToSend`. -/
structure Sequenced (activating : Bool) (conn : Conn) : Prop where
  numbered : Numbered conn.ackExpected conn.live
  count : conn.ackExpected + BitVec.ofNat 32 conn.live.length =
    conn.frameToSend + BitVec.ofNat 32 conn.msgPending
  closed : conn.state = .closed → conn.live = [] ∧ conn.msgPending = 0
  opening : conn.state = .synSent ∨ conn.state = .synRecvd →
    conn.ackExpected = conn.frameToSend ∧ conn.msgPending = conn.live.length
  active : conn.state = .active → activating = false → conn.msgPending = 0
  activating : activating = true → conn.state = .active ∨ conn.state = .closed

theorem Sequenced.congr {activating : Bool} {before after : Conn}
    (sequenced : Sequenced activating before)
    (same : before.SameCounters after) : Sequenced activating after := by
  have length : after.live.length = before.live.length := by
    simpa using congrArg List.length same.live
  constructor
  · rw [same.ackExpected]
    exact numbered_congr sequenced.numbered same.live
  · rw [same.ackExpected, same.frameToSend, same.msgPending, length]
    exact sequenced.count
  · intro closed
    rcases sequenced.closed (same.state ▸ closed) with ⟨empty, pending⟩
    rw [same.msgPending, eq_nil_iff_length_eq_zero, length, empty]
    exact ⟨rfl, pending⟩
  · intro opening
    rw [same.ackExpected, same.frameToSend, same.msgPending, length]
    rw [same.state] at opening
    exact sequenced.opening opening
  · intro active
    rw [same.msgPending]
    exact sequenced.active (same.state ▸ active)
  · rw [same.state]
    exact sequenced.activating

variable {conn : Conn} {rest : List MsgBuf} {rdp : Station} {node : Nat}

theorem Sequenced.queue (sequenced : Sequenced false conn) (id : Nat)
    (buf : List UInt8) : Sequenced false (conn.queue (conn.newMsg id buf)) := by
  have live := conn.live_queue (rfl : (conn.newMsg id buf).deleted = false)
  have next : (conn.newMsg id buf).header.seqno =
      conn.ackExpected + BitVec.ofNat 32 conn.live.length :=
    sequenced.count.symm
  have numbered := numbered_append sequenced.numbered next
  rw [← live] at numbered
  have length : (conn.queue (conn.newMsg id buf)).live.length = conn.live.length + 1 := by
    rw [live, length_append, length_singleton]
  have count := sequenced.count
  cases state : conn.state with
  | closed =>
    rcases sequenced.closed state with ⟨empty, pending⟩
    simp only [Conn.queue, Conn.count, state] at numbered length ⊢
    constructor
    · exact numbered
    · simp only [length, BitVec.ofNat_add]
      bv_omega
    · exact fun closed => ConnState.noConfusion closed
    · intro _
      rw [empty, pending] at count
      rw [length, empty, pending]
      refine ⟨?_, rfl⟩
      simpa using count
    · exact fun active => ConnState.noConfusion active
    · exact fun activating => Bool.noConfusion activating
  | synSent | synRecvd =>
    rcases sequenced.opening (by simp [state]) with ⟨same, pending⟩
    simp only [Conn.queue, Conn.count, state] at numbered length ⊢
    constructor
    · exact numbered
    · simp only [length, BitVec.ofNat_add]
      bv_omega
    · exact fun closed => ConnState.noConfusion closed
    · intro _
      rw [length, pending]
      exact ⟨same, rfl⟩
    · exact fun active => ConnState.noConfusion active
    · exact fun activating => Bool.noConfusion activating
  | active =>
    have pending := sequenced.active state rfl
    simp only [Conn.queue, Conn.count, state] at numbered length ⊢
    constructor
    · exact numbered
    · simp only [length, BitVec.ofNat_add]
      bv_omega
    · exact fun closed => ConnState.noConfusion closed
    · exact fun opening => opening.elim ConnState.noConfusion ConnState.noConfusion
    · exact fun _ _ => pending
    · exact fun activating => Bool.noConfusion activating

theorem Sequenced.drop_deleted (sequenced : Sequenced false conn) {msg : MsgBuf}
    (deleted : msg.deleted = true) : Sequenced false (conn.drop msg) := by
  apply sequenced.congr
  exact ⟨by rw [conn.live_drop deleted], rfl, rfl, rfl, rfl⟩

theorem Sequenced.acknowledge (sequenced : Sequenced false conn) {msg : MsgBuf}
    (pending : conn.pendList = msg :: rest) (live : msg.deleted = false)
    (established : conn.state = .active ∨ conn.state = .closed) :
    Sequenced false (conn.acknowledge msg) := by
  have head := live_acknowledge pending live
  have active : conn.state = .active := by
    rcases established with active | closed
    · exact active
    · have empty := (sequenced.closed closed).1
      rw [head] at empty
      exact absurd empty (cons_ne_nil _ _)
  have count := sequenced.count
  have numbered := sequenced.numbered
  rw [head] at numbered
  rw [head, length_cons, BitVec.ofNat_add] at count
  constructor
  · exact numbered.2
  · simp only [Conn.acknowledge, Conn.drop] at count ⊢
    bv_omega
  · intro closed
    exact absurd (active.symm.trans closed) ConnState.noConfusion
  · intro opening
    exact absurd active (by rcases opening with syn | syn <;>
      exact fun other => ConnState.noConfusion (syn.symm.trans other))
  · exact fun _ _ => sequenced.active active rfl
  · exact fun activating => Bool.noConfusion activating

/-- Whether the connection to `node` is being activated. -/
def Phase.activates (phase : Phase) (node : Nat) : Bool :=
  phase.activating.any (fun entry => entry.1 = node)

structure Booked (phase : Phase) (rdp : Station) : Prop where
  pooled : Pooled rdp
  bounded : Bounded rdp
  sequenced : ∀ node, node ∉ phase.clearing → Sequenced (phase.activates node) (rdp.conntable node)

variable {phase : Phase}

theorem Booked.congr {before after : Station} (booked : Booked phase before)
    (conntable : after.conntable = before.conntable)
    (nrOfNodes : after.nrOfNodes = before.nrOfNodes)
    (msgFreeList : after.msgFreeList = before.msgFreeList)
    (sMsgFree : after.sMsgFree = before.sMsgFree)
    (mallocs : after.mallocs = before.mallocs) : Booked phase after := by
  constructor
  · apply booked.pooled.congr nrOfNodes msgFreeList sMsgFree mallocs
    intro node
    rw [conntable]
  · intro node
    rw [conntable]
    exact booked.bounded node
  · intro node outside
    rw [conntable]
    exact booked.sequenced node outside

theorem Booked.modify {phase' : Phase} {rdp : Station}
    (booked : Booked phase rdp) (node : Nat) {change : Conn → Conn}
    (frames : (change (rdp.conntable node)).frames = (rdp.conntable node).frames)
    (window : (change (rdp.conntable node)).window = (rdp.conntable node).window)
    (others : ∀ other, other ≠ node → other ∉ phase'.clearing →
      other ∉ phase.clearing ∧ phase'.activates other = phase.activates other)
    (sequenced : node ∉ phase'.clearing →
      Sequenced (phase'.activates node) (change (rdp.conntable node))) :
    Booked phase' (rdp.modify node change) := by
  constructor
  · exact booked.pooled.modify node frames
  · apply bounded_modify booked.bounded window
    simpa [Conn.frames] using congrArg List.length frames
  · intro other outside
    by_cases same : other = node
    · subst same
      rw [modify_self]
      exact sequenced outside
    · rcases others other same outside with ⟨before, activates⟩
      rw [modify_other same, activates]
      exact booked.sequenced other before

/-- Changes to fields the bookkeeping does not depend on. -/
theorem Booked.modify_same {rdp : Station} (booked : Booked phase rdp)
    (node : Nat) {change : Conn → Conn}
    (frames : (change (rdp.conntable node)).frames = (rdp.conntable node).frames)
    (window : (change (rdp.conntable node)).window = (rdp.conntable node).window)
    (same : (rdp.conntable node).SameCounters (change (rdp.conntable node))) :
    Booked phase (rdp.modify node change) := by
  apply booked.modify node frames window
  · exact fun other _ outside => ⟨outside, rfl⟩
  · exact fun outside => (booked.sequenced node outside).congr same

theorem Conn.frames_markDeleted (conn : Conn) (index : Nat) :
    (conn.markDeleted index).frames = conn.frames := by
  apply map_modify_same
  exact fun mp => rfl

theorem Conn.frames_refreshAck (conn : Conn) (index : Nat) :
    (conn.refreshAck index).frames = conn.frames := by
  apply map_modify_same
  exact fun mp => rfl

theorem Sequenced.closeWith (deleted : ∀ msg ∈ conn.pendList, msg.deleted = true)
    (activating : Bool) (connid : SeqNo) : Sequenced activating (conn.closeWith connid) := by
  have live : (conn.closeWith connid).live = [] := by
    rw [Conn.live, filter_eq_nil_iff]
    intro msg member
    simpa using deleted msg member
  constructor
  · rw [live]
    trivial
  · rw [live]
    rfl
  · exact fun _ => ⟨live, rfl⟩
  · exact fun opening => opening.elim ConnState.noConfusion ConnState.noConfusion
  · exact fun active => ConnState.noConfusion active
  · exact fun _ => .inr rfl

/-- Messages are queued by nothing but the caller itself. -/
def Undisturbed (phase : Phase) (_node : Nat) : Prop :=
  phase.clearing = [] ∧ phase.activating = none

theorem sendRules_booked : SendRules quiet (fun _ _ => True) Undisturbed Booked where
  bounded := fun phase rdp booked => booked.bounded
  extending := extending_quiet
  notify := fun phase rdp info booked => booked.congr rfl rfl rfl rfl rfl
  tick := fun phase rdp booked => booked.congr rfl rfl rfl rfl rfl
  nextSend := fun phase rdp booked => booked.congr rfl rfl rfl rfl rfl
  errors := fun _ _ _ _ _ _ _ _ _ => trivial
  submit := fun phase rdp node packet booked _ => booked.congr rfl rfl rfl rfl rfl
  sent := fun _ _ _ _ _ _ _ _ booked => booked.congr rfl rfl rfl rfl rfl
  startClosing := by
    intro phase rdp node booked _
    constructor
    · exact booked.pooled.congr rfl rfl rfl rfl (fun _ => rfl)
    · exact booked.bounded
    · intro other outside
      apply booked.sequenced other
      exact fun member => outside (mem_cons_of_mem _ member)
  markDeleted := by
    intro phase rdp node index booked clearing _
    have marked := @Booked.modify phase phase rdp booked node (Conn.markDeleted index)
      (frames_markDeleted _ index) rfl (fun other _ outside => ⟨outside, rfl⟩)
      (fun outside => absurd clearing outside)
    exact marked.congr rfl rfl rfl rfl rfl
  finishClosing := by
    intro phase rdp node booked deleted
    have closed := @Booked.modify (phase.clear node) phase rdp booked node
      (Conn.closeWith (rdp.randoms rdp.draws)) rfl rfl
      (fun other different outside =>
        ⟨fun member => (mem_cons.mp member).elim different outside, rfl⟩)
      (fun _ => Sequenced.closeWith deleted _ _)
    exact closed.congr rfl rfl rfl rfl rfl
  clearAckPending := fun phase rdp node booked =>
    booked.modify_same node rfl rfl ⟨rfl, rfl, rfl, rfl, rfl⟩
  closedTimer := fun phase rdp node time booked =>
    booked.modify_same node rfl rfl ⟨rfl, rfl, rfl, rfl, rfl⟩
  timer := fun phase rdp node tmout retrans booked =>
    booked.modify_same node rfl rfl ⟨rfl, rfl, rfl, rfl, rfl⟩
  enqueue := by
    intro phase rdp node buf id rest small mallocs booked undisturbed known window size free framed
    have conntable : (enqueue node id buf
        { rdp with
          msgFreeList := rest, sMsgFree := small
          mallocs := mallocs }).conntable =
        (rdp.modify node (fun conn =>
          conn.queue ((rdp.conntable node).newMsg id buf))).conntable := rfl
    constructor
    · exact booked.pooled.enqueue known free framed
    · intro other
      rw [conntable]
      exact bounded_queue booked.bounded window _ other
    · intro other outside
      rw [conntable]
      have sequenced := booked.sequenced other outside
      by_cases same : other = node
      · subst same
        have activates : phase.activates other = false := by
          simp [Phase.activates, undisturbed.2]
        rw [activates] at sequenced ⊢
        rw [modify_self]
        exact sequenced.queue id buf
      · rw [modify_other same]
        exact sequenced
  leak := by
    intro phase rdp length id rest small mallocs booked free framed
    have ok := booked.pooled.getFrame_ok free length
    rw [framed] at ok
    cases ok

theorem localRules_booked : LocalRules quiet (fun _ _ => True) Undisturbed Booked where
  toSendRules := sendRules_booked
  closable_idle := fun _ => trivial
  refreshAck := fun phase rdp node index booked =>
    booked.modify_same node (frames_refreshAck _ index) rfl (refreshAck_same _ index)
  release := by
    intro rdp node msg booked pending deleted
    constructor
    · exact booked.pooled.release pending
    · exact booked.bounded.release pending
    · intro other outside
      rw [release_conntable]
      have sequenced := booked.sequenced other outside
      by_cases same : other = node
      · subst same
        rw [modify_self]
        exact sequenced.drop_deleted deleted
      · rw [modify_other same]
        exact sequenced
  cleanupDone := fun rdp booked => booked.congr rfl rfl rfl rfl rfl
  address := fun rdp node addr booked => booked.modify_same node rfl rfl ⟨rfl, rfl, rfl, rfl, rfl⟩

theorem Sequenced.opened {before after : Conn} (sequenced : Sequenced false before)
    (inactive : before.state ≠ .active) (live : after.live = before.live)
    (ackExpected : after.ackExpected = before.ackExpected)
    (frameToSend : after.frameToSend = before.frameToSend)
    (msgPending : after.msgPending = before.msgPending)
    (opening : after.state = .synSent ∨ after.state = .synRecvd) :
    Sequenced false after := by
  have counters : before.ackExpected = before.frameToSend ∧
      before.msgPending = before.live.length := by
    cases state : before.state with
    | closed =>
      rcases sequenced.closed state with ⟨empty, pending⟩
      have count := sequenced.count
      rw [empty, pending] at count
      rw [empty, pending]
      exact ⟨by simpa using count, rfl⟩
    | synSent => exact sequenced.opening (.inl state)
    | synRecvd => exact sequenced.opening (.inr state)
    | active => exact absurd state inactive
  constructor
  · rw [live, ackExpected]
    exact sequenced.numbered
  · rw [live, ackExpected, frameToSend, msgPending]
    exact sequenced.count
  · intro closed
    rw [closed] at opening
    exact opening.elim ConnState.noConfusion ConnState.noConfusion
  · intro _
    rw [live, ackExpected, frameToSend, msgPending]
    exact counters
  · intro active
    rw [active] at opening
    exact opening.elim ConnState.noConfusion ConnState.noConfusion
  · exact fun activating => Bool.noConfusion activating

theorem Conn.frames_activate (hdr : Header) (conn : Conn) :
    (conn.activate hdr).frames = conn.frames := by
  simp only [Conn.activate, Conn.frames]
  split
  · rfl
  · rfl

theorem Sequenced.activate (sequenced : Sequenced false conn) (hdr : Header)
    {activating : Bool} (complete : activating = false → conn.msgPending = 0) :
    Sequenced activating (conn.activate hdr) := by
  have live := conn.live_activate hdr
  rcases conn.activate_counters hdr with
    ⟨_, ackExpected, frameToSend, msgPending, active⟩
  constructor
  · rw [live, ackExpected]
    exact sequenced.numbered
  · rw [live, ackExpected, frameToSend, msgPending]
    exact sequenced.count
  · intro closed
    exact absurd (active.symm.trans closed) ConnState.noConfusion
  · intro opening
    rw [active] at opening
    exact opening.elim ConnState.noConfusion ConnState.noConfusion
  · intro _ notActivating
    rw [msgPending]
    exact complete notActivating
  · exact fun _ => .inl active

theorem Sequenced.flush (sequenced : Sequenced true conn) : Sequenced false conn.flush := by
  constructor
  · exact sequenced.numbered
  · have count := sequenced.count
    simp only [Conn.live, Conn.flush] at count ⊢
    rw [count]
    bv_omega
  · exact fun closed => ⟨(sequenced.closed closed).1, rfl⟩
  · intro opening
    have state : conn.state = .synSent ∨ conn.state = .synRecvd := opening
    rcases sequenced.activating rfl with active | closed
    · rw [active] at state
      exact state.elim ConnState.noConfusion ConnState.noConfusion
    · rw [closed] at state
      exact state.elim ConnState.noConfusion ConnState.noConfusion
  · exact fun _ _ => rfl
  · exact fun activating => Bool.noConfusion activating

/-- A connection to `node` that is not about to be opened. -/
def Settled (node : Nat) (_phase : Phase) (rdp : Station) : Prop :=
  Bounded rdp ∧ ((rdp.conntable node).state = .active ∨ (rdp.conntable node).state = .closed)

theorem Settled.modify {node : Nat} {rdp : Station}
    (settled : Settled node phase rdp) (other : Nat) {change : Conn → Conn}
    (window : (change (rdp.conntable other)).window = (rdp.conntable other).window)
    (length : (change (rdp.conntable other)).pendList.length =
      (rdp.conntable other).pendList.length)
    (state : (change (rdp.conntable other)).state = (rdp.conntable other).state ∨
      (change (rdp.conntable other)).state = .closed) :
    Settled node phase (rdp.modify other change) := by
  refine ⟨bounded_modify settled.1 window length, ?_⟩
  by_cases same : node = other
  · subst same
    rw [modify_self]
    rcases state with kept | closed
    · rw [kept]
      exact settled.2
    · exact .inr closed
  · rw [modify_other same]
    exact settled.2

/-- Without callbacks sending never opens a connection. -/
theorem sendRules_settled (node : Nat) :
    SendRules quiet (fun _ _ => True) (fun _ _ => False) (Settled node) where
  bounded := fun _ _ settled => settled.1
  extending := extending_quiet
  notify := fun _ _ _ settled => settled
  tick := fun _ _ settled => settled
  nextSend := fun _ _ settled => settled
  errors := fun _ _ _ _ _ _ _ _ _ => trivial
  submit := fun _ _ _ _ settled _ => settled
  sent := fun _ _ _ _ _ _ _ _ settled => settled
  startClosing := fun _ _ _ settled _ => settled
  markDeleted := fun _ _ node _ settled _ _ =>
    settled.modify node rfl (length_modify _ _ _) (.inl rfl)
  finishClosing := fun _ _ node settled _ => settled.modify node rfl rfl (.inr rfl)
  clearAckPending := fun _ _ node settled => settled.modify node rfl rfl (.inl rfl)
  closedTimer := fun _ _ node _ settled => settled.modify node rfl rfl (.inl rfl)
  timer := fun _ _ node _ _ settled => settled.modify node rfl rfl (.inl rfl)
  enqueue := fun _ _ _ _ _ _ _ _ _ never => absurd never id
  leak := fun _ _ _ _ _ _ _ settled _ _ => settled

theorem Booked.idle (booked : Booked .idle rdp) (node : Nat) :
    Sequenced false (rdp.conntable node) :=
  booked.sequenced node not_mem_nil

theorem Booked.change {rdp : Station} (booked : Booked .idle rdp) (node : Nat)
    {change : Conn → Conn}
    (frames : (change (rdp.conntable node)).frames = (rdp.conntable node).frames)
    (window : (change (rdp.conntable node)).window = (rdp.conntable node).window)
    (sequenced : Sequenced false (change (rdp.conntable node))) :
    Booked .idle (rdp.modify node change) :=
  booked.modify node frames window (fun _ _ outside => ⟨outside, rfl⟩) (fun _ => sequenced)

theorem Phase.activates_self (node : Nat) (closable : Bool) :
    (Phase.activate node closable).activates node = true := by
  simp [Phase.activates, Phase.activate]

theorem Phase.activates_other {other : Nat} (different : other ≠ node)
    (closable : Bool) :
    (Phase.activate node closable).activates other = false := by
  simpa [Phase.activates, Phase.activate] using
    fun same => different same.symm

theorem Booked.activating (booked : Booked .idle rdp) (node : Nat)
    {change : Conn → Conn} (frames : (change (rdp.conntable node)).frames =
      (rdp.conntable node).frames)
    (window : (change (rdp.conntable node)).window = (rdp.conntable node).window)
    (sequenced : Sequenced true (change (rdp.conntable node))) :
    Booked (.activate node true) (rdp.modify node change) := by
  apply booked.modify node frames window
  · intro other different outside
    exact ⟨outside, Phase.activates_other different true⟩
  · intro _
    rw [Phase.activates_self]
    exact sequenced

theorem Booked.flushPending (booked : Booked (.activate node true) rdp) :
    Booked .idle (flushPending node rdp) := by
  refine @Booked.modify _ .idle rdp booked node Conn.flush rfl rfl ?_ ?_
  · intro other different _
    exact ⟨not_mem_nil, (Phase.activates_other different true).symm⟩
  · intro _
    have activating := booked.sequenced node not_mem_nil
    rw [Phase.activates_self] at activating
    exact activating.flush

theorem Settled.release {mp : MsgBuf} (settled : Settled node .idle rdp)
    (pending : (rdp.conntable node).pendList = mp :: rest) :
    Settled node .idle (release node mp rdp) := by
  refine ⟨settled.1.release (by simp [pending]), ?_⟩
  rw [release_conntable, modify_self]
  exact settled.2

theorem Booked.acknowledged {mp : MsgBuf} (booked : Booked .idle rdp)
    (settled : Settled node .idle rdp) (pending : (rdp.conntable node).pendList = mp :: rest)
    (live : mp.deleted = false) :
    Booked .idle (acknowledged node (release node mp rdp)) := by
  have member : mp ∈ (rdp.conntable node).pendList := by simp [pending]
  constructor
  · exact (booked.pooled.release member).modify node rfl
  · exact bounded_modify (booked.bounded.release member) rfl rfl
  · intro other _
    rw [acknowledged_conntable]
    by_cases same : other = node
    · subst same
      rw [modify_self]
      exact (booked.idle other).acknowledge pending live settled.2
    · rw [modify_other same]
      exact booked.idle other

theorem packetRules_booked {start : Station} (bounded : Bounded start)
    (node : Nat) (packet : Packet) :
    PacketRules quiet (fun _ _ => True) Undisturbed Booked Booked
      (Settled node .idle) start node packet where
  toLocalRules := localRules_booked
  takenRules := sendRules_booked
  settle := fun _ booked => booked
  synRecvd := by
    intro rdp booked _ inactive _
    apply booked.change node
    · rfl
    · rfl
    · exact (booked.idle node).opened inactive rfl rfl rfl rfl (.inr rfl)
  synSent := by
    intro rdp booked _ inactive _ _ _
    apply booked.change node
    · rfl
    · rfl
    · exact (booked.idle node).opened inactive rfl rfl rfl rfl (.inl rfl)
  enterSynSent := by
    intro booked states
    have inactive : (start.conntable node).state ≠ .active := by
      rcases states with state | state
      · simp [state]
      · simp [state]
    apply booked.change node
    · rfl
    · rfl
    · exact (booked.idle node).opened inactive rfl rfl rfl rfl (.inl rfl)
  activate := by
    intro booked _ complete
    exact booked.change node (frames_activate _ _) (activate_counters _ _).1
      ((booked.idle node).activate _ (fun _ => complete))
  activatePending := by
    intro booked _ _
    refine ⟨.activate node true, ?_, fun _ => trivial,
      fun _ activating => activating.flushPending⟩
    apply booked.activating node (frames_activate _ _) (activate_counters _ _).1
    apply (booked.idle node).activate
    exact fun notActivating => Bool.noConfusion notActivating
  answered := by
    intro rdp _ _ active _ equality
    rw [equality]
    exact (sendRules_settled node).answerData _ _ ⟨bounded, .inl active⟩
  skipped := fun _ _ _ _ settled pending _ => settled.release pending
  acknowledged := by
    intro rdp mp rest booked settled pending live _
    refine ⟨booked.acknowledged settled pending live, ?_⟩
    exact (settled.release pending).modify node rfl rfl (.inl rfl)
  take := by
    intro rdp booked _ _ _ _
    have counted := @Booked.modify_same .idle rdp booked node
      (fun conn => { conn with
        frameExpected := conn.frameExpected + 1
        ackPending := conn.ackPending + 1 }) rfl rfl
      ⟨rfl, rfl, rfl, rfl, rfl⟩
    rw [countFrame]
    split
    · exact counted
    · exact counted.congr rfl rfl rfl rfl rfl

theorem booked_rdpInit (nodes : Nat) (hosts : Nat → Nat) (localID : Nat)
    (clock : Nat → Nat) (randoms : Nat → SeqNo) :
    Booked .idle (rdpInit nodes hosts localID clock randoms) := by
  constructor
  · exact Pooled.rdpInit nodes hosts localID clock randoms
  · intro node
    exact ⟨Int.natCast_nonneg _, rfl⟩
  · intro node _
    constructor
    · trivial
    · rfl
    · exact fun _ => ⟨rfl, rfl⟩
    · exact fun opening => opening.elim ConnState.noConfusion ConnState.noConfusion
    · exact fun active => ConnState.noConfusion active
    · exact fun activating => Bool.noConfusion activating

theorem Booked.perform (booked : Booked .idle rdp) (call : Call) :
    Booked .idle (perform quiet call rdp) := by
  cases call with
  | rsendto node buf => exact sendRules_booked.rsendto booked ⟨rfl, rfl⟩
  | handleRDP node packet =>
    apply handleRDP_rules sendRules_booked (fun _ settled => settled) _ booked
    intro begun begins
    refine ⟨_, packetRules_booked ?_ node packet⟩
    rcases begins with ⟨_, same⟩ | ⟨_, cleared⟩
    · rw [same]
      exact booked.bounded
    · rw [cleared]
      exact @bounded_modify rdp.tick booked.bounded node
        (fun conn => { conn with closed := 0 }) rfl rfl
  | handleTimeoutRDP => exact localRules_booked.handleTimeoutRDP booked
  | closeConnRDP node => exact localRules_booked.closeConnRDP node booked
  | rdpUpdateNode node addr => exact localRules_booked.rdpUpdateNode node addr booked

theorem invariant_booked : (rdpSystem quiet).Invariant (Booked .idle) where
  initial := by
    rintro rdp ⟨nodes, hosts, localID, clock, randoms, rfl⟩
    exact booked_rdpInit nodes hosts localID clock randoms
  step := by
    rintro before after booked ⟨call, sends, requests, rfl⟩
    have scripted : Booked .idle (before.scripted sends requests) :=
      booked.congr rfl rfl rfl rfl rfl
    exact scripted.perform call

/-- Windows, sequence numbers and buffers in every state a station reaches. -/
theorem reachable_bookkeeping {rdp : Station}
    (reachable : (rdpSystem quiet).Reachable rdp) :
    (∀ node,
      let conn := rdp.conntable node
      0 ≤ conn.window ∧
        conn.window + conn.pendList.length = maxWindowSize ∧
        Numbered conn.ackExpected conn.live ∧
        BitVec.ofNat 32 conn.live.length =
          conn.frameToSend + BitVec.ofNat 32 conn.msgPending - conn.ackExpected ∧
        (conn.state = .closed ∨ conn.state = .active → conn.msgPending = 0)) ∧
      (rdp.msgFreeList ++ (List.range rdp.nrOfNodes).flatMap
        (fun node => (rdp.conntable node).pendList.map MsgBuf.id)).Perm
          (List.range (rdp.nrOfNodes * maxWindowSize)) := by
  have booked := invariant_booked.reachable reachable
  constructor
  · intro node
    rcases booked.bounded node with ⟨nonneg, total⟩
    have sequenced := booked.idle node
    refine ⟨nonneg, total, sequenced.numbered, ?_, ?_⟩
    · rw [← sequenced.count]
      bv_omega
    · rintro (closed | active)
      · exact (sequenced.closed closed).2
      · exact sequenced.active active rfl
  · have buffers := booked.pooled.buffers
    simpa [Station.frames, Conn.frames, map_flatMap, Function.comp_def] using buffers

theorem reachable_bookkeeping_rsendto :
    let rdp := (rsendto quiet 1 [7] (rdpInit 2 (fun _ => 1) 0 (fun time => time) (fun _ => 5))).2
    (∀ node,
      let conn := rdp.conntable node
      0 ≤ conn.window ∧
        conn.window + conn.pendList.length = maxWindowSize ∧
        Numbered conn.ackExpected conn.live ∧
        BitVec.ofNat 32 conn.live.length =
          conn.frameToSend + BitVec.ofNat 32 conn.msgPending - conn.ackExpected ∧
        (conn.state = .closed ∨ conn.state = .active → conn.msgPending = 0)) ∧
      (rdp.msgFreeList ++ (List.range rdp.nrOfNodes).flatMap
        (fun node => (rdp.conntable node).pendList.map MsgBuf.id)).Perm
          (List.range (rdp.nrOfNodes * maxWindowSize)) :=
  reachable_bookkeeping (.step
    (.initial ⟨2, fun _ => 1, 0, fun time => time, fun _ => 5, rfl⟩)
    ⟨.rsendto 1 [7], [], [], rfl⟩)

/-- As long as a node's window is open, neither the buffers nor the frames are
used up. -/
theorem reachable_room {rdp : Station} (reachable : (rdpSystem quiet).Reachable rdp)
    {node : Nat} (known : node < rdp.nrOfNodes) (room : (rdp.conntable node).window ≠ 0) :
    ∃ id rest, rdp.msgFreeList = id :: rest ∧ ∀ length, (getFrame length rdp).1 = true := by
  have booked := invariant_booked.reachable reachable
  have fewer : rdp.frames.length < rdp.nrOfNodes * maxWindowSize := by
    have less : ((range rdp.nrOfNodes).map fun node => (rdp.conntable node).pendList.length).sum <
        ((range rdp.nrOfNodes).map fun _ => maxWindowSize).sum :=
      sum_lt_sum _ _ (fun node _ => by have := booked.bounded node; omega)
        ⟨node, mem_range.mpr known, by have := booked.bounded node; omega⟩
    simpa [Station.frames, Conn.frames, length_flatMap] using less
  have total := booked.pooled.length
  obtain ⟨id, rest, free⟩ := exists_cons_of_length_pos (l := rdp.msgFreeList) (by omega)
  exact ⟨id, rest, free, booked.pooled.getFrame_ok free⟩

theorem reachable_room_rdpInit :
    ∃ id rest, (rdpInit 2 1 0 (·) 5).msgFreeList = id :: rest ∧
      ∀ length, (getFrame length (rdpInit 2 1 0 (·) 5)).1 = true :=
  @reachable_room _ (.initial ⟨2, 1, 0, (·), 5, rfl⟩) 1 (by decide) (by decide)

/-- A closed connection keeps no message, and one being opened has sent none. -/
theorem reachable_opening {rdp : Station} (reachable : (rdpSystem quiet).Reachable rdp)
    (node : Nat) :
    ((rdp.conntable node).state = .closed → (rdp.conntable node).live = []) ∧
    ((rdp.conntable node).state = .synSent ∨ (rdp.conntable node).state = .synRecvd →
      (rdp.conntable node).ackExpected = (rdp.conntable node).frameToSend ∧
        (rdp.conntable node).msgPending = (rdp.conntable node).live.length) := by
  have sequenced := (invariant_booked.reachable reachable).idle node
  exact ⟨fun closed => (sequenced.closed closed).1, sequenced.opening⟩

theorem reachable_opening_rsendto :
    ∃ conn, (rsendto quiet 1 [7] (rdpInit 2 1 0 (·) 5)).2.conntable 1 = conn ∧
      conn.msgPending = conn.live.length :=
  ⟨_, rfl, ((reachable_opening (.step (.initial ⟨2, 1, 0, (·), 5, rfl⟩)
    ⟨.rsendto 1 [7], [], [], rfl⟩) 1).2 (.inl (by decide +kernel))).2⟩

end Psmgmt.Rdp
