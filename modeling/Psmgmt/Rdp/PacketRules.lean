import Psmgmt.Rdp.SendRules

/-!
# Rules for timeouts and received packets

`LocalRules` adds the updates made by `resendMsgs()`, by the timeout handler
and by the functions closing connections; `PacketRules` those made while a
packet is handled.  A packet's rules refer to the station it arrives at.
-/

namespace Psmgmt.Rdp

open List Station

/-- The connection without a message of its pending list. -/
def Conn.drop (msg : MsgBuf) (conn : Conn) : Conn :=
  { conn with
    pendList := conn.pendList.erase msg, window := conn.window + 1 }

attribute [local simp] Station.modify

theorem release_conntable (node : Nat) (msg : MsgBuf) (rdp : Station) :
    (release node msg rdp).conntable = (rdp.modify node (Conn.drop msg)).conntable := by
  simp [release, putMsg, Conn.drop]

variable {rdp : Station} {node : Nat}

theorem Bounded.release (bounded : Bounded rdp) {msg : MsgBuf}
    (pending : msg ∈ (rdp.conntable node).pendList) :
    Bounded (release node msg rdp) := by
  intro other
  rw [release_conntable]
  by_cases same : other = node
  · subst same
    rcases bounded other with ⟨nonneg, total⟩
    have positive := length_pos_of_mem pending
    rw [modify_self]
    simp only [Conn.drop, length_erase_of_mem pending]
    omega
  · rw [modify_other same]
    exact bounded other

/-- What a property has to survive apart from sending. -/
structure LocalRules (cb : RdpCallback)
    (Closable Queueable : Phase → Nat → Prop)
    (property : Phase → Station → Prop) : Prop
    extends SendRules cb Closable Queueable property where
  closable_idle : ∀ node, Closable .idle node
  refreshAck : ∀ phase rdp node index, property phase rdp →
    property phase (refreshAck node index rdp)
  release : ∀ rdp node msg, property .idle rdp →
    msg ∈ (rdp.conntable node).pendList → msg.deleted = true → property .idle (release node msg rdp)
  cleanupDone : ∀ rdp, property .idle rdp → property .idle { rdp with cleanupReq := false }
  address : ∀ rdp node addr, property .idle rdp →
    property .idle (rdp.modify node (fun conn => { conn with addr := addr }))

section Unfold

variable {cb : RdpCallback}

theorem resendMsgs_eq (node : Nat) (rdp : Station) :
    resendMsgs cb node rdp = rdp ∨ resendMsgs cb node rdp = rdp.tick ∨ ∃ tmout retrans,
        ((rdp.conntable node).retrans > rdp.maxRetransCount ∧
          resendMsgs cb node rdp = closeConnection cb node true
            (rdp.tick.modify node (Conn.timer tmout retrans))) ∨
        resendMsgs cb node rdp =
          let timed := rdp.tick.modify node (Conn.timer tmout retrans)
          match (rdp.conntable node).state with
          | .closed => timed
          | .synSent => sendSYN cb node timed
          | .synRecvd => sendSYNACK cb node timed
          | .active => clearAckPending node (resendLoop cb node maxWindowSize 0 timed) := by
  rw [resendMsgs]
  split
  · exact Or.inl rfl
  · apply Or.inr
    simp only
    split
    · exact Or.inl rfl
    · apply Or.inr
      split
      · next exhausted =>
          refine ⟨gettimeofday rdp + rdp.resendTimeout, (rdp.conntable node).retrans, .inl ⟨?_, ?_⟩⟩
          · simpa [Station.tick] using exhausted
          · simp [Conn.timer, Station.tick]
      · refine ⟨gettimeofday rdp + rdp.resendTimeout, (rdp.conntable node).retrans + 1, .inr ?_⟩
        rw [modify_modify]
        simp only [modify_self]
        rfl

end Unfold

namespace LocalRules

variable {cb : RdpCallback} {Closable Queueable : Phase → Nat → Prop}
  {property : Phase → Station → Prop}
  (rules : LocalRules cb Closable Queueable property)

include rules

theorem resendLoop {phase : Phase} (node count : Nat) :
    ∀ index rdp, property phase rdp → property phase (resendLoop cb node count index rdp) := by
  induction count with
  | zero =>
    intro index rdp holds
    exact holds
  | succ count induction =>
    intro index rdp holds
    rw [Rdp.resendLoop]
    split
    · exact holds
    · next mp found =>
        split
        · exact induction _ _ holds
        · next live =>
            have refreshed := rules.refreshAck _ _ node index holds
            have sendable : Sendable
                ((Rdp.refreshAck node index rdp).conntable node)
                { header := { mp.header with
                    ackno := (rdp.conntable node).frameExpected - 1 }
                  data := mp.data } := by
              rw [Rdp.refreshAck, modify_self]
              refine @Sendable.data _ { mp with header := { mp.header with
                ackno := (rdp.conntable node).frameExpected - 1 } } ?_ ?_ ?_
              · apply @mem_of_getElem? _ _ index
                simp [Conn.refreshAck, found]
              · simpa using live
              · rfl
            have sent := rules.mysendto refreshed sendable
            simp only
            split
            · next equality =>
                rw [equality] at sent
                exact sent
            · next equality =>
                rw [equality] at sent
                exact induction _ _ sent

theorem resendMsgs {phase : Phase} (holds : property phase rdp)
    (exhausted : (rdp.conntable node).retrans > rdp.maxRetransCount →
      Closable phase node) : property phase (resendMsgs cb node rdp) := by
  have ticked := rules.tick _ _ holds
  rcases resendMsgs_eq node rdp with
    equality | equality | ⟨tmout, retrans, ⟨exceeded, equality⟩ | equality⟩
  · rw [equality]
    exact holds
  · rw [equality]
    exact ticked
  · rw [equality]
    exact rules.closeConnection node true
      (rules.timer _ _ node tmout retrans ticked) (exhausted exceeded)
  · have timed := rules.timer _ _ node tmout retrans ticked
    have state : ((rdp.tick.modify node
        (Conn.timer tmout retrans)).conntable node).state = (rdp.conntable node).state := by
      rw [modify_self]
      rfl
    rw [equality]
    simp only
    split
    · exact timed
    · next syn => exact rules.sendSYN timed (state.trans syn)
    · next syn => exact rules.sendSYNACK timed (state.trans syn)
    · exact rules.clearAckPending _ _ _ (rules.resendLoop _ _ _ _ timed)

theorem timeoutLoop (now count : Nat) :
    ∀ index rdp, property .idle rdp → property .idle (timeoutLoop cb now count index rdp) := by
  induction count with
  | zero =>
    intro index rdp holds
    exact holds
  | succ count induction =>
    intro index rdp holds
    rw [Rdp.timeoutLoop]
    split
    · exact holds
    · next node id _ =>
        apply induction
        split
        · exact rules.resendMsgs holds (fun _ => rules.closable_idle node)
        · exact holds

theorem cleanupMsg {mp : MsgBuf} (holds : property .idle rdp)
    (pending : mp ∈ (rdp.conntable node).pendList) (deleted : mp.deleted = true) :
    property .idle (cleanupMsg cb node mp rdp) := by
  have released := rules.release _ _ _ holds pending deleted
  rw [Rdp.cleanupMsg]
  split
  · exact rules.notify _ _ _ released
  · exact released

theorem cleanupLoop (count : Nat) :
    ∀ index rdp, property .idle rdp → property .idle (cleanupLoop cb count index rdp) := by
  induction count with
  | zero =>
    intro index rdp holds
    exact holds
  | succ count induction =>
    intro index rdp holds
    rw [Rdp.cleanupLoop]
    split
    · exact holds
    · next node id _ =>
        simp only
        split
        · split
          · exact holds
          · exact induction _ _ holds
        · next mp found =>
            have deleted := find?_some found
            simp only [Bool.and_eq_true] at deleted
            have cleaned := rules.cleanupMsg holds (mem_of_find?_eq_some found) deleted.2
            split
            · exact cleaned
            · exact induction _ _ cleaned

theorem handleTimeoutRDP (holds : property .idle rdp) :
    property .idle (handleTimeoutRDP cb rdp) := by
  have resent := rules.timeoutLoop (gettimeofday rdp) (ackListBound rdp.tick)
    0 _ (rules.tick _ _ holds)
  rw [Rdp.handleTimeoutRDP]
  simp only
  split
  · exact rules.cleanupDone _ (rules.cleanupLoop _ _ _ resent)
  · exact resent

theorem closeConnRDP (node : Nat) (holds : property .idle rdp) :
    property .idle (closeConnRDP cb node rdp) :=
  rules.closedTimer _ _ node _ (rules.tick _ _
    (rules.closeConnection node false holds (rules.closable_idle node)))

theorem rdpUpdateNode (node addr : Nat) (holds : property .idle rdp) :
    property .idle (rdpUpdateNode cb node addr rdp) := by
  rw [Rdp.rdpUpdateNode]
  split
  · exact holds
  · split
    · exact holds
    · apply rules.address
      split
      · exact rules.closeConnection node false holds (rules.closable_idle node)
      · exact holds

end LocalRules

/-- The packets that make a connection active. -/
def Activates (state : ConnState) (type : PktType) : Prop :=
  (state = .synSent ∧ type = .synack) ∨
    (state = .synRecvd ∧ (type = .synack ∨ type = .ack ∨ type = .data))

/-- The update of a connection becoming active. -/
def Conn.activate (hdr : Header) (conn : Conn) : Conn :=
  if hdr.type = .synack then
    { conn with
      state := .active, frameExpected := hdr.seqno, connIDIn := hdr.connid }
  else { conn with state := .active }

def becomeActive (hdr : Header) (node : Nat) (rdp : Station) : Station :=
  rdp.modify node (Conn.activate hdr)

theorem becomeActive_synack {hdr : Header} (synack : hdr.type = .synack)
    (node : Nat) (rdp : Station) :
    becomeActive hdr node rdp = accept .active hdr node rdp := by
  simp [becomeActive, Conn.activate, accept, synack]

theorem becomeActive_other {hdr : Header} (other : hdr.type ≠ .synack)
    (node : Nat) (rdp : Station) :
    becomeActive hdr node rdp = enter .active node rdp := by
  simp [becomeActive, Conn.activate, enter, other]

/-- What a property has to survive while a packet from `node` is handled that
arrives at `start`.  Once its payload is taken, `taken` holds instead. -/
structure PacketRules (cb : RdpCallback)
    (Closable Queueable : Phase → Nat → Prop)
    (property taken : Phase → Station → Prop) (Acking : Station → Prop)
    (start : Station) (node : Nat) (packet : Packet) : Prop
    extends LocalRules cb Closable Queueable property where
  takenRules : SendRules cb Closable Queueable taken
  settle : ∀ rdp, property .idle rdp → taken .idle rdp
  synRecvd : ∀ rdp, property .idle rdp → Extends start rdp →
    (rdp.conntable node).state ≠ .active → packet.header.type = .syn →
      property .idle (accept .synRecvd packet.header node rdp)
  synSent : ∀ rdp, property .idle rdp → Extends start rdp →
    (rdp.conntable node).state ≠ .active → packet.header.type = .synack →
    (start.conntable node).state = .active →
    packet.header.connid ≠ (start.conntable node).connIDIn →
      property .idle (accept .synSent packet.header node rdp)
  enterSynSent : property .idle start →
    ((start.conntable node).state = .closed ∨ (start.conntable node).state = .synRecvd) → property
      .idle (enter .synSent node start)
  activate : property .idle start → Activates (start.conntable node).state packet.header.type →
    (start.conntable node).msgPending = 0 → property .idle (becomeActive packet.header node start)
  activatePending : property .idle start →
    Activates (start.conntable node).state packet.header.type →
    (start.conntable node).msgPending ≠ 0 →
      ∃ phase, property phase (becomeActive packet.header node start) ∧
        ((start.conntable node).retrans > start.maxRetransCount → Closable phase node) ∧
        ∀ rdp, property phase rdp → property .idle (flushPending node rdp)
  answered : ∀ rdp, property .idle rdp → Extends start rdp → (start.conntable node).state = .active
    → packet.header.connid = (start.conntable node).connIDIn → rdp = answerData cb packet.header
    node start → Acking rdp
  skipped : ∀ rdp mp rest, property .idle rdp → Acking rdp →
    (rdp.conntable node).pendList = mp :: rest → mp.deleted = true →
      Acking (Rdp.release node mp rdp)
  acknowledged : ∀ rdp mp rest, property .idle rdp → Acking rdp →
    (rdp.conntable node).pendList = mp :: rest → mp.deleted = false →
    rseqcmp mp.header.seqno packet.header.ackno ≤ 0 →
      property .idle (acknowledged node (Rdp.release node mp rdp)) ∧ Acking
        (acknowledged node (Rdp.release node mp rdp))
  take : ∀ rdp, property .idle rdp → packet.header.type = .data →
    (start.conntable node).state = .active →
    rseqcmp packet.header.seqno (start.conntable node).frameExpected = 0 →
    (rdp.conntable node).frameExpected = packet.header.seqno →
      taken .idle (countFrame packet maxDataSize node rdp)

namespace PacketRules

variable {cb : RdpCallback} {Closable Queueable : Phase → Nat → Prop}
  {property taken : Phase → Station → Prop} {Acking : Station → Prop}
  {start : Station} {node : Nat} {packet : Packet}
  (rules : PacketRules cb Closable Queueable property taken Acking start node packet)

include rules

theorem activated (holds : property .idle start)
    (activates : Activates (start.conntable node).state packet.header.type) :
    property .idle (activated cb node (becomeActive packet.header node start)) := by
  have conn : ((becomeActive packet.header node start).conntable
      node).msgPending = (start.conntable node).msgPending ∧
      ((becomeActive packet.header node start).conntable node).retrans =
        (start.conntable node).retrans := by
    rw [becomeActive, modify_self, Conn.activate]
    split
    · exact ⟨rfl, rfl⟩
    · exact ⟨rfl, rfl⟩
  rcases conn with ⟨msgPending, retrans⟩
  rw [Rdp.activated]
  apply rules.notify
  simp only [msgPending]
  split
  · next pending =>
      rcases rules.activatePending holds activates pending with
        ⟨phase, active, exhausted, flush⟩
      apply flush
      apply rules.resendMsgs active
      rw [retrans]
      exact exhausted
  · next pending => exact rules.sendACK node (rules.activate holds activates (not_not.mp pending))

theorem closed (holds : property .idle start) :
    property .idle (closeConnection cb node true start) ∧
      Extends start (closeConnection cb node true start) ∧
      ((closeConnection cb node true start).conntable node).state ≠ .active := by
  rcases closeConnection_extends rules.extending node true
    (rules.bounded _ _ holds) with ⟨_, extended, inactive⟩
  exact ⟨rules.closeConnection node true holds (rules.closable_idle node),
    (Extends.log start (fun _ => rfl)).trans extended, inactive⟩

theorem toSynRecvd (holds : property .idle rdp) (extended : Extends start rdp)
    (inactive : (rdp.conntable node).state ≠ .active) (syn : packet.header.type = .syn) :
    property .idle (sendSYNACK cb node (accept .synRecvd packet.header node rdp)) := by
  apply rules.sendSYNACK (rules.synRecvd _ holds extended inactive syn)
  rw [accept, modify_self]

theorem updateState (holds : property .idle start) :
    property .idle (updateState cb packet.header node start) := by
  have refl := Extends.refl start
  rw [Rdp.updateState]
  cases state : (start.conntable node).state with
  | closed =>
    simp only
    split
    · next syn => exact rules.toSynRecvd holds refl (by simp [state]) syn
    · apply rules.sendSYN (rules.enterSynSent holds (.inl state))
      rw [enter, modify_self]
  | synSent =>
    simp only
    split
    · next syn => exact rules.toSynRecvd holds refl (by simp [state]) syn
    · next synack =>
        have active := rules.activated holds (.inl ⟨state, synack⟩)
        rw [becomeActive_synack synack] at active
        exact active
    · exact rules.sendSYN holds state
  | synRecvd =>
    simp only
    split
    · next syn => exact rules.toSynRecvd holds refl (by simp [state]) syn
    · next synack =>
        have active := rules.activated holds (.inr ⟨state, .inl synack⟩)
        rw [becomeActive_synack synack] at active
        exact active
    · next ack =>
        have active := rules.activated holds (.inr ⟨state, .inr (.inl ack)⟩)
        rw [becomeActive_other (by simp [ack])] at active
        exact active
    · next data =>
        have active := rules.activated holds (.inr ⟨state, .inr (.inr data)⟩)
        rw [becomeActive_other (by simp [data])] at active
        exact active
    · apply rules.sendSYN (rules.enterSynSent holds (.inr state))
      rw [enter, modify_self]
  | active =>
    rcases rules.closed holds with ⟨closed, extended, inactive⟩
    simp only
    split
    · next foreign =>
        split
        · next syn => exact rules.toSynRecvd closed extended inactive syn
        · next synack =>
            apply rules.sendSYN (rules.synSent _ closed extended inactive synack state foreign)
            rw [accept, modify_self]
        · exact closed
    · next own =>
        split
        · next syn =>
            have accepted := rules.toSynRecvd closed extended inactive syn
            have connid : packet.header.connid =
                ((closeConnection cb node true start).conntable node).connIDIn := by
              rw [(extended.conns node).connIDIn]
              exact not_not.mp own
            rw [accept, connid] at accepted
            simpa using accepted
        · exact holds

omit rules in
theorem release_pendList {mp : MsgBuf} {rest : List MsgBuf}
    (pending : (rdp.conntable node).pendList = mp :: rest) :
    ((Rdp.release node mp rdp).conntable node).pendList = rest := by
  rw [release_conntable, modify_self]
  simp [Conn.drop, pending]

theorem ackLoop (pendList : List MsgBuf) : ∀ callback rdp, property .idle rdp → Acking rdp →
      (rdp.conntable node).pendList = pendList →
        property .idle (ackLoop node packet.header.ackno pendList callback rdp).2 := by
  induction pendList with
  | nil =>
    intro callback rdp holds _ _
    exact holds
  | cons mp rest induction =>
    intro callback rdp holds acking pending
    have remaining := release_pendList pending
    rw [Rdp.ackLoop]
    split
    · next deleted =>
        have head : mp ∈ (rdp.conntable node).pendList := by
          rw [pending]
          exact mem_cons_self
        exact induction _ _ (rules.release _ _ _ holds head deleted)
          (rules.skipped _ _ _ holds acking pending deleted) remaining
    · next live =>
        split
        · next covered =>
            rcases rules.acknowledged _ _ _ holds acking pending
              (by simpa using live) covered with ⟨released, acking'⟩
            apply induction _ _ released acking'
            simpa [Rdp.acknowledged] using remaining
        · exact holds

section

variable (holds : property .idle start)

include holds

theorem doACK (active : (start.conntable node).state = .active) :
    property .idle (doACK cb packet.header node start) := by
  rw [Rdp.doACK]
  split
  · exact holds
  · split
    · exact rules.updateState holds
    · next own =>
        have answered := rules.answerData packet.header node holds
        have begun : Continues start .idle start := ⟨rules.bounded _ _ holds, Extends.refl start⟩
        have continues := (sendRules_continues rules.extending
          start).answerData packet.header node begun
        have acking := rules.answered _ answered continues.2 active (not_not.mp own) rfl
        have loop := rules.ackLoop _ false _ answered acking rfl
        simp only
        split
        · exact rules.notify _ _ _ loop
        · exact loop

theorem handleControlPacket : property .idle (handleControlPacket cb packet.header node start) := by
  have acked : property .idle
      (if (start.conntable node).state ≠ .active then
        Rdp.updateState cb packet.header node start
      else Rdp.doACK cb packet.header node start) := by
    split
    · exact rules.updateState holds
    · next active => exact rules.doACK holds (not_not.mp active)
  have resent : ∀ rdp, property .idle rdp → property .idle
        (if (rdp.conntable node).state = .active then
          Rdp.resendMsgs cb node rdp
        else rdp) := by
    intro rdp survived
    split
    · exact rules.resendMsgs survived (fun _ => rules.closable_idle node)
    · exact survived
  rw [Rdp.handleControlPacket]
  split
  · exact acked
  · exact resent _ acked
  · exact rules.updateState holds
  · exact rules.updateState holds
  · exact holds

theorem rrecvfrom (data : packet.header.type = .data)
    (active : (start.conntable node).state = .active)
    (expected : rseqcmp packet.header.seqno (start.conntable node).frameExpected = 0) :
    taken .idle (rrecvfrom cb packet maxDataSize node start).2 := by
  have acked := rules.doACK holds active
  rw [Rdp.rrecvfrom]
  simp only [data, active]
  simp only [ne_eq, not_true_eq_false, if_false, reduceCtorEq, or_self]
  split
  · next inOrder =>
      have counted := rules.take _ acked data active expected inOrder
      have answered : taken .idle
          (if ((countFrame packet maxDataSize node
              (Rdp.doACK cb packet.header node start)).conntable node).ackPending ≥
              (countFrame packet maxDataSize node
                (Rdp.doACK cb packet.header node start)).maxAckPending then
            Rdp.sendACK cb node (countFrame packet maxDataSize node
              (Rdp.doACK cb packet.header node start))
          else countFrame packet maxDataSize node (Rdp.doACK cb packet.header node start)) := by
        split
        · exact rules.takenRules.sendACK node counted
        · exact counted
      rw [takeData]
      split
      · exact answered
      · exact answered
  · exact rules.settle _ acked

theorem handlePacket : taken .idle (handlePacket cb packet node start) := by
  rw [Rdp.handlePacket]
  split
  · exact rules.settle _ (rules.handleControlPacket holds)
  · next data =>
      split
      · apply rules.settle
        split
        · next active => exact rules.doACK holds active
        · exact rules.updateState holds
      · next inOrder =>
          rw [not_or, not_not, not_not] at inOrder
          exact rules.rrecvfrom holds (not_not.mp data) inOrder.2 inOrder.1

end

end PacketRules

/-- The station handling a packet that is not dropped: the closed timer is not
set or has run out. -/
def Begins (node : Nat) (start begun : Station) : Prop :=
  ((start.conntable node).closed = 0 ∧ begun = start) ∨
    (¬gettimeofday start < (start.conntable node).closed ∧
      begun = start.tick.modify node (fun conn => { conn with closed := 0 }))

theorem handleRDP_rules {cb : RdpCallback}
    {Closable Queueable : Phase → Nat → Prop}
    {property taken : Phase → Station → Prop} {start : Station}
    {packet : Packet} (sending : SendRules cb Closable Queueable property)
    (settle : ∀ rdp, property .idle rdp → taken .idle rdp)
    (rules : ∀ begun, Begins node start begun → ∃ Acking : Station → Prop,
      PacketRules cb Closable Queueable property taken Acking begun node
        packet) (holds : property .idle start) :
    taken .idle (handleRDP cb packet node start) := by
  have ticked := sending.tick _ _ holds
  rw [handleRDP]
  split
  · next unset =>
      rcases rules start (.inl ⟨unset, rfl⟩) with ⟨_, direct⟩
      exact direct.handlePacket holds
  · simp only
    split
    · exact settle _ ticked
    · next expired =>
        rcases rules _ (.inr ⟨expired, rfl⟩) with ⟨_, cleared⟩
        exact cleared.handlePacket (sending.closedTimer _ _ node 0 ticked)

end Psmgmt.Rdp
