import Psmgmt.Rdp.PendingList

/-!
# Messages waiting for a connection

The messages queued while a connection is being established are counted in
`msgPending`.  They are in the pending list, apart from those an ACK has
released on a connection that was reopened meanwhile.
-/

namespace Psmgmt.Rdp

open List Station

/-- The messages counted on the connection to `peer` are pending, except for at
most `lost` ones. -/
structure Waiting (peer lost : Nat) (phase : Phase) (conn : Conn) : Prop where
  pendList : conn.msgPending ≤ conn.pendList.length + lost
  live : peer ∉ phase.clearing → conn.msgPending ≤ conn.live.length + lost
  active : conn.state = .active → conn.msgPending = 0 ∨ phase.activating = some (peer, true)

def Waits (peer lost : Nat) (phase : Phase) (rdp : Station) : Prop :=
  Bounded rdp ∧ Waiting peer lost phase (rdp.conntable peer)

variable {phase : Phase} {conn : Conn} {rdp : Station} {node : Nat}

section Steps

variable {peer lost : Nat}

theorem Conn.length_live_le (conn : Conn) : conn.live.length ≤ conn.pendList.length :=
  length_filter_le _ _

theorem Waiting.congr {phase : Phase} {before after : Conn}
    (waiting : Waiting peer lost phase before) (msgPending : after.msgPending = before.msgPending)
    (pendList : before.pendList.length ≤ after.pendList.length)
    (live : before.live.length ≤ after.live.length)
    (state : after.state = .active → before.state = .active) :
    Waiting peer lost phase after := by
  constructor
  · have counted := waiting.pendList
    omega
  · intro outside
    have counted := waiting.live outside
    omega
  · intro active
    rw [msgPending]
    exact waiting.active (state active)

/-- A connection that counts no message. -/
theorem Waiting.empty (msgPending : conn.msgPending = 0) : Waiting peer lost phase conn := by
  constructor
  · omega
  · omega
  · exact fun _ => .inl msgPending

/-- A deleted message is not one of those counted. -/
theorem Waiting.drop (waiting : Waiting peer lost .idle conn) {msg : MsgBuf}
    (deleted : msg.deleted = true) :
    Waiting peer lost .idle (conn.drop msg) := by
  have live := conn.live_drop deleted
  have counted := waiting.live not_mem_nil
  constructor
  · have bound := (conn.drop msg).length_live_le
    rw [live] at bound
    exact counted.trans (by omega)
  · rw [live]
    exact waiting.live
  · exact waiting.active

theorem Waiting.queue (waiting : Waiting peer lost phase conn) {msg : MsgBuf}
    (live : msg.deleted = false) :
    Waiting peer lost phase (conn.queue msg) := by
  have grown : (conn.queue msg).pendList.length = conn.pendList.length + 1 := by
    rw [Conn.queue_pendList, length_append, length_singleton]
  have grown' : (conn.queue msg).live.length = conn.live.length + 1 := by
    rw [conn.live_queue live, length_append, length_singleton]
  have counted : (conn.queue msg).msgPending ≤ conn.msgPending + 1 ∧
      ((conn.queue msg).state = .active → conn.state = .active ∧
        (conn.queue msg).msgPending = conn.msgPending) := by
    simp only [Conn.queue, Conn.count]
    cases state : conn.state with
    | closed => simp
    | synSent => simp
    | synRecvd => simp
    | active => simp
  constructor
  · have before := waiting.pendList
    omega
  · intro outside
    have before := waiting.live outside
    omega
  · intro active
    rcases counted.2 active with ⟨before, same⟩
    rw [same]
    exact waiting.active before

theorem Waits.congr {phase : Phase} {before after : Station} (waits : Waits peer lost phase before)
    (conntable : after.conntable = before.conntable) :
    Waits peer lost phase after := by
  rw [Waits, Bounded, conntable]
  exact waits

theorem Waits.modify {phase : Phase} {rdp : Station} (waits : Waits peer lost phase rdp)
    (node : Nat) {change : Conn → Conn} (bounded : Bounded (rdp.modify node change))
    (own : node = peer → Waiting peer lost phase (change (rdp.conntable peer))) :
    Waits peer lost phase (rdp.modify node change) := by
  refine ⟨bounded, ?_⟩
  by_cases same : node = peer
  · subst same
    rw [modify_self]
    exact own rfl
  · rw [modify_other (Ne.symm same)]
    exact waits.2

theorem Waits.modify_same {phase : Phase} {rdp : Station}
    (waits : Waits peer lost phase rdp) (node : Nat) {change : Conn → Conn}
    (window : (change (rdp.conntable node)).window = (rdp.conntable node).window)
    (msgPending : (change (rdp.conntable node)).msgPending = (rdp.conntable node).msgPending)
    (pendList : (change (rdp.conntable node)).pendList = (rdp.conntable node).pendList)
    (state : (change (rdp.conntable node)).state = .active → (rdp.conntable node).state = .active) :
    Waits peer lost phase (rdp.modify node change) := by
  apply waits.modify node (bounded_modify waits.1 window (by rw [pendList]))
  rintro rfl
  apply waits.2.congr msgPending
  · rw [pendList]
  · rw [Conn.live, Conn.live, pendList]
  · exact state

theorem Waits.finishClosing (waits : Waits peer lost (phase.clear node) rdp) :
    Waits peer lost phase (finishClosing node rdp) := by
  refine ⟨bounded_finishClosing waits.1 node, ?_⟩
  rw [Rdp.finishClosing]
  by_cases same : node = peer
  · subst same
    simp only [modify_self]
    exact Waiting.empty rfl
  · simp only [modify_other (Ne.symm same)]
    constructor
    · exact waits.2.pendList
    · intro outside
      apply waits.2.live
      intro member
      exact (mem_cons.mp member).elim (Ne.symm same) outside
    · exact waits.2.active

theorem sendRules_waits {cb : RdpCallback} (extending : Extending cb)
    (notify : ∀ phase rdp info, Waits peer lost phase rdp →
      Waits peer lost phase (notify cb info rdp)) :
    SendRules cb (fun _ _ => True) (fun _ _ => True) (Waits peer lost) where
  bounded := fun _ _ waits => waits.1
  extending := extending
  notify := notify
  tick := fun _ _ waits => waits.congr rfl
  nextSend := fun _ _ waits => waits.congr rfl
  errors := fun _ _ _ _ _ _ _ _ _ => trivial
  submit := fun _ _ _ _ waits _ => waits.congr rfl
  sent := fun _ _ _ _ _ _ _ _ waits => waits.congr rfl
  startClosing := by
    intro phase rdp node waits _
    refine ⟨waits.1, waits.2.pendList, ?_, waits.2.active⟩
    intro outside
    exact waits.2.live (fun member => outside (mem_cons_of_mem _ member))
  markDeleted := by
    intro phase rdp node index waits clearing _
    have length : ((rdp.conntable node).markDeleted index).pendList.length =
        (rdp.conntable node).pendList.length := length_modify _ _ _
    have marked := waits.modify node
      (@bounded_modify rdp waits.1 node (Conn.markDeleted index) rfl length)
      (by
        rintro rfl
        refine ⟨?_, fun outside => absurd clearing outside, waits.2.active⟩
        rw [length]
        exact waits.2.pendList)
    exact marked.congr rfl
  finishClosing := fun _ _ _ waits _ => waits.finishClosing
  clearAckPending := fun _ _ node waits => waits.modify_same node rfl rfl rfl id
  closedTimer := fun _ _ node _ waits => waits.modify_same node rfl rfl rfl id
  timer := fun _ _ node _ _ waits => waits.modify_same node rfl rfl rfl id
  enqueue := by
    intro phase rdp node buf id rest small mallocs waits _ _ window _ _ _
    have queued := waits.modify node
      (bounded_queue waits.1 window ((rdp.conntable node).newMsg id buf))
      (by
        rintro rfl
        exact waits.2.queue rfl)
    exact queued.congr rfl
  leak := fun _ _ _ _ _ _ _ waits _ _ => waits.congr rfl

theorem sendRules_waits_callbackAt (depth : Nat) :
    SendRules (callbackAt depth) (fun _ _ => True) (fun _ _ => True) (Waits peer lost) := by
  apply SendRules.callbackAt
  · exact fun cb => sendRules_waits
  · exact fun _ _ _ waits => waits.congr rfl
  · exact fun _ _ waits => waits.congr rfl
  · exact fun _ _ _ _ _ _ _ => trivial

theorem localRules_waits (depth : Nat) :
    LocalRules (callbackAt depth) (fun _ _ => True) (fun _ _ => True) (Waits peer lost) where
  toSendRules := sendRules_waits_callbackAt depth
  closable_idle := fun _ => trivial
  refreshAck := by
    intro phase rdp node index waits
    have length : ((rdp.conntable node).refreshAck index).pendList.length =
        (rdp.conntable node).pendList.length := length_modify _ _ _
    have live := congrArg List.length ((rdp.conntable node).refreshAck_same index).live
    rw [length_map, length_map] at live
    apply waits.modify node (@bounded_modify rdp waits.1 node (Conn.refreshAck index) rfl length)
    rintro rfl
    exact waits.2.congr rfl (le_of_eq length.symm) (le_of_eq live.symm) id
  release := by
    intro rdp node msg waits pending deleted
    have bounded : Bounded (rdp.modify node (Conn.drop msg)) := by
      intro other
      rw [← release_conntable]
      exact waits.1.release pending other
    have dropped := waits.modify node bounded (by
      rintro rfl
      exact waits.2.drop deleted)
    exact dropped.congr (release_conntable node msg rdp)
  cleanupDone := fun _ waits => waits.congr rfl
  address := fun _ node _ waits => waits.modify_same node rfl rfl rfl id

theorem Waits.activatePending (waits : Waits peer lost .idle rdp) (hdr : Header)
    (node : Nat) :
    Waits peer lost (.activate node true) (becomeActive hdr node rdp) := by
  rcases (rdp.conntable node).activate_counters hdr with
    ⟨window, _, _, msgPending, _⟩
  have pendList : ((rdp.conntable node).activate hdr).pendList = (rdp.conntable node).pendList := by
    rw [Conn.activate]
    split
    · rfl
    · rfl
  refine ⟨bounded_modify waits.1 window (by rw [pendList]), ?_⟩
  rw [becomeActive]
  by_cases same : node = peer
  · subst same
    rw [modify_self]
    constructor
    · rw [msgPending, pendList]
      exact waits.2.pendList
    · intro _
      rw [msgPending, Conn.live_activate]
      exact waits.2.live not_mem_nil
    · exact fun _ => .inr rfl
  · rw [modify_other (Ne.symm same)]
    refine ⟨waits.2.pendList, fun _ => waits.2.live not_mem_nil, ?_⟩
    intro active
    exact (waits.2.active active).imp_right (fun none => by cases none)

theorem Waits.flushPending (waits : Waits peer lost (.activate node true) rdp) :
    Waits peer lost .idle (flushPending node rdp) := by
  have conn := @modify_self rdp node Conn.flush
  refine ⟨@bounded_modify rdp waits.1 node Conn.flush rfl rfl, ?_⟩
  by_cases same : node = peer
  · subst same
    exact conn ▸ Waiting.empty rfl
  · have other := modify_other (Ne.symm same) rdp Conn.flush
    refine other ▸ ⟨waits.2.pendList,
      fun _ => waits.2.live not_mem_nil, ?_⟩
    intro active
    refine (waits.2.active active).imp_right (fun activating => ?_)
    simp only [Phase.activate, Option.some.injEq, Prod.mk.injEq] at activating
    exact absurd activating.1 same

/-- Right after an ACK on an active connection was answered, no counted message
is lost. -/
theorem Waits.answered {depth : Nat} {hdr : Header} {start : Station}
    (waits : Waits peer lost .idle start) (peers : node = peer)
    (active : (start.conntable node).state = .active) :
    ((answerData (callbackAt depth) hdr node start).conntable peer).msgPending ≤ maxWindowSize := by
  subst peers
  have uncounted : (start.conntable node).msgPending = 0 :=
    (waits.2.active active).resolve_right (fun none => by cases none)
  have begun : Waits node 0 .idle start := ⟨waits.1, Waiting.empty uncounted⟩
  have answered := (sendRules_waits_callbackAt depth).answerData hdr node begun
  have counted := answered.2.pendList
  have length := answered.1.length_le node
  omega

end Steps

end Psmgmt.Rdp
