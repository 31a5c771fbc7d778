import Psmgmt.Rdp.PacketRules

/-!
# Pending messages

The messages a connection has not given up, their sequence numbers and what
the updates of a connection do to them.
-/

namespace Psmgmt.Rdp

open List

def Conn.live (conn : Conn) : List MsgBuf := conn.pendList.filter (fun mp => !mp.deleted)

/-- Messages with consecutive sequence numbers from `first` on. -/
def Numbered (first : SeqNo) : List MsgBuf → Prop
  | [] => True
  | msg :: rest => msg.header.seqno = first ∧ Numbered (first + 1) rest

theorem numbered_append {msgs : List MsgBuf} {last : MsgBuf} :
    ∀ {first : SeqNo}, Numbered first msgs →
      last.header.seqno = first + BitVec.ofNat 32 msgs.length →
        Numbered first (msgs ++ [last]) := by
  induction msgs with
  | nil =>
    intro first _ next
    refine ⟨?_, trivial⟩
    simpa using next
  | cons msg rest induction =>
    intro first numbered next
    refine ⟨numbered.1, induction numbered.2 ?_⟩
    rw [next, length_cons, BitVec.ofNat_add]
    bv_omega

theorem numbered_congr {msgs : List MsgBuf} :
    ∀ {others : List MsgBuf} {first : SeqNo}, Numbered first msgs →
      others.map (fun mp => mp.header.seqno) =
        msgs.map (fun mp => mp.header.seqno) → Numbered first others := by
  induction msgs with
  | nil =>
    intro others first _ same
    rw [map_nil, map_eq_nil_iff] at same
    rw [same]
    trivial
  | cons msg rest induction =>
    intro others first numbered same
    cases others with
    | nil => trivial
    | cons other others =>
      rw [map_cons, map_cons, List.cons.injEq] at same
      exact ⟨same.1.trans numbered.1, induction numbered.2 same.2⟩

variable {msg : MsgBuf}

theorem Conn.live_queue (conn : Conn) (live : msg.deleted = false) :
    (conn.queue msg).live = conn.live ++ [msg] := by
  rw [Conn.live, Conn.queue_pendList, filter_append]
  simp [Conn.live, live]

theorem Conn.live_drop (conn : Conn) (deleted : msg.deleted = true) :
    (conn.drop msg).live = conn.live := by
  simp only [Conn.live, Conn.drop]
  rw [← erase_filter, erase_of_not_mem]
  simp [deleted]

structure Conn.SameCounters (before after : Conn) : Prop where
  live : after.live.map (fun mp => mp.header.seqno) = before.live.map (fun mp => mp.header.seqno)
  ackExpected : after.ackExpected = before.ackExpected
  frameToSend : after.frameToSend = before.frameToSend
  msgPending : after.msgPending = before.msgPending
  state : after.state = before.state

theorem filter_map_modify {α β : Type*} (select : α → Bool) (image : α → β)
    (change : α → α)
    (same : ∀ entry, select (change entry) = select entry ∧
      image (change entry) = image entry) (entries : List α) :
    ∀ index, ((entries.modify index change).filter select).map image =
      (entries.filter select).map image := by
  induction entries with
  | nil => simp
  | cons entry rest induction =>
    intro index
    cases index with
    | zero =>
      rcases same entry with ⟨selected, mapped⟩
      simp only [modify_zero_cons, filter_cons, selected]
      split
      · simp only [map_cons, mapped]
      · rfl
    | succ index =>
      simp only [modify_succ_cons, filter_cons]
      split
      · simp only [map_cons, induction]
      · exact induction index

theorem map_modify_same {α β : Type*} (image : α → β) (change : α → α)
    (same : ∀ entry, image (change entry) = image entry) (entries : List α) (index : Nat) :
    (entries.modify index change).map image = entries.map image := by
  simpa using filter_map_modify (fun _ => true) image change
    (fun entry => ⟨rfl, same entry⟩) entries index

theorem Conn.refreshAck_same (conn : Conn) (index : Nat) :
    conn.SameCounters (conn.refreshAck index) := by
  refine ⟨?_, rfl, rfl, rfl, rfl⟩
  apply filter_map_modify
  exact fun mp => ⟨rfl, rfl⟩

/-- The update for an acknowledged message. -/
def Conn.acknowledge (msg : MsgBuf) (conn : Conn) : Conn :=
  { conn.drop msg with
    ackExpected := conn.ackExpected + 1, retrans := 0 }

theorem Conn.live_acknowledge {conn : Conn} {rest : List MsgBuf}
    (pending : conn.pendList = msg :: rest) (live : msg.deleted = false) :
    conn.live = msg :: (conn.acknowledge msg).live := by
  simp [Conn.live, Conn.acknowledge, Conn.drop, pending, live]

theorem acknowledged_conntable (node : Nat) (msg : MsgBuf) (rdp : Station) :
    (acknowledged node (release node msg rdp)).conntable =
      (rdp.modify node (Conn.acknowledge msg)).conntable := by
  simp [acknowledged, release, putMsg, Station.modify, Conn.acknowledge, Conn.drop]

theorem Conn.live_activate (hdr : Header) (conn : Conn) : (conn.activate hdr).live = conn.live := by
  simp only [Conn.activate, Conn.live]
  split
  · rfl
  · rfl

theorem Conn.length_activate (hdr : Header) (conn : Conn) :
    (conn.activate hdr).pendList.length = conn.pendList.length := by
  rw [Conn.activate]
  split
  · rfl
  · rfl

theorem Conn.activate_counters (hdr : Header) (conn : Conn) :
    (conn.activate hdr).window = conn.window ∧ (conn.activate hdr).ackExpected = conn.ackExpected ∧
      (conn.activate hdr).frameToSend = conn.frameToSend ∧ (conn.activate hdr).msgPending =
      conn.msgPending ∧ (conn.activate hdr).state = .active := by
  simp only [Conn.activate]
  split
  · exact ⟨rfl, rfl, rfl, rfl, rfl⟩
  · exact ⟨rfl, rfl, rfl, rfl, rfl⟩

/-- The update of `flushPending()`. -/
def Conn.flush (conn : Conn) : Conn :=
  { conn with
    frameToSend := conn.frameToSend + BitVec.ofNat 32 conn.msgPending
    msgPending := 0 }

/-- The phase in which the messages pending to `node` are sent. -/
def Phase.activate (node : Nat) (closable : Bool) : Phase :=
  { clearing := [], activating := some (node, closable) }

end Psmgmt.Rdp
