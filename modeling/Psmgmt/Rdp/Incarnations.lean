import Psmgmt.Rdp.Delivery
import Psmgmt.Rdp.Waiting

/-!
# Incarnations of a connection

Closing a connection draws a new connection ID, so every message belongs to an
incarnation and has a frame number within it.  Messages an incarnation did not
count may share their numbers with messages of the next one, but frame numbers
never run away from the number of messages accepted.
-/

namespace Psmgmt.Rdp

open List hiding getElem?_eq_some_iff

/-- An accepted message: the draw that gave its incarnation the ID, its frame
number and its payload. -/
structure Entry where
  incarnation : Nat
  number : Nat
  payload : List UInt8

/-- The order in which messages are accepted. -/
def Entry.Before (first second : Entry) : Prop :=
  first.incarnation < second.incarnation ∨
    (first.incarnation = second.incarnation ∧ first.number < second.number)

theorem Entry.Before.trans {first second third : Entry}
    (before : first.Before second) (before' : second.Before third) :
    first.Before third := by
  simp only [Entry.Before] at before before' ⊢
  omega

theorem Entry.Before.irrefl (entry : Entry) : ¬entry.Before entry := by
  simp only [Entry.Before]
  omega

/-- The sender of a sequence of messages: its random numbers, and its first
frame number. -/
structure Origin where
  randoms : Nat → SeqNo
  base : SeqNo

def Origin.message (origin : Origin) (entry : Entry) : Packet :=
  { header :=
      { type := .data, len := entry.payload.length
        seqno := origin.base + BitVec.ofNat 32 entry.number, ackno := 0
        connid := origin.randoms entry.incarnation }
    data := entry.payload }

/-- The draws that gave the connection to `peer` an ID, or another one after
the initialisation. -/
def Drawn (peer : Nat) (rdp : Station) (draw : Nat) : Prop :=
  draw < rdp.draws ∧ (draw = 3 * peer + 2 ∨ 3 * rdp.nrOfNodes ≤ draw)

theorem Drawn.later {peer draw : Nat} {before after : Station}
    (nrOfNodes : after.nrOfNodes = before.nrOfNodes)
    (draws : before.draws ≤ after.draws) (drawn : Drawn peer before draw) :
    Drawn peer after draw := by
  rcases drawn with ⟨earlier, origin⟩
  rw [Drawn, nrOfNodes]
  exact ⟨earlier.trans_le draws, origin⟩

def PktType.opening (type : PktType) : Prop := type = .syn ∨ type = .synack

/-- A sequence of messages in the order they were accepted; each one may take
one more frame than those before. -/
structure Accepted (entries : List Entry) : Prop where
  ordered : entries.Pairwise Entry.Before
  growth : ∀ i j (first second : Entry), entries[i]? = some first →
    entries[j]? = some second → i < j → second.number ≤ first.number + (j - i)
  sizes : ∀ entry ∈ entries, entry.payload.length ≤ maxDataSize

/-- The messages not deleted are the last ones accepted. -/
def Origin.Pending (origin : Origin) (entries : List Entry) (pendList : List MsgBuf) : Prop :=
  ∃ older newer dead live, entries = older ++ newer ∧ pendList = dead ++ live ∧
    (∀ mp ∈ dead, mp.deleted = true) ∧ (∀ mp ∈ live, mp.deleted = false) ∧ live.map
    (fun mp => mp.packet.withoutAck) = newer.map origin.message

/-- A packet the sender of `entries` handed out when it had accepted about
`count` messages: a frame not long before, or the announcement of the next
frame. -/
structure Origin.Valid (origin : Origin) (drawn : Nat → Prop)
    (entries : List Entry) (frames total slack count : Nat)
    (packet : Packet) : Prop where
  within : count ≤ entries.length
  data : packet.header.type = .data → ∃ index entry,
    entries[index]? = some entry ∧ packet.withoutAck = origin.message entry ∧ count ≤ index + slack
  opening : packet.header.type.opening → ∃ incarnation first,
    drawn incarnation ∧ packet.header.connid = origin.randoms incarnation ∧
      packet.header.seqno = origin.base + BitVec.ofNat 32 first ∧
      first ≤ frames ∧
      (∀ entry ∈ entries, incarnation < entry.incarnation →
        first ≤ entry.number) ∧
      (∀ index entry, entries[index]? = some entry →
        entry.number ≤ first + 2 * maxWindowSize + slack + (index - count)) ∧
      total ≤ first + 2 * maxWindowSize + slack + (entries.length - count)

/-- What the sender of the messages `entries` keeps in its connection: the
present incarnation and the frames counted. -/
structure Sender (origin : Origin) (drawn : Nat → Prop)
    (entries : List Entry) (conn : Conn) (current frames : Nat) : Prop where
  accepted : Accepted entries
  connIDOut : conn.connIDOut = origin.randoms current
  known : drawn current
  frameToSend : conn.frameToSend = origin.base + BitVec.ofNat 32 frames
  counted : ∀ index entry, entries[index]? = some entry →
    frames + conn.msgPending ≤ entry.number + (entries.length - index)
  numbered : ∀ entry ∈ entries, drawn entry.incarnation ∧ entry.incarnation ≤ current ∧ entry.number
    ≤ frames + 2 * maxWindowSize ∧
    (entry.incarnation = current → entry.number < frames + conn.msgPending)
  pending : origin.Pending entries conn.pendList

theorem modify_append {α : Type*} (change : α → α) (left right : List α) :
    ∀ index, (left ++ right).modify index change =
      if index < left.length then left.modify index change ++ right
      else left ++ right.modify (index - left.length) change := by
  induction left with
  | nil =>
    intro index
    simp
  | cons entry rest induction =>
    intro index
    cases index with
    | zero => simp
    | succ index =>
      rw [cons_append, modify_succ_cons, induction]
      simp only [length_cons, Nat.add_lt_add_iff_right, modify_succ_cons, Nat.add_sub_add_right]
      split
      · rfl
      · rfl

variable {last : Entry} {pendList : List MsgBuf}

section Messages

variable {origin : Origin} {entries : List Entry}

theorem Accepted.append (accepted : Accepted entries)
    (later : ∀ entry ∈ entries, entry.Before last)
    (growth : ∀ index entry, entries[index]? = some entry →
      last.number ≤ entry.number + (entries.length - index))
    (size : last.payload.length ≤ maxDataSize) :
    Accepted (entries ++ [last]) := by
  constructor
  · rw [pairwise_append]
    refine ⟨accepted.ordered, pairwise_singleton _ _, ?_⟩
    intro entry member new same
    rw [mem_singleton.mp same]
    exact later entry member
  · intro i j first second atFirst atSecond earlier
    have inside := (List.getElem?_eq_some_iff.mp atSecond).1
    rw [List.length_append, List.length_singleton] at inside
    rw [List.getElem?_append_left (by omega)] at atFirst
    by_cases old : j < entries.length
    · rw [List.getElem?_append_left old] at atSecond
      exact accepted.growth i j first second atFirst atSecond earlier
    · have final : j = entries.length := by omega
      subst final
      rw [getElem?_concat_length, Option.some.injEq] at atSecond
      rw [← atSecond]
      exact growth i first atFirst
  · exact Snoc.forall_mem accepted.sizes size

theorem Accepted.before (accepted : Accepted entries) {i j : Nat} {first second : Entry}
    (atFirst : entries[i]? = some first) (atSecond : entries[j]? = some second) (earlier : i < j) :
    first.Before second := by
  rcases List.getElem?_eq_some_iff.mp atFirst with ⟨inside, rfl⟩
  rcases List.getElem?_eq_some_iff.mp atSecond with ⟨inside', rfl⟩
  exact List.pairwise_iff_getElem.mp accepted.ordered i j inside inside' earlier

section

variable (pending : origin.Pending entries pendList)

include pending

theorem Origin.Pending.queue {entry : Entry} {msg : MsgBuf} (live : msg.deleted = false)
    (carries : msg.packet.withoutAck = origin.message entry) :
    origin.Pending (entries ++ [entry]) (pendList ++ [msg]) := by
  rcases pending with
    ⟨older, newer, dead, alive, rfl, rfl, deleted, undeleted, same⟩
  refine ⟨older, newer ++ [entry], dead, alive ++ [msg],
    append_assoc _ _ _, append_assoc _ _ _, deleted, ?_, ?_⟩
  · exact Snoc.forall_mem undeleted live
  · rw [map_append, map_append, same]
    simp only [map_cons, map_nil, carries]

/-- Messages are given up from the front. -/
theorem Origin.Pending.markDeleted {index : Nat}
    (before : ∀ position < index, ∀ msg, pendList[position]? = some msg → msg.deleted = true) :
    origin.Pending entries (pendList.modify index (fun mp => { mp with deleted := true })) := by
  rcases pending with
    ⟨older, newer, dead, live, rfl, rfl, deleted, undeleted, same⟩
  by_cases inside : index < dead.length
  · refine ⟨older, newer,
      dead.modify index (fun mp => { mp with deleted := true }), live, rfl,
      by rw [modify_append, if_pos inside], ?_, undeleted, same⟩
    intro mp member
    rcases getElem?_of_mem member with ⟨position, found⟩
    rw [getElem?_modify] at found
    rcases known : dead[position]? with _ | other
    · rw [known] at found
      cases found
    · have already := deleted other (mem_of_getElem? known)
      rw [known, Option.map_eq_map, Option.map_some, Option.some.injEq] at found
      rw [← found]
      split
      · rfl
      · exact already
  · cases live with
    | nil =>
      refine ⟨older, newer, dead, [], rfl, ?_, deleted, undeleted, same⟩
      rw [append_nil, modify_eq_self (by omega)]
    | cons mp rest =>
      have first : index = dead.length := by
        by_contra different
        have head := before dead.length (by omega) mp (by simp)
        rw [undeleted mp mem_cons_self] at head
        cases head
      subst first
      cases newer with
      | nil => cases same
      | cons entry newer =>
        rw [map_cons, map_cons, List.cons.injEq] at same
        refine ⟨older ++ [entry], newer,
          dead ++ [{ mp with deleted := true }], rest, by simp,
          by simp [modify_append], ?_,
          fun other member => undeleted other (mem_cons_of_mem _ member), same.2⟩
        intro other member
        rcases mem_append.mp member with old | new
        · exact deleted other old
        · rw [mem_singleton.mp new]

theorem Origin.Pending.refreshAck (index : Nat) (ackno : SeqNo) :
    origin.Pending entries (pendList.modify index
      (fun mp => { mp with header := { mp.header with ackno := ackno } })) := by
  rcases pending with
    ⟨older, newer, dead, live, rfl, rfl, deleted, undeleted, same⟩
  have kept : ∀ (msgs : List MsgBuf) (value : Bool) (position : Nat),
      (∀ mp ∈ msgs, mp.deleted = value) →
      ∀ mp ∈ msgs.modify position (fun mp =>
        { mp with header := { mp.header with ackno := ackno } }),
        mp.deleted = value := by
    intro msgs value position all mp member
    rcases getElem?_of_mem member with ⟨place, found⟩
    rw [getElem?_modify] at found
    rcases known : msgs[place]? with _ | other
    · rw [known] at found
      cases found
    · have before := all other (mem_of_getElem? known)
      rw [known, Option.map_eq_map, Option.map_some, Option.some.injEq] at found
      rw [← found]
      split
      · exact before
      · exact before
  by_cases inside : index < dead.length
  · exact ⟨older, newer, _, live, rfl,
      by rw [modify_append, if_pos inside], kept dead true index deleted, undeleted, same⟩
  · refine ⟨older, newer, dead, _, rfl,
      by rw [modify_append, if_neg inside], deleted,
      kept live false _ undeleted, ?_⟩
    rw [← same]
    apply map_modify_same
    exact fun _ => rfl

theorem Origin.Pending.release {msg : MsgBuf} (deleted : msg.deleted = true) :
    origin.Pending entries (pendList.erase msg) := by
  rcases pending with
    ⟨older, newer, dead, live, rfl, rfl, alldeleted, undeleted, same⟩
  by_cases member : msg ∈ dead
  · refine ⟨older, newer, dead.erase msg, live, rfl,
      erase_append_left _ member, ?_, undeleted, same⟩
    intro mp left
    exact alldeleted mp (mem_of_mem_erase left)
  · refine ⟨older, newer, dead, live, rfl, ?_, alldeleted, undeleted, same⟩
    rw [erase_of_not_mem]
    intro found
    rcases mem_append.mp found with old | new
    · exact member old
    · rw [undeleted msg new] at deleted
      cases deleted

end

theorem Origin.Pending.acknowledge {mp : MsgBuf} {rest : List MsgBuf}
    (pending : origin.Pending entries (mp :: rest))
    (live : mp.deleted = false) : origin.Pending entries rest := by
  rcases pending with
    ⟨older, newer, dead, alive, rfl, split, deleted, undeleted, same⟩
  cases dead with
  | cons other dead =>
    rw [cons_append, List.cons.injEq] at split
    have gone := deleted other mem_cons_self
    rw [← split.1, live] at gone
    cases gone
  | nil =>
    rw [nil_append] at split
    subst split
    cases newer with
    | nil => cases same
    | cons entry newer =>
      rw [map_cons, map_cons, List.cons.injEq] at same
      exact ⟨older ++ [entry], newer, [], rest, by simp, rfl,
        fun other member => absurd member not_mem_nil,
        fun other member => undeleted other (mem_cons_of_mem _ member), same.2⟩

/-- A pending message is among the last ones accepted. -/
theorem Origin.Pending.recent (pending : origin.Pending entries pendList)
    {mp : MsgBuf} (member : mp ∈ pendList) (live : mp.deleted = false) :
    ∃ index entry, entries[index]? = some entry ∧ mp.packet.withoutAck = origin.message entry ∧
      entries.length ≤ index + pendList.length := by
  rcases pending with
    ⟨older, newer, dead, alive, rfl, rfl, deleted, undeleted, same⟩
  rcases mem_append.mp member with gone | present
  · rw [deleted mp gone] at live
    cases live
  · rcases getElem?_of_mem present with ⟨position, found⟩
    have lengths := congrArg List.length same
    rw [length_map, length_map] at lengths
    have inside := (List.getElem?_eq_some_iff.mp found).1
    have image := congrArg (fun packets => packets[position]?) same
    simp only [List.getElem?_map, found, Option.map_some] at image
    rcases present : newer[position]? with _ | entry
    · rw [present] at image
      cases image
    · rw [present, Option.map_some, Option.some.injEq] at image
      refine ⟨older.length + position, entry, ?_, image, ?_⟩
      · rw [getElem?_append_right (Nat.le_add_right _ _), Nat.add_sub_cancel_left]
        exact present
      · rw [List.length_append, List.length_append]
        omega

end Messages

section Packets

variable {origin : Origin} {drawn : Nat → Prop} {entries : List Entry}
  {frames total slack count : Nat} {packet : Packet}

theorem Origin.Valid.congr {drawn' : Nat → Prop} {frames' total' : Nat}
    (valid : origin.Valid drawn entries frames total slack count packet)
    (later : ∀ draw, drawn draw → drawn' draw) (grown : frames ≤ frames') (fewer : total' ≤ total) :
    origin.Valid drawn' entries frames' total' slack count packet := by
  refine ⟨valid.within, valid.data, ?_⟩
  intro opening
  rcases valid.opening opening with
    ⟨incarnation, first, draw, connid, seqno, least, newer, near, most⟩
  exact ⟨incarnation, first, later _ draw, connid, seqno, least.trans grown,
    newer, near, fewer.trans most⟩

/-- A packet gets through while a few more messages are accepted. -/
theorem Origin.Valid.delay {slack' count' : Nat}
    (valid : origin.Valid drawn entries frames total slack count packet)
    (age : count' + slack ≤ count + slack') (least : slack ≤ slack')
    (within : count' ≤ entries.length) :
    origin.Valid drawn entries frames total slack' count' packet := by
  refine ⟨within, ?_, ?_⟩
  · intro data
    rcases valid.data data with ⟨index, entry, found, same, recent⟩
    exact ⟨index, entry, found, same, by omega⟩
  · intro opening
    rcases valid.opening opening with
      ⟨incarnation, first, draw, connid, seqno, least, newer, near, most⟩
    refine ⟨incarnation, first, draw, connid, seqno, least, newer, ?_, by omega⟩
    intro index entry found
    have bound := near index entry found
    omega

theorem Origin.Valid.append (valid : origin.Valid drawn entries frames total slack count packet)
    (number : last.number = total) (enough : frames ≤ total) {frames' : Nat}
    (grown : frames ≤ frames') :
    origin.Valid drawn (entries ++ [last]) frames' (total + 1) slack count
      packet := by
  have within := valid.within
  constructor
  · rw [List.length_append]
    omega
  · intro data
    rcases valid.data data with ⟨index, entry, found, same, recent⟩
    refine ⟨index, entry, ?_, same, recent⟩
    rw [List.getElem?_append_left (List.getElem?_eq_some_iff.mp found).1]
    exact found
  · intro opening
    rcases valid.opening opening with
      ⟨incarnation, first, draw, connid, seqno, least, newer, near, most⟩
    refine ⟨incarnation, first, draw, connid, seqno, least.trans grown, ?_, ?_, ?_⟩
    · intro entry member newest
      rcases mem_append.mp member with old | new
      · exact newer entry old newest
      · rw [mem_singleton.mp new]
        omega
    · intro index entry found
      have inside := (List.getElem?_eq_some_iff.mp found).1
      rw [List.length_append, List.length_singleton] at inside
      by_cases old : index < entries.length
      · rw [List.getElem?_append_left old] at found
        exact near index entry found
      · have final : index = entries.length := by omega
        subst final
        rw [getElem?_concat_length, Option.some.injEq] at found
        rw [← found, number]
        exact most
    · rw [List.length_append, List.length_singleton]
      omega

end Packets

variable {packet : Packet}

section Sending

variable {origin : Origin} {drawn : Nat → Prop} {entries : List Entry}
  {before after : Conn} {current frames : Nat}

/-- Changes to fields the sender does not depend on. -/
theorem Sender.congr {drawn' : Nat → Prop}
    (sender : Sender origin drawn entries before current frames)
    (later : ∀ draw, drawn draw → drawn' draw) (connIDOut : after.connIDOut = before.connIDOut)
    (frameToSend : after.frameToSend = before.frameToSend)
    (msgPending : after.msgPending = before.msgPending)
    (pending : origin.Pending entries after.pendList) :
    Sender origin drawn' entries after current frames := by
  constructor
  · exact sender.accepted
  · exact connIDOut.trans sender.connIDOut
  · exact later _ sender.known
  · exact frameToSend.trans sender.frameToSend
  · rw [msgPending]
    exact sender.counted
  · intro entry member
    rw [msgPending]
    exact (sender.numbered entry member).imp_left (later _)
  · exact pending

/-- A new incarnation counts none of the messages waiting. -/
theorem Sender.renew {drawn' : Nat → Prop} {renewed : Nat}
    (sender : Sender origin drawn entries before current frames)
    (later : ∀ draw, drawn draw → drawn' draw) (newest : current < renewed) (draw : drawn' renewed)
    (connIDOut : after.connIDOut = origin.randoms renewed)
    (frameToSend : after.frameToSend = before.frameToSend) (msgPending : after.msgPending = 0)
    (pendList : after.pendList = before.pendList) :
    Sender origin drawn' entries after renewed frames := by
  constructor
  · exact sender.accepted
  · exact connIDOut
  · exact draw
  · exact frameToSend.trans sender.frameToSend
  · intro index entry found
    have counted := sender.counted index entry found
    omega
  · intro entry member
    rcases sender.numbered entry member with ⟨known, earlier, bound, _⟩
    exact ⟨later _ known, by omega, bound, fun same => by omega⟩
  · rw [pendList]
    exact sender.pending

/-- A message is accepted: on an active connection its frame is counted at
once. -/
theorem Sender.append {frames' : Nat}
    (sender : Sender origin drawn entries before current frames)
    (incarnation : last.incarnation = current)
    (number : last.number = frames + before.msgPending)
    (size : last.payload.length ≤ maxDataSize)
    (waiting : before.msgPending ≤ 2 * maxWindowSize)
    (connIDOut : after.connIDOut = before.connIDOut)
    (frameToSend : after.frameToSend =
      origin.base + BitVec.ofNat 32 frames') (grown : frames ≤ frames')
    (next : frames' + after.msgPending = frames + before.msgPending + 1)
    (pending : origin.Pending (entries ++ [last]) after.pendList) :
    Sender origin drawn (entries ++ [last]) after current frames' := by
  constructor
  · apply sender.accepted.append
    · intro entry member
      rcases sender.numbered entry member with ⟨_, earlier, _, below⟩
      rcases Nat.lt_or_eq_of_le earlier with old | same
      · exact .inl (by omega)
      · have lower := below same
        exact .inr ⟨by omega, by omega⟩
    · intro index entry found
      rw [number]
      exact sender.counted index entry found
    · exact size
  · exact connIDOut.trans sender.connIDOut
  · exact sender.known
  · exact frameToSend
  · intro index entry found
    have inside := (List.getElem?_eq_some_iff.mp found).1
    rw [List.length_append, List.length_singleton] at inside ⊢
    by_cases old : index < entries.length
    · rw [List.getElem?_append_left old] at found
      have counted := sender.counted index entry found
      omega
    · have final : index = entries.length := by omega
      subst final
      rw [getElem?_concat_length, Option.some.injEq] at found
      rw [← found]
      omega
  · intro entry member
    rcases mem_append.mp member with old | new
    · rcases sender.numbered entry old with ⟨known, earlier, bound, below⟩
      refine ⟨known, earlier, by omega, ?_⟩
      intro same
      have lower := below same
      omega
    · rw [mem_singleton.mp new, incarnation]
      exact ⟨sender.known, le_refl _, by omega, fun _ => by omega⟩
  · exact pending

/-- The frames of an activated connection are counted. -/
theorem Sender.flush
    (sender : Sender origin drawn entries before current frames) :
    Sender origin drawn entries before.flush current (frames + before.msgPending) := by
  constructor
  · exact sender.accepted
  · exact sender.connIDOut
  · exact sender.known
  · rw [Conn.flush, sender.frameToSend, BitVec.ofNat_add, BitVec.add_assoc]
  · exact sender.counted
  · intro entry member
    rcases sender.numbered entry member with ⟨known, earlier, bound, below⟩
    exact ⟨known, earlier, by omega, below⟩
  · exact sender.pending

/-- Whatever a connection sends is valid. -/
theorem Sender.valid (sender : Sender origin drawn entries before current frames)
    (waiting : before.msgPending ≤ 2 * maxWindowSize)
    (window : before.pendList.length ≤ maxWindowSize) (sendable : Sendable before packet) :
    origin.Valid drawn entries frames (frames + before.msgPending)
      maxWindowSize entries.length packet := by
  have announces : packet.header.connid = before.connIDOut →
      packet.header.seqno = before.frameToSend → ∃ incarnation first,
        drawn incarnation ∧ packet.header.connid = origin.randoms incarnation ∧ packet.header.seqno
          = origin.base + BitVec.ofNat 32 first ∧
          first ≤ frames ∧
          (∀ entry ∈ entries, incarnation < entry.incarnation →
            first ≤ entry.number) ∧
          (∀ index entry, entries[index]? = some entry →
            entry.number ≤ first + 2 * maxWindowSize + maxWindowSize + (index - entries.length)) ∧
          frames + before.msgPending ≤ first + 2 * maxWindowSize +
            maxWindowSize + (entries.length - entries.length) := by
    intro connid seqno
    refine ⟨current, frames, sender.known, connid.trans sender.connIDOut,
      seqno.trans sender.frameToSend, le_refl _, ?_, ?_, by omega⟩
    · intro entry member newer
      have earlier := (sender.numbered entry member).2.1
      omega
    · intro index entry found
      have bound := (sender.numbered entry (mem_of_getElem? found)).2.2.1
      omega
  cases sendable with
  | syn syn data =>
    exact ⟨le_refl _, fun type => PktType.noConfusion type,
      fun _ => announces rfl rfl⟩
  | synack syn =>
    exact ⟨le_refl _, fun type => PktType.noConfusion type,
      fun _ => announces rfl rfl⟩
  | control plain =>
    simp only [Conn.control]
    rcases plain with rfl | rfl
    · exact ⟨le_refl _, fun type => PktType.noConfusion type,
        fun type => type.elim PktType.noConfusion PktType.noConfusion⟩
    · exact ⟨le_refl _, fun type => PktType.noConfusion type,
        fun type => type.elim PktType.noConfusion PktType.noConfusion⟩
  | @data msg pending live ackno =>
    rcases sender.pending.recent pending live with
      ⟨index, entry, found, carries, recent⟩
    refine ⟨le_refl _,
      fun _ => ⟨index, entry, found, carries, by omega⟩, ?_⟩
    · intro opening
      have type := congrArg (fun packet => packet.header.type) carries
      simp only [Packet.withoutAck, MsgBuf.packet, Origin.message] at type
      rw [MsgBuf.packet, type] at opening
      exact opening.elim PktType.noConfusion PktType.noConfusion

end Sending

/-- What the receiver of some of the messages `entries` keeps: those returned
are in order, and the frame it expects comes later.  The connection IDs of the
sender are those of the draws `known`. -/
structure Receiver (origin : Origin) (known : Nat → Prop)
    (entries received : List Entry) (connIDIn frameExpected : SeqNo)
    (returned : List Packet) : Prop where
  returned : returned.map Packet.withoutAck = received.map origin.message
  ordered : received.Pairwise Entry.Before
  accepted : ∀ entry ∈ received, entry ∈ entries
  expected : ∀ last, received.getLast? = some last → ∃ incarnation next, known incarnation ∧
      connIDIn = origin.randoms incarnation ∧
      last.incarnation ≤ incarnation ∧
      frameExpected = origin.base + BitVec.ofNat 32 next ∧
      last.number < next ∧
      ∀ index entry, entries[index]? = some entry →
        entry.incarnation = incarnation → ¬last.Before entry →
          next ≤ entry.number + (entries.length - index)

/-- The connection IDs of the drawn incarnations are distinct. -/
def Origin.Distinct (origin : Origin) (known : Nat → Prop) : Prop :=
  ∀ first second, known first → known second →
    origin.randoms first = origin.randoms second → first = second

/-- What a packet handled while it is not too old tells the receiver. -/
structure Origin.Arrives (origin : Origin) (known : Nat → Prop)
    (entries : List Entry) (packet : Packet) : Prop where
  data : packet.header.type = .data → ∃ index entry,
    entries[index]? = some entry ∧ packet.withoutAck = origin.message entry ∧ known
      entry.incarnation ∧ entries.length ≤ index + 2 ^ 31
  opening : packet.header.type.opening → ∃ incarnation first,
    known incarnation ∧ packet.header.connid = origin.randoms incarnation ∧
      packet.header.seqno = origin.base + BitVec.ofNat 32 first ∧
      (∀ entry ∈ entries, incarnation < entry.incarnation →
        first ≤ entry.number) ∧
      (∀ entry ∈ entries, entry.number ≤ first + 2 ^ 31) ∧
      ∀ index entry, entries[index]? = some entry →
        first ≤ entry.number + (entries.length - index)

section Receiving

theorem ofNat_eq {base : SeqNo} {first second : Nat}
    (same : base + BitVec.ofNat 32 first = base + BitVec.ofNat 32 second) :
    first % 2 ^ 32 = second % 2 ^ 32 := by
  have numbers := congrArg BitVec.toNat ((BitVec.add_right_inj base).mp same)
  rwa [BitVec.toNat_ofNat, BitVec.toNat_ofNat] at numbers

theorem lt_of_rseqcmp_pos {base : SeqNo} {first second : Nat}
    (later : 0 < rseqcmp (base + BitVec.ofNat 32 second) (base + BitVec.ofNat 32 first))
    (near : first ≤ second + 2 ^ 31) : first < second := by
  by_contra beyond
  rw [Nat.not_lt] at beyond
  have difference : base + BitVec.ofNat 32 second -
      (base + BitVec.ofNat 32 first) = -BitVec.ofNat 32 (first - second) := by
    have split : BitVec.ofNat 32 first =
        BitVec.ofNat 32 (first - second) + BitVec.ofNat 32 second := by
      rw [← BitVec.ofNat_add, Nat.sub_add_cancel beyond]
    rw [split]
    bv_omega
  have value : (BitVec.ofNat 32 (first - second)).toNat = first - second := by
    rw [BitVec.toNat_ofNat, Nat.mod_eq_of_lt]
    omega
  rw [rseqcmp, difference, BitVec.toInt_eq_toNat_cond, BitVec.toNat_neg, value] at later
  split at later
  · omega
  · omega

theorem before_of_last {entries : List Entry} {next : Entry}
    (ordered : entries.Pairwise Entry.Before)
    (last : ∀ entry, entries.getLast? = some entry → entry.Before next) :
    ∀ entry ∈ entries, entry.Before next := by
  intro entry member
  rcases eq_nil_or_concat entries with rfl | ⟨front, final, rfl⟩
  · exact absurd member not_mem_nil
  · rw [concat_eq_append] at ordered member last
    have final_before := last final getLast?_concat
    rcases mem_append.mp member with earlier | same
    · exact ((pairwise_append.mp ordered).2.2 entry earlier final
        (mem_singleton_self _)).trans final_before
    · rw [mem_singleton.mp same]
      exact final_before

variable {origin : Origin} {known : Nat → Prop}
  {entries received : List Entry} {connIDIn frameExpected : SeqNo}
  {returned : List Packet}

/-- The sender accepts further messages. -/
theorem Receiver.later {known' : Nat → Prop} {new : List Entry}
    (receiver : Receiver origin known entries received connIDIn frameExpected returned)
    (grown : ∀ draw, known draw → known' draw) (accepted : Accepted (entries ++ new)) :
    Receiver origin known' (entries ++ new) received connIDIn frameExpected
      returned := by
  constructor
  · exact receiver.returned
  · exact receiver.ordered
  · exact fun entry member => mem_append_left _ (receiver.accepted entry member)
  · intro last final
    rcases receiver.expected last final with
      ⟨incarnation, next, drawn, connid, earlier, frame, newer, reach⟩
    refine ⟨incarnation, next, grown _ drawn, connid, earlier, frame, newer, ?_⟩
    intro index entry found same unordered
    by_cases old : index < entries.length
    · rw [List.getElem?_append_left old] at found
      have bound := reach index entry found same unordered
      rw [List.length_append]
      omega
    · rcases getElem?_of_mem
        (receiver.accepted last (mem_of_getLast? final)) with
        ⟨position, present⟩
      have inside := (List.getElem?_eq_some_iff.mp present).1
      rw [← @List.getElem?_append_left _ entries new position inside] at present
      exact absurd (accepted.before present found (by omega)) unordered

section

variable
  (receiver : Receiver origin known entries received connIDIn frameExpected returned)

include receiver

/-- A SYN or SYNACK taken over announces a frame after the one returned last,
so it is not one of an earlier incarnation. -/
theorem Receiver.accept (arrives : origin.Arrives known entries packet)
    (opening : packet.header.type.opening)
    (fresh : ∀ last, returned.getLast? = some last →
      0 < rseqcmp packet.header.seqno last.header.seqno) :
    Receiver origin known entries received packet.header.connid packet.header.seqno returned := by
  rcases arrives.opening opening with
    ⟨incarnation, first, drawn, connid, seqno, later, near, reach⟩
  refine { receiver with expected := ?_ }
  intro last final
  have member := receiver.accepted last (mem_of_getLast? final)
  have image : (returned.map Packet.withoutAck).getLast? = some (origin.message last) := by
    rw [receiver.returned, getLast?_map, final, Option.map_some]
  rw [getLast?_map] at image
  rcases lastReturned : returned.getLast? with _ | message
  · rw [lastReturned] at image
    cases image
  · rw [lastReturned, Option.map_some, Option.some.injEq] at image
    have number : message.header.seqno = origin.base + BitVec.ofNat 32 last.number :=
      congrArg (fun packet => packet.header.seqno) image
    have ahead := fresh message lastReturned
    rw [seqno, number] at ahead
    have newer := lt_of_rseqcmp_pos ahead (near last member)
    refine ⟨incarnation, first, drawn, connid, ?_, seqno, newer,
      fun index entry found _ _ => reach index entry found⟩
    by_contra earlier
    have behind := later last member (Nat.lt_of_not_le earlier)
    omega

theorem Receiver.next (distinct : origin.Distinct known) {index : Nat} {entry : Entry}
    (found : entries[index]? = some entry) (drawn : known entry.incarnation)
    (recent : entries.length ≤ index + 2 ^ 31) (own : connIDIn = origin.randoms entry.incarnation)
    (expected : frameExpected = origin.base + BitVec.ofNat 32 entry.number) :
    ∀ last, received.getLast? = some last → last.Before entry := by
  intro last final
  by_contra unordered
  rcases receiver.expected last final with
    ⟨incarnation, next, drawn', connid, earlier, frame, newer, reach⟩
  have same := distinct _ _ drawn' drawn (connid.symm.trans own)
  have numbers := ofNat_eq (frame.symm.trans expected)
  have bound := reach index entry found same.symm unordered
  rw [Entry.Before] at unordered
  omega

theorem Receiver.take (distinct : origin.Distinct known) (accepted : Accepted entries)
    (arrives : origin.Arrives known entries packet) (data : packet.header.type = .data)
    (own : connIDIn = packet.header.connid) (expected : frameExpected = packet.header.seqno) :
    packet.data.take packet.header.len = packet.data ∧
      packet.header.len ≤ maxDataSize ∧
      ∃ entry, Receiver origin known entries (received ++ [entry]) connIDIn
        (frameExpected + 1) (returned ++ [packet]) := by
  rcases arrives.data data with
    ⟨index, entry, found, same, drawn, recent⟩
  have header := congrArg Packet.header same
  have payload : packet.data = entry.payload := congrArg Packet.data same
  simp only [Packet.withoutAck, Origin.message, Header.mk.injEq] at header
  rcases header with ⟨_, len, seqno, _, connid⟩
  rw [connid] at own
  rw [seqno] at expected
  have member := mem_of_getElem? found
  have before := before_of_last receiver.ordered
    (receiver.next distinct found drawn recent own expected)
  refine ⟨?_, ?_, entry, ?_⟩
  · rw [len, payload, take_length]
  · rw [len]
    exact accepted.sizes entry member
  constructor
  · rw [map_append, map_append, receiver.returned]
    simp only [map_cons, map_nil, same]
  · rw [pairwise_append]
    refine ⟨receiver.ordered, pairwise_singleton _ _, ?_⟩
    intro other received last final
    rw [mem_singleton.mp final]
    exact before other received
  · exact Snoc.forall_mem receiver.accepted member
  · intro last final
    rw [getLast?_concat, Option.some.injEq] at final
    subst final
    refine ⟨entry.incarnation, entry.number + 1, drawn, own, le_refl _, ?_, Nat.lt_succ_self _, ?_⟩
    · rw [expected, BitVec.ofNat_add, BitVec.add_assoc]
      rfl
    · intro position other present same unordered
      have inside := (List.getElem?_eq_some_iff.mp found).1
      rcases Nat.lt_trichotomy position index with earlier | final | later
      · have bound := accepted.growth position index other entry present found earlier
        omega
      · subst final
        rw [found, Option.some.injEq] at present
        rw [present]
        omega
      · exact absurd (accepted.before found present later) unordered

theorem Receiver.sublist (accepted : Accepted entries) : received.Sublist entries := by
  have distinct : received.Nodup := by
    apply receiver.ordered.imp
    rintro first _ before rfl
    exact Entry.Before.irrefl first before
  have antisymm : Std.Antisymm Entry.Before :=
    ⟨fun first _ before after => absurd (before.trans after) (Entry.Before.irrefl first)⟩
  exact sublist_of_subperm_of_pairwise (subperm_of_subset distinct receiver.accepted)
    receiver.ordered accepted.ordered

end

end Receiving

end Psmgmt.Rdp
