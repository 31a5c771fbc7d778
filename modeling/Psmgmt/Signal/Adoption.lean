import Psmgmt.Library.Strides
import Psmgmt.Signal.Daemon

/-!
# Failed adoptions

What becomes of the children passed on by an exiting task if its own parent
does not take them: the messages `msg_NEWANCESTOR()` sends come back and are
read by `msg_ADOPTFAILED()`.
-/

namespace Psmgmt.Signal

open List Option

open Spawn (TaskGroup)
open Partition (noTid)
open ByteMemory Strides

/-! ## Task IDs in memory -/

/-- A half of a task ID is an `int32_t`. -/
def Half (half : Int) : Prop := -2 ^ 31 ≤ half ∧ half < 2 ^ 31

def fourMem (half : Int) : Four UInt8 :=
  let value := (half % 2 ^ 32).toNat
  ⟨UInt8.ofNat (value % 256), UInt8.ofNat (value / 256 % 256),
    UInt8.ofNat (value / 256 / 256 % 256),
    UInt8.ofNat (value / 256 / 256 / 256 % 256)⟩

theorem tidMem_eq (tid : TaskId) : tidMem tid = (fourMem tid.pid).items (fourMem tid.node) := rfl

variable (bytes : List UInt8)

theorem toMem_ofMem : toMem bytes.length (ofMem bytes) = bytes := by
  induction bytes with
  | nil => rfl
  | cons byte rest induction =>
    have small := byte.toNat_lt
    have low : (byte.toNat + 256 * ofMem rest) % 256 = byte.toNat := by omega
    have high : (byte.toNat + 256 * ofMem rest) / 256 = ofMem rest := by omega
    simp [ofMem, toMem, low, high, induction]

theorem ofMem_lt : ofMem bytes < 256 ^ bytes.length := by
  induction bytes with
  | nil => simp [ofMem]
  | cons byte rest induction =>
    have small := byte.toNat_lt
    rw [ofMem, length_cons, pow_succ]
    omega

/-- A half is found again in its bytes. -/
theorem int32Of_toMem {half : Int} (bounds : Half half) :
    int32Of (toMem 4 (half % 2 ^ 32).toNat) = half := by
  have small : (half % 2 ^ 32).toNat < 256 ^ 4 := by omega
  rw [int32Of, ofMem_toMem small]
  unfold Half at bounds
  split <;> omega

/-- The bytes are found again in the half they hold. -/
theorem toMem_int32Of {bytes : List UInt8} (length : bytes.length = 4) :
    toMem 4 (int32Of bytes % 2 ^ 32).toNat = bytes := by
  have bound := ofMem_lt bytes
  rw [length] at bound
  have value : (int32Of bytes % 2 ^ 32).toNat = ofMem bytes := by
    rw [int32Of]
    split <;> omega
  have whole := toMem_ofMem bytes
  rwa [length, ← value] at whole

variable {tid ptid dest : TaskId} {d : Daemon} {tids final : List TaskId}
  {kill : Kill} {answers : List Msg} {closed : List (List TaskId)}

theorem tidOf_tidMem (pid : Half tid.pid) (node : Half tid.node) : tidOf (tidMem tid) = tid := by
  have first : (tidMem tid).take 4 = toMem 4 (tid.pid % 2 ^ 32).toNat := rfl
  have second : (tidMem tid).drop 4 = toMem 4 (tid.node % 2 ^ 32).toNat := rfl
  rw [tidOf, first, second, int32Of_toMem pid, int32Of_toMem node]

theorem tidMem_tidOf {bytes : List UInt8} (length : bytes.length = 8) :
    tidMem (tidOf bytes) = bytes := by
  have first : (bytes.take 4).length = 4 := by
    rw [length_take, length]
    rfl
  have second : (bytes.drop 4).length = 4 := by rw [length_drop, length]
  rw [tidMem, tidOf, toMem_int32Of first, toMem_int32Of second]
  exact take_append_drop 4 bytes

/-! ## Children reported -/

/-- The calls of a handler whose messages are kept. -/
def keeping : Calls := { callsTo 0 with sendMsg := defer }

/-- The task is passed on if `sender` exits. -/
def inheritsIn (sender : TaskId) (d : Daemon) (tid : TaskId) : Bool :=
  (d.tasks tid).any (inherits sender)

/-- The children that `sender` passes on. -/
def children (sender : TaskId) (d : Daemon) : List TaskId := d.managed.filter (inheritsIn sender d)

/-- `other` is the forwarder of the task. -/
def forwards (d : Daemon) (tid other : TaskId) : Bool :=
  (d.tasks tid).any (fun task => task.forwarder.any (fun pid => other = ⟨d.myID, pid⟩))

/-- What holds of the tasks a daemon manages: all of them are local processes,
and the tasks others name as their forwarders are forwarders. -/
structure Managed (d : Daemon) : Prop where
  nodup : d.managed.Nodup
  node : ∀ tid ∈ d.managed, tid.node = d.myID
  pid : ∀ tid ∈ d.managed, 0 < tid.pid ∧ tid.pid < 2 ^ 31
  myID : 0 ≤ d.myID ∧ d.myID < 2 ^ 31
  forwarder : ∀ tid other, forwards d tid other →
    ∀ task, d.tasks other = some task → task.group = TaskGroup.forwarder

theorem modify_tasks (tid other : TaskId) (change : Task → Task) (d : Daemon) :
    (d.modify tid change).tasks other =
      if other = tid then (d.tasks other).map change else d.tasks other := by
  simp only [Daemon.modify, Function.update_apply]
  split
  · next same => rw [same]
  · rfl

def Task.withParent (ptid : TaskId) (task : Task) : Task := { task with ptid := ptid }

theorem setParent_tasks (tid ptid : TaskId) (d : Daemon) (other : TaskId) :
    (setParent tid ptid d).tasks other =
      if other = tid ∨ forwards d tid other then
        (d.tasks other).map (Task.withParent ptid)
      else d.tasks other := by
  cases stored : d.tasks tid with
  | none =>
    have same : other = tid → d.tasks other = none :=
      fun equality => equality ▸ stored
    simp only [setParent, stored, forwards, any_none, Bool.false_eq_true, or_false]
    split
    · next equality => simp [same equality]
    · rfl
  | some task =>
    cases forwarder : task.forwarder with
    | none =>
      have shape : setParent tid ptid d = d.modify tid (Task.withParent ptid) := by
        simp only [setParent, stored, forwarder]
        rfl
      rw [shape, modify_tasks]
      simp [forwards, stored, forwarder]
    | some pid =>
      have shape : setParent tid ptid d =
          (d.modify tid (Task.withParent ptid)).modify ⟨d.myID, pid⟩ (Task.withParent ptid) := by
        simp only [setParent, stored, forwarder]
        rfl
      have twice : ∀ entry : Option Task,
          (entry.map (Task.withParent ptid)).map (Task.withParent ptid) =
            entry.map (Task.withParent ptid) := by
        intro entry
        cases entry <;> rfl
      rw [shape, modify_tasks, modify_tasks]
      by_cases isForwarder : other = ⟨d.myID, pid⟩
      · have forwards_ : forwards d tid other := by
          simp [forwards, stored, forwarder, isForwarder]
        rw [if_pos isForwarder, if_pos (Or.inr forwards_)]
        split
        · exact twice _
        · rfl
      · simp [forwards, stored, forwarder, isForwarder]

/-- Nothing else changes. -/
theorem setParent_rest (tid ptid : TaskId) (d : Daemon) :
    setParent tid ptid d = { d with tasks := (setParent tid ptid d).tasks } := by
  rw [setParent]
  split
  · rfl
  · split <;> rfl

theorem setParent_inherits {other : TaskId}
    (forwarder : ∀ other, forwards d tid other →
      ∀ task, d.tasks other = some task → task.group = TaskGroup.forwarder)
    (different : other ≠ tid) (sender ptid : TaskId) :
    inheritsIn sender (setParent tid ptid d) other = inheritsIn sender d other := by
  rw [inheritsIn, setParent_tasks]
  by_cases isForwarder : forwards d tid other
  · rw [if_pos (.inr isForwarder), inheritsIn]
    cases stored : d.tasks other with
    | none => rfl
    | some task =>
      have group := forwarder other isForwarder task stored
      simp [inherits, Task.withParent, group]
  · rw [if_neg (by simp [different, isForwarder]), inheritsIn]

theorem setParent_forwards (tid ptid : TaskId) (d : Daemon)
    (first other : TaskId) :
    forwards (setParent tid ptid d) first other = forwards d first other := by
  have myID : (setParent tid ptid d).myID = d.myID := by
    rw [setParent_rest]
  rw [forwards, setParent_tasks, myID]
  split
  · rw [forwards]
    cases d.tasks first <;> rfl
  · rfl

theorem setParent_group {other : TaskId} {task : Task}
    (stored : (setParent tid ptid d).tasks other = some task) :
    ∃ before, d.tasks other = some before ∧ before.group = task.group := by
  rw [setParent_tasks] at stored
  split at stored
  · obtain ⟨before, found_, same⟩ := map_eq_some_iff.mp stored
    exact ⟨before, found_, by rw [← same]; rfl⟩
  · exact ⟨task, stored, rfl⟩

/-! ## The messages that report them -/

/-- The children as a message lists them; none of them is released. -/
def childrenMem (tids : List TaskId) : List UInt8 := tids.flatMap (fun tid => tidMem tid ++ [0])

/-- A message with these children, and the end mark if it is the last. -/
def reportBuf (sender : TaskId) (last : Bool) (tids : List TaskId) : List UInt8 :=
  tidMem sender ++ (childrenMem tids ++ ending 0 last)

@[simp] theorem length_tidMem (tid : TaskId) : (tidMem tid).length = 8 := rfl

@[simp] theorem length_childrenMem (tids : List TaskId) :
    (childrenMem tids).length = 9 * tids.length := by
  induction tids with
  | nil => rfl
  | cons tid rest induction =>
    simp only [childrenMem, flatMap_cons, length_append] at *
    simp only [length_tidMem, length_cons, length_nil] at *
    omega

theorem childrenMem_append (first second : List TaskId) :
    childrenMem (first ++ second) = childrenMem first ++ childrenMem second := by
  simp [childrenMem]

theorem emptyBuf_eq (sender : TaskId) : emptyBuf sender = tidMem sender := rfl

/-- Another child fits unless the message has many. -/
theorem putChild (sender tid : TaskId) (tids : List TaskId)
    (fits : 8 + 9 * tids.length ≤ Serial.bufMsgSize) :
    (tryPutMsgBuf (tidMem tid) (tidMem sender ++ childrenMem tids)).bind (tryPutMsgBuf [0]) =
      if 17 + 9 * tids.length ≤ Serial.bufMsgSize then
        some (tidMem sender ++ childrenMem (tids ++ [tid]))
      else none := by
  have room : Serial.bufMsgSize = 1432 := rfl
  rw [childrenMem_append]
  simp only [tryPutMsgBuf, length_append, length_tidMem, length_childrenMem]
  by_cases first : 8 ≤ Serial.bufMsgSize - (8 + 9 * tids.length)
  · by_cases second : 17 + 9 * tids.length ≤ Serial.bufMsgSize
    · rw [if_pos first, if_pos second, bind_some, tryPutMsgBuf, if_pos]
      · simp [childrenMem]
      · simp
        omega
    · rw [if_pos first, if_neg second, bind_some, tryPutMsgBuf, if_neg]
      simp
      omega
  · rw [if_neg first, if_neg (by omega)]
    rfl

/-- The message sent with these children. -/
def report (sender dest request : TaskId) (last : Bool) (tids : List TaskId) : Msg :=
  .adoptChildSet dest request (reportBuf sender last tids)

theorem report_false (sender dest request : TaskId) (tids : List TaskId) :
    report sender dest request false tids =
      .adoptChildSet dest request (tidMem sender ++ childrenMem tids) := by
  simp [report, reportBuf, ending]

theorem putFirst (sender tid : TaskId) : putMsgBuf [0] (putMsgBuf (tidMem tid) (emptyBuf sender)) =
      tidMem sender ++ childrenMem [tid] := by
  have first : putMsgBuf (tidMem tid) (tidMem sender) = tidMem sender ++ tidMem tid := rfl
  have second : putMsgBuf [0] (tidMem sender ++ tidMem tid) =
      tidMem sender ++ tidMem tid ++ [0] := rfl
  rw [emptyBuf_eq, first, second]
  simp [childrenMem]

variable {sender : TaskId}

/-- The loop reports the children in order, and no message but the last with
fewer than six of them. -/
theorem adoptLoop_reports {dest request : TaskId} {d : Daemon}
    (forwarder : ∀ tid other, forwards d tid other →
      ∀ task, d.tasks other = some task → task.group = TaskGroup.forwarder)
    {tids chunk : List TaskId} (nodup : tids.Nodup)
    (fits : 8 + 9 * chunk.length ≤ Serial.bufMsgSize) :
    ∃ (closed : List (List TaskId)) (final : List TaskId),
      (adoptLoop keeping sender dest request tids (tidMem sender ++ childrenMem chunk) d).1 =
        tidMem sender ++ childrenMem final ∧
      (adoptLoop keeping sender dest request tids (tidMem sender ++ childrenMem chunk) d).2.out =
        d.out ++ closed.map (report sender dest request false) ∧
      closed.flatten ++ final = chunk ++ tids.filter (inheritsIn sender d) ∧
      (∀ group ∈ closed, 6 ≤ group.length) ∧
      8 + 9 * final.length ≤ Serial.bufMsgSize := by
  have room : Serial.bufMsgSize = 1432 := rfl
  induction tids generalizing chunk d with
  | nil => exact ⟨[], chunk, rfl, by simp [adoptLoop], by simp, by simp, fits⟩
  | cons tid rest induction =>
    rw [nodup_cons] at nodup
    rw [adoptLoop]
    cases inherits_ : (d.tasks tid).any (inherits sender) with
    | false =>
      have skipped : inheritsIn sender d tid = false := inherits_
      rw [if_neg (by simp), filter_cons_of_neg (by simp [skipped])]
      exact induction forwarder nodup.2 fits
    | true =>
      have passed : inheritsIn sender d tid := inherits_
      have unreleased : (d.tasks tid).any Task.released = false := by
        cases stored : d.tasks tid with
        | none => rfl
        | some task =>
          rw [stored] at inherits_
          simp only [any_some, inherits, Bool.and_eq_true, Bool.not_eq_true'] at inherits_
          simpa using inherits_.1.1.2
      have later : ∀ tid' other, forwards (setParent tid request d) tid' other →
            ∀ task, (setParent tid request d).tasks other = some task →
              task.group = TaskGroup.forwarder := by
        intro tid' other forwards_ task stored
        rw [setParent_forwards] at forwards_
        obtain ⟨before, found_, group⟩ := setParent_group stored
        rw [← group]
        exact forwarder tid' other forwards_ before found_
      have others : rest.filter
          (inheritsIn sender (setParent tid request d)) = rest.filter (inheritsIn sender d) := by
        apply filter_congr
        intro other member
        apply setParent_inherits (forwarder tid)
        rintro rfl
        exact nodup.1 member
      have out : (setParent tid request d).out = d.out := by
        rw [setParent_rest]
      rw [if_pos (by simp), filter_cons_of_pos passed]
      simp only [unreleased, Bool.false_eq_true, if_false, putChild sender tid chunk fits]
      by_cases another : 17 + 9 * chunk.length ≤ Serial.bufMsgSize
      · rw [if_pos another]
        obtain ⟨closed, final, buf, sent, whole, long, short⟩ :=
          @induction (setParent tid request d) later (chunk ++ [tid])
            nodup.2 (by simp only [length_append, length_cons, length_nil]; omega)
        refine ⟨closed, final, buf, ?_, ?_, long, short⟩
        · rw [sent, out]
        · rw [whole, others]
          simp
      · rw [if_neg another]
        obtain ⟨closed, final, buf, sent, whole, long, short⟩ :=
          @induction
            (keeping.sendMsg (.adoptChildSet dest request
              (tidMem sender ++ childrenMem chunk))
              (setParent tid request d)) later [tid] nodup.2
            (by simp only [length_cons, length_nil]; omega)
        refine ⟨chunk :: closed, final, ?_, ?_, ?_, ?_, short⟩
        · simpa only [putFirst] using buf
        · rw [putFirst, sent, List.map_cons, report_false]
          simp [keeping, defer, out]
        · rw [flatten_cons, append_assoc, whole]
          have same : rest.filter (inheritsIn sender
              (keeping.sendMsg (.adoptChildSet dest request
                (tidMem sender ++ childrenMem chunk))
                (setParent tid request d))) =
              rest.filter (inheritsIn sender d) := others
          rw [same]
          rfl
        · intro group member
          rcases List.mem_cons.mp member with head | tail
          · rw [head]
            omega
          · exact long group tail

/-- The messages `msg_NEWANCESTOR()` sends to the new parent. -/
def reports (sender dest request : TaskId) (d : Daemon) : List Msg :=
  (msgNewAncestor keeping sender dest request { d with out := [] }).out

/-- The children are spread over messages, of which only the last has the end
mark and only the last may have few children. -/
theorem reports_eq {dest request : TaskId} {d : Daemon} (managed : Managed d)
    (up : d.up (request.getID d.myID)) :
    ∃ (closed : List (List TaskId)) (final : List TaskId), reports sender dest request d =
        closed.map (report sender dest request false) ++ [report sender dest request true final] ∧
      closed.flatten ++ final = children sender d ∧
      ∀ group ∈ closed, 6 ≤ group.length := by
  have room : Serial.bufMsgSize = 1432 := rfl
  obtain ⟨closed, final, buf, sent, whole, long, short⟩ :=
    @adoptLoop_reports sender dest request { d with out := [] }
      managed.forwarder d.managed [] managed.nodup (by decide)
  have start : emptyBuf sender = tidMem sender ++ childrenMem [] := by
    simp [emptyBuf_eq, childrenMem]
  have zeros : tidMem noTid = ending 0 true := by decide
  have endMark : ∀ tids, tidMem sender ++ childrenMem tids ++ tidMem noTid =
      reportBuf sender true tids := by
    intro tids
    rw [zeros, reportBuf, append_assoc]
  rw [nil_append] at whole
  simp only [reports, msgNewAncestor, if_pos up, start, buf]
  by_cases fits : 16 + 9 * final.length ≤ Serial.bufMsgSize
  · refine ⟨closed, final, ?_, whole, long⟩
    have put : tryPutMsgBuf (tidMem noTid)
        (tidMem sender ++ childrenMem final) = some (reportBuf sender true final) := by
      rw [tryPutMsgBuf, if_pos, endMark]
      simp only [length_append, length_tidMem, length_childrenMem]
      omega
    rw [put]
    simp only [keeping, defer] at sent ⊢
    rw [sent]
    rfl
  · refine ⟨closed ++ [final], [], ?_, ?_, ?_⟩
    · have put : tryPutMsgBuf (tidMem noTid) (tidMem sender ++ childrenMem final) = none := by
        rw [tryPutMsgBuf, if_neg]
        simp only [length_append, length_tidMem, length_childrenMem]
        omega
      have alone : putMsgBuf (tidMem noTid) (tidMem sender ++ childrenMem []) =
          reportBuf sender true [] := by
        rw [← endMark []]
        rfl
      rw [put]
      simp only [keeping, defer, alone] at sent ⊢
      rw [sent, map_append, map_singleton, report_false]
      simp [report]
    · rw [flatten_append, append_nil, flatten_singleton]
      exact whole
    · intro group member
      rcases mem_append.mp member with inClosed | isFinal
      · exact long group inClosed
      · rw [mem_singleton.mp isFinal]
        omega

/-! ## Messages that come back -/

/-- What comes back for a message that is dropped on its way, or refused by
the daemon it is sent to. -/
inductive Returned : Msg → Msg → Prop where
  | dropped (d : Daemon) {msg answer : Msg}
      (sent : (dropMsg keeping msg { d with out := [] }).out = [answer]) :
      Returned msg answer
  | refused (d : Daemon) {sender dest : TaskId} {buf : List UInt8}
      {answer : Msg}
      (gone : (d.tasks dest).isNone ∨ ¬ d.up (sender.getID d.myID))
      (sent : (handleMsg keeping (.adoptChildSet sender dest buf)
        { d with out := [] }).out = [answer]) :
      Returned (.adoptChildSet sender dest buf) answer

theorem returned_report {request : TaskId} {last : Bool} {answer : Msg}
    (returned : Returned (report sender dest request last tids) answer) :
    answer = .adoptFailed request dest (reportBuf sender last tids) := by
  unfold report at returned
  cases returned with
  | dropped d sent => exact (singleton_inj.mp sent).symm
  | refused d gone sent =>
    have refuses : handleMsg keeping
        (.adoptChildSet dest request (reportBuf sender last tids))
        { d with out := [] } = dropAdoptChildSet keeping dest request
            (reportBuf sender last tids) { d with out := [] } := if_pos gone
    rw [refuses] at sent
    exact (singleton_inj.mp sent).symm

/-- The messages that came back are handled one after the other. -/
def handleReturned (answers : List Msg) (d : Daemon) : Daemon :=
  answers.foldl (fun d answer => handleMsg keeping answer d) d

/-- The message tells the passing parent that its children were not taken. -/
def tellsFailure (sender : TaskId) (msg : Msg) : Bool :=
  match msg with
  | .inheritFailed _ dest => dest = sender
  | _ => false

/-- The child and its forwarder have their parent back, and the child has got
its relatives' signal. -/
structure Orphaned (sender : TaskId) (d after : Daemon) (tid : TaskId) :
    Prop where
  parent : (after.tasks tid).map Task.ptid = some sender
  forwarder : ∀ other, forwards d tid other →
    ∀ task, after.tasks other = some task → task.ptid = sender
  signalled : d.kills.count ⟨tid, sender, -1⟩ < after.kills.count ⟨tid, sender, -1⟩

/-- All children are orphaned, and the passing parent is told so once. -/
structure Undone (sender : TaskId) (tids : List TaskId) (d after : Daemon) :
    Prop where
  orphaned : ∀ tid ∈ tids, Orphaned sender d after tid
  told : after.out.countP (tellsFailure sender) = d.out.countP (tellsFailure sender) + 1

/-! ## What the handler reads -/

/-- The task IDs the handler takes from a message behind the parent's. -/
def failTids (buf : List UInt8) : List TaskId := (strides (buf.drop 8)).map tidOf

theorem sendSignal_kills (tid sender : TaskId) (d : Daemon)
    (other : kill.dest ≠ tid) :
    (sendSignal keeping tid sender (-1) d).kills.count kill = d.kills.count kill := by
  rw [sendSignal]
  split
  · rfl
  · split
    · rfl
    · split
      · rfl
      · have different : (⟨tid, sender, -1⟩ : Kill) ≠ kill :=
          fun same => other (same ▸ rfl)
        simp [Daemon.modify, count_append, different]

theorem failLoop_kills {rest : List UInt8}
    (unread : kill.dest ∉ (strides rest).map tidOf) :
    (failLoop keeping dest ptid rest d).kills.count kill = d.kills.count kill := by
  induction rest using strides.induct generalizing d with
  | case1 a b c e f g h i rest induction =>
    simp only [strides, List.map_cons, List.mem_cons, not_or] at unread
    rw [failLoop]
    split
    · rfl
    · split
      · exact induction unread.2
      · rw [induction unread.2, sendSignal_kills _ _ _ unread.1, setParent_rest]
  | case2 rest short =>
    rw [failLoop]
    exact short

theorem msgAdoptFailed_kills {buf : List UInt8}
    (unread : kill.dest ∉ failTids buf) :
    (msgAdoptFailed keeping dest buf d).kills.count kill = d.kills.count kill := by
  rw [msgAdoptFailed]
  split
  · rfl
  · exact failLoop_kills unread

theorem childrenMem_records {node : Int} (last : Bool)
    (local_ : ∀ tid ∈ tids, tid.node = node) :
    childrenMem tids ++ ending 0 last =
      records 0 (fourMem node) last (tids.map (fun tid => fourMem tid.pid)) := by
  induction tids with
  | nil => rfl
  | cons tid rest induction =>
    have same := local_ tid (by simp)
    have others := induction (fun other member => local_ other (mem_cons_of_mem tid member))
    rw [List.map_cons, records, ← others, ← same]
    rfl

theorem fourMem_injective {first second : Int} (firstHalf : Half first)
    (secondHalf : Half second) (same : fourMem first = fourMem second) :
    first = second := by
  have mem : ∀ half : Int, toMem 4 (half % 2 ^ 32).toNat =
      [(fourMem half).a, (fourMem half).b, (fourMem half).c, (fourMem half).d] := fun half => rfl
  have bytes : toMem 4 (first % 2 ^ 32).toNat = toMem 4 (second % 2 ^ 32).toNat := by
    rw [mem, mem, same]
  rw [← int32Of_toMem firstHalf, ← int32Of_toMem secondHalf, bytes]

theorem fourMem_zero : fourMem 0 = Four.zeros 0 := by decide

theorem mem_keysFound {node : Int} {last : Bool} (local_ : ∀ tid ∈ tids, tid.node = node)
    (same : tid.node = node) (half : Half tid.pid) (nonzero : tid.pid ≠ 0)
    (read : tid ∈ failTids (reportBuf sender last tids)) :
    fourMem tid.pid ∈ keysFound 0 (fourMem node) last (tids.map (fun tid => fourMem tid.pid)) := by
  have behind : (reportBuf sender last tids).drop 8 = childrenMem tids ++ ending 0 last := rfl
  rw [failTids, behind, childrenMem_records last local_] at read
  obtain ⟨stride, member, value⟩ := mem_map.mp read
  have bytes : stride = (fourMem tid.pid).items (fourMem node) := by
    rw [← tidMem_tidOf (length_of_mem member), value, tidMem_eq, same]
  have notZeros : fourMem tid.pid ≠ Four.zeros 0 := by
    rw [← fourMem_zero]
    intro zero
    exact nonzero (fourMem_injective half (by unfold Half; omega) zero)
  refine mem_filterMap.mpr ⟨stride, member, ?_⟩
  rw [bytes]
  exact (found_eq_some _ _).mpr ⟨rfl, rfl, notZeros⟩

/-! ## When an adoption can fail -/

theorem handleReturned_kills (unread : ∀ answer ∈ answers, ∃ sender dest buf,
      answer = .adoptFailed sender dest buf ∧ kill.dest ∉ failTids buf) :
    (handleReturned answers d).kills.count kill = d.kills.count kill := by
  induction answers generalizing d with
  | nil => rfl
  | cons answer rest induction =>
    obtain ⟨sender, dest, buf, same, absent⟩ := unread answer (by simp)
    have others := @induction (handleMsg keeping answer d)
      (fun other member => unread other (mem_cons_of_mem answer member))
    rw [handleReturned, foldl_cons]
    rw [handleReturned] at others
    rw [others, same]
    exact msgAdoptFailed_kills absent

variable {after : Daemon}

section Passing

variable {sender dest request : TaskId} {d : Daemon}

/-- The answers to the reports: each message comes back as it was sent. -/
theorem answers_eq (returned : List.Forall₂ Returned
      (closed.map (report sender dest request false) ++
        [report sender dest request true final]) answers) :
    answers = (closed.map (fun tids => (false, tids)) ++ [(true, final)]).map
        (fun part => Msg.adoptFailed request dest (reportBuf sender part.1 part.2)) := by
  induction closed generalizing answers with
  | nil =>
    cases returned with
    | cons first rest =>
      cases rest
      simp [returned_report first]
  | cons tids rest induction =>
    cases returned with
    | cons first others => simp [returned_report first, induction others]

theorem children_managed (member : tid ∈ children sender d) : tid ∈ d.managed :=
  (mem_filter.mp member).1

theorem Managed.half (managed : Managed d) (member : tid ∈ d.managed) : Half tid.pid := by
  have bounds := managed.pid tid member
  unfold Half
  omega

/-- Two children or more: one of them is not read from any message. -/
theorem exists_unread (managed : Managed d) (whole : closed.flatten ++ final = children sender d)
    (long : ∀ group ∈ closed, 6 ≤ group.length) (several : 2 ≤ (children sender d).length) :
    ∃ tid ∈ children sender d, ∀ part ∈ closed.map (fun tids => (false, tids)) ++ [(true, final)],
        tid ∉ failTids (reportBuf sender part.1 part.2) := by
  let key := fun tid : TaskId => fourMem tid.pid
  let parts := closed.map (fun tids => (false, tids)) ++ [(true, final)]
  let sequences := parts.map (fun part => (part.1, part.2.map key))
  have keys : (sequences.map Prod.snd).flatten = (children sender d).map key := by
    simp only [sequences, parts, ← whole, map_append, List.map_map,
      map_singleton, flatten_append, flatten_singleton,
      map_flatten]
    rfl
  have members : ∀ part ∈ parts, ∀ tid ∈ part.2, tid ∈ children sender d := by
    intro part inParts tid member
    rw [← whole]
    rcases mem_append.mp inParts with inClosed | isFinal
    · obtain ⟨tids, inside, same⟩ := mem_map.mp inClosed
      rw [← same] at member
      exact mem_append_left _ (mem_flatten_of_mem inside member)
    · rw [mem_singleton.mp isFinal] at member
      exact mem_append_right _ member
  have distinct : (sequences.map Prod.snd).flatten.Nodup := by
    rw [keys]
    refine List.Nodup.map_on ?_ (managed.nodup.filter _)
    intro first firstIn second secondIn same
    have firstManaged := children_managed firstIn
    have secondManaged := children_managed secondIn
    have pids := fourMem_injective (managed.half firstManaged) (managed.half secondManaged) same
    have nodes := (managed.node first firstManaged).trans (managed.node second secondManaged).symm
    cases first
    cases second
    simp only [TaskId.mk.injEq]
    exact ⟨nodes, pids⟩
  have nonzero : ∀ four ∈ (sequences.map Prod.snd).flatten, four ≠ Four.zeros 0 := by
    rw [keys]
    intro four member
    obtain ⟨tid, inside, rfl⟩ := mem_map.mp member
    have inManaged := children_managed inside
    rw [← fourMem_zero]
    intro zero
    have isZero := fourMem_injective (managed.half inManaged) (by unfold Half; omega) zero
    have positive := (managed.pid tid inManaged).1
    omega
  have enough : 2 ≤ (sequences.map Prod.snd).flatten.length := by
    rw [keys, length_map]
    exact several
  have longParts : ∀ sequence ∈ sequences.dropLast, 6 ≤ sequence.2.length := by
    intro sequence member
    have shape : sequences.dropLast = closed.map (fun tids =>
        (false, tids.map key)) := by
      simp [sequences, parts]
    rw [shape] at member
    obtain ⟨tids, inside, rfl⟩ := mem_map.mp member
    rw [length_map]
    exact long tids inside
  obtain ⟨four, inKeys, unfound⟩ :=
    @not_all_sequences _ _ 0 (fourMem d.myID) sequences distinct nonzero enough longParts
  rw [keys] at inKeys
  obtain ⟨tid, inside, rfl⟩ := mem_map.mp inKeys
  refine ⟨tid, inside, ?_⟩
  intro part inParts read
  have inManaged := children_managed inside
  apply unfound (part.1, part.2.map key) (mem_map.mpr ⟨part, inParts, rfl⟩)
  refine mem_keysFound ?_ (managed.node tid inManaged) (managed.half inManaged) ?_ read
  · intro other member
    exact managed.node other (children_managed (members part inParts other member))
  · have positive := (managed.pid tid inManaged).1
    omega

/-- A single child at most is reported by one message. -/
theorem closed_nil (whole : closed.flatten ++ final = children sender d)
    (long : ∀ group ∈ closed, 6 ≤ group.length) (few : (children sender d).length ≤ 1) :
    closed = [] ∧ final = children sender d := by
  cases closed with
  | nil => exact ⟨rfl, whole⟩
  | cons first rest =>
    have lengths := congrArg List.length whole
    have many := long first (by simp)
    rw [flatten_cons, length_append, length_append] at lengths
    omega

theorem sendSignal_ptid (tid ptid : TaskId) (before : Daemon) (other : TaskId) :
    ((sendSignal keeping tid ptid (-1) before).tasks other).map Task.ptid =
      (before.tasks other).map Task.ptid := by
  rw [sendSignal]
  split
  · rfl
  · split
    · rfl
    · split
      · rfl
      · simp only [modify_tasks]
        split
        · cases before.tasks other <;> rfl
        · rfl

theorem sendSignal_out {before : Daemon} (local_ : before.isLocal tid) :
    (sendSignal keeping tid ptid (-1) before).out = before.out := by
  rw [sendSignal, if_neg (by simp [local_])]
  split
  · rfl
  · split <;> rfl

theorem orphaned_after {tid ptid : TaskId} {before : Daemon} {task : Task}
    (local_ : before.isLocal tid) (stored : before.tasks tid = some task) (pid : tid.pid ≠ 0) :
    Orphaned ptid before (sendSignal keeping tid ptid (-1) (setParent tid ptid before)) tid where
  parent := by
    rw [sendSignal_ptid, setParent_tasks, if_pos (.inl rfl), stored]
    rfl
  forwarder := by
    intro other isForwarder changed after
    have ptids := sendSignal_ptid tid ptid (setParent tid ptid before) other
    rw [after, setParent_tasks, if_pos (.inr isForwarder)] at ptids
    cases found_ : before.tasks other with
    | none => simp [found_] at ptids
    | some original =>
      rw [found_] at ptids
      exact Option.some.inj ptids
  signalled := by
    have here : (setParent tid ptid before).isLocal tid = true := by
      rw [setParent_rest]
      exact local_
    have exists_ : (setParent tid ptid before).tasks tid = some (task.withParent ptid) := by
      rw [setParent_tasks, if_pos (.inl rfl), stored]
      rfl
    have kills : (setParent tid ptid before).kills = before.kills := by
      rw [setParent_rest]
    rw [sendSignal, if_neg (by simp [here])]
    simp [exists_, TaskId.getPID, pid, Daemon.modify, kills]

theorem undone_of_few (managed : Managed d) (senderPid : Half sender.pid)
    (senderNode : Half sender.node) (same : after.myID = d.myID)
    (alive : ∀ tid ∈ children sender d, (after.tasks tid).isSome)
    (few : (children sender d).length ≤ 1) :
    Undone sender (children sender d) after
      (msgAdoptFailed keeping dest (reportBuf sender true (children sender d)) after) := by
  have parent : tidOf (tidMem sender) = sender := tidOf_tidMem senderPid senderNode
  have told : ∀ before : Daemon, (failLoop keeping dest sender (ending 0 true) before) =
        defer (.inheritFailed dest sender) before := by
    intro before
    rfl
  have tells : tellsFailure sender (.inheritFailed dest sender) := by
    simp [tellsFailure]
  match list : children sender d with
  | [] =>
    have run : msgAdoptFailed keeping dest (reportBuf sender true []) after =
        failLoop keeping dest (tidOf (tidMem sender)) (ending 0 true)
          after := rfl
    rw [run, parent, told]
    exact ⟨by simp, by simp [defer, tells]⟩
  | [tid] =>
    have inside : tid ∈ children sender d := by simp [list]
    have inManaged := children_managed inside
    have positive := (managed.pid tid inManaged).1
    have node := managed.node tid inManaged
    have myID := managed.myID
    obtain ⟨task, stored⟩ := isSome_iff_exists.mp (alive tid inside)
    have read : tidOf (tidMem tid) = tid :=
      tidOf_tidMem (managed.half inManaged) (by unfold Half; omega)
    have notEnd : tid ≠ noTid := by
      intro equality
      rw [equality] at positive
      exact absurd positive (by decide)
    have local_ : after.isLocal tid := by
      simp only [Daemon.isLocal, TaskId.getID, same, node]
      rw [if_neg (by omega)]
      simp
    have run : msgAdoptFailed keeping dest (reportBuf sender true [tid]) after =
          failLoop keeping dest (tidOf (tidMem sender))
            (tidMem tid ++ 0 :: ending 0 true) after := rfl
    have step : failLoop keeping dest sender (tidMem tid ++ 0 :: ending 0 true) after =
          failLoop keeping dest sender (0 :: ending 0 true)
            (sendSignal keeping tid sender (-1) (setParent tid sender after)) := by
      rw [← read] at stored notEnd
      rw [show tidMem tid ++ 0 :: ending 0 true =
        _ :: _ :: _ :: _ :: _ :: _ :: _ :: _ :: 0 :: ending 0 true from rfl, failLoop]
      split
      · next ended => exact absurd ended notEnd
      · split
        · next none => cases stored.symm.trans none
        · exact congrArg (fun tid => failLoop keeping dest sender (0 :: ending 0 true)
            (sendSignal keeping tid sender (-1) (setParent tid sender after))) read
    have ends : ∀ before : Daemon, failLoop keeping dest sender (0 :: ending 0 true) before =
          defer (.inheritFailed dest sender) before := fun before => rfl
    have orphaned := @orphaned_after tid sender after task local_ stored (by omega)
    have unsent : (sendSignal keeping tid sender (-1)
        (setParent tid sender after)).out = after.out := by
      rw [sendSignal_out, setParent_rest]
      rw [setParent_rest]
      exact local_
    rw [run, parent, step, ends]
    refine ⟨?_, ?_⟩
    · intro other member
      rw [mem_singleton.mp member]
      exact ⟨orphaned.parent, orphaned.forwarder, orphaned.signalled⟩
    · simp [defer, unsent, tells]
  | first :: second :: rest =>
    rw [list] at few
    simp at few

/-- Signals are missed if several children come back. -/
theorem not_undone_of_several (managed : Managed d) (up : d.up (request.getID d.myID))
    (returned : List.Forall₂ Returned (reports sender dest request d) answers)
    (several : 2 ≤ (children sender d).length) :
    ¬ Undone sender (children sender d) after (handleReturned answers after) := by
  intro undone
  obtain ⟨closed, final, sent, whole, long⟩ := @reports_eq sender dest request d managed up
  rw [sent] at returned
  obtain ⟨tid, inside, unread⟩ := exists_unread managed whole long several
  have signalled := (undone.orphaned tid inside).signalled
  have same : (handleReturned answers after).kills.count ⟨tid, sender, -1⟩ =
      after.kills.count ⟨tid, sender, -1⟩ := by
    apply handleReturned_kills
    rw [answers_eq returned]
    intro answer member
    obtain ⟨part, inParts, rfl⟩ := mem_map.mp member
    exact ⟨_, _, _, rfl, unread part inParts⟩
  omega

/-- A failing adoption is undone if and only if one child is concerned at
most: the handler takes the flag behind a child for a part of the next one. -/
theorem adoption_undone_iff {answers : List Msg} (managed : Managed d) (senderPid : Half sender.pid)
    (senderNode : Half sender.node) (up : d.up (request.getID d.myID))
    (returned : List.Forall₂ Returned (reports sender dest request d) answers)
    (same : after.myID = d.myID) (alive : ∀ tid ∈ children sender d, (after.tasks tid).isSome) :
    Undone sender (children sender d) after (handleReturned answers after) ↔
      (children sender d).length ≤ 1 := by
  constructor
  · intro undone
    by_contra several
    exact not_undone_of_several managed up returned (by omega) undone
  · intro few
    obtain ⟨closed, final, sent, whole, long⟩ := @reports_eq sender dest request d managed up
    obtain ⟨none_, all⟩ := closed_nil whole long few
    rw [sent, none_, all] at returned
    have single := answers_eq returned
    rw [single]
    exact undone_of_few managed senderPid senderNode same alive few

end Passing

/-! ## A family on one node -/

/-- A process of node 1 spawned by process 100 of node 0. -/
def orphan : Task where
  ptid := ⟨0, 100⟩
  group := .any
  connected := true
  forwarder := none
  noParricide := false
  partition := false
  relativesignal := 15
  released := false
  releaseAnswer := false
  parentReleased := false
  pendingReleaseRes := 0
  pendingReleaseErr := 0
  removeIt := false
  held := false
  childList := []
  releasedBefore := []
  deadBefore := []
  keptChildren := []
  assignedSigs := []
  signalReceiver := []
  answered := 0

def childTid (i : Nat) : TaskId := ⟨1, 10 + i⟩

/-- Node 1 with the first children of process 100 of node 0. -/
def family (count : Nat) : Daemon where
  myID := 1
  up := fun _ => true
  tasks := fun tid =>
    if tid.node = 1 ∧ 10 ≤ tid.pid ∧ tid.pid < 10 + count then some orphan
    else none
  managed := (List.range count).map childTid
  out := []
  clients := []
  kills := []
  slips := []

theorem family_managed {count : Nat} (few : count < 100) : Managed (family count) where
  nodup := by
    refine List.Nodup.map ?_ nodup_range
    intro first second same
    simpa [childTid] using same
  node := by
    intro tid member
    obtain ⟨i, -, rfl⟩ := mem_map.mp member
    rfl
  pid := by
    intro tid member
    obtain ⟨i, inside, rfl⟩ := mem_map.mp member
    have bound := mem_range.mp inside
    dsimp only [childTid]
    omega
  myID := by
    simp [family]
  forwarder := by
    intro tid other forwards_
    simp only [forwards, family] at forwards_
    split at forwards_ <;> simp [orphan] at forwards_

/-- What comes back if the grandparent, process 7 of node 2, is gone. -/
def refusal (count : Nat) : List Msg :=
  [.adoptFailed ⟨2, 7⟩ ⟨1, 0⟩ (reportBuf ⟨0, 100⟩ true ((List.range count).map childTid))]

theorem refusal_returned {count : Nat}
    (sent : reports ⟨0, 100⟩ ⟨1, 0⟩ ⟨2, 7⟩ (family count) =
      [report ⟨0, 100⟩ ⟨1, 0⟩ ⟨2, 7⟩ true ((List.range count).map childTid)]) :
    List.Forall₂ Returned (reports ⟨0, 100⟩ ⟨1, 0⟩ ⟨2, 7⟩ (family count)) (refusal count) := by
  rw [sent]
  exact List.Forall₂.cons (Returned.refused (family 0) (.inl rfl) rfl) List.Forall₂.nil

/-- Two children are passed on and come back; the second one gets no
signal. -/
theorem not_adoption_undone : ∃ answers,
      List.Forall₂ Returned (reports ⟨0, 100⟩ ⟨1, 0⟩ ⟨2, 7⟩ (family 2)) answers ∧
      children ⟨0, 100⟩ (family 2) = [⟨1, 10⟩, ⟨1, 11⟩] ∧
      ¬ Undone ⟨0, 100⟩ (children ⟨0, 100⟩ (family 2))
        (msgNewAncestor keeping ⟨0, 100⟩ ⟨1, 0⟩ ⟨2, 7⟩ (family 2))
        (handleReturned answers (msgNewAncestor keeping ⟨0, 100⟩ ⟨1, 0⟩ ⟨2, 7⟩ (family 2))) := by
  refine ⟨refusal 2, refusal_returned (by decide +kernel), by decide +kernel, ?_⟩
  intro undone
  have signalled := (undone.orphaned ⟨1, 11⟩ (by decide +kernel)).signalled
  exact absurd signalled (by decide +kernel)

theorem adoption_undone_iff_single : children ⟨0, 100⟩ (family 1) = [⟨1, 10⟩] ∧
      Undone ⟨0, 100⟩ (children ⟨0, 100⟩ (family 1))
        (msgNewAncestor keeping ⟨0, 100⟩ ⟨1, 0⟩ ⟨2, 7⟩ (family 1))
        (handleReturned (refusal 1) (msgNewAncestor keeping ⟨0, 100⟩ ⟨1, 0⟩ ⟨2, 7⟩ (family 1))) :=
  ⟨by decide +kernel,
    (adoption_undone_iff (family_managed (by decide)) (by unfold Half; decide)
      (by unfold Half; decide) rfl (refusal_returned (by decide +kernel))
      (by decide +kernel) (by decide +kernel)).mpr (by decide +kernel)⟩

end Psmgmt.Signal
