import Psmgmt.Partition.Reserve
import Psmgmt.Library.Transition
import Psmgmt.Library.Snoc

/-!
# The answers to reservation requests

The messages of a task's run number the requests.  Loggers give the rids
themselves; the requests a step forwarder has queued wait for theirs.
-/

namespace Psmgmt.Partition

open TransitionSystem List Option

/-! ## Requests and answers -/

def Sent.answers (request : Nat) : Sent → Bool
  | .reservationRes answered _ _ => answered = request
  | _ => false

/-- How often the request was answered. -/
def answered (sent : List Sent) (request : Nat) : Nat := sent.countP (Sent.answers request)

/-- No request is granted without a rid. -/
def Sent.HasRid : Sent → Prop
  | .reservationRes _ _ (.granted rid _) => rid ≠ 0
  | _ => True

/-- Every request is answered at most once and every reservation has a rid of
its own; a request without rid is not served. -/
structure AnsweredOnce (task : Task) : Prop where
  once : ∀ request, answered task.sent request ≤ 1
  nonzero : ∀ res ∈ task.reservations, res.rid ≠ 0
  unique : (task.reservations.map Reservation.rid).Nodup
  granted : ∀ msg ∈ task.sent, msg.HasRid

/-! ## Runs -/

inductive Input where
  | getReservation (msg : GetReservation)
  | reservationRes (msg : ReservationRes)
  | childResRel (msg : ChildResRel)
  | extendRes (resID : Int) (slots : List Slot) (sendErr : Bool)
  | getSlots (msg : GetSlots)
  | cleanupRes

/-- The number of the next request and the task. -/
abbrev Numbered : Type := Nat × Task

def receive (env : Env) : Input → Numbered → Option Numbered
  | .getReservation msg, (n, task) =>
    (msgGetReservation env n msg task).map (fun task => (n + 1, task))
  | .reservationRes msg, (n, task) => some (n, msgReservationRes env msg task)
  | .childResRel msg, (n, task) => (msgChildResRel env msg task).map (fun task => (n, task))
  | .extendRes resID slots sendErr, (n, task) =>
    (extendRes env resID slots sendErr task).map (fun task => (n, task))
  | .getSlots msg, (n, task) => some (n, msgGetSlots msg task)
  | .cleanupRes, (n, task) => some (n, cleanupRes task)

def InUse (task : Task) (rid : Int) : Prop :=
  rid ∈ task.resRequests.map Reservation.rid ∨ rid ∈ task.reservations.map Reservation.rid

/-- The rids given out are new, and no request waits for its rid where another
cannot be sent to the logger or where resources are released. -/
def InOrder (task : Task) : Input → Prop
  | .getReservation msg =>
    (task.tid = task.loggertid → (getNextResID task).1 ≠ 0 ∧ ¬ InUse task (getNextResID task).1) ∧
    (task.tid ≠ task.loggertid → msg.sendErr ≠ none → ∀ res ∈ task.resRequests, res.rid ≠ 0)
  | .reservationRes msg => msg.rid ≠ 0 → ¬ InUse task msg.rid
  | .childResRel msg =>
    task.pool.totalThreads ≠ 0 → placeholderOf task msg.rid = none →
      ∀ res ∈ task.resRequests, res.rid ≠ 0
  | _ => True

/-- A task without requests. -/
structure Fresh (state : Numbered) : Prop where
  resRequests : state.2.resRequests = []
  reservations : state.2.reservations = []
  sent : state.2.sent = []

def requestRuns : TransitionSystem Numbered where
  initial := Fresh
  step before after := ∃ env input, receive env input before = some after

/-- The runs in which all messages meet the condition. -/
def requestSystem : TransitionSystem Numbered where
  initial := Fresh
  step before after := ∃ env input, InOrder before.2 input ∧ receive env input before = some after

/-! ## Bookkeeping -/

@[simp] theorem answered_append (left right : List Sent) (request : Nat) :
    answered (left ++ right) request = answered left request + answered right request :=
  countP_append

structure Books (n : Nat) (waiting : List Nat) (sent : List Sent) : Prop where
  numbered : ∀ request ∈ waiting, request < n
  pending : ∀ request ∈ waiting, answered sent request = 0
  distinct : waiting.Nodup
  once : ∀ request, answered sent request ≤ 1
  unasked : ∀ request, n ≤ request → answered sent request = 0

def Answer1 (request : Nat) (msgs : List Sent) : Prop :=
  ∀ other, answered msgs other = if other = request then 1 else 0

def Quiet (msgs : List Sent) : Prop := ∀ request, answered msgs request = 0

variable {n : Nat} {waiting : List Nat} {sent msgs : List Sent}
  {res later : Reservation} {task task' : Task} {env : Env}
  {queue : List Reservation}

theorem Books.ask (books : Books n waiting sent) : Books (n + 1) (waiting ++ [n]) sent where
  numbered request member := by
    rcases mem_append.mp member with earlier | last
    · exact Nat.lt_succ_of_lt (books.numbered request earlier)
    · rw [mem_singleton.mp last]
      exact Nat.lt_succ_self n
  pending request member := by
    rcases mem_append.mp member with earlier | last
    · exact books.pending request earlier
    · rw [mem_singleton.mp last]
      exact books.unasked n (le_refl n)
  distinct := by
    exact Snoc.nodup books.distinct (fun inside => Nat.lt_irrefl n (books.numbered n inside))
  once := books.once
  unasked request bound := books.unasked request (by omega)

theorem Books.skip (books : Books n waiting sent) : Books (n + 1) waiting sent where
  numbered request member := Nat.lt_succ_of_lt (books.numbered request member)
  pending := books.pending
  distinct := books.distinct
  once := books.once
  unasked request bound := books.unasked request (by omega)

theorem Books.quiet (books : Books n waiting sent) (quiet : Quiet msgs) :
    Books n waiting (sent ++ msgs) where
  numbered := books.numbered
  pending request member := by
    rw [answered_append, quiet, books.pending request member]
  distinct := books.distinct
  once request := by
    rw [answered_append, quiet]
    exact books.once request
  unasked request bound := by
    rw [answered_append, quiet, books.unasked request bound]

theorem Books.answer {n request : Nat} {waiting : List Nat} {sent msgs : List Sent}
    (books : Books n waiting sent) (waits : request ∈ waiting) (answer : Answer1 request msgs) :
    Books n (waiting.filter (· ≠ request)) (sent ++ msgs) where
  numbered other member := books.numbered other (mem_filter.mp member).1
  pending other member := by
    have different : other ≠ request := by
      simpa using (mem_filter.mp member).2
    rw [answered_append, answer, if_neg different, books.pending other (mem_filter.mp member).1]
  distinct := books.distinct.filter _
  once other := by
    rw [answered_append, answer]
    by_cases same : other = request
    · rw [if_pos same, same, books.pending request waits]
    · rw [if_neg same]
      exact books.once other
  unasked other bound := by
    have different : other ≠ request := by
      have numbered := books.numbered request waits
      omega
    rw [answered_append, answer, if_neg different, books.unasked other bound]

theorem Books.answerNew (books : Books n waiting sent) (answer : Answer1 n msgs) :
    Books (n + 1) waiting (sent ++ msgs) := by
  have answered := books.ask.answer (mem_append_right _ (mem_singleton_self n)) answer
  have same : (waiting ++ [n]).filter (· ≠ n) = waiting := by
    rw [filter_append, filter_eq_self.mpr]
    · simp
    · intro request member
      have bound := books.numbered request member
      simp only [ne_eq, decide_not, Bool.not_eq_true', decide_eq_false_iff_not]
      omega
  rw [same] at answered
  exact answered

theorem answer1_refused (request : Nat) (dest : TaskId) (answer : Answer) :
    Answer1 request [.reservationRes request dest answer] := by
  intro other
  by_cases same : other = request
  · simp [answered, Sent.answers, same]
  · simp [answered, Sent.answers, same, Ne.symm same]

theorem answer1_granted (res : Reservation) (request : Nat) (dest : TaskId)
    (answer : Answer) :
    Answer1 request [.resCreated res, .reservationRes request dest answer] := by
  intro other
  have one := answer1_refused request dest answer other
  simpa [answered, Sent.answers] using one

/-! ## Identifiers -/

structure Ids (task : Task) : Prop where
  logger : task.tid = task.loggertid →
    (task.resRequests.map Reservation.rid ++ task.reservations.map Reservation.rid).Nodup ∧
    ∀ res ∈ task.resRequests, res.rid ≠ 0
  forwarder : task.tid ≠ task.loggertid → ∀ res ∈ task.resRequests, res.rid = 0 ∧ res.slots = none
  nonzero : ∀ res ∈ task.reservations, res.rid ≠ 0
  unique : (task.reservations.map Reservation.rid).Nodup
  granted : ∀ msg ∈ task.sent, msg.HasRid

/-- The same request, perhaps with other data. -/
structure SameRequest (left right : Reservation) : Prop where
  request : left.request = right.request
  rid : left.rid = right.rid

/-- What handling a request does to the queues and the messages. -/
inductive Outcome (res : Reservation) (before after : Task) : Prop where
  | unchanged (queue : after.resRequests = before.resRequests)
      (held : after.reservations = before.reservations) (sent : after.sent = before.sent)
  | stored (later : Reservation) (same : SameRequest later res)
      (queue : after.resRequests = storeRes before.resRequests later)
      (held : after.reservations = before.reservations) (sent : after.sent = before.sent)
  | refused (later : Reservation) (eno : Errno) (same : SameRequest later res)
      (queue : after.resRequests = deqRes before.resRequests later)
      (held : after.reservations = before.reservations)
      (sent : after.sent = before.sent ++
        [.reservationRes later.request later.requester (.refused eno)])
  | granted (later made : Reservation) (same : SameRequest later res)
      (made_ : SameRequest made res)
      (queue : after.resRequests = deqRes before.resRequests later)
      (held : after.reservations = before.reservations ++ [made])
      (sent : after.sent = before.sent ++
        [.resCreated made, .reservationRes made.request made.requester
          (.granted made.rid made.nSlots)])

structure Served (res : Reservation) (before after : Task) : Prop where
  tid : after.tid = before.tid
  loggertid : after.loggertid = before.loggertid
  outcome : Outcome res before after

theorem rankRes_keeps (task : Task) (res : Reservation) : SameRequest (rankRes task res).1 res ∧
      ∃ spawner, (rankRes task res).2 = { task with firstSpawner := spawner } := by
  unfold rankRes
  split
  · exact ⟨⟨rfl, rfl⟩, res.requester, rfl⟩
  · split
    · exact ⟨⟨rfl, rfl⟩, task.firstSpawner, rfl⟩
    · exact ⟨⟨rfl, rfl⟩, task.firstSpawner, rfl⟩

theorem grant_served (task : Task) (got : Int) (same : SameRequest later res) :
    Served res task (grant (dequeue task later) later got) := by
  rcases rankRes_keeps (dequeue task later) later with ⟨made, spawner, ranked⟩
  unfold grant
  simp only [ranked]
  exact ⟨rfl, rfl, .granted later (rankRes (dequeue task later) later).1 same
    ⟨made.request.trans same.request, made.rid.trans same.rid⟩ rfl rfl rfl⟩

theorem refuse_served (task : Task) (eno : Errno) (same : SameRequest later res) :
    Served res task (refuse (dequeue task later) later eno) :=
  ⟨rfl, rfl, .refused later eno same rfl rfl rfl⟩

theorem storeRequest_served (task : Task) (same : SameRequest later res) :
    Served res task (storeRequest task later) :=
  ⟨rfl, rfl, .stored later same rfl rfl rfl⟩

/-- The counter of ranks and the HW-threads do not matter here. -/
theorem Served.of_pool {after : Task} {pool : ThreadPool} {numChild : Int}
    (served : Served res { task with pool := pool, numChild := numChild } after) :
    Served res task after := by
  refine ⟨served.tid, served.loggertid, ?_⟩
  cases served.outcome with
  | unchanged queue held sent => exact .unchanged queue held sent
  | stored later same queue held sent => exact .stored later same queue held sent
  | refused later eno same queue held sent => exact .refused later eno same queue held sent
  | granted later made same made_ queue held sent =>
    exact .granted later made same made_ queue held sent

theorem handlePart_served (env : Env) (got : Int) (task : Task)
    (same : SameRequest later res) :
    Served res task (handlePart env got later task).2 := by
  have noSlots : SameRequest (if got < 0 then { later with nSlots := 0 } else later) res := by
    split
    · exact ⟨same.request, same.rid⟩
    · exact same
  simp only [handlePart]
  generalize (if got < 0 then { later with nSlots := 0 } else later) = later' at noSlots ⊢
  split
  · have sent : SameRequest { later' with dynSent := true } res :=
      ⟨noSlots.request, noSlots.rid⟩
    exact (storeRequest_served _ sent).of_pool
  · split
    · split
      · exact (refuse_served _ .enospc noSlots).of_pool
      · exact (refuse_served _ .enospc noSlots).of_pool
    · exact (grant_served _ got noSlots).of_pool

theorem handleGot_served (env : Env) (got : Int) (task : Task)
    (same : SameRequest later res) :
    Served res task (handleGot env got later task).2 := by
  have same' : SameRequest { later with nSlots := uint32 got } res := ⟨same.request, same.rid⟩
  simp only [handleGot]
  split
  · exact handlePart_served env got task same'
  · split
    · split
      · exact storeRequest_served task same'
      · exact refuse_served task .ebusy same'
    · split
      · exact refuse_served task .enospc same'
      · exact grant_served task got same'

theorem handleSingle_served {next : Bool}
    (handled : handleSingleResRequest env res task = some (next, task')) :
    Served res task task' := by
  have same : SameRequest (prepare task res) res := ⟨rfl, rfl⟩
  unfold handleSingleResRequest at handled
  split at handled
  · cases handled
    exact ⟨rfl, rfl, .unchanged rfl rfl rfl⟩
  · simp only at handled
    split at handled
    · cases handled
      refine grant_served task _ ?_
      exact ⟨same.request, same.rid⟩
    · cases handled
      exact refuse_served task .ecanceled same
    · rcases map_eq_some_iff.mp handled with
        ⟨⟨got, res', task₁⟩, result, equality⟩
      have looked := getReservation_looked result
      rcases looked.res with ⟨slots, checked, rfl⟩
      rcases looked.task with ⟨pool, rfl⟩
      have found : SameRequest { prepare task res with slots := slots, checked := checked } res :=
        ⟨rfl, rfl⟩
      have served := handleGot_served env got { task with pool := pool } found
      rw [equality] at served
      exact served.of_pool

/-! ## What a request leaves behind -/

/-- The bookkeeping of a task that has received `n` requests. -/
structure Kept (n : Nat) (task : Task) : Prop where
  books : Books n (task.resRequests.map Reservation.request) task.sent
  ids : Ids task

theorem map_request_removeRes (queue : List Reservation) (request : Nat) :
    (removeRes queue request).map Reservation.request =
      (queue.map Reservation.request).filter (· ≠ request) := by
  rw [removeRes, List.filter_map]
  rfl

theorem removeRes_sublist (queue : List Reservation) (request : Nat) :
    (removeRes queue request).Sublist queue :=
  filter_sublist

/-- Among distinct rids the reservation given is the one found. -/
theorem deqRes_of_unique (unique : (queue.map Reservation.rid).Nodup)
    (member : res ∈ queue) (same : SameRequest later res) :
    deqRes queue later = removeRes queue res.request := by
  unfold deqRes
  cases found : findRes queue later.rid with
  | none =>
    have absent := find?_eq_none.mp found res member
    simp [same.rid] at absent
  | some other =>
    have rid : other.rid = later.rid := by
      simpa using find?_some found
    have equality : other = res :=
      inj_on_of_nodup_map unique (mem_of_find?_eq_some found) member (rid.trans same.rid)
    rw [equality]
    simp only [same.request, if_true]

theorem keys_storeRes (queue : List Reservation) (later : Reservation) :
    (storeRes queue later).map Reservation.request = queue.map Reservation.request ∧
      (storeRes queue later).map Reservation.rid = queue.map Reservation.rid := by
  induction queue with
  | nil => exact ⟨rfl, rfl⟩
  | cons r rest induction =>
    unfold storeRes
    split
    case isTrue same =>
      rw [map_cons, map_cons, map_cons, map_cons, same.1, same.2]
      exact ⟨rfl, rfl⟩
    case isFalse =>
      rw [map_cons, map_cons, map_cons, map_cons,
        induction.1, induction.2]
      exact ⟨rfl, rfl⟩

theorem mem_storeRes_of_other {other : Reservation} (member : other ∈ queue)
    (different : other.request ≠ later.request) :
    other ∈ storeRes queue later := by
  induction queue with
  | nil => cases member
  | cons r rest induction =>
    unfold storeRes
    split
    case isTrue same =>
      rcases mem_cons.mp member with first | inside
      · exact absurd (first ▸ same.1) different
      · exact mem_cons_of_mem _ inside
    case isFalse =>
      rcases mem_cons.mp member with first | inside
      · exact first ▸ mem_cons_self
      · exact mem_cons_of_mem _ (induction inside)

theorem rid_removeRes (unique : (queue.map Reservation.rid).Nodup)
    (member : res ∈ queue) :
    res.rid ∉ (removeRes queue res.request).map Reservation.rid := by
  intro inside
  rcases mem_map.mp inside with ⟨other, left, rid⟩
  have kept := mem_filter.mp left
  have equality : other = res := inj_on_of_nodup_map unique kept.1 member rid
  rw [equality] at kept
  simp at kept

theorem Ids.remove (ids : Ids task) (logger : task.tid = task.loggertid)
    (tid : task'.tid = task.tid) (loggertid : task'.loggertid = task.loggertid)
    (queue : task'.resRequests.Sublist task.resRequests)
    (held : task'.reservations.Sublist task.reservations)
    (granted : ∀ msg ∈ task'.sent, msg.HasRid) : Ids task' where
  logger _ := by
    have before := ids.logger logger
    have sublist := (queue.map Reservation.rid).append (held.map Reservation.rid)
    exact ⟨before.1.sublist sublist,
      fun res member => before.2 res (queue.subset member)⟩
  forwarder other := by
    rw [tid, loggertid] at other
    exact absurd logger other
  nonzero res member := ids.nonzero res (held.subset member)
  unique := ids.unique.sublist (held.map Reservation.rid)
  granted := granted

theorem Ids.grant {made : Reservation} (ids : Ids task) (logger : task.tid = task.loggertid)
    (tid : task'.tid = task.tid) (loggertid : task'.loggertid = task.loggertid)
    (member : res ∈ task.resRequests) (same : made.rid = res.rid)
    (queue : task'.resRequests = removeRes task.resRequests res.request)
    (held : task'.reservations = task.reservations ++ [made])
    (granted : ∀ msg ∈ task'.sent, msg.HasRid) : Ids task' := by
  have before := ids.logger logger
  have parts := nodup_append.mp before.1
  have fresh : made.rid ∉ task.reservations.map Reservation.rid := by
    rw [same]
    intro inside
    exact parts.2.2 res.rid (mem_map_of_mem member) res.rid inside rfl
  have unique : (task'.reservations.map Reservation.rid).Nodup := by
    rw [held, map_append, map_cons, map_nil]
    refine nodup_append.mpr ⟨ids.unique, nodup_singleton _, ?_⟩
    intro rid inside last equality
    rw [mem_singleton.mp equality]
    intro clash
    exact fresh (clash ▸ inside)
  have sublist := removeRes_sublist task.resRequests res.request
  refine ⟨?_, ?_, ?_, unique, granted⟩
  · intro _
    refine ⟨nodup_append.mpr ⟨?_, unique, ?_⟩, ?_⟩
    · rw [queue]
      exact parts.1.sublist (sublist.map Reservation.rid)
    · rw [queue, held, map_append]
      intro left waiting right inside equality
      rw [equality] at waiting
      rcases mem_append.mp inside with earlier | last
      · exact parts.2.2 right ((sublist.map Reservation.rid).subset waiting)
          right earlier rfl
      · rw [map_cons, map_nil] at last
        rw [mem_singleton.mp last, same] at waiting
        exact rid_removeRes parts.1 member waiting
    · rw [queue]
      exact fun other inside => before.2 other (sublist.subset inside)
  · intro other
    rw [tid, loggertid] at other
    exact absurd logger other
  · rw [held]
    intro other inside
    rcases mem_append.mp inside with earlier | last
    · exact ids.nonzero other earlier
    · rw [mem_singleton.mp last, same]
      exact before.2 res member

theorem hasRid_append (before : ∀ msg ∈ sent, msg.HasRid)
    (new : ∀ msg ∈ msgs, msg.HasRid) : ∀ msg ∈ sent ++ msgs, msg.HasRid := by
  intro msg member
  rcases mem_append.mp member with earlier | last
  · exact before msg earlier
  · exact new msg last

theorem Kept.served (kept : Kept n task) (logger : task.tid = task.loggertid)
    (member : res ∈ task.resRequests) (served : Served res task task') :
    Kept n task' ∧ ∀ other ∈ task.resRequests, other.request ≠ res.request →
      other ∈ task'.resRequests := by
  have before := kept.ids.logger logger
  have unique := (nodup_append.mp before.1).1
  have waits : res.request ∈ task.resRequests.map Reservation.request := mem_map_of_mem member
  cases served.outcome with
  | unchanged queue held sent =>
    refine ⟨⟨?_, ?_⟩, ?_⟩
    · rw [queue, sent]
      exact kept.books
    · refine kept.ids.remove logger served.tid served.loggertid ?_ ?_ ?_
      · rw [queue]
      · rw [held]
      · rw [sent]
        exact kept.ids.granted
    · rw [queue]
      exact fun other inside _ => inside
  | stored later same queue held sent =>
    have keys := keys_storeRes task.resRequests later
    refine ⟨⟨?_, ?_, ?_, ?_, ?_, ?_⟩, ?_⟩
    · rw [queue, sent, keys.1]
      exact kept.books
    · intro _
      rw [queue, held, keys.2]
      refine ⟨before.1, ?_⟩
      intro other inside
      rcases mem_storeRes inside with queued | rfl
      · exact before.2 other queued
      · rw [same.rid]
        exact before.2 res member
    · intro other
      rw [served.tid, served.loggertid] at other
      exact absurd logger other
    · rw [held]
      exact kept.ids.nonzero
    · rw [held]
      exact kept.ids.unique
    · rw [sent]
      exact kept.ids.granted
    · intro other inside different
      rw [queue]
      refine mem_storeRes_of_other inside ?_
      rw [same.request]
      exact different
  | refused later eno same queue held sent =>
    rw [deqRes_of_unique unique member same] at queue
    refine ⟨⟨?_, ?_⟩, ?_⟩
    · rw [queue, sent, map_request_removeRes]
      refine kept.books.answer waits ?_
      rw [← same.request]
      exact answer1_refused _ _ _
    · refine kept.ids.remove logger served.tid served.loggertid ?_ ?_ ?_
      · rw [queue]
        exact removeRes_sublist _ _
      · rw [held]
      · rw [sent]
        refine hasRid_append kept.ids.granted ?_
        intro msg inside
        rw [mem_singleton.mp inside]
        trivial
    · intro other inside different
      rw [queue]
      exact mem_filter.mpr ⟨inside, by simpa using different⟩
  | granted later made same made_ queue held sent =>
    rw [deqRes_of_unique unique member same] at queue
    refine ⟨⟨?_, ?_⟩, ?_⟩
    · rw [queue, sent, map_request_removeRes]
      refine kept.books.answer waits ?_
      rw [← made_.request]
      exact answer1_granted _ _ _ _
    · refine kept.ids.grant logger served.tid served.loggertid member made_.rid queue held ?_
      rw [sent]
      refine hasRid_append kept.ids.granted ?_
      intro msg inside
      rcases mem_cons.mp inside with first | second
      · rw [first]
        trivial
      · rw [mem_singleton.mp second]
        change made.rid ≠ 0
        rw [made_.rid]
        exact before.2 res member
    · intro other inside different
      rw [queue]
      exact mem_filter.mpr ⟨inside, by simpa using different⟩

theorem Kept.handleLoop :
    ∀ {queue : List Reservation} {task task' : Task}, Kept n task → task.tid = task.loggertid →
      (∀ res ∈ queue, res ∈ task.resRequests) → (queue.map Reservation.request).Nodup →
      Partition.handleLoop env queue task = some task' → Kept n task' := by
  intro queue
  induction queue with
  | nil =>
    intro task task' kept _ _ _ handled
    cases handled
    exact kept
  | cons res rest induction =>
    intro task task' kept logger queued distinct handled
    rcases bind_eq_some_iff.mp handled with
      ⟨⟨next, task₁⟩, single, handled⟩
    have served := handleSingle_served single
    have step := kept.served logger (queued res mem_cons_self) served
    cases next with
    | false =>
      cases handled
      exact step.1
    | true =>
      rw [map_cons, nodup_cons] at distinct
      refine induction step.1 ?_ ?_ distinct.2 handled
      · rw [served.tid, served.loggertid]
        exact logger
      · intro other member
        refine step.2 other (queued other (mem_cons_of_mem _ member)) ?_
        intro equality
        exact distinct.1 (equality ▸ mem_map_of_mem member)

/-! ## The messages -/

theorem Quiet.nil : Quiet [] := fun _ => rfl

section

variable (kept : Kept n task)

include kept

theorem Kept.quiet (tid : task'.tid = task.tid)
    (loggertid : task'.loggertid = task.loggertid)
    (queue : task'.resRequests = task.resRequests)
    (held : (task'.reservations.map Reservation.rid).Sublist
      (task.reservations.map Reservation.rid))
    (sent : task'.sent = task.sent ++ msgs) (quiet : Quiet msgs)
    (hasRid : ∀ msg ∈ msgs, msg.HasRid) : Kept n task' where
  books := by
    rw [queue, sent]
    exact kept.books.quiet quiet
  ids := by
    refine ⟨?_, ?_, ?_, kept.ids.unique.sublist held, ?_⟩
    · rw [tid, loggertid, queue]
      intro logger
      have before := kept.ids.logger logger
      exact ⟨before.1.sublist ((List.Sublist.refl _).append held), before.2⟩
    · rw [tid, loggertid, queue]
      exact kept.ids.forwarder
    · intro res member
      have inside := held.subset (mem_map_of_mem member)
      rcases mem_map.mp inside with ⟨old, earlier, rid⟩
      rw [← rid]
      exact kept.ids.nonzero old earlier
    · rw [sent]
      exact hasRid_append kept.ids.granted hasRid

theorem Kept.skip : Kept (n + 1) task := ⟨kept.books.skip, kept.ids⟩

/-- A message that does not answer a request. -/
theorem Kept.send {msg : Sent} (quiet : Quiet [msg]) (hasRid : msg.HasRid) :
    Kept n (task.send msg) := by
  refine kept.quiet rfl rfl rfl (List.Sublist.refl _) rfl quiet ?_
  intro other member
  rw [mem_singleton.mp member]
  exact hasRid

theorem Kept.refuseNew (new : res.request = n) (eno : Errno) :
    Kept (n + 1) (refuse task res eno) where
  books := by
    refine kept.books.answerNew ?_
    rw [← new]
    exact answer1_refused _ _ _
  ids := by
    refine ⟨kept.ids.logger, kept.ids.forwarder, kept.ids.nonzero, kept.ids.unique, ?_⟩
    refine hasRid_append kept.ids.granted ?_
    intro msg member
    rw [mem_singleton.mp member]
    trivial

theorem Kept.enqueueNew (logger : task.tid = task.loggertid) (new : res.request = n)
    (nonzero : res.rid ≠ 0) (unused : ¬ InUse task res.rid) :
    Kept (n + 1) { task with resRequests := enqRes task.resRequests res } where
  books := by
    have books := kept.books.ask
    rw [← new] at books ⊢
    simpa [enqRes] using books
  ids := by
    have before := kept.ids.logger logger
    have parts := nodup_append.mp before.1
    refine ⟨?_, fun other => absurd logger other, kept.ids.nonzero,
      kept.ids.unique, kept.ids.granted⟩
    intro _
    constructor
    · refine nodup_append.mpr ⟨?_, parts.2.1, ?_⟩
      · rw [enqRes, map_append]
        refine nodup_append.mpr ⟨parts.1, nodup_singleton _, ?_⟩
        intro rid inside last equality clash
        rw [mem_singleton.mp equality] at clash
        exact unused (.inl (clash ▸ inside))
      · rw [enqRes, map_append]
        intro left inside right held equality
        rcases mem_append.mp inside with earlier | last
        · exact parts.2.2 left earlier right held equality
        · rw [map_cons, map_nil] at last
          rw [← equality, mem_singleton.mp last] at held
          exact unused (.inr held)
    · exact Snoc.forall_mem before.2 nonzero

theorem Kept.requestDummy (forwarder : task.tid ≠ task.loggertid) (new : res.request = n)
    (rid : res.rid = 0) (slots : res.slots = none) {sendErr : Option Errno}
    (alone : sendErr ≠ none → ∀ other ∈ task.resRequests, other.rid ≠ 0) :
    Kept (n + 1) (Partition.requestDummy task res sendErr) := by
  have before := kept.ids.forwarder forwarder
  cases sendErr with
  | none =>
    refine Kept.send ?_ (fun _ => rfl) trivial
    constructor
    · have books := kept.books.ask
      rw [← new] at books ⊢
      simpa [enqRes] using books
    · refine ⟨fun logger => absurd logger forwarder, ?_, kept.ids.nonzero,
        kept.ids.unique, kept.ids.granted⟩
      intro _ other inside
      rcases mem_append.mp inside with earlier | last
      · exact before other earlier
      · rw [mem_singleton.mp last]
        exact ⟨rid, slots⟩
  | some eno =>
    -- nobody else waits, so it is this request that leaves the queue
    have empty : task.resRequests = [] := by
      refine eq_nil_iff_forall_not_mem.mpr ?_
      intro other member
      exact alone (by simp) other member (before other member).1
    have dropped : deqRes (enqRes task.resRequests
        { res with options := { res.options with dummy := true } })
        { res with options := { res.options with dummy := true } } = task.resRequests := by
      simp [empty, enqRes, deqRes, findRes, removeRes]
    have refused : Kept (n + 1) (refuse task
        { res with options := { res.options with dummy := true } } eno) :=
      kept.refuseNew new eno
    simp only [Partition.requestDummy, dequeue, dropped]
    exact refused

/-- The logger keeps a placeholder for a new request. -/
theorem Kept.giveDummy (logger : task.tid = task.loggertid)
    (nonzero : res.rid ≠ 0) (unused : ¬ InUse task res.rid) :
    Kept (n + 1) (Partition.giveDummy task res) := by
  unfold Partition.giveDummy
  split
  · refine (kept.send (fun _ => rfl) ?_).skip
    trivial
  · have before := kept.ids.logger logger
    have parts := nodup_append.mp before.1
    have quiet : Quiet [.placeholder { res with firstRank := uint32 task.numChild }] := fun _ => rfl
    have unique : ((enqRes task.reservations
        { res with firstRank := uint32 task.numChild }).map Reservation.rid).Nodup := by
      rw [enqRes, map_append]
      refine nodup_append.mpr ⟨kept.ids.unique, nodup_singleton _, ?_⟩
      intro rid inside last equality clash
      rw [mem_singleton.mp equality] at clash
      exact unused (.inr (clash ▸ inside))
    refine Kept.skip ⟨kept.books.quiet quiet, ?_⟩
    refine ⟨?_, fun other => absurd logger other, ?_, unique, ?_⟩
    · intro _
      refine ⟨nodup_append.mpr ⟨parts.1, unique, ?_⟩, before.2⟩
      intro left waiting right inside equality
      simp only [enqRes, map_append] at inside
      rcases mem_append.mp inside with earlier | last
      · exact parts.2.2 left waiting right earlier equality
      · rw [map_cons, map_nil] at last
        rw [equality, mem_singleton.mp last] at waiting
        exact unused (.inl waiting)
    · exact Snoc.forall_mem kept.ids.nonzero nonzero
    · refine hasRid_append kept.ids.granted ?_
      intro msg member
      rw [mem_singleton.mp member]
      trivial

theorem Kept.serveRequest (logger : task.tid = task.loggertid) (res : Reservation)
    (new : res.request = n) (nonzero : res.rid ≠ 0) (unused : ¬ InUse task res.rid)
    (handled : Partition.serveRequest env task res = some task') :
    Kept (n + 1) task' := by
  have queued := kept.enqueueNew logger new nonzero unused
  unfold Partition.serveRequest at handled
  split at handled
  · split at handled
    · cases handled
      exact queued
    · cases handled
      exact kept.refuseNew new _
  · split at handled
    · rcases map_eq_some_iff.mp handled with ⟨⟨next, after⟩, single, rfl⟩
      have member : res ∈ enqRes task.resRequests res := mem_append_right _ (mem_singleton_self _)
      exact (queued.served logger member (handleSingle_served single)).1
    · cases handled
      exact kept.refuseNew new _

end

theorem Kept.getReservation {msg : GetReservation} (kept : Kept n task)
    (order : InOrder task (.getReservation msg))
    (handled : msgGetReservation env n msg task = some task') :
    Kept (n + 1) task' := by
  unfold msgGetReservation at handled
  split at handled
  · split at handled
    · cases handled
      refine (kept.send (fun _ => rfl) ?_).skip
      trivial
    · cases handled
      exact kept.refuseNew rfl _
  · split at handled
    · cases handled
      exact kept.refuseNew rfl _
    · split at handled
      · cases handled
        exact kept.refuseNew rfl _
      · split at handled
        case isTrue forwarder =>
          split at handled
          · cases handled
            exact kept.refuseNew rfl _
          · cases handled
            exact kept.requestDummy forwarder rfl rfl rfl (order.2 forwarder)
        case isFalse logger =>
          have logger := not_not.mp logger
          have rid := order.1 logger
          have taken : Kept n (takeUp task n msg).2 := by
            refine kept.quiet rfl rfl rfl (List.Sublist.refl _) (append_nil _).symm Quiet.nil ?_
            exact fun msg member => nomatch member
          simp only at handled
          split at handled
          · cases handled
            exact taken.giveDummy logger rid.1 rid.2
          · exact taken.serveRequest logger (takeUp task n msg).1 rfl rid.1 rid.2 handled

/-- The first request of the queue leaves it. -/
theorem deqRes_head (res : Reservation) (rest : List Reservation) :
    deqRes (res :: rest) res = removeRes (res :: rest) res.request := by
  simp [deqRes, findRes]

theorem Kept.answerRefused (eno : Errno) (kept : Kept n task)
    (member : res ∈ task.resRequests) (same : later.request = res.request)
    (tid : task'.tid = task.tid) (loggertid : task'.loggertid = task.loggertid)
    (queue : task'.resRequests = removeRes task.resRequests res.request)
    (held : task'.reservations = task.reservations)
    (sent : task'.sent = task.sent ++
      [.reservationRes later.request later.requester (.refused eno)]) :
    Kept n task' where
  books := by
    rw [queue, sent, map_request_removeRes]
    refine kept.books.answer (mem_map_of_mem member) ?_
    rw [← same]
    exact answer1_refused _ _ _
  ids := by
    have sublist := removeRes_sublist task.resRequests res.request
    refine ⟨?_, ?_, held ▸ kept.ids.nonzero, held ▸ kept.ids.unique, ?_⟩
    · rw [tid, loggertid, queue, held]
      intro logger
      have before := kept.ids.logger logger
      exact ⟨before.1.sublist
        ((sublist.map Reservation.rid).append (List.Sublist.refl _)),
        fun other inside => before.2 other (sublist.subset inside)⟩
    · rw [tid, loggertid, queue]
      exact fun forwarder other inside => kept.ids.forwarder forwarder other (sublist.subset inside)
    · rw [sent]
      refine hasRid_append kept.ids.granted ?_
      intro msg inside
      rw [mem_singleton.mp inside]
      trivial

theorem Kept.answerGranted {got : Int} (kept : Kept n task) (forwarder : task.tid ≠ task.loggertid)
    (member : res ∈ task.resRequests) (same : later.request = res.request) (nonzero : later.rid ≠ 0)
    (unused : ¬ InUse task later.rid) :
    Kept n (announce
      { task with resRequests := removeRes task.resRequests res.request }
      later got) where
  books := by
    simp only [announce, map_request_removeRes]
    refine kept.books.answer (mem_map_of_mem member) ?_
    rw [← same]
    exact answer1_granted _ _ _ _
  ids := by
    have sublist := removeRes_sublist task.resRequests res.request
    refine ⟨fun logger => absurd logger forwarder, ?_, ?_, ?_, ?_⟩
    · exact fun _ other inside => kept.ids.forwarder forwarder other (sublist.subset inside)
    · exact Snoc.forall_mem kept.ids.nonzero nonzero
    · simp only [announce, enqRes, map_append]
      refine nodup_append.mpr ⟨kept.ids.unique, nodup_singleton _, ?_⟩
      intro rid inside last equality clash
      rw [mem_singleton.mp equality] at clash
      exact unused (.inr (clash ▸ inside))
    · refine hasRid_append kept.ids.granted ?_
      intro msg inside
      rcases mem_cons.mp inside with first | second
      · rw [first]
        trivial
      · rw [mem_singleton.mp second]
        exact nonzero

theorem Kept.reservationRes {msg : ReservationRes} (kept : Kept n task)
    (order : InOrder task (.reservationRes msg)) :
    Kept n (msgReservationRes env msg task) := by
  unfold msgReservationRes
  split
  · exact kept
  · split
    · exact kept
    case h_2 res rest queue =>
      split
      · exact kept
      case isFalse waits =>
        have rid : res.rid = 0 := by
          by_contra other
          exact waits (.inl other)
        have member : res ∈ task.resRequests := queue ▸ mem_cons_self
        have forwarder : task.tid ≠ task.loggertid :=
          fun logger => (kept.ids.logger logger).2 res member rid
        have removed : dequeue task res =
            { task with resRequests := removeRes task.resRequests res.request } := by
          unfold dequeue
          rw [queue, deqRes_head]
        have refused : ∀ (later : Reservation) eno,
            later.request = res.request → Kept n (refuse (dequeue task res) later eno) := by
          intro later eno same
          exact kept.answerRefused eno member same rfl rfl (by rw [removed]; rfl) rfl rfl
        simp only
        split
        · exact refused res _ rfl
        case isFalse given =>
          unfold buildDummy
          split
          · exact refused _ _ rfl
          · split
            · exact refused _ _ rfl
            · simp only
              split
              · exact refused _ _ rfl
              · split
                · rw [removed]
                  exact kept.answerGranted forwarder member rfl given (order given)
                · exact refused _ _ rfl

theorem Kept.countReleased (kept : Kept n task) (res : Reservation)
    (numSlots : Nat) : Kept n (Partition.countReleased task res numSlots) := by
  simp only [Partition.countReleased]
  split
  · refine kept.quiet rfl rfl rfl ?_ rfl (fun _ => rfl) ?_
    · refine List.Sublist.map _ ?_
      unfold deqRes
      split
      · exact List.Sublist.refl _
      · split
        · exact removeRes_sublist _ _
        · exact List.Sublist.refl _
    · intro msg member
      rw [mem_singleton.mp member]
      trivial
  · refine kept.quiet rfl rfl rfl ?_ (append_nil _).symm Quiet.nil
      (fun msg member => nomatch member)
    simp only [(keys_storeRes task.reservations _).2]
    exact List.Sublist.refl _

theorem Kept.takeBack (kept : Kept n task) (msg : ChildResRel) :
    Kept n (Partition.takeBack task msg) := by
  have counted : Kept n (countMsg task msg) := by
    unfold countMsg
    split
    · exact kept.countReleased _ _
    · exact kept
  unfold Partition.takeBack
  rcases releaseCPUSets_keeps msg.node msg.cpuSets (countMsg task msg) with
    ⟨pool, after⟩
  simp only
  rw [after]
  exact ⟨counted.books, counted.ids.logger, counted.ids.forwarder,
    counted.ids.nonzero, counted.ids.unique, counted.ids.granted⟩

theorem takeBack_same (task : Task) (msg : ChildResRel) :
    (takeBack task msg).tid = task.tid ∧ (takeBack task msg).loggertid = task.loggertid ∧
      (takeBack task msg).resRequests = task.resRequests := by
  have counted : (countMsg task msg).tid = task.tid ∧ (countMsg task msg).loggertid = task.loggertid
      ∧ (countMsg task msg).resRequests = task.resRequests := by
    unfold countMsg
    split
    · simp only [countReleased]
      split <;> exact ⟨rfl, rfl, rfl⟩
    · exact ⟨rfl, rfl, rfl⟩
  unfold takeBack
  rcases releaseCPUSets_keeps msg.node msg.cpuSets (countMsg task msg) with
    ⟨pool, after⟩
  simp only
  rw [after]
  exact counted

theorem Kept.handleResRequests (kept : Kept n task)
    (nonzero : ∀ res ∈ task.resRequests, res.rid ≠ 0)
    (handled : Partition.handleResRequests env task = some task') :
    Kept n task' := by
  by_cases logger : task.tid = task.loggertid
  · exact kept.handleLoop logger (fun _ member => member) kept.books.distinct handled
  · have empty : task.resRequests = [] := by
      refine eq_nil_iff_forall_not_mem.mpr ?_
      intro res member
      exact nonzero res member (kept.ids.forwarder logger res member).1
    rw [Partition.handleResRequests, empty] at handled
    cases handled
    exact kept

theorem Kept.childResRel {msg : ChildResRel} (kept : Kept n task)
    (order : InOrder task (.childResRel msg))
    (handled : msgChildResRel env msg task = some task') : Kept n task' := by
  unfold msgChildResRel at handled
  split at handled
  · cases handled
    exact kept
  case isFalse threads =>
    split at handled
    · cases handled
      refine kept.send (fun _ => rfl) ?_
      trivial
    case h_2 own =>
      refine (kept.takeBack msg).handleResRequests ?_ handled
      rw [(takeBack_same task msg).2.2]
      exact order threads own

theorem findRes_some {rid : Int} (found : findRes queue rid = some res) :
    res ∈ queue ∧ res.rid = rid ∧ deqRes queue res = removeRes queue res.request := by
  have same : res.rid = rid := by
    simpa using find?_some found
  refine ⟨mem_of_find?_eq_some found, same, ?_⟩
  rw [deqRes, same, found]
  simp only [if_true]

theorem Kept.extendRes {resID : Int} {slots : List Slot} {sendErr : Bool} (kept : Kept n task)
    (handled : Partition.extendRes env resID slots sendErr task = some task') :
    Kept n task' := by
  unfold Partition.extendRes at handled
  split at handled
  · cases handled
    exact kept
  case h_2 res found =>
    have first := findRes_some found
    simp only at handled
    split at handled
    · cases handled
      exact kept.answerRefused .enospc first.1 rfl rfl rfl first.2.2 rfl
        rfl
    case h_2 held noted =>
      split at handled
      · cases handled
        exact kept.answerRefused .enospc first.1 rfl rfl rfl first.2.2
          rfl rfl
      · -- step forwarders have nothing to extend
        have logger : task.tid = task.loggertid := by
          by_contra forwarder
          have none := (kept.ids.forwarder forwarder res first.1).2
          rw [none] at noted
          cases noted
        have served : Served res task (announce (dequeue task res)
            { res with
              slots := some (held.take res.nSlots ++ slots)
              nSlots := uint32 (res.nSlots + slots.length) } 0) :=
          ⟨rfl, rfl, .granted res
            { res with
              slots := some (held.take res.nSlots ++ slots)
              nSlots := uint32 (res.nSlots + slots.length) }
            ⟨rfl, rfl⟩ ⟨rfl, rfl⟩ rfl rfl rfl⟩
        have step := (kept.served logger first.1 served).1
        split at handled
        · cases handled
          exact step
        · exact step.handleResRequests (step.ids.logger logger).2 handled

theorem Kept.getSlots (kept : Kept n task) (msg : GetSlots) : Kept n (msgGetSlots msg task) := by
  have refused : ∀ eno, Kept n (task.send (.slotsRefused msg.sender eno)) := by
    intro eno
    refine kept.send (fun _ => rfl) ?_
    trivial
  unfold msgGetSlots
  split
  · split
    · refine kept.send (fun _ => rfl) ?_
      trivial
    · exact refused _
  · split
    · exact refused _
    · split
      · exact refused _
      · split
        · exact refused _
        · split
          · exact refused _
          · split
            · exact refused _
            · refine kept.quiet rfl rfl rfl ?_ rfl (fun _ => rfl) ?_
              · rw [(keys_storeRes task.reservations _).2]
              · intro msg member
                rw [mem_singleton.mp member]
                trivial

theorem Kept.cleanupRes (kept : Kept n task) : Kept n (Partition.cleanupRes task) := by
  refine kept.quiet rfl rfl rfl (nil_sublist _) rfl ?_ ?_
  · intro request
    simp [answered, countP_map, Function.comp_def, Sent.answers]
  · intro msg member
    rcases mem_map.mp member with ⟨res, _, rfl⟩
    trivial

theorem kept_invariant : Invariant requestSystem (fun state => Kept state.1 state.2) where
  initial := by
    rintro ⟨n, task⟩ fresh
    have queue : task.resRequests = [] := fresh.resRequests
    have held : task.reservations = [] := fresh.reservations
    have sent : task.sent = [] := fresh.sent
    refine ⟨?_, ?_, ?_, ?_, ?_, ?_⟩
    · simp only [queue, sent]
      refine ⟨?_, ?_, nodup_nil, fun _ => Nat.zero_le _, fun _ _ => rfl⟩
      · exact fun _ member => nomatch member
      · exact fun _ member => nomatch member
    · simp [queue, held]
    · simp [queue]
    · simp [held]
    · simp [held]
    · simp [sent]
  step := by
    rintro ⟨n, before⟩ ⟨n', after⟩ kept ⟨env, input, order, received⟩
    cases input with
    | getReservation msg =>
      rcases map_eq_some_iff.mp received with ⟨task, handled, equality⟩
      cases equality
      exact kept.getReservation order handled
    | reservationRes msg =>
      cases received
      exact kept.reservationRes order
    | childResRel msg =>
      rcases map_eq_some_iff.mp received with ⟨task, handled, equality⟩
      cases equality
      exact kept.childResRel order handled
    | extendRes resID slots sendErr =>
      rcases map_eq_some_iff.mp received with ⟨task, handled, equality⟩
      cases equality
      exact kept.extendRes handled
    | getSlots msg =>
      cases received
      exact kept.getSlots msg
    | cleanupRes =>
      cases received
      exact kept.cleanupRes

/-- In runs in order all requests are answered at most once. -/
theorem requests_answered_once {state : Numbered}
    (reachable : requestSystem.Reachable state) : AnsweredOnce state.2 := by
  have kept := kept_invariant.reachable reachable
  exact ⟨kept.books.once, kept.ids.nonzero, kept.ids.unique, kept.ids.granted⟩

/-! ## A step forwarder -/

/-- One HW-thread of a node; a plugin makes the reservations. -/
def stepEnv : Env where
  hwStatus _ := 0
  fuel := 10
  getReservation _ _ := .done 1 [⟨1, {0}⟩]
  xtndPartDynamic := false

def stepOptions : Options := ⟨false, false, false, false, false, false⟩

def stepForwarder : Task where
  tid := ⟨0, 8⟩
  ptid := some ⟨0, 7⟩
  loggertid := ⟨0, 7⟩
  pluginFw := true
  partition := true
  options := stepOptions
  pool := ⟨2, fun t => ⟨1, t, 0⟩, 0⟩
  resRequests := []
  reservations := []
  firstSpawner := ⟨-1, -1⟩
  numChild := 0
  activeSlots := 0
  nextResID := 74
  sent := []

def stepRequest : GetReservation where
  sender := ⟨1, 9⟩
  nMin := 1
  nMax := 1
  ppn := 0
  tpp := 1
  hwType := 0
  options := stepOptions
  complete := true
  sendErr := none

/-- Receive one message after the other. -/
def receiveAll (env : Env) : List Input → Numbered → Option Numbered
  | [], state => some state
  | input :: rest, state => (receive env input state).bind (receiveAll env rest)

theorem receiveAll_reachable : ∀ {inputs : List Input} {state last : Numbered},
      requestRuns.Reachable state → receiveAll env inputs state = some last →
        requestRuns.Reachable last := by
  intro inputs
  induction inputs with
  | nil =>
    intro state last reachable received
    cases received
    exact reachable
  | cons input rest induction =>
    intro state last reachable received
    rcases bind_eq_some_iff.mp received with ⟨next, step, received⟩
    exact induction (reachable.step ⟨env, input, step⟩) received

/-- A reservation with ID 5 is made and spent; another request waits for its
rid when the child releases its slot. -/
def childReleases : List Input :=
  [.getReservation stepRequest,
    .reservationRes ⟨5, 1, some 0, .other 0⟩,
    .getSlots ⟨⟨1, 9⟩, 5, 1, true, none⟩,
    .getReservation stepRequest,
    .childResRel ⟨1, [{0}], 1, 5⟩]

/-- The step forwarder after it asked the logger. -/
def stepWaiting : Task := requestDummy stepForwarder (stepRequest.res stepForwarder.tid 0) none

theorem requests_answered_once_step : AnsweredOnce stepWaiting := by
  have order : InOrder stepForwarder (.getReservation stepRequest) :=
    ⟨fun logger => absurd logger (by decide), fun _ failed => absurd rfl failed⟩
  have received : receive stepEnv (.getReservation stepRequest)
      (0, stepForwarder) = some (1, stepWaiting) := rfl
  exact @requests_answered_once (1, stepWaiting)
    (.step (.initial ⟨rfl, rfl, rfl⟩) ⟨stepEnv, _, order, received⟩)

/-- The request waiting for its rid is served without one. -/
theorem not_requests_answered_once :
    ∃ state, requestRuns.Reachable state ∧ ¬ AnsweredOnce state.2 := by
  have served : ((receiveAll stepEnv childReleases (0, stepForwarder)).map
      (fun state => state.2.reservations.map Reservation.rid)) = some [0] := by
    decide +kernel
  rcases map_eq_some_iff.mp served with ⟨state, received, rids⟩
  refine ⟨state, receiveAll_reachable (.initial ⟨rfl, rfl, rfl⟩) received, ?_⟩
  intro answered
  have zero : (0 : Int) ∈ state.2.reservations.map Reservation.rid := by
    rw [rids]
    exact mem_singleton_self 0
  rcases mem_map.mp zero with ⟨res, member, rid⟩
  exact answered.nonzero res member rid

end Psmgmt.Partition
