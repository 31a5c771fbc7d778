import Psmgmt.Partition.Reserve
import Psmgmt.Library.Tiling
import Psmgmt.Library.Transition

/-!
# The ranks of reservations

The reservations a logger creates divide the ranks among themselves.
-/

namespace Psmgmt.Partition

open TransitionSystem List Option Bool

/-! ## The reservations created -/

/-- A reservation created; `placeholder` where a step forwarder fills it. -/
structure Created where
  placeholder : Bool
  res : Reservation
  deriving DecidableEq

def Sent.created : Sent → Option Created
  | .resCreated res => some ⟨false, res⟩
  | .placeholder res => some ⟨true, res⟩
  | _ => none

def Task.created (task : Task) : List Created := task.sent.filterMap Sent.created

def Created.globalRanks (c : Created) : Nat × Nat :=
  (uint32 (c.res.firstRank + c.res.rankOffset),
    if c.placeholder then c.res.nMax else c.res.nSlots)

/-- The job-local ranks of a reservation. -/
def Created.localRanks (c : Created) : Nat × Nat := (c.res.firstRank, c.res.nSlots)

def Task.globalRanks (task : Task) : List (Nat × Nat) := task.created.map Created.globalRanks

def Task.localRanks (task : Task) (requester : TaskId) : List (Nat × Nat) :=
  (task.created.filter (fun c => c.res.requester = requester)).map Created.localRanks

/-- The reservations tile the ranks, and those of a requester tile his. -/
structure RanksTiled (task : Task) : Prop where
  globalDisjoint : task.globalRanks.Pairwise
    (fun left right => Disjoint (Block.range left) (Block.range right))
  globalCovered : ∀ rank : Nat,
    (∃ block ∈ task.globalRanks, rank ∈ Block.range block) ↔ (rank : Int) < task.numChild
  localDisjoint : ∀ requester, (task.localRanks requester).Pairwise
    (fun left right => Disjoint (Block.range left) (Block.range right))
  localGapFree : ∀ requester, ∃ total, ∀ rank,
    (∃ block ∈ task.localRanks requester, rank ∈ Block.range block) ↔ rank < total

/-- Where the ranks of the requester's last reservation end. -/
def lastRank (created : List Created) (requester : TaskId) : Nat :=
  match (created.filter (fun c => !c.placeholder && c.res.requester = requester)).getLast? with
  | none => 0
  | some c => c.res.firstRank + c.res.nSlots

/-! ## What a run has to meet -/

/-- The next ranks of the requester follow his last ones: those of the first
spawner end with all ranks given out, for the others the reservation found in
the list is their last one. -/
def Follows (task : Task) (requester : TaskId) : Prop :=
  task.numChild ≠ 0 →
    (if requester = task.firstSpawner then task.numChild
      else
        match findResByRequester task.reservations requester with
        | some prev => ((prev.firstRank + prev.nSlots : Nat) : Int)
        | none => 0) = lastRank task.created requester

structure ServedInFull (env : Env) (res : Reservation) (task : Task) : Prop where
  follows : Follows task res.requester
  inRange : ∀ got rest,
    getReservation env task (prepare task res) = some (got, rest) → task.numChild + got < 2 ^ 31
  notInPart : ∀ got rest, getReservation env task (prepare task res) = some (got, rest) →
      res.options.dynamic = true → got ≠ 0 → int32 res.nMin ≤ got → int32 res.nMax ≤ got

/-- A placeholder is within the range of ranks. -/
def GivenInRange (res : Reservation) (task : Task) : Prop :=
  res.nMin = res.nMax → task.numChild + res.nMax < 2 ^ 31

/-! ## The logger's runs -/

structure FreshLogger (task : Task) : Prop where
  logger : task.tid = task.loggertid
  resRequests : task.resRequests = []
  reservations : task.reservations = []
  numChild : task.numChild = 0
  sent : task.sent = []

/-- The runs of a logger without plugins. -/
def loggerRuns : TransitionSystem Task where
  initial := FreshLogger
  step before after := ∃ env event, Unhooked env ∧ handle env event before = some after

def loggerSystem : TransitionSystem Task where
  initial := FreshLogger
  step before after := ∃ env event, Unhooked env ∧ EventMeets GivenInRange ServedInFull env before
    event ∧ handle env event before = some after

/-! ## What a reservation changes -/

theorem int32_of_bound {value : Int} (low : -2 ^ 31 ≤ value)
    (high : value < 2 ^ 31) : int32 value = value := by
  unfold int32
  omega

theorem uint32_of_bound {value : Int} (low : 0 ≤ value)
    (high : value < 2 ^ 32) : (uint32 value : Int) = value := by
  unfold uint32
  omega

/-- What the ranks given out and the reservations created have in common. -/
structure Ranked (created : List Created) (numChild : Int) : Prop where
  low : 0 ≤ numChild
  high : numChild < 2 ^ 31
  globals : Tiles (created.map Created.globalRanks) numChild.toNat
  locals : ∀ requester,
    Tiles ((created.filter (fun c => c.res.requester = requester)).map
      Created.localRanks) (lastRank created requester)
  within : ∀ requester, (lastRank created requester : Int) ≤ numChild

theorem Ranked.nil : Ranked [] 0 where
  low := le_refl 0
  high := by decide
  globals := Tiles.nil
  locals _ := Tiles.nil
  within _ := le_refl 0

theorem lastRank_snoc (created : List Created) (c : Created)
    (requester : TaskId) :
    lastRank (created ++ [c]) requester =
      if c.placeholder = false ∧ c.res.requester = requester then
        c.res.firstRank + c.res.nSlots
      else lastRank created requester := by
  unfold lastRank
  rw [filter_append]
  by_cases same : c.placeholder = false ∧ c.res.requester = requester
  · simp [same]
  · have other : [c].filter
        (fun c => !c.placeholder && decide (c.res.requester = requester)) = [] := by
      simp only [filter_eq_nil_iff, mem_singleton, forall_eq,
        and_eq_true, not_eq_true', decide_eq_true_eq]
      exact same
    rw [other, append_nil, if_neg same]

/-- A placeholder takes the next ranks, and none of the requester's own. -/
theorem Ranked.placeholder {created : List Created} {numChild : Int}
    (ranked : Ranked created numChild) (res : Reservation)
    (first : res.firstRank = numChild.toNat) (offset : res.rankOffset = 0)
    (empty : res.nSlots = 0) (inRange : numChild + res.nMax < 2 ^ 31) :
    Ranked (created ++ [⟨true, res⟩]) (numChild + res.nMax) := by
  have low := ranked.low
  have same : ∀ requester, lastRank (created ++ [⟨true, res⟩]) requester =
      lastRank created requester := by
    intro requester
    rw [lastRank_snoc]
    exact if_neg (fun placeholder => Bool.noConfusion placeholder.1)
  refine ⟨by omega, inRange, ?_, ?_, ?_⟩
  · have start : uint32 ((res.firstRank : Int) + res.rankOffset) = numChild.toNat := by
      unfold uint32
      omega
    have total : (numChild + res.nMax).toNat = numChild.toNat + res.nMax := by
      omega
    rw [map_append, total]
    simp only [map_cons, map_nil, Created.globalRanks, start, if_true]
    exact ranked.globals.snoc res.nMax
  · intro requester
    rw [same, filter_append, map_append]
    by_cases his : res.requester = requester
    · simp only [his, filter_cons, decide_true, if_true, filter_nil,
        map_cons, map_nil, Created.localRanks, empty]
      exact (ranked.locals requester).empty res.firstRank
    · simpa [his] using ranked.locals requester
  · intro requester
    rw [same]
    have within := ranked.within requester
    omega

variable {got : Int} {res : Reservation} {task task' : Task} {env : Env}

theorem Ranked.reservation {created : List Created} {numChild : Int}
    (ranked : Ranked created numChild) (res : Reservation)
    (global : (uint32 (res.firstRank + res.rankOffset) : Int) = numChild)
    (own : res.firstRank = lastRank created res.requester)
    (count : (res.nSlots : Int) = got) (inRange : numChild + got < 2 ^ 31) :
    Ranked (created ++ [⟨false, res⟩]) (numChild + got) := by
  have low := ranked.low
  have within := ranked.within
  have next : ∀ requester, lastRank (created ++ [⟨false, res⟩]) requester =
      if res.requester = requester then res.firstRank + res.nSlots
      else lastRank created requester := by
    intro requester
    rw [lastRank_snoc]
    simp
  refine ⟨by omega, inRange, ?_, ?_, ?_⟩
  · have start : uint32 ((res.firstRank : Int) + res.rankOffset) = numChild.toNat := by omega
    have total : (numChild + got).toNat = numChild.toNat + res.nSlots := by
      omega
    rw [map_append, total]
    simp only [map_cons, map_nil, Created.globalRanks, start]
    exact ranked.globals.snoc res.nSlots
  · intro requester
    rw [next, filter_append, map_append]
    by_cases his : res.requester = requester
    · have tiles := (ranked.locals requester).snoc res.nSlots
      rw [if_pos his, own, his]
      simpa [his, Created.localRanks, own] using tiles
    · rw [if_neg his]
      simpa [his] using ranked.locals requester
  · intro requester
    rw [next]
    split
    · have own' := within res.requester
      omega
    · have other := within requester
      omega

/-! ## One request -/

/-- The ranks `rankRes` chooses. -/
structure Placed (task : Task) (res : Reservation)
    (placed : Reservation × Task) : Prop where
  numChild : placed.2.numChild = task.numChild
  sent : placed.2.sent = task.sent
  resRequests : placed.2.resRequests = task.resRequests
  tid : placed.2.tid = task.tid
  loggertid : placed.2.loggertid = task.loggertid
  requester : placed.1.requester = res.requester
  nSlots : placed.1.nSlots = res.nSlots
  global : (uint32 (placed.1.firstRank + placed.1.rankOffset) : Int) = task.numChild
  own : placed.1.firstRank = lastRank task.created res.requester

theorem rankRes_placed (task : Task) (ranked : Ranked task.created task.numChild)
    (follows : Follows task res.requester) (first : res.firstRank = uint32 task.numChild)
    (offset : res.rankOffset = 0) :
    Placed task res (rankRes task res) := by
  have low := ranked.low
  have high := ranked.high
  have within := ranked.within res.requester
  have start : (uint32 task.numChild : Int) = task.numChild := uint32_of_bound low (by omega)
  have global : (uint32 ((res.firstRank : Int) + res.rankOffset) : Int) = task.numChild := by
    rw [first, offset, start, Int.natCast_zero, Int.add_zero, start]
  unfold Follows at follows
  unfold rankRes
  by_cases unused : task.numChild = 0
  · rw [if_pos unused]
    exact ⟨rfl, rfl, rfl, rfl, rfl, rfl, rfl, global, by simp only; omega⟩
  · rw [if_neg unused]
    have follows := follows unused
    by_cases spawner : res.requester = task.firstSpawner
    · rw [if_neg (fun other => other spawner)]
      rw [if_pos spawner] at follows
      exact ⟨rfl, rfl, rfl, rfl, rfl, rfl, rfl, global, by simp only; omega⟩
    · rw [if_pos spawner]
      rw [if_neg spawner] at follows
      -- the first rank is where the last reservation of the requester ends
      cases found : findResByRequester task.reservations res.requester with
      | none =>
        rw [found] at follows
        refine ⟨rfl, rfl, rfl, rfl, rfl, rfl, rfl, ?_, ?_⟩
        · simp only
          unfold uint32
          omega
        · simp only at follows ⊢
          omega
      | some prev =>
        rw [found] at follows
        have own : uint32 (prev.firstRank + prev.nSlots) = lastRank task.created res.requester := by
          simp only at follows
          unfold uint32
          omega
        refine ⟨rfl, rfl, rfl, rfl, rfl, rfl, rfl, ?_, ?_⟩
        · simp only [own]
          unfold uint32
          omega
        · simp only [own]

theorem created_answer (task : Task) (request : Nat) (dest : TaskId)
    (answer : Answer) :
    (task.send (.reservationRes request dest answer)).created = task.created := by
  simp [Task.created, Task.send, Sent.created]

/-- Nobody waits with ranks of his own, or as a placeholder. -/
def Plain (res : Reservation) : Prop := res.rankOffset = 0 ∧ res.options.dummy = false

/-- The invariant of the logger. -/
structure LoggerRanks (task : Task) : Prop where
  logger : task.tid = task.loggertid
  plain : ∀ res ∈ task.resRequests, Plain res
  ranked : Ranked task.created task.numChild

theorem LoggerRanks.grant (ranks : LoggerRanks task) (follows : Follows task res.requester)
    (first : res.firstRank = uint32 task.numChild) (offset : res.rankOffset = 0)
    (count : (res.nSlots : Int) = got) (inRange : task.numChild + got < 2 ^ 31) :
    LoggerRanks (Partition.grant (dequeue task res) res got) := by
  have low := ranks.ranked.low
  have placed : Placed (dequeue task res) res (rankRes (dequeue task res) res) :=
    rankRes_placed (dequeue task res) ranks.ranked follows first offset
  have ranked := ranks.ranked.reservation (rankRes (dequeue task res) res).1 placed.global
    (by rw [placed.own, placed.requester]; rfl) (by rw [placed.nSlots]; exact count) inRange
  have numChild : (rankRes (dequeue task res) res).2.numChild = task.numChild := placed.numChild
  have sent : (rankRes (dequeue task res) res).2.sent = task.sent := placed.sent
  unfold Partition.grant announce
  refine ⟨?_, ?_, ?_⟩
  · change (rankRes (dequeue task res) res).2.tid = (rankRes (dequeue task res) res).2.loggertid
    rw [placed.tid, placed.loggertid]
    exact ranks.logger
  · intro other member
    change other ∈ (rankRes (dequeue task res) res).2.resRequests at member
    rw [placed.resRequests] at member
    exact ranks.plain other (mem_deqRes member)
  · have total : int32 (task.numChild + got) = task.numChild + got :=
      int32_of_bound (by omega) inRange
    simp only [Task.created, numChild, sent, total]
    rw [filterMap_append]
    exact ranked

theorem LoggerRanks.refuse (ranks : LoggerRanks task) (res : Reservation)
    (eno : Errno) :
    LoggerRanks (Partition.refuse (dequeue task res) res eno) where
  logger := ranks.logger
  plain _ member := ranks.plain _ (mem_deqRes member)
  ranked := by
    unfold Partition.refuse
    rw [created_answer]
    exact ranks.ranked

theorem LoggerRanks.storeRequest (ranks : LoggerRanks task) (plain : Plain res) :
    LoggerRanks (Partition.storeRequest task res) where
  logger := ranks.logger
  plain other member := by
    rcases mem_storeRes member with queued | stored
    · exact ranks.plain other queued
    · exact stored ▸ plain
  ranked := ranks.ranked

theorem restore_numChild (ranked : Ranked task.created task.numChild)
    (nMax : Int) :
    int32 (int32 (task.numChild + nMax) - nMax) = task.numChild := by
  have low := ranked.low
  have high := ranked.high
  unfold int32
  omega

/-- What is known of a request the slots of which were looked for. -/
structure Tried (task : Task) (res : Reservation) (got : Int) : Prop where
  follows : Follows task res.requester
  first : res.firstRank = uint32 task.numChild
  plain : Plain res
  inRange : task.numChild + got < 2 ^ 31
  notInPart : res.options.dynamic = true → got ≠ 0 → int32 res.nMin ≤ got → int32 res.nMax ≤ got

theorem LoggerRanks.release (ranks : LoggerRanks task) (slots : List Slot) :
    LoggerRanks (releaseSlotsOf task slots) :=
  ⟨ranks.logger, ranks.plain, ranks.ranked⟩

theorem LoggerRanks.tried (ranks : LoggerRanks task)
    (tried : Tried task res got) (some : 0 ≤ got) :
    LoggerRanks (Partition.grant
      (dequeue task { res with nSlots := uint32 got })
      { res with nSlots := uint32 got } got) := by
  have low := ranks.ranked.low
  have inRange := tried.inRange
  exact ranks.grant tried.follows tried.first tried.plain.1
    (uint32_of_bound some (by omega)) inRange

theorem LoggerRanks.handlePart (unhooked : Unhooked env)
    (ranks : LoggerRanks task) (tried : Tried task res got)
    (partly : got < int32 res.nMax) (dynamic : res.options.dynamic = true) :
    LoggerRanks (Partition.handlePart env got { res with nSlots := uint32 got } task).2 := by
  have restored := restore_numChild ranks.ranked
  unfold Partition.handlePart
  rw [unhooked.xtndPartDynamic]
  by_cases few : got < int32 res.nMin
  · have counted := restored res.nMax
    by_cases some : got > 0
    · have positive : ¬ got < 0 := by omega
      simp only [positive, if_false, false_eq_true, few, if_true, counted, some]
      exact (ranks.release _).refuse _ _
    · by_cases negative : got < 0
      · simp only [negative, if_false, false_eq_true, few, if_true, counted, some]
        exact ranks.refuse _ _
      · simp only [negative, if_false, false_eq_true, few, if_true, counted, some]
        exact ranks.refuse _ _
  · -- only an empty reservation is not counted twice here
    have none : got = 0 := by
      by_contra some
      have nMax := tried.notInPart dynamic some (Int.not_lt.mp few)
      exact absurd partly (Int.not_lt.mpr nMax)
    subst none
    have counted := restored res.nMax
    simp only [Int.lt_irrefl, if_false, false_eq_true, few, Int.sub_zero, counted]
    exact ranks.tried tried (le_refl 0)

theorem LoggerRanks.handleGot (unhooked : Unhooked env)
    (ranks : LoggerRanks task) (tried : Tried task res got) :
    LoggerRanks (Partition.handleGot env got res task).2 := by
  simp only [Partition.handleGot]
  by_cases partly : got < int32 res.nMax ∧ res.options.dynamic = true
  · rw [if_pos partly]
    exact ranks.handlePart unhooked tried partly.1 partly.2
  · rw [if_neg partly]
    by_cases none : got = 0
    · rw [if_pos none]
      by_cases wait : res.options.wait = true
      · rw [if_pos wait]
        exact ranks.storeRequest tried.plain
      · rw [if_neg wait]
        exact ranks.refuse _ _
    · rw [if_neg none]
      by_cases negative : got < 0
      · rw [if_pos negative]
        exact ranks.refuse _ _
      · rw [if_neg negative]
        exact ranks.tried tried (Int.not_lt.mp negative)

theorem LoggerRanks.handleSingle {next : Bool} (unhooked : Unhooked env) (ranks : LoggerRanks task)
    (plain : Plain res) (full : ServedInFull env res task)
    (handled : handleSingleResRequest env res task = some (next, task')) :
    LoggerRanks task' := by
  unfold handleSingleResRequest at handled
  split at handled
  · cases handled
    exact ranks
  · simp only [unhooked.getReservation] at handled
    rcases map_eq_some_iff.mp handled with
      ⟨⟨got, res', task₁⟩, result, equality⟩
    have looked := getReservation_looked result
    rcases looked.res with ⟨slots, checked, rfl⟩
    rcases looked.task with ⟨pool, rfl⟩
    have tried : Tried { task with pool := pool }
        { prepare task res with slots := slots, checked := checked } got :=
      ⟨full.follows, rfl, plain, full.inRange _ _ result, full.notInPart _ _ result⟩
    have before : LoggerRanks { task with pool := pool } :=
      ⟨ranks.logger, ranks.plain, ranks.ranked⟩
    have after := before.handleGot unhooked tried
    rw [equality] at after
    exact after

theorem LoggerRanks.handleLoop (unhooked : Unhooked env) :
    ∀ {queue : List Reservation} {task task' : Task}, LoggerRanks task →
      (∀ res ∈ queue, Plain res) → LoopMeets ServedInFull env queue task →
      Partition.handleLoop env queue task = some task' → LoggerRanks task' := by
  intro queue
  induction queue with
  | nil =>
    intro task task' ranks _ _ handled
    cases handled
    exact ranks
  | cons res rest induction =>
    intro task task' ranks plain full handled
    rcases bind_eq_some_iff.mp handled with
      ⟨⟨next, task₁⟩, single, handled⟩
    have step := ranks.handleSingle unhooked (plain res mem_cons_self) full.1 single
    cases next with
    | false =>
      cases handled
      exact step
    | true =>
      exact induction step (fun other member => plain other (mem_cons_of_mem _ member))
        (full.2 task₁ single) handled

/-! ## Runs -/

section

variable (ranks : LoggerRanks task)

include ranks

/-- What the ranks do not depend on may change. -/
theorem LoggerRanks.keep (tid : task'.tid = task.tid) (loggertid : task'.loggertid = task.loggertid)
    (resRequests : task'.resRequests = task.resRequests) (created : task'.created = task.created)
    (numChild : task'.numChild = task.numChild) : LoggerRanks task' where
  logger := by rw [tid, loggertid]; exact ranks.logger
  plain := by rw [resRequests]; exact ranks.plain
  ranked := by rw [created, numChild]; exact ranks.ranked

theorem LoggerRanks.send {msg : Sent} (quiet : msg.created = none) :
    LoggerRanks (task.send msg) := by
  refine ranks.keep rfl rfl rfl ?_ rfl
  simp [Task.created, Task.send, quiet]

theorem LoggerRanks.enqueue (plain : Plain res) :
    LoggerRanks { task with resRequests := enqRes task.resRequests res } where
  logger := ranks.logger
  plain other member := by
    rcases mem_append.mp member with queued | last
    · exact ranks.plain other queued
    · exact mem_singleton.mp last ▸ plain
  ranked := ranks.ranked

theorem LoggerRanks.giveDummy (offset : res.rankOffset = 0) (empty : res.nSlots = 0)
    (inRange : res.nMin = res.nMax → task.numChild + res.nMax < 2 ^ 31) :
    LoggerRanks (Partition.giveDummy task res) := by
  have low := ranks.ranked.low
  have high := ranks.ranked.high
  unfold Partition.giveDummy
  by_cases same : res.nMin = res.nMax
  · rw [if_neg (fun other => other same)]
    have start : uint32 task.numChild = task.numChild.toNat := by
      unfold uint32
      omega
    have total : int32 (task.numChild + res.nMax) = task.numChild + res.nMax :=
      int32_of_bound (by omega) (inRange same)
    refine ⟨ranks.logger, ranks.plain, ?_⟩
    have ranked := ranks.ranked.placeholder { res with firstRank := uint32 task.numChild } start
      offset empty (inRange same)
    simp only [Task.created, total, filterMap_append]
    exact ranked
  · rw [if_pos same]
    exact ranks.send rfl

end

theorem LoggerRanks.serveRequest (unhooked : Unhooked env)
    (ranks : LoggerRanks task) (plain : Plain res)
    (full : task.resRequests = [] → mayServe task res = true →
      ServedInFull env res { task with resRequests := enqRes task.resRequests res })
    (handled : Partition.serveRequest env task res = some task') :
    LoggerRanks task' := by
  unfold Partition.serveRequest at handled
  by_cases waiting : task.resRequests ≠ []
  · rw [if_pos waiting] at handled
    split at handled
    · cases handled
      exact ranks.enqueue plain
    · cases handled
      exact ranks.send rfl
  · rw [if_neg waiting] at handled
    split at handled
    case isTrue may =>
      rcases map_eq_some_iff.mp handled with ⟨⟨next, after⟩, single, rfl⟩
      exact (ranks.enqueue plain).handleSingle unhooked plain (full (not_not.mp waiting) may) single
    case isFalse =>
      cases handled
      exact ranks.send rfl

theorem takeUp_ranks (ranks : LoggerRanks task) (request : Nat)
    (msg : GetReservation) : LoggerRanks (takeUp task request msg).2 :=
  ranks.keep rfl rfl rfl rfl rfl

theorem LoggerRanks.getReservation {request : Nat} {msg : GetReservation}
    (unhooked : Unhooked env) (ranks : LoggerRanks task)
    (full : EventMeets GivenInRange ServedInFull env task (.getReservation request msg))
    (handled : msgGetReservation env request msg task = some task') :
    LoggerRanks task' := by
  unfold msgGetReservation at handled
  split at handled
  · split at handled
    · cases handled
      exact ranks.send rfl
    · cases handled
      exact ranks.send rfl
  case h_2 forwarding =>
    split at handled
    · cases handled
      exact ranks.send rfl
    case isFalse threads =>
      split at handled
      · cases handled
        exact ranks.send rfl
      case isFalse complete =>
        rw [if_neg (fun other => other ranks.logger)] at handled
        have holder : (task.ptid.isNone || task.partition) = true := by
          cases ptid : task.ptid with
          | none => rfl
          | some parent =>
            cases partition : task.partition with
            | false => exact absurd partition (forwarding parent ptid)
            | true => rfl
        have request' := full (by
          simp only [accepted, holder, threads, ne_eq, not_false_eq_true,
            decide_true, Bool.true_and]
          simpa using complete) ranks.logger
        have before := takeUp_ranks ranks request msg
        simp only at handled request'
        split at handled
        case isTrue dummy =>
          cases handled
          rw [if_pos dummy] at request'
          exact before.giveDummy rfl rfl request'
        case isFalse plain =>
          rw [if_neg plain] at request'
          exact before.serveRequest unhooked ⟨rfl, not_eq_true _ ▸ plain⟩ request' handled

theorem LoggerRanks.countReleased (ranks : LoggerRanks task) (res : Reservation)
    (numSlots : Nat) :
    LoggerRanks (Partition.countReleased task res numSlots) := by
  simp only [Partition.countReleased]
  split
  · refine ranks.keep rfl rfl rfl ?_ rfl
    simp [Task.created, Sent.created]
  · exact ranks.keep rfl rfl rfl rfl rfl

theorem LoggerRanks.takeBack (ranks : LoggerRanks task) (msg : ChildResRel) :
    LoggerRanks (Partition.takeBack task msg) := by
  have counted : LoggerRanks (countMsg task msg) := by
    unfold countMsg
    split
    · exact ranks.countReleased _ _
    · exact ranks
  unfold Partition.takeBack
  rcases releaseCPUSets_keeps msg.node msg.cpuSets (countMsg task msg) with
    ⟨pool, after⟩
  simp only
  rw [after]
  exact counted.keep rfl rfl rfl rfl rfl

theorem LoggerRanks.childResRel {msg : ChildResRel} (unhooked : Unhooked env)
    (ranks : LoggerRanks task)
    (full : task.pool.totalThreads ≠ 0 → placeholderOf task msg.rid = none →
      LoopMeets ServedInFull env (Partition.takeBack task msg).resRequests
        (Partition.takeBack task msg))
    (handled : msgChildResRel env msg task = some task') :
    LoggerRanks task' := by
  unfold msgChildResRel at handled
  split at handled
  · cases handled
    exact ranks
  case isFalse threads =>
    split at handled
    · cases handled
      exact ranks.send rfl
    case h_2 own =>
      have before := ranks.takeBack msg
      exact before.handleLoop unhooked before.plain (full threads own) handled

theorem LoggerRanks.getSlots (ranks : LoggerRanks task) (msg : GetSlots) :
    LoggerRanks (msgGetSlots msg task) := by
  unfold msgGetSlots
  split
  · split
    · exact ranks.send rfl
    · exact ranks.send rfl
  · split
    · exact ranks.send rfl
    · split
      · exact ranks.send rfl
      · split
        · exact ranks.send rfl
        · split
          · exact ranks.send rfl
          · split
            · exact ranks.send rfl
            · refine ranks.keep rfl rfl rfl ?_ rfl
              simp [Task.created, Sent.created]

theorem LoggerRanks.reservationRes (ranks : LoggerRanks task)
    (msg : ReservationRes) : LoggerRanks (msgReservationRes env msg task) := by
  unfold msgReservationRes
  split
  · exact ranks
  · split
    · exact ranks
    case h_2 res rest queue =>
      have plain := ranks.plain res (queue ▸ mem_cons_self)
      rw [if_pos (.inr (by rw [plain.2]; rfl))]
      exact ranks

theorem LoggerRanks.cleanupRes (ranks : LoggerRanks task) :
    LoggerRanks (Partition.cleanupRes task) := by
  refine ranks.keep rfl rfl rfl ?_ rfl
  have none : (task.reservations.map Sent.resReleased).filterMap Sent.created = [] := by
    simp [filterMap_eq_nil_iff, Sent.created]
  simp only [Partition.cleanupRes, Task.created, filterMap_append, none, append_nil]

theorem loggerRanks_invariant : Invariant loggerSystem LoggerRanks where
  initial := by
    intro task fresh
    refine ⟨fresh.logger, ?_, ?_⟩
    · rw [fresh.resRequests]
      exact fun _ member => nomatch member
    · rw [Task.created, fresh.sent, fresh.numChild]
      exact Ranked.nil
  step := by
    rintro before after ranks ⟨env, event, unhooked, full, handled⟩
    cases event with
    | getReservation request msg => exact ranks.getReservation unhooked full handled
    | getSlots msg =>
      cases handled
      exact ranks.getSlots msg
    | childResRel msg => exact ranks.childResRel unhooked full handled
    | reservationRes msg =>
      cases handled
      exact ranks.reservationRes msg
    | cleanupRes =>
      cases handled
      exact ranks.cleanupRes

theorem reservations_tile_ranks {task : Task}
    (reachable : loggerSystem.Reachable task) : RanksTiled task := by
  have ranks := loggerRanks_invariant.reachable reachable
  have low := ranks.ranked.low
  refine ⟨ranks.ranked.globals.pairwise_disjoint, ?_, ?_, ?_⟩
  · intro rank
    have covered := ranks.ranked.globals.covered rank
    have same : rank < task.numChild.toNat ↔ (rank : Int) < task.numChild := by
      omega
    exact covered.trans same
  · intro requester
    exact (ranks.ranked.locals requester).pairwise_disjoint
  · intro requester
    exact ⟨_, (ranks.ranked.locals requester).covered⟩

/-! ## A small logger -/

def smallEnv : Env := ⟨fun _ => 0, 10, fun _ _ => .nofunc, false⟩

theorem smallEnv_unhooked : Unhooked smallEnv := ⟨fun _ _ => rfl, rfl⟩

def noOptions : Options := ⟨false, false, false, false, false, false⟩

/-- A logger the partition of which has two HW-threads on one node. -/
def smallLogger : Task where
  tid := ⟨0, 7⟩
  ptid := none
  loggertid := ⟨0, 7⟩
  pluginFw := false
  partition := true
  options := noOptions
  pool := ⟨2, fun t => ⟨1, t, 0⟩, 0⟩
  resRequests := []
  reservations := []
  firstSpawner := ⟨-1, -1⟩
  numChild := 0
  activeSlots := 0
  nextResID := 73
  sent := []

theorem smallLogger_fresh : FreshLogger smallLogger := ⟨rfl, rfl, rfl, rfl, rfl⟩

/-- A request for two to `nMax` slots of one HW-thread. -/
def smallRequest (nMax : Nat) (dynamic : Bool) : GetReservation where
  sender := ⟨1, 9⟩
  nMin := 2
  nMax := nMax
  ppn := 0
  tpp := 1
  hwType := 0
  options := { noOptions with dynamic := dynamic }
  complete := true
  sendErr := none

def afterSmall (nMax : Nat) (dynamic : Bool) : Task :=
  (msgGetReservation smallEnv 0 (smallRequest nMax dynamic) smallLogger).getD smallLogger

theorem handle_small (nMax : Nat) (dynamic : Bool)
    (served : (msgGetReservation smallEnv 0 (smallRequest nMax dynamic)
      smallLogger).isSome = true) :
    handle smallEnv (.getReservation 0 (smallRequest nMax dynamic)) smallLogger =
      some (afterSmall nMax dynamic) := by
  rcases isSome_iff_exists.mp served with ⟨task, result⟩
  rw [handle, afterSmall, result, getD_some]

theorem small_reachable : loggerSystem.Reachable (afterSmall 2 false) := by
  refine .step (.initial smallLogger_fresh)
    ⟨smallEnv, .getReservation 0 (smallRequest 2 false), smallEnv_unhooked, ?_,
      handle_small 2 false (by decide +kernel)⟩
  intro _ _ _ _
  have two : ∀ got rest, getReservation smallEnv
        { (takeUp smallLogger 0 (smallRequest 2 false)).2 with
          resRequests := [(takeUp smallLogger 0 (smallRequest 2 false)).1] }
        (prepare smallLogger (takeUp smallLogger 0 (smallRequest 2 false)).1) =
          some (got, rest) → got = 2 := by
    intro got rest found
    have count : (getReservation smallEnv
        { (takeUp smallLogger 0 (smallRequest 2 false)).2 with
          resRequests := [(takeUp smallLogger 0 (smallRequest 2 false)).1] }
        (prepare smallLogger (takeUp smallLogger 0 (smallRequest 2 false)).1)).map Prod.fst =
            some 2 := by decide +kernel
    rw [found] at count
    exact Option.some.inj count
  refine ⟨fun some => absurd rfl some, ?_, ?_⟩
  · intro got rest found
    rw [two got rest found]
    decide
  · intro got rest _ dynamic
    exact Bool.noConfusion dynamic

theorem reservations_tile_ranks_small : RanksTiled (afterSmall 2 false) :=
  reservations_tile_ranks small_reachable

/-- A dynamic request that gets two of three slots leaves a gap. -/
theorem not_reservations_tile_ranks : ∃ task, loggerRuns.Reachable task ∧ ¬ RanksTiled task := by
  refine ⟨afterSmall 3 true, .step (.initial smallLogger_fresh)
    ⟨smallEnv, .getReservation 0 (smallRequest 3 true), smallEnv_unhooked,
      handle_small 3 true (by decide +kernel)⟩, ?_⟩
  intro tiled
  have ranks : (afterSmall 3 true).globalRanks = [(2, 2)] := by decide +kernel
  have numChild : (afterSmall 3 true).numChild = 4 := by decide +kernel
  have zero := (tiled.globalCovered 0).mpr (by rw [numChild]; decide)
  rw [ranks] at zero
  rcases zero with ⟨block, member, inside⟩
  rw [mem_singleton.mp member] at inside
  exact absurd inside.1 (by decide)

end Psmgmt.Partition
