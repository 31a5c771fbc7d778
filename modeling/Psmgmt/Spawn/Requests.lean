import Psmgmt.Spawn.Delayed
import Psmgmt.Library.Transition

/-!
# The answers to spawn requests

Each rank of a request either waits, or it was handed to `spawnTask()`,
answered to the request's sender or lost together with the sender's node.
-/

namespace Psmgmt.Spawn

open Serial Partition Sweep TransitionSystem List

/-! ## Ranks and their ends -/

def waiting (state : State) : List Task := state.delayedTasks.filter (fun task => !task.deleted)

def Task.key (task : Task) : Option Origin :=
  if task.deleted then none else some task.origin

/-- The end is one a rank of the request may come to. -/
def Outcome.Suits (myID : Int) (asked : Asked) (index : Nat) : Outcome → Prop
  | .handed => True
  | .answered msg => msg.dest = asked.sender ∧ int32 msg.request = int32 (asked.rank + index)
  | .lost node => asked.sender.getID myID = node
  | .dropped => False

def Outcome.Served : Outcome → Prop
  | .handed => True
  | .answered _ => True
  | _ => False

def IsRank (requests : List Asked) (origin : Origin) (asked : Asked) : Prop :=
  requests[origin.request]? = some asked ∧ origin.index < asked.num

def Stands (requests : List Asked) (task : Task) : Prop :=
  ∃ asked, IsRank requests task.origin asked ∧ task.spawnertid = asked.sender ∧ task.rank = int32
    (asked.rank + task.origin.index)

/-- Every rank of a request either waits or has come to one suitable end. -/
structure RanksAnswered (myID : Int) (state : State) : Prop where
  once : ∀ origin asked, IsRank state.requests origin asked →
    openCount Task.key origin state.delayedTasks + recordCount Prod.fst origin state.records = 1
  stands : ∀ task ∈ waiting state, Stands state.requests task
  suits : ∀ record ∈ state.records, ∃ asked,
    IsRank state.requests record.1 asked ∧ record.2.Suits myID asked record.1.index

def RemovesExactly (myID : Int) (event : Event) (before after : State) : Prop :=
  match event with
  | .cleanupByNode node =>
    waiting after = (waiting before).filter (fun task => task.spawnertid.getID myID ≠ node)
  | .cleanupBySpawner tid =>
    waiting after = (waiting before).filter (fun task => task.spawnertid ≠ tid)
  | _ => ∀ task ∈ waiting before, task.origin ∈ (waiting after).map Task.origin ∨
        ∃ outcome, (task.origin, outcome) ∈ after.records ∧ outcome.Served

/-! ## Runs -/

def Unawaited (state : State) (resIDs : List Int) : Prop :=
  ∀ task ∈ waiting state, task.resID ∉ resIDs

/-- The tasks started are spawned, or their own task ID is their spawner's. -/
def Starts (env : Env) (filter : Task → Filtered) (state : State) : Prop :=
  ∀ task ∈ waiting state, ∀ passed, filter task = .pass passed →
    passed.delayReasons = 0 → env.spawnTask passed = none ∨ passed.tid = passed.spawnertid

/-- The delayed tasks' own task IDs lead to the same tasks as their spawners',
no reservation is given up while tasks wait for it, and delayed tasks are
spawned once their time has come. -/
def EventMeets (env : Env) (state : State) : Event → Prop
  | .spawnReq _ => True
  | .resCreated flags rData => Unawaited state (remnants flags rData state.sessions)
  | .resSlots flags numThrds rData =>
    Unawaited state (unknownRes flags rData state.sessions) ∧
      ∀ res, filledRes flags numThrds rData state.sessions = some res →
        Starts env (startFilter env.myTID res) state
  | .resReleased sessionID jobID resID =>
    Unawaited state (releasedRes sessionID jobID resID state.sessions)
  | .resCleanup sender => Unawaited state (sessionRes sender state.sessions)
  | .startDelayedTasks filter => Starts env filter.filtered state
  | .cleanupDelayedTasks filter => ∀ task ∈ waiting state, (filter task).1 = false
  | .cleanupByNode node => ∀ task ∈ waiting state,
      task.tid.getID env.myTID.node = node ↔ task.spawnertid.getID env.myTID.node = node
  | .cleanupBySpawner tid => ∀ task ∈ waiting state, task.tid = tid ↔ task.spawnertid = tid
  | .cleanupSpawnTasks => True

/-- No request was received yet. -/
structure Fresh (state : State) : Prop where
  delayedTasks : state.delayedTasks = []
  requests : state.requests = []
  records : state.records = []

/-- All runs of a daemon. -/
def allSpawnRuns (myTID : TaskId) : TransitionSystem State where
  initial := Fresh
  step before after := ∃ env event, env.myTID = myTID ∧ handle env event before = after

def spawnRuns (myTID : TaskId) : TransitionSystem State where
  initial := Fresh
  step before after := ∃ env event, env.myTID = myTID ∧
    EventMeets env before event ∧ handle env event before = after

/-! ## One rank -/

/-- What a task keeps on its way through the daemon. -/
structure Keeps (task task' : Task) : Prop where
  origin : task'.origin = task.origin
  spawnertid : task'.spawnertid = task.spawnertid
  rank : task'.rank = task.rank
  deleted : task'.deleted = task.deleted

theorem Keeps.refl (task : Task) : Keeps task task := ⟨rfl, rfl, rfl, rfl⟩

theorem fillTaskFromResInfo_keeps (task : Task) (res : Option ResInfo) :
    Keeps task (fillTaskFromResInfo task res).2 := by
  unfold fillTaskFromResInfo
  split
  · exact ⟨rfl, rfl, rfl, rfl⟩
  · dsimp only
    split
    · exact ⟨rfl, rfl, rfl, rfl⟩
    · split
      · exact ⟨rfl, rfl, rfl, rfl⟩
      · split
        · exact ⟨rfl, rfl, rfl, rfl⟩
        · split <;> exact ⟨rfl, rfl, rfl, rfl⟩

theorem int32_uint32 (value : Int) : int32 (uint32 value) = int32 value := by
  unfold int32 uint32
  omega

theorem int32_int32 (value : Int) : int32 (int32 value) = int32 value := by
  unfold int32
  omega

/-- What the loop of `handleSpawnReq()` may do with a rank. -/
inductive RankDone (sender : TaskId) (rank : Int) (origin : Origin) :
    Action Task Record → Prop where
  | delayed {task : Task} (same : task.origin = origin) (spawner : task.spawnertid = sender)
      (own : task.rank = int32 (rank + origin.index)) (alive : task.deleted = false) :
      RankDone sender rank origin (some task, none)
  | handed : RankDone sender rank origin (none, some (origin, .handed))
  | answered {msg : SpawnFailed} (dest : msg.dest = sender)
      (own : int32 msg.request = int32 (rank + origin.index)) :
      RankDone sender rank origin (none, some (origin, .answered msg))

variable {task : Task} {myID : Int} {outcome : Outcome} {state : State}
  {body : Task → Action Task Record} {env : Env}

theorem psTaskClone_some {memory : Bool} {clone : Task}
    (cloned : psTaskClone memory task = some clone) :
    clone = { task with tid := noTid } := by
  unfold psTaskClone at cloned
  split at cloned
  · exact absurd cloned (by simp)
  · split at cloned
    · exact (Option.some.inj cloned).symm
    · exact absurd cloned (by simp)

theorem spawnRank_done (env : Env) (req : SpawnReq) (number : Nat)
    (proto : Task) (res : Option ResInfo) (r : Nat) (error : Option Errno)
    (spawner : proto.spawnertid = req.sender) (alive : proto.deleted = false) :
    RankDone req.sender proto.rank ⟨number, r⟩ (spawnRank env req number proto res r error).2 := by
  have failed : ∀ error : Errno, RankDone req.sender proto.rank ⟨number, r⟩
        (none, some (⟨number, r⟩, .answered
          ⟨req.dest, req.sender, error, uint32 (proto.rank + r)⟩)) :=
    fun error => .answered rfl (int32_uint32 _)
  unfold spawnRank
  dsimp only
  split
  · exact failed _
  · next clone cloned =>
      have cloneEq := psTaskClone_some cloned
      set fresh : Task := { clone with
        origin := ⟨number, r⟩
        rank := int32 (uint32 (proto.rank + r) : Nat)
        firstLocal := r = 0 } with freshEq
      have filledKeeps : ∀ filled : Option Errno × Task,
          (if isServiceTask proto.group then (none, fresh)
            else fillTaskFromResInfo fresh res) = filled →
          Keeps fresh filled.2 := by
        intro filled equality
        rw [← equality]
        split
        · exact Keeps.refl fresh
        · exact fillTaskFromResInfo_keeps fresh res
      split
      · exact failed _
      · next task filled =>
          have keeps := filledKeeps _ filled
          split
          · exact failed _
          · split
            · refine .delayed keeps.origin ?_ ?_ ?_
              · rw [keeps.spawnertid, freshEq, cloneEq]
                exact spawner
              · rw [keeps.rank, freshEq]
                exact int32_uint32 _
              · rw [keeps.deleted, freshEq, cloneEq]
                exact alive
            · exact .handed

/-- What the loop of `handleSpawnReq()` has done with some ranks. -/
structure RanksDone (sender : TaskId) (rank : Int) (number : Nat)
    (ranks : List Nat) (result : List Task × List Record) : Prop where
  count : ∀ origin, openCount Task.key origin result.1 + recordCount Prod.fst origin result.2 =
      if origin.request = number then ranks.count origin.index else 0
  tasks : ∀ task ∈ result.1, task.origin.request = number ∧
    task.origin.index ∈ ranks ∧ task.spawnertid = sender ∧
      task.rank = int32 (rank + task.origin.index)
  records : ∀ record ∈ result.2, record.1.request = number ∧
    record.1.index ∈ ranks ∧ record.2.Served ∧
      ∀ myID num, record.2.Suits myID ⟨sender, num, rank⟩ record.1.index

theorem RanksDone.nil (sender : TaskId) (rank : Int) (number : Nat) :
    RanksDone sender rank number [] ([], []) where
  count origin := by simp
  tasks task member := absurd member not_mem_nil
  records record member := absurd member not_mem_nil

theorem Origin.ext_iff' (origin : Origin) (number r : Nat) :
    (⟨number, r⟩ : Origin) = origin ↔ origin.request = number ∧ r = origin.index := by
  cases origin
  simp [eq_comm]

theorem RanksDone.cons {sender : TaskId} {rank : Int} {number r : Nat} {ranks : List Nat}
    {result : List Task × List Record} {action : Action Task Record}
    (done : RanksDone sender rank number ranks result)
    (first : RankDone sender rank ⟨number, r⟩ action) :
    RanksDone sender rank number (r :: ranks)
      (action.1.toList ++ result.1, action.2.toList ++ result.2) := by
  have counted : ∀ origin : Origin,
      openCount Task.key origin action.1.toList + recordCount Prod.fst origin action.2.toList =
        if (⟨number, r⟩ : Origin) = origin then 1 else 0 := by
    intro origin
    cases first with
    | delayed same _ _ alive => simp [Task.key, same, alive]
    | handed => simp
    | answered => simp
  constructor
  · intro origin
    have rest := done.count origin
    have head := counted origin
    simp only [Origin.ext_iff'] at head
    simp only [openCount_append, recordCount_append, count_cons, beq_iff_eq]
    by_cases same : origin.request = number
    · simp only [same, true_and, if_true] at head rest ⊢
      omega
    · simp only [same, false_and, if_false] at head rest ⊢
      omega
  · intro task member
    rcases mem_append.mp member with here | later
    · cases first with
      | delayed same spawner own alive =>
        have equality := mem_singleton.mp here
        subst equality
        rw [same]
        exact ⟨rfl, mem_cons_self, spawner, own⟩
      | handed => exact absurd here not_mem_nil
      | answered => exact absurd here not_mem_nil
    · rcases done.tasks task later with ⟨same, index, rest⟩
      exact ⟨same, mem_cons_of_mem _ index, rest⟩
  · intro record member
    rcases mem_append.mp member with here | later
    · cases first with
      | delayed => exact absurd here not_mem_nil
      | handed =>
        rw [mem_singleton.mp here]
        exact ⟨rfl, mem_cons_self, trivial, fun _ _ => trivial⟩
      | answered dest own =>
        rw [mem_singleton.mp here]
        exact ⟨rfl, mem_cons_self, trivial, fun _ _ => ⟨dest, own⟩⟩
    · rcases done.records record later with ⟨same, index, rest⟩
      exact ⟨same, mem_cons_of_mem _ index, rest⟩

theorem rankLoop_done (env : Env) (req : SpawnReq) (number : Nat) (proto : Task)
    (res : Option ResInfo) (spawner : proto.spawnertid = req.sender)
    (alive : proto.deleted = false) (ranks : List Nat) (error : Option Errno) :
    RanksDone req.sender proto.rank number ranks
      (rankLoop env req number proto res ranks error) := by
  induction ranks generalizing error with
  | nil => exact RanksDone.nil _ _ _
  | cons r rest induction =>
    exact (induction _).cons (spawnRank_done env req number proto res r error spawner alive)

theorem failAll_done (req : SpawnReq) (number : Nat) (rank : Int)
    (error : Errno) :
    RanksDone req.sender rank number (List.range req.num) ([], failAll req number rank error) := by
  unfold failAll
  induction List.range req.num with
  | nil => exact RanksDone.nil _ _ _
  | cons r rest induction =>
    have first : RankDone req.sender rank ⟨number, r⟩
        (none, some (⟨number, r⟩, .answered ⟨req.dest, req.sender, error, uint32 (rank + r)⟩)) :=
      .answered rfl (int32_uint32 _)
    exact induction.cons first

/-! ## The invariant -/

/-- The end suits the delayed task. -/
def Outcome.For (myID : Int) (task : Task) : Outcome → Prop
  | .handed => True
  | .answered msg => msg.dest = task.spawnertid ∧ msg.request = task.rank
  | .lost node => task.spawnertid.getID myID = node
  | .dropped => False

theorem Outcome.For.suits {asked : Asked} {index : Nat} (suits : outcome.For myID task)
    (spawner : task.spawnertid = asked.sender) (own : task.rank = int32 (asked.rank + index)) :
    outcome.Suits myID asked index := by
  cases outcome with
  | handed => trivial
  | answered msg =>
    rcases suits with ⟨dest, request⟩
    refine ⟨dest.trans spawner, ?_⟩
    rw [request, own, int32_int32]
  | lost node =>
    have lost : task.spawnertid.getID myID = node := suits
    rw [spawner] at lost
    exact lost
  | dropped => exact suits.elim

structure Fair (myID : Int) (body : Task → Action Task Record) (task : Task) :
    Prop where
  balanced : Balanced Task.key Prod.fst task (body task)
  keeps : ∀ task', (body task).1 = some task' → task'.deleted = false → Keeps task task'
  suits : ∀ record, (body task).2 = some record →
    task.deleted = false ∧ record.1 = task.origin ∧ record.2.For myID task

theorem key_of_alive (alive : task.deleted = false) : task.key = some task.origin := by
  simp [Task.key, alive]

theorem mem_waiting : task ∈ waiting state ↔ task ∈ state.delayedTasks ∧ task.deleted = false := by
  simp [waiting]

/-- The ranks, with those not asked for having no end either. -/
structure Settled (myID : Int) (state : State) : Prop
    extends RanksAnswered myID state where
  unasked : ∀ origin, (¬ ∃ asked, IsRank state.requests origin asked) →
    openCount Task.key origin state.delayedTasks + recordCount Prod.fst origin state.records = 0

theorem Settled.sweep (settled : Settled myID state)
    (fair : ∀ task ∈ state.delayedTasks, Fair myID body task) :
    Settled myID (sweep body state) := by
  have counts : ∀ origin, openCount Task.key origin (kept body state.delayedTasks) +
          recordCount Prod.fst origin (state.records ++ recorded body state.delayedTasks) =
        openCount Task.key origin state.delayedTasks +
          recordCount Prod.fst origin state.records := by
    intro origin
    have swept := count_sweep (fun task member => (fair task member).balanced) origin
    rw [recordCount_append]
    omega
  refine ⟨⟨?_, ?_, ?_⟩, ?_⟩
  · intro origin asked rank
    exact (counts origin).trans (settled.once origin asked rank)
  · intro task' member
    rcases mem_waiting.mp member with ⟨member, alive⟩
    rcases mem_kept member with ⟨task, earlier, equality⟩
    have keeps := (fair task earlier).keeps task' equality alive
    have aliveBefore : task.deleted = false := keeps.deleted ▸ alive
    rcases settled.stands task (mem_waiting.mpr ⟨earlier, aliveBefore⟩) with
      ⟨asked, rank, spawner, own⟩
    refine ⟨asked, ?_, ?_, ?_⟩
    · rw [keeps.origin]
      exact rank
    · rw [keeps.spawnertid]
      exact spawner
    · rw [keeps.rank, keeps.origin]
      exact own
  · intro record member
    rcases mem_append.mp member with earlier | new
    · exact settled.suits record earlier
    · rcases mem_recorded new with ⟨task, earlier, equality⟩
      rcases (fair task earlier).suits record equality with
        ⟨alive, same, suits⟩
      rcases settled.stands task (mem_waiting.mpr ⟨earlier, alive⟩) with
        ⟨asked, rank, spawner, own⟩
      refine ⟨asked, ?_, ?_⟩
      · rw [same]
        exact rank
      · rw [same]
        exact suits.suits spawner own
  · intro origin unasked
    exact (counts origin).trans (settled.unasked origin unasked)

/-! ## Fair passes -/

theorem Fair.same {task' : Task} (action : body task = (some task', none))
    (keeps : Keeps task task') : Fair myID body task := by
  constructor
  · rw [action]
    apply Balanced.keep
    simp only [Task.key, keeps.deleted, keeps.origin]
  · intro other equality _
    rw [action] at equality
    exact Option.some.inj equality ▸ keeps
  · intro record equality
    rw [action] at equality
    exact absurd equality (by simp)

theorem Fair.take (alive : task.deleted = false)
    (action : body task = (none, some (task.origin, outcome)))
    (suits : outcome.For myID task) : Fair myID body task := by
  constructor
  · rw [action]
    exact .take (key_of_alive alive)
  · intro other equality
    rw [action] at equality
    exact absurd equality (by simp)
  · intro record equality
    rw [action] at equality
    rw [← Option.some.inj equality]
    exact ⟨alive, rfl, suits⟩

theorem Fair.mark {task' : Task} (alive : task.deleted = false)
    (action : body task = (some task', some (task.origin, outcome)))
    (marked : task'.deleted = true) (suits : outcome.For myID task) :
    Fair myID body task := by
  constructor
  · rw [action]
    exact .close (by simp [Task.key, marked]) (key_of_alive alive)
  · intro other equality aliveAfter
    rw [action] at equality
    rw [← Option.some.inj equality, marked] at aliveAfter
    exact absurd aliveAfter (by simp)
  · intro record equality
    rw [action] at equality
    rw [← Option.some.inj equality]
    exact ⟨alive, rfl, suits⟩

inductive Filtering (myID : Int) (task : Task) : Filtered → Prop where
  | pass {task' : Task} (keeps : Keeps task task') : Filtering myID task (.pass task')
  | hold {task' : Task} (keeps : Keeps task task') : Filtering myID task (.hold task')
  | evict {msg : SpawnFailed} (suits : Outcome.For myID task (.answered msg)) :
      Filtering myID task (.evict msg)

theorem startBody_fair {filter : Task → Filtered}
    (filtering : Filtering env.myTID.node task (filter task))
    (starts : Starts env filter state) (member : task ∈ state.delayedTasks) :
    Fair env.myTID.node (startBody env filter) task := by
  by_cases deleted : task.deleted = true
  · exact .same (by simp [startBody, deleted]) (Keeps.refl task)
  have alive : task.deleted = false := by simpa using deleted
  generalize filtered : filter task = result at filtering
  cases filtering with
  | hold keeps => exact .same (by simp [startBody, alive, filtered]) keeps
  | evict suits => exact .take alive (by simp [startBody, alive, filtered]) suits
  | @pass task' keeps =>
    by_cases reasons : task'.delayReasons = 0
    · cases spawned : env.spawnTask task' with
      | none =>
        have suits : Outcome.For env.myTID.node task .handed := trivial
        refine .take alive ?_ suits
        simp [startBody, alive, filtered, reasons, spawned, keeps.origin]
      | some error =>
        have toSpawner : task'.tid = task'.spawnertid := by
          rcases starts task (mem_waiting.mpr ⟨member, alive⟩) task'
              filtered reasons with spawnedWell | same
          · rw [spawned] at spawnedWell
            exact absurd spawnedWell (by simp)
          · exact same
        have suits : Outcome.For env.myTID.node task
            (.answered ⟨env.myTID, task'.tid, error, task'.rank⟩) :=
          ⟨toSpawner.trans keeps.spawnertid, keeps.rank⟩
        refine .take alive ?_ suits
        simp [startBody, alive, filtered, reasons, spawned, keeps.origin]
    · refine .same ?_ keeps
      simp only [startBody, filtered]
      rw [if_neg deleted, if_pos reasons]

theorem PluginFilter.filtering (myID : Int) (filter : PluginFilter)
    (task : Task) : Filtering myID task (filter.filtered task) := by
  unfold PluginFilter.filtered
  dsimp only
  split
  · exact .pass ⟨rfl, rfl, rfl, rfl⟩
  · exact .hold ⟨rfl, rfl, rfl, rfl⟩

variable (myTID : TaskId)

theorem startFilter_filtering (res : ResInfo) (task : Task) :
    Filtering myTID.node task (startFilter myTID res task) := by
  unfold startFilter
  split
  · exact .hold (Keeps.refl task)
  · have keeps := fillTaskFromResInfo_keeps task (some res)
    generalize fillTaskFromResInfo task (some res) = filled at keeps ⊢
    rcases filled with ⟨error, task'⟩
    cases error with
    | some error => exact .evict ⟨keeps.spawnertid, keeps.rank⟩
    | none => exact .pass ⟨keeps.origin, keeps.spawnertid, keeps.rank, keeps.deleted⟩

theorem byNodeBody_fair {node : Int} (agree : task.deleted = false →
      (task.tid.getID myID = node ↔ task.spawnertid.getID myID = node)) :
    Fair myID (byNodeBody myID node) task := by
  by_cases deleted : task.deleted = true
  · by_cases found : task.tid.getID myID = node
    · have action : byNodeBody myID node task = (some { task with deleted := true }, none) := by
        simp [byNodeBody, found, deleted]
      exact .same action ⟨rfl, rfl, rfl, deleted.symm⟩
    · exact .same (by simp [byNodeBody, found]) (Keeps.refl task)
  have alive : task.deleted = false := by simpa using deleted
  by_cases found : task.tid.getID myID = node
  · have suits : Outcome.For myID task (.lost node) := (agree alive).mp found
    have action : byNodeBody myID node task =
        (some { task with deleted := true }, some (task.origin, .lost node)) := by
      simp [byNodeBody, found, alive]
    exact .mark alive action rfl suits
  · exact .same (by simp [byNodeBody, found]) (Keeps.refl task)

attribute [local simp] bySpawnerBody

theorem bySpawnerBody_fair {myTID tid : TaskId}
    (agree : task.deleted = false → (task.tid = tid ↔ task.spawnertid = tid)) :
    Fair myTID.node (bySpawnerBody myTID tid) task := by
  by_cases deleted : task.deleted = true
  · exact .same (by simp [deleted]) (Keeps.refl task)
  have alive : task.deleted = false := by simpa using deleted
  by_cases found : task.tid = tid
  · have dest : task.tid = task.spawnertid :=
      found.trans ((agree alive).mp found).symm
    have suits : Outcome.For myTID.node task
        (.answered ⟨myTID, task.tid, .echild, task.rank⟩) := ⟨dest, rfl⟩
    have action : bySpawnerBody myTID tid task =
        (some { task with deleted := true, cpuSet := ∅ },
          some (task.origin, .answered ⟨myTID, task.tid, .echild, task.rank⟩)) := by
      simp [alive, found]
    exact .mark alive action rfl suits
  · exact .same (by simp [alive, found]) (Keeps.refl task)

/-- A cleanup whose filter finds no task changes the delay reasons at most. -/
theorem cleanupBody_fair {filter : PluginFilter}
    (passed : task.deleted = false → (filter task).1 = false) :
    Fair myID (cleanupBody filter) task := by
  by_cases deleted : task.deleted = true
  · exact .same (by simp [cleanupBody, deleted]) (Keeps.refl task)
  have alive : task.deleted = false := by simpa using deleted
  have action : cleanupBody filter task =
      (some { task with delayReasons := (filter task).2 }, none) := by
    simp [cleanupBody, alive, passed alive]
  exact .same action ⟨rfl, rfl, rfl, rfl⟩

theorem cleanupSpawn_fair (myID : Int) (task : Task) :
    Fair myID (fun task => if task.deleted then (none, none)
      else (some task, none)) task := by
  by_cases deleted : task.deleted = true
  · have action : (if task.deleted then (none, none)
        else (some task, none) : Action Task Record) = (none, none) :=
      if_pos deleted
    constructor
    · rw [action]
      exact .discard (by simp [Task.key, deleted])
    · intro task' equality
      rw [action] at equality
      exact absurd equality (by simp)
    · intro record equality
      rw [action] at equality
      exact absurd equality (by simp)
  · exact .same (if_neg deleted) (Keeps.refl task)

/-! ## Requests and reservations -/

theorem Settled.withSessions (settled : Settled myID state)
    (sessions : List Session) :
    Settled myID { state with sessions := sessions } :=
  ⟨⟨settled.once, settled.stands, settled.suits⟩, settled.unasked⟩

theorem sweep_same
    (same : ∀ task ∈ state.delayedTasks, body task = (some task, none)) :
    sweep body state = state := by
  have kept : kept body state.delayedTasks = state.delayedTasks := by
    unfold kept
    rw [filterMap_congr (fun task member => congrArg Prod.fst (same task member))]
    exact filterMap_some
  have recorded : recorded body state.delayedTasks = [] := by
    unfold recorded
    rw [filterMap_congr (fun task member => congrArg Prod.snd (same task member))]
    exact filterMap_none _
  rw [sweep, kept, recorded, append_nil]

/-- Giving up reservations no task waits for leaves the tasks alone. -/
theorem foldr_putResinfo {resIDs : List Int}
    (unawaited : Unawaited state resIDs) :
    resIDs.foldr putResinfo state = state := by
  induction resIDs with
  | nil => rfl
  | cons resID rest induction =>
    have earlier : rest.foldr putResinfo state = state := by
      refine induction (fun task member awaited => ?_)
      exact unawaited task member (mem_cons_of_mem _ awaited)
    rw [foldr_cons, earlier]
    apply sweep_same
    intro task member
    by_cases deleted : task.deleted = true
    · simp [cleanupBody, deleted]
    have alive : task.deleted = false := by simpa using deleted
    have other : task.resID ≠ resID := by
      intro equality
      exact unawaited task (mem_waiting.mpr ⟨member, alive⟩) (equality ▸ mem_cons_self)
    simp only [cleanupBody, cleanupFilter, if_pos other]
    exact if_neg deleted

theorem Settled.ask {sender : TaskId} {num : Nat} {rank : Int}
    {result : List Task × List Record} (settled : Settled myID state)
    (done : RanksDone sender rank state.requests.length (List.range num) result) :
    Settled myID { state with
      requests := state.requests ++ [⟨sender, num, rank⟩]
      delayedTasks := state.delayedTasks ++ result.1
      records := state.records ++ result.2 } := by
  have earlier : ∀ origin asked, IsRank state.requests origin asked →
      IsRank (state.requests ++ [⟨sender, num, rank⟩]) origin asked ∧
        origin.request ≠ state.requests.length := by
    rintro origin asked ⟨found, index⟩
    have bound := (List.getElem?_eq_some_iff.mp found).1
    refine ⟨⟨?_, index⟩, Nat.ne_of_lt bound⟩
    rw [List.getElem?_append_left bound]
    exact found
  have last : ∀ origin : Origin, origin.request = state.requests.length → origin.index ∈ List.range
      num → IsRank (state.requests ++ [⟨sender, num, rank⟩]) origin ⟨sender, num, rank⟩ := by
    intro origin same index
    refine ⟨?_, mem_range.mp index⟩
    rw [same, List.getElem?_append_right (le_refl _), Nat.sub_self]
    rfl
  have counted := done.count
  simp only [count_range] at counted
  refine ⟨⟨?_, ?_, ?_⟩, ?_⟩
  · intro origin asked rankOf
    have count := counted origin
    by_cases same : origin.request = state.requests.length
    · have before := settled.unasked origin (by
        rintro ⟨other, isRank⟩
        exact (earlier origin other isRank).2 same)
      have bound : origin.index < num := by
        rcases rankOf with ⟨found, index⟩
        rw [same, List.getElem?_append_right (le_refl _), Nat.sub_self] at found
        cases found
        exact index
      rw [if_pos same, if_pos bound] at count
      simp only [openCount_append, recordCount_append]
      omega
    · have before := settled.once origin asked (by
        rcases rankOf with ⟨found, index⟩
        have bound := (List.getElem?_eq_some_iff.mp found).1
        rw [List.length_append, List.length_singleton] at bound
        rw [List.getElem?_append_left (by omega)] at found
        exact ⟨found, index⟩)
      rw [if_neg same] at count
      simp only [openCount_append, recordCount_append]
      omega
  · intro task member
    rcases mem_waiting.mp member with ⟨member, alive⟩
    rcases mem_append.mp member with before | new
    · rcases settled.stands task (mem_waiting.mpr ⟨before, alive⟩) with
        ⟨asked, isRank, rest⟩
      exact ⟨asked, (earlier task.origin asked isRank).1, rest⟩
    · rcases done.tasks task new with ⟨same, index, spawner, own⟩
      exact ⟨_, last task.origin same index, spawner, own⟩
  · intro record member
    rcases mem_append.mp member with before | new
    · rcases settled.suits record before with ⟨asked, isRank, suits⟩
      exact ⟨asked, (earlier record.1 asked isRank).1, suits⟩
    · rcases done.records record new with ⟨same, index, _, suits⟩
      exact ⟨_, last record.1 same index, suits myID num⟩
  · intro origin unasked
    have before := settled.unasked origin (by
      rintro ⟨other, isRank⟩
      exact unasked ⟨other, (earlier origin other isRank).1⟩)
    have count := counted origin
    have none : (if origin.request = state.requests.length then
        if origin.index < num then 1 else 0 else 0) = 0 := by
      by_cases same : origin.request = state.requests.length
      · rw [if_pos same]
        refine if_neg (fun bound => unasked ?_)
        exact ⟨_, last origin same (mem_range.mpr bound)⟩
      · exact if_neg same
    rw [none] at count
    simp only [openCount_append, recordCount_append]
    omega

theorem handleSpawnReq_done (env : Env) (req : SpawnReq) (state : State) :
    (∃ rejected, handleSpawnReq env req state = { state with rejected := rejected }) ∨
    ∃ rank result, RanksDone req.sender rank state.requests.length (List.range req.num) result ∧
      handleSpawnReq env req state = { state with
        requests := state.requests ++ [⟨req.sender, req.num, rank⟩]
        delayedTasks := state.delayedTasks ++ result.1
        records := state.records ++ result.2 } := by
  unfold handleSpawnReq
  cases decoded : req.task with
  | none => exact .inl ⟨_, rfl⟩
  | some task =>
    have failed := fun error => failAll_done req state.requests.length task.rank error
    refine .inr ⟨task.rank, ?_⟩
    dsimp only
    split
    · refine ⟨_, failed .ebadmsg, ?_⟩
      rw [append_nil]
    · split
      · refine ⟨_, failed .einval, ?_⟩
        rw [append_nil]
      · next delayReasons _ =>
          let proto := prototype req state.requests.length task
          exact ⟨_, rankLoop_done env req state.requests.length
            { proto with
              delayReasons := delayReasons
              cpuSet :=
                if isServiceTask proto.group then allCPUs
                else proto.cpuSet } _ rfl rfl (List.range req.num) none, rfl⟩

theorem handleSpawnReq_settled (env : Env) (req : SpawnReq)
    (settled : Settled myID state) :
    Settled myID (handleSpawnReq env req state) := by
  rcases handleSpawnReq_done env req state with
    ⟨rejected, after⟩ | ⟨rank, result, done, after⟩
  · rw [after]
    exact ⟨⟨settled.once, settled.stands, settled.suits⟩, settled.unasked⟩
  · rw [after]
    exact settled.ask done

theorem handle_settled {event : Event} (settled : Settled env.myTID.node state)
    (meets : EventMeets env state event) :
    Settled env.myTID.node (handle env event state) := by
  cases event with
  | spawnReq req => exact handleSpawnReq_settled env req settled
  | resCreated flags rData =>
    have same := foldr_putResinfo meets
    simp only [handle, msgResCreated, same]
    exact settled.withSessions _
  | resSlots flags numThrds rData =>
    have same := foldr_putResinfo meets.1
    simp only [handle, msgResSlots, same]
    have stored := settled.withSessions (handleResSlots flags numThrds rData state.sessions)
    cases filled : filledRes flags numThrds rData state.sessions with
    | none => exact stored
    | some res =>
      exact stored.sweep (fun task member =>
        startBody_fair (startFilter_filtering env.myTID res task) (meets.2 res filled) member)
  | resReleased sessionID jobID resID =>
    have same := foldr_putResinfo meets
    simp only [handle, msgResReleased, same]
    exact settled.withSessions _
  | resCleanup sender =>
    have same := foldr_putResinfo meets
    simp only [handle, msgResCleanup, same]
    exact settled.withSessions _
  | startDelayedTasks filter =>
    exact settled.sweep (fun task member => startBody_fair (filter.filtering _ task) meets member)
  | cleanupDelayedTasks filter =>
    exact settled.sweep (fun task member =>
      cleanupBody_fair (fun alive => meets task (mem_waiting.mpr ⟨member, alive⟩)))
  | cleanupByNode node =>
    exact settled.sweep (fun task member =>
      byNodeBody_fair (fun alive => meets task (mem_waiting.mpr ⟨member, alive⟩)))
  | cleanupBySpawner tid =>
    exact settled.sweep (fun task member =>
      bySpawnerBody_fair (fun alive => meets task (mem_waiting.mpr ⟨member, alive⟩)))
  | cleanupSpawnTasks => exact settled.sweep (fun task _ => cleanupSpawn_fair _ task)

/-! ## What is removed -/

/-- Requests are only added, and what leaves was handed over or answered. -/
structure Serves (before after : State) : Prop where
  asked : ∃ more, after.requests = before.requests ++ more
  served : ∃ new, after.records = before.records ++ new ∧ ∀ record ∈ new, record.2.Served

theorem Serves.refl (state : State) : Serves state state :=
  ⟨⟨[], (append_nil _).symm⟩, [], (append_nil _).symm, fun _ member => absurd member not_mem_nil⟩

theorem serves_sweep {body : Task → Action Task Record} {state : State}
    (served : ∀ task ∈ state.delayedTasks, ∀ record,
      (body task).2 = some record → record.2.Served) :
    Serves state (sweep body state) := by
  refine ⟨⟨[], (append_nil _).symm⟩, _, rfl, ?_⟩
  intro record member
  rcases mem_recorded member with ⟨task, earlier, equality⟩
  exact served task earlier record equality

theorem startBody_served {filter : Task → Filtered} {record : Record}
    (recorded : (startBody env filter task).2 = some record) :
    record.2.Served := by
  unfold startBody at recorded
  split at recorded
  · exact absurd recorded (by simp)
  · split at recorded
    · exact absurd recorded (by simp)
    · rw [← Option.some.inj recorded]
      trivial
    · split at recorded
      · exact absurd recorded (by simp)
      · split at recorded
        · rw [← Option.some.inj recorded]
          trivial
        · rw [← Option.some.inj recorded]
          trivial

theorem serves_spawnReq (env : Env) (req : SpawnReq) (state : State) :
    Serves state (handleSpawnReq env req state) := by
  rcases handleSpawnReq_done env req state with
    ⟨rejected, after⟩ | ⟨rank, result, done, after⟩
  · rw [after]
    exact ⟨(Serves.refl state).asked, (Serves.refl state).served⟩
  · rw [after]
    exact ⟨⟨_, rfl⟩, _, rfl, fun record member => (done.records record member).2.2.1⟩

theorem Serves.removes {before after : State} (serves : Serves before after)
    (settled : Settled myID before) (settled' : Settled myID after) :
    ∀ task ∈ waiting before, task.origin ∈ (waiting after).map Task.origin ∨
        ∃ outcome, (task.origin, outcome) ∈ after.records ∧ outcome.Served := by
  intro task member
  rcases settled.stands task member with ⟨asked, isRank, _⟩
  rcases serves.asked with ⟨more, requests⟩
  rcases serves.served with ⟨new, records, served⟩
  rcases mem_waiting.mp member with ⟨delayed, alive⟩
  have counted := settled.once task.origin asked isRank
  have open' : 0 < openCount Task.key task.origin before.delayedTasks := by
    refine countP_pos_iff.mpr ⟨task, delayed, ?_⟩
    simp [Task.key, alive]
  have isRank' : IsRank after.requests task.origin asked := by
    refine ⟨?_, isRank.2⟩
    rw [requests, List.getElem?_append_left (List.getElem?_eq_some_iff.mp isRank.1).1]
    exact isRank.1
  have counted' := settled'.once task.origin asked isRank'
  rw [records, recordCount_append] at counted'
  by_cases still : 0 < openCount Task.key task.origin after.delayedTasks
  · left
    rcases countP_pos_iff.mp still with ⟨task', found, key⟩
    have same : task'.key = some task.origin := by simpa using key
    unfold Task.key at same
    split at same
    · exact absurd same (by simp)
    · next undeleted =>
        exact mem_map.mpr ⟨task', mem_waiting.mpr
          ⟨found, by simpa using undeleted⟩, Option.some.inj same⟩
  · right
    have recorded : 0 < recordCount Prod.fst task.origin new := by omega
    rcases countP_pos_iff.mp recorded with ⟨record, found, key⟩
    have same : record.1 = task.origin := by simpa using key
    refine ⟨record.2, ?_, served record found⟩
    rw [records, ← same]
    exact mem_append_right _ found

theorem waiting_kept {stays : Task → Bool} {tasks : List Task}
    (marks : ∀ task ∈ tasks, ∃ task', (body task).1 = some task' ∧
      if task.deleted = false ∧ stays task then task' = task
      else task'.deleted = true) :
    (kept body tasks).filter (fun task => !task.deleted) =
      (tasks.filter (fun task => !task.deleted)).filter stays := by
  induction tasks with
  | nil => rfl
  | cons task tasks induction =>
    have rest := induction (fun other member => marks other (mem_cons_of_mem _ member))
    rcases marks task mem_cons_self with ⟨task', action, mark⟩
    unfold kept at rest ⊢
    simp only [filterMap_cons, action]
    by_cases stay : task.deleted = false ∧ stays task
    · rw [if_pos stay] at mark
      rw [mark, filter_cons_of_pos (by simp [stay.1]),
        filter_cons_of_pos (by simp [stay.1]),
        filter_cons_of_pos stay.2, rest]
    · rw [if_neg stay] at mark
      rw [filter_cons_of_neg (by simp [mark]), rest]
      by_cases alive : task.deleted = false
      · have gone : ¬ stays task = true := fun stays => stay ⟨alive, stays⟩
        rw [filter_cons_of_pos (by simp [alive]), filter_cons_of_neg gone]
      · rw [filter_cons_of_neg (by simpa using alive)]

theorem waiting_cleanupByNode {node : Int}
    (meets : EventMeets env state (.cleanupByNode node)) :
    waiting (cleanupByNode env node state) =
      (waiting state).filter (fun task => task.spawnertid.getID env.myTID.node ≠ node) := by
  apply waiting_kept
  intro task member
  have agree := fun alive => meets task (mem_waiting.mpr ⟨member, alive⟩)
  by_cases found : task.tid.getID env.myTID.node = node
  · refine ⟨{ task with deleted := true }, by simp [byNodeBody, found], ?_⟩
    rw [if_neg]
    rintro ⟨alive, stays⟩
    simp [(agree alive).mp found] at stays
  · refine ⟨task, by simp [byNodeBody, found], ?_⟩
    by_cases alive : task.deleted = false
    · have other : task.spawnertid.getID env.myTID.node ≠ node :=
        fun same => found ((agree alive).mpr same)
      rw [if_pos ⟨alive, by simpa using other⟩]
    · rw [if_neg (fun both => alive both.1)]
      simpa using alive

theorem waiting_cleanupBySpawner {tid : TaskId}
    (meets : EventMeets env state (.cleanupBySpawner tid)) :
    waiting (cleanupBySpawner env tid state) =
      (waiting state).filter (fun task => task.spawnertid ≠ tid) := by
  apply waiting_kept
  intro task member
  by_cases alive : task.deleted = false
  · have agree := meets task (mem_waiting.mpr ⟨member, alive⟩)
    by_cases found : task.tid = tid
    · refine ⟨{ task with deleted := true, cpuSet := ∅ }, by simp [alive, found], ?_⟩
      rw [if_neg]
      rintro ⟨_, stays⟩
      simp [agree.mp found] at stays
    · have other : task.spawnertid ≠ tid := fun same => found (agree.mpr same)
      refine ⟨task, by simp [alive, found], ?_⟩
      rw [if_pos ⟨alive, by simpa using other⟩]
  · have deleted : task.deleted = true := by simpa using alive
    refine ⟨task, by simp [deleted], ?_⟩
    rw [if_neg (fun both => alive both.1)]
    exact deleted

theorem handle_removes {event : Event} (settled : Settled env.myTID.node state)
    (meets : EventMeets env state event) :
    RemovesExactly env.myTID.node event state (handle env event state) := by
  have settled' := handle_settled settled meets
  cases event with
  | spawnReq req => exact (serves_spawnReq env req state).removes settled settled'
  | resCreated flags rData =>
    refine Serves.removes ?_ settled settled'
    simp only [handle, msgResCreated, foldr_putResinfo meets]
    exact ⟨(Serves.refl state).asked, (Serves.refl state).served⟩
  | resSlots flags numThrds rData =>
    refine Serves.removes ?_ settled settled'
    simp only [handle, msgResSlots, foldr_putResinfo meets.1]
    cases filledRes flags numThrds rData state.sessions with
    | none => exact ⟨(Serves.refl state).asked, (Serves.refl state).served⟩
    | some res =>
      have served := @serves_sweep (startBody env (startFilter env.myTID res)) state
        (fun _ _ _ => startBody_served)
      exact ⟨served.asked, served.served⟩
  | resReleased sessionID jobID resID =>
    refine Serves.removes ?_ settled settled'
    simp only [handle, msgResReleased, foldr_putResinfo meets]
    exact ⟨(Serves.refl state).asked, (Serves.refl state).served⟩
  | resCleanup sender =>
    refine Serves.removes ?_ settled settled'
    simp only [handle, msgResCleanup, foldr_putResinfo meets]
    exact ⟨(Serves.refl state).asked, (Serves.refl state).served⟩
  | startDelayedTasks filter =>
    exact (serves_sweep (fun _ _ _ => startBody_served)).removes settled settled'
  | cleanupDelayedTasks filter =>
    refine (serves_sweep ?_).removes settled settled'
    intro task member record recorded
    by_cases deleted : task.deleted = true
    · simp [cleanupBody, deleted] at recorded
    have alive : task.deleted = false := by simpa using deleted
    have passed := meets task (mem_waiting.mpr ⟨member, alive⟩)
    simp [cleanupBody, alive, passed] at recorded
  | cleanupByNode node => exact waiting_cleanupByNode meets
  | cleanupBySpawner tid => exact waiting_cleanupBySpawner meets
  | cleanupSpawnTasks =>
    refine (serves_sweep ?_).removes settled settled'
    intro task _ record recorded
    by_cases deleted : task.deleted = true
    · simp [deleted] at recorded
    · simp [deleted] at recorded

/-! ## All runs -/

theorem Fresh.settled (fresh : Fresh state) (myID : Int) : Settled myID state := by
  refine ⟨⟨?_, ?_, ?_⟩, ?_⟩
  · rintro origin asked ⟨found, _⟩
    rw [fresh.requests] at found
    exact absurd found (by simp)
  · intro task member
    rw [waiting, fresh.delayedTasks] at member
    exact absurd member not_mem_nil
  · intro record member
    rw [fresh.records] at member
    exact absurd member not_mem_nil
  · intro origin _
    rw [fresh.delayedTasks, fresh.records]
    rfl

theorem settled_invariant : Invariant (spawnRuns myTID) (Settled myTID.node) where
  initial state fresh := Fresh.settled fresh _
  step before after settled step := by
    rcases step with ⟨env, event, own, meets, same⟩
    subst own
    rw [← same]
    exact handle_settled settled meets

/-- In every run whose events meet the condition each rank of a request waits,
or was handed to `spawnTask()` or answered once, and cleanups remove the tasks
they are called for. -/
theorem spawn_ranks_answered {myTID : TaskId} {state : State}
    (reachable : (spawnRuns myTID).Reachable state) :
    RanksAnswered myTID.node state ∧ ∀ env event, env.myTID = myTID → EventMeets env state event →
        RemovesExactly myTID.node event state (handle env event state) := by
  have settled := (settled_invariant myTID).reachable reachable
  refine ⟨settled.toRanksAnswered, ?_⟩
  intro env event own meets
  subst own
  exact handle_removes settled meets

/-! ## A service task delayed by a plugin -/

def serviceReq : SpawnReq where
  sender := ⟨2, 7⟩
  dest := ⟨1, 0⟩
  num := 1
  task := some ⟨⟨2, 7⟩, ⟨2, 5⟩, .service, 0, -2⟩
  argV := ["kvsprovider"]
  unpacked := true

def idle : State := ⟨[], [], [], [], []⟩

/-- A daemon whose plugin delays all tasks and whose forwarders start or not. -/
def delayingEnv (spawned : Option Errno) : Env where
  myTID := ⟨1, 0⟩
  recvSpawnReq _ := some delayPsslurm
  memory _ := true
  spawnTask _ := spawned

def delayedOnce (spawned : Option Errno) : State :=
  handle (delayingEnv spawned) (.spawnReq serviceReq) idle

def startedOnce (spawned : Option Errno) : State :=
  handle (delayingEnv spawned) (.startDelayedTasks (fun _ => (true, 0))) (delayedOnce spawned)

theorem spawn_ranks_answered_service : RanksAnswered 1 (startedOnce none) ∧
      ∀ env event, env.myTID = ⟨1, 0⟩ → EventMeets env (startedOnce none) event →
          RemovesExactly 1 event (startedOnce none) (handle env event (startedOnce none)) := by
  have received : (spawnRuns ⟨1, 0⟩).Reachable (delayedOnce none) :=
    .step (.initial ⟨rfl, rfl, rfl⟩) ⟨delayingEnv none, .spawnReq serviceReq, rfl, trivial, rfl⟩
  have starts : Starts (delayingEnv none)
      (PluginFilter.filtered (fun _ => (true, 0))) (delayedOnce none) :=
    fun _ _ _ _ _ => .inl rfl
  exact spawn_ranks_answered (.step received
    ⟨delayingEnv none, .startDelayedTasks _, rfl, starts, rfl⟩)

theorem not_spawn_ranks_answered :
    ¬ ∀ myTID state, (allSpawnRuns myTID).Reachable state → RanksAnswered myTID.node state := by
  intro claim
  have received : (allSpawnRuns ⟨1, 0⟩).Reachable (delayedOnce (some (.other 11))) :=
    .step (.initial ⟨rfl, rfl, rfl⟩)
      ⟨delayingEnv (some (.other 11)), .spawnReq serviceReq, rfl, rfl⟩
  have answered := claim _ _ (.step received
    ⟨delayingEnv (some (.other 11)), .startDelayedTasks (fun _ => (true, 0)), rfl, rfl⟩)
  have records : (startedOnce (some (.other 11))).records =
      [(⟨0, 0⟩, .answered ⟨⟨1, 0⟩, ⟨0, 0⟩, .other 11, -2⟩)] := by decide
  have requests : (startedOnce (some (.other 11))).requests = [⟨⟨2, 7⟩, 1, -2⟩] := rfl
  rcases answered.suits _ (records ▸ mem_singleton_self _) with
    ⟨asked, ⟨found, _⟩, dest, _⟩
  have sender := Option.some.inj (found.symm.trans (congrArg (fun asked => asked[0]?) requests))
  rw [sender] at dest
  exact absurd dest (by decide)

end Psmgmt.Spawn
