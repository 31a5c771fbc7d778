import Psmgmt.Common.ItemPool
import Psmgmt.Partition.Distribution

/-!
# The tree of sessions

Sessions, jobs and reservation infos as `psidsession.c` keeps them in its three
pools.  The list whose head lies in a session or a job is named by its place
among the lists of the pool its members come from.
-/

namespace Psmgmt.Session

open Items Partition

/-- `PSresslot_t`; `none` stands for memory not set from anything. -/
structure LocalSlot where
  rank : Option Int
  cpuSet : Option CPUSet
  deriving DecidableEq

/-- What `PSresinfo_t` holds beside its place in a list. -/
structure ResInfo where
  resID : Int
  creation : Int
  partHolder : TaskId
  rankOffset : Nat
  minRank : Int
  maxRank : Int
  nEntries : Nat
  entries : Option (List ResInfoEntry)
  nLocalSlots : Nat
  localSlots : Option (List LocalSlot)
  deriving DecidableEq

/-- The memory of a new chunk is cleared. -/
instance : Inhabited ResInfo := ⟨⟨0, 0, noTid, 0, 0, 0, 0, none, 0, none⟩⟩

/-- `PSjob_t`. -/
structure JobItem where
  ID : TaskId
  sessID : TaskId
  creation : Int
  extraData : Option (List String)
  resInfos : Nat

instance : Inhabited JobItem := ⟨⟨noTid, noTid, 0, none, 0⟩⟩

/-- `PSsession_t`. -/
structure SessionItem where
  ID : TaskId
  creation : Int
  jobs : Nat

instance : Inhabited SessionItem := ⟨⟨noTid, 0, 0⟩⟩

/-- The first list of the session pool is `localSessions`. -/
structure Pools where
  resinfoPool : Pool ResInfo
  jobPool : Pool JobItem
  sessionPool : Pool SessionItem

/-- Memory for new chunks of the three pools. -/
structure Mallocs where
  resinfo : Malloc ResInfo
  job : Malloc JobItem
  session : Malloc SessionItem

/-! ## Garbage collection -/

/-- `__list_add()` between the neighbours of the original; the first word
behind the list pointers is the one the pool takes for the item's state. -/
def takePlace {α : Type} (orig repl : Item) (word : Int) (content : α) (pool : Pool α) : Pool α :=
  { setState repl word pool with
    content := Function.update pool.content repl content
    lists := pool.lists.map (fun items =>
      items.map (fun item => if item = orig then repl else item)) }

def relocResinfo (malloc : Malloc ResInfo) : Reloc ResInfo :=
  fun pool item =>
    let orig := pool.content item
    match getItem malloc pool with
    | (none, pool) => (false, pool)
    | (some repl, pool) =>
      (true, takePlace item repl orig.resID
        { pool.content repl with
          resID := orig.resID
          partHolder := orig.partHolder
          rankOffset := orig.rankOffset
          minRank := orig.minRank
          maxRank := orig.maxRank
          nEntries := orig.nEntries
          entries := orig.entries }
        pool)

/-- The list of reservations gets the head in the replacement. -/
def relocJob (malloc : Malloc JobItem) : Reloc JobItem :=
  fun pool item =>
    let orig := pool.content item
    match getItem malloc pool with
    | (none, pool) => (false, pool)
    | (some repl, pool) =>
      (true, takePlace item repl orig.ID.pid
        { pool.content repl with ID := orig.ID, resInfos := orig.resInfos }
        pool)

def relocSession (malloc : Malloc SessionItem) : Reloc SessionItem :=
  fun pool item =>
    let orig := pool.content item
    match getItem malloc pool with
    | (none, pool) => (false, pool)
    | (some repl, pool) =>
      (true, takePlace item repl orig.ID.pid
        { pool.content repl with ID := orig.ID, jobs := orig.jobs } pool)

/-- What `PSIDsession_gc()` does with one pool. -/
def collect {α : Type} (relocItem : Reloc α) (fuel : Nat) (pool : Pool α) : Pool α :=
  if !gcRequired pool then gc relocItem fuel pool else pool

/-- `PSIDsession_gc()`; the fuel bounds the chunks visited in a pool. -/
def psidSessionGc (mallocs : Mallocs) (fuel : Nat) (pools : Pools) : Pools where
  resinfoPool := collect (relocResinfo mallocs.resinfo) fuel pools.resinfoPool
  jobPool := collect (relocJob mallocs.job) fuel pools.jobPool
  sessionPool := collect (relocSession mallocs.session) fuel pools.sessionPool

/-! ## The tree without addresses -/

structure Job where
  ID : TaskId
  sessID : TaskId
  creation : Int
  extraData : Option (List String)
  resInfos : List ResInfo
  deriving DecidableEq

structure Session where
  ID : TaskId
  creation : Int
  jobs : List Job
  deriving DecidableEq

namespace Pools

/-- The items of a list, from the first to the last. -/
def members {α : Type} (pool : Pool α) (list : Nat) : List α :=
  (pool.lists.getD list []).map pool.content

def job (pools : Pools) (item : JobItem) : Job where
  ID := item.ID
  sessID := item.sessID
  creation := item.creation
  extraData := item.extraData
  resInfos := members pools.resinfoPool item.resInfos

def session (pools : Pools) (item : SessionItem) : Session where
  ID := item.ID
  creation := item.creation
  jobs := (members pools.jobPool item.jobs).map pools.job

def tree (pools : Pools) : List Session := (members pools.sessionPool 0).map pools.session

end Pools

/-! ## What is collected -/

/-- A pool that needs it loses a chunk, or needs it no longer. -/
def Collected {α : Type} (before after : Pool α) : Prop :=
  gcRequired before = true → gcRequired after = false ∨ after.chunks.length < before.chunks.length

/-- Garbage is collected without touching the tree. -/
structure Collects (before after : Pools) : Prop where
  tree : after.tree = before.tree
  resinfo : Collected before.resinfoPool after.resinfoPool
  job : Collected before.jobPool after.jobPool
  session : Collected before.sessionPool after.sessionPool

theorem gc_unrequired {α : Type} (relocItem : Reloc α) (fuel : Nat)
    {pool : Pool α} (unrequired : gcRequired pool = false) :
    gc relocItem fuel pool = pool := by
  rw [gc, unrequired]
  rfl

/-- A pool that is handed to `PSitems_gc()` does not need it. -/
theorem collect_eq {α : Type} (relocItem : Reloc α) (fuel : Nat)
    (pool : Pool α) : collect relocItem fuel pool = pool := by
  rw [collect]
  split
  · rename_i unrequired
    apply gc_unrequired
    rwa [Bool.not_eq_true'] at unrequired
  · rfl

theorem psidSessionGc_eq (mallocs : Mallocs) (fuel : Nat) (pools : Pools) :
    psidSessionGc mallocs fuel pools = pools := by
  rw [psidSessionGc, collect_eq, collect_eq, collect_eq]

theorem collected_self_iff {α : Type} (pool : Pool α) :
    Collected pool pool ↔ gcRequired pool = false := by
  constructor
  · intro collected
    by_contra required
    rw [Bool.not_eq_false] at required
    rcases collected required with ended | fewer
    · rw [required] at ended
      exact nomatch ended
    · exact lt_irrefl _ fewer
  · intro unrequired required
    rw [unrequired] at required
    exact nomatch required

/-- No pool needs garbage collection. -/
structure NothingToCollect (pools : Pools) : Prop where
  resinfo : gcRequired pools.resinfoPool = false
  job : gcRequired pools.jobPool = false
  session : gcRequired pools.sessionPool = false

theorem collects_iff (mallocs : Mallocs) (fuel : Nat) (pools : Pools) :
    Collects pools (psidSessionGc mallocs fuel pools) ↔ NothingToCollect pools := by
  rw [psidSessionGc_eq]
  constructor
  · intro collects
    exact ⟨(collected_self_iff _).mp collects.resinfo,
      (collected_self_iff _).mp collects.job,
      (collected_self_iff _).mp collects.session⟩
  · intro nothing
    exact ⟨rfl, (collected_self_iff _).mpr nothing.resinfo,
      (collected_self_iff _).mpr nothing.job,
      (collected_self_iff _).mpr nothing.session⟩

def unusedPool {α : Type} [Inhabited α] (iPC chunks : Nat) : Pool α where
  iPC := iPC
  avail := chunks * iPC
  used := 0
  chunks := List.range chunks
  idleItems := (List.range chunks).flatMap (chunkItems iPC)
  state := fun _ => itemIdle
  content := fun _ => default
  lists := [[]]
  freed := []

/-- All sessions of three chunks have gone. -/
def leftBehind : Pools where
  resinfoPool := unusedPool 1639 0
  jobPool := unusedPool 2048 0
  sessionPool := unusedPool 2731 3

theorem leftBehind_not_collected : ¬∀ (mallocs : Mallocs) (fuel : Nat) (pools : Pools),
      Collects pools (psidSessionGc mallocs fuel pools) := by
  intro collects
  have collected := (collects ⟨fun _ => none, fun _ => none, fun _ => none⟩ 3 leftBehind).session
  rw [psidSessionGc_eq, collected_self_iff] at collected
  exact absurd collected (by decide)

end Psmgmt.Session
