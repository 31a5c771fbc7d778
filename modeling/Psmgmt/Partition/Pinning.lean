import Psmgmt.Partition.Reserve
import Psmgmt.Partition.Usage
import Psmgmt.Library.Transition

/-!
# The HW-threads of a task

Over the runs of a task its HW-threads are accounted for; without overbooking
each belongs to one slot at most.
-/

namespace Psmgmt.Partition

open TransitionSystem
open List hiding drop_take

/-! ## Runs -/

/-- The slots in reservations that were not handed out yet. -/
def unusedSlots (reservations : List Reservation) : List Slot :=
  reservations.flatMap Reservation.unused

/-- A task, the slots handed out and not yet released, and whether a request
carried `PART_OPT_OVERBOOK`. -/
structure Ledger where
  task : Task
  out : List Slot
  overbooked : Bool

def Ledger.live (ledger : Ledger) : List Slot := unusedSlots ledger.task.reservations ++ ledger.out

/-- The HW-threads used are counted and without overbooking nobody shares. -/
structure Balanced (ledger : Ledger) : Prop where
  used : ledger.task.pool.usedThreads =
    ∑ t ∈ Finset.range ledger.task.pool.totalThreads, (ledger.task.pool.partThrds t).timesUsed
  low : ∀ t < ledger.task.pool.totalThreads, 0 ≤ (ledger.task.pool.partThrds t).timesUsed
  single : ledger.overbooked = false → ∀ t < ledger.task.pool.totalThreads,
      (ledger.task.pool.partThrds t).timesUsed ≤ 1 ∧
        hits (ledger.task.pool.partThrds t) ledger.live ≤ 1

def Event.overbook (task : Task) : Event → Bool
  | .getReservation request msg =>
    msg.options.overbook || (takeUp task request msg).1.options.overbook
  | _ => false

def Sent.slots : Sent → List Slot
  | .slotsRes _ _ _ slots => slots
  | _ => []

/-- The slots handed out between two states. -/
def handedOut (before after : Task) : List Slot :=
  (after.sent.drop before.sent.length).flatMap Sent.slots

/-- The message releases HW-threads of slots that were handed out. -/
def Releases (msg : ChildResRel) (before after : List Slot) : Prop :=
  ∃ given : List Slot, before.Perm (given ++ after) ∧
    ∀ set ∈ msg.cpuSets, ∀ cpu ∈ set, ∃ slot ∈ given, slot.node = msg.node ∧ cpu ∈ slot.cpuSet

def Handed (event : Event) (before after : Ledger) : Prop :=
  match event with
  | .getSlots _ => after.out = before.out ++ handedOut before.task after.task
  | .childResRel msg => Releases msg before.out after.out
  | _ => after.out = before.out

/-- Serving the request takes no HW-thread used `INT16_MAX` times already. -/
def ServedInRange (env : Env) (res : Reservation) (task : Task) : Prop :=
  ∀ dry, createSlots env.hwStatus (res.spec res.nMax) task.pool env.fuel true =
    some dry → CreateInRange env.hwStatus (res.spec dry.1.length) task.pool env.fuel

/-- A task with unused HW-threads, each of them listed once. -/
structure FreshHolder (ledger : Ledger) : Prop where
  distinct : ∀ t < ledger.task.pool.totalThreads, ∀ t' < ledger.task.pool.totalThreads,
      (ledger.task.pool.partThrds t).node = (ledger.task.pool.partThrds t').node →
      (ledger.task.pool.partThrds t).id = (ledger.task.pool.partThrds t').id → t = t'
  unused : ∀ t < ledger.task.pool.totalThreads, (ledger.task.pool.partThrds t).timesUsed = 0
  usedThreads : ledger.task.pool.usedThreads = 0
  resRequests : ledger.task.resRequests = []
  reservations : ledger.task.reservations = []
  out : ledger.out = []

/-- One event of a task without plugins. -/
def LedgerStep (condition : Env → Task → Event → Prop) (before after : Ledger) : Prop :=
  ∃ env event, Unhooked env ∧ condition env before.task event ∧ handle env event before.task = some
    after.task ∧ after.overbooked = (before.overbooked || event.overbook before.task) ∧ Handed event
    before after

def holderRuns : TransitionSystem Ledger where
  initial := FreshHolder
  step := LedgerStep (fun _ _ _ => True)

/-- The runs in which the uses stay in range. -/
def holderSystem : TransitionSystem Ledger where
  initial := FreshHolder
  step := LedgerStep (EventMeets (fun _ _ => True) ServedInRange)

/-! ## The account -/

/-- HW-threads, requests waiting and slots in use fit together. -/
structure Accounted (plain : Prop) (pool : ThreadPool)
    (queue : List Reservation) (live : List Slot) : Prop where
  sound : Sound pool
  queued : plain → ∀ res ∈ queue, res.options.overbook = false
  once : plain → ∀ t < pool.totalThreads, (pool.partThrds t).timesUsed ≤ 1
  held : plain → ∀ t < pool.totalThreads,
    (hits (pool.partThrds t) live : Int) ≤ (pool.partThrds t).timesUsed

variable {plain : Prop} {pool before : ThreadPool} {queue : List Reservation}
  {live slots out out' : List Slot} {env : Env} {task task' : Task}
  {res : Reservation} {msg : ChildResRel} {np : Nat}

theorem Accounted.requeue {queue' : List Reservation} (account : Accounted plain pool queue live)
    (queued : plain → ∀ res ∈ queue', res.options.overbook = false) :
    Accounted plain pool queue' live :=
  ⟨account.sound, queued, account.once, account.held⟩

theorem Accounted.fewer {live' : List Slot} (account : Accounted plain pool queue live)
    (fewer : ∀ thread, hits thread live' ≤ hits thread live) :
    Accounted plain pool queue live' where
  sound := account.sound
  queued := account.queued
  once := account.once
  held p t bound := by
    have held := account.held p t bound
    have less := fewer (pool.partThrds t)
    omega

theorem SameThreads.hits {after : ThreadPool} (same : SameThreads before after)
    (t : Nat) (slots : List Slot) :
    Partition.hits (after.partThrds t) slots = Partition.hits (before.partThrds t) slots :=
  hits_congr (same.node t) (same.id t) slots

theorem Accounted.release {pool' : ThreadPool} {live' : List Slot}
    (account : Accounted plain pool queue live) (released : Released slots pool pool')
    (fewer : ∀ thread, hits thread slots = 0 → hits thread live' ≤ hits thread live)
    (gone : ∀ thread, hits thread slots ≠ 0 → hits thread live ≤ 1 → hits thread live' = 0) :
    Accounted plain pool' queue live' where
  sound := released.sound
  queued := account.queued
  once p t bound := by
    rw [released.same.totalThreads] at bound
    exact le_trans (released.high t bound) (account.once p t bound)
  held p t bound := by
    rw [released.same.totalThreads] at bound
    have held := account.held p t bound
    have once := account.once p t bound
    rw [released.same.hits]
    by_cases untouched : hits (pool.partThrds t) slots = 0
    · rw [released.untouched t untouched]
      have less := fewer (pool.partThrds t) untouched
      omega
    · rw [gone (pool.partThrds t) untouched (by omega)]
      exact released.sound.low t (by rw [released.same.totalThreads]; exact bound)

theorem Released.trans {left right : List Slot} {first second third : ThreadPool}
    (before : Released left first second) (after : Released right second third) :
    Released (left ++ right) first third where
  same := before.same.trans after.same
  sound := after.sound
  high t bound := by
    have second := after.high t (by rw [before.same.totalThreads]; exact bound)
    exact le_trans second (before.high t bound)
  untouched t none := by
    rw [hits_append] at none
    rw [after.untouched t (by rw [before.same.hits]; omega), before.untouched t (by omega)]

def releasedAll (groups : List (List Slot)) (pool : ThreadPool) : ThreadPool :=
  groups.foldl (fun pool slots => released slots pool) pool

theorem releasedAll_spec (groups : List (List Slot)) :
    ∀ {pool : ThreadPool}, Sound pool → Released groups.flatten pool (releasedAll groups pool) := by
  induction groups with
  | nil =>
    intro pool sound
    exact ⟨SameThreads.refl pool, sound, fun _ _ => le_refl _, fun _ _ => rfl⟩
  | cons slots rest induction =>
    intro pool sound
    have first := released_spec sound slots
    exact first.trans (induction first.sound)

theorem releaseCPUSets_pool (node : Nat) (cpuSets : List CPUSet) :
    ∀ task : Task, releaseCPUSets node cpuSets task =
      { task with
        pool := releasedAll (cpuSets.map (fun cpuSet => [⟨node, cpuSet⟩])) task.pool } := by
  induction cpuSets with
  | nil => exact fun task => rfl
  | cons cpuSet rest induction =>
    intro task
    exact induction (releaseSlotsOf task [⟨node, cpuSet⟩])

theorem cleanupRes_pool (task : Task) :
    (cleanupRes task).pool = releasedAll (task.reservations.map Reservation.unused) task.pool := by
  have steps : ∀ (reservations : List Reservation) (count : Nat)
      (pool : ThreadPool),
      (fun acc : Nat × ThreadPool =>
        { acc.2 with usedThreads := acc.2.usedThreads - acc.1 })
        (reservations.foldl
          (fun (acc : Nat × ThreadPool) (res : Reservation) =>
            (acc.1 + (releaseThreads res.unused acc.2).1,
              (releaseThreads res.unused acc.2).2.2)) (count, pool)) =
        releasedAll (reservations.map Reservation.unused)
          { pool with usedThreads := pool.usedThreads - count } := by
    intro reservations
    induction reservations with
    | nil => exact fun count pool => rfl
    | cons res rest induction =>
      intro count pool
      rw [foldl_cons, induction]
      have used : pool.usedThreads - ((count + (releaseThreads res.unused pool).1 : Nat) : Int) =
            pool.usedThreads - count - (releaseThreads res.unused pool).1 := by
        omega
      simp only [releaseThreads] at used ⊢
      rw [used]
      rfl
  have all := steps task.reservations 0 task.pool
  simp only [Int.natCast_zero, Int.sub_zero] at all
  exact all

/-! ## One request -/

inductive Got (plain : Prop) (res : Reservation) (pool : ThreadPool)
    (found : Int × Reservation × Task) : Prop where
  | nothing (pool' : found.2.2.pool = pool) (dynamic : res.options.dynamic = false)
      (none : found.1 ≤ 0)
  | created (slots : List Slot) (noted : found.2.1.slots = some slots)
      (sound : Sound found.2.2.pool) (same : SameThreads pool found.2.2.pool)
      (apart : plain → ∀ i < pool.totalThreads,
        (pool.partThrds i).timesUsed + hits (pool.partThrds i) slots ≤
            (found.2.2.pool.partThrds i).timesUsed ∧
          (found.2.2.pool.partThrds i).timesUsed ≤ 1)

theorem getReservation_got (res : Reservation) {found : Int × Reservation × Task}
    (sound : Sound task.pool) (noOverbook : plain → res.options.overbook = false)
    (once : plain → ∀ t < task.pool.totalThreads, (task.pool.partThrds t).timesUsed ≤ 1)
    (inRange : ServedInRange env res task) (result : getReservation env task res = some found) :
    Got plain res task.pool found := by
  unfold getReservation at result
  rcases Option.bind_eq_some_iff.mp result with ⟨dry, dried, result⟩
  have create : ∀ actual, createSlots env.hwStatus (res.spec dry.1.length)
      task.pool env.fuel false = some actual → ∀ found : Int × Reservation × Task,
        found.2.1.slots = some actual.1 → found.2.2.pool = actual.2 →
          Got plain res task.pool found := by
    intro actual created found noted pool'
    have general := createSlots_sound sound (inRange dry dried) created
    rw [← pool'] at general
    refine .created actual.1 noted general.1 general.2 ?_
    intro p
    have full := createSlots_again dried created
    have apart := createSlots_apart sound (noOverbook p) (once p) created full
    rw [pool']
    exact apart.2.2
  rcases dry with ⟨dry, dryPool⟩
  simp only at result create
  split at result
  · split at result
    · rcases Option.map_eq_some_iff.mp result with ⟨actual, created, rfl⟩
      exact create actual created _ rfl rfl
    case isFalse dynamic =>
      have dynamic : res.options.dynamic = false := by simpa using dynamic
      split at result
      · cases result
        exact .nothing rfl dynamic (le_refl 0)
      · split at result
        · cases result
          exact .nothing rfl dynamic (Int.negSucc_le_zero 0)
        · cases result
          exact .nothing rfl dynamic (le_refl 0)
  · split at result
    case isTrue none =>
      cases result
      exact .nothing rfl (by simpa using none.1) (Int.negSucc_le_zero 0)
    · rcases Option.map_eq_some_iff.mp result with ⟨actual, created, rfl⟩
      exact create actual created _ rfl rfl

abbrev TaskAccount (plain : Prop) (task : Task) (out : List Slot) : Prop :=
  Accounted plain task.pool task.resRequests (unusedSlots task.reservations ++ out)

/-- A request whose slots are taken off the HW-threads already. -/
structure Taken (plain : Prop) (before : ThreadPool) (task : Task)
    (slots out : List Slot) : Prop where
  account : TaskAccount plain { task with pool := before } out
  sound : Sound task.pool
  same : SameThreads before task.pool
  apart : plain → ∀ i < before.totalThreads,
    (before.partThrds i).timesUsed + hits (before.partThrds i) slots ≤
        (task.pool.partThrds i).timesUsed ∧
      (task.pool.partThrds i).timesUsed ≤ 1

theorem Taken.use (taken : Taken plain before task slots out)
    (queued : plain → ∀ res ∈ queue, res.options.overbook = false)
    (within : ∀ thread, hits thread live ≤
      hits thread (unusedSlots task.reservations ++ out) + hits thread slots) :
    Accounted plain task.pool queue live where
  sound := taken.sound
  queued := queued
  once p t bound := by
    rw [taken.same.totalThreads] at bound
    exact (taken.apart p t bound).2
  held p t bound := by
    rw [taken.same.totalThreads] at bound
    have apart := (taken.apart p t bound).1
    have held := taken.account.held p t bound
    have within := within (before.partThrds t)
    rw [taken.same.hits]
    simp only at held
    omega

theorem unused_sublist (res : Reservation) (noted : res.slots = some slots) :
    res.unused.Sublist slots := by
  rw [Reservation.unused, noted]
  exact (drop_sublist _ _).trans (take_sublist _ _)

theorem unusedSlots_append (left right : List Reservation) :
    unusedSlots (left ++ right) = unusedSlots left ++ unusedSlots right := by
  simp [unusedSlots]

theorem rankRes_slots (task : Task) (res : Reservation) :
    (rankRes task res).1.slots = res.slots ∧ (rankRes task res).2.pool = task.pool ∧
      (rankRes task res).2.resRequests = task.resRequests ∧ (rankRes task res).2.reservations =
      task.reservations := by
  unfold rankRes
  split
  · exact ⟨rfl, rfl, rfl, rfl⟩
  · split <;> exact ⟨rfl, rfl, rfl, rfl⟩

section

variable (taken : Taken plain before task slots out)

include taken

theorem Taken.grant (res : Reservation) (noted : res.slots = some slots)
    (got : Int) :
    TaskAccount plain (Partition.grant (dequeue task res) res got) out := by
  rcases rankRes_slots (dequeue task res) res with
    ⟨slots', pool, queue, reservations⟩
  have account : Accounted plain task.pool (deqRes task.resRequests res)
      (unusedSlots (task.reservations ++ [(rankRes (dequeue task res) res).1]) ++ out) := by
    refine taken.use ?_ ?_
    · exact fun p other member => taken.account.queued p other (mem_deqRes member)
    · intro thread
      have less := hits_sublist thread
        (unused_sublist (rankRes (dequeue task res) res).1 (slots'.trans noted))
      simp only [unusedSlots_append, hits_append]
      simp only [unusedSlots, flatMap_cons, flatMap_nil, append_nil]
      omega
  unfold Partition.grant announce TaskAccount
  simp only [pool, queue, reservations]
  exact account

theorem Taken.keep : TaskAccount plain task out :=
  taken.use taken.account.queued (fun _ => Nat.le_add_right _ _)

theorem Taken.release {given : List Slot} (sublist : given.Sublist slots) :
    TaskAccount plain (releaseSlotsOf task given) out := by
  have account : Accounted plain task.pool task.resRequests
      (given ++ (unusedSlots task.reservations ++ out)) := by
    refine taken.use taken.account.queued ?_
    intro thread
    have less := hits_sublist thread sublist
    rw [hits_append]
    omega
  refine account.release (released_spec taken.sound given) ?_ ?_
  · intro thread none
    rw [hits_append thread given]
    exact Nat.le_add_left _ _
  · intro thread some once
    rw [hits_append thread given] at once
    change hits thread (unusedSlots task.reservations ++ out) = 0
    omega

end

theorem Accounted.dequeue (account : TaskAccount plain task out)
    (res : Reservation) : TaskAccount plain (Partition.dequeue task res) out :=
  account.requeue (fun p other member => account.queued p other (mem_deqRes member))

theorem Accounted.store (account : TaskAccount plain task out)
    (noOverbook : plain → res.options.overbook = false) :
    TaskAccount plain (storeRequest task res) out := by
  refine account.requeue ?_
  intro p other member
  rcases mem_storeRes member with queued | stored
  · exact account.queued p other queued
  · exact stored ▸ noOverbook p

theorem Taken.handlePart (got : Int) (unhooked : Unhooked env)
    (taken : Taken plain before task slots out) (noted : res.slots = some slots) :
    TaskAccount plain (Partition.handlePart env got res task).2 out := by
  have noted' : (if got < 0 then { res with nSlots := 0 } else res).slots = some slots := by
    split <;> exact noted
  simp only [Partition.handlePart, unhooked.xtndPartDynamic, Bool.false_eq_true, if_false]
  generalize (if got < 0 then { res with nSlots := 0 } else res) = later
    at noted' ⊢
  have counted : ∀ numChild, Taken plain before { task with numChild := numChild }
      slots out := fun _ =>
    ⟨taken.account, taken.sound, taken.same, taken.apart⟩
  split
  · by_cases some : got > 0
    · simp only [some, if_true, noted', Option.getD_some]
      exact ((counted _).release (take_sublist _ _)).dequeue later
    · simp only [some, if_false]
      exact (counted _).keep.dequeue later
  · exact (counted _).grant later noted' got

theorem TaskAccount.handleSingle {next : Bool} (unhooked : Unhooked env)
    (account : TaskAccount plain task out) (noOverbook : plain → res.options.overbook = false)
    (inRange : ServedInRange env res task)
    (handled : handleSingleResRequest env res task = some (next, task')) :
    TaskAccount plain task' out := by
  unfold handleSingleResRequest at handled
  split at handled
  · cases handled
    exact account
  · simp only [unhooked.getReservation] at handled
    rcases Option.map_eq_some_iff.mp handled with
      ⟨⟨got, res', task₁⟩, result, equality⟩
    have looked := getReservation_looked result
    have inRange' : ServedInRange env (prepare task res) task := inRange
    have found := getReservation_got (prepare task res) account.sound
      noOverbook account.once inRange' result
    rcases looked.res with ⟨slots, checked, rfl⟩
    rcases looked.task with ⟨pool, rfl⟩
    have noOverbook' : plain → (prepare task res).options.overbook = false := noOverbook
    have last : (handleGot env got
        { prepare task res with slots := slots, checked := checked }
        { task with pool := pool }).2 = task' := congrArg Prod.snd equality
    rw [← last]
    simp only [handleGot]
    cases found with
    | nothing pool' dynamic none =>
      simp only at pool' none
      subst pool'
      have static : ¬ (got < int32 (prepare task res).nMax ∧
          (prepare task res).options.dynamic = true) := by
        intro both
        rw [dynamic] at both
        exact Bool.noConfusion both.2
      rw [if_neg static]
      split
      · split
        · exact account.store noOverbook'
        · exact account.dequeue _
      · split
        · exact account.dequeue _
        · omega
    | created given noted sound same apart =>
      simp only at noted sound same apart
      have taken : Taken plain task.pool { task with pool := pool } given out :=
        ⟨account, sound, same, apart⟩
      split
      · exact taken.handlePart got unhooked noted
      · split
        · split
          · exact taken.keep.store noOverbook'
          · exact taken.keep.dequeue _
        · split
          · exact taken.keep.dequeue _
          · exact taken.grant { prepare task res with
              slots := slots, checked := checked, nSlots := uint32 got }
              noted got

theorem TaskAccount.handleLoop (unhooked : Unhooked env) :
    ∀ {queue : List Reservation} {task task' : Task}, TaskAccount plain task out →
      (plain → ∀ res ∈ queue, res.options.overbook = false) → LoopMeets ServedInRange env queue task
      → Partition.handleLoop env queue task = some task' → TaskAccount plain task' out := by
  intro queue
  induction queue with
  | nil =>
    intro task task' account _ _ handled
    cases handled
    exact account
  | cons res rest induction =>
    intro task task' account queued inRange handled
    rcases Option.bind_eq_some_iff.mp handled with
      ⟨⟨next, task₁⟩, single, handled⟩
    have step := TaskAccount.handleSingle unhooked account
      (fun p => queued p res mem_cons_self) inRange.1 single
    cases next with
    | false =>
      cases handled
      exact step
    | true =>
      exact induction step (fun p other member => queued p other (mem_cons_of_mem _ member))
        (inRange.2 task₁ single) handled

/-! ## The events -/

variable (thread : HWThread)

theorem hits_storeRes {rid : Int} (res later : Reservation)
    (request : later.request = res.request) (same : later.rid = res.rid) :
    ∀ {queue : List Reservation}, findRes queue rid = some res →
      hits thread (unusedSlots (storeRes queue later)) + hits thread res.unused =
        hits thread (unusedSlots queue) + hits thread later.unused := by
  intro queue
  induction queue with
  | nil => exact fun found => nomatch found
  | cons r rest induction =>
    intro found
    have resRid := (findRes_rid found).2
    unfold findRes at found
    rw [find?_cons] at found
    unfold storeRes
    by_cases here : r.rid = rid
    · simp only [here, decide_true, Option.some.injEq] at found
      subst found
      rw [if_pos ⟨request.symm, same.symm⟩]
      simp only [unusedSlots, flatMap_cons, hits_append]
      omega
    · simp only [here, decide_false] at found
      rw [if_neg (fun both => here (both.2.trans (same.trans resRid)))]
      have rest' := induction found
      simp only [unusedSlots, flatMap_cons, hits_append] at rest' ⊢
      omega

theorem hits_perm {left right : List Slot} (perm : left.Perm right) :
    hits thread left = hits thread right :=
  perm.countP_eq _

theorem countMsg_keeps (task : Task) (msg : ChildResRel) : (countMsg task msg).pool = task.pool ∧
      (countMsg task msg).resRequests = task.resRequests ∧
      ∀ thread, hits thread (unusedSlots (countMsg task msg).reservations) ≤
        hits thread (unusedSlots task.reservations) := by
  unfold countMsg
  split
  case h_1 res found =>
    simp only [countReleased]
    split
    · refine ⟨rfl, rfl, ?_⟩
      intro thread
      refine hits_sublist thread (List.Sublist.flatMap ?_ _)
      unfold deqRes
      split
      · exact List.Sublist.refl _
      · split
        · exact filter_sublist
        · exact List.Sublist.refl _
    · refine ⟨rfl, rfl, ?_⟩
      intro thread
      have stored := hits_storeRes thread res { res with
        relSlots := uint32 (res.relSlots + msg.numSlots) } rfl rfl found
      have same : ({ res with
          relSlots := uint32 (res.relSlots + msg.numSlots) } :
            Reservation).unused = res.unused := rfl
      rw [same] at stored
      simp only
      omega
  case h_2 => exact ⟨rfl, rfl, fun _ => le_refl _⟩

theorem Releases.fewer (releases : Releases msg out out') (thread : HWThread) :
    hits thread out' ≤ hits thread out := by
  rcases releases with ⟨given, perm, _⟩
  rw [hits_perm thread perm, hits_append]
  exact Nat.le_add_left _ _

theorem TaskAccount.takeBack (account : TaskAccount plain task out)
    (releases : Releases msg out out') :
    TaskAccount plain (Partition.takeBack task msg) out' := by
  rcases countMsg_keeps task msg with ⟨pool, queue, fewer⟩
  have released := releasedAll_spec (msg.cpuSets.map (fun cpuSet => [(⟨msg.node, cpuSet⟩ : Slot)]))
    account.sound
  have after : TaskAccount plain (Partition.takeBack task msg) out' ↔
      Accounted plain (releasedAll (msg.cpuSets.map (fun cpuSet => [⟨msg.node, cpuSet⟩])) task.pool)
        task.resRequests (unusedSlots (countMsg task msg).reservations ++ out') := by
    unfold TaskAccount Partition.takeBack
    rw [releaseCPUSets_pool]
    simp only [pool, queue]
  rw [after]
  refine account.release released ?_ ?_
  · intro thread _
    have less := fewer thread
    have less' := releases.fewer thread
    rw [hits_append, hits_append]
    omega
  · intro thread some once
    have less := fewer thread
    rcases releases with ⟨given, perm, within⟩
    -- the HW-thread is in a slot that is given up
    have member : hits thread given ≠ 0 := by
      intro none
      refine some (hits_eq_zero.mpr ?_)
      intro slot inside
      rcases mem_flatten.mp inside with ⟨group, groups, member⟩
      rcases mem_map.mp groups with ⟨set, sets, rfl⟩
      rw [mem_singleton.mp member]
      refine Bool.not_eq_true _ ▸ ?_
      intro contained
      rcases inSlot_iff.mp contained with ⟨node, cpu⟩
      rcases within set sets thread.id cpu with ⟨slot', inGiven, node', cpu'⟩
      have absent := hits_eq_zero.mp none slot' inGiven
      rw [inSlot_iff.mpr ⟨node'.trans node, cpu'⟩] at absent
      cases absent
    rw [hits_append, hits_perm thread perm, hits_append] at once
    rw [hits_append]
    omega

theorem TaskAccount.childResRel (unhooked : Unhooked env)
    (account : TaskAccount plain task out) (releases : Releases msg out out')
    (inRange : task.pool.totalThreads ≠ 0 → placeholderOf task msg.rid = none →
      LoopMeets ServedInRange env (Partition.takeBack task msg).resRequests
        (Partition.takeBack task msg))
    (handled : msgChildResRel env msg task = some task') :
    TaskAccount plain task' out' := by
  have fewer : TaskAccount plain task out' := by
    refine account.fewer ?_
    intro thread
    have less := releases.fewer thread
    rw [hits_append, hits_append]
    omega
  unfold msgChildResRel at handled
  split at handled
  · cases handled
    exact fewer
  case isFalse threads =>
    split at handled
    · cases handled
      exact fewer
    case h_2 own =>
      have before := TaskAccount.takeBack account releases
      exact TaskAccount.handleLoop unhooked before before.queued (inRange threads own) handled

theorem Accounted.enqueue (account : TaskAccount plain task out)
    (res : Reservation) (noOverbook : plain → res.options.overbook = false) :
    TaskAccount plain { task with resRequests := enqRes task.resRequests res } out := by
  refine account.requeue ?_
  intro p other member
  rcases mem_append.mp member with queued | last
  · exact account.queued p other queued
  · exact mem_singleton.mp last ▸ noOverbook p

theorem TaskAccount.getReservation {request : Nat} {msg : GetReservation}
    (unhooked : Unhooked env) (account : TaskAccount plain task out)
    (noOverbook : plain → Event.overbook task (.getReservation request msg) = false)
    (inRange : EventMeets (fun _ _ => True) ServedInRange env task (.getReservation request msg))
    (handled : msgGetReservation env request msg task = some task') :
    TaskAccount plain task' out := by
  have carried : plain → msg.options.overbook = false ∧
      (takeUp task request msg).1.options.overbook = false := by
    intro p
    simpa [Event.overbook] using noOverbook p
  unfold msgGetReservation at handled
  split at handled
  · split at handled
    · cases handled
      exact account
    · cases handled
      exact account
  case h_2 forwarding =>
    split at handled
    · cases handled
      exact account
    case isFalse threads =>
      split at handled
      · cases handled
        exact account
      case isFalse complete =>
        split at handled
        case isTrue forwarder =>
          split at handled
          · cases handled
            exact account
          · cases handled
            have queued := account.enqueue { msg.res task.tid request with
              options := { msg.options with dummy := true } }
              (fun p => (carried p).1)
            unfold requestDummy
            simp only
            split
            · exact queued
            · exact queued.dequeue _
        case isFalse logger =>
          have holder : (task.ptid.isNone || task.partition) = true := by
            cases ptid : task.ptid with
            | none => rfl
            | some parent =>
              cases partition : task.partition with
              | false => exact absurd partition (forwarding parent ptid)
              | true => rfl
          have taken := inRange (by
            simp only [accepted, holder, threads, ne_eq, not_false_eq_true,
              decide_true, Bool.true_and]
            simpa using complete) (not_not.mp logger)
          simp only at handled taken
          split at handled
          · cases handled
            unfold giveDummy
            split
            · exact account
            · refine account.fewer ?_
              intro thread
              have empty : ∀ firstRank, Reservation.unused
                  { (takeUp task request msg).1 with firstRank := firstRank } = [] := fun _ => rfl
              simp only [enqRes, unusedSlots_append, hits_append]
              simp only [unusedSlots, flatMap_cons, flatMap_nil, empty,
                append_nil, hits_nil, Nat.add_zero]
              exact le_refl _
          case isFalse plainRequest =>
            rw [if_neg plainRequest] at taken
            have before : TaskAccount plain (takeUp task request msg).2 out := account
            have queued := before.enqueue (takeUp task request msg).1 (fun p => (carried p).2)
            unfold serveRequest at handled
            split at handled
            · split at handled
              · cases handled
                exact queued
              · cases handled
                exact account
            case isFalse waiting =>
              split at handled
              case isTrue may =>
                rcases Option.map_eq_some_iff.mp handled with
                  ⟨⟨next, after⟩, single, rfl⟩
                exact TaskAccount.handleSingle unhooked queued
                  (fun p => (carried p).2) (taken (not_not.mp waiting) may) single
              · cases handled
                exact account

theorem TaskAccount.getSlots (account : TaskAccount plain task out)
    (msg : GetSlots) :
    TaskAccount plain (msgGetSlots msg task) (out ++ handedOut task (msgGetSlots msg task)) := by
  have quiet : ∀ answer : Sent, answer.slots = [] →
      TaskAccount plain (task.send answer) (out ++ handedOut task (task.send answer)) := by
    intro answer none
    have nothing : handedOut task (task.send answer) = [] := by
      simp [handedOut, Task.send, none]
    rw [nothing, append_nil]
    exact account
  unfold msgGetSlots
  split
  · split
    · exact quiet _ rfl
    · exact quiet _ rfl
  · split
    · exact quiet _ rfl
    · split
      · exact quiet _ rfl
      case h_2 res found =>
        split
        · exact quiet _ rfl
        case h_2 slots noted =>
          split
          · exact quiet _ rfl
          · split
            · exact quiet _ rfl
            case isFalse enough =>
              refine account.fewer ?_
              intro thread
              have stored := hits_storeRes thread res { res with
                nextSlot := res.nextSlot + msg.num } rfl rfl found
              -- what is handed out is the beginning of what was unused
              have first : (slots.drop res.nextSlot).take msg.num = res.unused.take msg.num := by
                rw [Reservation.unused, noted, Option.getD_some,
                  List.drop_take, List.take_take, min_eq_left (by omega)]
              have later : ({ res with nextSlot := res.nextSlot + msg.num } :
                  Reservation).unused = res.unused.drop msg.num := by
                simp only [Reservation.unused, List.drop_drop]
              have split' := congrArg (hits thread) (take_append_drop msg.num res.unused)
              rw [hits_append] at split'
              rw [later] at stored
              simp only [handedOut, drop_left, flatMap_cons,
                flatMap_nil, append_nil, Sent.slots, first,
                hits_append]
              omega

theorem TaskAccount.cleanupRes (account : TaskAccount plain task out) :
    TaskAccount plain (Partition.cleanupRes task) out := by
  have released := releasedAll_spec (task.reservations.map Reservation.unused) account.sound
  have all : (task.reservations.map Reservation.unused).flatten =
      unusedSlots task.reservations := by
    rw [unusedSlots, flatMap_def]
  have after : Accounted plain (releasedAll (task.reservations.map Reservation.unused) task.pool)
      task.resRequests (unusedSlots [] ++ out) := by
    refine account.release released ?_ ?_
    · intro thread _
      rw [hits_append, hits_append]
      exact Nat.add_le_add_right (Nat.zero_le _) _
    · intro thread some once
      rw [all] at some
      rw [hits_append] at once
      change hits thread out = 0
      omega
  unfold TaskAccount
  rw [cleanupRes_pool]
  exact after

theorem TaskAccount.reservationRes (unhooked : Unhooked env)
    (account : TaskAccount plain task out) (msg : ReservationRes) :
    TaskAccount plain (msgReservationRes env msg task) out := by
  unfold msgReservationRes
  split
  · exact account
  · split
    · exact account
    case h_2 res rest queue =>
      split
      · exact account
      · simp only
        split
        · exact account.dequeue res
        · unfold buildDummy
          split
          · exact account.dequeue res
          · split
            · exact account.dequeue res
            · simp only [unhooked.getReservation]
              split
              · exact account.dequeue res
              · exact account.dequeue res

/-! ## The runs in range -/

theorem Accounted.weaken {plain' : Prop}
    (account : Accounted plain pool queue live) (implies : plain' → plain) :
    Accounted plain' pool queue live :=
  ⟨account.sound, fun p => account.queued (implies p),
    fun p => account.once (implies p), fun p => account.held (implies p)⟩

def Ledger.Account (ledger : Ledger) : Prop :=
  TaskAccount (ledger.overbooked = false) ledger.task ledger.out

theorem account_invariant : Invariant holderSystem Ledger.Account where
  initial := by
    intro ledger fresh
    refine ⟨⟨fresh.distinct, ?_, ?_, ?_⟩, ?_, ?_, ?_⟩
    · intro t bound
      exact le_of_eq (fresh.unused t bound).symm
    · intro t bound
      rw [fresh.unused t bound]
      decide
    · rw [fresh.usedThreads]
      refine (Finset.sum_eq_zero ?_).symm
      intro t member
      exact fresh.unused t (Finset.mem_range.mp member)
    · rw [fresh.resRequests]
      exact fun _ _ member => nomatch member
    · intro _ t bound
      rw [fresh.unused t bound]
      decide
    · intro _ t bound
      rw [fresh.reservations, fresh.out, fresh.unused t bound]
      exact le_refl 0
  step := by
    rintro before after account ⟨env, event, unhooked, inRange, handled, flag, handed⟩
    have implies : after.overbooked = false → before.overbooked = false ∧
        event.overbook before.task = false := by
      intro none
      rw [flag] at none
      exact Bool.or_eq_false_iff.mp none
    have account' : TaskAccount (after.overbooked = false) before.task before.out :=
      account.weaken (fun none => (implies none).1)
    unfold Ledger.Account
    cases event with
    | getReservation request msg =>
      change after.out = before.out at handed
      rw [handed]
      exact TaskAccount.getReservation unhooked account'
        (fun none => (implies none).2) inRange handled
    | getSlots msg =>
      have equality := Option.some.inj handled
      change after.out = before.out ++ handedOut before.task after.task at handed
      rw [handed, ← equality]
      exact TaskAccount.getSlots account' msg
    | childResRel msg => exact TaskAccount.childResRel unhooked account' handed inRange handled
    | reservationRes msg =>
      have equality := Option.some.inj handled
      change after.out = before.out at handed
      rw [handed, ← equality]
      exact TaskAccount.reservationRes unhooked account' msg
    | cleanupRes =>
      have equality := Option.some.inj handled
      change after.out = before.out at handed
      rw [handed, ← equality]
      exact TaskAccount.cleanupRes account'

/-- Without overbooking the condition on requests is always met. -/
theorem servedInRange_plain (sound : Sound task.pool)
    (plain : res.options.overbook = false) (once : ∀ t < task.pool.totalThreads,
      (task.pool.partThrds t).timesUsed ≤ 1) : ServedInRange env res task :=
  fun _ _ => createInRange_plain sound plain once

/-! ## A single HW-thread -/

def oneThread : ThreadPool := ⟨1, fun t => ⟨1, t, 0⟩, 0⟩

def oneOptions (overbook : Bool) : Options := ⟨overbook, false, false, false, false, false⟩

def oneHolder : Task where
  tid := ⟨0, 7⟩
  ptid := none
  loggertid := ⟨0, 7⟩
  pluginFw := false
  partition := true
  options := oneOptions false
  pool := oneThread
  resRequests := []
  reservations := []
  firstSpawner := ⟨-1, -1⟩
  numChild := 0
  activeSlots := 0
  nextResID := 73
  sent := []

/-- A request for `np` slots of one HW-thread each. -/
def oneRequest (np : Nat) (overbook : Bool) : GetReservation where
  sender := ⟨1, 9⟩
  nMin := np
  nMax := np
  ppn := 0
  tpp := 1
  hwType := 0
  options := oneOptions overbook
  complete := true
  sendErr := none

def oneEnv (fuel : Nat) : Env := ⟨fun _ => 0, fuel, fun _ _ => .nofunc, false⟩

theorem oneEnv_unhooked (fuel : Nat) : Unhooked (oneEnv fuel) := ⟨fun _ _ => rfl, rfl⟩

theorem oneThread_fresh : FreshHolder ⟨oneHolder, [], false⟩ where
  distinct t bound t' bound' _ _ := by
    change t < 1 at bound
    change t' < 1 at bound'
    omega
  unused _ _ := rfl
  usedThreads := rfl
  resRequests := rfl
  reservations := rfl
  out := rfl

def afterOne (fuel np : Nat) (overbook : Bool) : Task :=
  (msgGetReservation (oneEnv fuel) 0 (oneRequest np overbook) oneHolder).getD oneHolder

def oneSpec (np : Nat) : SlotSpec := ⟨np, 0, 1, 0, oneOptions true⟩

/-- The HW-thread was taken for `k` slots. -/
structure Counting (k : Nat) (c : Collect) : Prop where
  t : c.t = 0
  got : c.got = k
  thrdsGot : c.thrdsGot = 0
  myUse : c.myUse 0 = int16 k
  next : c.nextMinUsed = int16 k
  length : c.slots.length = k

theorem int16_succ (k : Nat) : int16 (int16 k + 1) = int16 (k + 1 : Nat) := by
  unfold int16
  omega

variable (hwStatus : Nat → Nat)

theorem counting_step (np : Nat) {k : Nat} {c : Collect}
    (counting : Counting k c) :
    ∃ c', collectBody hwStatus (oneSpec np) oneThread c = some c' ∧
      Counting (k + 1) { c' with t := (c'.t + 1) % 1 } := by
  rcases c with ⟨t, minUsed, nextMinUsed, got, roundGot, thrdsGot, fullRound,
    myUse, procsPerNode, slots, current⟩
  rcases counting with ⟨first, count, none, use, next, length⟩
  simp only at first count none use next length
  subst first count none
  have free : ¬ myUse 0 > nextMinUsed := by
    rw [use, next]
    exact Int.lt_irrefl _
  refine ⟨takeThread (oneSpec np) oneThread
    { t := 0, minUsed := nextMinUsed, nextMinUsed := int16 (nextMinUsed + 1)
      got := got, roundGot := 0, thrdsGot := 0, fullRound := true
      myUse := myUse, procsPerNode := procsPerNode, slots := slots
      current := ⟨1, ∅⟩ }, ?_, ?_⟩
  · simp [collectBody, startRound, tryThread, prepareSlot, hwFits, oneSpec,
      oneOptions, oneThread, free]
  · refine ⟨Nat.mod_one _, ?_, ?_, ?_, ?_, ?_⟩
    · simp [takeThread, oneSpec]
    · simp [takeThread, oneSpec]
    · simp [takeThread, oneSpec, use, int16_succ]
    · simp [takeThread, oneSpec, next, int16_succ]
    · simp [takeThread, oneSpec, length]

theorem counting_run : ∀ {fuel k : Nat} {c : Collect}, Counting k c → k ≤ np → np < k + fuel →
      ∃ c', collect hwStatus (oneSpec np) oneThread 1 fuel c = some c' ∧ Counting np c' := by
  intro fuel
  induction fuel with
  | zero => exact fun _ below above => absurd above (by omega)
  | succ fuel induction =>
    intro k c counting below above
    unfold collect
    by_cases done : k = np
    · refine ⟨c, if_neg ?_, done ▸ counting⟩
      rw [counting.got, done]
      exact fun going => Nat.lt_irrefl np going.2
    · rcases counting_step hwStatus np counting with
        ⟨c', body, counting'⟩
      rw [if_pos ⟨by rw [counting.t]; exact Nat.one_pos,
        by rw [counting.got]; change k < np; omega⟩, body]
      exact induction counting' (by omega) (by omega)

theorem createSlots_one {fuel : Nat} (enough : np < fuel) (dryRun : Bool) :
    ∃ slots pool, createSlots hwStatus (oneSpec np) oneThread fuel dryRun =
        some (slots, pool) ∧ slots.length = np ∧
      (dryRun = false → (pool.partThrds 0).timesUsed = int16 np) := by
  have start : ∃ start, collectStart hwStatus (oneSpec np) oneThread =
      some start ∧ Counting 0 start := by
    refine ⟨_, rfl, ?_⟩
    exact ⟨rfl, rfl, rfl, rfl, rfl, rfl⟩
  rcases start with ⟨start, started, counting⟩
  rcases counting_run hwStatus counting (Nat.zero_le np)
    (show np < 0 + fuel by omega) with ⟨c, run, counted⟩
  refine ⟨c.slots, if !dryRun ∧ c.got = np then commitUse oneThread c.myUse
    else oneThread, ?_, counted.length, ?_⟩
  · unfold createSlots
    rw [started]
    simp only [oneThread, oneSpec, oneOptions, Bool.true_or, if_true, Nat.add_zero]
    rw [show collect hwStatus ⟨np, 0, 1, 0, ⟨true, false, false, false, false, false⟩⟩
      ⟨1, fun t => ⟨1, t, 0⟩, 0⟩ 1 fuel start = some c from run]
    rfl
  · rintro rfl
    simp only [Bool.not_false, counted.got, and_self, if_true, commitUse]
    exact counted.myUse

/-- The request as the logger takes it up. -/
abbrev oneRes (np : Nat) : Reservation := (takeUp oneHolder 0 (oneRequest np true)).1

theorem getReservation_one {fuel : Nat} (positive : 0 < np) (small : np < 2 ^ 31)
    (enough : np < fuel) (pool : task.pool = oneThread) (spec : ∀ n, res.spec n = oneSpec n)
    (nMin : res.nMin = np) (nMax : res.nMax = np) :
    ∃ slots pool, getReservation (oneEnv fuel) task res =
        some ((np : Int), { res with slots := slots }, { task with pool := pool }) ∧
      pool.totalThreads = 1 ∧ (pool.partThrds 0).timesUsed = int16 np := by
  rcases createSlots_one (oneEnv fuel).hwStatus enough true with
    ⟨dry, dryPool, dried, dryLength, _⟩
  rcases createSlots_one (oneEnv fuel).hwStatus enough false with
    ⟨slots, pool', created, length, used⟩
  have static : res.options.dynamic = false := congrArg (fun spec => spec.options.dynamic) (spec 0)
  have count : int32 np = np := by
    unfold int32
    omega
  refine ⟨some slots, pool', ?_, ?_, used rfl⟩
  · unfold getReservation
    simp only [spec, nMax, nMin, pool]
    change (createSlots (oneEnv fuel).hwStatus (oneSpec np) oneThread fuel true).bind _ = _
    rw [dried]
    simp only [Option.bind_some, dryLength, Nat.lt_irrefl, if_false]
    rw [if_neg (fun none => absurd none.2 (by omega))]
    change (createSlots (oneEnv fuel).hwStatus (oneSpec np) oneThread fuel false).map _ = _
    rw [created, Option.map_some, length, count]
  · cases createSlots_cases created with
    | nothing _ equality => cases equality; rfl
    | collected start c _ _ equality =>
      have pool'' := congrArg Prod.snd equality
      simp only at pool''
      rw [pool'']
      split <;> rfl

theorem grant_pool (task : Task) (res : Reservation) (got : Int) :
    (grant task res got).pool = task.pool :=
  (rankRes_slots task res).2.1

theorem overbook_one (np fuel : Nat) (positive : 0 < np) (small : np < 2 ^ 31)
    (enough : np < fuel) :
    ∃ task, msgGetReservation (oneEnv fuel) 0 (oneRequest np true) oneHolder =
      some task ∧ (task.pool.partThrds 0).timesUsed = int16 np ∧ task.pool.totalThreads = 1 := by
  let asked : Task := { (takeUp oneHolder 0 (oneRequest np true)).2 with
    resRequests := [oneRes np] }
  have pool : asked.pool = oneThread := rfl
  have spec : ∀ n, (prepare asked (oneRes np)).spec n = oneSpec n :=
    fun _ => rfl
  rcases getReservation_one positive small enough pool spec rfl rfl with
    ⟨slots, pool, got, threads, used⟩
  have handled : handleSingleResRequest (oneEnv fuel) (oneRes np) asked =
      some (handleGot (oneEnv fuel) np
        { prepare asked (oneRes np) with slots := slots }
        { asked with pool := pool }) := by
    unfold handleSingleResRequest
    rw [if_neg (show ¬ (oneRes np).dynSent = true from Bool.false_ne_true)]
    change (getReservation (oneEnv fuel) asked (prepare asked (oneRes np))).map _ = _
    rw [got]
    rfl
  have granted : (handleGot (oneEnv fuel) np
      { prepare asked (oneRes np) with slots := slots }
      { asked with pool := pool }).2.pool = pool := by
    simp only [handleGot]
    rw [if_neg (fun both => Bool.false_ne_true both.2), if_neg (by omega), if_neg (by omega)]
    rw [grant_pool]
    rfl
  refine ⟨(handleGot (oneEnv fuel) np
      { prepare asked (oneRes np) with slots := slots }
      { asked with pool := pool }).2, ?_, ?_, ?_⟩
  · have served : msgGetReservation (oneEnv fuel) 0 (oneRequest np true)
        oneHolder = serveRequest (oneEnv fuel)
          (takeUp oneHolder 0 (oneRequest np true)).2 (oneRes np) := rfl
    have may : mayServe (takeUp oneHolder 0 (oneRequest np true)).2 (oneRes np) = true := by
      simp [mayServe, oneRes, takeUp, getNextResID, GetReservation.res, oneRequest, oneOptions]
    rw [served, serveRequest, if_neg (fun waiting => waiting rfl), if_pos may]
    change (handleSingleResRequest (oneEnv fuel) (oneRes np) asked).map Prod.snd = _
    rw [handled]
    rfl
  · rw [granted]
    exact used
  · rw [granted]
    exact threads

end Psmgmt.Partition
