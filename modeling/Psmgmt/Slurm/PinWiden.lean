import Psmgmt.Slurm.PinBinding

/-!
# The iterator and its jumps

The thread iterator call by call, and the widening of a set of CPUs to cores
and sockets, which moves the iterator ahead while it counts on.
-/

namespace Psmgmt.Slurm.Pin

open Partition List Function

/-! ## The iterator -/

structure ThreadIterator where
  next : Nat
  valid : Bool
  count : Nat
  deriving DecidableEq

def threadIterInit (nodeinfo : NodeInfo) (start : Nat) : ThreadIterator :=
  { next := start, valid := start < nodeinfo.threadCount, count := 0 }

/-- `thread_iter_next()`: its result and the iterator moved on. -/
def threadIterNext (strategy : ThreadIterStrategy) (nodeinfo : NodeInfo)
    (iter : ThreadIterator) : Option (Nat × ThreadIterator) :=
  if iter.valid = false then none
  else
    let count := iter.count + 1
    if count ≥ nodeinfo.threadCount then
      some (iter.next, { iter with count := count, valid := false })
    else
      some (iter.next,
        { iter with
          count := count
          next := iterNext strategy nodeinfo iter.next })

/-- The results of so many calls at most, and whether the last one returned
false. -/
def threadIterCalls (strategy : ThreadIterStrategy) (nodeinfo : NodeInfo) :
    (calls : Nat) → ThreadIterator → List Nat × Bool
  | 0, _ => ([], false)
  | calls + 1, iter =>
    match threadIterNext strategy nodeinfo iter with
    | none => ([], true)
    | some (thread, iter) =>
      let rest := threadIterCalls strategy nodeinfo calls iter
      (thread :: rest.1, rest.2)

/-- The values of three nested loops. -/
def nested (high middle low : Nat) (value : (high middle low : Nat) → Nat) : List Nat :=
  (List.range high).flatMap (fun h =>
    (List.range middle).flatMap (fun m => (List.range low).map (fun l => value h m l)))

def canonicalOrder (nodeinfo : NodeInfo) : ThreadIterStrategy → List Nat
  | .cycleCores =>
    nested nodeinfo.threadsPerCore nodeinfo.socketCount nodeinfo.coresPerSocket
      (fun thread socket core => nodeinfo.threadAt thread socket core)
  | .cycleSocketsCycleCores =>
    nested nodeinfo.threadsPerCore nodeinfo.coresPerSocket nodeinfo.socketCount
      (fun thread core socket => nodeinfo.threadAt thread socket core)
  | .cycleSocketsFillCores =>
    nested nodeinfo.coresPerSocket nodeinfo.threadsPerCore nodeinfo.socketCount
      (fun core thread socket => nodeinfo.threadAt thread socket core)
  | .fillSocketsCycleCores =>
    nested nodeinfo.socketCount nodeinfo.threadsPerCore nodeinfo.coresPerSocket
      (fun socket thread core => nodeinfo.threadAt thread socket core)
  | .fillSocketsFillCores =>
    nested nodeinfo.socketCount nodeinfo.coresPerSocket nodeinfo.threadsPerCore
      (fun socket core thread => nodeinfo.threadAt thread socket core)

/-- Two nested loops count. -/
theorem range_flatMap (high low start : Nat) :
    (List.range high).flatMap (fun h =>
      (List.range low).map (fun l => start + (l + low * h))) =
      (List.range (low * high)).map (fun i => start + i) := by
  induction high with
  | zero => simp
  | succ high induction =>
    rw [range_succ, flatMap_append, induction, Nat.mul_succ, range_add, map_append, map_map]
    simp [comp_def, Nat.add_comm]

theorem map_nested {high middle low : Nat} {value : Nat → Nat → Nat → Nat}
    {index : Nat → Nat}
    (indices : ∀ h < high, ∀ m < middle, ∀ l < low,
      index (value h m l) = l + low * (m + middle * h)) :
    (nested high middle low value).map index = List.range (low * (middle * high)) := by
  have inner : ∀ h ∈ List.range high,
      ((List.range middle).flatMap (fun m =>
        (List.range low).map (fun l => value h m l))).map index =
        (List.range (low * middle)).map (fun i => i + low * middle * h) := by
    intro h inHigh
    rw [map_flatMap]
    have counted := range_flatMap middle low (low * middle * h)
    rw [show (fun i => i + low * middle * h) =
      fun i => low * middle * h + i from funext fun i => Nat.add_comm _ _,
      ← counted]
    apply flatMap_congr
    intro m inMiddle
    rw [map_map]
    apply map_congr_left
    intro l inLow
    rw [comp_apply, indices h (mem_range.mp inHigh) m
      (mem_range.mp inMiddle) l (mem_range.mp inLow)]
    ring
  have outer := range_flatMap high (low * middle) 0
  simp only [Nat.zero_add, map_id'] at outer
  rw [nested, map_flatMap, flatMap_congr inner, ← Nat.mul_assoc, ← outer]

variable {nodeinfo : NodeInfo} {strategy : ThreadIterStrategy}

theorem map_canonicalOrder : (canonicalOrder nodeinfo strategy).map (walkIndex nodeinfo strategy) =
      List.range nodeinfo.threadCount := by
  rw [← size_radix nodeinfo strategy]
  cases strategy <;>
    exact map_nested (fun h inHigh m inMiddle l inLow =>
      walkIndex_threadAt ⟨by assumption, by assumption, by assumption⟩)

theorem mem_nested {high middle low h m l : Nat} {value : Nat → Nat → Nat → Nat} (inHigh : h < high)
    (inMiddle : m < middle) (inLow : l < low) :
    value h m l ∈ nested high middle low value :=
  mem_flatMap.mpr ⟨h, mem_range.mpr inHigh,
    mem_flatMap.mpr ⟨m, mem_range.mpr inMiddle, mem_map_of_mem (mem_range.mpr inLow)⟩⟩

variable {thread index : Nat}

theorem mem_canonicalOrder :
    thread ∈ canonicalOrder nodeinfo strategy ↔ thread < nodeinfo.threadCount := by
  constructor
  · intro member
    cases strategy <;>
      simp only [canonicalOrder, nested, mem_flatMap, mem_map, mem_range] at member <;>
      obtain ⟨_, _, _, _, _, _, rfl⟩ := member <;>
      exact NodeInfo.Position.lt ⟨by assumption, by assumption, by assumption⟩
  · intro bound
    obtain ⟨_, _, _, ⟨inThread, inSocket, inCore⟩, rfl⟩ := nodeinfo.exists_position bound
    cases strategy with
    | cycleCores => exact mem_nested inThread inSocket inCore
    | cycleSocketsCycleCores => exact mem_nested inThread inCore inSocket
    | cycleSocketsFillCores => exact mem_nested inCore inThread inSocket
    | fillSocketsCycleCores => exact mem_nested inSocket inThread inCore
    | fillSocketsFillCores => exact mem_nested inSocket inCore inThread

theorem nodup_map_canonicalOrder :
    ((canonicalOrder nodeinfo strategy).map (walkIndex nodeinfo strategy)).Nodup := by
  rw [map_canonicalOrder]
  exact nodup_range

theorem walkIndex_injOn : Set.InjOn (walkIndex nodeinfo strategy) {t | t < nodeinfo.threadCount} :=
  fun _ first _ second same =>
    inj_on_of_nodup_map nodup_map_canonicalOrder
      (mem_canonicalOrder.mpr first) (mem_canonicalOrder.mpr second) same

/-- Threads in order are known by their indices. -/
theorem eq_of_map_walkIndex {walk other : List Nat}
    (inside : ∀ thread ∈ walk, thread < nodeinfo.threadCount)
    (inOther : ∀ thread ∈ other, thread < nodeinfo.threadCount)
    (same : walk.map (walkIndex nodeinfo strategy) = other.map (walkIndex nodeinfo strategy)) :
    walk = other := by
  have back := (@walkIndex_injOn nodeinfo strategy).leftInvOn_invFunOn
  have whole : ∀ threads : List Nat,
      (∀ thread ∈ threads, thread < nodeinfo.threadCount) →
      (threads.map (walkIndex nodeinfo strategy)).map
        (invFunOn (walkIndex nodeinfo strategy) {t | t < nodeinfo.threadCount}) = threads := by
    intro threads bounds
    rw [map_map]
    exact (map_congr_left (fun thread member => back (bounds thread member))).trans (map_id threads)
  rw [← whole walk inside, same, whole other inOther]

theorem iterate_rotates {start : Nat} (bound : start < nodeinfo.threadCount) :
    iterate strategy nodeinfo nodeinfo.threadCount start =
      (canonicalOrder nodeinfo strategy).rotate (walkIndex nodeinfo strategy start) := by
  have small := @walkIndex_lt nodeinfo strategy start bound
  have inOrder : ∀ thread ∈ (canonicalOrder nodeinfo strategy).rotate
      (walkIndex nodeinfo strategy start), thread < nodeinfo.threadCount :=
    fun thread member => mem_canonicalOrder.mp (mem_rotate.mp member)
  refine @eq_of_map_walkIndex nodeinfo strategy _ _ (iterate_lt bound) inOrder ?_
  obtain ⟨again, wrapped⟩ := @iterated_lt nodeinfo strategy start
    (nodeinfo.threadCount - walkIndex nodeinfo strategy start) bound
  rw [Nat.add_sub_cancel' (Nat.le_of_lt small), Nat.mod_self] at wrapped
  have upper := @map_walkIndex_iterate nodeinfo strategy
    (nodeinfo.threadCount - walkIndex nodeinfo strategy start) start bound (by omega)
  have lower := @map_walkIndex_iterate nodeinfo strategy
    (walkIndex nodeinfo strategy start) _ again (by omega)
  have walk := @iterate_append nodeinfo strategy
    (nodeinfo.threadCount - walkIndex nodeinfo strategy start)
    (walkIndex nodeinfo strategy start) start
  rw [Nat.sub_add_cancel (Nat.le_of_lt small)] at walk
  rw [walk, map_append, upper, lower, wrapped, map_rotate,
    map_canonicalOrder, rotate_eq_drop_append_take (by rw [length_range]; omega), range_eq_range',
    drop_range', take_range'_of_length_ge (Nat.le_of_lt small),
    Nat.zero_add, Nat.mul_one]

theorem threadIterCalls_iterate (left : Nat) {calls next count : Nat}
    (inside : count + (left + 1) = nodeinfo.threadCount) (enough : left + 1 < calls) :
    threadIterCalls strategy nodeinfo calls { next := next, valid := true, count := count } =
      (iterate strategy nodeinfo (left + 1) next, true) := by
  obtain ⟨calls, rfl⟩ := Nat.exists_eq_succ_of_ne_zero (by omega : calls ≠ 0)
  rw [threadIterCalls, threadIterNext, if_neg (by simp)]
  induction left generalizing calls next count with
  | zero =>
    obtain ⟨calls, rfl⟩ := Nat.exists_eq_succ_of_ne_zero (by omega : calls ≠ 0)
    rw [if_pos (by dsimp only; omega)]
    rfl
  | succ left induction =>
    obtain ⟨calls, rfl⟩ := Nat.exists_eq_succ_of_ne_zero (by omega : calls ≠ 0)
    rw [if_neg (by dsimp only; omega)]
    dsimp only
    rw [threadIterCalls, threadIterNext, if_neg (by simp),
      induction (by omega) calls (by omega)]
    rfl

/-- The iterator returns a rotation of the canonical order that starts with
the given thread, and then false. -/
theorem threadIter_rotates {start calls : Nat} (bound : start < nodeinfo.threadCount)
    (enough : nodeinfo.threadCount < calls) :
    ∃ results, threadIterCalls strategy nodeinfo calls
        (threadIterInit nodeinfo start) = (results, true) ∧
      results.IsRotated (canonicalOrder nodeinfo strategy) ∧
      results.head? = some start ∧
      results.length = nodeinfo.threadCount ∧ results.Nodup ∧
      ∀ thread, thread ∈ results ↔ thread < nodeinfo.threadCount := by
  have calling := @threadIterCalls_iterate nodeinfo strategy
    (nodeinfo.threadCount - 1) calls start 0 (by omega) (by omega)
  rw [Nat.sub_add_cancel (by omega)] at calling
  refine ⟨iterate strategy nodeinfo nodeinfo.threadCount start, ?_, ?_, ?_,
    length_iterate _ _, ?_, ?_⟩
  · rw [threadIterInit, decide_eq_true bound]
    exact calling
  · rw [iterate_rotates bound]
    exact List.IsRotated.symm ⟨_, rfl⟩
  · cases count : nodeinfo.threadCount with
    | zero => omega
    | succ count => rfl
  · rw [iterate_rotates bound, nodup_rotate]
    exact (@nodup_map_canonicalOrder nodeinfo strategy).of_map
  · intro thread
    rw [iterate_rotates bound, mem_rotate, mem_canonicalOrder]

theorem threadIter_rotates_fourCores :
    (threadIterCalls .cycleSocketsFillCores fourCores 13 (threadIterInit fourCores 5)).1.Nodup := by
  obtain ⟨results, calls, _, _, _, distinct, _⟩ :=
    @threadIter_rotates fourCores .cycleSocketsFillCores 5 13 (by decide) (by decide)
  rw [calls]
  exact distinct

/-! ## Widening -/

/-- Pin to a socket; `unmapCPU` is given for a physical one. -/
def pinToSocket (nodeinfo : NodeInfo) (unmapCPU : Option (Nat → Nat))
    (cpuSet : CPUSet) (socket : Nat) : CPUSet :=
  (List.range nodeinfo.coresPerSocket).foldl (fun cpuSet c =>
    (List.range nodeinfo.threadsPerCore).foldl (fun cpuSet t =>
      let thread := nodeinfo.coreCount * t + socket * nodeinfo.coresPerSocket + c
      if thread ∉ nodeinfo.stepHWthreads then cpuSet
      else setCPU cpuSet (unmapCPU.elim thread (fun unmap => unmap thread)))
      cpuSet) cpuSet

def pinToCore (nodeinfo : NodeInfo) (cpuSet : CPUSet) (core : Nat) : CPUSet :=
  (List.range nodeinfo.threadsPerCore).foldl (fun cpuSet t =>
    let thread := nodeinfo.coreCount * t + core
    if thread ∉ nodeinfo.stepHWthreads then cpuSet else setCPU cpuSet thread)
    cpuSet

/-- The loop of `bindToSockets()` and `bindToCores()`; none if it is still not
at its end. -/
def widenLoop (nodeinfo : NodeInfo) (pin : CPUSet → Nat → CPUSet)
    (groupOf : Nat → Nat) (groupCount : Nat) (nextStart : Nat → Nat) :
    (fuel : Nat) → ThreadIterator → CPUSet → Option CPUSet
  | 0, _, _ => none
  | fuel + 1, iter, cpuSet =>
    match threadIterNext .fillSocketsFillCores nodeinfo iter with
    | none => some cpuSet
    | some (thread, iter) =>
      if thread ∈ cpuSet then
        let cpuSet := pin cpuSet (groupOf thread)
        if groupOf thread + 1 = groupCount then some cpuSet
        else
          widenLoop nodeinfo pin groupOf groupCount nextStart fuel
            { iter with next := nextStart thread } cpuSet
      else
        widenLoop nodeinfo pin groupOf groupCount nextStart fuel iter cpuSet

def bindToSockets (cpuSet : CPUSet) (nodeinfo : NodeInfo) : Option CPUSet :=
  widenLoop nodeinfo (pinToSocket nodeinfo none) nodeinfo.getSocketByThread nodeinfo.socketCount
    (fun thread => getNextSocketStart thread nodeinfo false) (nodeinfo.threadCount + 1)
    (threadIterInit nodeinfo 0) cpuSet

def bindToCores (cpuSet : CPUSet) (nodeinfo : NodeInfo) : Option CPUSet :=
  widenLoop nodeinfo (pinToCore nodeinfo) nodeinfo.getCore nodeinfo.coreCount
    (fun thread => getNextCoreStart thread nodeinfo)
    (nodeinfo.threadCount + 1) (threadIterInit nodeinfo 0) cpuSet

structure Groups (nodeinfo : NodeInfo) (pin : CPUSet → Nat → CPUSet)
    (groupOf : Nat → Nat) (groupCount : Nat) (nextStart : Nat → Nat)
    (size : Nat) : Prop where
  positive : 0 < size
  whole : size * groupCount = nodeinfo.threadCount
  group : ∀ thread < nodeinfo.threadCount, groupOf thread =
    walkIndex nodeinfo .fillSocketsFillCores thread / size
  next : ∀ thread < nodeinfo.threadCount, groupOf thread + 1 < groupCount →
    nextStart thread < nodeinfo.threadCount ∧
      walkIndex nodeinfo .fillSocketsFillCores (nextStart thread) = size * (groupOf thread + 1)
  pinned : ∀ cpuSet, ∀ group < groupCount, ∀ thread, thread ∈ pin cpuSet group ↔ thread ∈ cpuSet ∨
      thread ∈ nodeinfo.stepHWthreads ∧ groupOf thread = group

/-- The set once the walk has come by the indices below `index`. -/
def widened (nodeinfo : NodeInfo) (groupOf : Nat → Nat) (original : CPUSet)
    (index : Nat) : CPUSet :=
  original ∪ nodeinfo.stepHWthreads.filter (fun thread =>
    ∃ cpu ∈ original,
      walkIndex nodeinfo .fillSocketsFillCores cpu < index ∧ groupOf cpu = groupOf thread)

section Widen

variable {pin : CPUSet → Nat → CPUSet} {groupOf nextStart : Nat → Nat}
  {groupCount size : Nat} {original : CPUSet}

theorem mem_widened : thread ∈ widened nodeinfo groupOf original index ↔
      thread ∈ original ∨ thread ∈ nodeinfo.stepHWthreads ∧ ∃ cpu ∈ original,
          walkIndex nodeinfo .fillSocketsFillCores cpu < index ∧ groupOf cpu = groupOf thread := by
  rw [widened, Finset.mem_union, Finset.mem_filter]

variable (groups : Groups nodeinfo pin groupOf groupCount nextStart size)

include groups

theorem Groups.few (bound : thread < nodeinfo.threadCount) : groupOf thread < groupCount := by
  rw [groups.group thread bound]
  refine Nat.div_lt_of_lt_mul ?_
  rw [groups.whole]
  exact walkIndex_lt bound

theorem Groups.within (bound : thread < nodeinfo.threadCount) :
    walkIndex nodeinfo .fillSocketsFillCores thread < size * (groupOf thread + 1) ∧
      size * (groupOf thread + 1) ≤ nodeinfo.threadCount := by
  constructor
  · rw [groups.group thread bound]
    exact Nat.lt_mul_div_succ _ groups.positive
  · rw [← groups.whole]
    exact Nat.mul_le_mul_left _ (groups.few bound)

variable (inStep : ∀ cpu ∈ original, cpu < nodeinfo.threadCount)

include inStep

theorem widened_pin (bound : thread < nodeinfo.threadCount)
    (found : thread ∈ widened nodeinfo groupOf original index)
    (behind : index = nodeinfo.threadCount ∨
      index = walkIndex nodeinfo .fillSocketsFillCores thread) :
    pin (widened nodeinfo groupOf original index) (groupOf thread) =
      widened nodeinfo groupOf original (max index (size * (groupOf thread + 1))) := by
  ext other
  rw [groups.pinned _ _ (groups.few bound), mem_widened, mem_widened]
  constructor
  · rintro ((member | ⟨inside, cpu, member, below, same⟩) | ⟨inside, same⟩)
    · exact .inl member
    · exact .inr ⟨inside, cpu, member, lt_max_of_lt_left below, same⟩
    · rcases mem_widened.mp found with member | ⟨_, cpu, member, _, group⟩
      · exact .inr ⟨inside, thread, member, lt_max_of_lt_right (groups.within bound).1, same.symm⟩
      · refine .inr ⟨inside, cpu, member, lt_max_of_lt_right ?_, group.trans same.symm⟩
        rw [← group]
        exact (groups.within (inStep cpu member)).1
  · rintro (member | ⟨inside, cpu, member, below, same⟩)
    · exact .inl (.inl member)
    · by_cases earlier : walkIndex nodeinfo .fillSocketsFillCores cpu < index
      · exact .inl (.inr ⟨inside, cpu, member, earlier, same⟩)
      · refine .inr ⟨inside, same.symm.trans ?_⟩
        have bounded := @walkIndex_lt nodeinfo .fillSocketsFillCores cpu (inStep cpu member)
        have here : index = walkIndex nodeinfo .fillSocketsFillCores thread :=
          behind.resolve_left (by omega)
        rw [groups.group cpu (inStep cpu member)]
        refine le_antisymm (Nat.lt_succ_iff.mp (Nat.div_lt_of_lt_mul ?_)) ?_
        · exact (lt_max_iff.mp below).resolve_left earlier
        · rw [groups.group thread bound]
          exact Nat.div_le_div_right (by omega)

theorem widened_pass (bound : thread < nodeinfo.threadCount)
    (missing : thread ∉ widened nodeinfo groupOf original
      (walkIndex nodeinfo .fillSocketsFillCores thread)) :
    widened nodeinfo groupOf original (walkIndex nodeinfo .fillSocketsFillCores thread) =
      widened nodeinfo groupOf original (walkIndex nodeinfo .fillSocketsFillCores thread + 1) := by
  ext other
  simp only [mem_widened] at missing ⊢
  refine or_congr_right (and_congr_right (fun _ => exists_congr (fun cpu =>
    and_congr_right (fun member => and_congr_left (fun _ => ?_)))))
  have other : walkIndex nodeinfo .fillSocketsFillCores cpu ≠
      walkIndex nodeinfo .fillSocketsFillCores thread := by
    intro same
    have equal := walkIndex_injOn (inStep cpu member) bound same
    exact missing (.inl (equal ▸ member))
  omega

theorem widenLoop_spec (fuel : Nat) {next count : Nat}
    (bound : next < nodeinfo.threadCount)
    (enough : nodeinfo.threadCount < fuel + count)
    (early : count < nodeinfo.threadCount) (at_ : index = nodeinfo.threadCount ∨
      index = walkIndex nodeinfo .fillSocketsFillCores next ∧ count ≤ index) :
    widenLoop nodeinfo pin groupOf groupCount nextStart fuel
        { next := next, valid := true, count := count } (widened nodeinfo groupOf original index) =
      some (widened nodeinfo groupOf original nodeinfo.threadCount) := by
  induction fuel generalizing next count index with
  | zero => omega
  | succ fuel induction =>
    obtain ⟨below, atMost⟩ := groups.within bound
    have inside := @walkIndex_lt nodeinfo .fillSocketsFillCores next bound
    have pinning := fun found => widened_pin groups inStep bound found (at_.imp_right And.left)
    have follows := @walkIndex_iterNext nodeinfo _ .fillSocketsFillCores bound
    rw [widenLoop]
    by_cases ends : count + 1 ≥ nodeinfo.threadCount
    · have calling : threadIterNext .fillSocketsFillCores nodeinfo
          { next := next, valid := true, count := count } =
          some (next, { next := next, valid := false, count := count + 1 }) := by
        simp [threadIterNext, ends]
      obtain ⟨fuel, rfl⟩ := Nat.exists_eq_succ_of_ne_zero (by omega : fuel ≠ 0)
      rw [calling]
      dsimp only
      by_cases found : next ∈ widened nodeinfo groupOf original index
      · have complete : max index (size * (groupOf next + 1)) = nodeinfo.threadCount := by
          omega
        rw [if_pos found, pinning found, complete]
        split <;> rfl
      · rw [if_neg found]
        change some _ = some _
        rcases at_ with rfl | ⟨rfl, _⟩
        · rfl
        · rw [widened_pass groups inStep bound found]
          congr 2
          omega
    · have calling : threadIterNext .fillSocketsFillCores nodeinfo
          { next := next, valid := true, count := count } =
          some (next,
            { next := iterNext .fillSocketsFillCores nodeinfo next
              valid := true
              count := count + 1 }) := by
        simp [threadIterNext, ends]
      rw [calling]
      dsimp only
      by_cases found : next ∈ widened nodeinfo groupOf original index
      · rw [if_pos found, pinning found]
        by_cases last : groupOf next + 1 = groupCount
        · rw [if_pos last, last, groups.whole, max_eq_right (by omega)]
        · have few := groups.few bound
          obtain ⟨jumps, position⟩ := groups.next next bound (by omega)
          rw [if_neg last]
          exact induction jumps (by omega) (by omega) (by omega)
      · rw [if_neg found]
        rcases at_ with rfl | ⟨rfl, counted⟩
        · exact induction (iterNext_lt bound) (by omega) (by omega) (.inl rfl)
        · rw [widened_pass groups inStep bound found]
          refine induction (iterNext_lt bound) (by omega) (by omega) ?_
          by_cases more : walkIndex nodeinfo .fillSocketsFillCores next + 1 < nodeinfo.threadCount
          · rw [Nat.mod_eq_of_lt more] at follows
            omega
          · omega

end Widen

theorem walkIndex_fill (thread : Nat) : walkIndex nodeinfo .fillSocketsFillCores thread =
      nodeinfo.getCorethread thread + nodeinfo.threadsPerCore * nodeinfo.getCore thread := by
  simp only [walkIndex, ThreadIterStrategy.radix, ThreadIterStrategy.digits,
    Odometer.value, Nat.mod_add_div]
  rfl

theorem getCore_eq_walkIndex_div (bound : thread < nodeinfo.threadCount) : nodeinfo.getCore thread =
      walkIndex nodeinfo .fillSocketsFillCores thread / nodeinfo.threadsPerCore := by
  have few : nodeinfo.getCorethread thread < nodeinfo.threadsPerCore := Nat.div_lt_of_lt_mul bound
  rw [walkIndex_fill, Nat.add_mul_div_left _ _ nodeinfo.threads, Nat.div_eq_of_lt few, Nat.zero_add]

theorem walkIndex_core {core : Nat} (bound : core < nodeinfo.coreCount) :
    core < nodeinfo.threadCount ∧
      walkIndex nodeinfo .fillSocketsFillCores core = nodeinfo.threadsPerCore * core := by
  constructor
  · exact lt_of_lt_of_le bound (Nat.le_mul_of_pos_right _ nodeinfo.threads)
  · rw [walkIndex_fill, NodeInfo.getCorethread, NodeInfo.getCore,
      Nat.div_eq_of_lt bound, Nat.mod_eq_of_lt bound, Nat.zero_add]

theorem mem_foldl {adds : CPUSet → Nat → CPUSet} {added : Nat → Nat → Prop}
    (step : ∀ cpuSet item thread, thread ∈ adds cpuSet item ↔
      thread ∈ cpuSet ∨ added item thread) (items : List Nat)
    (cpuSet : CPUSet) (thread : Nat) :
    thread ∈ items.foldl adds cpuSet ↔ thread ∈ cpuSet ∨ ∃ item ∈ items, added item thread := by
  induction items generalizing cpuSet with
  | nil => simp
  | cons item items induction => rw [foldl_cons, induction, step, exists_mem_cons_iff, or_assoc]

theorem mem_pinned (cores : WholeCores nodeinfo) (cpuSet : CPUSet)
    (thread other : Nat) :
    other ∈ (if thread ∉ nodeinfo.stepHWthreads then cpuSet
        else setCPU cpuSet thread) ↔
      other ∈ cpuSet ∨ other ∈ nodeinfo.stepHWthreads ∧ other = thread := by
  by_cases inside : thread ∈ nodeinfo.stepHWthreads
  · rw [if_neg (not_not.mpr inside), setCPU, if_pos (cores.held _ inside),
      Finset.mem_insert, or_comm]
    exact or_congr_right ⟨fun same => ⟨same ▸ inside, same⟩, And.right⟩
  · rw [if_pos inside]
    exact ⟨.inl, fun member => member.resolve_right (fun same => inside (same.2 ▸ same.1))⟩

section Exact

variable (cores : WholeCores nodeinfo)
  (step : ∀ thread ∈ nodeinfo.stepHWthreads, thread < nodeinfo.threadCount)

include cores step

theorem groups_cores : Groups nodeinfo (pinToCore nodeinfo) nodeinfo.getCore nodeinfo.coreCount
    (fun thread => getNextCoreStart thread nodeinfo) nodeinfo.threadsPerCore := by
  refine ⟨nodeinfo.threads, Nat.mul_comm _ _,
    fun _ bound => getCore_eq_walkIndex_div bound, ?_, ?_⟩
  · intro thread _ more
    rw [getNextCoreStart, Nat.mod_eq_of_lt more]
    exact walkIndex_core more
  · intro cpuSet core inside thread
    rw [pinToCore, mem_foldl (fun cpuSet t other =>
      mem_pinned cores cpuSet (nodeinfo.coreCount * t + core) other)]
    refine or_congr_right ⟨?_, ?_⟩
    · rintro ⟨t, _, held, rfl⟩
      refine ⟨held, ?_⟩
      rw [NodeInfo.getCore, Nat.mul_add_mod, Nat.mod_eq_of_lt inside]
    · rintro ⟨held, rfl⟩
      exact ⟨thread / nodeinfo.coreCount,
        mem_range.mpr (Nat.div_lt_of_lt_mul (step thread held)), held,
        (Nat.div_add_mod _ _).symm⟩

theorem groups_sockets : Groups nodeinfo (pinToSocket nodeinfo none) nodeinfo.getSocketByThread
    nodeinfo.socketCount (fun thread => getNextSocketStart thread nodeinfo false)
    (nodeinfo.threadsPerCore * nodeinfo.coresPerSocket) := by
  refine ⟨Nat.mul_pos nodeinfo.threads nodeinfo.cores, ?_, ?_, ?_, ?_⟩
  · rw [NodeInfo.threadCount, NodeInfo.coreCount_eq]
    ring
  · intro thread bound
    rw [NodeInfo.getSocketByThread, getCore_eq_walkIndex_div bound, Nat.div_div_eq_div_mul]
  · intro thread _ more
    have inside : (nodeinfo.getSocketByThread thread + 1) *
        nodeinfo.coresPerSocket < nodeinfo.coreCount :=
      Nat.mul_lt_mul_of_pos_right more nodeinfo.cores
    have first := walkIndex_core inside
    rw [getNextSocketStart, if_neg (by decide), Nat.mod_eq_of_lt more,
      first.2]
    exact ⟨first.1, by ring⟩
  · intro cpuSet socket inside thread
    refine (mem_foldl (fun cpuSet c other =>
      mem_foldl (fun cpuSet t other => mem_pinned cores cpuSet
        (nodeinfo.coreCount * t + socket * nodeinfo.coresPerSocket + c) other)
        _ cpuSet other) _ cpuSet thread).trans (or_congr_right ⟨?_, ?_⟩)
    · rintro ⟨c, core, t, corethread, held, rfl⟩
      refine ⟨held, ?_⟩
      have position : nodeinfo.Position t socket c :=
        ⟨mem_range.mp corethread, inside, mem_range.mp core⟩
      rw [NodeInfo.getSocketByThread, NodeInfo.getCore, Nat.add_assoc, Nat.mul_comm socket]
      exact (congrArg (fun place => place / nodeinfo.coresPerSocket)
        position.mod).trans position.socket_eq
    · rintro ⟨held, rfl⟩
      obtain ⟨t, socket, c, position, rfl⟩ := nodeinfo.exists_position (step thread held)
      refine ⟨c, mem_range.mpr position.core, t, mem_range.mpr position.thread, held, ?_⟩
      rw [NodeInfo.getSocketByThread, NodeInfo.getCore, position.mod,
        position.socket_eq, NodeInfo.threadAt, Nat.mul_comm socket,
        Nat.add_assoc]

omit cores in
theorem widenLoop_exact {pin : CPUSet → Nat → CPUSet} {groupOf nextStart : Nat → Nat}
    {groupCount size : Nat} {original : CPUSet}
    (groups : Groups nodeinfo pin groupOf groupCount nextStart size)
    (within : original ⊆ nodeinfo.stepHWthreads) :
    widenLoop nodeinfo pin groupOf groupCount nextStart
        (nodeinfo.threadCount + 1) (threadIterInit nodeinfo 0) original =
      some (nodeinfo.stepHWthreads.filter (fun thread =>
        ∃ cpu ∈ original, groupOf cpu = groupOf thread)) := by
  have first := @walkIndex_core nodeinfo 0 NodeInfo.coreCount_pos
  have inside : ∀ cpu ∈ original, cpu < nodeinfo.threadCount :=
    fun cpu member => step cpu (within member)
  have nothing : widened nodeinfo groupOf original 0 = original := by
    ext thread
    simp [mem_widened]
  have everything : widened nodeinfo groupOf original nodeinfo.threadCount =
      nodeinfo.stepHWthreads.filter (fun thread =>
        ∃ cpu ∈ original, groupOf cpu = groupOf thread) := by
    ext thread
    rw [mem_widened, Finset.mem_filter]
    constructor
    · rintro (member | ⟨held, cpu, member, _, same⟩)
      · exact ⟨within member, thread, member, rfl⟩
      · exact ⟨held, cpu, member, same⟩
    · rintro ⟨held, cpu, member, same⟩
      exact .inr ⟨held, cpu, member, walkIndex_lt (inside cpu member), same⟩
  have loop := widenLoop_spec groups inside (nodeinfo.threadCount + 1)
    first.1 (by omega) first.1 (.inr ⟨first.2.symm, Nat.zero_le _⟩)
  rw [Nat.mul_zero, nothing, everything] at loop
  rw [threadIterInit, decide_eq_true first.1]
  exact loop

/-- Widening gives the threads of the step on the sockets and cores with a CPU
of the set. -/
theorem widening_exact {original : CPUSet}
    (within : original ⊆ nodeinfo.stepHWthreads) :
    bindToSockets original nodeinfo =
        some (nodeinfo.stepHWthreads.filter (fun thread =>
          ∃ cpu ∈ original, nodeinfo.getSocketByThread cpu = nodeinfo.getSocketByThread thread)) ∧
      bindToCores original nodeinfo =
        some ((Finset.range nodeinfo.threadCount).filter (fun thread =>
          ∃ cpu ∈ original, nodeinfo.getCore cpu = nodeinfo.getCore thread)) := by
  refine ⟨widenLoop_exact step (groups_sockets cores step) within,
    (widenLoop_exact step (groups_cores cores step) within).trans ?_⟩
  congr 1
  ext thread
  rw [Finset.mem_filter, Finset.mem_filter, Finset.mem_range]
  refine and_congr_left (fun ⟨cpu, member, same⟩ => ⟨step thread, fun bound => ?_⟩)
  exact cores.whole cpu (within member) thread bound same.symm

end Exact

theorem widening_exact_fourCores : bindToSockets {2, 6} fourCores = some {2, 3, 6, 7, 10, 11} := by
  refine (widening_exact fourCores_whole (fun _ member => Finset.mem_range.mp member) ?_).1.trans ?_
  · decide
  · decide +kernel

end Psmgmt.Slurm.Pin
