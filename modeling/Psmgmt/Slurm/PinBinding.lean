import Psmgmt.Slurm.PinWalk

/-!
# What tasks are bound to

A task takes the lowest unused thread of each core it comes by.  It misses
threads where its walk starts in the middle of a core.
-/

namespace Psmgmt.Slurm.Pin

open Partition List Function Option Picking NodeInfo

def stepThreads (nodeinfo : NodeInfo) : Finset Nat :=
  (Finset.range nodeinfo.threadCount).filter (fun thread => thread ∈ nodeinfo.stepHWthreads)

/-- Those that are still unused. -/
def freeThreads (nodeinfo : NodeInfo) (pininfo : PinInfo) : Finset Nat :=
  (Finset.range nodeinfo.threadCount).filter (fun thread => usable nodeinfo pininfo thread = true)

/-- The step has whole cores, within the range of a CPU set. -/
structure WholeCores (nodeinfo : NodeInfo) : Prop where
  whole : ∀ thread ∈ nodeinfo.stepHWthreads, ∀ other < nodeinfo.threadCount,
      nodeinfo.getCore other = nodeinfo.getCore thread → other ∈ nodeinfo.stepHWthreads
  held : ∀ thread ∈ nodeinfo.stepHWthreads, thread < cpuMax

def freeFrom (nodeinfo : NodeInfo) (pininfo : PinInfo) (start core : Nat) : Finset Nat :=
  (freeThreads nodeinfo pininfo).filter (fun thread =>
    nodeinfo.getCore thread = core ∧ walkIndex nodeinfo pininfo.threadIterStrategy start ≤
        walkIndex nodeinfo pininfo.threadIterStrategy thread)

/-- The unused threads of a core that the walk comes by at its end. -/
def freeBefore (nodeinfo : NodeInfo) (pininfo : PinInfo) (start core : Nat) : Finset Nat :=
  (freeThreads nodeinfo pininfo).filter (fun thread =>
    nodeinfo.getCore thread = core ∧ walkIndex nodeinfo pininfo.threadIterStrategy thread <
        walkIndex nodeinfo pininfo.threadIterStrategy start)

/-- Where the walk for a task starts. -/
def startThread (nodeinfo : NodeInfo) (pininfo : PinInfo) : Option Nat :=
  match pininfo.lastUsedThread with
  | none => some 0
  | some lastUsedThread => getNextStartThread nodeinfo pininfo lastUsedThread

/-- The number of threads a walk can find: of each core the larger of its two
parts. -/
def available (nodeinfo : NodeInfo) (pininfo : PinInfo) : Nat :=
  match startThread nodeinfo pininfo with
  | none => 0
  | some start => ∑ core ∈ Finset.range nodeinfo.coreCount,
      max (freeFrom nodeinfo pininfo start core).card (freeBefore nodeinfo pininfo start core).card

/-! ## Selecting threads -/

section Select

variable {nodeinfo : NodeInfo} {pininfo : PinInfo} {thread : Nat}

theorem mem_freeThreads : thread ∈ freeThreads nodeinfo pininfo ↔
    thread < nodeinfo.threadCount ∧ thread ∈ nodeinfo.stepHWthreads ∧
      pininfo.usedHwThreads thread < pininfo.maxuse := by
  simp [freeThreads, usable]

theorem core_add_corethread (thread : Nat) :
    nodeinfo.getCorethread thread * nodeinfo.coreCount + nodeinfo.getCore thread = thread := by
  rw [NodeInfo.getCorethread, NodeInfo.getCore, Nat.mul_comm, Nat.div_add_mod]

theorem getCore_lt (thread : Nat) : nodeinfo.getCore thread < nodeinfo.coreCount :=
  Nat.mod_lt _ coreCount_pos

theorem getCore_checkthread (t thread : Nat) :
    nodeinfo.getCore (t * nodeinfo.coreCount + nodeinfo.getCore thread) =
      nodeinfo.getCore thread := by
  unfold NodeInfo.getCore
  rw [Nat.mul_comm, Nat.mul_add_mod, Nat.mod_mod]

theorem corethread_lt {other : Nat} (sameCore : nodeinfo.getCore other = nodeinfo.getCore thread)
    (lower : other < thread) :
    nodeinfo.getCorethread other < nodeinfo.getCorethread thread := by
  have first := @core_add_corethread nodeinfo other
  have second := @core_add_corethread nodeinfo thread
  by_contra notLower
  have bound := Nat.mul_le_mul_right nodeinfo.coreCount (Nat.not_lt.mp notLower)
  omega

theorem lowerThread_eq (cores : WholeCores nodeinfo)
    (free : thread ∈ freeThreads nodeinfo pininfo) :
    lowerThread nodeinfo pininfo thread =
      Picking.lowest nodeinfo.getCore (freeThreads nodeinfo pininfo)
        thread := by
  obtain ⟨bound, inStep, unused⟩ := mem_freeThreads.mp free
  obtain ⟨lowest, sameCore⟩ := @lowest_mem _ _ _ _ nodeinfo.getCore _ _ free
  have least := fun other inside same =>
    @lowest_le _ _ _ _ nodeinfo.getCore _ _ other free inside same
  generalize Picking.lowest nodeinfo.getCore (freeThreads nodeinfo pininfo)
    thread = first at lowest sameCore least ⊢
  obtain ⟨_, _, firstUnused⟩ := mem_freeThreads.mp lowest
  have position := @core_add_corethread nodeinfo first
  rw [sameCore] at position
  rw [lowerThread, find?_map]
  cases search : (List.range (nodeinfo.getCorethread thread)).find? _ with
  | none =>
    -- all lower threads are used
    rw [map_none, getD_none]
    refine Nat.le_antisymm ?_ (least thread free rfl)
    by_contra above
    have lower := corethread_lt sameCore (Nat.not_le.mp above)
    have used := find?_eq_none.mp search _ (mem_range.mpr lower)
    simp only [comp, position, decide_eq_true_eq] at used
    exact used firstUnused
  | some t =>
    rw [map_some, getD_some]
    obtain ⟨found, inRange, earlier⟩ := find?_range_eq_some.mp search
    simp only [comp, decide_eq_true_eq] at found
    have tBound := mem_range.mp inRange
    have below : t * nodeinfo.coreCount + nodeinfo.getCore thread <
        thread := by
      have whole := @core_add_corethread nodeinfo thread
      have product := Nat.mul_le_mul_right nodeinfo.coreCount tBound
      have positive := @coreCount_pos nodeinfo
      rw [Nat.succ_mul] at product
      omega
    have checkFree : t * nodeinfo.coreCount + nodeinfo.getCore thread ∈
        freeThreads nodeinfo pininfo :=
      mem_freeThreads.mpr
        ⟨by omega, cores.whole thread inStep _ (by omega) (getCore_checkthread t thread), found⟩
    refine Nat.le_antisymm ?_ (least _ checkFree (getCore_checkthread t thread))
    by_contra above
    have lower := corethread_lt (sameCore.trans (getCore_checkthread t thread).symm)
      (Nat.not_le.mp above)
    have level : nodeinfo.getCorethread (t * nodeinfo.coreCount + nodeinfo.getCore thread) = t := by
      rw [NodeInfo.getCorethread, Nat.mul_comm,
        Nat.mul_add_div coreCount_pos,
        Nat.div_eq_of_lt (getCore_lt thread), Nat.add_zero]
    rw [level] at lower
    have used := earlier _ lower
    simp [comp, position] at used
    omega

/-- The settings of the pinning information that never change. -/
structure SameSettings (before after : PinInfo) : Prop where
  threadIterStrategy : after.threadIterStrategy = before.threadIterStrategy
  nextStartStrategy : after.nextStartStrategy = before.nextStartStrategy
  overcommit : after.overcommit = before.overcommit
  maxuse : after.maxuse = before.maxuse
  threadsPerTask : after.threadsPerTask = before.threadsPerTask

theorem SameSettings.refl (pininfo : PinInfo) : SameSettings pininfo pininfo :=
  ⟨rfl, rfl, rfl, rfl, rfl⟩

theorem SameSettings.trans {first second third : PinInfo}
    (left : SameSettings first second) (right : SameSettings second third) :
    SameSettings first third :=
  ⟨right.threadIterStrategy.trans left.threadIterStrategy,
    right.nextStartStrategy.trans left.nextStartStrategy,
    right.overcommit.trans left.overcommit, right.maxuse.trans left.maxuse,
    right.threadsPerTask.trans left.threadsPerTask⟩

theorem freeThreads_use {used : Nat → Nat} {first : Option Nat} (single : pininfo.maxuse = 1)
    (free : thread ∈ freeThreads nodeinfo pininfo)
    (update : used = update pininfo.usedHwThreads thread (pininfo.usedHwThreads thread + 1)) :
    freeThreads nodeinfo { pininfo with firstThread := first, usedHwThreads := used } =
      (freeThreads nodeinfo pininfo).erase thread := by
  obtain ⟨_, _, unused⟩ := mem_freeThreads.mp free
  ext other
  rw [Finset.mem_erase, mem_freeThreads, mem_freeThreads]
  dsimp only
  rw [update]
  by_cases same : other = thread
  · subst same
    rw [update_self]
    constructor
    · rintro ⟨_, _, more⟩
      omega
    · rintro ⟨apart, _⟩
      exact absurd rfl apart
  · rw [update_of_ne same]
    exact (and_iff_right same).symm

/-- What the loop selects. -/
structure Selected (nodeinfo : NodeInfo) (before after : Selection)
    (picked : List Nat) : Prop where
  cpuSet : after.cpuSet = before.cpuSet ∪ picked.toFinset
  threadsLeft : after.threadsLeft = before.threadsLeft - picked.length
  free : freeThreads nodeinfo after.pininfo = freeThreads nodeinfo before.pininfo \ picked.toFinset
  settings : SameSettings before.pininfo after.pininfo

theorem selectThread_pass (selection : Selection)
    (absent : thread ∉ freeThreads nodeinfo selection.pininfo)
    (bound : thread < nodeinfo.threadCount) :
    ∃ usableThreads, selectThread nodeinfo selection thread =
      { selection with
        thread := some thread
        usableThreads := usableThreads } := by
  rw [selectThread]
  by_cases inStep : thread ∈ nodeinfo.stepHWthreads
  · have used : selection.pininfo.usedHwThreads thread ≥ selection.pininfo.maxuse := by
      by_contra unused
      exact absent (mem_freeThreads.mpr ⟨bound, inStep, Nat.not_le.mp unused⟩)
    exact ⟨_, by rw [if_neg (not_not.mpr inStep), if_pos used]⟩
  · exact ⟨_, if_pos inStep⟩

theorem selectThread_take (cores : WholeCores nodeinfo)
    (selection : Selection) (single : selection.pininfo.maxuse = 1)
    (present : thread ∈ freeThreads nodeinfo selection.pininfo) :
    Selected nodeinfo selection (selectThread nodeinfo selection thread)
      [Picking.lowest nodeinfo.getCore (freeThreads nodeinfo selection.pininfo) thread] := by
  obtain ⟨_, inStep, unused⟩ := mem_freeThreads.mp present
  obtain ⟨lowest, _⟩ := @lowest_mem _ _ _ _ nodeinfo.getCore _ _ present
  have held := cores.held _ (mem_freeThreads.mp lowest).2.1
  rw [selectThread, if_neg (not_not.mpr inStep),
    if_neg (Nat.not_le.mpr unused), lowerThread_eq cores present]
  refine ⟨?_, rfl, ?_, ⟨rfl, rfl, rfl, rfl, rfl⟩⟩
  · dsimp only
    rw [setCPU, if_pos held, toFinset_cons, toFinset_nil, insert_empty_eq, Finset.union_singleton]
  · dsimp only
    rw [freeThreads_use single lowest rfl, Finset.erase_eq,
      toFinset_cons, toFinset_nil, insert_empty_eq]

theorem Selected.trans {first second third : Selection} {picked more : List Nat}
    (left : Selected nodeinfo first second picked) (right : Selected nodeinfo second third more) :
    Selected nodeinfo first third (picked ++ more) := by
  refine ⟨?_, ?_, ?_, left.settings.trans right.settings⟩
  · rw [right.cpuSet, left.cpuSet, toFinset_append, Finset.union_assoc]
  · rw [right.threadsLeft, left.threadsLeft, length_append]
    omega
  · rw [right.free, left.free, toFinset_append, sdiff_sdiff_left]
    rfl

theorem selectLoop_spec (cores : WholeCores nodeinfo) (walk : List Nat)
    (below : ∀ thread ∈ walk, thread < nodeinfo.threadCount)
    (selection : Selection) (single : selection.pininfo.maxuse = 1) :
    Selected nodeinfo selection (selectLoop nodeinfo walk selection)
      (Picking.picks nodeinfo.getCore selection.threadsLeft walk
        (freeThreads nodeinfo selection.pininfo)) := by
  have stays : Selected nodeinfo selection selection [] :=
    ⟨by simp, by simp, by simp, SameSettings.refl _⟩
  induction walk generalizing selection with
  | nil =>
    rw [selectLoop]
    cases selection.threadsLeft with
    | zero => exact stays
    | succ need => exact stays
  | cons first rest induction =>
    have restBelow : ∀ thread ∈ rest, thread < nodeinfo.threadCount :=
      fun thread member => below thread (mem_cons_of_mem _ member)
    have later := fun selection single => induction restBelow selection
      single ⟨by simp, by simp, by simp, SameSettings.refl _⟩
    rw [selectLoop]
    cases left : selection.threadsLeft with
    | zero => exact stays
    | succ need =>
      rw [if_neg (Nat.succ_ne_zero need), Picking.picks]
      by_cases present :
          first ∈ freeThreads nodeinfo selection.pininfo
      · have taken := selectThread_take cores selection single present
        have more := later (selectThread nodeinfo selection first)
          (taken.settings.maxuse.trans single)
        rw [taken.free, taken.threadsLeft, left, toFinset_cons,
          toFinset_nil, insert_empty_eq, ← Finset.erase_eq] at more
        rw [if_pos present]
        exact taken.trans more
      · obtain ⟨usableThreads, passed⟩ := selectThread_pass selection
          present (below first (by simp))
        rw [if_neg present, ← left, passed]
        have more := later { selection with
          thread := some first
          usableThreads := usableThreads } single
        exact ⟨more.cpuSet, more.threadsLeft, more.free, more.settings⟩

end Select

/-! ## One task -/

variable {start : Nat}

section Task

variable {nodeinfo : NodeInfo} {pininfo : PinInfo}

/-- How much a whole walk finds. -/
theorem hits_threadIter (bound : start < nodeinfo.threadCount) :
    Picking.hits nodeinfo.getCore (threadIter pininfo.threadIterStrategy nodeinfo start)
        (freeThreads nodeinfo pininfo) =
      ∑ core ∈ Finset.range nodeinfo.coreCount, max (freeFrom nodeinfo pininfo start core).card
          (freeBefore nodeinfo pininfo start core).card := by
  obtain ⟨upper, lower, walk, upperAscending, lowerAscending, inUpper,
    inLower⟩ := @threadIter_parts nodeinfo pininfo.threadIterStrategy start bound
  have fromStart : ∀ core, Picking.metIn nodeinfo.getCore upper
      (freeThreads nodeinfo pininfo) core = freeFrom nodeinfo pininfo start core := by
    intro core
    ext thread
    rw [mem_metIn, freeFrom, Finset.mem_filter, inUpper]
    constructor
    · rintro ⟨free, own, _, index⟩
      exact ⟨free, own, index⟩
    · rintro ⟨free, own, index⟩
      exact ⟨free, own, (mem_freeThreads.mp free).1, index⟩
  have beforeStart : ∀ core, Picking.metIn nodeinfo.getCore lower
      (freeThreads nodeinfo pininfo) core = freeBefore nodeinfo pininfo start core := by
    intro core
    ext thread
    rw [mem_metIn, freeBefore, Finset.mem_filter, inLower]
    constructor
    · rintro ⟨free, own, _, index⟩
      exact ⟨free, own, index⟩
    · rintro ⟨free, own, index⟩
      exact ⟨free, own, (mem_freeThreads.mp free).1, index⟩
  have below : ∀ thread ∈ freeThreads nodeinfo pininfo, thread ∈ lower ∨
      ∀ other ∈ lower, nodeinfo.getCore other = nodeinfo.getCore thread → other < thread := by
    intro thread free
    by_cases early : thread ∈ lower
    · exact .inl early
    · right
      intro other member sameCore
      by_contra above
      have order := @walkIndex_mono nodeinfo pininfo.threadIterStrategy _ _
        sameCore.symm (Nat.not_lt.mp above)
      have index := ((inLower other).mp member).2
      exact early ((inLower thread).mpr ⟨(mem_freeThreads.mp free).1, by omega⟩)
  have apart : ∀ thread ∈ upper, thread ∉ lower := by
    intro thread first second
    have from' := ((inUpper thread).mp first).2
    have before := ((inLower thread).mp second).2
    omega
  have hits := hits_rotated upperAscending lowerAscending (freeThreads nodeinfo pininfo) below apart
    (fun thread _ => Finset.mem_range.mpr (@getCore_lt nodeinfo thread))
  rw [walk, hits]
  refine Finset.sum_congr rfl ?_
  intro core _
  rw [fromStart, beforeStart]

/-- What pinning a task does without overcommitment. -/
structure Pinned (nodeinfo : NodeInfo) (before : PinInfo) (binding : Binding)
    (after : PinInfo) : Prop where
  settings : SameSettings before after
  exact : before.threadsPerTask ≤ available nodeinfo before →
    binding.all = false ∧ binding.cpuSet ⊆ freeThreads nodeinfo before ∧ binding.cpuSet.card =
      before.threadsPerTask ∧ freeThreads nodeinfo after = freeThreads nodeinfo before \
      binding.cpuSet
  short : available nodeinfo before < before.threadsPerTask →
    binding.all = true ∧ freeThreads nodeinfo after ⊆ freeThreads nodeinfo before

theorem bindRounds_spec (cores : WholeCores nodeinfo) (single : pininfo.maxuse = 1)
    (noOvercommit : pininfo.overcommit = false) (bound : start < nodeinfo.threadCount)
    (chosen : startThread nodeinfo pininfo = some start) (rounds : Nat) :
    let result := bindRounds nodeinfo (rounds + 1) start
      { cpuSet := ∅, pininfo := pininfo, thread := none
        threadsLeft := pininfo.threadsPerTask, usableThreads := 0 }
    Pinned nodeinfo pininfo result.1 result.2 := by
  intro result
  have inside : ∀ thread ∈ threadIter pininfo.threadIterStrategy nodeinfo
      start, thread < nodeinfo.threadCount := by
    rw [threadIter, if_pos bound]
    exact iterate_lt bound
  have selected := selectLoop_spec cores _ inside
    { cpuSet := ∅, pininfo := pininfo, thread := none
      threadsLeft := pininfo.threadsPerTask, usableThreads := 0 } single
  have found : available nodeinfo pininfo = Picking.hits nodeinfo.getCore
      (threadIter pininfo.threadIterStrategy nodeinfo start) (freeThreads nodeinfo pininfo) := by
    rw [hits_threadIter bound, available, chosen]
  have length := @length_picks _ _ _ _ nodeinfo.getCore pininfo.threadsPerTask
    (threadIter pininfo.threadIterStrategy nodeinfo start) (freeThreads nodeinfo pininfo)
  rw [← found] at length
  have members := @picks_mem _ _ _ _ nodeinfo.getCore pininfo.threadsPerTask
    (threadIter pininfo.threadIterStrategy nodeinfo start) (freeThreads nodeinfo pininfo)
  have distinct := @picks_nodup _ _ _ _ nodeinfo.getCore pininfo.threadsPerTask
    (threadIter pininfo.threadIterStrategy nodeinfo start) (freeThreads nodeinfo pininfo)
  obtain ⟨cpuSet, threadsLeft, free, settings⟩ := selected
  dsimp only at cpuSet threadsLeft free settings
  generalize Picking.picks nodeinfo.getCore pininfo.threadsPerTask
    (threadIter pininfo.threadIterStrategy nodeinfo start) (freeThreads nodeinfo pininfo) = picked
    at cpuSet threadsLeft free length members distinct
  have unfolded : result = bindRounds nodeinfo (rounds + 1) start
      { cpuSet := ∅, pininfo := pininfo, thread := none
        threadsLeft := pininfo.threadsPerTask, usableThreads := 0 } := rfl
  rw [bindRounds] at unfolded
  dsimp only at unfolded
  generalize selectLoop nodeinfo (threadIter pininfo.threadIterStrategy
    nodeinfo start) { cpuSet := ∅, pininfo := pininfo, thread := none
                      threadsLeft := pininfo.threadsPerTask
                      usableThreads := 0 } = selection
    at cpuSet threadsLeft free settings unfolded
  have remembered : freeThreads nodeinfo
      { selection.pininfo with lastUsedThread := selection.thread } =
        freeThreads nodeinfo selection.pininfo := rfl
  rw [if_pos (settings.overcommit.trans noOvercommit)] at unfolded
  by_cases enough : pininfo.threadsPerTask ≤ available nodeinfo pininfo
  · have all : selection.threadsLeft = 0 := by omega
    rw [if_pos all] at unfolded
    rw [unfolded]
    refine ⟨⟨settings.1, settings.2, settings.3, settings.4, settings.5⟩,
      fun _ => ⟨rfl, ?_, ?_, ?_⟩, fun short => absurd short (by omega)⟩
    · intro thread member
      dsimp only at member
      rw [cpuSet, Finset.empty_union, List.mem_toFinset] at member
      exact members thread member
    · dsimp only
      rw [cpuSet, Finset.empty_union, List.toFinset_card_of_nodup distinct]
      omega
    · dsimp only
      rw [remembered, free, cpuSet, Finset.empty_union]
  · have some : selection.threadsLeft ≠ 0 := by omega
    rw [if_neg some] at unfolded
    rw [unfolded]
    refine ⟨⟨settings.1, settings.2, settings.3, settings.4, settings.5⟩,
      fun enough' => absurd enough' enough, fun _ => ⟨rfl, ?_⟩⟩
    dsimp only
    rw [remembered, free]
    exact Finset.sdiff_subset

theorem startThread_lt (chosen : startThread nodeinfo pininfo = some start) :
    start < nodeinfo.threadCount := by
  have walked : ∀ strategy first, start ∈ threadIter strategy nodeinfo first →
      start < nodeinfo.threadCount := by
    intro strategy first member
    unfold threadIter at member
    split at member
    · rename_i bound
      exact iterate_lt bound start member
    · cases member
  unfold startThread at chosen
  split at chosen
  · cases chosen
    exact Nat.mul_pos coreCount_pos nodeinfo.threads
  · rename_i lastUsedThread _
    have member := mem_of_find?_eq_some chosen
    cases strategy : pininfo.nextStartStrategy <;>
      (rw [strategy] at member
       exact walked _ _ member)

theorem getThreadsBinding_spec (cores : WholeCores nodeinfo) (single : pininfo.maxuse = 1)
    (noOvercommit : pininfo.overcommit = false) (positive : 0 < pininfo.threadsPerTask) :
    Pinned nodeinfo pininfo (getThreadsBinding nodeinfo pininfo).1
      (getThreadsBinding nodeinfo pininfo).2 := by
  rw [getThreadsBinding, if_neg (by omega)]
  cases last : pininfo.lastUsedThread with
  | none =>
    have chosen : startThread nodeinfo pininfo = some 0 := by
      rw [startThread, last]
    exact bindRounds_spec cores single noOvercommit (startThread_lt chosen) chosen _
  | some lastUsedThread =>
    have chosen : startThread nodeinfo pininfo =
        getNextStartThread nodeinfo pininfo lastUsedThread := by
      rw [startThread, last]
    dsimp only
    cases start : getNextStartThread nodeinfo pininfo lastUsedThread with
    | some start' =>
      rw [start] at chosen
      exact bindRounds_spec cores single noOvercommit (startThread_lt chosen) chosen _
    | none =>
      rw [start] at chosen
      have nothing : available nodeinfo pininfo = 0 := by
        rw [available, chosen]
      dsimp only
      rw [if_pos noOvercommit]
      refine ⟨SameSettings.refl _, fun enough => ?_, fun _ => ⟨rfl, ?_⟩⟩
      · omega
      · exact Finset.Subset.refl _

end Task

/-! ## The tasks of a node -/

/-- Each task that is not bound to all CPUs has its own threads of the step, as
many as it needs, and a task is bound to all CPUs only if there are fewer left
than it needs. -/
def Exclusive (nodeinfo : NodeInfo) (threadsPerTask : Nat) :
    (taken : Finset Nat) → List Binding → Prop
  | _, [] => True
  | taken, binding :: rest =>
    if binding.all then
      (stepThreads nodeinfo \ taken).card < threadsPerTask ∧
        Exclusive nodeinfo threadsPerTask taken rest
    else
      binding.cpuSet ⊆ stepThreads nodeinfo \ taken ∧ binding.cpuSet.card = threadsPerTask ∧
        Exclusive nodeinfo threadsPerTask (taken ∪ binding.cpuSet) rest

instance decidableExclusive (nodeinfo : NodeInfo) (threadsPerTask : Nat) :
    (taken : Finset Nat) → (bindings : List Binding) →
      Decidable (Exclusive nodeinfo threadsPerTask taken bindings)
  | _, [] => inferInstanceAs (Decidable True)
  | taken, binding :: rest =>
    have := decidableExclusive nodeinfo threadsPerTask taken rest
    have := decidableExclusive nodeinfo threadsPerTask (taken ∪ binding.cpuSet) rest
    inferInstanceAs (Decidable (if binding.all then
      (stepThreads nodeinfo \ taken).card < threadsPerTask ∧
        Exclusive nodeinfo threadsPerTask taken rest
    else
      binding.cpuSet ⊆ stepThreads nodeinfo \ taken ∧ binding.cpuSet.card = threadsPerTask ∧
        Exclusive nodeinfo threadsPerTask (taken ∪ binding.cpuSet) rest))

/-- The walk for a task finds enough threads, or there are too few. -/
def Found (nodeinfo : NodeInfo) (pininfo : PinInfo) : Prop :=
  (freeThreads nodeinfo pininfo).card < pininfo.threadsPerTask ∨
    pininfo.threadsPerTask ≤ available nodeinfo pininfo

/-- What is free has not been taken, and unless there is too little, what has
not been taken is free. -/
structure Tracked (nodeinfo : NodeInfo) (pininfo : PinInfo)
    (taken : Finset Nat) : Prop where
  single : pininfo.maxuse = 1
  noOvercommit : pininfo.overcommit = false
  free : freeThreads nodeinfo pininfo ⊆ stepThreads nodeinfo \ taken
  rest : freeThreads nodeinfo pininfo = stepThreads nodeinfo \ taken ∨
    (stepThreads nodeinfo \ taken).card < pininfo.threadsPerTask

theorem exclusive_iff {nodeinfo : NodeInfo} (cores : WholeCores nodeinfo) (tasks : Nat)
    {pininfo : PinInfo} {taken : Finset Nat} (positive : 0 < pininfo.threadsPerTask)
    (tracked : Tracked nodeinfo pininfo taken) :
    Exclusive nodeinfo pininfo.threadsPerTask taken
        ((pinTasks nodeinfo tasks pininfo).map Prod.snd) ↔
      ∀ state ∈ (pinTasks nodeinfo tasks pininfo).map Prod.fst, Found nodeinfo state := by
  induction tasks generalizing pininfo taken with
  | zero => simp [pinTasks, Exclusive]
  | succ tasks induction =>
    have pinned := getThreadsBinding_spec cores tracked.single tracked.noOvercommit positive
    have single := pinned.settings.maxuse.trans tracked.single
    have noOvercommit := pinned.settings.overcommit.trans tracked.noOvercommit
    have sameNeed := pinned.settings.threadsPerTask
    rw [pinTasks, map_cons, map_cons, forall_mem_cons, Exclusive]
    by_cases enough : pininfo.threadsPerTask ≤ available nodeinfo pininfo
    · obtain ⟨all, inside, card, free⟩ := pinned.exact enough
      have minus : stepThreads nodeinfo \ (taken ∪ (getThreadsBinding nodeinfo pininfo).1.cpuSet) =
          (stepThreads nodeinfo \ taken) \ (getThreadsBinding nodeinfo pininfo).1.cpuSet := by
        rw [sdiff_sdiff_left]
        rfl
      have later := @induction (getThreadsBinding nodeinfo pininfo).2
        (taken ∪ (getThreadsBinding nodeinfo pininfo).1.cpuSet)
        (by rw [sameNeed]; exact positive)
        ⟨single, noOvercommit, by
          rw [free, minus]
          exact Finset.sdiff_subset_sdiff tracked.free (Finset.Subset.refl _), by
          rw [free, minus, sameNeed]
          rcases tracked.rest with same | few
          · exact .inl (by rw [same])
          · exact .inr (Nat.lt_of_le_of_lt (Finset.card_le_card Finset.sdiff_subset) few)⟩
      rw [sameNeed] at later
      simp only [all, Bool.false_eq_true, if_false, later]
      constructor
      · rintro ⟨_, _, rest⟩
        exact ⟨.inr enough, rest⟩
      · rintro ⟨_, rest⟩
        exact ⟨inside.trans tracked.free, card, rest⟩
    · obtain ⟨all, free⟩ := pinned.short (Nat.not_le.mp enough)
      simp only [all, if_true]
      by_cases few : (stepThreads nodeinfo \ taken).card < pininfo.threadsPerTask
      · have later := @induction (getThreadsBinding nodeinfo pininfo).2 taken
          (by rw [sameNeed]; exact positive)
          ⟨single, noOvercommit, free.trans tracked.free, by
            rw [sameNeed]
            exact .inr few⟩
        rw [sameNeed] at later
        rw [later]
        have fewFree : Found nodeinfo pininfo := .inl
          (Nat.lt_of_le_of_lt (Finset.card_le_card tracked.free) few)
        constructor
        · rintro ⟨_, rest⟩
          exact ⟨fewFree, rest⟩
        · rintro ⟨_, rest⟩
          exact ⟨few, rest⟩
      · -- the task is bound to all CPUs though there are enough threads
        have same : freeThreads nodeinfo pininfo = stepThreads nodeinfo \ taken := by
          rcases tracked.rest with same | few'
          · exact same
          · exact absurd few' few
        constructor
        · rintro ⟨few', _⟩
          exact absurd few' few
        · rintro ⟨found, _⟩
          rcases found with few' | enough'
          · rw [same] at few'
            exact absurd few' few
          · exact absurd enough' enough

/-- Tasks that are pinned one after the other get their own threads, and are
bound to all CPUs only where threads are missing, exactly if each walk finds
as many threads as the task needs or as there are. -/
theorem pinTasks_exclusive_iff {nodeinfo : NodeInfo} (cores : WholeCores nodeinfo)
    (threadIterStrategy : ThreadIterStrategy) (nextStartStrategy : NextStartStrategy)
    {threadsPerTask : Nat} (positive : 0 < threadsPerTask) (tasks : Nat) :
    Exclusive nodeinfo threadsPerTask ∅
        ((pinTasks nodeinfo tasks (initPinInfo threadIterStrategy
          nextStartStrategy threadsPerTask)).map Prod.snd) ↔
      ∀ state ∈ (pinTasks nodeinfo tasks (initPinInfo threadIterStrategy
          nextStartStrategy threadsPerTask)).map Prod.fst,
        Found nodeinfo state := by
  have unused : freeThreads nodeinfo (initPinInfo threadIterStrategy
      nextStartStrategy threadsPerTask) = stepThreads nodeinfo := by
    ext thread
    rw [mem_freeThreads, stepThreads, Finset.mem_filter, Finset.mem_range]
    exact ⟨fun member => ⟨member.1, member.2.1⟩,
      fun member => ⟨member.1, member.2, Nat.one_pos⟩⟩
  exact exclusive_iff cores tasks positive
    ⟨rfl, rfl, by rw [unused, Finset.sdiff_empty], by
      rw [unused, Finset.sdiff_empty]
      exact .inl rfl⟩

/-- Two sockets with two cores of three threads. -/
def fourCores : NodeInfo :=
  { socketCount := 2
    coresPerSocket := 2
    threadsPerCore := 3
    stepHWthreads := Finset.range 12
    sockets := by decide
    cores := by decide
    threads := by decide }

theorem fourCores_whole : WholeCores fourCores := by
  refine ⟨?_, ?_⟩
  · intro _ _ other bound _
    exact Finset.mem_range.mpr bound
  · intro thread member
    have bound := Finset.mem_range.mp member
    unfold cpuMax
    omega

/-- With full cyclic sockets and cyclic cores, the last of four tasks that fill
the node is bound to all CPUs. -/
theorem not_pinTasks_exclusive : ¬ ∀ (nodeinfo : NodeInfo), WholeCores nodeinfo →
      ∀ (threadIterStrategy : ThreadIterStrategy) (nextStartStrategy : NextStartStrategy)
        (threadsPerTask tasks : Nat), 0 < threadsPerTask →
        Exclusive nodeinfo threadsPerTask ∅
          ((pinTasks nodeinfo tasks (initPinInfo threadIterStrategy
            nextStartStrategy threadsPerTask)).map Prod.snd) := by
  intro exclusive
  exact absurd (exclusive fourCores fourCores_whole .cycleSocketsFillCores
    .cyclicCyclic 3 4 (by decide)) (by decide +kernel)

theorem pinTasks_exclusive_iff_fourCores :
    ∃ state ∈ (pinTasks fourCores 4
        (initPinInfo .cycleSocketsFillCores .cyclicCyclic 3)).map Prod.fst,
      ¬ Found fourCores state := by
  have found := pinTasks_exclusive_iff fourCores_whole .cycleSocketsFillCores
    .cyclicCyclic (by decide : 0 < 3) 4
  by_contra all
  simp only [not_exists, not_and, not_not] at all
  exact absurd (found.mpr all) (by decide +kernel)

end Psmgmt.Slurm.Pin
