import Psmgmt.Partition.SlotRelease
import Psmgmt.Spawn.Delayed

/-!
# Combined release messages

`sendCHILDRESREL()` with `combine` set merges the CPUs of several tasks into
pending `PSP_DD_CHILDRESREL` messages.
-/

namespace Psmgmt.Spawn

open Partition FirstFit

/-- An accumulated CPU set.  The daemon keeps no record of the tasks merged
into it. -/
structure MergedSet where
  cpus : CPUSet
  tasks : List CPUSet
  deriving DecidableEq

def MergedSet.clear : MergedSet := ⟨∅, []⟩

/-- `PendCRR_t`. -/
structure PendCRR where
  dest : TaskId
  resID : Int
  sender : TaskId
  pendSlots : Int
  numSlots : Nat
  sets : List MergedSet

/-- `PSP_DD_CHILDRESREL` of a node that packs `nBytes` of a CPU set. -/
structure ReleaseMsg where
  dest : TaskId
  sender : TaskId
  nBytes : Nat
  sets : List MergedSet
  numSlots : Nat
  resID : Int
  deriving DecidableEq

/-- A call of `sendCHILDRESREL()` and what it finds in the daemon; `memory`
tells whether there is some for a pending message. -/
structure ReleaseCall where
  task : Task
  sender : TaskId
  sessions : List Session
  managedTasks : List Task
  memory : Bool

/-- `int16_t`. -/
def int16 (value : Int) : Int := value.bmod (2 ^ 16)

def holdsNothing : TaskGroup → Bool
  | .service | .serviceSig | .adminTask | .kvs | .pluginFW => true
  | _ => false

def newPendCRR (dest : TaskId) (resID : Int) (sender : TaskId) (pendSlots : Int) : PendCRR where
  dest := dest
  resID := resID
  sender := sender
  pendSlots := pendSlots
  numSlots := 0
  sets := List.replicate numCpuSets .clear

def findPendCRR (dest : TaskId) (resID : Int) (crr : PendCRR) : Bool :=
  decide (crr.dest = dest ∧ crr.resID = resID)

/-- The sets put into a message: the first one, and others up to an empty
one. -/
def sentMerged (nBytes : Nat) : List MergedSet → List MergedSet
  | [] => []
  | first :: rest =>
    { first with cpus := packed nBytes first.cpus } ::
      (rest.takeWhile (fun set_ => anyCpu set_.cpus (nBytes * 8))).map
        (fun set_ => { set_ with cpus := packed nBytes set_.cpus })

def sendPendCRR (nBytes : Nat) (crr : PendCRR) : ReleaseMsg where
  dest := crr.dest
  sender := crr.sender
  nBytes := nBytes
  sets := sentMerged nBytes crr.sets
  numSlots := crr.numSlots
  resID := crr.resID

/-- The destination of a release message. -/
def ReleaseCall.dest (call : ReleaseCall) : TaskId :=
  match findResInfo call.sessions call.task.loggertid call.task.spawnertid call.task.resID with
  | none => call.task.loggertid
  | some res => if res.partHolder ≠ noTid then res.partHolder else call.task.loggertid

/-- The number of calls expected for a pending message. -/
def callsExpected (nBytes : Nat) (call : ReleaseCall) : Int :=
  int16 (1 + (call.managedTasks.countP (fun thisT =>
    !thisT.deleted && decide (thisT.group ≠ .forwarder) &&
      decide (thisT.loggertid = call.task.loggertid ∧ thisT.resID = call.task.resID) &&
      anyCpu thisT.cpuSet (nBytes * 8) &&
      decide (thisT.tid ≠ call.task.tid)) : Nat))

/-- Find a set without overlap and add the CPUs of the task to it. -/
def fitTask (bits : Nat) : List MergedSet → CPUSet → Option (List MergedSet)
  | [], _ => none
  | set_ :: rest, new =>
    if overlapCpu new set_.cpus bits then
      (fitTask bits rest new).map (set_ :: ·)
    else some (⟨set_.cpus ∪ new, set_.tasks ++ [new]⟩ :: rest)

/-- The sets with one task in the first of them. -/
def resetWith (new : CPUSet) : List MergedSet :=
  ⟨∅ ∪ new, [new]⟩ :: List.replicate (numCpuSets - 1) .clear

/-- Fit a call into a pending message, which may be sent and stays pending
unless no more calls are expected. -/
def fitCall (nBytes : Nat) (cpuSet : CPUSet) (crr : PendCRR) : Option PendCRR × List ReleaseMsg :=
  let (crr, full) :=
    match fitTask (8 * nBytes) crr.sets cpuSet with
    | some sets => ({ crr with sets := sets }, [])
    | none => ({ crr with sets := resetWith cpuSet, numSlots := 0 }, [sendPendCRR nBytes crr])
  let crr := { crr with
    numSlots := (crr.numSlots + 1) % 2 ^ 16
    pendSlots := int16 (crr.pendSlots - 1) }
  if crr.pendSlots = 0 then (none, full ++ [sendPendCRR nBytes crr])
  else (some crr, full)

/-- Change the first pending message found, or drop it. -/
def replaceFirst (found : PendCRR → Bool) (after : Option PendCRR) : List PendCRR → List PendCRR
  | [] => []
  | crr :: rest =>
    if found crr then after.toList ++ rest
    else crr :: replaceFirst found after rest

/-- The pending messages and the ones sent so far. -/
structure ReleaseState where
  pendCRRList : List PendCRR
  sent : List ReleaseMsg

/-- `sendCHILDRESREL()` with `combine` set. -/
def sendChildResRel (nBytes : Nat) (call : ReleaseCall) (state : ReleaseState) : ReleaseState :=
  let task := call.task
  if holdsNothing task.group then state
  else if ¬anyCpu task.cpuSet (nBytes * 8) then state
  else
    let found := findPendCRR call.dest task.resID
    match state.pendCRRList.find? found with
    | some crr =>
      let (after, msgs) := fitCall nBytes task.cpuSet crr
      ⟨replaceFirst found after state.pendCRRList, state.sent ++ msgs⟩
    | none =>
      if !call.memory then state
      else
        let crr := newPendCRR call.dest task.resID call.sender (callsExpected nBytes call)
        let (after, msgs) := fitCall nBytes task.cpuSet crr
        ⟨state.pendCRRList ++ after.toList, state.sent ++ msgs⟩

def sendAllPendCRR (nBytes : Nat) (state : ReleaseState) : ReleaseState :=
  ⟨[], state.sent ++ state.pendCRRList.map (sendPendCRR nBytes)⟩

/-- A call, or the loop action. -/
inductive ReleaseEvent where
  | release (call : ReleaseCall)
  | sendAll

def releaseStep (nBytes : Nat) (state : ReleaseState) : ReleaseEvent → ReleaseState
  | .release call => sendChildResRel nBytes call state
  | .sendAll => sendAllPendCRR nBytes state

/-- A run of a node with `numThrds` HW-threads. -/
def releaseRun (numThrds : Nat) (events : List ReleaseEvent) : ReleaseState :=
  events.foldl (releaseStep (bytesForCPUs numThrds)) ⟨[], []⟩

/-! ## What is released -/

/-- The number of slots announced for a reservation. -/
def slotsFor (dest : TaskId) (resID : Int) (msgs : List ReleaseMsg) : Nat :=
  (msgs.map (fun msg => if msg.dest = dest ∧ msg.resID = resID then msg.numSlots else 0)).sum

/-- The number of sets sent for a reservation that contain a CPU. -/
def setsFor (dest : TaskId) (resID : Int) (cpu : Nat) (msgs : List ReleaseMsg) : Nat :=
  (msgs.map (fun msg =>
    if msg.dest = dest ∧ msg.resID = resID then
      count cpu (msg.sets.map (·.cpus))
    else 0)).sum

def ReleaseEvent.isFor (dest : TaskId) (resID : Int) : ReleaseEvent → Bool
  | .release call => decide (call.dest = dest ∧ call.task.resID = resID)
  | .sendAll => false

def ReleaseEvent.cpuSet : ReleaseEvent → CPUSet
  | .release call => call.task.cpuSet
  | .sendAll => ∅

/-- The messages add up to the calls. -/
structure Released (events : List ReleaseEvent) (msgs : List ReleaseMsg) :
    Prop where
  numSlots : ∀ dest resID, slotsFor dest resID msgs =
    events.countP (fun event => event.isFor dest resID)
  cpus : ∀ dest resID cpu, setsFor dest resID cpu msgs =
    events.countP (fun event => event.isFor dest resID && decide (cpu ∈ event.cpuSet))

/-- Tasks merged into one set do not overlap. -/
def Apart (msg : ReleaseMsg) : Prop := ∀ set_ ∈ msg.sets, set_.tasks.Pairwise Disjoint

/-- Tasks merged into different sets do not overlap. -/
def ApartAcross (msg : ReleaseMsg) : Prop :=
  msg.sets.Pairwise (fun first second =>
    ∀ task ∈ first.tasks, ∀ other ∈ second.tasks, Disjoint task other)

def Reportable (numThrds : Nat) : ReleaseEvent → Prop
  | .release call =>
    holdsNothing call.task.group = false ∧ call.memory = true ∧
      ∀ cpu ∈ call.task.cpuSet, cpu < 8 * bytesForCPUs numThrds
  | .sendAll => True

def Holding : ReleaseEvent → Prop
  | .release call => call.task.cpuSet ≠ ∅
  | .sendAll => True

/-! ## Sets and tasks -/

theorem fitTask_cpus (bits : Nat) (sets : List MergedSet) (new : CPUSet) :
    (fitTask bits sets new).map (·.map (·.cpus)) = fit bits (sets.map (·.cpus)) new := by
  induction sets with
  | nil => rfl
  | cons set_ rest next =>
    rw [fitTask, List.map_cons, fit, ← next]
    split
    · rw [Option.map_map, Option.map_map]
      rfl
    · rfl

variable {bits : Nat} {sets : List MergedSet} {new : CPUSet}

/-- A set that is changed gets the task on top of the ones it has. -/
theorem mem_fitTask {after : List MergedSet} {set_ : MergedSet}
    (fitted : fitTask bits sets new = some after) (member : set_ ∈ after) :
    set_ ∈ sets ∨ ∃ old ∈ sets, overlapCpu new old.cpus bits = false ∧
      set_ = ⟨old.cpus ∪ new, old.tasks ++ [new]⟩ := by
  induction sets generalizing after with
  | nil => exact nomatch fitted
  | cons first rest next =>
    rw [fitTask] at fitted
    split at fitted
    · rw [Option.map_eq_some_iff] at fitted
      obtain ⟨tail, fitted, rfl⟩ := fitted
      rcases List.mem_cons.mp member with rfl | member
      · exact .inl List.mem_cons_self
      · rcases next fitted member with old | ⟨old, inside, same⟩
        · exact .inl (List.mem_cons_of_mem _ old)
        · exact .inr ⟨old, List.mem_cons_of_mem _ inside, same⟩
    · rename_i apart
      cases fitted
      rcases List.mem_cons.mp member with rfl | member
      · rw [Bool.not_eq_true] at apart
        exact .inr ⟨first, List.mem_cons_self, apart, rfl⟩
      · exact .inl (List.mem_cons_of_mem _ member)

structure MergedSet.Sound (bits : Nat) (set_ : MergedSet) : Prop where
  within : ∀ cpu ∈ set_.cpus, cpu < bits
  tasks : ∀ cpu, cpu ∈ set_.cpus ↔ ∃ task ∈ set_.tasks, cpu ∈ task
  apart : set_.tasks.Pairwise Disjoint

theorem MergedSet.clear_sound (bits : Nat) : MergedSet.clear.Sound bits where
  within := fun _ member => absurd member (Finset.notMem_empty _)
  tasks := fun cpu => by
    constructor
    · intro member
      exact absurd member (Finset.notMem_empty cpu)
    · rintro ⟨_, member, -⟩
      exact nomatch member
  apart := List.Pairwise.nil

theorem MergedSet.Sound.merge {set_ : MergedSet} (sound : set_.Sound bits)
    (within : ∀ cpu ∈ new, cpu < bits) (apart : overlapCpu new set_.cpus bits = false) :
    MergedSet.Sound bits ⟨set_.cpus ∪ new, set_.tasks ++ [new]⟩ where
  within := fun cpu member => by
    rcases Finset.mem_union.mp member with old | fresh
    · exact sound.within cpu old
    · exact within cpu fresh
  tasks := fun cpu => by
    rw [Finset.mem_union, sound.tasks]
    constructor
    · rintro (⟨task, member, inside⟩ | fresh)
      · exact ⟨task, List.mem_append_left _ member, inside⟩
      · exact ⟨new, List.mem_append_right _ List.mem_cons_self, fresh⟩
    · rintro ⟨task, member, inside⟩
      rcases List.mem_append.mp member with old | fresh
      · exact .inl ⟨task, old, inside⟩
      · rw [List.mem_singleton] at fresh
        exact .inr (fresh ▸ inside)
  apart := by
    rw [List.pairwise_append]
    refine ⟨sound.apart, List.pairwise_singleton _ _, ?_⟩
    intro task member other same
    rw [List.mem_singleton] at same
    subst same
    rw [Finset.disjoint_left]
    intro cpu inside fresh
    rw [overlapCpu, decide_eq_false_iff_not] at apart
    exact apart ⟨cpu, fresh, (sound.tasks cpu).mpr ⟨task, member, inside⟩, within cpu fresh⟩

/-- What a pending message holds. -/
structure PendCRR.Sound (bits : Nat) (crr : PendCRR) : Prop where
  sets : ∀ set_ ∈ crr.sets, set_.Sound bits
  number : crr.sets.length = numCpuSets
  order : Packed (crr.sets.map (·.cpus))
  few : crr.numSlots ≤ ((crr.sets.map (·.cpus)).map Finset.card).sum

theorem map_low_eq {sets : List CPUSet}
    (within : ∀ set_ ∈ sets, ∀ cpu ∈ set_, cpu < bits) :
    sets.map (low bits) = sets := by
  rw [List.map_congr_left (fun set_ member => low_eq_self (within set_ member)), List.map_id']

theorem fitTask_place (old : ∀ set_ ∈ sets, set_.Sound bits)
    (within : ∀ cpu ∈ new, cpu < bits) :
    (fitTask bits sets new).map (·.map (·.cpus)) = place (sets.map (·.cpus)) new := by
  have withinOld : ∀ set_ ∈ sets.map (·.cpus), ∀ cpu ∈ set_, cpu < bits := by
    intro set_ member
    obtain ⟨merged, inside, rfl⟩ := List.mem_map.mp member
    exact (old merged inside).within
  have packing := fit_low bits (sets.map (·.cpus)) new
  rw [map_low_eq withinOld, low_eq_self within, ← fitTask_cpus] at packing
  rw [← packing]
  rcases fitted : fitTask bits sets new with _ | after
  · rfl
  · rw [Option.map_some, Option.map_some, map_low_eq]
    intro set_ member
    obtain ⟨merged, inside, rfl⟩ := List.mem_map.mp member
    rcases mem_fitTask fitted inside with same | ⟨first, there, apart, rfl⟩
    · exact (old merged same).within
    · exact ((old first there).merge within apart).within

/-! ## One message -/

section Sending

variable {nBytes : Nat} {crr : PendCRR}

theorem sentMerged_cpus (nBytes : Nat) (sets : List MergedSet) :
    (sentMerged nBytes sets).map (·.cpus) = sentSets nBytes (sets.map (·.cpus)) := by
  cases sets with
  | nil => rfl
  | cons first rest =>
    rw [sentMerged, sentSets.eq_def, List.map_cons, List.map_cons]
    dsimp only
    rw [List.map_map, List.takeWhile_map, List.map_map]
    rfl

theorem count_sent (most : nBytes ≤ cpuMax / 8)
    (sound : crr.Sound (8 * nBytes)) (cpu : Nat) :
    count cpu ((sendPendCRR nBytes crr).sets.map (·.cpus)) = count cpu (crr.sets.map (·.cpus)) := by
  have within : ∀ set_ ∈ crr.sets.map (·.cpus), ∀ cpu ∈ set_, cpu < 8 * nBytes := by
    intro set_ member
    obtain ⟨merged, inside, rfl⟩ := List.mem_map.mp member
    exact (sound.sets merged inside).within
  have same := map_low_eq within
  have clean : Clean (8 * nBytes) (crr.sets.map (·.cpus)) := by
    intro set_ member empty
    rwa [low_eq_self (within set_ (List.mem_of_mem_tail member))] at empty
  rw [sendPendCRR]
  dsimp only
  rw [sentMerged_cpus, count_sentSets most clean (by
    rw [same]
    exact sound.order), same]

theorem sent_apart (sound : crr.Sound (8 * nBytes)) : Apart (sendPendCRR nBytes crr) := by
  intro set_ member
  rw [sendPendCRR] at member
  dsimp only at member
  have old : ∃ merged ∈ crr.sets, set_.tasks = merged.tasks := by
    rcases sets : crr.sets with _ | ⟨first, rest⟩
    · rw [sets] at member
      exact nomatch member
    · rw [sets, sentMerged] at member
      rcases List.mem_cons.mp member with rfl | member
      · exact ⟨first, List.mem_cons_self, rfl⟩
      · obtain ⟨merged, inside, rfl⟩ := List.mem_map.mp member
        exact ⟨merged, List.mem_cons_of_mem _ (List.takeWhile_subset _ inside), rfl⟩
  obtain ⟨merged, member, same⟩ := old
  rw [same]
  exact (sound.sets merged member).apart

end Sending

/-! ## One call -/

/-- A pending message takes in one more task. -/
structure Grown (bits : Nat) (new : CPUSet) (before after : PendCRR) :
    Prop where
  dest : after.dest = before.dest
  resID : after.resID = before.resID
  numSlots : after.numSlots = before.numSlots + 1
  counts : ∀ cpu, count cpu (after.sets.map (·.cpus)) =
    count cpu (before.sets.map (·.cpus)) + if cpu ∈ new then 1 else 0
  sound : after.Sound bits

/-- A pending message with nothing in it. -/
structure Emptied (bits : Nat) (crr empty : PendCRR) : Prop where
  dest : empty.dest = crr.dest
  resID : empty.resID = crr.resID
  numSlots : empty.numSlots = 0
  sets : empty.sets = List.replicate numCpuSets .clear
  sound : empty.Sound bits

theorem cleared_cpus (number : Nat) :
    (List.replicate number MergedSet.clear).map (·.cpus) = List.replicate number ∅ :=
  List.map_replicate

theorem cleared_sound {crr : PendCRR} (sets : crr.sets = List.replicate numCpuSets .clear)
    (numSlots : crr.numSlots = 0) : crr.Sound bits where
  sets := fun set_ member => by
    rw [sets] at member
    rw [List.eq_of_mem_replicate member]
    exact MergedSet.clear_sound bits
  number := by rw [sets, List.length_replicate]
  order := by
    rw [sets, cleared_cpus]
    exact packed_replicate numCpuSets
  few := by
    rw [numSlots]
    exact Nat.zero_le _

section Call

variable {nBytes : Nat} {new : CPUSet} {crr : PendCRR}

theorem grown_of_fitTask (most : nBytes ≤ cpuMax / 8) (nonempty : new ≠ ∅)
    (within : ∀ cpu ∈ new, cpu < 8 * nBytes) (sound : crr.Sound (8 * nBytes))
    (fitted : fitTask (8 * nBytes) crr.sets new = some sets) (pendSlots : Int) :
    Grown (8 * nBytes) new crr
      { crr with
        sets := sets
        numSlots := (crr.numSlots + 1) % 2 ^ 16
        pendSlots := pendSlots } := by
  have placed : place (crr.sets.map (·.cpus)) new = some (sets.map (·.cpus)) := by
    rw [← fitTask_place sound.sets within, fitted]
    rfl
  have length := length_place placed
  rw [List.length_map, List.length_map, sound.number] at length
  have setsSound : ∀ set_ ∈ sets, set_.Sound (8 * nBytes) := by
    intro set_ member
    rcases mem_fitTask fitted member with old | ⟨old, inside, apart, rfl⟩
    · exact sound.sets set_ old
    · exact (sound.sets old inside).merge within apart
  have small : ∀ set_ ∈ sets.map (·.cpus), set_.card ≤ cpuMax := by
    intro set_ member
    obtain ⟨merged, inside, rfl⟩ := List.mem_map.mp member
    have range : merged.cpus ⊆ Finset.range cpuMax := by
      intro cpu inSet
      have below := (setsSound merged inside).within cpu inSet
      rw [Finset.mem_range]
      rw [cpuMax] at *
      omega
    have few := Finset.card_le_card range
    rwa [Finset.card_range] at few
  have bound := sum_card_le small
  have total := sum_card_place placed
  have few := sound.few
  have positive := Finset.card_pos.mpr (Finset.nonempty_iff_ne_empty.mpr nonempty)
  rw [List.length_map, length, numCpuSets, cpuMax] at bound
  have number : (crr.numSlots + 1) % 2 ^ 16 = crr.numSlots + 1 := Nat.mod_eq_of_lt (by omega)
  rw [number]
  refine ⟨rfl, rfl, rfl, count_place placed, ?_⟩
  refine ⟨setsSound, length, sound.order.place placed, ?_⟩
  dsimp only
  omega

theorem fitTask_reset (bits : Nat) (new : CPUSet) :
    fitTask bits (List.replicate numCpuSets .clear) new = some (resetWith new) := by
  rw [numCpuSets, List.replicate_succ, fitTask, if_neg]
  · rfl
  · rw [overlapCpu, decide_eq_true_eq]
    rintro ⟨cpu, -, member, -⟩
    exact Finset.notMem_empty cpu member

/-- What fitting a call in does: the message is sent before if it is full, and
sent afterwards if no more calls are expected. -/
structure FitsIn (nBytes : Nat) (new : CPUSet) (crr : PendCRR)
    (after : Option PendCRR) (msgs : List ReleaseMsg) (base grown : PendCRR)
    (full : List ReleaseMsg) : Prop where
  grows : Grown (8 * nBytes) new base grown
  start : (base = crr ∧ full = []) ∨
    (Emptied (8 * nBytes) crr base ∧ full = [sendPendCRR nBytes crr])
  result : (after = none ∧ msgs = full ++ [sendPendCRR nBytes grown]) ∨
    (after = some grown ∧ msgs = full)

theorem fitCall_fitsIn (most : nBytes ≤ cpuMax / 8) (nonempty : new ≠ ∅)
    (within : ∀ cpu ∈ new, cpu < 8 * nBytes) (sound : crr.Sound (8 * nBytes)) :
    ∃ base grown full, FitsIn nBytes new crr (fitCall nBytes new crr).1
      (fitCall nBytes new crr).2 base grown full := by
  rw [fitCall]
  rcases fitted : fitTask (8 * nBytes) crr.sets new with _ | sets
  · have empty : Emptied (8 * nBytes) crr
        { crr with
          sets := List.replicate numCpuSets .clear
          numSlots := 0 } :=
      ⟨rfl, rfl, rfl, rfl, cleared_sound rfl rfl⟩
    have grown := grown_of_fitTask most nonempty within empty.sound
      (fitTask_reset (8 * nBytes) new) (int16 (crr.pendSlots - 1))
    refine ⟨_, _, _, ⟨grown, .inr ⟨empty, rfl⟩, ?_⟩⟩
    dsimp only
    split
    · exact .inl ⟨rfl, rfl⟩
    · exact .inr ⟨rfl, rfl⟩
  · have grown := grown_of_fitTask most nonempty within sound fitted (int16 (crr.pendSlots - 1))
    refine ⟨crr, _, [], ⟨grown, .inl ⟨rfl, rfl⟩, ?_⟩⟩
    dsimp only
    split
    · exact .inl ⟨rfl, rfl⟩
    · exact .inr ⟨rfl, rfl⟩

end Call

/-! ## All messages -/

/-- What a message counts for a reservation. -/
def weigh (dest : TaskId) (resID : Int) (amount : ReleaseMsg → Nat) (msg : ReleaseMsg) : Nat :=
  if msg.dest = dest ∧ msg.resID = resID then amount msg else 0

/-- What messages count that are sent or will be. -/
def total (nBytes : Nat) (weight : ReleaseMsg → Nat) (state : ReleaseState) : Nat :=
  ((state.sent ++ state.pendCRRList.map (sendPendCRR nBytes)).map weight).sum

/-- An amount that each call adds to once. -/
structure Adds (nBytes : Nat) (new : CPUSet) (gain : Nat)
    (amount : ReleaseMsg → Nat) : Prop where
  grows : ∀ before after, before.Sound (8 * nBytes) → Grown (8 * nBytes) new before after → amount
    (sendPendCRR nBytes after) = amount (sendPendCRR nBytes before) + gain
  empty : ∀ crr base, Emptied (8 * nBytes) crr base → amount (sendPendCRR nBytes base) = 0

section Totals

variable {nBytes : Nat} {new : CPUSet} {crr : PendCRR} {dest : TaskId}
  {resID : Int} {amount : ReleaseMsg → Nat} {gain : Nat}

theorem adds_numSlots (nBytes : Nat) (new : CPUSet) : Adds nBytes new 1 (·.numSlots) where
  grows := fun _ _ _ grown => grown.numSlots
  empty := fun _ _ emptied => emptied.numSlots

theorem adds_count (most : nBytes ≤ cpuMax / 8) (new : CPUSet) (cpu : Nat) :
    Adds nBytes new (if cpu ∈ new then 1 else 0)
      (fun msg => count cpu (msg.sets.map (·.cpus))) where
  grows := fun before after sound grown => by
    rw [count_sent most grown.sound, count_sent most sound, grown.counts]
  empty := fun crr base emptied => by
    rw [count_sent most emptied.sound, emptied.sets, cleared_cpus, count_replicate]

theorem weigh_grown (adds : Adds nBytes new gain amount) {before after : PendCRR}
    (sound : before.Sound (8 * nBytes)) (grown : Grown (8 * nBytes) new before after) :
    weigh dest resID amount (sendPendCRR nBytes after) =
      weigh dest resID amount (sendPendCRR nBytes before) +
        if before.dest = dest ∧ before.resID = resID then gain else 0 := by
  have target : (sendPendCRR nBytes after).dest = before.dest := grown.dest
  have id_ : (sendPendCRR nBytes after).resID = before.resID := grown.resID
  have same : (sendPendCRR nBytes before).dest = before.dest := rfl
  have same_ : (sendPendCRR nBytes before).resID = before.resID := rfl
  rw [weigh, weigh, target, id_, same, same_, adds.grows _ _ sound grown]
  split
  · rfl
  · rfl

/-- Fitting a call in adds what it is worth, wherever it ends up. -/
theorem FitsIn.total (adds : Adds nBytes new gain amount) (sound : crr.Sound (8 * nBytes))
    {after : Option PendCRR} {msgs full : List ReleaseMsg} {base grown : PendCRR}
    (fits : FitsIn nBytes new crr after msgs base grown full) :
    ((msgs ++ after.toList.map (sendPendCRR nBytes)).map (weigh dest resID amount)).sum =
      weigh dest resID amount (sendPendCRR nBytes crr) +
        if crr.dest = dest ∧ crr.resID = resID then gain else 0 := by
  have ended : msgs ++ after.toList.map (sendPendCRR nBytes) =
      full ++ [sendPendCRR nBytes grown] := by
    rcases fits.result with ⟨rfl, rfl⟩ | ⟨rfl, rfl⟩
    · exact List.append_nil _
    · rfl
  rw [ended, List.map_append, List.sum_append, List.map_singleton, List.sum_singleton]
  rcases fits.start with ⟨rfl, rfl⟩ | ⟨emptied, rfl⟩
  · rw [List.map_nil, List.sum_nil, Nat.zero_add]
    exact weigh_grown adds sound fits.grows
  · rw [List.map_singleton, List.sum_singleton,
      weigh_grown adds emptied.sound fits.grows, emptied.dest, emptied.resID]
    have zero : weigh dest resID amount (sendPendCRR nBytes base) = 0 := by
      rw [weigh, adds.empty crr base emptied, ite_self]
    rw [zero, Nat.zero_add]

theorem replaceFirst_total {found : PendCRR → Bool} {after : Option PendCRR}
    {weight : ReleaseMsg → Nat} {list : List PendCRR} (first : list.find? found = some crr) :
    ((replaceFirst found after list).map (fun crr => weight (sendPendCRR nBytes crr))).sum + weight
        (sendPendCRR nBytes crr) =
      (list.map (fun crr => weight (sendPendCRR nBytes crr))).sum +
        (after.toList.map (fun crr => weight (sendPendCRR nBytes crr))).sum := by
  induction list with
  | nil => exact nomatch first
  | cons head rest next =>
    rw [List.find?_cons] at first
    rw [replaceFirst]
    cases here : found head with
    | true =>
      rw [here] at first
      cases first
      rw [if_pos rfl, List.map_append, List.sum_append, List.map_cons, List.sum_cons]
      omega
    | false =>
      rw [here] at first
      rw [if_neg Bool.false_ne_true, List.map_cons, List.sum_cons, List.map_cons, List.sum_cons]
      have others := next first
      omega

theorem mem_replaceFirst {found : PendCRR → Bool} {after : Option PendCRR} {list : List PendCRR}
    {other : PendCRR} (member : other ∈ replaceFirst found after list) :
    other ∈ list ∨ after = some other := by
  induction list with
  | nil => exact nomatch member
  | cons head rest next =>
    rw [replaceFirst] at member
    split at member
    · rcases List.mem_append.mp member with new | old
      · rw [Option.mem_toList] at new
        exact .inr new
      · exact .inl (List.mem_cons_of_mem _ old)
    · rcases List.mem_cons.mp member with rfl | member
      · exact .inl List.mem_cons_self
      · rcases next member with old | new
        · exact .inl (List.mem_cons_of_mem _ old)
        · exact .inr new

end Totals

/-- Pending messages are sound, and sent ones keep tasks apart. -/
structure ReleaseState.Sound (nBytes : Nat) (state : ReleaseState) :
    Prop where
  pending : ∀ crr ∈ state.pendCRRList, crr.Sound (8 * nBytes)
  sent : ∀ msg ∈ state.sent, Apart msg

theorem FitsIn.sound {nBytes : Nat} {crr : PendCRR} {after : Option PendCRR}
    {msgs full : List ReleaseMsg} {base grown : PendCRR} (sound : crr.Sound (8 * nBytes))
    (fits : FitsIn nBytes new crr after msgs base grown full) :
    (∀ other, after = some other → other.Sound (8 * nBytes)) ∧ ∀ msg ∈ msgs, Apart msg := by
  have first : ∀ msg ∈ full, Apart msg := by
    intro msg member
    rcases fits.start with ⟨-, rfl⟩ | ⟨-, rfl⟩
    · exact nomatch member
    · rw [List.mem_singleton] at member
      exact member ▸ sent_apart sound
  have last := sent_apart fits.grows.sound
  rcases fits.result with ⟨rfl, rfl⟩ | ⟨rfl, rfl⟩
  · refine ⟨fun _ there => (nomatch there), ?_⟩
    intro msg member
    rcases List.mem_append.mp member with old | new
    · exact first msg old
    · rw [List.mem_singleton] at new
      exact new ▸ last
  · refine ⟨?_, first⟩
    intro other same
    cases same
    exact fits.grows.sound

/-- How a call goes: a pending message is found, or a new one is set up. -/
structure Taken (nBytes : Nat) (call : ReleaseCall) (state after : ReleaseState)
    (crr : PendCRR) (left : Option PendCRR) (msgs full : List ReleaseMsg)
    (base grown : PendCRR) : Prop where
  dest : crr.dest = call.dest
  resID : crr.resID = call.task.resID
  sound : crr.Sound (8 * nBytes)
  fits : FitsIn nBytes call.task.cpuSet crr left msgs base grown full
  sent : after.sent = state.sent ++ msgs
  pending : (∃ found : PendCRR → Bool, state.pendCRRList.find? found = some crr ∧
        after.pendCRRList = replaceFirst found left state.pendCRRList) ∨
    (Emptied (8 * nBytes) crr crr ∧ after.pendCRRList = state.pendCRRList ++ left.toList)

section Step

variable {nBytes : Nat} {call : ReleaseCall} {state : ReleaseState}

theorem sendChildResRel_taken (most : nBytes ≤ cpuMax / 8) (sound : state.Sound nBytes)
    (holds : holdsNothing call.task.group = false) (memory : call.memory = true)
    (nonempty : call.task.cpuSet ≠ ∅) (within : ∀ cpu ∈ call.task.cpuSet, cpu < 8 * nBytes) :
    ∃ crr left msgs full base grown,
      Taken nBytes call state (sendChildResRel nBytes call state) crr left msgs
        full base grown := by
  have any : anyCpu call.task.cpuSet (nBytes * 8) = true := by
    rw [Nat.mul_comm, anyCpu_iff within]
    exact nonempty
  rw [sendChildResRel]
  dsimp only
  rw [holds, if_neg Bool.false_ne_true, if_neg (not_not.mpr any)]
  rcases first : state.pendCRRList.find? (findPendCRR call.dest call.task.resID) with _ | crr
  · have fresh : Emptied (8 * nBytes)
        (newPendCRR call.dest call.task.resID call.sender (callsExpected nBytes call))
        (newPendCRR call.dest call.task.resID call.sender (callsExpected nBytes call)) :=
      ⟨rfl, rfl, rfl, rfl, cleared_sound rfl rfl⟩
    obtain ⟨base, grown, full, fits⟩ := fitCall_fitsIn most nonempty within fresh.sound
    dsimp only
    rw [memory, Bool.not_true, if_neg Bool.false_ne_true]
    exact ⟨_, _, _, full, base, grown, rfl, rfl, fresh.sound, fits, rfl, .inr ⟨fresh, rfl⟩⟩
  · have there := List.mem_of_find?_eq_some first
    have key := List.find?_some first
    rw [findPendCRR, decide_eq_true_eq] at key
    obtain ⟨base, grown, full, fits⟩ :=
      fitCall_fitsIn most nonempty within (sound.pending crr there)
    exact ⟨crr, _, _, full, base, grown, key.1, key.2,
      sound.pending crr there, fits, rfl, .inl ⟨_, first, rfl⟩⟩

variable {after : ReleaseState} {crr base grown : PendCRR}
  {left : Option PendCRR} {msgs full : List ReleaseMsg} {dest : TaskId}
  {resID : Int} {amount : ReleaseMsg → Nat} {gain : Nat}

theorem Taken.sound_after (taken : Taken nBytes call state after crr left msgs full base grown)
    (sound : state.Sound nBytes) : after.Sound nBytes := by
  obtain ⟨later, apart⟩ := taken.fits.sound taken.sound
  constructor
  · intro other member
    rcases taken.pending with ⟨found, -, same⟩ | ⟨-, same⟩
    · rw [same] at member
      rcases mem_replaceFirst member with old | new
      · exact sound.pending other old
      · exact later other new
    · rw [same] at member
      rcases List.mem_append.mp member with old | new
      · exact sound.pending other old
      · rw [Option.mem_toList] at new
        exact later other new
  · intro msg member
    rw [taken.sent] at member
    rcases List.mem_append.mp member with old | new
    · exact sound.sent msg old
    · exact apart msg new

theorem Taken.total_after (taken : Taken nBytes call state after crr left msgs full base grown)
    (adds : Adds nBytes call.task.cpuSet gain amount) :
    total nBytes (weigh dest resID amount) after = total nBytes (weigh dest resID amount) state +
        if call.dest = dest ∧ call.task.resID = resID then gain else 0 := by
  have worth := @FitsIn.total nBytes call.task.cpuSet crr dest resID amount
    gain adds taken.sound left msgs full base grown taken.fits
  rw [List.map_append, List.sum_append, List.map_map] at worth
  rw [taken.dest, taken.resID] at worth
  rw [total, total, taken.sent, List.map_append, List.map_append,
    List.map_append, List.sum_append, List.sum_append, List.sum_append,
    List.map_map, List.map_map]
  rcases taken.pending with ⟨found, first, same⟩ | ⟨fresh, same⟩
  · have moved := @replaceFirst_total nBytes crr found left
      (weigh dest resID amount) state.pendCRRList first
    rw [same]
    simp only [Function.comp_def] at worth ⊢
    omega
  · have zero : weigh dest resID amount (sendPendCRR nBytes crr) = 0 := by
      rw [weigh, adds.empty crr crr fresh, ite_self]
    rw [same, List.map_append, List.sum_append]
    omega

end Step

/-! ## Runs -/

/-- What an event adds for a reservation. -/
def gained (dest : TaskId) (resID : Int) (gain : ReleaseEvent → Nat) (event : ReleaseEvent) : Nat :=
  if event.isFor dest resID then gain event else 0

theorem countP_eq_sum_gained (dest : TaskId) (resID : Int)
    (property : ReleaseEvent → Bool) (events : List ReleaseEvent) :
    events.countP (fun event => event.isFor dest resID && property event) =
      (events.map (gained dest resID (fun event => if property event then 1 else 0))).sum := by
  induction events with
  | nil => rfl
  | cons event rest next =>
    rw [List.countP_cons, List.map_cons, List.sum_cons, next, gained]
    cases event.isFor dest resID with
    | false =>
      rw [Bool.false_and, if_neg Bool.false_ne_true, if_neg Bool.false_ne_true]
      omega
    | true =>
      rw [Bool.true_and, if_pos rfl]
      omega

section Run

variable {numThrds : Nat} {dest : TaskId} {resID : Int}
  {amount : ReleaseMsg → Nat} {gain : ReleaseEvent → Nat}

theorem releaseStep_total {state : ReleaseState} {event : ReleaseEvent}
    (sound : state.Sound (bytesForCPUs numThrds))
    (reportable : Reportable numThrds event) (holding : Holding event)
    (adds : ∀ call, event = .release call →
      Adds (bytesForCPUs numThrds) call.task.cpuSet (gain event) amount) :
    (releaseStep (bytesForCPUs numThrds) state event).Sound (bytesForCPUs numThrds) ∧
      total (bytesForCPUs numThrds) (weigh dest resID amount)
          (releaseStep (bytesForCPUs numThrds) state event) =
        total (bytesForCPUs numThrds) (weigh dest resID amount) state +
          gained dest resID gain event := by
  cases event with
  | release call =>
    obtain ⟨holds, memory, within⟩ := reportable
    obtain ⟨crr, left, msgs, full, base, grown, taken⟩ :=
      sendChildResRel_taken (bytesForCPUs_le numThrds) sound holds memory holding within
    refine ⟨taken.sound_after sound, ?_⟩
    have after := @Taken.total_after _ _ _ _ _ _ _ _ _ _ dest resID amount _ taken (adds call rfl)
    rw [releaseStep, after, gained, ReleaseEvent.isFor]
    simp only [decide_eq_true_eq]
  | sendAll =>
    constructor
    · constructor
      · intro crr member
        exact nomatch member
      · intro msg member
        rcases List.mem_append.mp member with old | new
        · exact sound.sent msg old
        · obtain ⟨crr, inside, rfl⟩ := List.mem_map.mp new
          exact sent_apart (sound.pending crr inside)
    · rw [releaseStep, sendAllPendCRR, total, total, gained,
        ReleaseEvent.isFor, if_neg Bool.false_ne_true, List.map_nil,
        List.append_nil, Nat.add_zero]

theorem releaseRun_total {events : List ReleaseEvent} {state : ReleaseState}
    (sound : state.Sound (bytesForCPUs numThrds))
    (reportable : ∀ event ∈ events, Reportable numThrds event)
    (holding : ∀ event ∈ events, Holding event)
    (adds : ∀ call, Adds (bytesForCPUs numThrds) call.task.cpuSet (gain (.release call)) amount) :
    (events.foldl (releaseStep (bytesForCPUs numThrds)) state).Sound (bytesForCPUs numThrds) ∧
      total (bytesForCPUs numThrds) (weigh dest resID amount)
          (events.foldl (releaseStep (bytesForCPUs numThrds)) state) =
        total (bytesForCPUs numThrds) (weigh dest resID amount) state +
          (events.map (gained dest resID gain)).sum := by
  induction events generalizing state with
  | nil => exact ⟨sound, rfl⟩
  | cons event rest next =>
    obtain ⟨later, stepTotal⟩ := @releaseStep_total numThrds dest resID amount gain state event
      sound (reportable event List.mem_cons_self) (holding event List.mem_cons_self)
      (fun call same => same ▸ adds call)
    obtain ⟨last, restTotal⟩ := next later
      (fun other member => reportable other (List.mem_cons_of_mem _ member))
      (fun other member => holding other (List.mem_cons_of_mem _ member))
    rw [List.foldl_cons]
    refine ⟨last, ?_⟩
    rw [restTotal, stepTotal, List.map_cons, List.sum_cons, Nat.add_assoc]

end Run

/-- The messages of a run account for its calls, once nothing is pending. -/
theorem releaseRun_released (numThrds : Nat) (events : List ReleaseEvent)
    (reportable : ∀ event ∈ events, Reportable numThrds event)
    (holding : ∀ event ∈ events, Holding event)
    (nothing : (releaseRun numThrds events).pendCRRList = []) :
    Released events (releaseRun numThrds events).sent ∧
      ∀ msg ∈ (releaseRun numThrds events).sent, Apart msg := by
  have start : ReleaseState.Sound (bytesForCPUs numThrds) ⟨[], []⟩ :=
    ⟨fun _ member => (nomatch member), fun _ member => nomatch member⟩
  have sent (weight : ReleaseMsg → Nat) :
      total (bytesForCPUs numThrds) weight (releaseRun numThrds events) =
        ((releaseRun numThrds events).sent.map weight).sum := by
    rw [total, nothing, List.map_nil, List.append_nil]
  have all := fun dest resID => @releaseRun_total numThrds dest resID (·.numSlots) (fun _ => 1)
    events ⟨[], []⟩ start reportable holding (fun call => adds_numSlots _ call.task.cpuSet)
  refine ⟨⟨?_, ?_⟩, (all noTid 0).1.sent⟩
  · intro dest resID
    have same := (all dest resID).2
    rw [← releaseRun, sent] at same
    have counted := countP_eq_sum_gained dest resID (fun _ => true) events
    simp only [Bool.and_true, if_true] at counted
    rw [counted]
    apply same.trans
    exact Nat.zero_add _
  · intro dest resID cpu
    have same := (@releaseRun_total numThrds dest resID
      (fun msg => count cpu (msg.sets.map MergedSet.cpus))
      (fun event => if cpu ∈ event.cpuSet then 1 else 0) events ⟨[], []⟩ start
      reportable holding
      (fun call => adds_count (bytesForCPUs_le numThrds) call.task.cpuSet cpu)).2
    rw [← releaseRun, sent] at same
    have counted := countP_eq_sum_gained dest resID
      (fun event => decide (cpu ∈ event.cpuSet)) events
    simp only [decide_eq_true_eq] at counted
    rw [counted]
    apply same.trans
    exact Nat.zero_add _

/-- The end of a task of session `⟨0, 1⟩` with one CPU. -/
def endOf (group : TaskGroup) (cpu : Nat) (memory : Bool) : ReleaseEvent :=
  .release {
    task := {
      origin := ⟨0, 0⟩, tid := ⟨0, 5⟩, loggertid := ⟨0, 1⟩,
      spawnertid := ⟨0, 2⟩, group := group, resID := 3, rank := 0,
      jobRank := 0, cpuSet := {cpu}, partHolder := ⟨0, 1⟩, firstLocal := true,
      argV := [], delayReasons := 0, deleted := true }
    sender := ⟨0, 5⟩, sessions := [], managedTasks := [], memory := memory }

/-- A second task of the reservation is still there, on the same CPU. -/
def twoEnds : List ReleaseEvent :=
  [.release {
    task := {
      origin := ⟨0, 0⟩, tid := ⟨0, 5⟩, loggertid := ⟨0, 1⟩,
      spawnertid := ⟨0, 2⟩, group := .any, resID := 3, rank := 0,
      jobRank := 0, cpuSet := {0}, partHolder := ⟨0, 1⟩, firstLocal := true,
      argV := [], delayReasons := 0, deleted := true }
    sender := ⟨0, 5⟩, sessions := []
    managedTasks := [{
      origin := ⟨0, 1⟩, tid := ⟨0, 6⟩, loggertid := ⟨0, 1⟩,
      spawnertid := ⟨0, 2⟩, group := .any, resID := 3, rank := 1,
      jobRank := 1, cpuSet := {0}, partHolder := ⟨0, 1⟩, firstLocal := false,
      argV := [], delayReasons := 0, deleted := false }]
    memory := true },
    endOf .any 0 true]

theorem releaseRun_released_twoEnds : Released twoEnds (releaseRun 8 twoEnds).sent ∧
      ∀ msg ∈ (releaseRun 8 twoEnds).sent, Apart msg := by
  apply releaseRun_released 8 twoEnds
  · intro event member
    rcases List.mem_cons.mp member with rfl | member
    · exact ⟨rfl, rfl, by decide⟩
    · rw [List.mem_singleton] at member
      subst member
      exact ⟨rfl, rfl, by decide⟩
  · intro event member
    rcases List.mem_cons.mp member with rfl | member
    · exact Finset.singleton_ne_empty 0
    · rw [List.mem_singleton] at member
      subst member
      exact Finset.singleton_ne_empty 0
  · exact List.length_eq_zero_iff.mp (by decide +kernel)

/-- What is lost on the way: a CPU the node does not report, a task that holds
nothing, a call without memory; and sets of one message do overlap. -/
theorem releaseRun_losses :
    (¬Released [endOf .any 8 true] (releaseRun 8 [endOf .any 8 true]).sent) ∧
      (¬Released [endOf .service 0 true] (releaseRun 8 [endOf .service 0 true]).sent) ∧
      (¬Released [endOf .any 0 false] (releaseRun 8 [endOf .any 0 false]).sent) ∧
      ¬∀ msg ∈ (releaseRun 8 twoEnds).sent, ApartAcross msg := by
  refine ⟨?_, ?_, ?_, ?_⟩
  · intro released
    exact absurd (released.cpus ⟨0, 1⟩ 3 8) (by decide +kernel)
  · intro released
    exact absurd (released.numSlots ⟨0, 1⟩ 3) (by decide +kernel)
  · intro released
    exact absurd (released.numSlots ⟨0, 1⟩ 3) (by decide +kernel)
  · intro apart
    have sent : (releaseRun 8 twoEnds).sent =
        [⟨⟨0, 1⟩, ⟨0, 5⟩, 1, [⟨{0}, [{0}]⟩, ⟨{0}, [{0}]⟩], 2, 3⟩] := by
      decide +kernel
    rw [sent] at apart
    have both := apart _ List.mem_cons_self
    rw [ApartAcross, List.pairwise_cons] at both
    have disjoint := both.1 _ List.mem_cons_self {0} List.mem_cons_self {0} List.mem_cons_self
    exact absurd disjoint (by decide)

end Psmgmt.Spawn
