import Psmgmt.Hardware.NodeInfo
import Psmgmt.Partition.CpuWords

/-!
# Devices close to a set of CPUs

`PSIDpin_getCloseDevs()` of `psidpin.c`: the devices of a node that are local
to the NUMA domains of some CPUs, and those closest to them.
-/

namespace Psmgmt.Hardware

open List

open Partition (CPUSet anyCpu overlapCpu)

/-- `UINT32_MAX`. -/
def uint32Max : Nat := 2 ^ 32 - 1

/-- `PSIDpin_devType_t`. -/
inductive DevType where
  | gpu
  | nic
  deriving DecidableEq, Repr

namespace NodeHw

def numDevs : DevType → NodeHw → Nat
  | .gpu, node => node.numGPUs.toNat
  | .nic, node => node.numNICs.toNat

def devSets : DevType → NodeHw → Option (List CpuSet)
  | .gpu, node => node.gpuSets
  | .nic, node => node.nicSets

/-- The CPUs of a NUMA domain. -/
def domCPUs (dom : Nat) (node : NodeHw) : CPUSet :=
  (Finset.range pscpuMax).filter (fun cpu => isSet ((node.cpuSets.getD []).getD dom 0) cpu)

/-- `PSIDnodes_distance()` as a number. -/
def dist (node : NodeHw) (source target : Nat) : Nat := (node.distance source target).toNat

end NodeHw

/-! ## The loops -/

section Loops

variable (numNUMA : Nat) (dist : Nat → Nat → Nat) (used : Nat → Bool)
  (usable : Nat → Bool) (inDom : Nat → Nat → Bool)

/-- The loop over the domains for the local devices. -/
def localDoms (dev : Nat) : List Nat → List Nat
  | [] => []
  | dom :: rest =>
    if !used dom || !inDom dom dev then localDoms dev rest
    else dev :: localDoms dev rest

/-- The loop over the devices for the local ones. -/
def localLoop : (devs : List Nat) → List Nat
  | [] => []
  | dev :: rest =>
    if !usable dev then localLoop rest
    else localDoms used inDom dev (List.range numNUMA) ++ localLoop rest

/-- The loop over the domains used: `dists[dev]` and `minDist`. -/
def distLoop (dom : Nat) : (rs : List Nat) → (distDev minDist : Nat) → Nat × Nat
  | [], distDev, minDist => (distDev, minDist)
  | r :: rest, distDev, minDist =>
    if !used r then distLoop dom rest distDev minDist
    else
      let d := dist r dom
      let distDev := if d < distDev then d else distDev
      let minDist := if d < minDist then d else minDist
      -- no NUMA domain closer than the local one
      if dom = r then (distDev, minDist)
      else distLoop dom rest distDev minDist

/-- The loop over the domains of a device, which ends with the first. -/
def domLoop (dev : Nat) : (doms : List Nat) → (minDist : Nat) → Nat × Nat
  | [], minDist => (uint32Max, minDist)
  | dom :: rest, minDist =>
    if !inDom dom dev then domLoop dev rest minDist
    else distLoop dist used dom (List.range numNUMA) uint32Max minDist

/-- The loop over the devices: `dists` and `minDist`. -/
def devLoop : (devs : List Nat) → (minDist : Nat) → List Nat × Nat
  | [], minDist => ([], minDist)
  | dev :: rest, minDist =>
    let (distDev, minDist) :=
      if !usable dev then (uint32Max, minDist)
      else
        domLoop numNUMA dist used inDom dev (List.range numNUMA) minDist
    let (dists, minDist) := devLoop rest minDist
    (distDev :: dists, minDist)

end Loops

/-- What `PSIDpin_getCloseDevs()` returns and the lists it leaves; `none` is a
list not filled. -/
structure CloseDevs where
  ret : Bool
  closeDevs : Option (List Nat)
  localDevs : Option (List Nat)
  deriving DecidableEq, Repr

/-- The NUMA domains with one of the CPUs. -/
def usedDom (node : NodeHw) (CPUs : CPUSet) (dom : Nat) : Bool :=
  let numThrds := node.numThrds.toInt.toNat
  let mappedSet := (Finset.range numThrds).filter (fun t => t ∈ CPUs)
  overlapCpu mappedSet (node.domCPUs dom) numThrds

/-- A device of a domain. -/
def inDom (devsets : List CpuSet) (dom dev : Nat) : Bool := isSet (devsets.getD dom 0) dev

/-- `PSIDpin_getCloseDevs()`; the flags tell which lists are requested. -/
def getCloseDevs (node : NodeHw) (CPUs devs : CPUSet)
    (closeDevs localDevs : Bool) (type : DevType) : CloseDevs :=
  let numDevs := node.numDevs type
  match node.devSets type with
  | none => ⟨false, none, none⟩
  | some devsets =>
    if !anyCpu devs numDevs then ⟨false, none, none⟩
    else
      let numNUMA := node.numNUMADoms.toNat
      let used := usedDom node CPUs
      let usable := fun dev => decide (dev ∈ devs)
      let localList :=
        if localDevs then
          some (localLoop numNUMA used usable (inDom devsets) (List.range numDevs))
        else none
      if localList.any (fun list => list ≠ []) then
        -- no device is closer than a local one
        ⟨true, if closeDevs then localList else none, localList⟩
      else if !closeDevs then ⟨true, none, localList⟩
      else
        let (dists, minDist) := devLoop numNUMA node.dist used usable
          (inDom devsets) (List.range numDevs) uint32Max
        if minDist = uint32Max then ⟨false, none, localList⟩
        else
          ⟨true,
            some ((List.range numDevs).filter (fun dev => dists.getD dev uint32Max = minDist)),
            localList⟩

/-! ## The devices meant -/

/-- The distances of a device to the domains used. -/
def Distances (node : NodeHw) (CPUs : CPUSet) (devsets : List CpuSet) (dev : Nat) : Set Nat :=
  fun d => ∃ r < node.numNUMADoms.toNat, ∃ dom < node.numNUMADoms.toNat,
    usedDom node CPUs r ∧ inDom devsets dom dev ∧ d = node.dist r dom

/-- The device is connected to a domain used. -/
def IsLocal (node : NodeHw) (CPUs : CPUSet) (devsets : List CpuSet) (dev : Nat) : Prop :=
  ∃ dom < node.numNUMADoms.toNat, usedDom node CPUs dom ∧ inDom devsets dom dev

/-- The device may be used. -/
def Usable (node : NodeHw) (devs : CPUSet) (type : DevType) (dev : Nat) :
    Prop :=
  dev < node.numDevs type ∧ dev ∈ devs

/-- No usable device has a smaller distance than this one has. -/
def IsClosest (node : NodeHw) (CPUs devs : CPUSet) (type : DevType)
    (devsets : List CpuSet) (dev : Nat) : Prop :=
  ∃ d ∈ Distances node CPUs devsets dev,
    ∀ other, Usable node devs type other → ∀ d' ∈ Distances node CPUs devsets other, d ≤ d'

/-- The list is strictly ascending and holds exactly these devices. -/
def Lists (numDevs : Nat) (devs : List Nat) (meant : Nat → Prop) : Prop :=
  devs.Pairwise (· < ·) ∧ (∀ dev, dev ∈ devs ↔ meant dev) ∧ devs.length ≤ numDevs

/-- Both lists are returned and hold the devices meant. -/
def Exact (node : NodeHw) (CPUs devs : CPUSet) (type : DevType) (devsets : List CpuSet) : Prop :=
  ∃ closeDevs localDevs,
    getCloseDevs node CPUs devs true true type = ⟨true, some closeDevs, some localDevs⟩ ∧
      Lists (node.numDevs type) localDevs (fun dev =>
        Usable node devs type dev ∧ IsLocal node CPUs devsets dev) ∧
      Lists (node.numDevs type) closeDevs (fun dev =>
        Usable node devs type dev ∧ IsClosest node CPUs devs type devsets dev)

/-- Each domain is closer to itself than to any other. -/
def SelfClosest (node : NodeHw) : Prop :=
  ∀ r < node.numNUMADoms.toNat, ∀ dom < node.numNUMADoms.toNat,
    r ≠ dom → node.dist r r < node.dist r dom

/-- What the function assumes: a usable device is connected to just one NUMA
domain, and all domains are equally close to themselves. -/
structure Assumed (node : NodeHw) (devs : CPUSet) (type : DevType)
    (devsets : List CpuSet) : Prop where
  single : ∀ dev, Usable node devs type dev →
    ∀ dom < node.numNUMADoms.toNat, ∀ other < node.numNUMADoms.toNat,
      inDom devsets dom dev → inDom devsets other dev → dom = other
  equal : ∀ r < node.numNUMADoms.toNat, ∀ dom < node.numNUMADoms.toNat,
    node.dist r r = node.dist dom dom

theorem length_of_ascending {list : List Nat} {bound : Nat}
    (ascending : list.Pairwise (· < ·)) (below : ∀ item ∈ list, item < bound) :
    list.length ≤ bound := by
  have distinct : list.Nodup := ascending.imp Nat.ne_of_lt
  have inside : list ⊆ List.range bound :=
    fun item member => mem_range.mpr (below item member)
  have bounded := (distinct.subperm inside).length_le
  rwa [length_range] at bounded

/-! ## Local devices -/

variable {dev : Nat}

section LocalDevices

variable {numNUMA : Nat} {used usable : Nat → Bool} {inDom : Nat → Nat → Bool}

theorem mem_localDoms {item : Nat} {doms : List Nat} :
    item ∈ localDoms used inDom dev doms ↔ item = dev ∧ ∃ dom ∈ doms, used dom ∧ inDom dom dev := by
  induction doms with
  | nil => simp [localDoms]
  | cons dom rest induction =>
    rw [localDoms]
    cases usesDom : used dom <;> cases connected : inDom dom dev <;>
      simp [induction, usesDom, connected]
    tauto

theorem mem_localLoop {item : Nat} {devs : List Nat} :
    item ∈ localLoop numNUMA used usable inDom devs ↔
      item ∈ devs ∧ usable item ∧ ∃ dom < numNUMA, used dom ∧ inDom dom item := by
  induction devs with
  | nil => simp [localLoop]
  | cons dev rest induction =>
    rw [localLoop]
    cases isUsable : usable dev with
    | false =>
      simp only [Bool.not_false, if_true, induction, mem_cons]
      constructor
      · rintro ⟨member, others⟩
        exact ⟨.inr member, others⟩
      · rintro ⟨rfl | member, useful, others⟩
        · exact absurd useful (by simp [isUsable])
        · exact ⟨member, useful, others⟩
    | true =>
      simp only [Bool.not_true, Bool.false_eq_true, if_false,
        mem_append, mem_localDoms, induction, mem_cons,
        mem_range]
      constructor
      · rintro (⟨rfl, others⟩ | ⟨member, others⟩)
        · exact ⟨.inl rfl, isUsable, others⟩
        · exact ⟨.inr member, others⟩
      · rintro ⟨rfl | member, useful, others⟩
        · exact .inl ⟨rfl, others⟩
        · exact .inr ⟨member, useful, others⟩

/-- A device connected to one domain only is listed once at most. -/
theorem localDoms_ascending {doms : List Nat} (distinct : doms.Nodup)
    (single : ∀ dom ∈ doms, ∀ other ∈ doms, inDom dom dev → inDom other dev → dom = other) :
    (localDoms used inDom dev doms).Pairwise (· < ·) := by
  induction doms with
  | nil => simp [localDoms]
  | cons dom rest induction =>
    have restSingle := fun first inFirst second inSecond =>
      single first (mem_cons_of_mem dom inFirst) second (mem_cons_of_mem dom inSecond)
    have later := induction (nodup_cons.mp distinct).2 restSingle
    rw [localDoms]
    split
    case isTrue => exact later
    case isFalse taken =>
        have connected : inDom dom dev := by
          cases holds : inDom dom dev <;> simp [holds] at taken ⊢
        refine pairwise_cons.mpr ⟨?_, later⟩
        intro item member
        obtain ⟨_, other, inRest, _, otherConnected⟩ := mem_localDoms.mp member
        have same := single dom (by simp) other
          (mem_cons_of_mem dom inRest) connected otherConnected
        exact absurd (same ▸ inRest) (nodup_cons.mp distinct).1

theorem localLoop_ascending {devs : List Nat}
    (ascending : devs.Pairwise (· < ·))
    (single : ∀ dev ∈ devs, usable dev → ∀ dom < numNUMA, ∀ other < numNUMA,
      inDom dom dev → inDom other dev → dom = other) :
    (localLoop numNUMA used usable inDom devs).Pairwise (· < ·) := by
  induction devs with
  | nil => simp [localLoop]
  | cons dev rest induction =>
    rw [pairwise_cons] at ascending
    have later := induction ascending.2
      (fun other member => single other (mem_cons_of_mem dev member))
    rw [localLoop]
    split
    case isTrue => exact later
    case isFalse useful =>
        have isUsable : usable dev := by simpa using useful
        refine pairwise_append.mpr ⟨?_, later, ?_⟩
        · apply localDoms_ascending nodup_range
          intro dom inRange other otherInRange
          exact single dev (by simp) isUsable dom (mem_range.mp inRange) other
            (mem_range.mp otherInRange)
        · intro item member other otherMember
          rw [(mem_localDoms.mp member).1]
          exact ascending.1 other (mem_localLoop.mp otherMember).1

end LocalDevices

/-! ## Distances -/

variable {minDist : Nat}

section ByDistance

variable {numNUMA : Nat} {dist : Nat → Nat → Nat} {used usable : Nat → Bool}
  {inDom : Nat → Nat → Bool}

theorem distLoop_cons (dom r : Nat) (rest : List Nat)
    (distDev minDist : Nat) :
    distLoop dist used dom (r :: rest) distDev minDist =
      if !used r then distLoop dist used dom rest distDev minDist
      else if dom = r then
        (min (dist r dom) distDev, min (dist r dom) minDist)
      else
        distLoop dist used dom rest (min (dist r dom) distDev) (min (dist r dom) minDist) := by
  have smaller : ∀ d old : Nat, (if d < old then d else old) = min d old := by
    intro d old
    split <;> omega
  simp only [distLoop, smaller]

/-- The smallest distance of a device does not depend on those before. -/
theorem distLoop_fst (dom : Nat) (rs : List Nat)
    (distDev minDist other : Nat) :
    (distLoop dist used dom rs distDev minDist).1 =
      (distLoop dist used dom rs distDev other).1 := by
  induction rs generalizing distDev minDist other with
  | nil => rfl
  | cons r rest induction =>
    simp only [distLoop_cons]
    split
    · exact induction distDev minDist other
    · split
      · rfl
      · exact induction _ _ _

theorem distLoop_le (dom : Nat) (rs : List Nat) (distDev minDist : Nat) :
    (distLoop dist used dom rs distDev minDist).1 ≤ distDev := by
  induction rs generalizing distDev minDist with
  | nil => exact Nat.le_refl _
  | cons r rest induction =>
    rw [distLoop_cons]
    split
    · exact induction distDev minDist
    · split
      · exact Nat.min_le_right _ _
      · exact Nat.le_trans (induction _ _) (Nat.min_le_right _ _)

/-- The smallest distance of all is the smaller one of those before and of the
device's. -/
theorem distLoop_snd (dom : Nat) (rs : List Nat) {distDev : Nat}
    (below : minDist ≤ distDev) :
    (distLoop dist used dom rs distDev minDist).2 =
      min minDist (distLoop dist used dom rs distDev minDist).1 := by
  induction rs generalizing distDev minDist with
  | nil => simp [distLoop, Nat.min_eq_left below]
  | cons r rest induction =>
    rw [distLoop_cons]
    split
    · exact induction below
    · split
      · simp only
        omega
      · have bound := @distLoop_le dist used dom rest
          (min (dist r dom) distDev) (min (dist r dom) minDist)
        rw [induction (by omega)]
        omega

/-- Without a break the loop finds the smallest distance. -/
theorem distLoop_least {dom : Nat} {rs : List Nat}
    (apart : ∀ r ∈ rs, used r → dom ≠ r) (distDev minDist : Nat) :
    IsLeast (insert distDev {d | ∃ r ∈ rs, used r ∧ d = dist r dom})
      (distLoop dist used dom rs distDev minDist).1 := by
  induction rs generalizing distDev minDist with
  | nil => simp [distLoop]
  | cons r rest induction =>
    have later := fun first second =>
      induction (fun other member => apart other (mem_cons_of_mem r member)) first second
    rw [distLoop_cons]
    cases usesDom : used r with
    | false => simpa [usesDom] using later distDev minDist
    | true =>
      have different := apart r (by simp) usesDom
      obtain ⟨found, least⟩ := later (min (dist r dom) distDev) (min (dist r dom) minDist)
      simp only [Bool.not_true, Bool.false_eq_true, if_false, if_neg different]
      constructor
      · rcases found with first | ⟨other, member, useful, value⟩
        · rcases Nat.le_total (dist r dom) distDev with smaller | larger
          · exact .inr ⟨r, by simp, usesDom,
              first.trans (Nat.min_eq_left smaller)⟩
          · exact .inl (first.trans (Nat.min_eq_right larger))
        · exact .inr ⟨other, mem_cons_of_mem r member, useful, value⟩
      · have bound := least (Set.mem_insert _ _)
        rintro value (first | ⟨other, member, useful, same⟩)
        · rw [first]
          exact Nat.le_trans bound (Nat.min_le_right _ _)
        · rcases mem_cons.mp member with head | tail
          · rw [same, head]
            exact Nat.le_trans bound (Nat.min_le_left _ _)
          · exact least (.inr ⟨other, tail, useful, same⟩)

/-- The entry of `dists` for a device. -/
def devDist (numNUMA : Nat) (dist : Nat → Nat → Nat)
    (used usable : Nat → Bool) (inDom : Nat → Nat → Bool) (dev : Nat) : Nat :=
  if usable dev then
    (domLoop numNUMA dist used inDom dev (List.range numNUMA) 0).1
  else uint32Max

theorem domLoop_fst (dev : Nat) (doms : List Nat) (minDist other : Nat) :
    (domLoop numNUMA dist used inDom dev doms minDist).1 =
      (domLoop numNUMA dist used inDom dev doms other).1 := by
  induction doms with
  | nil => rfl
  | cons dom rest induction =>
    simp only [domLoop]
    split
    · exact induction
    · exact distLoop_fst _ _ _ _ _

theorem domLoop_snd (dev : Nat) (doms : List Nat) {minDist : Nat}
    (below : minDist ≤ uint32Max) :
    (domLoop numNUMA dist used inDom dev doms minDist).2 =
      min minDist (domLoop numNUMA dist used inDom dev doms minDist).1 := by
  induction doms with
  | nil => simp [domLoop, Nat.min_eq_left below]
  | cons dom rest induction =>
    simp only [domLoop]
    split
    · exact induction
    · exact distLoop_snd _ _ below

/-- The loop over the devices fills in the smallest distance of each and finds
the smallest of all. -/
theorem devLoop_eq (devs : List Nat) (below : minDist ≤ uint32Max) :
    devLoop numNUMA dist used usable inDom devs minDist =
      (devs.map (devDist numNUMA dist used usable inDom),
        (devs.map (devDist numNUMA dist used usable inDom)).foldl min minDist) := by
  induction devs generalizing minDist with
  | nil => rfl
  | cons dev rest induction =>
    rw [devLoop]
    cases isUsable : usable dev with
    | false => simp [induction below, devDist, isUsable, Nat.min_eq_left below]
    | true =>
      have fst := @domLoop_fst numNUMA dist used inDom dev (List.range numNUMA) minDist 0
      have snd := @domLoop_snd numNUMA dist used inDom dev (List.range numNUMA) minDist below
      rw [fst] at snd
      have smaller : min minDist (domLoop numNUMA dist used inDom dev (List.range numNUMA) 0).1 ≤
            uint32Max := Nat.le_trans (Nat.min_le_left _ _) below
      simp [fst, snd, induction smaller, devDist, isUsable]

theorem foldl_min (values : List Nat) (bound : Nat) :
    IsLeast (insert bound {value | value ∈ values}) (values.foldl min bound) := by
  induction values generalizing bound with
  | nil => simp
  | cons value rest induction =>
    obtain ⟨found, least⟩ := induction (min bound value)
    rw [foldl_cons]
    constructor
    · rcases found with first | member
      · rcases Nat.le_total bound value with smaller | larger
        · rw [Nat.min_eq_left smaller] at first ⊢
          exact .inl first
        · rw [Nat.min_eq_right larger] at first ⊢
          exact .inr (by simp [first])
      · exact .inr (mem_cons_of_mem value member)
    · have start := least (Set.mem_insert _ _)
      rintro item (first | member)
      · rw [first]
        exact Nat.le_trans start (Nat.min_le_left _ _)
      · rcases mem_cons.mp member with head | tail
        · rw [head]
          exact Nat.le_trans start (Nat.min_le_right _ _)
        · exact least (.inr tail)

/-- With one domain a device connected to no domain used has the smallest of
its distances entered. -/
theorem devDist_least (isUsable : usable dev)
    (single : ∀ dom < numNUMA, ∀ other < numNUMA, inDom dom dev → inDom other dev → dom = other)
    (remote : ∀ dom < numNUMA, used dom → ¬ inDom dom dev) :
    IsLeast
      (insert uint32Max {d | ∃ r < numNUMA, ∃ dom < numNUMA,
        used r ∧ inDom dom dev ∧ d = dist r dom})
      (devDist numNUMA dist used usable inDom dev) := by
  have scan : ∀ doms : List Nat, (∀ dom ∈ doms, dom < numNUMA) → IsLeast
        (insert uint32Max {d | ∃ r < numNUMA, ∃ dom ∈ doms,
          used r ∧ inDom dom dev ∧ d = dist r dom})
        (domLoop numNUMA dist used inDom dev doms 0).1 := by
    intro doms inside
    induction doms with
    | nil => simp [domLoop]
    | cons dom rest induction =>
      have restInside := fun other member => inside other (mem_cons_of_mem dom member)
      rw [domLoop]
      cases connected : inDom dom dev with
      | false => simpa [connected] using induction restInside
      | true =>
        have least := @distLoop_least dist used dom (List.range numNUMA)
          (by
            intro r inRange useful same
            subst same
            exact remote dom (mem_range.mp inRange) useful connected)
          uint32Max 0
        have sameSet : {d | ∃ r ∈ List.range numNUMA, used r ∧ d = dist r dom} =
            {d | ∃ r < numNUMA, ∃ other ∈ dom :: rest,
              used r ∧ inDom other dev ∧ d = dist r other} := by
          ext d
          constructor
          · rintro ⟨r, inRange, useful, value⟩
            exact ⟨r, mem_range.mp inRange, dom, by simp, useful, connected, value⟩
          · rintro ⟨r, below, other, member, useful, otherConnected, value⟩
            have same := single dom (inside dom (by simp)) other
              (inside other member) connected otherConnected
            exact ⟨r, mem_range.mpr below, useful, same ▸ value⟩
        rw [sameSet] at least
        simpa [connected] using least
  have whole := scan (List.range numNUMA) (fun dom member => mem_range.mp member)
  simpa [devDist, isUsable] using whole

end ByDistance

/-! ## The lists returned -/

theorem anyCpu_of_usable {node : NodeHw} {devs : CPUSet} {type : DevType}
    (useful : Usable node devs type dev) : anyCpu devs (node.numDevs type) := by
  have below := useful.1
  rw [anyCpu, decide_eq_true_eq]
  exact ⟨dev, useful.2, by omega⟩

section Node

variable {node : NodeHw} {CPUs devs : CPUSet} {type : DevType}
  {devsets : List CpuSet}

theorem isClosest_iff_isLocal (assumed : Assumed node devs type devsets)
    (closest : SelfClosest node)
    (someLocal : ∃ dev, Usable node devs type dev ∧ IsLocal node CPUs devsets dev) (dev : Nat) :
    IsClosest node CPUs devs type devsets dev ↔ IsLocal node CPUs devsets dev := by
  constructor
  · rintro ⟨d, ⟨r, rBelow, dom, domBelow, useful, connected, value⟩, least⟩
    obtain ⟨other, otherUsable, self, selfBelow, selfUsed, selfConnected⟩ := someLocal
    have bound := least other otherUsable (node.dist self self)
      ⟨self, selfBelow, self, selfBelow, selfUsed, selfConnected, rfl⟩
    by_cases same : r = dom
    · exact ⟨dom, domBelow, same ▸ useful, connected⟩
    · have further := closest r rBelow dom domBelow same
      rw [assumed.equal self selfBelow r rBelow] at bound
      omega
  · rintro ⟨dom, domBelow, useful, connected⟩
    refine ⟨node.dist dom dom, ⟨dom, domBelow, dom, domBelow, useful, connected, rfl⟩, ?_⟩
    rintro other _ d' ⟨r, rBelow, otherDom, otherBelow, _, _, value⟩
    rw [value, assumed.equal dom domBelow r rBelow]
    by_cases same : r = otherDom
    · rw [same]
    · exact Nat.le_of_lt (closest r rBelow otherDom otherBelow same)

def localDevices (node : NodeHw) (CPUs devs : CPUSet) (type : DevType)
    (devsets : List CpuSet) : List Nat :=
  localLoop node.numNUMADoms.toNat (usedDom node CPUs) (fun dev => decide (dev ∈ devs))
    (inDom devsets) (List.range (node.numDevs type))

theorem lists_localDevices (assumed : Assumed node devs type devsets) :
    Lists (node.numDevs type) (localDevices node CPUs devs type devsets)
      (fun dev => Usable node devs type dev ∧ IsLocal node CPUs devsets dev) := by
  have members : ∀ dev, dev ∈ localDevices node CPUs devs type devsets ↔
        Usable node devs type dev ∧ IsLocal node CPUs devsets dev := by
    intro dev
    simp [localDevices, mem_localLoop, Usable, IsLocal, and_assoc]
  have ascending : (localDevices node CPUs devs type devsets).Pairwise (· < ·) := by
    apply localLoop_ascending pairwise_lt_range
    intro dev inRange isUsable
    exact assumed.single dev ⟨mem_range.mp inRange, by simpa using isUsable⟩
  refine ⟨ascending, members, length_of_ascending ascending ?_⟩
  intro dev member
  exact ((members dev).mp member).1.1

/-- The entry of `dists` for a device of the node. -/
def nodeDist (node : NodeHw) (CPUs devs : CPUSet) (devsets : List CpuSet) : Nat → Nat :=
  devDist node.numNUMADoms.toNat node.dist (usedDom node CPUs)
    (fun dev => decide (dev ∈ devs)) (inDom devsets)

section

variable (assumed : Assumed node devs type devsets)
  (remote : ∀ dev, Usable node devs type dev → ¬ IsLocal node CPUs devsets dev)

include assumed remote

theorem nodeDist_least (useful : Usable node devs type dev) :
    IsLeast (insert uint32Max (Distances node CPUs devsets dev))
      (nodeDist node CPUs devs devsets dev) := by
  apply devDist_least
  · simpa using useful.2
  · exact assumed.single dev useful
  · intro dom below isUsed connected
    exact remote dev useful ⟨dom, below, isUsed, connected⟩

/-- The devices at the smallest distance are the closest ones. -/
theorem lists_closest (belowMax : minDist < uint32Max) (least : IsLeast
      (insert uint32Max {value | value ∈
        (List.range (node.numDevs type)).map (nodeDist node CPUs devs devsets)}) minDist) :
    Lists (node.numDevs type)
      ((List.range (node.numDevs type)).filter (fun dev =>
        ((List.range (node.numDevs type)).map
          (nodeDist node CPUs devs devsets)).getD dev uint32Max = minDist))
      (fun dev => Usable node devs type dev ∧ IsClosest node CPUs devs type devsets dev) := by
  have bound : ∀ dev < node.numDevs type, minDist ≤ nodeDist node CPUs devs devsets dev := by
    intro dev below
    apply least.2
    exact .inr (mem_map.mpr ⟨dev, mem_range.mpr below, rfl⟩)
  have isUsable : ∀ dev < node.numDevs type,
      nodeDist node CPUs devs devsets dev < uint32Max → Usable node devs type dev := by
    intro dev below smaller
    refine ⟨below, ?_⟩
    by_contra excluded
    simp [nodeDist, devDist, excluded] at smaller
  have ascending := (pairwise_lt_range (n := node.numDevs type)).filter
    (fun dev => decide (((List.range (node.numDevs type)).map
      (nodeDist node CPUs devs devsets)).getD dev uint32Max = minDist))
  have members : ∀ dev,
      dev ∈ (List.range (node.numDevs type)).filter (fun dev =>
          ((List.range (node.numDevs type)).map
            (nodeDist node CPUs devs devsets)).getD dev uint32Max = minDist) ↔
        Usable node devs type dev ∧ IsClosest node CPUs devs type devsets dev := by
    intro dev
    rw [mem_filter, mem_range]
    constructor
    · rintro ⟨below, entry⟩
      have value : nodeDist node CPUs devs devsets dev = minDist := by
        simpa [below] using entry
      have useful := isUsable dev below (by omega)
      refine ⟨useful, minDist, ?_, ?_⟩
      · rcases (nodeDist_least assumed remote useful).1 with most | among
        · omega
        · rwa [value] at among
      · intro other otherUsable d' among
        exact Nat.le_trans (bound other otherUsable.1)
          ((nodeDist_least assumed remote otherUsable).2 (.inr among))
    · rintro ⟨useful, d, among, closest⟩
      have upper := (nodeDist_least assumed remote useful).2 (.inr among)
      have lower := bound dev useful.1
      have value : minDist = nodeDist node CPUs devs devsets dev := by
        rcases least.1 with most | member
        · omega
        · obtain ⟨best, inRange, same⟩ := mem_map.mp member
          have bestUsable := isUsable best (mem_range.mp inRange) (by omega)
          have further := closest best bestUsable minDist (by
            rcases (nodeDist_least assumed remote bestUsable).1 with
              most | among
            · omega
            · rwa [same] at among)
          omega
      exact ⟨useful.1, by simp [useful.1, value]⟩
  refine ⟨ascending, members, length_of_ascending ascending ?_⟩
  intro dev member
  exact ((members dev).mp member).1.1

end

end Node

/-- One GPU connected to both NUMA domains. -/
def sharedGPU : NodeHw :=
  { nodeInit with
    numThrds := 2, numNUMADoms := 2, cpuSets := some [1, 2]
    distances := some [10, 20, 20, 10], numGPUs := 1, gpuSets := some [1, 1] }

/-- A CPU in the first NUMA domain and two GPUs, one of them connected to both
of the others. -/
def remoteGPUs : NodeHw :=
  { nodeInit with
    numThrds := 3, numNUMADoms := 3, cpuSets := some [1, 2, 4]
    distances := some [10, 40, 20, 40, 10, 20, 20, 20, 10]
    numGPUs := 2, gpuSets := some [0, 3, 1] }

/-- One GPU connected to the second of two NUMA domains. -/
def singleGPU : NodeHw := { sharedGPU with gpuSets := some [0, 1] }

end Psmgmt.Hardware
