import Psmgmt.Hardware.NodeInfo

/-!
# Replicated hardware information

A section without content is left out of the message, and its part of the copy
stays as it is.  This is right for the devices of a copy that are dropped
because the number of NUMA domains changes, and for no others.
-/

namespace Psmgmt.Hardware

open List Option

/-- A number that is not negative as a `short`. -/
theorem toInt_eq_toNat {num : BitVec 16} (nonneg : 0 ≤ num.toInt) : num.toInt = num.toNat := by
  rw [BitVec.toInt_eq_toNat_cond] at nonneg ⊢
  have bound := num.isLt
  split at nonneg
  · next small => exact if_pos small
  · omega

/-- What holds of the local hardware state. -/
structure Valid (node : NodeHw) : Prop where
  threaded : 1 ≤ node.numThrds.toInt
  domains : 1 ≤ node.numNUMADoms.toInt
  cpuSets : ∃ sets, node.cpuSets = some sets ∧ sets.length = node.numNUMADoms.toNat
  gpuSets : ∀ sets, node.gpuSets = some sets → sets.length = node.numNUMADoms.toNat
  nicSets : ∀ sets, node.nicSets = some sets → sets.length = node.numNUMADoms.toNat
  gpuless : node.gpuSets = none → node.numGPUs = 0
  nicless : node.nicSets = none → node.numNICs = 0
  square : ∀ values, node.distances = some values →
    values.length = node.numNUMADoms.toNat * node.numNUMADoms.toNat

theorem valid_reInit (found : Detection) (node : NodeHw) : Valid (node.reInit found) where
  threaded := found.threaded
  domains := found.domains
  cpuSets := ⟨found.cpuSets, rfl, found.sets⟩
  gpuSets := fun _ none => nomatch none
  nicSets := fun _ none => nomatch none
  gpuless := fun _ => rfl
  nicless := fun _ => rfl
  square := found.square

theorem Valid.step {before after : NodeHw} (valid : Valid before)
    (step : LocalStep before after) : Valid after := by
  cases step with
  | reInit found => exact valid_reInit found before
  | updateGPUInfo num sets _ domains =>
    by_cases present : num ≠ 0
    · have updated : before.updateGPUInfo num sets =
          { before with numGPUs := num, gpuSets := some sets } :=
        if_pos present
      rw [updated]
      refine { valid with gpuSets := ?_, gpuless := nofun }
      intro other same
      cases same
      exact domains
    · have updated : before.updateGPUInfo num sets =
          { before with numGPUs := num } := if_neg present
      rw [updated]
      exact { valid with gpuless := fun _ => not_not.mp present }
  | updateNICInfo num sets _ domains =>
    by_cases present : num ≠ 0
    · have updated : before.updateNICInfo num sets =
          { before with numNICs := num, nicSets := some sets } :=
        if_pos present
      rw [updated]
      refine { valid with nicSets := ?_, nicless := nofun }
      intro other same
      cases same
      exact domains
    · have updated : before.updateNICInfo num sets =
          { before with numNICs := num } := if_neg present
      rw [updated]
      exact { valid with nicless := fun _ => not_not.mp present }
  | clearCPUMap => exact { valid with }
  | appendCPUMap cpu => exact { valid with }

theorem invariant_valid : localSystem.Invariant Valid where
  initial := by
    rintro node ⟨found, rfl⟩
    exact valid_reInit found nodeInit
  step := fun _ _ valid step => valid.step step

theorem handle_append (first second : List Section) :
    ∀ node, (handleNodeInfoData first node).1 = true → handleNodeInfoData (first ++ second) node =
        handleNodeInfoData second (handleNodeInfoData first node).2 := by
  induction first with
  | nil =>
    intro node _
    rfl
  | cons part rest induction =>
    intro node handled
    rw [handleNodeInfoData] at handled
    rw [cons_append, handleNodeInfoData, handleNodeInfoData]
    split
    · next same =>
        rw [same] at handled
        exact induction _ handled
    · next same =>
        rw [same] at handled
        exact absurd handled Bool.false_ne_true

theorem handle_append_failed (first second : List Section) :
    ∀ node, (handleNodeInfoData first node).1 = false →
      (handleNodeInfoData (first ++ second) node).1 = false := by
  induction first with
  | nil =>
    intro node failed
    exact absurd failed.symm Bool.false_ne_true
  | cons part rest induction =>
    intro node failed
    rw [handleNodeInfoData] at failed
    rw [cons_append, handleNodeInfoData]
    split
    · next same =>
        rw [same] at failed
        exact induction _ failed
    · rfl

theorem foldl_appendCPUMap (entries : List (BitVec 16)) :
    ∀ node : NodeHw, entries.foldl (fun node cpu => node.appendCPUMap cpu)
      node = { node with cpuMap := node.cpuMap ++ entries } := by
  induction entries with
  | nil =>
    intro node
    simp
  | cons cpu rest induction =>
    intro node
    rw [foldl_cons, induction]
    simp [NodeHw.appendCPUMap]

theorem adaptNUMA_numNUMADoms (numNUMA : BitVec 16) (node : NodeHw) :
    (node.adaptNUMA numNUMA).numNUMADoms = numNUMA := by
  rw [NodeHw.adaptNUMA]
  split
  · rfl
  · split
    · rfl
    · next same =>
        rw [not_not] at same
        apply BitVec.eq_of_toNat_eq
        have nonneg : 0 ≤ node.numNUMADoms.toInt := by omega
        rw [toInt_eq_toNat nonneg] at same
        exact Int.ofNat_inj.mp same

variable {node copy : NodeHw} {num : BitVec 16} {sets : Option (List CpuSet)}

theorem adaptNUMA_self (domains : 1 ≤ node.numNUMADoms.toInt) :
    node.adaptNUMA node.numNUMADoms = node := by
  have present : node.numNUMADoms ≠ 0 := by
    intro absent
    rw [absent] at domains
    exact absurd domains (by decide)
  rw [NodeHw.adaptNUMA, if_neg present, if_neg (not_not.mpr (toInt_eq_toNat (by omega)))]

/-- The sets a message carries. -/
def copied (numNUMA num : BitVec 16) (sets : List CpuSet) : List CpuSet :=
  (List.range numNUMA.toNat).map (fun dom =>
    inject (extract (sets.getD dom 0) (bytesForCPUs num.toNat)))

theorem isSet_inject {num device : Nat} (inside : device < num)
    (bounded : num ≤ pscpuMax) (set : CpuSet) :
    isSet (inject (extract set (bytesForCPUs num))) device = isSet set device := by
  have bytes : bytesForCPUs num = (num - 1) / 8 + 1 := by
    rw [bytesForCPUs, if_neg (Nat.not_lt.mpr bounded),
      if_neg (Nat.ne_of_gt (Nat.zero_lt_of_lt inside))]
  have covered : device < 8 * bytesForCPUs num := by omega
  have small : device < pscpuMax := Nat.lt_of_lt_of_le inside bounded
  rw [isSet, isSet, inject, extract, BitVec.getLsbD_ofNat, Nat.testBit_mod_two_pow]
  simp only [small, covered, decide_true, Bool.true_and]
  rfl

theorem sameSets_copied {numNUMA : BitVec 16} {sets : List CpuSet}
    (domains : sets.length = numNUMA.toNat) (bounded : num.toNat ≤ pscpuMax) :
    SameSets numNUMA num (some (copied numNUMA num sets)) (some sets) := by
  intro dom known device inside
  have nonneg : 0 ≤ num.toInt := by omega
  rw [toInt_eq_toNat nonneg] at inside
  have present : dom < sets.length := by omega
  have entry : sets[dom]? = some sets[dom] := getElem?_eq_getElem present
  have copy : (copied numNUMA num sets)[dom]? =
      some (inject (extract sets[dom] (bytesForCPUs num.toNat))) := by
    rw [copied, getElem?_map, getElem?_range known]
    simp [getD_eq_getElem?_getD, entry]
  rw [member, member, bind_some, bind_some, copy, entry,
    map_some, map_some,
    isSet_inject (Int.ofNat_lt.mp inside) bounded]

/-- A section of sets is part of the message. -/
def Sent (sets : Option (List CpuSet)) (num : BitVec 16) : Prop := sets ≠ none ∧ 0 ≤ num.toInt

instance (sets : Option (List CpuSet)) (num : BitVec 16) : Decidable (Sent sets num) :=
  inferInstanceAs (Decidable (_ ∧ _))

theorem addSetsData_unsent (unsent : ¬Sent sets num) (type : SetType)
    (node : NodeHw) : addSetsData type sets num node = [] := by
  rw [addSetsData.eq_def]
  split
  · rfl
  · apply if_pos
    apply Or.inr
    by_contra nonneg
    exact unsent ⟨some_ne_none _, by omega⟩

theorem handle_single (part : Section) (node : NodeHw) :
    handleNodeInfoData [part] node = handleSection part node := by
  rw [handleNodeInfoData]
  split
  · next same => exact same.symm
  · next same => exact same.symm

theorem handle_sent {sets : List CpuSet} {num : BitVec 16} {node copy : NodeHw}
    (domains : 1 ≤ node.numNUMADoms.toInt) (nonneg : 0 ≤ num.toInt) (type : SetType) :
    handleNodeInfoData (addSetsData type (some sets) num node) copy =
      let adapted := (copy.adaptNUMA node.numNUMADoms).setSetSize type num
      if num = 0 then (true, adapted.setSets type none)
      else if pscpuMax < num.toNat then (false, adapted)
      else (true, adapted.setSets type (some (copied node.numNUMADoms num sets))) := by
  have present : ¬(node.numNUMADoms = 0 ∨ num.toInt < 0) := by
    rintro (absent | negative)
    · rw [absent] at domains
      exact absurd domains (by decide)
    · omega
  rw [addSetsData, if_neg present]
  simp only
  by_cases empty : num = 0
  · rw [if_pos (.inl empty), if_pos empty, handle_single]
    exact if_pos empty
  · have positive : num.toNat ≠ 0 := by
      intro zero
      exact empty (BitVec.eq_of_toNat_eq zero)
    rw [if_neg empty]
    by_cases large : pscpuMax < num.toNat
    · have bytes : bytesForCPUs num.toNat = 0 := if_pos large
      rw [if_pos (.inr bytes), if_pos large, handle_single]
      exact (if_neg empty).trans (if_pos bytes)
    · have bytes : bytesForCPUs num.toNat ≠ 0 := by
        rw [bytesForCPUs, if_neg large, if_neg positive]
        exact Nat.succ_ne_zero _
      rw [if_neg (not_or.mpr ⟨empty, bytes⟩), if_neg large, handle_single]
      refine (if_neg empty).trans ((if_neg bytes).trans ?_)
      rw [List.map_map]
      rfl

/-- The receiver can read the section, if there is one. -/
def Readable (sets : Option (List CpuSet)) (num : BitVec 16) : Prop :=
  Sent sets num → num.toNat ≤ pscpuMax

theorem handle_devices {sets : Option (List CpuSet)} {num : BitVec 16}
    {node copy : NodeHw} (domains : 1 ≤ node.numNUMADoms.toInt)
    (lengths : ∀ held, sets = some held → held.length = node.numNUMADoms.toNat)
    (same : copy.numNUMADoms = node.numNUMADoms) (type : SetType) :
    (¬Readable sets num → (handleNodeInfoData (addSetsData type sets num node) copy).1 = false) ∧
    (Readable sets num → ∃ received, handleNodeInfoData (addSetsData type sets num node) copy =
          (true, if Sent sets num then
            (copy.setSetSize type num).setSets type received else copy) ∧
        (Sent sets num → SameSets node.numNUMADoms num received sets)) := by
  by_cases sent : Sent sets num
  · have nonneg := sent.2
    cases held : sets with
    | none => exact absurd held sent.1
    | some listed =>
      have handled := @handle_sent listed num node copy domains nonneg type
      have adapted : copy.adaptNUMA node.numNUMADoms = copy := by
        rw [← same] at domains ⊢
        exact adaptNUMA_self domains
      rw [held] at sent
      simp only [adapted] at handled
      constructor
      · intro unreadable
        rw [Readable, Classical.not_imp] at unreadable
        have large := Nat.lt_of_not_le unreadable.2
        have present : num ≠ 0 := by
          intro empty
          rw [empty] at large
          exact absurd large (by decide)
        rw [handled, if_neg present, if_pos large]
      · intro readable
        have bounded := readable sent
        by_cases empty : num = 0
        · refine ⟨none, ?_, ?_⟩
          · rw [handled, if_pos empty, if_pos sent]
          · intro _ dom _ device inside
            rw [empty] at inside
            exact absurd inside (by simp)
        · refine ⟨some (copied node.numNUMADoms num listed), ?_, ?_⟩
          · rw [handled, if_neg empty, if_neg (Nat.not_lt.mpr bounded), if_pos sent]
          · intro _
            exact sameSets_copied (lengths listed held) bounded
  · rw [addSetsData_unsent sent]
    constructor
    · exact fun unreadable => absurd (fun present => absurd present sent) unreadable
    · intro _
      refine ⟨none, ?_, fun present => absurd present sent⟩
      rw [if_neg sent]
      rfl

/-- The entries of the CPU map that are sent. -/
def mappedCPUs (node : NodeHw) : List (BitVec 16) :=
  (List.range node.numThrds.toNat).map (fun thrd : Nat => node.mapCPU (thrd : Int))

theorem handle_cpuMap (valid : Valid node) (copy : NodeHw) :
    handleNodeInfoData (addCPUMapData node) copy =
      (true, { copy with cpuMap := mappedCPUs node }) := by
  have threaded := valid.threaded
  rw [addCPUMapData, if_neg (by omega), handle_single, handleSection,
    handleCPUMapData, foldl_appendCPUMap]
  rfl

theorem handle_cpuSets (valid : Valid node) (copy : NodeHw) :
    (pscpuMax < node.numThrds.toNat →
      (handleNodeInfoData
        (addSetsData .numaNodes node.cpuSets node.numThrds node) copy).1 = false) ∧
    (node.numThrds.toNat ≤ pscpuMax → ∃ received,
        handleNodeInfoData (addSetsData .numaNodes node.cpuSets node.numThrds node) copy =
          (true, { copy.adaptNUMA node.numNUMADoms with
            cpuSets := received }) ∧
        SameSets node.numNUMADoms node.numThrds received node.cpuSets) := by
  have threaded := valid.threaded
  rcases valid.cpuSets with ⟨sets, present, domains⟩
  have threads : node.numThrds ≠ 0 := by
    intro empty
    rw [empty] at threaded
    exact absurd threaded (by decide)
  rw [present, handle_sent valid.domains (by omega) .numaNodes]
  simp only
  rw [if_neg threads]
  constructor
  · intro large
    rw [if_pos large]
  · intro bounded
    refine ⟨some (copied node.numNUMADoms node.numThrds sets), ?_, ?_⟩
    · rw [if_neg (Nat.not_lt.mpr bounded)]
      rfl
    · exact sameSets_copied domains bounded

theorem handle_distances (valid : Valid node)
    (same : copy.numNUMADoms = node.numNUMADoms) :
    handleNodeInfoData (addDistanceData node) copy =
      (true, { copy with
        distances := node.distances.or copy.distances }) := by
  have domains := valid.domains
  have present : node.numNUMADoms.toNat ≠ 0 := by
    have known := @toInt_eq_toNat node.numNUMADoms (by omega)
    omega
  rw [addDistanceData.eq_def]
  cases held : node.distances with
  | none => rfl
  | some values =>
    have square := valid.square values held
    simp only
    rw [if_neg present, handle_single, handleSection, handleDistanceData,
      take_of_length_le (Nat.le_of_eq square), same]
    exact if_neg (not_not.mpr square)

/-- The devices of the copy are kept if the number of NUMA domains is. -/
def heldDevices (node copy : NodeHw) (num : BitVec 16) : BitVec 16 :=
  if copy.numNUMADoms = 0 ∨ copy.numNUMADoms = node.numNUMADoms then num else 0

theorem adaptNUMA_devices (valid : Valid node) (copy : NodeHw) :
    (copy.adaptNUMA node.numNUMADoms).numGPUs = heldDevices node copy copy.numGPUs ∧
      (copy.adaptNUMA node.numNUMADoms).numNICs = heldDevices node copy copy.numNICs ∧
      (copy.adaptNUMA node.numNUMADoms).distances = copy.distances := by
  have domains := valid.domains
  have known := @toInt_eq_toNat node.numNUMADoms (by omega)
  rw [heldDevices, heldDevices, NodeHw.adaptNUMA]
  split
  · next unset => simp [unset]
  · next set =>
      split
      · next foreign =>
          have different : copy.numNUMADoms ≠ node.numNUMADoms := by
            intro equal
            rw [equal, known] at foreign
            exact foreign rfl
          rw [if_neg (not_or.mpr ⟨set, different⟩), if_neg (not_or.mpr ⟨set, different⟩)]
          exact ⟨rfl, rfl, rfl⟩
      · next equal =>
          have adapted := adaptNUMA_numNUMADoms node.numNUMADoms copy
          rw [NodeHw.adaptNUMA, if_neg set, if_neg equal] at adapted
          rw [if_pos (.inr adapted), if_pos (.inr adapted)]
          exact ⟨rfl, rfl, rfl⟩

/-- The sections of devices and those after them. -/
theorem handle_rest {node copy : NodeHw} (valid : Valid node)
    (same : copy.numNUMADoms = node.numNUMADoms) :
    ((handleNodeInfoData
        (addSetsData .gpu node.gpuSets node.numGPUs node ++
          (addSetsData .nic node.nicSets node.numNICs node ++
            (addDistanceData node ++ addCPUData node))) copy).1 = true →
      Readable node.gpuSets node.numGPUs ∧ Readable node.nicSets node.numNICs) ∧
    (Readable node.gpuSets node.numGPUs → Readable node.nicSets node.numNICs → ∃ gpuSets nicSets,
        handleNodeInfoData
            (addSetsData .gpu node.gpuSets node.numGPUs node ++
              (addSetsData .nic node.nicSets node.numNICs node ++
                (addDistanceData node ++ addCPUData node))) copy =
          (true, { copy with
            numCores := node.numCores, numThrds := node.numThrds
            distances := node.distances.or copy.distances
            numGPUs :=
              if Sent node.gpuSets node.numGPUs then node.numGPUs
              else copy.numGPUs
            gpuSets := gpuSets
            numNICs :=
              if Sent node.nicSets node.numNICs then node.numNICs
              else copy.numNICs
            nicSets := nicSets }) ∧
        (Sent node.gpuSets node.numGPUs →
          SameSets node.numNUMADoms node.numGPUs gpuSets node.gpuSets) ∧
        (Sent node.nicSets node.numNICs →
          SameSets node.numNUMADoms node.numNICs nicSets node.nicSets)) := by
  rcases @handle_devices _ _ _ copy valid.domains valid.gpuSets same .gpu with
    ⟨unreadableGPUs, readableGPUs⟩
  by_cases gpus : Readable node.gpuSets node.numGPUs
  · rcases readableGPUs gpus with ⟨gpuSets, first, sameGPUs⟩
    rw [handle_append _ _ copy (by rw [first]), first]
    have same' : (if Sent node.gpuSets node.numGPUs then
        (copy.setSetSize .gpu node.numGPUs).setSets .gpu gpuSets
          else copy).numNUMADoms = node.numNUMADoms := by
      split
      · exact same
      · exact same
    rcases @handle_devices _ _ _ _ valid.domains valid.nicSets same' .nic with
      ⟨unreadableNICs, readableNICs⟩
    by_cases nics : Readable node.nicSets node.numNICs
    · rcases readableNICs nics with ⟨nicSets, second, sameNICs⟩
      rw [handle_append _ _ _ (by rw [second]), second,
        handle_append _ _ _ (by
          rw [handle_distances valid]
          split
          · exact same'
          · exact same'),
        handle_distances valid (by
          split
          · exact same'
          · exact same')]
      refine ⟨fun _ => ⟨gpus, nics⟩, fun _ _ => ?_⟩
      refine ⟨if Sent node.gpuSets node.numGPUs then gpuSets
        else copy.gpuSets, if Sent node.nicSets node.numNICs then nicSets
          else copy.nicSets, ?_, ?_, ?_⟩
      · by_cases gpuSent : Sent node.gpuSets node.numGPUs
        · by_cases nicSent : Sent node.nicSets node.numNICs
          · simp only [if_pos gpuSent, if_pos nicSent]
            rfl
          · simp only [if_pos gpuSent, if_neg nicSent]
            rfl
        · by_cases nicSent : Sent node.nicSets node.numNICs
          · simp only [if_neg gpuSent, if_pos nicSent]
            rfl
          · simp only [if_neg gpuSent, if_neg nicSent]
            rfl
      · intro gpuSent
        rw [if_pos gpuSent]
        exact sameGPUs gpuSent
      · intro nicSent
        rw [if_pos nicSent]
        exact sameNICs nicSent
    · have failed := handle_append_failed _
        (addDistanceData node ++ addCPUData node) _ (unreadableNICs nics)
      refine ⟨?_, fun _ readable => absurd readable nics⟩
      intro handled
      rw [failed] at handled
      exact absurd handled Bool.false_ne_true
  · have failed := handle_append_failed _
      (addSetsData .nic node.nicSets node.numNICs node ++
        (addDistanceData node ++ addCPUData node)) _ (unreadableGPUs gpus)
    refine ⟨?_, fun readable => absurd readable gpus⟩
    intro handled
    rw [failed] at handled
    exact absurd handled Bool.false_ne_true

/-- The copy after all sections are handled. -/
def updated (node copy : NodeHw) (cpuSets gpuSets nicSets : Option (List CpuSet)) : NodeHw :=
  { numCores := node.numCores, numThrds := node.numThrds
    cpuMap := mappedCPUs node, numNUMADoms := node.numNUMADoms
    distances := node.distances.or copy.distances, cpuSets := cpuSets
    numGPUs :=
      if Sent node.gpuSets node.numGPUs then node.numGPUs
      else heldDevices node copy copy.numGPUs
    gpuSets := gpuSets
    numNICs :=
      if Sent node.nicSets node.numNICs then node.numNICs
      else heldDevices node copy copy.numNICs
    nicSets := nicSets }

theorem handle_message (valid : Valid node) (copy : NodeHw) :
    ((handleNodeInfoData (sendNodeInfoData node) copy).1 = true →
      node.numThrds.toNat ≤ pscpuMax ∧ Readable node.gpuSets node.numGPUs ∧
        Readable node.nicSets node.numNICs) ∧
    (node.numThrds.toNat ≤ pscpuMax → Readable node.gpuSets node.numGPUs →
      Readable node.nicSets node.numNICs → ∃ cpuSets gpuSets nicSets,
          handleNodeInfoData (sendNodeInfoData node) copy =
            (true, updated node copy cpuSets gpuSets nicSets) ∧
          SameSets node.numNUMADoms node.numThrds cpuSets node.cpuSets ∧
          (Sent node.gpuSets node.numGPUs →
            SameSets node.numNUMADoms node.numGPUs gpuSets node.gpuSets) ∧
          (Sent node.nicSets node.numNICs →
            SameSets node.numNUMADoms node.numNICs nicSets node.nicSets)) := by
  have mapped := handle_cpuMap valid copy
  rcases handle_cpuSets valid { copy with cpuMap := mappedCPUs node } with
    ⟨overfull, fitting⟩
  rw [sendNodeInfoData, handle_append _ _ copy (by rw [mapped]), mapped]
  by_cases threads : node.numThrds.toNat ≤ pscpuMax
  · rcases fitting threads with ⟨cpuSets, domains, sameCPUs⟩
    rw [handle_append _ _ _ (by rw [domains]), domains]
    have numNUMADoms := adaptNUMA_numNUMADoms node.numNUMADoms
      { copy with cpuMap := mappedCPUs node }
    rcases adaptNUMA_devices valid
      { copy with cpuMap := mappedCPUs node } with ⟨gpus, nics, distances⟩
    have cpuMap : (NodeHw.adaptNUMA node.numNUMADoms
        { copy with cpuMap := mappedCPUs node }).cpuMap = mappedCPUs node := by
      rw [NodeHw.adaptNUMA]
      split
      · rfl
      · split
        · rfl
        · rfl
    generalize NodeHw.adaptNUMA node.numNUMADoms
      { copy with cpuMap := mappedCPUs node } = adapted
      at numNUMADoms gpus nics distances cpuMap
    rcases @handle_rest node { adapted with cpuSets := cpuSets } valid
      numNUMADoms with ⟨handled, rest⟩
    refine ⟨fun complete => ⟨threads, handled complete⟩, ?_⟩
    intro _ readableGPUs readableNICs
    rcases rest readableGPUs readableNICs with
      ⟨gpuSets, nicSets, final, sameGPUs, sameNICs⟩
    refine ⟨cpuSets, gpuSets, nicSets, ?_, sameCPUs, sameGPUs, sameNICs⟩
    rw [final, updated, cpuMap, numNUMADoms, distances, gpus, nics]
    rfl
  · have failed := handle_append_failed _
      (addSetsData .gpu node.gpuSets node.numGPUs node ++
        (addSetsData .nic node.nicSets node.numNICs node ++
          (addDistanceData node ++ addCPUData node))) _
      (overfull (Nat.lt_of_not_le threads))
    constructor
    · intro handled
      rw [failed] at handled
      exact absurd handled Bool.false_ne_true
    · exact fun bounded => absurd bounded threads

theorem mapCPU_updated (valid : Valid node) (copy : NodeHw)
    (cpuSets gpuSets nicSets : Option (List CpuSet)) (cpu : Int) :
    (updated node copy cpuSets gpuSets nicSets).mapCPU cpu = node.mapCPU cpu := by
  have threaded := valid.threaded
  have threads := @toInt_eq_toNat node.numThrds (by omega)
  have length : (mappedCPUs node).length = node.numThrds.toNat := by
    rw [mappedCPUs, length_map, length_range]
  by_cases outside : cpu < 0 ∨ node.numThrds.toInt ≤ cpu
  · have unmapped : ∀ map : List (BitVec 16),
        cpu < 0 ∨ map.length ≤ cpu.toNat ∨ node.numThrds.toInt ≤ cpu :=
      fun map => outside.imp_right .inr
    rw [NodeHw.mapCPU, NodeHw.mapCPU]
    exact (if_pos (unmapped _)).trans (if_pos (unmapped _)).symm
  · rw [not_or] at outside
    have inside : cpu.toNat < node.numThrds.toNat := by omega
    have entry : (mappedCPUs node)[cpu.toNat]? = some (node.mapCPU cpu.toNat) := by
      rw [mappedCPUs, getElem?_map, getElem?_range inside]
      rfl
    have position : ((cpu.toNat : Nat) : Int) = cpu := Int.toNat_of_nonneg (by omega)
    rw [NodeHw.mapCPU]
    refine (if_neg ?_).trans ?_
    · rintro (negative | long | large)
      · exact outside.1 negative
      · rw [updated, length] at long
        omega
      · exact outside.2 large
    · rw [updated, getD_eq_getElem?_getD, entry, getD_some, position]

/-- Distances of a copy that look like none. -/
def Harmless (numNUMA : Nat) (distances : Option (List (BitVec 32))) : Prop :=
  ∀ values, distances = some values →
    values.length = numNUMA * numNUMA ∧ ∀ value ∈ values, value = 0

/-- Distances told by two numbers are those in the array. -/
theorem harmless_of_distance
    (zero : ∀ source target, node.distance source target = 0)
    (square : ∀ values, node.distances = some values →
      values.length = node.numNUMADoms.toNat * node.numNUMADoms.toNat) :
    Harmless node.numNUMADoms.toNat node.distances := by
  intro values held
  have length := square values held
  refine ⟨length, ?_⟩
  intro value member
  rcases getElem_of_mem member with ⟨index, inside, rfl⟩
  have bound : index < node.numNUMADoms.toNat * node.numNUMADoms.toNat := by
    omega
  have positive : 0 < node.numNUMADoms.toNat := by
    by_contra empty
    rw [Nat.eq_zero_of_not_pos empty, Nat.zero_mul] at bound
    exact Nat.not_lt_zero index bound
  have source := (Nat.div_lt_iff_lt_mul positive).mpr bound
  have target := Nat.mod_lt index positive
  have position : index / node.numNUMADoms.toNat * node.numNUMADoms.toNat +
      index % node.numNUMADoms.toNat = index := Nat.div_add_mod' index _
  have entry := zero (index / node.numNUMADoms.toNat) (index % node.numNUMADoms.toNat)
  rw [NodeHw.distance] at entry
  rw [if_neg (not_or.mpr ⟨Nat.not_le.mpr source, Nat.not_le.mpr target⟩), held, position] at entry
  simp only [getD_eq_getElem?_getD, getElem?_eq_getElem inside, getD_some] at entry
  exact entry

theorem Harmless.distance (harmless : Harmless node.numNUMADoms.toNat node.distances)
    (source target : Nat) : node.distance source target = 0 := by
  rw [NodeHw.distance]
  split
  · rfl
  · split
    · rfl
    · next values held =>
        rw [getD_eq_getElem?_getD]
        cases entry : values[source * node.numNUMADoms.toNat + target]? with
        | none => rfl
        | some value => exact (harmless values held).2 value (mem_of_getElem? entry)

theorem distance_none (none : node.distances = none) (source target : Nat) :
    node.distance source target = 0 := by
  apply Harmless.distance
  intro values held
  rw [none] at held
  cases held

/-- The devices of a kind agree in the copy. -/
def DevicesFit (node copy : NodeHw) (sets : Option (List CpuSet)) (num held : BitVec 16) : Prop :=
  if Sent sets num then num.toNat ≤ pscpuMax
  else heldDevices node copy held = num

/-- No set is too large for a message, devices that are not told are not held
by the copy, and neither are distances. -/
structure Fits (node copy : NodeHw) : Prop where
  threads : node.numThrds.toNat ≤ pscpuMax
  gpus : DevicesFit node copy node.gpuSets node.numGPUs copy.numGPUs
  nics : DevicesFit node copy node.nicSets node.numNICs copy.numNICs
  distances : node.distances = none → Harmless node.numNUMADoms.toNat copy.distances

theorem DevicesFit.readable {held : BitVec 16}
    (fit : DevicesFit node copy sets num held) : Readable sets num := by
  intro sent
  rw [DevicesFit, if_pos sent] at fit
  exact fit

theorem DevicesFit.number {held : BitVec 16}
    (fit : DevicesFit node copy sets num held) :
    (if Sent sets num then num else heldDevices node copy held) = num := by
  split
  · rfl
  · next unsent =>
      rw [DevicesFit, if_neg unsent] at fit
      exact fit

/-- Devices that are not told are none. -/
theorem sameSets_unsent {numNUMA : BitVec 16} (empty : sets = none → num = 0)
    (unsent : ¬Sent sets num) (received : Option (List CpuSet)) :
    SameSets numNUMA num received sets := by
  intro dom _ device inside
  have negative : num.toInt ≤ 0 := by
    by_contra positive
    apply unsent
    refine ⟨?_, by omega⟩
    intro absent
    rw [empty absent] at positive
    exact positive (by decide)
  omega

theorem agrees_updated (valid : Valid node) (fits : Fits node copy)
    {cpuSets gpuSets nicSets : Option (List CpuSet)}
    (sameCPUs : SameSets node.numNUMADoms node.numThrds cpuSets node.cpuSets)
    (sameGPUs : Sent node.gpuSets node.numGPUs →
      SameSets node.numNUMADoms node.numGPUs gpuSets node.gpuSets)
    (sameNICs : Sent node.nicSets node.numNICs →
      SameSets node.numNUMADoms node.numNICs nicSets node.nicSets) :
    Agrees node (updated node copy cpuSets gpuSets nicSets) where
  numCores := rfl
  numThrds := rfl
  mapCPU := mapCPU_updated valid copy _ _ _
  numNUMADoms := rfl
  numGPUs := fits.gpus.number
  numNICs := fits.nics.number
  cpuSets := sameCPUs
  gpuSets := by
    by_cases sent : Sent node.gpuSets node.numGPUs
    · exact sameGPUs sent
    · exact sameSets_unsent valid.gpuless sent gpuSets
  nicSets := by
    by_cases sent : Sent node.nicSets node.numNICs
    · exact sameNICs sent
    · exact sameSets_unsent valid.nicless sent nicSets
  distance := by
    intro source target
    cases held : node.distances with
    | none =>
      rw [distance_none held]
      apply Harmless.distance
      rw [updated, held, none_or]
      exact fits.distances held
    | some values => rw [NodeHw.distance, NodeHw.distance, updated, held, some_or]
  square := by
    intro values held
    cases own : node.distances with
    | none =>
      rw [updated, own, none_or] at held
      exact (fits.distances own values held).1
    | some others =>
      rw [updated, own, some_or] at held
      rw [← Option.some.inj held]
      exact valid.square others own

theorem Replicates.fits (replicates : Replicates node copy) (valid : Valid node) :
    Fits node copy := by
  rcases handle_message valid copy with ⟨complete, handled⟩
  rcases replicates with ⟨finished, agrees⟩
  rcases complete finished with ⟨threads, gpus, nics⟩
  rcases handled threads gpus nics with
    ⟨cpuSets, gpuSets, nicSets, final, _, _, _⟩
  rw [final] at agrees
  refine ⟨threads, ?_, ?_, ?_⟩
  · rw [DevicesFit]
    split
    · next sent => exact gpus sent
    · next unsent => exact (if_neg unsent).symm.trans agrees.numGPUs
  · rw [DevicesFit]
    split
    · next sent => exact nics sent
    · next unsent => exact (if_neg unsent).symm.trans agrees.numNICs
  · intro absent
    have harmless := harmless_of_distance
      (fun source target => (agrees.distance source target).trans
        (distance_none absent source target)) agrees.square
    rw [updated, absent, none_or] at harmless
    exact harmless

/-- The copy agrees after a message exactly if nothing is left out that it
holds. -/
theorem replicates_iff_fits {node : NodeHw} (reachable : localSystem.Reachable node)
    (copy : NodeHw) : Replicates node copy ↔ Fits node copy := by
  have valid := invariant_valid.reachable reachable
  constructor
  · exact fun replicates => replicates.fits valid
  · intro fits
    rcases (handle_message valid copy).2 fits.threads fits.gpus.readable
      fits.nics.readable with
      ⟨cpuSets, gpuSets, nicSets, final, sameCPUs, sameGPUs, sameNICs⟩
    rw [Replicates, final]
    exact ⟨rfl, agrees_updated valid fits sameCPUs sameGPUs sameNICs⟩

/-- One core with one thread in a single NUMA domain. -/
def uniform : Detection :=
  { numCores := 1, numThrds := 1, numNUMA := 1, cpuSets := [1]
    distances := none, threaded := by decide, domains := by decide
    sets := by decide, square := nofun }

theorem replicates_uniform : Replicates (nodeInit.reInit uniform) nodeInit := by
  apply (replicates_iff_fits (.initial ⟨uniform, rfl⟩) nodeInit).mpr
  refine ⟨by decide, ?_, ?_, fun _ => nofun⟩
  · rw [DevicesFit, if_neg (by decide)]
    rfl
  · rw [DevicesFit, if_neg (by decide)]
    rfl

def accelerated : NodeHw := (nodeInit.reInit uniform).updateGPUInfo 1 [1]

/-- The GPU is gone when the hardware is detected again, but the copy made
before keeps it. -/
theorem not_replicates_accelerated :
    ¬∀ node, localSystem.Reachable node → ∀ copy, Replicates node copy := by
  intro replicates
  have started : localSystem.Reachable (nodeInit.reInit uniform) :=
    .initial ⟨uniform, rfl⟩
  have gone : localSystem.Reachable (accelerated.reInit uniform) :=
    .step (.step started (.updateGPUInfo 1 [1] _ rfl)) (.reInit uniform _)
  have fits := (replicates _ gone (handleNodeInfoData
    (sendNodeInfoData accelerated) nodeInit).2).fits (valid_reInit uniform accelerated)
  exact absurd fits.gpus.number (by decide +kernel)

end Psmgmt.Hardware
