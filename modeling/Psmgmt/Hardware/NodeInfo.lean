import Psmgmt.Library.Transition

/-!
# Hardware information of nodes

The hardware part of `node_t` in `psidnodes.c`, its detection in `psidhw.c` and
its exchange between daemons in `nodeinfo.c`.  A message is the list of its
sections; the bytes of a CPU set in a message are one little-endian number.
-/

namespace Psmgmt.Hardware

/-- `PSCPU_MAX`. -/
def pscpuMax : Nat := 1024

/-- `PSCPU_set_t`. -/
abbrev CpuSet := BitVec pscpuMax

/-- `PSCPU_isSet()`. -/
def isSet (set : CpuSet) (cpu : Nat) : Bool := set.getLsbD cpu

/-- `PSCPU_bytesForCPUs()`. -/
def bytesForCPUs (num : Nat) : Nat :=
  if num > pscpuMax then 0
  else if num = 0 then 0
  else (num - 1) / 8 + 1

/-- `PSCPU_extract()`. -/
def extract (set : CpuSet) (num : Nat) : Nat := set.toNat % 2 ^ (8 * num)

/-- `PSCPU_inject()` into a cleared set. -/
def inject (buf : Nat) : CpuSet := BitVec.ofNat pscpuMax buf

/-- The hardware part of `node_t`.  A `short` is read as an `uint16_t` in some
places. -/
structure NodeHw where
  numCores : BitVec 16
  numThrds : BitVec 16
  cpuMap : List (BitVec 16)
  numNUMADoms : BitVec 16
  distances : Option (List (BitVec 32))
  cpuSets : Option (List CpuSet)
  numGPUs : BitVec 16
  gpuSets : Option (List CpuSet)
  numNICs : BitVec 16
  nicSets : Option (List CpuSet)

/-- The part of `nodeInit()`. -/
def nodeInit : NodeHw :=
  { numCores := 0, numThrds := 0, cpuMap := [], numNUMADoms := 0
    distances := none, cpuSets := none, numGPUs := 0, gpuSets := none
    numNICs := 0, nicSets := none }

namespace NodeHw

/-- `PSIDnodes_mapCPU()`. -/
def mapCPU (cpu : Int) (node : NodeHw) : BitVec 16 :=
  if cpu < 0 ∨ node.cpuMap.length ≤ cpu.toNat ∨ node.numThrds.toInt ≤ cpu then
    -1
  else node.cpuMap.getD cpu.toNat (-1)

/-- `PSIDnodes_distance()`. -/
def distance (source target : Nat) (node : NodeHw) : BitVec 32 :=
  let numNUMA := node.numNUMADoms.toNat
  if numNUMA ≤ source ∨ numNUMA ≤ target then 0
  else
    match node.distances with
    | none => 0
    | some distances => distances.getD (source * numNUMA + target) 0

end NodeHw

structure Detection where
  numCores : BitVec 16
  numThrds : BitVec 16
  numNUMA : BitVec 16
  cpuSets : List CpuSet
  distances : Option (List (BitVec 32))
  threaded : 1 ≤ numThrds.toInt
  domains : 1 ≤ numNUMA.toInt
  sets : cpuSets.length = numNUMA.toNat
  square : ∀ values, distances = some values → values.length = numNUMA.toNat * numNUMA.toNat

namespace NodeHw

/-- `PSIDhw_reInit()`. -/
def reInit (found : Detection) (node : NodeHw) : NodeHw :=
  { node with
    numThrds := found.numThrds, numCores := found.numCores
    numNUMADoms := found.numNUMA, cpuSets := some found.cpuSets
    distances := found.distances
    numGPUs := 0, gpuSets := none, numNICs := 0, nicSets := none }

/-- `updateGPUInfo()` finding `num` devices. -/
def updateGPUInfo (num : BitVec 16) (sets : List CpuSet) (node : NodeHw) :
    NodeHw :=
  let node := { node with numGPUs := num }
  if num ≠ 0 then { node with gpuSets := some sets } else node

/-- `updateNICInfo()` finding `num` devices. -/
def updateNICInfo (num : BitVec 16) (sets : List CpuSet) (node : NodeHw) :
    NodeHw :=
  let node := { node with numNICs := num }
  if num ≠ 0 then { node with nicSets := some sets } else node

/-- `PSIDnodes_clearCPUMap()`. -/
def clearCPUMap (node : NodeHw) : NodeHw := { node with cpuMap := [] }

/-- `PSIDnodes_appendCPUMap()`. -/
def appendCPUMap (cpu : BitVec 16) (node : NodeHw) : NodeHw :=
  { node with cpuMap := node.cpuMap ++ [cpu] }

end NodeHw

/-- The changes of the local hardware state.  The sets of devices are determined
for the NUMA domains detected last. -/
inductive LocalStep : NodeHw → NodeHw → Prop where
  | reInit (found : Detection) (node : NodeHw) : LocalStep node (node.reInit found)
  | updateGPUInfo (num : BitVec 16) (sets : List CpuSet) (node : NodeHw)
      (domains : sets.length = node.numNUMADoms.toNat) :
      LocalStep node (node.updateGPUInfo num sets)
  | updateNICInfo (num : BitVec 16) (sets : List CpuSet) (node : NodeHw)
      (domains : sets.length = node.numNUMADoms.toNat) :
      LocalStep node (node.updateNICInfo num sets)
  | clearCPUMap (node : NodeHw) : LocalStep node node.clearCPUMap
  | appendCPUMap (cpu : BitVec 16) (node : NodeHw) : LocalStep node (node.appendCPUMap cpu)

/-- The local hardware state from its first detection on. -/
def localSystem : TransitionSystem NodeHw where
  initial node := ∃ found, node = nodeInit.reInit found
  step := LocalStep

/-- The devices whose sets are exchanged. -/
inductive SetType where
  | numaNodes | gpu | nic
  deriving DecidableEq, Repr

/-- The sections of a message with their content. -/
inductive Section where
  | cpuMap (entries : List (BitVec 16))
  | sets (type : SetType) (numNUMA setSize : BitVec 16) (bufs : List Nat)
  | distances (values : List (BitVec 32))
  | cpu (numCores numThrds : BitVec 16)
  deriving DecidableEq, Repr

/-- `addCPUMapData()`. -/
def addCPUMapData (node : NodeHw) : List Section :=
  if node.numThrds.toInt ≤ 0 then []
  else
    [.cpuMap ((List.range node.numThrds.toNat).map (fun thrd : Nat => node.mapCPU (thrd : Int)))]

/-- `addSetsData()`. -/
def addSetsData (type : SetType) (sets : Option (List CpuSet))
    (setSize : BitVec 16) (node : NodeHw) : List Section :=
  let numNUMA := node.numNUMADoms
  match sets with
  | none => []
  | some sets =>
    if numNUMA = 0 ∨ setSize.toInt < 0 then []
    else
      let nBytes := bytesForCPUs setSize.toNat
      if setSize = 0 ∨ nBytes = 0 then [.sets type numNUMA setSize []]
      else
        [.sets type numNUMA setSize ((List.range numNUMA.toNat).map
          (fun dom => extract (sets.getD dom 0) nBytes))]

/-- `addDistanceData()`. -/
def addDistanceData (node : NodeHw) : List Section :=
  let numNUMA := node.numNUMADoms.toNat
  match node.distances with
  | none => []
  | some values =>
    if numNUMA = 0 then []
    else [.distances (values.take (numNUMA * numNUMA))]

/-- `addCPUData()`. -/
def addCPUData (node : NodeHw) : List Section := [.cpu node.numCores node.numThrds]

/-- The message assembled by `sendNodeInfoData()`. -/
def sendNodeInfoData (node : NodeHw) : List Section :=
  addCPUMapData node ++
    (addSetsData .numaNodes node.cpuSets node.numThrds node ++
      (addSetsData .gpu node.gpuSets node.numGPUs node ++
        (addSetsData .nic node.nicSets node.numNICs node ++
          (addDistanceData node ++ addCPUData node))))

namespace NodeHw

/-- The function `setSetSize` passed to `handleSetData()`. -/
def setSetSize (type : SetType) (setSize : BitVec 16) (node : NodeHw) :
    NodeHw :=
  match type with
  | .numaNodes => node
  | .gpu => { node with numGPUs := setSize }
  | .nic => { node with numNICs := setSize }

/-- The function `setSets` passed to `handleSetData()`. -/
def setSets (type : SetType) (sets : Option (List CpuSet)) (node : NodeHw) :
    NodeHw :=
  match type with
  | .numaNodes => { node with cpuSets := sets }
  | .gpu => { node with gpuSets := sets }
  | .nic => { node with nicSets := sets }

/-- The number of NUMA domains told by a section of sets. -/
def adaptNUMA (numNUMA : BitVec 16) (node : NodeHw) : NodeHw :=
  if node.numNUMADoms = 0 then { node with numNUMADoms := numNUMA }
  else if node.numNUMADoms.toInt ≠ numNUMA.toNat then
    -- the distances are not invalidated
    { node with
      numNUMADoms := numNUMA, cpuSets := none, numGPUs := 0, gpuSets := none
      numNICs := 0, nicSets := none }
  else node

end NodeHw

/-- `handleCPUMapData()`. -/
def handleCPUMapData (entries : List (BitVec 16)) (node : NodeHw) : Bool × NodeHw :=
  (true, entries.foldl (fun node cpu => node.appendCPUMap cpu) node.clearCPUMap)

/-- `handleSetData()`. -/
def handleSetData (type : SetType) (numNUMA setSize : BitVec 16)
    (bufs : List Nat) (node : NodeHw) : Bool × NodeHw :=
  let node := (node.adaptNUMA numNUMA).setSetSize type setSize
  if setSize = 0 then (true, node.setSets type none)
  else if bytesForCPUs setSize.toNat = 0 then (false, node)
  else (true, node.setSets type (some (bufs.map inject)))

/-- `handleDistanceData()`. -/
def handleDistanceData (values : List (BitVec 32)) (node : NodeHw) : Bool × NodeHw :=
  let numNUMA := node.numNUMADoms.toNat
  if values.length ≠ numNUMA * numNUMA then
    (false, { node with distances := none })
  else (true, { node with distances := some values })

/-- `handleCPUData()`. -/
def handleCPUData (numCores numThrds : BitVec 16) (node : NodeHw) : Bool × NodeHw :=
  (true, { node with numCores := numCores, numThrds := numThrds })

def handleSection : Section → NodeHw → Bool × NodeHw
  | .cpuMap entries, node => handleCPUMapData entries node
  | .sets type numNUMA setSize bufs, node => handleSetData type numNUMA setSize bufs node
  | .distances values, node => handleDistanceData values node
  | .cpu numCores numThrds, node => handleCPUData numCores numThrds node

/-- `handleNodeInfoData()`: whether all sections are handled, and the copy it
leaves. -/
def handleNodeInfoData : List Section → NodeHw → Bool × NodeHw
  | [], node => (true, node)
  | first :: rest, node =>
    match handleSection first node with
    | (true, node) => handleNodeInfoData rest node
    | (false, node) => (false, node)

/-- Whether the device `device` is in the set of the domain `dom`. -/
def member (sets : Option (List CpuSet)) (dom device : Nat) : Option Bool :=
  (sets.bind (fun sets => sets[dom]?)).map (fun set => isSet set device)

/-- Two arrays of sets agree on `num` devices in `numNUMA` domains. -/
def SameSets (numNUMA num : BitVec 16) (first second : Option (List CpuSet)) :
    Prop :=
  ∀ dom < numNUMA.toNat, ∀ device : Nat, device < num.toInt →
    member first dom device = member second dom device

/-- The copy of a node's hardware state agrees with the state. -/
structure Agrees (node copy : NodeHw) : Prop where
  numCores : copy.numCores = node.numCores
  numThrds : copy.numThrds = node.numThrds
  mapCPU : ∀ cpu, copy.mapCPU cpu = node.mapCPU cpu
  numNUMADoms : copy.numNUMADoms = node.numNUMADoms
  numGPUs : copy.numGPUs = node.numGPUs
  numNICs : copy.numNICs = node.numNICs
  cpuSets : SameSets node.numNUMADoms node.numThrds copy.cpuSets node.cpuSets
  gpuSets : SameSets node.numNUMADoms node.numGPUs copy.gpuSets node.gpuSets
  nicSets : SameSets node.numNUMADoms node.numNICs copy.nicSets node.nicSets
  distance : ∀ source target, copy.distance source target = node.distance source target
  square : ∀ values, copy.distances = some values →
    values.length = copy.numNUMADoms.toNat * copy.numNUMADoms.toNat

/-- The message of a node is handled to its end and leaves a copy that
agrees. -/
def Replicates (node copy : NodeHw) : Prop :=
  (handleNodeInfoData (sendNodeInfoData node) copy).1 = true ∧
    Agrees node (handleNodeInfoData (sendNodeInfoData node) copy).2

end Psmgmt.Hardware
