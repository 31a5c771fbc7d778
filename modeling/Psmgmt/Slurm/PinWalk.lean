import Psmgmt.Slurm.PinThreads
import Psmgmt.Library.Odometer
import Psmgmt.Library.Picking

/-!
# The walks of the thread iterator

Each strategy counts through sockets, cores and threads with its own order of
the digits, so that a walk meets every thread once.
-/

namespace Psmgmt.Slurm.Pin

open List NodeInfo Odometer

variable (nodeinfo : NodeInfo)

/-- The thread with these positions within core, node and socket. -/
def NodeInfo.threadAt (thread socket core : Nat) : Nat :=
  nodeinfo.coreCount * thread + (nodeinfo.coresPerSocket * socket + core)

structure NodeInfo.Position (thread socket core : Nat) : Prop where
  thread : thread < nodeinfo.threadsPerCore
  socket : socket < nodeinfo.socketCount
  core : core < nodeinfo.coresPerSocket

section Position

variable {nodeinfo} {thread socket core : Nat}

theorem NodeInfo.coreCount_eq :
    nodeinfo.coreCount = nodeinfo.coresPerSocket * nodeinfo.socketCount :=
  Nat.mul_comm _ _

theorem NodeInfo.coreCount_pos : 0 < nodeinfo.coreCount :=
  Nat.mul_pos nodeinfo.sockets nodeinfo.cores

variable (position : nodeinfo.Position thread socket core)

include position

theorem NodeInfo.Position.core_full
    (room : ¬ core + 1 < nodeinfo.coresPerSocket) : core + 1 = nodeinfo.coresPerSocket := by
  have bound := position.core
  omega

theorem NodeInfo.Position.socket_full
    (room : ¬ socket + 1 < nodeinfo.socketCount) : socket + 1 = nodeinfo.socketCount := by
  have bound := position.socket
  omega

theorem NodeInfo.Position.thread_full
    (room : ¬ thread + 1 < nodeinfo.threadsPerCore) : thread + 1 = nodeinfo.threadsPerCore := by
  have bound := position.thread
  omega

theorem NodeInfo.Position.core_lt :
    nodeinfo.coresPerSocket * socket + core < nodeinfo.coreCount := by
  have bound := pair_lt position.core position.socket
  rw [coreCount_eq]
  omega

theorem NodeInfo.Position.lt : nodeinfo.threadAt thread socket core < nodeinfo.threadCount := by
  have bound := pair_lt position.core_lt position.thread
  rw [NodeInfo.threadAt, NodeInfo.threadCount]
  omega

theorem NodeInfo.Position.mod : nodeinfo.threadAt thread socket core % nodeinfo.coreCount =
      nodeinfo.coresPerSocket * socket + core := by
  rw [NodeInfo.threadAt, Nat.mul_add_mod, Nat.mod_eq_of_lt position.core_lt]

theorem NodeInfo.Position.div :
    nodeinfo.threadAt thread socket core / nodeinfo.coreCount = thread := by
  rw [NodeInfo.threadAt, Nat.mul_add_div coreCount_pos,
    Nat.div_eq_of_lt position.core_lt, Nat.add_zero]

theorem NodeInfo.Position.socket_eq :
    (nodeinfo.coresPerSocket * socket + core) / nodeinfo.coresPerSocket =
      socket := by
  rw [Nat.mul_add_div nodeinfo.cores, Nat.div_eq_of_lt position.core, Nat.add_zero]

theorem NodeInfo.Position.core_eq :
    (nodeinfo.coresPerSocket * socket + core) % nodeinfo.coresPerSocket =
      core := by
  rw [Nat.mul_add_mod, Nat.mod_eq_of_lt position.core]

end Position

variable {thread : Nat}

theorem NodeInfo.exists_position (bound : thread < nodeinfo.threadCount) :
    ∃ corethread socket core, nodeinfo.Position corethread socket core ∧
      thread = nodeinfo.threadAt corethread socket core := by
  refine ⟨thread / nodeinfo.coreCount,
    thread % nodeinfo.coreCount / nodeinfo.coresPerSocket,
    thread % nodeinfo.coreCount % nodeinfo.coresPerSocket, ⟨?_, ?_, ?_⟩, ?_⟩
  · exact Nat.div_lt_of_lt_mul bound
  · refine Nat.div_lt_of_lt_mul ?_
    rw [← coreCount_eq]
    exact Nat.mod_lt _ coreCount_pos
  · exact Nat.mod_lt _ nodeinfo.cores
  · rw [NodeInfo.threadAt, Nat.div_add_mod, Nat.div_add_mod]

/-! ## The digits of a strategy -/

/-- What a strategy counts first, second and last. -/
def ThreadIterStrategy.digits (strategy : ThreadIterStrategy)
    (thread socket core : Nat) : Odometer :=
  match strategy with
  | .cycleCores => { low := core, middle := socket, high := thread }
  | .cycleSocketsCycleCores => { low := socket, middle := core, high := thread }
  | .cycleSocketsFillCores => { low := socket, middle := thread, high := core }
  | .fillSocketsCycleCores => { low := core, middle := thread, high := socket }
  | .fillSocketsFillCores => { low := thread, middle := core, high := socket }

/-- How many there are of each. -/
def ThreadIterStrategy.radix (strategy : ThreadIterStrategy) (nodeinfo : NodeInfo) : Odometer :=
  strategy.digits nodeinfo.threadsPerCore nodeinfo.socketCount nodeinfo.coresPerSocket

variable (strategy : ThreadIterStrategy)

theorem size_radix : (strategy.radix nodeinfo).size = nodeinfo.threadCount := by
  cases strategy <;>
    simp only [ThreadIterStrategy.radix, ThreadIterStrategy.digits,
      Odometer.size, NodeInfo.threadCount, NodeInfo.coreCount] <;> ring

section Next

variable {nodeinfo} {thread socket core : Nat}

section

variable (position : nodeinfo.Position thread socket core)

include position

theorem NodeInfo.Position.valid :
    Odometer.Valid (strategy.radix nodeinfo) (strategy.digits thread socket core) := by
  cases strategy <;>
    exact ⟨by first | exact position.core | exact position.socket |
        exact position.thread,
      by first | exact position.core | exact position.socket |
        exact position.thread,
      by first | exact position.core | exact position.socket |
        exact position.thread⟩

theorem NodeInfo.Position.last_core :
    nodeinfo.coresPerSocket * socket + core + 1 = nodeinfo.coreCount ↔
      core + 1 = nodeinfo.coresPerSocket ∧ socket + 1 = nodeinfo.socketCount := by
  have last := pair_last position.core position.socket
  rw [← coreCount_eq] at last
  rw [← last]
  omega

theorem NodeInfo.Position.last_iff :
    nodeinfo.threadAt thread socket core = nodeinfo.threadCount - 1 ↔
      core + 1 = nodeinfo.coresPerSocket ∧ socket + 1 = nodeinfo.socketCount ∧ thread + 1 =
        nodeinfo.threadsPerCore := by
  have last := pair_last position.core_lt position.thread
  have bound := position.lt
  rw [← and_assoc, ← position.last_core, ← last, NodeInfo.threadAt]
  rw [NodeInfo.threadAt] at bound
  change _ ↔ _ = nodeinfo.threadCount
  omega

end

theorem next_last
    (last : core + 1 = nodeinfo.coresPerSocket ∧
      socket + 1 = nodeinfo.socketCount ∧
      thread + 1 = nodeinfo.threadsPerCore) :
    (strategy.radix nodeinfo).next (strategy.digits thread socket core) =
      strategy.digits 0 0 0 := by
  obtain ⟨cores, sockets, threads⟩ := last
  cases strategy <;>
    simp [Odometer.next, ThreadIterStrategy.radix, ThreadIterStrategy.digits,
      ← cores, ← sockets, ← threads]

/-- The iterator counts on by one. -/
def Advances (strategy : ThreadIterStrategy) (nodeinfo : NodeInfo)
    (thread socket core : Nat) : Prop :=
  ∃ nextThread nextSocket nextCore,
    nodeinfo.Position nextThread nextSocket nextCore ∧
    iterNext strategy nodeinfo (nodeinfo.threadAt thread socket core) =
      nodeinfo.threadAt nextThread nextSocket nextCore ∧
    strategy.digits nextThread nextSocket nextCore =
      (strategy.radix nodeinfo).next (strategy.digits thread socket core)

def NotLast (nodeinfo : NodeInfo) (thread socket core : Nat) : Prop :=
  ¬ (core + 1 = nodeinfo.coresPerSocket ∧
    socket + 1 = nodeinfo.socketCount ∧
    thread + 1 = nodeinfo.threadsPerCore)

theorem NodeInfo.Position.behind (position : nodeinfo.Position thread socket core)
    (notLast : NotLast nodeinfo thread socket core) (next : Nat) :
    (if nodeinfo.threadAt thread socket core = nodeinfo.threadCount - 1 then 0
      else next) = next :=
  if_neg (fun same => notLast (position.last_iff.mp same))

theorem threadAt_thread (thread socket core : Nat) : nodeinfo.threadAt (thread + 1) socket core =
      nodeinfo.threadAt thread socket core + nodeinfo.coreCount := by
  simp only [NodeInfo.threadAt, Nat.mul_add]
  omega

theorem threadAt_socket (thread socket core : Nat) : nodeinfo.threadAt thread (socket + 1) core =
      nodeinfo.threadAt thread socket core + nodeinfo.coresPerSocket := by
  simp only [NodeInfo.threadAt, Nat.mul_add]
  omega

theorem threadAt_core (thread socket core : Nat) :
    nodeinfo.threadAt thread socket (core + 1) = nodeinfo.threadAt thread socket core + 1 :=
  rfl

theorem threadAt_next_socket (thread socket : Nat)
    (full : core + 1 = nodeinfo.coresPerSocket) :
    nodeinfo.threadAt thread (socket + 1) 0 = nodeinfo.threadAt thread socket core + 1 := by
  simp only [NodeInfo.threadAt, Nat.mul_add]
  omega

/-- From the last core to the first one. -/
theorem threadAt_next_thread (thread : Nat) (full : core + 1 = nodeinfo.coresPerSocket)
    (socketFull : socket + 1 = nodeinfo.socketCount) :
    nodeinfo.threadAt (thread + 1) 0 0 = nodeinfo.threadAt thread socket core + 1 := by
  have cores : nodeinfo.coresPerSocket * (socket + 1) = nodeinfo.coreCount := by
    rw [socketFull, ← coreCount_eq]
  simp only [NodeInfo.threadAt, Nat.mul_add] at cores ⊢
  omega

theorem threadCount_full (full : thread + 1 = nodeinfo.threadsPerCore) :
    nodeinfo.coreCount * thread + nodeinfo.coreCount = nodeinfo.threadCount := by
  rw [NodeInfo.threadCount, ← full, Nat.mul_add, Nat.mul_one]

section

attribute [local simp] Odometer.next ThreadIterStrategy.radix ThreadIterStrategy.digits

variable (position : nodeinfo.Position thread socket core)
  (notLast : NotLast nodeinfo thread socket core)

include position notLast

theorem fillSocketsFillCores_advances :
    Advances .fillSocketsFillCores nodeinfo thread socket core := by
  unfold Advances
  simp only [iterNext, position.behind notLast]
  by_cases room : thread + 1 < nodeinfo.threadsPerCore
  · have next : nodeinfo.Position (thread + 1) socket core :=
      ⟨room, position.socket, position.core⟩
    refine ⟨thread + 1, socket, core, next, ?_, ?_⟩
    · have bound := next.lt
      rw [threadAt_thread] at bound
      rw [if_neg (Nat.not_le.mpr bound), threadAt_thread]
    · simp [room]
  · have full := position.thread_full room
    have whole := threadCount_full full
    have small := position.core_lt
    have value : nodeinfo.threadAt thread socket core + nodeinfo.coreCount =
        nodeinfo.threadCount + (nodeinfo.coresPerSocket * socket + core) := by
      rw [NodeInfo.threadAt]
      omega
    rw [value, if_pos (Nat.le_add_right _ _), Nat.add_mod_left, Nat.mod_eq_of_lt (by omega)]
    by_cases coreRoom : core + 1 < nodeinfo.coresPerSocket
    · refine ⟨0, socket, core + 1, ⟨nodeinfo.threads, position.socket, coreRoom⟩, ?_, ?_⟩
      · simp only [NodeInfo.threadAt]
        omega
      · simp [room, coreRoom]
    · have coreFull := position.core_full coreRoom
      have socketRoom : socket + 1 < nodeinfo.socketCount := by
        have bound := position.socket
        by_contra socketFull
        exact notLast ⟨coreFull, by omega, full⟩
      refine ⟨0, socket + 1, 0, ⟨nodeinfo.threads, socketRoom, nodeinfo.cores⟩, ?_, ?_⟩
      · simp only [NodeInfo.threadAt, Nat.mul_add]
        omega
      · simp [room, coreRoom, socketRoom]

theorem cycleCores_advances : Advances .cycleCores nodeinfo thread socket core := by
  unfold Advances
  simp only [iterNext, position.behind notLast]
  by_cases room : core + 1 < nodeinfo.coresPerSocket
  · exact ⟨thread, socket, core + 1,
      ⟨position.thread, position.socket, room⟩, rfl, by
      simp [room]⟩
  · have full := position.core_full room
    by_cases socketRoom : socket + 1 < nodeinfo.socketCount
    · exact ⟨thread, socket + 1, 0,
        ⟨position.thread, socketRoom, nodeinfo.cores⟩,
        (threadAt_next_socket thread socket full).symm, by
        simp [room, socketRoom]⟩
    · have socketFull := position.socket_full socketRoom
      have threadRoom : thread + 1 < nodeinfo.threadsPerCore := by
        have bound := position.thread
        by_contra threadFull
        exact notLast ⟨full, socketFull, by omega⟩
      exact ⟨thread + 1, 0, 0,
        ⟨threadRoom, nodeinfo.sockets, nodeinfo.cores⟩,
        (threadAt_next_thread thread full socketFull).symm, by
        simp [room, socketRoom, threadRoom]⟩

theorem cycleSocketsFillCores_advances :
    Advances .cycleSocketsFillCores nodeinfo thread socket core := by
  unfold Advances
  simp only [iterNext, position.behind notLast]
  by_cases room : socket + 1 < nodeinfo.socketCount
  · have next : nodeinfo.Position thread (socket + 1) core :=
      ⟨position.thread, room, position.core⟩
    have bound := next.lt
    rw [threadAt_socket] at bound
    refine ⟨thread, socket + 1, core, next, ?_, ?_⟩
    · rw [if_neg (Nat.not_le.mpr bound), Nat.add_zero, Nat.mod_eq_of_lt bound, threadAt_socket]
    · simp [room]
  · have full := position.socket_full room
    have cores : nodeinfo.coresPerSocket * socket + nodeinfo.coresPerSocket =
        nodeinfo.coreCount := by
      rw [coreCount_eq, ← full, Nat.mul_add, Nat.mul_one]
    by_cases threadRoom : thread + 1 < nodeinfo.threadsPerCore
    · have next : nodeinfo.Position (thread + 1) 0 core :=
        ⟨threadRoom, nodeinfo.sockets, position.core⟩
      have value : nodeinfo.threadAt thread socket core +
          nodeinfo.coresPerSocket = nodeinfo.threadAt (thread + 1) 0 core := by
        simp only [NodeInfo.threadAt, Nat.mul_add]
        omega
      refine ⟨thread + 1, 0, core, next, ?_, ?_⟩
      · rw [value, if_neg (Nat.not_le.mpr next.lt), Nat.add_zero, Nat.mod_eq_of_lt next.lt]
      · simp [room, threadRoom]
    · have threadFull := position.thread_full threadRoom
      have coreRoom : core + 1 < nodeinfo.coresPerSocket := by
        have bound := position.core
        by_contra coreFull
        exact notLast ⟨by omega, full, threadFull⟩
      have whole := threadCount_full threadFull
      have value : nodeinfo.threadAt thread socket core +
          nodeinfo.coresPerSocket = nodeinfo.threadCount + core := by
        rw [NodeInfo.threadAt]
        omega
      refine ⟨0, 0, core + 1, ⟨nodeinfo.threads, nodeinfo.sockets, coreRoom⟩, ?_, ?_⟩
      · rw [value, if_pos (Nat.le_add_right _ _), Nat.add_assoc,
          Nat.add_mod_left, Nat.mod_eq_of_lt (by omega)]
        simp [NodeInfo.threadAt]
      · simp [room, threadRoom, coreRoom]

theorem cycleSocketsCycleCores_advances :
    Advances .cycleSocketsCycleCores nodeinfo thread socket core := by
  unfold Advances
  simp only [iterNext, position.behind notLast, position.mod, position.div]
  have small := position.core_lt
  have isLast := position.last_core
  have following : (nodeinfo.threadAt thread socket core + 1) %
      nodeinfo.coreCount = (nodeinfo.coresPerSocket * socket + core + 1) % nodeinfo.coreCount := by
    rw [NodeInfo.threadAt, Nat.add_assoc, Nat.mul_add_mod]
  by_cases lastCore : nodeinfo.coresPerSocket * socket + core + 1 = nodeinfo.coreCount
  · obtain ⟨coreFull, socketFull⟩ := isLast.mp lastCore
    have threadRoom : thread + 1 < nodeinfo.threadsPerCore := by
      have bound := position.thread
      by_contra threadFull
      exact notLast ⟨coreFull, socketFull, by omega⟩
    refine ⟨thread + 1, 0, 0, ⟨threadRoom, nodeinfo.sockets, nodeinfo.cores⟩, ?_, ?_⟩
    · rw [following, lastCore, Nat.mod_self, if_pos rfl, Nat.mul_comm]
      simp [NodeInfo.threadAt]
    · simp [← coreFull, ← socketFull, threadRoom]
  · rw [following, Nat.mod_eq_of_lt (by omega), if_neg (by omega)]
    by_cases room : socket + 1 < nodeinfo.socketCount
    · have next : nodeinfo.Position thread (socket + 1) core :=
        ⟨position.thread, room, position.core⟩
      have bound := next.core_lt
      rw [Nat.mul_add, Nat.mul_one] at bound
      refine ⟨thread, socket + 1, core, next, ?_, ?_⟩
      · rw [if_neg (by omega), Nat.add_zero, Nat.mod_eq_of_lt (by omega)]
        simp only [NodeInfo.threadAt, Nat.mul_add]
        omega
      · simp [room]
    · have full := position.socket_full room
      have cores : nodeinfo.coresPerSocket * socket +
          nodeinfo.coresPerSocket = nodeinfo.coreCount := by
        rw [coreCount_eq, ← full, Nat.mul_add, Nat.mul_one]
      have coreRoom : core + 1 < nodeinfo.coresPerSocket := by
        have bound := position.core
        by_contra coreFull
        exact lastCore (isLast.mpr ⟨by omega, full⟩)
      have value : nodeinfo.coresPerSocket * socket + core +
          nodeinfo.coresPerSocket + 1 = nodeinfo.coreCount + (core + 1) := by
        omega
      refine ⟨thread, 0, core + 1, ⟨position.thread, nodeinfo.sockets, coreRoom⟩, ?_, ?_⟩
      · rw [if_pos (by omega), value, Nat.add_mod_left, Nat.mod_eq_of_lt (by omega)]
        simp only [NodeInfo.threadAt]
        omega
      · simp [room, coreRoom]

theorem fillSocketsCycleCores_advances :
    Advances .fillSocketsCycleCores nodeinfo thread socket core := by
  unfold Advances
  simp only [iterNext, position.behind notLast, position.mod, position.socket_eq]
  have small := position.core_lt
  have following : (nodeinfo.threadAt thread socket core + 1) %
      nodeinfo.coreCount = (nodeinfo.coresPerSocket * socket + core + 1) % nodeinfo.coreCount := by
    rw [NodeInfo.threadAt, Nat.add_assoc, Nat.mul_add_mod]
  by_cases room : core + 1 < nodeinfo.coresPerSocket
  · have next : nodeinfo.Position thread socket (core + 1) :=
      ⟨position.thread, position.socket, room⟩
    have nextSmall := next.core_lt
    refine ⟨thread, socket, core + 1, next, ?_, ?_⟩
    · have stay : ¬ ((nodeinfo.coresPerSocket * socket + core + 1) /
          nodeinfo.coresPerSocket > socket ∨
          nodeinfo.coresPerSocket * socket + core + 1 = 0) := by
        rw [Nat.add_assoc, next.socket_eq]
        omega
      rw [following, Nat.mod_eq_of_lt (by omega), if_neg stay, threadAt_core]
    · simp [room]
  · have full := position.core_full room
    -- behind the last core of the socket
    have leaves : (nodeinfo.threadAt thread socket core + 1) %
          nodeinfo.coreCount / nodeinfo.coresPerSocket > socket ∨
        (nodeinfo.threadAt thread socket core + 1) % nodeinfo.coreCount = 0 := by
      rw [following]
      have block : nodeinfo.coresPerSocket * socket + core + 1 =
          nodeinfo.coresPerSocket * (socket + 1) := by
        rw [Nat.mul_add, Nat.mul_one]
        omega
      rw [block]
      by_cases socketRoom : socket + 1 < nodeinfo.socketCount
      · have bound : nodeinfo.coresPerSocket * (socket + 1) < nodeinfo.coreCount := by
          rw [coreCount_eq]
          exact Nat.mul_lt_mul_of_pos_left socketRoom nodeinfo.cores
        left
        rw [Nat.mod_eq_of_lt bound, Nat.mul_div_cancel_left _ nodeinfo.cores]
        exact Nat.lt_succ_self socket
      · have socketFull := position.socket_full socketRoom
        right
        rw [socketFull, ← coreCount_eq, Nat.mod_self]
    have perNode : nodeinfo.coresPerSocket ≤ nodeinfo.coreCount :=
      Nat.le_mul_of_pos_left _ nodeinfo.sockets
    have value : nodeinfo.threadAt thread socket core + 1 +
        (nodeinfo.coreCount - nodeinfo.coresPerSocket) =
          nodeinfo.coreCount * (thread + 1) + nodeinfo.coresPerSocket * socket := by
      rw [NodeInfo.threadAt, Nat.mul_add, Nat.mul_one]
      omega
    rw [if_pos leaves, value]
    by_cases threadRoom : thread + 1 < nodeinfo.threadsPerCore
    · have next : nodeinfo.Position (thread + 1) socket 0 :=
        ⟨threadRoom, position.socket, nodeinfo.cores⟩
      have same : nodeinfo.coreCount * (thread + 1) +
          nodeinfo.coresPerSocket * socket = nodeinfo.threadAt (thread + 1) socket 0 := rfl
      have stays := Nat.div_eq_of_lt next.lt
      refine ⟨thread + 1, socket, 0, next, ?_, ?_⟩
      · rw [same, stays, if_neg (by omega)]
      · simp [room, threadRoom]
    · have threadFull := position.thread_full threadRoom
      have socketRoom : socket + 1 < nodeinfo.socketCount := by
        have bound := position.socket
        by_contra socketFull
        exact notLast ⟨full, by omega, threadFull⟩
      have whole : nodeinfo.coreCount * (thread + 1) = nodeinfo.threadCount := by
        rw [threadFull]
        rfl
      have atLeast : nodeinfo.coreCount ≤ nodeinfo.threadCount :=
        Nat.le_mul_of_pos_right _ nodeinfo.threads
      refine ⟨0, socket + 1, 0, ⟨nodeinfo.threads, socketRoom, nodeinfo.cores⟩, ?_, ?_⟩
      · rw [whole, if_pos, Nat.add_mod_left, Nat.mod_eq_of_lt (by omega)]
        · simp only [NodeInfo.threadAt, Nat.mul_add]
          omega
        · exact Nat.div_pos (Nat.le_add_right _ _) (by omega)
      · simp [room, threadRoom, socketRoom]

end

theorem iterNext_advances (position : nodeinfo.Position thread socket core)
    (strategy : ThreadIterStrategy) :
    Advances strategy nodeinfo thread socket core := by
  by_cases last : core + 1 = nodeinfo.coresPerSocket ∧ socket + 1 = nodeinfo.socketCount ∧ thread +
      1 = nodeinfo.threadsPerCore
  · refine ⟨0, 0, 0, ⟨nodeinfo.threads, nodeinfo.sockets, nodeinfo.cores⟩,
      ?_, (next_last strategy last).symm⟩
    rw [iterNext, if_pos (position.last_iff.mpr last)]
    simp [NodeInfo.threadAt]
  · cases strategy with
    | cycleCores => exact cycleCores_advances position last
    | cycleSocketsCycleCores => exact cycleSocketsCycleCores_advances position last
    | cycleSocketsFillCores => exact cycleSocketsFillCores_advances position last
    | fillSocketsCycleCores => exact fillSocketsCycleCores_advances position last
    | fillSocketsFillCores => exact fillSocketsFillCores_advances position last

end Next

/-! ## The walk -/

/-- The place of a thread in the walk that starts at thread 0. -/
def walkIndex (strategy : ThreadIterStrategy) (thread : Nat) : Nat :=
  (strategy.radix nodeinfo).value
    (strategy.digits (thread / nodeinfo.coreCount)
      (thread % nodeinfo.coreCount / nodeinfo.coresPerSocket)
      (thread % nodeinfo.coreCount % nodeinfo.coresPerSocket))

section Walk

variable {nodeinfo} {strategy : ThreadIterStrategy}

theorem walkIndex_threadAt {socket core : Nat}
    (position : nodeinfo.Position thread socket core) :
    walkIndex nodeinfo strategy (nodeinfo.threadAt thread socket core) =
      (strategy.radix nodeinfo).value (strategy.digits thread socket core) := by
  rw [walkIndex, position.mod, position.div, position.socket_eq, position.core_eq]

theorem walkIndex_lt {thread : Nat} (bound : thread < nodeinfo.threadCount) :
    walkIndex nodeinfo strategy thread < nodeinfo.threadCount := by
  obtain ⟨_, _, _, position, rfl⟩ := nodeinfo.exists_position bound
  rw [walkIndex_threadAt position, ← size_radix nodeinfo strategy]
  exact value_lt (position.valid strategy)

theorem iterNext_lt (bound : thread < nodeinfo.threadCount) :
    iterNext strategy nodeinfo thread < nodeinfo.threadCount := by
  obtain ⟨_, _, _, position, rfl⟩ := nodeinfo.exists_position bound
  obtain ⟨_, _, _, next, equation, _⟩ := iterNext_advances position strategy
  rw [equation]
  exact next.lt

theorem walkIndex_iterNext (bound : thread < nodeinfo.threadCount) :
    walkIndex nodeinfo strategy (iterNext strategy nodeinfo thread) =
      (walkIndex nodeinfo strategy thread + 1) % nodeinfo.threadCount := by
  obtain ⟨_, _, _, position, rfl⟩ := nodeinfo.exists_position bound
  obtain ⟨_, _, _, next, equation, digits⟩ := iterNext_advances position strategy
  rw [equation, walkIndex_threadAt next, walkIndex_threadAt position, digits,
    value_next (position.valid strategy), size_radix]

/-- Within a core, higher threads come later. -/
theorem walkIndex_mono {thread other : Nat}
    (sameCore : nodeinfo.getCore thread = nodeinfo.getCore other) (order : thread ≤ other) :
    walkIndex nodeinfo strategy thread ≤ walkIndex nodeinfo strategy other := by
  unfold NodeInfo.getCore at sameCore
  have higher : thread / nodeinfo.coreCount ≤ other / nodeinfo.coreCount :=
    Nat.div_le_div_right order
  unfold walkIndex
  rw [sameCore]
  cases strategy with
  | cycleCores => exact value_mono (Nat.le_refl _) (Nat.le_refl _) higher
  | cycleSocketsCycleCores => exact value_mono (Nat.le_refl _) (Nat.le_refl _) higher
  | cycleSocketsFillCores => exact value_mono (Nat.le_refl _) higher (Nat.le_refl _)
  | fillSocketsCycleCores => exact value_mono (Nat.le_refl _) higher (Nat.le_refl _)
  | fillSocketsFillCores => exact value_mono higher (Nat.le_refl _) (Nat.le_refl _)

theorem iterate_lt {count : Nat} (bound : thread < nodeinfo.threadCount) :
    ∀ other ∈ iterate strategy nodeinfo count thread, other < nodeinfo.threadCount := by
  induction count generalizing thread with
  | zero => simp [iterate]
  | succ count induction =>
    intro other member
    rcases mem_cons.mp member with rfl | later
    · exact bound
    · exact induction (iterNext_lt bound) other later

@[simp] theorem length_iterate (count thread : Nat) :
    (iterate strategy nodeinfo count thread).length = count := by
  induction count generalizing thread with
  | zero => rfl
  | succ count induction => rw [iterate, length_cons, induction]

theorem iterate_append (first second thread : Nat) :
    iterate strategy nodeinfo (first + second) thread = iterate strategy nodeinfo first thread ++
        iterate strategy nodeinfo second ((iterNext strategy nodeinfo)^[first] thread) := by
  induction first generalizing thread with
  | zero => rw [Nat.zero_add]; rfl
  | succ first induction =>
    rw [Nat.succ_add, iterate, induction]
    rfl

theorem iterated_lt {thread : Nat} (count : Nat)
    (bound : thread < nodeinfo.threadCount) :
    (iterNext strategy nodeinfo)^[count] thread < nodeinfo.threadCount ∧
      walkIndex nodeinfo strategy ((iterNext strategy nodeinfo)^[count] thread)
        = (walkIndex nodeinfo strategy thread + count) % nodeinfo.threadCount := by
  induction count with
  | zero => exact ⟨bound, (Nat.mod_eq_of_lt (walkIndex_lt bound)).symm⟩
  | succ count induction =>
    rw [Function.iterate_succ_apply']
    refine ⟨iterNext_lt induction.1, ?_⟩
    rw [walkIndex_iterNext induction.1, induction.2, Nat.mod_add_mod, Nat.add_assoc]

theorem map_walkIndex_iterate {count thread : Nat} (bound : thread < nodeinfo.threadCount)
    (within : walkIndex nodeinfo strategy thread + count ≤ nodeinfo.threadCount) :
    (iterate strategy nodeinfo count thread).map (walkIndex nodeinfo strategy) =
      List.range' (walkIndex nodeinfo strategy thread) count := by
  induction count generalizing thread with
  | zero => rfl
  | succ count induction =>
    rw [iterate, map_cons, range'_succ, List.cons.injEq]
    refine ⟨rfl, ?_⟩
    cases count with
    | zero => rfl
    | succ count =>
      have next : walkIndex nodeinfo strategy (iterNext strategy nodeinfo thread) = walkIndex
          nodeinfo strategy thread + 1 := by
        rw [walkIndex_iterNext bound, Nat.mod_eq_of_lt (by omega)]
      rw [← next]
      exact induction (iterNext_lt bound) (by omega)

theorem ascending_of_map {walk : List Nat} {first count : Nat}
    (indices : walk.map (walkIndex nodeinfo strategy) = List.range' first count) :
    Picking.Ascending nodeinfo.getCore walk := by
  have increasing : (walk.map (walkIndex nodeinfo strategy)).Pairwise
      (fun earlier later => earlier < later) := by
    rw [indices]
    exact pairwise_lt_range'
  rw [pairwise_map] at increasing
  refine increasing.imp ?_
  intro earlier later order sameCore
  by_contra notBelow
  have back := @walkIndex_mono nodeinfo strategy _ _ sameCore.symm (Nat.not_lt.mp notBelow)
  omega

/-- The walk from a thread: first what comes from there on, then what comes
before it. -/
theorem threadIter_parts {start : Nat} (bound : start < nodeinfo.threadCount) :
    ∃ upper lower, threadIter strategy nodeinfo start = upper ++ lower ∧
      Picking.Ascending nodeinfo.getCore upper ∧
      Picking.Ascending nodeinfo.getCore lower ∧
      (∀ thread, thread ∈ upper ↔ thread < nodeinfo.threadCount ∧
        walkIndex nodeinfo strategy start ≤ walkIndex nodeinfo strategy thread) ∧
      ∀ thread, thread ∈ lower ↔ thread < nodeinfo.threadCount ∧
        walkIndex nodeinfo strategy thread < walkIndex nodeinfo strategy start := by
  have small := @walkIndex_lt nodeinfo strategy start bound
  have split : nodeinfo.threadCount = (nodeinfo.threadCount - walkIndex nodeinfo strategy start) +
        walkIndex nodeinfo strategy start := by
    omega
  obtain ⟨again, wrapped⟩ := @iterated_lt nodeinfo strategy start
    (nodeinfo.threadCount - walkIndex nodeinfo strategy start) bound
  have zero : walkIndex nodeinfo strategy
      ((iterNext strategy nodeinfo)^[nodeinfo.threadCount -
        walkIndex nodeinfo strategy start] start) = 0 := by
    rw [wrapped, Nat.add_sub_cancel' (Nat.le_of_lt small), Nat.mod_self]
  have upperIndices := @map_walkIndex_iterate nodeinfo strategy
    (nodeinfo.threadCount - walkIndex nodeinfo strategy start) start bound (by omega)
  have lowerIndices := @map_walkIndex_iterate nodeinfo strategy
    (walkIndex nodeinfo strategy start) _ again (by omega)
  rw [zero] at lowerIndices
  have walk : threadIter strategy nodeinfo start =
      iterate strategy nodeinfo (nodeinfo.threadCount - walkIndex nodeinfo strategy start) start ++
        iterate strategy nodeinfo (walkIndex nodeinfo strategy start)
          ((iterNext strategy nodeinfo)^[nodeinfo.threadCount -
            walkIndex nodeinfo strategy start] start) := by
    rw [threadIter, if_pos bound, ← iterate_append, ← split]
  -- all threads are met
  have distinct : (threadIter strategy nodeinfo start).Nodup := by
    refine List.Nodup.of_map (walkIndex nodeinfo strategy) ?_
    rw [walk, map_append, upperIndices, lowerIndices, nodup_append']
    refine ⟨nodup_range', nodup_range', ?_⟩
    intro index first second
    rw [mem_range'_1] at first second
    omega
  have inside : ∀ thread ∈ threadIter strategy nodeinfo start, thread < nodeinfo.threadCount := by
    rw [threadIter, if_pos bound]
    exact iterate_lt bound
  have all : (threadIter strategy nodeinfo start).toFinset = Finset.range nodeinfo.threadCount := by
    refine Finset.eq_of_subset_of_card_le ?_ ?_
    · intro thread member
      exact Finset.mem_range.mpr (inside thread (mem_toFinset.mp member))
    · rw [toFinset_card_of_nodup distinct, Finset.card_range, threadIter,
        if_pos bound, length_iterate]
  have met : ∀ thread < nodeinfo.threadCount, thread ∈ threadIter strategy nodeinfo start := by
    intro thread below
    rw [← mem_toFinset, all]
    exact Finset.mem_range.mpr below
  have upperIndex : ∀ thread ∈ iterate strategy nodeinfo
      (nodeinfo.threadCount - walkIndex nodeinfo strategy start) start,
      walkIndex nodeinfo strategy start ≤ walkIndex nodeinfo strategy thread := by
    intro thread member
    have index := mem_map_of_mem (f := walkIndex nodeinfo strategy) member
    rw [upperIndices, mem_range'_1] at index
    exact index.1
  have lowerIndex : ∀ thread ∈ iterate strategy nodeinfo
      (walkIndex nodeinfo strategy start)
      ((iterNext strategy nodeinfo)^[nodeinfo.threadCount -
        walkIndex nodeinfo strategy start] start),
      walkIndex nodeinfo strategy thread < walkIndex nodeinfo strategy start := by
    intro thread member
    have index := mem_map_of_mem (f := walkIndex nodeinfo strategy) member
    rw [lowerIndices, mem_range'_1] at index
    omega
  refine ⟨_, _, walk, ascending_of_map upperIndices, ascending_of_map lowerIndices, ?_, ?_⟩
  · intro thread
    constructor
    · intro member
      refine ⟨inside thread ?_, upperIndex thread member⟩
      rw [walk]
      exact mem_append_left _ member
    · rintro ⟨below, index⟩
      have member := met thread below
      rw [walk] at member
      rcases mem_append.mp member with here | there
      · exact here
      · have less := lowerIndex thread there
        omega
  · intro thread
    constructor
    · intro member
      refine ⟨inside thread ?_, lowerIndex thread member⟩
      rw [walk]
      exact mem_append_right _ member
    · rintro ⟨below, index⟩
      have member := met thread below
      rw [walk] at member
      rcases mem_append.mp member with here | there
      · have more := upperIndex thread here
        omega
      · exact there

end Walk

end Psmgmt.Slurm.Pin
