import Psmgmt.Library.Counting
import Psmgmt.Partition.Mastership

/-!
# Rounds of questions

What the daemon knows of a node depends on the last round of its questions: the
partitions are registered once the round is over, or they are on their way with
the end of tasks behind them.
-/

namespace Psmgmt.Mastership

open List Option Counting

open Function (update update_eq_self update_of_ne update_self)

variable {Slots : Type*} {nrOfNodes me node : Nat} {freeOnSuspend : Bool}

/-! ## The daemon -/

structure Sound (nrOfNodes me : Nat) (daemon : Daemon Slots) : Prop where
  master : daemon.nodeStat.isSome = true
    ↔ daemon.knowMaster = true ∧ daemon.masterNode = me
  valid : ∀ node, daemon.isUp node = true → node < nrOfNodes
  counts : CountsRight nrOfNodes daemon
  down : ∀ stat, daemon.nodeStat = some stat →
    ∀ node, daemon.isUp node = false → stat node = 0

def Keeps (before after : Daemon Slots) (node : Nat) : Prop :=
  ∀ stat, after.nodeStat = some stat → after.isUp node = true →
    ∃ old, before.nodeStat = some old ∧ before.isUp node = true
      ∧ old node = stat node
      ∧ ∀ part, Registered before node part → Registered after node part

/-- A change of the daemon that asks some nodes. -/
def Asks (before after : Daemon Slots) (asked : List Nat) : Prop :=
  ∀ node,
    (node ∈ asked → ∀ stat, after.nodeStat = some stat →
        after.isUp node = true → stat node ≠ 0)
      ∧ (node ∉ asked → Keeps before after node)

theorem Keeps.refl (daemon : Daemon Slots) (node : Nat) : Keeps daemon daemon node :=
  fun stat same up => ⟨stat, same, up, rfl, fun _ registered => registered⟩

theorem Keeps.trans {first second third : Daemon Slots}
    (left : Keeps first second node) (right : Keeps second third node) :
    Keeps first third node := by
  intro stat same up
  obtain ⟨middle, same_middle, up_middle, equal, registered⟩ :=
    right stat same up
  obtain ⟨old, same_old, up_old, equal_old, registered_old⟩ :=
    left middle same_middle up_middle
  exact ⟨old, same_old, up_old, equal_old.trans equal,
    fun part here => registered part (registered_old part here)⟩

theorem Asks.refl (daemon : Daemon Slots) : Asks daemon daemon [] :=
  fun node => ⟨fun asked => absurd asked not_mem_nil,
    fun _ => Keeps.refl daemon node⟩

theorem Asks.trans {first second third : Daemon Slots} {asked more : List Nat}
    (left : Asks first second asked) (right : Asks second third more) :
    Asks first third (asked ++ more) := by
  intro node
  constructor
  · intro member stat same up
    by_cases last : node ∈ more
    · exact (right node).1 last stat same up
    · have first_asked : node ∈ asked :=
        (mem_append.mp member).resolve_right last
      obtain ⟨middle, same_middle, up_middle, equal, -⟩ :=
        (right node).2 last stat same up
      rw [← equal]
      exact (left node).1 first_asked middle same_middle up_middle
  · intro absent
    rw [mem_append, not_or] at absent
    exact ((left node).2 absent.1).trans ((right node).2 absent.2)

variable {after : Daemon Slots}

/-- Nothing is known of a node when there is no status array. -/
theorem asks_none {before : Daemon Slots} (none : after.nodeStat = none) :
    Asks before after [] := by
  intro node
  refine ⟨fun asked => absurd asked not_mem_nil, fun _ stat same => ?_⟩
  rw [none] at same
  exact absurd same (by simp)

theorem sendGETTASKS_cases (daemon : Daemon Slots) (node : Nat) :
    sendGETTASKS daemon node = (daemon, [])
      ∨ ∃ stat, daemon.nodeStat = some stat ∧ daemon.isUp node = true
        ∧ stat node = 0
        ∧ sendGETTASKS daemon node
          = ({ daemon with
                nodeStat := some (update stat node 1)
                pendingTaskReq := daemon.pendingTaskReq + 1 }, [node]) := by
  unfold sendGETTASKS
  cases known : daemon.nodeStat with
  | none => exact .inl rfl
  | some stat =>
    cases up : daemon.isUp node with
    | false => exact .inl rfl
    | true =>
      by_cases pending : stat node = 0
      · refine .inr ⟨stat, rfl, rfl, pending, ?_⟩
        simp [pending]
      · refine .inl ?_
        simp [pending]

theorem sendGETTASKS_asks (daemon : Daemon Slots) (node : Nat) :
    Asks daemon (sendGETTASKS daemon node).1 (sendGETTASKS daemon node).2 := by
  rcases sendGETTASKS_cases daemon node with
    same | ⟨stat, known, up, -, result⟩
  · rw [same]
    exact Asks.refl daemon
  · rw [result]
    intro other
    constructor
    · intro member stat' same _
      rw [mem_singleton] at member
      simp only [some_inj] at same
      rw [← same, member, update_self]
      exact one_ne_zero
    · intro absent stat' same up'
      rw [mem_singleton] at absent
      simp only [some_inj] at same
      refine ⟨stat, known, up', ?_, fun _ registered => registered⟩
      rw [← same, update_of_ne absent]

variable {daemon : Daemon Slots}

theorem sendGETTASKS_sound (sound : Sound nrOfNodes me daemon) (node : Nat) :
    Sound nrOfNodes me (sendGETTASKS daemon node).1 := by
  rcases sendGETTASKS_cases daemon node with
    same | ⟨stat, known, up, pending, result⟩
  · rw [same]
    exact sound
  · rw [result]
    obtain ⟨positive, sum⟩ := sound.counts
    refine ⟨?_, sound.valid, ⟨?_, ?_⟩, ?_⟩
    · have master := sound.master
      rw [known] at master
      exact master
    · simp only
      omega
    · intro stat' same
      simp only [some_inj] at same
      have total := sum stat known
      have changed := sum_update stat (sound.valid node up) 1
      rw [← same]
      simp only
      omega
    · intro stat' same other low
      simp only [some_inj] at same
      have differs : other ≠ node := by
        rintro rfl
        rw [up] at low
        exact absurd low (by simp)
      rw [← same, update_of_ne differs]
      exact sound.down stat known other low

/-! ## Becoming master -/

theorem initNodes_spec {nodes : List Nat} {stat : Nat → Nat}
    (distinct : nodes.Nodup) (known : daemon.nodeStat = some stat)
    (clear : ∀ node ∈ nodes, stat node = 0)
    (sound : Sound nrOfNodes me daemon) :
    Sound nrOfNodes me (initNodes nodes daemon).1
      ∧ (initNodes nodes daemon).1.isUp = daemon.isUp
      ∧ (∀ node, node ∈ (initNodes nodes daemon).2
          ↔ node ∈ nodes ∧ daemon.isUp node = true)
      ∧ ∃ last, (initNodes nodes daemon).1.nodeStat = some last
        ∧ ∀ node, last node
          = if node ∈ nodes ∧ daemon.isUp node = true then 1
            else stat node := by
  induction nodes generalizing daemon stat with
  | nil =>
    refine ⟨sound, rfl, ?_, stat, known, ?_⟩
    · intro node
      simp [initNodes]
    · intro node
      simp
  | cons first nodes induction =>
    rw [nodup_cons] at distinct
    have zero : stat first = 0 := clear first mem_cons_self
    have cleared : ({ daemon with
        nodeStat := daemon.nodeStat.map fun stat =>
          update stat first 0 } : Daemon Slots) = daemon := by
      have same : update stat first 0 = stat := by
        rw [← zero, update_eq_self]
      rw [known, map_some, same, ← known]
    simp only [initNodes, cleared]
    have others : ∀ node ∈ nodes, node ≠ first ∧ stat node = 0 := by
      intro node member
      refine ⟨?_, clear node (mem_cons_of_mem _ member)⟩
      rintro rfl
      exact distinct.1 member
    cases up : daemon.isUp first with
    | false =>
      simp only [Bool.false_eq_true, if_false, nil_append]
      obtain ⟨sound', ups, asked, last, known', values⟩ :=
        induction distinct.2 known (fun node member => (others node member).2) sound
      refine ⟨sound', ups, ?_, last, known', ?_⟩
      · intro node
        rw [asked node, mem_cons]
        constructor
        · rintro ⟨member, here⟩
          exact ⟨.inr member, here⟩
        · rintro ⟨rfl | member, here⟩
          · rw [up] at here
            exact absurd here (by simp)
          · exact ⟨member, here⟩
      · intro node
        rw [values node]
        by_cases same : node = first
        · subst same
          simp [up]
        · simp [same]
    | true =>
      simp only [if_true]
      have sent := sendGETTASKS_cases daemon first
      have sound_sent := sendGETTASKS_sound sound first
      rcases sent with same | ⟨old, known_old, -, -, result⟩
      · exfalso
        have now : sendGETTASKS daemon first
            = ({ daemon with
                  nodeStat := some (update stat first 1)
                  pendingTaskReq := daemon.pendingTaskReq + 1 },
                [first]) := by
          simp [sendGETTASKS, known, up, zero]
        rw [now] at same
        exact absurd (congrArg Prod.snd same) (by simp)
      · rw [known, some_inj] at known_old
        subst known_old
        rw [result] at sound_sent ⊢
        have next : ({ daemon with
            nodeStat := some (update stat first 1)
            pendingTaskReq := daemon.pendingTaskReq + 1 } : Daemon Slots).nodeStat
            = some (update stat first 1) := rfl
        obtain ⟨sound', ups, asked, last, known', values⟩ :=
          induction distinct.2 next
            (fun node member => by
              rw [update_of_ne (others node member).1]
              exact (others node member).2) sound_sent
        refine ⟨sound', ups, ?_, last, known', ?_⟩
        · intro node
          rw [mem_append, mem_singleton, asked node, mem_cons]
          constructor
          · rintro (rfl | ⟨member, here⟩)
            · exact ⟨.inl rfl, up⟩
            · exact ⟨.inr member, here⟩
          · rintro ⟨rfl | member, here⟩
            · exact .inl rfl
            · exact .inr ⟨member, here⟩
        · intro node
          rw [values node]
          by_cases same : node = first
          · subst same
            simp [up, distinct.1]
          · simp [same]

theorem initPartHandler_spec (unknown : daemon.nodeStat = none)
    (master : daemon.knowMaster = true ∧ daemon.masterNode = me)
    (valid : ∀ node, daemon.isUp node = true → node < nrOfNodes) :
    Sound nrOfNodes me (initPartHandler nrOfNodes daemon).1
      ∧ Asks daemon (initPartHandler nrOfNodes daemon).1
          (initPartHandler nrOfNodes daemon).2 := by
  have sound : Sound nrOfNodes me
      ({ daemon with
          nodeStat := some (daemon.nodeStat.getD fun _ => 0)
          pendingTaskReq := 0 } : Daemon Slots) := by
    rw [unknown]
    refine ⟨⟨fun _ => master, fun _ => rfl⟩, valid, ⟨Int.le_refl 0, ?_⟩, ?_⟩
    · intro stat same
      rw [getD_none, some_inj] at same
      rw [← same]
      simp
    · intro stat same node _
      rw [getD_none, some_inj] at same
      rw [← same]
  have clear : ∀ node ∈ List.range nrOfNodes,
      (daemon.nodeStat.getD fun _ => 0) node = 0 := by
    intro node _
    rw [unknown, getD_none]
  obtain ⟨sound', ups, asked, last, known, values⟩ :=
    initNodes_spec nodup_range rfl clear sound
  refine ⟨sound', fun node => ⟨?_, ?_⟩⟩
  · intro member stat same _
    have here := (asked node).mp member
    rw [initPartHandler, known, some_inj] at same
    rw [← same, values node, if_pos here]
    exact one_ne_zero
  · intro absent stat same up
    exfalso
    rw [initPartHandler, ups] at up
    exact absent ((asked node).mpr ⟨mem_range.mpr (valid node up), up⟩)

theorem declareMaster_spec (sound : Sound nrOfNodes me daemon)
    (newMaster : Nat) :
    Sound nrOfNodes me (declareMaster nrOfNodes me daemon newMaster).1
      ∧ Asks daemon (declareMaster nrOfNodes me daemon newMaster).1
          (declareMaster nrOfNodes me daemon newMaster).2 := by
  unfold declareMaster
  by_cases same : daemon.knowMaster = true ∧ newMaster = daemon.masterNode
  · rw [if_pos same]
    exact ⟨sound, Asks.refl daemon⟩
  · rw [if_neg same]
    obtain ⟨positive, -⟩ := sound.counts
    -- whoever was master, there is no status array after leaving
    have left : ∃ left : Daemon Slots,
        (if daemon.knowMaster = true ∧ daemon.masterNode = me then
          exitPartHandler daemon else daemon) = left
          ∧ left.nodeStat = none ∧ left.isUp = daemon.isUp
          ∧ left.pendingTaskReq = daemon.pendingTaskReq := by
      by_cases master : daemon.knowMaster = true ∧ daemon.masterNode = me
      · exact ⟨exitPartHandler daemon, if_pos master, rfl, rfl, rfl⟩
      · refine ⟨daemon, if_neg master, ?_, rfl, rfl⟩
        have none := mt sound.master.mp master
        simpa using none
    obtain ⟨left, is_left, none, ups, pending⟩ := left
    simp only [is_left]
    by_cases mine : newMaster = me
    · rw [if_pos mine]
      obtain ⟨sound', asks⟩ := @initPartHandler_spec _ nrOfNodes me
        { left with masterNode := newMaster, knowMaster := true } none
        ⟨rfl, mine⟩ (by simpa only [ups] using sound.valid)
      refine ⟨sound', fun node => ⟨(asks node).1, fun absent => ?_⟩⟩
      -- what is not asked is not known before either
      intro stat same up
      obtain ⟨old, known, -⟩ := (asks node).2 absent stat same up
      simp only [none] at known
      exact absurd known (by simp)
    · rw [if_neg mine]
      refine ⟨⟨?_, ?_, ⟨?_, ?_⟩, ?_⟩, asks_none none⟩
      · simp [none, mine]
      · simpa only [ups] using sound.valid
      · simpa only [pending] using positive
      · intro stat known
        simp only [none] at known
        exact absurd known (by simp)
      · intro stat known
        simp only [none] at known
        exact absurd known (by simp)

/-! ## Nodes going up and down -/

theorem not_master_of_ne (sound : Sound nrOfNodes me daemon)
    (other : daemon.masterNode ≠ me) :
    daemon.nodeStat = none := by
  have none := mt sound.master.mp fun master => other master.2
  simpa using none

theorem masterOnAlive_spec (sound : Sound nrOfNodes me daemon) (id : Nat) :
    Sound nrOfNodes me (masterOnAlive nrOfNodes me daemon id).1
      ∧ Asks daemon (masterOnAlive nrOfNodes me daemon id).1
          (masterOnAlive nrOfNodes me daemon id).2 := by
  unfold masterOnAlive
  split
  · split
    · exact declareMaster_spec sound id
    · split
      · exact declareMaster_spec sound me
      · exact ⟨sound, Asks.refl daemon⟩
  · split
    · exact declareMaster_spec sound id
    · exact ⟨sound, Asks.refl daemon⟩

variable {id pid source : Nat}

theorem declareNodeAlive_spec (sound : Sound nrOfNodes me daemon)
    (valid : id < nrOfNodes) :
    Sound nrOfNodes me (declareNodeAlive nrOfNodes me daemon id).1
      ∧ Asks daemon (declareNodeAlive nrOfNodes me daemon id).1
          (declareNodeAlive nrOfNodes me daemon id).2 := by
  have raised_sound : Sound nrOfNodes me
      ({ daemon with isUp := update daemon.isUp id true } : Daemon Slots) := by
    refine ⟨sound.master, ?_, sound.counts, ?_⟩
    · intro node up
      by_cases same : node = id
      · rw [same]
        exact valid
      · simp only [update_of_ne same] at up
        exact sound.valid node up
    · intro stat known node low
      by_cases same : node = id
      · simp only [same, update_self] at low
        exact absurd low (by simp)
      · simp only [update_of_ne same] at low
        exact sound.down stat known node low
  generalize raised_eq : ({ daemon with
    isUp := update daemon.isUp id true } : Daemon Slots) = raised
    at raised_sound
  obtain ⟨declared_sound, declared_asks⟩ := masterOnAlive_spec raised_sound id
  simp only [declareNodeAlive, raised_eq]
  generalize masterOnAlive nrOfNodes me raised id = declared
    at declared_sound declared_asks
  cases was_up : daemon.isUp id with
  | true =>
    have same : raised = daemon := by
      rw [← raised_eq, ← was_up, update_eq_self]
    rw [if_neg (by simp), ← same]
    exact ⟨declared_sound, declared_asks⟩
  | false =>
    by_cases mine : declared.1.masterNode = me
    · rw [if_pos ⟨mine, rfl⟩]
      refine ⟨sendGETTASKS_sound declared_sound id, fun node => ?_⟩
      have asks := declared_asks.trans (sendGETTASKS_asks declared.1 id)
      refine ⟨(asks node).1, fun absent => ?_⟩
      by_cases same : node = id
      · -- the node was down, so that nothing is pending and it is asked
        subst same
        rw [mem_append, not_or] at absent
        intro stat known up
        exfalso
        rcases sendGETTASKS_cases declared.1 node with
          silent | ⟨_, -, -, -, result⟩
        · rw [silent] at known up
          replace known : declared.1.nodeStat = some stat := known
          replace up : declared.1.isUp node = true := up
          obtain ⟨old, known_old, -, equal, -⟩ :=
            (declared_asks node).2 absent.1 stat known up
          rw [← raised_eq] at known_old
          have zero := sound.down old known_old node was_up
          have sent : (sendGETTASKS declared.1 node).2 = [node] := by
            simp [sendGETTASKS, known, up, ← equal, zero]
          rw [silent] at sent
          exact absurd sent (by simp)
        · rw [result] at absent
          exact absent.2 (mem_singleton_self node)
      · have keeps : Keeps daemon raised node := by
          intro stat known up
          rw [← raised_eq] at known up
          simp only [update_of_ne same] at up
          refine ⟨stat, known, up, rfl, fun part registered => ?_⟩
          rw [← raised_eq]
          exact registered
        exact keeps.trans ((asks node).2 absent)
    · rw [if_neg (fun master => mine master.1)]
      refine ⟨declared_sound, fun node => ⟨(declared_asks node).1, fun _ stat known => ?_⟩⟩
      rw [not_master_of_ne declared_sound mine] at known
      exact absurd known (by simp)

theorem cleanupRequests_nodeStat (daemon : Daemon Slots) (id : Nat) :
    (cleanupRequests daemon id).nodeStat
      = daemon.nodeStat.map fun stat => update stat id 0 := by
  unfold cleanupRequests
  cases known : daemon.nodeStat with
  | none => simp
  | some stat => rfl

theorem cleanupRequests_isUp (daemon : Daemon Slots) (id : Nat) :
    (cleanupRequests daemon id).isUp = daemon.isUp := by
  unfold cleanupRequests
  split <;> rfl

variable {part : Nat × Slots}

theorem registered_cleanup (other : node ≠ id)
    (registered : Registered daemon node part) :
    Registered (cleanupRequests daemon id) node part := by
  obtain ⟨req, member, rfl, pid, slots, kept⟩ := registered
  refine ⟨req, ?_, rfl, pid, slots, kept⟩
  have runs : (cleanupRequests daemon id).runReq
      = daemon.runReq.map fun req =>
          if req.node = id then { req with deleted := true } else req := by
    unfold cleanupRequests
    split <;> rfl
  have suspended : (cleanupRequests daemon id).suspReq = daemon.suspReq := by
    unfold cleanupRequests
    split <;> rfl
  rw [runs, suspended]
  rcases mem_append.mp member with running | waiting
  · refine mem_append_left _ (mem_map.mpr ⟨req, running, ?_⟩)
    exact if_neg other
  · exact mem_append_right _ waiting

theorem update_false_up {isUp : Nat → Bool}
    (here : update isUp id false node = true) :
    node ≠ id ∧ isUp node = true := by
  by_cases same : node = id
  · rw [same, update_self] at here
    exact absurd here (by simp)
  · rw [update_of_ne same] at here
    exact ⟨same, here⟩

/-- The pending messages of a node that goes down are no longer counted. -/
theorem cleanup_sound {lowered : Daemon Slots}
    (sound : Sound nrOfNodes me daemon) (up : daemon.isUp id = true)
    (is_lowered : lowered = { daemon with isUp := update daemon.isUp id false }) :
    Sound nrOfNodes me (cleanupRequests lowered id) := by
  have knows : (cleanupRequests lowered id).knowMaster = daemon.knowMaster := by
    rw [is_lowered]
    unfold cleanupRequests
    split <;> rfl
  have master : (cleanupRequests lowered id).masterNode = daemon.masterNode := by
    rw [is_lowered]
    unfold cleanupRequests
    split <;> rfl
  have ups : (cleanupRequests lowered id).isUp = update daemon.isUp id false := by
    rw [cleanupRequests_isUp, is_lowered]
  have stats : (cleanupRequests lowered id).nodeStat
      = daemon.nodeStat.map fun stat => update stat id 0 := by
    rw [cleanupRequests_nodeStat, is_lowered]
  have pending : (cleanupRequests lowered id).pendingTaskReq
      = daemon.pendingTaskReq
        - (daemon.nodeStat.map fun stat => stat id).getD 0 := by
    rw [is_lowered]
    unfold cleanupRequests
    split
    · rename_i unknown
      replace unknown : daemon.nodeStat = none := unknown
      simp [unknown]
    · rename_i stat known
      replace known : daemon.nodeStat = some stat := known
      simp [known]
  obtain ⟨positive, sum⟩ := sound.counts
  refine ⟨?_, ?_, ⟨?_, ?_⟩, ?_⟩
  · rw [stats, knows, master, isSome_map]
    exact sound.master
  · intro node here
    rw [ups] at here
    exact sound.valid node (update_false_up here).2
  · rw [pending]
    cases known : daemon.nodeStat with
    | none =>
      rw [map_none, getD_none]
      simpa using positive
    | some stat =>
      have total := sum stat known
      have changed := sum_update stat (sound.valid id up) 0
      rw [map_some, getD_some]
      omega
  · intro last same
    rw [stats, map_eq_some_iff] at same
    obtain ⟨stat, known, updated⟩ := same
    have total := sum stat known
    have changed := sum_update stat (sound.valid id up) 0
    rw [pending, known, map_some, getD_some, ← updated]
    omega
  · intro last same node low
    rw [stats, map_eq_some_iff] at same
    obtain ⟨stat, known, updated⟩ := same
    rw [ups] at low
    rw [← updated]
    by_cases this : node = id
    · rw [this, update_self]
    · rw [update_of_ne this] at low ⊢
      exact sound.down stat known node low

theorem declareNodeDead_spec (sound : Sound nrOfNodes me daemon)
    (other : id ≠ me) :
    Sound nrOfNodes me (declareNodeDead nrOfNodes me daemon id).1
      ∧ Asks daemon (declareNodeDead nrOfNodes me daemon id).1
          (declareNodeDead nrOfNodes me daemon id).2 := by
  unfold declareNodeDead
  cases up : daemon.isUp id with
  | false =>
    rw [if_pos rfl]
    exact ⟨sound, Asks.refl daemon⟩
  | true =>
    rw [if_neg (by simp)]
    have lowered_sound : daemon.nodeStat = none → Sound nrOfNodes me
        ({ daemon with isUp := update daemon.isUp id false } : Daemon Slots) := by
      intro none
      refine ⟨sound.master, fun node here =>
        sound.valid node (update_false_up here).2, sound.counts, ?_⟩
      intro stat known
      rw [none] at known
      exact absurd known (by simp)
    by_cases master_dead : id = daemon.masterNode
    · have none := not_master_of_ne sound (by rw [← master_dead]; exact other)
      simp only [if_pos master_dead]
      obtain ⟨sound', asks⟩ := declareMaster_spec (lowered_sound none)
        (nextMaster (update daemon.isUp id false) me me id)
      refine ⟨sound', fun node => ⟨(asks node).1, fun absent stat known here => ?_⟩⟩
      obtain ⟨old, known_old, -⟩ := (asks node).2 absent stat known here
      simp only [none] at known_old
      exact absurd known_old (by simp)
    · by_cases mine : me = daemon.masterNode
      · simp only [if_neg master_dead, if_pos mine]
        refine ⟨?_, fun node => ⟨fun asked => absurd asked not_mem_nil, fun _ last same here => ?_⟩⟩
        · exact cleanup_sound sound up rfl
        · rw [cleanupRequests_isUp] at here
          obtain ⟨differs, was_up⟩ := update_false_up here
          rw [cleanupRequests_nodeStat, map_eq_some_iff] at same
          obtain ⟨stat, known, updated⟩ := same
          refine ⟨stat, known, was_up, ?_, fun part registered =>
            registered_cleanup differs registered⟩
          rw [← updated, update_of_ne differs]
      · have none := not_master_of_ne sound (fun same => mine same.symm)
        simp only [if_neg master_dead, if_neg mine]
        exact ⟨lowered_sound none, asks_none none⟩

/-! ## Messages of a node -/

/-- What a message leaves of a partition of its node. -/
def Harmless (part : Nat × Slots) : FromNode Slots → Prop
  | .provideTask pid slots _ => pid = part.1 → slots = part.2
  | .taskDead pid => pid ≠ part.1
  | _ => True

theorem mem_deqPart {queue : List (Request Slots)} {found req : Request Slots}
    (member : req ∈ queue) (first : findPart queue node pid = some found) :
    req = found ∨ req ∈ deqPart queue node pid := by
  induction queue with
  | nil => exact absurd member not_mem_nil
  | cons head queue induction =>
    rw [findPart, find?_cons] at first
    rw [deqPart, eraseP_cons]
    cases this : isTask node pid head with
    | true =>
      rw [this, some_inj] at first
      rw [cond_true]
      rcases mem_cons.mp member with same | later
      · exact .inl (same.trans first)
      · exact .inr later
    | false =>
      rw [this] at first
      rw [cond_false]
      rcases mem_cons.mp member with same | later
      · rw [same]
        exact .inr mem_cons_self
      · rcases induction later first with same | kept
        · exact .inl same
        · exact .inr (mem_cons_of_mem _ kept)

theorem mem_deqPart_other {queue : List (Request Slots)} {req : Request Slots}
    (member : req ∈ queue) (other : ¬(req.node = node ∧ req.pid = pid)) :
    req ∈ deqPart queue node pid := by
  rw [deqPart, mem_eraseP_of_neg]
  · exact member
  · simpa [isTask] using other

section

variable {daemon : Daemon Slots} {part : Nat × Slots}
  (registered : Registered daemon node part)

include registered

theorem registered_taskDead (other : ¬(node = source ∧ part.1 = pid)) :
    Registered (taskDead daemon source pid) node part := by
  obtain ⟨req, member, on, is_pid, slots, undeleted⟩ := registered
  have differs : ¬(req.node = source ∧ req.pid = pid) := by
    rw [on, is_pid]
    exact other
  refine ⟨req, ?_, on, is_pid, slots, undeleted⟩
  unfold taskDead
  cases daemon.nodeStat with
  | none => exact member
  | some stat =>
    cases findPart daemon.runReq source pid with
    | some found =>
      rcases mem_append.mp member with running | suspended
      · exact mem_append_left _ (mem_deqPart_other running differs)
      · exact mem_append_right _ suspended
    | none =>
      cases findPart daemon.suspReq source pid with
      | some found =>
        rcases mem_append.mp member with running | suspended
        · exact mem_append_left _ running
        · exact mem_append_right _ (mem_deqPart_other suspended differs)
      | none => exact member

theorem registered_taskSuspend :
    Registered (taskSuspend freeOnSuspend daemon source pid) node part := by
  obtain ⟨req, member, on, is_pid, slots, undeleted⟩ := registered
  unfold taskSuspend
  cases daemon.nodeStat with
  | none => exact ⟨req, member, on, is_pid, slots, undeleted⟩
  | some stat =>
    cases first : findPart daemon.runReq source pid with
    | none => exact ⟨req, member, on, is_pid, slots, undeleted⟩
    | some found =>
      rcases mem_append.mp member with running | suspended
      · rcases mem_deqPart running first with rfl | kept
        · -- the request itself moves to the other queue
          exact ⟨{ req with freed := req.freed || freeOnSuspend },
            mem_append_right _ (mem_append_right _
              (mem_singleton_self _)), on, is_pid, slots, undeleted⟩
        · exact ⟨req, mem_append_left _ kept, on, is_pid, slots, undeleted⟩
      · exact ⟨req, mem_append_right _
          (mem_append_left _ suspended), on, is_pid, slots,
          undeleted⟩

theorem registered_taskResume :
    Registered (taskResume daemon source pid) node part := by
  obtain ⟨req, member, on, is_pid, slots, undeleted⟩ := registered
  unfold taskResume
  cases daemon.nodeStat with
  | none => exact ⟨req, member, on, is_pid, slots, undeleted⟩
  | some stat =>
    cases first : findPart daemon.suspReq source pid with
    | none => exact ⟨req, member, on, is_pid, slots, undeleted⟩
    | some found =>
      rcases mem_append.mp member with running | suspended
      · exact ⟨req, mem_append_left _
          (mem_append_left _ running), on, is_pid, slots, undeleted⟩
      · rcases mem_deqPart suspended first with rfl | kept
        · exact ⟨{ req with freed := false },
            mem_append_left _ (mem_append_right _
              (mem_singleton_self _)), on, is_pid, slots, undeleted⟩
        · exact ⟨req, mem_append_right _ kept, on, is_pid, slots, undeleted⟩

end

theorem registered_masterPart_self (daemon : Daemon Slots) (req : Request Slots)
    (undeleted : req.deleted = false) :
    Registered (masterPart freeOnSuspend daemon req) req.node
      (req.pid, req.slots) := by
  unfold masterPart
  by_cases suspended : req.suspended = true
  · rw [if_pos suspended]
    exact ⟨{ req with freed := freeOnSuspend },
      mem_append_right _ (mem_append_right _
        (mem_singleton_self _)), rfl, rfl, rfl, undeleted⟩
  · rw [if_neg suspended]
    exact ⟨req, mem_append_left _ (mem_append_right _
      (mem_singleton_self _)), rfl, rfl, rfl, undeleted⟩

section

variable {daemon : Daemon Slots} {req : Request Slots} {part : Nat × Slots}
  (registered : Registered daemon node part)
  (other : ¬(node = req.node ∧ part.1 = req.pid))

include registered other

theorem registered_removeOld : Registered (removeOld daemon req) node part := by
  obtain ⟨old, member, on, is_pid, slots, undeleted⟩ := registered
  have differs : ¬(old.node = req.node ∧ old.pid = req.pid) := by
    rw [on, is_pid]
    exact other
  refine ⟨old, ?_, on, is_pid, slots, undeleted⟩
  unfold removeOld
  cases findPart daemon.runReq req.node req.pid with
  | some found =>
    rcases mem_append.mp member with running | suspended
    · exact mem_append_left _ (mem_deqPart_other running differs)
    · exact mem_append_right _ suspended
  | none =>
    by_cases suspends : req.suspended = true
    · simp only [if_pos suspends]
      cases findPart daemon.suspReq req.node req.pid with
      | some found =>
        rcases mem_append.mp member with running | suspended
        · exact mem_append_left _ running
        · exact mem_append_right _ (mem_deqPart_other suspended differs)
      | none => exact member
    · simp only [if_neg suspends]
      exact member

theorem registered_masterPart :
    Registered (masterPart freeOnSuspend daemon req) node part := by
  obtain ⟨old, member, rest⟩ := registered_removeOld registered other
  refine ⟨old, ?_, rest⟩
  unfold masterPart
  rcases mem_append.mp member with running | suspended
  · split
    · exact mem_append_left _ running
    · exact mem_append_left _ (mem_append_left _ running)
  · split
    · exact mem_append_right _ (mem_append_left _ suspended)
    · exact mem_append_right _ suspended

end

def SameRole (before after : Daemon Slots) : Prop :=
  after.knowMaster = before.knowMaster ∧ after.masterNode = before.masterNode
    ∧ after.isUp = before.isUp ∧ after.nodeStat = before.nodeStat
    ∧ after.pendingTaskReq = before.pendingTaskReq

theorem SameRole.sound {before : Daemon Slots} (same : SameRole before after)
    (sound : Sound nrOfNodes me before) :
    Sound nrOfNodes me after := by
  obtain ⟨knows, master, ups, stats, pending⟩ := same
  obtain ⟨role, valid, ⟨positive, sum⟩, down⟩ := sound
  refine ⟨?_, ?_, ⟨?_, ?_⟩, ?_⟩
  · rwa [knows, master, stats]
  · rwa [ups]
  · rwa [pending]
  · rwa [stats, pending]
  · rwa [stats, ups]

theorem SameRole.refl (daemon : Daemon Slots) : SameRole daemon daemon :=
  ⟨rfl, rfl, rfl, rfl, rfl⟩

theorem sameRole_masterPart (daemon : Daemon Slots) (req : Request Slots) :
    SameRole daemon (masterPart freeOnSuspend daemon req) := by
  have removed : SameRole daemon (removeOld daemon req) := by
    unfold removeOld
    split
    · exact SameRole.refl daemon
    · split
      · split <;> exact SameRole.refl daemon
      · exact SameRole.refl daemon
  unfold masterPart
  split <;> exact removed

theorem sameRole_receive (daemon : Daemon Slots) (source : Nat)
    (choice : Option Slots) (msg : FromNode Slots)
    (not_end : msg ≠ .endOfTasks) :
    SameRole daemon (receive freeOnSuspend me daemon source choice msg).1 := by
  cases msg with
  | provideTask pid slots suspended =>
    simp only [receive]
    split
    · exact sameRole_masterPart daemon _
    · exact SameRole.refl daemon
  | endOfTasks => exact absurd rfl not_end
  | taskDead pid =>
    simp only [receive, taskDead]
    split
    · exact SameRole.refl daemon
    · split
      · exact SameRole.refl daemon
      · split <;> exact SameRole.refl daemon
  | taskSuspend pid =>
    simp only [receive, taskSuspend]
    split <;> exact SameRole.refl daemon
  | taskResume pid =>
    simp only [receive, taskResume]
    split <;> exact SameRole.refl daemon
  | createPart pid wait =>
    simp only [receive, createPart]
    split
    · split
      · exact SameRole.refl daemon
      · split <;> exact SameRole.refl daemon
    · exact SameRole.refl daemon
  | cancelPart pid =>
    simp only [receive]
    split <;> exact SameRole.refl daemon

theorem registered_grant (registered : Registered daemon node part)
    (more : List (Request Slots))
    (running : after.runReq = daemon.runReq ++ more)
    (suspended : after.suspReq = daemon.suspReq) :
    Registered after node part := by
  obtain ⟨req, member, rest⟩ := registered
  refine ⟨req, ?_, rest⟩
  rw [running, suspended]
  rcases mem_append.mp member with here | there
  · exact mem_append_left _ (mem_append_left _ here)
  · exact mem_append_right _ there

/-- A partition stays registered under the messages of other nodes and those
messages of its own node that do not concern it. -/
theorem registered_receive {choice : Option Slots} {msg : FromNode Slots}
    (registered : Registered daemon node part)
    (harmless : node = source → Harmless part msg) :
    Registered (receive freeOnSuspend me daemon source choice msg).1 node
      part := by
  cases msg with
  | provideTask pid slots suspended =>
    simp only [receive]
    split
    · by_cases this : node = source ∧ part.1 = pid
      · obtain ⟨rfl, rfl⟩ := this
        have equal : slots = part.2 := harmless rfl rfl
        rw [equal]
        exact registered_masterPart_self daemon
          ⟨node, part.1, part.2, suspended, false, false⟩ rfl
      · exact registered_masterPart registered this
    · exact registered
  | endOfTasks =>
    simp only [receive, endOfTasks]
    split
    · split <;> exact registered
    · exact registered
  | taskDead pid =>
    apply registered_taskDead registered
    rintro ⟨same, dead⟩
    exact harmless same dead.symm
  | taskSuspend pid => exact registered_taskSuspend registered
  | taskResume pid => exact registered_taskResume registered
  | createPart pid wait =>
    simp only [receive, createPart]
    split
    · split
      · exact registered
      · split
        · exact registered
        · exact registered_grant registered _ rfl rfl
    · exact registered
  | cancelPart pid =>
    simp only [receive]
    split <;> exact registered

theorem endOfTasks_sound (sound : Sound nrOfNodes me daemon) (source : Nat) :
    Sound nrOfNodes me (endOfTasks daemon source) := by
  unfold endOfTasks
  cases known : daemon.nodeStat with
  | none => exact sound
  | some stat =>
    obtain ⟨positive, sum⟩ := sound.counts
    have total := sum stat known
    -- a node that is not up has nothing pending
    have changed : (Finset.range nrOfNodes).sum
        (update stat source 0) + stat source
          = (Finset.range nrOfNodes).sum stat := by
      cases up : daemon.isUp source with
      | true => exact sum_update stat (sound.valid source up) 0
      | false =>
        have zero := sound.down stat known source up
        have same : update stat source 0 = stat := by
          rw [← zero, update_eq_self]
        rw [same, zero, Nat.add_zero]
    refine ⟨?_, sound.valid, ⟨?_, ?_⟩, ?_⟩
    · have master := sound.master
      rw [known] at master
      exact master
    · simp only
      omega
    · intro last same
      simp only [some_inj] at same
      rw [← same]
      simp only
      omega
    · intro last same other low
      simp only [some_inj] at same
      rw [← same]
      by_cases this : other = source
      · rw [this, update_self]
      · rw [update_of_ne this]
        exact sound.down stat known other low

theorem receive_sound (sound : Sound nrOfNodes me daemon) (source : Nat)
    (choice : Option Slots) (msg : FromNode Slots) :
    Sound nrOfNodes me (receive freeOnSuspend me daemon source choice msg).1 := by
  by_cases last : msg = .endOfTasks
  · subst last
    simp only [receive]
    split
    · exact endOfTasks_sound sound source
    · exact sound
  · exact (sameRole_receive daemon source choice msg last).sound sound

/-- A message keeps what is known of the other nodes. -/
theorem receive_keeps (other : node ≠ source) (choice : Option Slots)
    (msg : FromNode Slots) :
    Keeps daemon (receive freeOnSuspend me daemon source choice msg).1
      node := by
  have kept : ∀ part, Registered daemon node part →
      Registered (receive freeOnSuspend me daemon source choice msg).1 node
        part :=
    fun part registered => registered_receive registered fun same => absurd same other
  intro stat known up
  by_cases last : msg = .endOfTasks
  · subst last
    simp only [receive] at known up
    split at known
    · rename_i master
      rw [if_pos master] at up
      cases before : daemon.nodeStat with
      | none =>
        simp only [endOfTasks, before] at known
        exact absurd known (by simp)
      | some old =>
        simp only [endOfTasks, before, some_inj] at known up
        refine ⟨old, rfl, up, ?_, kept⟩
        rw [← known, update_of_ne other]
    · rename_i master
      rw [if_neg master] at up
      exact ⟨stat, known, up, rfl, kept⟩
  · obtain ⟨-, -, ups, stats, -⟩ := @sameRole_receive _ me freeOnSuspend
      daemon source choice msg last
    rw [stats] at known
    rw [ups] at up
    exact ⟨stat, known, up, rfl, kept⟩

end Psmgmt.Mastership
