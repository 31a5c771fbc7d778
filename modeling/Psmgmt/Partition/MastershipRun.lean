import Psmgmt.Partition.MastershipRounds

/-!
# Runs of the daemon among the nodes

A node is asked in rounds.  As long as no two rounds with one node overlap, the
end of tasks that arrives is the one of the last round.
-/

namespace Psmgmt.Mastership

open List

open Function (update update_of_ne update_self)

variable {Slots : Type*} {nrOfNodes me node : Nat} {freeOnSuspend : Bool}
  {daemon : Daemon Slots} {toNode : List (ToNode Slots)}
  {fromNode : List (FromNode Slots)} {held asked : List (Nat × Slots)}

def isGet : ToNode Slots → Bool
  | .getTasks => true
  | .providePart _ _ => false

def isEnd : FromNode Slots → Bool
  | .endOfTasks => true
  | _ => false

/-- The rounds under way with a node. -/
def rounds (toNode : List (ToNode Slots)) (fromNode : List (FromNode Slots)) :
    Nat :=
  toNode.countP isGet + fromNode.countP isEnd

def Clean (part : Nat × Slots) (msgs : List (FromNode Slots)) : Prop :=
  ∀ msg ∈ msgs, Harmless part msg

/-- A partition is registered and no message under way changes that. -/
def Good (daemon : Daemon Slots) (node : Nat) (msgs : List (FromNode Slots))
    (part : Nat × Slots) : Prop :=
  Registered daemon node part ∧ Clean part msgs

/-- A partition is on its way, with the end of tasks behind it. -/
def Coming (msgs : List (FromNode Slots)) (part : Nat × Slots) : Prop :=
  ∃ before suspended after, msgs = before ++ .provideTask part.1 part.2 suspended :: after
      ∧ Clean part after ∧ .endOfTasks ∈ after

/-- What is known of the partitions of a node. -/
structure Accounted (daemon : Daemon Slots) (node : Nat)
    (toNode : List (ToNode Slots)) (fromNode : List (FromNode Slots))
    (held asked : List (Nat × Slots)) : Prop where
  unique : (held.map Prod.fst).Nodup
  subset : asked ⊆ held
  single : rounds toNode fromNode ≤ 1
  settled : ∀ stat, daemon.nodeStat = some stat → daemon.isUp node = true →
    stat node = 0 → ∀ part ∈ asked, Good daemon node fromNode part
  coming : ∀ stat, daemon.nodeStat = some stat → daemon.isUp node = true →
    stat node ≠ 0 → .endOfTasks ∈ fromNode →
      ∀ part ∈ asked, Good daemon node fromNode part ∨ Coming fromNode part

variable {msg : FromNode Slots}

theorem isEnd_eq : isEnd msg = true ↔ msg = .endOfTasks := by
  cases msg <;> simp [isEnd]

theorem isGet_eq {msg : ToNode Slots} : isGet msg = true ↔ msg = .getTasks := by
  cases msg <;> simp [isGet]

section

variable {after : Daemon Slots}
  (accounted : Accounted daemon node toNode fromNode held asked)

include accounted

theorem Accounted.keep (keeps : Keeps daemon after node) :
    Accounted after node toNode fromNode held asked where
  unique := accounted.unique
  subset := accounted.subset
  single := accounted.single
  settled := by
    intro stat known up zero part member
    obtain ⟨old, was_known, was_up, equal, registered⟩ := keeps stat known up
    have good := accounted.settled old was_known was_up (equal.trans zero) part member
    exact ⟨registered part good.1, good.2⟩
  coming := by
    intro stat known up pending last part member
    obtain ⟨old, was_known, was_up, equal, registered⟩ := keeps stat known up
    rcases accounted.coming old was_known was_up (by rw [equal]; exact pending)
      last part member with good | coming
    · exact .inl ⟨registered part good.1, good.2⟩
    · exact .inr coming

/-- A node is asked: the partitions it holds now are those it has to provide. -/
theorem Accounted.ask
    (pending : ∀ stat, after.nodeStat = some stat → after.isUp node = true →
      stat node ≠ 0) (no_get : ∀ msg ∈ toNode, msg ≠ .getTasks)
    (no_end : ∀ msg ∈ fromNode, msg ≠ .endOfTasks) :
    Accounted after node (toNode ++ [.getTasks]) fromNode held held where
  unique := accounted.unique
  subset := List.Subset.refl held
  single := by
    have gets : toNode.countP isGet = 0 := by
      rw [countP_eq_zero]
      intro msg member get
      exact no_get msg member (isGet_eq.mp get)
    have ends : fromNode.countP isEnd = 0 := by
      rw [countP_eq_zero]
      intro msg member last
      exact no_end msg member (isEnd_eq.mp last)
    rw [rounds, countP_append, gets, ends]
    simp [isGet]
  settled := fun stat known up zero => absurd zero (pending stat known up)
  coming := fun _ _ _ _ last => absurd rfl (no_end _ last)

end

/-- A node sends messages that concern no partition it has to provide. -/
theorem Accounted.send {more : List (FromNode Slots)}
    (accounted : Accounted daemon node toNode fromNode held asked)
    (harmless : ∀ part ∈ asked, Clean part more) (no_end : ∀ msg ∈ more, msg ≠ .endOfTasks) :
    Accounted daemon node toNode (fromNode ++ more) held asked := by
  have clean : ∀ part ∈ asked, ∀ msgs : List (FromNode Slots),
      Clean part msgs → Clean part (msgs ++ more) := by
    intro part member msgs here msg inside
    rcases mem_append.mp inside with old | new
    · exact here msg old
    · exact harmless part member msg new
  refine ⟨accounted.unique, accounted.subset, ?_, ?_, ?_⟩
  · have none : more.countP isEnd = 0 := by
      rw [countP_eq_zero]
      intro msg member last
      exact no_end msg member (isEnd_eq.mp last)
    have single := accounted.single
    rw [rounds] at single ⊢
    rw [countP_append, none]
    exact single
  · intro stat known up zero part member
    have good := accounted.settled stat known up zero part member
    exact ⟨good.1, clean part member _ good.2⟩
  · intro stat known up pending last part member
    have before : .endOfTasks ∈ fromNode := by
      rcases mem_append.mp last with old | new
      · exact old
      · exact absurd rfl (no_end _ new)
    rcases accounted.coming stat known up pending before part member with
      good | ⟨front, suspended, back, whole, behind, ends⟩
    · exact .inl ⟨good.1, clean part member _ good.2⟩
    · refine .inr ⟨front, suspended, back ++ more, ?_,
        clean part member _ behind, mem_append_left _ ends⟩
      rw [whole, append_assoc, cons_append]

theorem mem_answer {suspended : Nat → Bool} {requests : List (Nat × Bool)}
    (member : msg ∈ answer held suspended requests) :
    (∃ part ∈ held, msg = .provideTask part.1 part.2 (suspended part.1))
      ∨ (∃ pid wait, msg = .createPart pid wait) ∨ msg = .endOfTasks := by
  rw [answer, mem_append, mem_append, mem_singleton, mem_map, mem_map] at member
  rcases member with (⟨part, inside, rfl⟩ | ⟨request, -, rfl⟩) | last
  · exact .inl ⟨part, inside, rfl⟩
  · exact .inr (.inl ⟨request.1, request.2, rfl⟩)
  · exact .inr (.inr last)

variable {part : Nat × Slots}

/-- An answer names each process once. -/
theorem clean_answer {suspended : Nat → Bool} {requests : List (Nat × Bool)}
    (unique : (held.map Prod.fst).Nodup) (member : part ∈ held) :
    Clean part (answer held suspended requests) := by
  intro msg inside
  rcases mem_answer inside with
    ⟨other, provided, rfl⟩ | ⟨pid, wait, rfl⟩ | rfl
  · intro same
    rw [inj_on_of_nodup_map unique provided member same]
  · trivial
  · trivial

theorem countP_answer (suspended : Nat → Bool) (requests : List (Nat × Bool)) :
    (answer held suspended requests).countP isEnd = 1 := by
  have provided : (held.map fun part => (FromNode.provideTask part.1 part.2
      (suspended part.1) : FromNode Slots)).countP isEnd = 0 := by
    rw [countP_eq_zero]
    intro msg member
    obtain ⟨part, -, rfl⟩ := mem_map.mp member
    simp [isEnd]
  have requested : (requests.map fun request => (FromNode.createPart request.1
      request.2 : FromNode Slots)).countP isEnd = 0 := by
    rw [countP_eq_zero]
    intro msg member
    obtain ⟨request, -, rfl⟩ := mem_map.mp member
    simp [isEnd]
  rw [answer, countP_append, countP_append, provided, requested]
  simp [isEnd]

variable {rest : List (ToNode Slots)}

theorem Accounted.answered (suspended : Nat → Bool) (requests : List (Nat × Bool))
    (accounted : Accounted daemon node (.getTasks :: rest) fromNode held asked) :
    Accounted daemon node rest (fromNode ++ answer held suspended requests) held asked := by
  refine ⟨accounted.unique, accounted.subset, ?_, ?_, ?_⟩
  · have single := accounted.single
    rw [rounds, countP_cons] at single
    rw [rounds, countP_append, countP_answer]
    simp only [isGet, if_true] at single
    omega
  · intro stat known up zero part member
    have good := accounted.settled stat known up zero part member
    refine ⟨good.1, fun msg inside => ?_⟩
    rcases mem_append.mp inside with old | new
    · exact good.2 msg old
    · exact clean_answer accounted.unique (accounted.subset member) msg new
  · intro stat known up pending last part member
    have here := accounted.subset member
    have clean : Clean part (answer held suspended requests) := clean_answer accounted.unique here
    obtain ⟨front, back, whole⟩ := append_of_mem here
    refine .inr ⟨fromNode ++ front.map (fun part =>
        .provideTask part.1 part.2 (suspended part.1)), suspended part.1,
      back.map (fun part => .provideTask part.1 part.2 (suspended part.1)) ++ requests.map
        (fun request => .createPart request.1 request.2) ++ [.endOfTasks], ?_, ?_, ?_⟩
    · rw [answer, whole]
      simp
    · intro msg inside
      apply clean msg
      rw [answer, whole]
      simp only [map_append, map_cons, mem_append, mem_cons] at inside ⊢
      tauto
    · exact mem_append_right _ (mem_singleton_self _)

/-- The end of tasks of the only round cannot be followed by another one. -/
theorem Accounted.last_end
    (accounted : Accounted daemon node toNode (.endOfTasks :: fromNode) held
      asked) : .endOfTasks ∉ fromNode := by
  intro member
  have single := accounted.single
  rw [rounds, countP_cons] at single
  have more : 0 < fromNode.countP isEnd := countP_pos_iff.mpr ⟨_, member, rfl⟩
  simp only [isEnd, if_true] at single more
  omega

theorem Accounted.received (choice : Option Slots) (sound : Sound nrOfNodes me daemon)
    (accounted : Accounted daemon node toNode (msg :: fromNode) held asked) :
    Accounted (receive freeOnSuspend me daemon node choice msg).1 node toNode
      fromNode held asked := by
  -- a partition whose state is good stays so
  have good_after : ∀ part, Good daemon node (msg :: fromNode) part →
      Good (receive freeOnSuspend me daemon node choice msg).1 node fromNode
        part := by
    intro part good
    exact ⟨registered_receive good.1 fun _ =>
        good.2 msg mem_cons_self,
      fun other member => good.2 other (mem_cons_of_mem _ member)⟩
  have single := accounted.single
  rw [rounds, countP_cons] at single
  refine ⟨accounted.unique, accounted.subset, ?_, ?_, ?_⟩
  · rw [rounds]
    omega
  · intro stat known up zero part member
    by_cases last : msg = .endOfTasks
    · subst last
      apply good_after
      have was_known : ∃ old, daemon.nodeStat = some old := by
        cases before : daemon.nodeStat with
        | none =>
          have after : (receive freeOnSuspend me daemon node choice
              .endOfTasks).1.nodeStat = none := by
            simp only [receive, endOfTasks, before]
            split <;> exact before
          rw [after] at known
          exact absurd known (by simp)
        | some old => exact ⟨old, rfl⟩
      obtain ⟨old, was_known⟩ := was_known
      have was_up : daemon.isUp node = true := by
        have same : (receive freeOnSuspend me daemon node choice
            .endOfTasks).1.isUp = daemon.isUp := by
          simp only [receive, endOfTasks, was_known]
          split <;> rfl
        rw [same] at up
        exact up
      by_cases done : old node = 0
      · exact accounted.settled old was_known was_up done part member
      · rcases accounted.coming old was_known was_up done mem_cons_self
          part member with good | ⟨front, suspended, back, whole, -, ends⟩
        · exact good
        · exfalso
          cases front with
          | nil => exact absurd whole (by simp)
          | cons head front =>
            rw [cons_append, List.cons.injEq] at whole
            apply accounted.last_end
            rw [whole.2]
            exact mem_append_right _ (mem_cons_of_mem _ ends)
    · apply good_after
      obtain ⟨-, -, ups, stats, -⟩ := @sameRole_receive _ me freeOnSuspend
        daemon node choice msg last
      rw [stats] at known
      rw [ups] at up
      exact accounted.settled stat known up zero part member
  · intro stat known up pending ends part member
    by_cases last : msg = .endOfTasks
    · subst last
      exact absurd ends accounted.last_end
    · obtain ⟨-, -, ups, stats, -⟩ := @sameRole_receive _ me freeOnSuspend
        daemon node choice msg last
      rw [stats] at known
      rw [ups] at up
      rcases accounted.coming stat known up pending
        (mem_cons_of_mem _ ends) part member with
        good | ⟨front, suspended, back, whole, clean, behind⟩
      · exact .inl (good_after part good)
      · cases front with
        | nil =>
          -- the partition itself arrives
          rw [nil_append, List.cons.injEq] at whole
          obtain ⟨rfl, rfl⟩ := whole
          have master := sound.master.mp (by rw [known]; rfl)
          refine .inl ⟨?_, clean⟩
          simp only [receive, if_pos (⟨master.1, master.2.symm⟩ :
            daemon.knowMaster = true ∧ me = daemon.masterNode)]
          exact registered_masterPart_self daemon
            ⟨node, part.1, part.2, suspended, false, false⟩ rfl
        | cons head front =>
          rw [cons_append, List.cons.injEq] at whole
          exact .inr ⟨front, suspended, back, whole.2, clean, behind⟩

/-! ## All nodes -/

structure NetSound (nrOfNodes me : Nat) (net : Net Slots) : Prop where
  sound : Sound nrOfNodes me net.daemon
  nodes : ∀ node, Accounted net.daemon node (net.toNode node)
    (net.fromNode node) (net.held node) (net.asked node)

theorem netSound_start : NetSound nrOfNodes me (Net.start : Net Slots) := by
  refine ⟨⟨?_, ?_, ⟨Int.le_refl 0, ?_⟩, ?_⟩, fun node => ?_⟩
  · simp [Net.start]
  · intro node up
    exact absurd up (by simp [Net.start])
  · intro stat known
    exact absurd known (by simp [Net.start])
  · intro stat known
    exact absurd known (by simp [Net.start])
  · refine ⟨nodup_nil, List.Subset.refl _, Nat.zero_le _, ?_, ?_⟩
    · intro stat known
      exact absurd known (by simp [Net.start])
    · intro stat known
      exact absurd known (by simp [Net.start])

variable {net : Net Slots}

theorem NetSound.ask {result : Daemon Slots × List Nat} (netSound : NetSound nrOfNodes me net)
    (sound : Sound nrOfNodes me result.1) (asks : Asks net.daemon result.1 result.2)
    (quiet : ∀ node ∈ result.2, Quiet net node) :
    NetSound nrOfNodes me (net.ask result) := by
  refine ⟨sound, fun node => ?_⟩
  have accounted := netSound.nodes node
  by_cases member : node ∈ result.2
  · simp only [Net.ask, if_pos member]
    exact accounted.ask ((asks node).1 member) (quiet node member).1 (quiet node member).2
  · simp only [Net.ask, if_neg member]
    exact accounted.keep ((asks node).2 member)

theorem Accounted.provide (more : List (Request Slots))
    (accounted : Accounted daemon node toNode fromNode held asked) :
    Accounted daemon node (toNode ++ (more.filter fun req =>
      req.node = node).map fun req => .providePart req.pid req.slots)
      fromNode held asked := by
  refine ⟨accounted.unique, accounted.subset, ?_, accounted.settled, accounted.coming⟩
  have single := accounted.single
  have none : ((more.filter fun req => req.node = node).map fun req =>
      (ToNode.providePart req.pid req.slots : ToNode Slots)).countP isGet = 0 := by
    rw [countP_eq_zero]
    intro msg member
    obtain ⟨req, -, rfl⟩ := mem_map.mp member
    simp [isGet]
  rw [rounds] at single ⊢
  rw [countP_append, none]
  exact single

theorem SameRole.keeps {before after : Daemon Slots}
    (same : SameRole before after)
    (registered : ∀ part, Registered before node part →
      Registered after node part) : Keeps before after node := by
  obtain ⟨-, -, ups, stats, -⟩ := same
  intro stat known up
  rw [stats] at known
  rw [ups] at up
  exact ⟨stat, known, up, rfl, registered⟩

/-! ## Creating partitions -/

theorem registered_cleaned (registered : Registered daemon node part) :
    Registered (cleanupReqQueues daemon) node part := by
  obtain ⟨req, member, on, pid, slots, undeleted⟩ := registered
  refine ⟨req, ?_, on, pid, slots, undeleted⟩
  rcases mem_append.mp member with running | suspended
  · apply mem_append_left
    exact mem_filter.mpr ⟨running, by simp [undeleted]⟩
  · exact mem_append_right _ suspended

theorem handlePartRequests_keeps (choice : Pending → Option Slots)
    (stop : Pending → Bool) (daemon : Daemon Slots) :
    SameRole daemon (handlePartRequests choice stop daemon).1
      ∧ ∀ node part, Registered daemon node part →
        Registered (handlePartRequests choice stop daemon).1 node part := by
  obtain ⟨cleaned, is_cleaned, same, kept⟩ : ∃ cleaned : Daemon Slots,
      (if daemon.doCleanup = true then cleanupReqQueues daemon else daemon)
        = cleaned ∧ SameRole daemon cleaned
        ∧ ∀ node part, Registered daemon node part → Registered cleaned node part := by
    by_cases cleanup : daemon.doCleanup = true
    · exact ⟨cleanupReqQueues daemon, if_pos cleanup, SameRole.refl daemon,
        fun _ _ registered => registered_cleaned registered⟩
    · exact ⟨daemon, if_neg cleanup, SameRole.refl daemon,
        fun _ _ registered => registered⟩
  simp only [handlePartRequests, is_cleaned]
  split
  · exact ⟨same, kept⟩
  · refine ⟨same, fun node part registered => ?_⟩
    exact registered_grant (kept node part registered) _ rfl rfl

theorem pending_zero {choice : Pending → Option Slots} {stop : Pending → Bool}
    (creates : (handlePartRequests choice stop daemon).2 ≠ []) :
    daemon.nodeStat.isSome = true ∧ daemon.pendingTaskReq = 0 := by
  have cleaned : ∃ cleaned : Daemon Slots,
      (if daemon.doCleanup = true then cleanupReqQueues daemon else daemon) = cleaned ∧
        cleaned.nodeStat = daemon.nodeStat ∧ cleaned.pendingTaskReq = daemon.pendingTaskReq := by
    refine ⟨_, rfl, ?_, ?_⟩ <;> split <;> rfl
  obtain ⟨cleaned, is_cleaned, stats, pending⟩ := cleaned
  simp only [handlePartRequests, is_cleaned] at creates
  split at creates
  · exact absurd rfl creates
  · rename_i open_
    rw [not_or, not_or, stats, pending] at open_
    obtain ⟨known, none, -⟩ := open_
    refine ⟨?_, not_not.mp none⟩
    cases stat : daemon.nodeStat with
    | none =>
      rw [stat] at known
      exact absurd rfl known
    | some _ => rfl

/-- When a partition is created, all rounds are over. -/
theorem NetSound.knowsAll (netSound : NetSound nrOfNodes me net) : KnowsAll net := by
  intro choice stop creates node up part member
  obtain ⟨known, none⟩ := pending_zero creates
  obtain ⟨stat, is_stat⟩ := Option.isSome_iff_exists.mp known
  have sum := netSound.sound.counts.2 stat is_stat
  have zero : (Finset.range nrOfNodes).sum stat = 0 := by omega
  have here : stat node = 0 := Finset.sum_eq_zero_iff.mp zero node
    (Finset.mem_range.mpr (netSound.sound.valid node up))
  have good := (netSound.nodes node).settled stat is_stat up here part member
  exact (handlePartRequests_keeps choice stop net.daemon).2 node part good.1

/-! ## The steps -/

theorem Accounted.drop {pid : Nat}
    (accounted : Accounted daemon node toNode fromNode held asked) :
    Accounted daemon node toNode fromNode (held.filter fun part => part.1 ≠ pid)
      (asked.filter fun part => part.1 ≠ pid) where
  unique := accounted.unique.sublist (filter_sublist.map _)
  subset := by
    intro part member
    rw [mem_filter] at member ⊢
    exact ⟨accounted.subset member.1, member.2⟩
  single := accounted.single
  settled := fun stat known up zero part member =>
    accounted.settled stat known up zero part (mem_of_mem_filter member)
  coming := fun stat known up pending last part member =>
    accounted.coming stat known up pending last part (mem_of_mem_filter member)

theorem Accounted.hold {pid : Nat} {slots : Slots}
    (accounted : Accounted daemon node toNode fromNode held asked)
    (free : ∀ part ∈ held, part.1 ≠ pid) :
    Accounted daemon node toNode fromNode (held ++ [(pid, slots)]) asked where
  unique := by
    rw [map_append, map_singleton, nodup_append]
    refine ⟨accounted.unique, nodup_singleton _, ?_⟩
    intro first inside second last
    obtain ⟨part, member, rfl⟩ := mem_map.mp inside
    rw [mem_singleton] at last
    rw [last]
    exact free part member
  subset := fun part member => mem_append_left _ (accounted.subset member)
  single := accounted.single
  settled := accounted.settled
  coming := accounted.coming

theorem Accounted.less {more : List (ToNode Slots)}
    (accounted : Accounted daemon node (more ++ rest) fromNode held asked) :
    Accounted daemon node rest fromNode held asked where
  unique := accounted.unique
  subset := accounted.subset
  single := by
    have single := accounted.single
    rw [rounds, countP_append] at single
    rw [rounds]
    omega
  settled := accounted.settled
  coming := accounted.coming

theorem Accounted.reset
    (accounted : Accounted daemon node toNode fromNode held asked) :
    Accounted daemon node [] [] held asked where
  unique := accounted.unique
  subset := accounted.subset
  single := Nat.zero_le _
  settled := fun stat known up zero part member =>
    ⟨(accounted.settled stat known up zero part member).1,
      fun _ inside => absurd inside not_mem_nil⟩
  coming := fun _ _ _ _ last => absurd last not_mem_nil

theorem NetSound.at_node {after : Net Slots} (source : Nat)
    (netSound : NetSound nrOfNodes me net) (same : after.daemon = net.daemon)
    (others : ∀ node, node ≠ source → after.toNode node = net.toNode node
      ∧ after.fromNode node = net.fromNode node
      ∧ after.held node = net.held node ∧ after.asked node = net.asked node)
    (accounted : Accounted net.daemon source (after.toNode source)
      (after.fromNode source) (after.held source) (after.asked source)) :
    NetSound nrOfNodes me after := by
  refine ⟨by rw [same]; exact netSound.sound, fun node => ?_⟩
  rw [same]
  by_cases this : node = source
  · rw [this]
    exact accounted
  · obtain ⟨gets, msgs, helds, askeds⟩ := others node this
    rw [gets, msgs, helds, askeds]
    exact netSound.nodes node

theorem clean_one (harmless : Harmless part msg) : Clean part [msg] := by
  intro other member
  rw [mem_singleton] at member
  rw [member]
  exact harmless

variable {source : Nat}

theorem NetSound.send_one (netSound : NetSound nrOfNodes me net)
    (harmless : ∀ part ∈ net.asked source, Harmless part msg) (no_end : msg ≠ .endOfTasks) :
    NetSound nrOfNodes me (net.send source [msg]) := by
  refine netSound.at_node source rfl (fun node this => ?_) ?_
  · exact ⟨rfl, update_of_ne this .., rfl, rfl⟩
  · simp only [Net.send, update_self]
    apply (netSound.nodes source).send
    · exact fun part member => clean_one (harmless part member)
    · intro other member
      rw [mem_singleton] at member
      rw [member]
      exact no_end

theorem NetSound.send_none (netSound : NetSound nrOfNodes me net) :
    NetSound nrOfNodes me (net.send source []) := by
  refine netSound.at_node source rfl (fun node this => ?_) ?_
  · exact ⟨rfl, update_of_ne this .., rfl, rfl⟩
  · simp only [Net.send, update_self, append_nil]
    exact netSound.nodes source

theorem NetSound.drop (netSound : NetSound nrOfNodes me net) (pid : Nat) :
    NetSound nrOfNodes me (net.drop source pid) := by
  refine netSound.at_node source rfl (fun node this => ?_) ?_
  · exact ⟨rfl, rfl, update_of_ne this .., update_of_ne this ..⟩
  · simp only [Net.drop, update_self]
    exact (netSound.nodes source).drop

theorem NetSound.hold {source pid : Nat} {slots : Slots} (netSound : NetSound nrOfNodes me net)
    (free : ∀ part ∈ net.held source, part.1 ≠ pid) :
    NetSound nrOfNodes me (net.hold source pid slots) := by
  refine netSound.at_node source rfl (fun node this => ?_) ?_
  · exact ⟨rfl, rfl, update_of_ne this .., rfl⟩
  · simp only [Net.hold, update_self]
    exact (netSound.nodes source).hold free

theorem NetSound.take {msg : ToNode Slots} (netSound : NetSound nrOfNodes me net)
    (head : net.toNode source = msg :: rest) :
    NetSound nrOfNodes me { net with toNode := update net.toNode source rest } := by
  refine netSound.at_node source rfl (fun node this => ?_) ?_
  · exact ⟨update_of_ne this .., rfl, rfl, rfl⟩
  · simp only [update_self]
    have accounted := netSound.nodes source
    rw [head] at accounted
    exact @Accounted.less _ _ _ _ _ _ rest [msg] accounted

theorem dropped_pid {pid : Nat} : (∀ part ∈ (net.drop source pid).held source, part.1 ≠ pid)
      ∧ ∀ part ∈ (net.drop source pid).asked source, part.1 ≠ pid := by
  simp only [Net.drop, update_self]
  constructor <;>
  · intro part member
    simpa using (mem_filter.mp member).2

theorem NetSound.receive {source : Nat} {rest : List (FromNode Slots)}
    (netSound : NetSound nrOfNodes me net) (choice : Option Slots)
    (head : net.fromNode source = msg :: rest) :
    NetSound nrOfNodes me
      ({ net with
          fromNode := update net.fromNode source rest }.create
        (receive freeOnSuspend me net.daemon source choice msg)) := by
  have accounted := netSound.nodes source
  rw [head] at accounted
  constructor
  · exact receive_sound netSound.sound source choice msg
  · intro node
    simp only [Net.create]
    apply Accounted.provide
    by_cases this : node = source
    · rw [this, update_self]
      exact accounted.received choice netSound.sound
    · rw [update_of_ne this]
      exact (netSound.nodes node).keep (receive_keeps this choice msg)

theorem NetSound.step {after : Net Slots} {asking : List Nat} (netSound : NetSound nrOfNodes me net)
    (step : NetStep nrOfNodes me freeOnSuspend net asking after)
    (quiet : ∀ node ∈ asking, Quiet net node) :
    NetSound nrOfNodes me after := by
  cases step with
  | master newMaster =>
    obtain ⟨sound, asks⟩ := declareMaster_spec netSound.sound newMaster
    exact netSound.ask sound asks quiet
  | alive valid =>
    obtain ⟨sound, asks⟩ := declareNodeAlive_spec netSound.sound valid
    exact netSound.ask sound asks quiet
  | dead other =>
    obtain ⟨sound, asks⟩ := declareNodeDead_spec netSound.sound other
    exact netSound.ask sound asks quiet
  | handle choice stop =>
    obtain ⟨same, kept⟩ := handlePartRequests_keeps choice stop net.daemon
    refine ⟨same.sound netSound.sound, fun node => ?_⟩
    exact ((netSound.nodes node).keep (same.keeps (kept node))).provide _
  | receive choice head => exact netSound.receive choice head
  | @answer source rest suspended requests head =>
    refine netSound.at_node source rfl (fun node this => ?_) ?_
    · exact ⟨update_of_ne this .., update_of_ne this ..,
        rfl, rfl⟩
    · simp only [Net.send, update_self]
      have accounted := netSound.nodes source
      rw [head] at accounted
      exact accounted.answered suspended requests
  | accept head free => exact (netSound.take head).hold free
  | refuse head => exact netSound.take head
  | hold free => exact netSound.hold free
  | @extend source pid slots msgs told =>
    have held := @NetSound.hold _ _ _ (net.drop source pid) source pid slots
      (netSound.drop pid) dropped_pid.1
    rcases told with rfl | ⟨suspended, rfl⟩
    · exact held.send_none
    · refine held.send_one (fun part member same => ?_) (by simp)
      exact absurd same.symm (dropped_pid.2 part member)
  | @finish source pid msgs told =>
    rcases told with rfl | rfl
    · exact (netSound.drop pid).send_none
    · refine (netSound.drop pid).send_one (fun part member same => ?_) (by simp)
      exact dropped_pid.2 part member same.symm
  | @late source pid free =>
    refine netSound.send_one (fun part member same => ?_) (by simp)
    exact free part ((netSound.nodes source).subset member) same.symm
  | suspend => exact netSound.send_one (fun _ _ => trivial) (by simp)
  | resume => exact netSound.send_one (fun _ _ => trivial) (by simp)
  | request => exact netSound.send_one (fun _ _ => trivial) (by simp)
  | cancel => exact netSound.send_one (fun _ _ => trivial) (by simp)
  | @reset source =>
    refine netSound.at_node source rfl (fun node this => ?_) ?_
    · exact ⟨update_of_ne this .., update_of_ne this ..,
        rfl, rfl⟩
    · simp only [update_self]
      exact (netSound.nodes source).reset

theorem netSound_invariant (Slots : Type*) (nrOfNodes me : Nat)
    (freeOnSuspend : Bool) :
    (quietSystem Slots nrOfNodes me freeOnSuspend).Invariant (NetSound nrOfNodes me) where
  initial := by
    rintro net rfl
    exact netSound_start
  step := by
    rintro before after netSound ⟨asking, step, quiet⟩
    exact netSound.step step quiet

/-- In every run whose rounds of questions do not overlap, a master that creates
partitions knows those of all nodes. -/
theorem master_knows_all
    (reachable : (quietSystem Slots nrOfNodes me freeOnSuspend).Reachable net) :
    KnowsAll net ∧ CountsRight nrOfNodes net.daemon := by
  have netSound := (netSound_invariant Slots nrOfNodes me freeOnSuspend).reachable reachable
  exact ⟨netSound.knowsAll, netSound.sound.counts⟩

/-- A master of one other node, which holds a partition. -/
theorem master_knows_all_pair : ∃ net : Net Nat,
    net.asked 1 = [(5, 7)] ∧ net.daemon.pendingTaskReq = 0
      ∧ KnowsAll net ∧ CountsRight 2 net.daemon := by
  have start : (quietSystem Nat 2 0 false).Reachable Net.start :=
    .initial rfl
  have hold := start.step ⟨[], @NetStep.hold _ _ _ _ _ 1 5 7
    (fun _ member => absurd member not_mem_nil),
    fun _ member => absurd member not_mem_nil⟩
  have alive := hold.step ⟨_, @NetStep.alive _ _ _ _ _ 1 (by decide),
    fun node _ => ⟨fun _ member => absurd member not_mem_nil,
      fun _ member => absurd member not_mem_nil⟩⟩
  have answer := alive.step ⟨[], @NetStep.answer _ _ _ _ _ 1 _
    (fun _ => false) [] rfl, fun _ member => absurd member not_mem_nil⟩
  have task := answer.step ⟨[], @NetStep.receive _ _ _ _ _ 1 _ _ none rfl,
    fun _ member => absurd member not_mem_nil⟩
  have last := task.step ⟨[], @NetStep.receive _ _ _ _ _ 1 _ _ none rfl,
    fun _ member => absurd member not_mem_nil⟩
  exact ⟨_, rfl, rfl, master_knows_all last⟩

/-- Node 1 is master twice, and the answer of node 2 to its first round ends the
second one, before node 2 has told the partition it got in between. -/
theorem not_master_knows_all : ¬∀ net : Net Nat,
    (netSystem Nat 3 1 false).Reachable net → KnowsAll net ∧ CountsRight 3 net.daemon := by
  intro claim
  have start : (netSystem Nat 3 1 false).Reachable Net.start := .initial rfl
  have master := start.step ⟨_, @NetStep.alive _ _ _ _ _ 2 (by decide)⟩
  have answer := master.step ⟨[], @NetStep.answer _ _ _ _ _ 2 _ (fun _ => false) [] rfl⟩
  have interim := answer.step ⟨_, @NetStep.alive _ _ _ _ _ 0 (by decide)⟩
  have hold := interim.step ⟨[], @NetStep.hold _ _ _ _ _ 2 5 7
    (fun _ member => absurd member not_mem_nil)⟩
  have again := hold.step ⟨_, @NetStep.dead _ _ _ _ _ 0 (by decide)⟩
  have stale := again.step ⟨[], @NetStep.receive _ _ _ _ _ 2 _ _ none rfl⟩
  have request := stale.step ⟨[], @NetStep.request _ _ _ _ _ 2 6 true⟩
  have pending := request.step ⟨[], @NetStep.receive _ _ _ _ _ 2 _ _ none rfl⟩
  obtain ⟨knows, -⟩ := claim _ pending
  obtain ⟨req, member, -, pid, -⟩ := knows (fun _ => some 7) (fun _ => true)
    (fun none => absurd (congrArg List.length none) (by decide)) 2 rfl (5, 7) (mem_singleton_self _)
  obtain rfl : req = granted ⟨2, 6, true, false⟩ 7 := mem_singleton.mp member
  exact absurd pid (by decide)

end Psmgmt.Mastership
