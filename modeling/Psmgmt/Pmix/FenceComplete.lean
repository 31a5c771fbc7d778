import Psmgmt.Pmix.FenceRun

/-!
# Every fence completes

There is room for all messages, and a fence that all nodes have entered has
completed on all of them once nothing is under way.
-/

namespace Psmgmt.Pmix

open BinomialTree Channels List Function Option

variable {Byte : Type*} {size rank : Nat} {blob : Nat → Nat → List Byte}
  {progress : Nat → Progress} {pending : Nat → List (FenceMsg Byte)}

/-! ## Room for the messages -/

theorem pending_length {msgs : List (FenceMsg Byte)} {wire : Nat → Nat → List (FenceMsg Byte)}
    (traffic : Traffic size blob progress pending wire) (waiting : pending rank = msgs)
    (single : (msgs.map FenceMsg.sRank).Nodup) :
    msgs.length ≤ degree size rank + 1 := by
  have neighbors : msgs.map FenceMsg.sRank
      ⊆ parent rank :: (List.range (degree size rank)).map (child rank) := by
    intro source inside
    obtain ⟨msg, member, rfl⟩ := mem_map.mp inside
    rw [← waiting] at member
    have unread := traffic.unread member
    rcases neighbor_cases size rank msg.sRank with
      ⟨-, above⟩ | ⟨i, source, below⟩ | ⟨up, down⟩
    · rw [above]
      exact mem_cons_self
    · rw [below]
      exact mem_cons_of_mem _ (mem_map.mpr ⟨i, mem_range.mpr source, rfl⟩)
    · rw [sent_other down up] at unread
      omega
  have count := (subperm_of_subset single neighbors).length_le
  simpa using count

theorem Node.object {state : Progress} {msgs : List (FenceMsg Byte)} {found : Option (Fence Byte)}
    {calls : Nat} {outs : List (List Byte)} (node : Node size blob rank state msgs found calls outs)
    (nodes : size ≤ 32768) {fence : Fence Byte} (object : found = some fence) :
    fence.msgs = msgs ∧ (msgs.length ≤ 16 → Roomy fence) := by
  have represents := node.represents
  rw [Represents, object] at represents
  cases inside : state.inside with
  | true =>
    rw [inside, if_pos rfl, some_inj] at represents
    rw [represents]
    exact ⟨rfl, roomy_fenceOf nodes (node.shape.inside inside).1.children⟩
  | false =>
    rw [inside, if_neg (by simp), getD_some] at represents
    rw [represents]
    exact ⟨rfl, fun few => ⟨few, Nat.zero_le _, Nat.zero_le _⟩⟩

/-! ## Nothing is left waiting -/

/-- With nothing under way a node has read all it waits for. -/
theorem all_read {cluster : Cluster Byte} {source : Nat}
    (described : Described size blob cluster progress pending)
    (quiet : ∀ source target, cluster.wire source target = [])
    (inside : (progress rank).inside = true) (ready : Ready size rank (progress rank) source) :
    sent size source (progress source) rank ≤ received size rank (progress rank) source := by
  by_contra more
  have whole := (described.traffic source rank).2
  have count := congrArg List.length whole
  rw [quiet, append_nil, length_window] at count
  obtain ⟨msg, member⟩ := exists_mem_of_length_pos (l := ofSource source (pending rank)) (by omega)
  rw [ofSource, mem_filter, decide_eq_true_eq] at member
  refine (described.nodes rank).unready inside msg member.1 ?_
  rw [member.2]
  exact ready

section Quiet

variable {cluster : Cluster Byte} {round last : Nat}

section

variable (described : Described size blob cluster progress pending)
  (quiet : ∀ source target, cluster.wire source target = [])
  (slowest : ∀ rank, rank < size → round ≤ (progress rank).round)
  (inside : ∀ rank, rank < size → (progress rank).round = round → (progress rank).inside = true)
  (participant : rank < size)

include described quiet slowest inside participant

/-- The upward messages have all been handled, from the leaves up. -/
theorem all_gathered (here : (progress rank).round = round) :
    (progress rank).got = degree size rank := by
  obtain ⟨above, count⟩ : ∃ above, size = rank + above := ⟨size - rank, by omega⟩
  induction above using Nat.strong_induction_on generalizing rank with
  | _ above induction =>
    have entered := inside rank participant here
    have children := ((described.nodes rank).shape.inside entered).1.children
    rcases Nat.lt_or_ge (progress rank).got (degree size rank) with more | all
    · exfalso
      have read := all_read described quiet entered (.inl ⟨more, rfl⟩)
      have edge := isChild_child more
      rw [received_child more, if_neg (Nat.lt_irrefl _), sent, if_pos edge]
        at read
      have below := edge.2.1
      have order := slowest _ below
      have larger := edge.lt
      have same : (progress (child rank (progress rank).got)).round = round := by omega
      have full := induction (size - child rank (progress rank).got)
        (by omega) below same (by omega)
      rw [if_pos ⟨inside _ below same, full⟩] at read
      omega
    · omega

/-- Then all blocks from the root down. -/
theorem all_scattered : round < (progress rank).round := by
  induction rank using Nat.strong_induction_on with
  | _ rank induction =>
    have order := slowest rank participant
    by_contra same
    have here : (progress rank).round = round := by omega
    have gathered := all_gathered described quiet slowest inside participant here
    have entered := inside rank participant here
    obtain ⟨underway, incomplete⟩ := (described.nodes rank).shape.inside entered
    have blocks := underway.blocks
    apply incomplete
    refine ⟨gathered, ?_⟩
    rcases Nat.eq_zero_or_pos rank with zero | positive
    · rw [zero, scattered_root, length_nil] at blocks ⊢
      omega
    · have above := induction (parent rank) (parent_lt positive)
        (Nat.lt_trans (parent_lt positive) participant)
      have edge := isChild_parent positive participant
      have read := all_read described quiet entered (.inr ⟨gathered, positive, rfl⟩)
      rw [received_parent positive participant, sent, if_neg edge.asymm, if_pos edge, here] at read
      have rounds : (round + 1) * (scattered size rank).length
          ≤ (progress (parent rank)).round * (scattered size rank).length :=
        Nat.mul_le_mul_right _ above
      rw [Nat.succ_mul] at rounds
      omega

end

/-- With nothing under way all nodes have completed the fences all entered. -/
theorem all_completed (described : Described size blob cluster progress pending)
    (quiet : ∀ source target, cluster.wire source target = [])
    (called : ∀ rank, rank < size → last < cluster.calls rank)
    (participant : rank < size) : last < (progress rank).round := by
  have slowest : ∀ round, round ≤ last + 1 → ∀ rank, rank < size →
      round ≤ (progress rank).round := by
    intro round
    induction round with
    | zero => exact fun _ _ _ => Nat.zero_le _
    | succ round induction =>
      intro bound rank participant
      refine all_scattered described quiet (induction (by omega)) ?_ participant
      intro rank participant here
      have entered := called rank participant
      rw [(described.nodes rank).called, here] at entered
      by_contra outside
      rw [if_neg outside] at entered
      omega
  exact slowest (last + 1) (Nat.le_refl _) rank participant

end Quiet

/-! ## The fence -/

/-- Each node is given the blobs of all nodes once for each fence it enters, its
arrays never overflow, nothing is left over, and no fence gets stuck. -/
theorem fence_completes (several : 2 ≤ size) (nodes : size ≤ 32768) {cluster : Cluster Byte}
    (reachable : (fenceSystem size blob).Reachable cluster) :
    (∀ rank, (cluster.outs rank).length ≤ cluster.calls rank
        ∧ cluster.calls rank ≤ (cluster.outs rank).length + 1)
      ∧ (∀ rank round data, (cluster.outs rank)[round]? = some data →
          ∃ order : List Nat, order.Perm (List.range size)
            ∧ data = order.flatMap fun other => blob other round)
      ∧ (∀ rank fence, cluster.fence rank = some fence → Roomy fence)
      ∧ (∀ source target msg rest, cluster.wire source target = msg :: rest →
          ∀ fence, cluster.fence target = some fence → fence.msgs.length < 16)
      ∧ (∀ fence ∈ cluster.freed, Roomy fence ∧ fence.msgs = [])
      ∧ (∀ round, (∀ rank, rank < size → round < cluster.calls rank) →
          (∀ source target, cluster.wire source target = []) →
          ∀ rank, rank < size → round < (cluster.outs rank).length) := by
  obtain ⟨progress, pending, described⟩ := reachable_described several nodes reachable
  have few : ∀ rank, (pending rank).length ≤ 16 := by
    intro rank
    have bound := degree_le_15 rank nodes
    have count := pending_length described.traffic rfl (described.nodes rank).single
    omega
  refine ⟨?_, ?_, ?_, ?_, described.freed, ?_⟩
  · intro rank
    have node := described.nodes rank
    rw [node.called, node.completed]
    split <;> omega
  · intro rank round data given
    have inside := (List.getElem?_eq_some_iff.mp given).1
    obtain ⟨order, permutation, same⟩ := (described.nodes rank).blobs round inside
    rw [given, some_inj] at same
    exact ⟨order, permutation, same⟩
  · intro rank fence object
    exact ((described.nodes rank).object nodes object).2 (few rank)
  · intro source target msg rest head fence object
    have bound := degree_le_15 target nodes
    have arrived : update pending target (pending target ++ [msg])
        target = pending target ++ [msg] := update_self ..
    have count := pending_length (described.traffic.arrive head) arrived
      (described.single_arrival head)
    rw [length_append, length_singleton] at count
    rw [((described.nodes target).object nodes object).1]
    omega
  · intro round called quiet rank participant
    rw [(described.nodes rank).completed]
    exact all_completed described quiet called participant

/-- Two nodes in their first fence. -/
theorem fence_completes_pair : ∃ cluster : Cluster Nat,
    (fenceSystem 2 fun rank round => [10 * round + rank]).Reachable cluster
      ∧ cluster.outs 0 = [[0, 1]] ∧ cluster.outs 1 = [[1, 0]]
      ∧ ∃ order : List Nat, order.Perm (List.range 2)
        ∧ [1, 0] = order.flatMap fun other => [10 * 0 + other] := by
  have both : (fenceSystem 2 fun rank round => [10 * round + rank]).Reachable
      ((Cluster.start.enter 2 0 [0]).enter 2 1 [1]) :=
    .step (.step (.initial rfl) (.enter (by decide) rfl)) (.enter (by decide) rfl)
  have first := both.step (@FenceStep.deliver _ _ _ _ 0 1 ⟨0, 0, 1, [0]⟩ [] rfl)
  have second := first.step (@FenceStep.deliver _ _ _ _ 1 0 ⟨1, 1, 1, [1]⟩ [] rfl)
  exact ⟨_, second, rfl, rfl, (fence_completes (by decide) (by decide) second).2.1 1 0 [1, 0] rfl⟩

end Psmgmt.Pmix
