import Psmgmt.Pmix.FenceTraffic

/-!
# Runs of the fence

The progress of the nodes describes every reachable state: their fence objects,
their calls and what they were given, and the traffic between them.
-/

namespace Psmgmt.Pmix

open BinomialTree Channels List Function Option

variable {Byte : Type*} {size rank : Nat} {blob : Nat → Nat → List Byte}
  {progress : Nat → Progress} {pending : Nat → List (FenceMsg Byte)}

/-! ## The state of a node -/

/-- What the progress of a node says about it. -/
structure Node (size : Nat) (blob : Nat → Nat → List Byte) (rank : Nat)
    (state : Progress) (msgs : List (FenceMsg Byte))
    (fence : Option (Fence Byte)) (calls : Nat) (outs : List (List Byte)) :
    Prop where
  represents : Represents size blob rank state msgs fence
  shape : Shape size rank state
  single : (msgs.map FenceMsg.sRank).Nodup
  unready : state.inside = true → ∀ msg ∈ msgs, ¬ Ready size rank state msg.sRank
  called : calls = state.round + if state.inside then 1 else 0
  completed : outs.length = state.round
  blobs : ∀ round, round < outs.length → ∃ order : List Nat,
    order.Perm (List.range size) ∧ outs[round]? = some (payload blob round order)

/-- Where a node is after a call. -/
def settled (size rank : Nat) (after : Progress) : Progress :=
  if Complete size rank after then .outside (after.round + 1) else after

variable {after : Progress} {source target : Nat}

theorem complete_eq (underway : Underway size rank after)
    (complete : Complete size rank after) :
    after = ⟨after.round, true, degree size rank, (scattered size rank).length⟩ := by
  obtain ⟨round, inside, got, down⟩ := after
  obtain ⟨children, blocks⟩ := complete
  simp only at children blocks
  have here := underway.inside
  simp only at here
  rw [here, children, blocks]

variable {msgs left : List (FenceMsg Byte)}
variable {sends : Sends Byte}

theorem Handled.settled (participant : rank < size) {before : Progress}
    (handled : Handled size blob rank before after msgs left sends) :
    Flows size blob rank before (settled size rank after) sends
      ∧ Reads size blob rank before (settled size rank after) msgs left := by
  by_cases complete : Complete size rank after
  · rw [Pmix.settled, if_pos complete]
    have whole := complete_eq handled.underway complete
    constructor
    · intro target
      have flow := handled.flows target
      rw [whole, sent_complete participant] at flow
      exact flow
    · intro source
      have read := handled.reads source
      rw [whole, received_complete participant] at read
      exact read
  · rw [Pmix.settled, if_neg complete]
    exact ⟨handled.flows, handled.reads⟩

/-- The arrays of the fence object have 16 entries each. -/
def Roomy (fence : Fence Byte) : Prop :=
  fence.msgs.length ≤ 16 ∧ fence.srcs.length ≤ 16 ∧ fence.rcvrs.length ≤ 16

theorem degree_le_15 (rank : Nat) (nodes : size ≤ 32768) : degree size rank ≤ 15 :=
  degree_le (by omega)

theorem roomy_fenceOf (nodes : size ≤ 32768) {state : Progress}
    (children : state.got ≤ degree size rank) (few : msgs.length ≤ 16) :
    Roomy (fenceOf size blob rank state msgs) := by
  have bound := degree_le_15 rank nodes
  refine ⟨few, ?_, ?_⟩ <;>
    simp only [fenceOf, length_map, length_range] <;> omega

attribute [local simp] Progress.outside

/-- A node after a call that left it `after`. -/
theorem node_settled (participant : rank < size) (nodes : size ≤ 32768)
    {before : Progress} {outs : List (List Byte)}
    (handled : Handled size blob rank before after msgs left sends)
    (unready : ∀ other ∈ left, ¬ Ready size rank after other.sRank)
    (empty : Complete size rank after → left = [])
    (count : outs.length = before.round)
    (data : ∀ round, round < outs.length → ∃ order : List Nat,
      order.Perm (List.range size) ∧ outs[round]? = some (payload blob round order)) :
    Node size blob rank (settled size rank after) left
      (outcomeOf size blob rank after left sends).fence (before.round + 1)
      (outs ++ (outcomeOf size blob rank after left sends).fenceOut.toList)
      ∧ ∀ fence ∈ (outcomeOf size blob rank after left sends).freed,
        Roomy fence ∧ fence.msgs = [] := by
  have round := handled.round
  by_cases complete : Complete size rank after
  · have none := empty complete
    subst none
    simp only [Pmix.settled, outcomeOf, if_pos complete, toList_some]
    refine ⟨⟨rfl, ⟨?_, fun _ => rfl⟩, nodup_nil, ?_, ?_, ?_, ?_⟩, ?_⟩
    · intro inside
      exact absurd inside (by simp)
    · intro inside
      exact absurd inside (by simp)
    · simp [round]
    · simp [round, count]
    · intro number inside
      rw [length_append, length_singleton] at inside
      rcases Nat.lt_or_ge number outs.length with old | new
      · obtain ⟨order, permutation, same⟩ := data number old
        exact ⟨order, permutation, by
          rw [getElem?_append_left old, same]⟩
      · have last : number = outs.length := by omega
        refine ⟨held size rank (degree size rank)
          (scattered size rank).length, held_complete participant, ?_⟩
        rw [last, getElem?_concat_length, complete.1, complete.2, count, round]
    · intro fence freed
      rw [mem_some_iff] at freed
      rw [← freed]
      exact ⟨roomy_fenceOf nodes handled.underway.children (Nat.zero_le _),
        rfl⟩
  · simp only [Pmix.settled, outcomeOf, if_neg complete, toList_none, append_nil]
    have inside := handled.underway.inside
    refine ⟨⟨?_, ⟨?_, ?_⟩, handled.waiting.single, fun _ => unready, ?_, ?_, data⟩, ?_⟩
    · rw [Represents, if_pos inside]
    · exact fun _ => ⟨handled.underway, complete⟩
    · intro outside
      rw [inside] at outside
      exact absurd outside (by simp)
    · rw [inside, if_pos rfl, round]
    · rw [count, round]
    · intro fence freed
      exact absurd freed (not_mem_none _)

/-! ## The state of all nodes -/

structure Described (size : Nat) (blob : Nat → Nat → List Byte)
    (cluster : Cluster Byte) (progress : Nat → Progress)
    (pending : Nat → List (FenceMsg Byte)) : Prop where
  traffic : Traffic size blob progress pending cluster.wire
  nodes : ∀ rank, Node size blob rank (progress rank) (pending rank)
    (cluster.fence rank) (cluster.calls rank) (cluster.outs rank)
  freed : ∀ fence ∈ cluster.freed, Roomy fence ∧ fence.msgs = []

theorem Described.start : ∃ progress pending,
    Described size blob (Cluster.start : Cluster Byte) progress pending := by
  refine ⟨fun _ => .outside 0, fun _ => [], ?_, ?_, ?_⟩
  · intro source target
    have nothing : received size target (.outside 0) source = 0 := by
      simp [received]
    have none : sent size source (.outside 0) target = 0 := by
      simp [sent]
    rw [nothing, none]
    exact ⟨Nat.le_refl 0, rfl⟩
  · intro rank
    refine ⟨rfl, ⟨?_, fun _ => rfl⟩, nodup_nil, ?_, rfl, rfl, ?_⟩
    · intro inside
      exact absurd inside (by simp)
    · intro inside
      exact absurd inside (by simp)
    · intro round inside
      exact absurd inside (Nat.not_lt_zero round)
  · intro fence freed
    exact absurd freed not_mem_nil

variable {cluster : Cluster Byte}

theorem Described.freed_with (described : Described size blob cluster progress pending) {rank : Nat}
    {base : Cluster Byte} (outcome : Outcome Byte) (none : outcome.freed = Option.none)
    (same : base.freed = cluster.freed) :
    ∀ fence ∈ (base.put rank outcome).freed, Roomy fence ∧ fence.msgs = [] := by
  intro fence member
  rw [Cluster.put] at member
  simp only [none, toList_none, append_nil, same] at member
  exact described.freed fence member

section

variable {cluster : Cluster Byte} {msg : FenceMsg Byte}
  {rest : List (FenceMsg Byte)}
  (described : Described size blob cluster progress pending)
  (head : cluster.wire source target = msg :: rest)

include described head

/-- An arriving message is the only one of its sender. -/
theorem Described.single_arrival : ((pending target ++ [msg]).map FenceMsg.sRank).Nodup := by
  have member : msg ∈ cluster.wire source target := by
    rw [head]
    exact mem_cons_self
  have rank : msg.sRank = source := described.traffic.on_wire member
  apply single_arrive (described.nodes target).single
  rw [rank]
  exact described.traffic.fresh (fun rank => (described.nodes rank).shape)
    (described.nodes target).unready head

theorem Described.participant : target < size := by
  have count := congrArg List.length (described.traffic source target).2
  rw [head, length_append, length_cons, length_window] at count
  have some : 0 < sent size source (progress source) target := by omega
  exact (participants_of_sent some).2

end

theorem described_settled (participant : rank < size) (nodes : size ≤ 32768)
    {outcome : Outcome Byte}
    (traffic : Traffic size blob progress pending cluster.wire)
    (others : ∀ other, other ≠ rank → Node size blob other (progress other)
      (pending other) (cluster.fence other) (cluster.calls other)
      (cluster.outs other))
    (freed : ∀ fence ∈ cluster.freed, Roomy fence ∧ fence.msgs = [])
    (shape : Shape size rank (progress rank))
    (single : ((pending rank).map FenceMsg.sRank).Nodup)
    (handled : Handled size blob rank (progress rank) after (pending rank)
      left sends)
    (unready : ∀ other ∈ left, ¬ Ready size rank after other.sRank)
    (result : outcome = outcomeOf size blob rank after left sends)
    (calls : cluster.calls rank = (progress rank).round + 1)
    (outs : (cluster.outs rank).length = (progress rank).round)
    (data : ∀ round, round < (cluster.outs rank).length →
      ∃ order : List Nat, order.Perm (List.range size)
        ∧ (cluster.outs rank)[round]? = some (payload blob round order)) :
    Described size blob (cluster.put rank outcome) (update progress rank (settled size rank after))
      (update pending rank left) := by
  have empty := left_nil traffic shape single handled unready
  obtain ⟨node, closed⟩ := node_settled participant nodes handled unready empty outs data
  obtain ⟨flows, reads⟩ := handled.settled participant
  have same_sends : outcome.sends = sends := by
    rw [result, outcomeOf]
    split <;> rfl
  refine ⟨?_, ?_, ?_⟩
  · rw [Cluster.put, same_sends]
    exact traffic.advance flows reads
  · intro other
    by_cases this : other = rank
    · subst this
      simp only [Cluster.put, update_self, calls, result]
      exact node
    · simp only [Cluster.put, update_of_ne this]
      exact others other this
  · intro fence member
    rcases mem_append.mp member with old | new
    · exact freed fence old
    · rw [mem_toList, result] at new
      exact closed fence new

theorem post_nil (wire : Nat → Nat → List (FenceMsg Byte)) (rank : Nat) :
    post wire rank [] = wire := by
  funext source target
  simp [post]

theorem post_append (wire : Nat → Nat → List (FenceMsg Byte)) (rank : Nat)
    (first second : Sends Byte) :
    post wire rank (first ++ second) = post (post wire rank first) rank second := by
  funext source target
  unfold post
  split
  · rw [posted_append, append_assoc]
  · rfl

theorem entered_shape (participant : rank < size) (several : 2 ≤ size)
    (round : Nat) :
    Underway size rank (.entered round) ∧ ¬ Complete size rank (.entered round) := by
  refine ⟨⟨rfl, Nat.zero_le _, Nat.zero_le _, ?_⟩, ?_⟩
  · intro some
    exact absurd some (Nat.lt_irrefl 0)
  · rintro ⟨leaf, alone⟩
    simp only [Progress.entered] at leaf alone
    rcases Nat.eq_zero_or_pos rank with zero | positive
    · have child : 0 < degree size rank := by
        rw [lt_degree, zero]
        exact ⟨dvd_zero _, by omega⟩
      omega
    · have some := scattered_pos positive participant
      omega

theorem reads_enter (round : Nat) (msgs : List (FenceMsg Byte)) :
    Reads size blob rank (.outside round) (.entered round) msgs msgs := by
  have same : ∀ source, received size rank (.entered round) source
      = received size rank (.outside round) source := fun _ => rfl
  intro source
  rw [same]
  exact Reads.refl (.outside round) msgs source

theorem put_sends (cluster : Cluster Byte) (rank : Nat) (first : Sends Byte)
    (outcome : Outcome Byte) :
    cluster.put rank { outcome with sends := first ++ outcome.sends }
      = { cluster with wire := post cluster.wire rank first }.put rank
          outcome := by
  simp only [Cluster.put, post_append]

/-- A call of `fenceIn` keeps the description. -/
theorem described_enter (several : 2 ≤ size) (nodes : size ≤ 32768) (participant : rank < size)
    (described : Described size blob cluster progress pending)
    (idle : cluster.calls rank = (cluster.outs rank).length) :
    ∃ progress pending, Described size blob
      (cluster.enter size rank (blob rank (cluster.calls rank))) progress pending := by
  have node := described.nodes rank
  have outside : (progress rank).inside = false := by
    have called := node.called
    rw [idle, node.completed] at called
    cases inside : (progress rank).inside with
    | false => rfl
    | true =>
      rw [inside, if_pos rfl] at called
      omega
  have state := node.shape.outside outside
  obtain ⟨round, at_round⟩ : ∃ round, progress rank = .outside round := ⟨_, state⟩
  have called : cluster.calls rank = round := by
    rw [idle, node.completed, at_round]
    rfl
  have represents := node.represents
  rw [at_round] at represents
  have result := fenceIn_outside participant several represents
  obtain ⟨underway, incomplete⟩ := entered_shape participant several round
  have traffic : Traffic size blob (update progress rank (.entered round))
      (update pending rank (pending rank))
      (post cluster.wire rank (announce size blob rank round 0)) :=
    described.traffic.advance
    (by rw [at_round]; exact flows_enter participant round)
    (by rw [at_round]; exact reads_enter round _)
  rw [update_eq_self] at traffic
  rw [Cluster.enter, called, result]
  by_cases empty : pending rank = []
  · -- nothing was postponed
    rw [if_neg (not_not.mpr empty)]
    refine ⟨_, _, traffic, ?_, described.freed_with _ rfl rfl⟩
    intro other
    by_cases this : other = rank
    · subst this
      simp only [Cluster.put, update_self, toList_none, append_nil]
      refine ⟨?_, ⟨fun _ => ⟨underway, incomplete⟩, ?_⟩, node.single, ?_, rfl, ?_, node.blobs⟩
      · rw [Represents, if_pos (by rfl), empty]
      · intro never
        exact absurd never (by simp [Progress.entered])
      · intro _ msg member
        rw [empty] at member
        exact absurd member not_mem_nil
      · rw [node.completed, at_round]
        rfl
    · simp only [Cluster.put, update_of_ne this]
      exact described.nodes other
  · rw [if_pos empty, put_sends]
    have single := node.single
    have here : update progress rank (.entered round) rank = .entered round := update_self ..
    have waiting := traffic.waiting single (by rw [here]; exact incomplete)
    rw [here] at waiting
    obtain ⟨after, left, sends, check, handled, unready⟩ :=
      checkFence_spec participant (by omega) empty underway waiting
    refine ⟨_, _, described_settled participant nodes traffic ?_
      described.freed ?_ single (by rw [here]; exact handled) unready check ?_ ?_
      node.blobs⟩
    · intro other this
      rw [update_of_ne this]
      simp only [update_of_ne this]
      exact described.nodes other
    · rw [here]
      exact ⟨fun _ => ⟨underway, incomplete⟩, fun never =>
        absurd never (by simp [Progress.entered])⟩
    · rw [here]
      exact update_self ..
    · rw [here, node.completed, at_round]
      rfl

theorem described_deliver (nodes : size ≤ 32768) {msg : FenceMsg Byte} {rest : List (FenceMsg Byte)}
    (described : Described size blob cluster progress pending)
    (head : cluster.wire source target = msg :: rest) :
    ∃ progress pending, Described size blob
      (cluster.deliver source target msg rest) progress pending := by
  have node := described.nodes target
  have traffic := described.traffic.arrive head
  have single := described.single_arrival head
  have participant := described.participant head
  have here : update pending target (pending target ++ [msg]) target
      = pending target ++ [msg] := update_self ..
  rw [Cluster.deliver]
  cases inside : (progress target).inside with
  | false =>
    have state := node.shape.outside inside
    have represents := node.represents
    rw [state] at represents
    rw [handleFenceData_outside represents]
    refine ⟨progress,
      update pending target (pending target ++ [msg]), ?_, ?_,
      described.freed_with _ rfl rfl⟩
    · rw [Cluster.put]
      simp only [post_nil]
      exact traffic
    · intro other
      by_cases this : other = target
      · subst this
        simp only [Cluster.put, update_self, toList_none, append_nil]
        refine ⟨?_, node.shape, single, ?_, node.called, node.completed, node.blobs⟩
        · rw [Represents, inside]
          rfl
        · intro never
          rw [inside] at never
          exact absurd never (by simp)
      · simp only [Cluster.put, update_of_ne this]
        exact described.nodes other
  | true =>
    obtain ⟨underway, incomplete⟩ := node.shape.inside inside
    have arrived : ((update pending target
        (pending target ++ [msg]) target).map FenceMsg.sRank).Nodup := by
      rw [here]
      exact single
    have waiting := traffic.waiting arrived incomplete
    rw [here] at waiting
    rw [handleFenceData_inside participant inside node.represents]
    obtain ⟨after, left, sends, check, handled, unready⟩ :=
      checkFence_spec participant (by omega) (by simp) underway waiting
    refine ⟨_, _, described_settled participant nodes traffic ?_
      described.freed node.shape arrived
      (by rw [here]; exact handled) unready check ?_ node.completed
      node.blobs⟩
    · intro other this
      rw [update_of_ne this]
      exact described.nodes other
    · have called := node.called
      rwa [inside, if_pos rfl] at called

theorem reachable_described (several : 2 ≤ size) (nodes : size ≤ 32768)
    (reachable : (fenceSystem size blob).Reachable cluster) :
    ∃ progress pending, Described size blob cluster progress pending := by
  refine @TransitionSystem.Invariant.reachable _ _
    (fun cluster => ∃ progress pending,
      Described size blob cluster progress pending) ⟨?_, ?_⟩ _ reachable
  · rintro state rfl
    exact Described.start
  · rintro before after ⟨progress, pending, described⟩ step
    cases step with
    | enter participant idle => exact described_enter several nodes participant described idle
    | deliver head => exact described_deliver nodes described head

end Psmgmt.Pmix
