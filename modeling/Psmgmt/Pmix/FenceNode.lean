import Psmgmt.Pmix.FenceProgress

/-!
# One node of the fence

`fenceIn` sets up the tree of the node.  `checkFence` handles the waiting
messages in the fixed order of the node, until the next one has not arrived.
-/

namespace Psmgmt.Pmix

open BinomialTree Channels
open List hiding getElem?_eq_some_iff

variable {Byte : Type*} {size rank : Nat} {blob : Nat → Nat → List Byte}

/-! ## The tree set up by `fenceIn` -/

theorem treeLoop_spec (participant : rank < size) {fuel i : Nat} (enough : size < fuel + i)
    (divides : 0 < rank → i ≤ level rank) (root : rank = 0 → i ≤ degree size rank) :
    treeLoop size rank fuel (2 ^ i) ((List.range (min i (degree size rank))).map (child rank))
      = ((List.range (degree size rank)).map (child rank),
          (treeLoop size rank fuel (2 ^ i)
            ((List.range (min i (degree size rank))).map (child rank))).2)
      ∧ (0 < rank → (treeLoop size rank fuel (2 ^ i)
          ((List.range (min i (degree size rank))).map (child rank))).2 = 2 ^ level rank) := by
  induction fuel generalizing i with
  | zero =>
    exfalso
    have large : i < 2 ^ i := Nat.lt_two_pow_self
    rcases Nat.eq_zero_or_pos rank with zero | positive
    · have bound : degree size rank ≤ size :=
        degree_le (Nat.le_of_lt Nat.lt_two_pow_self)
      have small := root zero
      omega
    · have power := pow_level_le positive
      have smaller : 2 ^ i ≤ 2 ^ level rank := Nat.pow_le_pow_right (by omega) (divides positive)
      omega
  | succ fuel induction =>
    have double : 2 * 2 ^ i = 2 ^ (i + 1) := by rw [Nat.pow_succ]; omega
    have divisible : rank % (2 * 2 ^ i) = 0 ↔ 2 ^ (i + 1) ∣ rank := by
      rw [double, Nat.dvd_iff_mod_eq_zero]
    rw [treeLoop]
    by_cases odd : rank % (2 * 2 ^ i) ≠ 0
    · have fewer : degree size rank ≤ i := by
        apply Nat.le_of_not_lt
        intro more
        exact odd (divisible.mpr (lt_degree.mp more).1)
      rw [if_pos odd, Nat.min_eq_right fewer]
      refine ⟨rfl, fun positive => ?_⟩
      have lowest : ¬ i + 1 ≤ level rank := by
        rw [← pow_dvd_iff positive, ← divisible]
        exact odd
      have equal : i = level rank := by
        have upper := divides positive
        omega
      rw [equal]
    · have even := divisible.mp (not_not.mp odd)
      have deeper : 0 < rank → i + 1 ≤ level rank :=
        fun positive => (pow_dvd_iff positive).mp even
      rw [if_neg odd]
      by_cases below : rank + 2 ^ i < size
      · have more : i < degree size rank := lt_degree.mpr ⟨even, below⟩
        have longer : (List.range (min i (degree size rank))).map (child rank) ++ [rank + 2 ^ i]
            = (List.range (min (i + 1) (degree size rank))).map (child rank) := by
          rw [Nat.min_eq_left (Nat.le_of_lt more), Nat.min_eq_left more, range_succ, map_append]
          rfl
        rw [if_pos below, double, longer]
        exact induction (by omega) deeper (fun _ => more)
      · have fewer : degree size rank ≤ i := by
          apply Nat.le_of_not_lt
          intro more
          exact below (lt_degree.mp more).2
        rw [if_neg below]
        by_cases zero : rank = 0
        · rw [if_pos zero, Nat.min_eq_right fewer]
          exact ⟨rfl, fun positive => absurd zero (by omega)⟩
        · have same : min i (degree size rank) = min (i + 1) (degree size rank) := by omega
          rw [if_neg zero, double, same]
          exact induction (by omega) deeper (fun root => absurd root zero)

theorem treeLoop_start (participant : rank < size) : treeLoop size rank (size + 1) 1 []
      = ((List.range (degree size rank)).map (child rank), (treeLoop size rank (size + 1) 1 []).2)
      ∧ (0 < rank → (treeLoop size rank (size + 1) 1 []).2 = 2 ^ level rank) := by
  have whole := @treeLoop_spec size rank participant (size + 1) 0
    (by omega) (fun _ => Nat.zero_le _) (fun _ => Nat.zero_le _)
  simpa using whole

/-! ## What is waiting at a node -/

/-- The node is inside a fence and got there in its fixed order. -/
structure Underway (size rank : Nat) (progress : Progress) : Prop where
  inside : progress.inside = true
  children : progress.got ≤ degree size rank
  blocks : progress.down ≤ (scattered size rank).length
  order : 0 < progress.down → progress.got = degree size rank

def Complete (size rank : Nat) (progress : Progress) : Prop :=
  progress.got = degree size rank ∧ progress.down = (scattered size rank).length

instance (size rank : Nat) (progress : Progress) : Decidable (Complete size rank progress) :=
  inferInstanceAs (Decidable (_ ∧ _))

/-- The next message the node reads is one from this rank. -/
def Ready (size rank : Nat) (progress : Progress) (source : Nat) : Prop :=
  (progress.got < degree size rank ∧ source = child rank progress.got)
    ∨ (progress.got = degree size rank ∧ 0 < rank ∧ source = parent rank)

/-- At most one message of each neighbor is waiting, and it is the next one on
its channel. -/
structure Waiting (size : Nat) (blob : Nat → Nat → List Byte) (rank : Nat)
    (progress : Progress) (msgs : List (FenceMsg Byte)) : Prop where
  single : (msgs.map FenceMsg.sRank).Nodup
  small : ∀ msg ∈ msgs, msg.sRank < size
  heads : ∀ msg ∈ msgs, msg = stream size blob msg.sRank rank
    (received size rank progress msg.sRank)
  quiet : Complete size rank progress → ∀ msg ∈ msgs, ¬ Ready size rank progress msg.sRank

/-- The messages with this sender rank. -/
def ofSource (source : Nat) (msgs : List (FenceMsg Byte)) : List (FenceMsg Byte) :=
  msgs.filter fun msg => msg.sRank = source

/-- What was handled is what the progress accounts for. -/
def Reads (size : Nat) (blob : Nat → Nat → List Byte) (rank : Nat)
    (before after : Progress) (msgs left : List (FenceMsg Byte)) : Prop :=
  ∀ source, received size rank before source ≤ received size rank after source
      ∧ ofSource source msgs
        = window (stream size blob source rank) (received size rank before source)
            (received size rank after source)
          ++ ofSource source left

theorem Reads.refl (progress : Progress) (msgs : List (FenceMsg Byte)) :
    Reads size blob rank progress progress msgs msgs := by
  intro source
  exact ⟨Nat.le_refl _, by rw [window_self, nil_append]⟩

theorem Reads.trans {first second third : Progress} {msgs left rest : List (FenceMsg Byte)}
    (start : Reads size blob rank first second msgs left)
    (next : Reads size blob rank second third left rest) :
    Reads size blob rank first third msgs rest := by
  intro source
  refine ⟨Nat.le_trans (start source).1 (next source).1, ?_⟩
  rw [(start source).2, (next source).2, ← append_assoc,
    window_append (start source).1 (next source).1]

variable {m source round got : Nat} {progress : Progress}

theorem eraseIdx_split {msgs : List (FenceMsg Byte)} {msg : FenceMsg Byte}
    (found : msgs[m]? = some msg) :
    ∃ front back, msgs = front ++ msg :: back ∧ msgs.eraseIdx m = front ++ back := by
  obtain ⟨below, rfl⟩ := List.getElem?_eq_some_iff.mp found
  refine ⟨msgs.take m, msgs.drop (m + 1), ?_, List.eraseIdx_eq_take_drop_succ msgs m⟩
  rw [← List.drop_eq_getElem_cons below, List.take_append_drop]

theorem reads_one {before : Progress} (after : Progress)
    {msgs : List (FenceMsg Byte)} {msg : FenceMsg Byte}
    (waiting : Waiting size blob rank before msgs) (found : msgs[m]? = some msg)
    (next : received size rank after msg.sRank = received size rank before msg.sRank + 1)
    (same : ∀ source, source ≠ msg.sRank →
      received size rank after source = received size rank before source) :
    Reads size blob rank before after msgs (msgs.eraseIdx m)
      ∧ ∀ other ∈ msgs.eraseIdx m, other.sRank ≠ msg.sRank := by
  have head := waiting.heads msg (List.mem_of_getElem? found)
  have single := waiting.single
  obtain ⟨front, back, rfl, rest⟩ := eraseIdx_split found
  rw [rest]
  rw [map_append, map_cons, nodup_middle, nodup_cons, ← map_append] at single
  have others : ∀ other ∈ front ++ back, other.sRank ≠ msg.sRank := by
    intro other member equal
    exact single.1 (mem_map.mpr ⟨other, member, equal⟩)
  refine ⟨fun source => ?_, others⟩
  by_cases this : source = msg.sRank
  · subst this
    have gone : ofSource msg.sRank (front ++ back) = [] := by
      simp only [ofSource, filter_eq_nil_iff, decide_eq_true_eq]
      exact others
    rw [ofSource, filter_append, append_eq_nil_iff] at gone
    rw [next, window_one, ← head]
    refine ⟨Nat.le_succ _, ?_⟩
    rw [ofSource, ofSource, filter_append, filter_append, filter_cons, gone.1, gone.2]
    simp
  · have differs : ¬ msg.sRank = source := fun equal => this equal.symm
    rw [same source this, window_self, nil_append]
    refine ⟨Nat.le_refl _, ?_⟩
    rw [ofSource, ofSource, filter_append, filter_append,
      filter_cons, if_neg (by simpa using differs)]

/-! ## One pass of the loop -/

theorem isUpward_fenceOf {msgs : List (FenceMsg Byte)} {msg : FenceMsg Byte} :
    isUpward (fenceOf size blob rank progress msgs) msg
      ↔ progress.got < degree size rank ∧ msg.sRank = child rank progress.got := by
  simp only [isUpward, fenceOf, getElem?_map, Option.map_eq_some_iff,
    List.getElem?_eq_some_iff, length_range, getElem_range]
  constructor
  · rintro ⟨_, ⟨below, rfl⟩, same⟩
    exact ⟨below, same.symm⟩
  · rintro ⟨below, same⟩
    exact ⟨_, ⟨below, rfl⟩, same.symm⟩

theorem isDownward_fenceOf {msgs : List (FenceMsg Byte)} {msg : FenceMsg Byte}
    (nodes : size ≤ 65535) (small : msg.sRank < size) :
    isDownward (fenceOf size blob rank progress msgs) msg
      ↔ progress.got = degree size rank ∧ 0 < rank ∧ msg.sRank = parent rank := by
  simp only [isDownward, fenceOf, length_map, length_range]
  by_cases zero : rank = 0
  · rw [if_pos zero]
    constructor
    · rintro ⟨same, -⟩
      omega
    · rintro ⟨-, positive, -⟩
      omega
  · rw [if_neg zero]
    constructor
    · rintro ⟨same, all⟩
      exact ⟨all, by omega, same⟩
    · rintro ⟨all, -, same⟩
      exact ⟨same, all⟩

theorem ready_iff {progress : Progress} {msgs : List (FenceMsg Byte)}
    {msg : FenceMsg Byte} (nodes : size ≤ 65535) (small : msg.sRank < size) :
    isUpward (fenceOf size blob rank progress msgs) msg
        ∨ isDownward (fenceOf size blob rank progress msgs) msg
      ↔ Ready size rank progress msg.sRank := by
  rw [isUpward_fenceOf, isDownward_fenceOf nodes small]
  rfl

attribute [local simp] fenceOf

theorem sendAccumulated_fenceOf {msgs : List (FenceMsg Byte)}
    (none : progress.down = 0) :
    sendAccumulated (fenceOf size blob rank progress msgs)
      = announce size blob rank progress.round progress.got := by
  unfold sendAccumulated announce
  by_cases more : progress.got < degree size rank
  · have next : (fenceOf size blob rank progress msgs).srcs[
        (fenceOf size blob rank progress msgs).nGot]?
        = some (child rank progress.got) := by
      simp [more]
    rw [next, if_pos more]
    simp [sendFenceData, letter, none]
  · have last : (fenceOf size blob rank progress msgs).srcs[
        (fenceOf size blob rank progress msgs).nGot]? = Option.none := by
      simp only [fenceOf, getElem?_eq_none_iff, length_map, length_range]
      omega
    rw [last, if_neg more]
    by_cases positive : 0 < rank
    · have other : rank ≠ 0 := by omega
      simp [sendFenceData, letter, none, positive, other]
    · have zero : rank = 0 := by omega
      simp [zero]

@[simp] theorem sendAccumulated_rcvrs (fence : Fence Byte)
    (rcvrs : List Nat) :
    sendAccumulated { fence with rcvrs := rcvrs } = sendAccumulated fence :=
  rfl

structure Handled (size : Nat) (blob : Nat → Nat → List Byte) (rank : Nat)
    (before after : Progress) (msgs left : List (FenceMsg Byte))
    (sends : Sends Byte) : Prop where
  round : after.round = before.round
  flows : Flows size blob rank before after sends
  reads : Reads size blob rank before after msgs left
  members : ∀ msg ∈ left, msg ∈ msgs
  underway : Underway size rank after
  waiting : Waiting size blob rank after left

theorem Handled.trans {first second third : Progress} {msgs left rest : List (FenceMsg Byte)}
    {sends more : Sends Byte} (start : Handled size blob rank first second msgs left sends)
    (next : Handled size blob rank second third left rest more) :
    Handled size blob rank first third msgs rest (sends ++ more) where
  round := next.round.trans start.round
  flows := start.flows.trans next.flows
  reads := start.reads.trans next.reads
  members := fun msg member => start.members msg (next.members msg member)
  underway := next.underway
  waiting := next.waiting

theorem Waiting.rest {before after : Progress}
    {msgs left : List (FenceMsg Byte)}
    (waiting : Waiting size blob rank before msgs)
    (part : List.Sublist left msgs) (others : ∀ msg ∈ left, msg.sRank ≠ source)
    (same : ∀ other, other ≠ source →
      received size rank after other = received size rank before other)
    (quiet : Complete size rank after → ∀ msg ∈ left, ¬ Ready size rank after msg.sRank) :
    Waiting size blob rank after left where
  single := waiting.single.sublist (part.map _)
  small := fun msg member => waiting.small msg (part.subset member)
  heads := by
    intro msg member
    rw [same _ (others msg member)]
    exact waiting.heads msg (part.subset member)
  quiet := quiet

theorem received_upward (participant : rank < size)
    (differs : source ≠ child rank got) :
    received size rank ⟨round, true, got + 1, 0⟩ source
      = received size rank ⟨round, true, got, 0⟩ source := by
  rcases neighbor_cases size rank source with
    ⟨positive, rfl⟩ | ⟨i, child, rfl⟩ | ⟨up, down⟩
  · rw [received_parent positive participant, received_parent positive participant]
  · have other : i ≠ got := fun same => differs (by rw [same])
    have bounds : i < got + 1 ↔ i < got := by omega
    simp only [received_child child, bounds]
  · rw [received_other up down, received_other up down]

theorem received_downward {down : Nat}
    (differs : 0 < rank → source ≠ parent rank) :
    received size rank ⟨round, true, degree size rank, down + 1⟩ source
      = received size rank ⟨round, true, degree size rank, down⟩ source := by
  rcases neighbor_cases size rank source with
    ⟨positive, rfl⟩ | ⟨i, child, rfl⟩ | ⟨up, down⟩
  · exact absurd rfl (differs positive)
  · rw [received_child child, received_child child]
  · rw [received_other up down, received_other up down]

theorem countUpward_fenceOf (msgs : List (FenceMsg Byte)) {msg : FenceMsg Byte}
    (content : msg = letter blob (child rank got) round (subtree size (child rank got)))
    (more : got < degree size rank) :
    countUpward (fenceOf size blob rank ⟨round, true, got, 0⟩ msgs) msg
      = { fenceOf size blob rank ⟨round, true, got + 1, 0⟩ msgs with
          rcvrs := (List.range got).map (child rank) } := by
  simp [countUpward, appendMsg, content, letter, gathered_succ more, payload_append]

theorem handleMsg_upward (participant : rank < size) {msgs : List (FenceMsg Byte)}
    {msg : FenceMsg Byte} (waiting : Waiting size blob rank ⟨round, true, got, 0⟩ msgs)
    (found : msgs[m]? = some msg) (more : got < degree size rank)
    (source : msg.sRank = child rank got) :
    handleMsg (fenceOf size blob rank ⟨round, true, got, 0⟩ msgs) m
        = (fenceOf size blob rank ⟨round, true, got + 1, 0⟩ (msgs.eraseIdx m),
          upwardSends size blob rank round got)
      ∧ Handled size blob rank ⟨round, true, got, 0⟩ ⟨round, true, got + 1, 0⟩
          msgs (msgs.eraseIdx m) (upwardSends size blob rank round got) := by
  have member : msg ∈ msgs := List.mem_of_getElem? found
  have content : msg = letter blob (child rank got) round (subtree size (child rank got)) := by
    have head := waiting.heads msg member
    rw [source] at head
    rw [head, stream, if_pos (isChild_child more), received_child more]
    simp
  have taken := reads_one ⟨round, true, got + 1, 0⟩ waiting found
    (by rw [source, received_child more, received_child more]; simp)
    (by
      intro other differs
      rw [source] at differs
      exact received_upward participant differs)
  refine ⟨?_, rfl, flows_upward participant more, taken.1, ?_, ?_, ?_⟩
  · have place : (fenceOf size blob rank ⟨round, true, got, 0⟩ msgs).msgs[m]? = some msg := found
    have upward : isUpward (fenceOf size blob rank ⟨round, true, got, 0⟩ msgs) msg :=
      isUpward_fenceOf.mpr ⟨more, source⟩
    have appended := countUpward_fenceOf msgs content more
    simp only [handleMsg, place, if_pos upward, appended,
      sendAccumulated_rcvrs, sendAccumulated_fenceOf]
    congr 1
    · simp [dropMsg, addReceiver, content, letter, range_succ]
    · rw [upwardSends, content]
      simp [sendFenceData, letter]
  · exact fun other member => mem_of_mem_eraseIdx member
  · exact ⟨rfl, more, Nat.zero_le _, fun some => absurd some (by simp)⟩
  · refine waiting.rest (eraseIdx_sublist ..) taken.2 ?_ ?_
    · intro other differs
      rw [source] at differs
      exact received_upward participant differs
    · intro complete other member ready
      simp only [Complete] at complete
      simp only [Ready] at ready
      rcases ready with ⟨less, -⟩ | ⟨-, positive, -⟩
      · omega
      · have some := scattered_pos positive participant
        omega

theorem handleMsg_downward (participant : rank < size) (nodes : size ≤ 65535)
    {down : Nat} {msgs : List (FenceMsg Byte)} {msg : FenceMsg Byte}
    (waiting : Waiting size blob rank
      ⟨round, true, degree size rank, down⟩ msgs) (found : msgs[m]? = some msg)
    (positive : 0 < rank) (source : msg.sRank = parent rank) {block : List Nat}
    (given : (scattered size rank)[down]? = some block) :
    handleMsg (fenceOf size blob rank ⟨round, true, degree size rank, down⟩ msgs) m
      = (fenceOf size blob rank ⟨round, true, degree size rank, down + 1⟩ (msgs.eraseIdx m),
          downwardSends size blob rank round block)
      ∧ Handled size blob rank ⟨round, true, degree size rank, down⟩
          ⟨round, true, degree size rank, down + 1⟩ msgs (msgs.eraseIdx m)
          (downwardSends size blob rank round block) := by
  have member : msg ∈ msgs := List.mem_of_getElem? found
  have edge := isChild_parent positive participant
  have bound := (List.getElem?_eq_some_iff.mp given).1
  have content : msg = letter blob (parent rank) round block := by
    have head := waiting.heads msg member
    have place := edge.eq_child
    have same : stream size blob (parent rank) (child (parent rank) (level rank))
        (round * (scattered size (child (parent rank) (level rank))).length + down) = letter blob
        (parent rank) round block :=
      stream_child edge.level_lt (by rw [← place]; exact given)
    rw [← place] at same
    rw [source, received_parent positive participant] at head
    exact head.trans same
  have keeps : ∀ other, other ≠ parent rank →
      received size rank ⟨round, true, degree size rank, down + 1⟩ other
        = received size rank ⟨round, true, degree size rank, down⟩ other :=
    fun other differs => received_downward fun _ => differs
  have taken := reads_one ⟨round, true, degree size rank, down + 1⟩ waiting
    found
    (by
      rw [source, received_parent positive participant, received_parent positive participant]
      exact (Nat.add_assoc ..).symm)
    (by rw [source]; exact keeps)
  refine ⟨?_, rfl, flows_downward participant given, taken.1, ?_, ?_, ?_⟩
  · have place : (fenceOf size blob rank
        ⟨round, true, degree size rank, down⟩ msgs).msgs[m]? = some msg := found
    have upward : ¬ isUpward (fenceOf size blob rank
        ⟨round, true, degree size rank, down⟩ msgs) msg := by
      rw [isUpward_fenceOf]
      rintro ⟨less, -⟩
      exact Nat.lt_irrefl _ less
    have downward : isDownward (fenceOf size blob rank
        ⟨round, true, degree size rank, down⟩ msgs) msg :=
      (isDownward_fenceOf nodes (waiting.small msg member)).mpr ⟨rfl, positive, source⟩
    simp only [handleMsg, place, if_neg upward, if_pos downward]
    congr 1
    · simp [dropMsg, appendMsg, content, letter, held_block given, payload_append]
    · rw [downwardSends, content]
      simp [sendFenceData, letter]
  · exact fun other member => mem_of_mem_eraseIdx member
  · exact ⟨rfl, Nat.le_refl _, bound, fun _ => rfl⟩
  · refine waiting.rest (eraseIdx_sublist ..) taken.2 ?_ ?_
    · rw [source]
      exact keeps
    · intro complete other member ready
      simp only [Complete] at complete
      simp only [Ready] at ready
      rcases ready with ⟨less, -⟩ | ⟨-, -, same⟩
      · omega
      · exact taken.2 other member (same.trans source.symm)

theorem handleMsg_ready (participant : rank < size) (nodes : size ≤ 65535)
    {msgs : List (FenceMsg Byte)} {msg : FenceMsg Byte} (underway : Underway size rank progress)
    (waiting : Waiting size blob rank progress msgs) (found : msgs[m]? = some msg)
    (ready : Ready size rank progress msg.sRank) :
    ∃ after sends, handleMsg (fenceOf size blob rank progress msgs) m
          = (fenceOf size blob rank after (msgs.eraseIdx m), sends)
        ∧ Handled size blob rank progress after msgs (msgs.eraseIdx m)
            sends := by
  have member : msg ∈ msgs := List.mem_of_getElem? found
  obtain ⟨round, inside, got, down⟩ := progress
  obtain ⟨inside_true, children, blocks, order⟩ := underway
  simp only at inside_true children blocks order
  subst inside_true
  rcases ready with ⟨more, source⟩ | ⟨full, positive, source⟩
  · simp only at more source
    have none : down = 0 := by
      by_contra some
      have full := order (Nat.pos_iff_ne_zero.mpr some)
      omega
    subst none
    exact ⟨_, _, handleMsg_upward participant waiting found more source⟩
  · simp only at full source
    subst full
    have fewer : down < (scattered size rank).length := by
      rcases Nat.lt_or_ge down (scattered size rank).length with less | all
      · exact less
      · exact absurd (.inr ⟨rfl, positive, source⟩)
          (waiting.quiet ⟨rfl, Nat.le_antisymm blocks all⟩ msg member)
    exact ⟨_, _, handleMsg_downward participant nodes waiting found positive
      source (getElem?_eq_getElem fewer)⟩

section

variable (nodes : size ≤ 65535) {msgs : List (FenceMsg Byte)}
  (waiting : Waiting size blob rank progress msgs)

include nodes waiting

theorem nextMsg_ready
    (some_next : nextMsg (fenceOf size blob rank progress msgs) < msgs.length) :
    ∃ msg, msgs[nextMsg (fenceOf size blob rank progress msgs)]? = some msg
      ∧ Ready size rank progress msg.sRank := by
  refine ⟨_, getElem?_eq_getElem some_next, ?_⟩
  have satisfies := findIdx_getElem (w := some_next)
  rw [decide_eq_true_eq] at satisfies
  exact (ready_iff nodes (waiting.small _ (getElem_mem _))).mp satisfies

theorem nextMsg_none (no_next : ¬ nextMsg (fenceOf size blob rank progress msgs) < msgs.length) :
    ∀ msg ∈ msgs, ¬ Ready size rank progress msg.sRank := by
  intro msg member ready
  apply no_next
  refine findIdx_lt_length_of_exists ⟨msg, member, ?_⟩
  rw [decide_eq_true_eq]
  exact (ready_iff nodes (waiting.small msg member)).mpr ready

end

/-- From a message that is ready the loop goes on until none is. -/
theorem checkLoop_ready (participant : rank < size) (nodes : size ≤ 65535) {fuel : Nat}
    {msgs : List (FenceMsg Byte)} {msg : FenceMsg Byte} (enough : msgs.length ≤ fuel)
    (underway : Underway size rank progress) (waiting : Waiting size blob rank progress msgs)
    (found : msgs[m]? = some msg) (ready : Ready size rank progress msg.sRank) :
    ∃ after left sends, checkLoop fuel (fenceOf size blob rank progress msgs) m
          = (fenceOf size blob rank after left, sends)
        ∧ Handled size blob rank progress after msgs left sends
        ∧ ∀ other ∈ left, ¬ Ready size rank after other.sRank := by
  induction fuel generalizing progress msgs m msg with
  | zero =>
    have below := (List.getElem?_eq_some_iff.mp found).1
    omega
  | succ fuel induction =>
    obtain ⟨after, sends, result, handled⟩ :=
      handleMsg_ready participant nodes underway waiting found ready
    have below := (List.getElem?_eq_some_iff.mp found).1
    have shorter : (msgs.eraseIdx m).length ≤ fuel := by
      rw [List.length_eraseIdx_of_lt below]
      omega
    rw [checkLoop, result]
    by_cases next : nextMsg (fenceOf size blob rank after (msgs.eraseIdx m))
          < (msgs.eraseIdx m).length
    · obtain ⟨other, place, other_ready⟩ :=
        nextMsg_ready nodes handled.waiting next
      obtain ⟨last, left, more, loop, rest, none⟩ := induction shorter
        handled.underway handled.waiting place other_ready
      refine ⟨last, left, sends ++ more, ?_, handled.trans rest, none⟩
      have inside : nextMsg (fenceOf size blob rank after (msgs.eraseIdx m))
          < (fenceOf size blob rank after (msgs.eraseIdx m)).msgs.length :=
        next
      simp only [if_pos inside, loop]
    · refine ⟨after, msgs.eraseIdx m, sends, ?_, handled, nextMsg_none nodes handled.waiting next⟩
      have inside : ¬ nextMsg
          (fenceOf size blob rank after (msgs.eraseIdx m))
          < (fenceOf size blob rank after (msgs.eraseIdx m)).msgs.length :=
        next
      simp only [if_neg inside]

theorem handleMsg_postponed (nodes : size ≤ 65535) {msgs : List (FenceMsg Byte)}
    {msg : FenceMsg Byte} (waiting : Waiting size blob rank progress msgs)
    (found : msgs[m]? = some msg) (unready : ¬ Ready size rank progress msg.sRank) :
    handleMsg (fenceOf size blob rank progress msgs) m
      = (fenceOf size blob rank progress msgs, []) := by
  have member : msg ∈ msgs := List.mem_of_getElem? found
  have place : (fenceOf size blob rank progress msgs).msgs[m]? = some msg := found
  rw [← @ready_iff Byte size rank blob progress msgs msg nodes
    (waiting.small msg member), not_or] at unready
  simp only [handleMsg, place, if_neg unready.1, if_neg unready.2]

theorem Handled.refl {progress : Progress} {msgs : List (FenceMsg Byte)}
    (underway : Underway size rank progress) (waiting : Waiting size blob rank progress msgs) :
    Handled size blob rank progress progress msgs msgs [] where
  round := rfl
  flows := Flows.refl progress
  reads := Reads.refl progress msgs
  members := fun _ member => member
  underway := underway
  waiting := waiting

theorem checkLoop_spec (participant : rank < size) (nodes : size ≤ 65535) {fuel : Nat}
    {msgs : List (FenceMsg Byte)} (enough : msgs.length < fuel) (below : m < msgs.length)
    (underway : Underway size rank progress) (waiting : Waiting size blob rank progress msgs) :
    ∃ after left sends, checkLoop fuel (fenceOf size blob rank progress msgs) m
          = (fenceOf size blob rank after left, sends)
        ∧ Handled size blob rank progress after msgs left sends
        ∧ ∀ other ∈ left, ¬ Ready size rank after other.sRank := by
  have found := getElem?_eq_getElem below
  by_cases ready : Ready size rank progress msgs[m].sRank
  · exact checkLoop_ready participant nodes (by omega) underway waiting found ready
  · obtain ⟨fuel, rfl⟩ : ∃ rest, fuel = rest + 1 := ⟨fuel - 1, by omega⟩
    rw [checkLoop, handleMsg_postponed nodes waiting found ready]
    by_cases next : nextMsg (fenceOf size blob rank progress msgs)
        < (fenceOf size blob rank progress msgs).msgs.length
    · obtain ⟨other, place, other_ready⟩ := nextMsg_ready nodes waiting next
      obtain ⟨last, left, more, loop, rest, none⟩ := checkLoop_ready participant nodes
        (Nat.lt_succ_iff.mp enough) underway waiting place other_ready
      refine ⟨last, left, more, ?_, rest, none⟩
      simp only [if_pos next, loop, nil_append]
    · refine ⟨progress, msgs, [], ?_, Handled.refl underway waiting,
        nextMsg_none nodes waiting next⟩
      simp only [if_neg next]

/-! ## The calls -/

/-- What a call leaves when the node has come to `progress`. -/
def outcomeOf (size : Nat) (blob : Nat → Nat → List Byte) (rank : Nat) (progress : Progress)
    (left : List (FenceMsg Byte)) (sends : Sends Byte) : Outcome Byte :=
  if Complete size rank progress then
    ⟨none, sends, some (payload blob progress.round
      (held size rank progress.got progress.down)),
      some (fenceOf size blob rank progress left)⟩
  else ⟨some (fenceOf size blob rank progress left), sends, none, none⟩

theorem nBlobs_iff (participant : rank < size)
    (underway : Underway size rank progress) :
    (held size rank progress.got progress.down).length = size ↔ Complete size rank progress := by
  constructor
  · intro all
    by_contra incomplete
    have fewer := held_length_lt participant underway.children
      underway.blocks underway.order incomplete
    omega
  · rintro ⟨children, blocks⟩
    rw [children, blocks]
    have whole := (held_complete participant).length_eq
    rwa [length_range] at whole

theorem checkFence_spec (participant : rank < size) (nodes : size ≤ 65535)
    {msgs : List (FenceMsg Byte)} (some_msg : msgs ≠ []) (underway : Underway size rank progress)
    (waiting : Waiting size blob rank progress msgs) :
    ∃ after left sends,
      checkFence (fenceOf size blob rank progress msgs) = outcomeOf size blob rank after left sends
        ∧ Handled size blob rank progress after msgs left sends
        ∧ ∀ other ∈ left, ¬ Ready size rank after other.sRank := by
  have positive : 0 < msgs.length := length_pos_iff.mpr some_msg
  obtain ⟨after, left, sends, loop, handled, none⟩ := checkLoop_spec participant nodes
    (Nat.lt_succ_self msgs.length) (Nat.sub_lt positive Nat.one_pos) underway waiting
  refine ⟨after, left, sends, ?_, handled, none⟩
  have set : ¬ (fenceOf size blob rank progress msgs).nNodes = 0 := by
    simp only [fenceOf]
    omega
  have pending : ¬ (fenceOf size blob rank progress msgs).msgs.length = 0 := by
    simp only [fenceOf]
    omega
  have loop' : checkLoop ((fenceOf size blob rank progress msgs).msgs.length + 1)
      (fenceOf size blob rank progress msgs)
      ((fenceOf size blob rank progress msgs).msgs.length - 1) =
      (fenceOf size blob rank after left, sends) := loop
  rw [checkFence, if_neg set, if_neg pending, loop']
  have blobs := nBlobs_iff participant handled.underway
  by_cases complete : Complete size rank after
  · have all : (fenceOf size blob rank after left).nBlobs
        = (fenceOf size blob rank after left).nNodes := blobs.mpr complete
    simp only [if_pos all, outcomeOf, if_pos complete]
    rfl
  · have fewer : ¬ (fenceOf size blob rank after left).nBlobs
        = (fenceOf size blob rank after left).nNodes :=
      fun all => complete (blobs.mp all)
    simp only [if_neg fewer, outcomeOf, if_neg complete]

/-- The object of a node that has not entered yet. -/
def postponed (msgs : List (FenceMsg Byte)) : Fence Byte := { createFenceObject with msgs := msgs }

/-- The fence object of a node that has come to `progress`. -/
def Represents (size : Nat) (blob : Nat → Nat → List Byte) (rank : Nat) (progress : Progress)
    (msgs : List (FenceMsg Byte)) (fence : Option (Fence Byte)) : Prop :=
  if progress.inside then
    fence = some (fenceOf size blob rank progress msgs)
  else fence.getD createFenceObject = postponed msgs

variable {fence : Option (Fence Byte)}

theorem handleFenceData_inside (participant : rank < size) {msgs : List (FenceMsg Byte)}
    (inside : progress.inside = true) (represents : Represents size blob rank progress msgs fence)
    (msg : FenceMsg Byte) :
    handleFenceData fence msg = checkFence (fenceOf size blob rank progress (msgs ++ [msg])) := by
  rw [Represents, if_pos inside] at represents
  have set : (fenceOf size blob rank progress (msgs ++ [msg])).nNodes ≠ 0 := by
    simp only [fenceOf]
    omega
  rw [represents, handleFenceData]
  exact if_pos set

theorem handleFenceData_outside {msgs : List (FenceMsg Byte)}
    (represents : Represents size blob rank (.outside round) msgs fence) (msg : FenceMsg Byte) :
    handleFenceData fence msg = ⟨some (postponed (msgs ++ [msg])), [], none, none⟩ := by
  have object : fence.getD createFenceObject = postponed msgs := represents
  rw [handleFenceData, object]
  rfl

theorem fillFence_postponed (participant : rank < size) (round : Nat)
    (msgs : List (FenceMsg Byte)) :
    fillFence (postponed msgs) size rank (blob rank round)
      = fenceOf size blob rank (.entered round) msgs := by
  obtain ⟨sources, offset⟩ := treeLoop_start participant
  have empty : (postponed msgs).srcs = [] := rfl
  rw [fillFence, empty, sources]
  by_cases zero : rank = 0
  · simp [zero, postponed, createFenceObject, Progress.entered, payload, gathered_zero (zero ▸ participant)]
  · rw [offset (Nat.pos_of_ne_zero zero)]
    simp [zero, postponed, createFenceObject, Progress.entered, payload, gathered_zero participant, parent]

theorem sends_entered (several : 2 ≤ size) (round : Nat)
    (msgs : List (FenceMsg Byte)) :
    sendFenceData (fenceOf size blob rank (.entered round) msgs)
        [(fenceOf size blob rank (.entered round) msgs).srcs.head?.getD
          (fenceOf size blob rank (.entered round) msgs).dest]
        (fenceOf size blob rank (.entered round) msgs).nBlobs
        (fenceOf size blob rank (.entered round) msgs).data
      = announce size blob rank round 0 := by
  unfold announce
  rcases Nat.eq_zero_or_pos (degree size rank) with leaf | some
  · have positive : 0 < rank := by
      rcases Nat.eq_zero_or_pos rank with zero | positive
      · have root : 0 < degree size rank := by
          rw [lt_degree, zero]
          exact ⟨dvd_zero _, by omega⟩
        omega
      · exact positive
    rw [if_neg (by omega), if_pos positive]
    simp [sendFenceData, leaf, Progress.entered, letter, Nat.pos_iff_ne_zero.mp positive]
  · obtain ⟨rest, count⟩ : ∃ rest, degree size rank = rest + 1 :=
      ⟨degree size rank - 1, by omega⟩
    rw [if_pos some]
    simp [sendFenceData, count, Progress.entered, letter, range_succ_eq_map]

theorem fenceIn_outside (participant : rank < size) (several : 2 ≤ size)
    {msgs : List (FenceMsg Byte)}
    (represents : Represents size blob rank (.outside round) msgs fence) :
    fenceIn fence size rank (blob rank round)
      = if msgs ≠ [] then
          { checkFence (fenceOf size blob rank (.entered round) msgs) with
            sends := announce size blob rank round 0
              ++ (checkFence (fenceOf size blob rank (.entered round) msgs)).sends }
        else ⟨some (fenceOf size blob rank (.entered round) msgs),
          announce size blob rank round 0, none, none⟩ := by
  have object : fence.getD createFenceObject = postponed msgs := represents
  have unset : ¬ (postponed msgs).nNodes ≠ 0 := not_not.mpr rfl
  have one : size ≠ 1 := by omega
  rw [fenceIn, object]
  simp only [if_neg unset, if_neg one, fillFence_postponed participant, sends_entered several]
  by_cases empty : msgs = []
  · rw [if_neg (not_not.mpr empty), empty]
    rfl
  · rw [if_pos empty, if_pos]
    simpa using empty

end Psmgmt.Pmix
