import Psmgmt.Library.BinomialTree
import Psmgmt.Library.Channels
import Psmgmt.Pmix.Fence

/-!
# How far a node is

A node reads its messages in one fixed order: one upward message of each source,
then those of its destination.  How far it has come therefore determines its
fence object and the messages it has sent on each channel.
-/

namespace Psmgmt.Pmix

open BinomialTree Channels List

variable {Byte : Type*}

/-- The number of fences completed, whether the node is in the next one, and the
numbers of upward and downward messages it has handled there. -/
structure Progress where
  round : Nat
  inside : Bool
  got : Nat
  down : Nat

def Progress.outside (round : Nat) : Progress := ⟨round, false, 0, 0⟩

def Progress.entered (round : Nat) : Progress := ⟨round, true, 0, 0⟩

def payload (blob : Nat → Nat → List Byte) (round : Nat) (ranks : List Nat) : List Byte :=
  ranks.flatMap fun rank => blob rank round

def letter (blob : Nat → Nat → List Byte) (source round : Nat) (ranks : List Nat) : FenceMsg Byte :=
  { sender := source, sRank := source, nBlobs := ranks.length,
    data := payload blob round ranks }

/-- The messages of `source` that a node has handled. -/
def received (size rank : Nat) (progress : Progress) (source : Nat) : Nat :=
  if IsChild size source rank then
    progress.round + if level source < progress.got then 1 else 0
  else if IsChild size rank source then
    progress.round * (scattered size rank).length + progress.down
  else 0

/-- The messages to `target` that a node has sent. -/
def sent (size rank : Nat) (progress : Progress) (target : Nat) : Nat :=
  if IsChild size rank target then
    progress.round + if progress.inside ∧ progress.got = degree size rank then 1 else 0
  else if IsChild size target rank then
    progress.round * (scattered size target).length
      + if progress.inside ∧ level target ≤ progress.got then
          1 + (progress.got - level target - 1) + progress.down
        else 0
  else 0

/-- The messages on one channel over all rounds. -/
def stream (size : Nat) (blob : Nat → Nat → List Byte)
    (source target number : Nat) : FenceMsg Byte :=
  if IsChild size source target then
    letter blob source number (subtree size source)
  else
    letter blob source (number / (scattered size target).length)
      ((scattered size target)[number % (scattered size target).length]?.getD [])

/-- The fence object of a node inside a fence. -/
def fenceOf (size : Nat) (blob : Nat → Nat → List Byte) (rank : Nat)
    (progress : Progress) (msgs : List (FenceMsg Byte)) : Fence Byte :=
  { nNodes := size
    rank := rank
    srcs := (List.range (degree size rank)).map (child rank)
    nGot := progress.got
    dest := if rank = 0 then 65535 else parent rank
    rcvrs := (List.range progress.got).map (child rank)
    msgs := msgs
    nBlobs := (held size rank progress.got progress.down).length
    data := payload blob progress.round (held size rank progress.got progress.down) }

variable {size rank : Nat} {blob : Nat → Nat → List Byte}

theorem payload_append (round : Nat) (first second : List Nat) :
    payload blob round (first ++ second) = payload blob round first ++ payload blob round second :=
  flatMap_append

@[simp] theorem stream_sRank (source target number : Nat) :
    (stream size blob source target number).sRank = source := by
  unfold stream
  split <;> rfl

/-! ## The channels of a node -/

theorem neighbor_cases (size rank other : Nat) :
    (0 < rank ∧ other = parent rank) ∨ (∃ i, i < degree size rank ∧ other = child rank i) ∨
      (¬ IsChild size rank other ∧ ¬ IsChild size other rank) := by
  by_cases up : IsChild size rank other
  · exact .inl ⟨up.1, up.2.2.symm⟩
  · by_cases down : IsChild size other rank
    · exact .inr (.inl ⟨level other, down.level_lt, down.eq_child⟩)
    · exact .inr (.inr ⟨up, down⟩)

section Counts

variable {progress : Progress} {i other : Nat}

theorem received_child (source : i < degree size rank) : received size rank progress (child rank i)
      = progress.round + if i < progress.got then 1 else 0 := by
  rw [received, if_pos (isChild_child source), level_child source]

theorem received_parent (positive : 0 < rank) (participant : rank < size) :
    received size rank progress (parent rank)
      = progress.round * (scattered size rank).length + progress.down := by
  have edge := isChild_parent positive participant
  rw [received, if_neg edge.asymm, if_pos edge]

theorem received_other (up : ¬ IsChild size rank other)
    (down : ¬ IsChild size other rank) :
    received size rank progress other = 0 := by
  rw [received, if_neg down, if_neg up]

theorem sent_parent (positive : 0 < rank) (participant : rank < size) :
    sent size rank progress (parent rank) = progress.round
        + if progress.inside ∧ progress.got = degree size rank then 1
          else 0 := by
  rw [sent, if_pos (isChild_parent positive participant)]

theorem sent_child (source : i < degree size rank) : sent size rank progress (child rank i)
      = progress.round * (scattered size (child rank i)).length
        + if progress.inside ∧ i ≤ progress.got then
            1 + (progress.got - i - 1) + progress.down
          else 0 := by
  have edge := isChild_child source
  rw [sent, if_neg edge.asymm, if_pos edge, level_child source]

theorem sent_other (up : ¬ IsChild size rank other)
    (down : ¬ IsChild size other rank) :
    sent size rank progress other = 0 := by
  rw [sent, if_neg up, if_neg down]

end Counts

theorem stream_parent (positive : 0 < rank) (participant : rank < size)
    (number : Nat) :
    stream size blob rank (parent rank) number = letter blob rank number (subtree size rank) := by
  rw [stream, if_pos (isChild_parent positive participant)]

variable {i round target got : Nat}

theorem stream_child {place : Nat} {block : List Nat} (source : i < degree size rank)
    (given : (scattered size (child rank i))[place]? = some block) :
    stream size blob rank (child rank i) (round * (scattered size (child rank i)).length + place)
      = letter blob rank round block := by
  have bound := (List.getElem?_eq_some_iff.mp given).1
  have positive : 0 < (scattered size (child rank i)).length := by omega
  rw [stream, if_neg (isChild_child source).asymm, Nat.mul_comm round,
    Nat.mul_add_div positive, Nat.mul_add_mod, Nat.div_eq_of_lt bound,
    Nat.mod_eq_of_lt bound, given, Nat.add_zero, Option.getD_some]

/-! ## Messages for one receiver -/

@[simp] theorem posted_nil (target : Nat) : posted ([] : Sends Byte) target = [] := rfl

@[simp] theorem posted_append (first second : Sends Byte) (target : Nat) :
    posted (first ++ second) target = posted first target ++ posted second target := by
  simp [posted]

theorem posted_one (dest target : Nat) (msg : FenceMsg Byte) :
    posted [(dest, msg)] target = if dest = target then [msg] else [] := by
  rw [posted, filter_cons]
  split <;> simp_all

theorem posted_children_miss {count : Nat} (msg : FenceMsg Byte)
    (other : ∀ i, i < count → child rank i ≠ target) :
    posted ((List.range count).map fun i => (child rank i, msg)) target = [] := by
  simp only [posted, map_eq_nil_iff, filter_eq_nil_iff, mem_map, mem_range]
  rintro send ⟨i, below, rfl⟩
  simpa using other i below

theorem posted_children_hit {count : Nat} (msg : FenceMsg Byte)
    (below : i < count) :
    posted ((List.range count).map fun i => (child rank i, msg)) (child rank i) = [msg] := by
  induction count with
  | zero => omega
  | succ count induction =>
    rw [range_succ, map_append, posted_append, map_singleton, posted_one]
    by_cases last : i = count
    · rw [if_pos (by rw [last]), posted_children_miss, nil_append]
      intro j smaller same
      have equal := child_injective rank same
      omega
    · have differs : child rank count ≠ child rank i := by
        intro same
        exact last (child_injective rank same).symm
      rw [if_neg differs, induction (by omega), append_nil]

/-- What a node that has gathered from `got` children sends. -/
def announce (size : Nat) (blob : Nat → Nat → List Byte) (rank round got : Nat) : Sends Byte :=
  if got < degree size rank then
    [(child rank got, letter blob rank round (gathered size rank got))]
  else if 0 < rank then
    [(parent rank, letter blob rank round (gathered size rank got))]
  else []

theorem parent_ne_child (positive : 0 < rank) (i : Nat) : parent rank ≠ child rank i := by
  have above := parent_lt positive
  have below := lt_child rank i
  omega

theorem posted_announce_child (source : i < degree size rank) :
    posted (announce size blob rank round got) (child rank i)
      = if i = got then [letter blob rank round (gathered size rank got)]
        else [] := by
  unfold announce
  by_cases more : got < degree size rank
  · rw [if_pos more, posted_one]
    by_cases same : i = got
    · rw [if_pos same, if_pos (by rw [same])]
    · rw [if_neg same, if_neg]
      intro equal
      exact same (child_injective rank equal).symm
  · rw [if_neg more, if_neg (by omega : ¬ i = got)]
    split
    · rename_i positive
      rw [posted_one, if_neg (parent_ne_child positive i)]
    · rfl

theorem posted_announce_parent (positive : 0 < rank)
    (bound : got ≤ degree size rank) :
    posted (announce size blob rank round got) (parent rank)
      = if got = degree size rank then
          [letter blob rank round (subtree size rank)]
        else [] := by
  unfold announce
  by_cases more : got < degree size rank
  · rw [if_pos more, posted_one, if_neg, if_neg (by omega)]
    exact (parent_ne_child positive got).symm
  · have full : got = degree size rank := by omega
    rw [if_neg more, if_pos positive, posted_one, if_pos rfl, if_pos full, full]
    rfl

theorem posted_announce_other {other : Nat} (participant : rank < size)
    (up : ¬ IsChild size rank other) (down : ¬ IsChild size other rank) :
    posted (announce size blob rank round got) other = [] := by
  unfold announce
  split
  · rename_i more
    rw [posted_one, if_neg]
    rintro rfl
    exact down (isChild_child more)
  · split
    · rename_i positive
      rw [posted_one, if_neg]
      rintro rfl
      exact up (isChild_parent positive participant)
    · rfl

/-! ## What an advance sends -/

/-- The messages sent on each channel are those the progress accounts for. -/
def Flows (size : Nat) (blob : Nat → Nat → List Byte) (rank : Nat)
    (before after : Progress) (sends : Sends Byte) : Prop :=
  ∀ target, sent size rank before target ≤ sent size rank after target ∧ posted sends target
        = window (stream size blob rank target)
            (sent size rank before target) (sent size rank after target)

theorem Flows.refl (progress : Progress) : Flows size blob rank progress progress [] := by
  intro target
  exact ⟨Nat.le_refl _, by rw [posted_nil, window_self]⟩

theorem Flows.trans {first second third : Progress}
    {sends more : Sends Byte} (left : Flows size blob rank first second sends)
    (right : Flows size blob rank second third more) :
    Flows size blob rank first third (sends ++ more) := by
  intro target
  refine ⟨Nat.le_trans (left target).1 (right target).1, ?_⟩
  rw [posted_append, (left target).2, (right target).2,
    window_append (left target).1 (right target).1]

theorem flow_none {before after : Progress} {sends : Sends Byte}
    (same : sent size rank after target = sent size rank before target)
    (nothing : posted sends target = []) :
    sent size rank before target ≤ sent size rank after target ∧ posted sends target
        = window (stream size blob rank target)
            (sent size rank before target) (sent size rank after target) := by
  rw [same, window_self]
  exact ⟨Nat.le_refl _, nothing⟩

theorem flow_one {before after : Progress} {sends : Sends Byte}
    (next : sent size rank after target = sent size rank before target + 1)
    (message : posted sends target
      = [stream size blob rank target (sent size rank before target)]) :
    sent size rank before target ≤ sent size rank after target ∧ posted sends target
        = window (stream size blob rank target)
            (sent size rank before target) (sent size rank after target) := by
  rw [next, window_one]
  exact ⟨Nat.le_succ _, message⟩

attribute [local simp] Progress.outside

theorem flows_enter (participant : rank < size) (round : Nat) :
    Flows size blob rank (.outside round) (.entered round) (announce size blob rank round 0) := by
  intro target
  rcases neighbor_cases size rank target with
    ⟨positive, rfl⟩ | ⟨i, source, rfl⟩ | ⟨up, down⟩
  · by_cases leaf : 0 = degree size rank
    · apply flow_one
      · simp [sent_parent positive participant, Progress.entered, ← leaf]
      · rw [posted_announce_parent positive (Nat.zero_le _), if_pos leaf,
          stream_parent positive participant]
        simp [sent_parent positive participant]
    · apply flow_none
      · simp [sent_parent positive participant, Progress.entered, leaf]
      · rw [posted_announce_parent positive (Nat.zero_le _), if_neg leaf]
  · by_cases first : i = 0
    · subst first
      apply flow_one
      · simp [sent_child source, Progress.entered]
      · have number : sent size rank (.outside round) (child rank 0)
            = round * (scattered size (child rank 0)).length + 0 := by
          simp [sent_child source]
        rw [posted_announce_child source, if_pos rfl, number,
          stream_child source (scattered_first source)]
    · apply flow_none
      · simp [sent_child source, Progress.entered, first]
      · rw [posted_announce_child source, if_neg first]
  · apply flow_none
    · rw [sent_other up down, sent_other up down]
    · exact posted_announce_other participant up down

/-- The messages after the upward message of source number `got`. -/
def upwardSends (size : Nat) (blob : Nat → Nat → List Byte) (rank round got : Nat) : Sends Byte :=
  announce size blob rank round (got + 1)
    ++ (List.range got).map fun i =>
      (child rank i, letter blob rank round (subtree size (child rank got)))

theorem flows_upward (participant : rank < size) (more : got < degree size rank) :
    Flows size blob rank ⟨round, true, got, 0⟩ ⟨round, true, got + 1, 0⟩
      (upwardSends size blob rank round got) := by
  intro target
  rcases neighbor_cases size rank target with
    ⟨positive, rfl⟩ | ⟨i, source, rfl⟩ | ⟨up, down⟩
  · have nothing : posted ((List.range got).map fun i =>
        (child rank i, letter blob rank round
          (subtree size (child rank got)))) (parent rank) = [] := by
      apply posted_children_miss
      intro i _
      exact (parent_ne_child positive i).symm
    have early : got ≠ degree size rank := by omega
    by_cases last : got + 1 = degree size rank
    · apply flow_one
      · simp [sent_parent positive participant, last, early]
      · rw [upwardSends, posted_append, nothing, append_nil,
          posted_announce_parent positive more, if_pos last,
          stream_parent positive participant]
        simp [sent_parent positive participant, early]
    · apply flow_none
      · simp [sent_parent positive participant, last, early]
      · rw [upwardSends, posted_append, nothing, append_nil,
          posted_announce_parent positive more, if_neg last]
  · rcases Nat.lt_trichotomy i got with known | rfl | later
    · -- a receiver already known gets the data of the new source
      have number : sent size rank ⟨round, true, got, 0⟩ (child rank i)
          = round * (scattered size (child rank i)).length + (got - i) := by
        simp only [sent_child source, true_and, Nat.le_of_lt known, if_true]
        omega
      apply flow_one
      · rw [number]
        simp only [sent_child source, true_and, Nat.le_succ_of_le (Nat.le_of_lt known), if_true]
        omega
      · rw [upwardSends, posted_append, posted_announce_child source,
          if_neg (by omega), nil_append, posted_children_hit _ known,
          number, stream_child source (scattered_sibling more known)]
    · -- the new source itself gets nothing
      apply flow_none
      · simp only [sent_child source, true_and, Nat.le_refl, Nat.le_succ, if_true]
        omega
      · rw [upwardSends, posted_append, posted_announce_child source,
          if_neg (by omega), nil_append, posted_children_miss]
        intro j smaller same
        have equal := child_injective rank same
        omega
    · have miss : posted ((List.range got).map fun i =>
          (child rank i, letter blob rank round
            (subtree size (child rank got)))) (child rank i) = [] := by
        apply posted_children_miss
        intro j smaller same
        have equal := child_injective rank same
        omega
      have unknown : ¬ i ≤ got := by omega
      by_cases next : i = got + 1
      · subst next
        have number : sent size rank ⟨round, true, got, 0⟩ (child rank (got + 1)) = round *
            (scattered size (child rank (got + 1))).length + 0 := by
          simp [sent_child source]
        apply flow_one
        · simp [sent_child source]
        · rw [upwardSends, posted_append, miss, append_nil,
            posted_announce_child source, if_pos rfl, number,
            stream_child source (scattered_first source)]
      · apply flow_none
        · have still : ¬ i ≤ got + 1 := by omega
          simp [sent_child source, unknown, still]
        · rw [upwardSends, posted_append, miss, append_nil,
            posted_announce_child source, if_neg next]
  · apply flow_none
    · rw [sent_other up down, sent_other up down]
    · rw [upwardSends, posted_append, posted_announce_other participant up down,
        nil_append, posted_children_miss]
      rintro i smaller rfl
      exact down (isChild_child (by omega))

/-- The messages after a block from the destination. -/
def downwardSends (size : Nat) (blob : Nat → Nat → List Byte)
    (rank round : Nat) (block : List Nat) : Sends Byte :=
  (List.range (degree size rank)).map fun i => (child rank i, letter blob rank round block)

theorem flows_downward (participant : rank < size) {down : Nat}
    {block : List Nat} (given : (scattered size rank)[down]? = some block) :
    Flows size blob rank ⟨round, true, degree size rank, down⟩
      ⟨round, true, degree size rank, down + 1⟩ (downwardSends size blob rank round block) := by
  intro target
  rcases neighbor_cases size rank target with
    ⟨positive, rfl⟩ | ⟨i, source, rfl⟩ | ⟨up, below⟩
  · apply flow_none
    · simp [sent_parent positive participant]
    · rw [downwardSends, posted_children_miss]
      intro i _
      exact (parent_ne_child positive i).symm
  · have number : sent size rank ⟨round, true, degree size rank, down⟩ (child rank i) = round *
        (scattered size (child rank i)).length + (degree size rank - i + down) := by
      simp only [sent_child source, true_and, Nat.le_of_lt source, if_true]
      omega
    apply flow_one
    · rw [number]
      simp only [sent_child source, true_and, Nat.le_of_lt source, if_true]
      omega
    · rw [downwardSends, posted_children_hit _ source, number,
        stream_child source ((scattered_last source).trans given)]
  · apply flow_none
    · rw [sent_other up below, sent_other up below]
    · rw [downwardSends, posted_children_miss]
      rintro i smaller rfl
      exact below (isChild_child smaller)

/-- A completed fence is the same as not having entered the next one. -/
theorem sent_complete (participant : rank < size) (round target : Nat) :
    sent size rank ⟨round, true, degree size rank, (scattered size rank).length⟩ target
      = sent size rank (.outside (round + 1)) target := by
  rcases neighbor_cases size rank target with
    ⟨positive, rfl⟩ | ⟨i, source, rfl⟩ | ⟨up, down⟩
  · simp [sent_parent positive participant]
  · have count := length_scattered_child source
    simp only [sent_child source, Progress.outside, true_and,
      Nat.le_of_lt source, if_true, Bool.false_eq_true, false_and, if_false,
      Nat.add_zero]
    rw [Nat.succ_mul]
    omega
  · rw [sent_other up down, sent_other up down]

theorem received_complete (participant : rank < size) (round source : Nat) :
    received size rank ⟨round, true, degree size rank, (scattered size rank).length⟩ source
      = received size rank (.outside (round + 1)) source := by
  rcases neighbor_cases size rank source with
    ⟨positive, rfl⟩ | ⟨i, child, rfl⟩ | ⟨up, down⟩
  · simp [received_parent positive participant, Nat.succ_mul]
  · simp [received_child child, child]
  · rw [received_other up down, received_other up down]

end Psmgmt.Pmix
