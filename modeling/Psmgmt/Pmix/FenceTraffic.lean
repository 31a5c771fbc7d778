import Psmgmt.Library.Snoc
import Psmgmt.Pmix.FenceNode

/-!
# The traffic between the nodes

On each channel the messages sent and not yet handled are a window of the
channel's stream, so that messages of different rounds cannot be confused.
-/

namespace Psmgmt.Pmix

open BinomialTree Channels List Function

variable {Byte : Type*} {size rank : Nat} {blob : Nat → Nat → List Byte}
  {progress : Nat → Progress} {pending : Nat → List (FenceMsg Byte)}
  {wire : Nat → Nat → List (FenceMsg Byte)}

/-- All messages under way or waiting are accounted for. -/
def Traffic (size : Nat) (blob : Nat → Nat → List Byte) (progress : Nat → Progress)
    (pending : Nat → List (FenceMsg Byte)) (wire : Nat → Nat → List (FenceMsg Byte)) : Prop :=
  ∀ source target,
    received size target (progress target) source ≤ sent size source (progress source) target
      ∧ ofSource source (pending target) ++ wire source target
        = window (stream size blob source target) (received size target (progress target) source)
            (sent size source (progress source) target)

theorem not_isChild_self (size rank : Nat) : ¬ IsChild size rank rank :=
  fun edge => Nat.lt_irrefl _ edge.lt

/-- What a node handles and sends keeps the accounts of all channels. -/
theorem Traffic.advance {after : Progress} {left : List (FenceMsg Byte)}
    {sends : Sends Byte} (traffic : Traffic size blob progress pending wire)
    (flows : Flows size blob rank (progress rank) after sends)
    (reads : Reads size blob rank (progress rank) after (pending rank) left) :
    Traffic size blob (update progress rank after)
      (update pending rank left) (post wire rank sends) := by
  intro source target
  have self := not_isChild_self size rank
  have old := traffic source target
  by_cases from_rank : source = rank <;> by_cases to_rank : target = rank
  · subst from_rank
    subst to_rank
    have flow := flows target
    have read := reads target
    rw [sent_other self self, sent_other self self, window_self] at flow
    rw [received_other self self, received_other self self, window_self, nil_append] at read
    rw [received_other self self, sent_other self self, window_self] at old
    simp only [update_self, post, if_true]
    rw [received_other self self, sent_other self self, window_self, flow.2, append_nil, ← read.2]
    exact old
  · subst from_rank
    have flow := flows target
    simp only [update_self, update_of_ne to_rank, post, if_true]
    refine ⟨Nat.le_trans old.1 flow.1, ?_⟩
    rw [← append_assoc, old.2, flow.2, window_append old.1 flow.1]
  · subst to_rank
    have read := reads source
    simp only [update_self, update_of_ne from_rank, post, if_neg from_rank]
    have whole := old.2
    rw [read.2, append_assoc] at whole
    exact window_cancel read.1 whole old.1
  · simp only [update_of_ne from_rank, update_of_ne to_rank, post, if_neg from_rank]
    exact old

variable {source target : Nat}

variable {msg : FenceMsg Byte}

theorem Traffic.on_wire (traffic : Traffic size blob progress pending wire)
    (member : msg ∈ wire source target) : msg.sRank = source := by
  have inside : msg ∈ ofSource source (pending target) ++ wire source target :=
    mem_append_right _ member
  rw [(traffic source target).2, mem_window] at inside
  obtain ⟨number, -, -, rfl⟩ := inside
  exact stream_sRank source target number

/-- A delivered message waits behind the others of its sender. -/
theorem Traffic.arrive {rest : List (FenceMsg Byte)}
    (traffic : Traffic size blob progress pending wire) (head : wire source target = msg :: rest) :
    Traffic size blob progress (update pending target (pending target ++ [msg]))
      (update wire source (update (wire source) target rest)) := by
  have member : msg ∈ wire source target := by
    rw [head]
    exact mem_cons_self
  have rank : msg.sRank = source := traffic.on_wire member
  intro other receiver
  have old := traffic other receiver
  refine ⟨old.1, ?_⟩
  rw [← old.2]
  by_cases this : receiver = target
  · subst this
    rw [update_self, ofSource, filter_append, append_assoc]
    by_cases same : other = source
    · subst same
      rw [update_self, update_self, head]
      simp [ofSource, rank]
    · have differs : ¬ msg.sRank = other := fun equal =>
        same (equal.symm.trans rank)
      rw [update_of_ne same]
      simp [ofSource, differs]
  · rw [update_of_ne this]
    by_cases same : other = source
    · subst same
      rw [update_self, update_of_ne this]
    · rw [update_of_ne same]

/-! ## How far neighbors are apart -/

structure Shape (size rank : Nat) (progress : Progress) : Prop where
  inside : progress.inside = true → Underway size rank progress ∧ ¬ Complete size rank progress
  outside : progress.inside = false → progress = .outside progress.round

theorem rounds_le {length before after rest : Nat} (short : rest < length)
    (order : before * length ≤ after * length + rest) : before ≤ after := by
  by_contra more
  have next : (after + 1) * length ≤ before * length := Nat.mul_le_mul_right length (by omega)
  rw [Nat.succ_mul] at next
  omega

theorem child_behind {low high : Nat} (edge : IsChild size low high)
    (traffic : Traffic size blob progress pending wire) (shape : Shape size high (progress high))
    (other : ¬ ((progress high).inside = true ∧ (progress high).got = level low)) :
    (progress low).round ≤ (progress high).round := by
  have source := edge.level_lt
  have order := (traffic high low).1
  have length := edge.length_scattered
  rw [received, if_neg edge.asymm, if_pos edge, sent, if_neg edge.asymm, if_pos edge] at order
  by_cases asked : (progress high).inside = true ∧ level low ≤ (progress high).got
  · rw [if_pos asked] at order
    obtain ⟨underway, incomplete⟩ := shape.inside asked.1
    have differs : (progress high).got ≠ level low :=
      fun same => other ⟨asked.1, same⟩
    have short : 1 + ((progress high).got - level low - 1)
        + (progress high).down < (scattered size low).length := by
      have children := underway.children
      have blocks := underway.blocks
      rcases Nat.lt_or_ge (progress high).got (degree size high) with less | all
      · have none : (progress high).down = 0 := by
          by_contra some
          have full := underway.order (Nat.pos_iff_ne_zero.mpr some)
          omega
        omega
      · have fewer : (progress high).down ≠ (scattered size high).length :=
          fun same => incomplete ⟨by omega, same⟩
        omega
    exact rounds_le short (by omega)
  · rw [if_neg asked] at order
    have positive : 0 < (scattered size low).length := by omega
    exact rounds_le positive (by omega)

/-- Two messages of a neighbor can be under way only to a node that is waiting
for the first one. -/
theorem ready_of_two (traffic : Traffic size blob progress pending wire)
    (shapes : ∀ rank, Shape size rank (progress rank))
    (two : received size target (progress target) source + 2
      ≤ sent size source (progress source) target) :
    (progress target).inside = true ∧ Ready size target (progress target) source := by
  by_cases up : IsChild size source target
  · by_cases waiting : (progress target).inside = true ∧ (progress target).got = level source
    · refine ⟨waiting.1, .inl ⟨?_, ?_⟩⟩
      · rw [waiting.2]
        exact up.level_lt
      · rw [waiting.2]
        exact up.eq_child
    · have behind := child_behind up traffic (shapes target) waiting
      rw [received, if_pos up, sent, if_pos up] at two
      split at two <;> split at two <;> omega
  · by_cases down : IsChild size target source
    · by_cases waiting : (progress target).inside = true
          ∧ (progress target).got = degree size target
      · exact ⟨waiting.1, .inr ⟨waiting.2, down.1, down.2.2.symm⟩⟩
      · exfalso
        have order := (traffic target source).1
        rw [received, if_pos down, sent, if_pos down, if_neg waiting] at order
        rw [received, if_neg up, if_pos down, sent, if_neg up, if_pos down]
          at two
        have length := down.length_scattered
        have place := down.level_lt
        have upper : (if (progress source).inside = true ∧ level target ≤ (progress source).got then
            1 + ((progress source).got - level target - 1) + (progress source).down
          else 0) ≤ (scattered size target).length := by
          split
          · rename_i asked
            obtain ⟨underway, -⟩ := (shapes source).inside asked.1
            have children := underway.children
            have blocks := underway.blocks
            omega
          · omega
        rcases Nat.lt_or_ge (progress source).round (progress target).round with less | same
        · have next : ((progress source).round + 1) * (scattered size target).length
              ≤ (progress target).round * (scattered size target).length :=
            Nat.mul_le_mul_right _ less
          rw [Nat.succ_mul] at next
          omega
        · have equal : (progress source).round = (progress target).round := by
            split at order <;> omega
          rw [equal] at two
          split at two
          · rename_i asked
            obtain ⟨underway, -⟩ := (shapes source).inside asked.1
            have unread : ¬ level target < (progress source).got := by
              intro read
              rw [if_pos read] at order
              omega
            have none : (progress source).down = 0 := by
              by_contra some
              have full := underway.order (Nat.pos_iff_ne_zero.mpr some)
              omega
            omega
          · omega
    · rw [sent_other up down] at two
      omega

/-! ## What is waiting -/

variable {msgs : List (FenceMsg Byte)}

theorem mem_ofSource (member : msg ∈ msgs) : msg ∈ ofSource msg.sRank msgs := by
  simp [ofSource, member]

theorem ofSource_single (single : (msgs.map FenceMsg.sRank).Nodup)
    (member : msg ∈ msgs) : ofSource msg.sRank msgs = [msg] := by
  induction msgs with
  | nil => exact absurd member not_mem_nil
  | cons head tail induction =>
    rw [map_cons, nodup_cons] at single
    rcases mem_cons.mp member with rfl | later
    · have none : ofSource msg.sRank tail = [] := by
        simp only [ofSource, filter_eq_nil_iff, decide_eq_true_eq]
        intro other inside same
        exact single.1 (mem_map.mpr ⟨other, inside, same⟩)
      rw [ofSource] at none ⊢
      rw [filter_cons, if_pos (by simp), none]
    · have differs : ¬ head.sRank = msg.sRank := by
        intro same
        exact single.1 (mem_map.mpr ⟨msg, later, same.symm⟩)
      rw [ofSource, filter_cons, if_neg (by simpa using differs)]
      exact induction single.2 later

/-- A waiting message was sent and is not counted as handled. -/
theorem Traffic.unread (traffic : Traffic size blob progress pending wire)
    (member : msg ∈ pending target) :
    received size target (progress target) msg.sRank
      < sent size msg.sRank (progress msg.sRank) target := by
  have inside := mem_append_left (wire msg.sRank target) (mem_ofSource member)
  rw [(traffic msg.sRank target).2, mem_window] at inside
  obtain ⟨number, above, below, -⟩ := inside
  omega

theorem participants_of_sent {state : Progress}
    (some : 0 < sent size source state target) :
    source < size ∧ target < size := by
  by_cases up : IsChild size source target
  · exact ⟨up.2.1, Nat.lt_trans up.lt up.2.1⟩
  · by_cases down : IsChild size target source
    · exact ⟨Nat.lt_trans down.lt down.2.1, down.2.1⟩
    · rw [sent_other up down] at some
      omega

/-- The waiting messages are the next ones on their channels. -/
theorem Traffic.waiting (traffic : Traffic size blob progress pending wire)
    (single : ((pending rank).map FenceMsg.sRank).Nodup)
    (incomplete : ¬ Complete size rank (progress rank)) :
    Waiting size blob rank (progress rank) (pending rank) where
  single := single
  small := by
    intro msg member
    have unread := traffic.unread member
    exact (participants_of_sent (Nat.lt_of_le_of_lt (Nat.zero_le _) unread)).1
  heads := by
    intro msg member
    have whole := (traffic msg.sRank rank).2
    rw [ofSource_single single member, singleton_append] at whole
    exact (window_head whole).2.1
  quiet := fun complete => absurd complete incomplete

/-- A message arrives when none of its sender is waiting. -/
theorem Traffic.fresh {rest : List (FenceMsg Byte)}
    (traffic : Traffic size blob progress pending wire)
    (shapes : ∀ rank, Shape size rank (progress rank))
    (unready : (progress target).inside = true →
      ∀ other ∈ pending target, ¬ Ready size target (progress target) other.sRank)
    (head : wire source target = msg :: rest) :
    ∀ other ∈ pending target, other.sRank ≠ source := by
  rintro other member rfl
  have count := congrArg List.length (traffic other.sRank target).2
  rw [head, length_append, length_cons, length_window] at count
  have one := length_pos_of_mem (mem_ofSource member)
  have two : received size target (progress target) other.sRank + 2
      ≤ sent size other.sRank (progress other.sRank) target := by omega
  obtain ⟨inside, ready⟩ := ready_of_two traffic shapes two
  exact unready inside other member ready

theorem single_arrive (single : (msgs.map FenceMsg.sRank).Nodup)
    (fresh : ∀ other ∈ msgs, other.sRank ≠ msg.sRank) :
    ((msgs ++ [msg]).map FenceMsg.sRank).Nodup :=
  Snoc.nodup_map single fresh

theorem left_nil {after : Progress} {left : List (FenceMsg Byte)}
    {sends : Sends Byte} (traffic : Traffic size blob progress pending wire)
    (shape : Shape size rank (progress rank))
    (single : ((pending rank).map FenceMsg.sRank).Nodup)
    (handled : Handled size blob rank (progress rank) after (pending rank)
      left sends)
    (unready : ∀ other ∈ left, ¬ Ready size rank after other.sRank)
    (complete : Complete size rank after) : left = [] := by
  rw [eq_nil_iff_forall_not_mem]
  intro msg member
  have waiting := handled.members msg member
  have unread := traffic.unread waiting
  have reads := handled.reads msg.sRank
  have count := congrArg List.length reads.2
  rw [ofSource_single single waiting, length_append, length_window, length_singleton] at count
  have one := length_pos_of_mem (mem_ofSource member)
  have same : received size rank after msg.sRank
      = received size rank (progress rank) msg.sRank := by
    have order := reads.1
    omega
  have participant := (participants_of_sent (Nat.lt_of_le_of_lt (Nat.zero_le _) unread)).2
  rcases neighbor_cases size rank msg.sRank with
    ⟨positive, source⟩ | ⟨i, source, place⟩ | ⟨up, down⟩
  · exact unready msg member (.inr ⟨complete.1, positive, source⟩)
  · -- the message of this source was handled before
    rw [place, received_child source, received_child source, handled.round,
      complete.1, if_pos source] at same
    have known : i < (progress rank).got := by
      by_contra unknown
      rw [if_neg unknown] at same
      omega
    have edge := isChild_child source
    have behind := child_behind edge traffic shape (by
      rintro ⟨-, asked⟩
      rw [level_child source] at asked
      omega)
    rw [place, received_child source, if_pos known, sent, if_pos edge] at unread
    split at unread <;> omega
  · rw [sent_other down up] at unread
    omega

end Psmgmt.Pmix
