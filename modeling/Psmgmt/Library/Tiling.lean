import Mathlib

/-!
# Blocks that tile an initial segment

Blocks of natural numbers, each given by its start and its size, that were
put one behind the other.  Empty blocks may lie anywhere.
-/

/-- The numbers in a block. -/
def Block.range (block : Nat × Nat) : Set Nat := Set.Ico block.1 (block.1 + block.2)

/-- The blocks tile the numbers below the total. -/
inductive Tiles : List (Nat × Nat) → Nat → Prop where
  | nil : Tiles [] 0
  | snoc {blocks : List (Nat × Nat)} {total : Nat} (tiles : Tiles blocks total)
      (size : Nat) : Tiles (blocks ++ [(total, size)]) (total + size)
  | empty {blocks : List (Nat × Nat)} {total : Nat} (tiles : Tiles blocks total)
      (start : Nat) : Tiles (blocks ++ [(start, 0)]) total

namespace Tiles

open Block
open List hiding range

variable {blocks : List (Nat × Nat)} {total : Nat}

theorem range_empty (start : Nat) : range (start, 0) = ∅ := by
  simp [range]

theorem range_below (tiles : Tiles blocks total) :
    ∀ block ∈ blocks, range block ⊆ Set.Iio total := by
  induction tiles with
  | nil => intro block member; cases member
  | snoc tiles size induction =>
    intro block member
    rcases mem_append.mp member with earlier | last
    · intro x inside
      exact Nat.lt_of_lt_of_le (induction block earlier inside) (Nat.le_add_right _ _)
    · rw [mem_singleton.mp last]
      intro x inside
      exact inside.2
  | empty tiles start induction =>
    intro block member
    rcases mem_append.mp member with earlier | last
    · exact induction block earlier
    · rw [mem_singleton.mp last, range_empty]
      exact Set.empty_subset _

theorem pairwise_disjoint (tiles : Tiles blocks total) :
    blocks.Pairwise (fun left right => Disjoint (range left) (range right)) := by
  induction tiles with
  | nil => exact List.Pairwise.nil
  | snoc tiles size induction =>
    refine pairwise_append.mpr ⟨induction, pairwise_singleton _ _, ?_⟩
    intro left earlier right last
    rw [mem_singleton.mp last]
    refine Set.disjoint_left.mpr ?_
    intro x below above
    exact Nat.not_lt.mpr above.1 (tiles.range_below left earlier below)
  | empty tiles start induction =>
    refine pairwise_append.mpr ⟨induction, pairwise_singleton _ _, ?_⟩
    intro left _ right last
    rw [mem_singleton.mp last, range_empty]
    exact Set.disjoint_empty _

theorem covered (tiles : Tiles blocks total) (x : Nat) :
    (∃ block ∈ blocks, x ∈ range block) ↔ x < total := by
  constructor
  · rintro ⟨block, member, inside⟩
    exact tiles.range_below block member inside
  · intro below
    induction tiles with
    | nil => exact absurd below (Nat.not_lt_zero x)
    | @snoc blocks total tiles size induction =>
      by_cases earlier : x < total
      · rcases induction earlier with ⟨block, member, inside⟩
        exact ⟨block, mem_append_left _ member, inside⟩
      · exact ⟨(total, size), mem_append_right _ (mem_singleton_self _),
          ⟨Nat.not_lt.mp earlier, below⟩⟩
    | empty tiles start induction =>
      rcases induction below with ⟨block, member, inside⟩
      exact ⟨block, mem_append_left _ member, inside⟩

end Tiles
