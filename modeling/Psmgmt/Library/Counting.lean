import Mathlib

/-!
# Counting

The number of elements of a finite set with a property, and what becomes of it
when the property changes for one element or the set grows.
-/

namespace Counting

variable {α : Type*}

def count (set : Finset α) (property : α → Bool) : Nat :=
  (set.filter (fun element => property element = true)).card

theorem count_eq_sum (set : Finset α) (property : α → Bool) :
    count set property = ∑ element ∈ set, if property element = true then 1 else 0 :=
  Finset.card_filter _ _

variable {set : Finset α} {property : α → Bool}

theorem count_congr {first second : α → Bool}
    (same : ∀ element ∈ set, first element = second element) :
    count set first = count set second := by
  rw [count, count]
  congr 1
  apply Finset.filter_congr
  intro element member
  rw [same element member]

theorem count_change [DecidableEq α] {set : Finset α} {before after : α → Bool} {element : α}
    (member : element ∈ set) (others : ∀ other, other ≠ element → after other = before other) :
    count set after + (if before element then 1 else 0) =
      count set before + (if after element then 1 else 0) := by
  have rest : ∑ other ∈ set.erase element, (if after other = true then 1 else 0) =
      ∑ other ∈ set.erase element, (if before other = true then 1 else 0) := by
    apply Finset.sum_congr rfl
    intro other outside
    rw [others other (Finset.ne_of_mem_erase outside)]
  rw [count_eq_sum, count_eq_sum, ← Finset.add_sum_erase set _ member,
    ← Finset.add_sum_erase set _ member, rest]
  omega

/-- The set grows by elements that all have, or all lack, the property. -/
theorem count_superset [DecidableEq α] {small large : Finset α}
    (inside : small ⊆ large) :
    count large property = count small property + count (large \ small) property := by
  rw [count_eq_sum, count_eq_sum, count_eq_sum, add_comm]
  exact (Finset.sum_sdiff inside).symm

theorem count_none (lacking : ∀ element ∈ set, property element = false) :
    count set property = 0 := by
  rw [count, Finset.card_eq_zero, Finset.filter_eq_empty_iff]
  intro element member holds
  rw [lacking element member] at holds
  exact Bool.false_ne_true holds

theorem count_all (having : ∀ element ∈ set, property element = true) :
    count set property = set.card := by
  rw [count, Finset.filter_true_of_mem having]

theorem count_pos : 0 < count set property ↔ ∃ element ∈ set, property element = true := by
  rw [count, Finset.card_pos]
  constructor
  · rintro ⟨element, member⟩
    rw [Finset.mem_filter] at member
    exact ⟨element, member.1, member.2⟩
  · rintro ⟨element, member, holds⟩
    exact ⟨element, Finset.mem_filter.mpr ⟨member, holds⟩⟩

/-- A stronger property holds as often exactly if it is no stronger. -/
theorem count_eq_iff {set : Finset α} {strong weak : α → Bool}
    (implies : ∀ element ∈ set, strong element = true → weak element = true) :
    count set strong = count set weak ↔
      ∀ element ∈ set, weak element = true → strong element = true := by
  have inside : set.filter (fun element => strong element = true) ⊆
      set.filter (fun element => weak element = true) := by
    intro element member
    rw [Finset.mem_filter] at member ⊢
    exact ⟨member.1, implies element member.1 member.2⟩
  constructor
  · intro equal element member holds
    have same := Finset.eq_of_subset_of_card_le inside (le_of_eq equal.symm)
    have found : element ∈ set.filter (fun element => weak element = true) :=
      Finset.mem_filter.mpr ⟨member, holds⟩
    rw [← same] at found
    exact (Finset.mem_filter.mp found).2
  · intro converse
    apply count_congr
    intro element member
    rw [Bool.eq_iff_iff]
    exact ⟨implies element member, converse element member⟩

theorem length_eq_count [DecidableEq α] {list : List α} (distinct : list.Nodup) {set : Finset α}
    {property : α → Bool}
    (members : ∀ element, element ∈ list ↔ element ∈ set ∧ property element = true) :
    list.length = count set property := by
  rw [count, ← List.toFinset_card_of_nodup distinct]
  congr 1
  apply Finset.ext
  intro element
  rw [List.mem_toFinset, Finset.mem_filter]
  exact members element

/-- One of the summands changes. -/
theorem sum_update {number : Nat} (value : Nat → Nat) {element : Nat}
    (inside : element < number) (new : Nat) :
    (Finset.range number).sum (Function.update value element new) + value element =
      (Finset.range number).sum value + new := by
  have member : element ∈ Finset.range number := Finset.mem_range.mpr inside
  rw [Finset.sum_update_of_mem member,
    ← Finset.add_sum_erase _ value member, Finset.sdiff_singleton_eq_erase]
  omega

end Counting
