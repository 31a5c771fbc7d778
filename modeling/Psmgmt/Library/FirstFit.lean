import Mathlib

/-!
# First-fit packing of disjoint sets

A set is merged into the first of some sets it is disjoint from.
-/

namespace FirstFit

variable {α : Type*} [DecidableEq α]

/-- Merge a set into the first one that is disjoint from it, if any. -/
def place : List (Finset α) → Finset α → Option (List (Finset α))
  | [], _ => none
  | set :: rest, new =>
    if Disjoint set new then some ((set ∪ new) :: rest)
    else (place rest new).map (set :: ·)

/-- In how many of the sets an element lies. -/
def count (element : α) (sets : List (Finset α)) : Nat := sets.countP (element ∈ ·)

/-- Empty sets come last. -/
def Packed : List (Finset α) → Prop
  | [] => True
  | set :: rest => (set = ∅ → ∀ other ∈ rest, other = ∅) ∧ Packed rest

variable {sets after : List (Finset α)} {new : Finset α}

theorem length_place (placed : place sets new = some after) : after.length = sets.length := by
  induction sets generalizing after with
  | nil => exact nomatch placed
  | cons set rest next =>
    rw [place] at placed
    split at placed
    · cases placed
      rfl
    · rw [Option.map_eq_some_iff] at placed
      obtain ⟨tail, placed, rfl⟩ := placed
      rw [List.length_cons, List.length_cons, next placed]

/-- Nothing is lost, and nothing is counted twice. -/
theorem count_place (placed : place sets new = some after) (element : α) :
    count element after = count element sets + if element ∈ new then 1 else 0 := by
  induction sets generalizing after with
  | nil => exact nomatch placed
  | cons set rest next =>
    rw [place] at placed
    split at placed
    · rename_i apart
      cases placed
      rw [count, count, List.countP_cons, List.countP_cons]
      have never : ¬(element ∈ set ∧ element ∈ new) := by
        intro both
        exact Finset.disjoint_left.mp apart both.1 both.2
      simp only [decide_eq_true_eq, Finset.mem_union]
      by_cases inSet : element ∈ set
      · by_cases inNew : element ∈ new
        · exact absurd ⟨inSet, inNew⟩ never
        · simp [inSet, inNew]
      · by_cases inNew : element ∈ new
        · simp [inSet, inNew]
        · simp [inSet, inNew]
    · rw [Option.map_eq_some_iff] at placed
      obtain ⟨tail, placed, rfl⟩ := placed
      have rest_ := next placed
      rw [count, count] at rest_
      rw [count, count, List.countP_cons, List.countP_cons, rest_]
      omega

theorem sum_card_place (placed : place sets new = some after) :
    (after.map Finset.card).sum = (sets.map Finset.card).sum + new.card := by
  induction sets generalizing after with
  | nil => exact nomatch placed
  | cons set rest next =>
    rw [place] at placed
    split at placed
    · rename_i apart
      cases placed
      rw [List.map_cons, List.map_cons, List.sum_cons, List.sum_cons,
        Finset.card_union_of_disjoint apart]
      omega
    · rw [Option.map_eq_some_iff] at placed
      obtain ⟨tail, placed, rfl⟩ := placed
      rw [List.map_cons, List.map_cons, List.sum_cons, List.sum_cons,
        next placed]
      omega

theorem place_empty {set : Finset α} {rest : List (Finset α)} :
    place (set :: rest) ∅ = some (set :: rest) := by
  rw [place, if_pos (Finset.disjoint_empty_right set), Finset.union_empty]

theorem Packed.place (packed : Packed sets)
    (placed : place sets new = some after) : Packed after := by
  induction sets generalizing after with
  | nil => exact nomatch placed
  | cons set rest next =>
    rw [FirstFit.place] at placed
    split at placed
    · cases placed
      refine ⟨?_, packed.2⟩
      intro empty
      exact packed.1 (Finset.union_eq_empty.mp empty).1
    · rename_i overlap
      rw [Option.map_eq_some_iff] at placed
      obtain ⟨tail, placed, rfl⟩ := placed
      refine ⟨?_, next packed.2 placed⟩
      rintro rfl
      exact absurd (Finset.disjoint_empty_left new) overlap

theorem packed_replicate (number : Nat) : Packed (List.replicate number (∅ : Finset α)) := by
  induction number with
  | zero => trivial
  | succ number next =>
    refine ⟨?_, next⟩
    intro _ other member
    exact List.eq_of_mem_replicate member

theorem count_replicate (element : α) (number : Nat) :
    count element (List.replicate number ∅) = 0 := by
  rw [count, List.countP_eq_zero]
  intro set member
  rw [List.eq_of_mem_replicate member]
  simp

theorem count_eq_zero {element : α} (empty : ∀ set ∈ sets, set = ∅) : count element sets = 0 := by
  rw [count, List.countP_eq_zero]
  intro set member
  rw [empty set member]
  simp

/-- Leaving out what follows the first empty set loses nothing. -/
theorem Packed.count_takeWhile (packed : Packed sets) (element : α) :
    count element (sets.takeWhile (· ≠ ∅)) = count element sets := by
  induction sets with
  | nil => rfl
  | cons set rest next =>
    rw [List.takeWhile_cons]
    split
    · have same := next packed.2
      rw [count, count] at same
      rw [count, count, List.countP_cons, List.countP_cons, same]
    · rename_i empty
      have empty : set = ∅ := by simpa using empty
      rw [count_eq_zero (List.forall_mem_cons.mpr ⟨empty, packed.1 empty⟩)]
      rfl

def placeAll (sets news : List (Finset α)) : Option (List (Finset α)) := news.foldlM place sets

theorem placeAll_cons (sets : List (Finset α)) (new : Finset α)
    (news : List (Finset α)) :
    placeAll sets (new :: news) = (place sets new).bind (fun sets => placeAll sets news) := by
  rw [placeAll, List.foldlM_cons]
  rfl

variable {news : List (Finset α)}

theorem placeAll_keeps {property : List (Finset α) → Prop}
    (keeps : ∀ sets after, ∀ new ∈ news, place sets new = some after →
      property sets → property after) (start : property sets)
    (placed : placeAll sets news = some after) : property after := by
  induction news generalizing sets with
  | nil =>
    cases placed
    exact start
  | cons new news next =>
    rw [placeAll_cons] at placed
    rcases first : place sets new with _ | middle
    · rw [first] at placed
      exact nomatch placed
    · rw [first] at placed
      apply next _ _ placed
      · intro sets after other member
        exact keeps sets after other (List.mem_cons_of_mem _ member)
      · exact keeps sets middle new List.mem_cons_self first start

section

variable (placed : placeAll sets news = some after)

include placed

theorem count_placeAll (element : α) :
    count element after = count element sets + count element news := by
  induction news generalizing sets with
  | nil =>
    cases placed
    rfl
  | cons new news next =>
    rw [placeAll_cons] at placed
    rcases first : place sets new with _ | middle
    · rw [first] at placed
      exact nomatch placed
    · rw [first] at placed
      have rest := next placed
      have here := count_place first element
      rw [rest, here, count, count, count, List.countP_cons]
      simp only [decide_eq_true_eq]
      omega

theorem length_placeAll : after.length = sets.length := by
  apply placeAll_keeps _ _ placed
  · intro middle after new _ one same
    exact (length_place one).trans same
  · rfl

theorem sum_card_placeAll :
    (after.map Finset.card).sum = (sets.map Finset.card).sum + (news.map Finset.card).sum := by
  induction news generalizing sets with
  | nil =>
    cases placed
    rfl
  | cons new news next =>
    rw [placeAll_cons] at placed
    rcases first : place sets new with _ | middle
    · rw [first] at placed
      exact nomatch placed
    · rw [first] at placed
      rw [next placed, sum_card_place first, List.map_cons, List.sum_cons]
      omega

end

theorem sum_card_le {bound : Nat}
    (small : ∀ set ∈ sets, set.card ≤ bound) :
    (sets.map Finset.card).sum ≤ sets.length * bound := by
  induction sets with
  | nil => exact Nat.zero_le _
  | cons set rest next =>
    obtain ⟨first, others⟩ := List.forall_mem_cons.mp small
    have tail := next others
    rw [List.map_cons, List.sum_cons, List.length_cons, Nat.succ_mul]
    omega

end FirstFit
