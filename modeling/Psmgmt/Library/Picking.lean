import Mathlib

/-!
# Picking the lowest free item of a group

A walk visits items one after the other.  Where it meets a free item, the lowest
free item of the same group is picked instead.  Items may get lost: the picked
item is met later, or the one that was met is never picked.
-/

namespace Picking

open List

variable {α β : Type} [DecidableEq β]

def mates (group : α → β) (free : Finset α) (name : β) : Finset α :=
  free.filter (fun item => group item = name)

theorem mem_mates {group : α → β} {free : Finset α} {name : β} {item : α} :
    item ∈ mates group free name ↔ item ∈ free ∧ group item = name :=
  Finset.mem_filter

variable [LinearOrder α]

def lowest (group : α → β) (free : Finset α) (item : α) : α :=
  if some : (mates group free (group item)).Nonempty then
    (mates group free (group item)).min' some
  else item

def picks (group : α → β) : (need : Nat) → (walk : List α) → (free : Finset α) → List α
  | 0, _, _ => []
  | _ + 1, [], _ => []
  | need + 1, item :: rest, free =>
    if item ∈ free then
      lowest group free item :: picks group need rest (free.erase (lowest group free item))
    else picks group (need + 1) rest free

def left (group : α → β) : (walk : List α) → (free : Finset α) → Finset α
  | [], free => free
  | item :: rest, free =>
    if item ∈ free then
      left group rest (free.erase (lowest group free item))
    else left group rest free

/-- How often a whole walk meets a free item. -/
def hits (group : α → β) : (walk : List α) → (free : Finset α) → Nat
  | [], _ => 0
  | item :: rest, free =>
    if item ∈ free then
      hits group rest (free.erase (lowest group free item)) + 1
    else hits group rest free

section Lowest

variable {group : α → β} {free : Finset α} {item : α}

theorem lowest_mem (met : item ∈ free) : lowest group free item ∈ free ∧
    group (lowest group free item) = group item := by
  have some : (mates group free (group item)).Nonempty := ⟨item, mem_mates.mpr ⟨met, rfl⟩⟩
  rw [lowest, dif_pos some]
  exact mem_mates.mp (Finset.min'_mem _ some)

theorem lowest_le {other : α} (met : item ∈ free) (inside : other ∈ free)
    (same : group other = group item) :
    lowest group free item ≤ other := by
  have some : (mates group free (group item)).Nonempty := ⟨item, mem_mates.mpr ⟨met, rfl⟩⟩
  rw [lowest, dif_pos some]
  exact Finset.min'_le _ _ (mem_mates.mpr ⟨inside, same⟩)

end Lowest

/-! ## What is picked -/

variable {group : α → β}

section

variable (need : Nat) (walk : List α) (free : Finset α)

include need walk free

theorem picks_mem : ∀ item ∈ picks group need walk free, item ∈ free := by
  induction walk generalizing need free with
  | nil => cases need <;> simp [picks]
  | cons first rest induction =>
    cases need with
    | zero => simp [picks]
    | succ need =>
      rw [picks]
      split
      · rename_i met
        intro item member
        rcases mem_cons.mp member with rfl | later
        · exact (lowest_mem met).1
        · exact Finset.mem_of_mem_erase (induction need _ item later)
      · exact induction (need + 1) free

theorem picks_nodup : (picks group need walk free).Nodup := by
  induction walk generalizing need free with
  | nil => cases need <;> simp [picks]
  | cons first rest induction =>
    cases need with
    | zero => simp [picks]
    | succ need =>
      rw [picks]
      split
      · refine nodup_cons.mpr ⟨?_, induction need _⟩
        intro member
        exact Finset.notMem_erase _ _ (picks_mem need rest _ _ member)
      · exact induction (need + 1) free

theorem length_picks : (picks group need walk free).length = min need (hits group walk free) := by
  induction walk generalizing need free with
  | nil => cases need <;> simp [picks, hits]
  | cons first rest induction =>
    cases need with
    | zero => simp [picks]
    | succ need =>
      rw [picks, hits]
      split
      · rw [length_cons, induction]
        omega
      · exact induction (need + 1) free

end

/-! ## Ascending walks -/

/-- The walk meets the items of each group in ascending order. -/
def Ascending (group : α → β) (walk : List α) : Prop :=
  walk.Pairwise (fun earlier later => group earlier = group later → earlier < later)

def metIn (group : α → β) (walk : List α) (free : Finset α) (name : β) : Finset α :=
  (mates group free name).filter (fun item => item ∈ walk)

theorem mem_metIn {walk : List α} {free : Finset α} {name : β} {item : α} :
    item ∈ metIn group walk free name ↔ item ∈ free ∧ group item = name ∧ item ∈ walk := by
  rw [metIn, Finset.mem_filter, mem_mates, and_assoc]

section Ascending

variable {first : α} {rest : List α} {free : Finset α}

section

variable (ascending : Ascending group (first :: rest)) (met : first ∈ free)

include ascending met

theorem lowest_not_mem_rest : lowest group free first ∉ rest := by
  intro member
  have above := (pairwise_cons.mp ascending).1 _ member (lowest_mem met).2.symm
  exact absurd (lowest_le met met rfl) (not_le.mpr above)

/-- Picking takes nothing away that is still to come. -/
theorem metIn_erase (name : β) :
    metIn group rest (free.erase (lowest group free first)) name = metIn group rest free name := by
  ext item
  rw [mem_metIn, mem_metIn, Finset.mem_erase]
  constructor
  · rintro ⟨⟨_, inside⟩, same, member⟩
    exact ⟨inside, same, member⟩
  · rintro ⟨inside, same, member⟩
    refine ⟨⟨?_, inside⟩, same, member⟩
    rintro rfl
    exact lowest_not_mem_rest ascending met member

theorem card_metIn_cons (name : β) : (metIn group (first :: rest) free name).card =
      (metIn group rest free name).card +
        if group first = name then 1 else 0 := by
  have fresh : first ∉ rest := by
    intro member
    exact lt_irrefl first ((pairwise_cons.mp ascending).1 first member
      rfl)
  by_cases same : group first = name
  · have split : metIn group (first :: rest) free name =
        insert first (metIn group rest free name) := by
      ext item
      rw [Finset.mem_insert, mem_metIn, mem_metIn, mem_cons]
      constructor
      · rintro ⟨inside, own, rfl | member⟩
        · exact .inl rfl
        · exact .inr ⟨inside, own, member⟩
      · rintro (rfl | ⟨inside, own, member⟩)
        · exact ⟨met, same, .inl rfl⟩
        · exact ⟨inside, own, .inr member⟩
    rw [split, Finset.card_insert_of_notMem
      (fun member => fresh (mem_metIn.mp member).2.2), if_pos same]
  · have equal : metIn group (first :: rest) free name = metIn group rest free name := by
      ext item
      rw [mem_metIn, mem_metIn, mem_cons]
      constructor
      · rintro ⟨inside, own, rfl | member⟩
        · exact absurd own same
        · exact ⟨inside, own, member⟩
      · rintro ⟨inside, own, member⟩
        exact ⟨inside, own, .inr member⟩
    rw [equal, if_neg same, Nat.add_zero]

end

theorem metIn_cons_of_not_mem (absent : first ∉ free) (name : β) :
    metIn group (first :: rest) free name = metIn group rest free name := by
  ext item
  rw [mem_metIn, mem_metIn, mem_cons]
  constructor
  · rintro ⟨inside, own, rfl | member⟩
    · exact absurd inside absent
    · exact ⟨inside, own, member⟩
  · rintro ⟨inside, own, member⟩
    exact ⟨inside, own, .inr member⟩

theorem hits_ascending {walk : List α} (ascending : Ascending group walk) (free : Finset α)
    {names : Finset β} (named : ∀ item ∈ free, group item ∈ names) :
    hits group walk free = ∑ name ∈ names, (metIn group walk free name).card := by
  induction walk generalizing free with
  | nil => simp [hits, metIn]
  | cons first rest induction =>
    have later := (pairwise_cons.mp ascending).2
    rw [hits]
    split
    · rename_i met
      rw [induction later _ (fun item inside => named item (Finset.mem_of_mem_erase inside))]
      simp only [metIn_erase ascending met, card_metIn_cons ascending met, Finset.sum_add_distrib]
      rw [Finset.sum_ite_eq, if_pos (named first met)]
    · rename_i absent
      rw [induction later free named]
      simp only [metIn_cons_of_not_mem absent]

theorem metIn_left {upper lower : List α} (ascending : Ascending group upper) (free : Finset α)
    (below : ∀ item ∈ free, item ∈ lower ∨ ∀ other ∈ lower, group other = group item → other < item)
    (apart : ∀ item ∈ upper, item ∉ lower) (name : β) :
    (metIn group lower (left group upper free) name).card =
      (metIn group lower free name).card - (metIn group upper free name).card := by
  induction upper generalizing free with
  | nil => simp [left, metIn]
  | cons first rest induction =>
    have later := (pairwise_cons.mp ascending).2
    have restApart : ∀ item ∈ rest, item ∉ lower :=
      fun item member => apart item (mem_cons_of_mem _ member)
    rw [left]
    split
    · rename_i met
      rw [induction later _ (fun item inside =>
          below item (Finset.mem_of_mem_erase inside)) restApart,
        metIn_erase ascending met, card_metIn_cons ascending met]
      obtain ⟨picked, pickedGroup⟩ := @lowest_mem _ _ _ _ group free first met
      by_cases own : group first = name
      · rw [if_pos own]
        by_cases lowerFree : (metIn group lower free name).Nonempty
        · -- the lowest item is one of those below
          obtain ⟨other, member⟩ := lowerFree
          obtain ⟨inside, otherGroup, otherLower⟩ := mem_metIn.mp member
          have pickedLower : lowest group free first ∈ lower := by
            rcases below _ picked with here | above
            · exact here
            · have less := above other otherLower (by
                rw [otherGroup, pickedGroup, own])
              have least := @lowest_le _ _ _ _ group free first other met
                inside (by rw [otherGroup, own])
              exact absurd less (not_lt.mpr least)
          have pickedMet : lowest group free first ∈ metIn group lower free name :=
            mem_metIn.mpr ⟨picked, by rw [pickedGroup, own], pickedLower⟩
          have erased : metIn group lower (free.erase (lowest group free first)) name =
              (metIn group lower free name).erase (lowest group free first) := by
            ext item
            rw [mem_metIn, Finset.mem_erase, Finset.mem_erase, mem_metIn, and_assoc]
          rw [erased, Finset.card_erase_of_mem pickedMet]
          omega
        · rw [Finset.not_nonempty_iff_eq_empty] at lowerFree
          have none : metIn group lower (free.erase (lowest group free first)) name = ∅ := by
            rw [Finset.eq_empty_iff_forall_notMem] at lowerFree ⊢
            intro item member
            obtain ⟨inside, own, inLower⟩ := mem_metIn.mp member
            exact lowerFree item (mem_metIn.mpr ⟨Finset.mem_of_mem_erase inside, own, inLower⟩)
          rw [none, lowerFree]
          simp
      · have same : metIn group lower (free.erase (lowest group free first)) name = metIn group
            lower free name := by
          ext item
          rw [mem_metIn, mem_metIn, Finset.mem_erase]
          constructor
          · rintro ⟨⟨_, inside⟩, rest⟩
            exact ⟨inside, rest⟩
          · rintro ⟨inside, itemGroup, inLower⟩
            refine ⟨⟨?_, inside⟩, itemGroup, inLower⟩
            rintro rfl
            exact own (pickedGroup.symm.trans itemGroup)
        rw [same, if_neg own, Nat.add_zero]
    · rename_i absent
      rw [induction later free below restApart, metIn_cons_of_not_mem absent]

theorem hits_append (upper lower : List α) (free : Finset α) : hits group (upper ++ lower) free =
      hits group upper free + hits group lower (left group upper free) := by
  induction upper generalizing free with
  | nil => simp [hits, left]
  | cons first rest induction =>
    rw [cons_append, hits, hits, left]
    split
    · rw [induction]
      omega
    · exact induction free

theorem left_subset (walk : List α) (free : Finset α) :
    left group walk free ⊆ free := by
  induction walk generalizing free with
  | nil => exact Finset.Subset.refl free
  | cons first rest induction =>
    rw [left]
    split
    · exact (induction _).trans (Finset.erase_subset _ _)
    · exact induction free

/-- A walk that starts in the middle of an ascending one picks in each group
as much as the larger of its two parts holds. -/
theorem hits_rotated {upper lower : List α} (upperAscending : Ascending group upper)
    (lowerAscending : Ascending group lower) (free : Finset α)
    (below : ∀ item ∈ free, item ∈ lower ∨ ∀ other ∈ lower, group other = group item → other < item)
    (apart : ∀ item ∈ upper, item ∉ lower) {names : Finset β}
    (named : ∀ item ∈ free, group item ∈ names) :
    hits group (upper ++ lower) free = ∑ name ∈ names,
      max (metIn group upper free name).card (metIn group lower free name).card := by
  rw [hits_append, hits_ascending upperAscending free named,
    hits_ascending lowerAscending (left group upper free) (fun item inside =>
      named item (left_subset upper free inside)),
    ← Finset.sum_add_distrib]
  refine Finset.sum_congr rfl ?_
  intro name _
  rw [metIn_left upperAscending free below apart]
  omega

end Ascending

end Picking
