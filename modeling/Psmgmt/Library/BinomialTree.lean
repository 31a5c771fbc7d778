import Mathlib

/-!
# Binomial trees and what they gather

The nodes `0 .. size - 1` form a tree: the parent of a node is the node without
its lowest bit.  A node first gathers the subtrees of its children, the smallest
one first.  What it does not gather itself comes from its parent: what the
parent had before it asked this node, the subtrees of the node's later siblings
and then all that the parent itself is given.
-/

namespace BinomialTree

open List Option

/-- The position of the lowest bit of a node. -/
def level (node : Nat) : Nat := padicValNat 2 node

/-- The node without its lowest bit. -/
def parent (node : Nat) : Nat := node - 2 ^ level node

variable {node i size low high down got : Nat}

theorem pow_dvd_iff (positive : 0 < node) : 2 ^ i ∣ node ↔ i ≤ level node :=
  padicValNat_dvd_iff_le (Nat.pos_iff_ne_zero.mp positive)

theorem pow_level_le (positive : 0 < node) : 2 ^ level node ≤ node :=
  Nat.le_of_dvd positive ((pow_dvd_iff positive).mpr (Nat.le_refl _))

theorem parent_add (positive : 0 < node) : parent node + 2 ^ level node = node := by
  have bound := pow_level_le positive
  simp only [parent]
  omega

theorem parent_lt (positive : 0 < node) : parent node < node := by
  have whole := parent_add positive
  have power : 0 < 2 ^ level node := Nat.two_pow_pos _
  omega

theorem exists_degree (size node : Nat) : ∃ i, ¬(2 ^ (i + 1) ∣ node ∧ node + 2 ^ i < size) := by
  refine ⟨size, ?_⟩
  rintro ⟨-, small⟩
  have large : size < 2 ^ size := Nat.lt_two_pow_self
  omega

/-- The number of children of a node. -/
def degree (size node : Nat) : Nat := Nat.find (exists_degree size node)

theorem lt_degree : i < degree size node ↔ 2 ^ (i + 1) ∣ node ∧ node + 2 ^ i < size := by
  rw [degree, Nat.lt_find_iff]
  constructor
  · intro all
    exact not_not.mp (all i (Nat.le_refl i))
  · rintro ⟨divides, small⟩ j below failed
    refine failed ⟨?_, ?_⟩
    · exact (pow_dvd_pow 2 (by omega)).trans divides
    · have smaller : 2 ^ j ≤ 2 ^ i := Nat.pow_le_pow_right (by omega) below
      omega

theorem degree_le_level (positive : 0 < node) : degree size node ≤ level node := by
  rcases Nat.lt_or_ge (level node) (degree size node) with more | less
  · have divides := (pow_dvd_iff positive).mp (lt_degree.mp more).1
    omega
  · exact less

theorem size_le_of_degree_lt (fewer : degree size node < level node ∨ node = 0) :
    size ≤ node + 2 ^ degree size node := by
  have last : ¬ degree size node < degree size node := Nat.lt_irrefl _
  rw [lt_degree] at last
  rcases Nat.lt_or_ge (node + 2 ^ degree size node) size with inside | beyond
  · exfalso
    refine last ⟨?_, inside⟩
    rcases fewer with fewer | zero
    · rcases Nat.eq_zero_or_pos node with zero | positive
      · rw [zero]; exact dvd_zero _
      · exact (pow_dvd_iff positive).mpr fewer
    · rw [zero]; exact dvd_zero _
  · exact beyond

/-- The child that a node asks as the `i`th one. -/
def child (node i : Nat) : Nat := node + 2 ^ i

theorem child_injective (node : Nat) : Function.Injective (child node) := by
  intro i j same
  have powers : 2 ^ i = 2 ^ j := by
    simp only [child] at same
    omega
  exact Nat.pow_right_injective (Nat.le_refl 2) powers

theorem child_pos (node i : Nat) : 0 < child node i := by
  have power : 0 < 2 ^ i := Nat.two_pow_pos i
  simp only [child]
  omega

theorem lt_child (node i : Nat) : node < child node i := by
  have power : 0 < 2 ^ i := Nat.two_pow_pos i
  simp only [child]
  omega

theorem child_lt (inside : i < degree size node) : child node i < size := (lt_degree.mp inside).2

theorem level_child (inside : i < degree size node) : level (child node i) = i := by
  have divides := (lt_degree.mp inside).1
  have half : 2 ^ i ∣ node := (pow_dvd_pow 2 (Nat.le_succ i)).trans divides
  apply Nat.le_antisymm
  · apply Nat.le_of_not_lt
    intro more
    have whole : 2 ^ (i + 1) ∣ node + 2 ^ i := (pow_dvd_iff (child_pos node i)).mpr more
    have single : 2 ^ (i + 1) ∣ 2 ^ i := (Nat.dvd_add_right divides).mp whole
    have small := Nat.le_of_dvd (Nat.two_pow_pos i) single
    rw [Nat.pow_succ] at small
    have power : 0 < 2 ^ i := Nat.two_pow_pos i
    omega
  · exact (pow_dvd_iff (child_pos node i)).mp ((Nat.dvd_add_right half).mpr (dvd_refl _))

theorem parent_child (inside : i < degree size node) : parent (child node i) = node := by
  rw [parent, level_child inside, child, Nat.add_sub_cancel]

/-- A node other than the root is a child of its parent. -/
def IsChild (size low high : Nat) : Prop := 0 < low ∧ low < size ∧ parent low = high

instance (size low high : Nat) : Decidable (IsChild size low high) :=
  inferInstanceAs (Decidable (_ ∧ _ ∧ _))

theorem isChild_child (inside : i < degree size node) : IsChild size (child node i) node :=
  ⟨child_pos node i, child_lt inside, parent_child inside⟩

theorem isChild_parent (positive : 0 < node) (inside : node < size) :
    IsChild size node (parent node) :=
  ⟨positive, inside, rfl⟩

section

variable (edge : IsChild size low high)

include edge

theorem IsChild.eq_child : low = child high (level low) := by
  rw [child, ← edge.2.2, parent_add edge.1]

theorem IsChild.level_lt : level low < degree size high := by
  have whole := parent_add edge.1
  rw [edge.2.2] at whole
  rw [lt_degree, whole]
  refine ⟨?_, edge.2.1⟩
  -- both halves of `low` are odd multiples of its lowest bit
  obtain ⟨odd, times⟩ := (pow_dvd_iff edge.1).mpr (Nat.le_refl (level low))
  have power : 0 < 2 ^ level low := Nat.two_pow_pos _
  have even : ¬ 2 ∣ odd := by
    rintro ⟨half, rfl⟩
    have more : 2 ^ (level low + 1) ∣ 2 ^ level low * (2 * half) := ⟨half, by ring⟩
    rw [← times] at more
    have bound := (pow_dvd_iff edge.1).mp more
    omega
  have rest : high = 2 ^ level low * (odd - 1) := by
    rw [Nat.mul_sub, Nat.mul_one, ← times]
    omega
  obtain ⟨half, twice⟩ : 2 ∣ odd - 1 := by omega
  exact ⟨half, by rw [rest, twice]; ring⟩

theorem IsChild.lt : high < low := by
  rw [← edge.2.2]
  exact parent_lt edge.1

theorem IsChild.asymm : ¬ IsChild size high low := by
  intro back
  have down := edge.lt
  have up := back.lt
  omega

end

/-! ## What a node gathers from its children -/

/-- The nodes a node has gathered after its first `count` children. -/
def gathered (size node count : Nat) : List Nat :=
  List.range' node (min size (node + 2 ^ count) - node)

/-- A node and all nodes below it. -/
def subtree (size node : Nat) : List Nat := gathered size node (degree size node)

theorem gathered_zero (inside : node < size) : gathered size node 0 = [node] := by
  have one : min size (node + 2 ^ 0) - node = 1 := by
    rw [Nat.pow_zero]
    omega
  rw [gathered, one, range'_one]

theorem gathered_length_pos {count : Nat} (inside : node < size) :
    0 < (gathered size node count).length := by
  have power : 0 < 2 ^ count := Nat.two_pow_pos count
  simp only [gathered, length_range']
  omega

theorem gathered_succ (inside : i < degree size node) :
    gathered size node (i + 1) = gathered size node i ++ subtree size (child node i) := by
  have small := child_lt inside
  have upper : min size (child node i + 2 ^ degree size (child node i))
      = min size (node + 2 ^ (i + 1)) := by
    have double : child node i + 2 ^ i = node + 2 ^ (i + 1) := by
      rw [child, Nat.pow_succ]
      omega
    have bound : degree size (child node i) ≤ level (child node i) :=
      degree_le_level (child_pos node i)
    rw [level_child inside] at bound
    rcases Nat.lt_or_ge (degree size (child node i)) i with fewer | all
    · have beyond : size ≤ child node i + 2 ^ degree size (child node i) := by
        apply size_le_of_degree_lt
        rw [level_child inside]
        exact .inl fewer
      have larger : 2 ^ degree size (child node i) ≤ 2 ^ i := Nat.pow_le_pow_right (by omega) bound
      omega
    · rw [Nat.le_antisymm bound all, double]
  have lower : min size (node + 2 ^ i) = child node i := by
    simp only [child] at small ⊢
    omega
  rw [subtree, gathered, gathered, gathered, upper, lower]
  have first : child node i = node + 1 * (child node i - node) := by
    have less := lt_child node i
    omega
  have less := lt_child node i
  have power : 2 ^ i ≤ 2 ^ (i + 1) := Nat.pow_le_pow_right (by omega) (by omega)
  conv_rhs => rw [show List.range' (child node i) (min size (node + 2 ^ (i + 1)) - child node i)
      = List.range' (node + 1 * (child node i - node))
        (min size (node + 2 ^ (i + 1)) - child node i) 1 by rw [← first]]
  rw [range'_append]
  congr 1
  simp only [child] at small ⊢
  omega

theorem gathered_append {size node : Nat} (i count : Nat)
    (inside : i + count ≤ degree size node) :
    gathered size node i ++ ((List.range' i count).map
      (fun j => subtree size (child node j))).flatten
      = gathered size node (i + count) := by
  induction count generalizing i with
  | zero => simp
  | succ count induction =>
    have first : i < degree size node := by omega
    have rest := induction (i + 1) (by omega)
    rw [range'_succ, map_cons, flatten_cons, ← append_assoc, ← gathered_succ first, rest]
    congr 1
    omega

theorem gathered_root : subtree size 0 = List.range size := by
  have beyond : size ≤ 0 + 2 ^ degree size 0 := size_le_of_degree_lt (.inr rfl)
  rw [subtree, gathered, Nat.min_eq_left beyond, Nat.sub_zero, range_eq_range']

/-! ## What a node is given by its parent -/

/-- The blocks a node is given by its parent, in their order. -/
def scattered (size node : Nat) : List (List Nat) :=
  if _ : node = 0 then []
  else
    gathered size (parent node) (level node) ::
      (List.range' (level node + 1) (degree size (parent node) - (level node + 1))).map
          (fun i => subtree size (child (parent node) i))
      ++ scattered size (parent node)
termination_by node
decreasing_by exact parent_lt (by omega)

theorem scattered_root (size : Nat) : scattered size 0 = [] := by
  rw [scattered]
  simp

theorem scattered_child (inside : i < degree size node) : scattered size (child node i)
      = gathered size node i :: (List.range' (i + 1) (degree size node - (i + 1))).map
            (fun j => subtree size (child node j))
          ++ scattered size node := by
  have positive := child_pos node i
  rw [scattered, dif_neg (by omega), parent_child inside, level_child inside]

theorem length_scattered_child (inside : i < degree size node) :
    (scattered size (child node i)).length
      = degree size node - i + (scattered size node).length := by
  rw [scattered_child inside]
  simp only [cons_append, length_cons, length_append, length_map, length_range']
  omega

theorem IsChild.length_scattered (edge : IsChild size low high) :
    (scattered size low).length = degree size high - level low + (scattered size high).length := by
  conv_lhs => rw [edge.eq_child]
  exact length_scattered_child edge.level_lt

theorem scattered_pos (positive : 0 < node) (inside : node < size) :
    0 < (scattered size node).length := by
  have edge := isChild_parent positive inside
  have below := edge.level_lt
  have count := edge.length_scattered
  omega

theorem scattered_first (inside : i < degree size node) :
    (scattered size (child node i))[0]? = some (gathered size node i) := by
  rw [scattered_child inside]
  rfl

theorem scattered_sibling {j : Nat} (inside : j < degree size node)
    (later : i < j) :
    (scattered size (child node i))[j - i]? = some (subtree size (child node j)) := by
  rw [scattered_child (by omega)]
  obtain ⟨rest, rfl⟩ := Nat.exists_eq_add_of_lt later
  have place : i + rest + 1 - i = rest + 1 := by omega
  have bound : rest < degree size node - (i + 1) := by omega
  rw [place, cons_append, getElem?_cons_succ,
    getElem?_append_left (by simpa using bound), getElem?_map,
    getElem?_range' bound]
  simp only [map_some]
  congr 3
  omega

/-- Last what the parent is given. -/
theorem scattered_last (inside : i < degree size node) :
    (scattered size (child node i))[degree size node - i + down]?
      = (scattered size node)[down]? := by
  rw [scattered_child inside]
  have place : degree size node - i + down
      = (gathered size node i :: (List.range' (i + 1) (degree size node - (i + 1))).map
            (fun j => subtree size (child node j))).length + down := by
    simp only [length_cons, length_map, length_range']
    omega
  rw [place, getElem?_append_right (by omega), Nat.add_sub_cancel_left]

theorem parent_induction {size : Nat} {property : Nat → Prop}
    (root : property 0)
    (children : ∀ node i, i < degree size node → property node →
      property (child node i)) (node : Nat) (inside : node < size) :
    property node := by
  induction node using Nat.strong_induction_on with
  | _ node induction =>
    rcases Nat.eq_zero_or_pos node with zero | positive
    · rw [zero]
      exact root
    · have edge := isChild_parent positive inside
      have below := parent_lt positive
      rw [edge.eq_child]
      exact children _ _ edge.level_lt (induction _ below (by omega))

theorem scattered_block_pos (inside : node < size) :
    ∀ block ∈ scattered size node, 0 < block.length := by
  refine @parent_induction size (fun node => ∀ block ∈ scattered size node, 0 < block.length) ?_ ?_
    node inside
  · intro block member
    rw [scattered_root] at member
    exact absurd member not_mem_nil
  · intro node i inside above block member
    rw [scattered_child inside, mem_append, mem_cons] at member
    rcases member with (first | sibling) | last
    · rw [first]
      exact gathered_length_pos (Nat.lt_trans (lt_child node i) (child_lt inside))
    · obtain ⟨j, place, rfl⟩ := mem_map.mp sibling
      rw [mem_range'_1] at place
      exact gathered_length_pos (child_lt (by omega))
    · exact above block last

theorem gathers_all (inside : node < size) :
    (subtree size node ++ (scattered size node).flatten).Perm (List.range size) := by
  refine @parent_induction size
    (fun node =>
      (subtree size node ++ (scattered size node).flatten).Perm (List.range size)) ?_ ?_ node inside
  · rw [scattered_root, flatten_nil, append_nil, gathered_root]
  · intro node i inside above
    refine List.Perm.trans ?_ above
    have rest := @gathered_append size node (i + 1) (degree size node - (i + 1)) (by omega)
    rw [show i + 1 + (degree size node - (i + 1)) = degree size node by omega]
      at rest
    rw [scattered_child inside, flatten_append, flatten_cons, ← append_assoc, ← append_assoc]
    apply List.Perm.append_right
    have whole : subtree size node = gathered size node (degree size node) := rfl
    rw [whole, ← rest, gathered_succ inside]
    apply List.Perm.append_right
    exact perm_append_comm

/-! ## What a node holds on its way -/

/-- What a node holds after `got` children and `down` blocks of its parent. -/
def held (size node got down : Nat) : List Nat :=
  gathered size node got ++ ((scattered size node).take down).flatten

@[simp] theorem held_zero_down (size node got : Nat) :
    held size node got 0 = gathered size node got := by
  simp [held]

theorem held_block {block : List Nat}
    (next : (scattered size node)[down]? = some block) :
    held size node got (down + 1) = held size node got down ++ block := by
  rw [held, held, take_add_one, next, toList_some, flatten_append, append_assoc]
  simp

theorem held_complete (inside : node < size) :
    (held size node (degree size node) (scattered size node).length).Perm (List.range size) := by
  rw [held, take_length]
  exact gathers_all inside

theorem gathered_length_lt (fewer : got < degree size node) :
    (gathered size node got).length < (subtree size node).length := by
  have rest := @gathered_append size node got (degree size node - got) (by omega)
  rw [show got + (degree size node - got) = degree size node by omega] at rest
  rw [subtree, ← rest, length_append]
  have first : got < got + (degree size node - got) := by omega
  have count : degree size node - got = degree size node - got - 1 + 1 := by
    omega
  rw [count, range'_succ, map_cons, flatten_cons, length_append]
  have positive : 0 < (gathered size (child node got) (degree size (child node got))).length :=
    gathered_length_pos (child_lt fewer)
  simp only [subtree]
  omega

theorem take_flatten_length_lt {α : Type*} {blocks : List (List α)}
    (positive : ∀ block ∈ blocks, 0 < block.length) (fewer : down < blocks.length) :
    (blocks.take down).flatten.length < blocks.flatten.length := by
  conv_rhs => rw [← take_append_drop down blocks]
  rw [flatten_append, length_append, drop_eq_getElem_cons fewer, flatten_cons, length_append]
  have one := positive _ (getElem_mem fewer)
  omega

theorem held_length_lt (inside : node < size) (children : got ≤ degree size node)
    (blocks : down ≤ (scattered size node).length) (order : 0 < down → got = degree size node)
    (incomplete : ¬(got = degree size node ∧ down = (scattered size node).length)) :
    (held size node got down).length < size := by
  have all := (gathers_all inside).length_eq
  rw [length_range, length_append] at all
  rw [held, length_append]
  rcases Nat.lt_or_ge got (degree size node) with fewer | full
  · have none : down = 0 := by
      by_contra some
      have full := order (Nat.pos_iff_ne_zero.mpr some)
      omega
    have less := gathered_length_lt fewer
    rw [none, take_zero, flatten_nil, length_nil]
    omega
  · have whole : got = degree size node := Nat.le_antisymm children full
    have fewer : down < (scattered size node).length := by
      rcases Nat.lt_or_ge down (scattered size node).length with less | more
      · exact less
      · exact absurd ⟨whole, Nat.le_antisymm blocks more⟩ incomplete
    have less := take_flatten_length_lt (scattered_block_pos inside) fewer
    rw [whole]
    simp only [subtree] at all
    omega

/-- With at most `2 ^ bound` nodes no node has more than `bound` children. -/
theorem degree_le {bound : Nat} (small : size ≤ 2 ^ bound) : degree size node ≤ bound := by
  rcases Nat.lt_or_ge bound (degree size node) with more | less
  · have inside := (lt_degree.mp more).2
    omega
  · exact less

end BinomialTree
