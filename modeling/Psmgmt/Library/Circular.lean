import Mathlib

/-!
# Circular lists

Nodes with a pointer to the next and one to the previous node, linked to a ring
through a head.  Entries are added and deleted by changing pointers of their
neighbours; what a deleted entry points to stays.
-/

/-- The pointers of all nodes. -/
structure Links (Node : Type*) where
  next : Node → Node
  prev : Node → Node

namespace Links

open List Function Option

variable {Node : Type*} [DecidableEq Node]

/-- A node that points to itself. -/
def init (links : Links Node) (node : Node) : Links Node :=
  { next := update links.next node node
    prev := update links.prev node node }

/-- Put `new` between two nodes. -/
def add (links : Links Node) (new prev next : Node) : Links Node :=
  { next := update (update links.next new next) prev new
    prev := update (update links.prev next new) new prev }

def addTail (links : Links Node) (new head : Node) : Links Node :=
  links.add new (links.prev head) head

/-- Make the neighbours of an entry point to each other. -/
def del (links : Links Node) (entry : Node) : Links Node :=
  { next := update links.next (links.prev entry) (links.next entry)
    prev := update links.prev (links.next entry) (links.prev entry) }

def isEmpty (links : Links Node) (node : Node) : Bool := links.next node = node

/-! ## Paths -/

/-- Following `f` from `first` leads through `nodes` to `last`. -/
def Path (f : Node → Node) (first : Node) : List Node → Node → Prop
  | [], last => f first = last
  | node :: nodes, last => f first = node ∧ Path f node nodes last

variable {node : Node}

section Path

omit [DecidableEq Node]

variable {f g : Node → Node} {first last : Node} {front back nodes : List Node}

theorem path_append : Path f first (front ++ node :: back) last
      ↔ Path f first front node ∧ Path f node back last := by
  induction front generalizing first with
  | nil => exact Iff.rfl
  | cons head front induction =>
    show f first = head ∧ Path f head (front ++ node :: back) last ↔ _
    rw [induction]
    exact and_assoc.symm

theorem Path.congr (path : Path f first nodes last)
    (same : ∀ node ∈ first :: nodes, g node = f node) :
    Path g first nodes last := by
  induction nodes generalizing first with
  | nil => exact (same first mem_cons_self).trans path
  | cons node nodes induction =>
    exact ⟨(same first mem_cons_self).trans path.1,
      induction path.2 fun later member => same later (mem_cons_of_mem _ member)⟩

theorem Path.leads (path : Path f first nodes last) : f first = nodes.head?.getD last := by
  cases nodes with
  | nil => exact path
  | cons node nodes => exact path.1

theorem Path.restart (path : Path f first nodes last) {other : Node}
    (leads : g other = f first) (same : ∀ node ∈ nodes, g node = f node) :
    Path g other nodes last := by
  cases nodes with
  | nil => exact leads.trans path
  | cons node nodes => exact ⟨leads.trans path.1, path.2.congr same⟩

theorem getLast_mem (first : Node) (nodes : List Node) :
    nodes.getLast?.getD first ∈ first :: nodes := by
  cases nodes with
  | nil => exact mem_singleton_self _
  | cons node nodes =>
    rw [getLast?_cons, getD_some]
    refine mem_cons_of_mem _ ?_
    rcases found : nodes.getLast? with _ | final
    · exact mem_cons_self
    · exact mem_cons_of_mem _ (mem_of_getLast? found)

end Path

variable {new : Node}

section Update

variable {f : Node → Node} {first last : Node} {front back nodes : List Node}

theorem Path.redirect (path : Path f first nodes last)
    (different : (first :: nodes).Nodup) (target : Node) :
    Path (update f (nodes.getLast?.getD first) target) first nodes
      target := by
  induction nodes generalizing first with
  | nil => exact update_self _ _ _
  | cons node nodes induction =>
    have distinct := nodup_cons.mp different
    have final : (node :: nodes).getLast?.getD first = nodes.getLast?.getD node := by
      rw [getLast?_cons, getD_some]
    rw [final]
    refine ⟨?_, induction path.2 distinct.2⟩
    rw [update_of_ne, path.1]
    intro same
    exact distinct.1 (same ▸ getLast_mem node nodes)

theorem Path.through {middle start : Node} (begins : Path f first front middle)
    (ends : Path f start back last) (different : (first :: (front ++ new :: back)).Nodup) :
    Path (update (update f new (f start))
      (front.getLast?.getD first) new) first (front ++ new :: back) last := by
  have distinct : (new :: (first :: front ++ back)).Nodup := by
    rw [← cons_append, nodup_middle] at different
    exact different
  obtain ⟨absent, rest⟩ := nodup_cons.mp distinct
  obtain ⟨nodup, -, disjoint⟩ := nodup_append.mp rest
  rw [path_append]
  constructor
  · refine Path.redirect (begins.congr fun node member => ?_) nodup new
    refine update_of_ne (fun same => ?_) _ _
    exact absent (mem_append_left _ (same ▸ member))
  · have final := getLast_mem first front
    refine ends.restart ?_ fun node member => ?_
    · rw [update_of_ne, update_self]
      intro same
      exact absent (mem_append_left _ (same ▸ final))
    · rw [update_of_ne, update_of_ne]
      · intro same
        exact absent (mem_append_right _ (same ▸ member))
      · intro same
        exact disjoint _ final node member same.symm

theorem Path.skip (path : Path f first (front ++ node :: back) last)
    (different : (first :: (front ++ node :: back)).Nodup) :
    Path (update f (front.getLast?.getD first) (f node)) first (front ++ back) last := by
  obtain ⟨begins, ends⟩ := path_append.mp path
  rw [← cons_append] at different
  obtain ⟨nodup, -, disjoint⟩ := nodup_append.mp different
  have final := getLast_mem first front
  cases back with
  | nil =>
    rw [append_nil]
    have leads : f node = last := ends
    rw [leads]
    exact begins.redirect nodup last
  | cons next back =>
    rw [path_append, ends.1]
    refine ⟨begins.redirect nodup next, ends.2.congr fun later member => ?_⟩
    refine update_of_ne (fun same => ?_) _ _
    exact disjoint _ final later (mem_cons_of_mem _ member) same.symm

end Update

/-! ## Rings -/

structure Ring (links : Links Node) (head : Node) (nodes : List Node) :
    Prop where
  nodup : (head :: nodes).Nodup
  next : Path links.next head nodes head
  prev : Path links.prev head nodes.reverse head

namespace Ring

variable {links : Links Node} {head : Node} {front back nodes : List Node}

omit [DecidableEq Node] in
theorem nodup_reverse (different : (head :: nodes).Nodup) : (head :: nodes.reverse).Nodup := by
  obtain ⟨absent, nodup⟩ := nodup_cons.mp different
  exact nodup_cons.mpr ⟨fun member => absent (mem_reverse.mp member), List.nodup_reverse.mpr nodup⟩

omit [DecidableEq Node] in
theorem prev_split (ring : Ring links head (front ++ node :: back)) :
    Path links.prev head (back.reverse ++ node :: front.reverse) head := by
  have prev := ring.prev
  rwa [reverse_append, reverse_cons, append_assoc, singleton_append] at prev

omit [DecidableEq Node] in
theorem next_eq (ring : Ring links head (front ++ node :: back)) :
    links.next node = back.head?.getD head :=
  (path_append.mp ring.next).2.leads

omit [DecidableEq Node] in
theorem prev_eq (ring : Ring links head (front ++ node :: back)) :
    links.prev node = front.getLast?.getD head := by
  have first := (path_append.mp ring.prev_split).2.leads
  rwa [head?_reverse] at first

omit [DecidableEq Node] in
theorem prev_head (ring : Ring links head nodes) : links.prev head = nodes.getLast?.getD head := by
  have first := ring.prev.leads
  rwa [head?_reverse] at first

/-- Other nodes may point to whatever. -/
theorem init (ring : Ring links head nodes) (absent : node ∉ head :: nodes) :
    Ring (links.init node) head nodes where
  nodup := ring.nodup
  next := by
    refine ring.next.congr fun other member => ?_
    refine update_of_ne (fun same => absent ?_) _ _
    rw [← same]
    exact member
  prev := by
    refine ring.prev.congr fun other member => ?_
    refine update_of_ne (fun same => absent ?_) _ _
    rw [← same]
    simpa using member

/-- Delete an entry. -/
theorem del (ring : Ring links head (front ++ node :: back)) :
    Ring (links.del node) head (front ++ back) where
  nodup := ring.nodup.sublist (((sublist_cons_self node back).append_left front).cons_cons head)
  next := by
    have skipped := ring.next.skip ring.nodup
    rw [← ring.prev_eq] at skipped
    exact skipped
  prev := by
    have different := nodup_reverse ring.nodup
    rw [reverse_append, reverse_cons, append_assoc, singleton_append] at different
    have skipped := ring.prev_split.skip different
    rw [getLast?_reverse, ← ring.next_eq, ← reverse_append] at skipped
    exact skipped

theorem replace (ring : Ring links head (front ++ node :: back))
    (absent : new ∉ head :: (front ++ back)) :
    Ring (links.add new (links.prev node) (links.next node)) head (front ++ new :: back) := by
  have nodup : (head :: (front ++ new :: back)).Nodup := by
    have others := ring.del.nodup
    rw [← cons_append, nodup_middle, cons_append]
    exact nodup_cons.mpr ⟨absent, others⟩
  refine ⟨nodup, ?_, ?_⟩
  · obtain ⟨begins, ends⟩ := path_append.mp ring.next
    have through := begins.through ends nodup
    rw [← ring.prev_eq] at through
    exact through
  · have different := nodup_reverse nodup
    obtain ⟨begins, ends⟩ := path_append.mp ring.prev_split
    rw [reverse_append, reverse_cons, append_assoc, singleton_append] at different ⊢
    have through := begins.through ends different
    rw [getLast?_reverse, ← ring.next_eq] at through
    show Path (update (update links.prev (links.next node) new) new (links.prev node)) _ _ _
    rw [update_comm]
    · exact through
    · intro same
      rw [← same] at absent
      have leads := ring.next_eq
      refine absent ?_
      rw [leads]
      cases back with
      | nil => exact mem_cons_self
      | cons next back => exact mem_cons_of_mem _ (mem_append_right _ mem_cons_self)

/-- Add an entry at the end. -/
theorem addTail (ring : Ring links head nodes) (absent : new ∉ head :: nodes) :
    Ring (links.addTail new head) head (nodes ++ [new]) := by
  have nodup : (head :: (nodes ++ [new])).Nodup := by
    rw [← cons_append, nodup_middle, append_nil]
    exact nodup_cons.mpr ⟨absent, ring.nodup⟩
  have leads : links.next (nodes.getLast?.getD head) = head := by
    rcases eq_nil_or_concat nodes with rfl | ⟨front, final, rfl⟩
    · exact ring.next
    · rw [concat_eq_append, getLast?_append, getLast?_singleton]
      have next := ring.next
      rw [concat_eq_append] at next
      exact (path_append.mp next).2
  refine ⟨nodup, ?_, ?_⟩
  · have ends : Path links.next (nodes.getLast?.getD head) [] head := leads
    have through := ring.next.through ends nodup
    rw [leads, ← ring.prev_head] at through
    exact through
  · have begins : Path links.prev head [] (links.prev head) := rfl
    have different := nodup_reverse nodup
    rw [reverse_append, reverse_singleton] at different ⊢
    have through := begins.through ring.prev different
    show Path (update (update links.prev head new) new (links.prev head)) _ _ _
    rw [update_comm]
    · exact through
    · rintro rfl
      exact absent mem_cons_self

omit [DecidableEq Node] in
/-- An entry does not look empty. -/
theorem next_ne (ring : Ring links head nodes) (member : node ∈ nodes) :
    links.next node ≠ node := by
  obtain ⟨front, back, rfl⟩ := append_of_mem member
  rw [ring.next_eq]
  have distinct := ring.nodup
  cases back with
  | nil =>
    rintro rfl
    exact (nodup_cons.mp distinct).1 member
  | cons next back =>
    rintro rfl
    have later := (nodup_append.mp (nodup_cons.mp distinct).2).2.1
    exact (nodup_cons.mp later).1 mem_cons_self

omit [DecidableEq Node] in
theorem eq_nil (ring : Ring links head nodes) (empty : links.next head = head) : nodes = [] := by
  cases nodes with
  | nil => rfl
  | cons node nodes =>
    have same : node = head := ring.next.1.symm.trans empty
    exact absurd (same ▸ mem_cons_self) (nodup_cons.mp ring.nodup).1

end Ring

end Links
