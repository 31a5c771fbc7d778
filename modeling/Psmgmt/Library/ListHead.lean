import Mathlib

/-!
# Circular lists threaded through memory

The lists of `list.h`.  A list head and the elements are addresses whose memory
holds the addresses of the next and of the previous one.  A list whose head was
moved refers to the old address of the head until `listFix` is done.
-/

namespace ListHead

open List Function

/-- `struct list_head`. -/
structure Link where
  next : Nat
  prev : Nat
  deriving DecidableEq, Repr

abbrev Memory := Nat → Link

def setNext (memory : Memory) (addr next : Nat) : Memory :=
  update memory addr { memory addr with next := next }

def setPrev (memory : Memory) (addr prev : Nat) : Memory :=
  update memory addr { memory addr with prev := prev }

section

variable {memory : Memory} {addr other value : Nat}

theorem setNext_of_ne (elsewhere : addr ≠ other) : setNext memory other value addr = memory addr :=
  update_of_ne elsewhere _ _

theorem setPrev_of_ne (elsewhere : addr ≠ other) : setPrev memory other value addr = memory addr :=
  update_of_ne elsewhere _ _

@[simp] theorem next_setNext : (setNext memory addr value addr).next = value := by
  rw [setNext, update_self]

@[simp] theorem prev_setPrev : (setPrev memory addr value addr).prev = value := by
  rw [setPrev, update_self]

@[simp] theorem prev_setNext : (setNext memory other value addr).prev = (memory addr).prev := by
  by_cases here : addr = other
  · rw [here, setNext, update_self]
  · rw [setNext_of_ne here]

@[simp] theorem next_setPrev : (setPrev memory other value addr).next = (memory addr).next := by
  by_cases here : addr = other
  · rw [here, setPrev, update_self]
  · rw [setPrev_of_ne here]

end

/-- `INIT_LIST_HEAD()`. -/
def initListHead (memory : Memory) (head : Nat) : Memory := update memory head ⟨head, head⟩

/-- `list_fix()`. -/
def listFix (memory : Memory) (head old : Nat) : Memory :=
  if (memory head).next = old then initListHead memory head
  else
    let memory := setPrev memory (memory head).next head
    setNext memory (memory head).prev head

/-- The addresses from `first` over `elems` to `last` are linked. -/
def Linked (memory : Memory) : Nat → List Nat → Nat → Prop
  | first, [], last => (memory first).next = last ∧ (memory last).prev = first
  | first, elem :: elems, last =>
    (memory first).next = elem ∧ (memory elem).prev = first ∧ Linked memory elem elems last

/-- A well-formed circular list. -/
structure Circular (memory : Memory) (head : Nat) (elems : List Nat) :
    Prop where
  linked : Linked memory head elems head
  distinct : (head :: elems).Nodup

/-- A list whose head has been moved from `old` to `head`. -/
structure Moved (memory : Memory) (head old : Nat) (elems : List Nat) :
    Prop where
  /-- The links as they were, with the old head where it is not read. -/
  linked : Linked (update memory old (memory head)) old elems old
  distinct : (head :: old :: elems).Nodup

section

variable {memory after : Memory} {first last head old addr : Nat}
  {elems : List Nat}

theorem Linked.prev_last (linked : Linked memory first elems last) :
    (memory last).prev = (first :: elems).getLast (cons_ne_nil _ _) := by
  induction elems generalizing first with
  | nil => exact linked.2
  | cons elem elems induction =>
    rw [getLast_cons (cons_ne_nil _ _)]
    exact induction linked.2.2

theorem Linked.congr (linked : Linked memory first elems last)
    (next : ∀ addr ∈ first :: elems, (after addr).next = (memory addr).next)
    (prev : ∀ addr ∈ elems ++ [last], (after addr).prev = (memory addr).prev) :
    Linked after first elems last := by
  induction elems generalizing first with
  | nil => exact ⟨(next first (by simp)).trans linked.1, (prev last (by simp)).trans linked.2⟩
  | cons elem elems induction =>
    refine ⟨(next first (by simp)).trans linked.1,
      (prev elem (by simp)).trans linked.2.1, induction linked.2.2 ?_ ?_⟩
    · intro addr member
      exact next addr (mem_cons_of_mem _ member)
    · intro addr member
      exact prev addr (mem_cons_of_mem _ member)

theorem Linked.redirect {last' : Nat}
    (linked : Linked memory first elems last)
    (distinct : (first :: elems).Nodup)
    (next : ∀ addr ∈ first :: elems,
      addr ≠ (first :: elems).getLast (cons_ne_nil _ _) → (after addr).next = (memory addr).next)
    (prev : ∀ addr ∈ elems, (after addr).prev = (memory addr).prev)
    (ends : (after ((first :: elems).getLast (cons_ne_nil _ _))).next = last')
    (starts : (after last').prev = (first :: elems).getLast (cons_ne_nil _ _)) :
    Linked after first elems last' := by
  induction elems generalizing first with
  | nil => exact ⟨ends, starts⟩
  | cons elem elems induction =>
    rw [getLast_cons (cons_ne_nil _ _)] at next ends starts
    have other : first ≠ (elem :: elems).getLast (cons_ne_nil _ _) := by
      intro same
      apply (nodup_cons.mp distinct).1
      rw [same]
      exact getLast_mem _
    refine ⟨(next first (by simp) other).trans linked.1,
      (prev elem (by simp)).trans linked.2.1,
      induction linked.2.2 (nodup_cons.mp distinct).2 ?_ ?_ ends starts⟩
    · intro addr member
      exact next addr (mem_cons_of_mem _ member)
    · intro addr member
      exact prev addr (mem_cons_of_mem _ member)

theorem Circular.congr (circular : Circular memory head elems)
    (same : ∀ addr ∈ head :: elems, after addr = memory addr) :
    Circular after head elems := by
  refine ⟨circular.linked.congr ?_ ?_, circular.distinct⟩
  · intro addr member
    rw [same addr member]
  · intro addr member
    have inside : addr ∈ head :: elems := by
      rcases mem_append.mp member with elem | last
      · exact mem_cons_of_mem _ elem
      · rw [mem_singleton.mp last]
        exact mem_cons_self
    rw [same addr inside]

theorem circular_init (head : Nat) (memory : Memory) :
    Circular (initListHead memory head) head [] := by
  constructor
  · simp [Linked, initListHead]
  · simp

theorem Linked.first_next (linked : Linked memory first elems last) :
    (memory first).next = elems.headD last := by
  cases elems with
  | nil => exact linked.1
  | cons elem elems => exact linked.1

theorem listFix_other (elsewhere : addr ≠ head) (notNext : addr ≠ (memory head).next)
    (notPrev : addr ≠ (memory head).prev) :
    listFix memory head old addr = memory addr := by
  unfold listFix
  split
  · simp [initListHead, elsewhere]
  · dsimp only
    rw [setNext_of_ne, setPrev_of_ne notNext]
    by_cases self : head = (memory head).next
    · rw [← self, prev_setPrev]
      exact elsewhere
    · rw [setPrev_of_ne self]
      exact notPrev

end

variable {addr : Nat}

namespace Moved

variable {memory after : Memory} {head old wrong : Nat} {elems : List Nat}

section

variable (moved : Moved memory head old elems)

include moved

theorem next : (memory head).next = elems.headD old := by
  have first := moved.linked.first_next
  rwa [update_self] at first

theorem prev : (memory head).prev = (old :: elems).getLast (cons_ne_nil _ _) := by
  have last := moved.linked.prev_last
  rwa [update_self] at last

theorem congr (same : ∀ addr ∈ head :: elems, after addr = memory addr) :
    Moved after head old elems := by
  refine ⟨?_, moved.distinct⟩
  have agree : ∀ addr ∈ old :: elems,
      update after old (after head) addr = update memory old (memory head) addr := by
    intro addr member
    rw [same head mem_cons_self]
    by_cases here : addr = old
    · rw [here, update_self, update_self]
    · rw [update_of_ne here, update_of_ne here]
      rcases mem_cons.mp member with isOld | elem
      · exact absurd isOld here
      · exact same addr (mem_cons_of_mem _ elem)
  apply moved.linked.congr
  · intro addr member
    rw [agree addr member]
  · intro addr member
    have inside : addr ∈ old :: elems := by
      rcases mem_append.mp member with elem | last
      · exact mem_cons_of_mem _ elem
      · rw [mem_singleton.mp last]
        exact mem_cons_self
    rw [agree addr inside]

/-- The addresses that mending the list may write to. -/
theorem other (elsewhere : addr ∉ head :: old :: elems) :
    listFix memory head wrong addr = memory addr := by
  simp only [mem_cons, not_or] at elsewhere
  apply listFix_other elsewhere.1
  · rw [moved.next]
    cases elems with
    | nil => exact elsewhere.2.1
    | cons elem elems =>
      intro same
      exact elsewhere.2.2 (by rw [same]; exact mem_cons_self)
  · rw [moved.prev]
    intro same
    have member := getLast_mem (cons_ne_nil old elems)
    rw [← same] at member
    rcases mem_cons.mp member with isOld | elem
    · exact elsewhere.2.1 isOld
    · exact elsewhere.2.2 elem

/-- Mending with the old address makes the list whole. -/
theorem fix (listed : elems ≠ []) (right : elems.head? ≠ some wrong) :
    Circular (listFix memory head wrong) head elems := by
  rcases elems with _ | ⟨elem, elems⟩
  · exact absurd rfl listed
  have next : (memory head).next = elem := moved.next
  have prev := moved.prev
  rw [getLast_cons (cons_ne_nil _ _)] at prev
  have distinct := moved.distinct
  simp only [nodup_cons, mem_cons, not_or] at distinct
  obtain ⟨⟨notOld, headElem, headElems⟩, ⟨oldElem, oldElems⟩, -, -⟩ := distinct
  have unlike : (memory head).next ≠ wrong := by
    rw [next]
    intro same
    exact right (by rw [same]; rfl)
  have mended : listFix memory head wrong =
      setNext (setPrev memory elem head) ((elem :: elems).getLast (cons_ne_nil _ _)) head := by
    rw [listFix, if_neg unlike, next]
    dsimp only
    rw [setPrev_of_ne headElem, prev]
  have last := getLast_mem (cons_ne_nil elem elems)
  have headLast : head ≠ (elem :: elems).getLast (cons_ne_nil _ _) := by
    intro same
    rw [← same] at last
    rcases mem_cons.mp last with first | inner
    · exact headElem first
    · exact headElems inner
  have inner := moved.linked.2.2
  have nodup : (elem :: elems).Nodup := (nodup_cons.mp (nodup_cons.mp moved.distinct).2).2
  constructor
  · refine ⟨?_, ?_, inner.redirect nodup ?_ ?_ ?_ ?_⟩
    · rw [mended, setNext_of_ne headLast, next_setPrev, next]
    · rw [mended, prev_setNext, prev_setPrev]
    · intro addr member notLast
      have notOldAddr : addr ≠ old := by
        rintro rfl
        rcases mem_cons.mp member with first | inner
        · exact oldElem first
        · exact oldElems inner
      rw [mended, setNext_of_ne notLast, next_setPrev, update_of_ne notOldAddr]
    · intro addr member
      have notOldAddr : addr ≠ old := by
        rintro rfl
        exact oldElems member
      have notFirst : addr ≠ elem := by
        rintro rfl
        exact (nodup_cons.mp nodup).1 member
      rw [mended, prev_setNext, setPrev_of_ne notFirst, update_of_ne notOldAddr]
    · rw [mended, next_setNext]
    · rw [mended, prev_setNext, setPrev_of_ne headElem, prev]
  · have all := moved.distinct
    rw [nodup_cons] at all ⊢
    refine ⟨?_, (nodup_cons.mp all.2).2⟩
    intro member
    exact all.1 (mem_cons_of_mem _ member)

end

theorem fix_empty (moved : Moved memory head old []) :
    Circular (listFix memory head old) head [] := by
  have next : (memory head).next = old := moved.next
  rw [listFix, if_pos next]
  exact circular_init head memory

theorem fix_stale (moved : Moved memory head old []) (other : wrong ≠ old) :
    (listFix memory head wrong head).next = old := by
  have next : (memory head).next = old := moved.next
  have prev : (memory head).prev = old := moved.prev
  have apart : head ≠ old := by
    have distinct := moved.distinct
    simp only [nodup_cons, mem_singleton] at distinct
    exact distinct.1
  rw [listFix, if_neg (by rw [next]; exact other.symm), next,
    setPrev_of_ne apart, prev, setNext_of_ne apart, next_setPrev, next]

/-- A list taken for an empty one loses its elements. -/
theorem fix_lost (moved : Moved memory head old elems)
    (same : elems.head? = some wrong) :
    (listFix memory head wrong head).next = head := by
  rcases elems with _ | ⟨elem, elems⟩
  · simp at same
  · have first : elem = wrong := by simpa using same
    have next : (memory head).next = elem := moved.next
    rw [listFix, if_pos (next.trans first), initListHead, update_self]

/-- When mending a list makes it whole. -/
theorem fix_iff (moved : Moved memory head old elems) :
    Circular (listFix memory head wrong) head elems ↔
      if elems = [] then wrong = old else elems.head? ≠ some wrong := by
  split
  · rename_i empty
    subst empty
    constructor
    · intro circular
      by_contra other
      have stale := moved.fix_stale other
      rw [circular.linked.1] at stale
      have distinct := moved.distinct
      simp only [nodup_cons, mem_singleton] at distinct
      exact distinct.1 stale
    · rintro rfl
      exact moved.fix_empty
  · rename_i listed
    constructor
    · intro circular same
      have lost := moved.fix_lost same
      rw [circular.linked.first_next] at lost
      rcases elems with _ | ⟨elem, elems⟩
      · exact listed rfl
      · have self : elem = head := lost
        apply (nodup_cons.mp circular.distinct).1
        rw [self]
        exact mem_cons_self
    · exact moved.fix listed

end Moved

/-! ## Mending many lists -/

section

variable {Index : Type*} (head used : Index → Nat)

/-- The lists are mended one after the other. -/
def fixAll (order : List Index) (memory : Memory) : Memory :=
  order.foldl (fun memory index => listFix memory (head index) (used index)) memory

variable {head used} {old : Index → Nat} {elems : Index → List Nat}
  {order : List Index} {memory : Memory}

/-- The addresses that belong to a list. -/
def footprint (head old : Index → Nat) (elems : Index → List Nat) (index : Index) : List Nat :=
  head index :: old index :: elems index

theorem mem_footprint {head old : Index → Nat} {elems : Index → List Nat}
    {index : Index} (member : addr ∈ head index :: elems index) :
    addr ∈ footprint head old elems index := by
  rcases mem_cons.mp member with isHead | elem
  · rw [isHead]
    exact mem_cons_self
  · exact mem_cons_of_mem _ (mem_cons_of_mem _ elem)

theorem Moved.after_fix {index other : Index}
    (apart : (footprint head old elems index).Disjoint (footprint head old elems other))
    (mended : Moved memory (head index) (old index) (elems index))
    (moved : Moved memory (head other) (old other) (elems other)) :
    Moved (listFix memory (head index) (used index)) (head other) (old other) (elems other) := by
  apply moved.congr
  intro addr member
  apply mended.other
  intro shared
  exact apart shared (mem_footprint member)

section

variable
  (apart : order.Pairwise (fun index other => (footprint head old elems
    index).Disjoint (footprint head old elems other)))
  (moved : ∀ index ∈ order, Moved memory (head index) (old index) (elems index))

include apart moved

theorem fixAll_other
    (elsewhere : ∀ index ∈ order, addr ∉ footprint head old elems index) :
    fixAll head used order memory addr = memory addr := by
  induction order generalizing memory with
  | nil => rfl
  | cons index order induction =>
    have first := moved index mem_cons_self
    obtain ⟨fromFirst, later⟩ := pairwise_cons.mp apart
    have rest : ∀ other ∈ order, Moved (listFix memory (head index) (used index)) (head other)
        (old other) (elems other) := by
      intro other member
      exact first.after_fix (fromFirst other member) (moved other (mem_cons_of_mem _ member))
    have same := induction later rest
      (fun other member => elsewhere other (mem_cons_of_mem _ member))
    rw [fixAll, foldl_cons]
    exact same.trans (first.other (elsewhere index mem_cons_self))

/-- Each list is whole in the end if it was when it was mended. -/
theorem fixAll_iff {index : Index} (member : index ∈ order) :
    Circular (fixAll head used order memory) (head index) (elems index) ↔
      if elems index = [] then used index = old index
      else (elems index).head? ≠ some (used index) := by
  induction order generalizing memory with
  | nil => exact absurd member not_mem_nil
  | cons first order induction =>
    have mended := moved first mem_cons_self
    obtain ⟨fromFirst, among⟩ := pairwise_cons.mp apart
    have rest : ∀ other ∈ order, Moved (listFix memory (head first) (used first)) (head other)
        (old other) (elems other) := by
      intro other later
      exact mended.after_fix (fromFirst other later) (moved other (mem_cons_of_mem _ later))
    rw [fixAll, foldl_cons]
    rcases mem_cons.mp member with rfl | later
    · rw [← mended.fix_iff]
      have kept : ∀ addr ∈ head index :: elems index,
          fixAll head used order (listFix memory (head index) (used index)) addr =
            listFix memory (head index) (used index) addr := by
        intro addr inside
        apply fixAll_other among rest
        intro other later shared
        exact fromFirst other later (mem_footprint inside) shared
      constructor
      · intro circular
        exact circular.congr (fun addr inside => (kept addr inside).symm)
      · intro circular
        exact circular.congr kept
    · exact induction among rest later

end

theorem Circular.moved {before : Memory} {from_ to_ : Nat} {elems : List Nat}
    (circular : Circular before from_ elems) (copied : memory to_ = before from_)
    (kept : ∀ elem ∈ elems, memory elem = before elem) (fresh : to_ ∉ from_ :: elems) : Moved memory
    to_ from_ elems := by
  refine ⟨?_, nodup_cons.mpr ⟨fresh, circular.distinct⟩⟩
  have same : ∀ addr ∈ from_ :: elems, update memory from_ (memory to_) addr = before addr := by
    intro addr member
    by_cases here : addr = from_
    · rw [here, update_self, copied]
    · rw [update_of_ne here]
      rcases mem_cons.mp member with isHead | elem
      · exact absurd isHead here
      · exact kept addr elem
  exact (circular.congr same).linked

end

end ListHead
