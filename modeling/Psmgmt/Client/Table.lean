import Psmgmt.Library.ListHead

/-!
# Growing the table of clients

`PSIDclient_setMax()`.  The table is an array of `client_t` in memory; each
client holds the head of its list of messages and the heads of a hash table of
stops.  Addresses are those of an LP64 system.
-/

namespace Psmgmt.Client

open ListHead List

/-! ## The layout of the table -/

def sizeofList : Nat := 16

/-- `FLWCNTRL_HASH_SIZE`. -/
def flwcntrlHashSize : Nat := 32

/-- The size of `PSIDFlwCntrl_hash_t`, an array of `FLWCNTRL_HASH_SIZE`
lists. -/
def sizeofHash : Nat := flwcntrlHashSize * sizeofList

def offsetofMsgs : Nat := 24
def offsetofStops : Nat := offsetofMsgs + sizeofList

/-- The size of `client_t`. -/
def sizeofClient : Nat := offsetofStops + sizeofHash

/-- `clients` and `maxClientFD`, with the memory of all list heads and list
elements. -/
structure ClientTable where
  memory : Memory
  clients : Nat
  maxClientFD : Nat

/-- `&clients[fd].msgs`. -/
def msgsHead (clients fd : Nat) : Nat := clients + fd * sizeofClient + offsetofMsgs

/-- `&clients[fd].stops[h]`. -/
def stopHead (clients fd h : Nat) : Nat :=
  clients + fd * sizeofClient + offsetofStops + h * sizeofList

/-! ## Growing -/

/-- The memory after `realloc()` has moved the first `size` bytes. -/
def reallocMemory (memory : Memory) (old new size : Nat) : Memory :=
  fun addr =>
    if new ≤ addr ∧ addr < new + size then memory (old + (addr - new))
    else memory addr

def fixClient (newClients oldClients : Nat) (memory : Memory) (fd : Nat) :
    Memory :=
  let oldClnt := oldClients + fd * sizeofClient
  let oldHead := oldClnt + offsetofMsgs
  let memory := listFix memory (msgsHead newClients fd) oldHead
  (List.range flwcntrlHashSize).foldl (fun memory h =>
    let oldStop := oldClnt + offsetofStops + h * sizeofHash
    listFix memory (stopHead newClients fd h) oldStop) memory

/-- The lists in `clientInit()`. -/
def clientInit (clients : Nat) (memory : Memory) (fd : Nat) : Memory :=
  (List.range flwcntrlHashSize).foldl (fun memory h => initListHead memory (stopHead clients fd h))
    (initListHead memory (msgsHead clients fd))

/-- `PSIDclient_setMax()`; `realloc` is the address of the new table. -/
def setMax (max : Nat) (realloc : Option Nat) (table : ClientTable) : Int × ClientTable :=
  let oldMax := table.maxClientFD
  if oldMax ≥ max then (0, table) -- don't shrink
  else
    match realloc with
    | none => (-1, table)
    | some newClients =>
      let memory := reallocMemory table.memory table.clients newClients (oldMax * sizeofClient)
      let memory :=
        if newClients ≠ table.clients then
          (List.range oldMax).foldl (fixClient newClients table.clients) memory
        else memory
      let memory := (List.range' oldMax (max - oldMax)).foldl (clientInit newClients) memory
      (0, { memory := memory, clients := newClients, maxClientFD := max })

/-! ## The lists of the table -/

/-- The lists in the table. -/
inductive ListOf where
  | msgs (fd : Nat)
  | stops (fd h : Nat)
  deriving DecidableEq, Repr

namespace ListOf

/-- The list belongs to one of `max` clients. -/
def Inside (max : Nat) : ListOf → Prop
  | msgs fd => fd < max
  | stops fd h => fd < max ∧ h < flwcntrlHashSize

def head (clients : Nat) : ListOf → Nat
  | msgs fd => msgsHead clients fd
  | stops fd h => stopHead clients fd h

/-- Where the head is in the table. -/
def offset : ListOf → Nat
  | msgs fd => fd * sizeofClient + offsetofMsgs
  | stops fd h => fd * sizeofClient + offsetofStops + h * sizeofList

/-- What is taken for the old address of the head. -/
def oldHead (clients : Nat) : ListOf → Nat
  | msgs fd => clients + fd * sizeofClient + offsetofMsgs
  | stops fd h => clients + fd * sizeofClient + offsetofStops + h * sizeofHash

end ListOf

/-- Every list of the table is well-formed, with elements of its own that are
outside of the table. -/
structure Lists (elems : ListOf → List Nat) (table : ClientTable) :
    Prop where
  circular : ∀ list, list.Inside table.maxClientFD →
    Circular table.memory (list.head table.clients) (elems list)
  apart : ∀ list other, list.Inside table.maxClientFD →
    other.Inside table.maxClientFD → list ≠ other → (elems list).Disjoint (elems other)
  outside : ∀ list, list.Inside table.maxClientFD → ∀ elem ∈ elems list,
    elem < table.clients ∨ table.clients + table.maxClientFD * sizeofClient ≤ elem

/-- `realloc()` has moved the table to memory that was not in use. -/
structure Moves (elems : ListOf → List Nat) (table : ClientTable)
    (max newClients : Nat) : Prop where
  grows : table.maxClientFD < max
  apart : newClients + max * sizeofClient ≤ table.clients ∨
    table.clients + table.maxClientFD * sizeofClient ≤ newClients
  unused : ∀ list, list.Inside table.maxClientFD → ∀ elem ∈ elems list,
    elem < newClients ∨ newClients + max * sizeofClient ≤ elem

attribute [local simp] sizeofClient offsetofStops offsetofMsgs sizeofHash
  sizeofList flwcntrlHashSize

section Layout

variable {list other : ListOf} {max clients : Nat}

theorem ListOf.head_eq (clients : Nat) (list : ListOf) :
    list.head clients = clients + list.offset := by
  cases list <;> simp only [head, offset, msgsHead, stopHead] <;> omega

theorem ListOf.offset_lt (inside : list.Inside max) : list.offset < max * sizeofClient := by
  cases list with
  | msgs fd =>
    have client : fd < max := inside
    simp [offset]
    omega
  | stops fd h =>
    obtain ⟨client, bucket⟩ := inside
    simp [offset] at bucket ⊢
    omega

/-- No two heads are at one place. -/
theorem ListOf.offset_injective (inside : list.Inside max)
    (inside' : other.Inside max) (same : list.offset = other.offset) :
    list = other := by
  cases list with
  | msgs fd =>
    cases other with
    | msgs fd' =>
      simp [offset] at same
      have client : fd = fd' := by omega
      rw [client]
    | stops fd' h' =>
      obtain ⟨-, bucket⟩ := inside'
      simp [offset] at same bucket
      omega
  | stops fd h =>
    obtain ⟨-, bucket⟩ := inside
    cases other with
    | msgs fd' =>
      simp [offset] at same bucket
      omega
    | stops fd' h' =>
      obtain ⟨-, bucket'⟩ := inside'
      simp [offset] at same bucket bucket'
      have client : fd = fd' := by omega
      have entry : h = h' := by omega
      rw [client, entry]

theorem ListOf.oldHead_eq_head :
    list.oldHead clients = list.head clients ↔ ∀ fd h, list = .stops fd h → h = 0 := by
  cases list with
  | msgs fd => simp [oldHead, head, msgsHead]
  | stops fd h =>
    simp only [oldHead, head, stopHead, sizeofHash, flwcntrlHashSize, sizeofList, stops.injEq]
    constructor
    · rintro same _ _ ⟨-, rfl⟩
      omega
    · intro zero
      rw [zero fd h ⟨rfl, rfl⟩]

end Layout

/-! ## The lists in the order they are restored -/

def fixOrder (max : Nat) : List ListOf :=
  (List.range max).flatMap (fun fd => .msgs fd :: (List.range flwcntrlHashSize).map (.stops fd))

variable {list : ListOf} {memory : Memory} {addr : Nat}

theorem mem_fixOrder {max : Nat} : list ∈ fixOrder max ↔ list.Inside max := by
  simp only [fixOrder, mem_flatMap, mem_range, mem_cons, mem_map]
  cases list with
  | msgs fd => simp [ListOf.Inside]
  | stops fd h => simp [ListOf.Inside]

theorem nodup_fixOrder (max : Nat) : (fixOrder max).Nodup := by
  unfold fixOrder
  rw [nodup_flatMap]
  constructor
  · intro fd _
    rw [nodup_cons]
    constructor
    · simp
    · apply List.Nodup.map _ nodup_range
      intro h h' same
      cases same
      rfl
  · apply nodup_range.imp
    intro fd fd' different list member member'
    cases list with
    | msgs fd'' =>
      simp at member member'
      omega
    | stops fd'' h =>
      simp at member member'
      omega

theorem fixClients_eq (newClients oldClients max : Nat) (memory : Memory) :
    (List.range max).foldl (fixClient newClients oldClients) memory =
      fixAll (ListOf.head newClients) (ListOf.oldHead oldClients) (fixOrder max) memory := by
  rw [fixAll, fixOrder, foldl_flatMap]
  simp only [foldl_cons, foldl_map]
  rfl

/-! ## The new clients -/

theorem initListHead_other {head : Nat} (elsewhere : addr ≠ head) :
    initListHead memory head addr = memory addr :=
  Function.update_of_ne elsewhere _ _

theorem clientInit_other {clients fd : Nat}
    (elsewhere : addr < clients + fd * sizeofClient ∨ clients + (fd + 1) * sizeofClient ≤ addr) :
    clientInit clients memory fd addr = memory addr := by
  have stops : ∀ (hs : List Nat) (memory : Memory), (∀ h ∈ hs, h < flwcntrlHashSize) →
        hs.foldl (fun memory h =>
          initListHead memory (stopHead clients fd h)) memory addr = memory addr := by
    intro hs
    induction hs with
    | nil => exact fun memory bounds => rfl
    | cons h hs induction =>
      intro memory bounds
      have bucket := bounds h mem_cons_self
      rw [foldl_cons, induction _ (fun other member => bounds other (mem_cons_of_mem _ member))]
      apply initListHead_other
      intro same
      simp [stopHead] at elsewhere same bucket
      omega
  rw [clientInit, stops _ _ (fun h member => mem_range.mp member)]
  apply initListHead_other
  intro same
  simp [msgsHead] at elsewhere same
  omega

theorem initClients_other {clients : Nat} (fds : List Nat) (memory : Memory)
    (elsewhere : ∀ fd ∈ fds, addr < clients + fd * sizeofClient ∨
      clients + (fd + 1) * sizeofClient ≤ addr) :
    fds.foldl (clientInit clients) memory addr = memory addr := by
  induction fds generalizing memory with
  | nil => rfl
  | cons fd fds induction =>
    rw [foldl_cons, induction _
      (fun other member => elsewhere other (mem_cons_of_mem _ member)),
      clientInit_other (elsewhere fd mem_cons_self)]

/-! ## The lists after the table has grown -/

section Grown

variable {elems : ListOf → List Nat} {table : ClientTable}
  {max newClients : Nat}

theorem reallocMemory_head {old size : Nat} (inside : list.offset < size) :
    reallocMemory memory old newClients size (list.head newClients) = memory (list.head old) := by
  rw [reallocMemory, ListOf.head_eq, ListOf.head_eq,
    if_pos ⟨Nat.le_add_right _ _, by omega⟩, Nat.add_sub_cancel_left]

theorem size_mono {old max : Nat} (grows : old ≤ max) : old * sizeofClient ≤ max * sizeofClient :=
  Nat.mul_le_mul_right _ grows

theorem Lists.moved (lists : Lists elems table) (moves : Moves elems table max newClients)
    (inside : list.Inside table.maxClientFD) :
    Moved (reallocMemory table.memory table.clients newClients (table.maxClientFD * sizeofClient))
      (list.head newClients) (list.head table.clients) (elems list) := by
  have bound := ListOf.offset_lt inside
  have size := size_mono (Nat.le_of_lt moves.grows)
  have apart := moves.apart
  apply (lists.circular list inside).moved (reallocMemory_head bound)
  · intro elem member
    have unused := moves.unused list inside elem member
    rw [reallocMemory, if_neg]
    omega
  · intro member
    rw [ListOf.head_eq newClients] at member
    rcases mem_cons.mp member with isHead | elem
    · rw [ListOf.head_eq] at isHead
      omega
    · have unused := moves.unused list inside _ elem
      omega

theorem Lists.footprints (lists : Lists elems table)
    (moves : Moves elems table max newClients) :
    (fixOrder table.maxClientFD).Pairwise (fun list other =>
      (footprint (ListOf.head newClients) (ListOf.head table.clients) elems list).Disjoint
      (footprint (ListOf.head newClients) (ListOf.head table.clients) elems other)) := by
  have apart := moves.apart
  have size := size_mono (Nat.le_of_lt moves.grows)
  have own : ∀ list, list.Inside table.maxClientFD → ∀ addr ∈ elems list,
      (addr < table.clients ∨ table.clients + table.maxClientFD * sizeofClient ≤ addr) ∧
      (addr < newClients ∨ newClients + max * sizeofClient ≤ addr) :=
    fun list inside addr member =>
      ⟨lists.outside list inside addr member, moves.unused list inside addr member⟩
  refine (nodup_fixOrder table.maxClientFD).imp_of_mem ?_
  intro list other member member' different addr left right
  have inside := mem_fixOrder.mp member
  have inside' := mem_fixOrder.mp member'
  have bound := ListOf.offset_lt inside
  have bound' := ListOf.offset_lt inside'
  have offsets : list.offset ≠ other.offset :=
    fun same => different (ListOf.offset_injective inside inside' same)
  simp only [footprint, mem_cons, ListOf.head_eq] at left right
  rcases left with isNew | isOld | elem
  · rcases right with isNew' | isOld' | elem'
    · omega
    · omega
    · have outside := own other inside' addr elem'
      omega
  · rcases right with isNew' | isOld' | elem'
    · omega
    · omega
    · have outside := own other inside' addr elem'
      omega
  · rcases right with isNew' | isOld' | elem'
    · have outside := own list inside addr elem
      omega
    · have outside := own list inside addr elem
      omega
    · exact lists.apart list other inside inside' different elem elem'

theorem setMax_moves (moves : Moves elems table max newClients)
    (some_ : 0 < table.maxClientFD) :
    (setMax max (some newClients) table).2 =
      { memory := (List.range' table.maxClientFD
            (max - table.maxClientFD)).foldl (clientInit newClients)
          (fixAll (ListOf.head newClients) (ListOf.oldHead table.clients)
            (fixOrder table.maxClientFD)
            (reallocMemory table.memory table.clients newClients
              (table.maxClientFD * sizeofClient)))
        clients := newClients
        maxClientFD := max } := by
  have shrinks : ¬table.maxClientFD ≥ max := Nat.not_le.mpr moves.grows
  have other : newClients ≠ table.clients := by
    have apart := moves.apart
    have one := size_mono (Nat.succ_le_of_lt some_)
    have grown := size_mono (Nat.le_of_lt moves.grows)
    simp at apart one grown
    omega
  simp only [setMax, shrinks, if_false, ne_eq, other, not_false_eq_true, if_true, fixClients_eq]

theorem setMax_list_iff (lists : Lists elems table) (moves : Moves elems table max newClients)
    (inside : list.Inside table.maxClientFD) :
    Circular (setMax max (some newClients) table).2.memory (list.head newClients) (elems list) ↔
      if elems list = [] then
        list.oldHead table.clients = list.head table.clients
      else (elems list).head? ≠ some (list.oldHead table.clients) := by
  have some_ : 0 < table.maxClientFD := by
    cases list with
    | msgs fd => exact Nat.zero_lt_of_lt inside
    | stops fd h => exact Nat.zero_lt_of_lt inside.1
  rw [setMax_moves moves some_]
  have bound := ListOf.offset_lt inside
  have kept : ∀ memory : Memory, ∀ addr ∈ list.head newClients :: elems list,
      (List.range' table.maxClientFD (max - table.maxClientFD)).foldl
        (clientInit newClients) memory addr = memory addr := by
    intro memory addr member
    apply initClients_other
    intro fd later
    obtain ⟨low, high⟩ := mem_range'_1.mp later
    have grows := moves.grows
    have lower := size_mono low
    have upper := size_mono (show fd + 1 ≤ max by omega)
    rcases mem_cons.mp member with isHead | elem
    · rw [isHead, ListOf.head_eq]
      omega
    · have unused := moves.unused list inside addr elem
      have one := size_mono (Nat.le_succ fd)
      omega
  have fixed := @fixAll_iff ListOf (ListOf.head newClients) (ListOf.oldHead table.clients) _ _ _ _
    (lists.footprints moves) (fun list member => lists.moved moves (mem_fixOrder.mp member)) list
    (mem_fixOrder.mpr inside)
  rw [← fixed]
  constructor
  · intro circular
    exact circular.congr (fun addr member => (kept _ addr member).symm)
  · intro circular
    exact circular.congr (kept _)

/-- The lists survive the move of the table exactly if no stop list but the
first ones of the clients is empty, or is taken for empty. -/
theorem setMax_lists_iff (lists : Lists elems table)
    (moves : Moves elems table max newClients) :
    (∀ list, list.Inside table.maxClientFD →
      Circular (setMax max (some newClients) table).2.memory (list.head newClients) (elems list)) ↔
      ∀ fd < table.maxClientFD, ∀ h < flwcntrlHashSize, h ≠ 0 → elems (.stops fd h) ≠ [] ∧
          (elems (.stops fd h)).head? ≠ some (table.clients +
            fd * sizeofClient + offsetofStops + h * sizeofHash) := by
  constructor
  · intro whole fd client h bucket later
    have inside : (ListOf.stops fd h).Inside table.maxClientFD := ⟨client, bucket⟩
    have found := (setMax_list_iff lists moves inside).mp (whole _ inside)
    by_cases empty : elems (.stops fd h) = []
    · rw [if_pos empty] at found
      exact absurd (ListOf.oldHead_eq_head.mp found fd h rfl) later
    · rw [if_neg empty] at found
      exact ⟨empty, found⟩
  · intro condition list inside
    rw [setMax_list_iff lists moves inside]
    by_cases first : ∀ fd h, list = .stops fd h → h = 0
    · rw [ListOf.oldHead_eq_head.mpr first]
      split
      · rfl
      · intro same
        have outside := lists.outside list inside _ (mem_of_mem_head? same)
        have bound := ListOf.offset_lt inside
        rw [ListOf.head_eq] at outside
        omega
    · cases list with
      | msgs fd => exact absurd (fun _ _ same => nomatch same) first
      | stops fd h =>
        have later : h ≠ 0 := by
          rintro rfl
          apply first
          intro fd' h' same
          cases same
          rfl
        have hold := condition fd inside.1 h inside.2 later
        rw [if_neg hold.1]
        exact hold.2

end Grown

/-- A table of one client, with an element in each stop list but the first. -/
def heldElems : ListOf → List Nat
  | .stops 0 (h + 1) => [11056 + h * 16]
  | _ => []

def heldTable : ClientTable where
  memory addr :=
    if addr < 1056 then ⟨addr, addr⟩
    else if addr < 5000 then ⟨addr + 10000, addr + 10000⟩
    else ⟨addr - 10000, addr - 10000⟩
  clients := 1000
  maxClientFD := 1

attribute [local simp] heldElems

theorem heldTable_lists : Lists heldElems heldTable where
  circular := by
    intro list inside
    cases list with
    | msgs fd =>
      have zero : fd = 0 := Nat.lt_one_iff.mp inside
      subst zero
      exact ⟨⟨rfl, rfl⟩, by decide⟩
    | stops fd h =>
      obtain ⟨client, bucket⟩ := inside
      have zero : fd = 0 := Nat.lt_one_iff.mp client
      subst zero
      cases h with
      | zero => exact ⟨⟨rfl, rfl⟩, by decide⟩
      | succ h =>
        have head : (ListOf.stops 0 (h + 1)).head heldTable.clients = 1056 + h * 16 := by
          simp [ListOf.head, stopHead, heldTable]
          omega
        rw [flwcntrlHashSize] at bucket
        have stored : heldTable.memory (1056 + h * 16) = ⟨11056 + h * 16, 11056 + h * 16⟩ := by
          simp only [heldTable, show ¬1056 + h * 16 < 1056 by omega,
            show 1056 + h * 16 < 5000 by omega, if_false, if_true,
            Link.mk.injEq]
          omega
        have back : heldTable.memory (11056 + h * 16) = ⟨1056 + h * 16, 1056 + h * 16⟩ := by
          simp only [heldTable, show ¬11056 + h * 16 < 1056 by omega,
            show ¬11056 + h * 16 < 5000 by omega, if_false,
            Link.mk.injEq]
          omega
        rw [head]
        constructor
        · simp [Linked, stored, back]
        · simp
  apart := by
    intro list other inside inside' different elem member member'
    cases list with
    | msgs fd => simp at member
    | stops fd h =>
      cases other with
      | msgs fd' => simp at member'
      | stops fd' h' =>
        have zero : fd = 0 := Nat.lt_one_iff.mp inside.1
        have zero' : fd' = 0 := Nat.lt_one_iff.mp inside'.1
        subst zero zero'
        cases h with
        | zero => simp at member
        | succ h =>
          cases h' with
          | zero => simp at member'
          | succ h' =>
            simp only [heldElems, mem_singleton] at member member'
            apply different
            rw [show h = h' by omega]
  outside := by
    intro list inside elem member
    right
    cases list with
    | msgs fd => simp at member
    | stops fd h =>
      have zero : fd = 0 := Nat.lt_one_iff.mp inside.1
      subst zero
      cases h with
      | zero => simp at member
      | succ h =>
        simp only [heldElems, mem_singleton] at member
        rw [member]
        simp [heldTable]
        omega

theorem heldTable_moves : Moves heldElems heldTable 2 30000 where
  grows := by decide
  apart := .inr (by decide)
  unused := by
    intro list inside elem member
    left
    cases list with
    | msgs fd => simp at member
    | stops fd h =>
      obtain ⟨client, bucket⟩ := inside
      have zero : fd = 0 := Nat.lt_one_iff.mp client
      subst zero
      cases h with
      | zero => simp at member
      | succ h =>
        simp only [heldElems, mem_singleton] at member
        rw [flwcntrlHashSize] at bucket
        omega

theorem setMax_lists_held : heldTable.maxClientFD = 1 ∧ ∀ list, list.Inside 1 →
      Circular (setMax 2 (some 30000) heldTable).2.memory (list.head 30000) (heldElems list) := by
  refine ⟨rfl, (setMax_lists_iff heldTable_lists heldTable_moves).mpr ?_⟩
  intro fd client h bucket later
  have zero : fd = 0 := Nat.lt_one_iff.mp client
  subst zero
  obtain ⟨h, rfl⟩ := Nat.exists_eq_succ_of_ne_zero later
  refine ⟨cons_ne_nil _ _, ?_⟩
  intro same
  have equal : 11056 + h * 16 = heldTable.clients + 0 * sizeofClient +
      offsetofStops + (h + 1) * sizeofHash := Option.some.inj same
  simp only [heldTable, offsetofStops, offsetofMsgs, sizeofHash, sizeofList,
    flwcntrlHashSize] at equal
  omega

def emptyTable : ClientTable where
  memory addr := ⟨addr, addr⟩
  clients := 1000
  maxClientFD := 1

/-- The second stop list of a client without any stops does not survive. -/
theorem not_setMax_lists : ¬∀ (elems : ListOf → List Nat) (table : ClientTable)
      (max newClients : Nat), Lists elems table →
      Moves elems table max newClients →
      ∀ list, list.Inside table.maxClientFD → Circular (setMax max (some newClients) table).2.memory
          (list.head newClients) (elems list) := by
  intro whole
  have lists : Lists (fun _ => []) emptyTable :=
    { circular := fun list _ => ⟨⟨rfl, rfl⟩, by simp⟩
      apart := fun _ _ _ _ _ _ member _ => nomatch member
      outside := fun _ _ _ member => nomatch member }
  have moves : Moves (fun _ => []) emptyTable 2 30000 :=
    { grows := by decide
      apart := .inr (by decide)
      unused := fun _ _ _ member => nomatch member }
  have inside : (ListOf.stops 0 1).Inside emptyTable.maxClientFD := by
    exact ⟨by decide, by decide⟩
  have found := (setMax_list_iff lists moves inside).mp (whole _ _ _ _ lists moves _ inside)
  exact absurd found (by decide)

end Psmgmt.Client
