import Mathlib

/-!
# Passes over a list of open items

A pass keeps an item, possibly changed, or takes it out of the list, and may
write a record about it.  A pass that closes an item exactly when it writes a
record leaves the number of items and records of each key as it was.
-/

namespace Sweep

open List

variable {Item Record Key : Type*}

/-- What a pass does with an item: the item kept and the record written. -/
abbrev Action (Item Record : Type*) : Type _ := Option Item × Option Record

def kept (body : Item → Action Item Record) (items : List Item) : List Item :=
  items.filterMap (fun item => (body item).1)

def recorded (body : Item → Action Item Record) (items : List Item) : List Record :=
  items.filterMap (fun item => (body item).2)

def openCount [DecidableEq Key] (itemKey : Item → Option Key) (key : Key)
    (items : List Item) : Nat :=
  items.countP (fun item => itemKey item = some key)

def recordCount [DecidableEq Key] (recordKey : Record → Key) (key : Key)
    (records : List Record) : Nat :=
  records.countP (fun record => recordKey record = key)

inductive Balanced (itemKey : Item → Option Key) (recordKey : Record → Key)
    (item : Item) : Action Item Record → Prop where
  | keep {item' : Item} (same : itemKey item' = itemKey item) :
      Balanced itemKey recordKey item (some item', none)
  | close {item' : Item} {record : Record} (closed : itemKey item' = none)
      (wasOpen : itemKey item = some (recordKey record)) :
      Balanced itemKey recordKey item (some item', some record)
  | take {record : Record} (wasOpen : itemKey item = some (recordKey record)) :
      Balanced itemKey recordKey item (none, some record)
  | discard (wasClosed : itemKey item = none) : Balanced itemKey recordKey item (none, none)

section

variable [DecidableEq Key] {itemKey : Item → Option Key}
  {recordKey : Record → Key}

@[simp] theorem openCount_nil (key : Key) : openCount itemKey key [] = 0 := rfl

@[simp] theorem openCount_cons (key : Key) (item : Item) (items : List Item) :
    openCount itemKey key (item :: items) =
      openCount itemKey key items + if itemKey item = some key then 1 else 0 := by
  simp [openCount, countP_cons]

@[simp] theorem openCount_append (key : Key) (left right : List Item) :
    openCount itemKey key (left ++ right) =
      openCount itemKey key left + openCount itemKey key right :=
  countP_append

@[simp] theorem recordCount_nil (key : Key) : recordCount recordKey key [] = 0 := rfl

@[simp] theorem recordCount_cons (key : Key) (record : Record)
    (records : List Record) :
    recordCount recordKey key (record :: records) = recordCount recordKey key records +
        if recordKey record = key then 1 else 0 := by
  simp [recordCount, countP_cons]

@[simp] theorem recordCount_append (key : Key) (left right : List Record) :
    recordCount recordKey key (left ++ right) =
      recordCount recordKey key left + recordCount recordKey key right :=
  countP_append

theorem count_sweep {body : Item → Action Item Record} {items : List Item}
    (balanced : ∀ item ∈ items, Balanced itemKey recordKey item (body item)) (key : Key) :
    openCount itemKey key (kept body items) + recordCount recordKey key (recorded body items) =
      openCount itemKey key items := by
  induction items with
  | nil => rfl
  | cons item items induction =>
    have rest := induction (fun other member => balanced other (mem_cons_of_mem _ member))
    have first := balanced item mem_cons_self
    simp only [kept, recorded, filterMap_cons] at rest ⊢
    generalize action : body item = result at first ⊢
    cases first with
    | keep same =>
      simp only [openCount_cons, same]
      omega
    | close closed wasOpen =>
      simp only [openCount_cons, recordCount_cons, closed, wasOpen,
        Option.some.injEq, reduceCtorEq, if_false]
      omega
    | take wasOpen =>
      simp only [openCount_cons, recordCount_cons, wasOpen, Option.some.injEq]
      omega
    | discard wasClosed =>
      simp only [openCount_cons, wasClosed, reduceCtorEq, if_false]
      omega

end

theorem mem_kept {body : Item → Action Item Record} {items : List Item}
    {item' : Item} (member : item' ∈ kept body items) :
    ∃ item ∈ items, (body item).1 = some item' :=
  mem_filterMap.mp member

theorem mem_recorded {body : Item → Action Item Record} {items : List Item}
    {record : Record} (member : record ∈ recorded body items) :
    ∃ item ∈ items, (body item).2 = some record :=
  mem_filterMap.mp member

end Sweep
