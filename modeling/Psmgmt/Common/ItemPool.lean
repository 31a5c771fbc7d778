import Mathlib

/-!
# Pools of items

`psitems.c` with the lists its users put items into.  A chunk is named by its
address; the counters are natural numbers.
-/

namespace Psmgmt.Items

open Function

structure Item where
  chunk : Nat
  index : Nat
  deriving DecidableEq, Repr

/-- `PSITEM_IDLE`. -/
def itemIdle : Int := -1

/-- `PSITEM_DRAINED`. -/
def itemDrained : Int := -2

structure Freed where
  chunk : Nat
  idleItems : List Item
  lists : List (List Item)

/-- `struct itemPool` with the memory of its items and the lists of its users;
`freed` records the calls of `free()`. -/
structure Pool (α : Type*) where
  iPC : Nat
  avail : Nat
  used : Nat
  chunks : List Nat
  idleItems : List Item
  state : Item → Int
  content : Item → α
  lists : List (List Item)
  freed : List Freed

section Functions

variable {α : Type*}

/-- `malloc()` fails or returns memory that is not in use. -/
abbrev Malloc (α : Type*) : Type _ :=
  (pool : Pool α) → Option { chunk : Nat // chunk ∉ pool.chunks }

/-- `relocItem()` as passed to `PSitems_gc()`. -/
abbrev Reloc (α : Type*) : Type _ := Pool α → Item → Bool × Pool α

def chunkItems (iPC chunk : Nat) : List Item := (List.range iPC).map (Item.mk chunk)

/-- `list_del()` takes an item out of whatever list it is in. -/
def listDel (item : Item) (pool : Pool α) : Pool α :=
  { pool with
    idleItems := pool.idleItems.filter (· ≠ item)
    lists := pool.lists.map (fun items => items.filter (· ≠ item)) }

def setState (item : Item) (state : Int) (pool : Pool α) : Pool α :=
  { pool with state := update pool.state item state }

def growItems [Inhabited α] (malloc : Malloc α) (pool : Pool α) : Nat × Pool α :=
  match malloc pool with
  | none => (0, pool)
  | some ⟨newChunk, _⟩ =>
    (pool.iPC, { pool with
      chunks := pool.chunks ++ [newChunk]
      idleItems := pool.idleItems ++ chunkItems pool.iPC newChunk
      state := fun item => if item.chunk = newChunk then itemIdle else pool.state item
      content := fun item => if item.chunk = newChunk then default else pool.content item
      avail := pool.avail + pool.iPC })

def getItem [Inhabited α] (malloc : Malloc α) (pool : Pool α) : Option Item × Pool α :=
  let (grown, pool) :=
    if pool.idleItems = [] then growItems malloc pool else (1, pool)
  if grown = 0 then (none, pool)
  else
    match pool.idleItems.head? with
    | none => (none, pool)
    | some item =>
      if pool.state item ≠ itemIdle then (none, pool)
      else
        let pool := listDel item pool
        (some item, { pool with used := pool.used + 1 })

def putItem (item : Item) (pool : Pool α) : Pool α :=
  let pool := setState item itemIdle pool
  { pool with
    idleItems := pool.idleItems ++ [item], used := pool.used - 1 }

def gcRequired (pool : Pool α) : Bool :=
  decide (pool.avail > pool.iPC ∧ pool.used < (pool.avail - pool.iPC) / 2)

/-- The first round of `freeChunk()` for one item. -/
def drainItem (pool : Pool α) (item : Item) : Pool α :=
  if pool.state item = itemIdle then
    setState item itemDrained (listDel item pool)
  else pool

/-- The second round of `freeChunk()`; it fails with `relocItem()`. -/
def releaseItems (relocItem : Reloc α) : (items : List Item) → Pool α → Bool × Pool α
  | [], pool => (true, pool)
  | item :: rest, pool =>
    if pool.state item = itemDrained then releaseItems relocItem rest pool
    else if pool.state item = itemIdle then
      releaseItems relocItem rest (setState item itemDrained (listDel item pool))
    else
      match relocItem pool item with
      | (false, pool) => (false, pool)
      | (true, pool) =>
        releaseItems relocItem rest (setState item itemDrained { pool with used := pool.used - 1 })

def freeChunk (relocItem : Reloc α) (chunk : Nat) (pool : Pool α) : Pool α :=
  let items := chunkItems pool.iPC chunk
  match releaseItems relocItem items (items.foldl drainItem pool) with
  | (false, pool) => pool
  | (true, pool) =>
    { pool with
      chunks := pool.chunks.erase chunk
      avail := pool.avail - pool.iPC
      freed := pool.freed ++ [⟨chunk, pool.idleItems, pool.lists⟩] }

def unused (pool : Pool α) (chunk : Nat) : Nat :=
  (chunkItems pool.iPC chunk).countP
    (fun item => pool.state item = itemIdle ∨ pool.state item = itemDrained)

def nextChunk (pool : Pool α) (chunk : Nat) : Option Nat :=
  (pool.chunks.dropWhile (· ≠ chunk)).tail.head?

/-- The loop of `PSitems_gc()` at a chunk; `fuel` bounds the chunks visited. -/
def gcLoop (relocItem : Reloc α) : (fuel : Nat) → Option Nat → (first : Bool) → Pool α → Pool α
  | 0, _, _, pool => pool
  | _ + 1, none, _, pool => pool
  | fuel + 1, some chunk, first, pool =>
    let tmp := nextChunk pool chunk
    if first then gcLoop relocItem fuel tmp false pool
    else
      let pool :=
        if unused pool chunk > pool.iPC / 2 then
          freeChunk relocItem chunk pool
        else pool
      if !gcRequired pool then pool
      else gcLoop relocItem fuel tmp false pool

def gc (relocItem : Reloc α) (fuel : Nat) (pool : Pool α) : Pool α :=
  if !gcRequired pool then pool
  else gcLoop relocItem fuel pool.chunks.head? true pool

end Functions

/-! ## Users of a pool -/

section Users

variable {α : Type*}

/-- A state word users may set. -/
def Busy (state : Int) : Prop := state ≠ itemIdle ∧ state ≠ itemDrained

def Inserted (item : Item) (lists lists' : List (List Item)) : Prop :=
  ∃ before front back after,
    lists = before ++ (front ++ back) :: after ∧ lists' = before ++ (front ++ item :: back) :: after

/-- A fetched item takes the place of another one. -/
def replaceItem (orig repl : Item) (state : Int) (pool : Pool α) : Pool α :=
  { setState repl state pool with
    content := update pool.content repl (pool.content orig)
    lists := pool.lists.map (fun items =>
      items.map (fun item => if item = orig then repl else item)) }

/-- `relocItem()` replaces the item by a fetched one or fails. -/
inductive Relocation [Inhabited α] (pool : Pool α) (item : Item) :
    Bool × Pool α → Prop where
  | failed : Relocation pool item (false, pool)
  | exhausted {malloc : Malloc α} {pool' : Pool α}
      (fetched : getItem malloc pool = (none, pool')) :
      Relocation pool item (false, pool')
  | replaced {malloc : Malloc α} {repl : Item} {pool' : Pool α} {state : Int}
      (fetched : getItem malloc pool = (some repl, pool')) (busy : Busy state) :
      Relocation pool item (true, replaceItem item repl state pool')

inductive Call [Inhabited α] (before after : Pool α) : Prop where
  | exhausted (malloc : Malloc α) (fetched : getItem malloc before = (none, after))
  | fetched (malloc : Malloc α) (item : Item) (pool : Pool α) (state : Int)
      (content : α) (lists : List (List Item))
      (fetched : getItem malloc before = (some item, pool)) (busy : Busy state)
      (inserted : Inserted item pool.lists lists)
      (same : after = { setState item state pool with
        content := update pool.content item content, lists := lists })
  | put (item : Item) (lists : List (List Item)) (removed : Inserted item lists before.lists)
      (same : after = putItem item { before with lists := lists })
  | gc (relocItem : Reloc α) (fuel : Nat)
      (relocates : ∀ pool item, Relocation pool item (relocItem pool item))
      (same : after = gc relocItem fuel before)

end Users

end Psmgmt.Items
