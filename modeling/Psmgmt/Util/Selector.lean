import Psmgmt.Library.Circular
import Psmgmt.Library.Transition

/-!
# Selectors

Handlers of file descriptors that are registered with epoll.  A selector is
deleted lazily: it is marked, and `Swait()` puts it back into the pool at the
start of its next round.
-/

namespace Psmgmt.Util

open Function (update)

/-- A node of `selectorList`: its head or the item of a selector. -/
inductive Node where
  | head
  | item (ptr : Nat)
  deriving DecidableEq

/-- `Selector_t`; handlers and infos are pointers. -/
structure Selector where
  readHandler : Option Nat
  writeHandler : Option Nat
  readInfo : Nat
  writeInfo : Nat
  fd : Int
  disabled : Bool
  deleted : Bool

/-- Interest in input (`EPOLLIN | EPOLLPRI`) and in output (`EPOLLOUT`). -/
structure Mask where
  read : Bool
  write : Bool
  deriving DecidableEq

inductive EpollOp where
  | add
  | mod
  | del
  deriving DecidableEq

inductive Errno where
  | eexist
  | enoent

/-- `epoll_ctl()`: what is registered for the descriptor before and after. -/
def epollCtl (op : EpollOp) (mask : Mask) (registered : Option Mask) : Except Errno (Option Mask) :=
  match op, registered with
  | .add, none => .ok (some mask)
  | .add, some _ => .error .eexist
  | .mod, some _ => .ok (some mask)
  | .del, some _ => .ok none
  | _, none => .error .enoent

/-- The epoll instance, `selectors[]`, the items in use, the list through them,
`numSelectors` and `maxSelectorFD`. -/
structure Module where
  epoll : Int → Option Mask
  selectors : Int → Option Nat
  items : Nat → Option Selector
  links : Links Node
  numSelectors : Int
  maxSelectorFD : Int

namespace Module

/-- The module after `Selector_init()`. -/
def start (maxSelectorFD : Int) : Module :=
  { epoll := fun _ => none, selectors := fun _ => none, items := fun _ => none
    links := ⟨id, id⟩, numSelectors := 0, maxSelectorFD }

/-! ## Parts of the calls -/

def ctl (state : Module) (op : EpollOp) (fd : Int) (mask : Mask) : Module × Int :=
  match epollCtl op mask (state.epoll fd) with
  | .ok registered => ({ state with epoll := update state.epoll fd registered }, 0)
  | .error _ => (state, -1)

/-- An operation that is done again by `EPOLL_CTL_MOD` after `EEXIST`. -/
def ctlRecheck (state : Module) (op : EpollOp) (fd : Int) (mask : Mask) : Module × Int :=
  match epollCtl op mask (state.epoll fd) with
  | .error .eexist => state.ctl .mod fd mask
  | _ => state.ctl op fd mask

def findSelector (state : Module) (fd : Int) : Option (Nat × Selector) :=
  if fd < 0 ∨ state.maxSelectorFD ≤ fd then none
  else (state.selectors fd).bind fun ptr => (state.items ptr).map (Prod.mk ptr)

def change (state : Module) (ptr : Nat) (f : Selector → Selector) : Module :=
  { state with items := update state.items ptr ((state.items ptr).map f) }

/-- An item of the pool, which has not been in use. -/
def getSelector (state : Module) (ptr : Nat) : Module :=
  { state with
    items := update state.items ptr (some
      { readHandler := none, writeHandler := none, readInfo := 0, writeInfo := 0
        fd := -1, disabled := false, deleted := false })
    links := state.links.init (.item ptr) }

def listDel (state : Module) (ptr : Nat) : Module :=
  { state with links := state.links.del (.item ptr) }

/-- A selector is put at the end of the list, into `selectors[]` and counted. -/
def enlist (state : Module) (fd : Int) (ptr : Nat) : Module :=
  { state with
    links := state.links.addTail (.item ptr) .head
    selectors := update state.selectors fd (some ptr)
    numSelectors := state.numSelectors + 1 }

def delete (state : Module) (ptr : Nat) : Module :=
  { state.change ptr (fun selector => { selector with deleted := true }) with
    numSelectors := state.numSelectors - 1 }

/-! ## The calls -/

/-- The end of `Selector_register()`. -/
def registered (state : Module) (fd : Int) (ptr : Nat)
    (selectHandler : Option Nat) (info : Nat) : Module × Int :=
  ((state.change ptr fun selector =>
      { selector with fd, readInfo := info, readHandler := selectHandler }).enlist
    fd ptr).ctlRecheck .add fd ⟨true, false⟩

/-- `Selector_register()`; `fresh` is what the pool has got. -/
def register (state : Module) (fd : Int) (selectHandler : Option Nat)
    (info : Nat) (fresh : Option Nat) : Module × Int :=
  if fd < 0 ∨ state.maxSelectorFD ≤ fd then (state, -1)
  else
    match state.findSelector fd, fresh with
    | some (ptr, selector), _ =>
      if selector.deleted then
        ((state.listDel ptr).change ptr fun selector =>
          { selector with
            writeHandler := none, writeInfo := 0
            deleted := false, disabled := false }).registered fd ptr selectHandler info
      else (state, -1)
    | none, some ptr => (state.getSelector ptr).registered fd ptr selectHandler info
    | none, none => (state, -1)

def remove (state : Module) (fd : Int) : Module × Int :=
  match state.findSelector fd with
  | none => (state, -1)
  | some (ptr, selector) =>
    if selector.deleted then (state, -1)
    else
      let op := if selector.writeHandler.isSome then EpollOp.mod else .del
      let (state, rc) := state.ctl op fd ⟨false, true⟩
      let state := state.change ptr fun selector =>
        { selector with readHandler := none, disabled := true }
      (if selector.writeHandler.isSome then state else state.delete ptr, rc)

/-- The end of `Selector_awaitWrite()`. -/
def awaited (state : Module) (fd : Int) (ptr : Nat) (selector : Selector)
    (writeHandler : Option Nat) (info : Nat) : Module × Int :=
  let state := state.change ptr fun selector =>
    { selector with fd, writeInfo := info, writeHandler }
  if selector.writeHandler.isSome then (state, 0)
  else
    let state :=
      if state.links.isEmpty (.item ptr) then state.enlist fd ptr else state
    if selector.disabled then state.ctlRecheck .add fd ⟨false, true⟩
    else state.ctl .mod fd ⟨true, true⟩

/-- A deleted selector as `Selector_awaitWrite()` takes it up again. -/
def revive (selector : Selector) : Selector :=
  { selector with
    readHandler := none, readInfo := 0, writeHandler := none
    disabled := true, deleted := false }

def awaitWrite (state : Module) (fd : Int) (writeHandler : Option Nat)
    (info : Nat) (fresh : Option Nat) : Module × Int :=
  if fd < 0 ∨ state.maxSelectorFD ≤ fd then (state, -1)
  else
    match state.findSelector fd, fresh with
    | some (ptr, selector), _ =>
      if selector.deleted then
        -- ensure selector is requeued for counting
        ((state.listDel ptr).change ptr revive).awaited fd ptr (revive selector) writeHandler info
      else state.awaited fd ptr selector writeHandler info
    | none, some ptr =>
      ((state.getSelector ptr).change ptr fun selector =>
        { selector with disabled := true }).awaited fd ptr
          { readHandler := none, writeHandler := none, readInfo := 0
            writeInfo := 0, fd := -1, disabled := true, deleted := false }
          writeHandler info
    | none, none => (state, -1)

def vacateWrite (state : Module) (fd : Int) : Module × Int :=
  match state.findSelector fd with
  | none => (state, -1)
  | some (ptr, selector) =>
    if selector.deleted then (state, -1)
    else
      let op := if selector.disabled then EpollOp.del else .mod
      let (state, rc) := state.ctl op fd ⟨!selector.disabled, false⟩
      let state := state.change ptr fun selector => { selector with writeHandler := none }
      (if selector.readHandler.isSome then state else state.delete ptr, rc)

def disable (state : Module) (fd : Int) : Module × Int :=
  match state.findSelector fd with
  | none => (state, -1)
  | some (ptr, selector) =>
    if selector.deleted then (state, -1)
    else if selector.disabled then (state, 0)
    else
      let op := if selector.writeHandler.isSome then EpollOp.mod else .del
      let (state, rc) := state.ctl op fd ⟨false, true⟩
      (state.change ptr fun selector => { selector with disabled := true }, rc)

def enable (state : Module) (fd : Int) : Module × Int :=
  match state.findSelector fd with
  | none => (state, -1)
  | some (ptr, selector) =>
    if selector.deleted then (state, -1)
    else if selector.disabled = false then (state, 0)
    else
      let op := if selector.writeHandler.isSome then EpollOp.mod else .add
      let (state, rc) := state.ctl op fd ⟨true, selector.writeHandler.isSome⟩
      (state.change ptr fun selector => { selector with disabled := false }, rc)

/-- Put a selector back into the pool. -/
def putSelector (state : Module) (ptr : Nat) (selector : Selector) : Module :=
  { state with
    links := if state.links.isEmpty (.item ptr) then state.links
      else state.links.del (.item ptr)
    selectors :=
      if 0 ≤ selector.fd ∧ selector.fd < state.maxSelectorFD then
        update state.selectors selector.fd none
      else state.selectors
    items := update state.items ptr none }

/-- The rest of the round at the start of `Swait()`, from the node `s` on. -/
def sweep : Nat → Node → Module → Option Module
  | 0, _, _ => none
  | _ + 1, .head, state => some state
  | fuel + 1, .item ptr, state =>
    let tmp := state.links.next (.item ptr)
    match state.items ptr with
    | none => sweep fuel tmp state
    | some selector =>
      if selector.deleted then sweep fuel tmp (state.putSelector ptr selector)
      else sweep fuel tmp state

/-- `list_for_each_safe()` with at most `fuel` nodes. -/
def cleanUp (state : Module) (fuel : Nat) : Option Module :=
  sweep fuel (state.links.next .head) state

/-- The selector in the item `orig` moves to the item `repl`. -/
def relocSel (state : Module) (orig repl : Nat) (selector : Selector) : Module :=
  { state.getSelector repl with
    items := update (update state.items repl (some selector)) orig none
    links := (state.getSelector repl).links.add (.item repl)
      ((state.getSelector repl).links.prev (.item orig))
      ((state.getSelector repl).links.next (.item orig))
    selectors := update state.selectors selector.fd (some repl) }

end Module

/-! ## Runs -/

inductive Event where
  | register (fd : Int) (selectHandler : Option Nat) (info : Nat) (fresh : Option Nat)
  | remove (fd : Int)
  | awaitWrite (fd : Int) (writeHandler : Option Nat) (info : Nat) (fresh : Option Nat)
  | vacateWrite (fd : Int)
  | disable (fd : Int)
  | enable (fd : Int)
  /-- One of the relocations of `Selector_gc()`. -/
  | reloc (orig repl : Nat) (selector : Selector)
  /-- The clean-up of a round of `Swait()`. -/
  | cleanUp (after : Module)

/-- The pool gives items that are not in use, items in use are relocated, and a
clean-up ends. -/
def Enabled (state : Module) : Event → Prop
  | .register _ _ _ fresh => ∀ ptr, fresh = some ptr → state.items ptr = none
  | .awaitWrite _ _ _ fresh => ∀ ptr, fresh = some ptr → state.items ptr = none
  | .reloc orig repl selector => state.items orig = some selector ∧ state.items repl = none
  | .cleanUp after => ∃ fuel, state.cleanUp fuel = some after
  | _ => True

def perform (state : Module) : Event → Module
  | .register fd selectHandler info fresh => (state.register fd selectHandler info fresh).1
  | .remove fd => (state.remove fd).1
  | .awaitWrite fd writeHandler info fresh => (state.awaitWrite fd writeHandler info fresh).1
  | .vacateWrite fd => (state.vacateWrite fd).1
  | .disable fd => (state.disable fd).1
  | .enable fd => (state.enable fd).1
  | .reloc orig repl selector => state.relocSel orig repl selector
  | .cleanUp after => after

def selectorSystem : TransitionSystem Module where
  initial := fun state => ∃ maxSelectorFD, state = Module.start maxSelectorFD
  step := fun before after => ∃ event, Enabled before event ∧ after = perform before event

/-! ## Bookkeeping that agrees with epoll -/

def Selector.reads (selector : Selector) : Bool :=
  !selector.deleted && !selector.disabled && selector.readHandler.isSome

def Selector.writes (selector : Selector) : Bool :=
  !selector.deleted && selector.writeHandler.isSome

def Module.live (state : Module) (ptr : Nat) : Bool :=
  (state.items ptr).any fun selector => !selector.deleted

/-- `nodes` are the selectors of the list. -/
structure Listed (state : Module) (nodes : List Nat) : Prop where
  ring : Links.Ring state.links .head (nodes.map .item)
  referenced : ∀ ptr, ptr ∈ nodes ↔ ∃ fd, state.selectors fd = some ptr
  count : state.numSelectors = nodes.countP state.live

structure Agrees (state : Module) : Prop where
  read : ∀ fd, (∃ mask, state.epoll fd = some mask ∧ mask.read = true)
    ↔ ∃ ptr selector, state.selectors fd = some ptr
      ∧ state.items ptr = some selector ∧ selector.reads = true
  write : ∀ fd, (∃ mask, state.epoll fd = some mask ∧ mask.write = true)
    ↔ ∃ ptr selector, state.selectors fd = some ptr
      ∧ state.items ptr = some selector ∧ selector.writes = true
  list : ∃ nodes, Listed state nodes

/-- Handlers are none of them `NULL`, a selector enabled has a read handler, and
none is revived by `Selector_awaitWrite()`. -/
def Fits (state : Module) : Event → Prop
  | .register _ selectHandler _ _ => selectHandler.isSome = true
  | .awaitWrite fd writeHandler _ _ => writeHandler.isSome = true
      ∧ ∀ ptr selector, state.findSelector fd = some (ptr, selector) → selector.deleted = false
  | .enable fd => ∀ ptr selector,
      state.findSelector fd = some (ptr, selector) → selector.deleted = false →
        selector.readHandler.isSome = true
  | _ => True

/-- The runs all of whose events fit. -/
def fittingSystem : TransitionSystem Module where
  initial := selectorSystem.initial
  step := fun before after =>
    ∃ event, Enabled before event ∧ Fits before event ∧ after = perform before event

end Psmgmt.Util
