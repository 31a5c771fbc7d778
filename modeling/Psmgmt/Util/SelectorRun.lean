import Psmgmt.Util.Selector

/-!
# Selectors agree with epoll

Items in use are the nodes of the list, and each is the one `selectors[]` has for
its descriptor.  What is registered with epoll follows from the selector.
-/

namespace Psmgmt.Util

open List Function Option Bool

open Function (update)

/-! ## The invariant -/

/-- What a selector asks epoll for. -/
def Selector.interest (selector : Selector) : Option Mask :=
  if selector.reads || selector.writes then
    some ⟨selector.reads, selector.writes⟩
  else none

structure Selector.Shaped (selector : Selector) : Prop where
  enabled : selector.deleted = false → selector.disabled = false →
    selector.readHandler.isSome = true
  handled : selector.deleted = false →
    selector.readHandler.isSome = true ∨ selector.writeHandler.isSome = true

/-- What a selector counts for. -/
def Selector.weight (selector : Selector) : Int :=
  if selector.deleted then 0 else 1

structure Sound (nodes : List Nat) (state : Module) : Prop where
  ring : Links.Ring state.links .head (nodes.map .item)
  used : ∀ ptr, ptr ∈ nodes ↔ ∃ selector, state.items ptr = some selector
  own : ∀ ptr selector, state.items ptr = some selector → state.selectors selector.fd = some ptr
  owned : ∀ fd ptr, state.selectors fd = some ptr →
    ∃ selector, state.items ptr = some selector ∧ selector.fd = fd
  inside : ∀ fd ptr, state.selectors fd = some ptr → 0 ≤ fd ∧ fd < state.maxSelectorFD
  interest : ∀ fd, state.epoll fd = ((state.selectors fd).bind state.items).bind Selector.interest
  count : state.numSelectors = nodes.countP state.live
  shaped : ∀ ptr selector, state.items ptr = some selector → selector.Shaped

variable {selector : Selector} {ptr : Nat} {front back : List Nat}

attribute [local simp] Selector.interest Selector.writes Selector.reads Module.change

section Sound

variable {nodes : List Nat} {state : Module}

theorem Sound.nodup (sound : Sound nodes state) : nodes.Nodup :=
  (nodup_cons.mp sound.ring.nodup).2.of_map

theorem interest_read :
    (∃ mask, selector.interest = some mask ∧ mask.read = true) ↔ selector.reads = true := by
  unfold Selector.interest
  cases selector.reads <;> cases selector.writes <;> simp

theorem interest_write :
    (∃ mask, selector.interest = some mask ∧ mask.write = true) ↔ selector.writes = true := by
  unfold Selector.interest
  cases selector.reads <;> cases selector.writes <;> simp

theorem interest_deleted (deleted : selector.deleted = true) : selector.interest = none := by
  simp [deleted]

/-- What holds of a descriptor's interest holds of its selector. -/
theorem Sound.interest_iff (sound : Sound nodes state) (fd : Int)
    {asked : Mask → Bool} {asks : Selector → Bool}
    (agree : ∀ selector : Selector,
      (∃ mask, selector.interest = some mask ∧ asked mask = true) ↔ asks selector = true) :
    (∃ mask, state.epoll fd = some mask ∧ asked mask = true)
      ↔ ∃ ptr selector, state.selectors fd = some ptr
        ∧ state.items ptr = some selector ∧ asks selector = true := by
  rw [sound.interest fd]
  constructor
  · rintro ⟨mask, registered, asking⟩
    obtain ⟨selector, found, wants⟩ := bind_eq_some_iff.mp registered
    obtain ⟨ptr, referenced, item⟩ := bind_eq_some_iff.mp found
    exact ⟨ptr, selector, referenced, item, (agree selector).mp ⟨mask, wants, asking⟩⟩
  · rintro ⟨ptr, selector, referenced, item, asking⟩
    obtain ⟨mask, wants, asks⟩ := (agree selector).mpr asking
    refine ⟨mask, ?_, asks⟩
    rw [referenced, bind_some, item, bind_some, wants]

theorem Sound.agrees (sound : Sound nodes state) : Agrees state where
  read := fun fd => sound.interest_iff fd fun _ => interest_read
  write := fun fd => sound.interest_iff fd fun _ => interest_write
  list := by
    refine ⟨nodes, sound.ring, fun ptr => ?_, sound.count⟩
    rw [sound.used]
    constructor
    · rintro ⟨selector, item⟩
      exact ⟨selector.fd, sound.own ptr selector item⟩
    · rintro ⟨fd, referenced⟩
      obtain ⟨selector, item, -⟩ := sound.owned fd ptr referenced
      exact ⟨selector, item⟩

/-! ## A selector changes -/

theorem live_eq (item : state.items ptr = some selector) : state.live ptr = !selector.deleted := by
  rw [Module.live, item]
  rfl

theorem live_congr {later : Module} (same : later.items ptr = state.items ptr) :
    later.live ptr = state.live ptr := by
  rw [Module.live, same, Module.live]

theorem countP_live_congr {later : Module} {ptrs : List Nat}
    (same : ∀ ptr ∈ ptrs, later.items ptr = state.items ptr) :
    ptrs.countP later.live = ptrs.countP state.live :=
  countP_congr fun ptr member => by rw [live_congr (same ptr member)]

theorem countP_live_cons {ptrs : List Nat}
    (item : state.items ptr = some selector) :
    ((ptr :: ptrs).countP state.live : Int) = ptrs.countP state.live + selector.weight := by
  rw [countP_cons, live_eq item, Selector.weight]
  cases selector.deleted <;> simp

/-- A selector changes but stays where it is, and epoll is told about it. -/
structure Modified (state later : Module) (ptr : Nat)
    (before after : Selector) : Prop where
  found : state.items ptr = some before
  same_fd : after.fd = before.fd
  shaped : after.Shaped
  items : later.items = update state.items ptr (some after)
  epoll : later.epoll = update state.epoll before.fd after.interest
  links : later.links = state.links
  selectors : later.selectors = state.selectors
  max : later.maxSelectorFD = state.maxSelectorFD
  count : later.numSelectors = state.numSelectors - before.weight + after.weight

variable {later : Module} {ptr : Nat} {before after : Selector}

theorem Modified.item (modified : Modified state later ptr before after) :
    later.items ptr = some after := by
  rw [modified.items, update_self]

theorem Modified.others (modified : Modified state later ptr before after)
    {other : Nat} (different : other ≠ ptr) :
    later.items other = state.items other := by
  rw [modified.items, update_of_ne different]

theorem Sound.modified (sound : Sound nodes state)
    (modified : Modified state later ptr before after) : Sound nodes later where
  ring := modified.links ▸ sound.ring
  used := by
    intro other
    rw [sound.used]
    by_cases same : other = ptr
    · rw [same, modified.item, modified.found]
      exact iff_of_true ⟨_, rfl⟩ ⟨_, rfl⟩
    · rw [modified.others same]
  own := by
    intro other selector item
    rw [modified.selectors]
    by_cases same : other = ptr
    · subst same
      rw [modified.item] at item
      obtain rfl := Option.some.inj item
      rw [modified.same_fd]
      exact sound.own other before modified.found
    · rw [modified.others same] at item
      exact sound.own other selector item
  owned := by
    intro fd other referenced
    rw [modified.selectors] at referenced
    obtain ⟨selector, item, same_fd⟩ := sound.owned fd other referenced
    by_cases same : other = ptr
    · subst same
      rw [modified.found] at item
      obtain rfl := Option.some.inj item
      exact ⟨after, modified.item, modified.same_fd.trans same_fd⟩
    · rw [modified.others same]
      exact ⟨selector, item, same_fd⟩
  inside := by
    rw [modified.selectors, modified.max]
    exact sound.inside
  interest := by
    intro fd
    have own := sound.own ptr before modified.found
    rw [modified.epoll, modified.selectors]
    by_cases same : fd = before.fd
    · rw [same, update_self, own, bind_some, modified.item, bind_some]
    · rw [update_of_ne same, sound.interest]
      rcases referenced : state.selectors fd with _ | other
      · rfl
      · have different : other ≠ ptr := by
          rintro rfl
          obtain ⟨selector, item, same_fd⟩ := sound.owned fd other referenced
          rw [modified.found] at item
          obtain rfl := Option.some.inj item
          exact same same_fd.symm
        rw [bind_some, bind_some, modified.others different]
  count := by
    have member := (sound.used ptr).mpr ⟨before, modified.found⟩
    obtain ⟨front, back, split⟩ := append_of_mem member
    have nodup := sound.nodup
    have count := sound.count
    rw [split] at nodup count ⊢
    have absent := (nodup_cons.mp (nodup_middle.mp nodup)).1
    have others : ∀ other ∈ front ++ back,
        later.items other = state.items other := fun other inside =>
      modified.others fun same => absent (same ▸ inside)
    rw [countP_append, Nat.cast_add, countP_live_cons modified.found]
      at count
    rw [modified.count, count, countP_append, Nat.cast_add,
      countP_live_cons modified.item,
      countP_live_congr fun other inside => others other (mem_append_left _ inside),
      countP_live_congr fun other inside => others other (mem_append_right _ inside)]
    omega
  shaped := by
    intro other selector item
    by_cases same : other = ptr
    · subst same
      rw [modified.item] at item
      obtain rfl := Option.some.inj item
      exact modified.shaped
    · rw [modified.others same] at item
      exact sound.shaped other selector item

/-! ## Selectors come and go -/

theorem Sound.enlisted (sound : Sound nodes state) (ptr : Nat) (fd : Int) (after : Selector)
    {links : Links Node} (ring : links.Ring .head (nodes.map .item))
    (range : 0 ≤ fd ∧ fd < state.maxSelectorFD) (unused : state.items ptr = none)
    (unreferenced : state.selectors fd = none) (same_fd : after.fd = fd)
    (present : after.deleted = false) (shaped : after.Shaped) :
    Sound (nodes ++ [ptr]) { state with
      items := update state.items ptr (some after)
      selectors := update state.selectors fd (some ptr)
      links := links.addTail (.item ptr) .head
      numSelectors := state.numSelectors + 1
      epoll := update state.epoll fd after.interest } := by
  have absent : ptr ∉ nodes := by
    intro member
    obtain ⟨selector, item⟩ := (sound.used ptr).mp member
    rw [unused] at item
    exact absurd item (by simp)
  have other_fd : ∀ selector, ∀ other, state.items other = some selector → selector.fd ≠ fd := by
    intro selector other item same
    have own := sound.own other selector item
    rw [same, unreferenced] at own
    exact absurd own (by simp)
  have different : ∀ {other fd'}, state.selectors fd' = some other → other ≠ ptr := by
    rintro other fd' referenced rfl
    obtain ⟨selector, item, -⟩ := sound.owned fd' other referenced
    rw [unused] at item
    exact absurd item (by simp)
  refine ⟨?_, ?_, ?_, ?_, ?_, ?_, ?_, ?_⟩
  · rw [map_append, map_singleton]
    refine ring.addTail fun member => ?_
    rcases mem_cons.mp member with head | listed
    · exact absurd head (by simp)
    · obtain ⟨other, inside, same⟩ := mem_map.mp listed
      exact absent (Node.item.inj same ▸ inside)
  · intro other
    show _ ↔ ∃ selector, update state.items ptr (some after) other = some selector
    rw [mem_append, mem_singleton]
    by_cases same : other = ptr
    · rw [same, update_self]
      exact iff_of_true (.inr rfl) ⟨_, rfl⟩
    · rw [update_of_ne same, ← sound.used]
      exact ⟨fun listed => listed.resolve_right same, .inl⟩
  · intro other selector item
    show update state.selectors fd (some ptr) selector.fd = some other
    change update state.items ptr (some after) other = some selector at item
    by_cases same : other = ptr
    · rw [same, update_self] at item
      obtain rfl := Option.some.inj item
      rw [same_fd, update_self, same]
    · rw [update_of_ne same] at item
      rw [update_of_ne (other_fd selector other item)]
      exact sound.own other selector item
  · intro fd' other referenced
    show ∃ selector, update state.items ptr (some after) other = some selector ∧ _
    change update state.selectors fd (some ptr) fd' = some other at referenced
    by_cases same : fd' = fd
    · rw [same, update_self] at referenced
      obtain rfl := Option.some.inj referenced
      rw [update_self]
      exact ⟨after, rfl, same_fd.trans same.symm⟩
    · rw [update_of_ne same] at referenced
      rw [update_of_ne (different referenced)]
      exact sound.owned fd' other referenced
  · intro fd' other referenced
    change update state.selectors fd (some ptr) fd' = some other at referenced
    by_cases same : fd' = fd
    · rw [same]
      exact range
    · rw [update_of_ne same] at referenced
      exact sound.inside fd' other referenced
  · intro fd'
    show update state.epoll fd after.interest fd'
      = ((update state.selectors fd (some ptr) fd').bind
        (update state.items ptr (some after))).bind Selector.interest
    by_cases same : fd' = fd
    · rw [same, update_self, update_self, bind_some, update_self, bind_some]
    · rw [update_of_ne same, update_of_ne same, sound.interest]
      rcases referenced : state.selectors fd' with _ | other
      · rfl
      · rw [bind_some, bind_some, update_of_ne (different referenced)]
  · show state.numSelectors + 1 = _
    rw [countP_append, Nat.cast_add, sound.count]
    congr 1
    · refine congrArg Nat.cast (countP_live_congr fun other inside => ?_).symm
      refine update_of_ne (fun same => absent ?_) _ _
      exact same ▸ inside
    · rw [countP_singleton, live_eq (update_self _ _ _), present]
      rfl
  · intro other selector item
    change update state.items ptr (some after) other = some selector at item
    by_cases same : other = ptr
    · rw [same, update_self] at item
      obtain rfl := Option.some.inj item
      exact shaped
    · rw [update_of_ne same] at item
      exact sound.shaped other selector item

theorem Sound.withdrawn (sound : Sound (front ++ ptr :: back) state)
    (found : state.items ptr = some before) (deleted : before.deleted = true) :
    Sound (front ++ back) { state with
      items := update state.items ptr none
      selectors := update state.selectors before.fd none
      links := state.links.del (.item ptr) } := by
  have nodup := sound.nodup
  have absent := (nodup_cons.mp (nodup_middle.mp nodup)).1
  have own := sound.own ptr before found
  have ring := sound.ring
  rw [map_append, map_cons] at ring
  have different : ∀ {other fd}, fd ≠ before.fd →
      state.selectors fd = some other → other ≠ ptr := by
    rintro other fd other_fd referenced rfl
    obtain ⟨selector, item, same_fd⟩ := sound.owned fd other referenced
    rw [found] at item
    obtain rfl := Option.some.inj item
    exact other_fd same_fd.symm
  have used : ∀ {other selector}, update state.items ptr none other
      = some selector → other ≠ ptr ∧ state.items other = some selector := by
    intro other selector item
    by_cases same : other = ptr
    · rw [same, update_self] at item
      exact absurd item (by simp)
    · rw [update_of_ne same] at item
      exact ⟨same, item⟩
  refine ⟨?_, ?_, ?_, ?_, ?_, ?_, ?_, ?_⟩
  · rw [map_append]
    exact ring.del
  · intro other
    show _ ↔ ∃ selector, update state.items ptr none other = some selector
    constructor
    · intro listed
      obtain ⟨selector, item⟩ := (sound.used other).mp (by
        rcases mem_append.mp listed with first | last
        · exact mem_append_left _ first
        · exact mem_append_right _ (mem_cons_of_mem _ last))
      refine ⟨selector, ?_⟩
      rw [update_of_ne]
      · exact item
      · rintro rfl
        exact absent listed
    · rintro ⟨selector, item⟩
      obtain ⟨other_ptr, item⟩ := used item
      have listed := (sound.used other).mpr ⟨selector, item⟩
      rcases mem_append.mp listed with first | last
      · exact mem_append_left _ first
      · rcases mem_cons.mp last with same | later
        · exact absurd same other_ptr
        · exact mem_append_right _ later
  · intro other selector item
    obtain ⟨other_ptr, item⟩ := used item
    have other_own := sound.own other selector item
    show update state.selectors before.fd none selector.fd = some other
    rw [update_of_ne]
    · exact other_own
    · intro same
      rw [same, own] at other_own
      exact other_ptr (Option.some.inj other_own).symm
  · intro fd other referenced
    show ∃ selector, update state.items ptr none other = some selector ∧ _
    change update state.selectors before.fd none fd = some other at referenced
    by_cases same : fd = before.fd
    · rw [same, update_self] at referenced
      exact absurd referenced (by simp)
    · rw [update_of_ne same] at referenced
      rw [update_of_ne (different same referenced)]
      exact sound.owned fd other referenced
  · intro fd other referenced
    change update state.selectors before.fd none fd = some other at referenced
    by_cases same : fd = before.fd
    · rw [same, update_self] at referenced
      exact absurd referenced (by simp)
    · rw [update_of_ne same] at referenced
      exact sound.inside fd other referenced
  · intro fd
    show state.epoll fd = ((update state.selectors before.fd none fd).bind
      (update state.items ptr none)).bind Selector.interest
    rw [sound.interest]
    by_cases same : fd = before.fd
    · rw [same, own, update_self, bind_some, found, bind_some, interest_deleted deleted]
      rfl
    · rw [update_of_ne same]
      rcases referenced : state.selectors fd with _ | other
      · rfl
      · rw [bind_some, bind_some, update_of_ne (different same referenced)]
  · have count := sound.count
    have weight : before.weight = 0 := by simp [Selector.weight, deleted]
    rw [countP_append, Nat.cast_add, countP_live_cons found, weight]
      at count
    show state.numSelectors = _
    rw [count, countP_append, Nat.cast_add, Int.add_zero]
    congr 1
    · refine congrArg Nat.cast (countP_live_congr fun other inside => ?_).symm
      refine update_of_ne (fun same => absent ?_) _ _
      exact mem_append_left _ (same ▸ inside)
    · refine congrArg Nat.cast (countP_live_congr fun other inside => ?_).symm
      refine update_of_ne (fun same => absent ?_) _ _
      exact mem_append_right _ (same ▸ inside)
  · intro other selector item
    exact sound.shaped other selector (used item).2

/-- A selector moves to another item. -/
theorem Sound.relocated {repl : Nat} (sound : Sound nodes state)
    (found : state.items ptr = some before) (unused : state.items repl = none) :
    ∃ nodes, Sound nodes (state.relocSel ptr repl before) := by
  obtain ⟨front, back, rfl⟩ := append_of_mem ((sound.used ptr).mpr ⟨before, found⟩)
  have nodup := sound.nodup
  have absent := (nodup_cons.mp (nodup_middle.mp nodup)).1
  have fresh : repl ∉ front ++ ptr :: back := by
    intro listed
    obtain ⟨selector, item⟩ := (sound.used repl).mp listed
    rw [unused] at item
    exact absurd item (by simp)
  have moves : ptr ≠ repl := by
    rintro rfl
    exact fresh (mem_append_right _ mem_cons_self)
  have own := sound.own ptr before found
  have here : update (update state.items repl (some before)) ptr none repl = some before := by
    rw [update_of_ne moves.symm, update_self]
  have elsewhere : ∀ {other}, other ≠ ptr → other ≠ repl →
      update (update state.items repl (some before)) ptr none other = state.items other := by
    intro other first second
    rw [update_of_ne first, update_of_ne second]
  have used : ∀ {other selector}, update (update state.items repl (some before))
      ptr none other = some selector → (other = repl ∧ selector = before)
          ∨ (other ≠ ptr ∧ other ≠ repl ∧ state.items other = some selector) := by
    intro other selector item
    by_cases first : other = ptr
    · rw [first, update_self] at item
      exact absurd item (by simp)
    · by_cases second : other = repl
      · rw [second, here] at item
        exact .inl ⟨second, (Option.some.inj item).symm⟩
      · rw [elsewhere first second] at item
        exact .inr ⟨first, second, item⟩
  have different : ∀ {other fd}, fd ≠ before.fd →
      state.selectors fd = some other → other ≠ ptr ∧ other ≠ repl := by
    intro other fd other_fd referenced
    obtain ⟨selector, item, same_fd⟩ := sound.owned fd other referenced
    constructor
    · rintro rfl
      rw [found] at item
      obtain rfl := Option.some.inj item
      exact other_fd same_fd.symm
    · rintro rfl
      rw [unused] at item
      exact absurd item (by simp)
  refine ⟨front ++ repl :: back, ?_, ?_, ?_, ?_, ?_, ?_, ?_, ?_⟩
  · have ring := sound.ring
    have outside : ∀ {ptrs : List Nat}, repl ∉ ptrs →
        Node.item repl ∉ Node.head :: ptrs.map Node.item := by
      intro ptrs missing member
      rcases mem_cons.mp member with head | listed
      · exact absurd head (by simp)
      · obtain ⟨other, inside, same⟩ := mem_map.mp listed
        exact missing (Node.item.inj same ▸ inside)
    have prepared := ring.init (outside fresh)
    rw [map_append, map_cons] at prepared ⊢
    refine prepared.replace ?_
    rw [← map_append]
    refine outside fun member => fresh ?_
    rcases mem_append.mp member with first | last
    · exact mem_append_left _ first
    · exact mem_append_right _ (mem_cons_of_mem _ last)
  · intro other
    show _ ↔ ∃ selector, update (update state.items repl (some before)) ptr none
      other = some selector
    constructor
    · intro listed
      rcases mem_append.mp listed with first | last
      · obtain ⟨selector, item⟩ :=
          (sound.used other).mp (mem_append_left _ first)
        refine ⟨selector, (elsewhere ?_ ?_).trans item⟩
        · rintro rfl
          exact absent (mem_append_left _ first)
        · rintro rfl
          exact fresh (mem_append_left _ first)
      · rcases mem_cons.mp last with rfl | later
        · exact ⟨before, here⟩
        · obtain ⟨selector, item⟩ := (sound.used other).mp
            (mem_append_right _ (mem_cons_of_mem _ later))
          refine ⟨selector, (elsewhere ?_ ?_).trans item⟩
          · rintro rfl
            exact absent (mem_append_right _ later)
          · rintro rfl
            exact fresh (mem_append_right _ (mem_cons_of_mem _ later))
    · rintro ⟨selector, item⟩
      rcases used item with ⟨rfl, -⟩ | ⟨first, -, item⟩
      · exact mem_append_right _ mem_cons_self
      · rcases mem_append.mp ((sound.used other).mpr ⟨selector, item⟩) with early | late
        · exact mem_append_left _ early
        · rcases mem_cons.mp late with same | later
          · exact absurd same first
          · exact mem_append_right _ (mem_cons_of_mem _ later)
  · intro other selector item
    show update state.selectors before.fd (some repl) selector.fd = some other
    rcases used item with ⟨rfl, rfl⟩ | ⟨first, -, item⟩
    · exact update_self _ _ _
    · have other_own := sound.own other selector item
      rw [update_of_ne]
      · exact other_own
      · intro same
        rw [same, own] at other_own
        exact first (Option.some.inj other_own).symm
  · intro fd other referenced
    show ∃ selector, update (update state.items repl (some before)) ptr none
      other = some selector ∧ _
    change update state.selectors before.fd (some repl) fd = some other
      at referenced
    by_cases same : fd = before.fd
    · rw [same, update_self] at referenced
      obtain rfl := Option.some.inj referenced
      exact ⟨before, here, same.symm⟩
    · rw [update_of_ne same] at referenced
      obtain ⟨first, second⟩ := different same referenced
      rw [elsewhere first second]
      exact sound.owned fd other referenced
  · intro fd other referenced
    change update state.selectors before.fd (some repl) fd = some other
      at referenced
    by_cases same : fd = before.fd
    · rw [same]
      exact sound.inside _ ptr own
    · rw [update_of_ne same] at referenced
      exact sound.inside fd other referenced
  · intro fd
    show state.epoll fd = ((update state.selectors before.fd (some repl) fd).bind
      (update (update state.items repl (some before)) ptr none)).bind Selector.interest
    rw [sound.interest]
    by_cases same : fd = before.fd
    · rw [same, own, update_self, bind_some, bind_some, found, here]
    · rw [update_of_ne same]
      rcases referenced : state.selectors fd with _ | other
      · rfl
      · obtain ⟨first, second⟩ := different same referenced
        rw [bind_some, bind_some, elsewhere first second]
  · have count := sound.count
    have moved : (state.relocSel ptr repl before).items repl = some before := here
    rw [countP_append, Nat.cast_add, countP_live_cons found] at count
    show state.numSelectors = _
    rw [count, countP_append, Nat.cast_add, countP_live_cons moved]
    congr 1
    · refine congrArg Nat.cast (countP_live_congr fun other inside => ?_).symm
      refine elsewhere ?_ ?_
      · rintro rfl
        exact absent (mem_append_left _ inside)
      · rintro rfl
        exact fresh (mem_append_left _ inside)
    · congr 1
      refine congrArg Nat.cast (countP_live_congr fun other inside => ?_).symm
      refine elsewhere ?_ ?_
      · rintro rfl
        exact absent (mem_append_right _ inside)
      · rintro rfl
        exact fresh (mem_append_right _ (mem_cons_of_mem _ inside))
  · intro other selector item
    rcases used item with ⟨-, rfl⟩ | ⟨-, -, item⟩
    · exact sound.shaped ptr selector found
    · exact sound.shaped other selector item

end Sound

/-! ## The calls -/

variable {handler : Option Nat} {info : Nat}

section Calls

variable {nodes : List Nat} {state : Module} {fd : Int} {ptr : Nat}
variable {selector : Selector} {mask : Mask}

theorem findSelector_some (found : state.findSelector fd = some (ptr, selector)) :
    state.selectors fd = some ptr ∧ state.items ptr = some selector := by
  unfold Module.findSelector at found
  split at found
  · exact absurd found (by simp)
  · obtain ⟨other, referenced, item⟩ := bind_eq_some_iff.mp found
    obtain ⟨there, same, equal⟩ := map_eq_some_iff.mp item
    obtain ⟨rfl, rfl⟩ := Prod.mk.inj equal
    exact ⟨referenced, same⟩

theorem findSelector_none (sound : Sound nodes state) (missing : state.findSelector fd = none)
    (range : ¬(fd < 0 ∨ state.maxSelectorFD ≤ fd)) :
    state.selectors fd = none := by
  unfold Module.findSelector at missing
  rw [if_neg range] at missing
  rcases referenced : state.selectors fd with _ | other
  · rfl
  · obtain ⟨selector, item, -⟩ := sound.owned fd other referenced
    rw [referenced, bind_some, item] at missing
    exact absurd missing (by simp)

theorem Sound.epoll_eq (sound : Sound nodes state)
    (found : state.findSelector fd = some (ptr, selector)) :
    state.epoll fd = selector.interest ∧ selector.fd = fd ∧ state.items ptr = some selector := by
  obtain ⟨referenced, item⟩ := findSelector_some found
  obtain ⟨other, same, same_fd⟩ := sound.owned fd ptr referenced
  rw [item] at same
  obtain rfl := Option.some.inj same
  refine ⟨?_, same_fd, item⟩
  rw [sound.interest, referenced, bind_some, item, bind_some]

theorem ctl_add (absent : state.epoll fd = none) :
    (state.ctl .add fd mask).1 = { state with epoll := update state.epoll fd (some mask) } := by
  simp only [Module.ctl, absent, epollCtl]

theorem ctl_mod (present : (state.epoll fd).isSome = true) :
    (state.ctl .mod fd mask).1 = { state with epoll := update state.epoll fd (some mask) } := by
  obtain ⟨registered, found⟩ := isSome_iff_exists.mp present
  simp only [Module.ctl, found, epollCtl]

theorem ctl_del : (state.ctl .del fd mask).1
    = { state with epoll := update state.epoll fd none } := by
  rcases found : state.epoll fd with _ | registered
  · have same : update state.epoll fd none = state.epoll := by
      rw [← found, update_eq_self]
    simp only [Module.ctl, found, epollCtl, same]
  · simp only [Module.ctl, found, epollCtl]

theorem ctlRecheck_add (absent : state.epoll fd = none) : (state.ctlRecheck .add fd mask).1
      = { state with epoll := update state.epoll fd (some mask) } := by
  rw [← ctl_add absent]
  simp only [Module.ctlRecheck, absent, epollCtl]

section

variable (sound : Sound nodes state)

include sound

/-- A selector is changed along with what epoll watches. -/
theorem Sound.changed (found : state.findSelector fd = some (ptr, selector)) {asks : Option Mask}
    (f : Selector → Selector) (same_fd : (f selector).fd = selector.fd)
    (same_deleted : (f selector).deleted = selector.deleted) (shaped : (f selector).Shaped)
    (interest : (f selector).interest = asks) :
    Sound nodes ({ state with epoll := update state.epoll fd asks }.change ptr f) := by
  obtain ⟨-, own_fd, item⟩ := sound.epoll_eq found
  refine sound.modified ⟨item, same_fd, shaped, ?_, ?_, rfl, rfl, rfl, ?_⟩
  · simp [item]
  · rw [interest, own_fd]
    rfl
  · simp [Selector.weight, same_deleted]

theorem Sound.dropped (found : state.findSelector fd = some (ptr, selector))
    (present : selector.deleted = false) (f : Selector → Selector)
    (same_fd : (f selector).fd = selector.fd) :
    Sound nodes (({ state with epoll := update state.epoll fd none }.change ptr f).delete ptr) := by
  obtain ⟨-, own_fd, item⟩ := sound.epoll_eq found
  refine sound.modified (show Modified state _ ptr selector { f selector with deleted := true } from
      ⟨item, same_fd, ⟨?_, ?_⟩, ?_, ?_, rfl, rfl, rfl, ?_⟩)
  · simp
  · simp
  · simp [Module.delete, item]
  · simp [Module.delete, own_fd]
  · simp [Module.delete, Selector.weight, present]

theorem Sound.remove (fd : Int) : Sound nodes (state.remove fd).1 := by
  unfold Module.remove
  split
  case h_1 => exact sound
  case h_2 ptr selector found =>
    obtain ⟨registered, same_fd, item⟩ := sound.epoll_eq found
    split
    case isTrue => exact sound
    case isFalse present =>
      rw [not_eq_true] at present
      by_cases writing : selector.writeHandler.isSome = true
      · have asked : (state.epoll fd).isSome = true := by
          simp [registered, present, writing]
        simp only [writing, if_true, ctl_mod asked]
        refine sound.changed found _ rfl rfl ⟨?_, ?_⟩ ?_
        · simp
        · simp [writing]
        · simp [present, writing]
      · simp only [writing, false_eq_true, if_false, ctl_del]
        exact sound.dropped found present _ rfl

theorem Sound.vacateWrite (fd : Int) : Sound nodes (state.vacateWrite fd).1 := by
  unfold Module.vacateWrite
  split
  case h_1 => exact sound
  case h_2 ptr selector found =>
    obtain ⟨registered, same_fd, item⟩ := sound.epoll_eq found
    have shaped := sound.shaped ptr selector item
    split
    case isTrue => exact sound
    case isFalse present =>
      rw [not_eq_true] at present
      by_cases disabled : selector.disabled = true
      · by_cases reading : selector.readHandler.isSome = true
        · simp only [disabled, reading, if_true, ctl_del]
          refine sound.changed found _ rfl rfl ⟨?_, ?_⟩ ?_
          · simp [disabled]
          · simp [reading]
          · simp [disabled]
        · simp only [disabled, reading, false_eq_true, if_true, if_false, ctl_del]
          exact sound.dropped found present _ rfl
      · rw [not_eq_true] at disabled
        have reading := shaped.enabled present disabled
        have asked : (state.epoll fd).isSome = true := by
          simp [registered, present, disabled, reading]
        simp only [disabled, reading, false_eq_true, if_true, if_false, ctl_mod asked]
        refine sound.changed found _ rfl rfl ⟨?_, ?_⟩ ?_
        · simp [reading]
        · simp [reading]
        · simp [present, disabled, reading]

theorem Sound.disable (fd : Int) : Sound nodes (state.disable fd).1 := by
  unfold Module.disable
  split
  case h_1 => exact sound
  case h_2 ptr selector found =>
    obtain ⟨registered, same_fd, item⟩ := sound.epoll_eq found
    have shaped := sound.shaped ptr selector item
    split
    case isTrue => exact sound
    case isFalse present =>
      rw [not_eq_true] at present
      split
      case isTrue => exact sound
      case isFalse enabled =>
        by_cases writing : selector.writeHandler.isSome = true
        · have asked : (state.epoll fd).isSome = true := by
            simp [registered, present, writing]
          simp only [writing, if_true, ctl_mod asked]
          refine sound.changed found _ rfl rfl ⟨?_, ?_⟩ ?_
          · simp
          · simp [writing]
          · simp [present, writing]
        · simp only [writing, false_eq_true, if_false, ctl_del]
          refine sound.changed found _ rfl rfl ⟨?_, ?_⟩ ?_
          · simp
          · exact shaped.handled
          · simp [writing]

/-- A selector with a read handler is enabled. -/
theorem Sound.enable {fd : Int} (fits : Fits state (.enable fd)) :
    Sound nodes (state.enable fd).1 := by
  unfold Module.enable
  split
  case h_1 => exact sound
  case h_2 ptr selector found =>
    obtain ⟨registered, same_fd, item⟩ := sound.epoll_eq found
    split
    case isTrue => exact sound
    case isFalse present =>
      rw [not_eq_true] at present
      have reading := fits ptr selector found present
      split
      case isTrue => exact sound
      case isFalse disabled =>
        rw [not_eq_false] at disabled
        by_cases writing : selector.writeHandler.isSome = true
        · have asked : (state.epoll fd).isSome = true := by
            simp [registered, present, writing]
          simp only [writing, if_true, ctl_mod asked]
          refine sound.changed found _ rfl rfl ⟨?_, ?_⟩ ?_
          · simp [reading]
          · simp [reading]
          · simp [present, writing, reading]
        · have unasked : state.epoll fd = none := by
            simp [registered, disabled, writing]
          simp only [writing, false_eq_true, if_false, ctl_add unasked]
          refine sound.changed found _ rfl rfl ⟨?_, ?_⟩ ?_
          · simp [reading]
          · simp [reading]
          · simp [present, writing, reading]

end

theorem registered_eq (item : state.items ptr = some selector)
    (absent : state.epoll fd = none) :
    (state.registered fd ptr handler info).1 = { state with
      items := update state.items ptr (some
        { selector with fd, readInfo := info, readHandler := handler })
      selectors := update state.selectors fd (some ptr)
      links := state.links.addTail (.item ptr) .head
      numSelectors := state.numSelectors + 1
      epoll := update state.epoll fd (some ⟨true, false⟩) } := by
  unfold Module.registered
  rw [ctlRecheck_add (by exact absent)]
  simp only [Module.enlist, Module.change, item, map_some]

theorem Sound.registered_deleted (sound : Sound nodes state) (handled : handler.isSome = true)
    (info : Nat) (found : state.findSelector fd = some (ptr, selector))
    (deleted : selector.deleted = true) (range : ¬(fd < 0 ∨ state.maxSelectorFD ≤ fd)) :
    ∃ nodes, Sound nodes (((state.listDel ptr).change ptr fun selector =>
      { selector with
        writeHandler := none, writeInfo := 0
        deleted := false, disabled := false }).registered fd ptr handler info).1 := by
  obtain ⟨registered, same_fd, item⟩ := sound.epoll_eq found
  obtain ⟨front, back, rfl⟩ := append_of_mem ((sound.used ptr).mpr ⟨selector, item⟩)
  have withdrawn := sound.withdrawn item deleted
  rw [same_fd] at withdrawn
  have enlisted := withdrawn.enlisted ptr fd
    { selector with
      readHandler := handler, writeHandler := none, readInfo := info
      writeInfo := 0, fd, disabled := false, deleted := false }
    withdrawn.ring (show 0 ≤ fd ∧ fd < state.maxSelectorFD by omega)
    (update_self _ _ _) (update_self _ _ _) rfl rfl
    ⟨fun _ _ => handled, fun _ => .inl handled⟩
  have unasked : state.epoll fd = none := by
    rw [registered, interest_deleted deleted]
  refine ⟨front ++ back ++ [ptr], ?_⟩
  have prepared : ((state.listDel ptr).change ptr fun selector =>
      { selector with
        writeHandler := none, writeInfo := 0
        deleted := false, disabled := false }).items ptr = some
          { selector with
            writeHandler := none, writeInfo := 0
            deleted := false, disabled := false } := by
    simp [Module.listDel, item]
  rw [registered_eq prepared (by exact unasked)]
  simpa [Module.listDel, handled] using enlisted

theorem Sound.outside (sound : Sound nodes state)
    (unused : state.items ptr = none) :
    Node.item ptr ∉ Node.head :: nodes.map Node.item := by
  intro member
  rcases mem_cons.mp member with head | listed
  · exact absurd head (by simp)
  · obtain ⟨other, inside, same⟩ := mem_map.mp listed
    obtain ⟨selector, item⟩ := (sound.used other).mp inside
    rw [Node.item.inj same, unused] at item
    exact absurd item (by simp)

section

variable (sound : Sound nodes state) (handled : handler.isSome = true)

include sound handled

theorem Sound.registered_fresh (info : Nat) (missing : state.findSelector fd = none)
    (range : ¬(fd < 0 ∨ state.maxSelectorFD ≤ fd)) (unused : state.items ptr = none) :
    ∃ nodes, Sound nodes ((state.getSelector ptr).registered fd ptr handler info).1 := by
  have unreferenced := findSelector_none sound missing range
  have enlisted := sound.enlisted ptr fd
    { readHandler := handler, writeHandler := none, readInfo := info
      writeInfo := 0, fd, disabled := false, deleted := false }
    (sound.ring.init (sound.outside unused))
    (show 0 ≤ fd ∧ fd < state.maxSelectorFD by omega)
    unused unreferenced rfl rfl ⟨fun _ _ => handled, fun _ => .inl handled⟩
  have unasked : state.epoll fd = none := by
    rw [sound.interest, unreferenced]
    rfl
  refine ⟨nodes ++ [ptr], ?_⟩
  have prepared : (state.getSelector ptr).items ptr = some
      { readHandler := none, writeHandler := none, readInfo := 0, writeInfo := 0
        fd := -1, disabled := false, deleted := false } :=
    update_self _ _ _
  rw [registered_eq prepared (by exact unasked)]
  simpa [Module.getSelector, handled] using enlisted

theorem Sound.register {fresh : Option Nat}
    (enabled : ∀ ptr, fresh = some ptr → state.items ptr = none) :
    ∃ nodes, Sound nodes (state.register fd handler info fresh).1 := by
  unfold Module.register
  by_cases range : fd < 0 ∨ state.maxSelectorFD ≤ fd
  · rw [if_pos range]
    exact ⟨nodes, sound⟩
  · rw [if_neg range]
    rcases found : state.findSelector fd with _ | ⟨ptr, selector⟩
    · cases fresh with
      | none => exact ⟨nodes, sound⟩
      | some ptr => exact sound.registered_fresh handled info found range (enabled ptr rfl)
    · dsimp only
      split
      case isTrue deleted => exact sound.registered_deleted handled info found deleted range
      case isFalse => exact ⟨nodes, sound⟩

theorem Sound.awaited (info : Nat) (found : state.findSelector fd = some (ptr, selector))
    (present : selector.deleted = false) :
    Sound nodes (state.awaited fd ptr selector handler info).1 := by
  obtain ⟨registered, same_fd, item⟩ := sound.epoll_eq found
  have shaped := sound.shaped ptr selector item
  have listed : Node.item ptr ∈ nodes.map Node.item :=
    mem_map.mpr ⟨ptr, (sound.used ptr).mpr ⟨selector, item⟩, rfl⟩
  have linked : state.links.isEmpty (.item ptr) = false :=
    decide_eq_false (sound.ring.next_ne listed)
  have modified : ∀ later : Module,
      later.items = update state.items ptr (some
        { selector with fd, writeInfo := info, writeHandler := handler }) →
      later.epoll = update state.epoll fd (some ⟨!selector.disabled, true⟩) →
      later.links = state.links → later.selectors = state.selectors →
      later.maxSelectorFD = state.maxSelectorFD →
      later.numSelectors = state.numSelectors → Sound nodes later := by
    intro later items epoll links selectors max count
    refine sound.modified (show Modified state later ptr selector
      { selector with fd, writeInfo := info, writeHandler := handler } from
        ⟨item, same_fd.symm, ⟨shaped.enabled, fun _ => .inr handled⟩, items, ?_,
          links, selectors, max, ?_⟩)
    · rw [epoll, same_fd]
      cases disabled : selector.disabled with
      | true => simp [present, handled]
      | false => simp [present, handled, shaped.enabled present disabled]
    · rw [count]
      simp [Selector.weight]
  unfold Module.awaited
  by_cases writing : selector.writeHandler.isSome = true
  · simp only [writing, if_true]
    refine modified _ ?_ ?_ rfl rfl rfl rfl
    · simp [item]
    · have same : state.epoll fd = some ⟨!selector.disabled, true⟩ := by
        cases disabled : selector.disabled with
        | true => simp [registered, present, disabled, writing]
        | false => simp [registered, present, disabled, writing, shaped.enabled present disabled]
      rw [← same, update_eq_self]
      rfl
  · rw [not_eq_true] at writing
    have still : ((state.change ptr fun selector =>
        { selector with fd, writeInfo := info, writeHandler := handler }).links.isEmpty
          (.item ptr)) = false := linked
    simp only [writing, false_eq_true, if_false, still]
    cases disabled : selector.disabled with
    | true =>
      have unasked : state.epoll fd = none := by
        simp [registered, disabled, writing]
      rw [if_pos rfl, ctlRecheck_add (by exact unasked)]
      refine modified _ ?_ ?_ rfl rfl rfl rfl
      · simp [item]
      · simp [disabled]
    | false =>
      have asked : (state.epoll fd).isSome = true := by
        simp [registered, present, disabled, shaped.enabled present disabled]
      rw [if_neg (by simp), ctl_mod (by exact asked)]
      refine modified _ ?_ ?_ rfl rfl rfl rfl
      · simp [item]
      · simp [disabled]

theorem Sound.awaited_fresh (info : Nat) (missing : state.findSelector fd = none)
    (range : ¬(fd < 0 ∨ state.maxSelectorFD ≤ fd)) (unused : state.items ptr = none) :
    ∃ nodes, Sound nodes (((state.getSelector ptr).change ptr fun selector =>
      { selector with disabled := true }).awaited fd ptr
        { readHandler := none, writeHandler := none, readInfo := 0
          writeInfo := 0, fd := -1, disabled := true, deleted := false }
        handler info).1 := by
  have unreferenced := findSelector_none sound missing range
  have enlisted := sound.enlisted ptr fd
    { readHandler := none, writeHandler := handler, readInfo := 0
      writeInfo := info, fd, disabled := true, deleted := false }
    (sound.ring.init (sound.outside unused))
    (show 0 ≤ fd ∧ fd < state.maxSelectorFD by omega)
    unused unreferenced rfl rfl ⟨by simp, fun _ => .inr handled⟩
  have unasked : state.epoll fd = none := by
    rw [sound.interest, unreferenced]
    rfl
  have alone : (state.links.init (.item ptr)).isEmpty (.item ptr) = true :=
    decide_eq_true (update_self _ _ _)
  refine ⟨nodes ++ [ptr], ?_⟩
  simp only [Module.awaited, isSome_none, false_eq_true, if_false,
    if_true, Module.change, Module.getSelector, alone, update_self]
  rw [ctlRecheck_add (by exact unasked)]
  simpa [Module.enlist, handled] using enlisted

end

theorem Sound.awaitWrite (sound : Sound nodes state) {fresh : Option Nat}
    (fits : Fits state (.awaitWrite fd handler info fresh))
    (enabled : ∀ ptr, fresh = some ptr → state.items ptr = none) :
    ∃ nodes, Sound nodes (state.awaitWrite fd handler info fresh).1 := by
  unfold Module.awaitWrite
  by_cases range : fd < 0 ∨ state.maxSelectorFD ≤ fd
  · rw [if_pos range]
    exact ⟨nodes, sound⟩
  · rw [if_neg range]
    rcases found : state.findSelector fd with _ | ⟨ptr, selector⟩
    · cases fresh with
      | none => exact ⟨nodes, sound⟩
      | some ptr => exact sound.awaited_fresh fits.1 info found range (enabled ptr rfl)
    · have present := fits.2 ptr selector found
      dsimp only
      rw [if_neg (by simp [present])]
      exact ⟨nodes, sound.awaited fits.1 info found present⟩

/-! ## The clean-up -/

theorem Sound.putSelector (sound : Sound (front ++ ptr :: back) state)
    (item : state.items ptr = some selector) (deleted : selector.deleted = true) :
    Sound (front ++ back) (state.putSelector ptr selector) := by
  have withdrawn := sound.withdrawn item deleted
  have range := sound.inside _ ptr (sound.own ptr selector item)
  have listed : Node.item ptr ∈ (front ++ ptr :: back).map Node.item :=
    mem_map.mpr ⟨ptr, mem_append_right _ mem_cons_self, rfl⟩
  have linked : state.links.isEmpty (.item ptr) = false :=
    decide_eq_false (sound.ring.next_ne listed)
  unfold Module.putSelector
  rw [linked, if_pos range, if_neg (by simp)]
  exact withdrawn

/-- The node of the list that `back` begins with. -/
def nodeOf (back : List Nat) : Node := (back.map Node.item).head?.getD .head

/-- The round goes on behind the node it has dealt with. -/
theorem Sound.next_eq (sound : Sound (front ++ ptr :: back) state) :
    state.links.next (.item ptr) = nodeOf back := by
  have ring := sound.ring
  rw [map_append, map_cons] at ring
  exact ring.next_eq

/-- A round that begins at one of the nodes ends, and the list is sound. -/
theorem Sound.sweep {fuel : Nat} (sound : Sound (front ++ back) state) {after : Module}
    (swept : Module.sweep fuel (nodeOf back) state = some after) :
    ∃ nodes, Sound nodes after := by
  induction fuel generalizing front back state with
  | zero => exact absurd swept (by simp [Module.sweep])
  | succ fuel induction =>
    cases back with
    | nil =>
      obtain rfl := Option.some.inj swept
      exact ⟨_, sound⟩
    | cons ptr back =>
      obtain ⟨selector, item⟩ := (sound.used ptr).mp (mem_append_right _ mem_cons_self)
      have onward : front ++ ptr :: back = (front ++ [ptr]) ++ back := by simp
      simp only [nodeOf, map_cons, head?_cons, getD_some,
        Module.sweep, item, sound.next_eq] at swept
      split at swept
      case isTrue deleted => exact induction (sound.putSelector item deleted) swept
      case isFalse => exact induction (onward ▸ sound) swept

theorem Sound.first_eq (sound : Sound nodes state) : state.links.next .head = nodeOf nodes :=
  sound.ring.next.leads

end Calls

/-! ## Runs -/

section Runs

variable {nodes : List Nat} {state : Module}

theorem sound_start (maxSelectorFD : Int) : Sound [] (Module.start maxSelectorFD) where
  ring := ⟨by simp, rfl, rfl⟩
  used := by simp [Module.start]
  own := by simp [Module.start]
  owned := by simp [Module.start]
  inside := by simp [Module.start]
  interest := by simp [Module.start]
  count := rfl
  shaped := by simp [Module.start]

theorem sound_step (sound : Sound nodes state) {event : Event}
    (enabled : Enabled state event) (fits : Fits state event) :
    ∃ nodes, Sound nodes (perform state event) := by
  cases event with
  | register fd selectHandler info fresh => exact sound.register fits enabled
  | remove fd => exact ⟨nodes, sound.remove fd⟩
  | awaitWrite fd writeHandler info fresh => exact sound.awaitWrite fits enabled
  | vacateWrite fd => exact ⟨nodes, sound.vacateWrite fd⟩
  | disable fd => exact ⟨nodes, sound.disable fd⟩
  | enable fd => exact ⟨nodes, sound.enable fits⟩
  | reloc orig repl selector => exact sound.relocated enabled.1 enabled.2
  | cleanUp after =>
    obtain ⟨fuel, swept⟩ := enabled
    unfold Module.cleanUp at swept
    rw [sound.first_eq] at swept
    exact Sound.sweep (show Sound ([] ++ nodes) state from sound) swept

theorem fitting_sound (reachable : fittingSystem.Reachable state) : ∃ nodes, Sound nodes state := by
  have invariant : fittingSystem.Invariant
      fun state => ∃ nodes, Sound nodes state :=
    { initial := by
        rintro state ⟨maxSelectorFD, rfl⟩
        exact ⟨[], sound_start maxSelectorFD⟩
      step := by
        rintro before after ⟨nodes, sound⟩ ⟨event, enabled, fits, rfl⟩
        exact sound_step sound enabled fits }
  exact invariant.reachable reachable

/-- The bookkeeping of selectors agrees with epoll in each state. -/
theorem selectors_agree (reachable : fittingSystem.Reachable state) : Agrees state := by
  obtain ⟨nodes, sound⟩ := fitting_sound reachable
  exact sound.agrees

end Runs

theorem selectors_agree_registered :
    Agrees (perform (.start 10) (.register 5 (some 1) 0 (some 0))) :=
  selectors_agree (.step (.initial ⟨10, rfl⟩)
    ⟨.register 5 (some 1) 0 (some 0), fun _ _ => rfl, rfl, rfl⟩)

/-! ## A deleted selector is revived -/

/-- Descriptor 5 is registered, removed and awaits to be written. -/
def revivedEvents : List Event :=
  [.register 5 (some 1) 0 (some 0), .remove 5, .awaitWrite 5 (some 1) 0 none]

def revived : Module := revivedEvents.foldl perform (.start 10)

theorem revived_reachable : selectorSystem.Reachable revived :=
  .step (.step (.step (.initial ⟨10, rfl⟩)
    ⟨.register 5 (some 1) 0 (some 0), fun _ _ => rfl, rfl⟩)
    ⟨.remove 5, trivial, rfl⟩)
    ⟨.awaitWrite 5 (some 1) 0 none, by simp [Enabled], rfl⟩

/-- A selector in use is not in the list. -/
theorem not_selectors_agree : ¬∀ state, selectorSystem.Reachable state → Agrees state := by
  intro all
  obtain ⟨nodes, listed⟩ := (all revived revived_reachable).list
  have empty : revived.links.next .head = .head := by decide +kernel
  have referenced : revived.selectors 5 = some 0 := by decide +kernel
  have member := (listed.referenced 0).mpr ⟨5, referenced⟩
  have nothing := map_eq_nil_iff.mp (listed.ring.eq_nil empty)
  rw [nothing] at member
  exact absurd member not_mem_nil

end Psmgmt.Util
