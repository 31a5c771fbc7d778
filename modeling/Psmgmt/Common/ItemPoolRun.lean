import Psmgmt.Common.ItemPool
import Psmgmt.Library.Snoc
import Psmgmt.Library.Transition

/-!
# Runs of a pool of items

An item of a live chunk is in the idle list just if its state word says so and
in a list of a user just if the word is one of the user's.
-/

namespace Psmgmt.Items

open List Function

variable {chunk : Nat} {item : Item}

variable {before after : Pool α} {lists : List (List Item)}

variable {pool : Pool α}

section Consistent

variable {α : Type*}

def held (pool : Pool α) : List Item := pool.lists.flatten

def Live (pool : Pool α) (item : Item) : Prop := item.chunk ∈ pool.chunks ∧ item.index < pool.iPC

/-- A pool between two calls. -/
structure Consistent (pool : Pool α) : Prop where
  chunks : pool.chunks.Nodup
  idleOnce : pool.idleItems.Nodup
  heldOnce : (held pool).Nodup
  idle : ∀ item, item ∈ pool.idleItems ↔ Live pool item ∧ pool.state item = itemIdle
  listed : ∀ item, item ∈ held pool ↔ Live pool item ∧ Busy (pool.state item)
  used : pool.used = (held pool).length
  avail : pool.avail = pool.iPC * pool.chunks.length
  freed : ∀ free ∈ pool.freed,
    ∀ item ∈ free.idleItems ++ free.lists.flatten, item.chunk ≠ free.chunk

/-- A pool that has handed out `out`, which is in no list yet. -/
structure Fetched (pool : Pool α) (out : Item) : Prop where
  chunks : pool.chunks.Nodup
  idleOnce : pool.idleItems.Nodup
  heldOnce : (held pool).Nodup
  live : Live pool out
  state : pool.state out = itemIdle
  idle : ∀ item, item ∈ pool.idleItems ↔ item ≠ out ∧ Live pool item ∧ pool.state item = itemIdle
  listed : ∀ item, item ∈ held pool ↔ Live pool item ∧ Busy (pool.state item)
  used : pool.used = (held pool).length + 1
  avail : pool.avail = pool.iPC * pool.chunks.length
  freed : ∀ free ∈ pool.freed,
    ∀ item ∈ free.idleItems ++ free.lists.flatten, item.chunk ≠ free.chunk

/-- What fetching an item leaves alone. -/
structure Extends (before after : Pool α) : Prop where
  iPC : after.iPC = before.iPC
  lists : after.lists = before.lists
  chunks : ∃ grown, after.chunks = before.chunks ++ grown
  state : ∀ item, item.chunk ∈ before.chunks → after.state item = before.state item
  content : ∀ item, item.chunk ∈ before.chunks → after.content item = before.content item

theorem Extends.refl (pool : Pool α) : Extends pool pool :=
  ⟨rfl, rfl, ⟨[], (append_nil _).symm⟩, fun _ _ => rfl, fun _ _ => rfl⟩

theorem not_busy_idle : ¬ Busy itemIdle :=
  fun busy => busy.1 rfl

theorem not_busy_drained : ¬ Busy itemDrained :=
  fun busy => busy.2 rfl

/-! ## Fetching items -/

theorem mem_chunkItems {iPC : Nat} :
    item ∈ chunkItems iPC chunk ↔ item.chunk = chunk ∧ item.index < iPC := by
  rw [chunkItems, mem_map]
  constructor
  · rintro ⟨index, member, rfl⟩
    exact ⟨rfl, mem_range.mp member⟩
  · rintro ⟨rfl, below⟩
    exact ⟨item.index, mem_range.mpr below, rfl⟩

theorem nodup_chunkItems (iPC chunk : Nat) : (chunkItems iPC chunk).Nodup :=
  nodup_range.map (fun _ _ same => (Item.mk.inj same).2)

theorem growItems_consistent [Inhabited α] (malloc : Malloc α) {pool : Pool α}
    (consistent : Consistent pool) :
    Consistent (growItems malloc pool).2 ∧ Extends pool (growItems malloc pool).2 := by
  unfold growItems
  split
  · exact ⟨consistent, Extends.refl pool⟩
  · rename_i newChunk fresh _
    have apart : ∀ item : Item, item.chunk ∈ pool.chunks → item.chunk ≠ newChunk :=
      fun item member same => fresh (same ▸ member)
    refine ⟨⟨?_, ?_, consistent.heldOnce, ?_, ?_, consistent.used, ?_,
      consistent.freed⟩, ⟨rfl, rfl, ⟨[newChunk], rfl⟩, ?_, ?_⟩⟩
    · exact Snoc.nodup consistent.chunks fresh
    · refine nodup_append.mpr ⟨consistent.idleOnce, nodup_chunkItems _ _, ?_⟩
      intro item member other here same
      have live := ((consistent.idle item).mp member).1
      exact apart item live.1 (same ▸ (mem_chunkItems.mp here).1)
    · intro item
      rw [mem_append, consistent.idle, mem_chunkItems]
      dsimp only [Live]
      rw [mem_append, mem_singleton]
      by_cases new : item.chunk = newChunk
      · rw [if_pos new]
        constructor
        · rintro (⟨⟨member, _⟩, _⟩ | ⟨_, below⟩)
          · exact absurd new (apart item member)
          · exact ⟨⟨.inr new, below⟩, rfl⟩
        · rintro ⟨⟨_, below⟩, _⟩
          exact .inr ⟨new, below⟩
      · rw [if_neg new]
        simp only [new, or_false, false_and]
    · intro item
      change item ∈ held pool ↔ _
      rw [consistent.listed]
      dsimp only [Live]
      rw [mem_append, mem_singleton]
      by_cases new : item.chunk = newChunk
      · rw [if_pos new]
        constructor
        · rintro ⟨⟨member, _⟩, _⟩
          exact absurd new (apart item member)
        · rintro ⟨_, busy⟩
          exact absurd busy not_busy_idle
      · rw [if_neg new]
        simp only [new, or_false]
    · dsimp only
      rw [consistent.avail, length_append, length_singleton, Nat.mul_succ]
    · intro item member
      exact if_neg (apart item member)
    · intro item member
      exact if_neg (apart item member)

theorem listDel_lists (absent : item ∉ held pool) : (listDel item pool).lists = pool.lists := by
  change pool.lists.map _ = pool.lists
  conv_rhs => rw [← map_id pool.lists]
  apply map_congr_left
  intro items member
  rw [filter_eq_self.mpr]
  · rfl
  · intro other inside
    rw [decide_eq_true_eq]
    intro same
    exact absent (mem_flatten.mpr ⟨items, member, same ▸ inside⟩)

theorem mem_listDel {other : Item} :
    other ∈ (listDel item pool).idleItems ↔ other ∈ pool.idleItems ∧ other ≠ item := by
  rw [listDel, mem_filter, decide_eq_true_eq]

/-- What `getItem()` returns. -/
structure Got (pool : Pool α) (result : Option Item × Pool α) : Prop where
  keeps : Extends pool result.2
  none_ : result.1 = none → Consistent result.2
  some_ : ∀ item, result.1 = some item → Fetched result.2 item

theorem getItem_got [Inhabited α] (malloc : Malloc α) {pool : Pool α}
    (consistent : Consistent pool) : Got pool (getItem malloc pool) := by
  have grown : Consistent (if pool.idleItems = [] then growItems malloc pool
      else (1, pool)).2 ∧ Extends pool (if pool.idleItems = [] then
        growItems malloc pool else (1, pool)).2 := by
    split
    · exact growItems_consistent malloc consistent
    · exact ⟨consistent, Extends.refl pool⟩
  unfold getItem
  generalize (if pool.idleItems = [] then growItems malloc pool
    else (1, pool)) = result at grown
  obtain ⟨count, pool'⟩ := result
  obtain ⟨consistent', extends_⟩ := grown
  dsimp only
  split
  · exact ⟨extends_, fun _ => consistent', fun _ never => nomatch never⟩
  · split
    · exact ⟨extends_, fun _ => consistent', fun _ never => nomatch never⟩
    · rename_i item head
      have member := mem_of_head? head
      obtain ⟨live, state⟩ := (consistent'.idle item).mp member
      rw [if_neg (not_not.mpr state)]
      have absent : item ∉ held pool' := by
        intro inside
        have busy := ((consistent'.listed item).mp inside).2
        rw [state] at busy
        exact not_busy_idle busy
      have lists := listDel_lists absent
      have same : held (listDel item pool') = held pool' := congrArg List.flatten lists
      refine ⟨⟨extends_.iPC, lists.trans extends_.lists, extends_.chunks,
        extends_.state, extends_.content⟩, fun never => (nomatch never), ?_⟩
      intro out here
      cases Option.some.inj here
      refine ⟨consistent'.chunks, consistent'.idleOnce.filter _, ?_, live,
        state, ?_, ?_, ?_, consistent'.avail, consistent'.freed⟩
      · change (held (listDel item pool')).Nodup
        rw [same]
        exact consistent'.heldOnce
      · intro other
        change other ∈ (listDel item pool').idleItems ↔ _
        rw [mem_listDel, consistent'.idle]
        exact and_comm
      · intro other
        change other ∈ held (listDel item pool') ↔ _
        rw [same]
        exact consistent'.listed other
      · change pool'.used + 1 = (held (listDel item pool')).length + 1
        rw [same, consistent'.used]

/-! ## What users see -/

def contents (pool : Pool α) : List (List α) := pool.lists.map (fun items => items.map pool.content)

theorem contents_congr (lists : after.lists = before.lists)
    (content : ∀ item ∈ held before, after.content item = before.content item) :
    contents after = contents before := by
  rw [contents, contents, lists]
  apply map_congr_left
  intro items member
  apply map_congr_left
  intro item inside
  exact content item (mem_flatten.mpr ⟨items, member, inside⟩)

theorem Extends.contents (consistent : Consistent before)
    (extends_ : Extends before after) : contents after = contents before := by
  apply contents_congr extends_.lists
  intro item inside
  exact extends_.content item ((consistent.listed item).mp inside).1.1

theorem Inserted.perm {lists' : List (List Item)}
    (inserted : Inserted item lists lists') :
    lists'.flatten.Perm (item :: lists.flatten) := by
  obtain ⟨before, front, back, after, rfl, rfl⟩ := inserted
  simp only [flatten_append, flatten_cons, append_assoc, cons_append]
  rw [← append_assoc, ← append_assoc before.flatten front]
  exact perm_middle

theorem Fetched.insert (fetched : Fetched pool item) {state : Int} (busy : Busy state)
    {content : Item → α} (inserted : Inserted item pool.lists lists) :
    Consistent { setState item state pool with
      content := content, lists := lists } := by
  have perm : lists.flatten.Perm (item :: held pool) := inserted.perm
  have absent : item ∉ held pool := by
    intro inside
    have busy := ((fetched.listed item).mp inside).2
    rw [fetched.state] at busy
    exact not_busy_idle busy
  refine ⟨fetched.chunks, fetched.idleOnce, ?_, ?_, ?_, ?_, fetched.avail, fetched.freed⟩
  · exact perm.nodup_iff.mpr (nodup_cons.mpr ⟨absent, fetched.heldOnce⟩)
  · intro other
    change other ∈ pool.idleItems ↔ Live pool other ∧ update pool.state item state other = itemIdle
    rw [fetched.idle, update_apply]
    by_cases here : other = item
    · rw [if_pos here]
      constructor
      · intro both
        exact absurd here both.1
      · intro both
        exact absurd both.2 busy.1
    · rw [if_neg here]
      exact and_iff_right here
  · intro other
    change other ∈ lists.flatten ↔ Live pool other ∧ Busy (update pool.state item state other)
    rw [perm.mem_iff, mem_cons, fetched.listed, update_apply]
    by_cases here : other = item
    · rw [if_pos here, here]
      exact ⟨fun _ => ⟨fetched.live, busy⟩, fun _ => .inl rfl⟩
    · rw [if_neg here, or_iff_right here]
  · change pool.used = lists.flatten.length
    rw [perm.length_eq, fetched.used]
    rfl

theorem Consistent.put (consistent : Consistent pool)
    (removed : Inserted item lists pool.lists) :
    Consistent (putItem item { pool with lists := lists }) := by
  have perm : (held pool).Perm (item :: lists.flatten) := removed.perm
  have once := perm.nodup_iff.mp consistent.heldOnce
  obtain ⟨absent, once⟩ := nodup_cons.mp once
  obtain ⟨live, busy⟩ := (consistent.listed item).mp (perm.mem_iff.mpr mem_cons_self)
  have used := consistent.used
  rw [perm.length_eq, length_cons] at used
  have unlisted : item ∉ pool.idleItems :=
    fun inside => busy.1 ((consistent.idle item).mp inside).2
  refine ⟨consistent.chunks, ?_, once, ?_, ?_, ?_, consistent.avail, consistent.freed⟩
  · exact Snoc.nodup consistent.idleOnce unlisted
  · intro other
    change other ∈ pool.idleItems ++ [item] ↔ Live pool other ∧
      update pool.state item itemIdle other = itemIdle
    rw [mem_append, mem_singleton, consistent.idle, update_apply]
    by_cases here : other = item
    · rw [if_pos here, here]
      exact ⟨fun _ => ⟨live, rfl⟩, fun _ => .inr rfl⟩
    · rw [if_neg here, or_iff_left here]
  · intro other
    change other ∈ lists.flatten ↔ Live pool other ∧ Busy (update pool.state item itemIdle other)
    have member := consistent.listed other
    rw [perm.mem_iff, mem_cons] at member
    rw [update_apply]
    by_cases here : other = item
    · rw [if_pos here, here]
      exact ⟨fun inside => absurd inside absent,
        fun both => absurd both.2 not_busy_idle⟩
    · rw [if_neg here, ← member, or_iff_right here]
  · change pool.used - 1 = lists.flatten.length
    omega

/-! ## Freeing a chunk -/

/-- What freeing a chunk does up to the call of `free()`. -/
structure Moves (before after : Pool α) : Prop where
  iPC : after.iPC = before.iPC
  contents : Items.contents after = Items.contents before
  chunks : ∃ grown, after.chunks = before.chunks ++ grown
  busy : ∀ item, item.chunk ∈ before.chunks →
    before.state item ≠ itemIdle → after.state item ≠ itemIdle
  drained : ∀ item, item.chunk ∈ before.chunks →
    before.state item = itemDrained → after.state item = itemDrained

theorem Moves.refl (pool : Pool α) : Moves pool pool :=
  ⟨rfl, rfl, ⟨[], (append_nil _).symm⟩, fun _ _ => id, fun _ _ => id⟩

theorem Moves.mem (moves : Moves before after) (member : chunk ∈ before.chunks) :
    chunk ∈ after.chunks := by
  obtain ⟨grown, chunks⟩ := moves.chunks
  rw [chunks]
  exact mem_append_left _ member

theorem Moves.trans {first second third : Pool α} (left : Moves first second)
    (right : Moves second third) : Moves first third := by
  refine ⟨right.iPC.trans left.iPC, right.contents.trans left.contents, ?_, ?_, ?_⟩
  · obtain ⟨grown, chunks⟩ := left.chunks
    obtain ⟨grown', chunks'⟩ := right.chunks
    exact ⟨grown ++ grown', by rw [chunks', chunks, append_assoc]⟩
  · intro item member busy
    exact right.busy item (left.mem member) (left.busy item member busy)
  · intro item member drained
    exact right.drained item (left.mem member) (left.drained item member drained)

theorem Extends.moves (consistent : Consistent before)
    (extends_ : Extends before after) : Moves before after := by
  refine ⟨extends_.iPC, extends_.contents consistent, extends_.chunks, ?_, ?_⟩
  · intro item member busy
    rw [extends_.state item member]
    exact busy
  · intro item member drained
    exact (extends_.state item member).trans drained

section

variable {pool : Pool α} (consistent : Consistent pool)

include consistent

theorem Consistent.drain (idle : pool.state item = itemIdle) :
    Consistent (setState item itemDrained (listDel item pool)) ∧
      Moves pool (setState item itemDrained (listDel item pool)) := by
  have absent : item ∉ held pool := by
    intro inside
    have busy := ((consistent.listed item).mp inside).2
    rw [idle] at busy
    exact not_busy_idle busy
  have lists := listDel_lists absent
  have same : held (listDel item pool) = held pool := congrArg List.flatten lists
  refine ⟨⟨consistent.chunks, consistent.idleOnce.filter _, ?_, ?_, ?_, ?_,
    consistent.avail, consistent.freed⟩, ⟨rfl, contents_congr lists
      (fun _ _ => rfl), ⟨[], (append_nil _).symm⟩, ?_, ?_⟩⟩
  · change (held (listDel item pool)).Nodup
    rw [same]
    exact consistent.heldOnce
  · intro other
    change other ∈ (listDel item pool).idleItems ↔ Live pool other ∧
      update pool.state item itemDrained other = itemIdle
    rw [mem_listDel, consistent.idle, update_apply]
    by_cases here : other = item
    · rw [if_pos here]
      exact ⟨fun both => absurd here both.2, fun both => nomatch both.2⟩
    · rw [if_neg here]
      exact and_iff_left here
  · intro other
    change other ∈ held (listDel item pool) ↔ Live pool other ∧
      Busy (update pool.state item itemDrained other)
    rw [same, consistent.listed, update_apply]
    by_cases here : other = item
    · rw [if_pos here, here, idle]
      exact ⟨fun both => absurd both.2 not_busy_idle,
        fun both => absurd both.2 not_busy_drained⟩
    · rw [if_neg here]
  · change pool.used = (held (listDel item pool)).length
    rw [same]
    exact consistent.used
  · intro other _ busy
    change update pool.state item itemDrained other ≠ itemIdle
    rw [update_apply]
    split
    · decide
    · exact busy
  · intro other _ drained
    change update pool.state item itemDrained other = itemDrained
    rw [update_apply]
    split
    · rfl
    · exact drained

theorem drainItem_spec (item : Item) :
    Consistent (drainItem pool item) ∧ Moves pool (drainItem pool item) ∧
      (drainItem pool item).state item ≠ itemIdle := by
  unfold drainItem
  split
  · rename_i idle
    obtain ⟨drained, moves⟩ := consistent.drain idle
    refine ⟨drained, moves, ?_⟩
    change update pool.state item itemDrained item ≠ itemIdle
    rw [update_self]
    decide
  · rename_i busy
    exact ⟨consistent, Moves.refl pool, busy⟩

theorem drain_spec (items : List Item)
    (live : ∀ item ∈ items, item.chunk ∈ pool.chunks) :
    Consistent (items.foldl drainItem pool) ∧ Moves pool (items.foldl drainItem pool) ∧
        ∀ item ∈ items, (items.foldl drainItem pool).state item ≠ itemIdle := by
  induction items generalizing pool with
  | nil => exact ⟨consistent, Moves.refl pool, fun _ member => nomatch member⟩
  | cons item rest next =>
    obtain ⟨drained, moves, busy⟩ := drainItem_spec consistent item
    obtain ⟨last, moves', busy'⟩ := next drained (fun other member =>
      moves.mem (live other (mem_cons_of_mem _ member)))
    refine ⟨last, moves.trans moves', ?_⟩
    intro other member
    rcases mem_cons.mp member with here | later
    · rw [here]
      exact moves'.busy item (moves.mem (live item mem_cons_self)) busy
    · exact busy' other later

end

theorem Fetched.replace {orig repl : Item} (fetched : Fetched pool repl)
    (inside : orig ∈ held pool) {state : Int} (busy : Busy state) :
    Consistent (setState orig itemDrained
        { replaceItem orig repl state pool with
          used := (replaceItem orig repl state pool).used - 1 }) ∧
      Moves pool (setState orig itemDrained
        { replaceItem orig repl state pool with
          used := (replaceItem orig repl state pool).used - 1 }) := by
  have absent : repl ∉ held pool := by
    intro inside
    have busy := ((fetched.listed repl).mp inside).2
    rw [fetched.state] at busy
    exact not_busy_idle busy
  have other : repl ≠ orig := fun same => absent (same ▸ inside)
  have origBusy := ((fetched.listed orig).mp inside).2
  have states : ∀ item, (setState orig itemDrained
      { replaceItem orig repl state pool with
        used := (replaceItem orig repl state pool).used - 1 }).state item =
      if item = orig then itemDrained
      else if item = repl then state else pool.state item := by
    intro item
    change update (update pool.state repl state) orig itemDrained item = _
    rw [update_apply, update_apply]
  have lists : held (setState orig itemDrained
      { replaceItem orig repl state pool with
        used := (replaceItem orig repl state pool).used - 1 }) =
      (held pool).map (fun item => if item = orig then repl else item) :=
    map_flatten.symm
  have member : ∀ item, item ∈ (held pool).map (fun item => if item = orig then repl else item) ↔
        item = repl ∨ item ∈ held pool ∧ item ≠ orig := by
    intro item
    rw [mem_map]
    constructor
    · rintro ⟨earlier, inList, rfl⟩
      split
      · exact .inl rfl
      · rename_i apart
        exact .inr ⟨inList, apart⟩
    · rintro (rfl | ⟨inList, apart⟩)
      · exact ⟨orig, inside, if_pos rfl⟩
      · exact ⟨item, inList, if_neg apart⟩
  refine ⟨⟨fetched.chunks, fetched.idleOnce, ?_, ?_, ?_, ?_, fetched.avail,
    fetched.freed⟩, ⟨rfl, ?_, ⟨[], (append_nil _).symm⟩, ?_, ?_⟩⟩
  · rw [lists]
    refine fetched.heldOnce.map_on ?_
    intro left leftIn right rightIn same
    split at same
    · rename_i here
      split at same
      · rename_i there
        exact here.trans there.symm
      · exact absurd (same ▸ rightIn) absent
    · split at same
      · exact absurd (same ▸ leftIn) absent
      · exact same
  · intro item
    rw [states]
    change item ∈ pool.idleItems ↔ Live pool item ∧ _
    rw [fetched.idle]
    by_cases here : item = orig
    · rw [if_pos here, here]
      exact ⟨fun both => absurd both.2.2 origBusy.1, fun both => nomatch both.2⟩
    · rw [if_neg here]
      by_cases there : item = repl
      · rw [if_pos there]
        exact ⟨fun both => absurd there both.1,
          fun both => absurd both.2 busy.1⟩
      · rw [if_neg there]
        exact and_iff_right there
  · intro item
    rw [states, lists, member, fetched.listed]
    change _ ↔ Live pool item ∧ _
    by_cases here : item = orig
    · rw [if_pos here, here]
      constructor
      · rintro (same | ⟨_, apart⟩)
        · exact absurd same.symm other
        · exact absurd rfl apart
      · rintro ⟨_, never⟩
        exact absurd never not_busy_drained
    · rw [if_neg here]
      by_cases there : item = repl
      · rw [if_pos there, there]
        exact ⟨fun _ => ⟨fetched.live, busy⟩, fun _ => .inl rfl⟩
      · rw [if_neg there, or_iff_right there]
        exact and_iff_left here
  · rw [lists, length_map]
    change pool.used - 1 = _
    rw [fetched.used]
    rfl
  · change (pool.lists.map _).map _ = pool.lists.map _
    rw [map_map]
    apply map_congr_left
    intro items inLists
    rw [comp_apply, map_map]
    apply map_congr_left
    intro item inItems
    have inList : item ∈ held pool := mem_flatten.mpr ⟨items, inLists, inItems⟩
    change update pool.content repl (pool.content orig)
      (if item = orig then repl else item) = pool.content item
    split
    · rename_i here
      rw [update_self, here]
    · have apart : item ≠ repl := by
        intro same
        rw [same] at inList
        exact absent inList
      exact update_of_ne apart _ _
  · intro item _ notIdle
    rw [states]
    split
    · decide
    · split
      · exact busy.1
      · exact notIdle
  · intro item _ drained
    rw [states]
    split
    · rfl
    · split
      · rename_i there
        rw [there, fetched.state] at drained
        exact nomatch drained
      · exact drained

theorem Moves.live (moves : Moves before after) (live : Live before item) : Live after item :=
  ⟨moves.mem live.1, moves.iPC ▸ live.2⟩

/-- The second round ends with all items drained or fails. -/
theorem releaseItems_spec [Inhabited α] {relocItem : Reloc α}
    (relocates : ∀ pool item, Relocation pool item (relocItem pool item)) (items : List Item)
    {pool : Pool α} (consistent : Consistent pool) (live : ∀ item ∈ items, Live pool item)
    (busy : ∀ item ∈ items, pool.state item ≠ itemIdle) :
    Consistent (releaseItems relocItem items pool).2 ∧
      Moves pool (releaseItems relocItem items pool).2 ∧
        ((releaseItems relocItem items pool).1 = true → ∀ item ∈ items,
          (releaseItems relocItem items pool).2.state item = itemDrained) := by
  induction items generalizing pool with
  | nil => exact ⟨consistent, Moves.refl pool, fun _ _ member => nomatch member⟩
  | cons item rest next =>
    have here := live item mem_cons_self
    have going := fun {after : Pool α} (moves : Moves pool after) (consistent : Consistent after) =>
      next consistent
        (fun other member => moves.live (live other (mem_cons_of_mem _ member)))
        (fun other member => moves.busy other
          (live other (mem_cons_of_mem _ member)).1
          (busy other (mem_cons_of_mem _ member)))
    rw [releaseItems]
    split
    · rename_i drained
      obtain ⟨last, moves, all⟩ := going (Moves.refl pool) consistent
      refine ⟨last, moves, fun success other member => ?_⟩
      rcases mem_cons.mp member with same | later
      · rw [same]
        exact moves.drained item here.1 drained
      · exact all success other later
    rename_i notDrained
    rw [if_neg (busy item mem_cons_self)]
    have used : Busy (pool.state item) := ⟨busy item mem_cons_self, notDrained⟩
    have reloc := relocates pool item
    generalize relocItem pool item = result at reloc
    cases reloc with
    | failed => exact ⟨consistent, Moves.refl pool, fun never => nomatch never⟩
    | @exhausted malloc _ fetched =>
      have got := getItem_got malloc consistent
      rw [fetched] at got
      exact ⟨got.none_ rfl, got.keeps.moves consistent,
        fun never => nomatch never⟩
    | @replaced malloc repl fetchedPool state fetched busy' =>
      have got := getItem_got malloc consistent
      rw [fetched] at got
      have extended := got.keeps.moves consistent
      have held_ : item ∈ held fetchedPool := by
        rw [(got.some_ repl rfl).listed]
        refine ⟨extended.live here, ?_⟩
        rw [got.keeps.state item here.1]
        exact used
      obtain ⟨replaced, moved⟩ := (got.some_ repl rfl).replace held_ busy'
      have moves := extended.trans moved
      obtain ⟨last, moves', all⟩ := going moves replaced
      refine ⟨last, moves.trans moves', fun success other member => ?_⟩
      rcases mem_cons.mp member with same | later
      · rw [same]
        apply moves'.drained item (moves.mem here.1)
        exact update_self _ _ _
      · exact all success other later

theorem Consistent.free (consistent : Consistent pool) (member : chunk ∈ pool.chunks)
    (drained : ∀ item ∈ chunkItems pool.iPC chunk, pool.state item = itemDrained) :
    Consistent { pool with
      chunks := pool.chunks.erase chunk
      avail := pool.avail - pool.iPC
      freed := pool.freed ++ [⟨chunk, pool.idleItems, pool.lists⟩] } := by
  have idleApart : ∀ item ∈ pool.idleItems, item.chunk ≠ chunk := by
    intro item inside here
    obtain ⟨live, idle⟩ := (consistent.idle item).mp inside
    have state := drained item (mem_chunkItems.mpr ⟨here, live.2⟩)
    rw [idle] at state
    exact nomatch state
  have heldApart : ∀ item ∈ held pool, item.chunk ≠ chunk := by
    intro item inside here
    obtain ⟨live, busy⟩ := (consistent.listed item).mp inside
    exact busy.2 (drained item (mem_chunkItems.mpr ⟨here, live.2⟩))
  refine ⟨consistent.chunks.erase _, consistent.idleOnce, consistent.heldOnce,
    ?_, ?_, consistent.used, ?_, ?_⟩
  · intro item
    change item ∈ pool.idleItems ↔ (item.chunk ∈ pool.chunks.erase chunk ∧ _) ∧ _
    rw [consistent.chunks.mem_erase_iff]
    constructor
    · intro inside
      obtain ⟨live, idle⟩ := (consistent.idle item).mp inside
      exact ⟨⟨⟨idleApart item inside, live.1⟩, live.2⟩, idle⟩
    · rintro ⟨⟨⟨_, inChunks⟩, below⟩, idle⟩
      exact (consistent.idle item).mpr ⟨⟨inChunks, below⟩, idle⟩
  · intro item
    change item ∈ held pool ↔ (item.chunk ∈ pool.chunks.erase chunk ∧ _) ∧ _
    rw [consistent.chunks.mem_erase_iff]
    constructor
    · intro inside
      obtain ⟨live, busy⟩ := (consistent.listed item).mp inside
      exact ⟨⟨⟨heldApart item inside, live.1⟩, live.2⟩, busy⟩
    · rintro ⟨⟨⟨_, inChunks⟩, below⟩, busy⟩
      exact (consistent.listed item).mpr ⟨⟨inChunks, below⟩, busy⟩
  · dsimp only
    rw [length_erase_of_mem member, consistent.avail, Nat.mul_sub, Nat.mul_one]
  · intro free inFreed item inside
    rcases mem_append.mp inFreed with earlier | now
    · exact consistent.freed free earlier item inside
    · rw [mem_singleton.mp now] at inside ⊢
      rcases mem_append.mp inside with idle | listed
      · exact idleApart item idle
      · exact heldApart item listed

/-- What visiting a chunk keeps. -/
structure Collected (chunk : Nat) (before after : Pool α) : Prop where
  consistent : Consistent after
  contents : Items.contents after = Items.contents before
  others : ∀ other ∈ before.chunks, other ≠ chunk → other ∈ after.chunks

theorem freeChunk_collected [Inhabited α] {relocItem : Reloc α}
    (relocates : ∀ pool item, Relocation pool item (relocItem pool item)) {pool : Pool α}
    (consistent : Consistent pool) {chunk : Nat} (member : chunk ∈ pool.chunks) :
    Collected chunk pool (freeChunk relocItem chunk pool) := by
  have live : ∀ item ∈ chunkItems pool.iPC chunk, Live pool item := by
    intro item inside
    obtain ⟨here, below⟩ := mem_chunkItems.mp inside
    exact ⟨here ▸ member, below⟩
  obtain ⟨drained, moves, busy⟩ := drain_spec consistent _ (fun item inside => (live item inside).1)
  obtain ⟨released, moves', all⟩ := releaseItems_spec relocates (chunkItems pool.iPC chunk) drained
    (fun item inside => moves.live (live item inside)) busy
  have moved := moves.trans moves'
  unfold freeChunk
  dsimp only
  generalize releaseItems relocItem (chunkItems pool.iPC chunk) _ = result
    at released all moved
  obtain ⟨success, last⟩ := result
  cases success with
  | false => exact ⟨released, moved.contents, fun _ other _ => moved.mem other⟩
  | true =>
    refine ⟨released.free (moved.mem member) ?_, moved.contents, ?_⟩
    · intro item inside
      rw [moved.iPC] at inside
      exact all rfl item inside
    · intro other inside apart
      exact released.chunks.mem_erase_iff.mpr ⟨apart, moved.mem inside⟩

/-! ## Garbage collection -/

theorem nextChunk_mem (once : pool.chunks.Nodup) {next : Nat}
    (found : nextChunk pool chunk = some next) :
    next ∈ pool.chunks ∧ next ≠ chunk := by
  unfold nextChunk at found
  generalize pool.chunks = chunks at once found
  induction chunks with
  | nil => exact nomatch found
  | cons first rest later =>
    obtain ⟨absent, once⟩ := nodup_cons.mp once
    by_cases here : first = chunk
    · rw [dropWhile_cons_of_neg (by simpa using here), tail_cons] at found
      have member := mem_of_head? found
      exact ⟨mem_cons_of_mem _ member,
        fun same => absent (here ▸ same ▸ member)⟩
    · rw [dropWhile_cons_of_pos (by simpa using here)] at found
      obtain ⟨member, apart⟩ := later once found
      exact ⟨mem_cons_of_mem _ member, apart⟩

section

variable [Inhabited α] {relocItem : Reloc α}
  (relocates : ∀ pool item, Relocation pool item (relocItem pool item))
  (fuel : Nat) {pool : Pool α} (consistent : Consistent pool)

include relocates fuel consistent

theorem gcLoop_spec (c : Option Nat)
    (inside : ∀ chunk, c = some chunk → chunk ∈ pool.chunks) (first : Bool) :
    Consistent (gcLoop relocItem fuel c first pool) ∧
      contents (gcLoop relocItem fuel c first pool) = contents pool := by
  induction fuel generalizing pool c first with
  | zero => exact ⟨consistent, rfl⟩
  | succ fuel next =>
    cases c with
    | none => exact ⟨consistent, rfl⟩
    | some chunk =>
      have tmp : ∀ next, nextChunk pool chunk = some next →
          next ∈ pool.chunks ∧ next ≠ chunk :=
        fun _ found => nextChunk_mem consistent.chunks found
      rw [gcLoop]
      cases first with
      | true => exact next consistent _ (fun _ found => (tmp _ found).1) false
      | false =>
        have collected : Collected chunk pool
            (if unused pool chunk > pool.iPC / 2 then
              freeChunk relocItem chunk pool else pool) := by
          split
          · exact freeChunk_collected relocates consistent (inside chunk rfl)
          · exact ⟨consistent, rfl, fun _ member _ => member⟩
        dsimp only
        rw [if_neg Bool.false_ne_true]
        generalize (if unused pool chunk > pool.iPC / 2 then
          freeChunk relocItem chunk pool else pool) = after at collected
        split
        · exact ⟨collected.consistent, collected.contents⟩
        · obtain ⟨last, same⟩ := next collected.consistent
            (nextChunk pool chunk) (fun other found =>
              collected.others other (tmp other found).1 (tmp other found).2) false
          exact ⟨last, same.trans collected.contents⟩

theorem gc_spec :
    Consistent (gc relocItem fuel pool) ∧ contents (gc relocItem fuel pool) = contents pool := by
  unfold gc
  split
  · exact ⟨consistent, rfl⟩
  · exact gcLoop_spec relocates fuel consistent _ (fun _ found => mem_of_head? found) true

end

/-! ## Runs -/

/-- A pool nothing was fetched from. -/
structure Unused (pool : Pool α) : Prop where
  avail : pool.avail = 0
  used : pool.used = 0
  chunks : pool.chunks = []
  idleItems : pool.idleItems = []
  lists : ∀ items ∈ pool.lists, items = []
  freed : pool.freed = []

def poolSystem (α : Type*) [Inhabited α] : TransitionSystem (Pool α) where
  initial := Unused
  step := Call

theorem Unused.consistent (unused : Unused pool) : Consistent pool := by
  have none_ : held pool = [] := flatten_eq_nil_iff.mpr unused.lists
  have dead : ∀ item, ¬ Live pool item := by
    intro item live
    have member := live.1
    rw [unused.chunks] at member
    exact nomatch member
  refine ⟨?_, ?_, ?_, ?_, ?_, ?_, ?_, ?_⟩
  · rw [unused.chunks]
    exact nodup_nil
  · rw [unused.idleItems]
    exact nodup_nil
  · rw [none_]
    exact nodup_nil
  · intro item
    rw [unused.idleItems]
    exact ⟨fun member => (nomatch member), fun both => absurd both.1 (dead item)⟩
  · intro item
    rw [none_]
    exact ⟨fun member => (nomatch member), fun both => absurd both.1 (dead item)⟩
  · rw [unused.used, none_]
    rfl
  · rw [unused.avail, unused.chunks]
    rfl
  · rw [unused.freed]
    exact fun _ member => nomatch member

theorem Call.consistent [Inhabited α] {before after : Pool α}
    (call : Call before after) (consistent : Consistent before) :
    Consistent after := by
  cases call with
  | exhausted malloc fetched =>
    have got := getItem_got malloc consistent
    rw [fetched] at got
    exact got.none_ rfl
  | fetched malloc item pool state content lists fetched busy inserted same =>
    have got := getItem_got malloc consistent
    rw [fetched] at got
    rw [same]
    exact (got.some_ item rfl).insert busy inserted
  | put item lists removed same =>
    rw [same]
    exact consistent.put removed
  | gc relocItem fuel relocates same =>
    rw [same]
    exact (gc_spec relocates fuel consistent).1

theorem consistent_invariant [Inhabited α] : (poolSystem α).Invariant Consistent where
  initial := fun _ unused => unused.consistent
  step := fun _ _ consistent call => call.consistent consistent

/-- What is promised of a pool between two calls. -/
structure Accounted (pool : Pool α) : Prop where
  used : pool.used = (held pool).length
  avail : pool.avail = pool.iPC * pool.chunks.length
  apart : ∀ item ∈ pool.idleItems, item ∉ held pool
  idleOnce : pool.idleItems.Nodup
  heldOnce : (held pool).Nodup
  live : ∀ item ∈ held pool, Live pool item
  freed : ∀ free ∈ pool.freed,
    ∀ item ∈ free.idleItems ++ free.lists.flatten, item.chunk ≠ free.chunk

/-- The next call keeps what is in the lists of users. -/
structure KeepsContents [Inhabited α] (pool : Pool α) : Prop where
  getItem : ∀ malloc, contents (getItem malloc pool).2 = contents pool
  gc : ∀ relocItem fuel, (∀ pool item, Relocation pool item (relocItem pool item)) →
      contents (gc relocItem fuel pool) = contents pool

theorem Consistent.accounted (consistent : Consistent pool) : Accounted pool := by
  refine ⟨consistent.used, consistent.avail, ?_, consistent.idleOnce,
    consistent.heldOnce, ?_, consistent.freed⟩
  · intro item idle inside
    exact ((consistent.listed item).mp inside).2.1 ((consistent.idle item).mp idle).2
  · intro item inside
    exact ((consistent.listed item).mp inside).1

/-- In every run the counters are right, no item is in two places, no chunk in
use is freed and the lists of users keep their contents. -/
theorem pool_accounted [Inhabited α] {pool : Pool α}
    (reachable : (poolSystem α).Reachable pool) :
    Accounted pool ∧ KeepsContents pool := by
  have consistent := consistent_invariant.reachable reachable
  refine ⟨consistent.accounted, ⟨?_, ?_⟩⟩
  · intro malloc
    exact (getItem_got malloc consistent).keeps.contents consistent
  · intro relocItem fuel relocates
    exact (gc_spec relocates fuel consistent).2

end Consistent

/-! Two items for each chunk; one of them is put into the only list. -/

def emptyPool : Pool Nat where
  iPC := 2
  avail := 0
  used := 0
  chunks := []
  idleItems := []
  state := fun _ => 0
  content := fun _ => 0
  lists := [[]]
  freed := []

def nextAddress : Malloc Nat :=
  fun pool => if free : 7 ∉ pool.chunks then some ⟨7, free⟩ else none

def usedPool : Pool Nat :=
  { setState ⟨7, 0⟩ 1 (getItem nextAddress emptyPool).2 with
    content := update (getItem nextAddress emptyPool).2.content ⟨7, 0⟩ 5
    lists := [[⟨7, 0⟩]] }

theorem usedPool_reachable : (poolSystem Nat).Reachable usedPool := by
  have start : Unused emptyPool := ⟨rfl, rfl, rfl, rfl, by decide, rfl⟩
  refine .step (.initial start) (Call.fetched nextAddress ⟨7, 0⟩
    (getItem nextAddress emptyPool).2 1 5 [[⟨7, 0⟩]] rfl ⟨by decide, by decide⟩
    ?_ rfl)
  exact ⟨[], [], [], [], rfl, rfl⟩

theorem usedPool_accounted : Accounted usedPool ∧ KeepsContents usedPool :=
  pool_accounted usedPool_reachable

end Psmgmt.Items
