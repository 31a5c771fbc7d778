import Psmgmt.Partition.Threads

/-!
# The use of HW-threads

What creating and releasing slots does to the counters of the HW-threads.
-/

namespace Psmgmt.Partition

open List Function Option

/-! ## Slots and HW-threads -/

def HWThread.inSlot (thread : HWThread) (slot : Slot) : Bool :=
  decide (slot.node = thread.node ∧ thread.id ∈ slot.cpuSet)

/-- How many of the slots contain the HW-thread. -/
def hits (thread : HWThread) (slots : List Slot) : Nat := slots.countP thread.inSlot

/-- The number of HW-threads in the slots. -/
def size (slots : List Slot) : Nat := (slots.map (fun slot => slot.cpuSet.card)).sum

variable {thread : HWThread} {t mod fuel : Nat} {c c' p : Collect}
  {result : List Slot × ThreadPool}

theorem inSlot_iff {slot : Slot} :
    thread.inSlot slot = true ↔ slot.node = thread.node ∧ thread.id ∈ slot.cpuSet := by
  simp [HWThread.inSlot]

@[simp] theorem hits_nil (thread : HWThread) : hits thread [] = 0 := rfl

@[simp] theorem hits_append (thread : HWThread) (left right : List Slot) :
    hits thread (left ++ right) = hits thread left + hits thread right :=
  countP_append

theorem hits_cons (thread : HWThread) (slot : Slot) (rest : List Slot) :
    hits thread (slot :: rest) = hits thread rest + if thread.inSlot slot then 1 else 0 :=
  countP_cons

theorem hits_sublist (thread : HWThread) {left right : List Slot}
    (sublist : left.Sublist right) : hits thread left ≤ hits thread right :=
  sublist.countP_le

theorem hits_eq_zero {slots : List Slot} :
    hits thread slots = 0 ↔ ∀ slot ∈ slots, thread.inSlot slot = false := by
  simp [hits, countP_eq_zero]

theorem hits_congr {left right : HWThread} (node : left.node = right.node)
    (id : left.id = right.id) (slots : List Slot) :
    hits left slots = hits right slots := by
  unfold hits HWThread.inSlot
  rw [node, id]

/-! ## Releasing -/

def eraseThread (thread : HWThread) (slot : Slot) : Slot :=
  if thread.inSlot slot then ⟨slot.node, slot.cpuSet.erase thread.id⟩ else slot

theorem size_erase (thread : HWThread) (slots : List Slot) :
    size (slots.map (eraseThread thread)) + hits thread slots = size slots := by
  induction slots with
  | nil => rfl
  | cons slot rest induction =>
    unfold size at induction ⊢
    rw [hits_cons, map_cons, map_cons, map_cons, sum_cons, sum_cons]
    by_cases inside : thread.inSlot slot = true
    · have card := Finset.card_erase_add_one (inSlot_iff.mp inside).2
      simp only [eraseThread, inside, if_true]
      omega
    · simp only [eraseThread, inside, Bool.false_eq_true, if_false]
      omega

theorem hits_erase_le (thread other : HWThread) (slots : List Slot) :
    hits other (slots.map (eraseThread thread)) ≤ hits other slots := by
  induction slots with
  | nil => exact le_refl 0
  | cons slot rest induction =>
    rw [map_cons, hits_cons, hits_cons]
    have kept : other.inSlot (eraseThread thread slot) = true → other.inSlot slot = true := by
      intro inside
      unfold eraseThread at inside
      split at inside
      · have parts := inSlot_iff.mp inside
        exact inSlot_iff.mpr ⟨parts.1, Finset.mem_of_mem_erase parts.2⟩
      · exact inside
    by_cases inside : other.inSlot (eraseThread thread slot) = true
    · rw [if_pos inside, if_pos (kept inside)]
      omega
    · rw [if_neg inside]
      omega

/-- One HW-thread gives up as many uses as slots contain it, if it has them. -/
theorem releaseSlots_eq (thread : HWThread) : ∀ (slots : List Slot) (r : Release), 0 ≤ r.timesUsed →
      releaseSlots thread.node thread.id slots r =
        (slots.map (eraseThread thread),
          { totalRelease :=
              r.totalRelease - (hits thread slots - r.timesUsed.toNat)
            numToRelease := r.numToRelease - hits thread slots
            timesUsed := max 0 (r.timesUsed - hits thread slots) }) := by
  intro slots
  induction slots with
  | nil =>
    intro r used
    simp only [releaseSlots, map_nil, hits_nil]
    rcases r with ⟨totalRelease, numToRelease, timesUsed⟩
    simp only at used
    simp [max_eq_right used]
  | cons slot rest induction =>
    intro r used
    rw [hits_cons, map_cons]
    by_cases inside : slot.node = thread.node ∧ thread.id ∈ slot.cpuSet
    · have inSlot : thread.inSlot slot = true := inSlot_iff.mpr inside
      unfold releaseSlots
      rw [if_pos inside]
      simp only [inSlot, if_true, eraseThread]
      by_cases empty : r.timesUsed - 1 < 0
      · rw [if_pos empty, induction _ (le_refl 0)]
        simp only [Prod.mk.injEq, Release.mk.injEq, true_and]
        exact ⟨by omega, by omega, by omega⟩
      · rw [if_neg empty, induction _ (by simp only; omega)]
        simp only [Prod.mk.injEq, Release.mk.injEq, true_and]
        exact ⟨by omega, by omega, by omega⟩
    · have inSlot : ¬ thread.inSlot slot = true :=
        fun contained => inside (inSlot_iff.mp contained)
      unfold releaseSlots
      rw [if_neg inside, induction r used]
      simp only [inSlot, Bool.false_eq_true, if_false, eraseThread, Nat.add_zero]

structure Lowered (threads : List Nat) (slots : List Slot)
    (before after : Nat → HWThread) : Prop where
  node : ∀ t, (after t).node = (before t).node
  id : ∀ t, (after t).id = (before t).id
  other : ∀ t, t ∉ threads → after t = before t
  low : ∀ t ∈ threads, 0 ≤ (after t).timesUsed
  high : ∀ t ∈ threads, (after t).timesUsed ≤ (before t).timesUsed
  untouched : ∀ t, hits (before t) slots = 0 → after t = before t

theorem Lowered.refl {threads : List Nat} {slots : List Slot}
    {partThrds : Nat → HWThread} (low : ∀ t ∈ threads, 0 ≤ (partThrds t).timesUsed) :
    Lowered threads slots partThrds partThrds :=
  ⟨fun _ => rfl, fun _ => rfl, fun _ _ => rfl, low, fun _ _ => le_refl _,
    fun _ _ => rfl⟩

theorem releaseLoop_lowered :
    ∀ (threads : List Nat) (partThrds : Nat → HWThread) (slots : List Slot)
      (totalRelease numToRelease : Nat), threads.Nodup →
      (∀ t ∈ threads, 0 ≤ (partThrds t).timesUsed) →
      numToRelease = size slots → numToRelease ≤ totalRelease →
        let result := releaseLoop threads partThrds slots totalRelease numToRelease
        Lowered threads slots partThrds result.1 ∧
          result.2.2.2 ≤ result.2.2.1 ∧
          ((result.2.2.1 - result.2.2.2 : Nat) : Int) = (totalRelease - numToRelease : Nat) +
              ((threads.map (fun t => (partThrds t).timesUsed)).sum -
                (threads.map (fun t => (result.1 t).timesUsed)).sum) := by
  intro threads
  induction threads with
  | nil =>
    intro partThrds slots totalRelease numToRelease _ _ _ bound
    exact ⟨Lowered.refl (fun _ member => nomatch member), bound, by simp [releaseLoop]⟩
  | cons t rest induction =>
    intro partThrds slots totalRelease numToRelease distinct low count bound
    unfold releaseLoop
    by_cases done : numToRelease = 0
    · rw [if_pos done]
      exact ⟨Lowered.refl low, bound, by simp⟩
    · rw [if_neg done]
      simp only
      have used := low t mem_cons_self
      rw [releaseSlots_eq (partThrds t) slots
        ⟨totalRelease, numToRelease, (partThrds t).timesUsed⟩ used]
      simp only
      generalize hitCount : hits (partThrds t) slots = k
      have sizes := size_erase (partThrds t) slots
      rw [hitCount] at sizes
      rw [nodup_cons] at distinct
      -- the HW-thread is not met again in the rest of the loop
      have others : ∀ i ∈ rest, i ≠ t :=
        fun i member equality => distinct.1 (equality ▸ member)
      have step := induction
        (update partThrds t
          { partThrds t with
            timesUsed := max 0 ((partThrds t).timesUsed - k) })
        (slots.map (eraseThread (partThrds t)))
        (totalRelease - (k - (partThrds t).timesUsed.toNat)) (numToRelease - k)
        distinct.2
        (by
          intro i member
          rw [update_of_ne (others i member)]
          exact low i (mem_cons_of_mem _ member))
        (by omega) (by omega)
      simp only at step
      rcases step with ⟨lowered, bound', sum⟩
      generalize releaseLoop rest
        (update partThrds t
          { partThrds t with
            timesUsed := max 0 ((partThrds t).timesUsed - k) })
        (slots.map (eraseThread (partThrds t)))
        (totalRelease - (k - (partThrds t).timesUsed.toNat))
        (numToRelease - k) = result at lowered bound' sum ⊢
      have here : result.1 t = { partThrds t with
          timesUsed := max 0 ((partThrds t).timesUsed - k) } := by
        rw [lowered.other t distinct.1, update_self]
      have same : ∀ i, i ≠ t → update partThrds t
          { partThrds t with
            timesUsed := max 0 ((partThrds t).timesUsed - k) } i = partThrds i :=
        fun i other => update_of_ne other _ _
      refine ⟨⟨?_, ?_, ?_, ?_, ?_, ?_⟩, bound', ?_⟩
      · intro i
        rw [lowered.node]
        by_cases equality : i = t
        · rw [equality, update_self]
        · rw [same i equality]
      · intro i
        rw [lowered.id]
        by_cases equality : i = t
        · rw [equality, update_self]
        · rw [same i equality]
      · intro i absent
        rw [mem_cons, not_or] at absent
        rw [lowered.other i absent.2, same i absent.1]
      · intro i member
        rcases mem_cons.mp member with equality | later
        · rw [equality, here]
          exact le_max_left _ _
        · exact lowered.low i later
      · intro i member
        rcases mem_cons.mp member with equality | later
        · rw [equality, here]
          exact max_le used (by omega)
        · have high := lowered.high i later
          rw [same i (others i later)] at high
          exact high
      · intro i absent
        by_cases equality : i = t
        · rw [equality] at absent ⊢
          rw [hitCount] at absent
          rw [here, absent]
          simp [max_eq_right used]
        · have unaffected := lowered.untouched i (by
            rw [same i equality]
            exact Nat.le_zero.mp (absent ▸ hits_erase_le _ _ _))
          rw [unaffected, same i equality]
      · have before : (rest.map (fun i => (update partThrds t
            { partThrds t with
              timesUsed := max 0 ((partThrds t).timesUsed - k) } i).timesUsed)) =
              rest.map (fun i => (partThrds i).timesUsed) :=
          map_congr_left (fun i member => by rw [same i (others i member)])
        rw [sum, before, map_cons, map_cons, sum_cons, sum_cons, here]
        simp only
        omega

theorem sum_range_list (f : Nat → Int) (n : Nat) :
    ((List.range n).map f).sum = ∑ t ∈ Finset.range n, f t := by
  induction n with
  | zero => rfl
  | succ n induction =>
    rw [range_succ, map_append, sum_append, Finset.sum_range_succ, induction]
    simp

def Distinct (pool : ThreadPool) : Prop :=
  ∀ t < pool.totalThreads, ∀ t' < pool.totalThreads,
    (pool.partThrds t).node = (pool.partThrds t').node →
      (pool.partThrds t).id = (pool.partThrds t').id → t = t'

/-- The HW-threads are listed once, their uses are in range and counted. -/
structure Sound (pool : ThreadPool) : Prop where
  distinct : ∀ t < pool.totalThreads, ∀ t' < pool.totalThreads,
    (pool.partThrds t).node = (pool.partThrds t').node →
      (pool.partThrds t).id = (pool.partThrds t').id → t = t'
  low : ∀ t < pool.totalThreads, 0 ≤ (pool.partThrds t).timesUsed
  high : ∀ t < pool.totalThreads, (pool.partThrds t).timesUsed < 2 ^ 15
  used : pool.usedThreads = ∑ t ∈ Finset.range pool.totalThreads, (pool.partThrds t).timesUsed

/-- What changing the counters leaves alone. -/
structure SameThreads (before after : ThreadPool) : Prop where
  totalThreads : after.totalThreads = before.totalThreads
  node : ∀ t, (after.partThrds t).node = (before.partThrds t).node
  id : ∀ t, (after.partThrds t).id = (before.partThrds t).id

theorem SameThreads.refl (pool : ThreadPool) : SameThreads pool pool :=
  ⟨rfl, fun _ => rfl, fun _ => rfl⟩

theorem SameThreads.trans {first second third : ThreadPool}
    (left : SameThreads first second) (right : SameThreads second third) :
    SameThreads first third :=
  ⟨right.totalThreads.trans left.totalThreads,
    fun t => (right.node t).trans (left.node t),
    fun t => (right.id t).trans (left.id t)⟩

theorem SameThreads.distinct {before after : ThreadPool}
    (same : SameThreads before after)
    (distinct : ∀ t < before.totalThreads, ∀ t' < before.totalThreads,
      (before.partThrds t).node = (before.partThrds t').node →
        (before.partThrds t).id = (before.partThrds t').id → t = t') :
    ∀ t < after.totalThreads, ∀ t' < after.totalThreads,
      (after.partThrds t).node = (after.partThrds t').node →
        (after.partThrds t).id = (after.partThrds t').id → t = t' := by
  intro t inside t' inside' node id
  rw [same.totalThreads] at inside inside'
  rw [same.node, same.node] at node
  rw [same.id, same.id] at id
  exact distinct t inside t' inside' node id

/-- The task's HW-threads after slots were released. -/
def released (slots : List Slot) (pool : ThreadPool) : ThreadPool :=
  let (count, _, pool) := releaseThreads slots pool
  { pool with usedThreads := pool.usedThreads - count }

structure Released (slots : List Slot) (before after : ThreadPool) : Prop where
  same : SameThreads before after
  sound : Sound after
  high : ∀ t < before.totalThreads, (after.partThrds t).timesUsed ≤ (before.partThrds t).timesUsed
  untouched : ∀ t, hits (before.partThrds t) slots = 0 → after.partThrds t = before.partThrds t

theorem releaseThreads_count {pool : ThreadPool} (sound : Sound pool)
    (slots : List Slot) :
    Lowered (List.range pool.totalThreads) slots pool.partThrds
        (releaseThreads slots pool).2.2.partThrds ∧
      ((releaseThreads slots pool).1 : Int) = pool.usedThreads -
        ∑ t ∈ Finset.range pool.totalThreads,
          ((releaseThreads slots pool).2.2.partThrds t).timesUsed := by
  have loop := releaseLoop_lowered (List.range pool.totalThreads) pool.partThrds slots (size slots)
    (size slots) nodup_range (fun t member => sound.low t (mem_range.mp member)) rfl (le_refl _)
  simp only at loop
  rcases loop with ⟨lowered, bound, sum⟩
  rw [sum_range_list, sum_range_list, ← sound.used] at sum
  refine ⟨lowered, ?_⟩
  simp only [releaseThreads]
  unfold size at sum
  rw [sum]
  omega

theorem released_spec {pool : ThreadPool} (sound : Sound pool)
    (slots : List Slot) : Released slots pool (released slots pool) := by
  rcases releaseThreads_count sound slots with ⟨lowered, count⟩
  have same : SameThreads pool (released slots pool) := ⟨rfl, lowered.node, lowered.id⟩
  have inside : ∀ t, t < pool.totalThreads → t ∈ List.range pool.totalThreads :=
    fun t bound => mem_range.mpr bound
  refine ⟨same, ⟨same.distinct sound.distinct, ?_, ?_, ?_⟩, ?_, lowered.untouched⟩
  · exact fun t bound => lowered.low t (inside t bound)
  · intro t bound
    exact lt_of_le_of_lt (lowered.high t (inside t bound)) (sound.high t bound)
  · change pool.usedThreads - ((releaseThreads slots pool).1 : Int) = _
    rw [count]
    simp only [sub_sub_cancel]
    rfl
  · exact fun t bound => lowered.high t (inside t bound)

/-! ## Collecting -/

theorem int16_of_bound {value : Int} (low : -2 ^ 15 ≤ value)
    (high : value < 2 ^ 15) : int16 value = value := by
  unfold int16
  omega

section Collect

variable {hwStatus : Nat → Nat} {spec : SlotSpec} {pool : ThreadPool}

/-- The HW-threads `putBack` visits before `t`. -/
def backIndex (pool : ThreadPool) (t tt : Nat) : Nat :=
  (t + pool.totalThreads - tt) % pool.totalThreads

theorem backIndex_eq {tt : Nat} (bound : t < pool.totalThreads) (some : 1 ≤ tt)
    (last : tt < pool.totalThreads) :
    backIndex pool t tt =
      if tt ≤ t then t - tt else t + pool.totalThreads - tt := by
  unfold backIndex
  split
  case isTrue below =>
    have shifted : t + pool.totalThreads - tt = (t - tt) + pool.totalThreads := by
      omega
    rw [shifted, Nat.add_mod_right, Nat.mod_eq_of_lt (by omega)]
  case isFalse above => rw [Nat.mod_eq_of_lt (by omega)]

theorem backIndex_nodup (bound : t < pool.totalThreads) :
    ((List.range' 1 (pool.totalThreads - 1)).map (backIndex pool t)).Nodup := by
  refine List.Nodup.map_on ?_ nodup_range'
  intro left leftIn right rightIn equality
  rw [mem_range'_1] at leftIn rightIn
  rw [backIndex_eq bound leftIn.1 (by omega), backIndex_eq bound rightIn.1 (by omega)] at equality
  split at equality
  · split at equality
    · omega
    · omega
  · split at equality
    · omega
    · omega

theorem backIndex_lt {tt : Nat} (bound : t < pool.totalThreads) :
    backIndex pool t tt < pool.totalThreads :=
  Nat.mod_lt _ (by omega)

theorem putBack_cons (t : Nat) (slot : Slot) (tt : Nat) (rest : List Nat)
    (numToRel : Nat) (myUse : Nat → Int) :
    putBack pool t slot (tt :: rest) numToRel myUse =
      if numToRel = 0 then (0, myUse)
      else if (pool.partThrds (backIndex pool t tt)).inSlot slot = true then
        putBack pool t slot rest (numToRel - 1)
          (update myUse (backIndex pool t tt) (int16 (myUse (backIndex pool t tt) - 1)))
      else putBack pool t slot rest numToRel myUse := by
  simp only [inSlot_iff]
  rfl

theorem putBack_spec (pool : ThreadPool) (t : Nat) (slot : Slot) :
    ∀ (rest : List Nat) (numToRel : Nat) (myUse : Nat → Int),
      (rest.map (backIndex pool t)).Nodup →
      (∀ i ∈ rest.map (backIndex pool t),
        (pool.partThrds i).inSlot slot = true → 1 ≤ myUse i ∧ myUse i < 2 ^ 15) →
      ∀ i, (i ∉ rest.map (backIndex pool t) →
          (putBack pool t slot rest numToRel myUse).2 i = myUse i) ∧
        ((putBack pool t slot rest numToRel myUse).2 i = myUse i ∨
          (pool.partThrds i).inSlot slot = true ∧
            (putBack pool t slot rest numToRel myUse).2 i = myUse i - 1) := by
  intro rest
  induction rest with
  | nil =>
    intro numToRel myUse _ _ i
    exact ⟨fun _ => rfl, .inl rfl⟩
  | cons tt rest induction =>
    intro numToRel myUse distinct inRange i
    rw [map_cons, nodup_cons] at distinct
    have later : ∀ j ∈ rest.map (backIndex pool t), j ∈ (tt :: rest).map (backIndex pool t) :=
      fun j member => mem_cons_of_mem _ member
    rw [putBack_cons]
    by_cases done : numToRel = 0
    · rw [if_pos done]
      exact ⟨fun _ => rfl, .inl rfl⟩
    · rw [if_neg done]
      by_cases inside : (pool.partThrds (backIndex pool t tt)).inSlot slot = true
      · have bounds := inRange (backIndex pool t tt) mem_cons_self inside
        have wrapped : int16 (myUse (backIndex pool t tt) - 1) = myUse (backIndex pool t tt) - 1 :=
          int16_of_bound (by omega) (by omega)
        have step := induction (numToRel - 1)
          (update myUse (backIndex pool t tt) (myUse (backIndex pool t tt) - 1)) distinct.2
          (by
            intro j member inSlot
            have other : j ≠ backIndex pool t tt :=
              fun equality => distinct.1 (equality ▸ member)
            rw [update_of_ne other]
            exact inRange j (later j member) inSlot) i
        rw [if_pos inside, wrapped]
        by_cases here : i = backIndex pool t tt
        · rw [here] at step ⊢
          have unchanged := step.1 distinct.1
          rw [update_self] at unchanged
          exact ⟨fun absent => absurd mem_cons_self absent, .inr ⟨inside, unchanged⟩⟩
        · rw [update_of_ne here] at step
          exact ⟨fun absent => step.1 (fun member => absent (later i member)), step.2⟩
      · have step := induction numToRel myUse distinct.2
          (fun j member => inRange j (later j member)) i
        rw [if_neg inside]
        exact ⟨fun absent => step.1 (fun member => absent (later i member)), step.2⟩

/-- The counters while slots are collected. -/
structure Collecting (pool : ThreadPool) (c : Collect) : Prop where
  low : ∀ i < pool.totalThreads, 0 ≤ c.myUse i
  high : ∀ i < pool.totalThreads, c.myUse i < 2 ^ 15
  taken : c.thrdsGot ≠ 0 → ∀ i < pool.totalThreads,
    (pool.partThrds i).inSlot c.current = true → 1 ≤ c.myUse i
  length : c.slots.length = c.got

/-- The current slot is ready for the HW-thread `c.t`. -/
structure Prepared (pool : ThreadPool) (before after : Collect) : Prop where
  low : ∀ i < pool.totalThreads, 0 ≤ after.myUse i
  high : ∀ i < pool.totalThreads, after.myUse i < 2 ^ 15
  taken : ∀ i < pool.totalThreads,
    (pool.partThrds i).inSlot after.current = true → 1 ≤ after.myUse i
  node : after.current.node = (pool.partThrds before.t).node
  t : after.t = before.t
  here : after.myUse before.t = before.myUse before.t
  slots : after.slots = before.slots
  got : after.got = before.got
  minUsed : after.minUsed = before.minUsed
  nextMinUsed : after.nextMinUsed = before.nextMinUsed
  kept : before.thrdsGot ≠ 0 ∧ after.current = before.current ∧ after.myUse = before.myUse ∨
    after.current = ⟨(pool.partThrds before.t).node, ∅⟩ ∧
      ∀ i < pool.totalThreads, after.myUse i = before.myUse i ∨ before.thrdsGot ≠ 0 ∧
          (pool.partThrds i).inSlot before.current = true ∧ after.myUse i = before.myUse i - 1

theorem not_inSlot_empty (thread : HWThread) (node : Nat) : thread.inSlot ⟨node, ∅⟩ = false := by
  simp [HWThread.inSlot]

theorem prepareSlot_prepared (inv : Collecting pool c)
    (bound : c.t < pool.totalThreads) (result : prepareSlot pool c = some c') :
    Prepared pool c c' := by
  unfold prepareSlot at result
  by_cases first : c.thrdsGot = 0
  · simp only [first, if_true, ne_eq, not_true_eq_false, if_false, Option.some.injEq] at result
    subst result
    refine ⟨inv.low, inv.high, ?_, rfl, rfl, rfl, rfl, rfl, rfl, rfl,
      .inr ⟨rfl, fun _ _ => .inl rfl⟩⟩
    intro i _ inside
    rw [not_inSlot_empty] at inside
    cases inside
  · simp only [first, if_false] at result
    by_cases same : (pool.partThrds c.t).node = c.current.node
    · rw [if_neg (fun other => other same)] at result
      cases result
      exact ⟨inv.low, inv.high, inv.taken first, same.symm, rfl, rfl, rfl, rfl, rfl,
        rfl, .inl ⟨first, rfl, rfl⟩⟩
    · rw [if_pos same] at result
      have back := putBack_spec pool c.t c.current
        (List.range' 1 (pool.totalThreads - 1)) c.current.cpuSet.card c.myUse
        (backIndex_nodup bound) (by
          intro i member inside
          rcases mem_map.mp member with ⟨tt, _, equality⟩
          have inPool : i < pool.totalThreads := equality ▸ backIndex_lt bound
          exact ⟨inv.taken first i inPool inside, inv.high i inPool⟩)
      generalize putBack pool c.t c.current
        (List.range' 1 (pool.totalThreads - 1)) c.current.cpuSet.card c.myUse =
          returned at back result
      rcases returned with ⟨numToRel, myUse⟩
      simp only at back result
      split at result
      · cases result
      · cases result
        have changed : ∀ i < pool.totalThreads, myUse i = c.myUse i ∨
            c.thrdsGot ≠ 0 ∧ (pool.partThrds i).inSlot c.current = true ∧
              myUse i = c.myUse i - 1 := by
          intro i _
          rcases (back i).2 with unchanged | ⟨inside, less⟩
          · exact .inl unchanged
          · exact .inr ⟨first, inside, less⟩
        refine ⟨?_, ?_, ?_, rfl, rfl, ?_, rfl, rfl, rfl, rfl, .inr ⟨rfl, changed⟩⟩
        · intro i inPool
          rcases changed i inPool with unchanged | ⟨some, inside, less⟩
          · have low := inv.low i inPool
            simp only
            omega
          · have one := inv.taken some i inPool inside
            simp only
            omega
        · intro i inPool
          have high := inv.high i inPool
          rcases changed i inPool with unchanged | ⟨_, _, less⟩
          · simp only
            omega
          · simp only
            omega
        · intro i _ inside
          rw [not_inSlot_empty] at inside
          cases inside
        · -- the HW-thread at hand is on another node
          rcases (back c.t).2 with unchanged | ⟨inside, _⟩
          · exact unchanged
          · exact absurd (inSlot_iff.mp inside).1.symm same

/-- What the start of a round leaves alone. -/
structure SameRound (before after : Collect) : Prop where
  t : after.t = before.t
  got : after.got = before.got
  thrdsGot : after.thrdsGot = before.thrdsGot
  myUse : after.myUse = before.myUse
  slots : after.slots = before.slots
  current : after.current = before.current

theorem startRound_same (result : startRound spec c = some c') : SameRound c c' := by
  unfold startRound at result
  simp only at result
  split at result
  · cases result
    exact ⟨rfl, rfl, rfl, rfl, rfl, rfl⟩
  · split at result
    · cases result
    · split at result
      · cases result
      · cases result
        exact ⟨rfl, rfl, rfl, rfl, rfl, rfl⟩

theorem SameRound.collecting (same : SameRound c c') (inv : Collecting pool c) :
    Collecting pool c' where
  low := by rw [same.myUse]; exact inv.low
  high := by rw [same.myUse]; exact inv.high
  taken := by rw [same.thrdsGot, same.myUse, same.current]; exact inv.taken
  length := by rw [same.slots, same.got]; exact inv.length

/-- The HW-thread is taken, as the first of its slot or in addition. -/
structure Took (spec : SlotSpec) (pool : ThreadPool) (p c : Collect) : Prop where
  t : c.t = p.t
  minUsed : c.minUsed = p.minUsed
  nextMinUsed : c.nextMinUsed = p.nextMinUsed
  myUse : c.myUse = update p.myUse p.t (int16 (p.myUse p.t + 1))
  slots : (c.thrdsGot = 0 ∧ c.got = p.got + 1 ∧
      c.slots = p.slots ++ [⟨p.current.node, insert (pool.partThrds p.t).id p.current.cpuSet⟩]) ∨
    (c.got = p.got ∧ c.slots = p.slots ∧
      c.current = ⟨p.current.node, insert (pool.partThrds p.t).id p.current.cpuSet⟩)

theorem takeThread_took (p : Collect) : Took spec pool p (takeThread spec pool p) := by
  simp only [takeThread]
  split
  · exact ⟨rfl, rfl, rfl, rfl, .inl ⟨rfl, rfl, rfl⟩⟩
  · exact ⟨rfl, rfl, rfl, rfl, .inr ⟨rfl, rfl, rfl⟩⟩

theorem inSlot_insert {other : HWThread} {slot : Slot}
    (inside : other.inSlot ⟨slot.node, insert thread.id slot.cpuSet⟩ = true) :
    other.inSlot slot = true ∨ other.node = slot.node ∧ other.id = thread.id := by
  rcases inSlot_iff.mp inside with ⟨node, member⟩
  rcases Finset.mem_insert.mp member with id | earlier
  · exact .inr ⟨node.symm, id⟩
  · exact .inl (inSlot_iff.mpr ⟨node, earlier⟩)

theorem Prepared.collecting (prepared : Prepared pool c p) (distinct : Distinct pool)
    (length : c.slots.length = c.got) (bound : c.t < pool.totalThreads)
    (room : c.myUse c.t < 2 ^ 15 - 1) (took : Took spec pool p c') :
    Collecting pool c' := by
  have low := prepared.low c.t bound
  have room' : p.myUse p.t < 2 ^ 15 - 1 := by
    rw [prepared.t, prepared.here]
    exact room
  have one : int16 (p.myUse p.t + 1) = p.myUse p.t + 1 := by
    rw [prepared.t] at room' ⊢
    exact int16_of_bound (by omega) (by omega)
  have use : ∀ i, c'.myUse i =
      if i = c.t then p.myUse c.t + 1 else p.myUse i := by
    intro i
    rw [took.myUse, one, prepared.t, update_apply]
  rw [prepared.t] at room'
  refine ⟨?_, ?_, ?_, ?_⟩
  · intro i inPool
    have earlier := prepared.low i inPool
    rw [use]
    split <;> omega
  · intro i inPool
    have earlier := prepared.high i inPool
    rw [use]
    split <;> omega
  · intro some i inPool inside
    rw [use]
    split
    · omega
    case isFalse other =>
      rcases took.slots with ⟨none, _⟩ | ⟨_, _, current⟩
      · exact absurd none some
      · rw [current] at inside
        rcases inSlot_insert inside with earlier | ⟨node, id⟩
        · exact prepared.taken i inPool earlier
        · rw [prepared.t] at id
          exact absurd (distinct i inPool c.t bound (node.trans prepared.node) id) other
  · rcases took.slots with ⟨_, got, slots⟩ | ⟨got, slots, _⟩
    · rw [slots, got, length_append, prepared.slots, prepared.got, length]
      rfl
    · rw [slots, got, prepared.slots, prepared.got, length]

/-- What the body of the loop does with the HW-thread `c.t`. -/
inductive Body (hwStatus : Nat → Nat) (spec : SlotSpec) (pool : ThreadPool)
    (r c' : Collect) : Prop where
  | skipped (same : SameRound r c') (minUsed : c'.minUsed = r.minUsed)
  | took (p : Collect) (free : r.myUse r.t ≤ r.minUsed)
      (prepared : prepareSlot pool r = some p) (took : Took spec pool p c')

theorem collectBody_cases (result : collectBody hwStatus spec pool c = some c') :
    ∃ r, startRound spec c = some r ∧ Body hwStatus spec pool r c' := by
  rcases bind_eq_some_iff.mp result with ⟨r, started, tried⟩
  refine ⟨r, started, ?_⟩
  unfold tryThread at tried
  simp only at tried
  split at tried
  · cases tried
    exact .skipped ⟨rfl, rfl, rfl, rfl, rfl, rfl⟩ rfl
  case isFalse free =>
    split at tried
    · cases tried
      exact .skipped ⟨rfl, rfl, rfl, rfl, rfl, rfl⟩ rfl
    · split at tried
      · cases tried
        exact .skipped ⟨rfl, rfl, rfl, rfl, rfl, rfl⟩ rfl
      · split at tried
        · cases tried
          exact .skipped ⟨rfl, rfl, rfl, rfl, rfl, rfl⟩ rfl
        · rcases map_eq_some_iff.mp tried with ⟨p, prepared, rfl⟩
          exact .took p (not_lt.mp free) prepared (takeThread_took p)

/-- No HW-thread is taken that is used `INT16_MAX` times already. -/
def TakesInRange (hwStatus : Nat → Nat) (spec : SlotSpec) (pool : ThreadPool)
    (mod : Nat) : Nat → Collect → Prop
  | 0, _ => True
  | fuel + 1, c =>
    c.t < pool.totalThreads → c.got < spec.np →
      (∀ r, startRound spec c = some r → r.myUse r.t ≤ r.minUsed → r.myUse r.t < 2 ^ 15 - 1) ∧
      ∀ c', collectBody hwStatus spec pool c = some c' →
        TakesInRange hwStatus spec pool mod fuel { c' with t := (c'.t + 1) % mod }

theorem collectBody_collecting (inv : Collecting pool c)
    (distinct : Distinct pool) (bound : c.t < pool.totalThreads)
    (room : ∀ r, startRound spec c = some r → r.myUse r.t ≤ r.minUsed → r.myUse r.t < 2 ^ 15 - 1)
    (result : collectBody hwStatus spec pool c = some c') :
    Collecting pool c' := by
  rcases collectBody_cases result with ⟨r, started, body⟩
  have same := startRound_same started
  have before := same.collecting inv
  cases body with
  | skipped same' _ => exact same'.collecting before
  | took p free prepared took =>
    have bound' : r.t < pool.totalThreads := same.t ▸ bound
    exact (prepareSlot_prepared before bound' prepared).collecting distinct
      before.length bound' (room r started free) took

theorem collect_collecting (distinct : Distinct pool) :
    ∀ {fuel : Nat} {c c' : Collect}, Collecting pool c → TakesInRange hwStatus spec pool mod fuel c
      → collect hwStatus spec pool mod fuel c = some c' → Collecting pool c' := by
  intro fuel
  induction fuel with
  | zero => exact fun _ _ result => nomatch result
  | succ fuel induction =>
    intro c c' inv inRange result
    unfold collect at result
    split at result
    case isTrue going =>
      have room := inRange going.1 going.2
      split at result
      · cases result
        exact inv
      case h_2 next body =>
        have step := collectBody_collecting inv distinct going.1 room.1 body
        exact induction (c := { next with t := (next.t + 1) % mod })
          ⟨step.low, step.high, step.taken, step.length⟩ (room.2 next body) result
    case isFalse =>
      cases result
      exact inv

/-! ## Creating -/

/-- The condition on the collection of slots as a whole. -/
def CreateInRange (hwStatus : Nat → Nat) (spec : SlotSpec) (pool : ThreadPool)
    (fuel : Nat) : Prop :=
  ∀ start, collectStart hwStatus spec pool = some start → TakesInRange hwStatus spec pool
      (pool.totalThreads +
        if spec.options.overbook || spec.options.nodeFirst then 0 else 1)
      fuel start

theorem collectStart_spec {start : Collect}
    (result : collectStart hwStatus spec pool = some start) :
    start.myUse = (fun t => (pool.partThrds t).timesUsed) ∧
      start.slots = [] ∧ start.got = 0 ∧ start.thrdsGot = 0 ∧
      (spec.options.overbook = false → start.minUsed = 0 ∧
        (spec.options.nodeFirst = false → start.t = 0 → start.nextMinUsed = 0)) := by
  unfold collectStart at result
  simp only at result
  split at result
  · cases result
  case isFalse free =>
    split at result
    · cases result
    · cases result
      refine ⟨rfl, rfl, rfl, rfl, ?_⟩
      intro overbook
      have least : (scanThreads hwStatus spec pool).nextMinUsed = 0 := by
        by_contra used
        exact free ⟨used, by rw [overbook]; rfl⟩
      refine ⟨least, ?_⟩
      intro nodeFirst first
      simp only at first ⊢
      rw [if_neg (fun other => other.2 first)]
      exact least

theorem Sound.start (sound : Sound pool) {start : Collect}
    (result : collectStart hwStatus spec pool = some start) :
    Collecting pool start := by
  rcases collectStart_spec result with ⟨myUse, slots, got, thrdsGot, _⟩
  refine ⟨?_, ?_, fun some => absurd thrdsGot some, by rw [slots, got]; rfl⟩
  · rw [myUse]
    exact sound.low
  · rw [myUse]
    exact sound.high

theorem Sound.commit (sound : Sound pool) (inv : Collecting pool c) :
    Sound (commitUse pool c.myUse) where
  distinct := sound.distinct
  low := inv.low
  high := inv.high
  used := by
    change pool.usedThreads + ∑ t ∈ Finset.range pool.totalThreads,
        (c.myUse t - (pool.partThrds t).timesUsed) =
      ∑ t ∈ Finset.range pool.totalThreads, c.myUse t
    rw [Finset.sum_sub_distrib, ← sound.used]
    omega

/-- What a call of `createSlots()` comes down to. -/
inductive Creation (hwStatus : Nat → Nat) (spec : SlotSpec) (pool : ThreadPool)
    (fuel : Nat) (dryRun : Bool) (result : List Slot × ThreadPool) : Prop where
  | nothing (none : collectStart hwStatus spec pool = none) (equality : result = ([], pool))
  | collected (start c : Collect)
      (started : collectStart hwStatus spec pool = some start)
      (run : collect hwStatus spec pool
        (pool.totalThreads +
          if spec.options.overbook || spec.options.nodeFirst then 0 else 1)
        fuel start = some c)
      (equality : result = (c.slots,
        if !dryRun ∧ c.got = spec.np then commitUse pool c.myUse else pool))

theorem createSlots_cases {dryRun : Bool}
    (created : createSlots hwStatus spec pool fuel dryRun = some result) :
    Creation hwStatus spec pool fuel dryRun result := by
  unfold createSlots at created
  split at created
  case h_1 none =>
    cases created
    exact .nothing none rfl
  case h_2 start started =>
    rcases map_eq_some_iff.mp created with ⟨c, run, rfl⟩
    exact .collected start c started run rfl

theorem createSlots_sound {dryRun : Bool} (sound : Sound pool)
    (inRange : CreateInRange hwStatus spec pool fuel)
    (created : createSlots hwStatus spec pool fuel dryRun = some result) :
    Sound result.2 ∧ SameThreads pool result.2 := by
  cases createSlots_cases created with
  | nothing _ equality =>
    rw [equality]
    exact ⟨sound, SameThreads.refl pool⟩
  | collected start c started run equality =>
    have inv := collect_collecting sound.distinct (sound.start started) (inRange start started) run
    rw [equality]
    simp only
    split
    · exact ⟨sound.commit inv, ⟨rfl, fun _ => rfl, fun _ => rfl⟩⟩
    · exact ⟨sound, SameThreads.refl pool⟩

/-! ## Creating again -/

theorem prepareSlot_slots (result : prepareSlot pool c = some p) :
    p.slots = c.slots ∧ p.got = c.got := by
  unfold prepareSlot at result
  by_cases first : c.thrdsGot = 0
  · simp only [first, if_true, ne_eq, not_true_eq_false, if_false, Option.some.injEq] at result
    subst result
    exact ⟨rfl, rfl⟩
  · simp only [first, if_false] at result
    split at result
    · split at result
      · cases result
      · cases result
        exact ⟨rfl, rfl⟩
    · cases result
      exact ⟨rfl, rfl⟩

theorem collectBody_length (result : collectBody hwStatus spec pool c = some c') :
    c.got ≤ c'.got ∧ (c.slots.length = c.got → c'.slots.length = c'.got) := by
  rcases collectBody_cases result with ⟨r, started, body⟩
  have same := startRound_same started
  cases body with
  | skipped same' _ =>
    rw [same'.slots, same'.got, same.slots, same.got]
    exact ⟨le_refl _, id⟩
  | took p _ prepared took =>
    have kept := prepareSlot_slots prepared
    rcases took.slots with ⟨_, got, slots⟩ | ⟨got, slots, _⟩
    · rw [slots, got, kept.1, kept.2, same.slots, same.got, length_append]
      exact ⟨Nat.le_succ _, fun length => by rw [length]; rfl⟩
    · rw [slots, got, kept.1, kept.2, same.slots, same.got]
      exact ⟨le_refl _, id⟩

theorem collect_length : ∀ {fuel : Nat} {c c' : Collect},
      collect hwStatus spec pool mod fuel c = some c' →
        c.got ≤ c'.got ∧ (c.slots.length = c.got → c'.slots.length = c'.got) := by
  intro fuel
  induction fuel with
  | zero => exact fun result => nomatch result
  | succ fuel induction =>
    intro c c' result
    unfold collect at result
    split at result
    · split at result
      · cases result
        exact ⟨le_refl _, id⟩
      case h_2 next body =>
        have step := collectBody_length body
        have rest := induction result
        exact ⟨le_trans step.1 rest.1, fun length => rest.2 (step.2 length)⟩
    · cases result
      exact ⟨le_refl _, id⟩

theorem collect_going {next : Collect} (going : c.t < pool.totalThreads ∧ c.got < spec.np)
    (body : collectBody hwStatus spec pool c = some next) :
    collect hwStatus spec pool mod (fuel + 1) c =
      collect hwStatus spec pool mod fuel { next with t := (next.t + 1) % mod } := by
  rw [collect, if_pos going, body]

/-- Asked for the number of slots found before, the loop finds as many. -/
theorem collect_again {np : Nat} : ∀ {fuel : Nat} {c c' : Collect},
      collect hwStatus spec pool mod fuel c = some c' → c'.got = np →
        ∃ c'', collect hwStatus { spec with np := np } pool mod fuel c =
          some c'' ∧ c''.got = np := by
  intro fuel
  induction fuel with
  | zero => exact fun result => nomatch result
  | succ fuel induction =>
    intro c c' result found
    have mono := (collect_length result).1
    by_cases done : c.got = np
    · refine ⟨c, ?_, done⟩
      unfold collect
      rw [if_neg (fun going => absurd going.2 (by simp only; omega))]
    · have less : c.got < np := by omega
      unfold collect at result
      split at result
      case isTrue going =>
        split at result
        case h_1 body =>
          cases result
          exact absurd found done
        case h_2 next body =>
          have body' : collectBody hwStatus { spec with np := np } pool c = some next := body
          rw [collect_going ⟨going.1, less⟩ body']
          exact induction result found
      case isFalse =>
        cases result
        exact absurd found done

theorem createSlots_again {dry actual : List Slot × ThreadPool}
    (dried : createSlots hwStatus spec pool fuel true = some dry)
    (created : createSlots hwStatus { spec with np := dry.1.length } pool fuel
      false = some actual) : actual.1.length = dry.1.length := by
  cases createSlots_cases dried with
  | nothing none equality =>
    cases createSlots_cases created with
    | nothing _ equality' => rw [equality', equality]
    | collected start c started =>
      change collectStart hwStatus spec pool = some start at started
      rw [none] at started
      cases started
  | collected start c started run equality =>
    have empty := collectStart_spec started
    have length := (collect_length run).2 (by rw [empty.2.1, empty.2.2.1]; rfl)
    rw [equality] at created ⊢
    simp only at created ⊢
    rcases collect_again run length.symm with ⟨c'', run', got⟩
    cases createSlots_cases created with
    | nothing nowhere =>
      change collectStart hwStatus spec pool = none at nowhere
      rw [nowhere] at started
      cases started
    | collected start' last started' run'' equality' =>
      change collectStart hwStatus spec pool = some start' at started'
      rw [started] at started'
      cases started'
      have same : c'' = last := Option.some.inj (run'.symm.trans run'')
      have length' := (collect_length run'').2 (by rw [empty.2.1, empty.2.2.1]; rfl)
      rw [equality']
      simp only
      rw [length', ← same, got]

/-! ## Without overbooking -/

structure Apart (pool : ThreadPool) (c : Collect) : Prop where
  held : ∀ i < pool.totalThreads, (pool.partThrds i).timesUsed + hits (pool.partThrds i) c.slots +
      (if c.thrdsGot ≠ 0 ∧ (pool.partThrds i).inSlot c.current = true then 1
        else 0) ≤ c.myUse i
  once : ∀ i < pool.totalThreads, c.myUse i ≤ 1

/-- Only unused HW-threads are looked for. -/
structure Unused (spec : SlotSpec) (c : Collect) : Prop where
  least : c.minUsed = 0
  start : spec.options.nodeFirst = false → c.t = 0 → c.nextMinUsed = 0

theorem startRound_unused {r : Collect} (plain : spec.options.overbook = false)
    (unused : Unused spec c) (started : startRound spec c = some r) :
    r.minUsed = 0 := by
  unfold startRound at started
  simp only at started
  split at started
  · cases started
    exact unused.least
  case isFalse first =>
    have first := not_not.mp first
    split at started
    · cases started
    · split at started
      · cases started
      case isFalse going =>
        cases started
        simp only
        cases nodeFirst : spec.options.nodeFirst with
        | false => exact unused.start nodeFirst first
        | true =>
          by_contra some
          exact going ⟨nodeFirst, some, by rw [plain]; rfl⟩

theorem SameRound.apart (same : SameRound c c') (apart : Apart pool c) : Apart pool c' where
  held := by
    rw [same.myUse, same.thrdsGot, same.current, same.slots]
    exact apart.held
  once := by
    rw [same.myUse]
    exact apart.once

/-- The HW-threads of a slot given up are free again. -/
theorem Prepared.held (prepared : Prepared pool c p) (apart : Apart pool c) :
    ∀ i < pool.totalThreads, (pool.partThrds i).timesUsed + hits (pool.partThrds i) p.slots +
        (if (pool.partThrds i).inSlot p.current = true then 1 else 0) ≤
          p.myUse i ∧ p.myUse i ≤ 1 := by
  intro i inPool
  have held := apart.held i inPool
  have once := apart.once i inPool
  rw [prepared.slots]
  rcases prepared.kept with ⟨some, current, myUse⟩ | ⟨current, myUse⟩
  · rw [current, myUse]
    simp only [some, ne_eq, not_false_eq_true, true_and] at held
    exact ⟨held, once⟩
  · rw [current, not_inSlot_empty]
    simp only [Bool.false_eq_true, if_false]
    rcases myUse i inPool with unchanged | ⟨some, inside, less⟩
    · rw [unchanged]
      split at held <;> omega
    · rw [if_pos ⟨some, inside⟩] at held
      omega

theorem Prepared.apart (prepared : Prepared pool c p) (distinct : Distinct pool)
    (low : ∀ i < pool.totalThreads, 0 ≤ (pool.partThrds i).timesUsed)
    (apart : Apart pool c) (bound : c.t < pool.totalThreads)
    (free : c.myUse c.t ≤ 0) (took : Took spec pool p c') : Apart pool c' := by
  have held := prepared.held apart
  have here := held c.t bound
  have unused := low c.t bound
  rw [prepared.here] at here
  have zero : p.myUse c.t = 0 := by
    rw [prepared.here]
    have nonneg := (held c.t bound).1
    rw [prepared.here] at nonneg
    split at nonneg <;> omega
  have use : ∀ i, c'.myUse i = if i = c.t then 1 else p.myUse i := by
    intro i
    rw [took.myUse, prepared.t, zero, update_apply]
    rfl
  -- the HW-thread at hand is the only one that joins the slot
  have joins : ∀ i < pool.totalThreads, i ≠ c.t →
      (pool.partThrds i).inSlot ⟨p.current.node,
        insert (pool.partThrds p.t).id p.current.cpuSet⟩ = true →
          (pool.partThrds i).inSlot p.current = true := by
    intro i inPool other inside
    rcases inSlot_insert inside with earlier | ⟨node, id⟩
    · exact earlier
    · rw [prepared.t] at id
      exact absurd (distinct i inPool c.t bound (node.trans prepared.node) id) other
  refine ⟨?_, ?_⟩
  · intro i inPool
    have before := (held i inPool).1
    rw [use]
    have bound' : ∀ inside : Bool, (inside = true → i ≠ c.t →
        (pool.partThrds i).inSlot p.current = true) →
          (pool.partThrds i).timesUsed + hits (pool.partThrds i) p.slots +
            (if inside = true then 1 else 0) ≤
              if i = c.t then 1 else p.myUse i := by
      intro inside joined
      by_cases same : i = c.t
      · rw [same] at before ⊢
        rw [zero] at before
        rw [if_pos rfl]
        split at before <;> split <;> omega
      · rw [if_neg same]
        cases inside with
        | false =>
          simp only [Bool.false_eq_true, if_false]
          split at before <;> omega
        | true =>
          rw [if_pos (joined rfl same)] at before
          exact before
    rcases took.slots with ⟨none, _, slots⟩ | ⟨_, slots, current⟩
    · rw [slots, hits_append, hits_cons, hits_nil]
      have sum := bound' _ (fun inside other => joins i inPool other inside)
      simp only [none, ne_eq, not_true_eq_false, false_and, if_false]
      refine le_trans ?_ sum
      by_cases inside : (pool.partThrds i).inSlot ⟨p.current.node,
          insert (pool.partThrds p.t).id p.current.cpuSet⟩ = true
      · rw [if_pos inside, if_pos inside]
        omega
      · rw [if_neg inside, if_neg inside]
        omega
    · rw [slots, current]
      have sum := bound' _ (fun inside other => joins i inPool other inside)
      refine le_trans ?_ sum
      by_cases inside : (pool.partThrds i).inSlot ⟨p.current.node,
          insert (pool.partThrds p.t).id p.current.cpuSet⟩ = true
      · rw [if_pos inside]
        split <;> omega
      · rw [if_neg inside, if_neg (fun both => inside both.2)]
  · intro i inPool
    rw [use]
    split
    · exact le_refl 1
    · exact (held i inPool).2

section

variable (sound : Sound pool) (plain : spec.options.overbook = false)

include sound plain

theorem collectBody_apart (inv : Collecting pool c) (unused : Unused spec c) (apart : Apart pool c)
    (bound : c.t < pool.totalThreads) (result : collectBody hwStatus spec pool c = some c') :
    Collecting pool c' ∧ Apart pool c' ∧ c'.minUsed = 0 ∧ c'.t = c.t := by
  rcases collectBody_cases result with ⟨r, started, body⟩
  have same := startRound_same started
  have least := startRound_unused plain unused started
  have once : r.myUse r.t ≤ 1 := by
    rw [same.myUse, same.t]
    exact apart.once c.t bound
  have collecting := collectBody_collecting inv sound.distinct bound
    (by
      intro r' started' _
      rw [started] at started'
      cases started'
      omega) result
  refine ⟨collecting, ?_⟩
  cases body with
  | skipped same' minUsed =>
    exact ⟨same'.apart (same.apart apart), minUsed.trans least, same'.t.trans same.t⟩
  | took p free prepared took =>
    have bound' : r.t < pool.totalThreads := same.t ▸ bound
    have ready := prepareSlot_prepared (same.collecting inv) bound' prepared
    rw [least] at free
    exact ⟨ready.apart sound.distinct sound.low (same.apart apart) bound' free
      took, took.minUsed.trans (ready.minUsed.trans least),
      took.t.trans (ready.t.trans same.t)⟩

theorem collect_apart : ∀ {fuel : Nat} {c c' : Collect}, Collecting pool c → Unused spec c →
      Apart pool c →
      collect hwStatus spec pool
        (pool.totalThreads +
          if spec.options.overbook || spec.options.nodeFirst then 0 else 1)
        fuel c = some c' → Collecting pool c' ∧ Apart pool c' := by
  intro fuel
  induction fuel with
  | zero => exact fun _ _ _ result => nomatch result
  | succ fuel induction =>
    intro c c' inv unused apart result
    unfold collect at result
    split at result
    case isTrue going =>
      split at result
      · cases result
        exact ⟨inv, apart⟩
      case h_2 next body =>
        rcases collectBody_apart sound plain inv unused apart going.1 body with
          ⟨inv', apart', least, t⟩
        refine induction
          (c := { next with
            t := (next.t + 1) % (pool.totalThreads +
              if spec.options.overbook || spec.options.nodeFirst then 0
              else 1) })
          ⟨inv'.low, inv'.high, inv'.taken, inv'.length⟩ ⟨least, ?_⟩
          ⟨apart'.held, apart'.once⟩ result
        -- without `nodeFirst` no second round is started
        intro nodeFirst first
        simp only [plain, nodeFirst, Bool.or_self, Bool.false_eq_true, if_false] at first
        rw [t, Nat.mod_eq_of_lt (by omega)] at first
        cases first
    case isFalse =>
      cases result
      exact ⟨inv, apart⟩

/-- Without overbooking no counter gets anywhere near its limit. -/
theorem takesInRange_plain : ∀ {fuel : Nat} {c : Collect}, Collecting pool c → Unused spec c →
      Apart pool c → TakesInRange hwStatus spec pool
        (pool.totalThreads +
          if spec.options.overbook || spec.options.nodeFirst then 0 else 1)
        fuel c := by
  intro fuel
  induction fuel with
  | zero => exact fun _ _ _ => trivial
  | succ fuel induction =>
    intro c inv unused apart bound _
    constructor
    · intro r started _
      have same := startRound_same started
      have once := apart.once c.t bound
      rw [same.myUse, same.t]
      omega
    · intro next body
      rcases collectBody_apart sound plain inv unused apart bound body with
        ⟨inv', apart', least, t⟩
      refine induction (c := { next with
          t := (next.t + 1) % (pool.totalThreads +
            if spec.options.overbook || spec.options.nodeFirst then 0
            else 1) })
        ⟨inv'.low, inv'.high, inv'.taken, inv'.length⟩ ⟨least, ?_⟩
        ⟨apart'.held, apart'.once⟩
      intro nodeFirst first
      simp only [plain, nodeFirst, Bool.or_self, Bool.false_eq_true, if_false] at first
      rw [t, Nat.mod_eq_of_lt (by omega)] at first
      cases first

end

theorem Apart.start {start : Collect}
    (once : ∀ i < pool.totalThreads, (pool.partThrds i).timesUsed ≤ 1)
    (started : collectStart hwStatus spec pool = some start) :
    Apart pool start := by
  rcases collectStart_spec started with ⟨myUse, slots, _, none, _⟩
  refine ⟨?_, ?_⟩
  · intro i _
    rw [myUse, slots, none]
    simp
  · intro i inPool
    rw [myUse]
    exact once i inPool

theorem createInRange_plain (sound : Sound pool) (plain : spec.options.overbook = false)
    (once : ∀ i < pool.totalThreads, (pool.partThrds i).timesUsed ≤ 1) :
    CreateInRange hwStatus spec pool fuel := by
  intro start started
  have least := (collectStart_spec started).2.2.2.2 plain
  exact takesInRange_plain sound plain (sound.start started)
    ⟨least.1, least.2⟩ (Apart.start once started)

theorem createSlots_apart (sound : Sound pool) (plain : spec.options.overbook = false)
    (once : ∀ i < pool.totalThreads, (pool.partThrds i).timesUsed ≤ 1)
    (created : createSlots hwStatus spec pool fuel false = some result)
    (full : result.1.length = spec.np) :
    Sound result.2 ∧ SameThreads pool result.2 ∧
      ∀ i < pool.totalThreads, (pool.partThrds i).timesUsed +
        hits (pool.partThrds i) result.1 ≤ (result.2.partThrds i).timesUsed ∧
          (result.2.partThrds i).timesUsed ≤ 1 := by
  cases createSlots_cases created with
  | nothing _ equality =>
    rw [equality]
    refine ⟨sound, SameThreads.refl pool, ?_⟩
    intro i inPool
    simp only [hits_nil]
    exact ⟨by omega, once i inPool⟩
  | collected start c started run equality =>
    have least := (collectStart_spec started).2.2.2.2 plain
    rcases collect_apart sound plain (sound.start started)
      ⟨least.1, least.2⟩ (Apart.start once started) run with ⟨inv, apart'⟩
    rw [equality] at full ⊢
    simp only at full ⊢
    have done : c.got = spec.np := by rw [← inv.length, full]
    simp only [Bool.not_false, done, and_self, if_true]
    refine ⟨sound.commit inv, ⟨rfl, fun _ => rfl, fun _ => rfl⟩, ?_⟩
    intro i inPool
    have held := apart'.held i inPool
    have once' := apart'.once i inPool
    simp only [commitUse]
    refine ⟨?_, once'⟩
    split at held <;> omega

end Collect

end Psmgmt.Partition
