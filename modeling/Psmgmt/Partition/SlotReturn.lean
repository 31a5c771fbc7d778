import Psmgmt.Partition.SlotEnd
import Psmgmt.Library.Snoc

/-!
# The end of `createSlots()`

With over-booking the loop is left with all slots only, thus it does not end
when the hosts admit fewer.
-/

namespace Psmgmt.Partition

open List

variable {spoiled dryRun : Bool} {fuel : Nat} {start : Collect}

section Return

variable (hwStatus : Nat → Nat) (spec : SlotSpec) (pool : ThreadPool)

/-- Slots that may be created in one call. -/
structure Possible (slots : List Slot) : Prop where
  threads : ∀ slot ∈ slots, slot.cpuSet.card = spec.tpp
  ofNode : ∀ slot ∈ slots, OfNode hwStatus spec pool slot
  limit : spec.ppn ≠ 0 → ∀ node, slots.countP (fun slot => slot.node = node) ≤ spec.ppn
  unused : spec.options.overbook = false → ∀ slot ∈ slots,
    ∀ i < pool.totalThreads, (pool.partThrds i).inSlot slot = true →
      (pool.partThrds i).timesUsed = 0
  apart : spec.options.overbook = false → ∀ i < pool.totalThreads, hits (pool.partThrds i) slots ≤ 1

/-- `createSlots()` returns, with fewer slots if those asked for cannot be. -/
structure Returns (dryRun : Bool) : Prop where
  ends : ∃ fuel result, createSlots hwStatus spec pool fuel dryRun = some result
  fewer : ∀ fuel result, createSlots hwStatus spec pool fuel dryRun = some result →
      (∀ slots, Possible hwStatus spec pool slots →
        slots.length ≠ spec.np) → result.1.length < spec.np

/-- Over-booking is not asked for more slots than the hosts admit. -/
def Admitted : Prop :=
  spec.options.overbook = false ∨ spec.np = 0 ∨
    1 ≤ spec.tpp ∧ (spec.ppn = 0 ∨ hosts hwStatus spec pool = ∅ ∨
      spec.np ≤ spec.ppn * (hosts hwStatus spec pool).card)

variable {hwStatus : Nat → Nat} {spec : SlotSpec} {pool : ThreadPool}

/-! ## Leaving the loop -/

theorem putBack_left (t : Nat) (slot : Slot) (rest : List Nat) (numToRel : Nat)
    (myUse : Nat → Int) :
    (putBack pool t slot rest numToRel myUse).1 = numToRel -
      (rest.map (backIndex pool t)).countP (fun i => (pool.partThrds i).inSlot slot) := by
  induction rest generalizing numToRel myUse with
  | nil => rfl
  | cons tt rest next =>
    rw [putBack_cons, map_cons, countP_cons]
    split
    · omega
    · split
      · rw [next]
        omega
      · rw [next]
        omega

/-- All other HW-threads are visited. -/
theorem mem_backIndex {t i : Nat} (bound : t < pool.totalThreads)
    (inPool : i < pool.totalThreads) (other : i ≠ t) :
    i ∈ (List.range' 1 (pool.totalThreads - 1)).map (backIndex pool t) := by
  rw [mem_map]
  rcases Nat.lt_or_ge i t with before | after
  · refine ⟨t - i, mem_range'_1.mpr (by omega), ?_⟩
    rw [backIndex_eq bound (by omega) (by omega), if_pos (by omega)]
    omega
  · refine ⟨t + pool.totalThreads - i, mem_range'_1.mpr (by omega), ?_⟩
    rw [backIndex_eq bound (by omega) (by omega), if_neg (by omega)]
    omega

theorem putBack_all {slot : Slot} {t : Nat} (bound : t < pool.totalThreads)
    (ofNode : OfNode hwStatus spec pool slot)
    (apart : (pool.partThrds t).node ≠ slot.node) (myUse : Nat → Int) :
    (putBack pool t slot (List.range' 1 (pool.totalThreads - 1)) slot.cpuSet.card myUse).1 = 0 := by
  have visited := @mem_backIndex pool t
  have once := backIndex_nodup bound
  rw [putBack_left]
  generalize (List.range' 1 (pool.totalThreads - 1)).map (backIndex pool t) =
    visits at visited once ⊢
  have inside : slot.cpuSet ⊆
      (visits.filter (fun i => (pool.partThrds i).inSlot slot)).toFinset.image
        (fun i => (pool.partThrds i).id) := by
    intro cpu member
    obtain ⟨i, inPool, node, id_⟩ := ofNode.threads cpu member
    have other : i ≠ t := fun same => apart (same ▸ node)
    refine Finset.mem_image.mpr ⟨i, mem_toFinset.mpr
      (mem_filter.mpr ⟨visited bound inPool other, ?_⟩), id_⟩
    exact inSlot_iff.mpr ⟨node.symm, id_.symm ▸ member⟩
  have most := le_trans (Finset.card_le_card inside) Finset.card_image_le
  rw [toFinset_card_of_nodup (once.filter _), ← countP_eq_length_filter] at most
  omega

section

variable {r : Collect} (walk : Walk hwStatus spec pool r spoiled)
  (bound : r.t < pool.totalThreads)

include walk bound

theorem prepareSlot_total : ∃ p, prepareSlot pool r = some p := by
  unfold prepareSlot
  by_cases first : r.thrdsGot = 0
  · simp only [first, if_true, ne_eq, not_true_eq_false, if_false]
    exact ⟨_, rfl⟩
  · simp only [first, if_false]
    by_cases apart : (pool.partThrds r.t).node ≠ r.current.node
    · rw [if_pos apart, putBack_all bound (walk.current first) apart]
      exact ⟨_, rfl⟩
    · rw [if_neg apart]
      exact ⟨_, rfl⟩

theorem tryThread_total : ∃ c', tryThread hwStatus spec pool r = some c' := by
  cases busy : takes hwStatus spec pool r with
  | false =>
    obtain ⟨_, _, skipped⟩ := tryThread_idle busy
    exact ⟨_, skipped⟩
  | true =>
    obtain ⟨p, prepared⟩ := prepareSlot_total walk bound
    rw [tryThread_taking busy, prepared]
    exact ⟨_, rfl⟩

end

theorem startRound_overbook (overbook : spec.options.overbook = true)
    (c : Collect) : ∃ r, startRound spec c = some r := by
  unfold startRound
  simp only [overbook, Bool.not_true, Bool.false_eq_true, and_false, if_false]
  split
  · exact ⟨_, rfl⟩
  · exact ⟨_, rfl⟩

/-- The loop is not left before all slots are collected. -/
theorem collect_overbook (overbook : spec.options.overbook = true) {c c' : Collect}
    (walk : Walk hwStatus spec pool c spoiled) (bound : c.t < pool.totalThreads)
    (result : collect hwStatus spec pool pool.totalThreads fuel c = some c') :
    spec.np ≤ c'.got := by
  induction fuel generalizing c spoiled with
  | zero => exact nomatch result
  | succ fuel next =>
    by_cases less : c.got < spec.np
    · obtain ⟨r, started⟩ := startRound_overbook overbook c
      obtain ⟨round, t, _⟩ := startRound_walk walk started
      obtain ⟨step, tried⟩ := tryThread_total round (t ▸ bound)
      have body : collectBody hwStatus spec pool c = some step := by
        rw [collectBody, started]
        exact tried
      rw [collect_going ⟨bound, less⟩ body] at result
      have walked := tryThread_walked round (t ▸ bound) tried
      exact next (walked.walk.move _) (Nat.mod_lt _ (by omega)) result
    · rw [collect, if_neg (fun going => less going.2)] at result
      cases result
      exact not_lt.mp less

/-! ## Slots that are possible -/

theorem Delivered.possible {result : List Slot × ThreadPool}
    (delivered : Delivered hwStatus spec pool fuel dryRun result) :
    Possible hwStatus spec pool result.1 :=
  ⟨delivered.threads, delivered.ofNode, delivered.limit, delivered.unused, delivered.apart⟩

theorem possible_nil : Possible hwStatus spec pool [] :=
  ⟨fun _ member => (nomatch member), fun _ member => (nomatch member),
    fun _ _ => Nat.zero_le _, fun _ _ member => (nomatch member),
    fun _ _ _ => Nat.zero_le _⟩

section

variable (grouped : Grouped pool) (some_ : 1 ≤ spec.tpp)
  (overbook : spec.options.overbook = true)
  (hosted : (hosts hwStatus spec pool).Nonempty)

include grouped some_ overbook hosted

theorem Possible.more {slots : List Slot}
    (possible : Possible hwStatus spec pool slots) (room : spec.ppn ≠ 0 →
      slots.length < spec.ppn * (hosts hwStatus spec pool).card) :
    ∃ slot, Possible hwStatus spec pool (slots ++ [slot]) := by
  obtain ⟨node, host, free⟩ := exists_room slots hosted room
  obtain ⟨slot, here, ofNode, card⟩ := exists_slot grouped some_ host
  have booked : spec.options.overbook ≠ false := by
    rw [overbook]
    exact Bool.true_eq_false_eq_False
  refine ⟨slot, ?_, ?_, ?_, fun plain => absurd plain booked,
    fun plain => absurd plain booked⟩
  · exact Snoc.forall_mem possible.threads card
  · exact Snoc.forall_mem possible.ofNode ofNode
  · intro limit other
    have before := possible.limit limit other
    have less := free limit
    rw [countP_append, countP_singleton]
    by_cases same : slot.node = other
    · rw [if_pos (decide_eq_true same)]
      rw [← here, same] at less
      exact less
    · rw [if_neg (by simpa using same)]
      exact before

/-- With over-booking any number of slots the hosts admit is possible. -/
theorem exists_possible (count : Nat) (room : spec.ppn ≠ 0 →
      count ≤ spec.ppn * (hosts hwStatus spec pool).card) :
    ∃ slots, Possible hwStatus spec pool slots ∧ slots.length = count := by
  induction count with
  | zero => exact ⟨[], possible_nil, rfl⟩
  | succ count before =>
    obtain ⟨slots, possible, length⟩ := before (fun limit => Nat.le_of_succ_le (room limit))
    obtain ⟨slot, more⟩ := possible.more grouped some_ overbook hosted
      (fun limit => by
        rw [length]
        exact room limit)
    refine ⟨slots ++ [slot], more, ?_⟩
    rw [length_append, length]
    rfl

end

theorem Possible.most {slots : List Slot} (possible : Possible hwStatus spec pool slots)
    (some_ : 1 ≤ spec.tpp) (limit : spec.ppn ≠ 0) :
    slots.length ≤ spec.ppn * (hosts hwStatus spec pool).card := by
  have total : ∑ node ∈ hosts hwStatus spec pool,
      slots.countP (fun slot => slot.node = node) ≤ ∑ _node ∈ hosts hwStatus spec pool, spec.ppn :=
    Finset.sum_le_sum (fun node _ => possible.limit limit node)
  rw [sum_countP, Finset.sum_const_nat (fun _ _ => rfl), Nat.mul_comm]
    at total
  have all : slots.countP (fun slot => slot.node ∈ hosts hwStatus spec pool) = slots.length := by
    rw [countP_eq_length]
    intro slot member
    exact decide_eq_true ((possible.ofNode slot member).host some_ (possible.threads slot member))
  rw [all] at total
  exact total

/-! ## The call as a whole -/

theorem Started.steady (grouped : Grouped pool) (some_ : 1 ≤ spec.tpp)
    (started : Started hwStatus spec pool start) :
    Steady hwStatus spec pool start := by
  obtain ⟨thrdsGot, got, slots, _⟩ := started.fresh
  refine ⟨⟨false, started.walk⟩, ?_, ?_, ?_⟩
  · rw [slots, got]
    rfl
  · rw [thrdsGot]
    exact some_
  · rw [started.myUse]
    exact grouped.high

theorem returns_of_ends
    (ends : ∀ start, collectStart hwStatus spec pool = some start →
      Ends hwStatus spec pool (pool.totalThreads +
        if spec.options.overbook || spec.options.nodeFirst then 0 else 1)
        start) :
    ∃ fuel result, createSlots hwStatus spec pool fuel dryRun = some result := by
  rcases started : collectStart hwStatus spec pool with _ | start
  · exact ⟨0, _, by rw [createSlots, started]⟩
  · obtain ⟨fuel, c, run⟩ := ends start started
    exact ⟨fuel, _, by rw [createSlots, started]; dsimp only; rw [run]; rfl⟩

theorem collect_le {mod : Nat} {c c' : Collect} (less : c.got ≤ spec.np)
    (result : collect hwStatus spec pool mod fuel c = some c') :
    c'.got ≤ spec.np := by
  induction fuel generalizing c with
  | zero => exact nomatch result
  | succ fuel next =>
    rw [collect] at result
    split at result
    · rename_i going
      split at result
      · cases result
        exact less
      · rename_i step body
        rcases Option.bind_eq_some_iff.mp body with ⟨r, started, tried⟩
        have same := startRound_same started
        have advance := tryThread_advance tried
        have counted := advance.got
        have most := advance.most
        refine next (c := { step with t := (step.t + 1) % mod }) ?_ result
        dsimp only
        rw [same.got] at counted
        omega
    · cases result
      exact less

theorem createSlots_length_le {result : List Slot × ThreadPool}
    (created : createSlots hwStatus spec pool fuel dryRun = some result) :
    result.1.length ≤ spec.np := by
  cases createSlots_cases created with
  | nothing _ equality =>
    rw [equality]
    exact Nat.zero_le _
  | collected start c started run equality =>
    obtain ⟨_, got, slots, _⟩ := (collectStart_started started).fresh
    have length := (collect_length run).2 (by rw [slots, got]; rfl)
    rw [equality]
    dsimp only
    rw [length]
    exact collect_le (got ▸ Nat.zero_le _) run

theorem scan_first (scan : Scan) (threads : List Nat) :
    (threads.foldl (scanStep hwStatus spec pool) scan).first = scan.first ∨
      (threads.foldl (scanStep hwStatus spec pool) scan).first ∈ threads := by
  induction threads generalizing scan with
  | nil => exact .inl rfl
  | cons t rest next =>
    have step : (scanStep hwStatus spec pool scan t).first = scan.first ∨
        (scanStep hwStatus spec pool scan t).first = t := by
      simp only [scanStep]
      split
      · exact .inl rfl
      · split
        · split
          · exact .inr rfl
          · exact .inl rfl
        · split
          · exact .inr rfl
          · exact .inl rfl
    rw [foldl_cons]
    rcases next (scanStep hwStatus spec pool scan t) with same | later
    · rw [same]
      rcases step with kept | here
      · exact .inl kept
      · rw [here]
        exact .inr mem_cons_self
    · exact .inr (mem_cons_of_mem _ later)

theorem Started.inPool (grouped : Grouped pool)
    (started : Started hwStatus spec pool start) :
    start.t < pool.totalThreads := by
  rw [started.first]
  have value : (scanThreads hwStatus spec pool).first =
      ((List.range pool.totalThreads).foldl (scanStep hwStatus spec pool)
        { first := 0, nextMinUsed := (pool.partThrds 0).timesUsed,
          nodeTPP := 0, maxTPP := 0 }).first := rfl
  rw [value]
  rcases @scan_first hwStatus spec pool
      { first := 0, nextMinUsed := (pool.partThrds 0).timesUsed, nodeTPP := 0,
        maxTPP := 0 } (List.range pool.totalThreads) with same | member
  · rw [same]
    exact grouped.some_
  · exact mem_range.mp member

theorem Started.hosted (grouped : Grouped pool) (some_ : 1 ≤ spec.tpp)
    (started : Started hwStatus spec pool start) :
    (hosts hwStatus spec pool).Nonempty :=
  (tpp_le_maxTPP_iff grouped some_).mp started.tpp

theorem admitted_ends (grouped : Grouped pool) (admitted : Admitted hwStatus spec pool)
    (started : Started hwStatus spec pool start) :
    Ends hwStatus spec pool (pool.totalThreads +
      if spec.options.overbook || spec.options.nodeFirst then 0 else 1)
      start := by
  cases overbook : spec.options.overbook with
  | false =>
    cases nodeFirst : spec.options.nodeFirst with
    | false => exact plain_ends
    | true => exact nodeFirst_ends overbook start
  | true =>
    rcases admitted with plain | none_ | ⟨some_, room⟩
    · exact nomatch overbook.symm.trans plain
    · apply ends_left
      rintro ⟨_, less⟩
      omega
    · have hosted := started.hosted grouped some_
      refine overbook_ends grouped some_ hosted ?_ (started.steady grouped some_)
      intro limit
      rcases room with unlimited | empty | room
      · exact absurd unlimited limit
      · exact absurd empty hosted.ne_empty
      · exact room

/-- Where fewer slots are returned, those asked for are not possible. -/
theorem admitted_returns (grouped : Grouped pool)
    (admitted : Admitted hwStatus spec pool) (dryRun : Bool) :
    Returns hwStatus spec pool dryRun := by
  refine ⟨returns_of_ends (fun start started =>
    admitted_ends grouped admitted (collectStart_started started)), ?_⟩
  intro fuel result created impossible
  apply lt_of_le_of_ne (createSlots_length_le created)
  intro all
  cases overbook : spec.options.overbook with
  | false =>
    have delivered := createSlots_delivered grouped created
      ((createSlots_unspoiled_iff created).mp (createsUnspoiled_plain grouped overbook fuel))
    exact impossible result.1 delivered.possible all
  | true =>
    rcases admitted with plain | none_ | ⟨some_, room⟩
    · exact nomatch overbook.symm.trans plain
    · exact impossible [] possible_nil none_.symm
    · cases createSlots_cases created with
      | nothing _ equality =>
        rw [equality] at all
        exact impossible [] possible_nil all
      | collected start c started _ _ =>
        have hosted := (collectStart_started started).hosted grouped some_
        obtain ⟨slots, possible, length⟩ :=
          exists_possible grouped some_ overbook hosted spec.np (by
            intro limit
            rcases room with unlimited | empty | room
            · exact absurd unlimited limit
            · exact absurd empty hosted.ne_empty
            · exact room)
        exact impossible slots possible length

theorem collectStart_overbook (overbook : spec.options.overbook = true)
    (tpp : spec.tpp ≤ (scanThreads hwStatus spec pool).maxTPP) :
    ∃ start, collectStart hwStatus spec pool = some start := by
  unfold collectStart
  simp only [overbook, Bool.not_true, Bool.false_eq_true, and_false, if_false]
  rw [if_neg (not_lt.mpr tpp)]
  exact ⟨_, rfl⟩

/-- Asked for more slots than the hosts admit, over-booking does not end. -/
theorem returns_admitted (grouped : Grouped pool) (some_ : 1 ≤ spec.tpp)
    (returns : Returns hwStatus spec pool dryRun) :
    Admitted hwStatus spec pool := by
  by_contra excess
  rw [Admitted, not_or, not_or, Bool.not_eq_false] at excess
  obtain ⟨overbook, _, refused⟩ := excess
  have limit : spec.ppn ≠ 0 := fun zero => refused ⟨some_, .inl zero⟩
  have hosted : (hosts hwStatus spec pool).Nonempty :=
    Finset.nonempty_iff_ne_empty.mpr (fun empty => refused ⟨some_, .inr (.inl empty)⟩)
  have more : spec.ppn * (hosts hwStatus spec pool).card < spec.np :=
    not_le.mp (fun room => refused ⟨some_, .inr (.inr room)⟩)
  obtain ⟨fuel, result, created⟩ := returns.ends
  have fewer := returns.fewer fuel result created (by
    intro slots possible all
    have most := possible.most some_ limit
    omega)
  cases createSlots_cases created with
  | nothing none_ _ =>
    obtain ⟨start, started⟩ := collectStart_overbook overbook
      ((tpp_le_maxTPP_iff grouped some_).mpr hosted)
    exact nomatch none_.symm.trans started
  | collected start c started run equality =>
    have begun := collectStart_started started
    obtain ⟨_, got, slots, _⟩ := begun.fresh
    have length := (collect_length run).2 (by rw [slots, got]; rfl)
    rw [overbook, Bool.true_or, if_pos rfl, Nat.add_zero] at run
    have all := collect_overbook overbook begun.walk (begun.inPool grouped) run
    rw [equality] at fewer
    dsimp only at fewer
    omega

/-- `createSlots()` returns unless over-booking is to fit more slots onto the
hosts than these admit. -/
theorem createSlots_returns_iff (grouped : Grouped pool) (dryRun : Bool) :
    (Admitted hwStatus spec pool → Returns hwStatus spec pool dryRun) ∧
      (1 ≤ spec.tpp → Returns hwStatus spec pool dryRun → Admitted hwStatus spec pool) :=
  ⟨fun admitted => admitted_returns grouped admitted dryRun,
    fun some_ returns => returns_admitted grouped some_ returns⟩

end Return

/-! One HW-thread and one process for each node; two slots are asked for with
over-booking. -/

def singlePool : ThreadPool where
  totalThreads := 1
  partThrds := fun t => ⟨0, t, 0⟩
  usedThreads := 0

def singleSpec : SlotSpec where
  np := 2
  ppn := 1
  tpp := 1
  hwType := 0
  options := ⟨true, false, false, false, false, false⟩

theorem singlePool_grouped : Grouped singlePool where
  some_ := by decide
  together := fun _ _ _ _ _ _ _ => rfl
  distinct := fun _ _ _ _ _ same => same
  high := fun _ _ => by
    change (0 : Int) < 2 ^ 15
    decide

theorem single_returns_iff :
    (Admitted (fun _ => 0) singleSpec singlePool →
      Returns (fun _ => 0) singleSpec singlePool true) ∧
    (1 ≤ singleSpec.tpp → Returns (fun _ => 0) singleSpec singlePool true →
      Admitted (fun _ => 0) singleSpec singlePool) :=
  createSlots_returns_iff singlePool_grouped true

/-- The loop goes on for ever once the node is full. -/
theorem single_not_returns : ¬ Returns (fun _ => 0) singleSpec singlePool true := by
  intro returns
  rcases returns_admitted singlePool_grouped (by decide) returns with
    plain | none_ | ⟨_, unlimited | empty | room⟩
  · exact nomatch plain
  · exact nomatch none_
  · exact nomatch unlimited
  · exact absurd empty (by decide +kernel)
  · exact absurd room (by decide +kernel)

end Psmgmt.Partition
