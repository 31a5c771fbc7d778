import Psmgmt.Partition.Usage

/-!
# Walking over the HW-threads

What one iteration of the loop collecting slots does, whatever the use of the
HW-threads is.
-/

namespace Psmgmt.Partition

open List Function

/-- A partition: HW-threads grouped by their nodes, each of them once, with
16-bit counters. -/
structure Grouped (pool : ThreadPool) : Prop where
  some_ : 0 < pool.totalThreads
  together : ∀ i j k, i ≤ j → j ≤ k → k < pool.totalThreads →
    (pool.partThrds i).node = (pool.partThrds k).node →
      (pool.partThrds j).node = (pool.partThrds i).node
  distinct : ∀ i < pool.totalThreads, ∀ j < pool.totalThreads,
    (pool.partThrds i).node = (pool.partThrds j).node →
      (pool.partThrds i).id = (pool.partThrds j).id → i = j
  high : ∀ i < pool.totalThreads, (pool.partThrds i).timesUsed < 2 ^ 15

variable {r p : Collect}

section Walk

variable {hwStatus : Nat → Nat} {spec : SlotSpec} {pool : ThreadPool}

/-! ## Preparing the slot -/

/-- The slot a HW-thread is taken for: the one at hand, a new one, or the one at
hand started again on another node. -/
inductive Ready (pool : ThreadPool) (r p : Collect) : Prop where
  | kept (begun : r.thrdsGot ≠ 0) (node : r.current.node = (pool.partThrds r.t).node) (same : p = r)
  | anew (first : r.thrdsGot = 0) (same : p = { r with current := ⟨(pool.partThrds r.t).node, ∅⟩ })
  | restarted (begun : r.thrdsGot ≠ 0)
      (apart : (pool.partThrds r.t).node ≠ r.current.node)
      (same : p = { r with
        myUse := (putBack pool r.t r.current
          (List.range' 1 (pool.totalThreads - 1)) r.current.cpuSet.card
          r.myUse).2
        current := ⟨(pool.partThrds r.t).node, ∅⟩, thrdsGot := 0 })

theorem prepareSlot_ready (result : prepareSlot pool r = some p) : Ready pool r p := by
  unfold prepareSlot at result
  by_cases first : r.thrdsGot = 0
  · simp only [first, if_true, ne_eq, not_true_eq_false, if_false, Option.some.injEq] at result
    apply Ready.anew first
    rw [← result, ← first]
  · simp only [first, if_false] at result
    split at result
    · rename_i apart
      split at result
      · cases result
      · apply Ready.restarted first apart
        exact (Option.some.inj result).symm
    · rename_i same
      exact Ready.kept first (not_not.mp same).symm (Option.some.inj result).symm

/-- What preparing the slot leaves alone. -/
structure SameWalk (r p : Collect) : Prop where
  t : p.t = r.t
  minUsed : p.minUsed = r.minUsed
  nextMinUsed : p.nextMinUsed = r.nextMinUsed
  got : p.got = r.got
  roundGot : p.roundGot = r.roundGot
  fullRound : p.fullRound = r.fullRound
  procsPerNode : p.procsPerNode = r.procsPerNode
  slots : p.slots = r.slots

theorem Ready.sameWalk (ready : Ready pool r p) : SameWalk r p := by
  cases ready with
  | kept _ _ same => rw [same]; exact ⟨rfl, rfl, rfl, rfl, rfl, rfl, rfl, rfl⟩
  | anew _ same => rw [same]; exact ⟨rfl, rfl, rfl, rfl, rfl, rfl, rfl, rfl⟩
  | restarted _ _ same =>
    rw [same]
    exact ⟨rfl, rfl, rfl, rfl, rfl, rfl, rfl, rfl⟩

theorem Ready.node (ready : Ready pool r p) : p.current.node = (pool.partThrds r.t).node := by
  cases ready with
  | kept _ node same => rw [same]; exact node
  | anew _ same => rw [same]
  | restarted _ _ same => rw [same]

theorem int16_lt (value : Int) : int16 value < 2 ^ 15 := by
  unfold int16
  omega

theorem putBack_lt (t : Nat) (slot : Slot) (rest : List Nat) (numToRel : Nat)
    (myUse : Nat → Int) (high : ∀ i < pool.totalThreads, myUse i < 2 ^ 15) :
    ∀ i < pool.totalThreads, (putBack pool t slot rest numToRel myUse).2 i < 2 ^ 15 := by
  induction rest generalizing numToRel myUse with
  | nil => exact high
  | cons tt rest next =>
    rw [putBack_cons]
    split
    · exact high
    · split
      · apply next
        intro i inPool
        rw [update_apply]
        split
        · exact int16_lt _
        · exact high i inPool
      · exact next numToRel myUse high

theorem putBack_once (t : Nat) (slot : Slot) (rest : List Nat) (numToRel : Nat)
    (myUse : Nat → Int) (once : (rest.map (backIndex pool t)).Nodup) (i : Nat) :
    (i ∉ rest.map (backIndex pool t) → (putBack pool t slot rest numToRel myUse).2 i = myUse i) ∧
    ((putBack pool t slot rest numToRel myUse).2 i = myUse i ∨
      (pool.partThrds i).inSlot slot = true ∧
        (putBack pool t slot rest numToRel myUse).2 i = int16 (myUse i - 1)) := by
  induction rest generalizing numToRel myUse with
  | nil => exact ⟨fun _ => rfl, .inl rfl⟩
  | cons tt rest next =>
    rw [map_cons, nodup_cons] at once
    rw [putBack_cons]
    split
    · exact ⟨fun _ => rfl, .inl rfl⟩
    split
    · rename_i inside
      have step := next (numToRel - 1)
        (update myUse (backIndex pool t tt) (int16 (myUse (backIndex pool t tt) - 1))) once.2
      by_cases here : i = backIndex pool t tt
      · have unchanged := step.1 (here ▸ once.1)
        rw [here, update_self] at unchanged
        rw [here]
        exact ⟨fun absent => absurd mem_cons_self absent, .inr ⟨inside, unchanged⟩⟩
      · rw [update_of_ne here] at step
        exact ⟨fun absent => step.1 (fun member => absent (mem_cons_of_mem _ member)), step.2⟩
    · have step := next numToRel myUse once.2
      exact ⟨fun absent => step.1 (fun member => absent (mem_cons_of_mem _ member)), step.2⟩

/-! ## One iteration -/

/-- Whether the HW-thread `r.t` is taken. -/
def takes (hwStatus : Nat → Nat) (spec : SlotSpec) (pool : ThreadPool) (r : Collect) : Bool :=
  let node := (pool.partThrds r.t).node
  decide (r.myUse r.t ≤ r.minUsed) && hwFits hwStatus spec.hwType node &&
    !decide (spec.ppn ≠ 0 ∧ r.procsPerNode node ≥ spec.ppn) &&
    !decide (spec.options.nodeFirst ∧ r.roundGot ≠ 0 ∧ r.slots.getLast?.map Slot.node = some node)

/-- What makes a HW-thread be taken. -/
structure Wanted (hwStatus : Nat → Nat) (spec : SlotSpec) (pool : ThreadPool)
    (r : Collect) : Prop where
  free : r.myUse r.t ≤ r.minUsed
  fits : hwFits hwStatus spec.hwType (pool.partThrds r.t).node = true
  limit : spec.ppn ≠ 0 → r.procsPerNode (pool.partThrds r.t).node < spec.ppn
  other : ¬ (spec.options.nodeFirst ∧ r.roundGot ≠ 0 ∧
    r.slots.getLast?.map Slot.node = some (pool.partThrds r.t).node)

theorem takes_iff : takes hwStatus spec pool r = true ↔ Wanted hwStatus spec pool r := by
  rw [takes]
  simp only [Bool.and_eq_true, decide_eq_true_eq, Bool.not_eq_true', decide_eq_false_iff_not]
  constructor
  · rintro ⟨⟨⟨free, fits⟩, limit⟩, other⟩
    exact ⟨free, fits,
      fun some_ => not_le.mp (fun more => limit ⟨some_, more⟩), other⟩
  · intro usable
    exact ⟨⟨⟨usable.free, usable.fits⟩,
      fun both => absurd both.2 (not_le.mpr (usable.limit both.1))⟩,
      usable.other⟩

/-- What the rest of the body does with the HW-thread `r.t`. -/
inductive Visit (hwStatus : Nat → Nat) (spec : SlotSpec) (pool : ThreadPool)
    (r c' : Collect) : Prop where
  | skipped (nextMinUsed : Int) (idle : takes hwStatus spec pool r = false)
      (least : nextMinUsed = r.nextMinUsed ∨ r.roundGot ≠ 0)
      (same : c' = { r with nextMinUsed := nextMinUsed })
  | took (p : Collect) (busy : takes hwStatus spec pool r = true)
      (ready : Ready pool r p) (same : c' = takeThread spec pool p)

theorem tryThread_taking (busy : takes hwStatus spec pool r = true) :
    tryThread hwStatus spec pool r = (prepareSlot pool r).map (takeThread spec pool) := by
  have usable := takes_iff.mp busy
  unfold tryThread
  simp only
  rw [if_neg (not_lt.mpr usable.free), usable.fits, if_neg (by simp),
    if_neg (fun both => absurd both.2 (not_le.mpr (usable.limit both.1))),
    if_neg usable.other]

theorem tryThread_idle (idle : takes hwStatus spec pool r = false) :
    ∃ nextMinUsed, (nextMinUsed = r.nextMinUsed ∨ r.roundGot ≠ 0) ∧
      tryThread hwStatus spec pool r = some { r with nextMinUsed := nextMinUsed } := by
  unfold tryThread
  simp only
  split
  · exact ⟨r.nextMinUsed, .inl rfl, rfl⟩
  rename_i free
  split
  · exact ⟨r.nextMinUsed, .inl rfl, rfl⟩
  rename_i fits
  split
  · exact ⟨r.nextMinUsed, .inl rfl, rfl⟩
  rename_i limit
  split
  · rename_i again
    exact ⟨_, .inr again.2.1, rfl⟩
  · rename_i other
    have usable : Wanted hwStatus spec pool r := by
      refine ⟨not_lt.mp free, ?_, ?_, other⟩
      · cases fit : hwFits hwStatus spec.hwType (pool.partThrds r.t).node with
        | true => rfl
        | false =>
          rw [fit] at fits
          exact absurd rfl fits
      · intro some_
        exact not_le.mp (fun more => limit ⟨some_, more⟩)
    exact absurd (idle.symm.trans (takes_iff.mpr usable)) Bool.false_ne_true

theorem tryThread_visit {c' : Collect}
    (result : tryThread hwStatus spec pool r = some c') :
    Visit hwStatus spec pool r c' := by
  cases busy : takes hwStatus spec pool r with
  | false =>
    obtain ⟨nextMinUsed, least, skipped⟩ := tryThread_idle busy
    exact Visit.skipped nextMinUsed busy least (Option.some.inj (result.symm.trans skipped))
  | true =>
    rw [tryThread_taking busy] at result
    rcases Option.map_eq_some_iff.mp result with ⟨p, prepared, same⟩
    exact Visit.took p busy (prepareSlot_ready prepared) same.symm

/-- A slot is completed with the HW-thread taken, or not yet. -/
inductive Taking (spec : SlotSpec) (pool : ThreadPool) (p c' : Collect) :
    Prop where
  | completed (full : p.thrdsGot + 1 = spec.tpp)
      (same : c' = { p with
        current := ⟨p.current.node, insert (pool.partThrds p.t).id p.current.cpuSet⟩
        myUse := update p.myUse p.t (int16 (p.myUse p.t + 1))
        procsPerNode :=
          if spec.ppn ≠ 0 then
            update p.procsPerNode (pool.partThrds p.t).node
              (p.procsPerNode (pool.partThrds p.t).node + 1)
          else p.procsPerNode
        slots := p.slots ++ [⟨p.current.node, insert (pool.partThrds p.t).id p.current.cpuSet⟩]
        got := p.got + 1, roundGot := p.roundGot + 1, thrdsGot := 0 })
  | going (less : p.thrdsGot + 1 ≠ spec.tpp)
      (same : c' = { p with
        current := ⟨p.current.node, insert (pool.partThrds p.t).id p.current.cpuSet⟩
        myUse := update p.myUse p.t (int16 (p.myUse p.t + 1))
        thrdsGot := p.thrdsGot + 1 })

theorem takeThread_cases (p : Collect) : Taking spec pool p (takeThread spec pool p) := by
  simp only [takeThread]
  split
  · rename_i full
    exact Taking.completed full rfl
  · rename_i less
    exact Taking.going less rfl

/-! ## The first loop -/

theorem scanStep_nextMinUsed (scan : Scan) (t : Nat) :
    (scanStep hwStatus spec pool scan t).nextMinUsed =
      if hwFits hwStatus spec.hwType (pool.partThrds t).node = true ∧
          (pool.partThrds t).timesUsed < scan.nextMinUsed then
        (pool.partThrds t).timesUsed
      else scan.nextMinUsed := by
  simp only [scanStep]
  cases hwFits hwStatus spec.hwType (pool.partThrds t).node with
  | false => rfl
  | true =>
    simp only [Bool.not_true, Bool.false_eq_true, if_false, true_and]
    split <;> split <;> rfl

theorem scan_nextMinUsed_le (scan : Scan) (threads : List Nat) :
    (threads.foldl (scanStep hwStatus spec pool) scan).nextMinUsed ≤ scan.nextMinUsed ∧
      ∀ t ∈ threads, hwFits hwStatus spec.hwType (pool.partThrds t).node = true →
          (threads.foldl (scanStep hwStatus spec pool) scan).nextMinUsed ≤
            (pool.partThrds t).timesUsed := by
  induction threads generalizing scan with
  | nil => exact ⟨le_refl _, fun _ member => nomatch member⟩
  | cons first rest next =>
    obtain ⟨below, least⟩ := next (scanStep hwStatus spec pool scan first)
    rw [foldl_cons]
    have step := @scanStep_nextMinUsed hwStatus spec pool scan first
    constructor
    · refine le_trans below ?_
      rw [step]
      split <;> omega
    · intro t member fits
      rcases mem_cons.mp member with here | later
      · refine le_trans below ?_
        rw [here] at fits ⊢
        rw [step]
        split
        · exact le_refl _
        · rename_i higher
          exact not_lt.mp (fun less => higher ⟨fits, less⟩)
      · exact least t later fits

theorem scanThreads_least {t : Nat} (inPool : t < pool.totalThreads)
    (fits : hwFits hwStatus spec.hwType (pool.partThrds t).node = true) :
    (scanThreads hwStatus spec pool).nextMinUsed ≤ (pool.partThrds t).timesUsed :=
  (scan_nextMinUsed_le _ _).2 t (mem_range.mpr inPool) fits

end Walk

end Psmgmt.Partition
