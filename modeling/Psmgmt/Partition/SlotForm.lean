import Psmgmt.Partition.SlotWalk

/-!
# The slots `createSlots()` delivers

Each slot has as many HW-threads as asked for unless one of them is taken twice
before the slot is complete.
-/

namespace Psmgmt.Partition

open List Function Option

variable {r p c c' start : Collect} {spoiled : Bool} {mod fuel : Nat}

section Form

variable (hwStatus : Nat → Nat) (spec : SlotSpec) (pool : ThreadPool)

structure OfNode (slot : Slot) : Prop where
  fits : hwFits hwStatus spec.hwType slot.node = true
  threads : ∀ cpu ∈ slot.cpuSet, ∃ i < pool.totalThreads,
    (pool.partThrds i).node = slot.node ∧ (pool.partThrds i).id = cpu

/-- What a call of `createSlots()` is to deliver. -/
structure Delivered (fuel : Nat) (dryRun : Bool)
    (result : List Slot × ThreadPool) : Prop where
  threads : ∀ slot ∈ result.1, slot.cpuSet.card = spec.tpp
  ofNode : ∀ slot ∈ result.1, OfNode hwStatus spec pool slot
  limit : spec.ppn ≠ 0 → ∀ node, result.1.countP (fun slot => slot.node = node) ≤ spec.ppn
  unused : spec.options.overbook = false → ∀ slot ∈ result.1,
    ∀ i < pool.totalThreads, (pool.partThrds i).inSlot slot = true →
      (pool.partThrds i).timesUsed = 0
  apart : spec.options.overbook = false → ∀ i < pool.totalThreads,
    hits (pool.partThrds i) result.1 ≤ 1
  unchanged : dryRun = true ∨ result.1.length < spec.np → result.2 = pool
  again : ∀ dryRun, ∃ after, createSlots hwStatus
    { spec with np := result.1.length } pool fuel dryRun = some (result.1, after)

/-- Whether the slot holds a HW-thread taken twice once `r.t` is taken. -/
def spoils (r : Collect) (spoiled : Bool) : Bool :=
  if r.thrdsGot = 0 ∨ (pool.partThrds r.t).node ≠ r.current.node then false
  else spoiled || (pool.partThrds r.t).inSlot r.current

/-- No slot is completed after a HW-thread was taken for it twice. -/
def NeverSpoiled (mod : Nat) : Nat → Collect → Bool → Prop
  | 0, _, _ => True
  | fuel + 1, c, spoiled =>
    c.t < pool.totalThreads → c.got < spec.np → ∀ r c', startRound spec c = some r →
        tryThread hwStatus spec pool r = some c' →
          let spoiled :=
            if takes hwStatus spec pool r then spoils pool r spoiled
            else spoiled
          (c'.got ≠ r.got → spoiled = false) ∧
            NeverSpoiled mod fuel { c' with t := (c'.t + 1) % mod } spoiled

/-- The condition on the collection of slots as a whole. -/
def CreatesUnspoiled (fuel : Nat) : Prop :=
  ∀ start, collectStart hwStatus spec pool = some start → NeverSpoiled hwStatus spec pool
      (pool.totalThreads +
        if spec.options.overbook || spec.options.nodeFirst then 0 else 1)
      fuel start false

variable {hwStatus : Nat → Nat} {spec : SlotSpec} {pool : ThreadPool}

/-! ## The slots collected -/

/-- The slots collected so far and the one at hand. -/
structure Walk (hwStatus : Nat → Nat) (spec : SlotSpec) (pool : ThreadPool)
    (c : Collect) (spoiled : Bool) : Prop where
  count : c.thrdsGot ≠ 0 →
    if spoiled then c.current.cpuSet.card < c.thrdsGot
    else c.current.cpuSet.card = c.thrdsGot
  current : c.thrdsGot ≠ 0 → OfNode hwStatus spec pool c.current
  slots : ∀ slot ∈ c.slots, OfNode hwStatus spec pool slot
  procs : spec.ppn ≠ 0 → ∀ node, c.procsPerNode node =
    c.slots.countP (fun slot => slot.node = node) ∧ c.procsPerNode node ≤ spec.ppn

structure Base (hwStatus : Nat → Nat) (spec : SlotSpec) (pool : ThreadPool)
    (r p : Collect) (spoiled : Bool) : Prop where
  count : (if spoils pool r spoiled = true then
      (insert (pool.partThrds r.t).id p.current.cpuSet).card < p.thrdsGot + 1
    else (insert (pool.partThrds r.t).id p.current.cpuSet).card = p.thrdsGot + 1)
  threads : ∀ cpu ∈ p.current.cpuSet, ∃ i < pool.totalThreads,
    (pool.partThrds i).node = p.current.node ∧ (pool.partThrds i).id = cpu

theorem Ready.base (ready : Ready pool r p)
    (walk : Walk hwStatus spec pool r spoiled) :
    Base hwStatus spec pool r p spoiled := by
  cases ready with
  | kept begun node same =>
    have count := walk.count begun
    rw [same]
    refine ⟨?_, (walk.current begun).threads⟩
    have inside : (pool.partThrds r.t).inSlot r.current =
        decide ((pool.partThrds r.t).id ∈ r.current.cpuSet) := by
      rw [HWThread.inSlot]
      simp only [node, true_and]
    have value : spoils pool r spoiled =
        (spoiled || decide ((pool.partThrds r.t).id ∈ r.current.cpuSet)) := by
      rw [← inside]
      apply if_neg
      rintro (first | apart)
      · exact begun first
      · exact apart node.symm
    rw [value]
    by_cases member : (pool.partThrds r.t).id ∈ r.current.cpuSet
    · rw [Finset.insert_eq_of_mem member, decide_eq_true member, Bool.or_true, if_pos rfl]
      split at count <;> omega
    · rw [Finset.card_insert_of_notMem member, decide_eq_false member, Bool.or_false]
      split at count
      · rename_i bad
        rw [if_pos bad]
        omega
      · rename_i good
        rw [if_neg good]
        omega
  | anew first same =>
    have fresh : spoils pool r spoiled = false := if_pos (.inl first)
    rw [same]
    refine ⟨?_, fun cpu member => absurd member (Finset.notMem_empty cpu)⟩
    rw [fresh, if_neg Bool.false_ne_true]
    change Finset.card (insert _ ∅) = r.thrdsGot + 1
    rw [first]
    exact Finset.card_singleton _
  | restarted begun apart same =>
    have fresh : spoils pool r spoiled = false := if_pos (.inr apart)
    rw [same]
    refine ⟨?_, fun cpu member => absurd member (Finset.notMem_empty cpu)⟩
    rw [fresh, if_neg Bool.false_ne_true]
    exact Finset.card_singleton _

theorem startRound_walk (walk : Walk hwStatus spec pool c spoiled)
    (started : startRound spec c = some r) :
    Walk hwStatus spec pool r spoiled ∧ r.t = c.t ∧ r.got = c.got ∧ r.slots = c.slots := by
  unfold startRound at started
  simp only at started
  split at started
  · cases started
    exact ⟨walk, rfl, rfl, rfl⟩
  · split at started
    · cases started
    · split at started
      · cases started
      · cases started
        exact ⟨⟨walk.count, walk.current, walk.slots, walk.procs⟩,
          rfl, rfl, rfl⟩

/-- The slot with the HW-thread taken. -/
def grown (pool : ThreadPool) (p : Collect) : Slot :=
  ⟨p.current.node, insert (pool.partThrds p.t).id p.current.cpuSet⟩

theorem Base.grown (base : Base hwStatus spec pool r p spoiled)
    (ready : Ready pool r p) (bound : r.t < pool.totalThreads)
    (fits : hwFits hwStatus spec.hwType (pool.partThrds r.t).node = true) :
    OfNode hwStatus spec pool (grown pool p) := by
  have node := ready.node
  constructor
  · change hwFits hwStatus spec.hwType p.current.node = true
    rw [node]
    exact fits
  · intro cpu member
    change cpu ∈ insert (pool.partThrds p.t).id p.current.cpuSet at member
    rw [ready.sameWalk.t] at member
    rcases Finset.mem_insert.mp member with here | earlier
    · exact ⟨r.t, bound, node.symm, here.symm⟩
    · exact base.threads cpu earlier

/-- What an iteration does to the slots. -/
structure Walked (hwStatus : Nat → Nat) (spec : SlotSpec) (pool : ThreadPool)
    (r c' : Collect) (spoiled : Bool) : Prop where
  walk : Walk hwStatus spec pool c' spoiled
  slots : c'.got = r.got ∧ c'.slots = r.slots ∨
    c'.got = r.got + 1 ∧ ∃ slot, c'.slots = r.slots ++ [slot] ∧
      (slot.cpuSet.card = spec.tpp ↔ spoiled = false)

theorem Walked.complete (walked : Walked hwStatus spec pool r c' spoiled) :
    (∀ slot ∈ c'.slots, slot.cpuSet.card = spec.tpp) ↔
      (∀ slot ∈ r.slots, slot.cpuSet.card = spec.tpp) ∧ (c'.got ≠ r.got → spoiled = false) := by
  rcases walked.slots with ⟨got, slots⟩ | ⟨got, slot, slots, card⟩
  · rw [slots]
    exact ⟨fun all => ⟨all, fun more => absurd got more⟩, fun both => both.1⟩
  · rw [slots]
    constructor
    · intro all
      refine ⟨fun slot member => all slot (mem_append_left _ member), ?_⟩
      intro _
      exact card.mp (all slot (mem_append_right _ mem_cons_self))
    · rintro ⟨earlier, clean⟩ other member
      rcases mem_append.mp member with before | here
      · exact earlier other before
      · rw [mem_singleton.mp here]
        exact card.mpr (clean (by omega))

theorem tryThread_walked (walk : Walk hwStatus spec pool r spoiled)
    (bound : r.t < pool.totalThreads) (result : tryThread hwStatus spec pool r = some c') :
    Walked hwStatus spec pool r c'
      (if takes hwStatus spec pool r then spoils pool r spoiled
        else spoiled) := by
  cases tryThread_visit result with
  | skipped nextMinUsed idle _ same =>
    rw [idle, if_neg Bool.false_ne_true, same]
    exact ⟨⟨walk.count, walk.current, walk.slots, walk.procs⟩, .inl ⟨rfl, rfl⟩⟩
  | took p busy ready same =>
    rw [busy, if_pos rfl]
    have wanted := takes_iff.mp busy
    have base := ready.base walk
    have formed := base.grown ready bound wanted.fits
    have kept := ready.sameWalk
    have count := base.count
    rw [← kept.t] at count
    have takenNode : (pool.partThrds p.t).node = p.current.node := by
      rw [kept.t]
      exact ready.node.symm
    rw [same]
    cases @takeThread_cases spec pool p with
    | completed full taken =>
      rw [taken]
      refine ⟨⟨fun begun => absurd rfl begun, fun begun => absurd rfl begun,
        ?_, ?_⟩, .inr ⟨congrArg (· + 1) kept.got, grown pool p, ?_, ?_⟩⟩
      · intro slot member
        rcases mem_append.mp member with earlier | here
        · rw [kept.slots] at earlier
          exact walk.slots slot earlier
        · exact mem_singleton.mp here ▸ formed
      · intro some_ node
        obtain ⟨same, most⟩ := walk.procs some_ node
        have room := wanted.limit some_
        dsimp only
        rw [if_pos some_, update_apply, countP_append,
          kept.slots, kept.procsPerNode, countP_singleton,
          ← takenNode, kept.t]
        by_cases here : node = (pool.partThrds r.t).node
        · rw [if_pos here, if_pos (decide_eq_true here.symm), ← here, same]
          rw [← here] at room
          exact ⟨rfl, by omega⟩
        · rw [if_neg here, if_neg (by
            rw [decide_eq_true_eq]
            exact fun other => here other.symm)]
          exact ⟨same, most⟩
      · rw [← kept.slots]
        rfl
      · change Finset.card (insert _ _) = spec.tpp ↔ _
        split at count
        · rename_i bad
          rw [bad]
          constructor
          · intro card
            omega
          · intro never
            cases never
        · rename_i good
          rw [Bool.eq_false_iff.mpr good]
          exact ⟨fun _ => rfl, fun _ => count.trans full⟩
    | going less taken =>
      rw [taken]
      refine ⟨⟨fun _ => count, fun _ => formed, ?_, ?_⟩, .inl ⟨kept.got, kept.slots⟩⟩
      · intro slot member
        exact walk.slots slot (kept.slots ▸ member)
      · intro some_ node
        have procs := walk.procs some_ node
        rw [← kept.procsPerNode, ← kept.slots] at procs
        exact procs

theorem Walk.move (walk : Walk hwStatus spec pool c spoiled) (t : Nat) :
    Walk hwStatus spec pool { c with t := t } spoiled :=
  ⟨walk.count, walk.current, walk.slots, walk.procs⟩

/-- All slots are complete just if none was spoiled when it was completed. -/
theorem collect_unspoiled (walk : Walk hwStatus spec pool c spoiled)
    (result : collect hwStatus spec pool mod fuel c = some c') :
    ((∀ slot ∈ c'.slots, slot.cpuSet.card = spec.tpp) ↔
      (∀ slot ∈ c.slots, slot.cpuSet.card = spec.tpp) ∧
        NeverSpoiled hwStatus spec pool mod fuel c spoiled) ∧
      ∃ spoiled, Walk hwStatus spec pool c' spoiled := by
  induction fuel generalizing c spoiled with
  | zero => cases result
  | succ fuel next =>
    rw [collect] at result
    rw [NeverSpoiled]
    by_cases going : c.t < pool.totalThreads ∧ c.got < spec.np
    · rw [if_pos going, collectBody] at result
      rcases started : startRound spec c with _ | r
      · rw [started] at result
        cases result
        exact ⟨⟨fun all => ⟨all, fun _ _ _ _ never => absurd never (by simp)⟩,
          fun both => both.1⟩, spoiled, walk⟩
      · rw [started] at result
        obtain ⟨round, t, got, slots⟩ := startRound_walk walk started
        rcases tried : tryThread hwStatus spec pool r with _ | step
        · rw [bind_some, tried] at result
          cases result
          constructor
          · constructor
            · intro all
              refine ⟨all, fun _ _ r' c' same never => ?_⟩
              cases Option.some.inj same
              cases tried.symm.trans never
            · intro both
              exact both.1
          · exact ⟨spoiled, walk⟩
        · rw [bind_some, tried] at result
          have walked := tryThread_walked round (t ▸ going.1) tried
          obtain ⟨same, last⟩ := next (walked.walk.move _) result
          refine ⟨same.trans ?_, last⟩
          have slotsIff := walked.complete
          rw [slots] at slotsIff
          constructor
          · rintro ⟨all, never⟩
            obtain ⟨earlier, clean⟩ := slotsIff.mp all
            refine ⟨earlier, fun _ _ r' c' same tried' => ?_⟩
            cases Option.some.inj same
            cases Option.some.inj (tried.symm.trans tried')
            exact ⟨clean, never⟩
          · rintro ⟨earlier, never⟩
            obtain ⟨clean, never⟩ := never going.1 going.2 r step rfl tried
            exact ⟨slotsIff.mpr ⟨earlier, clean⟩, never⟩
    · rw [if_neg going] at result
      cases result
      constructor
      · constructor
        · intro all
          exact ⟨all, fun bound less => absurd ⟨bound, less⟩ going⟩
        · intro both
          exact both.1
      · exact ⟨spoiled, walk⟩

/-! ## Without over-booking -/

/-- No HW-thread that fits is given back more often than taken. -/
def Unowed (hwStatus : Nat → Nat) (spec : SlotSpec) (pool : ThreadPool) :
    Prop :=
  ∀ i < pool.totalThreads,
    hwFits hwStatus spec.hwType (pool.partThrds i).node = true → 0 ≤ (pool.partThrds i).timesUsed

/-- How often the slots collected and the one at hand hold a HW-thread. -/
def held (pool : ThreadPool) (c : Collect) (i : Nat) : Nat :=
  hits (pool.partThrds i) c.slots +
    if c.thrdsGot ≠ 0 ∧ (pool.partThrds i).inSlot c.current = true then 1
    else 0

/-- Each HW-thread held is held once and not in use otherwise. -/
structure Spare (hwStatus : Nat → Nat) (spec : SlotSpec) (pool : ThreadPool)
    (holds : Nat → Nat) (myUse : Nat → Int) : Prop where
  used : ∀ i < pool.totalThreads, hwFits hwStatus spec.hwType (pool.partThrds i).node = true →
      (pool.partThrds i).timesUsed + holds i ≤ myUse i
  once : ∀ i < pool.totalThreads, holds i ≤ 1 ∧ (holds i = 1 → (pool.partThrds i).timesUsed = 0)
  high : ∀ i < pool.totalThreads, myUse i < 2 ^ 15

/-- How often a HW-thread is held once a slot is prepared. -/
def heldReady (pool : ThreadPool) (p : Collect) (i : Nat) : Nat :=
  hits (pool.partThrds i) p.slots +
    if (pool.partThrds i).inSlot p.current = true then 1 else 0

theorem Ready.spare (ready : Ready pool r p) (bound : r.t < pool.totalThreads)
    (low : Unowed hwStatus spec pool) (spare : Spare hwStatus spec pool (held pool r) r.myUse) :
    Spare hwStatus spec pool (heldReady pool p) p.myUse ∧ p.myUse r.t = r.myUse r.t := by
  cases ready with
  | kept begun node same =>
    have same' : heldReady pool p = held pool r := by
      funext i
      rw [heldReady, held, same]
      simp only [begun, ne_eq, not_false_eq_true, true_and]
    rw [same', same]
    exact ⟨spare, rfl⟩
  | anew first same =>
    have same' : heldReady pool p = held pool r := by
      funext i
      rw [heldReady, held, same, not_inSlot_empty,
        if_neg Bool.false_ne_true, if_neg (fun both => both.1 first)]
    rw [same', same]
    exact ⟨spare, rfl⟩
  | restarted begun apart same =>
    have back := putBack_once r.t r.current (List.range' 1 (pool.totalThreads - 1))
      r.current.cpuSet.card r.myUse (backIndex_nodup bound)
    have fewer : ∀ i, heldReady pool p i ≤ held pool r i := by
      intro i
      rw [heldReady, held, same, not_inSlot_empty, if_neg Bool.false_ne_true]
      exact Nat.le_add_right _ _
    have gone : ∀ i, (pool.partThrds i).inSlot r.current = true →
        heldReady pool p i + 1 = held pool r i := by
      intro i inside
      rw [heldReady, held, same, not_inSlot_empty,
        if_neg Bool.false_ne_true, if_pos ⟨begun, inside⟩]
    have use : p.myUse = (putBack pool r.t r.current
        (List.range' 1 (pool.totalThreads - 1)) r.current.cpuSet.card
        r.myUse).2 := by
      rw [same]
    rw [use]
    refine ⟨⟨?_, ?_, putBack_lt _ _ _ _ _ spare.high⟩, ?_⟩
    · intro i inPool fits
      have used := spare.used i inPool fits
      have high := spare.high i inPool
      have least := low i inPool fits
      rcases (back i).2 with unchanged | ⟨inside, less⟩
      · have held := fewer i
        rw [unchanged]
        omega
      · have held := gone i inside
        rw [less, int16_of_bound (by omega) (by omega)]
        omega
    · intro i inPool
      have once := spare.once i inPool
      have held := fewer i
      exact ⟨by omega, fun one => once.2 (by omega)⟩
    · rcases (back r.t).2 with unchanged | ⟨inside, _⟩
      · exact unchanged
      · exact absurd (inSlot_iff.mp inside).1.symm apart

/-- A HW-thread that is taken joins its slot. -/
theorem takeThread_held (distinct : Distinct pool) {p : Collect} (bound : p.t < pool.totalThreads)
    (node : p.current.node = (pool.partThrds p.t).node) {i : Nat} (inPool : i < pool.totalThreads) :
    (i ≠ p.t → held pool (takeThread spec pool p) i = heldReady pool p i) ∧
      (heldReady pool p p.t = 0 → held pool (takeThread spec pool p) p.t = 1) := by
  have there : (pool.partThrds p.t).inSlot (grown pool p) = true :=
    inSlot_iff.mpr ⟨node, Finset.mem_insert_self _ _⟩
  have elsewhere : i ≠ p.t → ((pool.partThrds i).inSlot (grown pool p) = true ↔
      (pool.partThrds i).inSlot p.current = true) := by
    intro other
    rw [inSlot_iff, inSlot_iff]
    constructor
    · rintro ⟨same, member⟩
      refine ⟨same, ?_⟩
      rcases Finset.mem_insert.mp member with here | earlier
      · exact absurd (distinct i inPool p.t bound (same.symm.trans node) here) other
      · exact earlier
    · rintro ⟨same, member⟩
      exact ⟨same, Finset.mem_insert_of_mem member⟩
  have value : ∀ j, held pool (takeThread spec pool p) j = hits (pool.partThrds j) p.slots +
        if (pool.partThrds j).inSlot (grown pool p) = true then 1 else 0 := by
    intro j
    cases @takeThread_cases spec pool p with
    | completed full taken =>
      rw [taken, held]
      dsimp only
      rw [hits_append, hits_cons, hits_nil, Nat.zero_add]
      simp only [ne_eq, not_true_eq_false, false_and, if_false, Nat.add_zero]
      rfl
    | going less taken =>
      rw [taken, held]
      dsimp only
      simp only [ne_eq, Nat.add_one_ne_zero, not_false_eq_true, true_and]
      rfl
  rw [value, value, heldReady, heldReady]
  constructor
  · intro other
    simp only [elsewhere other]
  · intro none_
    rw [if_pos there]
    omega

theorem takeThread_myUse (p : Collect) :
    (takeThread spec pool p).myUse = update p.myUse p.t (int16 (p.myUse p.t + 1)) := by
  cases @takeThread_cases spec pool p with
  | completed _ taken => rw [taken]
  | going _ taken => rw [taken]

theorem takeThread_minUsed (p : Collect) :
    (takeThread spec pool p).minUsed = p.minUsed ∧ (takeThread spec pool p).t = p.t := by
  cases @takeThread_cases spec pool p with
  | completed _ taken => rw [taken]; exact ⟨rfl, rfl⟩
  | going _ taken => rw [taken]; exact ⟨rfl, rfl⟩

theorem tryThread_spare (distinct : Distinct pool) (low : Unowed hwStatus spec pool)
    (bound : r.t < pool.totalThreads) (least : r.minUsed = 0)
    (spare : Spare hwStatus spec pool (held pool r) r.myUse)
    (result : tryThread hwStatus spec pool r = some c') :
    Spare hwStatus spec pool (held pool c') c'.myUse ∧ c'.minUsed = 0 ∧ c'.t = r.t := by
  cases tryThread_visit result with
  | skipped nextMinUsed idle _ same =>
    rw [same]
    exact ⟨spare, least, rfl⟩
  | took p busy ready same =>
    have wanted := takes_iff.mp busy
    have kept := ready.sameWalk
    obtain ⟨before, here⟩ := ready.spare bound low spare
    have inPool : p.t < pool.totalThreads := kept.t ▸ bound
    have node : p.current.node = (pool.partThrds p.t).node := by
      rw [kept.t]
      exact ready.node
    have free := wanted.free
    have fits := wanted.fits
    rw [← kept.t] at here fits free
    have used := before.used p.t inPool fits
    have unused := low p.t inPool fits
    rw [least] at free
    have none_ : heldReady pool p p.t = 0 := by omega
    have zero : p.myUse p.t = 0 := by omega
    have taken : ∀ i, (takeThread spec pool p).myUse i =
        if i = p.t then 1 else p.myUse i := by
      intro i
      rw [takeThread_myUse, update_apply, zero]
      rfl
    have others := @takeThread_minUsed spec pool p
    rw [same]
    refine ⟨⟨?_, ?_, ?_⟩, others.1.trans (kept.minUsed.trans least), others.2.trans kept.t⟩
    · intro i bound fits
      have step := @takeThread_held spec pool distinct p inPool node i bound
      have earlier := before.used i bound fits
      rw [taken]
      by_cases there : i = p.t
      · rw [if_pos there, there, step.2 none_]
        omega
      · rw [if_neg there, step.1 there]
        exact earlier
    · intro i bound
      have step := @takeThread_held spec pool distinct p inPool node i bound
      have earlier := before.once i bound
      by_cases there : i = p.t
      · rw [there, step.2 none_]
        exact ⟨le_refl 1, fun _ => by omega⟩
      · rw [step.1 there]
        exact earlier
    · intro i bound
      rw [taken]
      split
      · omega
      · exact before.high i bound

theorem startRound_same_use {c r : Collect}
    (started : startRound spec c = some r) :
    held pool r = held pool c ∧ r.myUse = c.myUse ∧ r.t = c.t := by
  have same := startRound_same started
  refine ⟨?_, same.myUse, same.t⟩
  funext i
  rw [held, held, same.slots, same.thrdsGot, same.current]

theorem collect_spare (distinct : Distinct pool)
    (low : Unowed hwStatus spec pool)
    (plain : spec.options.overbook = false) (unused : Unused spec c)
    (spare : Spare hwStatus spec pool (held pool c) c.myUse)
    (result : collect hwStatus spec pool
      (pool.totalThreads +
        if spec.options.overbook || spec.options.nodeFirst then 0 else 1)
      fuel c = some c') : Spare hwStatus spec pool (held pool c') c'.myUse := by
  induction fuel generalizing c with
  | zero => exact nomatch result
  | succ fuel next =>
    rw [collect] at result
    split at result
    · rename_i going
      split at result
      · cases result
        exact spare
      · rename_i step body
        rcases bind_eq_some_iff.mp body with ⟨r, started, tried⟩
        have least := startRound_unused plain unused started
        obtain ⟨holds, use, t⟩ := @startRound_same_use spec pool _ _ started
        rw [← holds, ← use] at spare
        obtain ⟨spare, least, same⟩ := tryThread_spare distinct low (t ▸ going.1) least spare tried
        refine next (c := { step with
            t := (step.t + 1) % (pool.totalThreads +
              if spec.options.overbook || spec.options.nodeFirst then 0
              else 1) }) ⟨least, ?_⟩ spare result
        -- without `nodeFirst` no second round is started
        intro nodeFirst first
        simp only [plain, nodeFirst, Bool.or_self, Bool.false_eq_true, if_false] at first
        rw [same, t, Nat.mod_eq_of_lt (by omega)] at first
        cases first
    · cases result
      exact spare

/-! ## The call as a whole -/

theorem collect_prefix
    (result : collect hwStatus spec pool mod fuel c = some c') :
    c.slots <+: c'.slots := by
  induction fuel generalizing c with
  | zero => exact nomatch result
  | succ fuel next =>
    rw [collect] at result
    split at result
    · split at result
      · cases result
        exact prefix_refl _
      · rename_i step body
        rcases bind_eq_some_iff.mp body with ⟨r, started, tried⟩
        have same := startRound_same started
        refine List.IsPrefix.trans ?_ (next result)
        change c.slots <+: step.slots
        rw [← same.slots]
        cases tryThread_visit tried with
        | skipped _ _ _ same => rw [same]
        | took p _ ready same =>
          rw [same, ← ready.sameWalk.slots]
          cases @takeThread_cases spec pool p with
          | completed _ taken =>
            rw [taken]
            exact prefix_append _ _
          | going _ taken => rw [taken]
    · cases result
      exact prefix_refl _

/-- Asked for the slots found before, the loop finds the same. -/
theorem collect_same (length : c.slots.length = c.got)
    (result : collect hwStatus spec pool mod fuel c = some c') :
    ∃ c'', collect hwStatus { spec with np := c'.got } pool mod fuel c =
      some c'' ∧ c''.slots = c'.slots := by
  induction fuel generalizing c with
  | zero => exact nomatch result
  | succ fuel next =>
    have grows := collect_length result
    have part := collect_prefix result
    by_cases done : c.got = c'.got
    · refine ⟨c, ?_, ?_⟩
      · rw [collect, if_neg (fun going => absurd going.2 (by
          dsimp only
          omega))]
      · exact part.eq_of_length (by rw [grows.2 length, length, done])
    · have less : c.got < c'.got := by omega
      rw [collect] at result
      split at result
      · rename_i going
        split at result
        · cases result
          exact absurd rfl done
        · rename_i step body
          have body' : collectBody hwStatus { spec with np := c'.got } pool c = some step := body
          rw [collect_going ⟨going.1, less⟩ body']
          exact next ((collectBody_length body).2 length) result
      · cases result
        exact absurd rfl done

/-- The state the loop starts from. -/
structure Started (hwStatus : Nat → Nat) (spec : SlotSpec) (pool : ThreadPool)
    (start : Collect) : Prop where
  fresh : start.thrdsGot = 0 ∧ start.got = 0 ∧ start.slots = [] ∧
    start.roundGot = 0 ∧ start.fullRound = false
  myUse : start.myUse = fun t => (pool.partThrds t).timesUsed
  procs : start.procsPerNode = fun _ => 0
  first : start.t = (scanThreads hwStatus spec pool).first
  least : spec.options.overbook = false → (scanThreads hwStatus spec pool).nextMinUsed = 0
  tpp : spec.tpp ≤ (scanThreads hwStatus spec pool).maxTPP

theorem collectStart_started
    (started : collectStart hwStatus spec pool = some start) :
    Started hwStatus spec pool start := by
  unfold collectStart at started
  simp only at started
  split at started
  · cases started
  rename_i free
  split at started
  · cases started
  rename_i tpp
  cases started
  refine ⟨⟨rfl, rfl, rfl, rfl, rfl⟩, rfl, rfl, rfl, ?_, not_lt.mp tpp⟩
  intro plain
  by_contra used
  exact free ⟨used, by rw [plain]; rfl⟩

theorem Started.walk (started : Started hwStatus spec pool start) :
    Walk hwStatus spec pool start false := by
  obtain ⟨thrdsGot, _, slots, _⟩ := started.fresh
  refine ⟨fun begun => absurd thrdsGot begun, fun begun => absurd thrdsGot begun, ?_, ?_⟩
  · rw [slots]
    exact fun _ member => nomatch member
  · intro _ node
    rw [started.procs, slots]
    exact ⟨rfl, Nat.zero_le _⟩

theorem Started.low (started : Started hwStatus spec pool start)
    (plain : spec.options.overbook = false) :
    ∀ i < pool.totalThreads, hwFits hwStatus spec.hwType (pool.partThrds i).node = true →
        0 ≤ (pool.partThrds i).timesUsed := by
  intro i inPool fits
  have least := @scanThreads_least hwStatus spec pool i inPool fits
  rw [started.least plain] at least
  exact least

theorem Started.spare (grouped : Grouped pool)
    (started : Started hwStatus spec pool start) :
    Spare hwStatus spec pool (held pool start) start.myUse := by
  obtain ⟨thrdsGot, _, slots, _⟩ := started.fresh
  have none_ : ∀ i, held pool start i = 0 := by
    intro i
    rw [held, slots, hits_nil, if_neg (fun both => both.1 thrdsGot)]
  refine ⟨?_, ?_, ?_⟩
  · intro i _ _
    rw [none_, started.myUse]
    exact le_of_eq (Int.add_zero _)
  · intro i _
    rw [none_]
    exact ⟨Nat.zero_le _, fun one => nomatch one⟩
  · rw [started.myUse]
    exact grouped.high

/-- All slots have as many HW-threads as asked for just if none was spoiled. -/
theorem createSlots_unspoiled_iff {dryRun : Bool} {result : List Slot × ThreadPool}
    (created : createSlots hwStatus spec pool fuel dryRun = some result) :
    CreatesUnspoiled hwStatus spec pool fuel ↔ ∀ slot ∈ result.1, slot.cpuSet.card = spec.tpp := by
  cases createSlots_cases created with
  | nothing none_ equality =>
    rw [equality]
    exact ⟨fun _ _ member => (nomatch member),
      fun _ start started => nomatch none_.symm.trans started⟩
  | collected start c started run equality =>
    have begun := collectStart_started started
    have iff := (collect_unspoiled begun.walk run).1
    rw [equality, iff, begun.fresh.2.2.1]
    constructor
    · intro never
      exact ⟨fun _ member => (nomatch member), never start started⟩
    · rintro ⟨_, never⟩ start' started'
      cases Option.some.inj (started.symm.trans started')
      exact never

theorem createSlots_delivered (grouped : Grouped pool) {dryRun : Bool}
    {result : List Slot × ThreadPool}
    (created : createSlots hwStatus spec pool fuel dryRun = some result)
    (threads : ∀ slot ∈ result.1, slot.cpuSet.card = spec.tpp) :
    Delivered hwStatus spec pool fuel dryRun result := by
  cases createSlots_cases created with
  | nothing none_ equality =>
    rw [equality]
    refine ⟨fun _ member => (nomatch member), fun _ member => (nomatch member),
      fun _ _ => Nat.zero_le _, fun _ _ member => (nomatch member),
      fun _ _ _ => Nat.zero_le _, fun _ => rfl, ?_⟩
    intro dryRun
    have again : collectStart hwStatus
        { spec with np := ([] : List Slot).length } pool = none := none_
    exact ⟨pool, by rw [createSlots, again]⟩
  | collected start c started run equality =>
    have begun := collectStart_started started
    obtain ⟨spoiled, walk⟩ := (collect_unspoiled begun.walk run).2
    have none_ : start.slots.length = start.got := by
      rw [begun.fresh.2.2.1, begun.fresh.2.1]
      rfl
    have length := (collect_length run).2 none_
    have spare : spec.options.overbook = false →
        Spare hwStatus spec pool (held pool c) c.myUse := by
      intro plain
      have least := (collectStart_spec started).2.2.2.2 plain
      exact collect_spare grouped.distinct (begun.low plain) plain
        ⟨least.1, least.2⟩ (begun.spare grouped) run
    rw [equality] at threads ⊢
    refine ⟨threads, walk.slots, ?_, ?_, ?_, ?_, ?_⟩
    · intro some_ node
      have procs := walk.procs some_ node
      exact procs.1 ▸ procs.2
    · intro plain slot member i inPool inside
      have once := (spare plain).once i inPool
      have hit : 0 < hits (pool.partThrds i) c.slots := countP_pos_iff.mpr ⟨slot, member, inside⟩
      have holds : hits (pool.partThrds i) c.slots ≤ held pool c i := Nat.le_add_right _ _
      exact once.2 (by omega)
    · intro plain i inPool
      have once := (spare plain).once i inPool
      have holds : hits (pool.partThrds i) c.slots ≤ held pool c i := Nat.le_add_right _ _
      exact le_trans holds once.1
    · intro less
      apply if_neg
      rintro ⟨actual, full⟩
      rcases less with dry | few
      · rw [dry] at actual
        exact nomatch actual
      · dsimp only at few
        omega
    · intro dryRun
      obtain ⟨c'', run', same⟩ := collect_same none_ run
      have start' : collectStart hwStatus
          { spec with np := c.slots.length } pool = some start := started
      refine ⟨if !dryRun ∧ c''.got = c.slots.length then
        commitUse pool c''.myUse else pool, ?_⟩
      rw [createSlots, start']
      dsimp only
      rw [length, run', map_some, same]

/-- A HW-thread is not taken twice as long as used ones are left alone. -/
theorem spoils_plain (bound : r.t < pool.totalThreads) (low : Unowed hwStatus spec pool)
    (least : r.minUsed = 0) (spare : Spare hwStatus spec pool (held pool r) r.myUse)
    (busy : takes hwStatus spec pool r = true) :
    spoils pool r false = false := by
  have wanted := takes_iff.mp busy
  have used := spare.used r.t bound wanted.fits
  have unused := low r.t bound wanted.fits
  have free := wanted.free
  rw [spoils]
  split
  · rfl
  · rename_i begun
    rw [Bool.false_or, Bool.eq_false_iff]
    intro inside
    have one : held pool r r.t = hits (pool.partThrds r.t) r.slots + 1 := by
      rw [held, if_pos ⟨fun first => begun (.inl first), inside⟩]
    omega

theorem neverSpoiled_plain (grouped : Grouped pool) (low : Unowed hwStatus spec pool)
    (plain : spec.options.overbook = false) (unused : Unused spec c)
    (spare : Spare hwStatus spec pool (held pool c) c.myUse) :
    NeverSpoiled hwStatus spec pool
      (pool.totalThreads +
        if spec.options.overbook || spec.options.nodeFirst then 0 else 1)
      fuel c false := by
  induction fuel generalizing c with
  | zero => trivial
  | succ fuel next =>
    intro bound less r step started tried
    have least := startRound_unused plain unused started
    obtain ⟨holds, use, t⟩ := @startRound_same_use spec pool _ _ started
    rw [← holds, ← use] at spare
    have inPool : r.t < pool.totalThreads := t ▸ bound
    obtain ⟨after, zero, same⟩ := tryThread_spare grouped.distinct low inPool least spare tried
    have clean : (if takes hwStatus spec pool r then spoils pool r false
        else false) = false := by
      split
      · rename_i busy
        exact spoils_plain inPool low least spare busy
      · rfl
    rw [clean]
    refine ⟨fun _ => rfl, next (c := { step with
        t := (step.t + 1) % (pool.totalThreads +
          if spec.options.overbook || spec.options.nodeFirst then 0
          else 1) }) ⟨zero, ?_⟩ after⟩
    intro nodeFirst first
    simp only [plain, nodeFirst, Bool.or_self, Bool.false_eq_true, if_false] at first
    rw [same, t, Nat.mod_eq_of_lt (by omega)] at first
    cases first

/-- Without over-booking no slot is ever spoiled. -/
theorem createsUnspoiled_plain (grouped : Grouped pool)
    (plain : spec.options.overbook = false) (fuel : Nat) :
    CreatesUnspoiled hwStatus spec pool fuel := by
  intro start started
  have begun := collectStart_started started
  have least := (collectStart_spec started).2.2.2.2 plain
  exact neverSpoiled_plain grouped (begun.low plain) plain ⟨least.1, least.2⟩ (begun.spare grouped)

end Form

/-! Two HW-threads of one node, the second one in use; a slot of both is asked for
with over-booking. -/

def unevenPool : ThreadPool where
  totalThreads := 2
  partThrds := fun t => ⟨0, t, t⟩
  usedThreads := 1

def unevenSpec : SlotSpec where
  np := 1
  ppn := 0
  tpp := 2
  hwType := 0
  options := ⟨true, false, false, false, false, false⟩

theorem unevenPool_grouped : Grouped unevenPool where
  some_ := by decide
  together := fun _ _ _ _ _ _ _ => rfl
  distinct := fun _ _ _ _ _ same => same
  high := by
    intro i inPool
    change (i : Int) < 2 ^ 15
    change i < 2 at inPool
    omega

theorem uneven_created : (createSlots (fun _ => 0) unevenSpec unevenPool 8 true).isSome = true := by
  decide +kernel

end Psmgmt.Partition
