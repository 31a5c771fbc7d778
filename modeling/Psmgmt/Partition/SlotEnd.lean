import Psmgmt.Partition.SlotHosts

/-!
# The end of the loop collecting slots

A round over the HW-threads collects a slot or is the last one, unless
over-booking is allowed: then the next round takes HW-threads used once more.
-/

namespace Psmgmt.Partition

open List Option

variable {mod node first : Nat} {c r c' : Collect}

section Ends

variable (hwStatus : Nat → Nat) (spec : SlotSpec) (pool : ThreadPool)

/-- The loop collecting slots ends. -/
def Ends (mod : Nat) (c : Collect) : Prop :=
  ∃ fuel c', collect hwStatus spec pool mod fuel c = some c'

variable {hwStatus : Nat → Nat} {spec : SlotSpec} {pool : ThreadPool}

/-! ## Rounds -/

theorem ends_left (left : ¬ (c.t < pool.totalThreads ∧ c.got < spec.np)) :
    Ends hwStatus spec pool mod c :=
  ⟨1, c, by rw [collect, if_neg left]⟩

theorem ends_step (next : c.t < pool.totalThreads → c.got < spec.np → ∀ c',
      collectBody hwStatus spec pool c = some c' →
        Ends hwStatus spec pool mod { c' with t := (c'.t + 1) % mod }) :
    Ends hwStatus spec pool mod c := by
  by_cases going : c.t < pool.totalThreads ∧ c.got < spec.np
  · rcases body : collectBody hwStatus spec pool c with _ | c'
    · exact ⟨1, c, by rw [collect, if_pos going, body]⟩
    · obtain ⟨fuel, last, run⟩ := next going.1 going.2 c' body
      exact ⟨fuel + 1, last, (collect_going going body).trans run⟩
  · exact ends_left going

theorem startRound_inside (inside : c.t ≠ 0) : startRound spec c = some c :=
  if_pos inside

/-- What the start of a round sets. -/
structure Begun (spec : SlotSpec) (c r : Collect) : Prop where
  going : ¬ (c.fullRound = true ∧ c.roundGot = 0 ∧ spec.options.overbook = false)
  same : r = { c with
    minUsed := c.nextMinUsed, nextMinUsed := int16 (c.nextMinUsed + 1)
    fullRound := true, roundGot := 0 }

theorem startRound_begun (first : c.t = 0)
    (started : startRound spec c = some r) : Begun spec c r := by
  unfold startRound at started
  simp only at started
  rw [if_neg (not_not.mpr first)] at started
  split at started
  · cases started
  rename_i going
  split at started
  · cases started
  · refine ⟨?_, (Option.some.inj started).symm⟩
    rintro ⟨full, none_, plain⟩
    exact going ⟨full, none_, by rw [plain]; rfl⟩

/-- What an iteration does to the counters of the round. -/
structure Advance (r c' : Collect) : Prop where
  t : c'.t = r.t
  fullRound : c'.fullRound = r.fullRound
  got : c'.got + r.roundGot = r.got + c'.roundGot
  more : r.roundGot ≤ c'.roundGot
  most : c'.roundGot ≤ r.roundGot + 1
  minUsed : c'.minUsed = r.minUsed
  nextMinUsed : r.roundGot = 0 → c'.nextMinUsed = r.nextMinUsed

theorem tryThread_advance (tried : tryThread hwStatus spec pool r = some c') : Advance r c' := by
  cases tryThread_visit tried with
  | skipped nextMinUsed _ least same =>
    rw [same]
    refine ⟨rfl, rfl, rfl, le_refl _, Nat.le_succ _, rfl, ?_⟩
    intro none_
    exact least.resolve_right (not_not.mpr none_)
  | took p _ ready same =>
    have kept := ready.sameWalk
    rw [same]
    cases @takeThread_cases spec pool p with
    | completed _ taken =>
      rw [taken]
      refine ⟨kept.t, kept.fullRound, ?_, ?_, ?_, kept.minUsed,
        fun _ => kept.nextMinUsed⟩
      · dsimp only
        rw [kept.got, kept.roundGot]
        omega
      · dsimp only
        rw [kept.roundGot]
        exact Nat.le_succ _
      · dsimp only
        rw [kept.roundGot]
    | going _ taken =>
      rw [taken]
      refine ⟨kept.t, kept.fullRound, ?_, le_of_eq kept.roundGot.symm,
        ?_, kept.minUsed, fun _ => kept.nextMinUsed⟩
      · dsimp only
        rw [kept.got, kept.roundGot]
      · dsimp only
        rw [kept.roundGot]
        exact Nat.le_succ _

/-- The loop ends inside a round or with what the rest of it leads to. -/
theorem ends_inside (whole : pool.totalThreads ≤ mod) (holds : Collect → Prop)
    (step : ∀ r c', holds r → r.t < pool.totalThreads → r.got < spec.np →
      tryThread hwStatus spec pool r = some c' → holds { c' with t := c'.t + 1 })
    (last : ∀ c, holds c → c.t = pool.totalThreads →
      Ends hwStatus spec pool mod { c with t := c.t % mod }) {k : Nat}
    (t : c.t + k = pool.totalThreads) (inside : c.t ≠ 0) (here : holds c) :
    Ends hwStatus spec pool mod { c with t := c.t % mod } := by
  induction k generalizing c with
  | zero => exact last c here t
  | succ k next =>
    have unwrapped : c.t % mod = c.t := Nat.mod_eq_of_lt (by omega)
    rw [unwrapped]
    apply ends_step
    intro bound less c' body
    rw [collectBody] at body
    change (startRound spec c).bind _ = some c' at body
    rw [startRound_inside inside, bind_some] at body
    have t' := (tryThread_advance body).t
    refine next (c := { c' with t := c'.t + 1 }) ?_ (Nat.succ_ne_zero _)
      (step c c' here bound less body)
    change c'.t + 1 + k = _
    omega

theorem ends_round (whole : pool.totalThreads ≤ mod) (holds : Collect → Prop)
    (step : ∀ r c', holds r → r.t < pool.totalThreads → r.got < spec.np →
      tryThread hwStatus spec pool r = some c' → holds { c' with t := c'.t + 1 })
    (last : ∀ c, holds c → c.t = pool.totalThreads →
      Ends hwStatus spec pool mod { c with t := c.t % mod }) (first : c.t = 0)
    (begun : ∀ r, Begun spec c r → holds r) :
    Ends hwStatus spec pool mod c := by
  apply ends_step
  intro bound less c' body
  rcases bind_eq_some_iff.mp body with ⟨r, started, tried⟩
  have same := startRound_same started
  have t := (tryThread_advance tried).t
  refine ends_inside whole holds step last (k := pool.totalThreads - 1)
    (c := { c' with t := c'.t + 1 }) ?_ (Nat.succ_ne_zero _)
    (step r c' (begun r (startRound_begun first started)) ?_ ?_ tried)
  · change c'.t + 1 + _ = _
    rw [t, same.t]
    omega
  · rw [same.t]
    exact bound
  · rw [same.got]
    exact less

theorem ends_from_rounds (holds : Collect → Prop)
    (step : ∀ r c', holds r → r.t < pool.totalThreads →
      tryThread hwStatus spec pool r = some c' → holds c')
    (move : ∀ c t, holds c → holds { c with t := t })
    (rounds : ∀ c, holds c → c.t = 0 →
      Ends hwStatus spec pool pool.totalThreads c) (here : holds c) :
    Ends hwStatus spec pool pool.totalThreads c := by
  by_cases bound : c.t < pool.totalThreads
  · by_cases first : c.t = 0
    · exact rounds c here first
    · have ends := ends_inside (le_refl _) (holds)
        (fun r c' here inside _ tried => move c' _ (step r c' here inside tried))
        (fun c here t => by
          rw [t, Nat.mod_self]
          exact rounds _ (move c 0 here) rfl)
        (k := pool.totalThreads - c.t) (c := c) (by omega) first here
      rwa [Nat.mod_eq_of_lt bound] at ends
  · exact ends_left (fun going => bound going.1)

/-! ## Without over-booking -/

/-- A round without a slot is the last one. -/
theorem nodeFirst_round_ends (plain : spec.options.overbook = false)
    (left : Nat) (first : c.t = 0) (most : spec.np - c.got = left) :
    Ends hwStatus spec pool pool.totalThreads c := by
  induction left using Nat.strong_induction_on generalizing c with
  | _ left fewer =>
    refine ends_round (le_refl _) (fun c' =>
      c'.fullRound = true ∧ c'.got = c.got + c'.roundGot) ?_ ?_ first ?_
    · rintro r c' ⟨full, got⟩ _ _ tried
      have advance := tryThread_advance tried
      refine ⟨advance.fullRound.trans full, ?_⟩
      have counted := advance.got
      dsimp only
      omega
    · rintro c' ⟨full, got⟩ t
      rw [t, Nat.mod_self]
      by_cases none_ : c'.roundGot = 0
      · apply ends_step
        intro _ _ step body
        rcases bind_eq_some_iff.mp body with ⟨r, started, _⟩
        exact absurd ⟨full, none_, plain⟩ (startRound_begun rfl started).going
      · by_cases less : c'.got < spec.np
        · exact fewer (spec.np - c'.got) (by omega) rfl rfl
        · exact ends_left (fun going => less going.2)
    · intro r begun
      rw [begun.same]
      exact ⟨rfl, rfl⟩

theorem nodeFirst_ends (plain : spec.options.overbook = false) (c : Collect) :
    Ends hwStatus spec pool pool.totalThreads c :=
  ends_from_rounds (fun _ => True) (fun _ _ _ _ _ => trivial) (fun _ _ _ => trivial)
    (fun _ _ first => nodeFirst_round_ends plain _ first rfl) trivial

/-- Without `nodeFirst` the loop leaves at the end of the HW-threads. -/
theorem plain_ends : Ends hwStatus spec pool (pool.totalThreads + 1) c := by
  have last : ∀ c : Collect, True → c.t = pool.totalThreads →
      Ends hwStatus spec pool (pool.totalThreads + 1)
        { c with t := c.t % (pool.totalThreads + 1) } := by
    intro c _ t
    apply ends_left
    rintro ⟨bound, _⟩
    dsimp only at bound
    rw [t, Nat.mod_eq_of_lt (Nat.lt_succ_self _)] at bound
    exact lt_irrefl _ bound
  by_cases bound : c.t < pool.totalThreads
  · by_cases first : c.t = 0
    · exact ends_round (Nat.le_succ _) (fun _ => True)
        (fun _ _ _ _ _ _ => trivial) last first (fun _ _ => trivial)
    · have ends := ends_inside (Nat.le_succ _) (fun _ => True) (fun _ _ _ _ _ _ => trivial) last
        (k := pool.totalThreads - c.t) (c := c) (by omega) first trivial
      rwa [Nat.mod_eq_of_lt (by omega)] at ends
  · exact ends_left (fun going => bound going.1)

/-! ## Hosts with room for a slot -/

theorem sum_countP (nodes : Finset Nat) (slots : List Slot) :
    ∑ node ∈ nodes, slots.countP (fun slot => slot.node = node) =
      slots.countP (fun slot => slot.node ∈ nodes) := by
  induction slots with
  | nil => exact Finset.sum_const_zero
  | cons slot rest next =>
    simp only [countP_cons, decide_eq_true_eq]
    rw [Finset.sum_add_distrib, next, Finset.sum_ite_eq]

theorem exists_room (slots : List Slot) (some_ : (hosts hwStatus spec pool).Nonempty)
    (room : spec.ppn ≠ 0 → slots.length < spec.ppn * (hosts hwStatus spec pool).card) :
    ∃ node ∈ hosts hwStatus spec pool, spec.ppn ≠ 0 →
      slots.countP (fun slot => slot.node = node) < spec.ppn := by
  by_cases limit : spec.ppn ≠ 0
  · by_contra full
    have each : ∀ node ∈ hosts hwStatus spec pool,
        spec.ppn ≤ slots.countP (fun slot => slot.node = node) := by
      intro node member
      exact not_lt.mp (fun less => full ⟨node, member, fun _ => less⟩)
    have total := Finset.sum_le_sum each
    rw [sum_countP, Finset.sum_const_nat (fun _ _ => rfl), Nat.mul_comm]
      at total
    have most : slots.countP (fun slot => slot.node ∈ hosts hwStatus spec pool) ≤ slots.length :=
      countP_le_length
    have less := room limit
    omega
  · obtain ⟨node, member⟩ := some_
    exact ⟨node, member, fun some_ => absurd some_ limit⟩

/-! ## With over-booking -/

/-- What holds throughout the loop. -/
structure Steady (hwStatus : Nat → Nat) (spec : SlotSpec) (pool : ThreadPool)
    (c : Collect) : Prop where
  walk : ∃ spoiled, Walk hwStatus spec pool c spoiled
  length : c.slots.length = c.got
  less : c.thrdsGot < spec.tpp
  high : ∀ i < pool.totalThreads, c.myUse i < 2 ^ 15

theorem Steady.move (steady : Steady hwStatus spec pool c) (t : Nat) :
    Steady hwStatus spec pool { c with t := t } := by
  obtain ⟨spoiled, walk⟩ := steady.walk
  exact ⟨⟨spoiled, walk.move t⟩, steady.length, steady.less, steady.high⟩

theorem Begun.steady (begun : Begun spec c r)
    (steady : Steady hwStatus spec pool c) : Steady hwStatus spec pool r := by
  obtain ⟨spoiled, walk⟩ := steady.walk
  rw [begun.same]
  exact ⟨⟨spoiled, walk.count, walk.current, walk.slots, walk.procs⟩,
    steady.length, steady.less, steady.high⟩

theorem Ready.less {r p : Collect} (ready : Ready pool r p) : p.thrdsGot ≤ r.thrdsGot := by
  cases ready with
  | kept _ _ same => rw [same]
  | anew _ same => rw [same]
  | restarted _ _ same =>
    rw [same]
    exact Nat.zero_le _

theorem Ready.high {p : Collect} (ready : Ready pool r p)
    (high : ∀ i < pool.totalThreads, r.myUse i < 2 ^ 15) :
    ∀ i < pool.totalThreads, p.myUse i < 2 ^ 15 := by
  cases ready with
  | kept _ _ same =>
    rw [same]
    exact high
  | anew _ same =>
    rw [same]
    exact high
  | restarted _ _ same =>
    rw [same]
    exact putBack_lt _ _ _ _ _ high

theorem Steady.try (steady : Steady hwStatus spec pool r) (bound : r.t < pool.totalThreads)
    (tried : tryThread hwStatus spec pool r = some c') :
    Steady hwStatus spec pool c' := by
  obtain ⟨spoiled, walk⟩ := steady.walk
  have walked := tryThread_walked walk bound tried
  have length : c'.slots.length = c'.got := by
    rcases walked.slots with ⟨got, slots⟩ | ⟨got, slot, slots, _⟩
    · rw [slots, got]
      exact steady.length
    · rw [slots, got, length_append, steady.length]
      rfl
  refine ⟨⟨_, walked.walk⟩, length, ?_, ?_⟩
  · have some_ : 0 < spec.tpp := Nat.lt_of_le_of_lt (Nat.zero_le _) steady.less
    cases tryThread_visit tried with
    | skipped _ _ _ same =>
      rw [same]
      exact steady.less
    | took p _ ready same =>
      have before := ready.less
      have less := steady.less
      rw [same]
      cases @takeThread_cases spec pool p with
      | completed _ taken =>
        rw [taken]
        exact some_
      | going less' taken =>
        rw [taken]
        change p.thrdsGot + 1 < spec.tpp
        omega
  · cases tryThread_visit tried with
    | skipped _ _ _ same =>
      rw [same]
      exact steady.high
    | took p _ ready same =>
      intro i inPool
      rw [same, takeThread_myUse, Function.update_apply]
      split
      · exact int16_lt _
      · exact ready.high steady.high i inPool

/-- A row of a host with room, taken as far as it was visited. -/
structure RowAt (spec : SlotSpec) (node first : Nat) (c : Collect) : Prop where
  limit : spec.ppn ≠ 0 → c.procsPerNode node < spec.ppn
  taken : c.t ≤ first ∨ c.current.node = node ∧ c.t ≤ first + c.thrdsGot

theorem RowAt.try (row : Row hwStatus spec pool first spec.tpp node)
    (reached : RowAt spec node first r) (less : r.thrdsGot < spec.tpp)
    (free : r.myUse r.t ≤ r.minUsed) (none_ : r.roundGot = 0)
    (none' : c'.roundGot = 0) (tried : tryThread hwStatus spec pool r = some c') :
    RowAt spec node first { c' with t := c'.t + 1 } := by
  have inRow : first ≤ r.t → (pool.partThrds r.t).node = node := by
    intro above
    have below : r.t < first + spec.tpp := by
      rcases reached.taken with here | ⟨_, here⟩
      · omega
      · omega
    have same := row.same (r.t - first) (by omega)
    rwa [Nat.add_sub_cancel' above] at same
  cases tryThread_visit tried with
  | skipped nextMinUsed idle _ same =>
    rw [same]
    refine ⟨reached.limit, ?_⟩
    rcases Nat.lt_or_ge r.t first with below | above
    · exact .inl below
    · have here := inRow above
      have wanted : Wanted hwStatus spec pool r := by
        refine ⟨free, here ▸ row.fits, ?_, fun other => other.2.1 none_⟩
        intro some_
        rw [here]
        exact reached.limit some_
      exact absurd (idle.symm.trans (takes_iff.mpr wanted)) Bool.false_ne_true
  | took p _ ready same =>
    have kept := ready.sameWalk
    rw [same] at none' ⊢
    cases @takeThread_cases spec pool p with
    | completed _ taken =>
      rw [taken] at none'
      exact absurd none' (Nat.succ_ne_zero _)
    | going _ taken =>
      rw [taken]
      refine ⟨?_, ?_⟩
      · dsimp only
        rw [kept.procsPerNode]
        exact reached.limit
      · dsimp only
        rw [kept.t]
        rcases Nat.lt_or_ge r.t first with below | above
        · exact .inl below
        · have here := inRow above
          refine .inr ⟨ready.node.trans here, ?_⟩
          rcases reached.taken with start | ⟨current, more⟩
          · omega
          · cases ready with
            | kept _ _ same =>
              rw [same]
              omega
            | anew none_ _ => omega
            | restarted _ apart _ => exact absurd (here.trans current.symm) apart

/-- Within a round that begins at `c`. -/
structure Round (hwStatus : Nat → Nat) (spec : SlotSpec) (pool : ThreadPool)
    (c : Collect) (node first : Nat) (c' : Collect) : Prop where
  steady : Steady hwStatus spec pool c'
  got : c'.got = c.got + c'.roundGot
  minUsed : c'.roundGot = 0 → c'.minUsed = c.nextMinUsed
  nextMinUsed : c'.roundGot = 0 → c'.nextMinUsed = int16 (c.nextMinUsed + 1)
  reached : c'.roundGot = 0 → 2 ^ 15 - 1 ≤ c.nextMinUsed → RowAt spec node first c'

theorem Round.try (row : Row hwStatus spec pool first spec.tpp node)
    (round : Round hwStatus spec pool c node first r) (bound : r.t < pool.totalThreads)
    (tried : tryThread hwStatus spec pool r = some c') :
    Round hwStatus spec pool c node first { c' with t := c'.t + 1 } := by
  have advance := tryThread_advance tried
  have counted := advance.got
  have got := round.got
  have none_ : c'.roundGot = 0 → r.roundGot = 0 :=
    fun none' => Nat.le_zero.mp (none' ▸ advance.more)
  refine ⟨(round.steady.try bound tried).move _, ?_, ?_, ?_, ?_⟩
  · change c'.got = c.got + c'.roundGot
    omega
  · intro none'
    exact advance.minUsed.trans (round.minUsed (none_ none'))
  · intro none'
    exact (advance.nextMinUsed (none_ none')).trans (round.nextMinUsed (none_ none'))
  · intro none' top
    have highest := round.steady.high r.t bound
    refine (round.reached (none_ none') top).try row round.steady.less ?_ (none_ none') none' tried
    rw [round.minUsed (none_ none')]
    omega

theorem Begun.round (start : c.t = 0) (steady : Steady hwStatus spec pool c)
    (room : spec.ppn ≠ 0 → c.procsPerNode node < spec.ppn)
    (begun : Begun spec c r) : Round hwStatus spec pool c node first r := by
  refine ⟨begun.steady steady, ?_, ?_, ?_, ?_⟩
  · rw [begun.same]
    exact (Nat.add_zero _).symm
  · rw [begun.same]
    exact fun _ => rfl
  · rw [begun.same]
    exact fun _ => rfl
  · rw [begun.same]
    intro _ _
    refine ⟨room, .inl ?_⟩
    dsimp only
    omega

/-- A whole round collects a slot or raises the use looked for. -/
theorem Round.progress (row : Row hwStatus spec pool first spec.tpp node)
    (round : Round hwStatus spec pool c node first c')
    (whole : c'.t = pool.totalThreads) (none_ : c'.roundGot = 0) :
    c.nextMinUsed < 2 ^ 15 - 1 ∧ c'.nextMinUsed = int16 (c.nextMinUsed + 1) := by
  refine ⟨not_le.mp (fun top => ?_), round.nextMinUsed none_⟩
  have less := round.steady.less
  have inPool := row.inPool
  rcases (round.reached none_ top).taken with before | ⟨_, inside⟩
  · omega
  · omega

theorem int16_raised {value : Int} (less : value < 2 ^ 15 - 1) : value < int16 (value + 1) := by
  unfold int16
  omega

/-- The hosts admit as many slots as asked for. -/
def Roomy (hwStatus : Nat → Nat) (spec : SlotSpec) (pool : ThreadPool) : Prop :=
  spec.ppn ≠ 0 → spec.np ≤ spec.ppn * (hosts hwStatus spec pool).card

section

variable (grouped : Grouped pool) (some_ : 1 ≤ spec.tpp)
  (hosted : (hosts hwStatus spec pool).Nonempty)
  (roomy : Roomy hwStatus spec pool)

include grouped some_ hosted roomy

theorem overbook_round_ends (left higher : Nat) (first : c.t = 0)
    (steady : Steady hwStatus spec pool c) (most : spec.np - c.got = left)
    (below : (2 ^ 15 - c.nextMinUsed).toNat = higher) :
    Ends hwStatus spec pool pool.totalThreads c := by
  -- on the slots missing, then on the uses not yet allowed
  induction left using Nat.strong_induction_on generalizing higher c with
  | _ left fewer =>
  induction higher using Nat.strong_induction_on generalizing c with
  | _ higher raised =>
    by_cases less : c.got < spec.np
    · obtain ⟨node, host, room⟩ :=
        exists_room c.slots hosted (fun limit => by
          rw [steady.length]
          exact lt_of_lt_of_le less (roomy limit))
      obtain ⟨fits, enough⟩ := (mem_hosts some_).mp host
      obtain ⟨begin_, row⟩ := exists_row grouped fits enough
      have free : spec.ppn ≠ 0 → c.procsPerNode node < spec.ppn := by
        intro limit
        obtain ⟨spoiled, walk⟩ := steady.walk
        rw [(walk.procs limit node).1]
        exact room limit
      refine ends_round (le_refl _) (Round hwStatus spec pool c node begin_)
        (fun r c' round bound _ tried => round.try row bound tried) ?_ first
        (fun r begun => begun.round first steady free)
      intro c' round t
      rw [t, Nat.mod_self]
      have got := round.got
      by_cases none_ : c'.roundGot = 0
      · obtain ⟨low, next⟩ := round.progress row t none_
        have step := int16_raised low
        rw [← next] at step
        refine raised (2 ^ 15 - c'.nextMinUsed).toNat (by omega) rfl (round.steady.move 0) ?_ rfl
        change spec.np - c'.got = left
        omega
      · exact fewer (spec.np - c'.got) (by omega) _ rfl (round.steady.move 0) rfl rfl
    · exact ends_left (fun going => less going.2)

theorem overbook_ends (steady : Steady hwStatus spec pool c) :
    Ends hwStatus spec pool pool.totalThreads c :=
  ends_from_rounds (Steady hwStatus spec pool)
    (fun _ _ here inside tried => here.try inside tried)
    (fun _ t here => here.move t)
    (fun _ here first => overbook_round_ends grouped some_ hosted roomy _ _
      first here rfl rfl) steady

end

end Ends

end Psmgmt.Partition
