import Psmgmt.Partition.SlotForm

/-!
# The nodes that can host a slot

A node hosts a slot if it fits and has enough HW-threads; these stand in a row,
and the first loop of `createSlots()` finds out whether there is such a node.
-/

namespace Psmgmt.Partition

variable {first length node t : Nat} {scan : Scan}

section Hosts

variable (hwStatus : Nat → Nat) (spec : SlotSpec) (pool : ThreadPool)

def threadsOf (node : Nat) : Finset Nat :=
  (Finset.range pool.totalThreads).filter (fun i => (pool.partThrds i).node = node)

def hosts : Finset Nat :=
  ((Finset.range pool.totalThreads).image (fun i => (pool.partThrds i).node)).filter
      (fun node => hwFits hwStatus spec.hwType node = true ∧ spec.tpp ≤ (threadsOf pool node).card)

structure Row (first length node : Nat) : Prop where
  inPool : first + length ≤ pool.totalThreads
  same : ∀ j < length, (pool.partThrds (first + j)).node = node
  fits : hwFits hwStatus spec.hwType node = true

variable {hwStatus : Nat → Nat} {spec : SlotSpec} {pool : ThreadPool}

/-! ## Rows in the first loop -/

/-- The counters after the HW-threads below `t`. -/
structure Scanned (hwStatus : Nat → Nat) (spec : SlotSpec) (pool : ThreadPool)
    (t : Nat) (scan : Scan) : Prop where
  longest : scan.maxTPP ≠ 0 → ∃ first node, Row hwStatus spec pool first scan.maxTPP node
  latest : scan.nodeTPP ≠ 0 → ∃ first node, Row hwStatus spec pool first scan.nodeTPP node
  running : ∀ last, last + 1 = t → hwFits hwStatus spec.hwType (pool.partThrds last).node = true →
      ∃ first, first + scan.nodeTPP = t ∧
        Row hwStatus spec pool first scan.nodeTPP (pool.partThrds last).node
  covers : ∀ first length node, Row hwStatus spec pool first length node →
    first + length ≤ t → length ≤ max scan.maxTPP scan.nodeTPP
  ending : ∀ first length node, Row hwStatus spec pool first length node →
    first + length = t → length ≤ scan.nodeTPP

theorem Row.shorter (row : Row hwStatus spec pool first (length + 1) node) :
    Row hwStatus spec pool first length node where
  inPool := le_trans (by omega) row.inPool
  same := fun j less => row.same j (by omega)
  fits := row.fits

theorem Row.single (bound : t < pool.totalThreads)
    (fits : hwFits hwStatus spec.hwType (pool.partThrds t).node = true) :
    Row hwStatus spec pool t 1 (pool.partThrds t).node where
  inPool := bound
  same := fun j less => by rw [Nat.lt_one_iff.mp less, Nat.add_zero]
  fits := fits

theorem Row.longer (bound : t < pool.totalThreads) (last : first + length = t)
    (row : Row hwStatus spec pool first length (pool.partThrds t).node) :
    Row hwStatus spec pool first (length + 1) (pool.partThrds t).node where
  inPool := by omega
  same := by
    intro j less
    by_cases here : j = length
    · rw [here, last]
    · exact row.same j (by omega)
  fits := row.fits

theorem Row.lastNode (row : Row hwStatus spec pool first (length + 1) node)
    (last : first + (length + 1) = t + 1) : (pool.partThrds t).node = node := by
  have same := row.same length (Nat.lt_succ_self length)
  have here : first + length = t := by omega
  rwa [here] at same

theorem Scanned.skip (scanned : Scanned hwStatus spec pool t scan)
    (unfit : ¬ hwFits hwStatus spec.hwType (pool.partThrds t).node = true) :
    Scanned hwStatus spec pool (t + 1) scan where
  longest := scanned.longest
  latest := scanned.latest
  running := by
    intro last next fits
    cases Nat.succ.inj next
    exact absurd fits unfit
  covers := by
    intro first length node row most
    rcases Nat.lt_or_ge (first + length) (t + 1) with below | above
    · exact scanned.covers first length node row (by omega)
    · cases length with
      | zero => exact Nat.zero_le _
      | succ length =>
        have last := row.lastNode (t := t) (by omega)
        exact absurd (last ▸ row.fits) unfit
  ending := by
    intro first length node row last
    cases length with
    | zero => exact Nat.zero_le _
    | succ length =>
      have last := row.lastNode last
      exact absurd (last ▸ row.fits) unfit

theorem Scanned.extend {t first : Nat} {scan scan' : Scan} (bound : t < pool.totalThreads)
    (scanned : Scanned hwStatus spec pool t scan) (last : first + scan.nodeTPP = t)
    (row : Row hwStatus spec pool first scan.nodeTPP (pool.partThrds t).node)
    (maxTPP : scan'.maxTPP = scan.maxTPP) (nodeTPP : scan'.nodeTPP = scan.nodeTPP + 1) :
    Scanned hwStatus spec pool (t + 1) scan' := by
  have longer := row.longer bound last
  have ending : ∀ first length node,
      Row hwStatus spec pool first length node → first + length = t + 1 →
        length ≤ scan.nodeTPP + 1 := by
    intro first length node row last
    cases length with
    | zero => exact Nat.zero_le _
    | succ length =>
      have shorter := scanned.ending first length node row.shorter (by omega)
      omega
  rw [← nodeTPP] at ending longer
  refine ⟨?_, fun _ => ⟨first, _, longer⟩, ?_, ?_, ending⟩
  · rw [maxTPP]
    exact scanned.longest
  · intro last' next _
    cases Nat.succ.inj next
    exact ⟨first, by omega, longer⟩
  · intro first length node row most
    rcases Nat.lt_or_ge (first + length) (t + 1) with below | above
    · have covered := scanned.covers first length node row (by omega)
      omega
    · have covered := ending first length node row (by omega)
      omega

/-- The next HW-thread starts a new row. -/
theorem Scanned.anew {scan' : Scan} (bound : t < pool.totalThreads)
    (fits : hwFits hwStatus spec.hwType (pool.partThrds t).node = true)
    (scanned : Scanned hwStatus spec pool t scan)
    (other : ∀ last, last + 1 = t → (pool.partThrds last).node ≠ (pool.partThrds t).node)
    (maxTPP : scan'.maxTPP = max scan.maxTPP scan.nodeTPP) (nodeTPP : scan'.nodeTPP = 1) :
    Scanned hwStatus spec pool (t + 1) scan' := by
  have single : Row hwStatus spec pool t 1 (pool.partThrds t).node := Row.single bound fits
  have ending : ∀ first length node,
      Row hwStatus spec pool first length node → first + length = t + 1 → length ≤ 1 := by
    intro first length node row last
    by_contra more
    obtain ⟨shorter, rfl⟩ : ∃ shorter, length = shorter + 1 + 1 := ⟨length - 2, by omega⟩
    have here := row.lastNode last
    obtain ⟨before, rfl⟩ : ∃ before, t = before + 1 := ⟨t - 1, by omega⟩
    have there := row.shorter.lastNode (t := before) (by omega)
    exact other before rfl (there.trans here.symm)
  have last_ : t + scan'.nodeTPP = t + 1 := by rw [nodeTPP]
  have ending : ∀ first length node,
      Row hwStatus spec pool first length node → first + length = t + 1 →
        length ≤ scan'.nodeTPP := by
    intro first length node row last
    rw [nodeTPP]
    exact ending first length node row last
  have single : Row hwStatus spec pool t scan'.nodeTPP (pool.partThrds t).node := by
    rw [nodeTPP]
    exact single
  refine ⟨?_, fun _ => ⟨t, _, single⟩, ?_, ?_, ending⟩
  · rw [maxTPP]
    intro some_
    rcases le_total scan.nodeTPP scan.maxTPP with less | more
    · rw [max_eq_left less] at some_ ⊢
      exact scanned.longest some_
    · rw [max_eq_right more] at some_ ⊢
      exact scanned.latest some_
  · intro last next _
    cases Nat.succ.inj next
    exact ⟨t, last_, single⟩
  · intro first length node row most
    rcases Nat.lt_or_ge (first + length) (t + 1) with below | above
    · have covered := scanned.covers first length node row (by omega)
      omega
    · have covered := ending first length node row (by omega)
      omega

theorem scanStep_scanned (bound : t < pool.totalThreads)
    (scanned : Scanned hwStatus spec pool t scan) :
    Scanned hwStatus spec pool (t + 1) (scanStep hwStatus spec pool scan t) := by
  cases fits : hwFits hwStatus spec.hwType (pool.partThrds t).node with
  | false =>
    have same : scanStep hwStatus spec pool scan t = scan := by
      simp only [scanStep, fits, Bool.not_false, if_true]
    rw [same]
    exact scanned.skip (by rw [fits]; exact Bool.false_ne_true)
  | true =>
    by_cases same : t ≠ 0 ∧ (pool.partThrds (t - 1)).node = (pool.partThrds t).node
    · obtain ⟨before, rfl⟩ : ∃ before, t = before + 1 := ⟨t - 1, by omega⟩
      have node : (pool.partThrds before).node = (pool.partThrds (before + 1)).node := same.2
      obtain ⟨first, last, row⟩ := scanned.running before rfl (node ▸ fits)
      rw [node] at row
      apply scanned.extend bound last row
      · simp only [scanStep, fits, Bool.not_true, Bool.false_eq_true, if_false, if_pos same]
        split <;> rfl
      · simp only [scanStep, fits, Bool.not_true, Bool.false_eq_true, if_false, if_pos same]
        split <;> rfl
    · apply scanned.anew bound fits
      · intro last next here
        apply same
        have before : t - 1 = last := by omega
        rw [before]
        exact ⟨by omega, here⟩
      · simp only [scanStep, fits, Bool.not_true, Bool.false_eq_true, if_false, if_neg same]
        split <;> rfl
      · simp only [scanStep, fits, Bool.not_true, Bool.false_eq_true, if_false, if_neg same]
        split <;> rfl

theorem scan_scanned (scan : Scan) (none_ : scan.nodeTPP = 0)
    (none' : scan.maxTPP = 0) (t : Nat) (bound : t ≤ pool.totalThreads) :
    Scanned hwStatus spec pool t ((List.range t).foldl (scanStep hwStatus spec pool) scan) := by
  induction t with
  | zero =>
    refine ⟨fun some_ => absurd none' some_, fun some_ => absurd none_ some_,
      fun _ next => (nomatch next), ?_, ?_⟩
    · intro first length _ _ most
      omega
    · intro first length _ _ most
      omega
  | succ t before =>
    rw [List.range_succ, List.foldl_append]
    exact scanStep_scanned bound (before (by omega))

/-- The first loop finds a row of `length` HW-threads just if there is one. -/
theorem maxTPP_iff (some_ : 1 ≤ length) : length ≤ (scanThreads hwStatus spec pool).maxTPP ↔
      ∃ first node, Row hwStatus spec pool first length node := by
  have scanned := @scan_scanned hwStatus spec pool
    { first := 0, nextMinUsed := (pool.partThrds 0).timesUsed, nodeTPP := 0,
      maxTPP := 0 } rfl rfl pool.totalThreads (le_refl _)
  have value : (scanThreads hwStatus spec pool).maxTPP =
      max ((List.range pool.totalThreads).foldl (scanStep hwStatus spec pool)
        { first := 0, nextMinUsed := (pool.partThrds 0).timesUsed,
          nodeTPP := 0, maxTPP := 0 }).maxTPP
        ((List.range pool.totalThreads).foldl (scanStep hwStatus spec pool)
        { first := 0, nextMinUsed := (pool.partThrds 0).timesUsed,
          nodeTPP := 0, maxTPP := 0 }).nodeTPP := rfl
  rw [value]
  generalize (List.range pool.totalThreads).foldl _ _ = scan at scanned ⊢
  constructor
  · intro most
    rcases le_max_iff.mp most with longest | latest
    · obtain ⟨first, node, row⟩ := scanned.longest (by omega)
      exact ⟨first, node, le_trans (by omega) row.inPool,
        fun j less => row.same j (by omega), row.fits⟩
    · obtain ⟨first, node, row⟩ := scanned.latest (by omega)
      exact ⟨first, node, le_trans (by omega) row.inPool,
        fun j less => row.same j (by omega), row.fits⟩
  · rintro ⟨first, node, row⟩
    exact scanned.covers first length node row row.inPool

/-! ## Hosts and rows -/

theorem mem_threadsOf {i : Nat} :
    i ∈ threadsOf pool node ↔ i < pool.totalThreads ∧ (pool.partThrds i).node = node := by
  rw [threadsOf, Finset.mem_filter, Finset.mem_range]

theorem exists_row (grouped : Grouped pool) (fits : hwFits hwStatus spec.hwType node = true)
    (enough : length ≤ (threadsOf pool node).card) :
    ∃ first, Row hwStatus spec pool first length node := by
  rcases (threadsOf pool node).eq_empty_or_nonempty with none_ | some_
  · rw [none_, Finset.card_empty] at enough
    exact ⟨0, by omega, fun j less => absurd less (by omega), fits⟩
  · obtain ⟨first, least, below⟩ :=
      (threadsOf pool node).exists_min_image id some_
    dsimp only [id] at below
    have reaches : ∀ j < length, ∃ k ∈ threadsOf pool node, first + j ≤ k := by
      intro j less
      by_contra none_
      have inside : threadsOf pool node ⊆ Finset.Ico first (first + j) := by
        intro k member
        rw [Finset.mem_Ico]
        exact ⟨below k member, not_le.mp (fun more => none_ ⟨k, member, more⟩)⟩
      have most := Finset.card_le_card inside
      rw [Nat.card_Ico] at most
      omega
    obtain ⟨inPool, here⟩ := mem_threadsOf.mp least
    refine ⟨first, ?_, ?_, fits⟩
    · cases length with
      | zero => omega
      | succ length =>
        obtain ⟨k, member, more⟩ := reaches length (Nat.lt_succ_self length)
        have bound := (mem_threadsOf.mp member).1
        omega
    · intro j less
      obtain ⟨k, member, more⟩ := reaches j less
      obtain ⟨bound, there⟩ := mem_threadsOf.mp member
      rw [← here]
      exact grouped.together first (first + j) k (Nat.le_add_right _ _) more
        bound (here.trans there.symm)

theorem Row.card_le (row : Row hwStatus spec pool first length node) :
    length ≤ (threadsOf pool node).card := by
  have inside : (Finset.range length).image (first + ·) ⊆ threadsOf pool node := by
    intro k member
    obtain ⟨j, less, rfl⟩ := Finset.mem_image.mp member
    have less := Finset.mem_range.mp less
    have inPool := row.inPool
    exact mem_threadsOf.mpr ⟨by omega, row.same j less⟩
  have most := Finset.card_le_card inside
  rwa [Finset.card_image_of_injective _ (add_right_injective first), Finset.card_range] at most

theorem mem_hosts (some_ : 1 ≤ spec.tpp) : node ∈ hosts hwStatus spec pool ↔
      hwFits hwStatus spec.hwType node = true ∧ spec.tpp ≤ (threadsOf pool node).card := by
  rw [hosts, Finset.mem_filter]
  refine ⟨fun both => both.2, fun both => ⟨?_, both⟩⟩
  obtain ⟨i, member⟩ := Finset.card_pos.mp (lt_of_lt_of_le some_ both.2)
  obtain ⟨bound, here⟩ := mem_threadsOf.mp member
  exact Finset.mem_image.mpr ⟨i, Finset.mem_range.mpr bound, here⟩

/-- The first loop lets slots be collected just if a node can host one. -/
theorem tpp_le_maxTPP_iff (grouped : Grouped pool) (some_ : 1 ≤ spec.tpp) :
    spec.tpp ≤ (scanThreads hwStatus spec pool).maxTPP ↔ (hosts hwStatus spec pool).Nonempty := by
  rw [maxTPP_iff some_]
  constructor
  · rintro ⟨first, node, row⟩
    exact ⟨node, (mem_hosts some_).mpr ⟨row.fits, row.card_le⟩⟩
  · rintro ⟨node, member⟩
    obtain ⟨fits, enough⟩ := (mem_hosts some_).mp member
    obtain ⟨first, row⟩ := exists_row grouped fits enough
    exact ⟨first, node, row⟩

/-! ## Slots and hosts -/

def nodeSlot (pool : ThreadPool) (node : Nat) (threads : Finset Nat) : Slot :=
  ⟨node, threads.image (fun i => (pool.partThrds i).id)⟩

theorem OfNode.host {slot : Slot} (some_ : 1 ≤ spec.tpp) (ofNode : OfNode hwStatus spec pool slot)
    (card : slot.cpuSet.card = spec.tpp) :
    slot.node ∈ hosts hwStatus spec pool := by
  refine (mem_hosts some_).mpr ⟨ofNode.fits, ?_⟩
  have inside : slot.cpuSet ⊆ (threadsOf pool slot.node).image
      (fun i => (pool.partThrds i).id) := by
    intro cpu member
    obtain ⟨i, bound, node, id_⟩ := ofNode.threads cpu member
    exact Finset.mem_image.mpr ⟨i, mem_threadsOf.mpr ⟨bound, node⟩, id_⟩
  rw [← card]
  exact le_trans (Finset.card_le_card inside) Finset.card_image_le

theorem exists_slot (grouped : Grouped pool) (some_ : 1 ≤ spec.tpp)
    (host : node ∈ hosts hwStatus spec pool) :
    ∃ slot, slot.node = node ∧ OfNode hwStatus spec pool slot ∧ slot.cpuSet.card = spec.tpp := by
  obtain ⟨fits, enough⟩ := (mem_hosts some_).mp host
  obtain ⟨threads, inside, card⟩ := Finset.exists_subset_card_eq enough
  refine ⟨nodeSlot pool node threads, rfl, ⟨fits, ?_⟩, ?_⟩
  · intro cpu member
    obtain ⟨i, chosen, id_⟩ := Finset.mem_image.mp member
    obtain ⟨bound, here⟩ := mem_threadsOf.mp (inside chosen)
    exact ⟨i, bound, here, id_⟩
  · rw [← card]
    apply Finset.card_image_of_injOn
    intro i chosen j chosen' same
    obtain ⟨bound, here⟩ := mem_threadsOf.mp (inside chosen)
    obtain ⟨bound', here'⟩ := mem_threadsOf.mp (inside chosen')
    exact grouped.distinct i bound j bound' (here.trans here'.symm) same

end Hosts

end Psmgmt.Partition
