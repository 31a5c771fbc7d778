import Psmgmt.Library.PackedBits
import Psmgmt.Partition.FreeCpus

/-!
# CPU sets as arrays of words

The predicates of `pscpu.c` on the words of a `PSCPU_set_t`.
-/

namespace Psmgmt.Partition

open PackedBits Finset Option BitVec

/-- `PSCPU_mask_t`. -/
abbrev CPUMask : Type := BitVec 16

/-- The words of a `PSCPU_set_t`. -/
abbrev SetWords : Type := Vector CPUMask 64

variable {cpu numBits tpp : Nat}

namespace SetWords

theorem stored (bound : cpu < cpuMax) : cpu / 16 < 64 := by
  rw [cpuMax] at bound
  omega

def isSet (set_ : SetWords) (cpu : Nat) : Bool :=
  if bound : cpu < cpuMax then
    decide (set_.get ⟨cpu / 16, stored bound⟩ &&& 1#16 <<< (cpu % 16) ≠ 0)
  else false

def clrAll : SetWords := Vector.replicate 64 0

def setCPU (set_ : SetWords) (cpu : Nat) : SetWords :=
  if bound : cpu < cpuMax then
    set_.set (cpu / 16) (set_.get ⟨cpu / 16, stored bound⟩ ||| 1#16 <<< (cpu % 16)) (stored bound)
  else set_

def clrCPU (set_ : SetWords) (cpu : Nat) : SetWords :=
  if bound : cpu < cpuMax then
    set_.set (cpu / 16) (set_.get ⟨cpu / 16, stored bound⟩ &&& ~~~(1#16 <<< (cpu % 16)))
      (stored bound)
  else set_

def clip (numBits : Nat) : Nat :=
  if numBits > cpuMax then cpuMax else numBits

/-- A word is promoted to `int` before it is shifted. -/
def shifted (m : CPUMask) (pCPUs : Nat) : BitVec 32 := m.setWidth 32 <<< (16 - pCPUs)

def anyIn (m : CPUMask) (pCPUs : Nat) : Bool := decide (m ≠ 0 ∧ (pCPUs ≥ 16 ∨ shifted m pCPUs ≠ 0))

def any (set_ : SetWords) (numBits : Nat) : Bool := meets 16 anyIn set_.toList (clip numBits)

def all (set_ : SetWords) (numBits : Nat) : Bool :=
  !meets 16 (fun word => anyIn (~~~word)) set_.toList (clip numBits)

def overlapIn (words : CPUMask × CPUMask) (pCPUs : Nat) : Bool :=
  decide (words.1 &&& words.2 ≠ 0 ∧
    (pCPUs ≥ 16 ∨ shifted words.1 pCPUs &&& shifted words.2 pCPUs &&& 0xffff#32 ≠ 0))

def overlap (set1 set2 : SetWords) (numBits : Nat) : Bool :=
  meets 16 overlapIn (set1.toList.zip set2.toList) (clip numBits)

/-- The first loop of `PSCPU_first()`: the last word looked at and the number
of its first CPU. -/
def firstWord (numBits : Nat) : List CPUMask → CPUMask × Nat → CPUMask × Nat
  | [], result => result
  | word :: rest, (m, cpu) =>
    if cpu < numBits then
      if word ≠ 0 then (word, cpu) else firstWord numBits rest (word, cpu + 16)
    else (m, cpu)

/-- The second loop of `PSCPU_first()`; a word is used up after 16 steps. -/
def firstBit (numBits : Nat) : (steps : Nat) → CPUMask × Nat → Nat
  | 0, (_, cpu) => cpu
  | steps + 1, (m, cpu) =>
    if m ≠ 0 ∧ m &&& 1 = 0 ∧ cpu < numBits then
      firstBit numBits steps (m >>> 1, cpu + 1)
    else cpu

def first (set_ : SetWords) (numBits : Nat) : Int :=
  let numBits := clip numBits
  let cpu := firstBit numBits 16 (firstWord numBits set_.toList (0, 0))
  let cpu : BitVec 16 := if cpu ≥ numBits then -1 else BitVec.ofNat 16 cpu
  cpu.toInt

/-- The first loop of `PSCPU_getUnset()`; `free` may be missing. -/
def collectUnset (set_ : SetWords) (free : Option SetWords) :
    (numBits : Nat) → Option SetWords × Nat
  | 0 => (free, 0)
  | cpu + 1 =>
    let before := collectUnset set_ free cpu
    if ¬isSet set_ cpu then
      (before.1.map (setCPU · cpu), before.2 + 1)
    else before

/-- The second loop of `PSCPU_getUnset()`, below the given CPU. -/
def trimUnset (tpp : Nat) : (cpus : Nat) → Option SetWords × Nat → Option SetWords × Nat
  | 0, result => result
  | cpu + 1, (free, found) =>
    if found % tpp = 0 then (free, found)
    else if (match free with
        | some free => isSet free cpu
        | none => true) then
      trimUnset tpp cpu (free.map (clrCPU · cpu), found - 1)
    else trimUnset tpp cpu (free, found)

/-- `none` stands for the division by zero. -/
def getUnset (set_ : SetWords) (numBits : Nat) (free : Option SetWords)
    (tpp : Nat) : Option (Option SetWords × Nat) :=
  let free := free.map (fun _ => clrAll)
  let numBits := clip numBits
  let result := collectUnset set_ free numBits
  if tpp = 0 then none else some (trimUnset tpp numBits result)

/-! ## The bits of a set -/

variable (set_ : SetWords)

theorem isSet_eq_bit (cpu : Nat) : isSet set_ cpu = bit set_ cpu := by
  rw [isSet]
  split
  · rename_i bound
    rw [bit_stored _ (stored bound), Bool.eq_iff_iff, decide_eq_true_eq]
    exact and_one_shiftLeft_ne_zero _ (Nat.mod_lt _ (by decide))
  · rename_i beyond
    rw [cpuMax] at beyond
    rw [bit_beyond _ (by omega)]

theorem isSet_bound {set_ : SetWords} (isSet_ : isSet set_ cpu = true) : cpu < cpuMax := by
  rw [isSet] at isSet_
  split at isSet_
  · rename_i bound
    exact bound
  · exact nomatch isSet_

theorem isSet_at {word index : Nat} (bound : word < 64) (inside : index < 16) :
    isSet set_ (16 * word + index) = set_[word].getLsbD index := by
  rw [isSet_eq_bit, bit_at _ bound inside]

theorem isSet_clrAll (cpu : Nat) : isSet clrAll cpu = false := by
  rw [isSet_eq_bit, bit, clrAll, Vector.getElem?_replicate]
  split <;> exact getLsbD_zero

theorem isSet_setCPU (bound : cpu < cpuMax) (other : Nat) : isSet (setCPU set_ cpu) other =
      if other = cpu then true else isSet set_ other := by
  rw [isSet_eq_bit, isSet_eq_bit, setCPU, dif_pos bound]
  exact bit_set_or set_ (stored bound) (by decide) other

theorem isSet_clrCPU (bound : cpu < cpuMax) (other : Nat) : isSet (clrCPU set_ cpu) other =
      if other = cpu then false else isSet set_ other := by
  rw [isSet_eq_bit, isSet_eq_bit, clrCPU, dif_pos bound]
  exact bit_set_and_not set_ (stored bound) (by decide) other

def cpus (set_ : SetWords) : CPUSet := (Finset.range cpuMax).filter (isSet set_ · = true)

theorem mem_cpus (cpu : Nat) : cpu ∈ cpus set_ ↔ isSet set_ cpu = true := by
  rw [cpus, mem_filter, mem_range]
  constructor
  · intro both
    exact both.2
  · intro isSet_
    exact ⟨isSet_bound isSet_, isSet_⟩

theorem cpus_clrAll : cpus clrAll = ∅ := by
  ext cpu
  simp [mem_cpus, isSet_clrAll]

theorem cpus_setCPU (bound : cpu < cpuMax) : cpus (setCPU set_ cpu) = insert cpu (cpus set_) := by
  ext other
  rw [mem_cpus, isSet_setCPU set_ bound, mem_insert, mem_cpus]
  split <;> simp [*]

theorem cpus_clrCPU (bound : cpu < cpuMax) : cpus (clrCPU set_ cpu) = (cpus set_).erase cpu := by
  ext other
  rw [mem_cpus, isSet_clrCPU set_ bound, mem_erase, mem_cpus]
  split <;> simp [*]

/-! ## What the loops over the words find -/

theorem clip_le (numBits : Nat) : clip numBits ≤ cpuMax := by
  rw [clip]
  split <;> omega

/-- Beyond the largest CPU there is nothing to be found. -/
theorem below_clip (numBits cpu : Nat) (isSet_ : isSet set_ cpu = true) :
    cpu < clip numBits ↔ cpu < numBits := by
  have bound := isSet_bound isSet_
  rw [clip]
  split <;> omega

/-- No bit of a promoted word is shifted out. -/
theorem shifted_ne_zero {m : CPUMask} {pCPUs : Nat} (positive : 0 < pCPUs)
    (nonzero : m ≠ 0) : shifted m pCPUs ≠ 0 := by
  rw [ne_zero_iff] at nonzero ⊢
  obtain ⟨index, bound, isSet_⟩ := nonzero
  refine ⟨index + (16 - pCPUs), by omega, ?_⟩
  rw [shifted, getLsbD_shiftLeft, getLsbD_setWidth, Nat.add_sub_cancel, isSet_]
  simp
  omega

theorem anyIn_iff {m : CPUMask} {pCPUs : Nat} (positive : 0 < pCPUs) :
    anyIn m pCPUs = true ↔ ∃ index < 16, m.getLsbD index = true := by
  rw [anyIn, decide_eq_true_eq, ← ne_zero_iff]
  constructor
  · intro both
    exact both.1
  · intro nonzero
    exact ⟨nonzero, .inr (shifted_ne_zero positive nonzero)⟩

theorem getLsbD_shifted (m : CPUMask) (pCPUs index : Nat) (bound : index < 16) :
    (shifted m pCPUs).getLsbD index =
      (decide (16 - pCPUs ≤ index) && m.getLsbD (index - (16 - pCPUs))) := by
  rw [shifted, getLsbD_shiftLeft, getLsbD_setWidth,
    decide_eq_true (by omega : index < 32),
    decide_eq_true (by omega : index - (16 - pCPUs) < 32), Bool.true_and,
    Bool.true_and, ← decide_not]
  congr 1
  exact decide_eq_decide.mpr Nat.not_lt

/-- Cut to the width of a word, the bits beyond the ones asked for are gone. -/
theorem overlapIn_iff (m1 m2 : CPUMask) (pCPUs : Nat) :
    overlapIn (m1, m2) pCPUs = true ↔ ∃ index < 16, index < pCPUs ∧
      m1.getLsbD index = true ∧ m2.getLsbD index = true := by
  rw [overlapIn, decide_eq_true_eq]
  dsimp only
  rw [ne_zero_iff, ne_zero_iff]
  constructor
  · rintro ⟨⟨index, bound, both⟩, whole | ⟨place, inside, found⟩⟩
    · rw [getLsbD_and, Bool.and_eq_true] at both
      exact ⟨index, bound, by omega, both⟩
    · rw [getLsbD_and, Bool.and_eq_true] at found
      obtain ⟨found, low⟩ := found
      have below : place < 16 := by
        by_contra high
        have cleared : (0xffff#32).getLsbD place = false := by
          rw [getLsbD_ofNat, decide_eq_true inside, Bool.true_and]
          exact Nat.testBit_lt_two_pow (lt_of_lt_of_le (by decide : 0xffff < 2 ^ 16)
            (Nat.pow_le_pow_right (by decide) (Nat.not_lt.mp high)))
        rw [cleared] at low
        exact nomatch low
      rw [getLsbD_and, getLsbD_shifted _ _ _ below,
        getLsbD_shifted _ _ _ below, Bool.and_eq_true, Bool.and_eq_true,
        Bool.and_eq_true, decide_eq_true_eq] at found
      obtain ⟨⟨from_, first_⟩, -, second⟩ := found
      exact ⟨place - (16 - pCPUs), by omega, by omega, first_, second⟩
  · rintro ⟨index, bound, below, first_, second⟩
    constructor
    · refine ⟨index, bound, ?_⟩
      rw [getLsbD_and, first_, second]
      rfl
    · by_cases whole : pCPUs ≥ 16
      · exact .inl whole
      · apply Or.inr
        have inside : index + (16 - pCPUs) < 16 := by omega
        refine ⟨index + (16 - pCPUs), by omega, ?_⟩
        rw [getLsbD_and, getLsbD_and,
          getLsbD_shifted _ _ _ inside, getLsbD_shifted _ _ _ inside,
          Nat.add_sub_cancel, first_, second,
          decide_eq_true (Nat.le_add_left _ _), getLsbD_ofNat,
          decide_eq_true (by omega : index + (16 - pCPUs) < 32)]
        have low : Nat.testBit 0xffff (index + (16 - pCPUs)) = true := by
          rw [show 0xffff = 2 ^ 16 - 1 from rfl, Nat.testBit_two_pow_sub_one, decide_eq_true inside]
        simp [low]

theorem word_below_clip (bound : cpu < cpuMax) :
    16 * (cpu / 16) < clip numBits ↔ 16 * (cpu / 16) < numBits := by
  rw [clip]
  split <;> omega

theorem stored_word (bound : cpu < cpuMax) (set_ : SetWords) : cpu / 16 < set_.toList.length := by
  rw [Vector.length_toList]
  exact stored bound

/-- Some word that begins below the given number of bits is not empty. -/
theorem any_iff (numBits : Nat) :
    any set_ numBits = true ↔ ∃ cpu, 16 * (cpu / 16) < numBits ∧ isSet set_ cpu = true := by
  rw [any, meets_iff]
  constructor
  · rintro ⟨word, inside, below, found⟩
    rw [anyIn_iff (by omega)] at found
    obtain ⟨index, bound, found⟩ := found
    rw [Vector.length_toList] at inside
    rw [Vector.getElem_toList, ← isSet_at set_ inside bound] at found
    have place : (16 * word + index) / 16 = word := by omega
    refine ⟨16 * word + index, ?_, found⟩
    rw [← word_below_clip (isSet_bound found), place]
    exact below
  · rintro ⟨cpu, below, found⟩
    have bound := isSet_bound found
    have below := (word_below_clip bound).mpr below
    refine ⟨cpu / 16, stored_word bound set_, below, ?_⟩
    rw [anyIn_iff (by omega)]
    refine ⟨cpu % 16, Nat.mod_lt _ (by decide), ?_⟩
    rw [Vector.getElem_toList,
      ← isSet_at set_ (stored bound) (Nat.mod_lt _ (by decide)),
      Nat.div_add_mod]
    exact found

/-- Every word that begins below the given number of bits is full. -/
theorem all_iff (numBits : Nat) : all set_ numBits = true ↔ ∀ cpu, cpu < cpuMax →
      16 * (cpu / 16) < numBits → isSet set_ cpu = true := by
  rw [all, Bool.not_eq_true', Bool.eq_false_iff, Ne, meets_iff]
  constructor
  · intro full cpu bound below
    have below := (word_below_clip bound).mpr below
    by_contra isClear
    apply full
    refine ⟨cpu / 16, stored_word bound set_, below, ?_⟩
    rw [anyIn_iff (by omega)]
    have inside : cpu % 16 < 16 := Nat.mod_lt _ (by decide)
    refine ⟨cpu % 16, inside, ?_⟩
    rw [Vector.getElem_toList, BitVec.getLsbD_not, decide_eq_true inside,
      ← isSet_at set_ (stored bound) inside, Nat.div_add_mod,
      Bool.eq_false_iff.mpr isClear]
    rfl
  · rintro full ⟨word, inside, below, found⟩
    rw [anyIn_iff (by omega)] at found
    obtain ⟨index, bound, found⟩ := found
    rw [Vector.length_toList] at inside
    rw [Vector.getElem_toList, BitVec.getLsbD_not,
      ← isSet_at set_ inside bound, Bool.and_eq_true,
      Bool.not_eq_true'] at found
    have place : (16 * word + index) / 16 = word := by omega
    have small : 16 * word + index < cpuMax := by
      rw [cpuMax]
      omega
    rw [full _ small (by
      rw [← word_below_clip small, place]
      exact below)] at found
    exact nomatch found.2

variable (set1 set2 : SetWords)

theorem overlap_iff (numBits : Nat) : overlap set1 set2 numBits = true ↔
      ∃ cpu < numBits, isSet set1 cpu = true ∧ isSet set2 cpu = true := by
  rw [overlap, meets_iff]
  constructor
  · rintro ⟨word, inside, below, found⟩
    rw [List.getElem_zip, overlapIn_iff] at found
    obtain ⟨index, bound, asked, first_, second⟩ := found
    rw [List.length_zip, Vector.length_toList, Vector.length_toList, Nat.min_self] at inside
    rw [Vector.getElem_toList, ← isSet_at _ inside bound] at first_ second
    refine ⟨16 * word + index, ?_, first_, second⟩
    rw [← below_clip set1 _ _ first_]
    omega
  · rintro ⟨cpu, below, first_, second⟩
    have bound := isSet_bound first_
    rw [← below_clip set1 _ _ first_] at below
    have inside : cpu % 16 < 16 := Nat.mod_lt _ (by decide)
    have both : cpu / 16 < (set1.toList.zip set2.toList).length := by
      rw [List.length_zip, Vector.length_toList, Vector.length_toList, Nat.min_self]
      exact stored bound
    refine ⟨cpu / 16, both, by omega, ?_⟩
    rw [List.getElem_zip, overlapIn_iff]
    refine ⟨cpu % 16, inside, by omega, ?_⟩
    rw [Vector.getElem_toList, Vector.getElem_toList,
      ← isSet_at _ (stored bound) inside, ← isSet_at _ (stored bound) inside,
      Nat.div_add_mod]
    exact ⟨first_, second⟩

/-! ## The first CPU -/

/-- What the first loop of `PSCPU_first()` ends with. -/
inductive FoundWord (numBits : Nat) (words : List CPUMask) (cpu : Nat) :
    CPUMask × Nat → Prop where
  | empty {end_ : Nat} (beyond : numBits ≤ end_)
      (clear : ∀ (word : Nat) (inside : word < words.length),
        cpu + 16 * word < numBits → words[word] = 0) :
      FoundWord numBits words cpu (0, end_)
  | word (word : Nat) (inside : word < words.length) (nonzero : words[word] ≠ 0)
      (clear : ∀ (lower : Nat) (inside : lower < words.length), lower < word → words[lower] = 0) :
      FoundWord numBits words cpu (words[word], cpu + 16 * word)

theorem firstWord_found (numBits : Nat) (words : List CPUMask) (cpu : Nat)
    (enough : numBits ≤ cpu + 16 * words.length) :
    FoundWord numBits words cpu (firstWord numBits words (0, cpu)) := by
  induction words generalizing cpu with
  | nil =>
    rw [firstWord]
    apply FoundWord.empty
    · simpa using enough
    · intro word inside
      exact nomatch inside
  | cons word rest next =>
    rw [firstWord]
    split
    · split
      · rename_i nonzero
        exact @FoundWord.word numBits (word :: rest) cpu 0 (Nat.succ_pos _)
          nonzero (fun _ _ below => nomatch below)
      · rename_i zero
        have zero : word = 0 := not_not.mp zero
        rw [zero]
        rw [List.length_cons, Nat.mul_succ] at enough
        have found := next (cpu + 16) (by omega)
        generalize firstWord numBits rest (0, cpu + 16) = result at found
        rcases found with ⟨beyond, clear⟩ | ⟨index, inside, nonzero, clear⟩
        · apply FoundWord.empty beyond
          intro place inside below
          cases place with
          | zero => rfl
          | succ place =>
            apply clear place (Nat.lt_of_succ_lt_succ inside)
            omega
        · have same : cpu + 16 + 16 * index = cpu + 16 * (index + 1) := by
            omega
          rw [same]
          apply @FoundWord.word numBits ((0 : CPUMask) :: rest) cpu (index + 1)
            (Nat.succ_lt_succ inside) nonzero
          intro lower inside below
          cases lower with
          | zero => rfl
          | succ lower =>
            exact clear lower (Nat.lt_of_succ_lt_succ inside) (Nat.lt_of_succ_lt_succ below)
    · rename_i beyond
      apply FoundWord.empty (Nat.not_lt.mp beyond)
      intro place _ below
      omega

theorem and_one_eq_zero (m : CPUMask) : m &&& 1 = 0 ↔ m.getLsbD 0 = false := by
  have test := @and_one_shiftLeft_ne_zero 16 m 0 (by decide)
  rw [← not_iff_not, Bool.not_eq_false]
  exact test

/-- The second loop of `PSCPU_first()` stops at the lowest bit of the word. -/
theorem firstBit_lowest (numBits : Nat) (lowest : Nat) (steps : Nat) (m : CPUMask) (cpu : Nat)
    (enough : lowest ≤ steps) (isSet_ : m.getLsbD lowest = true)
    (clear : ∀ lower < lowest, m.getLsbD lower = false) :
    (cpu + lowest < numBits → firstBit numBits steps (m, cpu) = cpu + lowest) ∧
      (numBits ≤ cpu + lowest → numBits ≤ firstBit numBits steps (m, cpu)) := by
  induction lowest generalizing steps m cpu with
  | zero =>
    have stop : firstBit numBits steps (m, cpu) = cpu := by
      cases steps with
      | zero => rfl
      | succ steps =>
        rw [firstBit, if_neg]
        rintro ⟨-, even, -⟩
        rw [and_one_eq_zero, isSet_] at even
        exact nomatch even
    rw [stop]
    exact ⟨fun _ => rfl, id⟩
  | succ lowest next =>
    obtain ⟨steps, rfl⟩ : ∃ rest, steps = rest + 1 := ⟨steps - 1, by omega⟩
    have nonzero : m ≠ 0 := by
      rintro rfl
      rw [ofNat_eq_ofNat, getLsbD_zero] at isSet_
      exact nomatch isSet_
    have even := (and_one_eq_zero m).mpr (clear 0 (Nat.succ_pos _))
    rw [firstBit]
    by_cases below : cpu < numBits
    · rw [if_pos ⟨nonzero, even, below⟩]
      have rest := next steps (m >>> 1) (cpu + 1) (by omega)
        (by
          rw [getLsbD_ushiftRight, Nat.add_comm]
          exact isSet_)
        (by
          intro lower under
          rw [getLsbD_ushiftRight, Nat.add_comm]
          exact clear _ (by omega))
      have same : cpu + 1 + lowest = cpu + (lowest + 1) := by omega
      rw [same] at rest
      exact rest
    · rw [if_neg (fun all => below all.2.2)]
      constructor
      · intro under
        omega
      · intro _
        omega

theorem firstBit_zero (numBits steps cpu : Nat) : firstBit numBits steps (0, cpu) = cpu := by
  cases steps with
  | zero => rfl
  | succ steps =>
    rw [firstBit, if_neg]
    intro goesOn
    exact goesOn.1 rfl

/-- The number of a CPU fits into the result. -/
theorem toInt_ofNat (bound : cpu < cpuMax) : (BitVec.ofNat 16 cpu).toInt = cpu := by
  rw [cpuMax] at bound
  rw [toInt_eq_toNat_of_lt, toNat_ofNat, Nat.mod_eq_of_lt (by omega)]
  rw [toNat_ofNat, Nat.mod_eq_of_lt (by omega)]
  omega

/-- The CPU the result of `PSCPU_first()` is made from. -/
theorem first_cases (numBits : Nat) :
    (first set_ numBits = -1 ∧ ∀ cpu < numBits, isSet set_ cpu = false) ∨
      ∃ cpu < numBits, first set_ numBits = (cpu : Int) ∧
        isSet set_ cpu = true ∧ ∀ lower < cpu, isSet set_ lower = false := by
  have most := clip_le numBits
  have found := firstWord_found (clip numBits) set_.toList 0 (by
    rw [Vector.length_toList]
    rw [cpuMax] at most
    omega)
  rw [first]
  generalize firstWord (clip numBits) set_.toList (0, 0) = result at found
  rcases found with ⟨beyond, clear⟩ | ⟨word, inside, nonzero, clear⟩
  · apply Or.inl
    rw [firstBit_zero, if_pos beyond]
    refine ⟨rfl, fun cpu below => ?_⟩
    by_contra isSet_
    rw [Bool.not_eq_false] at isSet_
    have bound := isSet_bound isSet_
    rw [← below_clip set_ _ _ isSet_] at below
    have empty := clear (cpu / 16) (stored_word bound set_) (by omega)
    rw [← Nat.div_add_mod cpu 16, isSet_at _ (stored bound) (Nat.mod_lt _ (by decide))] at isSet_
    rw [Vector.getElem_toList] at empty
    rw [empty, ofNat_eq_ofNat, getLsbD_zero] at isSet_
    exact nomatch isSet_
  · rw [Vector.length_toList] at inside
    have present := (ne_zero_iff _).mp nonzero
    have lowest := Nat.find_spec present
    have minimal : ∀ lower < Nat.find present, set_.toList[word].getLsbD lower = false := by
      intro lower below
      have absent := Nat.find_min present below
      rw [Bool.eq_false_iff]
      intro isSet_
      exact absent ⟨by omega, isSet_⟩
    generalize Nat.find present = index at lowest minimal
    obtain ⟨bound, isSet_⟩ := lowest
    obtain ⟨stops, runs⟩ := firstBit_lowest (clip numBits) index 16
      set_.toList[word] (0 + 16 * word) (by omega) isSet_ minimal
    rw [Vector.getElem_toList] at isSet_ minimal
    rw [← isSet_at _ inside bound] at isSet_
    have lower_clear : ∀ lower < 16 * word + index, isSet set_ lower = false := by
      intro lower below
      have inside_ : lower % 16 < 16 := Nat.mod_lt _ (by decide)
      have below_ : lower / 16 < 64 := by omega
      rw [← Nat.div_add_mod lower 16, isSet_at _ below_ inside_]
      by_cases same : lower / 16 = word
      · subst same
        exact minimal _ (by omega)
      · have empty := clear (lower / 16) (by rwa [Vector.length_toList]) (by omega)
        rw [Vector.getElem_toList] at empty
        rw [empty, ofNat_eq_ofNat, getLsbD_zero]
    have clipped := below_clip set_ numBits _ isSet_
    rw [Nat.zero_add] at stops runs
    rw [Nat.zero_add]
    by_cases below : 16 * word + index < clip numBits
    · apply Or.inr
      refine ⟨16 * word + index, clipped.mp below, ?_, isSet_, lower_clear⟩
      rw [stops below, if_neg (by omega), toInt_ofNat (by omega)]
    · apply Or.inl
      rw [if_pos (runs (Nat.not_lt.mp below))]
      refine ⟨rfl, fun cpu inside => lower_clear cpu ?_⟩
      rw [clipped] at below
      omega

/-! ## The clear bits -/

theorem collectUnset_cpus (most : numBits ≤ cpuMax) :
    ∃ free, collectUnset set_ (some clrAll) numBits =
        (some free, (Partition.collectUnset (cpus set_) numBits).2) ∧
      cpus free = (Partition.collectUnset (cpus set_) numBits).1 := by
  induction numBits with
  | zero => exact ⟨clrAll, rfl, cpus_clrAll⟩
  | succ cpu before =>
    obtain ⟨free, found, same⟩ := before (Nat.le_of_succ_le most)
    rw [collectUnset, Partition.collectUnset, found]
    by_cases isSet_ : isSet set_ cpu = true
    · have member := (mem_cpus set_ cpu).mpr isSet_
      rw [if_neg (not_not.mpr isSet_), if_neg (not_not.mpr member)]
      exact ⟨free, rfl, same⟩
    · have absent := fun member => isSet_ ((mem_cpus set_ cpu).mp member)
      rw [if_pos isSet_, if_pos absent]
      refine ⟨setCPU free cpu, rfl, ?_⟩
      rw [cpus_setCPU free most, same]

theorem trimUnset_cpus (tpp : Nat) (most : numBits ≤ cpuMax) (free : SetWords)
    (found : Nat) :
    ∃ after, trimUnset tpp numBits (some free, found) =
        (some after, (Partition.trimUnset tpp numBits (cpus free, found)).2) ∧
      cpus after = (Partition.trimUnset tpp numBits (cpus free, found)).1 := by
  induction numBits generalizing free found with
  | zero => exact ⟨free, rfl, rfl⟩
  | succ cpu next =>
    have lower := next (Nat.le_of_succ_le most)
    rw [trimUnset, Partition.trimUnset]
    by_cases multiple : found % tpp = 0
    · rw [if_pos multiple, if_pos multiple]
      exact ⟨free, rfl, rfl⟩
    · rw [if_neg multiple, if_neg multiple]
      by_cases isSet_ : isSet free cpu = true
      · rw [if_pos isSet_, if_pos ((mem_cpus free cpu).mpr isSet_), ← cpus_clrCPU free most]
        exact lower _ _
      · rw [if_neg isSet_, if_neg (fun member => isSet_ ((mem_cpus free cpu).mp member))]
        exact lower _ _

theorem getUnset_cpus (numBits : Nat) (old : SetWords) (positive : tpp ≠ 0) :
    ∃ free, getUnset set_ numBits (some old) tpp =
        some (some free, (Partition.getUnset (cpus set_) numBits tpp).2) ∧
      cpus free = (Partition.getUnset (cpus set_) numBits tpp).1 := by
  obtain ⟨free, found, same⟩ := collectUnset_cpus set_ (clip_le numBits)
  obtain ⟨after, trimmed, rest⟩ := trimUnset_cpus tpp (clip_le numBits) free
    (Partition.collectUnset (cpus set_) (clip numBits)).2
  rw [same] at trimmed rest
  refine ⟨after, ?_, rest⟩
  rw [getUnset, if_neg positive]
  dsimp only [map_some]
  rw [found, trimmed]
  rfl

theorem collectUnset_none (numBits : Nat) :
    collectUnset set_ none numBits = (none, (Partition.collectUnset (cpus set_) numBits).2) := by
  induction numBits with
  | zero => rfl
  | succ cpu before =>
    rw [collectUnset, Partition.collectUnset, before]
    by_cases isSet_ : isSet set_ cpu = true
    · have member := (mem_cpus set_ cpu).mpr isSet_
      rw [if_neg (not_not.mpr isSet_), if_neg (not_not.mpr member)]
    · have absent := fun member => isSet_ ((mem_cpus set_ cpu).mp member)
      rw [if_pos isSet_, if_pos absent]
      rfl

/-- Without a set to deliver the CPUs are only counted. -/
theorem trimUnset_none (tpp : Nat) {found : Nat} (enough : found ≤ numBits) :
    trimUnset tpp numBits (none, found) = (none, found / tpp * tpp) := by
  induction numBits generalizing found with
  | zero =>
    have zero : found = 0 := Nat.le_zero.mp enough
    rw [zero, trimUnset, Nat.zero_div, Nat.zero_mul]
  | succ cpu next =>
    rw [trimUnset]
    split
    · rename_i multiple
      rw [Nat.div_mul_cancel (Nat.dvd_of_mod_eq_zero multiple)]
    · rename_i rest
      rw [if_pos rfl, map_none, next (by omega), pred_div rest]

theorem getUnset_none (numBits : Nat) (positive : tpp ≠ 0) : getUnset set_ numBits none tpp =
      some (none, (Partition.getUnset (cpus set_) numBits tpp).2) := by
  have few : (Partition.collectUnset (cpus set_) (clip numBits)).2 ≤ clip numBits := by
    rw [collectUnset_snd, collectUnset_fst]
    apply le_trans (card_filter_le _ _)
    rw [card_range]
  have lowest := trimUnset_lowest tpp (clip numBits) _
    (collectUnset_below (cpus set_) (clip numBits))
  rw [← collectUnset_snd] at lowest
  rw [getUnset, if_neg positive]
  dsimp only [map_none]
  rw [collectUnset_none, trimUnset_none tpp few]
  rw [Partition.getUnset]
  change _ = some (none, (Partition.trimUnset tpp (clip numBits)
    (Partition.collectUnset (cpus set_) (clip numBits))).2)
  rw [lowest.count, ← collectUnset_snd]

/-! ## What the predicates say -/

/-- The clear bits among the first ones. -/
def clear (set_ : SetWords) (numBits : Nat) : CPUSet :=
  (Finset.range (min numBits cpuMax)).filter (isSet set_ · = false)

/-- As many of the lowest clear bits as the threads of processes can use. -/
structure LowestClear (set_ : SetWords) (numBits tpp : Nat)
    (free : SetWords) (found : Nat) : Prop where
  multiple : tpp ∣ found
  most : found ≤ (clear set_ numBits).card
  largest : ∀ other, tpp ∣ other → other ≤ (clear set_ numBits).card → other ≤ found
  size : (cpus free).card = found
  subset : cpus free ⊆ clear set_ numBits
  lowest : ∀ cpu ∈ cpus free, ∀ lower ∈ clear set_ numBits, lower < cpu → lower ∈ cpus free

/-- The predicates say what their names promise. -/
structure Meant (set1 set2 : SetWords) (numBits tpp : Nat) : Prop where
  any : SetWords.any set1 numBits = true ↔ ∃ cpu < numBits, isSet set1 cpu = true
  all : SetWords.all set1 numBits = true ↔ ∀ cpu < min numBits cpuMax, isSet set1 cpu = true
  overlap : SetWords.overlap set1 set2 numBits = true ↔
    ∃ cpu < numBits, isSet set1 cpu = true ∧ isSet set2 cpu = true
  first : ∀ cpu < numBits, isSet set1 cpu = true → (∀ lower < cpu, isSet set1 lower = false) →
    SetWords.first set1 numBits = cpu
  firstNone : (∀ cpu < numBits, isSet set1 cpu = false) → SetWords.first set1 numBits = -1
  getUnset : ∀ old, ∃ free found,
    SetWords.getUnset set1 numBits (some old) tpp = some (some free, found) ∧ SetWords.getUnset set1
      numBits none tpp = some (none, found) ∧ LowestClear set1 numBits tpp free found

/-- A bit of the last word looked at that is not asked for. -/
def Beyond (numBits cpu : Nat) : Prop := numBits ≤ cpu ∧ 16 * (cpu / 16) < numBits ∧ cpu < cpuMax

/-- The bits beyond the ones asked for make no difference, and a process has
threads. -/
structure Plain (set_ : SetWords) (numBits tpp : Nat) : Prop where
  any : (∃ cpu < numBits, isSet set_ cpu = true) ∨
    ∀ cpu, Beyond numBits cpu → isSet set_ cpu = false
  all : (∃ cpu < min numBits cpuMax, isSet set_ cpu = false) ∨
    ∀ cpu, Beyond numBits cpu → isSet set_ cpu = true
  threads : tpp ≠ 0

theorem getUnset_lowestClear (numBits : Nat) (positive : tpp ≠ 0)
    (old : SetWords) :
    ∃ free found,
      getUnset set_ numBits (some old) tpp = some (some free, found) ∧ getUnset set_ numBits none
        tpp = some (none, found) ∧ LowestClear set_ numBits tpp free found := by
  obtain ⟨free, delivered, same⟩ := getUnset_cpus set_ numBits old positive
  have trimmed := getUnset_trimmed (cpus set_) numBits tpp
  have lowest := getUnset_lowest (cpus set_) numBits tpp
  have bits : (Finset.range (min numBits cpuMax)).filter (· ∉ cpus set_) =
      clear set_ numBits := by
    rw [clear]
    apply filter_congr
    intro cpu _
    rw [mem_cpus, Bool.not_eq_true]
  rw [bits] at trimmed lowest
  refine ⟨free, _, delivered, getUnset_none set_ numBits positive, ?_⟩
  constructor
  · exact trimmed.multiple
  · rw [lowest.count]
    exact Nat.div_mul_le_self _ _
  · rintro other ⟨times, rfl⟩ few
    rw [lowest.count, Nat.mul_comm]
    apply Nat.mul_le_mul_right
    rw [Nat.le_div_iff_mul_le (Nat.pos_of_ne_zero positive), Nat.mul_comm]
    exact few
  · rw [same, trimmed.card]
  · rw [same]
    exact trimmed.subset
  · rw [same]
    exact lowest.lowest

theorem Beyond.of_word (bound : cpu < cpuMax)
    (looked : 16 * (cpu / 16) < numBits) :
    cpu < numBits ∨ Beyond numBits cpu := by
  rcases Nat.lt_or_ge cpu numBits with below | beyond
  · exact .inl below
  · exact .inr ⟨beyond, looked, bound⟩

theorem below_word (below : cpu < numBits) : 16 * (cpu / 16) < numBits :=
  lt_of_le_of_lt (Nat.mul_div_le cpu 16) below

theorem any_meant_iff (numBits : Nat) :
    (any set_ numBits = true ↔ ∃ cpu < numBits, isSet set_ cpu = true) ↔
      ((∃ cpu < numBits, isSet set_ cpu = true) ∨
        ∀ cpu, Beyond numBits cpu → isSet set_ cpu = false) := by
  rw [any_iff]
  constructor
  · intro meant
    by_cases asked : ∃ cpu < numBits, isSet set_ cpu = true
    · exact .inl asked
    · apply Or.inr
      intro cpu beyond
      rw [Bool.eq_false_iff]
      intro isSet_
      exact asked (meant.mp ⟨cpu, beyond.2.1, isSet_⟩)
  · intro plain
    constructor
    · rintro ⟨cpu, looked, isSet_⟩
      rcases plain with asked | clear
      · exact asked
      · rcases Beyond.of_word (isSet_bound isSet_) looked with below | beyond
        · exact ⟨cpu, below, isSet_⟩
        · exact absurd isSet_ (Bool.eq_false_iff.mp (clear cpu beyond))
    · rintro ⟨cpu, below, isSet_⟩
      exact ⟨cpu, below_word below, isSet_⟩

theorem all_meant_iff (numBits : Nat) :
    (all set_ numBits = true ↔ ∀ cpu < min numBits cpuMax, isSet set_ cpu = true) ↔
      ((∃ cpu < min numBits cpuMax, isSet set_ cpu = false) ∨
        ∀ cpu, Beyond numBits cpu → isSet set_ cpu = true) := by
  rw [all_iff]
  constructor
  · intro meant
    by_cases asked : ∃ cpu < min numBits cpuMax, isSet set_ cpu = false
    · exact .inl asked
    · apply Or.inr
      intro cpu beyond
      apply meant.mpr _ cpu beyond.2.2 beyond.2.1
      intro other below
      by_contra isClear
      exact asked ⟨other, below, Bool.eq_false_iff.mpr isClear⟩
  · intro plain
    constructor
    · intro full cpu below
      exact full cpu (lt_min_iff.mp below).2 (below_word (lt_min_iff.mp below).1)
    · intro full cpu bound looked
      rcases Beyond.of_word bound looked with below | beyond
      · exact full cpu (lt_min below bound)
      · rcases plain with ⟨other, below, isClear⟩ | rest
        · exact absurd (full other below) (Bool.eq_false_iff.mp isClear)
        · exact rest cpu beyond

theorem meant_iff_plain (numBits tpp : Nat) :
    Meant set1 set2 numBits tpp ↔ Plain set1 numBits tpp := by
  constructor
  · intro meant
    refine ⟨(any_meant_iff set1 numBits).mp meant.any,
      (all_meant_iff set1 numBits).mp meant.all, ?_⟩
    rintro rfl
    obtain ⟨_, _, divided, -⟩ := meant.getUnset clrAll
    exact nomatch divided
  · intro plain
    constructor
    · exact (any_meant_iff set1 numBits).mpr plain.any
    · exact (all_meant_iff set1 numBits).mpr plain.all
    · exact overlap_iff set1 set2 numBits
    · intro cpu below isSet_ lowest
      rcases first_cases set1 numBits with ⟨-, empty⟩ | ⟨other, -, same, otherSet, least⟩
      · rw [empty cpu below] at isSet_
        exact nomatch isSet_
      · rw [same]
        rcases Nat.lt_trichotomy other cpu with less | equal | more
        · rw [lowest other less] at otherSet
          exact nomatch otherSet
        · rw [equal]
        · rw [least cpu more] at isSet_
          exact nomatch isSet_
    · intro empty
      rcases first_cases set1 numBits with ⟨result, -⟩ | ⟨other, below, -, otherSet, -⟩
      · exact result
      · rw [empty other below] at otherSet
        exact nomatch otherSet
    · exact getUnset_lowestClear set1 numBits plain.threads

/-- Only CPU 1 is set, and only CPU 0 is asked for. -/
theorem any_not_meant :
    ¬∀ (set1 set2 : SetWords) (numBits tpp : Nat), Meant set1 set2 numBits tpp := by
  intro meant
  have found := (meant (setCPU clrAll 1) clrAll 1 1).any.mp (by decide +kernel)
  obtain ⟨cpu, below, isSet_⟩ := found
  have first_ : cpu = 0 := Nat.lt_one_iff.mp below
  subst first_
  exact absurd isSet_ (by decide +kernel)

end SetWords

/-! ## On sets of CPUs -/

/-- `PSCPU_any()` on the CPUs of a set. -/
def anyCpu (set_ : CPUSet) (numBits : Nat) : Bool :=
  decide (∃ cpu ∈ set_, 16 * (cpu / 16) < numBits)

/-- `PSCPU_overlap()` on the CPUs of two sets. -/
def overlapCpu (set1 set2 : CPUSet) (numBits : Nat) : Bool :=
  decide (∃ cpu ∈ set1, cpu ∈ set2 ∧ cpu < numBits)

end Psmgmt.Partition
