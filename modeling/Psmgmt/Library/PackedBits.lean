import Mathlib

/-!
# Bits packed into words

An array of words of one width holds a sequence of bits, the lowest bit of the
first word first.
-/

namespace PackedBits

open Option BitVec

variable {width size : Nat}

/-- A bit of the array; there are none beyond its last word. -/
def bit (words : Vector (BitVec width) size) (index : Nat) : Bool :=
  (words[index / width]?.getD 0).getLsbD (index % width)

variable (words : Vector (BitVec width) size)

theorem bit_stored {index : Nat} (stored : index / width < size) :
    bit words index = words[index / width].getLsbD (index % width) := by
  rw [bit, Vector.getElem?_eq_getElem stored, getD_some]

theorem bit_beyond {index : Nat} (beyond : size ≤ index / width) : bit words index = false := by
  rw [bit, Vector.getElem?_eq_none beyond, getD_none]
  exact BitVec.getLsbD_zero

theorem bit_at {word index : Nat} (stored : word < size)
    (bound : index < width) :
    bit words (width * word + index) = words[word].getLsbD index := by
  have place : (width * word + index) / width = word := by
    rw [Nat.mul_add_div (by omega), Nat.div_eq_of_lt bound, Nat.add_zero]
  have rest : (width * word + index) % width = index := by
    rw [Nat.mul_add_mod, Nat.mod_eq_of_lt bound]
  rw [bit, place, rest, Vector.getElem?_eq_getElem stored, getD_some]

theorem ne_zero_iff (word : BitVec width) :
    word ≠ 0 ↔ ∃ index < width, word.getLsbD index = true := by
  constructor
  · intro nonzero
    by_contra clear
    apply nonzero
    apply eq_of_getLsbD_eq
    intro index bound
    rw [ofNat_eq_ofNat, BitVec.getLsbD_zero, Bool.eq_false_iff]
    intro isSet
    exact clear ⟨index, bound, isSet⟩
  · rintro ⟨index, -, isSet⟩ zero
    rw [zero, ofNat_eq_ofNat, BitVec.getLsbD_zero] at isSet
    exact nomatch isSet

theorem getLsbD_one_shiftLeft (index other : Nat) (bound : index < width) :
    (BitVec.ofNat width 1 <<< index).getLsbD other = decide (other = index) := by
  rw [← twoPow_eq, getLsbD_twoPow, decide_eq_true bound, Bool.true_and]
  exact decide_eq_decide.mpr eq_comm

theorem and_one_shiftLeft_ne_zero (word : BitVec width) {index : Nat}
    (bound : index < width) :
    word &&& BitVec.ofNat width 1 <<< index ≠ 0 ↔ word.getLsbD index = true := by
  rw [ne_zero_iff]
  constructor
  · rintro ⟨other, -, both⟩
    rw [getLsbD_and, getLsbD_one_shiftLeft index other bound,
      Bool.and_eq_true, decide_eq_true_eq] at both
    exact both.2 ▸ both.1
  · intro isSet
    refine ⟨index, bound, ?_⟩
    rw [getLsbD_and, getLsbD_one_shiftLeft index index bound, isSet]
    simp

section Update

variable (words : Vector (BitVec width) size) {index : Nat}
  (stored : index / width < size)

theorem bit_set (word : BitVec width) (value : Bool) (positive : 0 < width)
    (changed : ∀ other < width, word.getLsbD other =
      if other = index % width then value
      else words[index / width].getLsbD other) (other : Nat) :
    bit (words.set (index / width) word) other =
      if other = index then value else bit words other := by
  by_cases same : index / width = other / width
  · have there : other / width < size := same ▸ stored
    rw [bit_stored _ there, bit_stored _ there, Vector.getElem_set,
      if_pos same, changed _ (Nat.mod_lt _ positive)]
    have again : other % width = index % width ↔ other = index := by
      constructor
      · intro rest
        rw [← Nat.div_add_mod other width, ← Nat.div_add_mod index width, same, rest]
      · intro equal
        rw [equal]
    simp only [again, same]
  · have apart : other ≠ index := fun equal => same (equal ▸ rfl)
    rw [if_neg apart, bit, bit, Vector.getElem?_set_ne stored same]

theorem bit_set_or (positive : 0 < width) (other : Nat) :
    bit (words.set (index / width)
        (words[index / width] ||| BitVec.ofNat width 1 <<< (index % width))) other =
      if other = index then true else bit words other := by
  apply bit_set words stored _ true positive
  intro place _
  rw [getLsbD_or, getLsbD_one_shiftLeft _ _ (Nat.mod_lt _ positive)]
  split <;> simp [*]

theorem bit_set_and_not (positive : 0 < width) (other : Nat) :
    bit (words.set (index / width)
        (words[index / width] &&& ~~~(BitVec.ofNat width 1 <<< (index % width)))) other =
      if other = index then false else bit words other := by
  apply bit_set words stored _ false positive
  intro place bound
  rw [getLsbD_and, getLsbD_not,
    getLsbD_one_shiftLeft _ _ (Nat.mod_lt _ positive), decide_eq_true bound]
  split <;> simp [*]

end Update

/-! ## Walking over the words -/

/-- Whether a walk over the first words meets one with a property, which may
depend on how many bits are still asked for. -/
def meets {α : Type*} (width : Nat) (test : α → Nat → Bool) : List α → (bits : Nat) → Bool
  | [], _ => false
  | word :: rest, bits =>
    if bits > 0 then
      if test word bits then true else meets width test rest (bits - width)
    else false

theorem meets_iff {α : Type*} (test : α → Nat → Bool) (words : List α)
    (bits : Nat) :
    meets width test words bits = true ↔
      ∃ word, ∃ stored : word < words.length, width * word < bits ∧
        test words[word] (bits - width * word) = true := by
  induction words generalizing bits with
  | nil =>
    constructor
    · intro found
      exact nomatch found
    · rintro ⟨word, stored, -⟩
      exact nomatch stored
  | cons first rest next =>
    rw [meets]
    split
    · rename_i positive
      split
      · rename_i found
        constructor
        · intro _
          exact ⟨0, Nat.succ_pos _, by simpa using positive, by simpa using found⟩
        · intro _
          rfl
      · rename_i notFound
        rw [next]
        constructor
        · rintro ⟨word, stored, below, found⟩
          refine ⟨word + 1, Nat.succ_lt_succ stored, ?_, ?_⟩
          · rw [Nat.mul_succ]
            omega
          · rwa [List.getElem_cons_succ, Nat.mul_succ, Nat.add_comm, ← Nat.sub_sub]
        · rintro ⟨_ | word, stored, below, found⟩
          · exact absurd (by simpa using found) notFound
          · rw [Nat.mul_succ] at below
            refine ⟨word, Nat.lt_of_succ_lt_succ stored, by omega, ?_⟩
            rwa [List.getElem_cons_succ, Nat.mul_succ, Nat.add_comm, ← Nat.sub_sub] at found
    · rename_i zero
      constructor
      · intro found
        exact nomatch found
      · rintro ⟨word, -, below, -⟩
        omega

end PackedBits
