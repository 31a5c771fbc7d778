import Mathlib

/-!
# Counting with three digits

A counter of three digits, each with a radix of its own, runs through all its
values and starts again.
-/

/-- Three digits, or their radices. -/
structure Odometer where
  low : Nat
  middle : Nat
  high : Nat
  deriving DecidableEq

namespace Odometer

variable (radix : Odometer)

/-- All digits are below their radices. -/
structure Valid (digits : Odometer) : Prop where
  low : digits.low < radix.low
  middle : digits.middle < radix.middle
  high : digits.high < radix.high

/-- The number of values. -/
def size : Nat := radix.low * (radix.middle * radix.high)

def value (digits : Odometer) : Nat :=
  digits.low + radix.low * (digits.middle + radix.middle * digits.high)

/-- Count on by one. -/
def next (digits : Odometer) : Odometer :=
  if digits.low + 1 < radix.low then
    { digits with low := digits.low + 1 }
  else if digits.middle + 1 < radix.middle then
    { digits with low := 0, middle := digits.middle + 1 }
  else if digits.high + 1 < radix.high then
    { low := 0, middle := 0, high := digits.high + 1 }
  else { low := 0, middle := 0, high := 0 }

variable {radix} {digits : Odometer}

theorem pair_lt {low high radix count : Nat} (lowBound : low < radix)
    (highBound : high < count) : low + radix * high < radix * count := by
  have below : radix * (high + 1) ≤ radix * count := Nat.mul_le_mul_left radix highBound
  rw [Nat.mul_add, Nat.mul_one] at below
  omega

theorem pair_last {low high radix count : Nat} (lowBound : low < radix)
    (highBound : high < count) :
    low + radix * high + 1 = radix * count ↔ low + 1 = radix ∧ high + 1 = count := by
  constructor
  · intro last
    have full : low + 1 = radix := by
      by_contra room
      have bound := pair_lt (by omega : low + 1 < radix) highBound
      omega
    refine ⟨full, ?_⟩
    have product : radix * (high + 1) = radix * count := by
      rw [Nat.mul_add, Nat.mul_one]
      omega
    exact Nat.eq_of_mul_eq_mul_left (by omega) product
  · rintro ⟨full, highFull⟩
    rw [← highFull, Nat.mul_add, Nat.mul_one]
    omega

theorem value_lt (valid : Valid radix digits) : radix.value digits < radix.size :=
  pair_lt valid.low (pair_lt valid.middle valid.high)

theorem value_next (valid : Valid radix digits) :
    radix.value (radix.next digits) = (radix.value digits + 1) % radix.size := by
  obtain ⟨low, middle, high⟩ := valid
  unfold next
  split
  · rename_i room
    have bound : radix.value { digits with low := digits.low + 1 } <
        radix.size := value_lt ⟨room, middle, high⟩
    have same : radix.value { digits with low := digits.low + 1 } = radix.value digits + 1 := by
      simp only [value]
      omega
    rw [← same, Nat.mod_eq_of_lt bound]
  · have full : digits.low + 1 = radix.low := by omega
    split
    · rename_i room
      have bound : radix.value { digits with low := 0, middle := digits.middle + 1 } < radix.size :=
          value_lt ⟨by dsimp only; omega, room, high⟩
      have same : radix.value { digits with low := 0, middle := digits.middle + 1 } = radix.value
          digits + 1 := by
        simp only [value, ← full]
        ring
      rw [← same, Nat.mod_eq_of_lt bound]
    · have middleFull : digits.middle + 1 = radix.middle := by omega
      split
      · rename_i room
        have bound : radix.value { low := 0, middle := 0, high := digits.high + 1 } < radix.size :=
          value_lt ⟨by dsimp only; omega, by dsimp only; omega, room⟩
        have same : radix.value { low := 0, middle := 0, high := digits.high + 1 } = radix.value
            digits + 1 := by
          simp only [value, ← full, ← middleFull]
          ring
        rw [← same, Nat.mod_eq_of_lt bound]
      · have highFull : digits.high + 1 = radix.high := by omega
        have last : radix.value digits + 1 = radix.size := by
          simp only [value, size, ← full, ← middleFull, ← highFull]
          ring
        rw [last, Nat.mod_self]
        simp [value]

theorem value_mono {other : Odometer} (low : digits.low ≤ other.low)
    (middle : digits.middle ≤ other.middle) (high : digits.high ≤ other.high) :
    radix.value digits ≤ radix.value other := by
  unfold value
  refine Nat.add_le_add low (Nat.mul_le_mul_left _ ?_)
  exact Nat.add_le_add middle (Nat.mul_le_mul_left _ high)

end Odometer
