import Mathlib

/-!
# Records read in strides

A sequence of records of nine items, each made of four items of its own, four
that all records share and a closing `zero`, is read in strides of eight.  Only
every ninth stride then is a record's beginning.  The strides still may look
like beginnings of records, but there are too few of them for all the records.
-/

namespace Strides

open List

variable {α : Type}

structure Four (α : Type) where
  a : α
  b : α
  c : α
  d : α
  deriving DecidableEq

def Four.zeros (zero : α) : Four α := ⟨zero, zero, zero, zero⟩

/-- The items of a record without the closing one. -/
def Four.items (key shared : Four α) : List α :=
  [key.a, key.b, key.c, key.d, shared.a, shared.b, shared.c, shared.d]

/-- The strides of a sequence; fewer than eight items are left alone. -/
def strides : List α → List (List α)
  | a :: b :: c :: d :: e :: f :: g :: h :: rest => [a, b, c, d, e, f, g, h] :: strides rest
  | _ => []

theorem length_of_mem {sequence stride : List α}
    (member : stride ∈ strides sequence) : stride.length = 8 := by
  induction sequence using strides.induct with
  | case1 a b c d e f g h rest induction =>
    rcases mem_cons.mp member with rfl | inRest
    · rfl
    · exact induction inRest
  | case2 sequence short =>
    rw [strides] at member
    · exact absurd member (by simp)
    · exact short

/-- What may follow the records: nothing or eight zeros. -/
def ending (zero : α) (last : Bool) : List α :=
  if last then [zero, zero, zero, zero, zero, zero, zero, zero] else []

/-- The sequence of the records with these keys. -/
def records (zero : α) (shared : Four α) (last : Bool) : List (Four α) → List α
  | [] => ending zero last
  | key :: rest =>
    key.a :: key.b :: key.c :: key.d ::
      shared.a :: shared.b :: shared.c :: shared.d :: zero :: records zero shared last rest

section Block

/-! ### The strides of eight records

The first is the beginning of the first record; the others are named by their
place. -/

variable (zero : α) (shared key next : Four α)

def second : List α := [zero, key.a, key.b, key.c, key.d, shared.a, shared.b, shared.c]

def third : List α := [shared.d, zero, key.a, key.b, key.c, key.d, shared.a, shared.b]

def fourth : List α := [shared.c, shared.d, zero, key.a, key.b, key.c, key.d, shared.a]

def fifth : List α := [shared.b, shared.c, shared.d, zero, key.a, key.b, key.c, key.d]

def sixth : List α := [shared.a, shared.b, shared.c, shared.d, zero, key.a, key.b, key.c]

def seventh : List α := [key.d, shared.a, shared.b, shared.c, shared.d, zero, next.a, next.b]

def eighth : List α := [key.c, key.d, shared.a, shared.b, shared.c, shared.d, zero, next.a]

def ninth : List α := [key.b, key.c, key.d, shared.a, shared.b, shared.c, shared.d, zero]

end Block

theorem strides_block (zero : α) (shared : Four α) (last : Bool)
    (k1 k2 k3 k4 k5 k6 k7 k8 : Four α) (rest : List (Four α)) :
    strides (records zero shared last (k1 :: k2 :: k3 :: k4 :: k5 :: k6 :: k7 :: k8 :: rest)) =
      k1.items shared :: second zero shared k2 :: third zero shared k3 ::
        fourth zero shared k4 :: fifth zero shared k5 ::
          sixth zero shared k6 :: seventh zero shared k6 k7 ::
            eighth zero shared k7 k8 :: ninth zero shared k8 ::
              strides (records zero shared last rest) := rfl

variable {a b c d : α} {key other k1 k2 k3 : Four α} {keys : List (Four α)}
  {firsts : List (List α)}

section Found

variable [DecidableEq α] (zero : α) (shared : Four α)

/-- The key of a record the stride looks like the beginning of. -/
def found : List α → Option (Four α)
  | [a, b, c, d, e, f, g, h] =>
    if (⟨e, f, g, h⟩ : Four α) = shared ∧ (⟨a, b, c, d⟩ : Four α) ≠ Four.zeros zero then
      some ⟨a, b, c, d⟩
    else none
  | _ => none

def keysFound (last : Bool) (keys : List (Four α)) : List (Four α) :=
  (strides (records zero shared last keys)).filterMap (found zero shared)

/-- How many keys a stride gives. -/
def count (stride : List α) : Nat :=
  if (found zero shared stride).isSome then 1 else 0

theorem count_le (stride : List α) : count zero shared stride ≤ 1 := by
  rw [count]
  split <;> omega

theorem length_found_cons (stride : List α) (rest : List (List α)) :
    ((stride :: rest).filterMap (found zero shared)).length =
      count zero shared stride + (rest.filterMap (found zero shared)).length := by
  rw [count, filterMap_cons]
  cases found zero shared stride <;> simp [Nat.add_comm]

theorem found_eq_some {e f g h : α} : found zero shared [a, b, c, d, e, f, g, h] = some key ↔
      (⟨e, f, g, h⟩ : Four α) = shared ∧ key = ⟨a, b, c, d⟩ ∧ key ≠ Four.zeros zero := by
  rw [found]
  constructor
  · intro some
    split at some
    · next holds =>
        injection some with same
        subst same
        exact ⟨holds.1, rfl, holds.2⟩
    · exact absurd some (by simp)
  · rintro ⟨first, rfl, second⟩
    rw [if_pos ⟨first, second⟩]

theorem count_eq {e f g h : α} : count zero shared [a, b, c, d, e, f, g, h] =
      if (⟨e, f, g, h⟩ : Four α) = shared ∧
          (⟨a, b, c, d⟩ : Four α) ≠ Four.zeros zero then 1 else 0 := by
  rw [count, found]
  split <;> simp [*]

/-! ### Strides that exclude each other -/

variable {zero shared}

theorem count_fifth (key : Four α) (zeros : shared = Four.zeros zero) :
    count zero shared (fifth zero shared key) = 0 := by
  subst zeros
  simp [fifth, count_eq, Four.zeros]

theorem count_sixth (key : Four α) (zeros : shared = Four.zeros zero) :
    count zero shared (sixth zero shared key) = 0 := by
  subst zeros
  simp [sixth, count_eq, Four.zeros]

/-- Otherwise the ninth gives none, -/
theorem count_ninth (key : Four α) (nonzero : shared ≠ Four.zeros zero) :
    count zero shared (ninth zero shared key) = 0 := by
  obtain ⟨sa, sb, sc, sd⟩ := shared
  rw [ninth, count_eq, if_neg]
  simp only [Four.zeros, ne_eq, Four.mk.injEq] at nonzero ⊢
  grind

theorem count_seventh_eighth (key next last : Four α)
    (nonzero : shared ≠ Four.zeros zero) :
    count zero shared (seventh zero shared key next) +
      count zero shared (eighth zero shared next last) ≤ 1 := by
  obtain ⟨sa, sb, sc, sd⟩ := shared
  simp only [seventh, eighth, Four.zeros, ne_eq, Four.mk.injEq, count_eq]
    at nonzero ⊢
  grind

theorem count_second_sixth (key other : Four α)
    (nonzero : shared ≠ Four.zeros zero) :
    count zero shared (second zero shared key) +
      count zero shared (sixth zero shared other) ≤ 1 := by
  obtain ⟨sa, sb, sc, sd⟩ := shared
  simp only [second, sixth, Four.zeros, ne_eq, Four.mk.injEq, count_eq]
    at nonzero ⊢
  grind

/-- Zeros behind the last record do not make up a record: a stride that
reaches into them gives a key only if the shared items are zero. -/
theorem count_seventh_zeros (key : Four α)
    (nonzero : shared ≠ Four.zeros zero) :
    count zero shared (seventh zero shared key (Four.zeros zero)) = 0 := by
  obtain ⟨sa, sb, sc, sd⟩ := shared
  rw [seventh, count_eq, if_neg]
  simp only [Four.zeros, ne_eq, Four.mk.injEq] at nonzero ⊢
  grind

theorem count_eighth_zeros (key : Four α)
    (nonzero : shared ≠ Four.zeros zero) :
    count zero shared (eighth zero shared key (Four.zeros zero)) = 0 := by
  obtain ⟨sa, sb, sc, sd⟩ := shared
  rw [eighth, count_eq, if_neg]
  simp only [Four.zeros, ne_eq, Four.mk.injEq] at nonzero ⊢
  grind

/-- A stride that ends with zeros in the place of the shared items gives a key
only if these are zero. -/
theorem found_zeros (part : shared = Four.zeros zero → (⟨a, b, c, d⟩ : Four α) = Four.zeros zero) :
    found zero shared [a, b, c, d, zero, zero, zero, zero] = none := by
  rw [found, if_neg]
  rintro ⟨same, nonzero⟩
  exact nonzero (part same.symm)

/-! ### Too few keys are found -/

/-- Of the nine strides of eight records two give no key. -/
theorem length_keysFound_block (last : Bool)
    (k1 k2 k3 k4 k5 k6 k7 k8 : Four α) (rest : List (Four α)) :
    (keysFound zero shared last (k1 :: k2 :: k3 :: k4 :: k5 :: k6 :: k7 :: k8 :: rest)).length ≤
      7 + (keysFound zero shared last rest).length := by
  simp only [keysFound, strides_block, length_found_cons]
  have c1 := count_le zero shared (k1.items shared)
  have c2 := count_le zero shared (second zero shared k2)
  have c3 := count_le zero shared (third zero shared k3)
  have c4 := count_le zero shared (fourth zero shared k4)
  have c5 := count_le zero shared (fifth zero shared k5)
  have c6 := count_le zero shared (sixth zero shared k6)
  by_cases zeros : shared = Four.zeros zero
  · have fifth := count_fifth k5 zeros
    have sixth := count_sixth k6 zeros
    have c7 := count_le zero shared (seventh zero shared k6 k7)
    have c8 := count_le zero shared (eighth zero shared k7 k8)
    have c9 := count_le zero shared (ninth zero shared k8)
    omega
  · have pair := count_seventh_eighth k6 k7 k8 zeros
    have ninth := count_ninth k8 zeros
    omega

theorem keysFound_short {tail : List α}
    (ended : strides (records zero shared true keys) = firsts ++ [tail])
    (plain : strides (records zero shared false keys) = firsts)
    (none : found zero shared tail = none) (last : Bool) :
    keysFound zero shared last keys = firsts.filterMap (found zero shared) := by
  cases last with
  | false => rw [keysFound, plain]
  | true => simp [keysFound, ended, none]

theorem keysFound_nil (last : Bool) : keysFound zero shared last [] = [] :=
  keysFound_short rfl rfl (found_zeros (fun _ => rfl)) last

theorem keysFound_one (last : Bool) (k1 : Four α) :
    keysFound zero shared last [k1] = [k1.items shared].filterMap (found zero shared) :=
  keysFound_short rfl rfl (found_zeros (fun _ => rfl)) last

theorem keysFound_two (last : Bool) (k1 k2 : Four α) : keysFound zero shared last [k1, k2] =
      [k1.items shared, second zero shared k2].filterMap (found zero shared) := by
  refine keysFound_short rfl rfl (found_zeros ?_) last
  rintro rfl
  rfl

theorem keysFound_three (last : Bool) (k1 k2 k3 : Four α) :
    keysFound zero shared last [k1, k2, k3] =
      [k1.items shared, second zero shared k2,
        third zero shared k3].filterMap (found zero shared) := by
  refine keysFound_short rfl rfl (found_zeros ?_) last
  rintro rfl
  rfl

theorem keysFound_four (last : Bool) (k1 k2 k3 k4 : Four α) :
    keysFound zero shared last [k1, k2, k3, k4] =
      [k1.items shared, second zero shared k2, third zero shared k3,
        fourth zero shared k4].filterMap (found zero shared) := by
  refine keysFound_short rfl rfl (found_zeros ?_) last
  rintro rfl
  rfl

theorem keysFound_five (last : Bool) (k1 k2 k3 k4 k5 : Four α) :
    keysFound zero shared last [k1, k2, k3, k4, k5] =
      [k1.items shared, second zero shared k2, third zero shared k3,
        fourth zero shared k4, fifth zero shared k5].filterMap (found zero shared) := by
  refine keysFound_short rfl rfl (found_zeros ?_) last
  rintro rfl
  rfl

theorem length_found_last (last : Bool) (stride : List α) :
    ((if last then [stride] else []).filterMap (found zero shared)).length ≤
      count zero shared stride := by
  cases last with
  | false => simp
  | true => simp [length_found_cons]

/-- Six or seven records have as many strides, and one more if zeros follow;
two of them give no key, or one of six. -/
theorem length_keysFound_six (last : Bool) (k1 k2 k3 k4 k5 k6 : Four α) :
    (keysFound zero shared last [k1, k2, k3, k4, k5, k6]).length < 6 := by
  have shape : strides (records zero shared last [k1, k2, k3, k4, k5, k6]) =
      k1.items shared :: second zero shared k2 :: third zero shared k3 ::
        fourth zero shared k4 :: fifth zero shared k5 :: sixth zero shared k6 ::
            (if last then [seventh zero shared k6 (Four.zeros zero)]
              else []) := by
    cases last <;> rfl
  have rest := @length_found_last _ _ zero shared last (seventh zero shared k6 (Four.zeros zero))
  simp only [keysFound, shape, length_found_cons]
  have c1 := count_le zero shared (k1.items shared)
  have c2 := count_le zero shared (second zero shared k2)
  have c3 := count_le zero shared (third zero shared k3)
  have c4 := count_le zero shared (fourth zero shared k4)
  by_cases zeros : shared = Four.zeros zero
  · have fifth := count_fifth k5 zeros
    have sixth := count_sixth k6 zeros
    have c7 := count_le zero shared (seventh zero shared k6 (Four.zeros zero))
    omega
  · have c5 := count_le zero shared (fifth zero shared k5)
    have pair := count_second_sixth k2 k6 zeros
    have seventh := count_seventh_zeros k6 zeros
    omega

theorem length_keysFound_seven (last : Bool)
    (k1 k2 k3 k4 k5 k6 k7 : Four α) :
    (keysFound zero shared last [k1, k2, k3, k4, k5, k6, k7]).length < 7 := by
  have shape : strides (records zero shared last [k1, k2, k3, k4, k5, k6, k7]) =
        k1.items shared :: second zero shared k2 :: third zero shared k3 ::
          fourth zero shared k4 :: fifth zero shared k5 ::
            sixth zero shared k6 :: seventh zero shared k6 k7 ::
              (if last then [eighth zero shared k7 (Four.zeros zero)]
                else []) := by
    cases last <;> rfl
  have rest := @length_found_last _ _ zero shared last (eighth zero shared k7 (Four.zeros zero))
  simp only [keysFound, shape, length_found_cons]
  have c1 := count_le zero shared (k1.items shared)
  have c2 := count_le zero shared (second zero shared k2)
  have c3 := count_le zero shared (third zero shared k3)
  have c4 := count_le zero shared (fourth zero shared k4)
  have c7 := count_le zero shared (seventh zero shared k6 k7)
  by_cases zeros : shared = Four.zeros zero
  · have fifth := count_fifth k5 zeros
    have sixth := count_sixth k6 zeros
    have c8 := count_le zero shared (eighth zero shared k7 (Four.zeros zero))
    omega
  · have c5 := count_le zero shared (fifth zero shared k5)
    have pair := count_second_sixth k2 k6 zeros
    have eighth := count_eighth_zeros k7 zeros
    omega

/-- No more keys are found than there are records, and fewer if there are six
or more. -/
theorem length_keysFound (last : Bool) : (keys : List (Four α)) →
    (keysFound zero shared last keys).length ≤ keys.length ∧
      (6 ≤ keys.length → (keysFound zero shared last keys).length < keys.length)
  | [] => by simp [keysFound_nil]
  | [k1] => by
      rw [keysFound_one]
      exact ⟨length_filterMap_le _ _, by simp⟩
  | [k1, k2] => by
      rw [keysFound_two]
      exact ⟨length_filterMap_le _ _, by simp⟩
  | [k1, k2, k3] => by
      rw [keysFound_three]
      exact ⟨length_filterMap_le _ _, by simp⟩
  | [k1, k2, k3, k4] => by
      rw [keysFound_four]
      exact ⟨length_filterMap_le _ _, by simp⟩
  | [k1, k2, k3, k4, k5] => by
      rw [keysFound_five]
      exact ⟨length_filterMap_le _ _, by simp⟩
  | [k1, k2, k3, k4, k5, k6] =>
    have fewer := length_keysFound_six last k1 k2 k3 k4 k5 k6
    ⟨Nat.le_of_lt fewer, fun _ => fewer⟩
  | [k1, k2, k3, k4, k5, k6, k7] =>
    have fewer := length_keysFound_seven last k1 k2 k3 k4 k5 k6 k7
    ⟨Nat.le_of_lt fewer, fun _ => fewer⟩
  | k1 :: k2 :: k3 :: k4 :: k5 :: k6 :: k7 :: k8 :: rest => by
      have block := @length_keysFound_block _ _ zero shared last k1 k2 k3 k4 k5 k6 k7 k8 rest
      have others := (length_keysFound last rest).1
      simp only [length_cons]
      omega

/-! ### Few records -/

theorem all_found (distinct : keys.Nodup) (lengths : firsts.length = keys.length)
    (all : keys ⊆ firsts.filterMap (found zero shared)) :
    ∀ stride ∈ firsts, (found zero shared stride).isSome := by
  have most := (distinct.subperm all).length_le
  have least := length_filterMap_le (found zero shared) firsts
  exact filterMap_length_eq_length.mp (by omega)

theorem items_found (some_ : found zero shared (key.items shared) = some other) : other = key := by
  rw [Four.items, found_eq_some] at some_
  exact some_.2.1

theorem second_found
    (some_ : found zero shared (second zero shared key) = some other) :
    key.d = shared.a ∧ shared.b = shared.a ∧ shared.c = shared.a ∧
      shared.d = shared.a ∧ other = ⟨zero, key.a, key.b, key.c⟩ := by
  obtain ⟨sa, sb, sc, sd⟩ := shared
  rw [second, found_eq_some, Four.mk.injEq] at some_
  grind

theorem third_found
    (some_ : found zero shared (third zero shared key) = some other) :
    key.c = shared.a ∧ key.d = shared.b ∧ other = ⟨shared.d, zero, key.a, key.b⟩ := by
  obtain ⟨sa, sb, sc, sd⟩ := shared
  rw [third, found_eq_some, Four.mk.injEq] at some_
  grind

theorem fourth_found
    (some_ : found zero shared (fourth zero shared key) = some other) :
    key.b = shared.a ∧ key.c = shared.b ∧ key.d = shared.c ∧
      other = ⟨shared.c, shared.d, zero, key.a⟩ := by
  obtain ⟨sa, sb, sc, sd⟩ := shared
  rw [fourth, found_eq_some, Four.mk.injEq] at some_
  grind

theorem fifth_found
    (some_ : found zero shared (fifth zero shared key) = some other) :
    key = shared ∧ other = ⟨shared.b, shared.c, shared.d, zero⟩ := by
  obtain ⟨sa, sb, sc, sd⟩ := shared
  rw [fifth, found_eq_some] at some_
  exact ⟨some_.1, some_.2.1⟩

theorem not_all_two (distinct : [k1, k2].Nodup) (nonzero : k2 ≠ Four.zeros zero)
    (last : Bool) : ¬ [k1, k2] ⊆ keysFound zero shared last [k1, k2] := by
  rw [keysFound_two]
  intro all
  obtain ⟨stride, member, some_⟩ := mem_filterMap.mp (all (show k2 ∈ [k1, k2] by simp))
  rcases mem_pair.mp member with rfl | rfl
  · have same := items_found some_
    simp [same] at distinct
  · have second := second_found some_
    obtain ⟨a, b, c, d⟩ := k2
    simp only [Four.zeros, Four.mk.injEq, ne_eq] at second nonzero
    grind

theorem found_of_all (distinct : keys.Nodup) (lengths : firsts.length = keys.length)
    (all : keys ⊆ firsts.filterMap (found zero shared)) :
    ∃ value : List α → Four α, (∀ stride ∈ firsts, found zero shared stride = some (value stride)) ∧
        keys ⊆ firsts.map value := by
  have gives := all_found distinct lengths all
  refine ⟨fun stride => (found zero shared stride).getD (Four.zeros zero), ?_, ?_⟩
  · intro stride member
    obtain ⟨key, found_⟩ := Option.isSome_iff_exists.mp (gives stride member)
    simp [found_]
  · intro key member
    obtain ⟨stride, inside, found_⟩ := mem_filterMap.mp (all member)
    exact mem_map.mpr ⟨stride, inside, by simp [found_]⟩

theorem not_all_three (distinct : [k1, k2, k3].Nodup)
    (nonzero : ∀ key ∈ [k1, k2, k3], key ≠ Four.zeros zero) (last : Bool) :
    ¬ [k1, k2, k3] ⊆ keysFound zero shared last [k1, k2, k3] := by
  rw [keysFound_three]
  intro all
  obtain ⟨value, gives, inside⟩ := found_of_all distinct rfl all
  have first := items_found (gives (k1.items shared) (by simp))
  have second := second_found (gives (second zero shared k2) (by simp))
  have third := third_found (gives (third zero shared k3) (by simp))
  have case2 := inside (show k2 ∈ [k1, k2, k3] by simp)
  have case3 := inside (show k3 ∈ [k1, k2, k3] by simp)
  have nonzero2 := nonzero k2 (by simp)
  have nonzero3 := nonzero k3 (by simp)
  obtain ⟨a2, b2, c2, d2⟩ := k2
  obtain ⟨a3, b3, c3, d3⟩ := k3
  obtain ⟨sa, sb, sc, sd⟩ := shared
  clear gives inside all nonzero
  simp only [Four.zeros, Four.mk.injEq, ne_eq, nodup_cons,
    mem_cons, not_mem_nil, or_false, map_cons,
    map_nil] at *
  grind

theorem not_all_four {k4 : Four α} (distinct : [k1, k2, k3, k4].Nodup)
    (nonzero : ∀ key ∈ [k1, k2, k3, k4], key ≠ Four.zeros zero) (last : Bool) :
    ¬ [k1, k2, k3, k4] ⊆ keysFound zero shared last [k1, k2, k3, k4] := by
  rw [keysFound_four]
  intro all
  obtain ⟨value, gives, inside⟩ := found_of_all distinct rfl all
  have first := items_found (gives (k1.items shared) (by simp))
  have second := second_found (gives (second zero shared k2) (by simp))
  have third := third_found (gives (third zero shared k3) (by simp))
  have fourth := fourth_found (gives (fourth zero shared k4) (by simp))
  have case2 := inside (show k2 ∈ [k1, k2, k3, k4] by simp)
  have case4 := inside (show k4 ∈ [k1, k2, k3, k4] by simp)
  have nonzero2 := nonzero k2 (by simp)
  have nonzero4 := nonzero k4 (by simp)
  obtain ⟨a2, b2, c2, d2⟩ := k2
  obtain ⟨a3, b3, c3, d3⟩ := k3
  obtain ⟨a4, b4, c4, d4⟩ := k4
  obtain ⟨sa, sb, sc, sd⟩ := shared
  clear gives inside all nonzero
  simp only [Four.zeros, Four.mk.injEq, ne_eq, nodup_cons,
    mem_cons, not_mem_nil, or_false, map_cons,
    map_nil] at *
  grind

theorem not_all_five {k4 k5 : Four α} (distinct : [k1, k2, k3, k4, k5].Nodup)
    (nonzero : ∀ key ∈ [k1, k2, k3, k4, k5], key ≠ Four.zeros zero) (last : Bool) :
    ¬ [k1, k2, k3, k4, k5] ⊆ keysFound zero shared last [k1, k2, k3, k4, k5] := by
  rw [keysFound_five]
  intro all
  obtain ⟨value, gives, inside⟩ := found_of_all distinct rfl all
  have first := items_found (gives (k1.items shared) (by simp))
  have second := second_found (gives (second zero shared k2) (by simp))
  have third := third_found (gives (third zero shared k3) (by simp))
  have fourth := fourth_found (gives (fourth zero shared k4) (by simp))
  -- the last key is the shared items, none of which is zero
  have fifth := fifth_found (gives (fifth zero shared k5) (by simp))
  have case5 := inside (show k5 ∈ [k1, k2, k3, k4, k5] by simp)
  have nonzero5 := nonzero k5 (by simp)
  obtain ⟨a5, b5, c5, d5⟩ := k5
  obtain ⟨sa, sb, sc, sd⟩ := shared
  clear gives inside all nonzero
  simp only [Four.zeros, Four.mk.injEq, ne_eq, nodup_cons,
    mem_cons, not_mem_nil, or_false, map_cons,
    map_nil] at *
  grind

/-- Of two different keys or more at least one is not found. -/
theorem not_all_keysFound (distinct : keys.Nodup) (nonzero : ∀ key ∈ keys, key ≠ Four.zeros zero)
    (several : 2 ≤ keys.length) (last : Bool) : ¬ keys ⊆ keysFound zero shared last keys := by
  by_cases many : 6 ≤ keys.length
  · intro all
    have least := (distinct.subperm all).length_le
    have fewer := (@length_keysFound _ _ zero shared last keys).2 many
    omega
  · match keys with
    | [] => simp at several
    | [k1] => simp at several
    | [k1, k2] => exact not_all_two distinct (nonzero k2 (by simp)) last
    | [k1, k2, k3] => exact not_all_three distinct nonzero last
    | [k1, k2, k3, k4] => exact not_all_four distinct nonzero last
    | [k1, k2, k3, k4, k5] => exact not_all_five distinct nonzero last
    | k1 :: k2 :: k3 :: k4 :: k5 :: k6 :: rest =>
      simp only [length_cons] at many
      omega

/-! ### Several sequences -/

theorem length_sequences (sequences : List (Bool × List (Four α))) :
    (sequences.flatMap (fun sequence =>
      keysFound zero shared sequence.1 sequence.2)).length ≤
        (sequences.map Prod.snd).flatten.length := by
  induction sequences with
  | nil => simp
  | cons sequence rest induction =>
    have first := (@length_keysFound _ _ zero shared sequence.1 sequence.2).1
    simp only [flatMap_cons, map_cons, flatten_cons, length_append]
    omega

theorem not_all_sequences {sequences : List (Bool × List (Four α))}
    (distinct : (sequences.map Prod.snd).flatten.Nodup)
    (nonzero : ∀ key ∈ (sequences.map Prod.snd).flatten, key ≠ Four.zeros zero)
    (several : 2 ≤ (sequences.map Prod.snd).flatten.length)
    (long : ∀ sequence ∈ sequences.dropLast, 6 ≤ sequence.2.length) :
    ∃ key ∈ (sequences.map Prod.snd).flatten,
      ∀ sequence ∈ sequences, key ∉ keysFound zero shared sequence.1 sequence.2 := by
  by_contra none
  have all : (sequences.map Prod.snd).flatten ⊆
      sequences.flatMap (fun sequence => keysFound zero shared sequence.1 sequence.2) := by
    intro key member
    by_contra absent
    apply none
    refine ⟨key, member, fun sequence inside found_ => absent ?_⟩
    exact mem_flatMap.mpr ⟨sequence, inside, found_⟩
  cases sequences with
  | nil => simp at several
  | cons first rest =>
    cases rest with
    | nil =>
      simp only
        [map_cons, map_nil, flatten_cons, flatten_nil, append_nil, flatMap_cons, flatMap_nil] at *
      exact not_all_keysFound distinct nonzero several first.1 all
    | cons next others =>
      have least := (distinct.subperm all).length_le
      have enough := long first (by simp)
      have fewer := (@length_keysFound _ _ zero shared first.1
        first.2).2 enough
      have remaining := @length_sequences _ _ zero shared (next :: others)
      rw [flatMap_cons, length_append, map_cons, flatten_cons, length_append] at least
      omega

end Found

end Strides
