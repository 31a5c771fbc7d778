import Mathlib

/-!
# Filling batches of bounded size

The longest beginning of a list whose sizes sum up to no more than a limit, as
a sender takes it who puts items into a message while they fit.
-/

namespace Batches

open List

variable {α : Type} (size : α → Nat)

def total (items : List α) : Nat := (items.map size).sum

@[simp] theorem total_nil : total size [] = 0 := rfl

@[simp] theorem total_cons (item : α) (items : List α) :
    total size (item :: items) = size item + total size items := rfl

@[simp] theorem total_append (first second : List α) :
    total size (first ++ second) = total size first + total size second := by
  simp [total]

/-- The items that still fit if `used` is used up already, and the others. -/
def fill (limit : Nat) : (used : Nat) → List α → List α × List α
  | _, [] => ([], [])
  | used, item :: rest =>
    if used + size item ≤ limit then
      let (batch, left) := fill limit (used + size item) rest
      (item :: batch, left)
    else ([], item :: rest)

variable (limit : Nat)

@[simp] theorem fill_append (used : Nat) (items : List α) :
    (fill size limit used items).1 ++ (fill size limit used items).2 =
      items := by
  induction items generalizing used with
  | nil => rfl
  | cons item rest induction =>
    rw [fill]
    split
    · simp [induction]
    · rfl

theorem total_fill {used : Nat} (inside : used ≤ limit) (items : List α) :
    used + total size (fill size limit used items).1 ≤ limit := by
  induction items generalizing used with
  | nil => simpa [fill] using inside
  | cons item rest induction =>
    rw [fill]
    split
    case isTrue fits =>
        have bound := induction fits
        simp only [total_cons]
        omega
    case isFalse => simpa using inside

/-- An item that fits alone makes the first batch non-empty. -/
theorem fill_ne_nil {item : α} (fits : size item ≤ limit) (rest : List α) :
    (fill size limit 0 (item :: rest)).1 ≠ [] := by
  rw [fill, if_pos (by omega)]
  simp

variable {items : List α} {count : Nat}

theorem length_fill_lt (nonempty : items ≠ [])
    (fits : ∀ item ∈ items, size item ≤ limit) :
    (fill size limit 0 items).2.length < items.length := by
  cases items with
  | nil => exact absurd rfl nonempty
  | cons item rest =>
    have whole := congrArg List.length (fill_append size limit 0 (item :: rest))
    have first := length_pos_of_ne_nil (fill_ne_nil size limit (fits item (by simp)) rest)
    rw [length_append] at whole
    omega

/-! ## Batch after batch -/

/-- Fill batches while there are items and `goOn` holds of them, at most so
many. -/
def drain (goOn : List α → Bool) : (count : Nat) → List α → List (List α) × List α
  | 0, items => ([], items)
  | count + 1, items =>
    if items ≠ [] ∧ goOn items then
      let (batch, left) := fill size limit 0 items
      let (batches, left) := drain goOn count left
      (batch :: batches, left)
    else ([], items)

variable (goOn : List α → Bool)

@[simp] theorem drain_append (count : Nat) (items : List α) :
    (drain size limit goOn count items).1.flatten ++
      (drain size limit goOn count items).2 = items := by
  induction count generalizing items with
  | zero => rfl
  | succ count induction =>
    rw [drain]
    split
    · rw [flatten_cons, append_assoc, induction]
      exact fill_append size limit 0 items
    · rfl

/-- No batch is filled only if there is nothing to do. -/
theorem drain_eq_nil :
    (drain size limit goOn count items).1 = [] ↔ count = 0 ∨ ¬ (items ≠ [] ∧ goOn items) := by
  cases count with
  | zero => simp [drain]
  | succ count =>
    rw [drain]
    split
    case isTrue more => simp [more]
    case isFalse stop => exact ⟨fun _ => .inr stop, fun _ => rfl⟩

theorem total_drain {batch : List α}
    (member : batch ∈ (drain size limit goOn count items).1) :
    total size batch ≤ limit := by
  induction count generalizing items with
  | zero => exact absurd member (by simp [drain])
  | succ count induction =>
    rw [drain] at member
    split at member
    · rcases mem_cons.mp member with head | tail
      · have bound := total_fill size limit (Nat.zero_le limit) items
        rw [head]
        omega
      · exact induction tail
    · exact absurd member (by simp)

/-- If every item fits alone, as many batches as there are items suffice. -/
theorem drain_stops (enough : items.length ≤ count)
    (fits : ∀ item ∈ items, size item ≤ limit) :
    (drain size limit goOn count items).2 = [] ∨
      goOn (drain size limit goOn count items).2 = false := by
  induction count generalizing items with
  | zero =>
    have empty : items = [] := length_eq_zero_iff.mp (by omega)
    exact .inl (by simp [drain, empty])
  | succ count induction =>
    rw [drain]
    split
    case isTrue more =>
        have shorter := length_fill_lt size limit more.1 fits
        apply induction (by omega)
        intro item member
        apply fits
        rw [← fill_append size limit 0 items]
        exact mem_append_right _ member
    case isFalse stop =>
        by_cases empty : items = []
        · exact .inl empty
        · exact .inr (by simpa [empty] using stop)

end Batches
