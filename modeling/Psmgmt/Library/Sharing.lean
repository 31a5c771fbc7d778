import Mathlib

/-!
# Sharing out a supply

Sharers take items of a supply one after the other, each time one they do not
hold yet and that is held by the fewest sharers.  As long as nobody holds more
than one item, the items are shared evenly.
-/

namespace Sharing

open List

variable {α : Type} [DecidableEq α]

/-- The number of sharers that hold an item. -/
def load (table : List (Finset α)) (item : α) : Nat :=
  table.countP (fun held => decide (item ∈ held))

/-- One sharer takes an item it does not hold and that is held least. -/
inductive Gives (supply : Finset α) :
    List (Finset α) → List (Finset α) → Prop where
  | give (before after : List (Finset α)) (held : Finset α) (item : α) :
      item ∈ supply → item ∉ held →
      (∀ other ∈ supply, other ∉ held →
        load (before ++ held :: after) item ≤ load (before ++ held :: after) other) →
      Gives supply (before ++ held :: after) (before ++ insert item held :: after)

/-- No item is held by more than one sharer more than another. -/
def Even (supply : Finset α) (table : List (Finset α)) : Prop :=
  ∀ item ∈ supply, ∀ other ∈ supply, load table item ≤ load table other + 1

variable (before after : List (Finset α))

theorem load_insert {held : Finset α} {item : α} (new : item ∉ held)
    (other : α) :
    load (before ++ insert item held :: after) other =
      load (before ++ held :: after) other + if other = item then 1 else 0 := by
  simp only [load, countP_append, countP_cons, Finset.mem_insert]
  by_cases same : other = item
  · simp [same, new]
    omega
  · simp [same]

@[simp] theorem load_replicate_empty (count : Nat) (item : α) :
    load (List.replicate count (∅ : Finset α)) item = 0 := by
  simp [load]

/-- The number of sharers that hold both items. -/
def both (table : List (Finset α)) (item other : α) : Nat :=
  table.countP (fun held => decide (item ∈ held ∧ other ∈ held))

/-- An item is ahead of another one by those that hold both of them, and one. -/
def Balanced (supply : Finset α) (table : List (Finset α)) : Prop :=
  ∀ item ∈ supply, ∀ other ∈ supply, load table item ≤ load table other + 1 + both table item other

theorem both_insert_le (held : Finset α) (item first second : α) :
    both (before ++ held :: after) first second ≤
      both (before ++ insert item held :: after) first second := by
  simp only [both, countP_append, countP_cons, Finset.mem_insert, decide_eq_true_eq]
  split <;> split <;> first | omega | (exfalso; tauto)

theorem both_insert_held {held : Finset α} {item other : α} (new : item ∉ held)
    (old : other ∈ held) :
    both (before ++ insert item held :: after) item other =
      both (before ++ held :: after) item other + 1 := by
  simp only [both, countP_append, countP_cons, Finset.mem_insert]
  simp [new, old]
  omega

theorem balanced_empty (supply : Finset α) (count : Nat) :
    Balanced supply (List.replicate count (∅ : Finset α)) := by
  intro item _ other _
  simp

variable {supply : Finset α} {table : List (Finset α)}

theorem Balanced.gives {next : List (Finset α)}
    (balanced : Balanced supply table) (step : Gives supply table next) :
    Balanced supply next := by
  cases step with
  | give before after held item supplied new least =>
    intro first firstSupplied second secondSupplied
    have bound := balanced first firstSupplied second secondSupplied
    have more := both_insert_le before after held item first second
    rw [load_insert before after new, load_insert before after new]
    by_cases isItem : first = item
    · subst isItem
      rw [if_pos rfl]
      by_cases old : second ∈ held
      · have grown := both_insert_held before after new old
        split <;> omega
      · have minimal := least second secondSupplied old
        split <;> omega
    · rw [if_neg isItem]
      split <;> omega

theorem balanced_of_gives {start : List (Finset α)}
    (run : Relation.ReflTransGen (Gives supply) start table)
    (balanced : Balanced supply start) : Balanced supply table := by
  induction run with
  | refl => exact balanced
  | tail _ step induction => exact induction.gives step

/-- Sharers that hold one item at most have been served evenly. -/
theorem Balanced.even (balanced : Balanced supply table)
    (single : ∀ held ∈ table, held.card ≤ 1) : Even supply table := by
  intro item supplied other otherSupplied
  have bound := balanced item supplied other otherSupplied
  by_cases same : item = other
  · subst same
    omega
  · have none : both table item other = 0 := by
      rw [both, countP_eq_zero]
      intro held member holds
      obtain ⟨first, second⟩ := of_decide_eq_true holds
      exact same (Finset.card_le_one.mp (single held member) item first other second)
    omega

end Sharing
