import Mathlib

/-!
# Histories

A history is lawful if each of its entries is allowed by the entries before.
-/

def Lawful {α : Type*} (allowed : List α → α → Prop) (history : List α) :
    Prop :=
  ∀ before entry after, history = before ++ entry :: after → allowed before entry

namespace Lawful

open List

variable {α : Type*} {allowed : List α → α → Prop} {history : List α}
  {entry : α}

theorem nil : Lawful allowed [] := by
  intro before entry after split
  cases before with
  | nil => cases split
  | cons head tail => cases split

theorem concat (lawful : Lawful allowed history)
    (next : allowed history entry) : Lawful allowed (history ++ [entry]) := by
  intro before current after split
  rcases eq_nil_or_concat after with none_after | ⟨rest, last, rfl⟩
  · subst none_after
    rcases append_inj' split rfl with ⟨same, entries⟩
    subst same
    cases entries
    exact next
  · rw [concat_eq_append, ← cons_append, ← append_assoc]
      at split
    rcases append_inj' split rfl with ⟨same, _⟩
    exact lawful before current rest same

end Lawful
