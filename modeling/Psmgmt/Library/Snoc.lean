import Mathlib

/-!
# Lists that grow at the end
-/

namespace Snoc

open List

variable {α : Type*} {l : List α} {a : α}

theorem forall_mem {p : α → Prop} (old : ∀ x ∈ l, p x) (new : p a) : ∀ x ∈ l ++ [a], p x :=
  forall_mem_append.mpr ⟨old, forall_mem_singleton.mpr new⟩

theorem forall_getElem? {p : Nat → α → Prop} (old : ∀ i x, l[i]? = some x → p i x)
    (new : p l.length a) (i : Nat) (x : α) (item : (l ++ [a])[i]? = some x) : p i x := by
  rcases Nat.lt_trichotomy i l.length with before | rfl | behind
  · rw [getElem?_append_left before] at item
    exact old i x item
  · rw [getElem?_concat_length] at item
    cases item
    exact new
  · rw [getElem?_eq_none (by simp; omega)] at item
    cases item

theorem nodup (distinct : l.Nodup) (absent : a ∉ l) : (l ++ [a]).Nodup :=
  nodup_append.mpr ⟨distinct, nodup_singleton a,
    fun _ member _ new same => absent (mem_singleton.mp new ▸ same ▸ member)⟩

theorem nodup_map {β : Type*} {f : α → β} (distinct : (l.map f).Nodup)
    (absent : ∀ x ∈ l, f x ≠ f a) : ((l ++ [a]).map f).Nodup := by
  rw [map_append]
  refine nodup distinct (fun member => ?_)
  obtain ⟨x, inside, same⟩ := mem_map.mp member
  exact absent x inside same

end Snoc
