import Mathlib

/-!
# Tokens of a text

The maximal runs without delimiters of a text, as `strtok_r()` delivers them
one after the other.
-/

namespace Tokens

open List

variable {α : Type} (delimiter : α → Bool)

/-- The tokens of a text; `begun` is the part already read of the first. -/
def tokens : (begun : List α) → List α → List (List α)
  | begun, [] => if begun.isEmpty then [] else [begun]
  | begun, item :: rest =>
    if delimiter item then
      if begun.isEmpty then tokens [] rest else begun :: tokens [] rest
    else tokens (begun ++ [item]) rest

def Plain (piece : List α) : Prop := ∀ item ∈ piece, delimiter item = false

/-- The pieces, each behind the separator. -/
def spaced (separator : α) (pieces : List (List α)) : List α :=
  pieces.flatMap (fun piece => separator :: piece)

variable {delimiter}

@[simp] theorem spaced_nil (separator : α) : spaced separator [] = [] := rfl

@[simp] theorem spaced_cons (separator : α) (piece : List α)
    (pieces : List (List α)) :
    spaced separator (piece :: pieces) = separator :: (piece ++ spaced separator pieces) := rfl

theorem length_spaced (separator : α) (pieces : List (List α)) :
    (spaced separator pieces).length = (pieces.map (fun piece => piece.length + 1)).sum := by
  simp [spaced, length_flatMap]

theorem tokens_append {piece : List α} (plain : Plain delimiter piece)
    (begun rest : List α) :
    tokens delimiter begun (piece ++ rest) = tokens delimiter (begun ++ piece) rest := by
  induction piece generalizing begun with
  | nil => simp
  | cons item piece induction =>
    have itemPlain : delimiter item = false := plain item (by simp)
    have piecePlain : Plain delimiter piece :=
      fun other member => plain other (by simp [member])
    rw [cons_append, tokens, if_neg (by simp [itemPlain]),
      induction piecePlain]
    simp

theorem tokens_spaced {separator : α} (separates : delimiter separator = true)
    {pieces : List (List α)} (plain : ∀ piece ∈ pieces, Plain delimiter piece ∧ piece ≠ [])
    (begun : List α) :
    tokens delimiter begun (spaced separator pieces) =
      if begun.isEmpty then pieces else begun :: pieces := by
  induction pieces generalizing begun with
  | nil => simp [spaced, tokens]
  | cons piece pieces induction =>
    have piecePlain := plain piece (by simp)
    have restPlain := fun other member => plain other (mem_cons_of_mem piece member)
    have remaining : tokens delimiter [] (piece ++ spaced separator pieces) = piece :: pieces := by
      rw [tokens_append piecePlain.1, induction restPlain]
      simp [piecePlain.2]
    rw [spaced_cons, tokens, if_pos separates, remaining]

end Tokens
