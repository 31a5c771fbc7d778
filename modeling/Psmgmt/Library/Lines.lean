import Mathlib

/-!
# Breaks in a text

The first and the last position at which a list holds a given item, as
`memchr()` and `memrchr()` report them, and texts that end in a break.
-/

namespace Lines

open List

variable {α : Type}

/-- The text is empty or its last item is `mark`. -/
def Ended (mark : α) (text : List α) : Prop := text = [] ∨ text.getLast? = some mark

variable {mark : α} {text : List α}

theorem Ended.append {first second : List α} (firstEnded : Ended mark first)
    (secondEnded : Ended mark second) : Ended mark (first ++ second) := by
  rcases secondEnded with empty | last
  · simpa [empty] using firstEnded
  · exact .inr (by simp [getLast?_append, last])

/-- What follows the break of the second text ends the whole. -/
theorem Ended.append_right {first second : List α} (nonempty : second ≠ [])
    (secondEnded : Ended mark second) : Ended mark (first ++ second) := by
  rcases secondEnded with empty | last
  · exact absurd empty nonempty
  · exact .inr (by simp [getLast?_append, last])

theorem Ended.drop (ended : Ended mark text) (count : Nat) : Ended mark (text.drop count) := by
  rcases ended with empty | last
  · exact .inl (by simp [empty])
  · by_cases inside : count < text.length
    · refine .inr ?_
      rw [getLast?_drop, if_neg (by omega), last]
    · exact .inl (drop_eq_nil_of_le (by omega))

variable [DecidableEq α]

/-- The first position of `mark`. -/
def firstBreak (mark : α) : List α → Option Nat
  | [] => none
  | item :: rest => if item = mark then some 0 else (firstBreak mark rest).map (· + 1)

/-- The last position of `mark`. -/
def lastBreak (mark : α) : List α → Option Nat
  | [] => none
  | item :: rest =>
    match lastBreak mark rest with
    | some position => some (position + 1)
    | none => if item = mark then some 0 else none

theorem firstBreak_none : firstBreak mark text = none ↔ mark ∉ text := by
  induction text with
  | nil => simp [firstBreak]
  | cons item rest induction =>
    by_cases same : item = mark
    · simp [firstBreak, same]
    · simp [firstBreak, same, induction, Ne.symm same]

theorem lastBreak_none : lastBreak mark text = none ↔ mark ∉ text := by
  induction text with
  | nil => simp [lastBreak]
  | cons item rest induction =>
    simp only [lastBreak]
    cases found : lastBreak mark rest with
    | some position =>
      have inRest : mark ∈ rest := by
        by_contra absent
        rw [induction.mpr absent] at found
        cases found
      simp [inRest]
    | none =>
      have absent := induction.mp found
      by_cases same : item = mark
      · simp [same]
      · simp [same, absent, Ne.symm same]

theorem firstBreak_some {position : Nat}
    (found : firstBreak mark text = some position) :
    position < text.length ∧ Ended mark (text.take (position + 1)) := by
  induction text generalizing position with
  | nil => cases found
  | cons item rest induction =>
    simp only [firstBreak] at found
    by_cases same : item = mark
    · rw [if_pos same] at found
      cases found
      simp [Ended, same]
    · rw [if_neg same] at found
      rcases Option.map_eq_some_iff.mp found with ⟨before, inRest, rfl⟩
      obtain ⟨inside, ended⟩ := induction inRest
      refine ⟨by simpa using inside, ?_⟩
      rcases ended with empty | last
      · cases rest with
        | nil => simp at inside
        | cons next others => simp at empty
      · refine .inr ?_
        rw [take_succ_cons, getLast?_cons, last]
        rfl

theorem lastBreak_some {position : Nat}
    (found : lastBreak mark text = some position) :
    position < text.length ∧
      Ended mark (text.take (position + 1)) ∧
      mark ∉ text.drop (position + 1) := by
  induction text generalizing position with
  | nil => cases found
  | cons item rest induction =>
    simp only [lastBreak] at found
    cases later : lastBreak mark rest with
    | some before =>
      rw [later] at found
      cases found
      obtain ⟨inside, ended, absent⟩ := induction later
      refine ⟨by simpa using inside, ?_, by simpa using absent⟩
      rcases ended with empty | last
      · cases rest with
        | nil => simp at inside
        | cons next others => simp at empty
      · refine .inr ?_
        rw [take_succ_cons, getLast?_cons, last]
        rfl
    | none =>
      rw [later] at found
      by_cases same : item = mark
      · simp only [if_pos same, Option.some.injEq] at found
        subst found
        refine ⟨by simp, .inr (by simp [same]), ?_⟩
        simpa using lastBreak_none.mp later
      · simp [same] at found

end Lines
