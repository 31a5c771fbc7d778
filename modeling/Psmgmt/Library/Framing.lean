import Mathlib

/-!
# Positions in a stream of frames

A stream is a sequence of frames, each a header of fixed size and a body.  The
positions strictly inside a header are those where a reader that keeps no part
of a header must not stop.
-/

namespace Framing

variable {α : Type}

/-- The length of a stream of frames with these bodies. -/
def span (headerSize : Nat) : List (List α) → Nat
  | [] => 0
  | body :: rest => headerSize + body.length + span headerSize rest

/-- The position is strictly inside the header of a frame. -/
def InHeader (headerSize : Nat) (position : Nat) : List (List α) → Prop
  | [] => False
  | body :: rest =>
    (0 < position ∧ position < headerSize) ∨
      (headerSize + body.length ≤ position ∧
        InHeader headerSize (position - (headerSize + body.length)) rest)

instance decidableInHeader (headerSize : Nat) :
    (position : Nat) → (frames : List (List α)) → Decidable (InHeader headerSize position frames)
  | _, [] => isFalse id
  | position, body :: rest =>
    have := decidableInHeader headerSize (position - (headerSize + body.length)) rest
    inferInstanceAs (Decidable (_ ∨ _))

/-- No boundary between chunks, which start at `position`, is inside a header. -/
def HeadersWhole (headerSize : Nat) (frames : List (List α)) :
    (position : Nat) → (chunks : List (List α)) → Prop
  | _, [] => True
  | position, chunk :: rest =>
    ¬ InHeader headerSize (position + chunk.length) frames ∧
      HeadersWhole headerSize frames (position + chunk.length) rest

variable (headerSize : Nat)

@[simp] theorem span_append (first second : List (List α)) :
    span headerSize (first ++ second) = span headerSize first + span headerSize second := by
  induction first with
  | nil => simp [span]
  | cons body rest induction =>
    simp only [List.cons_append, span, induction]
    omega

/-- Behind some frames, a position is inside a header of those that follow. -/
theorem inHeader_append (first second : List (List α)) (offset : Nat) :
    InHeader headerSize (span headerSize first + offset) (first ++ second) ↔
      InHeader headerSize offset second := by
  induction first with
  | nil => simp [span]
  | cons body rest induction =>
    have moved : headerSize + body.length + span headerSize rest + offset -
        (headerSize + body.length) = span headerSize rest + offset := by
      omega
    simp only [List.cons_append, InHeader, span, moved, induction]
    constructor
    · rintro (inside | later)
      · omega
      · exact later.2
    · intro later
      exact .inr ⟨by omega, later⟩

end Framing
