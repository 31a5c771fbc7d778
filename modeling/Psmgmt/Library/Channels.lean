import Mathlib

/-!
# Windows of streams

What travels on a channel is a stream of messages counted from 0.  The messages
that were sent and not yet received are a window of this stream.
-/

namespace Channels

open List

variable {Message : Type*} {stream : Nat → Message} {first middle last : Nat}

/-- The messages `first .. last - 1` of a stream. -/
def window (stream : Nat → Message) (first last : Nat) : List Message :=
  (List.range' first (last - first)).map stream

@[simp] theorem length_window (stream : Nat → Message) (first last : Nat) :
    (window stream first last).length = last - first := by
  simp [window]

@[simp] theorem window_self (stream : Nat → Message) (first : Nat) :
    window stream first first = [] := by
  simp [window]

theorem window_one (stream : Nat → Message) (first : Nat) :
    window stream first (first + 1) = [stream first] := by
  simp [window]

theorem window_append (before : first ≤ middle) (after : middle ≤ last) :
    window stream first middle ++ window stream middle last = window stream first last := by
  have join : middle = first + 1 * (middle - first) := by omega
  rw [window, window, window, ← map_append]
  congr 1
  conv_lhs => rw [show List.range' middle (last - middle)
    = List.range' (first + 1 * (middle - first)) (last - middle) 1 by rw [← join]]
  rw [range'_append]
  congr 1
  omega

theorem mem_window {message : Message} : message ∈ window stream first last
      ↔ ∃ number, first ≤ number ∧ number < last ∧ stream number = message := by
  rw [window, mem_map]
  constructor
  · rintro ⟨number, place, same⟩
    rw [mem_range'_1] at place
    exact ⟨number, by omega, by omega, same⟩
  · rintro ⟨number, from_first, below_last, same⟩
    refine ⟨number, ?_, same⟩
    rw [mem_range'_1]
    omega

theorem window_head {message : Message} {rest : List Message}
    (whole : message :: rest = window stream first last) :
    first < last ∧ message = stream first ∧ rest = window stream (first + 1) last := by
  have count := congrArg List.length whole
  rw [length_cons, length_window] at count
  have inside : first < last := by omega
  have split : window stream first last = [stream first] ++ window stream (first + 1) last := by
    rw [← window_one, window_append (by omega) (by omega)]
  rw [split, singleton_append, List.cons.injEq] at whole
  exact ⟨inside, whole.1, whole.2⟩

/-- What was received is the start of what was sent. -/
theorem window_cancel {rest : List Message} (before : first ≤ middle)
    (whole : window stream first middle ++ rest = window stream first last) (order : first ≤ last) :
    middle ≤ last ∧ rest = window stream middle last := by
  have count := congrArg List.length whole
  rw [length_append, length_window, length_window] at count
  have after : middle ≤ last := by omega
  rw [← window_append before after] at whole
  exact ⟨after, append_cancel_left whole⟩

end Channels
