import Mathlib

/-!
# String buffers

`psstrbuf.c`.  The allocated memory is a function on positions; what is beyond
`size` is not written in the model, a write to it fails.
-/

namespace Psmgmt.StrBuf

open List Option

structure StrBuf where
  string : Nat → UInt8
  len : Nat
  size : Nat

def strbufNew : StrBuf := { string := fun _ => 0, len := 0, size := 0 }

/-- The growth in `strbufAddNum()`; `fresh` is what `realloc()` leaves in new
memory. -/
def grow (fresh : Nat → UInt8) (strbuf : StrBuf) (num : Nat) : StrBuf :=
  if strbuf.len + max num 1 > strbuf.size then
    let newSize := ((strbuf.len + num) / 64 + 1) * 64 % 2 ^ 32
    { strbuf with
      size := newSize
      string := fun i => if i < strbuf.size then strbuf.string i else fresh i }
  else strbuf

/-- `strbufAddNum()` for the first characters of a string. -/
def strbufAddNum (fresh : Nat → UInt8) (strbuf : StrBuf) (str : List UInt8) : Option StrBuf :=
  let num := str.length
  let strbuf := grow fresh strbuf num
  -- omit stored trailing \0 if any
  let len := strbuf.len - 1
  if len + num < strbuf.size then
    some { strbuf with
      string := fun i =>
        if i < len then strbuf.string i
        else if i < len + num then str.getD (i - len) 0
        else if i = len + num then 0
        else strbuf.string i
      len := (len + num + 1) % 2 ^ 32 }
  else none

/-- A call; `strbufAdd()` may get NULL, and `num` is at most the length. -/
inductive Call where
  | add (str : Option (List UInt8))
  | addNum (str : List UInt8) (num : Nat) (within : num ≤ str.length)
  | clear

def Call.adds : Call → Option (List UInt8)
  | .add str => str
  | .addNum str num _ => some (str.take num)
  | .clear => none

def call (fresh : Nat → UInt8) (strbuf : StrBuf) : Call → Option StrBuf
  | .add none => some strbuf
  | .add (some str) => strbufAddNum fresh strbuf str
  | .addNum str num _ => strbufAddNum fresh strbuf (str.take num)
  | .clear =>
    some { strbuf with
      string := fun i => if i < strbuf.size then 0 else strbuf.string i
      len := 0 }

/-! ## What the buffer holds -/

/-- What was added since the last time the buffer was cleared. -/
def contents (before : List UInt8) : Call → List UInt8
  | .clear => []
  | call => before ++ call.adds.getD []

/-- The buffer is empty, or it holds a terminated string. -/
structure Holds (strbuf : StrBuf) (added : List UInt8) : Prop where
  room : strbuf.len ≤ strbuf.size
  shape : (strbuf.len = 0 ∧ added = []) ∨
    (strbuf.len = added.length + 1 ∧ strbuf.string (strbuf.len - 1) = 0 ∧
      ∀ i < added.length, strbuf.string i = added.getD i 0)

/-- After an addition the buffer is not empty. -/
def Keeps (call : Call) (strbuf : StrBuf) (added : List UInt8) : Prop :=
  Holds strbuf added ∧ (call.adds ≠ none → 0 < strbuf.len)

/-- Every call of a run is within the memory and keeps the string. -/
def Right (fresh : Nat → UInt8) : StrBuf → (added : List UInt8) → List Call → Prop
  | _, _, [] => True
  | strbuf, added, next :: calls =>
    ∃ after, call fresh strbuf next = some after ∧ Keeps next after (contents added next) ∧ Right
      fresh after (contents added next) calls

/-- The addition does not fill a cleared buffer exactly, and the size to grow
to fits 32 bits. -/
def Fits (strbuf : StrBuf) (str : List UInt8) : Prop :=
  ¬ (strbuf.len = 0 ∧ 0 < strbuf.size ∧ str.length = strbuf.size) ∧
    ¬ (strbuf.len + str.length = 2 ^ 32 - 64 ∧ strbuf.size < strbuf.len + max str.length 1)

def AllFit (fresh : Nat → UInt8) : StrBuf → List Call → Prop
  | _, [] => True
  | strbuf, next :: calls =>
    (∀ str, next.adds = some str → Fits strbuf str) ∧
      ∀ after, call fresh strbuf next = some after → AllFit fresh after calls

def total (calls : List Call) : Nat := (calls.map (fun call => (call.adds.getD []).length)).sum

variable {fresh : Nat → UInt8} {strbuf after : StrBuf}
  {added str : List UInt8}

theorem Holds.len_le (holds : Holds strbuf added) : strbuf.len ≤ added.length + 1 := by
  rcases holds.shape with ⟨empty, _⟩ | ⟨len, _⟩ <;> omega

theorem fits_iff (holds : Holds strbuf added)
    (small : added.length + str.length < 2 ^ 32 - 64) :
    Fits strbuf str ↔ (grow fresh strbuf str.length).len - 1 + str.length <
      (grow fresh strbuf str.length).size := by
  have bound := holds.len_le
  have room := holds.room
  unfold Fits grow
  split
  · next grows =>
    dsimp only
    by_cases wraps : strbuf.len + str.length = 2 ^ 32 - 64
    · rw [wraps]
      omega
    · have fit : ((strbuf.len + str.length) / 64 + 1) * 64 < 2 ^ 32 := by
        omega
      rw [Nat.mod_eq_of_lt fit]
      omega
  · omega

theorem grow_len : (grow fresh strbuf str.length).len = strbuf.len := by
  unfold grow
  split <;> rfl

theorem grow_string {i : Nat} (inside : i < strbuf.size) :
    (grow fresh strbuf str.length).string i = strbuf.string i := by
  unfold grow
  split
  · exact if_pos inside
  · rfl

section

variable (holds : Holds strbuf added)

include holds

theorem Holds.len_eq : strbuf.len - 1 = added.length := by
  rcases holds.shape with ⟨empty, rfl⟩ | ⟨len, _⟩
  · rw [empty, length_nil]
  · rw [len, Nat.add_sub_cancel]

theorem Holds.string_eq {i : Nat} (inside : i < added.length) :
    (grow fresh strbuf str.length).string i = added.getD i 0 := by
  have room := holds.room
  rcases holds.shape with ⟨_, rfl⟩ | ⟨len, _, same⟩
  · exact absurd inside (Nat.not_lt_zero i)
  · rw [grow_string (by omega), same i inside]

/-- An addition within the memory appends. -/
theorem strbufAddNum_holds (small : added.length + str.length < 2 ^ 32 - 64)
    (adds : strbufAddNum fresh strbuf str = some after) :
    Holds after (added ++ str) ∧ 0 < after.len := by
  rw [strbufAddNum, grow_len, holds.len_eq] at adds
  split at adds
  · next within =>
    have len : (added.length + str.length + 1) % 2 ^ 32 =
        added.length + str.length + 1 := Nat.mod_eq_of_lt (by omega)
    rw [← Option.some.inj adds, len]
    refine ⟨⟨within, .inr ⟨?_, ?_, ?_⟩⟩, Nat.succ_pos _⟩
    · rw [length_append]
    · dsimp only
      rw [if_neg (by omega), if_neg (by omega), if_pos (by omega)]
    · intro i inside
      rw [length_append] at inside
      dsimp only
      by_cases old : i < added.length
      · rw [if_pos old, holds.string_eq old, getD_append _ _ _ _ old]
      · rw [if_neg old, if_pos inside, getD_append_right _ _ _ _ (by omega)]
  · exact absurd adds (by simp)

theorem strbufAddNum_isSome_iff
    (small : added.length + str.length < 2 ^ 32 - 64) :
    (∃ after, strbufAddNum fresh strbuf str = some after) ↔ Fits strbuf str := by
  rw [fits_iff holds small, strbufAddNum]
  split
  · next within => exact ⟨fun _ => within, fun _ => ⟨_, rfl⟩⟩
  · next beyond => simp [beyond]

end

theorem total_cons (next : Call) (calls : List Call) :
    total (next :: calls) = (next.adds.getD []).length + total calls :=
  sum_cons

theorem length_contents (added : List UInt8) (next : Call) :
    (contents added next).length ≤ added.length + (next.adds.getD []).length := by
  cases next <;> simp [contents]

theorem call_holds (holds : Holds strbuf added) {next : Call}
    (small : added.length + (next.adds.getD []).length < 2 ^ 32 - 64) :
    ((∃ after, call fresh strbuf next = some after) ↔
        ∀ str, next.adds = some str → Fits strbuf str) ∧
      ∀ after, call fresh strbuf next = some after → Keeps next after (contents added next) := by
  cases next with
  | add str =>
    cases str with
    | none =>
      refine ⟨⟨fun _ _ adds => by simp [Call.adds] at adds,
        fun _ => ⟨strbuf, rfl⟩⟩, ?_⟩
      rintro after ⟨⟩
      simpa [Keeps, contents, Call.adds] using holds
    | some str =>
      refine ⟨?_, fun after adds => ?_⟩
      · simpa [Call.adds, call] using strbufAddNum_isSome_iff holds small
      · obtain ⟨kept, positive⟩ := strbufAddNum_holds holds small adds
        exact ⟨kept, fun _ => positive⟩
  | addNum str num within =>
    refine ⟨?_, fun after adds => ?_⟩
    · simpa [Call.adds, call] using strbufAddNum_isSome_iff holds small
    · obtain ⟨kept, positive⟩ := strbufAddNum_holds holds small adds
      exact ⟨kept, fun _ => positive⟩
  | clear =>
    refine ⟨⟨fun _ _ adds => by simp [Call.adds] at adds,
      fun _ => ⟨_, rfl⟩⟩, ?_⟩
    rintro after ⟨⟩
    exact ⟨⟨Nat.zero_le _, .inl ⟨rfl, rfl⟩⟩, fun adds => absurd rfl adds⟩

theorem right_iff (holds : Holds strbuf added) (calls : List Call)
    (small : added.length + total calls < 2 ^ 32 - 64) :
    Right fresh strbuf added calls ↔ AllFit fresh strbuf calls := by
  induction calls generalizing strbuf added with
  | nil => exact Iff.rfl
  | cons next calls induction =>
    rw [total_cons] at small
    have grows := length_contents added next
    obtain ⟨fits, keeps⟩ := @call_holds fresh strbuf added holds next (by omega)
    have rest := fun after called => induction (keeps after called).1 (by omega)
    rw [Right, AllFit, ← fits]
    constructor
    · rintro ⟨after, called, _, right⟩
      refine ⟨⟨after, called⟩, fun other also => ?_⟩
      obtain rfl := Option.some.inj (called.symm.trans also)
      exact (rest after called).mp right
    · rintro ⟨⟨after, called⟩, all⟩
      exact ⟨after, called, keeps after called, (rest after called).mpr (all after called)⟩

/-- A run from a new buffer stays within the memory and holds what was added
exactly as long as its additions fit. -/
theorem strbuf_right_iff (fresh : Nat → UInt8) (calls : List Call)
    (small : total calls < 2 ^ 32 - 64) :
    Right fresh strbufNew [] calls ↔ AllFit fresh strbufNew calls :=
  right_iff ⟨Nat.le_refl 0, .inl ⟨rfl, rfl⟩⟩ calls (by rw [length_nil, Nat.zero_add]; exact small)

/-- 64 characters after the buffer of 64 was cleared. -/
def refill : List Call := [.add (some [97]), .clear, .add (some (List.replicate 64 97))]

theorem not_right_refill : ¬ Right (fun _ => 0) strbufNew [] refill := by
  rintro ⟨first, called, _, second, cleared, _, third, written, _⟩
  have fails : (((call (fun _ => 0) strbufNew (.add (some [97]))).bind
      (fun strbuf => call (fun _ => 0) strbuf .clear)).bind
        (fun strbuf => call (fun _ => 0) strbuf
          (.add (some (List.replicate 64 97))))).isSome = false := by
    decide +kernel
  rw [called, bind_some, cleared, bind_some, written] at fails
  exact absurd fails (by simp)

theorem not_strbuf_right :
    ¬ ∀ fresh calls, total calls < 2 ^ 32 - 64 → Right fresh strbufNew [] calls := by
  intro right
  exact not_right_refill (right _ refill (by decide +kernel))

theorem strbuf_right_iff_refill : ¬ AllFit (fun _ => 0) strbufNew refill := by
  rw [← strbuf_right_iff (fun _ => 0) refill (by decide +kernel)]
  exact not_right_refill

end Psmgmt.StrBuf
