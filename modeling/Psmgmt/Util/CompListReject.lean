import Psmgmt.Util.CompListExpand

/-!
# Rejecting compressed lists

When `traverseCompList()` ends for an arbitrary text, how often it calls the
visitor, and which malformed lists it rejects.
-/

namespace Psmgmt.CompList

open Slurm.MultiProg List

/-! ## Malformed lists -/

/-- Brackets are not nested, not closed before they are opened, and closed in
the end. -/
def bracketsOk : (isOpen : Bool) → CStr → Bool
  | isOpen, [] => !isOpen
  | isOpen, c :: rest =>
    if c = '[' then !isOpen && bracketsOk true rest
    else if c = ']' then isOpen && bracketsOk false rest
    else bracketsOk isOpen rest

/-- What stands in brackets, taken apart at the delimiters. -/
def bracketEntries : (isOpen : Bool) → (entry : CStr) → CStr → List CStr
  | isOpen, entry, [] => if isOpen then [entry] else []
  | isOpen, entry, c :: rest =>
    if c = '[' then bracketEntries true [] rest
    else if c = ']' then
      if isOpen then entry :: bracketEntries false [] rest
      else bracketEntries false [] rest
    else if isDelimiter c then
      if isOpen then entry :: bracketEntries true [] rest
      else bracketEntries false [] rest
    else bracketEntries isOpen (entry ++ [c]) rest

/-- Two decimal numbers with a dash between them, the first one not larger. -/
def isRange (entry : CStr) : Bool :=
  let first := upTo '-' entry
  let last := behind '-' entry
  decide (first ≠ []) && first.all Char.isDigit && decide (last ≠ []) &&
    last.all Char.isDigit && decide (valueOf first ≤ valueOf last)

def Malformed (text : CStr) : Prop :=
  bracketsOk false text = false ∨
    ∃ entry ∈ bracketEntries false [] text, '-' ∈ entry ∧ isRange entry = false

instance (text : CStr) : Decidable (Malformed text) :=
  inferInstanceAs (Decidable (_ ∨ ∃ entry ∈ _, _))

example : Malformed ['a', '[', '1', ','] := by decide
example : Malformed ['a', '[', '1', '-', '2', 'x', ']'] := by decide
example : ¬Malformed ['a', '[', '0', '1', '-', '2', ']', ',', 'b'] := by
  decide

/-! ## What the code finds -/

/-- `visitItemRange()` finds the range invalid. -/
def Faulty (range : CStr) : Prop :=
  '-' ∈ range ∧ ∀ min pad max, scanRange range = some (min, pad, max) → max < min

/-- The range ends at the largest unsigned number. -/
def Largest (range : CStr) : Prop :=
  '-' ∈ range ∧ ∃ min pad, scanRange range = some (min, pad, 2 ^ 32 - 1)

/-- A fault that is looked for is found. -/
def Recognised : List CStr → (open_ : Option CStr) → Prop
  | [], _ => False
  | next :: tokens, open_ =>
    match takeToken open_ next with
    | .error => True
    | .name => Recognised tokens open_
    | .range _ range open_ => Faulty range ∨ Recognised tokens open_

/-- A range up to the largest unsigned number is reached. -/
def Endless : List CStr → (open_ : Option CStr) → Prop
  | [], _ => False
  | next :: tokens, open_ =>
    match takeToken open_ next with
    | .error => False
    | .name => Endless tokens open_
    | .range _ range open_ => ¬Faulty range ∧ (Largest range ∨ Endless tokens open_)

/-- The numbers in a range; what is no range is one item. -/
def rangeSize (range : CStr) : Nat :=
  if '-' ∉ range then 1
  else
    match scanRange range with
    | none => 0
    | some (min, _, max) => max + 1 - min

/-- The sum over the ranges and names of the list. -/
def listSize : List CStr → (open_ : Option CStr) → Nat
  | [], _ => 0
  | next :: tokens, open_ =>
    match takeToken open_ next with
    | .error => 0
    | .name => 1 + listSize tokens open_
    | .range _ range open_ => rangeSize range + listSize tokens open_

/-! ## Visiting one range -/

variable {fuel : Nat}

section Range

variable {prefix_ range : CStr}

theorem scanUnsigned_lt {text rest : CStr} {value : Nat}
    (scanned : scanUnsigned text = some (value, rest)) : value < 2 ^ 32 := by
  unfold scanUnsigned at scanned
  dsimp only at scanned
  split at scanned
  · cases scanned
  · rw [← (Prod.mk.inj (Option.some.inj scanned)).1]
    exact Nat.mod_lt _ (by decide)

theorem scanRange_lt {min pad max : Nat}
    (scanned : scanRange range = some (min, pad, max)) :
    min < 2 ^ 32 ∧ max < 2 ^ 32 := by
  unfold scanRange at scanned
  split at scanned
  · cases scanned
  · rename_i low rest first
    split at scanned
    · cases scanned
    · split at scanned
      · obtain ⟨⟨high, behind⟩, second, same⟩ :=
          Option.map_eq_some_iff.mp scanned
        cases same
        exact ⟨scanUnsigned_lt first, scanUnsigned_lt second⟩
      · cases scanned

theorem visitItemRange_faulty {Info : Type} (visitor : CStr → Info → Bool × Info) (fuel : Nat)
    (faulty : Faulty range) (info : Info) :
    visitItemRange visitor fuel prefix_ range info = some (false, info) := by
  rw [visitItemRange, if_neg (not_not_intro faulty.1)]
  split
  · rfl
  · rename_i min pad max scanned
    rw [if_pos (faulty.2 min pad max scanned)]

theorem visitItemRange_largest (fuel : Nat) (largest : Largest range)
    (visited : List CStr) :
    visitItemRange recorder fuel prefix_ range visited = none := by
  obtain ⟨dash, min, pad, scanned⟩ := largest
  have bounds := scanRange_lt scanned
  rw [visitItemRange, if_neg (not_not_intro dash), scanned]
  dsimp only
  rw [if_neg (by omega)]
  exact visitNumbers_endless prefix_ pad fuel bounds.1 visited

theorem visitItemRange_fine {fuel : Nat} (enough : 2 ^ 32 < fuel) (fine : ¬Faulty range)
    (smaller : ¬Largest range) (visited : List CStr) :
    ∃ names, names.length = rangeSize range ∧
      visitItemRange recorder fuel prefix_ range visited = some (true, visited ++ names) := by
  rw [visitItemRange, rangeSize]
  by_cases dash : '-' ∈ range
  · rw [if_neg (not_not_intro dash), if_neg (not_not_intro dash)]
    rcases scanned : scanRange range with _ | ⟨min, pad, max⟩
    · exfalso
      apply fine
      refine ⟨dash, ?_⟩
      intro min pad max other
      rw [scanned] at other
      cases other
    · dsimp only
      have bounds := scanRange_lt scanned
      have ordered : min ≤ max := by
        by_contra unordered
        apply fine
        refine ⟨dash, ?_⟩
        intro min' pad' max' other
        rw [scanned] at other
        cases other
        exact Nat.not_le.mp unordered
      have small : max < 2 ^ 32 - 1 := by
        have notLargest : max ≠ 2 ^ 32 - 1 := by
          rintro rfl
          exact smaller ⟨dash, min, pad, scanned⟩
        omega
      refine ⟨loopNames prefix_ pad min max, ?_, ?_⟩
      · rw [loopNames, length_map, length_range']
      · rw [if_neg (Nat.not_lt.mpr ordered),
          visitNumbers_ends recorder prefix_ pad small fuel (by omega),
          visitAll_recorder]
  · rw [if_pos dash, if_pos dash]
    exact ⟨[tmpName (prefix_ ++ range)], rfl, rfl⟩

theorem visitItemRange_goesOn (fine : ¬Faulty range) {visited after : List CStr} :
    visitItemRange recorder fuel prefix_ range visited ≠ some (false, after) := by
  intro went
  rw [visitItemRange] at went
  by_cases dash : '-' ∈ range
  · rw [if_neg (not_not_intro dash)] at went
    rcases scanned : scanRange range with _ | ⟨min, pad, max⟩
    · apply fine
      refine ⟨dash, ?_⟩
      intro min pad max other
      rw [scanned] at other
      cases other
    · rw [scanned] at went
      dsimp only at went
      have bounds := scanRange_lt scanned
      split at went
      · rename_i unordered
        apply fine
        refine ⟨dash, ?_⟩
        intro min' pad' max' other
        rw [scanned] at other
        cases other
        exact unordered
      · by_cases largest : max = 2 ^ 32 - 1
        · rw [largest, visitNumbers_endless prefix_ pad fuel bounds.1] at went
          cases went
        · have result := visitNumbers_some recorder prefix_ pad (by omega) fuel went
          rw [visitAll_recorder] at result
          cases result
  · rw [if_pos dash] at went
    cases went

end Range

/-! ## Visiting a list -/

variable {tokens : List CStr} {open_ : Option CStr}

theorem visitTokens_endless (fuel : Nat) (endless : Endless tokens open_)
    (visited : List CStr) :
    visitTokens recorder fuel tokens open_ visited = none := by
  induction tokens generalizing open_ visited with
  | nil => exact endless.elim
  | cons next tokens induction =>
    unfold Endless at endless
    rw [visitTokens]
    rcases taken : takeToken open_ next with _ | _ | ⟨prefix_, range, after⟩
    · rw [taken] at endless
      exact endless.elim
    · rw [taken] at endless
      exact induction endless _
    · rw [taken] at endless
      obtain ⟨fine, largest | later⟩ := endless
      · dsimp only
        rw [visitItemRange_largest fuel largest]
      · dsimp only
        rcases given : visitItemRange recorder fuel prefix_ range visited with _ | ⟨_ | _, between⟩
        · rfl
        · exact absurd given (visitItemRange_goesOn fine)
        · exact induction later between

/-- Any other list is left, with the result that a recognised fault gives. -/
theorem visitTokens_ends (enough : 2 ^ 32 < fuel) (ends : ¬Endless tokens open_)
    (visited : List CStr) :
    ∃ ok names, names.length ≤ listSize tokens open_ ∧ (ok = false ↔ Recognised tokens open_) ∧
        visitTokens recorder fuel tokens open_ visited = some (ok, visited ++ names) := by
  induction tokens generalizing open_ visited with
  | nil => exact ⟨true, [], le_refl 0, by simp [Recognised], by simp [visitTokens]⟩
  | cons next tokens induction =>
    unfold Endless at ends
    rw [visitTokens, listSize, Recognised]
    rcases taken : takeToken open_ next with _ | _ | ⟨prefix_, range, after⟩
    · exact ⟨false, [], le_refl 0, by simp, by simp⟩
    · rw [taken] at ends
      obtain ⟨ok, names, short, result, went⟩ := induction ends (visited ++ [next])
      refine ⟨ok, next :: names, ?_, result, ?_⟩
      · rw [length_cons]
        dsimp only
        omega
      · rw [recorder]
        dsimp only
        rw [went, append_assoc]
        rfl
    · rw [taken] at ends
      dsimp only at ends ⊢
      by_cases faulty : Faulty range
      · rw [visitItemRange_faulty recorder fuel faulty]
        exact ⟨false, [], Nat.zero_le _, by simp [faulty], by simp⟩
      · rw [not_and, not_or] at ends
        obtain ⟨smaller, later⟩ := ends faulty
        obtain ⟨first, size, went⟩ :=
          @visitItemRange_fine prefix_ range fuel enough faulty smaller visited
        obtain ⟨ok, names, short, result, rest⟩ := induction later (visited ++ first)
        refine ⟨ok, first ++ names, ?_, ?_, ?_⟩
        · rw [length_append]
          omega
        · rw [result]
          exact ⟨.inr, fun found => found.resolve_left faulty⟩
        · rw [went]
          dsimp only
          rw [rest, append_assoc]

theorem visitTokens_rejects {visited after : List CStr}
    (went : visitTokens recorder fuel tokens open_ visited =
      some (false, after)) : Recognised tokens open_ := by
  induction tokens generalizing open_ visited with
  | nil => cases went
  | cons next tokens induction =>
    rw [visitTokens] at went
    unfold Recognised
    rcases taken : takeToken open_ next with _ | _ | ⟨prefix_, range, later⟩
    · trivial
    · rw [taken] at went
      exact induction went
    · rw [taken] at went
      dsimp only at went ⊢
      by_cases faulty : Faulty range
      · exact .inl faulty
      · right
        rcases given : visitItemRange recorder fuel prefix_ range visited with _ | ⟨_ | _, between⟩
        · rw [given] at went
          cases went
        · exact absurd given (visitItemRange_goesOn faulty)
        · rw [given] at went
          exact induction went

/-- What is promised for a text: the visits end, they are no more than the
ranges have numbers, and a malformed list is rejected. -/
def Obeys (text : CStr) : Prop :=
  ∃ fuel ok visited, traverseCompList recorder fuel text [] = some (ok, visited) ∧
      visited.length ≤ listSize (tokenize [] text) none ∧ (Malformed text → ok = false)

/-- The promise is kept exactly if no range up to the largest unsigned number
is reached, and the list has a fault that is looked for if it is malformed. -/
theorem traverseCompList_obeys_iff (text : CStr) : Obeys text ↔
      ¬Endless (tokenize [] text) none ∧ (Malformed text → Recognised (tokenize [] text) none) := by
  constructor
  · rintro ⟨fuel, ok, visited, went, -, rejects⟩
    have ends : ¬Endless (tokenize [] text) none := by
      intro endless
      rw [traverseCompList, visitTokens_endless fuel endless] at went
      cases went
    refine ⟨ends, ?_⟩
    intro malformed
    rw [rejects malformed] at went
    exact visitTokens_rejects went
  · rintro ⟨ends, recognised⟩
    obtain ⟨ok, names, short, result, went⟩ := visitTokens_ends (Nat.lt_succ_self (2 ^ 32)) ends []
    exact ⟨_, ok, names, went, short,
      fun malformed => result.mpr (recognised malformed)⟩

/-- A bracket that is never closed is not noticed. -/
theorem not_traverseCompList_obeys : ¬∀ text, Obeys text := by
  intro obeys
  obtain ⟨fuel, ok, visited, went, -, rejects⟩ := obeys ['a', '[', '1']
  rw [rejects (by decide)] at went
  have accepted : traverseCompList recorder fuel ['a', '[', '1'] [] =
      some (true, [['a', '1']]) := rfl
  rw [accepted] at went
  cases went

end Psmgmt.CompList
