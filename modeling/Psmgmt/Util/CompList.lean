import Psmgmt.Slurm.MultiProg

/-!
# Compressed lists

`visitItemRange()` and `traverseCompList()` of `pscomplist.c`.  The visitor is
a function of its `info`; the loop over the numbers of a range takes `fuel`,
since it may not end.
-/

namespace Psmgmt.CompList

open Slurm.MultiProg

/-- What `traverseCompList()` and the visitors return, and `info` after it;
none if they do not return. -/
abbrev Visit (Info : Type) : Type := Option (Bool × Info)

section Visits

variable {Info : Type} (visitor : CStr → Info → Bool × Info)

/-- What `snprintf()` leaves in `tmp[1024]`. -/
def tmpName (name : CStr) : CStr := name.take 1023

/-- The conversion `%0*u` of `snprintf()`. -/
def paddedName (pad i : Nat) : CStr := List.replicate (pad - (decimal i).length) '0' ++ decimal i

/-- The loop over the items of a range. -/
def visitNumbers (prefix_ : CStr) (pad max : Nat) : (fuel i : Nat) → Info → Visit Info
  | 0, _, _ => none
  | fuel + 1, i, info =>
    if i ≤ max then
      match visitor (tmpName (prefix_ ++ paddedName pad i)) info with
      | (false, info) => some (false, info)
      | (true, info) => visitNumbers prefix_ pad max fuel ((i + 1) % 2 ^ 32) info
    else some (true, info)

/-- What `sscanf(range, "%u%n-%u")` finds: `min`, `pad` and `max`. -/
def scanRange (range : CStr) : Option (Nat × Nat × Nat) :=
  match scanUnsigned range with
  | none => none
  | some (min, rest) =>
    match rest with
    | [] => none
    | c :: rest' =>
      if c = '-' then
        (scanUnsigned rest').map (fun (max, _) => (min, range.length - rest.length, max))
      else none

/-- `visitItemRange()`. -/
def visitItemRange (fuel : Nat) (prefix_ range : CStr) (info : Info) : Visit Info :=
  if '-' ∉ range then some (visitor (tmpName (prefix_ ++ range)) info)
  else
    match scanRange range with
    | none => some (false, info)
    | some (min, pad, max) =>
      if min > max then some (false, info)
      else visitNumbers visitor prefix_ pad max fuel min info

end Visits

/-! ## Tokens -/

def isDelimiter (c : Char) : Bool := c = ',' ∨ c = ' ' ∨ c = '\n'

/-- The tokens `strtok_r()` delivers; `next` is the current one. -/
def tokenize : (next : CStr) → CStr → List CStr
  | next, [] => if next = [] then [] else [next]
  | next, c :: rest =>
    if isDelimiter c then
      if next = [] then tokenize [] rest else next :: tokenize [] rest
    else tokenize (next ++ [c]) rest

def upTo (c : Char) (text : CStr) : CStr := text.takeWhile (fun d => d ≠ c)

/-- The text behind the first occurrence of a character. -/
def behind (c : Char) (text : CStr) : CStr := (text.dropWhile (fun d => d ≠ c)).tail

/-- How a token is taken. -/
inductive Taken where
  | error
  | name
  | range (prefix_ range : CStr) (open_ : Option CStr)
  deriving DecidableEq, Repr

/-- The cases of `traverseCompList()`; `open_` is the prefix while a bracket
is open. -/
def takeToken (open_ : Option CStr) (next : CStr) : Taken :=
  if '[' ∈ next ∧ open_.isSome then .error
  else if '[' ∈ next ∧ ']' ∈ next then
    -- both brackets are cut off, whichever is the first one
    let range :=
      if ']' ∈ upTo '[' next then behind '[' next
      else upTo ']' (behind '[' next)
    .range (upTo ']' (upTo '[' next)) range none
  else if '[' ∈ next then
    .range (upTo '[' next) (behind '[' next) (some (upTo '[' next))
  else if ']' ∈ next then
    match open_ with
    | none => .error
    | some prefix_ => .range prefix_ (upTo ']' next) none
  else
    match open_ with
    | none => .name
    | some prefix_ => .range prefix_ next (some prefix_)

section Traverse

variable {Info : Type} (visitor : CStr → Info → Bool × Info) (fuel : Nat)

/-- The loop over the tokens. -/
def visitTokens : List CStr → (open_ : Option CStr) → Info → Visit Info
  | [], _, info => some (true, info)
  | next :: tokens, open_, info =>
    match takeToken open_ next with
    | .error => some (false, info)
    | .name =>
      match visitor next info with
      | (false, info) => some (false, info)
      | (true, info) => visitTokens tokens open_ info
    | .range prefix_ range open_ =>
      match visitItemRange visitor fuel prefix_ range info with
      | none => none
      | some (false, info) => some (false, info)
      | some (true, info) => visitTokens tokens open_ info

/-- `traverseCompList()`. -/
def traverseCompList (compList : CStr) (info : Info) : Visit Info :=
  visitTokens visitor fuel (tokenize [] compList) none info

end Traverse

end Psmgmt.CompList
