import Mathlib

/-!
# Fence identifiers

`getFenceID()` of `pspmixservice.c` includes a name where its documentation
leaves it out.
-/

namespace Psmgmt.Pmix

open List

/-- An entry of the array of processes, with the bytes of its namespace. -/
structure FenceProc where
  nspace : List UInt8
  rank : UInt32
  deriving DecidableEq

/-- The characters of a name, up to `PMIX_MAX_NSLEN` of them. -/
def nameChars (nspace : List UInt8) : List UInt64 :=
  ((nspace.take 255).takeWhile (fun c => c ≠ 0)).map (fun c => ⟨c.toBitVec.signExtend 64⟩)

def hashStep (fenceid value : UInt64) : UInt64 := 23011 * fenceid + value

/-- The loop of `getFenceID()`; a namespace checks for another one if they are
the same. -/
def fenceLoop : (ns : Option (List UInt8)) → (fenceid : UInt64) → List FenceProc → UInt64
  | _, fenceid, [] => fenceid
  | ns, fenceid, proc :: procs =>
    if ns = none ∨ ns = some proc.nspace then
      fenceLoop (some proc.nspace)
        (hashStep ((nameChars proc.nspace).foldl hashStep fenceid) proc.rank.toUInt64) procs
    else fenceLoop ns (hashStep fenceid proc.rank.toUInt64) procs

def getFenceID (procs : List FenceProc) : UInt64 := fenceLoop none 42023 procs

/-! ## What is hashed -/

/-- The polynomial hash of a sequence. -/
def polyHash (values : List UInt64) : UInt64 := values.foldl hashStep 42023

/-- The name an entry contributes, if it does, and its rank. -/
abbrev FenceItem : Type := Option (List UInt8) × UInt32

def itemValues (items : List FenceItem) : List UInt64 :=
  items.flatMap (fun item => item.1.elim [] nameChars ++ [item.2.toUInt64])

/-- What the comment describes: the name is included where it differs from that
of the predecessor. -/
def describedItems : (predecessor : Option (List UInt8)) → List FenceProc → List FenceItem
  | _, [] => []
  | predecessor, proc :: procs =>
    (if predecessor = some proc.nspace then none else some proc.nspace,
      proc.rank) :: describedItems (some proc.nspace) procs

/-- What the loop includes. -/
def hashedItems : (ns : Option (List UInt8)) → List FenceProc → List FenceItem
  | _, [] => []
  | ns, proc :: procs =>
    if ns = none ∨ ns = some proc.nspace then
      (some proc.nspace, proc.rank) :: hashedItems (some proc.nspace) procs
    else (none, proc.rank) :: hashedItems ns procs

theorem fenceLoop_eq (ns : Option (List UInt8)) (fenceid : UInt64)
    (procs : List FenceProc) :
    fenceLoop ns fenceid procs = (itemValues (hashedItems ns procs)).foldl hashStep fenceid := by
  induction procs generalizing ns fenceid with
  | nil => rfl
  | cons proc procs induction =>
    rw [fenceLoop, hashedItems]
    split
    · rw [induction, itemValues, itemValues, flatMap_cons, foldl_append, foldl_append]
      rfl
    · rw [induction]
      rfl

theorem getFenceID_eq (procs : List FenceProc) :
    getFenceID procs = polyHash (itemValues (hashedItems none procs)) :=
  fenceLoop_eq none 42023 procs

/-- The second entry contributes its name exactly if it must not. -/
theorem hashedItems_eq_iff (procs : List FenceProc) :
    hashedItems none procs = describedItems none procs ↔ procs.length ≤ 1 := by
  constructor
  · intro same
    match procs with
    | [] => exact Nat.zero_le 1
    | [_] => exact Nat.le_refl 1
    | first :: second :: rest =>
      by_cases equal : first.nspace = second.nspace <;>
        simp [hashedItems, describedItems, equal] at same
  · intro few
    match procs with
    | [] => rfl
    | [proc] => simp [hashedItems, describedItems]

/-- The ID is the hash of the described sequence as long as there is one
process at most. -/
theorem getFenceID_described_iff (procs : List FenceProc) :
    (hashedItems none procs = describedItems none procs ∧
      getFenceID procs = polyHash (itemValues (describedItems none procs))) ↔
      procs.length ≤ 1 := by
  rw [getFenceID_eq, ← hashedItems_eq_iff]
  exact ⟨And.left, fun same => ⟨same, by rw [same]⟩⟩

/-- The second namespace is left out. -/
theorem not_getFenceID_described :
    ¬ ∀ procs, getFenceID procs = polyHash (itemValues (describedItems none procs)) := by
  intro described
  exact absurd (described [⟨[65], 0⟩, ⟨[66], 0⟩]) (by decide +kernel)

end Psmgmt.Pmix
