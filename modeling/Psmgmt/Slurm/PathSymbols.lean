import Psmgmt.Slurm.MultiProgQuoting

/-!
# Symbols in the paths of files

`replaceSymbols()` of `psslurmio.c` on the cells of the path.  The buffer the
result is built in is the list of its characters.
-/

namespace Psmgmt.Slurm.PathSymbols

open Slurm.MultiProg List

/-- The IDs as `%u` prints them, and the names that are there. -/
structure Ids where
  sluid : BitVec 64
  jobid : BitVec 32
  stepid : BitVec 32
  nodeid : BitVec 32
  rank : BitVec 32
  arrayJobId : BitVec 32
  arrayTaskId : BitVec 32
  hostname : Option CStr
  username : Option CStr
  jobname : Option CStr

/-- What is printed for a symbol of numbers; of the `sluid`, `%u` takes half. -/
def Ids.numbers (ids : Ids) : Char → Option (List (BitVec 32))
  | 'A' => some [ids.arrayJobId]
  | 'a' => some [ids.arrayTaskId]
  | 'b' => some [ids.arrayTaskId % 10]
  | 'J' => some [ids.jobid, ids.stepid]
  | 'j' => some [ids.jobid]
  | 'S' => some [ids.sluid.setWidth 32]
  | 's' => some [ids.stepid]
  | 'n' => some [ids.nodeid]
  | 't' => some [ids.rank]
  | _ => none

/-- `strbufAdd()` adds nothing for NULL. -/
def Ids.names (ids : Ids) : Char → Option CStr
  | 'N' => some (ids.hostname.getD [])
  | 'u' => some (ids.username.getD [])
  | 'x' => ids.jobname
  | _ => none

/-! ## The loop over the path -/

def width (digits : CStr) : Nat :=
  digits.foldl (fun value digit => 10 * value + (digit.toNat - 48)) 0

/-- The conversion `%0<width>u`, for several numbers with dots in between. -/
def zeroPadded (digits : CStr) (numbers : List (BitVec 32)) : CStr :=
  ['.'].intercalate (numbers.map fun number => (decimal number.toNat).leftpad (width digits) '0')

/-- The array `tmp` after `snprintf()`; a text longer than an `int` tells is an
error, which leaves it undefined. -/
def snprintf (text : CStr) : Option CStr :=
  if text.length < 2 ^ 31 then some (text.take 1023) else none

/-- What is added for the digits and the character behind a `%`. -/
def replace (ids : Ids) (digits : CStr) (symbol : Char) : Option CStr :=
  -- longer widths do not fit in symLen, and their first digit is no symbol
  if digits.length ≤ 61 then
    match ids.numbers symbol, ids.names symbol with
    | some numbers, _ => snprintf (zeroPadded digits numbers)
    | none, some name => some name
    | none, none => some ('%' :: digits ++ [symbol])
  else some ('%' :: digits ++ [symbol])

/-- The loop: outside of a pattern, and behind the `%` and some digits of one.
`none` is a read behind the cells, or of an undefined text. -/
def replaceLoop (ids : Ids) : Option CStr → List Char → Option CStr
  | _, [] => none
  | none, c :: rest =>
    if c = nul then some []
    else if c = '%' then replaceLoop ids (some []) rest
    else (replaceLoop ids none rest).map fun text => c :: text
  | some digits, c :: rest =>
    if c.isDigit then replaceLoop ids (some (digits ++ [c])) rest
    else (replace ids digits c).bind fun replaced =>
      (replaceLoop ids none rest).map fun text => replaced ++ text

def replaceSymbols (ids : Ids) (cells : List Char) : Option CStr := replaceLoop ids none cells

/-! ## Paths as pieces -/

/-- A path is made of characters and of patterns. -/
inductive Piece where
  | char (c : Char) (plain : c ≠ nul ∧ c ≠ '%')
  | pattern (digits : CStr) (symbol : Char) (numeric : ∀ digit ∈ digits, digit.isDigit = true)
    (ends : symbol.isDigit = false ∧ symbol ≠ nul)

def Piece.source : Piece → CStr
  | .char c _ => [c]
  | .pattern digits symbol _ _ => '%' :: digits ++ [symbol]

def source (pieces : List Piece) : CStr := pieces.flatMap Piece.source

/-- What a piece stands for. -/
def Piece.value (ids : Ids) : Piece → CStr
  | .char c _ => [c]
  | .pattern digits symbol _ _ =>
    match ids.numbers symbol, ids.names symbol with
    | some numbers, _ =>
      if digits.length ≤ 61 then (zeroPadded digits numbers).take 1023
      else '%' :: digits ++ [symbol]
    | none, some name => if digits.length ≤ 61 then name else '%' :: digits ++ [symbol]
    | none, none => '%' :: digits ++ [symbol]

/-- The text of a piece is one `snprintf()` can make. -/
def Piece.Printable (ids : Ids) : Piece → Prop
  | .char _ _ => True
  | .pattern digits symbol _ _ =>
    ∀ numbers, ids.numbers symbol = some numbers → digits.length ≤ 61 →
      (zeroPadded digits numbers).length < 2 ^ 31

theorem replaceLoop_digits (ids : Ids) (digits rest : List Char)
    (numeric : ∀ digit ∈ digits, digit.isDigit = true) :
    ∀ seen : CStr, replaceLoop ids (some seen) (digits ++ rest) =
      replaceLoop ids (some (seen ++ digits)) rest := by
  induction digits with
  | nil => simp
  | cons digit digits induction =>
    intro seen
    have later := induction (fun other member => numeric other (mem_cons_of_mem _ member))
    rw [cons_append, replaceLoop, if_pos (numeric digit (by simp)), later,
      append_assoc, singleton_append]

theorem replaceLoop_piece (ids : Ids) (piece : Piece)
    (printable : piece.Printable ids) (rest : List Char) :
    replaceLoop ids none (piece.source ++ rest) =
      (replaceLoop ids none rest).map fun text => piece.value ids ++ text := by
  cases piece with
  | char c plain => simp [Piece.source, Piece.value, replaceLoop, plain]
  | pattern digits symbol numeric ends =>
    have replaced : replace ids digits symbol =
        some (Piece.value ids (.pattern digits symbol numeric ends)) := by
      simp only [replace, Piece.value]
      by_cases short : digits.length ≤ 61
      · rw [if_pos short]
        cases numbers : ids.numbers symbol with
        | some values =>
          have fits := printable values numbers short
          simp only [snprintf, if_pos fits, if_pos short]
        | none =>
          cases ids.names symbol with
          | some name => simp only [if_pos short]
          | none => rfl
      · rw [if_neg short]
        cases ids.numbers symbol with
        | some values => simp only [if_neg short]
        | none =>
          cases ids.names symbol with
          | some name => simp only [if_neg short]
          | none => rfl
    have notNul : '%' ≠ nul := by decide
    have behind := replaceLoop_digits ids digits (symbol :: rest) numeric []
    simp only [Piece.source, cons_append, append_assoc, nil_append]
    rw [replaceLoop, if_neg notNul, if_pos rfl, behind, replaceLoop,
      if_neg (by simp [ends.1]), nil_append, replaced]
    rfl

theorem replaceSymbols_source (ids : Ids) (pieces : List Piece)
    (printable : ∀ piece ∈ pieces, piece.Printable ids) :
    replaceSymbols ids (source pieces ++ [nul]) = some (pieces.flatMap (Piece.value ids)) := by
  induction pieces with
  | nil => rfl
  | cons piece pieces induction =>
    have later := induction (fun other member => printable other (mem_cons_of_mem _ member))
    rw [source, flatMap_cons, append_assoc, replaceSymbols,
      replaceLoop_piece ids piece (printable piece (by simp))]
    rw [replaceSymbols, source] at later
    rw [later]
    rfl

/-- Made of pieces up to a pattern at the end that lacks its symbol, if
any. -/
def Pieced (path : CStr) : Prop :=
  ∃ pieces, source pieces = path ∨ ∃ digits : CStr, (∀ digit ∈ digits, digit.isDigit = true) ∧
      source pieces ++ '%' :: digits = path

theorem Pieced.cons {path : CStr} (pieced : Pieced path) (piece : Piece) :
    Pieced (piece.source ++ path) := by
  obtain ⟨pieces, rfl | ⟨digits, numeric, rfl⟩⟩ := pieced
  · exact ⟨piece :: pieces, .inl rfl⟩
  · exact ⟨piece :: pieces, .inr ⟨digits, numeric, by simp [source]⟩⟩

theorem pieced (path : CStr) (free : nul ∉ path) :
    Pieced path ∧ ∀ digits : CStr, (∀ digit ∈ digits, digit.isDigit = true) →
      Pieced ('%' :: digits ++ path) := by
  induction path with
  | nil =>
    exact ⟨⟨[], .inl rfl⟩, fun digits numeric => ⟨[], .inr ⟨digits, numeric, by simp [source]⟩⟩⟩
  | cons c rest induction =>
    obtain ⟨rest_pieced, pending⟩ := induction (fun inside => free (mem_cons_of_mem c inside))
    have char : c ≠ nul := fun same => free (by simp [same])
    constructor
    · by_cases percent : c = '%'
      · rw [percent]
        exact pending [] (fun _ absent => absurd absent not_mem_nil)
      · exact rest_pieced.cons (.char c ⟨char, percent⟩)
    · intro digits numeric
      cases digit : c.isDigit with
      | true =>
        have longer := pending (digits ++ [c]) (Snoc.forall_mem numeric digit)
        simpa using longer
      | false =>
        have whole := rest_pieced.cons (.pattern digits c numeric ⟨digit, char⟩)
        simpa [Piece.source] using whole

/-- The symbols the comment on `replaceSymbols()` lists. -/
def documented : List Char := ['A', 'a', 'b', 'J', 'j', 's', 'N', 'n', 't', 'u', 'x']

def sampleIds : Ids where
  sluid := 7
  jobid := 1
  stepid := 0
  nodeid := 0
  rank := 0
  arrayJobId := 0
  arrayTaskId := 0
  hostname := none
  username := none
  jobname := none

end Psmgmt.Slurm.PathSymbols
