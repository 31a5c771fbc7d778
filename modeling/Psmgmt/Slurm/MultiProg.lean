import Mathlib

/-!
# Multi-program configurations

`psslurmmultiprog.c`.  A C string is the list of its characters, without the
terminating one.  An access beyond the end of the per-rank table and the
exit of the process after an error are kept apart from the results.
-/

namespace Psmgmt.Slurm.MultiProg

abbrev CStr := List Char

def singleQuote : Char := Char.ofNat 39
def doubleQuote : Char := Char.ofNat 34
def backslash : Char := Char.ofNat 92
def verticalTab : Char := Char.ofNat 11
def formFeed : Char := Char.ofNat 12

/-- The conversion `%u` of `snprintf()`. -/
def decimal (value : Nat) : CStr := Nat.toDigits 10 value

/-! ## Reading the configuration -/

/-- The tokens `strtok_r()` delivers for a single delimiter. -/
def strtok (delimiter : Char) (text : CStr) : List CStr :=
  (text.splitOn delimiter).filter (fun token => decide (token ≠ []))

def ltrim (string : CStr) : CStr := string.dropWhile (fun c => c = ' ')

def rtrim (string : CStr) : CStr := string.rdropWhile (fun c => c = ' ' ∨ c = '\n')

def trim (string : CStr) : CStr := rtrim (ltrim string)

def isSpace (c : Char) : Bool :=
  c = ' ' ∨ c = '\t' ∨ c = '\n' ∨ c = verticalTab ∨ c = formFeed ∨ c = '\r'

/-- The sign in front of a number and what follows it. -/
def scanSign : CStr → Bool × CStr
  | [] => (false, [])
  | c :: rest =>
    if c = '-' then (true, rest)
    else if c = '+' then (false, rest)
    else (false, c :: rest)

/-- The conversion `%u` of `sscanf()`: the number is read as an
`unsigned long` and then cut off. -/
def scanUnsigned (text : CStr) : Option (Nat × CStr) :=
  let (negative, text) := scanSign (text.dropWhile isSpace)
  let digits := text.takeWhile Char.isDigit
  if digits = [] then none
  else
    let value := Nat.ofDigitChars 10 digits 0
    let number :=
      if 2 ^ 64 ≤ value then 2 ^ 64 - 1
      else if negative then 2 ^ 64 - value
      else value
    some (number % 2 ^ 32, text.dropWhile Char.isDigit)

inductive RankEntry where
  | all
  | single (rank : Nat)
  | range (min max : Nat)
  | invalid
  deriving DecidableEq

/-- How `unrollRanks()` reads an entry. -/
def readEntry (range : CStr) : RankEntry :=
  if '-' ∉ range then
    if range.head? = some '*' then .all
    else
      match scanUnsigned range with
      | none => .invalid
      | some (rank, _) => .single rank
  else
    match scanUnsigned range with
    | none => .invalid
    | some (min, rest) =>
      if rest.head? = some '-' then
        match scanUnsigned rest.tail with
        | none => .invalid
        | some (max, _) => .range min max
      else .invalid

/-- A line of the configuration. -/
structure ConfLine where
  rankList : CStr
  executable : CStr
  args : Option CStr
  deriving DecidableEq

/-- How `parseMultiProgConf()` takes a line apart. -/
def readLine (line : CStr) : Option ConfLine :=
  let line := trim line
  -- the first space or tab ends the rank list
  match line.dropWhile (fun c => c ≠ ' ' ∧ c ≠ '\t') with
  | [] => none
  | _ :: rest =>
    let executable := ltrim rest
    some {
      rankList := line.takeWhile (fun c => c ≠ ' ' ∧ c ≠ '\t')
      executable := executable.takeWhile (fun c => c ≠ ' ')
      args :=
        match executable.dropWhile (fun c => c ≠ ' ') with
        | [] => none
        | _ :: args => some (ltrim args) }

/-- The lines that are neither comments nor empty. -/
def confLines (conf : CStr) : List CStr :=
  (strtok '\n' conf).filter (fun line => decide (line.head? ≠ some '#'))

/-! ## Replacing symbols -/

/-- What stands for `%t` and `%o`. -/
def symbol (rank offset : Nat) (c : Char) (next : Option Char) : Option CStr :=
  if c = '%' ∧ next = some 't' then some (decimal rank)
  else if c = '%' ∧ next = some 'o' then some (decimal offset)
  else none

/-- Where the pointer stands: in the text, in front of a closing quote to jump
behind, or at the letter of a symbol. -/
inductive ArgPos where
  | text
  | quoted
  | letter

/-- The loop of `replaceArgSymbols()`. -/
def replaceLoop (rank offset : Nat) : ArgPos → (haveOpenQuote : Bool) → CStr → CStr
  | _, _, [] => []
  | .letter, haveOpenQuote, _ :: rest => replaceLoop rank offset .text haveOpenQuote rest
  | .quoted, haveOpenQuote, c :: rest =>
    c :: if c = singleQuote then replaceLoop rank offset .text false rest
      else replaceLoop rank offset .quoted haveOpenQuote rest
  | .text, haveOpenQuote, c :: rest =>
    if c = '\n' then []
    else
      -- search for single quotes
      let haveOpenQuote :=
        if c = singleQuote then !haveOpenQuote else haveOpenQuote
      -- parse symbols
      match symbol rank offset c rest.head? with
      | none => c :: replaceLoop rank offset .text haveOpenQuote rest
      | some number =>
        if haveOpenQuote ∧ singleQuote ∈ rest.tail then
          -- found quoted string, no parsing of symbols
          c :: replaceLoop rank offset .quoted haveOpenQuote rest
        else number ++ replaceLoop rank offset .letter haveOpenQuote rest

def replaceArgSymbols (args : Option CStr) (rank offset : Nat) : CStr :=
  match args with
  | none => []
  | some args => replaceLoop rank offset .text false args

/-! ## The table of programs -/

/-- What ends the processing of a configuration: an error that is reported, or
an access behind the table, after which anything can happen. -/
inductive Stop where
  | exit
  | outOfBounds
  deriving DecidableEq

/-- An entry of `Multi_Prog_t`. -/
structure Prog where
  exe : CStr
  args : CStr
  deriving DecidableEq

/-- The table, with the number of ranks of the current line so far. -/
structure Unrolled where
  mp : List (Option Prog)
  count : Nat
  deriving DecidableEq

section Unroll

variable (executable : CStr) (args : Option CStr)

def setProg (unrolled : Unrolled) (rank : Nat) : Except Stop Unrolled :=
  if rank < unrolled.mp.length then
    .ok {
      mp := unrolled.mp.set rank (some ⟨executable, replaceArgSymbols args rank unrolled.count⟩)
      count := (unrolled.count + 1) % 2 ^ 32 }
  else .error .outOfBounds

/-- The loop of a range. -/
def setRange : List Nat → Unrolled → Except Stop Unrolled
  | [], unrolled => .ok unrolled
  | i :: rest, unrolled =>
    match setProg executable args unrolled i with
    | .error stop => .error stop
    | .ok unrolled => setRange rest unrolled

/-- The loop of an asterisk. -/
def setUnset : List Nat → Unrolled → Except Stop Unrolled
  | [], unrolled => .ok unrolled
  | i :: rest, unrolled =>
    match unrolled.mp[i]? with
    | none => .error .outOfBounds
    | some (some _) => setUnset rest unrolled
    | some none =>
      match setProg executable args unrolled i with
      | .error stop => .error stop
      | .ok unrolled => setUnset rest unrolled

def unrollEntry (np : Nat) (unrolled : Unrolled) : RankEntry → Except Stop Unrolled
  | .all => setUnset executable args (List.range np) unrolled
  | .single rank =>
    if rank ≥ np then .error .exit
    else setProg executable args unrolled rank
  | .range min max =>
    if min > max then .error .exit
    else setRange executable args (List.range' min (max + 1 - min)) unrolled
  | .invalid => .error .exit

def unrollEntries (np : Nat) : List RankEntry → Unrolled → Except Stop Unrolled
  | [], unrolled => .ok unrolled
  | entry :: rest, unrolled =>
    match unrollEntry executable args np unrolled entry with
    | .error stop => .error stop
    | .ok unrolled => unrollEntries np rest unrolled

end Unroll

def ConfLine.entries (line : ConfLine) : List RankEntry := (strtok ',' line.rankList).map readEntry

def unrollRanks (mp : List (Option Prog)) (np : Nat) (line : ConfLine) :
    Except Stop (List (Option Prog)) :=
  match unrollEntries line.executable line.args np line.entries ⟨mp, 0⟩ with
  | .error stop => .error stop
  | .ok unrolled => .ok unrolled.mp

/-- The loop of `parseMultiProgConf()`. -/
def parseLines (np : Nat) : List CStr → List (Option Prog) → Except Stop (List (Option Prog))
  | [], mp => .ok mp
  | text :: rest, mp =>
    match readLine text with
    | none => .error .exit
    | some line =>
      match unrollRanks mp np line with
      | .error stop => .error stop
      | .ok mp => parseLines np rest mp

def parseMultiProgConf (conf : CStr) (mp : List (Option Prog)) (np : Nat) :
    Except Stop (List (Option Prog)) :=
  parseLines np (confLines conf) mp

/-! ## Splitting arguments -/

/-- The state machine of `splitArguments()`, with states of their own behind a
backslash. -/
inductive SplitState where
  | betweenword
  | inword
  | wordSlash
  | inSingle
  | inDouble
  | doubleSlash
  deriving DecidableEq

def endsWord (c : Char) : Bool := c = ' ' ∨ c = '\t' ∨ c = verticalTab ∨ c = '\n' ∨ c = '\r'

/-- The loop of `splitArguments()` with the complete arguments and the current
one. -/
def splitLoop : SplitState → (argv : List CStr) → (word : CStr) → CStr → List CStr
  | .betweenword, argv, _, [] => argv
  | .wordSlash, argv, word, [] => argv ++ [word ++ [backslash]]
  | .doubleSlash, argv, word, [] => argv ++ [word ++ [backslash]]
  | _, argv, word, [] => argv ++ [word]
  | .wordSlash, argv, word, c :: rest => splitLoop .inword argv (word ++ [c]) rest
  | .inSingle, argv, word, c :: rest =>
    if c = singleQuote then splitLoop .inword argv word rest
    else splitLoop .inSingle argv (word ++ [c]) rest
  | .inDouble, argv, word, c :: rest =>
    if c = backslash then splitLoop .doubleSlash argv word rest
    else if c = doubleQuote then splitLoop .inword argv word rest
    else splitLoop .inDouble argv (word ++ [c]) rest
  | .doubleSlash, argv, word, c :: rest =>
    if c ≠ backslash ∧ c ≠ doubleQuote ∧ c ≠ '\n' then
      splitLoop .inDouble argv (word ++ [backslash] ++ [c]) rest
    else splitLoop .inDouble argv (word ++ [c]) rest
  | state, argv, word, c :: rest =>
    if endsWord c then
      splitLoop .betweenword (if state = .inword then argv ++ [word] else argv) [] rest
    -- between words, the character is read again in the new word
    else if c = singleQuote then splitLoop .inSingle argv word rest
    else if c = doubleQuote then splitLoop .inDouble argv word rest
    else if c = backslash then splitLoop .wordSlash argv word rest
    else splitLoop .inword argv (word ++ [c]) rest

def splitArguments (args : CStr) : List CStr := splitLoop .betweenword [] [] args

/-! ## The argument vector -/

def colon : CStr := [':']

def npOption : CStr := ['-', 'n', 'p']

def addExecutableToArgv (argV : List CStr) (lastExe : CStr) (exeCount : Nat)
    (lastArgs : CStr) : List CStr :=
  argV ++ [npOption, decimal exeCount, lastExe] ++ splitArguments lastArgs

/-- The variables of the loop over the ranks. -/
structure Grouping where
  argV : List CStr
  last : Prog
  exeCount : Nat
  uniqExeCount : Nat

/-- The loop of `setupArgsFromMultiProg()` over the ranks. -/
def groupLoop (startArgc : Nat) : List (Option Prog) → Grouping → Except Stop Grouping
  | [], grouping => .ok grouping
  | none :: _, _ => .error .exit
  | some prog :: rest, grouping =>
    if prog.exe = grouping.last.exe ∧ prog.args = grouping.last.args then
      -- count how often this exe/args combination should run (==np)
      groupLoop startArgc rest { grouping with exeCount := grouping.exeCount + 1 }
    else
      -- this is not the first executable, separate using colon
      let argV :=
        if grouping.argV.length ≠ startArgc then grouping.argV ++ [colon]
        else grouping.argV
      groupLoop startArgc rest {
        argV := addExecutableToArgv argV grouping.last.exe grouping.exeCount grouping.last.args
        last := prog
        exeCount := 1
        uniqExeCount := grouping.uniqExeCount + 1 }

/-- The part of `setupArgsFromMultiProg()` behind the parsing. -/
def groupPrograms (mp : List (Option Prog)) (argV : List CStr) : Except Stop (List CStr) :=
  match mp with
  | [] => .error .outOfBounds
  | none :: _ => .error .exit
  | some first :: rest =>
    match groupLoop argV.length (some first :: rest)
      { argV := argV, last := first, exeCount := 0, uniqExeCount := 0 } with
    | .error stop => .error stop
    | .ok grouping =>
      -- now add the last exe/args combo
      let argV :=
        if grouping.uniqExeCount ≠ 0 then grouping.argV ++ [colon]
        else grouping.argV
      .ok (addExecutableToArgv argV grouping.last.exe grouping.exeCount grouping.last.args)

def setupArgsFromMultiProg (conf : CStr) (np : Nat) (argV : List CStr) : Except Stop (List CStr) :=
  match parseMultiProgConf conf (List.replicate np none) np with
  | .error stop => .error stop
  | .ok mp => groupPrograms mp argV

end Psmgmt.Slurm.MultiProg
