import Psmgmt.Library.Snoc
import Psmgmt.Slurm.MultiProg

/-!
# Quoted arguments

`splitArguments()` on memory: it reads the cells of its argument one after the
other and writes into a buffer of its own, in which the arguments stay until
the next one is pushed.
-/

namespace Psmgmt.Slurm.MultiProg

open List Option

def nul : Char := Char.ofNat 0

/-- A string as C has it: no character of it terminates it. -/
abbrev Terminated := { text : CStr // nul ∉ text }

def Terminated.cells (text : Terminated) : List Char := text.val ++ [nul]

/-! ## The buffer -/

/-- What is written to `out`, the arguments duplicated so far and where the one
pushed last starts. -/
structure ArgBuffer where
  out : List Char
  argv : List CStr
  last : Option Nat
  deriving DecidableEq

/-- `none` is an access behind what has been written. -/
def ustrdup (out : List Char) (start : Nat) : Option CStr :=
  if nul ∈ out.drop start then
    some ((out.drop start).takeWhile (fun c => decide (c ≠ nul)))
  else none

def push (buffer : ArgBuffer) (pos : Option Nat) : Option ArgBuffer :=
  match buffer.last with
  | none => some { buffer with last := pos }
  | some start =>
    (ustrdup buffer.out start).map fun argument =>
      { buffer with argv := buffer.argv ++ [argument], last := pos }

def ArgBuffer.write (buffer : ArgBuffer) (bytes : List Char) : ArgBuffer :=
  { buffer with out := buffer.out ++ bytes }

/-- What the loop writes for a character and its next state; `none` stands for
`finished`. -/
def readCell : SplitState → Char → List Char × Option SplitState
  | .wordSlash, c => if c = nul then ([backslash, c], none) else ([c], some .inword)
  | .inSingle, c =>
    if c = singleQuote then ([], some .inword)
    else if c = nul then ([c], none)
    else ([c], some .inSingle)
  | .inDouble, c =>
    if c = backslash then ([], some .doubleSlash)
    else if c = doubleQuote then ([], some .inword)
    else if c = nul then ([c], none)
    else ([c], some .inDouble)
  | .doubleSlash, c =>
    if c = nul then ([backslash, c], none)
    else if c ≠ backslash ∧ c ≠ doubleQuote ∧ c ≠ '\n' then
      ([backslash, c], some .inDouble)
    else ([c], some .inDouble)
  | state, c =>
    if endsWord c then
      (if state = .inword then [nul] else [], some .betweenword)
    else if c = nul then ([c], none)
    -- between words, the character is read again in the new word
    else if c = singleQuote then ([], some .inSingle)
    else if c = doubleQuote then ([], some .inDouble)
    else if c = backslash then ([], some .wordSlash)
    else ([c], some .inword)

/-- The loop of `splitArguments()`; `none` is an access behind the cells. -/
def splitCells : SplitState → ArgBuffer → List Char → Option ArgBuffer
  | _, _, [] => none
  | state, buffer, c :: rest =>
    (if state = .betweenword ∧ endsWord c = false ∧ c ≠ nul then
      push buffer (some buffer.out.length)
    else some buffer).bind fun buffer =>
      match (readCell state c).2 with
      | none => some (buffer.write (readCell state c).1)
      | some next => splitCells next (buffer.write (readCell state c).1) rest

def splitMemory (cells : List Char) : Option ArgBuffer :=
  (splitCells .betweenword ⟨[], [], none⟩ cells).bind fun buffer => push buffer none

/-! ## The buffer holds the arguments -/

/-- The arguments, each with the NUL behind it. -/
def packed (argv : List CStr) : List Char := argv.flatMap (fun argument => argument ++ [nul])

variable (argv : List CStr)

theorem packed_append (word : CStr) : packed (argv ++ [word]) = packed argv ++ word ++ [nul] := by
  simp [packed]

/-- The buffer that stands for the variables of `splitLoop`.  Between words,
the last argument is complete, but not duplicated yet. -/
def written (state : SplitState) (argv : List CStr) (word : CStr) : ArgBuffer :=
  if state = .betweenword then
    ⟨packed argv, argv.dropLast,
      if argv = [] then none else some (packed argv.dropLast).length⟩
  else ⟨packed argv ++ word, argv, some (packed argv).length⟩

theorem written_inside {state : SplitState} (inside : state ≠ .betweenword)
    (argv : List CStr) (word : CStr) :
    written state argv word = ⟨packed argv ++ word, argv, some (packed argv).length⟩ :=
  if_neg inside

attribute [local simp] ArgBuffer.write

theorem written_write {state : SplitState} (inside : state ≠ .betweenword)
    (argv : List CStr) (word bytes : CStr) :
    (written state argv word).write bytes = written .inword argv (word ++ bytes) := by
  rw [written_inside inside, written_inside (by decide)]
  simp

theorem written_end (word : CStr) :
    (written .inword argv word).write [nul] = written .betweenword (argv ++ [word]) [] := by
  rw [written_inside (by decide)]
  simp [written, packed_append]

theorem ustrdup_packed (before : List Char) (word more : CStr)
    (terminated : nul ∉ word) :
    ustrdup (before ++ (word ++ nul :: more)) before.length = some word := by
  have letters : ∀ c ∈ word, decide (c ≠ nul) = true := fun c member =>
    decide_eq_true (fun same => terminated (same ▸ member))
  rw [ustrdup, drop_left, if_pos (by simp), takeWhile_append_of_pos letters]
  simp

theorem push_written (terminated : ∀ argument ∈ argv, nul ∉ argument)
    (more : List Char) (pos : Option Nat) :
    push ((written .betweenword argv []).write more) pos =
      some ⟨packed argv ++ more, argv, pos⟩ := by
  rcases eq_nil_or_concat argv with rfl | ⟨before, last, rfl⟩
  · rfl
  · have duplicated := ustrdup_packed (packed before) last more (terminated last (by simp))
    simp only [written, push, ArgBuffer.write, concat_eq_append,
      packed_append, dropLast_concat] at *
    simp [duplicated]

/-- Whether a character ends a word or the blanks go on. -/
def SplitState.parts (state : SplitState) (c : Char) : Prop :=
  (state = .betweenword ∨ state = .inword) ∧ endsWord c = true

attribute [local simp] splitLoop

theorem splitLoop_parts {state : SplitState} {c : Char} (parts : state.parts c)
    (argv : List CStr) (word rest : CStr) :
    splitLoop state argv word (c :: rest) =
      splitLoop .betweenword (if state = .inword then argv ++ [word] else argv) [] rest := by
  obtain ⟨rfl | rfl, ends⟩ := parts <;> simp [ends]

theorem splitLoop_goesOn {state : SplitState} {c : Char} (goesOn : ¬ state.parts c) (char : c ≠ nul)
    (argv : List CStr) (word rest : CStr) :
    ∃ next, (readCell state c).2 = some next ∧ next ≠ .betweenword ∧
      nul ∉ (readCell state c).1 ∧
      splitLoop state argv word (c :: rest) =
        splitLoop next argv (word ++ (readCell state c).1) rest := by
  have marks : nul ≠ backslash := by decide
  have letter : nul ≠ c := char.symm
  cases state with
  | betweenword | inword =>
    have inside : endsWord c = false := by
      simpa [SplitState.parts] using goesOn
    by_cases single : c = singleQuote
    · exact ⟨.inSingle, by simp_all [readCell, splitLoop]⟩
    by_cases double : c = doubleQuote
    · exact ⟨.inDouble, by simp_all [readCell, splitLoop]⟩
    by_cases slash : c = backslash
    · exact ⟨.wordSlash, by simp_all [readCell, splitLoop]⟩
    · exact ⟨.inword, by simp_all [readCell, splitLoop]⟩
  | wordSlash => exact ⟨.inword, by simp_all [readCell, splitLoop]⟩
  | doubleSlash =>
    refine ⟨.inDouble, ?_⟩
    by_cases kept : c ≠ backslash ∧ c ≠ doubleQuote ∧ c ≠ '\n'
    · simp_all [readCell, splitLoop]
    · simp [readCell, kept, char, letter]
  | inSingle =>
    by_cases single : c = singleQuote
    · exact ⟨.inword, by simp_all [readCell, splitLoop]⟩
    · exact ⟨.inSingle, by simp_all [readCell, splitLoop]⟩
  | inDouble =>
    by_cases slash : c = backslash
    · exact ⟨.doubleSlash, by simp_all [readCell, splitLoop]⟩
    by_cases double : c = doubleQuote
    · exact ⟨.inword, by simp_all [readCell, splitLoop]⟩
    · exact ⟨.inDouble, by simp_all [readCell, splitLoop]⟩

/-- The loop on the cells of a string does what `splitLoop` does on its
characters. -/
theorem splitCells_argv (rest : CStr) (unterminated : nul ∉ rest) :
    ∀ (state : SplitState) (argv : List CStr) (word : CStr),
      (∀ argument ∈ argv, nul ∉ argument) → nul ∉ word →
      (state = .betweenword → word = []) →
      ((splitCells state (written state argv word) (rest ++ [nul])).bind
          fun buffer => push buffer none).map ArgBuffer.argv =
        some (splitLoop state argv word rest) := by
  have finished (argv : List CStr) (word : CStr)
      (complete : ∀ argument ∈ argv, nul ∉ argument) (free : nul ∉ word) :
      (push ((written .inword argv word).write [nul]) none).map
          ArgBuffer.argv = some (argv ++ [word]) := by
    have pushed := push_written (argv ++ [word]) (Snoc.forall_mem complete free) [] none
    rw [written_end]
    simpa using congrArg (Option.map ArgBuffer.argv) pushed
  have marks : nul ≠ singleQuote ∧ nul ≠ doubleQuote ∧ nul ≠ backslash ∧
      endsWord nul = false := by decide
  induction rest with
  | nil =>
    intro state argv word complete free empty
    have slash : nul ∉ word ++ [backslash] := by simp [free, marks]
    cases state with
    | betweenword =>
      have pushed := push_written argv complete [nul] none
      rw [empty rfl]
      simpa [splitCells, readCell, marks] using congrArg (Option.map ArgBuffer.argv) pushed
    | wordSlash | doubleSlash =>
      have pushed := finished argv _ complete slash
      simpa [splitCells, readCell, written]
        using pushed
    | inword | inSingle | inDouble =>
      have pushed := finished argv _ complete free
      simpa [splitCells, readCell, marks, written] using pushed
  | cons c rest induction =>
    intro state argv word complete free empty
    have char : c ≠ nul := fun same => unterminated (by simp [same])
    have later := induction (fun inside => unterminated (by simp [inside]))
    by_cases parts : state.parts c
    · rw [splitLoop_parts parts]
      obtain ⟨rfl | rfl, ends⟩ := parts
      · cases empty rfl
        have blanks := later .betweenword argv [] complete not_mem_nil (fun _ => rfl)
        simpa [splitCells, readCell, ends] using blanks
      · have parted := later .betweenword _ [] (Snoc.forall_mem complete free)
          not_mem_nil (fun _ => rfl)
        rw [← written_end] at parted
        simpa [splitCells, readCell, ends] using parted
    · obtain ⟨next, state_eq, inside, bytes, loop⟩ :=
        splitLoop_goesOn parts char argv word rest
      have goesOn := later next argv (word ++ (readCell state c).1) complete
        (by simp [free, bytes]) (fun same => absurd same inside)
      have opened : (if state = .betweenword ∧ endsWord c = false ∧ c ≠ nul then
            push (written state argv word) (some (written state argv word).out.length)
          else some (written state argv word)) = some (written .inword argv word) := by
        by_cases between : state = .betweenword
        · cases between
          cases empty rfl
          have ends : endsWord c = false := by
            simpa [SplitState.parts] using parts
          have pushed := push_written argv complete [] (some (packed argv).length)
          simpa [ends, char, written] using pushed
        · rw [if_neg (fun between' => between between'.1),
            written_inside between, written_inside (by decide)]
      rw [loop, cons_append, splitCells, opened, bind_some,
        state_eq, written_write (by decide), ← goesOn,
        written_inside inside, written_inside (by decide)]


variable (text : Terminated)

theorem splitMemory_argv :
    (splitMemory text.cells).map ArgBuffer.argv = some (splitArguments text.val) :=
  splitCells_argv text.val text.property .betweenword [] []
    (fun _ absent => absurd absent not_mem_nil) not_mem_nil (fun _ => rfl)

/-! ## The bytes written -/

/-- Behind a backslash, one more byte may be written than read. -/
def SplitState.due : SplitState → Nat
  | .wordSlash | .doubleSlash => 1
  | _ => 0

@[simp] theorem ArgBuffer.length_write (buffer : ArgBuffer)
    (bytes : List Char) :
    (buffer.write bytes).out.length = buffer.out.length + bytes.length :=
  length_append

theorem push_out {buffer after : ArgBuffer} {pos : Option Nat}
    (pushed : push buffer pos = some after) : after.out = buffer.out := by
  rw [push] at pushed
  split at pushed
  · cases pushed
    rfl
  · obtain ⟨argument, -, rfl⟩ := map_eq_some_iff.mp pushed
    rfl

theorem readCell_length (state : SplitState) (c : Char) :
    (readCell state c).1.length + ((readCell state c).2.elim 0 SplitState.due) ≤ state.due + 1 := by
  cases state <;> simp only [readCell] <;> split_ifs <;>
    simp [SplitState.due]

theorem splitCells_length (cells : List Char) :
    ∀ (state : SplitState) (buffer after : ArgBuffer), splitCells state buffer cells = some after →
      after.out.length ≤ buffer.out.length + state.due + cells.length := by
  induction cells with
  | nil => exact fun _ _ _ finished => absurd finished (by simp [splitCells])
  | cons c rest induction =>
    intro state buffer after finished
    rw [splitCells] at finished
    obtain ⟨opened, pushed, finished⟩ := bind_eq_some_iff.mp finished
    have same : opened.out = buffer.out := by
      split at pushed
      · exact push_out pushed
      · cases pushed
        rfl
    have bound := readCell_length state c
    rw [length_cons]
    cases next : (readCell state c).2 with
    | none =>
      rw [next] at finished bound
      cases finished
      rw [ArgBuffer.length_write, same]
      simp only [elim_none] at bound
      omega
    | some following =>
      rw [next] at finished bound
      have later := induction _ _ _ finished
      rw [ArgBuffer.length_write, same] at later
      simp only [elim_some] at bound
      omega

/-! ## Quoting -/

inductive Quoting where
  | single
  | double
  deriving DecidableEq, Repr

def Quoting.mark : Quoting → Char
  | .single => singleQuote
  | .double => doubleQuote

def Quoting.escape : Quoting → Char → CStr
  | .single, c =>
    if c = singleQuote then
      [singleQuote, backslash, singleQuote, singleQuote]
    else [c]
  | .double, c => if c = backslash ∨ c = doubleQuote then [backslash, c] else [c]

def quote (argument : Quoting × CStr) : CStr :=
  argument.1.mark :: (argument.2.flatMap argument.1.escape ++ [argument.1.mark])

def quoteAll (arguments : List (Quoting × CStr)) : CStr := [' '].intercalate (arguments.map quote)

/-- The state between the quotes. -/
def Quoting.state : Quoting → SplitState
  | .single => .inSingle
  | .double => .inDouble

variable (quoting : Quoting)

attribute [local simp] Quoting.state

theorem splitLoop_escape (argv : List CStr) (word : CStr) (c : Char)
    (rest : CStr) :
    splitLoop quoting.state argv word (quoting.escape c ++ rest) =
      splitLoop quoting.state argv (word ++ [c]) rest := by
  have apart : singleQuote ≠ doubleQuote ∧ backslash ≠ singleQuote ∧ backslash ≠ doubleQuote ∧
      endsWord singleQuote = false ∧ endsWord backslash = false := by decide
  cases quoting with
  | single =>
    by_cases quote : c = singleQuote
    · simp [Quoting.escape, quote, apart]
    · simp [Quoting.escape, quote]
  | double =>
    by_cases escaped : c = backslash ∨ c = doubleQuote
    · rcases escaped with rfl | rfl <;>
        simp [Quoting.escape]
    · simp [Quoting.escape, not_or.mp escaped]

theorem splitLoop_escaped (argv : List CStr) (argument rest : CStr) : ∀ word : CStr,
      splitLoop quoting.state argv word (argument.flatMap quoting.escape ++ rest) =
        splitLoop quoting.state argv (word ++ argument) rest := by
  induction argument with
  | nil => simp
  | cons c argument induction =>
    intro word
    rw [flatMap_cons, append_assoc, splitLoop_escape, induction, append_assoc, singleton_append]

theorem splitLoop_quote (argument : Quoting × CStr) (argv : List CStr)
    (rest : CStr) :
    splitLoop .betweenword argv [] (quote argument ++ rest) =
      splitLoop .inword argv argument.2 rest := by
  obtain ⟨quoting, argument⟩ := argument
  have apart : doubleQuote ≠ singleQuote ∧ doubleQuote ≠ backslash ∧
      endsWord singleQuote = false ∧ endsWord doubleQuote = false := by decide
  have inside := splitLoop_escaped quoting argv argument (quoting.mark :: rest) []
  cases quoting with
  | single => simpa [quote, Quoting.mark, apart] using inside
  | double => simpa [quote, Quoting.mark, apart] using inside

variable (arguments : List (Quoting × CStr))

theorem splitLoop_quoteAll : ∀ argv : List CStr,
      splitLoop .betweenword argv [] (quoteAll arguments) = argv ++ arguments.map Prod.snd := by
  induction arguments with
  | nil => simp [quoteAll]
  | cons first more induction =>
    intro argv
    cases more with
    | nil =>
      have quoted := splitLoop_quote first argv []
      simpa [quoteAll] using quoted
    | cons second more =>
      have blank : endsWord ' ' = true := by decide
      have joined : quoteAll (first :: second :: more) =
          quote first ++ ' ' :: quoteAll (second :: more) := by
        simp [quoteAll]
      rw [joined, splitLoop_quote, splitLoop, if_pos blank, if_pos rfl,
        induction]
      · simp
      all_goals decide

theorem nul_notMem_quoteAll (free : ∀ argument ∈ arguments, nul ∉ argument.2) :
    nul ∉ quoteAll arguments := by
  have marks : nul ≠ singleQuote ∧ nul ≠ doubleQuote ∧ nul ≠ backslash ∧ nul ≠ ' ' := by decide
  have escaped (quoting : Quoting) (c : Char) (inside : nul ∈ quoting.escape c) : c = nul := by
    cases quoting <;> simp only [Quoting.escape] at inside <;>
      split at inside <;> simp_all
  have quoted (argument : Quoting × CStr) (text : nul ∉ argument.2) : nul ∉ quote argument := by
    have mark : nul ≠ argument.1.mark := by
      cases argument.1 with
      | single => exact marks.1
      | double => exact marks.2.1
    have letters (c : Char) (member : c ∈ argument.2) : nul ∉ argument.1.escape c :=
      fun inside => text (escaped _ c inside ▸ member)
    simpa [quote, mark] using letters
  induction arguments with
  | nil => exact not_mem_nil
  | cons first more induction =>
    have last := quoted first (free first (by simp))
    have others := induction (fun argument member => free argument (mem_cons_of_mem _ member))
    cases more with
    | nil => simpa [quoteAll] using last
    | cons second more => simpa [quoteAll, marks, last] using others

theorem splitMemory_fits :
    ∃ result, splitMemory text.cells = some result ∧ result.argv = splitArguments text.val ∧
      result.out.length ≤ text.val.length + 1 := by
  obtain ⟨result, finished, argv⟩ := map_eq_some_iff.mp (splitMemory_argv text)
  obtain ⟨last, split, pushed⟩ := bind_eq_some_iff.mp finished
  have bound := splitCells_length text.cells .betweenword _ last split
  rw [← push_out pushed] at bound
  exact ⟨result, finished, argv, by
    simpa [SplitState.due, Terminated.cells] using bound⟩

/-- Whatever the arguments are, quoted and joined by blanks they are split into
what they have been; and any string is split with accesses inside of it and of
the buffer only. -/
theorem splitArguments_undoes_quoting :
    (∀ arguments : List (Quoting × Terminated),
      ∃ result, splitMemory (quoteAll (arguments.map fun argument =>
          (argument.1, argument.2.val)) ++ [nul]) = some result ∧
        result.argv = arguments.map fun argument => argument.2.val) ∧
    ∀ text : Terminated, ∃ result, splitMemory text.cells = some result ∧
      result.out.length ≤ text.val.length + 1 := by
  constructor
  · intro arguments
    have free : nul ∉ quoteAll (arguments.map fun argument =>
        (argument.1, argument.2.val)) := by
      refine nul_notMem_quoteAll _ (fun argument member => ?_)
      obtain ⟨of, -, rfl⟩ := mem_map.mp member
      exact of.2.property
    obtain ⟨result, finished, argv, -⟩ := splitMemory_fits ⟨_, free⟩
    refine ⟨result, finished, ?_⟩
    rw [argv, splitArguments, splitLoop_quoteAll, nil_append, List.map_map]
    rfl
  · intro text
    obtain ⟨result, finished, -, fits⟩ := splitMemory_fits text
    exact ⟨result, finished, fits⟩

end Psmgmt.Slurm.MultiProg
