import Psmgmt.Slurm.MultiProg

/-!
# Arguments with symbols

What `replaceArgSymbols()` leaves alone is what stands between two single
quotes.  Splitting the arguments treats the number that replaces a symbol like
a letter.
-/

namespace Psmgmt.Slurm.MultiProg

open List

/-! ## Symbols outside of quotes -/

/-- A character of the arguments, or a symbol to replace. -/
inductive Piece where
  | char (c : Char)
  | rank
  | offset
  deriving DecidableEq

/-- The pieces of the arguments from inside or outside of quotes.  A single
quote that is not closed quotes nothing. -/
def pieces : (quoted : Bool) → CStr → List Piece
  | _, [] => []
  | true, c :: rest => .char c :: pieces (decide (c ≠ singleQuote)) rest
  | false, '%' :: 't' :: rest => .rank :: pieces false rest
  | false, '%' :: 'o' :: rest => .offset :: pieces false rest
  | false, c :: rest => .char c :: pieces (decide (c = singleQuote ∧ singleQuote ∈ rest)) rest

def Piece.text (rank offset : Nat) : Piece → CStr
  | .char c => [c]
  | .rank => decimal rank
  | .offset => decimal offset

def textOf (rank offset : Nat) (arguments : List Piece) : CStr :=
  arguments.flatMap (Piece.text rank offset)

attribute [local simp] Piece.text

section

variable (rank offset : Nat)

include rank offset

@[simp] theorem textOf_nil : textOf rank offset [] = [] := rfl

@[simp] theorem textOf_cons (piece : Piece) (rest : List Piece) :
    textOf rank offset (piece :: rest) = piece.text rank offset ++ textOf rank offset rest :=
  rfl

@[simp] theorem textOf_append (first second : List Piece) :
    textOf rank offset (first ++ second) = textOf rank offset first ++ textOf rank offset second :=
  flatMap_append

/-- A symbol, or else a character. -/
theorem pieces_false (c : Char) (rest : CStr) :
    (∃ letter after number, c = '%' ∧ letter ≠ singleQuote ∧
      rest = letter :: after ∧
      symbol rank offset c rest.head? = some number ∧
      textOf rank offset (pieces false (c :: rest)) =
        number ++ textOf rank offset (pieces false after)) ∨
    symbol rank offset c rest.head? = none ∧ pieces false (c :: rest) =
        .char c :: pieces (decide (c = singleQuote ∧ singleQuote ∈ rest)) rest := by
  by_cases percent : c = '%'
  · subst percent
    cases rest with
    | nil => exact .inr ⟨rfl, by simp [pieces]⟩
    | cons letter after =>
      by_cases rankLetter : letter = 't'
      · subst rankLetter
        exact .inl ⟨_, _, decimal rank, rfl, by decide, rfl, rfl, rfl⟩
      · by_cases offsetLetter : letter = 'o'
        · subst offsetLetter
          exact .inl ⟨_, _, decimal offset, rfl, by decide, rfl, rfl, rfl⟩
        · refine .inr ⟨by simp [symbol, rankLetter, offsetLetter], ?_⟩
          rw [pieces]
          · simp [rankLetter]
          · simp [offsetLetter]
  · refine .inr ⟨by simp [symbol, percent], ?_⟩
    rw [pieces]
    · simp [percent]
    · simp [percent]

theorem symbol_quote (next : Option Char) : symbol rank offset singleQuote next = none := by
  have apart : singleQuote ≠ '%' := by decide
  simp [symbol, apart]

/-- An open quote matters as long as a closing one follows. -/
theorem replaceLoop_pieces (args : CStr) (noBreak : '\n' ∉ args)
    (haveOpenQuote : Bool) :
    replaceLoop rank offset .text haveOpenQuote args =
        textOf rank offset (pieces (haveOpenQuote && decide (singleQuote ∈ args)) args) ∧
      replaceLoop rank offset .quoted haveOpenQuote args =
        textOf rank offset (pieces true args) := by
  induction length : args.length using Nat.strong_induction_on generalizing args haveOpenQuote with
  | _ size induction =>
  cases args with
  | nil => cases haveOpenQuote <;> exact ⟨rfl, rfl⟩
  | cons c rest =>
    have shorter : rest.length < size := by
      rw [← length]
      exact Nat.lt_succ_self _
    obtain ⟨noBreakHere, noBreakRest⟩ := ne_and_not_mem_of_not_mem_cons noBreak
    have behind := fun haveOpenQuote =>
      induction rest.length shorter rest noBreakRest haveOpenQuote rfl
    constructor
    · rw [replaceLoop, if_neg (Ne.symm noBreakHere)]
      by_cases quote : c = singleQuote
      · -- the quote is opened or closed
        subst quote
        rw [if_pos rfl]
        simp only [symbol_quote]
        rw [(behind (!haveOpenQuote)).1]
        cases haveOpenQuote with
        | true => simp [pieces]
        | false =>
          rcases pieces_false rank offset singleQuote rest with
            ⟨_, _, _, percent, _⟩ | ⟨_, equation⟩
          · exact absurd percent (by decide)
          · simp [equation]
      · rw [if_neg quote]
        have sameQuote : decide (singleQuote ∈ c :: rest) =
            decide (singleQuote ∈ rest) := by
          simp [Ne.symm quote]
        rw [sameQuote]
        rcases pieces_false rank offset c rest with
          ⟨letter, after, number, _, noQuote, rfl, found, equation⟩ | ⟨none, equation⟩
        · simp only [found]
          have sameLater : decide (singleQuote ∈ letter :: after) =
              decide (singleQuote ∈ after) := by
            simp [Ne.symm noQuote]
          rw [sameLater]
          by_cases quoted : haveOpenQuote = true ∧ singleQuote ∈ (letter :: after).tail
          · rw [if_pos quoted, (behind haveOpenQuote).2]
            rw [tail_cons] at quoted
            simp [quoted, pieces, quote]
          · have outside : (haveOpenQuote && decide (singleQuote ∈ after)) = false := by
              simpa using quoted
            have later := (induction after.length
              (by rw [length_cons] at shorter; omega) after
              (not_mem_of_not_mem_cons noBreakRest) haveOpenQuote rfl).1
            rw [if_neg quoted, replaceLoop, later, outside, equation]
        · simp only [none]
          rw [(behind haveOpenQuote).1]
          cases inside : (haveOpenQuote && decide (singleQuote ∈ rest)) with
          | true => simp [pieces, quote]
          | false => simp [equation, quote]
    · rw [replaceLoop]
      by_cases quote : c = singleQuote
      · rw [if_pos quote, (behind false).1]
        simp [pieces, quote]
      · rw [if_neg quote, (behind haveOpenQuote).2]
        simp [pieces, quote]

end

/-- The pieces of the arguments of a line. -/
def argPieces (args : Option CStr) : List Piece := pieces false (args.getD [])

theorem replaceArgSymbols_pieces {args : Option CStr}
    (noBreak : '\n' ∉ args.getD []) (rank offset : Nat) :
    replaceArgSymbols args rank offset = textOf rank offset (argPieces args) := by
  cases args with
  | none => rfl
  | some args => exact (replaceLoop_pieces rank offset args noBreak false).1

/-! ## Splitting -/

/-- The state behind a character of a word. -/
def SplitState.inside : SplitState → SplitState
  | .betweenword => .inword
  | .wordSlash => .inword
  | .doubleSlash => .inDouble
  | state => state

/-- The backslash that stays in front of a character. -/
def SplitState.kept : SplitState → CStr
  | .doubleSlash => [backslash]
  | _ => []

variable (state : SplitState)

@[simp] theorem SplitState.inside_inside : state.inside.inside = state.inside := by
  cases state <;> rfl

@[simp] theorem SplitState.kept_inside : state.inside.kept = [] := by
  cases state <;> rfl

variable {c : Char} {rest : List Piece} {first second : Nat}

theorem not_digit_of_special (digit : c.isDigit = true) :
    c ≠ singleQuote ∧ c ≠ doubleQuote ∧ c ≠ backslash ∧ endsWord c = false ∧ c ≠ '\n' := by
  refine ⟨?_, ?_, ?_, ?_, ?_⟩
  · rintro rfl
    exact absurd digit (by decide)
  · rintro rfl
    exact absurd digit (by decide)
  · rintro rfl
    exact absurd digit (by decide)
  · by_contra ends
    simp only [Bool.not_eq_false, endsWord, decide_eq_true_eq] at ends
    rcases ends with rfl | rfl | rfl | rfl | rfl <;>
      exact absurd digit (by decide)
  · rintro rfl
    exact absurd digit (by decide)

attribute [local simp] splitLoop

theorem splitLoop_digit (argv : List CStr) (word : CStr)
    (digit : c.isDigit = true) (rest : CStr) :
    splitLoop state argv word (c :: rest) =
      splitLoop state.inside argv (word ++ state.kept ++ [c]) rest := by
  obtain ⟨noSingle, noDouble, noBackslash, inWord, noBreak⟩ := not_digit_of_special digit
  cases state <;>
    simp [SplitState.inside, SplitState.kept, noSingle, noDouble, noBackslash, inWord, noBreak]

theorem splitLoop_digits (argv : List CStr) (word : CStr) {digits : CStr}
    (all : ∀ c ∈ digits, c.isDigit = true) (rest : CStr) (some : digits ≠ []) :
    splitLoop state argv word (digits ++ rest) =
      splitLoop state.inside argv (word ++ state.kept ++ digits) rest := by
  induction digits generalizing state word with
  | nil => exact absurd rfl some
  | cons c digits induction =>
    rw [cons_append, splitLoop_digit state argv word (all c (by simp))]
    cases digits with
    | nil => rfl
    | cons d digits =>
      rw [induction state.inside (word ++ state.kept ++ [c])
        (fun e member => all e (mem_cons_of_mem _ member)) (by simp)]
      simp

variable (value : Nat)

theorem decimal_digits : ∀ c ∈ decimal value, c.isDigit = true :=
  fun _ member => Nat.isDigit_of_mem_toDigits (by decide) (by decide) member

theorem decimal_ne_nil : decimal value ≠ [] := Nat.toDigits_ne_nil

theorem Piece.number {piece : Piece} (isSymbol : ∀ c, piece ≠ .char c)
    (rank offset : Nat) :
    ∃ value, piece.text rank offset = decimal value := by
  cases piece with
  | char c => exact absurd rfl (isSymbol c)
  | rank => exact ⟨rank, rfl⟩
  | offset => exact ⟨offset, rfl⟩

def Splits (state : SplitState) (argv : List (List Piece)) (word : List Piece)
    (arguments : List Piece) (words : List (List Piece)) : Prop :=
  ∀ rank offset, splitLoop state (argv.map (textOf rank offset)) (textOf rank offset word)
      (textOf rank offset arguments) = words.map (textOf rank offset)

/-- What a character does is the same for the pieces. -/
theorem Splits.char {state next : SplitState}
    {argv nextArgv : List (List Piece)} {word nextWord : List Piece}
    {words : List (List Piece)}
    (later : Splits next nextArgv nextWord rest words)
    (step : ∀ rank offset text,
      splitLoop state (argv.map (textOf rank offset)) (textOf rank offset word) (c :: text) =
      splitLoop next (nextArgv.map (textOf rank offset)) (textOf rank offset nextWord) text) :
    Splits state argv word (.char c :: rest) words := by
  intro rank offset
  rw [← later rank offset, ← step]
  rfl

/-- A character outside of quotes. -/
theorem splits_outside (argv : List (List Piece)) (word : List Piece) (c : Char)
    (outside : state = .betweenword ∨ state = .inword)
    (induction : ∀ (state : SplitState) (argv : List (List Piece))
      (word : List Piece), ∃ words, Splits state argv word rest words) :
    ∃ words, Splits state argv word (.char c :: rest) words := by
  have equation : ∀ argv word rest, splitLoop state argv word (c :: rest) =
      if endsWord c then
        splitLoop .betweenword (if state = .inword then argv ++ [word] else argv) [] rest
      else if c = singleQuote then splitLoop .inSingle argv word rest
      else if c = doubleQuote then splitLoop .inDouble argv word rest
      else if c = backslash then splitLoop .wordSlash argv word rest
      else splitLoop .inword argv (word ++ [c]) rest := by
    intro argv word rest
    rcases outside with rfl | rfl <;> rfl
  by_cases ends : endsWord c = true
  · obtain ⟨words, later⟩ := induction .betweenword
      (if state = .inword then argv ++ [word] else argv) []
    refine ⟨words, later.char (fun _ _ _ => ?_)⟩
    rw [equation, if_pos ends]
    split <;> simp
  · by_cases single : c = singleQuote
    · obtain ⟨words, later⟩ := induction .inSingle argv word
      refine ⟨words, later.char (fun _ _ _ => ?_)⟩
      rw [equation, if_neg ends, if_pos single]
    · by_cases double : c = doubleQuote
      · obtain ⟨words, later⟩ := induction .inDouble argv word
        refine ⟨words, later.char (fun _ _ _ => ?_)⟩
        rw [equation, if_neg ends, if_neg single, if_pos double]
      · by_cases slash : c = backslash
        · obtain ⟨words, later⟩ := induction .wordSlash argv word
          refine ⟨words, later.char (fun _ _ _ => ?_)⟩
          rw [equation, if_neg ends, if_neg single, if_neg double, if_pos slash]
        · obtain ⟨words, later⟩ := induction .inword argv (word ++ [.char c])
          refine ⟨words, later.char (fun _ _ _ => ?_)⟩
          rw [equation, if_neg ends, if_neg single, if_neg double, if_neg slash]
          simp

/-- A character is appended, or ends the word, or changes the state. -/
theorem splits_char (argv : List (List Piece)) (word : List Piece) (c : Char)
    (induction : ∀ (state : SplitState) (argv : List (List Piece))
      (word : List Piece), ∃ words, Splits state argv word rest words) :
    ∃ words, Splits state argv word (.char c :: rest) words := by
  cases state with
  | wordSlash =>
    obtain ⟨words, later⟩ := induction .inword argv (word ++ [.char c])
    exact ⟨words, later.char (fun _ _ _ => by simp)⟩
  | inSingle =>
    by_cases closing : c = singleQuote
    · obtain ⟨words, later⟩ := induction .inword argv word
      exact ⟨words, later.char (fun _ _ _ => by simp [closing])⟩
    · obtain ⟨words, later⟩ := induction .inSingle argv (word ++ [.char c])
      exact ⟨words, later.char (fun _ _ _ => by simp [closing])⟩
  | inDouble =>
    by_cases slash : c = backslash
    · obtain ⟨words, later⟩ := induction .doubleSlash argv word
      exact ⟨words, later.char (fun _ _ _ => by simp [slash])⟩
    · by_cases closing : c = doubleQuote
      · obtain ⟨words, later⟩ := induction .inword argv word
        have apart : doubleQuote ≠ backslash := by decide
        exact ⟨words, later.char (fun _ _ _ => by simp [closing, apart])⟩
      · obtain ⟨words, later⟩ :=
          induction .inDouble argv (word ++ [.char c])
        exact ⟨words, later.char (fun _ _ _ => by simp [slash, closing])⟩
  | doubleSlash =>
    by_cases both : c ≠ backslash ∧ c ≠ doubleQuote ∧ c ≠ '\n'
    · obtain ⟨words, later⟩ := induction .inDouble argv (word ++ [.char backslash] ++ [.char c])
      exact ⟨words, later.char (fun _ _ _ => by simp [both])⟩
    · obtain ⟨words, later⟩ := induction .inDouble argv (word ++ [.char c])
      refine ⟨words, later.char (fun _ _ _ => ?_)⟩
      rw [splitLoop, if_neg both]
      simp
  | betweenword => exact splits_outside .betweenword argv word c (.inl rfl) induction
  | inword => exact splits_outside .inword argv word c (.inr rfl) induction

variable (arguments : List Piece)

/-- The arguments are split in the same way whatever numbers they hold. -/
theorem splits_textOf (state : SplitState) (argv : List (List Piece))
    (word : List Piece) :
    ∃ words, Splits state argv word arguments words := by
  induction arguments generalizing state argv word with
  | nil =>
    cases state with
    | betweenword => exact ⟨argv, fun _ _ => rfl⟩
    | inword => exact ⟨argv ++ [word], fun _ _ => by simp⟩
    | wordSlash =>
      exact ⟨argv ++ [word ++ [.char backslash]],
        fun _ _ => by simp⟩
    | inSingle => exact ⟨argv ++ [word], fun _ _ => by simp⟩
    | inDouble => exact ⟨argv ++ [word], fun _ _ => by simp⟩
    | doubleSlash =>
      exact ⟨argv ++ [word ++ [.char backslash]],
        fun _ _ => by simp⟩
  | cons piece rest induction =>
    by_cases isSymbol : ∀ c, piece ≠ .char c
    · -- a number goes into the word
      obtain ⟨words, split⟩ := induction state.inside argv (word ++ state.kept.map .char ++ [piece])
      refine ⟨words, ?_⟩
      intro rank offset
      obtain ⟨value, text⟩ := piece.number isSymbol rank offset
      have kept : textOf rank offset (state.kept.map .char) = state.kept := by
        cases state <;> rfl
      rw [← split rank offset, textOf_cons, text,
        splitLoop_digits state _ _ (decimal_digits value) _ (decimal_ne_nil value),
        textOf_append, textOf_append, textOf_cons, text, textOf_nil,
        append_nil, kept]
    · obtain ⟨c, isChar⟩ := not_forall.mp isSymbol
      rw [not_not] at isChar
      subst isChar
      exact splits_char state argv word c induction

/-! ## Different numbers -/

theorem textOf_colon (rank offset : Nat) (word : List Piece) :
    textOf rank offset word = colon ↔ word = [.char ':'] := by
  constructor
  · intro text
    cases word with
    | nil => cases text
    | cons piece rest =>
      by_cases isSymbol : ∀ c, piece ≠ .char c
      · obtain ⟨value, number⟩ := piece.number isSymbol rank offset
        rw [textOf_cons, number] at text
        have digits := decimal_digits value
        cases equation : decimal value with
        | nil => exact absurd equation (decimal_ne_nil value)
        | cons c others =>
          rw [equation] at text digits
          have first := digits c (by simp)
          rw [cons_append, colon, List.cons.injEq] at text
          rw [text.1] at first
          exact absurd first (by decide)
      · obtain ⟨c, isChar⟩ := not_forall.mp isSymbol
        rw [not_not] at isChar
        subst isChar
        simp only [textOf_cons, Piece.text, singleton_append, colon, List.cons.injEq] at text
        obtain ⟨rfl, empty⟩ := text
        cases rest with
        | nil => rfl
        | cons other others =>
          rw [textOf_cons, append_eq_nil_iff] at empty
          cases other with
          | char d => cases empty.1
          | rank => exact absurd empty.1 (decimal_ne_nil rank)
          | offset => exact absurd empty.1 (decimal_ne_nil offset)
  · rintro rfl
    rfl

theorem colon_mem_splitArguments (rank first second : Nat) :
    colon ∈ splitArguments (textOf rank first arguments) ↔
      colon ∈ splitArguments (textOf rank second arguments) := by
  obtain ⟨words, splits⟩ := splits_textOf arguments .betweenword [] []
  have every : ∀ offset,
      colon ∈ splitArguments (textOf rank offset arguments) ↔ [.char ':'] ∈ words := by
    intro offset
    have split := splits rank offset
    simp only [map_nil, textOf_nil] at split
    rw [splitArguments, split, mem_map]
    constructor
    · rintro ⟨word, member, text⟩
      rwa [(textOf_colon rank offset word).mp text] at member
    · intro member
      exact ⟨_, member, rfl⟩
  rw [every, every]

def digitsOf (text : CStr) : CStr := text.filter Char.isDigit

@[simp] theorem digitsOf_nil : digitsOf [] = [] := rfl

@[simp] theorem digitsOf_append (first second : CStr) :
    digitsOf (first ++ second) = digitsOf first ++ digitsOf second :=
  filter_append ..

@[simp] theorem digitsOf_decimal : digitsOf (decimal value) = decimal value :=
  filter_eq_self.mpr (decimal_digits value)

theorem digitsOf_splitLoop (argv : List CStr) (word : CStr) (text : CStr)
    (fresh : state = .betweenword → word = []) :
    digitsOf (splitLoop state argv word text).flatten =
      digitsOf argv.flatten ++ digitsOf word ++ digitsOf text := by
  have slash : digitsOf [backslash] = [] := rfl
  induction text generalizing state argv word with
  | nil =>
    cases state with
    | betweenword => simp [fresh rfl, digitsOf]
    | inword => simp [digitsOf]
    | wordSlash => simp [slash]
    | inSingle => simp [digitsOf]
    | inDouble => simp [digitsOf]
    | doubleSlash => simp [slash]
  | cons c rest induction =>
    by_cases digit : c.isDigit = true
    · have kept : digitsOf state.kept = [] := by
        cases state <;> rfl
      have own : digitsOf [c] = [c] := by simp [digitsOf, digit]
      have whole : digitsOf (c :: rest) = c :: digitsOf rest := by
        simp [digitsOf, digit]
      rw [splitLoop_digit state argv word digit, induction]
      · simp [kept, own, whole]
      · intro between
        cases state <;> cases between
    · have none : digitsOf [c] = [] := by simp [digitsOf, digit]
      have whole : digitsOf (c :: rest) = digitsOf rest := by
        simp [digitsOf, digit]
      rw [whole]
      cases state with
      | wordSlash =>
        rw [splitLoop, induction _ _ _ (by simp)]
        simp [none]
      | inSingle =>
        rw [splitLoop]
        split
        · rw [induction _ _ _ (by simp)]
        · rw [induction _ _ _ (by simp)]
          simp [none]
      | inDouble =>
        rw [splitLoop]
        split
        · rw [induction _ _ _ (by simp)]
        · split
          · rw [induction _ _ _ (by simp)]
          · rw [induction _ _ _ (by simp)]
            simp [none]
      | doubleSlash =>
        rw [splitLoop]
        split
        · rw [induction _ _ _ (by simp), digitsOf_append, digitsOf_append,
            slash, none, append_nil, append_nil]
        · rw [induction _ _ _ (by simp)]
          simp [none]
      | betweenword =>
        have empty := fresh rfl
        subst empty
        simp only [splitLoop]
        split
        · rw [induction _ _ _ (by simp)]
          simp
        · split
          · rw [induction _ _ _ (by simp)]
          · split
            · rw [induction _ _ _ (by simp)]
            · split
              · rw [induction _ _ _ (by simp)]
              · rw [induction _ _ _ (by simp)]
                simp [none]
      | inword =>
        simp only [splitLoop]
        split
        · rw [induction _ _ _ (by simp)]
          simp
        · split
          · rw [induction _ _ _ (by simp)]
          · split
            · rw [induction _ _ _ (by simp)]
            · split
              · rw [induction _ _ _ (by simp)]
              · rw [induction _ _ _ (by simp)]
                simp [none]

theorem decimal_injective (same : decimal first = decimal second) :
    first = second := by
  have values := congrArg (fun digits => Nat.ofDigitChars 10 digits 0) same
  simpa [decimal, Nat.ofDigitChars_ten_toDigits] using values

theorem digitsOf_length (rank first second : Nat) :
    (digitsOf (textOf rank first arguments)).length +
        arguments.count .offset * (decimal second).length =
      (digitsOf (textOf rank second arguments)).length +
        arguments.count .offset * (decimal first).length := by
  induction arguments with
  | nil => simp
  | cons piece rest induction =>
    rw [textOf_cons, textOf_cons, digitsOf_append, digitsOf_append, length_append, length_append]
    cases piece with
    | char c =>
      rw [count_cons_of_ne (by simp)]
      simp only [Piece.text]
      omega
    | rank =>
      rw [count_cons_of_ne (by simp)]
      simp only [Piece.text]
      omega
    | offset =>
      rw [count_cons_self, Nat.add_mul, Nat.add_mul]
      simp only [Piece.text, digitsOf_decimal]
      omega

theorem offset_of_digitsOf {rank : Nat}
    (length : (decimal first).length = (decimal second).length)
    (same : digitsOf (textOf rank first arguments) =
      digitsOf (textOf rank second arguments)) (used : .offset ∈ arguments) :
    first = second := by
  induction arguments with
  | nil => cases used
  | cons piece rest induction =>
    rw [textOf_cons, textOf_cons, digitsOf_append, digitsOf_append] at same
    cases piece with
    | char c => exact induction (append_cancel_left same) (by simpa using used)
    | rank => exact induction (append_cancel_left same) (by simpa using used)
    | offset =>
      simp only [Piece.text, digitsOf_decimal] at same
      exact decimal_injective (append_inj_left same length)

theorem splitArguments_offset {arguments : List Piece} {rank : Nat}
    (same : splitArguments (textOf rank first arguments) =
      splitArguments (textOf rank second arguments))
    (used : .offset ∈ arguments) : first = second := by
  have digits : digitsOf (textOf rank first arguments) =
      digitsOf (textOf rank second arguments) := by
    have firstDigits := digitsOf_splitLoop .betweenword [] []
      (textOf rank first arguments) (fun _ => rfl)
    have secondDigits := digitsOf_splitLoop .betweenword [] []
      (textOf rank second arguments) (fun _ => rfl)
    unfold splitArguments at same
    rw [same, secondDigits] at firstDigits
    exact firstDigits.symm
  have lengths := digitsOf_length arguments rank first second
  rw [digits, Nat.add_left_cancel_iff] at lengths
  have some : 0 < arguments.count .offset := count_pos_iff.mpr used
  have length := Nat.eq_of_mul_eq_mul_left some lengths
  exact offset_of_digitsOf arguments length.symm digits used

end Psmgmt.Slurm.MultiProg
