import Psmgmt.Util.CompList

/-!
# Expanding compressed lists

Well-formed lists of names and groups, the names they stand for, and when
`traverseCompList()` visits exactly these.
-/

namespace Psmgmt.CompList

open Slurm.MultiProg List

/-! ## Compressed lists and their names -/

/-- The value of a decimal number. -/
def valueOf (digits : CStr) : Nat := Nat.ofDigitChars 10 digits 0

inductive Entry where
  | single (number : CStr)
  | range (first last : CStr)
  deriving DecidableEq, Repr

def Entry.text : Entry → CStr
  | single number => number
  | range first last => first ++ '-' :: last

def Entry.names (prefix_ : CStr) : Entry → List CStr
  | single number => [prefix_ ++ number]
  | range first last =>
    (List.range' (valueOf first) (valueOf last + 1 - valueOf first)).map
      (fun i => prefix_ ++ paddedName first.length i)

theorem all_chars {holds : Char → Prop} [DecidablePred holds] {text : CStr}
    (all : text.all (fun c => decide (holds c)) = true) :
    ∀ c ∈ text, holds c :=
  fun c member => of_decide_eq_true (all_eq_true.mp all c member)

def IsNumber (digits : CStr) : Prop := digits ≠ [] ∧ ∀ c ∈ digits, c.isDigit = true

def Entry.Valid : Entry → Prop
  | single number => IsNumber number
  | range first last => IsNumber first ∧ IsNumber last ∧ valueOf first ≤ valueOf last

/-- A text without brackets and delimiters. -/
def IsWord (text : CStr) : Prop := text ≠ [] ∧ ∀ c ∈ text, c ≠ '[' ∧ c ≠ ']' ∧ isDelimiter c = false

/-- What separates the elements of a list. -/
def IsSeparator (text : CStr) : Prop := text ≠ [] ∧ ∀ c ∈ text, isDelimiter c = true

/-- A plain name, or a group with further entries behind separators. -/
inductive Element where
  | name (text : CStr)
  | group (prefix_ : CStr) (first : Entry) (rest : List (CStr × Entry))

def Element.text : Element → CStr
  | name text => text
  | group prefix_ first rest =>
    prefix_ ++ '[' :: (first.text ++
      (rest.flatMap (fun (separator, entry) => separator ++ entry.text) ++ [']']))

def Element.names : Element → List CStr
  | name text => [text]
  | group prefix_ first rest =>
    first.names prefix_ ++ rest.flatMap (fun (_, entry) => entry.names prefix_)

def Element.Valid : Element → Prop
  | name text => IsWord text
  | group prefix_ first rest =>
    IsWord prefix_ ∧ first.Valid ∧ ∀ pair ∈ rest, IsSeparator pair.1 ∧ pair.2.Valid

/-- A compressed list: delimiters in front, and the elements, each with the
delimiters behind it. -/
structure Compressed where
  lead : CStr
  elements : List (Element × CStr)

namespace Compressed

def text (list : Compressed) : CStr :=
  list.lead ++ list.elements.flatMap (fun (element, behind) => element.text ++ behind)

/-- The reference expansion. -/
def names (list : Compressed) : List CStr :=
  list.elements.flatMap (fun (element, _) => element.names)

/-- Elements are separated; the last one may end the text. -/
def Separated : List (Element × CStr) → Prop
  | [] => True
  | [(_, behind)] => ∀ c ∈ behind, isDelimiter c = true
  | (_, behind) :: next :: rest => IsSeparator behind ∧ Separated (next :: rest)

structure Valid (list : Compressed) : Prop where
  lead : ∀ c ∈ list.lead, isDelimiter c = true
  elements : ∀ pair ∈ list.elements, pair.1.Valid
  separated : Separated list.elements

end Compressed

/-! ## Visiting -/

section Visits

variable {Info : Type} (visitor : CStr → Info → Bool × Info)

/-- Names are visited in order, up to the first one refused. -/
def visitAll : List CStr → Info → Bool × Info
  | [], info => (true, info)
  | name :: names, info =>
    match visitor name info with
    | (false, info) => (false, info)
    | (true, info) => visitAll names info

def andThen (visit : Visit Info) (next : Info → Visit Info) : Visit Info :=
  match visit with
  | none => none
  | some (false, info) => some (false, info)
  | some (true, info) => next info

theorem andThen_assoc (visit : Visit Info) (next later : Info → Visit Info) :
    andThen (andThen visit next) later = andThen visit (fun info => andThen (next info) later) := by
  rcases visit with _ | ⟨_ | _, info⟩ <;> rfl

theorem visitAll_append (names others : List CStr) (info : Info) :
    some (visitAll visitor (names ++ others) info) = andThen (some (visitAll visitor names info))
        (fun info => some (visitAll visitor others info)) := by
  induction names generalizing info with
  | nil => rfl
  | cons name names induction =>
    rw [cons_append, visitAll, visitAll]
    rcases visitor name info with ⟨_ | _, info⟩
    · rfl
    · exact induction info

/-- What `traverseCompList()` visits: a plain name, or an entry. -/
inductive Item where
  | name (text : CStr)
  | entry (prefix_ range : CStr)

def visitItem (fuel : Nat) : Item → Info → Visit Info
  | .name text, info => some (visitor text info)
  | .entry prefix_ range, info => visitItemRange visitor fuel prefix_ range info

def visitItems (fuel : Nat) : List Item → Info → Visit Info
  | [], info => some (true, info)
  | item :: items, info => andThen (visitItem visitor fuel item info) (visitItems fuel items)

theorem visitItems_append (fuel : Nat) (items others : List Item)
    (info : Info) :
    visitItems visitor fuel (items ++ others) info =
      andThen (visitItems visitor fuel items info) (visitItems visitor fuel others) := by
  induction items generalizing info with
  | nil => rfl
  | cons item items induction =>
    rw [cons_append, visitItems, visitItems, andThen_assoc]
    congr 1
    funext info
    exact induction info

end Visits

/-! ## Tokens -/

variable {c : Char} {max : Nat}

theorem tokenize_append (delimits : isDelimiter c = true) (text rest : CStr) :
    ∀ next, tokenize next (text ++ c :: rest) = tokenize next text ++ tokenize [] rest := by
  induction text with
  | nil =>
    intro next
    have ends : tokenize next (c :: rest) =
        if next = [] then tokenize [] rest else next :: tokenize [] rest := by
      rw [tokenize, if_pos delimits]
    rw [nil_append, ends, tokenize]
    split <;> rfl
  | cons d text induction =>
    intro next
    rw [cons_append, tokenize, tokenize]
    split
    · split
      · exact induction []
      · rw [induction, cons_append]
    · exact induction _

theorem tokenize_word {text : CStr}
    (plain : ∀ c ∈ text, isDelimiter c = false) :
    ∀ next, next ++ text ≠ [] → tokenize next text = [next ++ text] := by
  induction text with
  | nil =>
    intro next nonempty
    rw [append_nil] at nonempty ⊢
    rw [tokenize, if_neg nonempty]
  | cons c text induction =>
    intro next _
    rw [tokenize, plain c mem_cons_self, if_neg (by simp),
      induction (fun d member => plain d (mem_cons_of_mem _ member))
        (next ++ [c]) (by simp), append_assoc]
    rfl

theorem tokenize_delimiters {text : CStr}
    (delimits : ∀ c ∈ text, isDelimiter c = true) (rest : CStr) :
    tokenize [] (text ++ rest) = tokenize [] rest := by
  induction text with
  | nil => rfl
  | cons c text induction =>
    rw [cons_append, tokenize, delimits c mem_cons_self, if_pos rfl, if_pos rfl]
    exact induction (fun d member => delimits d (mem_cons_of_mem _ member))

theorem tokenize_separated {separator : CStr}
    (separates : IsSeparator separator) (text rest : CStr) :
    tokenize [] (text ++ (separator ++ rest)) = tokenize [] text ++ tokenize [] rest := by
  rcases separator with _ | ⟨c, separator⟩
  · exact absurd rfl separates.1
  · rw [cons_append, tokenize_append (separates.2 c mem_cons_self),
      tokenize_delimiters (fun d member => separates.2 d (mem_cons_of_mem _ member))]

/-! ## The tokens of an element -/

/-- The tokens of a group from the entry at the end of `next`. -/
def groupTokens : (next : CStr) → List (CStr × Entry) → List CStr
  | next, [] => [next ++ [']']]
  | next, (_, entry) :: rest => next :: groupTokens entry.text rest

def Element.tokens : Element → List CStr
  | name text => [text]
  | group prefix_ first rest => groupTokens (prefix_ ++ '[' :: first.text) rest

def Element.items : Element → List Item
  | name text => [.name text]
  | group prefix_ first rest =>
    .entry prefix_ first.text :: rest.map (fun (_, entry) => .entry prefix_ entry.text)

theorem isDigit_plain (digit : c.isDigit = true) :
    c ≠ '[' ∧ c ≠ ']' ∧ c ≠ '-' ∧ isDelimiter c = false := by
  refine ⟨?_, ?_, ?_, ?_⟩
  · rintro rfl
    exact absurd digit (by decide)
  · rintro rfl
    exact absurd digit (by decide)
  · rintro rfl
    exact absurd digit (by decide)
  · rw [isDelimiter, decide_eq_false_iff_not]
    rintro (rfl | rfl | rfl) <;> exact absurd digit (by decide)

theorem Entry.Valid.plain {entry : Entry} (valid : entry.Valid) :
    ∀ c ∈ entry.text, c ≠ '[' ∧ c ≠ ']' ∧ isDelimiter c = false := by
  have digits : ∀ {number : CStr}, IsNumber number → ∀ c ∈ number,
      c ≠ '[' ∧ c ≠ ']' ∧ isDelimiter c = false := by
    intro number isNumber c member
    have plain := isDigit_plain (isNumber.2 c member)
    exact ⟨plain.1, plain.2.1, plain.2.2.2⟩
  intro c member
  cases entry with
  | single number => exact digits valid c member
  | range first last =>
    rcases mem_append.mp member with low | high
    · exact digits valid.1 c low
    · rcases mem_cons.mp high with isDash | high
      · rw [isDash]
        decide
      · exact digits valid.2.1 c high

theorem Entry.Valid.nonempty {entry : Entry} (valid : entry.Valid) : entry.text ≠ [] := by
  cases entry with
  | single number => exact valid.1
  | range first last => simp [Entry.text]

theorem plain_append {first second : CStr} (left : ∀ c ∈ first, isDelimiter c = false)
    (right : ∀ c ∈ second, isDelimiter c = false) :
    ∀ c ∈ first ++ second, isDelimiter c = false := by
  intro c member
  rcases mem_append.mp member with inFirst | inSecond
  · exact left c inFirst
  · exact right c inSecond

theorem tokenize_group {next : CStr} {rest : List (CStr × Entry)}
    (nonempty : next ≠ []) (plain : ∀ c ∈ next, isDelimiter c = false)
    (valid : ∀ pair ∈ rest, IsSeparator pair.1 ∧ pair.2.Valid) :
    tokenize [] (next ++
        (rest.flatMap (fun (separator, entry) => separator ++ entry.text) ++
          [']'])) = groupTokens next rest := by
  induction rest generalizing next with
  | nil =>
    rw [flatMap_nil, nil_append, tokenize_word _ [] (by simp), nil_append, groupTokens]
    exact plain_append plain (all_chars (by decide))
  | cons pair rest induction =>
    obtain ⟨separates, validEntry⟩ := valid pair mem_cons_self
    rw [flatMap_cons, append_assoc, append_assoc,
      tokenize_separated separates, tokenize_word plain [] (by simpa),
      nil_append, groupTokens, induction validEntry.nonempty
        (fun c member => (validEntry.plain c member).2.2)
        (fun other member => valid other (mem_cons_of_mem _ member))]
    rfl

theorem Element.Valid.tokenize_eq {element : Element} (valid : element.Valid) :
    tokenize [] element.text = element.tokens := by
  cases element with
  | name text =>
    rw [Element.text, tokenize_word
      (fun c member => (valid.2 c member).2.2) [] (by simpa using valid.1)]
    rfl
  | group prefix_ first rest =>
    obtain ⟨word, validFirst, validRest⟩ := valid
    have split : (Element.group prefix_ first rest).text =
        (prefix_ ++ '[' :: first.text) ++
          (rest.flatMap (fun (separator, entry) => separator ++ entry.text) ++ [']']) := by
      simp [Element.text]
    rw [split, tokenize_group (by simp) _ validRest]
    · rfl
    · apply plain_append (fun c member => (word.2 c member).2.2)
      intro c member
      rcases mem_cons.mp member with isOpen | inFirst
      · rw [isOpen]
        decide
      · exact (validFirst.plain c inFirst).2.2

variable {list : Compressed} {prefix_ : CStr} {fuel : Nat}

theorem Compressed.Valid.tokenize_eq (valid : list.Valid) :
    tokenize [] list.text = list.elements.flatMap (fun (element, _) => element.tokens) := by
  obtain ⟨lead, elements⟩ := list
  rw [Compressed.text, tokenize_delimiters valid.lead]
  have each := valid.elements
  have separated := valid.separated
  dsimp only at each separated ⊢
  clear valid
  induction elements with
  | nil => rfl
  | cons pair elements induction =>
    obtain ⟨element, behind⟩ := pair
    have own := (each _ mem_cons_self).tokenize_eq
    have later : ∀ pair ∈ elements, pair.1.Valid :=
      fun pair member => each pair (mem_cons_of_mem _ member)
    rw [flatMap_cons, flatMap_cons, append_assoc]
    cases elements with
    | nil =>
      have ends : ∀ c ∈ behind, isDelimiter c = true := separated
      rw [flatMap_nil, flatMap_nil, append_nil, append_nil]
      by_cases none : behind = []
      · rw [none, append_nil, own]
      · have separates : IsSeparator behind := ⟨none, ends⟩
        have split := tokenize_separated separates element.text []
        rw [append_nil] at split
        rw [split, own]
        simp [tokenize]
    | cons next elements =>
      obtain ⟨separates, rest⟩ := separated
      rw [tokenize_separated separates, own, induction later rest]

/-! ## How the tokens are taken -/

theorem upTo_append {text : CStr} (without : c ∉ text) (rest : CStr) :
    upTo c (text ++ c :: rest) = text := by
  rw [upTo, takeWhile_append_of_pos]
  · simp
  · intro d member
    simp only [ne_eq, decide_eq_true_eq]
    rintro rfl
    exact without member

theorem behind_append {text : CStr} (without : c ∉ text) (rest : CStr) :
    behind c (text ++ c :: rest) = rest := by
  rw [behind, dropWhile_append_of_pos]
  · simp
  · intro d member
    simp only [ne_eq, decide_eq_true_eq]
    rintro rfl
    exact without member

theorem upTo_self {text : CStr} (without : c ∉ text) : upTo c text = text := by
  rw [upTo, takeWhile_eq_self_iff]
  intro d member
  simp only [ne_eq, decide_eq_true_eq]
  rintro rfl
  exact without member

section Take

variable {prefix_ range text : CStr}

theorem takeToken_name (noOpen : '[' ∉ text) (noClose : ']' ∉ text) :
    takeToken none text = .name := by
  simp [takeToken, noOpen, noClose]

theorem takeToken_open (noOpen : '[' ∉ prefix_) (noClose : ']' ∉ prefix_)
    (noClose' : ']' ∉ range) :
    takeToken none (prefix_ ++ '[' :: range) = .range prefix_ range (some prefix_) := by
  simp [takeToken, noClose, noClose', upTo_append noOpen, behind_append noOpen]

theorem takeToken_whole (noOpen : '[' ∉ prefix_) (noClose : ']' ∉ prefix_)
    (noClose' : ']' ∉ range) :
    takeToken none (prefix_ ++ '[' :: (range ++ [']'])) = .range prefix_ range none := by
  simp [takeToken, noClose, upTo_append noOpen, behind_append noOpen,
    upTo_append noClose', upTo_self noClose]

theorem takeToken_inside (noOpen : '[' ∉ range) (noClose : ']' ∉ range) :
    takeToken (some prefix_) range = .range prefix_ range (some prefix_) := by
  simp [takeToken, noOpen, noClose]

theorem takeToken_close (noOpen : '[' ∉ range) (noClose : ']' ∉ range) :
    takeToken (some prefix_) (range ++ [']']) = .range prefix_ range none := by
  simp [takeToken, noOpen, upTo_append noClose]

end Take

section Tokens

variable {Info : Type} (visitor : CStr → Info → Bool × Info) (fuel : Nat)

theorem visitTokens_range {next range : CStr} {open_ after : Option CStr}
    (taken : takeToken open_ next = .range prefix_ range after) (tokens : List CStr) (info : Info) :
    visitTokens visitor fuel (next :: tokens) open_ info =
      andThen (visitItemRange visitor fuel prefix_ range info)
        (visitTokens visitor fuel tokens after) := by
  rw [visitTokens, taken]
  rfl

theorem visitTokens_group {prefix_ : CStr} (word : IsWord prefix_) (more : List CStr) {next : CStr}
    {open_ : Option CStr} {entry : Entry} {rest : List (CStr × Entry)}
    (opens : takeToken open_ next = .range prefix_ entry.text (some prefix_))
    (closes : takeToken open_ (next ++ [']']) = .range prefix_ entry.text none) (valid : ∀ pair ∈
    rest, IsSeparator pair.1 ∧ pair.2.Valid) (info : Info) :
    visitTokens visitor fuel (groupTokens next rest ++ more) open_ info =
      andThen (visitItems visitor fuel (.entry prefix_ entry.text ::
          rest.map (fun (_, entry) => .entry prefix_ entry.text)) info)
        (visitTokens visitor fuel more none) := by
  induction rest generalizing next open_ entry info with
  | nil =>
    rw [groupTokens, cons_append, nil_append,
      visitTokens_range visitor fuel closes, map_nil, visitItems,
      andThen_assoc]
    rfl
  | cons pair rest induction =>
    obtain ⟨-, validEntry⟩ := valid pair mem_cons_self
    have noOpen : '[' ∉ pair.2.text :=
      fun member => (validEntry.plain _ member).1 rfl
    have noClose : ']' ∉ pair.2.text :=
      fun member => (validEntry.plain _ member).2.1 rfl
    rw [groupTokens, cons_append, visitTokens_range visitor fuel opens, visitItems, andThen_assoc]
    congr 1
    funext info
    exact induction (takeToken_inside noOpen noClose) (takeToken_close noOpen noClose)
      (fun other member => valid other (mem_cons_of_mem _ member)) info

theorem visitTokens_element {element : Element} (valid : element.Valid)
    (more : List CStr) (info : Info) :
    visitTokens visitor fuel (element.tokens ++ more) none info =
      andThen (visitItems visitor fuel element.items info)
        (visitTokens visitor fuel more none) := by
  cases element with
  | name text =>
    have taken : takeToken none text = .name :=
      takeToken_name (fun member => (valid.2 _ member).1 rfl)
        (fun member => (valid.2 _ member).2.1 rfl)
    rw [Element.tokens, Element.items, cons_append, nil_append, visitTokens, taken]
    dsimp only
    rw [visitItems, visitItem, andThen_assoc]
    rcases visitor text info with ⟨_ | _, after⟩ <;> rfl
  | group prefix_ first rest =>
    obtain ⟨word, validFirst, validRest⟩ := valid
    have noOpen : '[' ∉ prefix_ := fun member => (word.2 _ member).1 rfl
    have noClose : ']' ∉ prefix_ := fun member => (word.2 _ member).2.1 rfl
    have noClose' : ']' ∉ first.text :=
      fun member => (validFirst.plain _ member).2.1 rfl
    apply visitTokens_group visitor fuel word more
      (takeToken_open noOpen noClose noClose') _ validRest
    rw [append_assoc, cons_append]
    exact takeToken_whole noOpen noClose noClose'

def Compressed.items (list : Compressed) : List Item :=
  list.elements.flatMap (fun (element, _) => element.items)

theorem traverseCompList_items (valid : list.Valid) (info : Info) :
    traverseCompList visitor fuel list.text info = visitItems visitor fuel list.items info := by
  rw [traverseCompList, valid.tokenize_eq, Compressed.items]
  have each := valid.elements
  clear valid
  generalize list.elements = elements at each
  induction elements generalizing info with
  | nil => rfl
  | cons pair elements induction =>
    rw [flatMap_cons, flatMap_cons,
      visitTokens_element visitor fuel (each pair mem_cons_self),
      visitItems_append]
    congr 1
    funext info
    exact induction info (fun other member => each other (mem_cons_of_mem _ member))

end Tokens

/-! ## Reading the numbers -/

/-- What `sscanf()` makes of a decimal number. -/
def numberOf (digits : CStr) : Nat :=
  if 2 ^ 64 ≤ valueOf digits then 2 ^ 32 - 1 else valueOf digits % 2 ^ 32

theorem numberOf_small {digits : CStr} (small : valueOf digits < 2 ^ 32) :
    numberOf digits = valueOf digits := by
  rw [numberOf, if_neg (by omega), Nat.mod_eq_of_lt small]

theorem numberOf_lt (digits : CStr) : numberOf digits < 2 ^ 32 := by
  unfold numberOf
  split
  · decide
  · exact Nat.mod_lt _ (by decide)

theorem numberOf_le (digits : CStr) : numberOf digits ≤ valueOf digits := by
  unfold numberOf
  split
  · omega
  · exact Nat.mod_le _ _

theorem numberOf_mod {digits : CStr} (small : numberOf digits < 2 ^ 32 - 1) :
    numberOf digits = valueOf digits % 2 ^ 32 ∧ valueOf digits < 2 ^ 64 := by
  unfold numberOf at small ⊢
  split at small
  · omega
  · rename_i bound
    rw [if_neg bound]
    exact ⟨rfl, Nat.not_le.mp bound⟩

theorem isDigit_notSpace (digit : c.isDigit = true) : isSpace c = false := by
  rw [isSpace, decide_eq_false_iff_not]
  rintro (rfl | rfl | rfl | rfl | rfl | rfl) <;>
    exact absurd digit (by decide)

theorem scanUnsigned_number {digits rest : CStr} (isNumber : IsNumber digits)
    (ends : ∀ c ∈ rest.head?, c.isDigit = false) :
    scanUnsigned (digits ++ rest) = some (numberOf digits, rest) := by
  obtain ⟨nonempty, all⟩ := isNumber
  have noSpace : (digits ++ rest).dropWhile isSpace = digits ++ rest := by
    rcases digits with _ | ⟨c, digits⟩
    · exact absurd rfl nonempty
    · rw [cons_append, dropWhile_cons_of_neg]
      rw [isDigit_notSpace (all c mem_cons_self)]
      simp
  have noSign : scanSign (digits ++ rest) = (false, digits ++ rest) := by
    rcases digits with _ | ⟨c, digits⟩
    · exact absurd rfl nonempty
    · have plain := isDigit_plain (all c mem_cons_self)
      have notPlus : c ≠ '+' := by
        rintro rfl
        exact absurd (all _ mem_cons_self) (by decide)
      rw [cons_append, scanSign, if_neg plain.2.2.1, if_neg notPlus]
  have stops : rest.takeWhile Char.isDigit = [] ∧ rest.dropWhile Char.isDigit = rest := by
    rcases rest with _ | ⟨c, rest⟩
    · exact ⟨rfl, rfl⟩
    · have notDigit : c.isDigit = false := ends c rfl
      simp [notDigit]
  have taken : (digits ++ rest).takeWhile Char.isDigit = digits := by
    rw [takeWhile_append_of_pos all, stops.1, append_nil]
  have left : (digits ++ rest).dropWhile Char.isDigit = rest := by
    rw [dropWhile_append_of_pos all, stops.2]
  rw [scanUnsigned, noSpace, noSign]
  dsimp only
  rw [taken, left, if_neg nonempty]
  simp only [Bool.false_eq_true, if_false, Option.some.injEq, Prod.mk.injEq, and_true]
  rw [numberOf, valueOf]
  split
  · rfl
  · rfl

theorem scanRange_range {first last : CStr} (isFirst : IsNumber first)
    (isLast : IsNumber last) :
    scanRange (first ++ '-' :: last) = some (numberOf first, first.length, numberOf last) := by
  have low := @scanUnsigned_number _ ('-' :: last) isFirst (by
    intro c member
    rw [← Option.mem_some.mp member]
    decide)
  have high := @scanUnsigned_number _ [] isLast (by simp)
  rw [append_nil] at high
  rw [scanRange, low]
  simp [high]

/-! ## Visiting the numbers of a range -/

section Numbers

variable {Info : Type} (visitor : CStr → Info → Bool × Info)

def loopNames (prefix_ : CStr) (pad min max : Nat) : List CStr :=
  (List.range' min (max + 1 - min)).map (fun i => tmpName (prefix_ ++ paddedName pad i))

theorem loopNames_cons {pad min : Nat} (inside : min ≤ max) : loopNames prefix_ pad min max =
      tmpName (prefix_ ++ paddedName pad min) :: loopNames prefix_ pad (min + 1) max := by
  have count : max + 1 - min = (max + 1 - (min + 1)) + 1 := by omega
  rw [loopNames, count, range'_succ, map_cons, loopNames]

theorem loopNames_nil {pad min : Nat} (outside : max < min) :
    loopNames prefix_ pad min max = [] := by
  rw [loopNames, show max + 1 - min = 0 by omega]
  rfl

theorem visitNumbers_ends (prefix_ : CStr) (pad : Nat)
    (small : max < 2 ^ 32 - 1) (fuel : Nat) :
    ∀ {i : Nat}, max + 1 - i < fuel → ∀ info : Info,
      visitNumbers visitor prefix_ pad max fuel i info =
        some (visitAll visitor (loopNames prefix_ pad i max) info) := by
  induction fuel with
  | zero =>
    intro i enough
    exact absurd enough (Nat.not_lt_zero _)
  | succ fuel induction =>
    intro i enough info
    rw [visitNumbers]
    split
    · rename_i inside
      rw [loopNames_cons inside, visitAll]
      have next : (i + 1) % 2 ^ 32 = i + 1 := Nat.mod_eq_of_lt (by omega)
      rcases visitor (tmpName (prefix_ ++ paddedName pad i)) info with ⟨_ | _, after⟩
      · rfl
      · dsimp only
        rw [next]
        exact induction (by omega) after
    · rename_i outside
      rw [loopNames_nil (by omega)]
      rfl

theorem visitNumbers_some (prefix_ : CStr) (pad : Nat)
    (small : max < 2 ^ 32 - 1) (fuel : Nat) :
    ∀ {i : Nat} {info : Info} {result : Bool × Info},
      visitNumbers visitor prefix_ pad max fuel i info = some result →
        result = visitAll visitor (loopNames prefix_ pad i max) info := by
  induction fuel with
  | zero => exact fun stopped => nomatch stopped
  | succ fuel induction =>
    intro i info result went
    rw [visitNumbers] at went
    split at went
    · rename_i inside
      rw [loopNames_cons inside, visitAll]
      have next : (i + 1) % 2 ^ 32 = i + 1 := Nat.mod_eq_of_lt (by omega)
      rcases answer : visitor (tmpName (prefix_ ++ paddedName pad i)) info with ⟨_ | _, after⟩
      · rw [answer] at went
        exact (Option.some.inj went).symm
      · rw [answer] at went
        dsimp only at went ⊢
        rw [next] at went
        exact induction went
    · rename_i outside
      rw [loopNames_nil (by omega)]
      exact (Option.some.inj went).symm

/-- A visitor that notes the names and never returns false. -/
def recorder (name : CStr) (names : List CStr) : Bool × List CStr := (true, names ++ [name])

theorem visitAll_recorder (names visited : List CStr) :
    visitAll recorder names visited = (true, visited ++ names) := by
  induction names generalizing visited with
  | nil => rw [visitAll, append_nil]
  | cons name names induction =>
    rw [visitAll, recorder]
    dsimp only
    rw [induction, append_assoc]
    rfl

/-- The loop up to the largest number does not end. -/
theorem visitNumbers_endless (prefix_ : CStr) (pad fuel : Nat) :
    ∀ {i : Nat}, i < 2 ^ 32 → ∀ visited : List CStr,
      visitNumbers recorder prefix_ pad (2 ^ 32 - 1) fuel i visited =
        none := by
  induction fuel with
  | zero => exact fun _ _ => rfl
  | succ fuel induction =>
    intro i bound visited
    rw [visitNumbers, if_pos (by omega), recorder]
    exact induction (Nat.mod_lt _ (by decide)) _

end Numbers

/-! ## Entries -/

def Entry.visited (prefix_ : CStr) : Entry → List CStr
  | single number => [tmpName (prefix_ ++ number)]
  | range first last => loopNames prefix_ first.length (numberOf first) (numberOf last)

/-- The loop over the entry ends. -/
def Entry.Ends : Entry → Prop
  | single _ => True
  | range first last => numberOf first ≤ numberOf last ∧ numberOf last < 2 ^ 32 - 1

/-- The numbers fit the loop and the names fit the buffer. -/
def Entry.Fits (prefix_ : CStr) : Entry → Prop
  | single number => prefix_.length + number.length ≤ 1023
  | range first last =>
    valueOf last < 2 ^ 32 - 1 ∧ ∀ i, valueOf first ≤ i → i ≤ valueOf last →
        (prefix_ ++ paddedName first.length i).length ≤ 1023

section Entries

variable {prefix_ : CStr} {entry : Entry}

theorem noDash {number : CStr} (isNumber : IsNumber number) : '-' ∉ number :=
  fun member => (isDigit_plain (isNumber.2 _ member)).2.2.1 rfl

theorem visitItemRange_ends {Info : Type} (visitor : CStr → Info → Bool × Info)
    (valid : entry.Valid) (ends : entry.Ends) (enough : 2 ^ 32 < fuel) (info : Info) :
    visitItemRange visitor fuel prefix_ entry.text info =
      some (visitAll visitor (entry.visited prefix_) info) := by
  cases entry with
  | single number =>
    rw [Entry.text, visitItemRange, if_pos (noDash valid), Entry.visited, visitAll]
    rcases visitor (tmpName (prefix_ ++ number)) info with ⟨_ | _, after⟩
    · rfl
    · rfl
  | range first last =>
    have isRange : ¬ '-' ∉ first ++ '-' :: last := by simp
    rw [Entry.text, visitItemRange, if_neg isRange, scanRange_range valid.1 valid.2.1]
    dsimp only
    rw [if_neg (Nat.not_lt.mpr ends.1),
      visitNumbers_ends visitor prefix_ _ ends.2 fuel (by have bound := ends.2; omega)]
    rfl

theorem visitItemRange_recorder (valid : entry.Valid) {visited after : List CStr}
    (went : visitItemRange recorder fuel prefix_ entry.text visited = some (true, after)) :
    entry.Ends ∧ after = visited ++ entry.visited prefix_ := by
  cases entry with
  | single number =>
    rw [Entry.text, visitItemRange, if_pos (noDash valid)] at went
    refine ⟨trivial, ?_⟩
    have noted := Prod.mk.inj (Option.some.inj went)
    exact noted.2.symm
  | range first last =>
    have isRange : ¬ '-' ∉ first ++ '-' :: last := by simp
    rw [Entry.text, visitItemRange, if_neg isRange, scanRange_range valid.1 valid.2.1] at went
    dsimp only at went
    split at went
    · simp at went
    · rename_i ordered
      have bound := numberOf_lt last
      by_cases largest : numberOf last = 2 ^ 32 - 1
      · rw [largest, visitNumbers_endless _ _ _ (numberOf_lt first)] at went
        cases went
      · have small : numberOf last < 2 ^ 32 - 1 := by omega
        refine ⟨⟨Nat.not_lt.mp ordered, small⟩, ?_⟩
        have result := visitNumbers_some recorder _ _ small fuel went
        rw [visitAll_recorder] at result
        exact (Prod.mk.inj result).2

theorem tmpName_eq {name : CStr} : tmpName name = name ↔ name.length ≤ 1023 := by
  constructor
  · intro same
    have lengths := congrArg List.length same
    rw [tmpName, length_take] at lengths
    omega
  · exact take_of_length_le

theorem length_paddedName_mono (pad : Nat) {i j : Nat} (below : i ≤ j) :
    (paddedName pad i).length ≤ (paddedName pad j).length := by
  have digits : (decimal i).length ≤ (decimal j).length := by
    have bound := (Nat.length_toDigits_le_iff (n := j) (by decide : 1 < 10)
      Nat.length_toDigits_pos).mp (le_refl _)
    exact (Nat.length_toDigits_le_iff (by decide)
      Nat.length_toDigits_pos).mpr (lt_of_le_of_lt below bound)
  rw [paddedName, paddedName, length_append, length_append, length_replicate, length_replicate]
  omega

theorem valueOf_paddedName (pad i : Nat) : valueOf (paddedName pad i) = i := by
  rw [valueOf, paddedName, Nat.ofDigitChars_append,
    Nat.ofDigitChars_replicate_zero, Nat.mul_zero, decimal,
    Nat.ofDigitChars_ten_toDigits]

theorem length_visited_le (valid : entry.Valid) (ends : entry.Ends) :
    (entry.visited prefix_).length ≤ (entry.names prefix_).length := by
  cases entry with
  | single number => exact le_refl 1
  | range first last =>
    rw [Entry.visited, loopNames, Entry.names, length_map, length_map, length_range', length_range']
    have ordered := valid.2.2
    obtain ⟨high, bound⟩ := numberOf_mod ends.2
    have low : numberOf first = valueOf first % 2 ^ 32 := by
      rw [numberOf, if_neg (by omega)]
    rw [high, low]
    have lower := ends.1
    rw [high, low] at lower
    omega

theorem visited_eq_iff (valid : entry.Valid) :
    (entry.Ends ∧ entry.visited prefix_ = entry.names prefix_) ↔ entry.Fits prefix_ := by
  cases entry with
  | single number =>
    simp only [Entry.Ends, Entry.visited, Entry.names, Entry.Fits, true_and,
      List.cons.injEq, and_true, tmpName_eq, length_append]
  | range first last =>
    have ordered := valid.2.2
    constructor
    · rintro ⟨ends, same⟩
      rw [Entry.visited, loopNames, Entry.names] at same
      have counts := congrArg List.length same
      rw [length_map, length_map, length_range', length_range'] at counts
      have each : ∀ k, k < valueOf last + 1 - valueOf first →
          tmpName (prefix_ ++ paddedName first.length (numberOf first + k)) =
          prefix_ ++ paddedName first.length (valueOf first + k) := by
        intro k inside
        have at_ := congrArg (fun names => names[k]?) same
        simp only [getElem?_map] at at_
        rw [getElem?_range' (by omega), getElem?_range' (by omega)] at at_
        simpa using at_
      have short : ∀ k, k < valueOf last + 1 - valueOf first →
          (prefix_ ++ paddedName first.length (valueOf first + k)).length ≤
            1023 := by
        intro k inside
        rw [← each k inside, tmpName, length_take]
        exact Nat.min_le_left _ _
      have start := each 0 (by omega)
      have startShort := short 0 (by omega)
      rw [Nat.add_zero, Nat.add_zero] at start
      rw [Nat.add_zero] at startShort
      have below := numberOf_le first
      have longer := length_paddedName_mono first.length below
      rw [length_append] at startShort
      rw [tmpName_eq.mpr (by rw [length_append]; omega)] at start
      have low : numberOf first = valueOf first := by
        have values := congrArg valueOf (append_cancel_left start)
        rwa [valueOf_paddedName, valueOf_paddedName] at values
      have small := ends.2
      have order := ends.1
      refine ⟨by omega, ?_⟩
      intro i lower upper
      have fits := short (i - valueOf first) (by omega)
      rwa [Nat.add_sub_cancel' lower] at fits
    · rintro ⟨small, fit⟩
      have high : numberOf last = valueOf last := numberOf_small (by omega)
      have low : numberOf first = valueOf first := numberOf_small (by omega)
      refine ⟨⟨by omega, by omega⟩, ?_⟩
      rw [Entry.visited, loopNames, Entry.names, high, low]
      apply map_congr_left
      intro i member
      obtain ⟨lower, upper⟩ := mem_range'_1.mp member
      exact tmpName_eq.mpr (fit i lower (by omega))

end Entries

/-! ## Whole lists -/

inductive Part where
  | name (text : CStr)
  | entry (prefix_ : CStr) (entry : Entry)

namespace Part

def item : Part → Item
  | name text => .name text
  | entry prefix_ content => .entry prefix_ content.text

def names : Part → List CStr
  | name text => [text]
  | entry prefix_ content => content.names prefix_

def visited : Part → List CStr
  | name text => [text]
  | entry prefix_ content => content.visited prefix_

def Valid : Part → Prop
  | name _ => True
  | entry _ content => content.Valid

def Ends : Part → Prop
  | name _ => True
  | entry _ content => content.Ends

def Fits : Part → Prop
  | name _ => True
  | entry prefix_ content => content.Fits prefix_

end Part

def Element.parts : Element → List Part
  | name text => [.name text]
  | group prefix_ first rest =>
    .entry prefix_ first :: rest.map (fun (_, entry) => .entry prefix_ entry)

/-- The names and the entries of a list. -/
def Compressed.parts (list : Compressed) : List Part :=
  list.elements.flatMap (fun (element, _) => element.parts)

variable (element : Element)

section Parts

theorem Element.items_parts : element.items = element.parts.map Part.item := by
  cases element with
  | name text => rfl
  | group prefix_ first rest => simp [Element.items, Element.parts, Part.item]

theorem Element.names_parts : element.names = element.parts.flatMap Part.names := by
  cases element with
  | name text => rfl
  | group prefix_ first rest =>
    rw [Element.names, Element.parts, flatMap_cons, flatMap_map]
    rfl

theorem Compressed.items_parts (list : Compressed) : list.items = list.parts.map Part.item := by
  rw [Compressed.items, Compressed.parts, map_flatMap]
  simp only [Element.items_parts]

theorem Compressed.names_parts (list : Compressed) :
    list.names = list.parts.flatMap Part.names := by
  rw [Compressed.names, Compressed.parts, flatMap_assoc]
  simp only [Element.names_parts]

theorem Compressed.Valid.parts (valid : list.Valid) : ∀ part ∈ list.parts, part.Valid := by
  intro part member
  obtain ⟨⟨element, behind⟩, inList, inElement⟩ := mem_flatMap.mp member
  have validElement := valid.elements _ inList
  cases element with
  | name text =>
    rw [mem_singleton.mp inElement]
    trivial
  | group prefix_ first rest =>
    rcases mem_cons.mp inElement with isFirst | later
    · rw [isFirst]
      exact validElement.2.1
    · obtain ⟨pair, inRest, rfl⟩ := mem_map.mp later
      exact (validElement.2.2 pair inRest).2

variable {parts : List Part}

theorem visitItems_ends {Info : Type} (visitor : CStr → Info → Bool × Info)
    (valid : ∀ part ∈ parts, part.Valid) (ends : ∀ part ∈ parts, part.Ends)
    (enough : 2 ^ 32 < fuel) (info : Info) :
    visitItems visitor fuel (parts.map Part.item) info =
      some (visitAll visitor (parts.flatMap Part.visited) info) := by
  induction parts generalizing info with
  | nil => rfl
  | cons part parts induction =>
    have first : visitItem visitor fuel part.item info =
        some (visitAll visitor part.visited info) := by
      cases part with
      | name text =>
        rw [Part.item, visitItem, Part.visited, visitAll]
        rcases visitor text info with ⟨_ | _, after⟩ <;> rfl
      | entry prefix_ entry =>
        exact visitItemRange_ends visitor (valid _ mem_cons_self) (ends _ mem_cons_self) enough info
    rw [map_cons, visitItems, flatMap_cons, visitAll_append, first]
    congr 1
    funext info
    exact induction (fun other member => valid other (mem_cons_of_mem _ member))
      (fun other member => ends other (mem_cons_of_mem _ member)) info

theorem visitItems_recorder (valid : ∀ part ∈ parts, part.Valid) {visited after : List CStr}
    (went : visitItems recorder fuel (parts.map Part.item) visited = some (true, after)) :
    (∀ part ∈ parts, part.Ends) ∧ after = visited ++ parts.flatMap Part.visited := by
  induction parts generalizing visited with
  | nil =>
    refine ⟨fun _ member => (nomatch member), ?_⟩
    rw [flatMap_nil, append_nil]
    exact (Prod.mk.inj (Option.some.inj went)).2.symm
  | cons part parts induction =>
    rw [map_cons, visitItems] at went
    have first : ∀ {between}, visitItem recorder fuel part.item visited =
        some (true, between) → part.Ends ∧ between = visited ++ part.visited := by
      intro between firstWent
      cases part with
      | name text => exact ⟨trivial, (Prod.mk.inj (Option.some.inj firstWent)).2.symm⟩
      | entry prefix_ entry => exact visitItemRange_recorder (valid _ mem_cons_self) firstWent
    rcases answer : visitItem recorder fuel part.item visited with _ | ⟨_ | _, between⟩
    · rw [answer] at went
      cases went
    · rw [answer] at went
      cases went
    · rw [answer] at went
      obtain ⟨ends, rfl⟩ := first answer
      obtain ⟨rest, rfl⟩ := induction (fun other member => valid other (mem_cons_of_mem _ member))
        went
      refine ⟨?_, by rw [flatMap_cons, append_assoc]⟩
      intro other member
      rcases mem_cons.mp member with isFirst | later
      · rw [isFirst]
        exact ends
      · exact rest other later

section

variable {α β : Type} {items : List α} {short long : α → List β}
  (shorter : ∀ item ∈ items, (short item).length ≤ (long item).length)

include shorter

theorem length_flatMap_le : (items.flatMap short).length ≤ (items.flatMap long).length := by
  induction items with
  | nil => exact le_refl 0
  | cons item items induction =>
    have first := shorter item mem_cons_self
    have rest := induction (fun other member => shorter other (mem_cons_of_mem _ member))
    rw [flatMap_cons, flatMap_cons, length_append, length_append]
    omega

/-- Lists that are no longer than others, but as long together, are the
others. -/
theorem flatMap_eq (same : items.flatMap short = items.flatMap long) :
    ∀ item ∈ items, short item = long item := by
  induction items with
  | nil => exact fun _ member => nomatch member
  | cons item items induction =>
    have first := shorter item mem_cons_self
    have rest : ∀ other ∈ items, (short other).length ≤ (long other).length :=
      fun other member => shorter other (mem_cons_of_mem _ member)
    have restShorter := length_flatMap_le rest
    rw [flatMap_cons, flatMap_cons] at same
    have lengths := congrArg List.length same
    rw [length_append, length_append] at lengths
    obtain ⟨here, later⟩ := append_inj same (by omega)
    intro other member
    rcases mem_cons.mp member with isFirst | inRest
    · rw [isFirst]
      exact here
    · exact induction rest later other inRest

end

end Parts

/-- A well-formed list is expanded for every visitor exactly if the last number
of each range is below the largest unsigned one and no name of a group is cut
off. -/
theorem traverseCompList_expands_iff {list : Compressed} (valid : list.Valid) :
    (∀ (Info : Type) (visitor : CStr → Info → Bool × Info) (info : Info),
      ∃ fuel, traverseCompList visitor fuel list.text info =
        some (visitAll visitor list.names info)) ↔
      ∀ part ∈ list.parts, part.Fits := by
  have fits_iff : ∀ part : Part, part.Valid →
      ((part.Ends ∧ part.visited = part.names) ↔ part.Fits) := by
    intro part validPart
    cases part with
    | name text => exact ⟨fun _ => trivial, fun _ => ⟨trivial, rfl⟩⟩
    | entry prefix_ entry => exact visited_eq_iff validPart
  constructor
  · intro expands part member
    obtain ⟨fuel, went⟩ := expands (List CStr) recorder []
    rw [traverseCompList_items recorder fuel valid, list.items_parts, visitAll_recorder] at went
    obtain ⟨ends, same⟩ := visitItems_recorder valid.parts went
    rw [nil_append, nil_append, list.names_parts] at same
    have shorter : ∀ part ∈ list.parts, part.visited.length ≤ part.names.length := by
      intro part member
      cases part with
      | name text => exact le_refl 1
      | entry prefix_ entry => exact length_visited_le (valid.parts _ member) (ends _ member)
    apply (fits_iff part (valid.parts part member)).mp
    exact ⟨ends part member, flatMap_eq shorter same.symm part member⟩
  · intro fits Info visitor info
    have both := fun part member => (fits_iff part (valid.parts part member)).mpr (fits part member)
    refine ⟨2 ^ 32 + 1, ?_⟩
    rw [traverseCompList_items visitor _ valid, list.items_parts,
      visitItems_ends visitor valid.parts
        (fun part member => (both part member).1) (Nat.lt_succ_self _),
      list.names_parts]
    congr 2
    exact flatMap_congr (fun part member => (both part member).2)

def smallList : Compressed where
  lead := []
  elements :=
    [(.group ['n'] (.single ['1']) [([','], .range ['0', '8'] ['1', '0'])],
      [',', ' ']), (.name ['h'], [])]

theorem smallList_valid : smallList.Valid where
  lead := all_chars (by decide)
  elements := by
    intro pair member
    simp only [smallList, mem_cons, not_mem_nil, or_false] at member
    rcases member with rfl | rfl
    · refine ⟨⟨by decide, all_chars (by decide)⟩, ⟨by decide, all_chars (by decide)⟩, ?_⟩
      intro pair inRest
      rw [mem_singleton.mp inRest]
      exact ⟨⟨by decide, all_chars (by decide)⟩,
        ⟨by decide, all_chars (by decide)⟩,
        ⟨by decide, all_chars (by decide)⟩, by decide⟩
    · exact ⟨by decide, all_chars (by decide)⟩
  separated := ⟨⟨by decide, all_chars (by decide)⟩,
    fun _ member => (nomatch member)⟩

theorem traverseCompList_smallList : smallList.text = "n[1,08-10], h".toList ∧
      ∀ (Info : Type) (visitor : CStr → Info → Bool × Info) (info : Info),
        ∃ fuel, traverseCompList visitor fuel smallList.text info =
          some (visitAll visitor smallList.names info) := by
  refine ⟨by decide, (traverseCompList_expands_iff smallList_valid).mpr ?_⟩
  intro part member
  have parts : smallList.parts = [.entry ['n'] (.single ['1']),
    .entry ['n'] (.range ['0', '8'] ['1', '0']), .name ['h']] := rfl
  rw [parts] at member
  simp only [mem_cons, not_mem_nil, or_false] at member
  rcases member with rfl | rfl | rfl
  · exact (by decide : 2 ≤ 1023)
  · refine ⟨by decide, ?_⟩
    intro i lower upper
    have low : valueOf ['0', '8'] = 8 := by decide
    have high : valueOf ['1', '0'] = 10 := by decide
    rw [low] at lower
    rw [high] at upper
    have cases_ : i = 8 ∨ i = 9 ∨ i = 10 := by omega
    rcases cases_ with rfl | rfl | rfl <;> decide
  · trivial

/-- The whole range of unsigned numbers. -/
def wholeRange : Compressed where
  lead := []
  elements :=
    [(.group ['n'] (.range ['0'] ['4', '2', '9', '4', '9', '6', '7', '2', '9', '5']) [], [])]

/-- The loop over a range up to the largest unsigned number does not end. -/
theorem not_traverseCompList_expands : ¬∀ list : Compressed, list.Valid →
      ∀ (Info : Type) (visitor : CStr → Info → Bool × Info) (info : Info),
        ∃ fuel, traverseCompList visitor fuel list.text info =
          some (visitAll visitor list.names info) := by
  intro expands
  have valid : wholeRange.Valid :=
    { lead := all_chars (by decide)
      elements := by
        intro pair member
        rw [mem_singleton.mp member]
        exact ⟨⟨by decide, all_chars (by decide)⟩,
          ⟨⟨by decide, all_chars (by decide)⟩, ⟨by decide, all_chars (by decide)⟩, by decide⟩,
          fun _ member => (nomatch member)⟩
      separated := fun _ member => (nomatch member) }
  obtain ⟨fuel, went⟩ := expands wholeRange valid (List CStr) recorder []
  rw [traverseCompList_items recorder fuel valid, wholeRange.items_parts, visitAll_recorder] at went
  have ends := (visitItems_recorder valid.parts went).1
    (.entry ['n'] (.range ['0'] ['4', '2', '9', '4', '9', '6', '7', '2', '9', '5'])) mem_cons_self
  exact absurd ends.2 (by decide)

end Psmgmt.CompList
