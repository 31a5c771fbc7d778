import Psmgmt.Slurm.MultiProg

/-!
# The program of each rank

The last line that lists a rank decides on its program, and the first line with
an asterisk does where no line lists it.
-/

namespace Psmgmt.Slurm.MultiProg

open List Option

/-! ## What a configuration says -/

def RankEntry.lists (rank : Nat) : RankEntry → Bool
  | .single named => named = rank
  | .range min max => min ≤ rank ∧ rank ≤ max
  | _ => false

def RankEntry.covers (rank : Nat) (entry : RankEntry) : Bool := entry.lists rank || entry = .all

/-- The entry can be used with `np` ranks. -/
def RankEntry.fits (np : Nat) : RankEntry → Bool
  | .all => true
  | .single rank => rank < np
  | .range min max => min ≤ max ∧ max < np
  | .invalid => false

def RankEntry.ranks (np : Nat) (before : List RankEntry) : RankEntry → List Nat
  | .all => (List.range np).filter (fun rank => !before.any (RankEntry.covers rank))
  | .single rank => [rank]
  | .range min max => List.range' min (max + 1 - min)
  | .invalid => []

def rankSequence (np : Nat) : (before : List RankEntry) → List RankEntry → List Nat
  | _, [] => []
  | before, entry :: rest => entry.ranks np before ++ rankSequence np (before ++ [entry]) rest

/-- Each line with those in front of it. -/
def withEarlier : (earlier : List ConfLine) → List ConfLine → List (List ConfLine × ConfLine)
  | _, [] => []
  | earlier, line :: rest => (earlier, line) :: withEarlier (earlier ++ [line]) rest

/-- The last line that lists the rank, or else the first one with an
asterisk. -/
def chosenLine (lines : List ConfLine) (rank : Nat) : Option (List ConfLine × ConfLine) :=
  ((withEarlier [] lines).reverse.find?
      (fun entry => entry.2.entries.any (RankEntry.lists rank))).or
    ((withEarlier [] lines).find? (fun entry => decide (RankEntry.all ∈ entry.2.entries)))

def lastIndex (rank : Nat) (ranks : List Nat) : Nat := ranks.length - 1 - ranks.reverse.idxOf rank

def lineRanks (np : Nat) (earlier : List ConfLine) (line : ConfLine) : List Nat :=
  rankSequence np (earlier.flatMap ConfLine.entries) line.entries

/-- The entry of the table for a rank. -/
def progOf (np : Nat) (lines : List ConfLine) (rank : Nat) : Option Prog :=
  (chosenLine lines rank).map fun (earlier, line) =>
    ⟨line.executable, replaceArgSymbols line.args rank
      (lastIndex rank (lineRanks np earlier line) % 2 ^ 32)⟩

/-! ## The chosen line -/

theorem withEarlier_snoc (earlier lines : List ConfLine) (line : ConfLine) :
    withEarlier earlier (lines ++ [line]) =
      withEarlier earlier lines ++ [(earlier ++ lines, line)] := by
  induction lines generalizing earlier with
  | nil => simp [withEarlier]
  | cons first rest induction =>
    simp only [cons_append, withEarlier, induction, append_assoc, nil_append]

theorem chosenLine_snoc (lines : List ConfLine) (line : ConfLine) (rank : Nat) :
    chosenLine (lines ++ [line]) rank =
      if line.entries.any (RankEntry.lists rank) then some (lines, line)
      else (chosenLine lines rank).or
        (if RankEntry.all ∈ line.entries then some (lines, line) else none) := by
  unfold chosenLine
  rw [withEarlier_snoc, nil_append, reverse_append,
    reverse_singleton, singleton_append, find?_cons,
    find?_append]
  cases line.entries.any (RankEntry.lists rank) with
  | true => rfl
  | false =>
    simp only [Bool.false_eq_true, if_false, Option.or_assoc]
    congr 2
    by_cases star : RankEntry.all ∈ line.entries
    · simp [star]
    · simp [star]

theorem any_covers (entries : List RankEntry) (rank : Nat) :
    entries.any (RankEntry.covers rank) = true ↔
      entries.any (RankEntry.lists rank) = true ∨ RankEntry.all ∈ entries := by
  induction entries with
  | nil => simp
  | cons entry rest induction =>
    simp only [any_cons, Bool.or_eq_true, induction, RankEntry.covers,
      decide_eq_true_eq, mem_cons, @eq_comm _ entry]
    tauto

theorem chosenLine_none (lines : List ConfLine) (rank : Nat) : chosenLine lines rank = none ↔
      (lines.flatMap ConfLine.entries).any (RankEntry.covers rank) = false := by
  induction lines using List.reverseRecOn with
  | nil => simp [chosenLine, withEarlier]
  | append_singleton lines line induction =>
    rw [chosenLine_snoc, flatMap_append, any_append,
      flatMap_singleton, Bool.or_eq_false_iff, ← induction,
      ← Bool.not_eq_true (line.entries.any _), any_covers]
    by_cases listed : line.entries.any (RankEntry.lists rank) = true
    · simp [listed]
    · by_cases star : RankEntry.all ∈ line.entries
      · simp [listed, star]
      · simp [listed, star]

/-! ## The ranks of a line -/

variable {rank : Nat} {ranks : List Nat}

variable {np : Nat} {unrolled : Unrolled}

attribute [local simp] RankEntry.ranks RankEntry.lists

attribute [local simp] RankEntry.covers

theorem mem_rankSequence (below : rank < np) (before entries : List RankEntry) :
    rank ∈ rankSequence np before entries ↔ entries.any (RankEntry.lists rank) = true ∨
        RankEntry.all ∈ entries ∧ before.any (RankEntry.covers rank) = false := by
  induction entries generalizing before with
  | nil => simp [rankSequence]
  | cons entry rest induction =>
    rw [rankSequence, mem_append, induction, any_append]
    cases entry with
    | all =>
      cases covered : before.any (RankEntry.covers rank) <;>
        simp [covered, below]
    | single named =>
      by_cases same : named = rank
      · simp [same]
      · simp [same, Ne.symm same]
    | range min max =>
      by_cases inside : min ≤ rank ∧ rank ≤ max
      · have member : rank ∈ List.range' min (max + 1 - min) := by
          rw [mem_range'_1]
          omega
        simp [inside, member]
      · have absent : rank ∉ List.range' min (max + 1 - min) := by
          rw [mem_range'_1]
          omega
        simp [inside, absent]
    | invalid => simp

theorem mem_ranks_lt {before : List RankEntry} {entry : RankEntry}
    (fits : entry.fits np = true) (member : rank ∈ entry.ranks np before) :
    rank < np := by
  cases entry with
  | all => exact mem_range.mp (mem_filter.mp member).1
  | single named =>
    rw [mem_singleton.mp member]
    simpa [RankEntry.fits] using fits
  | range min max =>
    rw [RankEntry.ranks, mem_range'_1] at member
    simp only [RankEntry.fits, decide_eq_true_eq] at fits
    omega
  | invalid => simp at member

theorem progOf_snoc (below : rank < np) (lines : List ConfLine)
    (line : ConfLine) :
    progOf np (lines ++ [line]) rank =
      if rank ∈ lineRanks np lines line then
        some ⟨line.executable, replaceArgSymbols line.args rank
          (lastIndex rank (lineRanks np lines line) % 2 ^ 32)⟩
      else progOf np lines rank := by
  have member := mem_rankSequence below (lines.flatMap ConfLine.entries) line.entries
  rw [← chosenLine_none] at member
  change rank ∈ lineRanks np lines line ↔ _ at member
  unfold progOf
  rw [chosenLine_snoc]
  by_cases listed : line.entries.any (RankEntry.lists rank) = true
  · rw [if_pos listed, if_pos (member.mpr (.inl listed))]
    rfl
  · rw [if_neg listed]
    cases chosen : chosenLine lines rank with
    | some other =>
      have absent : rank ∉ lineRanks np lines line := by
        intro inside
        rcases member.mp inside with here | ⟨_, none⟩
        · exact listed here
        · rw [chosen] at none
          cases none
      rw [if_neg absent]
      rfl
    | none =>
      by_cases star : RankEntry.all ∈ line.entries
      · rw [if_pos star, if_pos (member.mpr (.inr ⟨star, chosen⟩))]
        rfl
      · have absent : rank ∉ lineRanks np lines line := by
          intro inside
          rcases member.mp inside with here | ⟨there, _⟩
          · exact listed here
          · exact star there
        rw [if_neg star, if_neg absent]
        rfl

/-! ## Writing a line into the table -/

theorem lastIndex_snoc (rank : Nat) (ranks : List Nat) (last : Nat) :
    lastIndex rank (ranks ++ [last]) =
      if last = rank then ranks.length
      else lastIndex rank ranks := by
  unfold lastIndex
  rw [reverse_append, reverse_singleton, singleton_append,
    idxOf_cons, length_append, length_singleton]
  by_cases same : last = rank
  · simp [same]
  · simp only [same, beq_iff_eq, if_false, cond_eq_ite]
    omega

/-- The table after the ranks got the program one after the other. -/
def setAll (executable : CStr) (args : Option CStr) : List Nat → Unrolled → Unrolled
  | [], unrolled => unrolled
  | rank :: rest, unrolled =>
    setAll executable args rest {
      mp := unrolled.mp.set rank (some ⟨executable, replaceArgSymbols args rank unrolled.count⟩)
      count := (unrolled.count + 1) % 2 ^ 32 }

section Line

variable (executable : CStr) (args : Option CStr)

theorem setAll_append (first second : List Nat) (unrolled : Unrolled) :
    setAll executable args (first ++ second) unrolled =
      setAll executable args second (setAll executable args first unrolled) := by
  induction first generalizing unrolled with
  | nil => rfl
  | cons rank rest induction => exact induction _

@[simp] theorem length_setAll (ranks : List Nat) (unrolled : Unrolled) :
    (setAll executable args ranks unrolled).mp.length = unrolled.mp.length := by
  induction ranks generalizing unrolled with
  | nil => rfl
  | cons rank rest induction => rw [setAll, induction, length_set]

/-- A rank gets the program with the number it has where it stands last. -/
theorem setAll_spec (mp : List (Option Prog))
    (below : ∀ rank ∈ ranks, rank < mp.length) :
    (setAll executable args ranks ⟨mp, 0⟩).count = ranks.length % 2 ^ 32 ∧
    ∀ rank, (setAll executable args ranks ⟨mp, 0⟩).mp[rank]? =
      if rank ∈ ranks then
        some (some ⟨executable, replaceArgSymbols args rank (lastIndex rank ranks % 2 ^ 32)⟩)
      else mp[rank]? := by
  induction ranks using List.reverseRecOn with
  | nil => exact ⟨rfl, fun _ => rfl⟩
  | append_singleton ranks last induction =>
    obtain ⟨count, entries⟩ := induction (fun rank member => below rank (mem_append_left _ member))
    have lastBelow : last < mp.length := below last (by simp)
    rw [setAll_append]
    simp only [setAll, count]
    constructor
    · rw [length_append, length_singleton]
      omega
    · intro rank
      rw [getElem?_set, length_setAll, lastIndex_snoc]
      by_cases same : last = rank
      · subst same
        simp [lastBelow]
      · rw [if_neg same, entries rank, if_neg same]
        simp [Ne.symm same]

theorem setRange_within (below : ∀ rank ∈ ranks, rank < unrolled.mp.length) :
    setRange executable args ranks unrolled = .ok (setAll executable args ranks unrolled) := by
  induction ranks generalizing unrolled with
  | nil => rfl
  | cons rank rest induction =>
    rw [setRange, setProg, if_pos (below rank (by simp))]
    refine induction ?_
    intro other member
    rw [length_set]
    exact below other (mem_cons_of_mem _ member)

theorem setRange_beyond (beyond : ∃ rank ∈ ranks, unrolled.mp.length ≤ rank) :
    setRange executable args ranks unrolled = .error .outOfBounds := by
  induction ranks generalizing unrolled with
  | nil => simp at beyond
  | cons rank rest induction =>
    rw [setRange, setProg]
    by_cases inside : rank < unrolled.mp.length
    · rw [if_pos inside]
      refine induction ?_
      obtain ⟨other, member, outside⟩ := beyond
      rcases mem_cons.mp member with rfl | later
      · omega
      · exact ⟨other, later, by rwa [length_set]⟩
    · rw [if_neg inside]

theorem setUnset_eq (distinct : ranks.Nodup)
    (below : ∀ rank ∈ ranks, rank < unrolled.mp.length) :
    setUnset executable args ranks unrolled =
      .ok (setAll executable args
        (ranks.filter (fun rank => unrolled.mp[rank]? = some none))
        unrolled) := by
  induction ranks generalizing unrolled with
  | nil => rfl
  | cons rank rest induction =>
    obtain ⟨fresh, restDistinct⟩ := nodup_cons.mp distinct
    have bound : rank < unrolled.mp.length := below rank (by simp)
    have restBelow : ∀ other ∈ rest, other < unrolled.mp.length :=
      fun other member => below other (mem_cons_of_mem _ member)
    cases entry : unrolled.mp[rank]? with
    | none =>
      rw [getElem?_eq_none_iff] at entry
      omega
    | some program =>
      cases program with
      | some program =>
        rw [setUnset, entry, filter_cons_of_neg (by simp [entry])]
        exact induction restDistinct restBelow
      | none =>
        rw [setUnset, entry, filter_cons_of_pos (by simp [entry])]
        simp only [setProg, if_pos bound, setAll]
        rw [induction restDistinct (by simpa using restBelow)]
        congr 2
        apply filter_congr
        intro other member
        have apart : rank ≠ other := by
          intro same
          exact fresh (same ▸ member)
        simp [apart]

theorem setAll_unset (below : ∀ rank ∈ ranks, rank < unrolled.mp.length)
    (rank : Nat) :
    (setAll executable args ranks unrolled).mp[rank]? = some none ↔
      rank ∉ ranks ∧ unrolled.mp[rank]? = some none := by
  induction ranks generalizing unrolled with
  | nil => simp [setAll]
  | cons first rest induction =>
    have bound : first < unrolled.mp.length := below first (by simp)
    rw [setAll, induction (by
      intro other member
      rw [length_set]
      exact below other (mem_cons_of_mem _ member)),
      getElem?_set]
    by_cases same : first = rank
    · simp [same, same ▸ bound]
    · simp [same, Ne.symm same]

def Unset (np : Nat) (before : List RankEntry) (mp : List (Option Prog)) :
    Prop :=
  mp.length = np ∧ ∀ rank < np, mp[rank]? = some none ↔ before.any (RankEntry.covers rank) = false

variable {np : Nat} {before : List RankEntry} {unrolled : Unrolled}

theorem Unset.entry (unset : Unset np before unrolled.mp) {entry : RankEntry}
    (fits : entry.fits np = true) :
    Unset np (before ++ [entry]) (setAll executable args (entry.ranks np before) unrolled).mp := by
  obtain ⟨length, none⟩ := unset
  refine ⟨by rwa [length_setAll], ?_⟩
  intro rank bound
  have member := mem_rankSequence bound before [entry]
  rw [rankSequence, rankSequence, append_nil] at member
  have covers := any_covers [entry] rank
  rw [setAll_unset executable args (by
    intro other inside
    rw [length]
    exact mem_ranks_lt fits inside), none rank bound, member,
    any_append, Bool.or_eq_false_iff,
    ← Bool.not_eq_true ([entry].any _), covers]
  tauto

theorem unrollEntry_fits (unset : Unset np before unrolled.mp)
    {entry : RankEntry} (fits : entry.fits np = true) :
    unrollEntry executable args np unrolled entry =
      .ok (setAll executable args (entry.ranks np before) unrolled) := by
  obtain ⟨length, none⟩ := unset
  cases entry with
  | all =>
    rw [unrollEntry, setUnset_eq executable args nodup_range (by
      intro rank member
      rw [length]
      exact mem_range.mp member), RankEntry.ranks]
    congr 2
    apply filter_congr
    intro rank member
    have free := none rank (mem_range.mp member)
    cases covered : before.any (RankEntry.covers rank) with
    | true => simp [free, covered]
    | false => simp [free, covered]
  | single named =>
    have bound : named < np := by simpa [RankEntry.fits] using fits
    rw [unrollEntry, if_neg (Nat.not_le.mpr bound), setProg, if_pos (by rwa [length])]
    rfl
  | range min max =>
    have bounds : min ≤ max ∧ max < np := by
      simpa [RankEntry.fits] using fits
    rw [unrollEntry, if_neg (Nat.not_lt.mpr bounds.1), setRange_within]
    · rfl
    · intro rank member
      rw [mem_range'_1] at member
      omega
  | invalid => cases fits

/-- How an entry that cannot be used ends the processing. -/
def RankEntry.stop : RankEntry → Stop
  | .range min max => if min > max then .exit else .outOfBounds
  | _ => .exit

theorem unrollEntry_bad (length : unrolled.mp.length = np) {entry : RankEntry}
    (bad : entry.fits np = false) :
    unrollEntry executable args np unrolled entry = .error entry.stop := by
  cases entry with
  | all => cases bad
  | single named =>
    have bound : named ≥ np := by simpa [RankEntry.fits] using bad
    rw [unrollEntry, if_pos bound]
    rfl
  | range min max =>
    rw [unrollEntry, RankEntry.stop]
    by_cases order : min > max
    · rw [if_pos order, if_pos order]
    · have bound : np ≤ max := by
        simp only [RankEntry.fits, decide_eq_false_iff_not] at bad
        omega
      rw [if_neg order, if_neg order]
      refine setRange_beyond executable args ⟨max, ?_, by omega⟩
      rw [mem_range'_1]
      omega
  | invalid => rfl

/-- The first of the entries that cannot be used. -/
def firstBad (np : Nat) (entries : List RankEntry) : Option RankEntry :=
  entries.find? (fun entry => !entry.fits np)

theorem unrollEntries_fit (entries : List RankEntry)
    (unset : Unset np before unrolled.mp) (fit : firstBad np entries = none) :
    unrollEntries executable args np entries unrolled =
      .ok (setAll executable args (rankSequence np before entries) unrolled) := by
  induction entries generalizing before unrolled with
  | nil => rfl
  | cons entry rest induction =>
    unfold firstBad at fit induction
    rw [find?_cons] at fit
    cases fits : entry.fits np with
    | false => simp [fits] at fit
    | true =>
      rw [fits] at fit
      rw [unrollEntries, unrollEntry_fits executable args unset fits, rankSequence, setAll_append]
      exact induction (unset.entry executable args fits) fit

theorem unrollEntries_bad (entries : List RankEntry) (unset : Unset np before unrolled.mp)
    {bad : RankEntry} (found : firstBad np entries = some bad) :
    unrollEntries executable args np entries unrolled = .error bad.stop := by
  induction entries generalizing before unrolled with
  | nil => cases found
  | cons entry rest induction =>
    unfold firstBad at found induction
    rw [find?_cons] at found
    cases fits : entry.fits np with
    | false =>
      rw [fits] at found
      cases found
      rw [unrollEntries, unrollEntry_bad executable args unset.1 fits]
    | true =>
      rw [fits] at found
      rw [unrollEntries, unrollEntry_fits executable args unset fits]
      exact induction (unset.entry executable args fits) found

end Line

theorem mem_rankSequence_lt {before entries : List RankEntry}
    (fit : firstBad np entries = none) :
    ∀ rank ∈ rankSequence np before entries, rank < np := by
  induction entries generalizing before with
  | nil => simp [rankSequence]
  | cons entry rest induction =>
    unfold firstBad at fit induction
    rw [find?_cons] at fit
    cases fits : entry.fits np with
    | false => simp [fits] at fit
    | true =>
      rw [fits] at fit
      intro rank member
      rcases mem_append.mp member with here | later
      · exact mem_ranks_lt fits here
      · exact induction fit rank later

/-! ## The table of a configuration -/

/-- The table holds the programs the lines say. -/
structure TableOf (np : Nat) (lines : List ConfLine)
    (mp : List (Option Prog)) : Prop where
  length : mp.length = np
  entries : ∀ rank < np, mp[rank]? = some (progOf np lines rank)

theorem progOf_none {np : Nat} (lines : List ConfLine) (rank : Nat) : progOf np lines rank = none ↔
      (lines.flatMap ConfLine.entries).any (RankEntry.covers rank) =
        false := by
  rw [progOf, map_eq_none_iff, chosenLine_none]

variable (texts : List CStr)

section Table

variable {np : Nat} {lines : List ConfLine} {mp : List (Option Prog)}

theorem TableOf.unset (table : TableOf np lines mp) :
    Unset np (lines.flatMap ConfLine.entries) mp := by
  refine ⟨table.length, ?_⟩
  intro rank bound
  rw [table.entries rank bound, ← @progOf_none np, some_inj]

theorem unrollRanks_fit (table : TableOf np lines mp) {line : ConfLine}
    (fit : firstBad np line.entries = none) :
    ∃ after, unrollRanks mp np line = .ok after ∧ TableOf np (lines ++ [line]) after := by
  refine ⟨(setAll line.executable line.args (lineRanks np lines line) ⟨mp, 0⟩).mp, ?_, ?_, ?_⟩
  · rw [unrollRanks, @unrollEntries_fit line.executable line.args np
      (lines.flatMap ConfLine.entries) ⟨mp, 0⟩ line.entries table.unset fit]
    rfl
  · rw [length_setAll]
    exact table.length
  · intro rank bound
    have below : ∀ other ∈ lineRanks np lines line, other < mp.length := by
      rw [table.length]
      exact mem_rankSequence_lt fit
    have written := (setAll_spec line.executable line.args mp below).2 rank
    rw [written, progOf_snoc bound, table.entries rank bound]
    split <;> rfl

theorem unrollRanks_bad (table : TableOf np lines mp) {line : ConfLine}
    {bad : RankEntry} (found : firstBad np line.entries = some bad) :
    unrollRanks mp np line = .error bad.stop := by
  rw [unrollRanks, @unrollEntries_bad line.executable line.args np
    (lines.flatMap ConfLine.entries) ⟨mp, 0⟩ line.entries table.unset bad
    found]

def textEntries (text : CStr) : List RankEntry :=
  match readLine text with
  | none => [.invalid]
  | some line => line.entries

theorem firstBad_append (first second : List RankEntry) :
    firstBad np (first ++ second) = (firstBad np first).or (firstBad np second) := by
  rw [firstBad, find?_append]
  rfl

theorem parseLines_fit (table : TableOf np lines mp)
    (fit : firstBad np (texts.flatMap textEntries) = none) :
    ∃ after, parseLines np texts mp = .ok after ∧
      TableOf np (lines ++ texts.filterMap readLine) after := by
  induction texts generalizing lines mp with
  | nil =>
    refine ⟨mp, rfl, ?_⟩
    rw [filterMap_nil, append_nil]
    exact table
  | cons text rest induction =>
    rw [flatMap_cons, firstBad_append, or_eq_none_iff] at fit
    obtain ⟨first, later⟩ := fit
    rw [textEntries] at first
    cases line : readLine text with
    | none =>
      rw [line] at first
      cases first
    | some line' =>
      rw [line] at first
      obtain ⟨next, unrolled, nextTable⟩ := unrollRanks_fit table first
      obtain ⟨after, parsed, afterTable⟩ := induction nextTable later
      refine ⟨after, ?_, ?_⟩
      · rw [parseLines, line]
        dsimp only
        rw [unrolled]
        exact parsed
      · rw [filterMap_cons, line]
        simpa using afterTable

theorem parseLines_bad (table : TableOf np lines mp) {bad : RankEntry}
    (found : firstBad np (texts.flatMap textEntries) = some bad) :
    parseLines np texts mp = .error bad.stop := by
  induction texts generalizing lines mp with
  | nil => cases found
  | cons text rest induction =>
    rw [flatMap_cons, firstBad_append] at found
    cases line : readLine text with
    | none =>
      rw [textEntries, line] at found
      cases found
      rw [parseLines, line]
      rfl
    | some line' =>
      have own : textEntries text = line'.entries := by
        rw [textEntries, line]
      rw [own] at found
      rw [parseLines, line]
      dsimp only
      cases first : firstBad np line'.entries with
      | some other =>
        rw [first, some_or] at found
        cases found
        rw [unrollRanks_bad table first]
      | none =>
        rw [first, none_or] at found
        obtain ⟨next, unrolled, nextTable⟩ := unrollRanks_fit table first
        rw [unrolled]
        exact induction nextTable found

theorem tableOf_replicate (np : Nat) : TableOf np [] (List.replicate np none) := by
  refine ⟨length_replicate, ?_⟩
  intro rank bound
  rw [getElem?_replicate, if_pos bound]
  rfl

end Table

end Psmgmt.Slurm.MultiProg
