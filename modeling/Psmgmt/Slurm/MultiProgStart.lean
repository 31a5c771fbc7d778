import Psmgmt.Slurm.MultiProgTable
import Psmgmt.Slurm.MultiProgArgs
import Psmgmt.Library.Snoc

/-!
# What a multi-program configuration starts

The argument vector of `setupArgsFromMultiProg()` and the programs the
configuration says.
-/

namespace Psmgmt.Slurm.MultiProg

open List Option

/-- A part of the argument vector between colons. -/
structure Group where
  count : Nat
  exe : CStr
  args : List CStr

def Group.render (group : Group) : List CStr :=
  [npOption, decimal group.count, group.exe] ++ group.args

/-- The programs the group starts. -/
def Group.expand (group : Group) : List (CStr × List CStr) :=
  List.replicate group.count (group.exe, group.args)

/-- The groups with a colon between each two of them. -/
def joined (groups : List Group) : List CStr := [colon].intercalate (groups.map Group.render)

/-- What is started for an entry of the table. -/
def Prog.started (prog : Prog) : CStr × List CStr := (prog.exe, splitArguments prog.args)

def readLines (conf : CStr) : List ConfLine := (confLines conf).filterMap readLine

def confEntries (conf : CStr) : List RankEntry := (confLines conf).flatMap textEntries

def position (np rank : Nat) (chosen : List ConfLine × ConfLine) : Nat :=
  lastIndex rank (lineRanks np chosen.1 chosen.2)

def programOf (np : Nat) (lines : List ConfLine) (rank : Nat) : Option (CStr × List CStr) :=
  (chosenLine lines rank).map fun chosen =>
    (chosen.2.executable, splitArguments
      (textOf rank (position np rank chosen) (argPieces chosen.2.args)))

/-- An error is reported, or the groups of the argument vector start on each
rank what the configuration says. -/
def StartsPrograms (np : Nat) (conf : CStr) (argV : List CStr) : Except Stop (List CStr) → Prop
  | .error .exit => True
  | .error .outOfBounds => False
  | .ok result => ∃ (programs : List CStr) (groups : List Group), result = argV ++ programs ∧
      programs.splitOn colon = groups.map Group.render ∧ (groups.flatMap Group.expand).map some =
      (List.range np).map (programOf np (readLines conf))

/-- The position of the rank fits into 32 bits or does not matter, and nothing
the rank starts looks like the separator of groups. -/
structure Clear (np rank : Nat) (chosen : List ConfLine × ConfLine) :
    Prop where
  small : position np rank chosen < 2 ^ 32 ∨ Piece.offset ∉ argPieces chosen.2.args
  executable : chosen.2.executable ≠ colon
  args : colon ∉ splitArguments (textOf rank (position np rank chosen) (argPieces chosen.2.args))

/-- No range leads beyond the ranks before an error is found, and if there is
none the programs are clear. -/
structure Startable (np : Nat) (conf : CStr) : Prop where
  ranges : ∀ min max, firstBad np (confEntries conf) = some (.range min max) → max < min
  programs : firstBad np (confEntries conf) = none →
    (∀ rank < np, chosenLine (readLines conf) rank ≠ none) →
    ∀ rank < np, ∀ chosen, chosenLine (readLines conf) rank = some chosen → Clear np rank chosen

/-! ## Groups of equal programs -/

theorem joined_snoc (groups : List Group) (group : Group) : joined (groups ++ [group]) =
      (if groups = [] then [] else joined groups ++ [colon]) ++ group.render := by
  induction groups with
  | nil => simp [joined]
  | cons first rest induction =>
    cases rest with
    | nil => simp [joined, intercalate_cons_cons]
    | cons second rest =>
      simp only [joined, cons_append, map_cons,
        intercalate_cons_cons, reduceCtorEq, if_false] at induction ⊢
      rw [induction]
      simp

variable {groups : List Group}

theorem joined_ne_nil (some : groups ≠ []) : joined groups ≠ [] := by
  rcases eq_nil_or_concat groups with empty | ⟨before, last, rfl⟩
  · exact absurd empty some
  · rw [concat_eq_append, joined_snoc, Group.render]
    simp

/-- The groups written so far and the programs they start. -/
structure Grouped (argV : List CStr) (grouping : Grouping)
    (groups : List Group) : Prop where
  written : grouping.argV = argV ++ joined groups
  counted : grouping.uniqExeCount = groups.length
  running : 0 < grouping.exeCount
  counts : ∀ group ∈ groups, 0 < group.count

/-- All programs of the groups and of the current run. -/
def Grouping.programs (grouping : Grouping) (groups : List Group) : List (CStr × List CStr) :=
  groups.flatMap Group.expand ++ List.replicate grouping.exeCount grouping.last.started

/-- The current run as a group. -/
def Grouping.group (grouping : Grouping) : Group :=
  { count := grouping.exeCount
    exe := grouping.last.exe
    args := splitArguments grouping.last.args }

theorem Grouping.programs_eq (grouping : Grouping) (groups : List Group) :
    grouping.programs groups = (groups ++ [grouping.group]).flatMap Group.expand := by
  simp [Grouping.programs, Grouping.group, Group.expand, Prog.started]

/-- Writing the current run behind the groups. -/
theorem Grouped.write {argV : List CStr} {grouping : Grouping}
    (grouped : Grouped argV grouping groups) :
    addExecutableToArgv
        (if grouping.argV.length ≠ argV.length then grouping.argV ++ [colon]
          else grouping.argV)
        grouping.last.exe grouping.exeCount grouping.last.args =
      argV ++ joined (groups ++ [grouping.group]) := by
  rw [joined_snoc, grouped.written, length_append, addExecutableToArgv]
  by_cases empty : groups = []
  · subst empty
    simp [joined, Group.render, Grouping.group]
  · have length := length_pos_iff.mpr (joined_ne_nil empty)
    rw [if_pos (by omega), if_neg empty]
    simp [Group.render, Grouping.group]

theorem groupLoop_spec {argV : List CStr} (progs : List Prog) {grouping : Grouping}
    {groups : List Group} (grouped : Grouped argV grouping groups) :
    ∃ final after, groupLoop argV.length (progs.map some) grouping =
        .ok final ∧ Grouped argV final after ∧
      final.programs after = grouping.programs groups ++ progs.map Prog.started := by
  induction progs generalizing grouping groups with
  | nil => exact ⟨grouping, groups, rfl, grouped, by simp⟩
  | cons prog rest induction =>
    rw [map_cons, groupLoop]
    by_cases same : prog.exe = grouping.last.exe ∧ prog.args = grouping.last.args
    · rw [if_pos same]
      obtain ⟨final, after, run, finalGrouped, programs⟩ :=
        @induction { grouping with exeCount := grouping.exeCount + 1 } groups
          ⟨grouped.written, grouped.counted, Nat.succ_pos _, grouped.counts⟩
      refine ⟨final, after, run, finalGrouped, ?_⟩
      have equal : prog.started = grouping.last.started := by
        rw [Prog.started, Prog.started, same.1, same.2]
      rw [programs, map_cons, equal]
      simp [Grouping.programs, replicate_succ']
    · rw [if_neg same]
      dsimp only
      rw [grouped.write]
      obtain ⟨final, after, run, finalGrouped, programs⟩ :=
        @induction
          { argV := argV ++ joined (groups ++ [grouping.group])
            last := prog
            exeCount := 1
            uniqExeCount := grouping.uniqExeCount + 1 }
          (groups ++ [grouping.group])
          ⟨rfl, by simp [grouped.counted], Nat.one_pos, by
            intro group member
            rcases mem_append.mp member with before | last
            · exact grouped.counts group before
            · rw [mem_singleton.mp last]
              exact grouped.running⟩
      refine ⟨final, after, run, finalGrouped, ?_⟩
      rw [programs, Grouping.programs_eq grouping]
      simp [Grouping.programs]

theorem groupLoop_missing {startArgc : Nat} {table : List (Option Prog)}
    (missing : none ∈ table) (grouping : Grouping) :
    groupLoop startArgc table grouping = .error .exit := by
  induction table generalizing grouping with
  | nil => cases missing
  | cons entry rest induction =>
    cases entry with
    | none => rfl
    | some prog =>
      have later : none ∈ rest := by simpa using missing
      rw [groupLoop]
      split
      · exact induction later _
      · exact induction later _

theorem groupPrograms_missing {table : List (Option Prog)}
    (missing : none ∈ table) (argV : List CStr) :
    groupPrograms table argV = .error .exit := by
  cases table with
  | nil => cases missing
  | cons entry rest =>
    cases entry with
    | none => rfl
    | some first => rw [groupPrograms, groupLoop_missing missing]

theorem groupPrograms_spec {progs : List Prog} (some' : progs ≠ [])
    (argV : List CStr) :
    ∃ groups, groupPrograms (progs.map some) argV = .ok (argV ++ joined groups) ∧ groups ≠ [] ∧
      (∀ group ∈ groups, 0 < group.count) ∧
      groups.flatMap Group.expand = progs.map Prog.started := by
  cases progs with
  | nil => exact absurd rfl some'
  | cons first rest =>
    obtain ⟨final, after, run, grouped, programs⟩ :=
      @groupLoop_spec argV rest { argV := argV, last := first, exeCount := 1, uniqExeCount := 0 } []
        ⟨by simp [joined], rfl, Nat.one_pos, by simp⟩
    refine ⟨after ++ [final.group], ?_, by simp, ?_, ?_⟩
    · rw [map_cons, groupPrograms, groupLoop, if_pos ⟨rfl, rfl⟩]
      dsimp only
      rw [Nat.zero_add, run]
      dsimp only
      rw [← grouped.write]
      have behind : final.uniqExeCount ≠ 0 ↔ final.argV.length ≠ argV.length := by
        rw [grouped.counted, grouped.written, length_append]
        by_cases empty : after = []
        · simp [empty, joined]
        · have length := length_pos_iff.mpr (joined_ne_nil empty)
          have more := length_pos_iff.mpr empty
          omega
      simp only [behind]
    · exact Snoc.forall_mem grouped.counts grouped.running
    · rw [← Grouping.programs_eq, programs]
      simp [Grouping.programs]

/-! ## Colons -/

theorem not_mem_of_mem_splitOn {α : Type} [BEq α] [LawfulBEq α]
    {separator : α} {items : List α} : ∀ part ∈ items.splitOn separator, separator ∉ part := by
  induction items with
  | nil => simp
  | cons first rest induction =>
    rw [splitOn_cons_eq_if_modifyHead]
    by_cases same : first = separator
    · rw [if_pos (by simpa using same)]
      intro part member
      rcases mem_cons.mp member with rfl | later
      · simp
      · exact induction part later
    · rw [if_neg (by simpa using same)]
      cases parts : rest.splitOn separator with
      | nil => simp
      | cons head tail =>
        rw [parts] at induction
        intro part member
        rw [modifyHead_cons] at member
        rcases mem_cons.mp member with rfl | later
        · have apart := induction head (by simp)
          exact not_mem_cons_of_ne_of_not_mem (Ne.symm same) apart
        · exact induction part (by simp [later])

theorem decimal_ne_colon (value : Nat) : decimal value ≠ colon := by
  intro same
  have digit := decimal_digits value ':' (by rw [same, colon]; simp)
  exact absurd digit (by decide)

theorem colon_mem_render (group : Group) :
    colon ∈ group.render ↔ group.exe = colon ∨ colon ∈ group.args := by
  have option : colon ≠ npOption := by decide
  simp [Group.render, option, Ne.symm (decimal_ne_colon _), @eq_comm _ colon]

theorem Group.render_injective {first second : Group}
    (same : first.render = second.render) : first = second := by
  cases first
  cases second
  simp only [Group.render, cons_append, nil_append, List.cons.injEq] at same
  obtain ⟨_, count, rfl, rfl⟩ := same
  rw [decimal_injective count]

theorem splitOn_joined (some : groups ≠ [])
    (clear : ∀ group ∈ groups, colon ∉ group.render) :
    (joined groups).splitOn colon = groups.map Group.render := by
  apply splitOn_intercalate
  · intro part member
    obtain ⟨group, listed, rfl⟩ := mem_map.mp member
    exact clear group listed
  · simpa using some

/-- A group of some ranks starts the program of one of them. -/
theorem Group.mem_expand {group : Group} (some : 0 < group.count) :
    (group.exe, group.args) ∈ group.expand := by
  rw [Group.expand, mem_replicate]
  exact ⟨by omega, rfl⟩

theorem mem_expand_render {program : CStr × List CStr}
    (member : program ∈ groups.flatMap Group.expand) :
    ∃ group ∈ groups, group.exe = program.1 ∧ group.args = program.2 := by
  obtain ⟨group, listed, inside⟩ := mem_flatMap.mp member
  rw [Group.expand, mem_replicate] at inside
  exact ⟨group, listed, by rw [inside.2], by rw [inside.2]⟩

/-! ## The lines -/

theorem mem_of_chosenLine {lines : List ConfLine} {rank : Nat} {chosen : List ConfLine × ConfLine}
    (found : chosenLine lines rank = some chosen) : chosen.2 ∈ lines := by
  induction lines using List.reverseRecOn with
  | nil => simp [chosenLine, withEarlier] at found
  | append_singleton lines line induction =>
    rw [chosenLine_snoc] at found
    split at found
    · cases found
      simp
    · cases earlier : chosenLine lines rank with
      | some other =>
        rw [earlier, some_or] at found
        cases found
        exact mem_append_left _ (induction earlier)
      | none =>
        rw [earlier, none_or] at found
        split at found
        · cases found
          simp
        · cases found

theorem readLine_args {text : CStr} {line : ConfLine}
    (read : readLine text = some line) :
    ∀ c ∈ line.args.getD [], c ∈ text := by
  intro c member
  unfold readLine at read
  dsimp only at read
  split at read
  · cases read
  · rename_i blank rest found
    cases read
    dsimp only at member
    split at member
    · simp at member
    · rename_i space args behind
      have inArgs : c ∈ args := dropWhile_subset _ member
      have inExecutable : c ∈ ltrim rest := by
        apply dropWhile_subset
        rw [behind]
        exact mem_cons_of_mem _ inArgs
      have inRest : c ∈ rest := dropWhile_subset _ inExecutable
      have inTrimmed : c ∈ trim text := by
        apply dropWhile_subset
        rw [found]
        exact mem_cons_of_mem _ inRest
      have inLeft : c ∈ ltrim text := (List.rdropWhile_prefix _ _).subset inTrimmed
      exact dropWhile_subset _ inLeft

theorem readLines_args {conf : CStr} {line : ConfLine}
    (member : line ∈ readLines conf) : '\n' ∉ line.args.getD [] := by
  intro inside
  obtain ⟨text, listed, read⟩ := mem_filterMap.mp member
  have token := (mem_filter.mp listed).1
  have part := (mem_filter.mp token).1
  exact not_mem_of_mem_splitOn text part (readLine_args read '\n' inside)

theorem progOf_started {np rank : Nat} {conf : CStr} {chosen : List ConfLine × ConfLine}
    (found : chosenLine (readLines conf) rank = some chosen) :
    ∃ prog, progOf np (readLines conf) rank = some prog ∧
      prog.started = (chosen.2.executable, splitArguments
        (textOf rank (position np rank chosen % 2 ^ 32) (argPieces chosen.2.args))) := by
  obtain ⟨earlier, line⟩ := chosen
  refine ⟨⟨line.executable, replaceArgSymbols line.args rank
    (position np rank (earlier, line) % 2 ^ 32)⟩, ?_, ?_⟩
  · rw [progOf, found]
    rfl
  · rw [Prog.started, replaceArgSymbols_pieces (readLines_args (mem_of_chosenLine found))]

theorem textOf_of_not_mem {arguments : List Piece}
    (unused : .offset ∉ arguments) (rank first second : Nat) :
    textOf rank first arguments = textOf rank second arguments := by
  induction arguments with
  | nil => rfl
  | cons piece rest induction =>
    obtain ⟨other, later⟩ := ne_and_not_mem_of_not_mem_cons unused
    rw [textOf_cons, textOf_cons, induction later]
    cases piece with
    | char c => rfl
    | rank => rfl
    | offset => exact absurd rfl other

theorem exists_progs {mp : List (Option Prog)} (all : none ∉ mp) :
    ∃ progs : List Prog, mp = progs.map some := by
  induction mp with
  | nil => exact ⟨[], rfl⟩
  | cons entry rest induction =>
    obtain ⟨here, later⟩ := ne_and_not_mem_of_not_mem_cons all
    obtain ⟨progs, same⟩ := induction later
    cases entry with
    | none => exact absurd rfl here
    | some prog => exact ⟨prog :: progs, by rw [same, map_cons]⟩

/-! ## The argument vector -/

section Start

variable {np : Nat} {conf : CStr}

structure Written (np : Nat) (conf : CStr) (groups : List Group)
    (started : List (CStr × List CStr)) : Prop where
  nonempty : groups ≠ []
  counts : ∀ group ∈ groups, 0 < group.count
  expand : groups.flatMap Group.expand = started
  length : started.length = np
  ranks : ∀ rank < np, ∃ chosen,
    chosenLine (readLines conf) rank = some chosen ∧
    started[rank]? = some (chosen.2.executable, splitArguments
      (textOf rank (position np rank chosen % 2 ^ 32) (argPieces chosen.2.args)))

theorem setupArgs_written (positive : 0 < np) (fit : firstBad np (confEntries conf) = none)
    (all : ∀ rank < np, chosenLine (readLines conf) rank ≠ none) (argV : List CStr) :
    ∃ groups started, setupArgsFromMultiProg conf np argV =
      .ok (argV ++ joined groups) ∧ Written np conf groups started := by
  obtain ⟨mp, parsed, table⟩ := parseLines_fit (confLines conf) (tableOf_replicate np) fit
  rw [nil_append] at table
  change TableOf np (readLines conf) mp at table
  have entry : ∀ rank < np, ∃ chosen prog,
      chosenLine (readLines conf) rank = some chosen ∧
      mp[rank]? = some (some prog) ∧
      prog.started = (chosen.2.executable, splitArguments
        (textOf rank (position np rank chosen % 2 ^ 32) (argPieces chosen.2.args))) := by
    intro rank bound
    obtain ⟨chosen, found⟩ := ne_none_iff_exists'.mp (all rank bound)
    obtain ⟨prog, equation, started⟩ := @progOf_started np rank conf _ found
    refine ⟨chosen, prog, found, ?_, started⟩
    rw [table.entries rank bound, equation]
  have complete : none ∉ mp := by
    intro member
    obtain ⟨rank, bound, missing⟩ := mem_iff_getElem.mp member
    obtain ⟨_, prog, _, present, _⟩ := entry rank (table.length ▸ bound)
    rw [getElem?_eq_getElem bound, missing] at present
    cases present
  obtain ⟨progs, rfl⟩ := exists_progs complete
  have length : progs.length = np := by
    rw [← table.length, length_map]
  have nonempty : progs ≠ [] := by
    rw [← length_pos_iff, length]
    exact positive
  obtain ⟨groups, written, groupsNonempty, someRanks, expand⟩ := groupPrograms_spec nonempty argV
  refine ⟨groups, _, ?_, groupsNonempty, someRanks, expand, ?_, ?_⟩
  · rw [setupArgsFromMultiProg, parseMultiProgConf, parsed]
    exact written
  · rw [length_map, length]
  · intro rank bound
    obtain ⟨chosen, prog, found, present, started⟩ := entry rank bound
    rw [getElem?_map, map_eq_some_iff] at present
    obtain ⟨same, present, equation⟩ := present
    cases equation
    refine ⟨chosen, found, ?_⟩
    rw [getElem?_map, present, map_some, started]

variable {groups : List Group} {started : List (CStr × List CStr)}

section

variable (written : Written np conf groups started)

include written

theorem Written.starts (clear : ∀ rank < np, ∀ chosen,
      chosenLine (readLines conf) rank = some chosen → Clear np rank chosen) :
    started.map some = (List.range np).map (programOf np (readLines conf)) := by
  apply ext_getElem?
  intro rank
  rw [getElem?_map, getElem?_map]
  by_cases bound : rank < np
  · obtain ⟨chosen, found, present⟩ := written.ranks rank bound
    have same : textOf rank (position np rank chosen % 2 ^ 32) (argPieces chosen.2.args) =
        textOf rank (position np rank chosen) (argPieces chosen.2.args) := by
      rcases (clear rank bound chosen found).small with small | unused
      · rw [Nat.mod_eq_of_lt small]
      · exact textOf_of_not_mem unused _ _ _
    rw [present, getElem?_range bound, same]
    simp [programOf, found]
  · have length := written.length
    rw [getElem?_eq_none (by omega), getElem?_eq_none (by simp; omega)]
    rfl

theorem Written.group {group : Group} (member : group ∈ groups) : ∃ rank < np, ∃ chosen,
      chosenLine (readLines conf) rank = some chosen ∧
      group.exe = chosen.2.executable ∧ group.args = splitArguments
        (textOf rank (position np rank chosen % 2 ^ 32) (argPieces chosen.2.args)) := by
  have inside : (group.exe, group.args) ∈ started := by
    rw [← written.expand]
    exact mem_flatMap.mpr ⟨group, member, Group.mem_expand (written.counts group member)⟩
  obtain ⟨rank, bound, entry⟩ := mem_iff_getElem.mp inside
  have below : rank < np := written.length ▸ bound
  obtain ⟨chosen, found, present⟩ := written.ranks rank below
  rw [getElem?_eq_getElem bound, entry, some_inj, Prod.mk.injEq] at present
  exact ⟨rank, below, chosen, found, present⟩

theorem Written.clear (clear : ∀ rank < np, ∀ chosen,
      chosenLine (readLines conf) rank = some chosen →
        chosen.2.executable ≠ colon ∧ colon ∉ splitArguments
          (textOf rank (position np rank chosen) (argPieces chosen.2.args))) :
    ∀ group ∈ groups, colon ∉ group.render := by
  intro group member inside
  obtain ⟨rank, bound, chosen, found, exe, args⟩ := written.group member
  obtain ⟨executable, arguments⟩ := clear rank bound chosen found
  rcases (colon_mem_render group).mp inside with here | there
  · exact executable (exe ▸ here)
  · rw [args] at there
    exact arguments ((colon_mem_splitArguments _ rank _ _).mp there)

theorem Written.clear_of_starts {other : List Group}
    (split : (joined groups).splitOn colon = other.map Group.render)
    (starts : (other.flatMap Group.expand).map some =
      (List.range np).map (programOf np (readLines conf))) :
    ∀ rank < np, ∀ chosen,
      chosenLine (readLines conf) rank = some chosen → Clear np rank chosen := by
  -- what is between two colons is no colon
  have apart : ∀ rank < np, ∀ chosen, chosenLine (readLines conf) rank = some chosen →
        chosen.2.executable ≠ colon ∧ colon ∉ splitArguments
          (textOf rank (position np rank chosen) (argPieces chosen.2.args)) := by
    intro rank bound chosen found
    have member : programOf np (readLines conf) rank ∈ (other.flatMap Group.expand).map some := by
      rw [starts]
      exact mem_map.mpr ⟨rank, mem_range.mpr bound, rfl⟩
    rw [programOf, found, map_some, List.mem_map] at member
    obtain ⟨program, inside, same⟩ := member
    rw [some_inj] at same
    subst same
    obtain ⟨group, listed, exe, args⟩ := mem_expand_render inside
    have part : group.render ∈ (joined groups).splitOn colon := by
      rw [split]
      exact mem_map.mpr ⟨group, listed, rfl⟩
    have clear := not_mem_of_mem_splitOn _ part
    rw [colon_mem_render, not_or] at clear
    dsimp only at exe args
    rw [exe, args] at clear
    exact clear
  -- so the groups that are read back are the ones that were written
  have same : groups = other := by
    rw [splitOn_joined written.nonempty (written.clear apart)] at split
    exact map_injective_iff.mpr (fun _ _ equal => Group.render_injective equal) split
  subst same
  rw [written.expand] at starts
  intro rank bound chosen found
  obtain ⟨executable, args⟩ := apart rank bound chosen found
  refine ⟨?_, executable, args⟩
  obtain ⟨other, otherFound, present⟩ := written.ranks rank bound
  rw [found, some_inj] at otherFound
  subst otherFound
  have entry := congrArg (fun programs => programs[rank]?) starts
  simp only [getElem?_map, present, getElem?_range bound,
    map_some, programOf, found, some_inj,
    Prod.mk.injEq, true_and] at entry
  by_cases used : Piece.offset ∈ argPieces chosen.2.args
  · have small := splitArguments_offset entry used
    left
    rw [← small]
    exact Nat.mod_lt _ (by decide)
  · exact .inr used

end

end Start

/-- The argument vector starts what the configuration says exactly where no
range leads beyond the ranks and nothing to start is a colon. -/
theorem setupArgsFromMultiProg_starts_iff {np : Nat} (positive : 0 < np)
    (conf : CStr) (argV : List CStr) :
    StartsPrograms np conf argV (setupArgsFromMultiProg conf np argV) ↔ Startable np conf := by
  cases found : firstBad np (confEntries conf) with
  | some entry =>
    have result : setupArgsFromMultiProg conf np argV = .error entry.stop := by
      rw [setupArgsFromMultiProg, parseMultiProgConf,
        parseLines_bad (confLines conf) (tableOf_replicate np) found]
    rw [result]
    constructor
    · intro starts
      refine ⟨?_, ?_⟩
      · intro min max range
        rw [found, some_inj] at range
        subst range
        by_contra order
        rw [RankEntry.stop, if_neg order] at starts
        exact starts
      · intro fit
        rw [found] at fit
        cases fit
    · intro startable
      have stop : entry.stop = .exit := by
        cases entry with
        | range min max => exact if_pos (startable.ranges min max found)
        | all => rfl
        | single rank => rfl
        | invalid => rfl
      rw [stop]
      trivial
  | none =>
    by_cases missing : ∃ rank < np, chosenLine (readLines conf) rank = none
    · obtain ⟨rank, bound, absent⟩ := missing
      obtain ⟨mp, parsed, table⟩ := parseLines_fit (confLines conf) (tableOf_replicate np) found
      have entry := table.entries rank bound
      rw [nil_append, progOf] at entry
      change mp[rank]? = some (Option.map _ (chosenLine (readLines conf) rank)) at entry
      rw [absent, map_none] at entry
      have result : setupArgsFromMultiProg conf np argV = .error .exit := by
        rw [setupArgsFromMultiProg, parseMultiProgConf, parsed]
        exact groupPrograms_missing (mem_of_getElem? entry) argV
      rw [result]
      constructor
      · intro _
        refine ⟨?_, ?_⟩
        · intro min max range
          rw [found] at range
          cases range
        · intro _ all
          exact absurd absent (all rank bound)
      · intro _
        trivial
    · have all : ∀ rank < np, chosenLine (readLines conf) rank ≠ none :=
        fun rank bound absent => missing ⟨rank, bound, absent⟩
      obtain ⟨groups, started, result, written⟩ := setupArgs_written positive found all argV
      rw [result]
      constructor
      · rintro ⟨programs, other, same, split, starts⟩
        rw [append_cancel_left_eq] at same
        subst same
        refine ⟨?_, fun _ _ => written.clear_of_starts split starts⟩
        intro min max range
        rw [found] at range
        cases range
      · intro startable
        have clear := startable.programs found all
        refine ⟨joined groups, groups, rfl, ?_, ?_⟩
        · refine splitOn_joined written.nonempty (written.clear ?_)
          intro rank bound chosen chosenFound
          have own := clear rank bound chosen chosenFound
          exact ⟨own.executable, own.args⟩
        · rw [written.expand]
          exact written.starts clear

/-- A range of four ranks for a step of two. -/
def wideRange : CStr := ['0', '-', '3', ' ', 'a']

/-- The entries behind the table are written. -/
theorem wideRange_outOfBounds (argV : List CStr) :
    setupArgsFromMultiProg wideRange 2 argV = .error .outOfBounds := by
  rfl

theorem not_setupArgsFromMultiProg_starts :
    ¬ ∀ (np : Nat) (conf : CStr) (argV : List CStr), 0 < np →
      StartsPrograms np conf argV (setupArgsFromMultiProg conf np argV) := by
  intro starts
  have wide := starts 2 wideRange [] (by decide)
  rw [wideRange_outOfBounds] at wide
  exact wide

theorem wideRange_not_startable : ¬ Startable 2 wideRange := by
  intro startable
  have starts := (setupArgsFromMultiProg_starts_iff (by decide : 0 < 2) wideRange []).mpr startable
  rw [wideRange_outOfBounds] at starts
  exact starts

end Psmgmt.Slurm.MultiProg
