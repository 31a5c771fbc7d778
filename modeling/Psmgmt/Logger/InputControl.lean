import Psmgmt.Library.Counting
import Psmgmt.Logger.Clients

/-!
# The control of the input

The counters of the logger's clients stay in step with the clients' flags as
long as no destinations are set up while a daemon has stopped the input and no
client comes back that was stopped when it left.  Stdin is enabled by a CONT
and by new destinations only, so nothing else may remove the last reason to
keep it disabled.
-/

namespace Psmgmt.Logger

open Counting Finset Option Int

namespace Client

def receives (client : Client) : Bool := client.active && client.tid.isSome

def halted (client : Client) : Bool := client.receives && client.stopped

def missing (client : Client) : Bool := client.active && !client.gone && client.tid.isNone

/-- A reason to keep stdin disabled. -/
def obstructs (client : Client) : Bool := client.halted || client.missing

end Client

namespace State

noncomputable def count (property : Client → Bool) (log : State) : Nat :=
  Counting.count (Finset.Icc log.minRank log.maxRank) (fun rank => property (log.clients rank))

/-- Something keeps the input from being forwarded. -/
def Waits (log : State) : Prop :=
  log.daemonCommStopped = true ∨ ∃ rank, (log.clients rank).obstructs = true

end State

/-- The table holds all ranks that are used. -/
structure Table (log : State) : Prop where
  ordered : log.minRank ≤ log.maxRank
  regular : 0 ≤ log.maxRank
  table : log.maxRank ≤ log.maxClient
  blank : ∀ rank, rank < log.minRank ∨ log.maxRank < rank → log.clients rank = Client.blank
  left : ∀ rank, (log.clients rank).tid = none →
    (log.clients rank).stopped = true → (log.clients rank).gone = true

/-- The counters and the list agree with the flags. -/
structure Counted (log : State) : Prop extends Table log where
  distinct : log.activeClients.Nodup
  members : ∀ rank, rank ∈ log.activeClients ↔ (log.clients rank).receives = true
  receiving : log.nRecvClnts = log.activeClients.length
  active : log.nActvClnts = log.count Client.active
  stops : log.nActvSTOPs = log.count Client.halted + if log.daemonCommStopped then 1 else 0
  disabled : 0 < log.nActvSTOPs → log.stdinDisabled = true

structure Balanced (log : State) : Prop extends Counted log where
  reason : log.stdinDisabled = true → log.Waits

variable {rank : Int}

theorem mem_ranks {first last : Int} : rank ∈ ranks first last ↔ first ≤ rank ∧ rank ≤ last := by
  rw [ranks, List.mem_map]
  constructor
  · rintro ⟨offset, member, rfl⟩
    rw [List.mem_range] at member
    omega
  · rintro ⟨above, below⟩
    refine ⟨(rank - first).toNat, ?_, ?_⟩
    · rw [List.mem_range]
      omega
    · rw [toNat_of_nonneg (by omega)]
      omega

theorem nodup_ranks (first last : Int) : (ranks first last).Nodup := by
  apply List.Nodup.map _ List.nodup_range
  intro one other same
  have equal : first + (one : Int) = first + (other : Int) := same
  omega

namespace Table

variable {log : State}

section

variable (table : Table log)

include table

theorem inside (used : log.clients rank ≠ Client.blank) :
    log.minRank ≤ rank ∧ rank ≤ log.maxRank := by
  by_contra outside
  apply used
  apply table.blank
  omega

theorem inside_of_active (active : (log.clients rank).active = true) :
    log.minRank ≤ rank ∧ rank ≤ log.maxRank := by
  apply table.inside
  intro blank
  rw [blank] at active
  exact Bool.false_ne_true active

theorem inside_of_tid (connected : (log.clients rank).tid ≠ none) :
    log.minRank ≤ rank ∧ rank ≤ log.maxRank := by
  apply table.inside
  intro blank
  rw [blank] at connected
  exact connected rfl

theorem getClientTID (rank : Int) : log.getClientTID rank = (log.clients rank).tid := by
  rw [State.getClientTID]
  split
  · next outside =>
      rw [table.blank rank outside]
      rfl
  · rfl

theorem clientIsActive (rank : Int) : log.clientIsActive rank = (log.clients rank).active := by
  rw [State.clientIsActive]
  split
  · next outside =>
      rw [table.blank rank outside]
      rfl
  · rfl

theorem clientIsStopped (rank : Int) : log.clientIsStopped rank = (log.clients rank).stopped := by
  rw [State.clientIsStopped]
  split
  · next outside =>
      rw [table.blank rank outside]
      rfl
  · rfl

theorem count_change (property : Client → Bool)
    (lacking : property Client.blank = false) (rank : Int) (f : Client → Client)
    (used : rank < log.minRank ∨ log.maxRank < rank → property (f (log.clients rank)) = false) :
    (log.change rank f).count property + (if property (log.clients rank) then 1 else 0) =
      log.count property + (if property (f (log.clients rank)) then 1 else 0) := by
  have others : ∀ other, other ≠ rank →
      property ((log.change rank f).clients other) = property (log.clients other) := by
    intro other different
    rw [State.change_other different]
  by_cases outside : rank < log.minRank ∨ log.maxRank < rank
  · have before : property (log.clients rank) = false := by
      rw [table.blank rank outside]
      exact lacking
    rw [used outside, before]
    simp only [Bool.false_eq_true, if_false, Nat.add_zero]
    apply count_congr
    intro other member
    have inside := mem_Icc.mp member
    apply others
    intro same
    subst same
    exact outside.elim (not_lt.mpr inside.1) (not_lt.mpr inside.2)
  · have member : rank ∈ Finset.Icc log.minRank log.maxRank := by
      rw [mem_Icc]
      omega
    have result := @Counting.count_change _ _ _ (fun other => property (log.clients other))
      (fun other => property ((log.change rank f).clients other)) rank member others
    rw [State.change_self] at result
    exact result

end

end Table

namespace Counted

variable {log : State}

theorem receiving_count (counted : Counted log) : log.nRecvClnts = log.count Client.receives := by
  rw [counted.receiving]
  congr 1
  apply length_eq_count counted.distinct
  intro rank
  rw [counted.members rank, mem_Icc]
  constructor
  · intro receives
    rw [Client.receives, Bool.and_eq_true] at receives
    exact ⟨counted.inside_of_active receives.1, by
      rw [Client.receives, Bool.and_eq_true]
      exact receives⟩
  · exact And.right

theorem allActiveThere (counted : Counted log) : log.allActiveThere = true ↔
      ∀ rank, (log.clients rank).active = true → (log.clients rank).tid ≠ none := by
  have equal := @count_eq_iff _ (Finset.Icc log.minRank log.maxRank)
    (fun rank => (log.clients rank).receives)
    (fun rank => (log.clients rank).active) (by
      intro rank _ receives
      rw [Client.receives, Bool.and_eq_true] at receives
      exact receives.1)
  rw [State.allActiveThere, decide_eq_true_eq, counted.receiving_count, counted.active, natCast_inj]
  refine equal.trans ?_
  constructor
  · intro there rank active
    have receives := there rank (mem_Icc.mpr (counted.inside_of_active active)) active
    rw [Client.receives, Bool.and_eq_true] at receives
    exact isSome_iff_ne_none.mp receives.2
  · intro there rank _ active
    rw [Client.receives, Bool.and_eq_true]
    exact ⟨active, isSome_iff_ne_none.mpr (there rank active)⟩

theorem waits_of_stops (counted : Counted log) (stopped : log.nActvSTOPs ≠ 0) : log.Waits := by
  by_cases daemon : log.daemonCommStopped = true
  · exact .inl daemon
  · have stops := counted.stops
    rw [if_neg daemon] at stops
    have positive : 0 < log.count Client.halted := by omega
    rcases count_pos.mp positive with ⟨rank, _, halted⟩
    exact .inr ⟨rank, by simp [Client.obstructs, halted]⟩

end Counted

section Setup

variable {log : State}

/-- The clients after destinations are set up. -/
theorem Table.mark (table : Table log) (marked : Int → Bool) : Table (log.mark marked) ∧
      ∀ rank, ((log.mark marked).clients rank).active = true →
        ((log.mark marked).clients rank).gone = false := by
  have outside : ∀ rank, rank < log.minRank ∨ log.maxRank < rank →
      (log.mark marked).clients rank = Client.blank := by
    intro rank out
    rw [State.mark]
    refine (if_neg ?_).trans (table.blank rank out)
    omega
  have fields : ∀ rank, ((log.mark marked).clients rank).tid = (log.clients rank).tid ∧
      ((log.mark marked).clients rank).stopped = (log.clients rank).stopped ∧
      ((log.mark marked).clients rank).gone = (log.clients rank).gone := by
    intro rank
    rw [State.mark]
    dsimp only
    split
    · exact ⟨rfl, rfl, rfl⟩
    · exact ⟨rfl, rfl, rfl⟩
  refine ⟨⟨table.ordered, table.regular, table.table, outside, ?_⟩, ?_⟩
  · intro rank
    rcases fields rank with ⟨tid, stopped, gone⟩
    rw [tid, stopped, gone]
    exact table.left rank
  · intro rank active
    by_cases inside : log.minRank ≤ rank ∧ rank ≤ log.maxRank
    · have entry : (log.mark marked).clients rank =
          { log.clients rank with
            active := marked rank && !(log.clients rank).gone } :=
        if_pos inside
      rw [entry] at active ⊢
      rw [Bool.and_eq_true, Bool.not_eq_true'] at active
      exact active.2
    · rw [outside rank (by omega)] at active
      exact absurd active Bool.false_ne_true

/-- The counters set up from the flags. -/
theorem Table.recount (table : Table log)
    (current : ∀ rank, (log.clients rank).active = true → (log.clients rank).gone = false)
    (daemon : log.daemonCommStopped = false) {disabled : Bool}
    (stopped : 0 < log.recount.nActvSTOPs → disabled = true) :
    Counted { log.recount with stdinDisabled := disabled } := by
  have distinct := nodup_ranks log.minRank log.maxRank
  have all : ∀ rank, rank ∈ ranks log.minRank log.maxRank ↔
      rank ∈ Finset.Icc log.minRank log.maxRank := by
    intro rank
    rw [mem_ranks, mem_Icc]
  have listed : ∀ rank, rank ∈ log.recount.activeClients ↔ (log.clients rank).receives = true := by
    intro rank
    simp only [State.recount, List.mem_filter, decide_eq_true_eq,
      Client.receives, Bool.and_eq_true, isSome_iff_ne_none]
    constructor
    · rintro ⟨⟨_, active⟩, connected⟩
      exact ⟨active, connected⟩
    · rintro ⟨active, connected⟩
      exact ⟨⟨mem_ranks.mpr (table.inside_of_active active), active⟩, connected⟩
  refine
    { toTable := ⟨table.ordered, table.regular, table.table, table.blank, table.left⟩
      distinct := (distinct.filter _).filter _
      members := listed
      receiving := rfl
      active := ?_
      stops := ?_
      disabled := stopped }
  · apply congrArg Int.ofNat
    apply length_eq_count (distinct.filter _)
    intro rank
    rw [List.mem_filter, all]
    rfl
  · have halted : ∀ rank, (log.clients rank).halted = true ↔
        (log.clients rank).active = true ∧ (log.clients rank).stopped = true := by
      intro rank
      simp only [Client.halted, Client.receives, Bool.and_eq_true, isSome_iff_ne_none]
      constructor
      · exact fun halted => ⟨halted.1.1, halted.2⟩
      · rintro ⟨active, stop⟩
        refine ⟨⟨active, ?_⟩, stop⟩
        intro left
        have gone := table.left rank left stop
        rw [current rank active] at gone
        exact Bool.false_ne_true gone
    have length := @length_eq_count _ _ _ ((distinct.filter
      (fun rank => (log.clients rank).active)).filter (fun rank => (log.clients rank).stopped))
      (Finset.Icc log.minRank log.maxRank)
      (fun rank => (log.clients rank).halted) (by
        intro rank
        rw [List.mem_filter, List.mem_filter, all, halted, and_assoc])
    have stops : log.recount.nActvSTOPs = log.count Client.halted := congrArg Int.ofNat length
    have unasked : ({ log.recount with
        stdinDisabled := disabled : State }).daemonCommStopped = false :=
      daemon
    rw [unasked]
    exact stops.trans (add_zero _).symm

section

variable (table : Table log) (daemon : log.daemonCommStopped = false)
  (input : Option (List Char))

include table daemon input

theorem Table.setupDestList : Counted (log.setupDestList input) := by
  rcases table.mark (marks (input.getD log.destStr) log.minRank log.maxRank) with ⟨marked, current⟩
  have counted : ∀ dest, Table { log.mark (marks (input.getD log.destStr)
      log.minRank log.maxRank) with destStr := dest } :=
    fun dest => ⟨marked.ordered, marked.regular, marked.table, marked.blank, marked.left⟩
  apply (counted (input.getD log.destStr)).recount current daemon
  intro positive
  exact if_pos (ne_of_gt positive)

theorem Table.setup_reason
    (obstructed : log.stdinDisabled = true → log.nActvSTOPs = 0 →
      ∃ rank, ((log.setupDestList input).clients rank).obstructs = true)
    (disabled : (log.setupDestList input).stdinDisabled = true) :
    (log.setupDestList input).Waits := by
  have counted := table.setupDestList daemon input
  by_cases stopped : (log.setupDestList input).nActvSTOPs ≠ 0
  · exact counted.waits_of_stops stopped
  · have result : (log.setupDestList input).stdinDisabled =
        if log.nActvSTOPs ≠ 0 ∧ (log.setupDestList input).allActiveThere then
          false
        else log.stdinDisabled := if_neg stopped
    rw [result] at disabled
    split at disabled
    · exact absurd disabled Bool.false_ne_true
    · next waiting =>
        by_cases before : log.nActvSTOPs = 0
        · exact .inr (obstructed disabled before)
        · have absent : ¬∀ rank, ((log.setupDestList input).clients rank).active = true →
                ((log.setupDestList input).clients rank).tid ≠ none :=
            fun there => waiting ⟨before, counted.allActiveThere.mpr there⟩
          rw [not_forall] at absent
          rcases absent with ⟨rank, absent⟩
          rw [Classical.not_imp, not_not] at absent
          have current := (table.mark (marks (input.getD log.destStr)
            log.minRank log.maxRank)).2 rank absent.1
          have gone : ((log.setupDestList input).clients rank).gone = false := current
          refine .inr ⟨rank, ?_⟩
          simp [Client.obstructs, Client.missing, absent.1, absent.2, gone]

end

end Setup

namespace State

/-- The table is enlarged for a rank, which sets up the destinations again. -/
def grows (rank : Int) (log : State) : Bool := rank < log.minRank || log.maxClient < rank

/-- The client is active once the table holds `rank`. -/
def remains (rank other : Int) (log : State) : Bool :=
  if log.grows rank then
    min rank log.minRank ≤ other && other ≤ log.maxRank &&
      (marks log.destStr (min rank log.minRank) log.maxRank other && !(log.clients other).gone)
  else (log.clients other).active

/-- All clients are destinations. -/
def toAll (log : State) : Bool :=
  match tokens log.destStr with
  | [] => false
  | first :: _ => isAll first

/-- The client becomes active as the ranks are extended to `rank`. -/
def joins (rank other : Int) (log : State) : Bool :=
  log.toAll && log.maxRank < other && other ≤ rank

/-- The client is active when `rank` is registered. -/
def expects (rank other : Int) (log : State) : Bool :=
  log.remains rank other || log.joins rank other

end State

/-- The logger once its table holds `rank`. -/
structure Reached (rank : Int) (before after : State) : Prop where
  counted : Counted after
  minRank : after.minRank ≤ rank
  maxClient : rank ≤ after.maxClient
  maxRank : after.maxRank = before.maxRank
  daemon : after.daemonCommStopped = before.daemonCommStopped
  destStr : after.destStr = before.destStr
  clients : ∀ other, after.clients other =
    { before.clients other with active := before.remains rank other }
  stdin : after.stdinDisabled = true → after.nActvSTOPs ≠ 0 ∨ before.stdinDisabled = true ∧
      ¬(before.grows rank = true ∧ before.nActvSTOPs ≠ 0 ∧
        ∀ other, before.remains rank other = true → (before.clients other).tid ≠ none)

section Register

variable {log after : State} {rank : Int}

theorem Table.grow (table : Table log) {newMin newMax : Int}
    (lower : newMin ≤ log.minRank) (upper : log.maxClient ≤ newMax) :
    Table { log with minRank := newMin, maxClient := newMax } ∧
      (¬(newMin = log.minRank ∧ newMax = log.maxClient) → log.growClients newMin newMax =
          some (State.setupDestList none { log with minRank := newMin, maxClient := newMax })) := by
  have ordered := table.ordered
  have fits := table.table
  refine ⟨⟨?_, table.regular, ?_, ?_, table.left⟩, ?_⟩
  · exact lower.trans ordered
  · exact fits.trans upper
  · intro rank outside
    exact table.blank rank (outside.imp_left (fun below => by
      have bound : rank < newMin := below
      omega))
  · intro different
    have blank : (fun rank =>
        if newMin ≤ rank ∧ rank < log.minRank ∨
            log.maxClient < rank ∧ rank ≤ newMax then Client.blank
        else log.clients rank) = log.clients := by
      funext rank
      split
      · next fresh =>
          refine (table.blank rank ?_).symm
          omega
      · rfl
    rw [State.growClients, if_neg (by omega), if_neg different, blank]

theorem Table.reach (table : Table log) (small : -2 ^ 31 ≤ rank ∧ rank < 2 ^ 31)
    (reached : log.reach rank = some after) :
    (log.grows rank = false ∧ after = log) ∨
      (log.grows rank = true ∧ ∃ newMax, log.maxClient ≤ newMax ∧
        rank ≤ newMax ∧ after = State.setupDestList none
          { log with
            minRank := min rank log.minRank, maxClient := newMax }) := by
  have ordered := table.ordered
  have regular := table.regular
  have fits := table.table
  rw [State.reach] at reached
  split at reached
  · next below =>
      rw [(table.grow (le_of_lt below) (le_refl _)).2 (by omega)]
        at reached
      refine .inr ⟨by simp [State.grows, below], log.maxClient, le_refl _, by omega, ?_⟩
      rw [min_eq_left (le_of_lt below)]
      exact (Option.some.inj reached).symm
  · next above =>
      split at reached
      · next beyond =>
          rw [BitVec.toInt_ofInt] at reached
          by_cases large : (2 * rank).bmod (2 ^ 32) < log.maxClient
          · rw [State.growClients, if_pos (.inr large)] at reached
            cases reached
          · have double : (2 * rank).bmod (2 ^ 32) = 2 * rank := by
              rw [Int.bmod] at large ⊢
              omega
            rw [double] at reached
            rw [(table.grow (le_refl _) (by omega)).2 (by omega)]
              at reached
            refine .inr ⟨by simp [State.grows, beyond], 2 * rank, by omega, by omega, ?_⟩
            rw [min_eq_right (by omega)]
            exact (Option.some.inj reached).symm
      · next inside =>
          refine .inl ⟨?_, (Option.some.inj reached).symm⟩
          simp only [State.grows, Bool.or_eq_false_iff, decide_eq_false_iff_not]
          exact ⟨above, inside⟩

/-- What growing the table leaves. -/
theorem Counted.reach (counted : Counted log) (small : -2 ^ 31 ≤ rank ∧ rank < 2 ^ 31)
    (daemon : log.grows rank = true → log.daemonCommStopped = false)
    (reached : log.reach rank = some after) : Reached rank log after := by
  rcases counted.toTable.reach small reached with
    ⟨stays, rfl⟩ | ⟨grows, newMax, upper, inside, rfl⟩
  · have bounds := stays
    simp only [State.grows, Bool.or_eq_false_iff, decide_eq_false_iff_not]
      at bounds
    refine ⟨counted, by omega, by omega, rfl, rfl, rfl, ?_, ?_⟩
    · intro other
      rw [State.remains, stays]
      rfl
    · intro disabled
      refine .inr ⟨disabled, ?_⟩
      rw [stays]
      exact fun grows => Bool.false_ne_true grows.1
  · have table := (counted.toTable.grow (min_le_right rank log.minRank) upper).1
    have set := table.setupDestList (daemon grows) none
    have clients : ∀ other, (State.setupDestList none
        { log with minRank := min rank log.minRank
                   maxClient := newMax }).clients other =
        { log.clients other with active := log.remains rank other } := by
      intro other
      have entry : (State.setupDestList none
          { log with minRank := min rank log.minRank
                     maxClient := newMax }).clients other =
          if min rank log.minRank ≤ other ∧ other ≤ log.maxRank then
            { log.clients other with
              active := marks log.destStr (min rank log.minRank) log.maxRank
                other && !(log.clients other).gone }
          else log.clients other := rfl
      rw [entry, State.remains, if_pos grows]
      by_cases known : min rank log.minRank ≤ other ∧ other ≤ log.maxRank
      · rw [if_pos known]
        simp [known.1, known.2]
      · have blank := table.blank other (by
          dsimp only
          omega)
        have unused : log.clients other = Client.blank := blank
        have outside : (min rank log.minRank ≤ other && other ≤ log.maxRank) =
            false := by
          rw [Bool.and_eq_false_iff, decide_eq_false_iff_not, decide_eq_false_iff_not]
          exact not_and_or.mp known
        rw [if_neg known, unused, outside, Bool.false_and]
        rfl
    refine ⟨set, min_le_left _ _, inside, rfl, rfl, rfl, clients, ?_⟩
    intro disabled
    by_cases stopped : (State.setupDestList none
        { log with minRank := min rank log.minRank
                   maxClient := newMax }).nActvSTOPs ≠ 0
    · exact .inl stopped
    · have result : (State.setupDestList none
          { log with minRank := min rank log.minRank
                     maxClient := newMax }).stdinDisabled =
          if log.nActvSTOPs ≠ 0 ∧ (State.setupDestList none
              { log with minRank := min rank log.minRank
                         maxClient := newMax }).allActiveThere then false
          else log.stdinDisabled := if_neg stopped
      rw [result] at disabled
      split at disabled
      · exact absurd disabled Bool.false_ne_true
      · next waiting =>
          refine .inr ⟨disabled, ?_⟩
          rintro ⟨_, before, there⟩
          apply waiting
          refine ⟨before, set.allActiveThere.mpr ?_⟩
          intro other active
          rw [clients other] at active ⊢
          exact there other active

/-- New ranks are blank but for the flag of a destination. -/
theorem Table.extend_eq (table : Table log) (beyond : log.maxRank < rank) : log.extend rank =
      { log with
        maxRank := rank
        destStr := truncated log.destStr
        clients := fun other =>
          if log.maxRank < other ∧ other ≤ rank then
            { Client.blank with active := log.toAll }
          else log.clients other
        nActvClnts := log.nActvClnts +
          if log.toAll then rank - log.maxRank else 0 } := by
  have fresh : ∀ other, log.maxRank < other → log.clients other = Client.blank :=
    fun other new => table.blank other (.inr new)
  have same : ∀ active : Bool, (fun other =>
      if log.maxRank < other ∧ other ≤ rank then
        { log.clients other with active := active }
      else log.clients other) = fun other =>
      if log.maxRank < other ∧ other ≤ rank then
        { Client.blank with active := active }
      else log.clients other := by
    intro active
    funext other
    split
    · next new => rw [fresh other new.1]
    · rfl
  have idle : (fun other =>
      if log.maxRank < other ∧ other ≤ rank then
        { Client.blank with active := false }
      else log.clients other) = log.clients := by
    funext other
    split
    · next new => exact (fresh other new.1).symm
    · rfl
  rw [State.extend, if_pos beyond, State.toAll]
  cases tokens log.destStr with
  | nil =>
    dsimp only
    rw [idle, if_neg Bool.false_ne_true, add_zero]
  | cons first rest =>
    dsimp only
    by_cases all : isAll first = true
    · rw [if_pos all, if_pos all, same true, all]
    · rw [if_neg all, if_neg all, Bool.eq_false_iff.mpr all, idle, add_zero]

theorem Table.extend_count (table : Table log) (beyond : log.maxRank < rank)
    (property : Client → Bool) :
    ((log.extend rank).count property : Int) = log.count property +
      if property { Client.blank with active := log.toAll } then
        rank - log.maxRank
      else 0 := by
  have ordered := table.ordered
  have small : Finset.Icc log.minRank log.maxRank ⊆ Finset.Icc log.minRank rank := by
    apply Finset.Icc_subset_Icc_right
    exact le_of_lt beyond
  have rest : ∀ other, other ∈ Finset.Icc log.minRank rank \
      Finset.Icc log.minRank log.maxRank → log.maxRank < other ∧ other ≤ rank := by
    intro other member
    rw [mem_sdiff, mem_Icc, mem_Icc] at member
    omega
  rw [table.extend_eq beyond, State.count, State.count]
  dsimp only
  rw [count_superset small, Nat.cast_add]
  congr 1
  · rw [Nat.cast_inj]
    apply count_congr
    intro other member
    have known := (mem_Icc.mp member).2
    rw [if_neg (by omega)]
  · split
    · next having =>
        rw [count_all, card_sdiff_of_subset small, card_Icc, card_Icc]
        · omega
        · intro other member
          rw [if_pos (rest other member)]
          exact having
    · next lacking =>
        rw [count_none, Nat.cast_zero]
        intro other member
        rw [if_pos (rest other member)]
        exact Bool.eq_false_iff.mpr lacking

theorem Counted.extend (counted : Counted log) (lower : log.minRank ≤ rank)
    (upper : rank ≤ log.maxClient) :
    Counted (log.extend rank) ∧ rank ≤ (log.extend rank).maxRank ∧
      (log.extend rank).minRank = log.minRank ∧
      (log.extend rank).daemonCommStopped = log.daemonCommStopped ∧
      (log.extend rank).nActvSTOPs = log.nActvSTOPs ∧
      (log.extend rank).stdinDisabled = log.stdinDisabled ∧
      ∀ other, (log.extend rank).clients other =
        { log.clients other with
          active := (log.clients other).active || log.joins rank other } := by
  by_cases beyond : log.maxRank < rank
  · have equal := counted.extend_eq beyond
    have regular := counted.regular
    have ordered := counted.ordered
    have clients : ∀ other, (log.extend rank).clients other =
        { log.clients other with
          active := (log.clients other).active || log.joins rank other } := by
      intro other
      rw [equal]
      dsimp only
      split
      · next new =>
          rw [counted.blank other (.inr new.1)]
          simp [State.joins, new.1, new.2, Client.blank]
      · next old =>
          have outside : log.joins rank other = false := by
            simp only [State.joins, Bool.and_eq_false_iff, decide_eq_false_iff_not]
            omega
          rw [outside, Bool.or_false]
    have receives : ∀ other, ((log.extend rank).clients other).receives =
        (log.clients other).receives := by
      intro other
      rw [clients other, Client.receives, Client.receives]
      cases joined : log.joins rank other with
      | false => rw [Bool.or_false]
      | true =>
        simp only [State.joins, Bool.and_eq_true, decide_eq_true_eq]
          at joined
        rw [counted.blank other (.inr joined.1.2)]
        rfl
    refine ⟨?_, ?_, ?_, ?_, ?_, ?_, clients⟩
    · refine
        { toTable := ?_
          distinct := ?_
          members := ?_
          receiving := ?_
          active := ?_
          stops := ?_
          disabled := ?_ }
      · refine ⟨?_, ?_, ?_, ?_, ?_⟩
        · rw [equal]
          exact lower
        · rw [equal]
          dsimp only
          omega
        · rw [equal]
          exact upper
        · intro other outside
          rw [equal] at outside ⊢
          dsimp only at outside ⊢
          rw [if_neg (by omega)]
          apply counted.blank
          omega
        · intro other
          rw [clients other]
          exact counted.left other
      · rw [equal]
        exact counted.distinct
      · intro other
        rw [receives other, equal]
        exact counted.members other
      · rw [equal]
        exact counted.receiving
      · rw [counted.extend_count beyond, equal]
        dsimp only
        rw [counted.active]
      · have silent : ({ Client.blank with
            active := log.toAll } : Client).halted = false := by
          rw [Client.halted, Client.receives]
          simp [Client.blank]
        rw [counted.extend_count beyond, silent, if_neg Bool.false_ne_true, add_zero, equal]
        exact counted.stops
      · rw [equal]
        exact counted.disabled
    · rw [equal]
    · rw [equal]
    · rw [equal]
    · rw [equal]
    · rw [equal]
  · have equal : log.extend rank = log := if_neg beyond
    rw [equal]
    refine ⟨counted, not_lt.mp beyond, rfl, rfl, rfl, rfl, ?_⟩
    intro other
    have outside : log.joins rank other = false := by
      simp only [State.joins, Bool.and_eq_false_iff, decide_eq_false_iff_not]
      omega
    rw [outside, Bool.or_false]

end Register

end Psmgmt.Logger
