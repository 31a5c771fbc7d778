import Psmgmt.Logger.Changes

/-!
# Runs of the logger

The condition under which the control of the input stays balanced, and that it
does in all runs whose steps meet it.
-/

namespace Psmgmt.Logger

open Option Client State

/-- What the counters, the list and stdin are to be. -/
structure State.Controlled (log : State) : Prop where
  stops : log.nActvSTOPs =
    ((Finset.Icc log.minRank log.maxRank).filter (fun rank =>
      (log.clients rank).tid ≠ none ∧ (log.clients rank).active = true ∧
        (log.clients rank).stopped = true)).card +
      if log.daemonCommStopped then 1 else 0
  nonneg : 0 ≤ log.nActvSTOPs
  distinct : log.activeClients.Nodup
  members : ∀ rank, rank ∈ log.activeClients ↔ log.minRank ≤ rank ∧ rank ≤ log.maxRank ∧
      (log.clients rank).tid ≠ none ∧ (log.clients rank).active = true
  length : log.nRecvClnts = log.activeClients.length
  disabled : 0 < log.nActvSTOPs → log.stdinDisabled = true
  enabled :
    (∀ rank, log.minRank ≤ rank → rank ≤ log.maxRank →
      (log.clients rank).tid ≠ none → (log.clients rank).active = true →
        (log.clients rank).stopped = false) →
    log.daemonCommStopped = false →
    (∀ rank, log.minRank ≤ rank → rank ≤ log.maxRank →
      (log.clients rank).active = true → (log.clients rank).gone = false →
        (log.clients rank).tid ≠ none) →
    log.stdinDisabled = false

/-- Another client, active once `rank` is registered, is stopped or still to
connect. -/
def State.OtherExpected (rank : Int) (log : State) : Prop :=
  ∃ other, other ≠ rank ∧ log.expects rank other = true ∧
    if (log.clients other).tid = none then (log.clients other).gone = false
    else (log.clients other).stopped = true

/-- Another client is stopped or still to connect. -/
def State.OtherObstructs (rank : Int) (log : State) : Prop :=
  ∃ other, other ≠ rank ∧ (log.clients other).obstructs = true

/-- Every active client is connected, also those that are gone. -/
def State.AllThere (log : State) : Prop :=
  ∀ rank, (log.clients rank).active = true → (log.clients rank).tid ≠ none

/-- The call of `setupDestList()` finding the table grown enables stdin. -/
def State.Reopens (rank : Int) (log : State) : Prop :=
  log.grows rank = true ∧ log.nActvSTOPs ≠ 0 ∧
    ∀ other, log.remains rank other = true → (log.clients other).tid ≠ none

/-- The client is connected, active and stopped. -/
def State.Halts (rank : Int) (log : State) : Prop := (log.clients rank).halted = true

/-- The calls that keep the control of the input balanced. -/
def Fits (call : Call) (log : State) : Prop :=
  match call with
  | .setupDestList input =>
    -- a daemon's stop is forgotten, and stdin enabled after stops only
    log.daemonCommStopped = false ∧
      (log.stdinDisabled = true → log.nActvSTOPs = 0 →
        ∃ rank, log.minRank ≤ rank ∧ rank ≤ log.maxRank ∧
          marks input log.minRank log.maxRank rank = true ∧ (log.clients rank).gone = false ∧
              ((log.clients rank).tid = none ∨ (log.clients rank).stopped = true))
  | .registerClient rank _ _ =>
    (log.clients rank.toInt).tid = none →
      (log.grows rank.toInt = true → log.daemonCommStopped = false) ∧
      -- a stop from before the client has left is not counted again
      ((log.clients rank.toInt).active = true → (log.clients rank.toInt).stopped = false) ∧
      -- the last client expected does not enable stdin
      (log.stdinDisabled = true →
        log.daemonCommStopped = true ∨ log.OtherExpected rank.toInt ∨ log.Reopens rank.toInt)
  | .deregisterClient rank =>
    -- neither does the last stopped client by leaving
    log.Halts rank.toInt → log.daemonCommStopped = true ∨ log.OtherObstructs rank.toInt
  | .handleCONTMsg rank sender =>
    -- clients that are gone are waited for
    log.sentBy rank.toInt sender = true → log.Halts rank.toInt →
      log.daemonCommStopped = true ∨ log.OtherObstructs rank.toInt ∨ log.AllThere
  | .handleSENDCONT =>
    log.daemonCommStopped = true → (∃ rank, (log.clients rank).obstructs = true) ∨ log.AllThere
  | .handleSTOPMsg _ _ => True
  | .handleSENDSTOP => True

/-- The logger as long as its calls keep the control of the input balanced. -/
def inputSystem : TransitionSystem State where
  initial := State.Initial
  step before after := ∃ call, Fits call before ∧ before.perform call = some after

theorem Balanced.controlled {log : State} (balanced : Balanced log) : log.Controlled := by
  have receives : ∀ rank, (log.clients rank).receives = true ↔
      (log.clients rank).tid ≠ none ∧ (log.clients rank).active = true := by
    intro rank
    rw [Client.receives, Bool.and_eq_true, isSome_iff_ne_none, and_comm]
  refine
    { stops := ?_
      nonneg := balanced.stops_nonneg
      distinct := balanced.distinct
      members := ?_
      length := balanced.receiving
      disabled := balanced.disabled
      enabled := ?_ }
  · have halted : ∀ rank, (log.clients rank).halted = true ↔ (log.clients rank).tid ≠ none ∧
          (log.clients rank).active = true ∧ (log.clients rank).stopped = true := by
      intro rank
      rw [Client.halted, Bool.and_eq_true, receives rank, and_assoc]
    simp only [← halted]
    exact balanced.stops
  · intro rank
    rw [balanced.members rank, receives rank]
    constructor
    · rintro ⟨connected, active⟩
      rcases balanced.inside_of_active active with ⟨above, below⟩
      exact ⟨above, below, connected, active⟩
    · rintro ⟨_, _, connected, active⟩
      exact ⟨connected, active⟩
  · intro running daemon there
    by_contra disabled
    rw [Bool.not_eq_false] at disabled
    rcases balanced.reason disabled with stopped | ⟨rank, obstructs⟩
    · rw [daemon] at stopped
      exact Bool.false_ne_true stopped
    · rw [Client.obstructs, Bool.or_eq_true] at obstructs
      rcases obstructs with halted | missing
      · rw [Client.halted, Bool.and_eq_true, receives rank] at halted
        rcases balanced.inside_of_active halted.1.2 with ⟨above, below⟩
        have runs := running rank above below halted.1.1 halted.1.2
        rw [runs] at halted
        exact Bool.false_ne_true halted.2
      · rw [Client.missing, Bool.and_eq_true, Bool.and_eq_true,
          Bool.not_eq_true', isNone_iff_eq_none] at missing
        rcases balanced.inside_of_active missing.1.1 with ⟨above, below⟩
        exact there rank above below missing.1.1 missing.1.2 missing.2

/-- A logger that has just been initialized. -/
theorem balanced_initial {log : State} (initial : log.Initial) : Balanced log := by
  rcases initial with ⟨minRank, maxRank, dest, ordered, regular, rfl⟩
  have table : ∀ log : State, log.minRank = minRank →
      log.maxRank = maxRank → log.maxClient = maxRank →
        log.clients = (fun _ => Client.blank) → Table log := by
    intro log lower upper size blank
    refine ⟨?_, ?_, ?_, ?_, ?_⟩
    · rw [lower, upper]
      exact ordered
    · rw [upper]
      exact regular
    · rw [upper, size]
    · intro rank _
      rw [blank]
    · intro rank _ stopped
      rw [blank] at stopped
      exact absurd stopped Bool.false_ne_true
  have start := table
    { clients := fun _ => Client.blank, activeClients := [], nClnts := 0
      nTaskClnts := 0, nActvClnts := 0, nRecvClnts := 0, nActvSTOPs := 0
      minRank := minRank, maxRank := maxRank, maxClient := maxRank
      destStr := dest, daemonCommStopped := false, stdinDisabled := false
      exiting := [] } rfl rfl rfl rfl
  refine ⟨start.setupDestList rfl none, ?_⟩
  apply start.setup_reason rfl none
  intro disabled
  exact absurd disabled Bool.false_ne_true

section Steps

variable {log after : State} {rank : Int}

section

variable
  (daemon : log.daemonCommStopped = true → after.daemonCommStopped = true)
  (others : ∀ other, other ≠ rank → (log.clients other).obstructs = true →
    (after.clients other).obstructs = true)

include daemon others

/-- Something else keeps the input from being forwarded. -/
theorem waits_of_other
    (reason : log.daemonCommStopped = true ∨ log.OtherObstructs rank) :
    after.Waits := by
  rcases reason with stopped | ⟨other, different, obstructs⟩
  · exact .inl (daemon stopped)
  · exact .inr ⟨other, others other different obstructs⟩

/-- A reason other than the client's stop remains. -/
theorem waits_of_waits (own : (log.clients rank).obstructs = true →
      (after.clients rank).obstructs = true) (waits : log.Waits) :
    after.Waits := by
  rcases waits with stopped | ⟨other, obstructs⟩
  · exact .inl (daemon stopped)
  · by_cases same : other = rank
    · rw [same] at obstructs
      exact .inr ⟨rank, own obstructs⟩
    · exact .inr ⟨other, others other same obstructs⟩

end

theorem Balanced.setupDestList (balanced : Balanced log)
    {input : List Char} (fits : Fits (.setupDestList input) log) :
    Balanced (log.setupDestList (some input)) := by
  rcases fits with ⟨daemon, obstructed⟩
  have table := balanced.toTable
  refine ⟨table.setupDestList daemon (some input), ?_⟩
  apply table.setup_reason daemon (some input)
  intro disabled unstopped
  rcases obstructed disabled unstopped with
    ⟨rank, above, below, marked, present, waiting⟩
  refine ⟨rank, ?_⟩
  have entry : (log.setupDestList (some input)).clients rank =
      { log.clients rank with
        active := marks input log.minRank log.maxRank rank &&
          !(log.clients rank).gone } := if_pos ⟨above, below⟩
  rw [entry, Client.obstructs]
  cases connected : (log.clients rank).tid with
  | none => simp [Client.missing, connected, marked, present]
  | some tid =>
    rw [connected] at waiting
    rcases waiting with absent | stopped
    · cases absent
    · simp [Client.halted, Client.receives, connected, marked, present, stopped]

/-- The logger once the table and the ranks are extended for a client. -/
structure Prepared (rank : Int) (before after : State) : Prop where
  counted : Counted after
  inside : after.minRank ≤ rank ∧ rank ≤ after.maxRank
  daemon : after.daemonCommStopped = before.daemonCommStopped
  clients : ∀ other, after.clients other =
    { before.clients other with active := before.expects rank other }
  stdin : after.stdinDisabled = true →
    after.nActvSTOPs ≠ 0 ∨ before.stdinDisabled = true ∧ ¬before.Reopens rank

theorem Counted.prepare (counted : Counted log) (small : -2 ^ 31 ≤ rank ∧ rank < 2 ^ 31)
    (daemon : log.grows rank = true → log.daemonCommStopped = false)
    (reached : log.reach rank = some after) :
    Prepared rank log (after.extend rank) := by
  have reach := counted.reach small daemon reached
  rcases reach.counted.extend reach.minRank reach.maxClient with
    ⟨extended, maxRank, minRank, kept, stops, stdin, clients⟩
  refine ⟨extended, ?_, ?_, ?_, ?_⟩
  · rw [minRank]
    exact ⟨reach.minRank, maxRank⟩
  · rw [kept, reach.daemon]
  · intro other
    rw [clients other, reach.clients other, State.expects]
    dsimp only
    rw [State.joins, State.joins, State.toAll, State.toAll, reach.destStr, reach.maxRank]
  · rw [stdin, stops]
    exact reach.stdin

theorem Prepared.fresh (prepared : Prepared rank log after) (table : Table log)
    (unstopped : (log.clients rank).active = true → (log.clients rank).stopped = false)
    (active : (after.clients rank).active = true) :
    (after.clients rank).stopped = false := by
  have ordered := table.ordered
  have fits := table.table
  rw [prepared.clients rank] at active ⊢
  dsimp only at active ⊢
  by_cases inside : log.minRank ≤ rank ∧ rank ≤ log.maxRank
  · have stays : log.grows rank = false := by
      simp only [State.grows, Bool.or_eq_false_iff, decide_eq_false_iff_not]
      omega
    have known : log.joins rank rank = false := by
      simp only [State.joins, Bool.and_eq_false_iff, decide_eq_false_iff_not]
      omega
    rw [State.expects, State.remains, stays, known, Bool.or_false] at active
    exact unstopped active
  · rw [table.blank rank (by omega)]
    rfl

theorem Balanced.registerClient (balanced : Balanced log) {rank : BitVec 32} {tid : Tid}
    {kvs : Bool} (fits : Fits (.registerClient rank tid kvs) log)
    (registered : log.registerClient rank.toInt tid kvs = some after) :
    Balanced after := by
  have small : -2 ^ 31 ≤ rank.toInt ∧ rank.toInt < 2 ^ 31 := ⟨BitVec.le_toInt rank, BitVec.toInt_lt⟩
  rw [State.registerClient, map_eq_some_iff] at registered
  rcases registered with ⟨reached, reach, rfl⟩
  by_cases free : (log.clients rank.toInt).tid = none
  · rcases fits free with ⟨daemon, unstopped, expected⟩
    have prepared := balanced.prepare small daemon reach
    have absent : ((reached.extend rank.toInt).clients rank.toInt).tid =
        none := by
      rw [prepared.clients]
      exact free
    have counted := prepared.counted.connect prepared.inside absent
      (prepared.fresh balanced.toTable unstopped) tid kvs
    refine ⟨counted, ?_⟩
    intro disabled
    have connect := connect_eq prepared.inside absent tid kvs
    have stops : ((reached.extend rank.toInt).connect rank.toInt tid
        kvs).nActvSTOPs = (reached.extend rank.toInt).nActvSTOPs := by
      rw [connect]
      rfl
    rw [connect] at disabled
    rcases prepared.stdin disabled with stopped | ⟨before, closed⟩
    · apply counted.waits_of_stops
      rw [stops]
      exact stopped
    · rcases expected before with stopped | other | reopens
      · refine .inl ?_
        rw [connect]
        exact prepared.daemon.trans stopped
      · rcases other with ⟨other, different, active, waiting⟩
        refine .inr ⟨other, ?_⟩
        have entry : ((reached.extend rank.toInt).connect rank.toInt tid kvs).clients other =
            { log.clients other with active := true } := by
          rw [connect, ← active, ← prepared.clients other]
          exact change_other different _ _
        rw [entry, Client.obstructs]
        cases connected : (log.clients other).tid with
        | none =>
          rw [if_pos connected] at waiting
          simp [Client.missing, connected, waiting]
        | some sender =>
          rw [connected, if_neg (some_ne_none sender)] at waiting
          simp [Client.halted, Client.receives, connected, waiting]
      · exact absurd reopens closed
  · have inside := balanced.inside_of_tid free
    have size := balanced.table
    have stays : log.reach rank.toInt = some log := by
      rw [State.reach, if_neg (by omega), if_neg (by omega)]
    rw [stays] at reach
    have same := Option.some.inj reach
    rw [← same, State.extend, if_neg (by omega), State.connect, if_pos free]
    exact balanced

/-- What `deregisterClient()` does to a connected client. -/
theorem Table.deregisterClient (table : Table log)
    (deregistered : log.deregisterClient rank = some after) :
    after = log ∨ (log.clients rank).tid ≠ none ∧
      ∃ left, Departed rank log left ∧ after = left.disconnect rank := by
  rw [State.deregisterClient] at deregistered
  split at deregistered
  · cases deregistered
  · next inside =>
      rw [table.getClientTID] at deregistered
      split at deregistered
      · exact .inl (Option.some.inj deregistered).symm
      · next connected =>
          have changed : Table (log.change rank Client.departed) :=
            table.change (by omega) (fun _ _ => rfl)
          have left : ∀ nClnts nTaskClnts, Departed rank log
              { log.change rank Client.departed with
                nClnts := nClnts, nTaskClnts := nTaskClnts } := by
            intro nClnts nTaskClnts
            exact ⟨⟨changed.ordered, changed.regular, changed.table,
              changed.blank, changed.left⟩, fun _ => rfl, rfl, rfl, rfl, rfl,
              rfl, rfl, rfl, rfl⟩
          refine .inr ⟨connected, ?_⟩
          dsimp only at deregistered
          split at deregistered
          · split at deregistered
            · exact ⟨_, (left _ _).releaseServices, (Option.some.inj deregistered).symm⟩
            · exact ⟨_, left (log.nClnts - 1) (log.nTaskClnts - 1),
                (Option.some.inj deregistered).symm⟩
          · exact ⟨_, left (log.nClnts - 1) log.nTaskClnts, (Option.some.inj deregistered).symm⟩

theorem Client.obstructs_core {first second : Client}
    (same : first.core = second.core) :
    first.obstructs = second.obstructs := by
  rcases core_fields same with ⟨tid, active, stopped, gone⟩
  rw [Client.obstructs, Client.halted, Client.receives, Client.missing, tid, active, stopped, gone]
  rfl

theorem Client.obstructs_of_tid {client : Client}
    (connected : client.tid ≠ none) :
    client.obstructs = client.halted := by
  rw [Client.obstructs, Client.missing,
    isNone_eq_false_iff.mpr (isSome_iff_ne_none.mpr connected),
    Bool.and_false, Bool.or_false]

theorem Balanced.deregisterClient (balanced : Balanced log)
    {rank : BitVec 32} (fits : Fits (.deregisterClient rank) log)
    (deregistered : log.deregisterClient rank.toInt = some after) :
    Balanced after := by
  rcases balanced.toTable.deregisterClient deregistered with
    rfl | ⟨connected, left, departed, rfl⟩
  · exact balanced
  · have inside := balanced.inside_of_tid connected
    refine ⟨balanced.disconnect inside connected departed, ?_⟩
    have bounds : left.minRank ≤ rank.toInt ∧ rank.toInt ≤ left.maxRank := by
      rw [departed.minRank, departed.maxRank]
      exact inside
    have equal := disconnect_eq bounds
    intro disabled
    have before : log.stdinDisabled = true := by
      rw [equal] at disabled
      exact departed.stdin.symm.trans disabled
    have daemon : log.daemonCommStopped = true →
        (left.disconnect rank.toInt).daemonCommStopped = true := by
      intro stopped
      rw [equal]
      exact departed.daemon.trans stopped
    have others : ∀ other, other ≠ rank.toInt → (log.clients other).obstructs = true →
          ((left.disconnect rank.toInt).clients other).obstructs = true := by
      intro other different obstructs
      have entry := departed.clients other
      rw [change_other different] at entry
      rw [equal]
      exact (obstructs_core entry).trans obstructs
    by_cases halts : log.Halts rank.toInt
    · exact waits_of_other daemon others (fits halts)
    · apply waits_of_waits daemon others _ (balanced.reason before)
      intro obstructs
      rw [obstructs_of_tid connected] at obstructs
      exact absurd obstructs halts

theorem others_of_change {f : Client → Client}
    (changed : after.clients = (log.change rank f).clients) (other : Int) (different : other ≠ rank)
    (obstructs : (log.clients other).obstructs = true) :
    (after.clients other).obstructs = true := by
  rw [changed, change_other different]
  exact obstructs

theorem Balanced.handleSTOPMsg (balanced : Balanced log) (sender : Tid) :
    Balanced (log.handleSTOPMsg rank sender) := by
  cases sent : log.sentBy rank sender with
  | false =>
    rw [State.handleSTOPMsg, if_pos sent]
    exact balanced
  | true =>
    rcases balanced.sentBy sent with ⟨connected, _⟩
    have known : (log.clients rank).tid ≠ none := by
      rw [connected]
      exact some_ne_none sender
    have positive := balanced.stops_nonneg
    have counted := balanced.toCounted.handleSTOPMsg sent
    have equal := handleSTOPMsg_eq sent
    refine ⟨counted, ?_⟩
    intro disabled
    by_cases stopping : log.clientIsActive rank = true ∧ ¬log.clientIsStopped rank = true
    · apply counted.waits_of_stops
      rw [equal]
      dsimp only
      rw [if_pos stopping]
      omega
    · rw [if_neg stopping, if_neg stopping] at equal
      have clients : (log.handleSTOPMsg rank sender).clients =
          (log.change rank (Client.setStopped true)).clients := by
        rw [equal]
      have before : log.stdinDisabled = true := by
        rw [equal] at disabled
        exact disabled
      have daemon : (log.handleSTOPMsg rank sender).daemonCommStopped = log.daemonCommStopped := by
        rw [equal]
        rfl
      apply waits_of_waits daemon.trans (others_of_change clients) _ (balanced.reason before)
      intro obstructs
      rw [obstructs_of_tid known, halted_of_tid connected, Bool.and_eq_true] at obstructs
      have connected' : ((log.clients rank).setStopped true).tid = some sender := connected
      rw [clients, change_self, Client.obstructs, halted_of_tid connected']
      simp [Client.setStopped, obstructs.1]

/-- A request less: stdin is enabled if no other is left and no client is
missing. -/
theorem Counted.waits_of_dropped (before : Counted log) (counted : Counted after)
    (others : State.Waits after ∨ log.AllThere) (stops : after.nActvSTOPs = log.nActvSTOPs - 1)
    (stdin : after.stdinDisabled = log.dropStop.stdinDisabled)
    (disabled : after.stdinDisabled = true) : after.Waits := by
  rcases others with waits | there
  · exact waits
  · apply counted.waits_of_stops
    intro last
    have enabled : log.dropStop.stdinDisabled = false := by
      rw [State.dropStop]
      dsimp only
      apply if_pos
      exact ⟨stops.symm.trans last, before.allActiveThere.mpr there⟩
    rw [stdin, enabled] at disabled
    exact Bool.false_ne_true disabled

theorem Balanced.handleCONTMsg (balanced : Balanced log) {rank : BitVec 32} {sender : Tid}
    (fits : Fits (.handleCONTMsg rank sender) log) :
    Balanced (log.handleCONTMsg rank.toInt sender) := by
  cases sent : log.sentBy rank.toInt sender with
  | false =>
    rw [State.handleCONTMsg, if_pos sent]
    exact balanced
  | true =>
    rcases balanced.sentBy sent with ⟨connected, inside⟩
    have known : (log.clients rank.toInt).tid ≠ none := by
      rw [connected]
      exact some_ne_none sender
    have halted := halted_of_tid connected
    have counted := balanced.toCounted.handleCONTMsg sent
    have equal := handleCONTMsg_eq sent
    have clients : (log.handleCONTMsg rank.toInt sender).clients =
        (log.change rank.toInt (Client.setStopped false)).clients := by
      rw [equal]
    have daemon : (log.handleCONTMsg rank.toInt sender).daemonCommStopped =
        log.daemonCommStopped := by
      rw [equal]
      rfl
    have others := others_of_change clients
    refine ⟨counted, ?_⟩
    intro disabled
    by_cases running : log.clientIsActive rank.toInt = true ∧ log.clientIsStopped rank.toInt = true
    · have halts : log.Halts rank.toInt := by
        rw [balanced.clientIsActive, balanced.clientIsStopped] at running
        rw [State.Halts, halted, Bool.and_eq_true]
        exact running
      rw [if_pos running, if_pos running] at equal
      have stops : (log.handleCONTMsg rank.toInt sender).nActvSTOPs = log.nActvSTOPs - 1 := by
        rw [equal]
      have stdin : (log.handleCONTMsg rank.toInt sender).stdinDisabled =
          log.dropStop.stdinDisabled := by
        rw [equal]
      apply balanced.waits_of_dropped counted _ stops stdin disabled
      rcases fits sent halts with stopped | other | there
      · exact .inl (waits_of_other daemon.trans others (.inl stopped))
      · exact .inl (waits_of_other daemon.trans others (.inr other))
      · exact .inr there
    · have before : log.stdinDisabled = true := by
        rw [equal] at disabled
        dsimp only at disabled
        rw [if_neg running] at disabled
        exact disabled
      apply waits_of_waits daemon.trans others _ (balanced.reason before)
      intro obstructs
      rw [obstructs_of_tid known, halted, Bool.and_eq_true,
        ← balanced.clientIsActive, ← balanced.clientIsStopped] at obstructs
      exact absurd obstructs running

theorem Balanced.handleSENDSTOP (balanced : Balanced log) : Balanced log.handleSENDSTOP :=
  ⟨balanced.toCounted.handleSENDSTOP, fun _ => .inl rfl⟩

theorem Balanced.handleSENDCONT (balanced : Balanced log)
    (fits : Fits .handleSENDCONT log) : Balanced log.handleSENDCONT := by
  have counted := balanced.toCounted.handleSENDCONT
  cases daemon : log.daemonCommStopped with
  | false =>
    rw [State.handleSENDCONT, daemon, if_neg Bool.false_ne_true, ← daemon]
    exact balanced
  | true =>
    refine ⟨counted, ?_⟩
    intro disabled
    rw [State.handleSENDCONT, daemon, if_pos rfl] at counted disabled ⊢
    apply balanced.waits_of_dropped counted _ rfl rfl disabled
    exact (fits daemon).imp_left .inr

/-- What one call does to the control of the input. -/
theorem Balanced.perform (balanced : Balanced log) {call : Call}
    (fits : Fits call log) (performed : log.perform call = some after) :
    Balanced after := by
  cases call with
  | registerClient rank tid kvs => exact balanced.registerClient fits performed
  | deregisterClient rank => exact balanced.deregisterClient fits performed
  | handleSTOPMsg rank sender =>
    rw [← Option.some.inj performed]
    exact balanced.handleSTOPMsg sender
  | handleCONTMsg rank sender =>
    rw [← Option.some.inj performed]
    exact balanced.handleCONTMsg fits
  | handleSENDSTOP =>
    rw [← Option.some.inj performed]
    exact balanced.handleSENDSTOP
  | handleSENDCONT =>
    rw [← Option.some.inj performed]
    exact balanced.handleSENDCONT fits
  | setupDestList input =>
    rw [← Option.some.inj performed]
    exact balanced.setupDestList fits

end Steps

theorem invariant_balanced : inputSystem.Invariant Balanced where
  initial := fun _ initial => balanced_initial initial
  step := by
    rintro before after balanced ⟨call, fits, performed⟩
    exact balanced.perform fits performed

/-- The control of the input stays balanced in all runs that meet the
condition. -/
theorem reachable_controlled {log : State}
    (reachable : inputSystem.Reachable log) : log.Controlled :=
  (invariant_balanced.reachable reachable).controlled

/-- A logger whose only client is connected. -/
def served : State := ((State.initClients (-2) 0 ['0']).extend 0).connect 0 100 false

theorem served_eq : (State.initClients (-2) 0 ['0']).registerClient 0 100 false = some served := rfl

theorem reachable_controlled_stopped : (served.handleSTOPMsg 0 100).nActvSTOPs = 1 ∧
      (served.handleSTOPMsg 0 100).stdinDisabled = true ∧
        (served.handleSTOPMsg 0 100).Controlled := by
  refine ⟨by decide +kernel, by decide +kernel, reachable_controlled
    (.step (.step (.initial ⟨-2, 0, ['0'], by decide, by decide, rfl⟩)
      ⟨.registerClient 0 100 false, ?_, served_eq⟩)
      ⟨.handleSTOPMsg 0 100, trivial, rfl⟩)⟩
  intro _
  refine ⟨by decide +kernel, by decide +kernel, ?_⟩
  intro disabled
  exact absurd disabled (by decide +kernel)

/-- New destinations let the stop of a daemon be forgotten. -/
theorem not_reachable_controlled : ¬∀ log, loggerSystem.Reachable log → log.Controlled := by
  intro controlled
  have start : loggerSystem.Reachable served :=
    .step (.initial ⟨-2, 0, ['0'], by decide, by decide, rfl⟩)
      ⟨.registerClient 0 100 false, served_eq⟩
  have run : loggerSystem.Reachable
      ((served.handleSENDSTOP.setupDestList (some ['a', 'l', 'l'])).handleSENDCONT) :=
    .step (.step (.step start ⟨.handleSENDSTOP, rfl⟩)
      ⟨.setupDestList ['a', 'l', 'l'], rfl⟩) ⟨.handleSENDCONT, rfl⟩
  exact absurd (controlled _ run).nonneg (by decide +kernel)

end Psmgmt.Logger
