import Psmgmt.Logger.InputControl

/-!
# Changes of a client

What the operations on one client do to the counters and to the list of active
clients.
-/

namespace Psmgmt.Logger

open Counting List Option Client State

/-- The fields of a client that count. -/
def Client.core (client : Client) : Client := { client with released := false, kvs := false }

theorem Client.core_fields {first second : Client}
    (same : first.core = second.core) :
    first.tid = second.tid ∧ first.active = second.active ∧
      first.stopped = second.stopped ∧ first.gone = second.gone := by
  have tid := congrArg Client.tid same
  have active := congrArg Client.active same
  have stopped := congrArg Client.stopped same
  have gone := congrArg Client.gone same
  exact ⟨tid, active, stopped, gone⟩

structure Changed (rank : Int) (f : Client → Client) (before after : State) :
    Prop where
  table : Table after
  clients : ∀ other, (after.clients other).core = ((before.change rank f).clients other).core
  minRank : after.minRank = before.minRank
  maxRank : after.maxRank = before.maxRank
  active : after.nActvClnts = before.nActvClnts
  distinct : after.activeClients.Nodup
  members : ∀ other, other ∈ after.activeClients ↔
    if other = rank then (f (before.clients rank)).receives = true
    else other ∈ before.activeClients
  receiving : after.nRecvClnts = after.activeClients.length
  stops : after.nActvSTOPs + (if (before.clients rank).halted then 1 else 0) +
      (if before.daemonCommStopped then 1 else 0) =
    before.nActvSTOPs + (if (f (before.clients rank)).halted then 1 else 0) +
      (if after.daemonCommStopped then 1 else 0)
  disabled : 0 < after.nActvSTOPs → after.stdinDisabled = true

section Change

variable {log after : State} {rank : Int} {f : Client → Client}

theorem Changed.count (changed : Changed rank f log after) (property : Client → Bool)
    (core : ∀ client, property client.core = property client) :
    after.count property = (log.change rank f).count property := by
  rw [State.count, State.count, changed.minRank, changed.maxRank]
  apply count_congr
  intro other _
  rw [← core, changed.clients other, core]

theorem Counted.change (counted : Counted log) (inside : log.minRank ≤ rank ∧ rank ≤ log.maxRank)
    (kept : (f (log.clients rank)).active = (log.clients rank).active)
    (changed : Changed rank f log after) : Counted after := by
  have bounded : rank < log.minRank ∨ log.maxRank < rank → False := by
    omega
  have receives : ∀ other, (after.clients other).receives =
      ((log.change rank f).clients other).receives := by
    intro other
    have same := congrArg Client.receives (changed.clients other)
    exact same
  refine
    { toTable := changed.table
      distinct := changed.distinct
      members := ?_
      receiving := changed.receiving
      active := ?_
      stops := ?_
      disabled := changed.disabled }
  · intro other
    rw [changed.members other, receives other]
    split
    · next same => rw [same, change_self]
    · next different =>
        rw [change_other different]
        exact counted.members other
  · have total := counted.count_change Client.active rfl rank f
      (fun outside => (bounded outside).elim)
    rw [kept] at total
    rw [changed.active, counted.active, changed.count Client.active (fun _ => rfl)]
    omega
  · have total := counted.count_change Client.halted rfl rank f
      (fun outside => (bounded outside).elim)
    have before := counted.stops
    have books := changed.stops
    zify at total
    rw [changed.count Client.halted (fun _ => rfl)]
    linarith

theorem Table.change (table : Table log)
    (inside : log.minRank ≤ rank ∧ rank ≤ log.maxRank)
    (left : (f (log.clients rank)).tid = none →
      (f (log.clients rank)).stopped = true → (f (log.clients rank)).gone = true) :
    Table (log.change rank f) := by
  refine ⟨table.ordered, table.regular, table.table, ?_, ?_⟩
  · intro other outside
    have bounds : other < log.minRank ∨ log.maxRank < other := outside
    rw [change_other (by omega)]
    exact table.blank other bounds
  · intro other
    by_cases same : other = rank
    · rw [same, change_self]
      exact left
    · rw [change_other same]
      exact table.left other

theorem State.active_inside (inside : log.minRank ≤ rank ∧ rank ≤ log.maxRank) :
    log.clientIsActive rank = (log.clients rank).active := by
  apply if_neg
  omega

theorem State.stopped_inside (inside : log.minRank ≤ rank ∧ rank ≤ log.maxRank) :
    log.clientIsStopped rank = (log.clients rank).stopped := by
  apply if_neg
  omega

def Client.connected (tid : Tid) (kvs : Bool) (client : Client) : Client :=
  { client with tid := some tid, kvs := kvs }

theorem State.connect_eq (inside : log.minRank ≤ rank ∧ rank ≤ log.maxRank)
    (free : (log.clients rank).tid = none) (tid : Tid) (kvs : Bool) :
    log.connect rank tid kvs =
      { log.change rank (Client.connected tid kvs) with
        nClnts := log.nClnts + 1
        nTaskClnts :=
          if rank > -1 then log.nTaskClnts + 1 else log.nTaskClnts
        activeClients :=
          if (log.clients rank).active then log.activeClients ++ [rank]
          else log.activeClients
        nRecvClnts :=
          if (log.clients rank).active then log.nRecvClnts + 1
          else log.nRecvClnts } := by
  rw [State.connect, if_neg (not_not.mpr free)]
  dsimp only
  rw [active_inside]
  · dsimp only
    rw [change_self]
    dsimp only
    split
    · rfl
    · rfl
  · exact inside

theorem Counted.connect (counted : Counted log)
    (inside : log.minRank ≤ rank ∧ rank ≤ log.maxRank)
    (free : (log.clients rank).tid = none)
    (fresh : (log.clients rank).active = true →
      (log.clients rank).stopped = false) (tid : Tid) (kvs : Bool) :
    Counted (log.connect rank tid kvs) := by
  have table : Table (log.change rank (Client.connected tid kvs)) :=
    counted.toTable.change inside (fun absent => by cases absent)
  have outside : rank ∉ log.activeClients := by
    rw [counted.members, Client.receives, free, isSome_none, Bool.and_false]
    exact Bool.false_ne_true
  have silent : (log.clients rank).halted = false := by
    rw [Client.halted, Client.receives, free, isSome_none, Bool.and_false, Bool.false_and]
  have quiet : ((log.clients rank).connected tid kvs).halted = false := by
    cases expected : (log.clients rank).active with
    | false => simp [Client.halted, Client.receives, Client.connected, expected]
    | true => simp [Client.halted, Client.connected, fresh expected]
  have receives : ((log.clients rank).connected tid kvs).receives =
      (log.clients rank).active := Bool.and_true _
  rw [connect_eq inside free]
  apply @Counted.change log _ rank (Client.connected tid kvs) counted inside
    rfl
  refine
    { table := ⟨table.ordered, table.regular, table.table, table.blank, table.left⟩
      clients := fun _ => rfl
      minRank := rfl
      maxRank := rfl
      active := rfl
      distinct := ?_
      members := ?_
      receiving := ?_
      stops := ?_
      disabled := counted.disabled }
  · dsimp only
    split
    · apply counted.distinct.append (nodup_singleton rank)
      rw [disjoint_singleton]
      exact outside
    · exact counted.distinct
  · intro other
    dsimp only
    rw [receives]
    split
    · next expected =>
        rw [mem_append, mem_singleton, expected]
        by_cases same : other = rank
        · simp [same]
        · simp [same]
    · next unexpected =>
        by_cases same : other = rank
        · rw [if_pos same, same]
          exact iff_of_false outside unexpected
        · rw [if_neg same]
  · dsimp only
    split
    · rw [counted.receiving, length_append, length_singleton, Nat.cast_add, Nat.cast_one]
    · exact counted.receiving
  · rw [silent, quiet]
    rfl

end Change

/-- The entry of a client that leaves. -/
def Client.departed (client : Client) : Client := { client with tid := none, gone := true }

/-- A client's entry is marked to be gone, the books are untouched. -/
structure Departed (rank : Int) (before after : State) : Prop where
  table : Table after
  clients : ∀ other, (after.clients other).core =
    ((before.change rank Client.departed).clients other).core
  minRank : after.minRank = before.minRank
  maxRank : after.maxRank = before.maxRank
  activeClients : after.activeClients = before.activeClients
  nActvClnts : after.nActvClnts = before.nActvClnts
  nRecvClnts : after.nRecvClnts = before.nRecvClnts
  nActvSTOPs : after.nActvSTOPs = before.nActvSTOPs
  daemon : after.daemonCommStopped = before.daemonCommStopped
  stdin : after.stdinDisabled = before.stdinDisabled

section Departure

variable {log after : State} {rank : Int}

/-- Telling the service processes to exit changes nothing else. -/
theorem Departed.releaseServices (left : Departed rank log after) :
    Departed rank log after.releaseServices := by
  have core : ∀ other, (after.releaseServices.clients other).core = (after.clients other).core := by
    intro other
    rw [State.releaseServices]
    dsimp only
    split
    · rfl
    · rfl
  have same : ∀ other, after.clients other = Client.blank →
      after.releaseServices.clients other = Client.blank := by
    intro other blank
    rw [State.releaseServices]
    dsimp only
    split
    · next service => simp [blank, Client.blank] at service
    · exact blank
  have table := left.table
  refine ⟨⟨table.ordered, table.regular, table.table, ?_, ?_⟩, ?_,
    left.minRank, left.maxRank, left.activeClients, left.nActvClnts,
    left.nRecvClnts, left.nActvSTOPs, left.daemon, left.stdin⟩
  · intro other outside
    exact same other (table.blank other outside)
  · intro other
    rcases core_fields (core other) with ⟨tid, _, stopped, gone⟩
    rw [tid, stopped, gone]
    exact table.left other
  · intro other
    exact (core other).trans (left.clients other)

theorem State.disconnect_eq
    (inside : log.minRank ≤ rank ∧ rank ≤ log.maxRank) :
    log.disconnect rank =
      { log with
        nActvSTOPs :=
          if (log.clients rank).active ∧ (log.clients rank).stopped then
            log.nActvSTOPs - 1
          else log.nActvSTOPs
        activeClients :=
          if (log.clients rank).active ∧ rank ∈ log.activeClients then
            log.activeClients.erase rank
          else log.activeClients
        nRecvClnts :=
          if (log.clients rank).active ∧ rank ∈ log.activeClients then
            log.nRecvClnts - 1
          else log.nRecvClnts } := by
  rw [State.disconnect, active_inside inside, stopped_inside inside]
  by_cases active : (log.clients rank).active = true
  · by_cases stopped : (log.clients rank).stopped = true
    · by_cases listed : rank ∈ log.activeClients
      · simp [active, stopped, listed]
      · simp [active, stopped, listed]
    · by_cases listed : rank ∈ log.activeClients
      · simp [active, stopped, listed]
      · simp [active, stopped, listed]
  · simp [active]

theorem Counted.disconnect (counted : Counted log)
    (inside : log.minRank ≤ rank ∧ rank ≤ log.maxRank) (connected : (log.clients rank).tid ≠ none)
    (left : Departed rank log after) : Counted (after.disconnect rank) := by
  have entry := left.clients rank
  rw [change_self] at entry
  have active : (after.clients rank).active = (log.clients rank).active := (core_fields entry).2.1
  have stopped : (after.clients rank).stopped = (log.clients rank).stopped :=
    (core_fields entry).2.2.1
  have here : (log.clients rank).tid.isSome = true := isSome_iff_ne_none.mpr connected
  have listed : rank ∈ log.activeClients ↔ (log.clients rank).active = true := by
    rw [counted.members, Client.receives, here, Bool.and_true]
  have absent : ¬(log.clients rank).departed.receives = true := by
    rw [Client.receives, Client.departed, isSome_none, Bool.and_false]
    exact Bool.false_ne_true
  have silent : (log.clients rank).departed.halted = false := by
    rw [Client.halted, Bool.eq_false_iff.mpr absent, Bool.false_and]
  have noisy : (log.clients rank).halted = true ↔
      (log.clients rank).active = true ∧ (log.clients rank).stopped = true := by
    rw [Client.halted, Client.receives, here, Bool.and_true, Bool.and_eq_true]
  have table := left.table
  rw [disconnect_eq (by rw [left.minRank, left.maxRank]; exact inside),
    active, stopped, left.activeClients, left.nRecvClnts, left.nActvSTOPs]
  apply @Counted.change log _ rank Client.departed counted inside rfl
  refine
    { table := ⟨table.ordered, table.regular, table.table, table.blank, table.left⟩
      clients := left.clients
      minRank := left.minRank
      maxRank := left.maxRank
      active := left.nActvClnts
      distinct := ?_
      members := ?_
      receiving := ?_
      stops := ?_
      disabled := ?_ }
  · dsimp only
    split
    · exact counted.distinct.erase rank
    · exact counted.distinct
  · intro other
    dsimp only
    by_cases same : other = rank
    · rw [if_pos same, same]
      refine iff_of_false ?_ absent
      split
      · exact counted.distinct.not_mem_erase
      · next unlisted =>
          intro member
          exact unlisted ⟨listed.mp member, member⟩
    · rw [if_neg same]
      split
      · exact mem_erase_of_ne same
      · exact Iff.rfl
  · dsimp only
    split
    · next found =>
        have positive := length_pos_of_mem found.2
        rw [counted.receiving, length_erase_of_mem found.2]
        omega
    · exact counted.receiving
  · dsimp only
    rw [left.daemon, silent]
    simp only [noisy, Bool.false_eq_true, if_false]
    split
    · omega
    · omega
  · intro positive
    dsimp only at positive ⊢
    rw [left.stdin]
    apply counted.disabled
    split at positive
    · omega
    · exact positive

end Departure

/-- The entry of a client that sets or clears its stop. -/
def Client.setStopped (value : Bool) (client : Client) : Client := { client with stopped := value }

section Messages

variable {log : State} {rank : Int} {sender : Tid}

theorem Table.sentBy (table : Table log)
    (sent : log.sentBy rank sender = true) :
    (log.clients rank).tid = some sender ∧ log.minRank ≤ rank ∧ rank ≤ log.maxRank := by
  rw [State.sentBy, decide_eq_true_eq, table.getClientTID] at sent
  refine ⟨sent, table.inside_of_tid ?_⟩
  rw [sent]
  exact some_ne_none sender

theorem Client.halted_of_tid {client : Client} {tid : Tid}
    (connected : client.tid = some tid) :
    client.halted = (client.active && client.stopped) := by
  rw [Client.halted, Client.receives, connected, isSome_some, Bool.and_true]

theorem Counted.stops_nonneg (counted : Counted log) : 0 ≤ log.nActvSTOPs := by
  rw [counted.stops]
  split
  · omega
  · omega

theorem Counted.setStopped (counted : Counted log) {value : Bool}
    (connected : (log.clients rank).tid = some sender) {stops : Int}
    {disabled : Bool}
    (adapted : stops +
        (if (log.clients rank).active ∧ (log.clients rank).stopped then 1
          else 0) =
      log.nActvSTOPs + (if (log.clients rank).active ∧ value then 1 else 0))
    (stopped : 0 < stops → disabled = true) :
    Counted { log.change rank (Client.setStopped value) with
      nActvSTOPs := stops, stdinDisabled := disabled } := by
  have inside : log.minRank ≤ rank ∧ rank ≤ log.maxRank := by
    apply counted.inside_of_tid
    rw [connected]
    exact some_ne_none sender
  have connected' : ((log.clients rank).setStopped value).tid = some sender := connected
  have table : Table (log.change rank (Client.setStopped value)) := by
    apply counted.toTable.change inside
    intro absent
    rw [connected'] at absent
    cases absent
  apply @Counted.change log _ rank (Client.setStopped value) counted inside
    rfl
  refine
    { table := ⟨table.ordered, table.regular, table.table, table.blank, table.left⟩
      clients := fun _ => rfl
      minRank := rfl
      maxRank := rfl
      active := rfl
      distinct := counted.distinct
      members := ?_
      receiving := counted.receiving
      stops := ?_
      disabled := stopped }
  · intro other
    split
    · next same =>
        rw [same]
        exact counted.members rank
    · exact Iff.rfl
  · rw [halted_of_tid connected, halted_of_tid connected']
    have equal : stops +
          (if ((log.clients rank).active && (log.clients rank).stopped) = true
            then 1 else 0) =
        log.nActvSTOPs + (if ((log.clients rank).active && value) = true then 1 else 0) := by
      simp only [Bool.and_eq_true]
      exact adapted
    exact congrArg (fun total => total + if log.daemonCommStopped then 1 else 0) equal

theorem State.handleSTOPMsg_eq (sent : log.sentBy rank sender = true) :
    log.handleSTOPMsg rank sender =
      { log.change rank (Client.setStopped true) with
        nActvSTOPs :=
          if log.clientIsActive rank ∧ ¬log.clientIsStopped rank then
            log.nActvSTOPs + 1
          else log.nActvSTOPs
        stdinDisabled :=
          if log.clientIsActive rank ∧ ¬log.clientIsStopped rank then
            if log.nActvSTOPs = 0 then true else log.stdinDisabled
          else log.stdinDisabled } := by
  have kept : ¬log.sentBy rank sender = false := by
    rw [sent]
    exact Bool.false_ne_true.symm
  rw [State.handleSTOPMsg, if_neg kept]
  dsimp only
  split
  · rfl
  · rfl

theorem State.handleCONTMsg_eq (sent : log.sentBy rank sender = true) :
    log.handleCONTMsg rank sender =
      { log.change rank (Client.setStopped false) with
        nActvSTOPs :=
          if log.clientIsActive rank ∧ log.clientIsStopped rank then
            log.nActvSTOPs - 1
          else log.nActvSTOPs
        stdinDisabled :=
          if log.clientIsActive rank ∧ log.clientIsStopped rank then
            log.dropStop.stdinDisabled
          else log.stdinDisabled } := by
  have kept : ¬log.sentBy rank sender = false := by
    rw [sent]
    exact Bool.false_ne_true.symm
  rw [State.handleCONTMsg, if_neg kept]
  dsimp only
  split
  · rfl
  · rfl

theorem Counted.handleSTOPMsg (counted : Counted log)
    (sent : log.sentBy rank sender = true) :
    Counted (log.handleSTOPMsg rank sender) := by
  rcases counted.sentBy sent with ⟨connected, inside⟩
  have positive := counted.stops_nonneg
  rw [handleSTOPMsg_eq sent, counted.clientIsActive, counted.clientIsStopped]
  apply counted.setStopped connected
  · by_cases active : (log.clients rank).active = true
    · by_cases stopped : (log.clients rank).stopped = true
      · simp [active, stopped]
      · simp [active, stopped]
    · simp [active]
  · split
    · intro _
      split
      · rfl
      · next more =>
          apply counted.disabled
          omega
    · exact counted.disabled

theorem State.dropStop_disabled (stopped : 0 < log.nActvSTOPs - 1)
    (disabled : log.stdinDisabled = true) :
    log.dropStop.stdinDisabled = true := by
  rw [State.dropStop]
  dsimp only
  rw [if_neg (by omega)]
  exact disabled

theorem Counted.handleCONTMsg (counted : Counted log)
    (sent : log.sentBy rank sender = true) :
    Counted (log.handleCONTMsg rank sender) := by
  rcases counted.sentBy sent with ⟨connected, inside⟩
  rw [handleCONTMsg_eq sent, counted.clientIsActive, counted.clientIsStopped]
  apply counted.setStopped connected
  · by_cases active : (log.clients rank).active = true
    · by_cases stopped : (log.clients rank).stopped = true
      · simp [active, stopped]
      · simp [active, stopped]
    · simp [active]
  · split
    · intro stopped
      apply dropStop_disabled stopped
      apply counted.disabled
      omega
    · exact counted.disabled

theorem Counted.handleSENDSTOP (counted : Counted log) : Counted log.handleSENDSTOP := by
  have positive := counted.stops_nonneg
  have stops := counted.stops
  have table := counted.toTable
  cases daemon : log.daemonCommStopped with
  | true =>
    rw [State.handleSENDSTOP, daemon, if_neg Bool.false_ne_true.symm, ← daemon]
    exact counted
  | false =>
    rw [State.handleSENDSTOP, daemon, if_pos rfl]
    refine
      { toTable := ⟨table.ordered, table.regular, table.table, table.blank, table.left⟩
        distinct := counted.distinct
        members := counted.members
        receiving := counted.receiving
        active := counted.active
        stops := ?_
        disabled := ?_ }
    · rw [daemon, if_neg Bool.false_ne_true, Int.add_zero] at stops
      rw [if_pos rfl]
      exact congrArg (fun number => number + 1) stops
    · intro _
      rw [State.addStop]
      dsimp only
      split
      · rfl
      · next more =>
          apply counted.disabled
          omega

theorem Counted.handleSENDCONT (counted : Counted log) : Counted log.handleSENDCONT := by
  have stops := counted.stops
  have table := counted.toTable
  cases daemon : log.daemonCommStopped with
  | false =>
    rw [State.handleSENDCONT, daemon, if_neg Bool.false_ne_true, ← daemon]
    exact counted
  | true =>
    rw [State.handleSENDCONT, daemon, if_pos rfl]
    refine
      { toTable := ⟨table.ordered, table.regular, table.table, table.blank, table.left⟩
        distinct := counted.distinct
        members := counted.members
        receiving := counted.receiving
        active := counted.active
        stops := ?_
        disabled := ?_ }
    · rw [daemon, if_pos rfl] at stops
      rw [if_neg Bool.false_ne_true, Int.add_zero]
      refine (congrArg (fun number => number - 1) stops).trans ?_
      exact Int.add_sub_cancel _ _
    · intro stopped
      have more : 0 < log.nActvSTOPs - 1 := stopped
      apply dropStop_disabled more
      apply counted.disabled
      omega

end Messages

end Psmgmt.Logger
