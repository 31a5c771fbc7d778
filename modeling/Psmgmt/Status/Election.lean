import Psmgmt.Status.Daemon

/-!
# Electing the master

What a daemon knows about the nodes that are up and about the master, between
its steps and while it is sending.
-/

namespace Psmgmt.Status

open List Function

/-- Where a daemon is: the nodes it is bringing down, those whose hooks are
called before the election, whether it is about to be the master, and whether
no other node can come up. -/
structure Phase where
  me : Nat
  dying : List Nat
  rising : List Nat
  starting : Bool
  alone : Bool

def Phase.idle (me : Nat) : Phase :=
  { me := me, dying := [], rising := [], starting := false, alone := false }

/-- The variables the election is about. -/
structure View where
  myID : Nat
  nrOfNodes : Nat
  up : Nat → Bool
  totNodes : Int
  master : Nat
  known : Bool
  client : Bool
  part : Bool
  shutdown : Bool

def view (d : Daemon) : View :=
  { myID := d.myID, nrOfNodes := d.nrOfNodes, up := d.up,
    totNodes := d.totNodes, master := getMasterID d, known := knowMaster d,
    client := d.clientStat.isSome, part := d.nodeStat,
    shutdown := d.shutdown }

def View.nodes (v : View) : Finset Nat := (Finset.range v.nrOfNodes).filter (fun n => v.up n = true)

variable {d : Daemon} {v : View} {newMaster id me : Nat}

theorem mem_nodes {n : Nat} : n ∈ (view d).nodes ↔ isUp d n = true := by
  unfold View.nodes isUp
  rw [Finset.mem_filter, Finset.mem_range]
  simp [view]

/-- No node but the own one has come up and been noticed. -/
def Phase.Alone (phase : Phase) (v : View) : Prop := ∀ n ∈ v.nodes, n = phase.me ∨ n ∈ phase.rising

/-- A node that may be the master. -/
structure Candidate (phase : Phase) (v : View) (master : Nat) : Prop where
  below : master ≤ phase.me
  least : ∀ n ∈ v.nodes, n ∉ phase.rising → master ≤ n
  alive : master = phase.me ∨ master ∈ v.nodes ∨ master ∈ phase.dying

/-- A master is known. -/
structure Elected (phase : Phase) (v : View) : Prop where
  candidate : Candidate phase v v.master
  client : v.client = true ↔ v.master = phase.me
  part : phase.starting = false → (v.part = true ↔ v.master = phase.me)

/-- No master is known. -/
structure Unelected (phase : Phase) (v : View) : Prop where
  master : v.master = 0
  client : v.client = false
  part : v.part = false
  alone : phase.Alone v

structure Holds (phase : Phase) (v : View) : Prop where
  total : v.totNodes = v.nodes.card
  unknown : v.known = false → Unelected phase v
  known : v.known = true → Elected phase v
  starting : phase.starting = true → v.known = true ∧ v.master = phase.me
  alone : phase.alone = true → phase.Alone v
  rising : ∀ n ∈ phase.rising, n ∈ v.nodes

/-- RDP reports no node as lost while the functions at `PSIDHOOK_NODE_UP` are
called for it. -/
def Quiet (hookReplies : Nat → Nat → Reply) : Prop :=
  ∀ node n, .lostConnection node ∉ (hookReplies node n).events

/-- Going from phase `before` to `phase`. -/
structure Between (before phase : Phase) (d : Daemon) : Prop where
  identity : d.myID = phase.me
  quiet : ∀ n, ∀ node ∈ phase.rising, .lostConnection node ∉ (d.replies n).events
  hooks : Quiet d.hookReplies
  election : d.shutdown = false → Holds before (view d)

abbrev Settled (phase : Phase) (d : Daemon) : Prop := Between phase phase d

theorem Settled.of_view {phase : Phase} {d' : Daemon} (settled : Settled phase d)
    (same : view d' = view d) (replies : d'.replies = d.replies := by rfl)
    (hookReplies : d'.hookReplies = d.hookReplies := by rfl) :
    Settled phase d' := by
  constructor
  · exact (congrArg View.myID same).trans settled.identity
  · exact replies ▸ settled.quiet
  · exact hookReplies ▸ settled.hooks
  · intro running
    have before : d.shutdown = false := (congrArg View.shutdown same).symm.trans running
    exact same ▸ settled.election before

/-- Messages to the own node. -/
def Harmless (me : Nat) : Message → Prop
  | .daemonConnect sender => sender = me
  | .daemonEstablished sender _ => sender = me
  | .daemonShutdown _ => False
  | _ => True

def Allowed (phase : Phase) : Upcall → Prop
  | .rdp (.lostConnection node) => node ∉ phase.rising
  | .rdp _ => True
  | .handle msg => Harmless phase.me msg

def Safe (cb : Upcall → Daemon → Daemon) : Prop :=
  ∀ phase upcall d, Allowed phase upcall → Settled phase d → Settled phase (cb upcall d)

section Sending

variable {cb : Upcall → Daemon → Daemon} {phase : Phase} {d : Daemon}

theorem events_settled (safe : Safe cb) (events : List RdpEvent)
    (allowed : ∀ event ∈ events, Allowed phase (.rdp event)) (settled : Settled phase d) :
    Settled phase (events.foldl (fun d event => cb (.rdp event) d) d) := by
  induction events generalizing d with
  | nil => exact settled
  | cons event events induction =>
    have first := safe phase _ d (allowed event mem_cons_self) settled
    exact induction (fun other member => allowed other (mem_cons_of_mem event member)) first

section

variable (safe : Safe cb) (settled : Settled phase d)

include safe settled

theorem exchange_settled : Settled phase (exchange cb d).2 := by
  refine events_settled safe _ ?_ (settled.of_view rfl)
  intro event member
  cases event with
  | newConnection node => trivial
  | dropConnect dest => trivial
  | lostConnection node =>
    intro rises
    exact settled.quiet d.sent node rises member

theorem traffic_settled : Settled phase (traffic cb d) := exchange_settled safe settled

theorem clearRDPMsgs_settled : Settled phase (clearRDPMsgs cb d) := traffic_settled safe settled

theorem sendMsg_settled (dest : Nat) (msg : Message)
    (harmless : Harmless phase.me msg) :
    Settled phase (sendMsg cb dest msg d).2 := by
  unfold sendMsg
  split
  · exact safe phase (.handle msg) d harmless settled
  · have sent := exchange_settled safe settled
    generalize exchange cb d = result at sent
    obtain ⟨errno, after⟩ := result
    dsimp only
    split
    · dsimp only
      split
      · exact safe phase (.rdp (.dropConnect dest)) after trivial sent
      · exact sent
    · exact sent

theorem sendDaemonConnect_settled (id : Nat) : Settled phase (sendDaemonConnect cb id d).2 :=
  sendMsg_settled safe settled id _ settled.identity

theorem sendMasterIs_settled (dest : Nat) : Settled phase (sendMasterIs cb dest d) :=
  sendMsg_settled safe settled dest _ trivial

theorem sendGetTasks_settled (node : Nat) : Settled phase (sendGetTasks cb node d) :=
  sendMsg_settled safe settled node _ trivial

theorem sendOptions_settled (node : Nat) : Settled phase (sendOptions cb node d) :=
  sendMsg_settled safe settled node _ trivial

end

theorem activeNodesLoop_settled (safe : Safe cb) (dest : Nat)
    (rest buf : List Nat) (settled : Settled phase d) :
    Settled phase (activeNodesLoop cb dest rest buf d) := by
  induction rest generalizing buf d with
  | nil =>
    unfold activeNodesLoop
    split
    · exact settled
    · exact sendMsg_settled safe settled dest _ trivial
  | cons n rest induction =>
    unfold activeNodesLoop
    split
    · exact induction buf settled
    · split
      · exact induction (buf ++ [n]) settled
      · have sent := sendMsg_settled safe settled dest (.activeNodes d.myID buf) trivial
        split <;> rename_i outcome <;> rw [outcome] at sent
        · exact sent
        · exact induction [n] sent

theorem sendActiveNodes_settled (safe : Safe cb) (settled : Settled phase d)
    (dest : Nat) : Settled phase (sendActiveNodes cb dest d) := by
  unfold sendActiveNodes
  split
  · exact settled
  · exact activeNodesLoop_settled safe dest _ _ settled

theorem broadcastMsg_settled (safe : Safe cb) {msg : Message}
    (harmless : Harmless phase.me msg) (settled : Settled phase d) :
    Settled phase (broadcastMsg cb msg d) := by
  unfold broadcastMsg
  induction List.range d.nrOfNodes generalizing d with
  | nil => exact settled
  | cons n rest induction =>
    refine induction ?_
    split
    · exact sendMsg_settled safe settled n msg harmless
    · exact settled

theorem sendDeadNode_settled (safe : Safe cb) (settled : Settled phase d)
    (deadnode : Nat) : Settled phase (sendDeadNode cb deadnode d) := by
  have counted : Settled phase { d with statusBcasts := d.statusBcasts + 1 } := settled.of_view rfl
  unfold sendDeadNode
  simp only
  split
  · exact counted
  · exact broadcastMsg_settled safe trivial counted

theorem mapClientStat_settled (settled : Settled phase d)
    (change : (Nat → ClientStatus) → Nat → ClientStatus) :
    Settled phase { d with clientStat := d.clientStat.map change } :=
  settled.of_view (by simp [view, knowMaster, getMasterID])

theorem pingLoop_settled (safe : Safe cb) (lastCheck : Int)
    (rest : List Nat) (nrDownNodes : Nat) (settled : Settled phase d) :
    Settled phase (pingLoop cb lastCheck rest nrDownNodes d).2 := by
  induction rest generalizing nrDownNodes d with
  | nil => exact settled
  | cons n rest induction =>
    unfold pingLoop
    split
    · refine induction nrDownNodes ?_
      have missed := mapClientStat_settled settled (fun stat =>
        if (stat n).lastPing < lastCheck then
          update stat n { stat n with missCounter := (stat n).missCounter + 1 }
        else stat)
      split
      · exact sendDaemonConnect_settled safe missed n
      · exact missed
    · exact induction (nrDownNodes + 1) settled

theorem ringLoop_settled (safe : Safe cb) (last fuel next : Nat)
    (count : Int) (settled : Settled phase d) :
    Settled phase (ringLoop cb last fuel next count d) := by
  induction fuel generalizing next count d with
  | zero => exact settled.of_view rfl
  | succ fuel induction =>
    have sent := sendDaemonConnect_settled safe settled next
    unfold ringLoop
    generalize result : (if !isUp d next then _ else _) = outcome
    have rung : Settled phase outcome.2 := by
      rw [← result]
      split
      · exact sent
      · exact settled
    obtain ⟨wasRung, after⟩ := outcome
    dsimp only
    generalize (if wasRung = true then count - 1 else count) = left
    split
    · exact induction _ _ rung
    · exact rung.of_view rfl

theorem handleMasterTasks_settled (safe : Safe cb)
    (settled : Settled phase d) :
    Settled phase (handleMasterTasks cb d) := by
  unfold handleMasterTasks
  split
  · exact settled
  · have clocked : Settled phase (gettimeofday d).2 := settled.of_view rfl
    have pinged := pingLoop_settled safe ((gettimeofday d).1 - (gettimeofday d).2.statusTimeout)
      (List.range (gettimeofday d).2.nrOfNodes) 0 clocked
    generalize hp : pingLoop cb ((gettimeofday d).1 - (gettimeofday d).2.statusTimeout)
      (List.range (gettimeofday d).2.nrOfNodes) 0 (gettimeofday d).2 = result at pinged
    have reset : Settled phase { result.2 with statusBcasts := 0 } := pinged.of_view rfl
    simp only [hp]
    refine Settled.of_view (d := if _ then _ else _) ?_ rfl
    split
    · exact ringLoop_settled safe _ _ _ _ reset
    · exact reset

theorem sendRDPPing_settled (safe : Safe cb) (settled : Settled phase d) :
    Settled phase (sendRDPPing cb d) := by
  have loaded := sendMsg_settled safe settled (getMasterID d) (.load d.myID d.totNodes) trivial
  unfold sendRDPPing
  simp only
  split
  · exact handleMasterTasks_settled safe loaded
  · exact loaded

theorem getTasksLoop_settled (safe : Safe cb) (rest : List Nat)
    (settled : Settled phase d) :
    Settled phase (getTasksLoop cb rest d) := by
  induction rest generalizing d with
  | nil => exact settled
  | cons n rest induction =>
    refine induction ?_
    split
    · exact sendGetTasks_settled safe settled n
    · exact settled

end Sending

section Electing

variable {cb : Upcall → Daemon → Daemon} {before phase : Phase} {d : Daemon}

/-- `before` may still hide more nodes from the election. -/
structure Phase.Follows (phase before : Phase) : Prop where
  me : phase.me = before.me
  rising : ∀ n ∈ phase.rising, n ∈ before.rising
  starting : phase.starting = before.starting
  alone : phase.alone = true → before.alone = true ∧ ∀ n ∈ before.rising, n ∈ phase.rising

theorem Phase.Follows.refl (phase : Phase) : phase.Follows phase :=
  ⟨rfl, fun _ member => member, rfl, fun alone => ⟨alone, fun _ member => member⟩⟩

theorem Between.of_settled (settled : Settled before d)
    (follows : phase.Follows before) : Between before phase d where
  identity := settled.identity.trans follows.me.symm
  quiet := fun n node rises => settled.quiet n node (follows.rising node rises)
  hooks := settled.hooks
  election := settled.election

theorem Between.settle (between : Between before phase d)
    (election : d.shutdown = false → Holds before (view d) → Holds phase (view d)) :
    Settled phase d where
  identity := between.identity
  quiet := between.quiet
  hooks := between.hooks
  election := fun running => election running (between.election running)

theorem Holds.follow_alone (holds : Holds before v)
    (follows : phase.Follows before) (alone : phase.alone = true) :
    phase.Alone v := by
  intro n isUp
  rcases holds.alone (follows.alone alone).1 n isUp with own | rises
  · exact .inl (own.trans follows.me.symm)
  · exact .inr ((follows.alone alone).2 n rises)

theorem Holds.follow_known (holds : Holds before v) (follows : phase.Follows before)
    (known : v.known = true) (candidate : Candidate phase v v.master) : Holds phase v where
  total := holds.total
  unknown := by
    intro unknown
    rw [known] at unknown
    exact absurd unknown (by decide)
  known := fun _ =>
    { candidate := candidate
      client := follows.me ▸ (holds.known known).client
      part := by
        rw [follows.starting, follows.me]
        exact (holds.known known).part }
  starting := by
    rw [follows.starting, follows.me]
    exact holds.starting
  alone := holds.follow_alone follows
  rising := fun n rises => holds.rising n (follows.rising n rises)

/-- While the daemon becomes the master. -/
def Phase.declare (phase : Phase) (newMaster : Nat) : Phase :=
  { phase with starting := decide (newMaster = phase.me) }

theorem view_free (holds : Holds before (view d))
    (starting : before.starting = false) (identity : d.myID = before.me) :
    view (if knowMaster d ∧ getMasterID d = d.myID then freeMasterSpace d
      else d) = { view d with client := false, part := false } := by
  by_cases own : knowMaster d = true ∧ getMasterID d = d.myID
  · rw [if_pos own]
    rfl
  · rw [if_neg own]
    cases known : knowMaster d with
    | false =>
      have unelected := holds.unknown known
      exact View.mk.injEq .. ▸ ⟨rfl, rfl, rfl, rfl, rfl, rfl, unelected.client, unelected.part, rfl⟩
    | true =>
      have elected := holds.known known
      have other : getMasterID d ≠ before.me := fun equality =>
        own ⟨known, equality.trans identity.symm⟩
      have client : d.clientStat.isSome = false :=
        Bool.eq_false_iff.mpr fun some => other (elected.client.mp some)
      have part : d.nodeStat = false :=
        Bool.eq_false_iff.mpr fun allocated => other ((elected.part starting).mp allocated)
      exact View.mk.injEq .. ▸ ⟨rfl, rfl, rfl, rfl, rfl, rfl, client, part, rfl⟩

theorem view_takeMaster (running : d.shutdown = false) (holds : Holds before (view d))
    (starting : before.starting = false) (identity : d.myID = before.me) :
    view (takeMaster newMaster d) =
      { view d with
        master := newMaster
        client := decide (newMaster = d.myID)
        part := false } := by
  have freed := view_free holds starting identity
  unfold takeMaster
  generalize (if knowMaster d ∧ getMasterID d = d.myID then freeMasterSpace d
    else d) = d' at freed ⊢
  have running' : d'.shutdown = false := (congrArg View.shutdown freed).trans running
  have identity' : d'.myID = d.myID := congrArg View.myID freed
  have taken : view { d' with masterNode := newMaster } =
      { view d with master := newMaster, client := false, part := false } := by
    refine Eq.trans (b := { view d' with master := newMaster }) rfl ?_
    rw [freed]
  dsimp only
  rw [if_neg (Bool.eq_false_iff.mp running')]
  by_cases new : newMaster = d'.myID
  · rw [if_pos new, decide_eq_true (new.trans identity')]
    refine Eq.trans (b := { view { d' with masterNode := newMaster } with
      client := true }) rfl ?_
    rw [taken]
  · rw [if_neg new, decide_eq_false (identity' ▸ new)]
    exact taken

theorem takeMaster_shutdown : (takeMaster newMaster d).shutdown = d.shutdown := by
  unfold takeMaster freeMasterSpace allocMasterSpace gettimeofday
  dsimp only
  split_ifs <;> simp_all

theorem view_registerTimer : view (registerTimer d) = { view d with known := true } := by
  have valid : ((d.nextTimer : Int) ≠ -1) := by omega
  simp [view, registerTimer, knowMaster, getMasterID, valid]

theorem takeMaster_identity {newMaster : Nat} :
    (takeMaster newMaster d).myID = d.myID ∧ (takeMaster newMaster d).replies = d.replies ∧
      (takeMaster newMaster d).hookReplies = d.hookReplies := by
  unfold takeMaster freeMasterSpace allocMasterSpace gettimeofday
  dsimp only
  split_ifs <;> simp

/-- `declareMaster()` as it goes through its phases. -/
theorem declare_begin (settled : Between before phase d)
    (running : d.shutdown = false) (follows : phase.Follows before)
    (starting : before.starting = false)
    (candidate : Candidate phase (view d) newMaster) {d' : Daemon}
    (same : view d' = { view (takeMaster newMaster d) with known := true })
    (replies : d'.replies = (takeMaster newMaster d).replies) (hookReplies :
      d'.hookReplies = (takeMaster newMaster d).hookReplies) :
    Settled (phase.declare newMaster) d' := by
  have holds := settled.election running
  have me : d.myID = phase.me := settled.identity
  rw [view_takeMaster running holds starting (me.trans follows.me)] at same
  constructor
  · exact (congrArg View.myID same).trans me
  · rw [replies, takeMaster_identity.2.1]
    exact settled.quiet
  · rw [hookReplies, takeMaster_identity.2.2]
    exact settled.hooks
  · intro _
    rw [same]
    exact
      { total := holds.total
        unknown := fun unknown => nomatch (show true = false from unknown)
        known := fun _ =>
          { candidate := ⟨candidate.below, candidate.least, candidate.alive⟩
            client := by simp [Phase.declare, me]
            part := by
              intro notStarting
              have other := of_decide_eq_false notStarting
              simp [Phase.declare, other] }
        starting := fun starting => ⟨rfl, of_decide_eq_true starting⟩
        alone := fun alone n isUp => holds.follow_alone follows alone n isUp
        rising := fun n rises => holds.rising n (follows.rising n rises) }

theorem declare_end (settled : Settled phase d) (starting : phase.starting = true) :
    Settled { phase with starting := false } { d with nodeStat := true } where
  identity := settled.identity
  quiet := settled.quiet
  hooks := settled.hooks
  election := by
    intro running
    have holds := settled.election running
    have own := holds.starting starting
    have elected := holds.known own.1
    exact
      { total := holds.total
        unknown := fun unknown => by
          have known : (view d).known = true := own.1
          exact absurd (known.symm.trans unknown) (by decide)
        known := fun _ =>
          { candidate := ⟨elected.candidate.below, elected.candidate.least, elected.candidate.alive⟩
            client := elected.client
            part := fun _ => ⟨fun _ => own.2, fun _ => rfl⟩ }
        starting := fun starting => nomatch (show false = true from starting)
        alone := holds.alone
        rising := holds.rising }

theorem declareMaster_settled (safe : Safe cb)
    (settled : Between before phase d) (follows : phase.Follows before)
    (starting : d.shutdown = false → before.starting = true → newMaster = before.me)
    (candidate : d.shutdown = false → Candidate phase (view d) newMaster) :
    Settled phase (declareMaster cb newMaster d) := by
  unfold declareMaster
  split
  next early =>
    refine settled.settle fun running holds => ?_
    have same : newMaster = (view d).master := early.2
    exact holds.follow_known follows early.1 (same ▸ candidate running)
  next late =>
    dsimp only
    rw [takeMaster_shutdown]
    cases running : d.shutdown with
    | true =>
      rw [if_pos rfl]
      obtain ⟨identity, replies, hookReplies⟩ := @takeMaster_identity d newMaster
      exact
        { identity := identity.trans settled.identity
          quiet := fun n node rises => by
            rw [replies]
            exact settled.quiet n node rises
          hooks := hookReplies ▸ settled.hooks
          election := fun stopped => by
            rw [takeMaster_shutdown, running] at stopped
            exact absurd stopped (by decide) }
    | false =>
      rw [if_neg (by decide)]
      have holds := settled.election running
      have notStarting : before.starting = false := by
        refine Bool.eq_false_iff.mpr fun isStarting => ?_
        have own := holds.starting isStarting
        exact late ⟨own.1, (starting running isStarting).trans own.2.symm⟩
      have started : Settled (phase.declare newMaster)
          (if !knowMaster (takeMaster newMaster d) then
            sendRDPPing cb (registerTimer (takeMaster newMaster d))
          else takeMaster newMaster d) := by
        cases known : knowMaster (takeMaster newMaster d) with
        | true =>
          refine declare_begin settled running follows notStarting (candidate running) ?_ rfl rfl
          exact congrArg
            (fun known => { view (takeMaster newMaster d) with known := known })
            known
        | false =>
          refine sendRDPPing_settled safe ?_
          exact declare_begin settled running follows notStarting
            (candidate running) view_registerTimer rfl rfl
      have idle : { phase.declare newMaster with starting := false } =
          phase := by
        rw [Phase.declare]
        exact (congrArg (fun starting => { phase with starting := starting })
          (follows.starting.trans notStarting)).symm
      generalize (if !knowMaster (takeMaster newMaster d) then
          sendRDPPing cb (registerTimer (takeMaster newMaster d))
        else takeMaster newMaster d) = d' at started ⊢
      split
      next new =>
        have own : newMaster = phase.me := new.trans started.identity
        have finished := declare_end started (decide_eq_true own)
        exact idle ▸ getTasksLoop_settled safe _ finished
      next other =>
        have same : phase.declare newMaster = phase := by
          have foreign : newMaster ≠ phase.me :=
            fun own => other (own.trans started.identity.symm)
          rw [← idle]
          simp [Phase.declare, foreign]
        exact same ▸ started

/-- What the loop of `declareNodeDead()` finds. -/
theorem searchMaster_spec (count node : Nat) :
    node ≤ searchMaster d count node ∧ searchMaster d count node ≤ node + count ∧
      (isUp d (searchMaster d count node) = true ∨ searchMaster d count node = node + count) ∧ ∀ n,
      node ≤ n → n < searchMaster d count node → isUp d n = false := by
  induction count generalizing node with
  | zero =>
    refine ⟨Nat.le_refl _, Nat.le_refl _, .inr rfl, ?_⟩
    intro n low high
    exact absurd (Nat.lt_of_le_of_lt low high) (Nat.lt_irrefl _)
  | succ count induction =>
    unfold searchMaster
    cases up : isUp d node with
    | true =>
      refine ⟨Nat.le_refl _, Nat.le_add_right _ _, .inl up, ?_⟩
      intro n low high
      exact absurd (Nat.lt_of_le_of_lt low high) (Nat.lt_irrefl _)
    | false =>
      obtain ⟨lower, upper, found, below⟩ := induction (node + 1)
      simp only [Bool.false_eq_true, if_false]
      refine ⟨by omega, by omega, ?_, ?_⟩
      · rcases found with isUp | last
        · exact .inl isUp
        · exact .inr (by omega)
      · intro n low high
        rcases Nat.eq_or_lt_of_le low with same | later
        · exact same ▸ up
        · exact below n later high

theorem searchMaster_candidate {dying : List Nat}
    (holds : Holds { phase with dying := dying } (view d))
    (master : getMasterID d = id) (identity : d.myID = phase.me) :
    Candidate phase (view d) (searchMaster d (d.myID - id) id) := by
  have below : id ≤ phase.me ∧ ∀ n ∈ (view d).nodes, n ∉ phase.rising → id ≤ n ∨ n = phase.me := by
    cases known : knowMaster d with
    | true =>
      have candidate := (holds.known known).candidate
      exact ⟨master ▸ candidate.below, fun n isUp settled =>
        .inl (master ▸ candidate.least n isUp settled)⟩
    | false =>
      have unelected := holds.unknown known
      have zero : id = 0 := master.symm.trans unelected.master
      refine ⟨by omega, fun n isUp settled => ?_⟩
      exact .inl (by omega)
  obtain ⟨lower, upper, found, skipped⟩ := searchMaster_spec (d := d) (d.myID - id) id
  have last : id + (d.myID - id) = phase.me := by omega
  rw [last] at upper found
  constructor
  · exact upper
  · intro n isUp settled
    rcases below.2 n isUp settled with above | own
    · rcases Nat.lt_or_ge n (searchMaster d (d.myID - id) id) with less | more
      · have down := skipped n above less
        rw [mem_nodes.mp isUp] at down
        exact absurd down (by decide)
      · exact more
    · exact own ▸ upper
  · rcases found with isUp | own
    · exact .inr (.inl (mem_nodes.mpr isUp))
    · exact .inl own

theorem nodes_bringDown {id : Nat} {total : Int} :
    (view (bringDown id { d with totNodes := total })).nodes = (view d).nodes.erase id := by
  ext n
  rw [Finset.mem_erase, mem_nodes, mem_nodes]
  unfold isUp bringDown
  by_cases same : n = id
  · simp [same]
  · simp only [update_of_ne same, ne_eq, same, not_false_eq_true, true_and]

def Phase.die (phase : Phase) (id : Nat) : Phase := { phase with dying := id :: phase.dying }

theorem bringDown_settled (settled : Settled phase d)
    (noticed : id ∉ phase.rising) (up : isUp d id = true) :
    Settled (phase.die id) (bringDown id { d with totNodes := d.totNodes - 1 }) where
  identity := settled.identity
  quiet := settled.quiet
  hooks := settled.hooks
  election := by
    intro running
    have holds := settled.election running
    have nodes := @nodes_bringDown d id (d.totNodes - 1)
    have member := mem_nodes.mpr up
    have subset : ∀ n ∈ (view d).nodes.erase id, n ∈ (view d).nodes :=
      fun n isUp => Finset.mem_of_mem_erase isUp
    constructor
    · rw [nodes, Finset.card_erase_of_mem member]
      have positive : 0 < (view d).nodes.card := Finset.card_pos.mpr ⟨id, member⟩
      have total : d.totNodes = (view d).nodes.card := holds.total
      show d.totNodes - 1 = _
      omega
    · intro unknown
      have unelected := holds.unknown unknown
      refine ⟨unelected.master, unelected.client, unelected.part, ?_⟩
      intro n isUp
      rw [nodes] at isUp
      exact unelected.alone n (subset n isUp)
    · intro known
      have elected := holds.known known
      refine ⟨⟨elected.candidate.below, ?_, ?_⟩, elected.client, elected.part⟩
      · rw [nodes]
        exact fun n isUp => elected.candidate.least n (subset n isUp)
      · rw [nodes]
        rcases elected.candidate.alive with own | isUp | dies
        · exact .inl own
        · by_cases same : getMasterID d = id
          · exact .inr (.inr (same ▸ mem_cons_self))
          · exact .inr (.inl (Finset.mem_erase_of_ne_of_mem same isUp))
        · exact .inr (.inr (mem_cons_of_mem id dies))
    · exact holds.starting
    · intro alone n isUp
      rw [nodes] at isUp
      exact holds.alone alone n (subset n isUp)
    · intro n rises
      rw [nodes]
      have other : n ≠ id := fun same => noticed (same ▸ rises)
      exact Finset.mem_erase_of_ne_of_mem other (holds.rising n rises)

theorem Phase.follows_die (phase : Phase) (id : Nat) : phase.Follows (phase.die id) :=
  ⟨rfl, fun _ rises => rises, rfl, fun alone => ⟨alone, fun _ rises => rises⟩⟩

theorem Holds.forget_dying (holds : Holds (phase.die id) v)
    (other : v.known = true → v.master ≠ id) : Holds phase v where
  total := holds.total
  unknown := fun unknown =>
    have unelected := holds.unknown unknown
    ⟨unelected.master, unelected.client, unelected.part, unelected.alone⟩
  known := fun known => by
    have elected := holds.known known
    refine ⟨⟨elected.candidate.below, elected.candidate.least, ?_⟩, elected.client, elected.part⟩
    rcases elected.candidate.alive with own | isUp | dies
    · exact .inl own
    · exact .inr (.inl isUp)
    · rcases mem_cons.mp dies with same | dies
      · exact absurd same (other known)
      · exact .inr (.inr dies)
  starting := holds.starting
  alone := holds.alone
  rising := holds.rising

theorem declareNodeDead_settled (safe : Safe cb) (settled : Settled phase d)
    (sendDeadnode : Bool) (noticed : id ∉ phase.rising) :
    Settled phase (declareNodeDead cb id sendDeadnode d).2 := by
  unfold declareNodeDead
  split
  · exact settled
  · split
    · exact clearRDPMsgs_settled safe settled
    next up =>
      have wasUp : isUp d id = true := by simpa using up
      have down := traffic_settled safe (bringDown_settled settled noticed wasUp)
      dsimp only
      generalize traffic cb (bringDown id { d with totNodes := d.totNodes - 1 }) = d' at down ⊢
      have follows := phase.follows_die id
      have between := Between.of_settled down follows
      have found : Settled phase
          (if id = getMasterID d' then
            declareMaster cb (searchMaster d' (d'.myID - id) id) d'
          else if d'.myID = getMasterID d' then traffic cb d'
          else d') := by
        split
        next master =>
          refine declareMaster_settled safe between follows ?_ ?_
          · intro running starting
            have own := (down.election running).starting starting
            have same : id = d'.myID := master.trans (own.2.trans down.identity.symm)
            rw [same, Nat.sub_self]
            exact down.identity
          · intro running
            exact searchMaster_candidate (down.election running) master.symm down.identity
        next other =>
          have kept : Settled phase d' := between.settle fun _ holds =>
            holds.forget_dying fun _ same => other same.symm
          split
          · exact traffic_settled safe kept
          · exact kept
      have cleared := clearRDPMsgs_settled safe found
      generalize clearRDPMsgs cb _ = d'' at cleared ⊢
      split
      · exact sendDeadNode_settled safe cleared id
      · exact cleared

theorem electMaster_settled (safe : Safe cb) (settled : Between before phase d)
    (follows : phase.Follows before) (dying : ∀ n ∈ before.dying, n ∈ phase.dying)
    (hidden : ∀ n ∈ before.rising, n = id ∨ n ∈ phase.rising)
    (starting : before.starting = true → id = before.me)
    (up : d.shutdown = false → id = phase.me ∨ id ∈ (view d).nodes) :
    Settled phase (electMaster cb id d) := by
  unfold electMaster
  have me : d.myID = phase.me := settled.identity
  cases known : knowMaster d with
  | false =>
    have notStarting : d.shutdown = false → before.starting = true → False :=
      fun running isStarting => by
        have own := ((settled.election running).starting isStarting).1
        exact absurd (own.symm.trans known) (by decide)
    have noticed : d.shutdown = false → ∀ n ∈ (view d).nodes,
        n ∉ phase.rising → n = phase.me ∨ n = id := by
      intro running n isUp notRising
      rcases ((settled.election running).unknown known).alone n isUp with
        own | rises
      · exact .inl (own.trans follows.me.symm)
      · exact .inr ((hidden n rises).resolve_right notRising)
    simp only [Bool.not_false, if_true]
    split
    next less =>
      refine declareMaster_settled safe settled follows
        (fun running isStarting => (notStarting running isStarting).elim) ?_
      intro running
      refine ⟨by omega, ?_, (up running).elim .inl (.inr ∘ .inl)⟩
      intro n isUp notRising
      rcases noticed running n isUp notRising with own | same <;> omega
    next notLess =>
      split
      next greater =>
        refine declareMaster_settled safe settled follows
          (fun running isStarting => (notStarting running isStarting).elim) ?_
        intro running
        refine ⟨by omega, ?_, .inl me⟩
        intro n isUp notRising
        rcases noticed running n isUp notRising with own | same <;> omega
      next notGreater =>
        refine settled.settle fun running holds => ?_
        have unelected := holds.unknown known
        exact
          { total := holds.total
            unknown := fun _ =>
              ⟨unelected.master, unelected.client, unelected.part,
                fun n isUp => by
                  by_cases rises : n ∈ phase.rising
                  · exact .inr rises
                  · refine .inl ?_
                    rcases noticed running n isUp rises with own | same
                    · exact own
                    · omega⟩
            known := fun isKnown => absurd (isKnown.symm.trans known) (by decide)
            starting := fun isStarting => by
              rw [follows.starting] at isStarting
              exact (notStarting running isStarting).elim
            alone := holds.follow_alone follows
            rising := fun n rises => holds.rising n (follows.rising n rises) }
  | true =>
    simp only [Bool.not_true, Bool.false_eq_true, if_false]
    have least : d.shutdown = false → ∀ n ∈ (view d).nodes,
        n ∉ phase.rising → n = id ∨ getMasterID d ≤ n := by
      intro running n isUp notRising
      by_cases rises : n ∈ before.rising
      · exact .inl ((hidden n rises).resolve_right notRising)
      · exact .inr (((settled.election running).known known).candidate.least n isUp rises)
    split
    next less =>
      refine sendMasterIs_settled safe ?_ _
      refine declareMaster_settled safe settled follows (fun _ isStarting => starting isStarting) ?_
      intro running
      have below := ((settled.election running).known known).candidate.below
      have same : (view d).master = getMasterID d := rfl
      have follow := follows.me
      refine ⟨by omega, ?_, (up running).elim .inl (.inr ∘ .inl)⟩
      intro n isUp notRising
      rcases least running n isUp notRising with same | above <;> omega
    next notLess =>
      refine settled.settle fun running holds => ?_
      have elected := holds.known known
      refine holds.follow_known follows known ⟨follows.me ▸ elected.candidate.below, ?_, ?_⟩
      · intro n isUp notRising
        have same : (view d).master = getMasterID d := rfl
        rcases least running n isUp notRising with same | above <;> omega
      · rcases elected.candidate.alive with own | isUp | dies
        · exact .inl (own.trans follows.me.symm)
        · exact .inr (.inl isUp)
        · exact .inr (.inr (dying _ dies))

theorem nodes_bringUp {id : Nat} {total : Int} (valid : id < d.nrOfNodes) :
    (view (bringUp id { d with totNodes := total })).nodes = insert id (view d).nodes := by
  ext n
  rw [Finset.mem_insert, mem_nodes, mem_nodes]
  unfold isUp bringUp
  by_cases same : n = id
  · simp [same, valid]
  · simp only [update_of_ne same, same, false_or]

/-- Before the functions at `PSIDHOOK_NODE_UP` are called, `hidden` is the new
node if it is not the own one. -/
def Phase.rise (phase : Phase) (hidden : List Nat) : Phase :=
  { phase with rising := hidden ++ phase.rising }

theorem bringUp_holds (hidden : List Nat) (holds : Holds phase (view d)) (valid : id < d.nrOfNodes)
    (down : isUp d id = false) (new : id = phase.me ∨ id ∈ hidden) (only : ∀ n ∈ hidden, n = id) :
    Holds (phase.rise hidden) (view (bringUp id { d with totNodes := d.totNodes + 1 })) := by
  have nodes := @nodes_bringUp d id (d.totNodes + 1) valid
  have absent : id ∉ (view d).nodes := fun member => by
    rw [mem_nodes.mp member] at down
    exact absurd down (by decide)
  have alone (before : phase.Alone (view d)) : (phase.rise hidden).Alone
      (view (bringUp id { d with totNodes := d.totNodes + 1 })) := by
    intro n isUp
    rw [nodes] at isUp
    rcases Finset.mem_insert.mp isUp with same | isUp
    · rcases new with own | hides
      · exact .inl (same.trans own)
      · exact .inr (same ▸ mem_append_left _ hides)
    · rcases before n isUp with own | rises
      · exact .inl own
      · exact .inr (mem_append_right hidden rises)
  constructor
  · rw [nodes, Finset.card_insert_of_notMem absent]
    have total : d.totNodes = (view d).nodes.card := holds.total
    show d.totNodes + 1 = _
    omega
  · intro unknown
    have unelected := holds.unknown unknown
    exact ⟨unelected.master, unelected.client, unelected.part, alone unelected.alone⟩
  · intro known
    have elected := holds.known known
    refine ⟨⟨elected.candidate.below, ?_, ?_⟩, elected.client, elected.part⟩
    · rw [nodes]
      intro n isUp notRising
      rcases Finset.mem_insert.mp isUp with same | isUp
      · rcases new with own | hides
        · exact (same.trans own) ▸ elected.candidate.below
        · exact absurd (mem_append_left phase.rising (same ▸ hides)) notRising
      · exact elected.candidate.least n isUp fun rises => notRising (mem_append_right hidden rises)
    · rw [nodes]
      rcases elected.candidate.alive with own | isUp | dies
      · exact .inl own
      · exact .inr (.inl (Finset.mem_insert_of_mem isUp))
      · exact .inr (.inr dies)
  · exact holds.starting
  · exact fun isAlone => alone (holds.alone isAlone)
  · intro n rises
    rw [nodes]
    rcases mem_append.mp rises with hides | rises
    · exact only n hides ▸ Finset.mem_insert_self _ _
    · exact Finset.mem_insert_of_mem (holds.rising n rises)

theorem bringUp_again (up : isUp d id = true) : view (bringUp id d) = view d := by
  have wasUp : d.up id = true := by
    unfold isUp at up
    exact ((Bool.and_eq_true _ _).mp up).2
  have same : update d.up id true = d.up := by
    rw [← wasUp, update_eq_self]
  simp [view, bringUp, same, knowMaster, getMasterID]

section

variable (safe : Safe cb)

include safe

/-- What follows the election in `declareNodeAlive()`. -/
theorem welcome_settled (settled : Settled phase d) (id : Nat) (wasUp : Bool) : Settled phase
      (let d := if getMasterID d = d.myID ∧ !wasUp then
          sendActiveNodes cb id d
        else d
      if getMasterID d = d.myID ∧ !wasUp then sendGetTasks cb id d else d) := by
  have active : Settled phase
      (if getMasterID d = d.myID ∧ !wasUp then sendActiveNodes cb id d
      else d) := by
    split
    · exact sendActiveNodes_settled safe settled id
    · exact settled
  generalize (if getMasterID d = d.myID ∧ !wasUp then sendActiveNodes cb id d
    else d) = d' at active ⊢
  dsimp only
  split
  · exact sendGetTasks_settled safe active id
  · exact active

theorem declareNodeAlive_up (settled : Settled phase d)
    (starting : phase.starting = true → id = phase.me) (up : isUp d id = true) :
    Settled phase (declareNodeAlive cb id d).2 := by
  unfold declareNodeAlive
  split
  · exact settled
  · simp only [up, if_true]
    have again : Settled phase (bringUp id d) := settled.of_view (bringUp_again up)
    refine welcome_settled safe ?_ id true
    refine electMaster_settled safe again (.refl phase) (fun _ dies => dies)
      (fun _ rises => .inr rises) starting ?_
    intro _
    rw [bringUp_again up]
    exact .inr (mem_nodes.mpr up)

theorem declareNodeAlive_own (settled : Settled phase d) :
    Settled phase (declareNodeAlive cb phase.me d).2 := by
  cases up : isUp d phase.me with
  | true => exact declareNodeAlive_up safe settled (fun _ => rfl) up
  | false =>
    unfold declareNodeAlive
    split
    · exact settled
    next valid =>
      simp only [up, Bool.false_eq_true, if_false]
      have risen : Settled phase (bringUp phase.me { d with totNodes := d.totNodes + 1 }) :=
        { identity := settled.identity
          quiet := settled.quiet
          hooks := settled.hooks
          election := fun running =>
            bringUp_holds [] (settled.election running) (Decidable.not_not.mp valid) up (.inl rfl)
              (fun _ member => nomatch member) }
      refine welcome_settled safe ?_ phase.me false
      refine electMaster_settled safe ?_ (.refl phase) (fun _ dies => dies)
        (fun _ rises => .inr rises) (fun _ => rfl) (fun _ => .inl rfl)
      unfold callNodeUp
      rw [if_pos risen.identity.symm]
      exact traffic_settled safe risen

theorem callNodeUp_between (risen : Settled ((Phase.idle me).rise [id])
      { d with replies := d.hookReplies id }) (other : id ≠ me) :
    Between ((Phase.idle me).rise [id]) (.idle me) (callNodeUp cb id d) ∧
      ((callNodeUp cb id d).shutdown = false → id ∈ (view (callNodeUp cb id d)).nodes) := by
  have called := traffic_settled safe risen
  have identity : d.myID = me := risen.identity
  unfold callNodeUp
  rw [if_neg (identity ▸ other)]
  generalize traffic cb { d with replies := d.hookReplies id } = d' at called
  refine ⟨?_, fun running => ?_⟩
  · exact
      { identity := called.identity
        quiet := fun _ _ rises => nomatch rises
        hooks := called.hooks
        election := called.election }
  · exact (called.election running).rising id (mem_singleton.mpr rfl)

/-- Another node comes up, while no function called by this module is
running. -/
theorem declareNodeAlive_other (settled : Settled (.idle me) d)
    (other : id ≠ me) : Settled (.idle me) (declareNodeAlive cb id d).2 := by
  cases up : isUp d id with
  | true =>
    exact declareNodeAlive_up safe settled
      (fun starting => nomatch (show false = true from starting)) up
  | false =>
    unfold declareNodeAlive
    split
    · exact settled
    next valid =>
      simp only [up, Bool.false_eq_true, if_false]
      have risen : Settled ((Phase.idle me).rise [id])
          { bringUp id { d with totNodes := d.totNodes + 1 } with
            replies := d.hookReplies id } :=
        { identity := settled.identity
          quiet := fun n node rises => mem_singleton.mp rises ▸ settled.hooks id n
          hooks := settled.hooks
          election := fun running =>
            bringUp_holds [id] (settled.election running) (Decidable.not_not.mp valid) up
              (.inr (mem_singleton.mpr rfl)) (fun _ => mem_singleton.mp) }
      refine welcome_settled safe ?_ id false
      obtain ⟨called, isUp⟩ := callNodeUp_between safe risen other
      refine electMaster_settled safe called ?_ (fun _ dies => dies) ?_
        (fun starting => nomatch (show false = true from starting))
        (fun running => .inr (isUp running))
      · exact ⟨rfl, fun _ rises => (nomatch rises), rfl,
          fun alone => nomatch (show false = true from alone)⟩
      · exact fun n rises => .inl (mem_singleton.mp rises)

theorem connectLoop_settled (count next : Nat) (settled : Settled phase d) :
    Settled phase (connectLoop cb count next d).2 := by
  induction count generalizing next d with
  | zero => exact settled
  | succ count induction =>
    have sent := sendDaemonConnect_settled safe settled next
    unfold connectLoop
    split <;> rename_i outcome <;> rw [outcome] at sent
    · exact induction (next + 1) sent
    · exact induction (next + 1) sent
    · exact sent

end

/-- While no other node can come up. -/
def Phase.lonely (phase : Phase) : Phase := { phase with alone := true }

theorem Settled.with_alone {first second : Bool}
    (settled : Settled { phase with alone := first } d)
    (alone : d.shutdown = false → second = true → first = true ∨
      { phase with alone := second }.Alone (view d)) :
    Settled { phase with alone := second } d where
  identity := settled.identity
  quiet := settled.quiet
  hooks := settled.hooks
  election := fun running =>
    have holds := settled.election running
    { total := holds.total
      unknown := fun unknown =>
        have unelected := holds.unknown unknown
        ⟨unelected.master, unelected.client, unelected.part, unelected.alone⟩
      known := fun known =>
        have elected := holds.known known
        ⟨⟨elected.candidate.below, elected.candidate.least,
          elected.candidate.alive⟩, elected.client, elected.part⟩
      starting := holds.starting
      alone := fun set => (alone running set).elim holds.alone id
      rising := holds.rising }

theorem Settled.of_lonely (settled : Settled phase.lonely d) : Settled phase d :=
  settled.with_alone fun _ _ => .inl rfl

theorem Settled.to_lonely (settled : Settled phase d)
    (alone : d.shutdown = false → phase.Alone (view d)) :
    Settled phase.lonely d :=
  settled.with_alone fun running _ => .inr (alone running)

/-- The own node may be the master if no other is up. -/
theorem declareMaster_lonely (safe : Safe cb)
    (settled : Settled phase.lonely d) :
    Settled phase.lonely (declareMaster cb phase.me d) := by
  refine declareMaster_settled safe settled (.refl _) (fun _ _ => rfl) ?_
  intro running
  refine ⟨Nat.le_refl _, ?_, .inl rfl⟩
  intro n isUp notRising
  rcases (settled.election running).alone rfl n isUp with own | rises
  · exact Nat.le_of_eq own.symm
  · exact absurd rises notRising

theorem dropDaemonConnect_settled (safe : Safe cb)
    (settled : Settled phase d) (dest : Nat) :
    Settled phase (dropDaemonConnect cb dest d) := by
  unfold dropDaemonConnect
  split
  · exact settled
  next free =>
    have unknown : knowMaster d = false := by
      refine Bool.eq_false_iff.mpr fun known => free (.inr (.inl known))
    have blocked : Settled phase.lonely { d with block := true } := by
      refine Settled.of_view (d := d) ?_ rfl
      exact settled.to_lonely fun running => ((settled.election running).unknown unknown).alone
    have connected := connectLoop_settled safe (d.myID - (dest + 1)) (dest + 1) blocked
    dsimp only
    generalize connectLoop cb (d.myID - (dest + 1)) (dest + 1)
      { d with block := true } = result at connected ⊢
    obtain ⟨next, d'⟩ := result
    have unblocked : Settled phase.lonely { d' with block := false } := connected.of_view rfl
    dsimp only
    split
    next own =>
      have me : next = phase.me := own.trans connected.identity
      rw [me]
      exact (declareMaster_lonely safe unblocked).of_lonely
    next other => exact unblocked.of_lonely

end Electing

section Handling

variable {cb : Upcall → Daemon → Daemon} {phase : Phase} {d : Daemon}

theorem msgDaemonConnect_settled (safe : Safe cb)
    (alive : Settled phase (declareNodeAlive cb id d).2) :
    Settled phase (msgDaemonConnect cb id d) := by
  unfold msgDaemonConnect
  generalize declareNodeAlive cb id d = result at alive
  obtain ⟨valid, d'⟩ := result
  cases valid with
  | false => exact alive
  | true =>
    have sent := sendMsg_settled safe alive id (.daemonEstablished d'.myID true) alive.identity
    dsimp only
    generalize sendMsg cb id (.daemonEstablished d'.myID true) d' = result
      at sent ⊢
    obtain ⟨errno, d''⟩ := result
    have options := sendOptions_settled safe sent id
    split
    · rename_i same
      cases same
      exact options
    · rename_i same
      cases same
      exact options
    · rename_i same
      cases same
      exact sent

theorem msgDaemonEstablished_settled (safe : Safe cb) {complete : Bool} (settled : Settled phase d)
    (alive : Settled phase (declareNodeAlive cb id d).2) :
    Settled phase (msgDaemonEstablished cb id complete d) := by
  unfold msgDaemonEstablished
  generalize declareNodeAlive cb id d = result at alive
  obtain ⟨valid, d'⟩ := result
  split
  · exact settled
  · cases valid with
    | false => exact alive
    | true => exact sendOptions_settled safe alive id

theorem msgDaemonShutdown_settled (safe : Safe cb) (settled : Settled phase d)
    (noticed : id ∉ phase.rising) : Settled phase (msgDaemonShutdown cb id d) :=
  traffic_settled safe (declareNodeDead_settled safe settled false noticed)

theorem msgMasterIs_settled (safe : Safe cb) (settled : Settled phase d)
    (sender : Nat) (master : Option Nat) :
    Settled phase (msgMasterIs cb sender master d) := by
  unfold msgMasterIs
  split
  · exact settled
  · split
    · exact settled
    · split
      · exact sendDaemonConnect_settled safe settled _
      · exact sendMasterIs_settled safe settled sender

theorem contactLoop_settled {contact : Nat → Daemon → Daemon}
    (keeps : ∀ n d, Settled phase d → Settled phase (contact n d))
    (rest : List Nat) (settled : Settled phase d) :
    Settled phase (contactLoop contact rest d) := by
  induction rest generalizing d with
  | nil => exact settled
  | cons n rest induction =>
    refine induction ?_
    split
    · exact keeps n d settled
    · exact settled

theorem msgActiveNodes_settled (safe : Safe cb) (sender : Nat)
    (nodes : List Nat) (settled : Settled phase d) :
    Settled phase (msgActiveNodes cb sender nodes d) := by
  induction nodes generalizing d with
  | nil => exact settled
  | cons node rest induction =>
    unfold msgActiveNodes
    have connected : Settled phase
        (if node = sender then
          { contactLoop (fun n d => (sendDaemonConnect cb n d).2)
              (List.range node) d with firstUntested := node + 1 }
        else d) := by
      split
      · exact (contactLoop_settled
          (fun n _ settled => sendDaemonConnect_settled safe settled n)
          (List.range node) settled).of_view rfl
      · exact settled
    generalize (if node = sender then
        { contactLoop (fun n d => (sendDaemonConnect cb n d).2)
            (List.range node) d with firstUntested := node + 1 }
      else d) = d' at connected ⊢
    have told := contactLoop_settled (fun n _ settled => sendMasterIs_settled safe settled n)
      (List.range' d'.firstUntested (node - d'.firstUntested)) connected
    dsimp only
    refine induction (Settled.of_view (d := if _ then _ else _) ?_ rfl)
    split
    · exact sendDaemonConnect_settled safe told node
    · exact told

section

variable (safe : Safe cb) (settled : Settled phase d)

include safe settled

theorem msgDeadNode_settled (dead : Option Nat) : Settled phase (msgDeadNode cb dead d) := by
  cases dead with
  | none => exact settled
  | some dead => exact sendDaemonConnect_settled safe settled dead

theorem msgLoad_settled (client : Nat) (clientNodes : Int) :
    Settled phase (msgLoad cb client clientNodes d) := by
  unfold msgLoad
  split
  · exact sendMasterIs_settled safe settled client
  · split
    · exact settled
    next stat allocated =>
      have update (stat : Nat → ClientStatus) :
          Settled phase { (gettimeofday d).2 with clientStat := some stat } :=
        settled.of_view (by
          simp [view, gettimeofday, knowMaster, getMasterID, allocated])
      dsimp only
      split
      · split
        · exact mapClientStat_settled (sendActiveNodes_settled safe (update _) client) _
        · exact update _
      · exact update _

/-- A message leaves the election settled if the nodes it brings up or down
do. -/
theorem handleMsg_settled {msg : Message}
    (alive : ∀ id complete, msg = .daemonConnect id ∨
      msg = .daemonEstablished id complete →
      Settled phase (declareNodeAlive cb id d).2)
    (noticed : ∀ id, msg = .daemonShutdown id → id ∉ phase.rising) :
    Settled phase (handleMsg cb msg d) := by
  cases msg with
  | daemonConnect sender => exact msgDaemonConnect_settled safe (alive sender true (.inl rfl))
  | daemonEstablished sender complete =>
    exact msgDaemonEstablished_settled safe settled (alive sender complete (.inr rfl))
  | daemonShutdown sender => exact msgDaemonShutdown_settled safe settled (noticed sender rfl)
  | masterIs sender master => exact msgMasterIs_settled safe settled sender master
  | activeNodes sender nodes => exact msgActiveNodes_settled safe sender nodes settled
  | deadNode dead => exact msgDeadNode_settled safe settled dead
  | load sender clientNodes => exact msgLoad_settled safe settled sender clientNodes
  | other => exact settled

theorem rdpCallBack_settled {event : RdpEvent}
    (allowed : Allowed phase (.rdp event)) :
    Settled phase (rdpCallBack cb event d) := by
  cases event with
  | newConnection node =>
    unfold rdpCallBack
    dsimp only
    split
    · exact settled
    · exact sendDaemonConnect_settled safe settled node
  | lostConnection node =>
    unfold rdpCallBack
    dsimp only
    split
    · exact settled
    · exact declareNodeDead_settled safe settled true allowed
  | dropConnect dest => exact dropDaemonConnect_settled safe settled dest

end

theorem upcall_safe (depth : Nat) : Safe (upcall depth) := by
  induction depth with
  | zero => exact fun _ _ _ _ settled => settled
  | succ depth safe =>
    intro phase call d allowed settled
    cases call with
    | rdp event => exact rdpCallBack_settled safe settled allowed
    | handle msg =>
      refine handleMsg_settled safe settled ?_ ?_
      · intro id complete cases
        have own : id = phase.me := by
          rcases cases with connect | established
          · subst connect
            exact allowed
          · subst established
            exact allowed
        exact own ▸ declareNodeAlive_own safe settled
      · intro id shutdown
        subst shutdown
        exact allowed.elim

theorem setStatusTimeout_settled (settled : Settled phase d)
    (timeout : Int) : Settled phase (setStatusTimeout timeout d) := by
  unfold setStatusTimeout
  dsimp only
  split
  next registered =>
    have valid : d.timerID ≠ -1 := by omega
    have known : knowMaster d = true := by simp [knowMaster, valid]
    refine settled.of_view ?_
    rw [view_registerTimer]
    simp [view, known, releaseStatusTimer, getMasterID]
  next unregistered => exact settled.of_view rfl

theorem handleInput_settled (safe : Safe cb) (settled : Settled (.idle me) d)
    (input : Input) : Settled (.idle me) (handleInput cb input d) := by
  cases input with
  | message msg =>
    refine handleMsg_settled safe settled ?_ (fun _ _ rises => nomatch rises)
    intro id _ _
    by_cases own : id = me
    · rw [own]
      exact declareNodeAlive_own safe settled
    · exact declareNodeAlive_other safe settled own
  | rdp event =>
    refine rdpCallBack_settled safe settled ?_
    cases event with
    | lostConnection node => exact fun rises => nomatch rises
    | newConnection node => trivial
    | dropConnect dest => trivial
  | statusTimer =>
    unfold handleInput
    dsimp only
    split
    · exact sendRDPPing_settled safe settled
    · exact settled
  | statusTimeout timeout => exact setStatusTimeout_settled settled timeout
  | shutdown =>
    exact
      { identity := settled.identity
        quiet := settled.quiet
        hooks := settled.hooks
        election := fun running => nomatch (show true = false from running) }

theorem firstConnects_settled (safe : Safe cb) (count id : Nat)
    (settled : Settled phase.lonely d) :
    Settled phase.lonely (firstConnects cb count id d) := by
  induction count generalizing id d with
  | zero =>
    unfold firstConnects
    split
    next own =>
      have me : id = phase.me := own.trans settled.identity
      exact me ▸ declareMaster_lonely safe settled
    next other => exact settled
  | succ count induction =>
    have sent := sendDaemonConnect_settled safe settled id
    unfold firstConnects
    split <;> rename_i outcome <;> rw [outcome] at sent
    · exact induction (id + 1) sent
    · exact sent

theorem Fresh.settled (fresh : Fresh d) (quiet : Quiet d.hookReplies) :
    Settled (Phase.idle d.myID).lonely d := by
  have unknown : knowMaster d = false := by simp [knowMaster, fresh.timerID]
  have nodes : (view d).nodes = ∅ := by
    refine Finset.eq_empty_of_forall_notMem fun n isUp => ?_
    have up := mem_nodes.mp isUp
    rw [Status.isUp, fresh.up, Bool.and_false] at up
    exact absurd up (by decide)
  have alone : ((Phase.idle d.myID).lonely).Alone (view d) := by
    intro n isUp
    rw [nodes] at isUp
    exact absurd isUp (Finset.notMem_empty n)
  exact
    { identity := rfl
      quiet := fun _ _ rises => nomatch rises
      hooks := quiet
      election := fun _ =>
        { total := by
            rw [nodes]
            exact fresh.totNodes
          unknown := fun _ =>
            ⟨fresh.masterNode, by simp [view, fresh.clientStat], fresh.nodeStat, alone⟩
          known := fun known => absurd (known.symm.trans unknown) (by decide)
          starting := fun starting => nomatch (show false = true from starting)
          alone := fun _ => alone
          rising := fun _ rises => nomatch rises } }

/-- Between its steps every daemon has settled the election. -/
theorem reachable_settled {depth : Nat}
    (reachable : (daemonSystem Quiet depth).Reachable d) :
    Settled (.idle d.myID) d := by
  have safe := upcall_safe depth
  suffices invariant : (daemonSystem Quiet depth).Invariant (fun d => ∃ me, Settled (.idle me) d) by
    obtain ⟨me, settled⟩ := invariant.reachable reachable
    exact settled.identity ▸ settled
  constructor
  · rintro state ⟨fresh, start, quiet, rfl⟩
    have own := declareNodeAlive_own safe (start.settled quiet)
    exact ⟨fresh.myID, (firstConnects_settled safe _ 0 own).of_lonely⟩
  · rintro before after ⟨me, settled⟩ ⟨input, replies, hookReplies, clock, quiet, rfl⟩
    refine ⟨me, handleInput_settled safe ?_ input⟩
    exact
      { identity := settled.identity
        quiet := fun _ _ rises => nomatch rises
        hooks := quiet
        election := settled.election }

end Handling

section Runs

structure MasterKnown (d : Daemon) : Prop where
  master : IsLeast {n | n = d.myID ∨ isUp d n = true} (getMasterID d)
  total : d.totNodes = (view d).nodes.card
  client : d.clientStat.isSome = true ↔ getMasterID d = d.myID
  part : d.nodeStat = true ↔ getMasterID d = d.myID

structure SameNodes (d other : Daemon) : Prop where
  same : ∀ n, isUp d n = isUp other n
  self : isUp d d.myID = true
  peer : isUp d other.myID = true

theorem Settled.masterKnown (settled : Settled (.idle d.myID) d)
    (running : d.shutdown = false) (known : knowMaster d = true) :
    MasterKnown d := by
  have holds := settled.election running
  have elected := holds.known known
  refine ⟨⟨?_, ?_⟩, holds.total, elected.client, elected.part rfl⟩
  · rcases elected.candidate.alive with own | isUp | dies
    · exact .inl own
    · exact .inr (mem_nodes.mp isUp)
    · exact nomatch dies
  · rintro n (own | isUp)
    · exact own ▸ elected.candidate.below
    · exact elected.candidate.least n (mem_nodes.mpr isUp) (fun rises => nomatch rises)

theorem MasterKnown.agree {other : Daemon} (first : MasterKnown d)
    (second : MasterKnown other) (same : SameNodes d other) :
    getMasterID d = getMasterID other := by
  have nodes : {n | n = d.myID ∨ isUp d n = true} = {n | n = other.myID ∨ isUp other n = true} := by
    ext n
    simp only [Set.mem_ofPred_eq, ← same.same]
    constructor
    · rintro (own | isUp)
      · exact .inr (own ▸ same.self)
      · exact .inr isUp
    · rintro (own | isUp)
      · exact .inr (own ▸ same.peer)
      · exact .inr isUp
  exact first.master.unique (nodes ▸ second.master)

/-- A daemon with a master knows the right one, and agrees on it with all
others, in every run in which no node is lost while its hooks are called. -/
theorem reachable_master {depth : Nat} {d : Daemon}
    (reachable : (daemonSystem Quiet depth).Reachable d)
    (running : d.shutdown = false) (known : knowMaster d = true) :
    MasterKnown d ∧
      ∀ depth other, (daemonSystem Quiet depth).Reachable other → other.shutdown = false →
        knowMaster other = true → SameNodes d other → getMasterID d = getMasterID other := by
  have first := (reachable_settled reachable).masterKnown running known
  refine ⟨first, ?_⟩
  intro depth other reachable running known same
  exact first.agree ((reachable_settled reachable).masterKnown running known) same

/-- The variables of a daemon of which no connection attempt succeeds. -/
def freshDaemon (myID nrOfNodes : Nat) (hookReplies : Nat → Nat → Reply) : Daemon where
  myID := myID
  nrOfNodes := nrOfNodes
  up := fun _ => false
  totNodes := 0
  masterNode := 0
  timerID := -1
  nextTimer := 1
  clientStat := none
  nodeStat := false
  shutdown := false
  statusTimeout := 2
  deadLimit := 10
  statusBcasts := 0
  maxStatusBcasts := 4
  round := 0
  next := none
  firstUntested := 0
  block := false
  clock := fun _ => 0
  ticks := 0
  replies := fun _ => ⟨[], some .hostunreach⟩
  sent := 0
  hookReplies := hookReplies

theorem freshDaemon_fresh (myID nrOfNodes : Nat)
    (hookReplies : Nat → Nat → Reply) (valid : myID < nrOfNodes) :
    Fresh (freshDaemon myID nrOfNodes hookReplies) :=
  ⟨valid, fun _ => rfl, rfl, rfl, rfl, rfl, rfl, rfl, rfl⟩

def quietHook : Nat → Nat → Reply :=
  fun _ _ => ⟨[], none⟩

theorem reachable_master_startup :
    MasterKnown (startup (upcall 2) (freshDaemon 1 2 quietHook)) := by
  have quiet : Quiet quietHook := fun _ _ member => nomatch member
  have started : (daemonSystem Quiet 2).Reachable
      (startup (upcall 2) (freshDaemon 1 2 quietHook)) :=
    .initial ⟨_, freshDaemon_fresh 1 2 quietHook (by decide), quiet, rfl⟩
  exact (reachable_master started (by decide +kernel) (by decide +kernel)).1

/-- In all the runs allowed, daemons with a master know the right one and agree
on it. -/
def ElectsMaster (allowed : (Nat → Nat → Reply) → Prop) : Prop :=
  ∀ depth d, (daemonSystem allowed depth).Reachable d →
    d.shutdown = false → knowMaster d = true →
    MasterKnown d ∧
      ∀ depth other, (daemonSystem allowed depth).Reachable other → other.shutdown = false →
        knowMaster other = true → SameNodes d other → getMasterID d = getMasterID other

/-- Node 0 is lost while daemon 1 calls the functions at `PSIDHOOK_NODE_UP`
for it. -/
def lostInHook : Nat → Nat → Reply :=
  fun _ _ => ⟨[.lostConnection 0], some .connrefused⟩

def hookDaemon : Daemon :=
  let started := startup (upcall 2) (freshDaemon 1 2 lostInHook)
  handleInput (upcall 2) (.message (.daemonEstablished 0 true))
    { started with
      replies := started.replies, sent := 0, hookReplies := lostInHook,
      clock := started.clock, ticks := 0 }

/-- The node lost becomes the master. -/
theorem not_electsMaster : ¬ElectsMaster (fun _ => True) := by
  intro elects
  have started : (daemonSystem (fun _ => True) 2).Reachable
      (startup (upcall 2) (freshDaemon 1 2 lostInHook)) :=
    .initial ⟨_, freshDaemon_fresh 1 2 lostInHook (by decide), trivial, rfl⟩
  have reachable : (daemonSystem (fun _ => True) 2).Reachable hookDaemon := by
    unfold hookDaemon
    generalize startup (upcall 2) (freshDaemon 1 2 lostInHook) = d at started
    exact .step started ⟨.message (.daemonEstablished 0 true), d.replies,
      lostInHook, d.clock, trivial, rfl⟩
  have known := (elects 2 hookDaemon reachable (by decide +kernel) (by decide +kernel)).1
  have master : getMasterID hookDaemon = 0 := by decide +kernel
  rcases known.master.1 with own | isUp
  · exact absurd own (by decide +kernel)
  · rw [master] at isUp
    exact absurd isUp (by decide +kernel)

end Runs

end Psmgmt.Status
