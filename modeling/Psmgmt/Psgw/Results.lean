import Psmgmt.Psgw.Phases

/-!
# Results for a request

What the results of the gateways' pelogue and of the routing script, the exit
of the forwarder, the timers and the end of the allocation leave.
-/

namespace Psmgmt.Psgw

open World List

/-- The request may be cancelled: its routing script is not still to be
started. -/
def Cancellable (req : Request) (pe : List PeAnswer) : Prop :=
  req.routePID ≠ -2 ∧ Endures req.pelogueState pe

variable {exit : Int}

section Steps

variable {req : Request} {world : World}

/-- Only a routed request is cancelled. -/
theorem Phase.routed_of_pid (phase : Phase req world)
    (pid : req.routePID ≠ -2) : Routed req world ∧ Progress req world := by
  cases phase with
  | awaiting awaiting => exact absurd awaiting.pid pid
  | starting starting => exact absurd starting.pid pid
  | routed routed progress => exact ⟨routed, progress⟩

/-- Only a routed request has been answered. -/
theorem Phase.routed_of_res (phase : Phase req world)
    (gone : req.res = false) : Routed req world ∧ Progress req world := by
  cases phase with
  | awaiting awaiting =>
    have resource := awaiting.res
    rw [gone] at resource
    exact absurd resource Bool.false_ne_true
  | starting starting =>
    have resource := starting.res
    rw [gone] at resource
    exact absurd resource Bool.false_ne_true
  | routed routed progress => exact ⟨routed, progress⟩

theorem Held.cancel_sane (held : Held req world)
    (endures : Endures req.pelogueState world.env.pe) :
    ∃ after, world.cancel = .ok after ∧ Sane after := by
  rcases held.cancels endures world.env.pe.length with
    ⟨after, cancels, cancelled⟩
  exact ⟨after, cancels, cancelled.sane⟩

theorem Routed.put {req' : Request} (routed : Routed req world)
    (res : req'.res = req.res) (pid : req'.routePID = req.routePID)
    (timer : req'.timerRouteScript = req.timerRouteScript ∨ req'.timerRouteScript = -1)
    (part : req'.timerPartReq = -1) : Routed req' world := by
  refine
    { answer := ?_
      script := ?_
      timer := ?_
      part := part
      up := routed.up
      scripts := routed.scripts
      settled := routed.settled
      pid := ?_ }
  · rw [res]
    exact routed.answer
  · rw [pid]
    exact routed.script
  · intro set
    rcases timer with same | unset
    · rw [same] at set ⊢
      exact routed.timer set
    · exact absurd unset set
  · rw [pid]
    exact routed.pid

/-- What the first phases rely on is kept. -/
theorem Fresh.change {req' : Request} {after : World}
    (fresh : Fresh req world)
    (same : req'.routePID = req.routePID ∧ req'.res = req.res ∧
      req'.timerRouteScript = req.timerRouteScript ∧ req'.routeRes = req.routeRes)
    (running : after.running = world.running)
    (answers : ∀ ret, .answer ret ∈ after.trace → .answer ret ∈ world.trace)
    (exits : ∀ exit, .scriptExit exit ∈ after.trace →
      .scriptExit exit ∈ world.trace) : Fresh req' after := by
  rcases same with ⟨pid, res, timer, route⟩
  refine
    { pid := pid.trans fresh.pid
      res := res.trans fresh.res
      unanswered := ?_
      running := running.trans fresh.running
      ended := fun exit member => fresh.ended exit (exits exit member)
      timer := timer.trans fresh.timer
      route := route.trans fresh.route }
  rintro ⟨ret, member⟩
  exact fresh.unanswered ⟨ret, answers ret member⟩

def prologueReturned (exit : Int) (req : Request) (world : World) : World :=
  (({ world with pending := world.pending - 1 } : World).log
    (.prologue exit)).put { req with pelogueState := .prologueFinish }

theorem old_of_prologue {act : Act} (different : act ≠ .prologue exit)
    (member : act ∈ (prologueReturned exit req world).trace) :
    act ∈ world.trace := by
  rcases mem_append.mp member with before | last
  · exact before
  · exact absurd (mem_singleton.mp last) different

theorem sane_prologue (fault : world.fault = none) (lawful : Lawful Allowed world.trace)
    (state : req.pelogueState = .prologueStart) (phase : Phase req world) :
    ∃ after, (prologueReturned 0 req world).finalizeRequest = .ok after ∧ Sane after := by
  have access : (prologueReturned 0 req world).req =
      .ok { req with pelogueState := .prologueFinish } := rfl
  have lawful' : Lawful Allowed (prologueReturned 0 req world).trace := lawful.concat trivial
  have keeps : ∀ act, act ∈ world.trace → act ∈ (prologueReturned 0 req world).trace :=
    fun act member => mem_append_left _ member
  have old : ∀ act, act ≠ .prologue 0 →
      act ∈ (prologueReturned 0 req world).trace → act ∈ world.trace :=
    fun act different member => old_of_prologue different member
  have successful : .prologue 0 ∈ (prologueReturned 0 req world).trace :=
    mem_append_right _ (mem_singleton.mpr rfl)
  have pelogue : Pelogue { req with pelogueState := .prologueFinish }
      (prologueReturned 0 req world) := by
    refine ⟨?_, fun _ => successful, fun unset => (by cases unset)⟩
    rintro (start | start)
    · cases start
    · cases start
  have fresh : Fresh req world →
      Fresh { req with pelogueState := .prologueFinish } (prologueReturned 0 req world) := by
    intro fresh
    refine fresh.change ⟨rfl, rfl, rfl, rfl⟩ rfl ?_ ?_
    · exact fun ret => old _ (fun same => by cases same)
    · exact fun exit => old _ (fun same => by cases same)
  have waits : req.routeRes = -1 →
      (prologueReturned 0 req world).finalizeRequest = .ok (prologueReturned 0 req world) := by
    intro route
    rw [World.finalizeRequest, access, ok_bind, if_pos route]
    rfl
  cases phase with
  | awaiting awaiting =>
    refine ⟨_, waits awaiting.route, fault, lawful', .inr ⟨_, rfl, .awaiting ?_⟩⟩
    exact
      { toFresh := fresh awaiting.toFresh
        part := awaiting.part
        fwdata := awaiting.fwdata
        started := awaiting.started
        scripts := awaiting.scripts
        starts := fun index start =>
          awaiting.starts index (old _ (fun same => by cases same) start) }
  | starting starting =>
    refine ⟨_, waits starting.route, fault, lawful', .inr ⟨_, rfl, .starting ?_⟩⟩
    exact
      { toFresh := fresh starting.toFresh
        settled := starting.settled
        part := starting.part
        scripts := starting.scripts
        some_script := starting.some_script
        count := starting.count
        up := fun index entry here known => keeps _ (starting.up index entry here known)
        starts := fun index start => starting.starts index (old _ (fun same => by cases same) start)
        pelogue := pelogue }
  | routed routed progress =>
    have resource := progress.running state
    have held : Held { req with pelogueState := .prologueFinish } (prologueReturned 0 req world) :=
      ⟨rfl, ((routed.log (by rfl : (Act.prologue 0).neutral = true)).setState
        _).congr rfl rfl rfl, lawful', fault⟩
    rcases progress.route resource with
      ⟨pid, route, running⟩ | ⟨pid, route, exits, _⟩
    · refine ⟨_, waits route, fault, lawful', .inr ⟨_, rfl, .routed held.routed ?_⟩⟩
      refine ⟨fun start => (by cases start), fun _ => pelogue, fun _ => ?_⟩
      exact .inl ⟨pid, route, running⟩
    · have finalized : (prologueReturned 0 req world).finalizeRequest =
          .ok (((prologueReturned 0 req world).log (.answer 1)).put
            { req with pelogueState := .prologueFinish, res := false }) := by
        rw [World.finalizeRequest, access, ok_bind, if_neg, if_neg, if_neg]
        · rfl
        · intro gone
          have res : req.res = false := gone
          rw [resource] at res
          exact absurd res.symm Bool.false_ne_true
        · exact fun start => by cases start
        · intro waiting
          have unset : req.routeRes = -1 := waiting
          rw [route] at unset
          exact absurd unset (by decide)
      rcases held.answer (by exact resource : req.res = true)
        (fun _ => ⟨keeps _ exits, successful⟩ : (1 : Int) ≠ 0 → _) with
          ⟨answered, _⟩
      refine ⟨_, finalized, answered.fault, answered.lawful,
        .inr ⟨_, answered.request, .routed answered.routed ?_⟩⟩
      exact ⟨fun start => (by cases start),
        fun gone => absurd gone Bool.false_ne_true,
        fun gone => absurd gone Bool.false_ne_true⟩

/-- The gateways have returned a result. -/
theorem sane_pelogueResult (fault : world.fault = none)
    (lawful : Lawful Allowed world.trace) (request : world.request = some req)
    (phase : Phase req world) (fits : if req.pelogueState = .prologueStart then
        exit ≠ 0 → req.routePID ≠ -2 ∧ Endures .prologueFinish world.env.pe
      else req.res = false) :
    ∃ after, ({ world with pending := world.pending - 1 } : World).handleResult
      World.cancel exit = .ok after ∧ Sane after := by
  rw [World.handleResult]
  dsimp only
  rw [request]
  dsimp only
  split
  · next state =>
      rw [if_pos state] at fits
      split
      · next failed =>
          rcases fits failed with ⟨pid, endures⟩
          rcases phase.routed_of_pid pid with ⟨routed, _⟩
          have held : Held { req with pelogueState := .prologueFinish }
              (prologueReturned exit req world) :=
            ⟨rfl, ((routed.log (by rfl : (Act.prologue exit).neutral = true)).setState
                _).congr rfl rfl rfl, lawful.concat trivial, fault⟩
          exact held.cancel_sane endures
      · next succeeded =>
          have zero : exit = 0 := not_not.mp succeeded
          rw [zero]
          exact sane_prologue fault lawful state phase
  · next state =>
      rw [if_neg state] at fits
      rcases phase.routed_of_res fits with ⟨routed, _⟩
      have held : Held req world := ⟨request, routed, lawful, fault⟩
      have answered := held.answered fits
      refine ⟨{ ({ world with pending := world.pending - 1 } : World).log
        .delete with request := none, pending := 0 }, ?_, fault,
        lawful.concat trivial, .inl ⟨rfl, (answered_append rfl).mpr answered⟩⟩
      rw [World.requestDelete, World.req]
      dsimp only
      rw [request]
      rfl

def scriptEnded (exit : Int) (req : Request) : Request :=
  { req with timerRouteScript := -1, routeRes := exit, routePID := -1 }

def scriptReturned (exit : Int) (timers : List (Int × TimerKind))
    (req : Request) (world : World) : World :=
  (({ world with running := false, timers := timers } : World).log
    (.scriptExit exit)).put (scriptEnded exit req)

theorem Routed.scriptReturned (routed : Routed req world) (exit : Int)
    (timers : List (Int × TimerKind)) :
    Routed (scriptEnded exit req) (Psgw.scriptReturned exit timers req world) := by
  have old : ∀ act, act ≠ .scriptExit exit →
      act ∈ (Psgw.scriptReturned exit timers req world).trace → act ∈ world.trace := by
    intro act different member
    rcases mem_append.mp member with before | last
    · exact before
    · exact absurd (mem_singleton.mp last) different
  have answered : Answered (Psgw.scriptReturned exit timers req world).trace ↔
      Answered world.trace := by
    constructor
    · rintro ⟨ret, member⟩
      exact ⟨ret, old _ (fun same => by cases same) member⟩
    · rintro ⟨ret, member⟩
      exact ⟨ret, mem_append_left _ member⟩
  refine
    { answer := routed.answer.trans (not_congr answered.symm)
      script := fun started => absurd rfl started
      timer := fun set => absurd rfl set
      part := routed.part
      up := ?_
      scripts := routed.scripts
      settled := routed.settled
      pid := fun same => absurd same (show (-1 : Int) ≠ -2 by decide) }
  intro index start
  exact mem_append_left _ (routed.up index (old _ (fun same => by cases same) start))

theorem sane_routed {timers : List (Int × TimerKind)} (fault : world.fault = none)
    (lawful : Lawful Allowed world.trace) (routed : Routed req world)
    (progress : Progress req world) (resource : req.res = true)
    (prologue : req.pelogueState = .epilogueStart → .prologue 0 ∈ world.trace) :
    ∃ after, (scriptReturned 0 timers req world).finalizeRequest = .ok after ∧ Sane after := by
  have access : (scriptReturned 0 timers req world).req = .ok (scriptEnded 0 req) := rfl
  have held : Held (scriptEnded 0 req) (scriptReturned 0 timers req world) :=
    ⟨rfl, routed.scriptReturned 0 timers, lawful.concat trivial, fault⟩
  have keeps : ∀ act, act ∈ world.trace → act ∈ (scriptReturned 0 timers req world).trace :=
    fun act member => mem_append_left _ member
  have ended : .scriptExit 0 ∈ (scriptReturned 0 timers req world).trace :=
    mem_append_right _ (mem_singleton.mpr rfl)
  have pelogue := progress.pelogue resource
  by_cases state : req.pelogueState = .prologueStart
  · have waits : (scriptReturned 0 timers req world).finalizeRequest =
        .ok (scriptReturned 0 timers req world) := by
      rw [World.finalizeRequest, access, ok_bind, if_neg, if_pos]
      · rfl
      · exact state
      · exact fun unset => absurd unset (show (0 : Int) ≠ -1 by decide)
    refine ⟨_, waits, fault, held.lawful, .inr ⟨_, rfl, .routed held.routed ?_⟩⟩
    refine ⟨fun _ => resource, fun _ => ?_, fun _ => ?_⟩
    · exact ⟨pelogue.expected, fun finish => keeps _ (pelogue.finished finish), pelogue.set⟩
    · refine .inr ⟨rfl, rfl, ended, ?_⟩
      intro finish
      have finished : req.pelogueState = .prologueFinish := finish
      rw [state] at finished
      cases finished
  · have successful : .prologue 0 ∈ world.trace := by
      cases here : req.pelogueState with
      | unset => exact absurd here pelogue.set
      | prologueStart => exact absurd here state
      | prologueFinish => exact pelogue.finished here
      | epilogueStart => exact prologue here
    have finalized : (scriptReturned 0 timers req world).finalizeRequest =
        .ok (((scriptReturned 0 timers req world).log (.answer 1)).put
          { scriptEnded 0 req with res := false }) := by
      rw [World.finalizeRequest, access, ok_bind, if_neg, if_neg, if_neg]
      · rfl
      · intro gone
        have res : req.res = false := gone
        rw [resource] at res
        exact absurd res.symm Bool.false_ne_true
      · exact state
      · exact fun unset => absurd unset (show (0 : Int) ≠ -1 by decide)
    rcases held.answer (by exact resource : req.res = true)
      (fun _ => ⟨ended, keeps _ successful⟩ : (1 : Int) ≠ 0 → _) with
        ⟨answered, _⟩
    refine ⟨_, finalized, answered.fault, answered.lawful,
      .inr ⟨_, answered.request, .routed answered.routed ?_⟩⟩
    exact ⟨fun start => absurd start state,
      fun gone => absurd gone Bool.false_ne_true,
      fun gone => absurd gone Bool.false_ne_true⟩

/-- The routing script has ended. -/
theorem sane_scriptExit (fault : world.fault = none)
    (lawful : Lawful Allowed world.trace) (request : world.request = some req)
    (phase : Phase req world) (running : world.running = true)
    (fits : if exit = 0 then
        req.res = true ∧ (req.pelogueState = .epilogueStart → .prologue 0 ∈ world.trace)
      else Endures req.pelogueState world.env.pe) :
    ∃ after, ({ world with running := false } : World).cbRouteScript exit =
      .ok after ∧ Sane after := by
  have routed : Routed req world ∧ Progress req world := by
    cases phase with
    | awaiting awaiting =>
      have idle := awaiting.running
      rw [running] at idle
      exact absurd idle.symm Bool.false_ne_true
    | starting starting =>
      have idle := starting.running
      rw [running] at idle
      exact absurd idle.symm Bool.false_ne_true
    | routed routed progress => exact ⟨routed, progress⟩
  rcases routed with ⟨routed, progress⟩
  have shape : ∃ timers, ({ world with running := false } : World).cbRouteScript exit =
        if exit ≠ 0 then (scriptReturned exit timers req world).cancel
        else (scriptReturned exit timers req world).finalizeRequest := by
    rw [World.cbRouteScript]
    dsimp only
    rw [request]
    dsimp only
    by_cases set : req.timerRouteScript ≠ -1
    · refine ⟨world.timers.filter (fun timer => timer.1 ≠ req.timerRouteScript), ?_⟩
      rw [if_pos set]
      rfl
    · refine ⟨world.timers, ?_⟩
      rw [if_neg set]
      rfl
  rcases shape with ⟨timers, shape⟩
  rw [shape]
  split
  · next failed =>
      rw [if_neg failed] at fits
      have held : Held (scriptEnded exit req) (scriptReturned exit timers req world) :=
        ⟨rfl, routed.scriptReturned exit timers, lawful.concat trivial, fault⟩
      exact held.cancel_sane fits
  · next succeeded =>
      have zero : exit = 0 := not_not.mp succeeded
      rw [if_pos zero] at fits
      rw [zero]
      exact sane_routed fault lawful routed progress fits.1 fits.2

theorem sane_forwarderExit {status : Int} (fault : world.fault = none)
    (lawful : Lawful Allowed world.trace) (request : world.request = some req)
    (phase : Phase req world)
    (fits : if status = 0 then world.part = .settled
      else Cancellable req world.env.pe) :
    ∃ after, ({ world with
        forwarder := false
        part := if world.part = Partition.refused then .settled
          else world.part } : World).fwCallback status = .ok after ∧
      Sane after := by
  have part : world.part = .settled →
      (if world.part = Partition.refused then .settled else world.part) = Partition.settled := by
    intro settled
    rw [settled]
    rfl
  have put : ∀ routed : Routed req world,
      Routed { req with fwdata := false } (({ world with
        forwarder := false
        part := if world.part = Partition.refused then .settled
          else world.part } : World).put { req with fwdata := false }) := by
    intro routed
    have changed : Routed { req with fwdata := false } world :=
      routed.put rfl rfl (.inl rfl) routed.part
    refine changed.congr rfl rfl ?_
    exact (part routed.settled).trans routed.settled.symm
  rw [World.fwCallback]
  dsimp only
  rw [request]
  dsimp only
  split
  · next failed =>
      rw [if_neg failed] at fits
      rcases phase.routed_of_pid fits.1 with ⟨routed, _⟩
      have held : Held { req with fwdata := false } (({ world with
          forwarder := false
          part := if world.part = Partition.refused then .settled
            else world.part } : World).put { req with fwdata := false }) :=
        ⟨rfl, put routed, lawful, fault⟩
      exact held.cancel_sane fits.2
  · next succeeded =>
      rw [if_pos (not_not.mp succeeded)] at fits
      refine ⟨_, rfl, fault, lawful, .inr ⟨_, rfl, ?_⟩⟩
      cases phase with
      | awaiting awaiting => exact absurd fits awaiting.part
      | starting starting =>
        refine .starting
          { toFresh := starting.toFresh.change ⟨rfl, rfl, rfl, rfl⟩ rfl
              (fun _ member => member) (fun _ member => member)
            settled := part fits
            part := starting.part
            scripts := starting.scripts
            some_script := starting.some_script
            count := starting.count
            up := starting.up
            starts := starting.starts
            pelogue := ?_ }
        exact ⟨starting.pelogue.expected, starting.pelogue.finished, starting.pelogue.set⟩
      | routed routed progress =>
        refine .routed (put routed) ⟨progress.running, ?_, progress.route⟩
        intro resource
        have pelogue := progress.pelogue resource
        exact ⟨pelogue.expected, pelogue.finished, pelogue.set⟩

theorem sane_timeout {id : Int} {kind : TimerKind} (fault : world.fault = none)
    (lawful : Lawful Allowed world.trace) (request : world.request = some req)
    (phase : Phase req world) (fits : Cancellable req world.env.pe) :
    ∃ after, world.handle (.timeout id kind) = .ok after ∧ Sane after := by
  rcases phase.routed_of_pid fits.1 with ⟨routed, _⟩
  cases kind with
  | part =>
    have changed : Routed { req with timerPartReq := -1 } world := routed.put rfl rfl (.inl rfl) rfl
    have held : Held { req with timerPartReq := -1 }
        ((world.removeTimer id).put { req with timerPartReq := -1 }) :=
      ⟨rfl, changed.congr rfl rfl rfl, lawful, fault⟩
    have shape : world.handle (.timeout id .part) =
        ((world.removeTimer id).put { req with timerPartReq := -1 }).cancel := by
      rw [World.handle, World.partTimeout, World.removeTimer]
      dsimp only
      rw [request]
    rw [shape]
    exact held.cancel_sane fits.2
  | script =>
    have changed : Routed { req with timerRouteScript := -1 } world :=
      routed.put rfl rfl (.inr rfl) routed.part
    have held : Held { req with timerRouteScript := -1 }
        ((world.removeTimer id).put { req with timerRouteScript := -1 }) :=
      ⟨rfl, changed.congr rfl rfl rfl, lawful, fault⟩
    have shape : world.handle (.timeout id .script) =
        ((world.removeTimer id).put { req with timerRouteScript := -1 }).cancel := by
      rw [World.handle, World.routeScriptTimeout, World.removeTimer]
      dsimp only
      rw [request]
    rw [shape]
    exact held.cancel_sane fits.2

theorem sane_finAlloc (fault : world.fault = none)
    (lawful : Lawful Allowed world.trace) (request : world.request = some req)
    (phase : Phase req world)
    (fits : match peAt 0 world.env.pe with
      | .missing => req.res = false
      | .sent => True
      | .dropped => req.routePID ≠ -2 ∧ Recovers 1 req.pelogueState world.env.pe) :
    ∃ after, world.handleFinAlloc = .ok after ∧ Sane after := by
  have shape : world.handleFinAlloc = world.startEpilogue world.dropped := by
    rw [World.handleFinAlloc, request]
  rw [shape]
  have same : world.peAnswer = peAt 0 world.env.pe := rfl
  cases answer : peAt 0 world.env.pe with
  | missing =>
    rw [answer] at fits same
    rcases phase.routed_of_res fits with ⟨routed, _⟩
    have held : Held req world := ⟨request, routed, lawful, fault⟩
    rcases held.start_missing (held.answered fits) same world.dropped with
      ⟨after, started, cancelled⟩
    exact ⟨after, started, cancelled.sane⟩
  | dropped =>
    rw [answer] at fits same
    rcases phase.routed_of_pid fits.1 with ⟨routed, _⟩
    have held : Held req world := ⟨request, routed, lawful, fault⟩
    rcases held.start_dropped same fits.2 world.env.pe.length with
      ⟨after, started, cancelled⟩
    exact ⟨after, started, cancelled.sane⟩
  | sent =>
    rw [answer] at same
    have pelogue : ∀ state : Pelogue req world, Pelogue { req with pelogueState := .epilogueStart }
          ({ world.nextPe with pending := world.pending + 1 }.put
            { req with pelogueState := .epilogueStart }) := by
      intro _
      exact ⟨fun _ => Nat.succ_pos _, fun finish => (by cases finish),
        fun unset => (by cases unset)⟩
    refine ⟨_, startEpilogue_sent request same _, fault, lawful, .inr ⟨_, rfl, ?_⟩⟩
    cases phase with
    | awaiting awaiting =>
      exact .awaiting
        { toFresh := awaiting.toFresh.change ⟨rfl, rfl, rfl, rfl⟩ rfl
            (fun _ member => member) (fun _ member => member)
          part := awaiting.part
          fwdata := awaiting.fwdata
          started := awaiting.started
          scripts := awaiting.scripts
          starts := awaiting.starts }
    | starting starting =>
      exact .starting
        { toFresh := starting.toFresh.change ⟨rfl, rfl, rfl, rfl⟩ rfl
            (fun _ member => member) (fun _ member => member)
          settled := starting.settled
          part := starting.part
          scripts := starting.scripts
          some_script := starting.some_script
          count := starting.count
          up := starting.up
          starts := starting.starts
          pelogue := pelogue starting.pelogue }
    | routed routed progress =>
      refine .routed ((routed.setState _).congr rfl rfl rfl) ?_
      refine ⟨fun start => (by cases start),
        fun resource => pelogue (progress.pelogue resource), ?_⟩
      intro resource
      rcases progress.route resource with
        running | ⟨pid, route, ended, _⟩
      · exact .inl running
      · exact .inr ⟨pid, route, ended, fun finish => (by cases finish)⟩

end Steps

end Psmgmt.Psgw
