import Psmgmt.Psgw.Results

/-!
# Starting the gateways' daemons

A partition that is received lets the prologue and the daemons be started.  Once
all of them have told their addresses the routing script is.
-/

namespace Psmgmt.Psgw

open World List Bool

def scriptStarted : ExecAnswer := { started := true, dropped := none }

section Address

variable {req : Request} {world : World}

theorem Routed.setTimer (routed : Routed req world) {id : Int}
    (registered : .registered id ∈ world.trace) :
    Routed { req with timerRouteScript := id } world :=
  ⟨routed.answer, routed.script, fun _ => registered, routed.part, routed.up,
    routed.scripts, routed.settled, routed.pid⟩

/-- All psgwd have told their addresses. -/
structure Complete (req : Request) (world : World) : Prop
    extends Fresh req world where
  request : world.request = some req
  fault : world.fault = none
  lawful : Lawful Allowed world.trace
  settled : world.part = .settled
  part : req.timerPartReq = -1
  scripts : world.scripts = []
  up : ∀ index, .startPsgwd index ∈ world.trace → .psgwdUp index ∈ world.trace
  pelogue : Pelogue req world

/-- The routing script cannot be started. -/
theorem Complete.unrouted (complete : Complete req world) :
    Held { req with routePID := -1 } (world.put { req with routePID := -1 }) := by
  refine ⟨rfl, ?_, complete.lawful, complete.fault⟩
  exact
    { answer := iff_of_true complete.res complete.unanswered
      script := fun started => absurd rfl started
      timer := fun set => absurd complete.timer set
      part := complete.part
      up := complete.up
      scripts := complete.scripts
      settled := complete.settled
      pid := fun same => absurd same (show (-1 : Int) ≠ -2 by decide) }

def routing (pid : Nat) (req : Request) (world : World) : World :=
  ({ world.log (.execScript pid) with running := true }).put { req with routePID := pid }

theorem Complete.routing (complete : Complete req world) (pid : Nat) :
    Held { req with routePID := pid } (Psgw.routing pid req world) := by
  have started : (pid : Int) ≠ -2 := by omega
  have keeps : ∀ act, act ∈ world.trace → act ∈ (Psgw.routing pid req world).trace :=
    fun act member => mem_append_left _ member
  have old : ∀ act, act ≠ .execScript pid →
      act ∈ (Psgw.routing pid req world).trace → act ∈ world.trace := by
    intro act different member
    rcases mem_append.mp member with before | last
    · exact before
    · exact absurd (mem_singleton.mp last) different
  refine ⟨rfl, ?_, complete.lawful.concat trivial, complete.fault⟩
  refine
    { answer := ?_
      script := ?_
      timer := fun set => absurd complete.timer set
      part := complete.part
      up := ?_
      scripts := complete.scripts
      settled := complete.settled
      pid := started }
  · refine iff_of_true complete.res ?_
    rintro ⟨ret, member⟩
    exact complete.unanswered ⟨ret, old _ (fun same => by cases same) member⟩
  · intro _
    refine ⟨mem_append_right _ (mem_singleton.mpr rfl), ?_⟩
    intro exit ended
    exact complete.ended exit (old _ (fun same => by cases same) ended)
  · intro index start
    exact keeps _ (complete.up index (old _ (fun same => by cases same) start))

theorem Complete.progress (complete : Complete req world) (pid : Nat) {req' : Request}
    {after : World} (res : req'.res = req.res) (state : req'.pelogueState = req.pelogueState)
    (script : req'.routePID = pid) (route : req'.routeRes = req.routeRes)
    (running : after.running = true) (pending : after.pending = world.pending)
    (keeps : ∀ act, act ∈ world.trace → act ∈ after.trace) :
    Progress req' after := by
  have resource := res.trans complete.res
  refine ⟨fun _ => resource, fun _ => ⟨?_, ?_, ?_⟩, fun _ => .inl ?_⟩
  · rw [state, pending]
    exact complete.pelogue.expected
  · rw [state]
    exact fun finish => keeps _ (complete.pelogue.finished finish)
  · rw [state]
    exact complete.pelogue.set
  · refine ⟨?_, route.trans complete.route, running⟩
    rw [script]
    omega

theorem Complete.sane (complete : Complete req world) (getpwnam : world.env.getpwnam = true)
    (fails : world.env.script = none → Endures req.pelogueState world.env.pe) :
    ∃ after, (world.execRoutingScript >>= fun result =>
        if result.1 = true then Except.ok result.2 else result.2.cancel) =
      .ok after ∧ Sane after := by
  have access : world.req = .ok req := by
    rw [World.req, complete.request]
  have there : ¬req.res = false := by
    rw [complete.res]
    exact false_ne_true.symm
  have known : ¬world.env.getpwnam = false := by
    rw [getpwnam]
    exact false_ne_true.symm
  rw [World.execRoutingScript, access, ok_bind, if_neg there, if_neg known]
  cases script : world.env.script with
  | none => exact complete.unrouted.cancel_sane (fails script)
  | some pid =>
    dsimp only [World.log]
    have held := complete.routing pid
    have keeps : ∀ act, act ∈ world.trace → act ∈ (Psgw.routing pid req world).trace :=
      fun act member => mem_append_left _ member
    cases timer : world.env.timer with
    | none =>
      dsimp only
      refine ⟨Psgw.routing pid req world, rfl, held.fault, held.lawful,
        .inr ⟨_, rfl, .routed held.routed ?_⟩⟩
      exact complete.progress pid rfl rfl rfl rfl rfl rfl keeps
    | some registers =>
      dsimp only
      cases registers with
      | false =>
        have unset : Routed { req with
            routePID := pid, timerRouteScript := -1 }
            (Psgw.routing pid req world) :=
          held.routed.put rfl rfl (.inr rfl) complete.part
        refine ⟨(Psgw.routing pid req world).put { req with
          routePID := pid, timerRouteScript := -1 }, rfl, held.fault,
          held.lawful,
          .inr ⟨_, rfl, .routed (unset.congr rfl rfl rfl) ?_⟩⟩
        exact complete.progress pid rfl rfl rfl rfl rfl rfl keeps
      | true =>
        have logged := held.log
          (by rfl : (Act.registered world.nextTimer).neutral = true)
          trivial
        have set := logged.routed.setTimer (mem_append_right _ (mem_singleton.mpr rfl))
        refine ⟨({ (Psgw.routing pid req world).log (.registered world.nextTimer) with
          timers := (world.nextTimer, .script) :: world.timers
          nextTimer := world.nextTimer + 1 }).put { req with
            routePID := pid, timerRouteScript := world.nextTimer }, rfl,
          logged.fault, logged.lawful,
          .inr ⟨_, rfl, .routed (set.congr rfl rfl rfl) ?_⟩⟩
        refine complete.progress pid rfl rfl rfl rfl rfl rfl ?_
        exact fun act member => mem_append_left _ (keeps act member)

theorem sane_startResult {dest exit : Int}
    {output : Option (List Char × Int)} (fault : world.fault = none)
    (lawful : Lawful Allowed world.trace) (request : world.request = some req)
    (phase : Phase req world) (running : dest ∈ world.scripts)
    (fits : if exit = 0 ∧ output ≠ none then
        req.numGWstarted + 1 = req.psgwd.length → world.env.getpwnam = true ∧
            (world.env.script = none → Endures req.pelogueState world.env.pe)
      else Cancellable req world.env.pe) :
    ∃ after, ({ world with scripts := world.scripts.erase dest } :
      World).cbStartPSGWD dest exit output = .ok after ∧ Sane after := by
  have starting : Starting req world := by
    cases phase with
    | awaiting awaiting =>
      rw [awaiting.scripts] at running
      cases running
    | starting starting => exact starting
    | routed routed _ =>
      rw [routed.scripts] at running
      cases running
  by_cases good : exit = 0 ∧ output ≠ none
  · rw [if_pos good] at fits
    rcases Option.ne_none_iff_exists'.mp good.2 with ⟨⟨addr, pid⟩, told⟩
    have expected := starting.scripts.subset running
    rcases @saveAddr_spec dest pid addr req.psgwd expected with
      ⟨index, psgwd, saved, length, perm, up⟩
    have scripts : (world.scripts.erase dest).Perm (missing psgwd) := by
      have erased := (starting.scripts.trans perm).erase dest
      rw [erase_cons_head] at erased
      exact erased
    have shorter := length_erase_of_mem running
    have positive := length_pos_of_mem running
    have count := starting.count
    have shape : ({ world with scripts := world.scripts.erase dest } :
        World).cbStartPSGWD dest exit output =
        if psgwd.length = req.numGWstarted + 1 then
          ((({ world with scripts := world.scripts.erase dest } : World).log
            (.psgwdUp index)).put { req with
              psgwd := psgwd, numGWstarted := req.numGWstarted + 1
            }).execRoutingScript >>= fun result =>
              if result.1 = true then Except.ok result.2 else result.2.cancel
        else .ok ((({ world with scripts := world.scripts.erase dest } :
          World).log (.psgwdUp index)).put { req with
            psgwd := psgwd, numGWstarted := req.numGWstarted + 1 }) := by
      rw [World.cbStartPSGWD]
      dsimp only
      rw [request, told]
      dsimp only
      rw [if_neg (not_not.mpr good.1), saved]
      rfl
    rw [shape]
    have keeps : ∀ act, act ∈ world.trace → act ∈ world.trace ++ [.psgwdUp index] :=
      fun act member => mem_append_left _ member
    have old : ∀ act, act ≠ .psgwdUp index →
        act ∈ world.trace ++ [.psgwdUp index] → act ∈ world.trace := by
      intro act different member
      rcases mem_append.mp member with before | last
      · exact before
      · exact absurd (mem_singleton.mp last) different
    have fresh : Fresh { req with
        psgwd := psgwd, numGWstarted := req.numGWstarted + 1 }
        ((({ world with scripts := world.scripts.erase dest } : World).log
          (.psgwdUp index)).put { req with
            psgwd := psgwd, numGWstarted := req.numGWstarted + 1 }) := by
      refine starting.toFresh.change ⟨rfl, rfl, rfl, rfl⟩ rfl ?_ ?_
      · exact fun ret => old _ (fun same => by cases same)
      · exact fun exit => old _ (fun same => by cases same)
    have ups : ∀ (other : Nat) (entry : Psgwd), psgwd[other]? = some entry →
        entry.addr ≠ none → .psgwdUp other ∈ world.trace ++ [.psgwdUp index] := by
      intro other entry here known
      rcases up other entry here known with same | ⟨before, there, set⟩
      · rw [same]
        exact mem_append_right _ (mem_singleton.mpr rfl)
      · exact keeps _ (starting.up other before there set)
    have starts : ∀ other, .startPsgwd other ∈
        world.trace ++ [.psgwdUp index] → other < psgwd.length := by
      intro other start
      rw [length]
      exact starting.starts other (old _ (fun same => by cases same) start)
    have pelogue : Pelogue { req with
        psgwd := psgwd, numGWstarted := req.numGWstarted + 1 }
        ((({ world with scripts := world.scripts.erase dest } : World).log
          (.psgwdUp index)).put { req with
            psgwd := psgwd, numGWstarted := req.numGWstarted + 1 }) :=
      ⟨starting.pelogue.expected,
        fun finish => keeps _ (starting.pelogue.finished finish),
        starting.pelogue.set⟩
    split
    · next last =>
        have none_left : world.scripts.erase dest = [] := by
          apply eq_nil_of_length_eq_zero
          omega
        have known : ∀ entry ∈ psgwd, entry.addr ≠ none := by
          apply missing_nil_iff.mp
          rw [none_left] at scripts
          exact perm_nil.mp scripts.symm
        have complete : Complete { req with
            psgwd := psgwd, numGWstarted := req.numGWstarted + 1 }
            ((({ world with scripts := world.scripts.erase dest } :
              World).log (.psgwdUp index)).put { req with
                psgwd := psgwd, numGWstarted := req.numGWstarted + 1 }) := by
          refine
            { toFresh := fresh
              request := rfl
              fault := fault
              lawful := lawful.concat trivial
              settled := starting.settled
              part := starting.part
              scripts := none_left
              up := ?_
              pelogue := pelogue }
          intro other start
          have inside := starts other start
          exact ups other psgwd[other] (getElem?_eq_getElem inside) (known _ (getElem_mem inside))
        rcases fits (by omega) with ⟨getpwnam, fails⟩
        exact complete.sane getpwnam fails
    · next more =>
        refine ⟨_, rfl, fault, lawful.concat trivial, .inr ⟨_, rfl, .starting ?_⟩⟩
        exact
          { toFresh := fresh
            settled := starting.settled
            part := starting.part
            scripts := scripts
            some_script := by
              intro none_left
              have empty : (world.scripts.erase dest).length = 0 := congrArg List.length none_left
              omega
            count := by
              show req.numGWstarted + 1 + (world.scripts.erase dest).length = psgwd.length
              omega
            up := ups
            starts := starts
            pelogue := pelogue }
  · rw [if_neg good] at fits
    exact absurd starting.pid fits.1

end Address

structure Launching (req : Request) (world : World) (count : Nat) : Prop
    extends Fresh req world where
  request : world.request = some req
  fault : world.fault = none
  lawful : Lawful Allowed world.trace
  settled : world.part = .settled
  part : req.timerPartReq = -1
  free : ∀ entry ∈ req.psgwd, entry.addr = none
  scripts : world.scripts = (req.psgwd.take count).map Psgwd.node
  starts : ∀ index, .startPsgwd index ∈ world.trace → index < count
  started : req.numGWstarted = 0
  pelogue : Pelogue req world

section Launch

variable {req : Request} {world : World} {count : Nat}

theorem Launching.starting (launching : Launching req world req.psgwd.length)
    (some_psgwd : 0 < req.psgwd.length) : Starting req world := by
  have scripts : world.scripts = req.psgwd.map Psgwd.node := by
    rw [launching.scripts, take_length]
  have all : missing req.psgwd = req.psgwd.map Psgwd.node := by
    rw [missing, filter_eq_self.mpr]
    intro entry member
    exact decide_eq_true (launching.free entry member)
  have length : world.scripts.length = req.psgwd.length := by
    rw [scripts, length_map]
  refine
    { toFresh := launching.toFresh
      settled := launching.settled
      part := launching.part
      scripts := ?_
      some_script := ?_
      count := ?_
      up := ?_
      starts := launching.starts
      pelogue := launching.pelogue }
  · rw [scripts, all]
  · intro empty
    rw [empty, length_nil] at length
    omega
  · rw [launching.started, length, Nat.zero_add]
  · intro index entry here known
    exact absurd (launching.free entry (mem_of_getElem? here)) known

theorem Launching.startNext (launching : Launching req world count)
    (room : count < req.psgwd.length) (node : Int) (answer : world.execAnswer = scriptStarted) :
    ∃ req' after, world.startNext node count = .ok (true, after) ∧
      Launching req' after (count + 1) ∧
        req'.psgwd.length = req.psgwd.length ∧ after.env.exec = world.env.exec.tail := by
  have access : world.req = .ok req := by
    rw [World.req, launching.request]
  have taken : (req.psgwd.modify count (fun entry => { entry with node := node })).take (count + 1)
      = req.psgwd.take count ++ [{ req.psgwd[count] with node := node }] := by
    have split := modify_eq_take_cons_drop (f := fun entry : Psgwd =>
      { entry with node := node }) room
    have length : (req.psgwd.take count).length = count := by
      rw [length_take]
      omega
    rw [split, take_append, length, take_take]
    simp
  have old : ∀ act, act ≠ .startPsgwd count →
      act ∈ world.trace ++ [.startPsgwd count] → act ∈ world.trace := by
    intro act different member
    rcases mem_append.mp member with before | last
    · exact before
    · exact absurd (mem_singleton.mp last) different
  refine ⟨{ req with
      psgwd := req.psgwd.modify count (fun entry => { entry with node := node }) },
    { ((world.log (.startPsgwd count)).nextExec.put { req with
        psgwd := req.psgwd.modify count (fun entry => { entry with node := node }) }) with
      scripts := world.scripts ++ [node] }, ?_, ?_, ?_, rfl⟩
  · rw [World.startNext, access, ok_bind, if_neg (by omega), answer]
    rfl
  · refine
      { toFresh := ?_
        request := rfl
        fault := launching.fault
        lawful := launching.lawful.concat trivial
        settled := launching.settled
        part := launching.part
        free := ?_
        scripts := ?_
        starts := ?_
        started := launching.started
        pelogue := ?_ }
    · refine launching.toFresh.change ⟨rfl, rfl, rfl, rfl⟩ rfl ?_ ?_
      · exact fun ret => old _ (fun same => by cases same)
      · exact fun exit => old _ (fun same => by cases same)
    · intro entry member
      rw [mem_iff_getElem?] at member
      rcases member with ⟨index, here⟩
      rw [getElem?_modify] at here
      cases before : req.psgwd[index]? with
      | none =>
        rw [before] at here
        cases here
      | some former =>
        have free := launching.free former (mem_of_getElem? before)
        rw [before] at here
        have same := Option.some.inj here
        rw [← same]
        split
        · exact free
        · exact free
    · show world.scripts ++ [node] = _
      dsimp only
      rw [taken, map_append, launching.scripts]
      rfl
    · intro index start
      rcases mem_append.mp start with before | last
      · exact Nat.lt_succ_of_lt (launching.starts index before)
      · have same := mem_singleton.mp last
        injection same with equal
        omega
    · exact ⟨launching.pelogue.expected,
        fun finish => mem_append_left _ (launching.pelogue.finished finish), launching.pelogue.set⟩
  · exact length_modify _ _ _

theorem Launching.startAll {nodes : List Int} (launching : Launching req world count)
    (room : count + nodes.length = req.psgwd.length)
    (exec : ∀ answer ∈ world.env.exec.take nodes.length, answer = scriptStarted) :
    ∃ req' after, World.startAll nodes count world = .ok after ∧
      Launching req' after req'.psgwd.length ∧ req'.psgwd.length = req.psgwd.length := by
  induction nodes generalizing req world count with
  | nil =>
    refine ⟨req, world, ?_, ?_, rfl⟩
    · rw [World.startAll, World.req, launching.request]
      rfl
    · rw [← room]
      exact launching
  | cons node nodes induction =>
    rw [length_cons] at room exec
    have answer : world.execAnswer = scriptStarted := by
      rw [World.execAnswer]
      cases answers : world.env.exec with
      | nil => rfl
      | cons first rest =>
        rw [answers, take_succ_cons] at exec
        exact exec first mem_cons_self
    rcases launching.startNext (by omega) node answer with
      ⟨req', after, started, next, length, tail⟩
    have later : ∀ answer ∈ after.env.exec.take nodes.length, answer = scriptStarted := by
      rw [tail]
      intro answer member
      apply exec
      cases answers : world.env.exec with
      | nil =>
        rw [answers] at member
        simp at member
      | cons first rest =>
        rw [answers] at member
        rw [take_succ_cons]
        exact mem_cons_of_mem first member
    rcases induction next (by omega) later with
      ⟨req'', last, ended, launched, same⟩
    refine ⟨req'', last, ?_, launched, same.trans length⟩
    rw [World.startAll, started]
    exact ended

/-- The number of psgwd on the nodes of a partition. -/
def numPSGWD (nodes : List Int) (req : Request) : Nat := nodes.length * req.psgwdPerNode.toNat

theorem targets_length (req : Request) : (targets req).length = numPSGWD req.gwNodes req := by
  rw [targets, length_flatMap, numPSGWD]
  simp

/-- The request once its partition is received. -/
def placed (nodes : List Int) (req : Request) : Request :=
  { setNodes nodes { req with timerPartReq := -1 } with
    pelogueState := .prologueStart }

def prologueStarted (nodes : List Int) (timers : List (Int × TimerKind))
    (req : Request) (world : World) : World :=
  { world with
    part := .settled
    timers := timers
    request := some (placed nodes req)
    env := { world.env with pe := world.env.pe.tail }
    pending := world.pending + 1 }

theorem handleReceivePart_eq {nodes : List Int} (request : world.request = some req)
    (fwdata : req.fwdata = true) (res : req.res = true) (addJob : world.env.addJob = true)
    (sent : peAt 0 world.env.pe = .sent) :
    ∃ timers, ({ world with part := .settled } : World).handleReceivePart nodes =
      (prologueStarted nodes timers req world).startAll (targets (placed nodes req)) 0 := by
  have resource : ¬(placed nodes req).res = false := by
    have kept : (placed nodes req).res = req.res := rfl
    rw [kept, res]
    exact false_ne_true.symm
  have daemons : ∀ timers, (prologueStarted nodes timers req world).startPSGWD =
        (prologueStarted nodes timers req world).startAll (targets (placed nodes req)) 0 := by
    intro timers
    have access : (prologueStarted nodes timers req world).req = .ok (placed nodes req) := rfl
    rw [World.startPSGWD, access, ok_bind, if_neg resource]
  have prologue : ∀ received : World, received.env = world.env →
      received.request = some (setNodes nodes { req with timerPartReq := -1 }) →
      received.startPrologue = .ok (true,
        ({ received.nextPe with pending := received.pending + 1 }).put (placed nodes req)) := by
    intro received env given
    have known : ¬received.env.addJob = false := by
      rw [env, addJob]
      exact false_ne_true.symm
    have answer : received.peAnswer = .sent := by
      rw [World.peAnswer, env]
      exact sent
    rw [World.startPrologue, if_neg known, World.startPE, answer]
    refine (ok_bind _ _).trans ?_
    dsimp only
    rw [if_pos rfl, World.req]
    have again : received.nextPe.request =
        some (setNodes nodes { req with timerPartReq := -1 }) := given
    dsimp only
    rw [again]
    rfl
  have there : ¬req.fwdata = false := by
    rw [fwdata]
    exact false_ne_true.symm
  have shape : ∀ timers, (({ world with
      request := some req, part := .settled, timers := timers } : World).put
        (setNodes nodes { req with timerPartReq := -1 })).startPrologue =
          .ok (true, prologueStarted nodes timers req world) :=
    fun timers => prologue _ rfl rfl
  by_cases set : req.timerPartReq ≠ -1
  · refine ⟨world.timers.filter (fun timer => timer.1 ≠ req.timerPartReq), ?_⟩
    rw [World.handleReceivePart]
    dsimp only
    rw [request]
    dsimp only
    rw [if_neg there, if_pos set]
    have timed := shape (world.timers.filter (fun timer => timer.1 ≠ req.timerPartReq))
    rw [← daemons]
    show (World.startPrologue _ >>= _) = _
    rw [World.removeTimer, timed]
    rfl
  · refine ⟨world.timers, ?_⟩
    rw [World.handleReceivePart]
    dsimp only
    rw [request]
    dsimp only
    rw [if_neg there, if_neg set]
    have timed := shape world.timers
    rw [← daemons]
    show (World.startPrologue _ >>= _) = _
    rw [timed]
    rfl

theorem sane_partition {nodes : List Int} (fault : world.fault = none)
    (lawful : Lawful Allowed world.trace) (request : world.request = some req)
    (phase : Phase req world) (awaited : world.part = .awaited)
    (fits : req.fwdata = true → world.env.addJob = true ∧
      peAt 0 world.env.pe = .sent ∧ 0 < numPSGWD nodes req ∧ numPSGWD nodes req < 2 ^ 32 ∧
          ∀ answer ∈ world.env.exec.take (numPSGWD nodes req), answer = scriptStarted) :
    ∃ after, ({ world with part := .settled } : World).handleReceivePart
      nodes = .ok after ∧ Sane after := by
  have awaiting : Awaiting req world := by
    cases phase with
    | awaiting awaiting => exact awaiting
    | starting starting =>
      have settled := starting.settled
      rw [awaited] at settled
      cases settled
    | routed routed _ =>
      have settled := routed.settled
      rw [awaited] at settled
      cases settled
  rcases fits awaiting.fwdata with ⟨addJob, sent, something, small, exec⟩
  rcases @handleReceivePart_eq req world nodes request awaiting.fwdata
    awaiting.res addJob sent with ⟨timers, shape⟩
  have length : (placed nodes req).psgwd.length = numPSGWD nodes req := by
    have modulo : (placed nodes req).psgwd.length = numPSGWD nodes req % 2 ^ 32 := length_replicate
    rw [modulo, Nat.mod_eq_of_lt small]
  have number : (targets (placed nodes req)).length = numPSGWD nodes req :=
    targets_length (placed nodes req)
  have launching : Launching (placed nodes req) (prologueStarted nodes timers req world) 0 := by
    refine
      { toFresh := awaiting.toFresh.change ⟨rfl, rfl, rfl, rfl⟩ rfl
          (fun _ member => member) (fun _ member => member)
        request := rfl
        fault := fault
        lawful := lawful
        settled := rfl
        part := rfl
        free := ?_
        scripts := awaiting.scripts
        starts := fun index start => absurd start (awaiting.starts index)
        started := awaiting.started
        pelogue := ?_ }
    · intro entry member
      rw [eq_of_mem_replicate member]
    · exact ⟨fun _ => Nat.succ_pos _, fun finish => (by cases finish),
        fun unset => (by cases unset)⟩
  rcases launching.startAll (by rw [number, length, Nat.zero_add])
    (by rw [number]; exact exec) with ⟨req', after, started, launched, same⟩
  rw [shape]
  refine ⟨after, started, launched.fault, launched.lawful,
    .inr ⟨req', launched.request, .starting (launched.starting ?_)⟩⟩
  rw [same, length]
  exact something

end Launch

end Psmgmt.Psgw
