import Psmgmt.Psgw.Launch

/-!
# Runs of a request

The condition under which a request answers its job exactly once, and that it
does in all runs whose events meet it.
-/

namespace Psmgmt.Psgw

open World

def Fits (event : Event) (env : Env) (world : World) : Prop :=
  ∀ req, world.request = some req →
    match event with
    | .partition nodes =>
      -- everything is started, and there is something to start
      req.fwdata = true → env.addJob = true ∧ peAt 0 env.pe = .sent ∧
        0 < numPSGWD nodes req ∧ numPSGWD nodes req < 2 ^ 32 ∧
          ∀ answer ∈ env.exec.take (numPSGWD nodes req), answer = scriptStarted
    | .refusal => True
    | .forwarderExit status =>
      if status = 0 then world.part = .settled
      else Cancellable req env.pe
    | .timeout _ _ => Cancellable req env.pe
    | .pelogueResult exit =>
      if req.pelogueState = .prologueStart then
        exit ≠ 0 → req.routePID ≠ -2 ∧ Endures .prologueFinish env.pe
      else req.res = false
    | .startResult _ exit output =>
      if exit = 0 ∧ output ≠ none then
        req.numGWstarted + 1 = req.psgwd.length →
          env.getpwnam = true ∧ (env.script = none → Endures req.pelogueState env.pe)
      else Cancellable req env.pe
    | .scriptExit exit =>
      -- without a prologue that succeeded there is no success to tell
      if exit = 0 then
        req.res = true ∧ (req.pelogueState = .epilogueStart → .prologue 0 ∈ world.trace)
      else Endures req.pelogueState env.pe
    | .finAlloc =>
      match peAt 0 env.pe with
      | .missing => req.res = false
      | .sent => True
      | .dropped => req.routePID ≠ -2 ∧ Recovers 1 req.pelogueState env.pe

/-- The life of a request whose events fit. -/
def answeringSystem : TransitionSystem World where
  initial := World.Initial
  step before after :=
    before.fault = none ∧ ∃ event env,
      before.Possible event ∧ Fits event env before ∧ after = before.perform event env

variable {req : Request} {world : World}

/-- The request to the master has been sent, or is to be pulled. -/
theorem sane_requested {setup : Setup} {after : World} (fresh : Fresh req world)
    (unstarted : req.numGWstarted = 0) (trace : world.trace = []) (fault : world.fault = none)
    (part : world.part = .awaited) (scripts : world.scripts = [])
    (requested : requestGWnodes setup world req = some after) : Sane after := by
  have lawful : Lawful Allowed world.trace := by
    rw [trace]
    exact Lawful.nil
  have awaiting : ∀ (timer : Int) (later : World),
      later.running = world.running → later.part = world.part → later.scripts = world.scripts →
          (∀ act ∈ later.trace, ∃ id, act = .registered id) →
            Awaiting { req with fwdata := true, timerPartReq := timer }
              later := by
    intro timer later running awaited idle acts
    have none_before : ∀ act ∈ later.trace, act.neutral = true := by
      intro act member
      rcases acts act member with ⟨id, rfl⟩
      rfl
    refine
      { toFresh := fresh.change ⟨rfl, rfl, rfl, rfl⟩ running ?_ ?_
        part := ?_
        fwdata := rfl
        started := unstarted
        scripts := idle.trans scripts
        starts := ?_ }
    · intro ret member
      exact absurd (none_before _ member) Bool.false_ne_true
    · intro exit member
      exact absurd (none_before _ member) Bool.false_ne_true
    · rw [awaited, part]
      exact fun settled => by cases settled
    · intro index member
      exact absurd (none_before _ member) Bool.false_ne_true
  have silent : ∀ act ∈ world.trace, ∃ id, act = .registered id := by
    rw [trace]
    intro act member
    cases member
  rw [requestGWnodes] at requested
  split at requested
  · cases requested
  · rw [sendPartitionReq] at requested
    split at requested
    · cases requested
    · split at requested
      · rw [← Option.some.inj requested]
        exact ⟨fault, lawful, .inr ⟨_, rfl, .awaiting
          (awaiting req.timerPartReq _ rfl rfl rfl silent)⟩⟩
      · split at requested
        · cases requested
        · rw [← Option.some.inj requested]
          cases setup.timer with
          | true =>
            refine ⟨fault, lawful.concat trivial, .inr ⟨_, rfl, .awaiting
              (awaiting _ _ rfl rfl rfl ?_)⟩⟩
            intro act member
            rcases List.mem_append.mp member with before | last
            · exact silent act before
            · exact ⟨_, List.mem_singleton.mp last⟩
          | false =>
            exact ⟨fault, lawful, .inr ⟨_, rfl, .awaiting (awaiting _ _ rfl rfl rfl silent)⟩⟩

theorem sane_initial (initial : world.Initial) : Sane world := by
  rcases initial with ⟨res, setup, env, nextTimer, _, started⟩
  rw [handlePElogueRes] at started
  split at started
  · cases started
  · split at started
    · cases started
    · dsimp only at started
      split at started
      · cases started
      · next requested =>
          have same := Option.some.inj (Prod.mk.inj started).2
          rw [← same]
          refine sane_requested ?_ rfl rfl rfl rfl rfl requested
          refine ⟨rfl, rfl, ?_, rfl, ?_, rfl, rfl⟩
          · rintro ⟨ret, member⟩
            cases member
          · intro exit member
            cases member

theorem perform_deleted {event : Event} {env : Env} (sane : Sane world)
    (gone : world.request = none) (answered : Answered world.trace) :
    Sane (world.perform event env) := by
  have handled : ∃ after, ({ world with env := env } : World).handle event = .ok after ∧
        after.request = none ∧ after.trace = world.trace ∧ after.fault = world.fault := by
    cases event with
    | partition nodes =>
      refine ⟨{ world with env := env, part := .settled }, ?_, gone, rfl, rfl⟩
      simp only [World.handle, World.handleReceivePart, gone]
      rfl
    | refusal => exact ⟨_, rfl, gone, rfl, rfl⟩
    | forwarderExit status =>
      simp only [World.handle, World.fwCallback, gone]
      exact ⟨_, rfl, rfl, rfl, rfl⟩
    | timeout id kind =>
      cases kind with
      | part =>
        simp only [World.handle, World.partTimeout, World.removeTimer, gone]
        exact ⟨_, rfl, rfl, rfl, rfl⟩
      | script =>
        simp only [World.handle, World.routeScriptTimeout, World.removeTimer, gone]
        exact ⟨_, rfl, rfl, rfl, rfl⟩
    | pelogueResult exit =>
      simp only [World.handle, World.handleResult, gone]
      exact ⟨_, rfl, rfl, rfl, rfl⟩
    | startResult dest exit output =>
      simp only [World.handle, World.cbStartPSGWD, gone]
      exact ⟨_, rfl, rfl, rfl, rfl⟩
    | scriptExit exit =>
      simp only [World.handle, World.cbRouteScript, gone]
      exact ⟨_, rfl, rfl, rfl, rfl⟩
    | finAlloc =>
      simp only [World.handle, World.handleFinAlloc, gone]
      exact ⟨_, rfl, rfl, rfl, rfl⟩
  rcases handled with ⟨after, handled, request, trace, fault⟩
  rw [World.perform, handled]
  refine ⟨fault.trans sane.fault, ?_, .inl ⟨request, ?_⟩⟩
  · rw [trace]
    exact sane.lawful
  · rw [trace]
    exact answered

theorem Phase.setEnv (phase : Phase req world) (env : Env) :
    Phase req { world with env := env } := by
  have fresh : Fresh req world → Fresh req { world with env := env } :=
    fun fresh => fresh.change ⟨rfl, rfl, rfl, rfl⟩ rfl
      (fun _ member => member) (fun _ member => member)
  have pelogue : Pelogue req world → Pelogue req { world with env := env } :=
    fun pelogue => ⟨pelogue.expected, pelogue.finished, pelogue.set⟩
  cases phase with
  | awaiting awaiting =>
    exact .awaiting
      { toFresh := fresh awaiting.toFresh
        part := awaiting.part
        fwdata := awaiting.fwdata
        started := awaiting.started
        scripts := awaiting.scripts
        starts := awaiting.starts }
  | starting starting =>
    exact .starting
      { toFresh := fresh starting.toFresh
        settled := starting.settled
        part := starting.part
        scripts := starting.scripts
        some_script := starting.some_script
        count := starting.count
        up := starting.up
        starts := starting.starts
        pelogue := pelogue starting.pelogue }
  | routed routed progress =>
    exact .routed (routed.congr rfl rfl rfl)
      ⟨progress.running, fun resource => pelogue (progress.pelogue resource), progress.route⟩

theorem sane_refusal (fault : world.fault = none)
    (lawful : Lawful Allowed world.trace) (request : world.request = some req)
    (phase : Phase req world) (awaited : world.part = .awaited) :
    ∃ after, world.handle .refusal = .ok after ∧ Sane after := by
  refine ⟨_, rfl, fault, lawful, .inr ⟨req, request, ?_⟩⟩
  cases phase with
  | awaiting awaiting =>
    exact .awaiting
      { toFresh := awaiting.toFresh.change ⟨rfl, rfl, rfl, rfl⟩ rfl
          (fun _ member => member) (fun _ member => member)
        part := fun settled => (by cases settled)
        fwdata := awaiting.fwdata
        started := awaiting.started
        scripts := awaiting.scripts
        starts := awaiting.starts }
  | starting starting =>
    have settled := starting.settled
    rw [awaited] at settled
    cases settled
  | routed routed _ =>
    have settled := routed.settled
    rw [awaited] at settled
    cases settled

theorem Sane.perform {event : Event} {env : Env} (sane : Sane world)
    (possible : world.Possible event) (fits : Fits event env world) :
    Sane (world.perform event env) := by
  rcases sane.request with ⟨gone, answered⟩ | ⟨req, request, phase⟩
  · exact perform_deleted sane gone answered
  · have handled : ∃ after,
        ({ world with env := env } : World).handle event = .ok after ∧ Sane after := by
      have lawful : Lawful Allowed ({ world with env := env } : World).trace := sane.lawful
      have fault : ({ world with env := env } : World).fault = none := sane.fault
      have given : ({ world with env := env } : World).request = some req := request
      have here := phase.setEnv env
      have fit := fits req request
      cases event with
      | partition nodes => exact sane_partition fault lawful given here possible fit
      | refusal => exact sane_refusal fault lawful given here possible
      | forwarderExit status => exact sane_forwarderExit fault lawful given here fit
      | timeout id kind => exact sane_timeout fault lawful given here fit
      | pelogueResult exit => exact sane_pelogueResult fault lawful given here fit
      | startResult dest exit output => exact sane_startResult fault lawful given here possible fit
      | scriptExit exit => exact sane_scriptExit fault lawful given here possible fit
      | finAlloc => exact sane_finAlloc fault lawful given here fit
    rcases handled with ⟨after, handled, result⟩
    rw [World.perform, handled]
    exact result

theorem invariant_sane : answeringSystem.Invariant Sane where
  initial := fun _ initial => sane_initial initial
  step := by
    rintro before after sane ⟨_, event, env, possible, fits, rfl⟩
    exact sane.perform possible fits

/-- A request answers its job exactly once in all runs that meet the
condition. -/
theorem reachable_answers {world : World}
    (reachable : answeringSystem.Reachable world) : world.Answers :=
  (invariant_sane.reachable reachable).answers

/-- A call of each plugin that succeeds. -/
def calm : Env :=
  { pe := [], exec := [], addJob := true, getpwnam := true
    script := some 42, timer := some true }

/-- One gateway is requested. -/
def begun : World :=
  { request := some { requestAdd with fwdata := true, timerPartReq := 1 }
    trace := [.registered 1], fault := none, env := calm, part := .awaited
    forwarder := true, scripts := [], running := false, pending := 0
    timers := [(1, .part)], nextTimer := 2 }

theorem initial_begun : begun.Initial :=
  ⟨{ packNodelist := true, psgwNum := some 1, packID := true, user := true
     psgwdPerNode := none },
    { forwarder := true, task := true, newReq := true, gatewayAttr := true
      knowMaster := true, sent := true, timer := true }, calm, 1, by decide,
    rfl⟩

/-- The gateway is node 3. -/
def allotted : World := begun.perform (.partition [3]) calm

def addressed : World := allotted.perform (.startResult 3 0 (some (['a'], 7))) calm

def prepared : World := addressed.perform (.pelogueResult 0) calm

def routed : World := prepared.perform (.scriptExit 0) calm

theorem reachable_answers_routed : .answer 1 ∈ routed.trace ∧ routed.Answers := by
  refine ⟨by decide +kernel, reachable_answers
    (.step (.step (.step (.step (.initial initial_begun)
      ⟨rfl, .partition [3], calm, rfl, ?_, rfl⟩)
      ⟨by decide +kernel, .startResult 3 0 (some (['a'], 7)), calm,
        (by decide +kernel : (3 : Int) ∈ allotted.scripts), ?_, rfl⟩)
      ⟨by decide +kernel, .pelogueResult 0, calm,
        (by decide +kernel : 0 < addressed.pending), ?_, rfl⟩)
      ⟨by decide +kernel, .scriptExit 0, calm,
        (by decide +kernel : prepared.running = true), ?_, rfl⟩)⟩
  · intro req given
    cases given
    intro _
    refine ⟨rfl, rfl, by decide, by decide, ?_⟩
    intro answer member
    cases member
  · intro req given
    cases given
    intro _
    exact ⟨rfl, fun failed => by cases failed⟩
  · intro req given
    cases given
    intro failed
    exact absurd rfl failed
  · intro req given
    cases given
    exact ⟨rfl, fun ended => by cases ended⟩

/-- The forwarder fails before the routing script is started, and the signal
goes to the process group 2. -/
theorem not_reachable_answers : ¬∀ world, requestSystem.Reachable world → world.Answers := by
  intro answers
  have failed : requestSystem.Reachable
      (begun.perform (.forwarderExit 1) { calm with pe := [.missing, .missing] }) :=
    .step (.initial initial_begun) ⟨rfl, .forwarderExit 1, _, rfl, rfl⟩
  have killed := (answers _ failed).lawful [.registered 1] (.kill (-2))
    [.removed 1, .answer 0, .delete] (by decide +kernel)
  exact absurd killed.1 (by decide)

end Psmgmt.Psgw
