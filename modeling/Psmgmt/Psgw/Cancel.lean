import Psmgmt.Psgw.Request

/-!
# Cancelling a request

A request whose routing script was started, or could not be, is cancelled
without an access to what is gone, as long as the pelogue plugin does not
return results while it is called.
-/

namespace Psmgmt.Psgw

open World List

/-- The pelogue resource callback has been invoked. -/
def Answered (trace : List Act) : Prop := ∃ ret, Act.answer ret ∈ trace

/-- What may happen after what has happened. -/
def Allowed (before : List Act) : Act → Prop
  | .kill pid => .execScript pid ∈ before ∧ ∀ exit, .scriptExit exit ∉ before
  | .removed id => .registered id ∈ before
  | .answer ret =>
    ¬Answered before ∧
      (ret ≠ 0 → (∀ index, .startPsgwd index ∈ before → .psgwdUp index ∈ before) ∧
          .scriptExit 0 ∈ before ∧ .prologue 0 ∈ before)
  | _ => True

/-- The act changes nothing the following invariants look at. -/
def Act.neutral : Act → Bool
  | .answer _ => false
  | .scriptExit _ => false
  | .startPsgwd _ => false
  | _ => true

theorem answered_append {trace : List Act} {act : Act}
    (neutral : act.neutral = true) :
    Answered (trace ++ [act]) ↔ Answered trace := by
  constructor
  · rintro ⟨ret, member⟩
    rcases mem_append.mp member with before | last
    · exact ⟨ret, before⟩
    · rw [mem_singleton] at last
      subst last
      exact absurd neutral Bool.false_ne_true
  · rintro ⟨ret, member⟩
    exact ⟨ret, mem_append_left _ member⟩

structure Routed (req : Request) (world : World) : Prop where
  answer : req.res = true ↔ ¬Answered world.trace
  script : req.routePID ≠ -1 → .execScript req.routePID ∈ world.trace ∧
    ∀ exit, .scriptExit exit ∉ world.trace
  timer : req.timerRouteScript ≠ -1 → .registered req.timerRouteScript ∈ world.trace
  part : req.timerPartReq = -1
  up : ∀ index, .startPsgwd index ∈ world.trace → .psgwdUp index ∈ world.trace
  scripts : world.scripts = []
  settled : world.part = .settled
  pid : req.routePID ≠ -2

structure Held (req : Request) (world : World) : Prop where
  request : world.request = some req
  routed : Routed req world
  lawful : Lawful Allowed world.trace
  fault : world.fault = none

structure Cancelled (world : World) : Prop where
  answered : Answered world.trace
  lawful : Lawful Allowed world.trace
  fault : world.fault = none
  request : world.request = none ∨ ∃ req, world.request = some req ∧
    Routed req world ∧ req.pelogueState = .epilogueStart

theorem ok_bind {α β : Type} (value : α) (next : α → Except Fault β) :
    (Except.ok value >>= next) = next value := rfl

section Routed

variable {req : Request} {world : World}

theorem Routed.log (routed : Routed req world) {act : Act}
    (neutral : act.neutral = true) : Routed req (world.log act) := by
  have keeps : ∀ other, other ∈ world.trace → other ∈ (world.log act).trace :=
    fun other member => mem_append_left _ member
  have old : ∀ other, other.neutral = false →
      other ∈ (world.log act).trace → other ∈ world.trace := by
    intro other odd member
    rcases mem_append.mp member with before | last
    · exact before
    · rw [mem_singleton] at last
      rw [last, neutral] at odd
      cases odd
  refine
    { answer := routed.answer.trans (not_congr (answered_append neutral).symm)
      script := ?_
      timer := fun set => keeps _ (routed.timer set)
      part := routed.part
      up := fun index start => keeps _ (routed.up index (old _ rfl start))
      scripts := routed.scripts
      settled := routed.settled
      pid := routed.pid }
  intro started
  rcases routed.script started with ⟨execs, running⟩
  exact ⟨keeps _ execs, fun exit ended => running exit (old _ rfl ended)⟩

/-- Nothing else of the world matters. -/
theorem Routed.congr {after : World} (routed : Routed req world)
    (trace : after.trace = world.trace)
    (scripts : after.scripts = world.scripts)
    (part : after.part = world.part) : Routed req after := by
  refine
    { answer := ?_
      script := ?_
      timer := ?_
      part := routed.part
      up := ?_
      scripts := scripts.trans routed.scripts
      settled := part.trans routed.settled
      pid := routed.pid }
  · rw [trace]
    exact routed.answer
  · rw [trace]
    exact routed.script
  · rw [trace]
    exact routed.timer
  · rw [trace]
    exact routed.up

theorem Routed.setState (routed : Routed req world) (state : PelogueState) :
    Routed { req with pelogueState := state } world :=
  ⟨routed.answer, routed.script, routed.timer, routed.part, routed.up,
    routed.scripts, routed.settled, routed.pid⟩

section

variable (held : Held req world)

include held

theorem Held.log {act : Act} (neutral : act.neutral = true)
    (allowed : Allowed world.trace act) : Held req (world.log act) :=
  ⟨held.request, held.routed.log neutral, held.lawful.concat allowed, held.fault⟩

theorem Held.silence :
    Held { req with timerRouteScript := -1, timerPartReq := -1 } (world.silence req) ∧
      (world.silence req).env = world.env := by
  have killed : Held req (if req.routePID ≠ -1 then
        world.log (.kill req.routePID) else world) ∧
      (if req.routePID ≠ -1 then world.log (.kill req.routePID)
        else world).env = world.env := by
    split
    · next started => exact ⟨held.log rfl (held.routed.script started), rfl⟩
    · exact ⟨held, rfl⟩
  rw [World.silence]
  generalize (if req.routePID ≠ -1 then world.log (.kill req.routePID)
    else world) = one at killed ⊢
  rcases killed with ⟨killed, env⟩
  have timed : Held req (if req.timerRouteScript ≠ -1 then
        (one.log (.removed req.timerRouteScript)).removeTimer req.timerRouteScript else one) ∧
      (if req.timerRouteScript ≠ -1 then
        (one.log (.removed req.timerRouteScript)).removeTimer
          req.timerRouteScript else one).env = one.env := by
    split
    · next set =>
        have removed : Allowed one.trace (.removed req.timerRouteScript) := killed.routed.timer set
        have logged := killed.log rfl removed
        exact ⟨⟨logged.request, logged.routed.congr rfl rfl rfl, logged.lawful, logged.fault⟩, rfl⟩
    · exact ⟨killed, rfl⟩
  generalize (if req.timerRouteScript ≠ -1 then
    (one.log (.removed req.timerRouteScript)).removeTimer
      req.timerRouteScript else one) = two at timed ⊢
  rcases timed with ⟨timed, env'⟩
  rw [if_neg (not_not.mpr held.routed.part)]
  have routed := timed.routed
  refine ⟨⟨rfl, ?_, timed.lawful, timed.fault⟩, env'.trans env⟩
  exact ⟨routed.answer, routed.script, fun set => absurd rfl set, rfl,
    routed.up, routed.scripts, routed.settled, routed.pid⟩

/-- The callback is invoked. -/
theorem Held.answer (resource : req.res = true) {ret : Int} (success : ret ≠ 0 →
      .scriptExit 0 ∈ world.trace ∧ .prologue 0 ∈ world.trace) :
    Held { req with res := false } ((world.log (.answer ret)).put { req with res := false }) ∧
      Answered ((world.log (.answer ret)).put { req with res := false }).trace := by
  have routed := held.routed
  have keeps : ∀ other, other ∈ world.trace → other ∈ world.trace ++ [.answer ret] :=
    fun other member => mem_append_left _ member
  have old : ∀ other, (∀ value, other ≠ .answer value) →
      other ∈ world.trace ++ [.answer ret] → other ∈ world.trace := by
    intro other odd member
    rcases mem_append.mp member with before | last
    · exact before
    · exact absurd (mem_singleton.mp last) (odd ret)
  have answered : Answered (world.trace ++ [.answer ret]) :=
    ⟨ret, mem_append_right _ (mem_singleton.mpr rfl)⟩
  have allowed : Allowed world.trace (.answer ret) :=
    ⟨routed.answer.mp resource, fun successful => ⟨routed.up, success successful⟩⟩
  refine ⟨⟨rfl, ?_, held.lawful.concat allowed, held.fault⟩, answered⟩
  refine
    { answer := iff_of_false Bool.false_ne_true (not_not.mpr answered)
      script := ?_
      timer := fun set => keeps _ (routed.timer set)
      part := routed.part
      up := ?_
      scripts := routed.scripts
      settled := routed.settled
      pid := routed.pid }
  · intro started
    rcases routed.script started with ⟨execs, running⟩
    refine ⟨keeps _ execs, ?_⟩
    intro exit ended
    exact running exit (old _ (fun _ same => by cases same) ended)
  · intro index start
    exact keeps _ (routed.up index (old _ (fun _ same => by cases same) start))

theorem Held.nextPe : Held req world.nextPe :=
  ⟨held.request, held.routed.congr rfl rfl rfl, held.lawful, held.fault⟩

theorem Held.req_ok : world.req = .ok req := by
  rw [World.req, held.request]

theorem Held.cancelReq (silent : world.peAnswer ≠ .dropped)
    (callback : World → Except Fault World) :
    ∃ req' world', world.cancelReq callback = world'.startEpilogue callback ∧
      Held req' world' ∧ req'.res = false ∧
        req'.pelogueState = req.pelogueState ∧ world'.env.pe = world.env.pe.tail := by
  rcases held.silence with ⟨silenced, env⟩
  have signalled : (world.silence req).signalPE callback = .ok (world.silence req).nextPe := by
    have answer : (world.silence req).peAnswer ≠ .dropped := by
      rw [World.peAnswer, env]
      exact silent
    rw [World.signalPE]
    split
    · next dropped => exact absurd dropped answer
    · rfl
  have next := silenced.nextPe
  have pe : (world.silence req).nextPe.env.pe = world.env.pe.tail := by
    rw [World.nextPe, env]
  have unfolded : world.cancelReq callback =
      if req.res then
        (((world.silence req).nextPe.log (.answer 0)).put
          { req with
            timerRouteScript := -1, timerPartReq := -1
            res := false }).startEpilogue callback
      else (world.silence req).nextPe.startEpilogue callback := by
    have access := held.req_ok
    have again := next.req_ok
    rw [World.cancelReq, access, ok_bind, signalled, ok_bind, again, ok_bind]
  rw [unfolded]
  split
  · next resource =>
      exact ⟨_, _, rfl,
        (next.answer resource (fun success => absurd rfl success)).1, rfl,
        rfl, pe⟩
  · next absent => exact ⟨_, _, rfl, next, Bool.eq_false_iff.mpr absent, rfl, pe⟩

end

theorem startEpilogue_sent (request : world.request = some req) (sent : world.peAnswer = .sent)
    (callback : World → Except Fault World) :
    world.startEpilogue callback =
      .ok ({ world.nextPe with pending := world.pending + 1 }.put
        { req with pelogueState := .epilogueStart }) := by
  have again : ({ world.nextPe with
      pending := world.pending + 1 } : World).req = .ok req := by
    have access : world.nextPe.request = some req := request
    rw [World.req]
    dsimp only
    rw [access]
  rw [World.startEpilogue, World.startPE, sent]
  refine (ok_bind _ _).trans ?_
  dsimp only
  rw [if_pos rfl, again]
  rfl

section

variable (held : Held req world)

include held

theorem Held.start_sent (sent : world.peAnswer = .sent)
    (callback : World → Except Fault World) :
    ∃ after, world.startEpilogue callback = .ok after ∧
      Held { req with pelogueState := .epilogueStart } after ∧
        after.env.pe = world.env.pe.tail := by
  refine ⟨_, startEpilogue_sent held.request sent callback, ⟨rfl, ?_, held.lawful, held.fault⟩, rfl⟩
  exact (held.routed.setState .epilogueStart).congr rfl rfl rfl

theorem Held.start_missing (answered : Answered world.trace) (missing : world.peAnswer = .missing)
    (callback : World → Except Fault World) :
    ∃ after, world.startEpilogue callback = .ok after ∧ Cancelled after := by
  have access := held.nextPe.req_ok
  have started : world.startEpilogue callback =
      .ok { world.nextPe.log .delete with request := none, pending := 0 } := by
    rw [World.startEpilogue, World.startPE, missing]
    refine (ok_bind _ _).trans ?_
    dsimp only
    rw [if_neg Bool.false_ne_true, World.requestDelete, access]
    rfl
  refine ⟨_, started, (answered_append rfl).mpr answered, ?_, held.fault, .inl rfl⟩
  exact held.lawful.concat trivial

theorem Held.answered (gone : req.res = false) : Answered world.trace := by
  by_contra unanswered
  have resource := held.routed.answer.mpr unanswered
  rw [gone] at resource
  exact Bool.false_ne_true resource

theorem Held.cancelled (gone : req.res = false)
    (state : req.pelogueState = .epilogueStart) : Cancelled world :=
  ⟨held.answered gone, held.lawful, held.fault, .inr ⟨req, held.request, held.routed, state⟩⟩

theorem Held.start_answered (gone : req.res = false)
    (silent : world.peAnswer ≠ .dropped) (callback : World → Except Fault World) :
    ∃ after, world.startEpilogue callback = .ok after ∧ Cancelled after := by
  cases answer : world.peAnswer with
  | missing => exact held.start_missing (held.answered gone) answer callback
  | sent =>
    rcases held.start_sent answer callback with ⟨after, started, next, _⟩
    exact ⟨after, started, next.cancelled gone rfl⟩
  | dropped => exact absurd answer silent

end

end Routed

/-- The answer of the pelogue plugin to a later call. -/
def peAt (number : Nat) (pe : List PeAnswer) : PeAnswer := (pe.drop number).headD .sent

theorem peAt_tail (number : Nat) (pe : List PeAnswer) :
    peAt number pe.tail = peAt (number + 1) pe := by
  rw [peAt, peAt, drop_tail]

/-- A result that is returned while the prologue runs is followed by a
cancellation whose epilogue is started. -/
def Recovers (number : Nat) (state : PelogueState) (pe : List PeAnswer) :
    Prop :=
  state = .prologueStart ∧ peAt number pe ≠ .dropped ∧ peAt (number + 1) pe = .sent

/-- Cancelling does not lose the request while it is needed: the pelogue plugin
returns no result while it is called, but one for the prologue. -/
def Endures (state : PelogueState) (pe : List PeAnswer) : Prop :=
  (peAt 0 pe ≠ .dropped ∧ (peAt 1 pe ≠ .dropped ∨ Recovers 2 state pe)) ∨
    (peAt 0 pe = .dropped ∧ Recovers 1 state pe ∧ peAt 3 pe ≠ .dropped)

section Cancel

variable {req : Request} {world : World}

/-- A result returned by the pelogue plugin while it is called. -/
theorem Held.recovers (held : Held req world)
    (recovers : Recovers 0 req.pelogueState world.env.pe) (depth : Nat) :
    ∃ req' after, pelogueCB depth (-4) world = .ok after ∧
      Held req' after ∧ req'.res = false ∧ after.env.pe = world.env.pe.tail.tail := by
  rcases recovers with ⟨state, silent, sent⟩
  have failed : Held { req with pelogueState := .prologueFinish }
      ((world.log (.prologue (-4))).put { req with pelogueState := .prologueFinish }) := by
    have logged := held.log (by rfl : (Act.prologue (-4)).neutral = true)
      trivial
    exact ⟨rfl, (logged.routed.setState _).congr rfl rfl rfl, logged.lawful, logged.fault⟩
  have body : ∀ callback, world.handleResult (World.cancelReq callback) (-4) =
      ((world.log (.prologue (-4))).put
        { req with pelogueState := .prologueFinish }).cancelReq callback := by
    intro callback
    rw [World.handleResult, held.request]
    dsimp only
    rw [if_pos state, if_pos (by decide)]
  have result : ∀ callback, ∃ req' after,
      world.handleResult (World.cancelReq callback) (-4) = .ok after ∧
        Held req' after ∧ req'.res = false ∧ after.env.pe = world.env.pe.tail.tail := by
    intro callback
    rcases failed.cancelReq silent callback with
      ⟨req', world', cancels, next, gone, _, pe⟩
    have answer : world'.peAnswer = .sent := by
      refine Eq.trans ?_ sent
      rw [World.peAnswer, pe]
      exact peAt_tail 0 world.env.pe
    rcases next.start_sent answer callback with
      ⟨after, started, held', pe'⟩
    refine ⟨_, after, ?_, held', gone, ?_⟩
    · rw [body callback, cancels]
      exact started
    · rw [pe', pe]
      rfl
  cases depth with
  | zero => exact result pure
  | succ depth => exact result (pelogueCB depth (-4))

theorem Held.start_dropped (held : Held req world) (lost : world.peAnswer = .dropped)
    (recovers : Recovers 1 req.pelogueState world.env.pe) (depth : Nat) :
    ∃ after, world.startEpilogue (pelogueCB depth (-4)) = .ok after ∧ Cancelled after := by
  have nested : Recovers 0 req.pelogueState world.nextPe.env.pe := by
    rcases recovers with ⟨state, silent, sent⟩
    exact ⟨state, by rw [World.nextPe, peAt_tail]; exact silent,
      by rw [World.nextPe, peAt_tail]; exact sent⟩
  rcases held.nextPe.recovers nested depth with
    ⟨req', after, returned, next, gone, _⟩
  have access := next.req_ok
  refine ⟨after.put { req' with pelogueState := .epilogueStart }, ?_, ?_⟩
  · rw [World.startEpilogue, World.startPE, lost]
    dsimp only
    rw [returned, ok_bind]
    refine (ok_bind _ _).trans ?_
    dsimp only
    rw [if_pos rfl, access]
    rfl
  · have routed := (next.routed.setState .epilogueStart)
    have kept : Held { req' with pelogueState := .epilogueStart }
        (after.put { req' with pelogueState := .epilogueStart }) :=
      ⟨rfl, routed.congr rfl rfl rfl, next.lawful, next.fault⟩
    exact kept.cancelled gone rfl

/-- What cancelling a request leaves. -/
theorem Held.cancels (held : Held req world)
    (endures : Endures req.pelogueState world.env.pe) (depth : Nat) :
    ∃ after, world.cancelReq (pelogueCB depth (-4)) = .ok after ∧ Cancelled after := by
  rcases endures with ⟨silent, start⟩ | ⟨lost, recovers, start⟩
  · rcases held.cancelReq silent (pelogueCB depth (-4)) with
      ⟨req', world', cancels, next, gone, state, pe⟩
    rw [cancels]
    have answer : world'.peAnswer = peAt 1 world.env.pe := by
      rw [World.peAnswer, pe]
      exact peAt_tail 0 world.env.pe
    by_cases dropped : peAt 1 world.env.pe = .dropped
    · rcases start with kept | recovers
      · exact absurd dropped kept
      · apply next.start_dropped (answer.trans dropped)
        rcases recovers with ⟨running, silent', sent⟩
        refine ⟨state.trans running, ?_, ?_⟩
        · rw [pe, peAt_tail]
          exact silent'
        · rw [pe, peAt_tail]
          exact sent
    · apply next.start_answered gone
      rw [answer]
      exact dropped
  · rcases held.silence with ⟨silenced, env⟩
    have pe : (world.silence req).nextPe.env.pe = world.env.pe.tail := by
      rw [World.nextPe, env]
    have answer : (world.silence req).peAnswer = .dropped := by
      rw [World.peAnswer, env]
      exact lost
    have nested : Recovers 0 req.pelogueState (world.silence req).nextPe.env.pe := by
      rcases recovers with ⟨running, silent, sent⟩
      refine ⟨running, ?_, ?_⟩
      · rw [pe, peAt_tail]
        exact silent
      · rw [pe, peAt_tail]
        exact sent
    rcases silenced.nextPe.recovers nested depth with
      ⟨req', after, returned, next, gone, pe'⟩
    have cancels : world.cancelReq (pelogueCB depth (-4)) =
        after.startEpilogue (pelogueCB depth (-4)) := by
      rw [World.cancelReq, held.req_ok, ok_bind, World.signalPE, answer]
      dsimp only
      rw [returned, ok_bind, next.req_ok, ok_bind, gone, if_neg Bool.false_ne_true]
    rw [cancels]
    apply next.start_answered gone
    rw [World.peAnswer, pe', pe]
    intro dropped
    apply start
    rw [← dropped, ← peAt_tail, ← peAt_tail, ← peAt_tail]
    rfl

end Cancel

end Psmgmt.Psgw
