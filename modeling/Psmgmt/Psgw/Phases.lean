import Psmgmt.Psgw.Cancel

/-!
# The phases of a request

A request awaits its partition, then its gateways' daemons, then the routing
script and the prologue.  What holds in each phase as long as the request is
cancelled in the last one only.
-/

namespace Psmgmt.Psgw

open World List

/-- The nodes of the psgwd that have not told their address. -/
def missing (psgwd : List Psgwd) : List Int :=
  (psgwd.filter (fun entry => entry.addr = none)).map Psgwd.node

/-- The routing script of the request was not to be started yet. -/
structure Fresh (req : Request) (world : World) : Prop where
  pid : req.routePID = -2
  res : req.res = true
  unanswered : ¬Answered world.trace
  running : world.running = false
  ended : ∀ exit, .scriptExit exit ∉ world.trace
  timer : req.timerRouteScript = -1
  route : req.routeRes = -1

/-- The partition has not been received. -/
structure Awaiting (req : Request) (world : World) : Prop
    extends Fresh req world where
  part : world.part ≠ .settled
  fwdata : req.fwdata = true
  started : req.numGWstarted = 0
  scripts : world.scripts = []
  starts : ∀ index, .startPsgwd index ∉ world.trace

structure Pelogue (req : Request) (world : World) : Prop where
  expected : req.pelogueState = .prologueStart ∨
    req.pelogueState = .epilogueStart → 0 < world.pending
  finished : req.pelogueState = .prologueFinish → .prologue 0 ∈ world.trace
  set : req.pelogueState ≠ .unset

/-- Daemons on the gateways are being started. -/
structure Starting (req : Request) (world : World) : Prop
    extends Fresh req world where
  settled : world.part = .settled
  part : req.timerPartReq = -1
  scripts : world.scripts.Perm (missing req.psgwd)
  some_script : world.scripts ≠ []
  count : req.numGWstarted + world.scripts.length = req.psgwd.length
  up : ∀ (index : Nat) (entry : Psgwd), req.psgwd[index]? = some entry →
    entry.addr ≠ none → .psgwdUp index ∈ world.trace
  starts : ∀ index, .startPsgwd index ∈ world.trace → index < req.psgwd.length
  pelogue : Pelogue req world

/-- A routed request has been answered, or is going to be. -/
structure Progress (req : Request) (world : World) : Prop where
  running : req.pelogueState = .prologueStart → req.res = true
  pelogue : req.res = true → Pelogue req world
  route : req.res = true → req.routePID ≠ -1 ∧ req.routeRes = -1 ∧ world.running = true ∨
      req.routePID = -1 ∧ req.routeRes = 0 ∧ .scriptExit 0 ∈ world.trace ∧
        req.pelogueState ≠ .prologueFinish

inductive Phase (req : Request) (world : World) : Prop where
  | awaiting (awaiting : Awaiting req world)
  | starting (starting : Starting req world)
  | routed (routed : Routed req world) (progress : Progress req world)

/-- The invariant. -/
structure Sane (world : World) : Prop where
  fault : world.fault = none
  lawful : Lawful Allowed world.trace
  request : world.request = none ∧ Answered world.trace ∨
    ∃ req, world.request = some req ∧ Phase req world

/-- Nothing is going to happen that the request has asked for. -/
structure World.Quiet (world : World) : Prop where
  part : world.part = .settled
  timers : world.timers = []
  scripts : world.scripts = []
  running : world.running = false
  pending : world.pending = 0

/-- The request answers its job as it is to do. -/
structure World.Answers (world : World) : Prop where
  lawful : Lawful Allowed world.trace
  answered : world.Quiet → Answered world.trace
  fault : world.fault = none

theorem Sane.answers {world : World} (sane : Sane world) : world.Answers := by
  refine ⟨sane.lawful, ?_, sane.fault⟩
  intro quiet
  rcases sane.request with ⟨_, answered⟩ | ⟨req, _, phase⟩
  · exact answered
  · cases phase with
    | awaiting awaiting => exact absurd quiet.part awaiting.part
    | starting starting => exact absurd quiet.scripts starting.some_script
    | routed routed progress =>
      by_contra unanswered
      have resource := routed.answer.mpr unanswered
      have pelogue := progress.pelogue resource
      rcases progress.route resource with
        ⟨_, _, running⟩ | ⟨_, _, _, unfinished⟩
      · rw [quiet.running] at running
        exact Bool.false_ne_true running
      · have set := pelogue.set
        have expected := pelogue.expected
        rw [quiet.pending] at expected
        cases state : req.pelogueState with
        | unset => exact set state
        | prologueStart => exact absurd (expected (.inl state)) (by omega)
        | prologueFinish => exact unfinished state
        | epilogueStart => exact absurd (expected (.inr state)) (by omega)

theorem Cancelled.sane {world : World} (cancelled : Cancelled world) : Sane world := by
  refine ⟨cancelled.fault, cancelled.lawful, ?_⟩
  rcases cancelled.request with gone | ⟨req, request, routed, state⟩
  · exact .inl ⟨gone, cancelled.answered⟩
  · refine .inr ⟨req, request, .routed routed ?_⟩
    have answered : ¬req.res = true := by
      intro resource
      exact routed.answer.mp resource cancelled.answered
    refine ⟨?_, ?_, ?_⟩
    · intro start
      rw [state] at start
      cases start
    · intro resource
      exact absurd resource answered
    · intro resource
      exact absurd resource answered

section SaveAddr

variable {dest pid : Int} {addr : List Char}

theorem mem_missing_cons {entry : Psgwd} {rest : List Psgwd} : missing (entry :: rest) =
      if entry.addr = none then entry.node :: missing rest
      else missing rest := by
  rw [missing, filter_cons]
  split
  · next free =>
      rw [if_pos (of_decide_eq_true free)]
      rfl
  · next taken =>
      rw [if_neg (fun free => taken (decide_eq_true free))]
      rfl

theorem saveAddr_spec {psgwd : List Psgwd} (expected : dest ∈ missing psgwd) :
    ∃ index after, saveAddr dest pid addr psgwd = some (index, after) ∧
      after.length = psgwd.length ∧ (missing psgwd).Perm (dest :: missing after) ∧
          ∀ (other : Nat) (entry : Psgwd), after[other]? = some entry →
            entry.addr ≠ none → other = index ∨
              ∃ old, psgwd[other]? = some old ∧ old.addr ≠ none := by
  induction psgwd with
  | nil => cases expected
  | cons head rest induction =>
    rw [saveAddr]
    by_cases found : head.node = dest ∧ head.addr = none
    · rw [if_pos found]
      refine ⟨0, _, rfl, rfl, ?_, ?_⟩
      · rw [mem_missing_cons, if_pos found.2, mem_missing_cons, if_neg (by simp), found.1]
      · intro other entry here known
        cases other with
        | zero => exact .inl rfl
        | succ other =>
          refine .inr ⟨entry, ?_, known⟩
          rw [getElem?_cons_succ] at here ⊢
          exact here
    · rw [if_neg found]
      have later : dest ∈ missing rest := by
        rw [mem_missing_cons] at expected
        split at expected
        · next free =>
            rcases mem_cons.mp expected with same | later
            · exact absurd ⟨same.symm, free⟩ found
            · exact later
        · exact expected
      rcases induction later with ⟨index, after, saved, length, perm, up⟩
      rw [saved]
      refine ⟨index + 1, head :: after, rfl, ?_, ?_, ?_⟩
      · rw [length_cons, length_cons, length]
      · rw [mem_missing_cons, mem_missing_cons]
        split
        · exact (perm.cons head.node).trans (List.Perm.swap _ _ _)
        · exact perm
      · intro other entry here known
        cases other with
        | zero =>
          rw [getElem?_cons_zero] at here
          refine .inr ⟨head, getElem?_cons_zero, ?_⟩
          rw [Option.some.inj here]
          exact known
        | succ other =>
          rw [getElem?_cons_succ] at here
          rcases up other entry here known with same | ⟨old, before, set⟩
          · exact .inl (congrArg Nat.succ same)
          · refine .inr ⟨old, ?_, set⟩
            rw [getElem?_cons_succ]
            exact before

theorem missing_nil_iff {psgwd : List Psgwd} :
    missing psgwd = [] ↔ ∀ entry ∈ psgwd, entry.addr ≠ none := by
  rw [missing, map_eq_nil_iff, filter_eq_nil_iff]
  constructor
  · intro none entry member free
    exact none entry member (decide_eq_true free)
  · intro taken entry member free
    exact taken entry member (of_decide_eq_true free)

end SaveAddr

end Psmgmt.Psgw
