import Psmgmt.Pelogue.Job

/-!
# Runs of a prologue or epilogue job

As long as the callback has not been called, each node that has not reported has
a message under way or runs its script, or the timer will end the job.
-/

namespace Psmgmt.Pelogue

open Function

/-! ## States of nodes -/

def setStatus (node : Nat) (kind : Kind) (status : Status) (res : NodeRes) :
    NodeRes :=
  if res.id = node then res.set kind status else res

variable (node : Nat)

theorem setJobNodeStatus_eq {nodes : List NodeRes} (kind : Kind)
    (status : Status) (distinct : (nodes.map NodeRes.id).Nodup) :
    setJobNodeStatus node kind status nodes = nodes.map (setStatus node kind status) := by
  induction nodes with
  | nil => rfl
  | cons first nodes induction =>
    rw [List.map_cons, List.nodup_cons] at distinct
    rw [setJobNodeStatus, List.map_cons]
    by_cases same : first.id = node
    · rw [if_pos same, setStatus, if_pos same]
      have others : nodes.map (setStatus node kind status) = nodes := by
        refine (List.map_congr_left fun res member => ?_).trans (List.map_id nodes)
        apply if_neg
        intro again
        apply distinct.1
        rw [same, ← again]
        exact List.mem_map_of_mem member
      rw [others]
    · rw [if_neg same, setStatus, if_neg same, induction distinct.2]

theorem setStatus_id (kind : Kind) (status : Status) (res : NodeRes) :
    (setStatus node kind status res).id = res.id := by
  unfold setStatus
  split <;> rfl

variable {node : Nat} {kind : Kind} {status : Status}
  {reported : Nat → Option Int} {nodes : List Nat} {net : Net}

theorem setStatus_same {res : NodeRes} (same : res.id = node) :
    (setStatus node kind status res).status kind = status := by
  rw [setStatus, if_pos same]
  exact update_self kind status res.status

theorem setStatus_other {res : NodeRes} (other : res.id ≠ node) :
    setStatus node kind status res = res := if_neg other

theorem setStatus_kind {other : Kind} (res : NodeRes) (differs : other ≠ kind) :
    (setStatus node kind status res).status other = res.status other := by
  unfold setStatus
  split
  · exact update_of_ne differs status res.status
  · rfl

theorem map_setStatus_id (kind : Kind) (status : Status)
    (nodes : List NodeRes) :
    (nodes.map (setStatus node kind status)).map NodeRes.id = nodes.map NodeRes.id := by
  rw [List.map_map]
  exact List.map_congr_left fun res _ => setStatus_id node kind status res

variable (kind : Kind)

theorem markTimedout_id (res : NodeRes) : (markTimedout kind res).id = res.id := by
  unfold markTimedout
  split <;> rfl

/-! ## Nodes that have not reported -/

def unreported (reported : Nat → Option Int) (nodes : List Nat) : Nat :=
  nodes.countP fun node => (reported node).isNone

theorem unreported_report (res : Int) (distinct : nodes.Nodup)
    (member : node ∈ nodes) (silent : reported node = none) :
    unreported (update reported node (some res)) nodes + 1 = unreported reported nodes := by
  have split := List.perm_cons_erase member
  have others : unreported (update reported node (some res))
      (nodes.erase node) = unreported reported (nodes.erase node) := by
    apply List.countP_congr
    intro other inside
    have differs : other ≠ node := by
      rintro rfl
      exact distinct.not_mem_erase inside
    rw [update_of_ne differs]
  simp only [unreported] at others ⊢
  rw [split.countP_eq, split.countP_eq, List.countP_cons, List.countP_cons,
    others, update_self, silent]
  simp

theorem unreported_pos (positive : 0 < unreported reported nodes) :
    ∃ node ∈ nodes, reported node = none := by
  obtain ⟨node, member, silent⟩ := List.countP_pos_iff.mp positive
  exact ⟨node, member, by simpa using silent⟩

theorem unreported_zero (zero : unreported reported nodes = 0)
    (member : node ∈ nodes) : reported node ≠ none := by
  intro silent
  exact List.countP_eq_zero.mp zero node member (by rw [silent]; rfl)

/-! ## The invariant -/

/-- The nodes that still have a message under way or run their script. -/
def Net.underWay (net : Net) : List Nat := net.starts ++ net.running ++ net.finishes.map Prod.fst

/-- The callback has not been called yet. -/
structure Active (net : Net) : Prop where
  undeleted : net.job.deleted = false
  uncalled : net.results = []
  ids : net.job.nodes.map NodeRes.id = net.nodes
  distinct : net.nodes.Nodup
  single : net.underWay.Nodup
  waits : ∀ node ∈ net.underWay, node ∈ net.nodes ∧ net.reported node = none
  left : net.job.monitored = false → ∀ node ∈ net.nodes,
    net.reported node = none → node ∈ net.underWay
  count : net.job.track net.kind = unreported net.reported net.nodes
  positive : 0 < unreported net.reported net.nodes
  shown : ∀ res ∈ net.job.nodes, res.status net.kind = expected (net.reported res.id)
      ∨ net.reported res.id = none ∧ res.status net.kind = .pending
  exit : net.job.exit net.kind = 0
    ↔ ∀ node ∈ net.nodes, ∀ res, net.reported node = some res → res = 0
  state : net.job.state = .running net.kind ∧ net.signals = [] ∧ net.job.exit net.kind = 0
    ∨ net.job.state = .cancel net.kind

/-- The callback has been called. -/
structure Over (net : Net) : Prop where
  deleted : net.job.deleted = true
  unmonitored : net.job.monitored = false
  result : ∃ result, net.results = [result] ∧ Right net result

theorem Active.complete (active : Active net) : Complete net := by
  refine ⟨?_, fun _ => ?_, ?_⟩
  · rw [active.uncalled]
    exact Nat.zero_le 1
  · by_contra nothing
    simp only [not_or, not_not] at nothing
    obtain ⟨running, starts, -, finishes, monitored⟩ := nothing
    obtain ⟨node, member, silent⟩ := unreported_pos active.positive
    have there := active.left (by simpa using monitored) node member silent
    rw [Net.underWay, running, starts, finishes] at there
    exact absurd there List.not_mem_nil
  · intro result member
    rw [active.uncalled] at member
    exact absurd member List.not_mem_nil

theorem Over.complete (finished : Over net) : Complete net := by
  obtain ⟨result, results, right⟩ := finished.result
  refine ⟨?_, fun none => ?_, ?_⟩
  · rw [results]
    exact Nat.le_refl 1
  · rw [results] at none
    exact absurd none (by simp)
  · intro other member
    rw [results, List.mem_singleton] at member
    rw [member]
    exact right

/-- Nothing changes after the callback. -/
theorem Over.same {before after : Net} (finished : Over before)
    (kind : after.kind = before.kind) (nodes : after.nodes = before.nodes)
    (job : after.job = before.job) (reported : after.reported = before.reported)
    (results : after.results = before.results) : Over after := by
  obtain ⟨result, is_result, right⟩ := finished.result
  refine ⟨by rw [job]; exact finished.deleted,
    by rw [job]; exact finished.unmonitored, result,
    results.trans is_result, ?_⟩
  rw [Right, kind, nodes, reported]
  exact right

theorem Over.perform (finished : Over net) {event : Event}
    (enabled : Enabled net event) : Over (perform net event) := by
  have drop : ∀ node start, dropMsgAndCancel net.job node start = ⟨net.job, [], []⟩ := by
    intro node start
    exact if_pos finished.deleted
  have finish : ∀ node res, handlePElogueFinish net.job node net.kind res = ⟨net.job, [], []⟩ := by
    intro node res
    exact if_pos finished.deleted
  cases event with
  | arrive node => exact finished.same rfl rfl rfl rfl rfl
  | dropStart node =>
    simp only [Pelogue.perform, drop]
    exact finished.same rfl rfl rfl rfl (List.append_nil _)
  | answer node res => exact finished.same rfl rfl rfl rfl rfl
  | finish node res =>
    simp only [Pelogue.perform, finish]
    refine finished.same rfl rfl rfl ?_ (List.append_nil _)
    exact if_pos finished.deleted
  | signal node => exact finished.same rfl rfl rfl rfl rfl
  | dropSignal node =>
    simp only [Pelogue.perform, drop]
    exact finished.same rfl rfl rfl rfl (List.append_nil _)
  | timeout =>
    have unmonitored := finished.unmonitored
    rw [Enabled] at enabled
    rw [enabled] at unmonitored
    exact absurd unmonitored (by simp)

/-! ## Before the callback -/

/-- A message moves on, or a signal arrives. -/
theorem Active.move (active : Active net) {starts running : List Nat}
    {signals : List Nat} {finishes : List (Nat × Int)}
    (perm : (starts ++ running ++ finishes.map Prod.fst).Perm net.underWay)
    (fewer : net.signals = [] → signals = []) :
    Active { net with starts, running, signals, finishes } where
  undeleted := active.undeleted
  uncalled := active.uncalled
  ids := active.ids
  distinct := active.distinct
  single := perm.nodup_iff.mpr active.single
  waits := fun node member => active.waits node (perm.mem_iff.mp member)
  left := fun unmonitored node member silent =>
    perm.mem_iff.mpr (active.left unmonitored node member silent)
  count := active.count
  positive := active.positive
  shown := active.shown
  exit := active.exit
  state := by
    rcases active.state with ⟨running, none, zero⟩ | cancelled
    · exact .inl ⟨running, fewer none, zero⟩
    · exact .inr cancelled

/-- A result without exit value 0 is right when each node shows what it has
reported and one has not reported. -/
theorem Active.right {after : Net} (active : Active net) {result : Result}
    (kind : after.kind = net.kind) (nodes : after.nodes = net.nodes)
    (reported : after.reported = net.reported)
    (ids : result.nodes.map NodeRes.id = net.nodes) (nonzero : result.exit ≠ 0)
    (shown : ∀ res ∈ result.nodes, res.status net.kind = expected (net.reported res.id)) :
    Right after result := by
  rw [Right, kind, nodes, reported]
  refine ⟨ids, ⟨fun zero => absurd zero nonzero, fun all => ?_⟩, shown⟩
  obtain ⟨node, member, silent⟩ := unreported_pos active.positive
  have none := all node member
  rw [silent] at none
  exact absurd none (by simp)

theorem running_not_cancelled :
    ¬(JobState.running kind = .cancelPrologue ∨ JobState.running kind = .cancelEpilogue) := by
  cases kind <;> simp [JobState.running]

theorem cancel_cancelled :
    JobState.cancel kind = .cancelPrologue ∨ JobState.cancel kind = .cancelEpilogue := by
  cases kind <;> simp [JobState.cancel]

theorem Active.running (active : Active net) (running : ¬cancelled net.job) :
    net.job.state = .running net.kind ∧ net.signals = [] ∧ net.job.exit net.kind = 0 := by
  rcases active.state with here | cancel
  · exact here
  · exact absurd (by rw [cancelled, cancel]; exact cancel_cancelled _) running

theorem Active.cancel (active : Active net) (cancel : cancelled net.job) :
    net.job.state = .cancel net.kind := by
  rcases active.state with ⟨running, -⟩ | here
  · rw [cancelled, running] at cancel
    exact absurd cancel (running_not_cancelled _)
  · exact here

theorem setNodeStatus_nodes (active : Active net) (node : Nat) (kind : Kind)
    (status : Status) :
    (net.job.setNodeStatus node kind status).nodes
      = net.job.nodes.map (setStatus node kind status) := by
  apply setJobNodeStatus_eq
  rw [active.ids]
  exact active.distinct

/-- A dropped message leaves a job that is cancelled already. -/
theorem drop_cancelled {job : Job} (undeleted : job.deleted = false)
    (cancel : cancelled job) (node : Nat) (start : Bool) :
    dropMsgAndCancel job node start
      = ⟨job.setNodeStatus node (if start then .prologue else .epilogue) .timedout, [], []⟩ := by
  unfold dropMsgAndCancel
  rw [if_neg (by rw [undeleted]; simp)]
  exact if_pos cancel

theorem drop_running {job : Job} (undeleted : job.deleted = false)
    (running : ¬cancelled job) (node : Nat) (start : Bool) :
    ∃ last, dropMsgAndCancel job node start
      = ⟨last, [], [⟨-4, true, (job.setNodeStatus node
          (if start then .prologue else .epilogue) .timedout).nodes⟩]⟩
        ∧ last.deleted = true ∧ last.monitored = false := by
  unfold dropMsgAndCancel
  rw [if_neg (by rw [undeleted]; simp)]
  exact ⟨_, if_neg running, rfl, rfl⟩

theorem kind_start :
    (if decide (kind = Kind.prologue) = true then Kind.prologue
      else .epilogue) = kind := by
  cases kind <;> rfl

/-- What a mark of one node as timed out leaves of the states shown. -/
theorem Active.marked (active : Active net) (silent : net.reported node = none) :
    ∀ res ∈ net.job.nodes.map (setStatus node net.kind .timedout),
      res.status net.kind = expected (net.reported res.id)
        ∨ net.reported res.id = none ∧ res.id ≠ node ∧ res.status net.kind = .pending := by
  intro res member
  obtain ⟨old, inside, rfl⟩ := List.mem_map.mp member
  by_cases same : old.id = node
  · rw [setStatus_same same, setStatus_id, same, silent]
    exact .inl rfl
  · rw [setStatus_other same]
    rcases active.shown old inside with right | ⟨none, pending⟩
    · exact .inl right
    · exact .inr ⟨none, same, pending⟩

theorem Active.dropStart (active : Active net) (enabled : node ∈ net.starts)
    (fits : Fits net (.dropStart node)) :
    Active (perform net (.dropStart node)) ∨ Over (perform net (.dropStart node)) := by
  have there : node ∈ net.underWay := List.mem_append_left _ (List.mem_append_left _ enabled)
  obtain ⟨-, silent⟩ := active.waits node there
  have marked := active.marked silent
  rcases fits with deleted | ⟨cancel, monitored⟩ | ⟨running, others⟩
  · rw [active.undeleted] at deleted
    exact absurd deleted (by simp)
  · left
    have fewer : (net.starts.erase node ++ net.running
        ++ net.finishes.map Prod.fst).Sublist net.underWay :=
      (List.erase_sublist.append_right _).append_right _
    simp only [perform, drop_cancelled active.undeleted cancel, kind_start]
    refine ⟨active.undeleted, ?_, ?_, active.distinct,
      active.single.sublist fewer,
      fun other member => active.waits other (fewer.subset member), ?_,
      active.count, active.positive, ?_, active.exit, ?_⟩
    · simp only [Net.handled, List.append_nil]
      exact active.uncalled
    · simp only [Net.handled]
      rw [setNodeStatus_nodes active, map_setStatus_id]
      exact active.ids
    · intro unmonitored
      have still : net.job.monitored = false := unmonitored
      rw [monitored] at still
      exact absurd still (by simp)
    · intro res member
      simp only [Net.handled] at member
      rw [setNodeStatus_nodes active] at member
      rcases marked res member with right | ⟨none, -, pending⟩
      · exact .inl right
      · exact .inr ⟨none, pending⟩
    · exact .inr (active.cancel cancel)
  · right
    obtain ⟨last, dropped, deleted, unmonitored⟩ := drop_running
      active.undeleted running node (decide (net.kind = Kind.prologue))
    simp only [perform, dropped, kind_start]
    refine ⟨deleted, unmonitored, ⟨-4, true,
      (net.job.setNodeStatus node net.kind .timedout).nodes⟩, ?_, ?_⟩
    · simp only [Net.handled, active.uncalled]
      rfl
    · rw [setNodeStatus_nodes active]
      refine active.right rfl rfl rfl ?_ (by simp) ?_
      · exact (map_setStatus_id ..).trans active.ids
      · intro res member
        rcases marked res member with right | ⟨none, other, -⟩
        · exact right
        · obtain ⟨old, inside, rfl⟩ := List.mem_map.mp member
          rw [setStatus_id] at none other
          exact absurd none (others old inside other)

theorem Active.dropSignal (active : Active net) (enabled : node ∈ net.signals)
    (fits : Fits net (.dropSignal node)) :
    Active (perform net (.dropSignal node)) := by
  have cancel : cancelled net.job := by
    by_contra running
    rw [(active.running running).2.1] at enabled
    exact absurd enabled List.not_mem_nil
  simp only [perform, drop_cancelled active.undeleted cancel, Bool.false_eq_true, if_false]
  refine ⟨active.undeleted, ?_, ?_, active.distinct, active.single,
    active.waits, active.left, active.count, active.positive, ?_, active.exit,
    .inr (active.cancel cancel)⟩
  · simp only [Net.handled, List.append_nil]
    exact active.uncalled
  · simp only [Net.handled]
    rw [setNodeStatus_nodes active, map_setStatus_id]
    exact active.ids
  · intro res member
    simp only [Net.handled] at member ⊢
    rw [setNodeStatus_nodes active] at member
    rcases fits with deleted | prologue | silent
    · rw [active.undeleted] at deleted
      exact absurd deleted (by simp)
    · -- only the state of the epilogue changes
      obtain ⟨old, inside, rfl⟩ := List.mem_map.mp member
      rw [setStatus_id, setStatus_kind old (by rw [prologue]; simp)]
      exact active.shown old inside
    · cases kind : net.kind with
      | prologue =>
        obtain ⟨old, inside, rfl⟩ := List.mem_map.mp member
        rw [setStatus_id, setStatus_kind old (by simp), ← kind]
        exact active.shown old inside
      | epilogue =>
        have marked := active.marked silent
        rw [kind] at marked
        rcases marked res member with right | ⟨none, -, pending⟩
        · exact .inl right
        · exact .inr ⟨none, pending⟩

theorem Active.timeout (active : Active net) (fits : Fits net .timeout) :
    Over (perform net .timeout) := by
  refine ⟨rfl, rfl, ⟨-4, true, net.job.nodes.map (markTimedout (lookedAt net.job.state))⟩, ?_, ?_⟩
  · simp only [perform, Net.handled, active.uncalled]
    rfl
  · refine active.right rfl rfl rfl ?_ (by simp) ?_
    · simp only [List.map_map]
      refine (List.map_congr_left fun res _ => ?_).trans active.ids
      exact markTimedout_id _ res
    · intro res member
      obtain ⟨old, inside, rfl⟩ := List.mem_map.mp member
      rw [markTimedout_id]
      have shown := active.shown old inside
      by_cases looked : lookedAt net.job.state = net.kind
      · rw [looked, markTimedout]
        split
        · rename_i pending
          rcases shown with right | ⟨none, -⟩
          · rw [pending] at right
            cases reported : net.reported old.id with
            | none => exact update_self ..
            | some res =>
              rw [reported] at right
              simp only [expected] at right
              split at right <;> exact absurd right (by simp)
          · rw [none]
            exact update_self ..
        · rename_i settled
          rcases shown with right | ⟨-, pending⟩
          · exact right
          · exact absurd pending settled
      · -- a cancelled prologue: the states of the epilogue are looked at
        have prologue : net.kind = .prologue := by
          cases kind : net.kind with
          | prologue => rfl
          | epilogue =>
            rcases active.state with ⟨state, -⟩ | state
            · rw [state, kind] at looked
              exact absurd rfl looked
            · rw [state, kind] at looked
              exact absurd rfl looked
        have cancel : cancelled net.job := by
          by_contra running
          rw [(active.running running).1, prologue] at looked
          exact looked rfl
        have settled : old.status .prologue ≠ .pending := by
          rcases fits with epilogue | running | settled
          · rw [prologue] at epilogue
            exact absurd epilogue (by simp)
          · exact absurd cancel running
          · exact settled old inside
        have kept : (markTimedout (lookedAt net.job.state) old).status net.kind
            = old.status net.kind := by
          unfold markTimedout
          split
          · exact update_of_ne (Ne.symm looked) ..
          · rfl
        rw [kept]
        rcases shown with right | ⟨-, pending⟩
        · exact right
        · rw [prologue] at pending
          exact absurd pending settled

/-! ## Finished nodes -/

variable (job : Job)

theorem keepExit_zero (status : Int) (kind : Kind) :
    (keepExit job status kind).exit kind = 0 ↔ job.exit kind = 0 ∧ status = 0 := by
  unfold keepExit
  by_cases kept : status ≠ 0 ∧ (job.exit kind < status ∨ status < 0)
  · rw [if_pos kept]
    simp only [update_self]
    exact ⟨fun zero => absurd zero kept.1, fun zero => zero.2⟩
  · rw [if_neg kept]
    omega

theorem keepExit_same (status : Int) (kind : Kind) :
    (keepExit job status kind).deleted = job.deleted ∧ (keepExit job status kind).nodes = job.nodes
      ∧ (keepExit job status kind).monitored = job.monitored ∧ (keepExit job status kind).track =
      job.track ∧ (keepExit job status kind).state = job.state := by
  unfold keepExit
  split <;> exact ⟨rfl, rfl, rfl, rfl, rfl⟩

theorem finish_last {job : Job} {kind : Kind} (status : Int)
    (track : job.track kind = 1) :
    ∃ last, finishJobPElogue job status kind
        = ⟨last, [], [⟨lastExit job status kind, false, job.nodes⟩]⟩
      ∧ last.deleted = true ∧ last.monitored = false := by
  have zero : update job.track kind (job.track kind - 1) kind = 0 := by
    rw [update_self]
    omega
  unfold finishJobPElogue
  simp only [zero, Int.lt_irrefl, if_false, if_true, callback, cancelJobMonitor, update_self]
  obtain ⟨deleted, -, monitored, -⟩ := keepExit_same
    { job with
      track := update job.track kind (job.track kind - 1)
      exit := update job.exit kind (lastExit
        { job with
          track := update job.track kind (job.track kind - 1) }
        status kind)
      monitored := false, deleted := true } status kind
  exact ⟨_, rfl, deleted, monitored⟩

theorem finish_early {job : Job} {kind : Kind} (status : Int)
    (track : 1 < job.track kind) :
    ∃ last signals, finishJobPElogue job status kind = ⟨last, signals, []⟩
      ∧ last.deleted = job.deleted ∧ last.nodes = job.nodes
      ∧ last.monitored = job.monitored
      ∧ last.track kind = job.track kind - 1
      ∧ (last.exit kind = 0 ↔ job.exit kind = 0 ∧ status = 0)
      ∧ (last.state = .cancel kind
        ∨ last.state = job.state ∧ signals = [] ∧ (job.exit kind = 0 → status = 0)) := by
  have counted : update job.track kind (job.track kind - 1) kind
      = job.track kind - 1 := update_self ..
  unfold finishJobPElogue
  simp only [counted]
  rw [if_neg (by omega), if_neg (by omega)]
  by_cases first : status ≠ 0 ∧ job.exit kind = 0
  · rw [if_pos first]
    obtain ⟨cancelled, signals, is_cancelled, deleted, nodes, monitored,
      tracked, exit, state⟩ : ∃ cancelled signals, cancelOthers
        { job with
          track := update job.track kind (job.track kind - 1) } kind = (cancelled, signals)
        ∧ cancelled.deleted = job.deleted ∧ cancelled.nodes = job.nodes
        ∧ cancelled.monitored = job.monitored
        ∧ cancelled.track kind = job.track kind - 1
        ∧ cancelled.exit = job.exit ∧ cancelled.state = .cancel kind := by
      unfold cancelOthers
      simp only
      split
      · exact ⟨_, _, rfl, rfl, rfl, rfl, counted, rfl, rfl⟩
      · exact ⟨_, _, rfl, rfl, rfl, rfl, counted, rfl, rfl⟩
    obtain ⟨kept_deleted, kept_nodes, kept_monitored, kept_track,
      kept_state⟩ := keepExit_same cancelled status kind
    simp only [is_cancelled]
    refine ⟨_, _, rfl, kept_deleted.trans deleted, kept_nodes.trans nodes,
      kept_monitored.trans monitored, ?_, ?_, .inl (kept_state.trans state)⟩
    · rw [kept_track, tracked]
    · rw [keepExit_zero, exit]
  · rw [if_neg first]
    obtain ⟨deleted, nodes, monitored, tracked, state⟩ := keepExit_same
      { job with
        track := update job.track kind (job.track kind - 1) }
      status kind
    refine ⟨_, _, rfl, deleted, nodes, monitored, ?_, ?_, .inr ⟨state, rfl, ?_⟩⟩
    · rw [tracked]
      exact counted
    · rw [keepExit_zero]
    · intro zero
      by_contra failed
      exact first ⟨failed, zero⟩

theorem lastExit_zero (status : Int) (kind : Kind) :
    lastExit job status kind = 0 ↔ job.exit kind = 0 ∧ status = 0 := by
  unfold lastExit
  split
  · rename_i zero
    exact ⟨fun status => ⟨zero, status⟩, fun both => both.2⟩
  · rename_i failed
    exact ⟨fun zero => absurd zero failed, fun both => absurd both.1 failed⟩

theorem Active.reports (active : Active net) (node : Nat) (value : Int) :
    ∀ res ∈ net.job.nodes.map (setStatus node net.kind (if value ≠ 0 then .failed else .done)),
      res.status net.kind = expected (update net.reported node (some value) res.id)
        ∨ update net.reported node (some value) res.id = none ∧ res.status net.kind = .pending := by
  intro res member
  obtain ⟨old, inside, rfl⟩ := List.mem_map.mp member
  rw [setStatus_id]
  by_cases same : old.id = node
  · rw [setStatus_same same, same, update_self]
    left
    by_cases zero : value = 0
    · simp [expected, zero]
    · simp [expected, zero]
  · rw [setStatus_other same, update_of_ne same]
    exact active.shown old inside

theorem Active.exit_report (active : Active net) (member : node ∈ net.nodes)
    (silent : net.reported node = none) (value : Int) :
    (∀ other ∈ net.nodes, ∀ res, update net.reported node (some value) other = some res →
          res = 0) ↔ net.job.exit net.kind = 0 ∧ value = 0 := by
  rw [active.exit]
  constructor
  · intro all
    refine ⟨fun other inside res reported => ?_, ?_⟩
    · have differs : other ≠ node := by
        rintro rfl
        rw [silent] at reported
        exact absurd reported (by simp)
      exact all other inside res (by rw [update_of_ne differs]; exact reported)
    · exact all node member value (update_self ..)
  · rintro ⟨all, zero⟩ other inside res reported
    by_cases same : other = node
    · rw [same, update_self, Option.some_inj] at reported
      rw [← reported]
      exact zero
    · rw [update_of_ne same] at reported
      exact all other inside res reported

theorem Active.finish {net : Net} (active : Active net) {node : Nat}
    {value : Int} (enabled : (node, value) ∈ net.finishes) :
    Active (perform net (.finish node value)) ∨ Over (perform net (.finish node value)) := by
  have there : node ∈ net.underWay := List.mem_append_right _ (List.mem_map_of_mem enabled)
  obtain ⟨inside, silent⟩ := active.waits node there
  have fewer := unreported_report value active.distinct inside silent
  have perm : net.underWay.Perm (node :: (net.starts ++ net.running
      ++ (net.finishes.erase (node, value)).map Prod.fst)) := by
    have split : (net.finishes.map Prod.fst).Perm
        (node :: (net.finishes.erase (node, value)).map Prod.fst) :=
      (List.perm_cons_erase enabled).map Prod.fst
    exact (split.append_left _).trans List.perm_middle
  have single := perm.nodup_iff.mp active.single
  rw [List.nodup_cons] at single
  have shown := active.reports node value
  have exit := active.exit_report inside silent value
  rw [← setNodeStatus_nodes active] at shown
  have ids : (net.job.setNodeStatus node net.kind
      (if value ≠ 0 then .failed else .done)).nodes.map NodeRes.id = net.nodes := by
    rw [setNodeStatus_nodes active, map_setStatus_id]
    exact active.ids
  have handled : handlePElogueFinish net.job node net.kind value
      = finishJobPElogue (net.job.setNodeStatus node net.kind
          (if value ≠ 0 then .failed else .done)) value net.kind :=
    if_neg (by rw [active.undeleted]; simp)
  have count := active.count
  have reported : (net.report node value).reported = update net.reported node (some value) :=
    if_neg (by rw [active.undeleted]; simp)
  by_cases last : unreported net.reported net.nodes = 1
  · right
    obtain ⟨ended, finished, deleted, unmonitored⟩ := @finish_last
      (net.job.setNodeStatus node net.kind (if value ≠ 0 then .failed else .done)) net.kind value
      (by simp only [Job.setNodeStatus]; omega)
    simp only [perform, handled, finished]
    refine ⟨deleted, unmonitored, ⟨lastExit (net.job.setNodeStatus node
      net.kind (if value ≠ 0 then .failed else .done)) value net.kind, false,
      (net.job.setNodeStatus node net.kind
        (if value ≠ 0 then .failed else .done)).nodes⟩, ?_, ids, ?_, ?_⟩
    · simp only [Net.handled, Net.report, active.uncalled]
      rfl
    · -- all nodes have reported
      simp only [Net.handled, reported]
      rw [lastExit_zero]
      have all : ∀ other ∈ net.nodes, update net.reported node (some value) other ≠ none :=
        fun other member => unreported_zero (by omega) member
      constructor
      · intro zero other member
        have settled := exit.mpr zero other member
        cases value_of : update net.reported node (some value) other with
        | none => exact absurd value_of (all other member)
        | some res => rw [settled res value_of]
      · intro zero
        apply exit.mp
        intro other member res value_of
        rw [zero other member, Option.some_inj] at value_of
        exact value_of.symm
    · intro res member
      simp only [Net.handled, reported]
      rcases shown res member with right | ⟨none, -⟩
      · exact right
      · have here : res.id ∈ net.nodes := by
          rw [← ids]
          exact List.mem_map_of_mem member
        exact absurd none (unreported_zero (by omega) here)
  · left
    have positive := active.positive
    obtain ⟨later, signals, finished, deleted, nodes, monitored, tracked,
      zero, state⟩ := @finish_early (net.job.setNodeStatus node net.kind
        (if value ≠ 0 then .failed else .done)) net.kind value
      (by simp only [Job.setNodeStatus]; omega)
    simp only [perform, handled, finished]
    refine ⟨deleted.trans active.undeleted, ?_, ?_, active.distinct, single.2,
      ?_, ?_, ?_, ?_, ?_, ?_, ?_⟩
    · simp only [Net.handled, Net.report, active.uncalled]
      rfl
    · exact (congrArg (List.map NodeRes.id) nodes).trans ids
    · intro other member
      have before := active.waits other (perm.mem_iff.mpr (List.mem_cons_of_mem _ member))
      have differs : other ≠ node := by
        rintro rfl
        exact single.1 member
      refine ⟨before.1, ?_⟩
      simp only [Net.handled, reported]
      rw [update_of_ne differs]
      exact before.2
    · intro unmonitored other member quiet
      have differs : other ≠ node := by
        rintro rfl
        simp only [Net.handled, reported, update_self] at quiet
        exact absurd quiet (by simp)
      simp only [Net.handled, reported, update_of_ne differs] at quiet
      have before := active.left (monitored.symm.trans unmonitored) other member quiet
      rcases List.mem_cons.mp (perm.mem_iff.mp before) with same | behind
      · exact absurd same differs
      · exact behind
    · simp only [Net.handled, reported]
      refine tracked.trans ?_
      simp only [Job.setNodeStatus]
      show _ = ((unreported (update net.reported node (some value)) net.nodes : Nat) : Int)
      omega
    · simp only [Net.handled, reported]
      show 0 < unreported (update net.reported node (some value)) net.nodes
      omega
    · intro res member
      simp only [Net.handled, reported] at member ⊢
      rw [nodes] at member
      exact shown res member
    · simp only [Net.handled, reported]
      exact zero.trans exit.symm
    · rcases state with cancel | ⟨same, quiet, good⟩
      · exact .inr cancel
      · rcases active.state with ⟨running, none, exit_zero⟩ | cancel
        · refine .inl ⟨same.trans running, ?_, zero.mpr ⟨exit_zero, good exit_zero⟩⟩
          simp only [Net.handled, quiet, List.append_nil]
          exact none
        · exact .inr (same.trans cancel)

/-! ## Runs -/

theorem Active.start {kind : Kind} {nodes : List Nat} (monitored : Bool)
    (some_node : nodes ≠ []) (distinct : nodes.Nodup) :
    Active (Net.start kind nodes monitored) := by
  have all : unreported (fun _ => none) nodes = nodes.length := by
    unfold unreported
    rw [List.countP_eq_length]
    intro node _
    rfl
  have ids : (addJob nodes).nodes.map NodeRes.id = nodes := by
    simp only [addJob, List.map_map]
    exact List.map_id nodes
  refine ⟨rfl, rfl, ids, distinct, ?_, ?_, ?_, ?_, ?_, ?_, ?_, .inl ⟨rfl, rfl, rfl⟩⟩
  · simpa [Net.underWay, Net.start] using distinct
  · intro node member
    simp only [Net.underWay, Net.start, List.append_nil, List.map_nil] at member
    exact ⟨member, rfl⟩
  · intro _ node member _
    simp only [Net.underWay, Net.start, List.append_nil, List.map_nil]
    exact member
  · simp only [Net.start, startPElogueReq, update_self, all]
    simp [addJob]
  · simp only [Net.start, all]
    exact List.length_pos_iff.mpr some_node
  · intro res member
    obtain ⟨node, -, rfl⟩ := List.mem_map.mp member
    exact .inr ⟨rfl, rfl⟩
  · refine ⟨fun _ node _ res reported => ?_, fun _ => rfl⟩
    exact absurd reported (by simp [Net.start])

theorem Active.perform (active : Active net) {event : Event}
    (enabled : Enabled net event) (fits : Fits net event) :
    Active (perform net event) ∨ Over (perform net event) := by
  cases event with
  | arrive node =>
    left
    have perm : (net.starts.erase node ++ node :: net.running).Perm (net.starts ++ net.running) :=
      List.perm_middle.trans ((List.perm_cons_erase enabled).symm.append_right _)
    exact active.move (perm.append_right _) id
  | dropStart node => exact active.dropStart enabled fits
  | answer node value =>
    left
    have perm : (node :: (net.starts ++ net.running.erase node)).Perm (net.starts ++ net.running) :=
      List.perm_middle.symm.trans ((List.perm_cons_erase enabled).symm.append_left _)
    exact active.move (List.perm_middle.trans (perm.append_right _)) id
  | finish node value => exact active.finish enabled
  | signal node =>
    left
    refine active.move (List.Perm.refl _) fun none => ?_
    rw [none]
    rfl
  | dropSignal node => exact .inl (active.dropSignal enabled fits)
  | timeout => exact .inr (active.timeout fits)

theorem complete_invariant : fittingSystem.Invariant fun net => Active net ∨ Over net where
  initial := by
    rintro net ⟨kind, nodes, monitored, some_node, distinct, rfl⟩
    exact .inl (Active.start monitored some_node distinct)
  step := by
    rintro before after invariant ⟨event, enabled, fits, rfl⟩
    rcases invariant with active | finished
    · exact active.perform enabled fits
    · exact .inr (finished.perform enabled)

/-- In every run whose events all fit a job gets one complete result. -/
theorem job_complete {net : Net} (reachable : fittingSystem.Reachable net) : Complete net := by
  rcases complete_invariant.reachable reachable with active | finished
  · exact active.complete
  · exact finished.complete

/-- Two nodes, the second one of which fails. -/
theorem job_complete_two : ∃ net : Net, net.results.length = 1 ∧ Complete net := by
  have start : fittingSystem.Reachable (Net.start .prologue [1, 2] false) :=
    .initial ⟨.prologue, [1, 2], false, by simp, by decide, rfl⟩
  have first := start.step ⟨.arrive 1, List.mem_cons_self, trivial, rfl⟩
  have second := first.step ⟨.arrive 2, List.mem_cons_self, trivial, rfl⟩
  have good := second.step ⟨.answer 1 0, List.mem_cons_of_mem _ List.mem_cons_self, trivial, rfl⟩
  have bad := good.step ⟨.answer 2 3, List.mem_cons_self, trivial, rfl⟩
  have known := bad.step ⟨.finish 1 0, List.mem_cons_of_mem _ List.mem_cons_self, trivial, rfl⟩
  have last := known.step ⟨.finish 2 3, List.mem_cons_self, trivial, rfl⟩
  exact ⟨_, rfl, job_complete last⟩

/-- Without a timer, START of the second node is dropped after the first one has
failed: the callback is never called. -/
theorem not_job_complete : ¬∀ net : Net, jobSystem.Reachable net → Complete net := by
  intro claim
  have start : jobSystem.Reachable (Net.start .prologue [1, 2] false) :=
    .initial ⟨.prologue, [1, 2], false, by simp, by decide, rfl⟩
  have arrive := start.step ⟨.arrive 1, List.mem_cons_self, rfl⟩
  have answer := arrive.step ⟨.answer 1 1, List.mem_cons_self, rfl⟩
  have failed := answer.step ⟨.finish 1 1, List.mem_cons_self, rfl⟩
  have dropped := failed.step ⟨.dropStart 2, List.mem_cons_self, rfl⟩
  have first := dropped.step ⟨.signal 1, List.mem_cons_self, rfl⟩
  have second := first.step ⟨.dropSignal 2, List.mem_cons_self, rfl⟩
  obtain ⟨-, forgotten, -⟩ := claim _ second
  rcases forgotten rfl with running | starts | signals | finishes | monitored
  · exact running rfl
  · exact starts rfl
  · exact signals rfl
  · exact finishes rfl
  · exact absurd monitored (by decide)

end Psmgmt.Pelogue
