import Psmgmt.Partition.PendingRequests

/-!
# No request is left half handled

A request is handled as a whole or not at all unless a branch is taken that
deletes it although it is queued, or moves it without slots.
-/

namespace Psmgmt.PartHandler

open Psmgmt.Partition List Function Bool

variable {world : World} {state before after : Handler} {id other : Nat}

/-! ## What is left alone -/

/-- A request is left as it is. -/
structure Elsewhere (other : Nat) (before after : Handler) : Prop where
  request : after.request other = before.request other
  pending : other ∈ after.pendReq ↔ other ∈ before.pendReq
  running : other ∈ after.runReq ↔ other ∈ before.runReq
  suspended : other ∈ after.suspReq ↔ other ∈ before.suspReq
  registered : other ∈ after.registered ↔ other ∈ before.registered
  gone : other ∈ after.gone ↔ other ∈ before.gone

theorem Elsewhere.refl (other : Nat) (state : Handler) : Elsewhere other state state :=
  ⟨rfl, Iff.rfl, Iff.rfl, Iff.rfl, Iff.rfl, Iff.rfl⟩

theorem Elsewhere.trans {middle : Handler} (first : Elsewhere other before middle)
    (second : Elsewhere other middle after) : Elsewhere other before after where
  request := second.request.trans first.request
  pending := second.pending.trans first.pending
  running := second.running.trans first.running
  suspended := second.suspended.trans first.suspended
  registered := second.registered.trans first.registered
  gone := second.gone.trans first.gone

theorem Elsewhere.isPending (same : Elsewhere other before after) :
    Pending after other ↔ Pending before other := by
  constructor
  · intro pending
    exact ⟨same.pending.mp pending.queued,
      fun member => pending.notRunning (same.running.mpr member),
      fun member => pending.notSuspended (same.suspended.mpr member),
      fun member => pending.notRegistered (same.registered.mpr member),
      fun member => pending.alive (same.gone.mpr member)⟩
  · intro pending
    exact ⟨same.pending.mpr pending.queued,
      fun member => pending.notRunning (same.running.mp member),
      fun member => pending.notSuspended (same.suspended.mp member),
      fun member => pending.notRegistered (same.registered.mp member),
      fun member => pending.alive (same.gone.mp member)⟩

theorem Elsewhere.isHandled (same : Elsewhere other before after) :
    Handled after other ↔ Handled before other := by
  rw [Handled, Handled, same.isPending]
  apply or_congr Iff.rfl
  apply or_congr
  · constructor
    · intro running
      refine ⟨same.running.mp running.queued,
        fun member => running.notPending (same.pending.mpr member),
        fun member => running.notSuspended (same.suspended.mpr member), ?_,
        fun member => running.alive (same.gone.mpr member)⟩
      rw [← same.registered, ← same.request]
      exact running.registered
    · intro running
      refine ⟨same.running.mpr running.queued,
        fun member => running.notPending (same.pending.mp member),
        fun member => running.notSuspended (same.suspended.mp member), ?_,
        fun member => running.alive (same.gone.mp member)⟩
      rw [same.registered, same.request]
      exact running.registered
  · constructor
    · intro deleted
      exact ⟨same.gone.mp deleted.gone,
        fun member => deleted.notPending (same.pending.mpr member),
        fun member => deleted.notRunning (same.running.mpr member),
        fun member => deleted.notSuspended (same.suspended.mpr member),
        fun member => deleted.notRegistered (same.registered.mpr member)⟩
    · intro deleted
      exact ⟨same.gone.mpr deleted.gone,
        fun member => deleted.notPending (same.pending.mp member),
        fun member => deleted.notRunning (same.running.mp member),
        fun member => deleted.notSuspended (same.suspended.mp member),
        fun member => deleted.notRegistered (same.registered.mp member)⟩

theorem deqPart_eq_some {queue rest : List Nat} : deqPart state queue id = some rest ↔
      findPart state queue (state.request id).tid = some id ∧ rest = queue.erase id := by
  rw [deqPart]
  rcases findPart state queue (state.request id).tid with _ | found
  · exact ⟨fun same => (nomatch same), fun both => (nomatch both.1)⟩
  · dsimp only
    split
    · rename_i differs
      exact ⟨fun same => (nomatch same),
        fun both => absurd (Option.some.inj both.1) differs⟩
    · rename_i same
      rw [not_not.mp same]
      constructor
      · intro removed
        exact ⟨rfl, (Option.some.inj removed).symm⟩
      · intro both
        rw [both.2]

theorem deqPart_eq_none {queue : List Nat} :
    deqPart state queue id = none ↔ findPart state queue (state.request id).tid ≠ some id := by
  constructor
  · intro fails found
    have removed := (@deqPart_eq_some state id queue (queue.erase id)).mpr ⟨found, rfl⟩
    exact nomatch fails.symm.trans removed
  · intro differs
    rcases result : deqPart state queue id with _ | rest
    · rfl
    · exact absurd (deqPart_eq_some.mp result).1 differs

theorem setRequest_elsewhere (req : PartRequest) (apart : other ≠ id) :
    Elsewhere other state (state.setRequest id req) where
  request := update_of_ne apart _ _
  pending := Iff.rfl
  running := Iff.rfl
  suspended := Iff.rfl
  registered := Iff.rfl
  gone := Iff.rfl

theorem delReq_elsewhere (apart : other ≠ id) : Elsewhere other state (delReq id state) where
  request := rfl
  pending := Iff.rfl
  running := Iff.rfl
  suspended := Iff.rfl
  registered := Iff.rfl
  gone := mem_cons.trans (or_iff_right apart)

theorem registerReq_elsewhere (apart : other ≠ id) :
    Elsewhere other state (registerReq world id state) := by
  rw [registerReq]
  split
  · split
    · exact Elsewhere.refl other state
    · exact ⟨rfl, Iff.rfl, Iff.rfl, Iff.rfl, mem_cons.trans (or_iff_right apart), Iff.rfl⟩
  · exact Elsewhere.refl other state

theorem unregisterReq_elsewhere (apart : other ≠ id) :
    Elsewhere other state (unregisterReq id state) := by
  rw [unregisterReq]
  split
  · split
    · exact Elsewhere.refl other state
    · exact ⟨rfl, Iff.rfl, Iff.rfl, Iff.rfl, mem_erase_of_ne apart, Iff.rfl⟩
  · exact Elsewhere.refl other state

theorem discard_elsewhere (apart : other ≠ id) : Elsewhere other state (discard id state) := by
  rw [discard]
  split
  · rename_i queue removed
    rw [(deqPart_eq_some.mp removed).2]
    exact ⟨rfl, mem_erase_of_ne apart, Iff.rfl, Iff.rfl, Iff.rfl,
      mem_cons.trans (or_iff_right apart)⟩
  · exact delReq_elsewhere apart

theorem jobFinished_elsewhere (apart : other ≠ id) :
    Elsewhere other state (jobFinished id state) := by
  have given : Elsewhere other state
      (if !(state.request id).freed then unregisterReq id state
        else state) := by
    split
    · exact unregisterReq_elsewhere apart
    · exact Elsewhere.refl other state
  apply given.trans
  rw [jobFinished]
  generalize (if !(state.request id).freed then unregisterReq id state
    else state) = given
  split
  · rename_i queue removed
    rw [(deqPart_eq_some.mp removed).2]
    exact ⟨rfl, Iff.rfl, mem_erase_of_ne apart, Iff.rfl, Iff.rfl,
      mem_cons.trans (or_iff_right apart)⟩
  · split
    · rename_i queue removed
      rw [(deqPart_eq_some.mp removed).2]
      exact ⟨rfl, Iff.rfl, Iff.rfl, mem_erase_of_ne apart, Iff.rfl,
        mem_cons.trans (or_iff_right apart)⟩
    · exact delReq_elsewhere apart

theorem refuse_elsewhere (errno : Nat) (apart : other ≠ id) :
    Elsewhere other state (refuse id errno state) := by
  have answered : ∀ answers, Elsewhere other state { state with answers := answers } := fun _ =>
    ⟨rfl, Iff.rfl, Iff.rfl, Iff.rfl, Iff.rfl, Iff.rfl⟩
  exact (answered _).trans (discard_elsewhere apart)

theorem getPartition_elsewhere (apart : other ≠ id) :
    Elsewhere other state (getPartition world id state).2 := by
  rw [getPartition]
  rcases allocate world id state with ⟨failed, req⟩
  dsimp only
  apply (setRequest_elsewhere req apart).trans
  rcases failed with _ | errno
  · dsimp only
    split
    · exact Elsewhere.refl other _
    · rename_i queue removed
      rw [(deqPart_eq_some.mp removed).2]
      refine Elsewhere.trans ?_ (registerReq_elsewhere apart)
      refine ⟨update_of_ne apart _ _, mem_erase_of_ne apart, ?_, Iff.rfl, Iff.rfl, Iff.rfl⟩
      apply mem_append.trans
      apply or_iff_left
      intro member
      exact apart (mem_singleton.mp member)
  · exact Elsewhere.refl other _

theorem handleRequest_elsewhere (apart : other ≠ id) :
    Elsewhere other state (handleRequest world id state).2 := by
  rw [handleRequest]
  have handled := @getPartition_elsewhere world state id other apart
  generalize getPartition world id state = result at handled ⊢
  rcases result with ⟨failed, middle⟩
  rcases failed with _ | errno
  · exact handled
  · dsimp only
    split
    · exact handled
    · exact handled.trans (refuse_elsewhere errno apart)

/-! ## One request -/

structure SameTask (before after : PartRequest) : Prop where
  tid : after.tid = before.tid
  options : after.options = before.options

theorem SameTask.refl (req : PartRequest) : SameTask req req := ⟨rfl, rfl⟩

theorem SameTask.trans {first second third : PartRequest}
    (left : SameTask first second) (right : SameTask second third) :
    SameTask first third :=
  ⟨right.tid.trans left.tid, right.options.trans left.options⟩

theorem createPartition_sameTask (nodes : Nodes) (nodeStat : Nat → CPUSet)
    (memory : Memory) (req : PartRequest) (candidates : SortList) :
    SameTask req (createPartition nodes nodeStat memory req candidates).2 := by
  rw [createPartition]
  generalize collectSlots nodes nodeStat memory req candidates.entry _ = collected
  rcases collected with ⟨numSlots, slots, overbook⟩
  dsimp only
  generalize (if req.options.overbook = true ∧
    candidates.freeHWTs / req.tpp ≥ req.size then false
    else req.options.overbook) = required
  split
  · exact SameTask.refl req
  · split
    · exact SameTask.refl req
    · split
      · exact SameTask.refl req
      · exact ⟨rfl, rfl⟩

variable {req : PartRequest}

theorem fetchNodes_sameTask {fetched : PartRequest}
    (result : fetchNodes world id req = .ok fetched) :
    SameTask req fetched := by
  rw [fetchNodes] at result
  split at result
  · split at result
    · cases result
      exact ⟨rfl, rfl⟩
    · exact nomatch result
  · cases result
    exact SameTask.refl _

theorem allocate_sameTask (world : World) (id : Nat) (state : Handler) :
    SameTask (state.request id) (allocate world id state).2 := by
  rw [allocate]
  dsimp only
  rcases fetched : fetchNodes world id (state.request id) with errno | req
  · exact ⟨rfl, rfl⟩
  apply (fetchNodes_sameTask fetched).trans
  dsimp only
  have full : SameTask req (if req.options.fullList then { req with tpp := 1 } else req) := by
    split
    · exact ⟨rfl, rfl⟩
    · exact SameTask.refl req
  apply full.trans
  generalize (if req.options.fullList then { req with tpp := 1 } else req) = asked
  rcases world.candidates state asked with errno | candidates
  · exact SameTask.refl asked
  dsimp only
  split
  · exact SameTask.refl asked
  have sized : SameTask asked
      (if asked.options.fullList then
        { asked with size := candidates.entry.length } else asked) := by
    split
    · exact ⟨rfl, rfl⟩
    · exact SameTask.refl asked
  apply sized.trans
  generalize (if asked.options.fullList then
    { asked with size := candidates.entry.length } else asked) = sized
  generalize equality : createPartition world.nodes _ (world.memory id) sized candidates = result
  have created : SameTask sized result.2 := equality ▸ createPartition_sameTask ..
  rcases result with ⟨result, req⟩
  dsimp only
  split
  · exact created
  · exact created

theorem waits_sameTask {before after : PartRequest}
    (same : SameTask before after) (errno : Nat) :
    waits after errno = waits before errno := by
  rw [waits, waits, same.options]

theorem setRequest_self (req : PartRequest) : (state.setRequest id req).request id = req :=
  update_self _ _ _

theorem setRequest_other {part : Nat} (req : PartRequest) (apart : part ≠ id) :
    (state.setRequest id req).request part = state.request part :=
  update_of_ne apart _ _

theorem findPart_setRequest (same : (state.request id).tid = req.tid)
    (queue : List Nat) (tid : TaskId) :
    findPart (state.setRequest id req) queue tid = findPart state queue tid := by
  rw [findPart, findPart]
  congr 1
  funext part
  by_cases here : part = id
  · subst here
    rw [setRequest_self, same]
  · rw [setRequest_other _ here]

/-- A deleted request that is still queued. -/
theorem not_handled (gone : id ∈ state.gone)
    (queued : id ∈ state.pendReq ∨ id ∈ state.runReq) :
    ¬ Handled state id := by
  rintro (pending | running | deleted)
  · exact pending.alive gone
  · exact running.alive gone
  · rcases queued with here | there
    · exact deleted.notPending here
    · exact deleted.notRunning there

/-- A pending request is deleted as a whole just if it is the first one. -/
theorem discard_handled (pending : Pending state id)
    (distinct : state.pendReq.Nodup) :
    Handled (discard id state) id ↔ Foremost state id := by
  rw [discard]
  rcases result : deqPart state state.pendReq id with _ | queue
  · have behind := deqPart_eq_none.mp result
    constructor
    · intro handled
      exact absurd handled (not_handled mem_cons_self (.inl pending.queued))
    · intro foremost
      exact absurd foremost behind
  · obtain ⟨foremost, rest⟩ := deqPart_eq_some.mp result
    constructor
    · intro _
      exact foremost
    · intro _
      refine .inr (.inr ⟨mem_cons_self, ?_, pending.notRunning,
        pending.notSuspended, pending.notRegistered⟩)
      change id ∉ queue
      rw [rest]
      exact distinct.not_mem_erase

/-- A request that was moved stays among the running ones. -/
theorem discard_moved (absent : id ∉ state.pendReq)
    (moved : id ∈ state.runReq) : ¬ Handled (discard id state) id := by
  have behind : deqPart state state.pendReq id = none := by
    apply deqPart_eq_none.mpr
    intro found
    exact absent (mem_of_find?_eq_some found)
  rw [discard, behind]
  exact not_handled mem_cons_self (.inr moved)

theorem foremost_setRequest (same : SameTask (state.request id) req) :
    Foremost (state.setRequest id req) id ↔ Foremost state id := by
  rw [Foremost, Foremost, findPart_setRequest same.tid.symm, setRequest_self, same.tid]
  exact Iff.rfl

theorem Pending.setRequest (pending : Pending state id) (req : PartRequest) :
    Pending (state.setRequest id req) id :=
  ⟨pending.queued, pending.notRunning, pending.notSuspended, pending.notRegistered, pending.alive⟩

theorem refuse_handled (errno : Nat) (pending : Pending state id)
    (distinct : state.pendReq.Nodup) :
    Handled (refuse id errno state) id ↔ Foremost state id :=
  @discard_handled { state with answers := _ } id
    ⟨pending.queued, pending.notRunning, pending.notSuspended,
      pending.notRegistered, pending.alive⟩ distinct

theorem registerReq_cases (stat : state.nodeStat.isSome = true) :
    (registerReq world id state = state ∧
      ((state.request id).size = 0 ∨ (state.request id).slots = none)) ∨
    (∃ nodeStat, registerReq world id state =
        { state with
          nodeStat := some nodeStat, registered := id :: state.registered } ∧
      (state.request id).slots ≠ none) := by
  obtain ⟨nodeStat, stat⟩ := Option.isSome_iff_exists.mp stat
  rw [registerReq]
  rcases slots : (state.request id).slots with _ | slots
  · exact .inl ⟨rfl, .inr rfl⟩
  · rw [stat]
    dsimp only
    split
    · rename_i empty
      exact .inl ⟨rfl, .inl empty⟩
    · exact .inr ⟨_, rfl, fun none_ => (nomatch none_)⟩

theorem registerReq_handled (stat : state.nodeStat.isSome = true) (moved : id ∈ state.runReq)
    (absent : id ∉ state.pendReq) (notSuspended : id ∉ state.suspReq) (alive : id ∉ state.gone)
    (notRegistered : id ∉ state.registered) :
    Handled (registerReq world id state) id ↔
      ¬ ((state.request id).size ≠ 0 ∧ (state.request id).slots = none) := by
  rcases @registerReq_cases world state id stat with
    ⟨same, lacking⟩ | ⟨nodeStat, counted, slots⟩
  · rw [same]
    constructor
    · rintro (pending | running | deleted)
      · exact absurd pending.queued absent
      · rintro ⟨size, _⟩
        rcases running.registered with member | empty
        · exact notRegistered member
        · exact size empty
      · exact absurd deleted.gone alive
    · intro sound
      have empty : (state.request id).size = 0 := by
        rcases lacking with empty | none_
        · exact empty
        · by_contra size
          exact sound ⟨size, none_⟩
      exact .inr (.inl ⟨moved, absent, notSuspended, .inr empty, alive⟩)
  · rw [counted]
    constructor
    · intro _ lost
      exact slots lost.2
    · intro _
      exact .inr (.inl ⟨moved, absent, notSuspended, .inl mem_cons_self, alive⟩)

theorem registerReq_queues (world : World) (id : Nat) (state : Handler) :
    (registerReq world id state).pendReq = state.pendReq ∧ (registerReq world id state).runReq =
      state.runReq ∧ (registerReq world id state).request = state.request ∧
      (registerReq world id state).nodeStat.isSome = state.nodeStat.isSome := by
  rw [registerReq]
  split
  · rename_i slots nodeStat _ stat
    split
    · exact ⟨rfl, rfl, rfl, rfl⟩
    · rw [stat]
      exact ⟨rfl, rfl, rfl, rfl⟩
  · exact ⟨rfl, rfl, rfl, rfl⟩

/-- The state in which the partition of a request is registered. -/
def granted (id : Nat) (req : PartRequest) (state : Handler) : Handler :=
  { (state.setRequest id req).setRequest id { req with nodes := none } with
    pendReq := state.pendReq.erase id, runReq := state.runReq ++ [id] }

theorem getPartition_cases (world : World) (id : Nat) (state : Handler) :
    getPartition world id state =
      match (allocate world id state).1 with
      | some errno => (some errno, state.setRequest id (allocate world id state).2)
      | none =>
        if findPart state state.pendReq (allocate world id state).2.tid ≠ some id then
          (some ebusy, state.setRequest id (allocate world id state).2)
        else
          (world.sendFragMsg id, registerReq world id
            (granted id (allocate world id state).2 state)) := by
  have same := allocate_sameTask world id state
  rw [getPartition]
  generalize allocate world id state = result at same ⊢
  rcases result with ⟨failed, req⟩
  rcases failed with _ | errno
  · dsimp only at same ⊢
    have here : findPart (state.setRequest id req) state.pendReq
        ((state.setRequest id req).request id).tid = findPart state state.pendReq req.tid := by
      rw [findPart_setRequest same.tid.symm, setRequest_self]
    split
    · rename_i fails
      have behind := deqPart_eq_none.mp fails
      rw [if_pos]
      rw [← here]
      exact behind
    · rename_i queue removed
      obtain ⟨foremost, rest⟩ := deqPart_eq_some.mp removed
      rw [if_neg (not_not.mpr (here.symm.trans foremost)), rest]
      rfl
  · rfl

theorem handleRequest_handled (pending : Pending state id)
    (distinct : state.pendReq.Nodup) (stat : state.nodeStat.isSome = true) :
    Handled (handleRequest world id state).2 id ↔ ¬ Slips world state id := by
  have same := allocate_sameTask world id state
  rw [handleRequest, getPartition_cases, Slips]
  generalize allocate world id state = result at same ⊢
  rcases result with ⟨failed, req⟩
  have kept := pending.setRequest req
  have foremost := foremost_setRequest same
  dsimp only at same kept foremost ⊢
  rcases failed with _ | errno
  · dsimp only
    by_cases later : findPart state state.pendReq req.tid ≠ some id
    · have behind : ¬ Foremost (state.setRequest id req) id := by
        rw [foremost, Foremost, ← same.tid]
        exact later
      rw [if_pos later, if_pos later]
      dsimp only
      rw [setRequest_self]
      split
      · rename_i waiting
        rw [waiting]
        exact ⟨fun _ => Bool.noConfusion, fun _ => .inl kept⟩
      · rename_i refused
        constructor
        · intro handled
          exact absurd ((refuse_handled ebusy kept distinct).mp handled) behind
        · intro sound
          exact absurd (eq_false_iff.mpr refused) sound
    · rw [if_neg later, if_neg later]
      dsimp only
      have queues := registerReq_queues world id (granted id req state)
      have moved : id ∈ (granted id req state).runReq := mem_append_right _ mem_cons_self
      have absent : id ∉ (granted id req state).pendReq := distinct.not_mem_erase
      have request : (granted id req state).request id =
          { req with nodes := none } := setRequest_self _
      have running := @registerReq_handled world (granted id req state) id stat moved absent
        pending.notSuspended pending.alive pending.notRegistered
      rw [request] at running
      rcases sent : world.sendFragMsg id with _ | errno
      · dsimp only
        rw [running]
        constructor
        · rintro sound (lost | ⟨errno, fails, _⟩)
          · exact sound lost
          · exact nomatch fails
        · intro sound lost
          exact sound (.inl lost)
      · dsimp only
        rw [queues.2.2.1, request]
        have waiting : waits { req with nodes := none } errno =
            waits req errno := waits_sameTask ⟨rfl, rfl⟩ errno
        rw [waiting]
        split
        · rename_i waiting
          dsimp only
          rw [running]
          constructor
          · rintro sound (lost | ⟨other, fails, refused⟩)
            · exact sound lost
            · cases fails
              exact nomatch waiting.symm.trans refused
          · intro sound lost
            exact sound (.inl lost)
        · rename_i refused
          constructor
          · intro handled
            refine absurd handled (@discard_moved
              { registerReq world id (granted id req state) with answers := _ }
              id ?_ ?_)
            · change id ∉ (registerReq world id (granted id req state)).pendReq
              rw [queues.1]
              exact absent
            · change id ∈ (registerReq world id (granted id req state)).runReq
              rw [queues.2.1]
              exact moved
          · intro sound
            exact absurd (.inr ⟨errno, rfl, eq_false_iff.mpr refused⟩) sound
  · dsimp only
    rw [setRequest_self]
    split
    · rename_i waiting
      rw [waiting]
      exact ⟨fun _ both => Bool.noConfusion both.1, fun _ => .inl kept⟩
    · rename_i refused
      have refused := eq_false_iff.mpr refused
      dsimp only
      rw [refuse_handled errno kept distinct, foremost]
      constructor
      · intro first both
        exact both.2 first
      · intro sound
        by_contra behind
        exact sound ⟨refused, behind⟩

/-! ## The loops -/

/-- The requests still to be looked at wait in the queue, each of them once. -/
structure Tidy (state : Handler) (todo : List Nat) : Prop where
  once : todo.Nodup
  pending : ∀ id ∈ todo, Pending state id
  distinct : state.pendReq.Nodup

theorem Tidy.next {rest : List Nat} (tidy : Tidy state (id :: rest))
    (same : ∀ other, other ≠ id → Elsewhere other state after)
    (fewer : after.pendReq.Sublist state.pendReq) : Tidy after rest := by
  obtain ⟨new, once⟩ := nodup_cons.mp tidy.once
  refine ⟨once, ?_, tidy.distinct.sublist fewer⟩
  intro other member
  have apart : other ≠ id := fun here => new (here ▸ member)
  exact (same other apart).isPending.mpr (tidy.pending other (mem_cons_of_mem _ member))

variable (id : Nat)

theorem discard_fewer (state : Handler) : (discard id state).pendReq.Sublist state.pendReq := by
  rw [discard]
  split
  · rename_i queue removed
    change queue.Sublist state.pendReq
    rw [(deqPart_eq_some.mp removed).2]
    exact erase_sublist
  · exact List.Sublist.refl _

theorem discard_nodeStat (state : Handler) : (discard id state).nodeStat = state.nodeStat := by
  rw [discard]
  split <;> rfl

theorem getPartition_keeps (world : World) (id : Nat) (state : Handler) :
    (getPartition world id state).2.pendReq.Sublist state.pendReq ∧
      (getPartition world id state).2.nodeStat.isSome = state.nodeStat.isSome := by
  rw [getPartition_cases]
  split
  · exact ⟨List.Sublist.refl _, rfl⟩
  · split
    · exact ⟨List.Sublist.refl _, rfl⟩
    · have queues := registerReq_queues world id (granted id (allocate world id state).2 state)
      refine ⟨?_, queues.2.2.2⟩
      dsimp only
      rw [queues.1]
      exact erase_sublist

theorem handleRequest_keeps (world : World) (id : Nat) (state : Handler) :
    (handleRequest world id state).2.pendReq.Sublist state.pendReq ∧
      (handleRequest world id state).2.nodeStat.isSome = state.nodeStat.isSome := by
  rw [handleRequest]
  have kept := getPartition_keeps world id state
  generalize getPartition world id state = result at kept ⊢
  rcases result with ⟨failed, middle⟩
  rcases failed with _ | errno
  · exact kept
  · dsimp only at kept ⊢
    split
    · exact kept
    · constructor
      · exact (discard_fewer id { middle with answers := _ }).trans kept.1
      · rw [refuse, discard_nodeStat]
        exact kept.2

variable (todo : List Nat)

theorem handleLoop_elsewhere (state : Handler) (absent : other ∉ todo) :
    Elsewhere other state (handleLoop world todo state) := by
  induction todo generalizing state with
  | nil => exact Elsewhere.refl other state
  | cons id rest next =>
    have apart : other ≠ id := fun here => absent (here ▸ mem_cons_self)
    have handled := @handleRequest_elsewhere world state id other apart
    rw [handleLoop]
    split
    · exact Elsewhere.refl other state
    · generalize handleRequest world id state = result at handled ⊢
      rcases result with ⟨last, middle⟩
      dsimp only at handled ⊢
      split
      · exact handled
      · exact handled.trans (next middle (fun member => absent (mem_cons_of_mem _ member)))

/-- A request that was deleted is not touched any more. -/
theorem handleLoop_gone (state : Handler) (gone : other ∈ state.gone) :
    Elsewhere other state (handleLoop world todo state) := by
  induction todo generalizing state with
  | nil => exact Elsewhere.refl other state
  | cons id rest next =>
    rw [handleLoop]
    split
    · exact Elsewhere.refl other state
    · rename_i alive
      have apart : other ≠ id := fun here => alive (here ▸ gone)
      have handled := @handleRequest_elsewhere world state id other apart
      generalize handleRequest world id state = result at handled ⊢
      rcases result with ⟨last, middle⟩
      dsimp only at handled ⊢
      split
      · exact handled
      · exact handled.trans (next middle (handled.gone.mpr gone))

theorem handleLoop_handled (state : Handler) (tidy : Tidy state todo)
    (stat : state.nodeStat.isSome = true) :
    (∀ id ∈ todo, Handled (handleLoop world todo state) id) ↔ LoopSound world todo state := by
  induction todo generalizing state with
  | nil => exact ⟨fun _ => trivial, fun _ _ member => nomatch member⟩
  | cons id rest next =>
    obtain ⟨new, _⟩ := nodup_cons.mp tidy.once
    have pending := tidy.pending id mem_cons_self
    have handled := @handleRequest_handled world state id pending tidy.distinct stat
    have kept := handleRequest_keeps world id state
    have same : ∀ other, other ≠ id → Elsewhere other state (handleRequest world id state).2 :=
      fun other apart => handleRequest_elsewhere apart
    have left := tidy.next same kept.1
    rw [handleLoop, if_neg pending.alive, LoopSound, ← handled]
    generalize handleRequest world id state = result at kept same left ⊢
    rcases result with ⟨last, middle⟩
    dsimp only at kept same left ⊢
    cases last with
    | true =>
      rw [if_pos rfl]
      constructor
      · intro all
        exact ⟨all id mem_cons_self, fun goes => nomatch goes⟩
      · rintro ⟨here, _⟩ other member
        rcases mem_cons.mp member with first | later
        · exact first ▸ here
        · exact .inl (left.pending other later)
    | false =>
      rw [if_neg Bool.false_ne_true, ← next middle left (kept.2.trans stat)]
      have frame := @handleLoop_elsewhere world id rest middle new
      constructor
      · intro all
        exact ⟨frame.isHandled.mp (all id mem_cons_self),
          fun _ other member => all other (mem_cons_of_mem _ member)⟩
      · rintro ⟨here, others⟩ other member
        rcases mem_cons.mp member with first | later
        · exact first ▸ frame.isHandled.mpr here
        · exact others rfl other later

/-! ## Cleaning up -/

theorem unregisterReq_pendReq (state : Handler) :
    (unregisterReq id state).pendReq = state.pendReq := by
  rw [unregisterReq]
  split
  · split <;> rfl
  · rfl

theorem jobFinished_pendReq (state : Handler) : (jobFinished id state).pendReq = state.pendReq := by
  have given : (if !(state.request id).freed then unregisterReq id state
      else state).pendReq = state.pendReq := by
    split
    · exact unregisterReq_pendReq id state
    · rfl
  rw [← given, jobFinished]
  generalize (if !(state.request id).freed then unregisterReq id state
    else state) = given
  split
  · rfl
  · split <;> rfl

theorem cleanupRunning_pendReq (state : Handler) :
    (cleanupRunning todo state).pendReq = state.pendReq := by
  induction todo generalizing state with
  | nil => rfl
  | cons id rest next =>
    rw [cleanupRunning]
    split
    · rw [next, jobFinished_pendReq]
    · exact next state

theorem cleanupRunning_elsewhere (state : Handler) (absent : other ∉ todo) :
    Elsewhere other state (cleanupRunning todo state) := by
  induction todo generalizing state with
  | nil => exact Elsewhere.refl other state
  | cons id rest next =>
    have apart : other ≠ id := fun here => absent (here ▸ mem_cons_self)
    have absent : other ∉ rest :=
      fun member => absent (mem_cons_of_mem _ member)
    rw [cleanupRunning]
    split
    · exact (jobFinished_elsewhere apart).trans (next _ absent)
    · exact next state absent

theorem cleanupPending_elsewhere (state : Handler) (absent : other ∉ todo) :
    Elsewhere other state (cleanupPending todo state) := by
  induction todo generalizing state with
  | nil => exact Elsewhere.refl other state
  | cons id rest next =>
    have apart : other ≠ id := fun here => absent (here ▸ mem_cons_self)
    have absent : other ∉ rest :=
      fun member => absent (mem_cons_of_mem _ member)
    rw [cleanupPending]
    split
    · exact (discard_elsewhere apart).trans (next _ absent)
    · exact next state absent

theorem cleanupPending_fewer (state : Handler) :
    (cleanupPending todo state).pendReq.Sublist state.pendReq := by
  induction todo generalizing state with
  | nil => exact List.Sublist.refl _
  | cons id rest next =>
    rw [cleanupPending]
    split
    · exact (next _).trans (discard_fewer id state)
    · exact next state

/-- A request that is cleaned up is deleted as a whole or not at all. -/
theorem cleanupPending_handled (state : Handler) (tidy : Tidy state todo) :
    (CleanupSound todo state → ∀ id ∈ todo, Handled (cleanupPending todo state) id) ∧
    (¬ CleanupSound todo state → ∃ id ∈ todo,
      id ∈ (cleanupPending todo state).gone ∧ id ∈ (cleanupPending todo state).pendReq) := by
  induction todo generalizing state with
  | nil =>
    exact ⟨fun _ _ member => (nomatch member),
      fun unsound => absurd trivial unsound⟩
  | cons id rest next =>
    obtain ⟨new, _⟩ := nodup_cons.mp tidy.once
    have pending := tidy.pending id mem_cons_self
    rw [CleanupSound, cleanupPending]
    split
    · have left := tidy.next (fun other apart => discard_elsewhere apart) (discard_fewer id state)
      obtain ⟨sound, unsound⟩ := next (discard id state) left
      have frame := @cleanupPending_elsewhere id rest (discard id state) new
      constructor
      · rintro ⟨foremost, others⟩ other member
        rcases mem_cons.mp member with first | later
        · rw [first, frame.isHandled]
          exact (discard_handled pending tidy.distinct).mpr foremost
        · exact sound others other later
      · intro fails
        by_cases foremost : Foremost state id
        · obtain ⟨other, member, stale⟩ :=
            unsound (fun others => fails ⟨foremost, others⟩)
          exact ⟨other, mem_cons_of_mem _ member, stale⟩
        · have behind := deqPart_eq_none.mpr foremost
          refine ⟨id, mem_cons_self, frame.gone.mpr ?_, frame.pending.mpr ?_⟩
          · rw [discard, behind]
            exact mem_cons_self
          · rw [discard, behind]
            exact pending.queued
    · have left := tidy.next (fun other _ => Elsewhere.refl other state) (List.Sublist.refl _)
      obtain ⟨sound, unsound⟩ := next state left
      have frame := @cleanupPending_elsewhere id rest state new
      constructor
      · intro others other member
        rcases mem_cons.mp member with first | later
        · rw [first, frame.isHandled]
          exact .inl pending
        · exact sound others other later
      · intro fails
        obtain ⟨other, member, stale⟩ := unsound fails
        exact ⟨other, mem_cons_of_mem _ member, stale⟩

/-! ## All pending requests -/

theorem cleaned_elsewhere (other : Nat) (state : Handler) :
    Elsewhere other state { state with doCleanup := false } :=
  ⟨rfl, Iff.rfl, Iff.rfl, Iff.rfl, Iff.rfl, Iff.rfl⟩

theorem called_elsewhere (other : Nat) (state : Handler) :
    Elsewhere other state { state with doHandle := false } :=
  ⟨rfl, Iff.rfl, Iff.rfl, Iff.rfl, Iff.rfl, Iff.rfl⟩

theorem Tidy.afterRunning (tidy : Tidy state state.pendReq) :
    Tidy (afterRunning state) state.pendReq := by
  refine ⟨tidy.once, ?_, ?_⟩
  · intro id member
    have pending := tidy.pending id member
    exact (cleanupRunning_elsewhere state.runReq state pending.notRunning).isPending.mpr pending
  · rw [PartHandler.afterRunning, cleanupRunning_pendReq]
    exact tidy.once

theorem cleanupReqQueues_handled (tidy : Tidy state state.pendReq) :
    (CleanupSound (afterRunning state).pendReq (afterRunning state) →
      ∀ id ∈ state.pendReq, Handled (cleanupReqQueues state) id) ∧
    (¬ CleanupSound (afterRunning state).pendReq (afterRunning state) →
      ∃ id ∈ state.pendReq, id ∈ (cleanupReqQueues state).gone ∧
        id ∈ (cleanupReqQueues state).pendReq) ∧
    (cleanupReqQueues state).pendReq.Sublist state.pendReq := by
  have queue : (afterRunning state).pendReq = state.pendReq :=
    cleanupRunning_pendReq state.runReq state
  have handled := cleanupPending_handled state.pendReq _ tidy.afterRunning
  have fewer := cleanupPending_fewer state.pendReq (afterRunning state)
  have cleaned : cleanupReqQueues state =
      { cleanupPending state.pendReq (afterRunning state) with
        doCleanup := false } := by
    rw [← queue]
    rfl
  rw [cleaned, queue]
  exact ⟨fun clean id member =>
      (cleaned_elsewhere id _).isHandled.mpr (handled.1 clean id member),
    handled.2, fewer.trans (queue ▸ List.Sublist.refl _)⟩

/-- What the loop over the pending requests does once the queues are clean. -/
theorem loop_handled (tidy : Tidy state state.pendReq)
    (runs : ¬ (state.nodeStat.isNone ∨ state.pendingTaskReq ≠ 0 ∨ !state.doHandle)) :
    (∀ id ∈ state.pendReq, Handled (handleLoop world state.pendReq
      { state with doHandle := false }) id) ↔
      LoopSound world state.pendReq { state with doHandle := false } := by
  apply handleLoop_handled
  · exact ⟨tidy.once, fun id member =>
      (called_elsewhere id state).isPending.mpr (tidy.pending id member),
      tidy.distinct⟩
  · change state.nodeStat.isSome = true
    rcases stat : state.nodeStat with _ | nodeStat
    · exact absurd (.inl (by rw [stat]; rfl)) runs
    · rfl

/-- Requests are handled as a whole or not at all just if no branch is taken
that goes wrong. -/
theorem handlePartRequests_handled_iff (tidy : Tidy state state.pendReq) :
    (∀ id ∈ state.pendReq, Handled (handlePartRequests world state) id) ↔ Sound world state := by
  rw [handlePartRequests, Sound]
  cases cleans : state.doCleanup with
  | false =>
    simp only [false_eq_true, ↓reduceIte]
    by_cases stops : state.nodeStat.isNone ∨ state.pendingTaskReq ≠ 0 ∨ !state.doHandle
    · rw [if_pos stops]
      exact ⟨fun _ => ⟨fun never => never.elim,
          fun runs => absurd stops runs⟩,
        fun _ id member => .inl (tidy.pending id member)⟩
    · rw [if_neg stops, loop_handled tidy stops]
      exact ⟨fun sound => ⟨fun never => never.elim, fun _ => sound⟩,
        fun both => both.2 stops⟩
  | true =>
    simp only [↓reduceIte]
    obtain ⟨sound, unsound, fewer⟩ := cleanupReqQueues_handled tidy
    generalize cleanupReqQueues state = cleaned at sound unsound fewer ⊢
    by_cases clean : CleanupSound (afterRunning state).pendReq (afterRunning state)
    · have handled := sound clean
      have left : Tidy cleaned cleaned.pendReq := by
        have once := tidy.once.sublist fewer
        refine ⟨once, ?_, once⟩
        intro id member
        rcases handled id (fewer.subset member) with
          pending | running | deleted
        · exact pending
        · exact absurd member running.notPending
        · exact absurd member deleted.notPending
      by_cases stops : cleaned.nodeStat.isNone ∨ cleaned.pendingTaskReq ≠ 0 ∨ !cleaned.doHandle
      · rw [if_pos stops]
        exact ⟨fun _ => ⟨fun _ => clean, fun runs => absurd stops runs⟩,
          fun _ => handled⟩
      · rw [if_neg stops]
        have loop := @loop_handled world cleaned left stops
        constructor
        · intro all
          exact ⟨fun _ => clean, fun _ => loop.mp (fun id member => all id (fewer.subset member))⟩
        · rintro ⟨_, others⟩ id member
          by_cases queued : id ∈ cleaned.pendReq
          · exact loop.mpr (others stops) id queued
          · have frame := (called_elsewhere id cleaned).trans
              (@handleLoop_elsewhere world id cleaned.pendReq
                { cleaned with doHandle := false } queued)
            exact frame.isHandled.mpr (handled id member)
    · obtain ⟨id, member, gone, queued⟩ := unsound clean
      constructor
      · intro all
        have broken := all id member
        split at broken
        · exact absurd broken (not_handled gone (.inl queued))
        · have frame := (called_elsewhere id cleaned).trans
            (@handleLoop_gone world id cleaned.pendReq { cleaned with doHandle := false } gone)
          exact absurd (frame.isHandled.mp broken) (not_handled gone (.inl queued))
      · intro both
        exact absurd (both.1 trivial) clean

/-! One request for a slot on a node with four HW-threads; its partition cannot be
sent. -/

def unsent : Handler where
  request := fun _ =>
    { tid := ⟨1, 100⟩, size := 1, options := ⟨false, false, false, false, false⟩
      num := 1, tpp := 1, nodes := some [0], slots := none
      deleted := false, freed := false }
  pendReq := [1]
  runReq := []
  suspReq := []
  nodeStat := some (fun _ => ⟨0, false, ∅⟩)
  pendingTaskReq := 0
  doHandle := true
  doCleanup := false
  answers := []
  registered := []
  gone := []

def unreachable_ : World where
  nodes := ⟨fun _ => 4, fun _ => none⟩
  exclusive := fun _ => false
  nrOfNodes := 2
  nodesMalloc := fun _ => true
  candidates := fun _ _ => .ok ⟨4, true, [⟨0, ∅⟩]⟩
  memory := fun _ => ⟨true, true, ⟨0, ∅⟩⟩
  sendFragMsg := fun _ => some 113

theorem unsent_tidy : Tidy unsent unsent.pendReq where
  once := by decide
  pending := by
    intro id member
    cases mem_singleton.mp member
    exact ⟨by decide, by decide, by decide, by decide, by decide⟩
  distinct := by decide

theorem unsent_handled_iff :
    (∀ id ∈ unsent.pendReq, Handled (handlePartRequests unreachable_ unsent)
      id) ↔ Sound unreachable_ unsent :=
  handlePartRequests_handled_iff unsent_tidy

/-- The request is deleted while it is running and registered. -/
theorem unsent_half_handled :
    ¬ ∀ id ∈ unsent.pendReq, Handled (handlePartRequests unreachable_ unsent) id := by
  intro all
  have gone : 1 ∈ (handlePartRequests unreachable_ unsent).gone := by
    decide +kernel
  have running : 1 ∈ (handlePartRequests unreachable_ unsent).runReq := by
    decide +kernel
  exact not_handled gone (.inr running) (all 1 (by decide))

end Psmgmt.PartHandler
