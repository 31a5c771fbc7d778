import Psmgmt.Serial.SendBuffer

/-!
# The destinations of a fragment

`setFragDest()` and `setFragDestUniq()` register the task IDs that each fragment
goes to.  `sendFragment()` defers the ones on the own node past its loop, but it
has room for one of them only.
-/

namespace Psmgmt.Serial

open List Option

/-- `PSC_validNode()`. -/
def validNode (nrOfNodes id : Int) : Bool := decide (nrOfNodes ≠ -1 ∧ 0 ≤ id ∧ id < nrOfNodes)

/-- `_setFragDest()`. -/
def trySetFragDest (nrOfNodes : Int) (sender : Sender) (tid : TaskId) : Bool × Sender :=
  if nrOfNodes ≤ sender.db.numDest then
    (false, sender)
  else if validNode nrOfNodes (tid.getID sender.myID) = false then
    (false, sender)
  else
    (true, setFragDest sender tid)

/-- The destinations that have been registered. -/
def Sender.registered (sender : Sender) : List TaskId := sender.destTIDs.take sender.db.numDest

/-- `_setFragDestUniq()`. -/
def setFragDestUniq (nrOfNodes : Int) (sender : Sender) (tid : TaskId) : Bool × Sender :=
  if tid ∈ sender.registered then (false, sender)
  else trySetFragDest nrOfNodes sender tid

/-- A call that registers a destination. -/
inductive Registration where
  | dest (tid : TaskId)
  | uniq (tid : TaskId)
  deriving DecidableEq, Repr

def Registration.call (nrOfNodes : Int) (sender : Sender) : Registration → Bool × Sender
  | .dest tid => trySetFragDest nrOfNodes sender tid
  | .uniq tid => setFragDestUniq nrOfNodes sender tid

/-- The sender after some calls, whether they are accepted or not. -/
def register (nrOfNodes : Int) (sender : Sender) (registrations : List Registration) : Sender :=
  registrations.foldl (fun sender registration => (registration.call nrOfNodes sender).2) sender

variable {sender : Sender}

/-! ## What is served -/

/-- A destination on the own node. -/
def Sender.isLocal (sender : Sender) (tid : TaskId) : Bool :=
  decide (tid.getID sender.myID = sender.myID)

/-- `sendFragment()` calls the send function once for each registered
destination, and for those on the own node after all others. -/
def Served (sender : Sender) : Prop :=
  ∃ calls : List TypedMsg, (sendFragment sender).2.sent = sender.sent ++ calls ∧
      (∀ call ∈ calls, call = { sender.fragMsg with dest := call.dest }) ∧
      (calls.map TypedMsg.dest).Perm sender.registered ∧
      calls.Pairwise (fun earlier later =>
        sender.isLocal earlier.dest = true → sender.isLocal later.dest = true)

/-- The calls of `sendFragment()`. -/
theorem sendFragment_calls (sender : Sender) : (sendFragment sender).2.sent = sender.sent ++
      (fragmentDests sender.myID sender.registered).map
        (fun tid => { sender.fragMsg with dest := tid }) := by
  unfold sendFragment
  split
  · next nothing =>
      simp only [Sender.registered, nothing, take_zero]
      exact (append_nil _).symm
  · rfl

theorem map_dest (msg : TypedMsg) (dests : List TaskId) :
    (dests.map (fun tid => { msg with dest := tid })).map TypedMsg.dest =
      dests := by
  rw [List.map_map]
  exact List.map_id dests

/-- The loop takes the destinations on other nodes and keeps the last one on
the own node. -/
theorem fragmentDests_eq (sender : Sender) (dests : List TaskId) : fragmentDests sender.myID dests =
      dests.filter (fun tid => !sender.isLocal tid) ++
        ((dests.filter sender.isLocal).getLast?.filter (fun tid => tid ≠ ⟨-1, -1⟩)).toList := by
  have remote : (fun tid : TaskId => !sender.isLocal tid) =
      fun tid => decide (tid.getID sender.myID ≠ sender.myID) := by
    funext tid
    simp [Sender.isLocal]
  rw [remote]
  rfl

theorem served_iff_perm (sender : Sender) :
    Served sender ↔ (fragmentDests sender.myID sender.registered).Perm sender.registered := by
  constructor
  · rintro ⟨calls, sent, _, complete, _⟩
    rw [sendFragment_calls] at sent
    rw [← append_cancel_left sent, map_dest] at complete
    exact complete
  · intro complete
    refine ⟨_, sendFragment_calls sender, ?_, ?_, ?_⟩
    · intro call member
      rcases mem_map.1 member with ⟨tid, _, rfl⟩
      rfl
    · rw [map_dest]
      exact complete
    · rw [pairwise_map, fragmentDests_eq, pairwise_append]
      refine ⟨?_, ?_, ?_⟩
      · apply pairwise_of_forall_mem_list
        intro earlier first later _ own
        have remote := (mem_filter.1 first).2
        rw [own] at remote
        exact absurd remote (by decide)
      · generalize (sender.registered.filter sender.isLocal).getLast?.filter
          (fun tid => decide (tid ≠ ⟨-1, -1⟩)) = last
        rcases last with _ | tid
        · exact List.Pairwise.nil
        · exact pairwise_singleton _ _
      · intro earlier _ later last _
        have kept := (mem_filter_iff.1 (mem_toList.1 last)).1
        exact (mem_filter.1 (mem_of_getLast? kept)).2

/-- One destination on the own node is served, more than one are not, and the
task ID -1, which is on the own node, never is. -/
theorem fragmentDests_perm_iff (sender : Sender) (dests : List TaskId) :
    (fragmentDests sender.myID dests).Perm dests ↔
      (dests.filter sender.isLocal).length ≤ 1 ∧ ⟨-1, -1⟩ ∉ dests := by
  have parts : (dests.filter (fun tid => !sender.isLocal tid) ++
      dests.filter sender.isLocal).Perm dests :=
    perm_append_comm.trans (filter_append_perm sender.isLocal dests)
  rw [fragmentDests_eq]
  constructor
  · intro complete
    have served : ((dests.filter sender.isLocal).getLast?.filter
        (fun tid => tid ≠ ⟨-1, -1⟩)).toList.Perm (dests.filter sender.isLocal) :=
      (perm_append_left_iff _).1 (complete.trans parts.symm)
    constructor
    · rw [← served.length_eq]
      exact length_toList_le
    · intro member
      have own : (⟨-1, -1⟩ : TaskId) ∈ dests.filter sender.isLocal := by
        apply mem_filter.2
        exact ⟨member, by simp [Sender.isLocal, TaskId.getID]⟩
      have kept := mem_toList.1 (served.symm.subset own)
      exact of_decide_eq_true (mem_filter_iff.1 kept).2 rfl
  · rintro ⟨single, proper⟩
    refine List.Perm.trans ?_ parts
    apply List.Perm.append_left
    rcases own : dests.filter sender.isLocal with _ | ⟨tid, others⟩
    · exact List.Perm.nil
    · have alone : others = [] := by
        rw [own, length_cons] at single
        exact length_eq_zero_iff.1 (by omega)
      have registered : tid ∈ dests := by
        apply mem_of_mem_filter (p := sender.isLocal)
        rw [own]
        exact mem_cons_self
      have other : tid ≠ ⟨-1, -1⟩ := fun same => proper (same ▸ registered)
      subst alone
      simp [other]

/-- Each registered destination gets the fragment exactly if at most one of them
is on the own node and none is -1. -/
theorem fragment_served_iff (nrOfNodes : Int) (sender : Sender)
    (registrations : List Registration) :
    Served (register nrOfNodes sender registrations) ↔
      ((register nrOfNodes sender registrations).registered.filter
          (register nrOfNodes sender registrations).isLocal).length ≤ 1 ∧
        ⟨-1, -1⟩ ∉ (register nrOfNodes sender registrations).registered := by
  rw [served_iff_perm]
  exact fragmentDests_perm_iff _ _

/-- Two tasks on the own node, both accepted. -/
theorem not_fragment_served :
    ¬ ∀ (nrOfNodes : Int) (sender : Sender) (registrations : List Registration), Served
      (register nrOfNodes sender registrations) := by
  intro every
  have complete := (served_iff_perm _).1
    (every 2 (initFragBufferExtra (initSerial 1 ⟨1, 10⟩) 0 0 []) [.dest ⟨1, 20⟩, .uniq ⟨1, 30⟩])
  exact absurd complete.length_eq (by decide +kernel)

end Psmgmt.Serial
