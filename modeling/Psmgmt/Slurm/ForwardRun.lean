import Psmgmt.Library.Snoc
import Psmgmt.Slurm.Forward

/-!
# The answer to a forwarded message

The first result of each node fills the next free slot and later ones are
recognised, so the counter of results reaches its final value once.  That takes
a counter that starts from zero, which only the first message on a connection
can rely on, and a slot for each node.
-/

namespace Psmgmt.Slurm

open List

/-! ## What the answer has to hold -/

def FwEvent.asResult (nodes : List Int) : FwEvent → Option ForwardRes
  | .own .. => none
  | .result node error type reply => some ⟨error, type, node, reply⟩
  | .down node =>
    if node ∈ nodes then
      some ⟨connectionError, responseForwardFailed, node, []⟩
    else none

def addFirst (firsts : List ForwardRes) (result : ForwardRes) : List ForwardRes :=
  if result.node ∈ firsts.map ForwardRes.node then firsts
  else firsts ++ [result]

/-- The first result of each node, in the order they came in. -/
def firstResults (nodes : List Int) (events : List FwEvent) : List ForwardRes :=
  (events.filterMap (FwEvent.asResult nodes)).foldl addFirst []

/-- The local result. -/
def FwEvent.asOwn : FwEvent → Option (Nat × Nat × List UInt8)
  | .own type uid reply => some (type, uid, reply)
  | _ => none

def ownResults (events : List FwEvent) : List (Nat × Nat × List UInt8) :=
  events.filterMap FwEvent.asOwn

def AllAnswered (nodes : List Int) (events : List FwEvent) : Prop :=
  ∀ node ∈ nodes, node ∈ (firstResults nodes events).map ForwardRes.node

instance (nodes : List Int) (events : List FwEvent) : Decidable (AllAnswered nodes events) := by
  unfold AllAnswered
  infer_instance

/-- The answers to be sent after these events: one as soon as the local result
and one from each node are there. -/
def expectedAnswers (nodes : List Int) (events : List FwEvent) : List FwAnswer :=
  match ownResults events with
  | (type, uid, reply) :: _ =>
    if AllAnswered nodes events then
      [{ type := type, uid := uid,
         results := some (firstResults nodes events), body := reply }]
    else []
  | [] => []

/-- At most one local result, which is not empty, and results of the nodes the
message was forwarded to. -/
structure ValidEvents (nodes : List Int) (events : List FwEvent) : Prop where
  once : (ownResults events).length ≤ 1
  reply : ∀ own ∈ ownResults events, own.2.2 ≠ []
  known : ∀ node error type reply, FwEvent.result node error type reply ∈ events → node ∈ nodes

/-- The events have led to exactly the expected answers, and the number of
results is in bounds. -/
structure AnsweredOnce (nodes : List Int) (events : List FwEvent)
    (before after : FwConnection) : Prop where
  answers : after.answers = before.answers ++ expectedAnswers nodes events
  bounded : after.fw.numRes ≤ nodes.length + 1

def RemoteNodes (myID : Int) (nodes : List Int) : Prop :=
  nodes.Nodup ∧ ∀ node ∈ nodes, 0 ≤ node ∧ node ≠ myID

/-! ## Saving a result -/

theorem saveResult_slots {srcNode : Int} {error type : Nat}
    {reply : List UInt8} (valid : srcNode ≠ -1) {firsts : List ForwardRes}
    (used : ∀ slot ∈ firsts, slot.node ≠ -1) (count : Nat) :
    saveResult srcNode error type reply (firsts ++ List.replicate count .free) =
      if srcNode ∈ firsts.map ForwardRes.node then .again
      else if count = 0 then .full
      else
        .saved ((firsts ++ [⟨error, type, srcNode, reply⟩]) ++
          List.replicate (count - 1) .free) := by
  induction firsts with
  | nil =>
    cases count with
    | zero => rfl
    | succ count =>
      have other : ForwardRes.free.node ≠ srcNode := fun same => valid same.symm
      simp only [nil_append, replicate_succ, saveResult, if_neg other]
      simp [ForwardRes.free]
  | cons slot rest induction =>
    have later := induction (fun slot member => used slot (mem_cons_of_mem _ member))
    simp only [cons_append, saveResult, later, map_cons, mem_cons]
    by_cases same : slot.node = srcNode
    · simp [same]
    · have different : ¬ srcNode = slot.node := fun equal => same equal.symm
      rw [if_neg same, if_neg (used slot (mem_cons_self ..))]
      by_cases known : srcNode ∈ rest.map ForwardRes.node
      · simp [known]
      · by_cases none : count = 0
        · simp [known, none, different]
        · simp [known, none, different]

variable {myID node : Int} {error type slots : Nat} {reply : List UInt8}
  {nodes : List Int} {events : List FwEvent} {before : List FwAnswer}
  {con : FwConnection}

theorem getID_getTID (valid : 0 ≤ node) : (TaskId.getTID myID node 0).getID myID = node := by
  have other : node ≠ -1 := by omega
  simp [TaskId.getTID, TaskId.getID, other]

section Handling

variable {myID : Int} {con : FwConnection} {firsts : List ForwardRes}
  {count : Nat}

/-- A node's result that is there already changes nothing. -/
theorem handle_again (isOpen : con.isOpen = true)
    (slots : con.fw.fwRes = firsts ++ List.replicate count .free)
    (used : ∀ slot ∈ firsts, slot.node ≠ -1) (remote : 0 ≤ node ∧ node ≠ myID)
    (known : node ∈ firsts.map ForwardRes.node) :
    handleFrwrdMsgReply myID ⟨TaskId.getTID myID node 0, type, 0, reply⟩ error con = con := by
  have valid : node ≠ -1 := by omega
  have save := @saveResult_slots node error type reply valid firsts used count
  rw [if_pos known, ← slots] at save
  obtain ⟨fw, opened, answers⟩ := con
  dsimp only at isOpen save
  subst isOpen
  simp only [handleFrwrdMsgReply, Bool.true_eq_false, if_false,
    saveFrwrdMsgReply, getID_getTID remote.1, if_neg remote.2, save,
    Nat.add_sub_cancel]

theorem handle_first (isOpen : con.isOpen = true)
    (slots : con.fw.fwRes = firsts ++ List.replicate count .free)
    (used : ∀ slot ∈ firsts, slot.node ≠ -1) (remote : 0 ≤ node ∧ node ≠ myID)
    (new : node ∉ firsts.map ForwardRes.node) :
    handleFrwrdMsgReply myID ⟨TaskId.getTID myID node 0, type, 0, reply⟩ error
      con =
      answerIfComplete
        (if count = 0 then { con.fw with numRes := con.fw.numRes + 1 }
        else { con.fw with
          numRes := con.fw.numRes + 1
          fwRes := (firsts ++ [⟨error, type, node, reply⟩]) ++ List.replicate (count - 1) .free
          fwResRcvd := con.fw.fwResRcvd + 1 }) con := by
  have valid : node ≠ -1 := by omega
  have save := @saveResult_slots node error type reply valid firsts used count
  rw [if_neg new, ← slots] at save
  by_cases none : count = 0
  · rw [if_pos none] at save
    simp only [handleFrwrdMsgReply, isOpen, Bool.true_eq_false, if_false,
      saveFrwrdMsgReply, getID_getTID remote.1, if_neg remote.2, save,
      if_pos none]
  · rw [if_neg none] at save
    simp only [handleFrwrdMsgReply, isOpen, Bool.true_eq_false, if_false,
      saveFrwrdMsgReply, getID_getTID remote.1, if_neg remote.2, save,
      if_neg none]

/-- The local result is saved and counted. -/
theorem handle_own {uid : Nat} (isOpen : con.isOpen = true) :
    handleFrwrdMsgReply myID ⟨⟨-1, -1⟩, type, uid, reply⟩ slurmSuccess con = answerIfComplete
        { con.fw with
          numRes := con.fw.numRes + 1
          type := type
          uid := uid
          body := con.fw.body ++ reply } con := by
  simp [handleFrwrdMsgReply, isOpen, saveFrwrdMsgReply, TaskId.getID]

end Handling

/-! ## First results -/

theorem addFirst_nodup {firsts : List ForwardRes}
    (nodup : (firsts.map ForwardRes.node).Nodup) (result : ForwardRes) :
    ((addFirst firsts result).map ForwardRes.node).Nodup := by
  unfold addFirst
  split
  · exact nodup
  · rename_i new
    rw [map_append]
    exact Snoc.nodup nodup new

theorem firstResults_snoc (nodes : List Int) (events : List FwEvent)
    (event : FwEvent) :
    firstResults nodes (events ++ [event]) =
      match event.asResult nodes with
      | some result => addFirst (firstResults nodes events) result
      | none => firstResults nodes events := by
  unfold firstResults
  rw [filterMap_append, foldl_append]
  cases found : event.asResult nodes <;> simp [found]

theorem ownResults_snoc (events : List FwEvent) (event : FwEvent) :
    ownResults (events ++ [event]) = ownResults events ++ event.asOwn.toList := by
  unfold ownResults
  rw [filterMap_append]
  cases found : event.asOwn <;> simp [found]

theorem firstResults_nodup (nodes : List Int) (events : List FwEvent) :
    ((firstResults nodes events).map ForwardRes.node).Nodup := by
  unfold firstResults
  have kept : ∀ (results : List ForwardRes) (firsts : List ForwardRes),
      (firsts.map ForwardRes.node).Nodup →
        ((results.foldl addFirst firsts).map ForwardRes.node).Nodup := by
    intro results
    induction results with
    | nil =>
      intro firsts nodup
      exact nodup
    | cons result rest induction =>
      intro firsts nodup
      exact induction _ (addFirst_nodup nodup result)
  exact kept _ [] nodup_nil

theorem firstResults_known (valid : ValidEvents nodes events) :
    ∀ result ∈ firstResults nodes events, result.node ∈ nodes := by
  have source : ∀ result ∈ events.filterMap (FwEvent.asResult nodes), result.node ∈ nodes := by
    intro result member
    rcases mem_filterMap.mp member with ⟨event, eventMember, found⟩
    cases event with
    | own => cases found
    | result node error type reply =>
      cases found
      exact valid.known _ _ _ _ eventMember
    | down node =>
      simp only [FwEvent.asResult] at found
      split at found
      · cases found
        assumption
      · cases found
  unfold firstResults
  have kept : ∀ (results firsts : List ForwardRes),
      (∀ result ∈ results, result.node ∈ nodes) →
      (∀ result ∈ firsts, result.node ∈ nodes) →
        ∀ result ∈ results.foldl addFirst firsts, result.node ∈ nodes := by
    intro results
    induction results with
    | nil =>
      intro firsts _ known
      exact known
    | cons first rest induction =>
      intro firsts new known
      refine induction _ (fun result member => new result (mem_cons_of_mem _ member)) ?_
      intro result member
      unfold addFirst at member
      split at member
      · exact known result member
      · rcases mem_append.mp member with before | last
        · exact known result before
        · rw [mem_singleton.mp last]
          exact new first (mem_cons_self ..)
  exact kept _ [] source (by simp)

theorem firstResults_subperm (valid : ValidEvents nodes events) :
    ((firstResults nodes events).map ForwardRes.node).Subperm nodes := by
  refine (firstResults_nodup nodes events).subperm ?_
  intro node member
  rcases mem_map.mp member with ⟨result, resultMember, rfl⟩
  exact firstResults_known valid result resultMember

theorem firstResults_length_le (valid : ValidEvents nodes events) :
    (firstResults nodes events).length ≤ nodes.length := by
  have less := (firstResults_subperm valid).length_le
  rwa [length_map] at less

theorem allAnswered_iff (nodup : nodes.Nodup) (valid : ValidEvents nodes events) :
    AllAnswered nodes events ↔ (firstResults nodes events).length = nodes.length := by
  have less := firstResults_length_le valid
  constructor
  · intro all
    have more := (nodup.subperm (fun node member => all node member)).length_le
    rw [length_map] at more
    omega
  · intro same node member
    have perm := (firstResults_subperm valid).perm_of_length_le (by
      rw [length_map]
      omega)
    exact perm.mem_iff.mpr member

/-! ## Collecting on a fresh connection -/

/-- The connection after the events, with `slots` slots for results. -/
structure Collected (nodes : List Int) (slots : Nat)
    (before : List FwAnswer) (events : List FwEvent) (con : FwConnection) :
    Prop where
  isOpen : con.isOpen = true
  sameNodes : con.fw.nodes = nodes
  fwRes : con.fw.fwRes = firstResults nodes events ++
    List.replicate (slots - (firstResults nodes events).length) .free
  fwResRcvd : con.fw.fwResRcvd = (firstResults nodes events).length
  numRes : con.fw.numRes = (firstResults nodes events).length + (ownResults events).length
  own : ∀ type uid reply, ownResults events = [(type, uid, reply)] →
    con.fw.type = type ∧ con.fw.uid = uid ∧ con.fw.body = reply
  noOwn : ownResults events = [] → con.fw.body = []
  answers : con.answers = before ++ expectedAnswers nodes events

/-- A result that is the last one missing leads to the answer, any other to
none. -/
theorem collected_answerIfComplete {fw : MsgForward} (nodup : nodes.Nodup)
    (valid : ValidEvents nodes events) (isOpen : con.isOpen = true)
    (sameNodes : fw.nodes = nodes)
    (fwRes : fw.fwRes = firstResults nodes events ++
      List.replicate (slots - (firstResults nodes events).length) .free)
    (fwResRcvd : fw.fwResRcvd = (firstResults nodes events).length)
    (numRes : fw.numRes = (firstResults nodes events).length + (ownResults events).length)
    (own : ∀ type uid reply, ownResults events = [(type, uid, reply)] →
      fw.type = type ∧ fw.uid = uid ∧ fw.body = reply)
    (noOwn : ownResults events = [] → fw.body = [])
    (answers : con.answers = before) :
    Collected nodes slots before events (answerIfComplete fw con) := by
  have all := allAnswered_iff nodup valid
  have bound := firstResults_length_le valid
  have once := valid.once
  unfold answerIfComplete
  by_cases complete : fw.numRes = fw.nodes.length + 1
  · rw [if_pos complete]
    rw [sameNodes, numRes] at complete
    have oneOwn : (ownResults events).length = 1 := by omega
    rcases single : ownResults events with _ | ⟨⟨type, uid, reply⟩, rest⟩
    · rw [single] at oneOwn
      cases oneOwn
    · rw [single, length_cons] at oneOwn
      have noRest : rest = [] := List.length_eq_zero_iff.mp (by omega)
      subst noRest
      obtain ⟨sameType, sameUid, sameBody⟩ := own type uid reply single
      have replyNonempty : reply ≠ [] := valid.reply (type, uid, reply) (by rw [single]; simp)
      have packed : packedResults { fw with forward := 0 } = some (firstResults nodes events) := by
        have inside : fw.fwResRcvd ≤ fw.fwRes.length := by
          rw [fwRes, fwResRcvd, List.length_append]
          omega
        simp only [packedResults, if_pos inside]
        rw [fwRes, fwResRcvd, take_left]
      dsimp only
      rw [if_neg (by rw [sameBody]; exact replyNonempty)]
      refine ⟨isOpen, sameNodes, fwRes, fwResRcvd, numRes, own, noOwn, ?_⟩
      dsimp only
      rw [answers, packed, expectedAnswers, single]
      dsimp only
      rw [if_pos (all.mpr (by rw [single] at complete; simp at complete; exact complete)),
        sameType, sameUid, sameBody]
  · rw [if_neg complete]
    refine ⟨isOpen, sameNodes, fwRes, fwResRcvd, numRes, own, noOwn, ?_⟩
    dsimp only
    rw [answers, expectedAnswers]
    rcases single : ownResults events with _ | ⟨⟨type, uid, reply⟩, rest⟩
    · simp
    · have notAll : ¬ AllAnswered nodes events := by
        intro answered
        rw [single, length_cons] at once numRes
        have same := all.mp answered
        rw [sameNodes] at complete
        omega
      simp [notAll]

theorem Collected.remote (collected : Collected nodes slots before events con)
    (remote : RemoteNodes myID nodes) (room : nodes.length ≤ slots) {event : FwEvent}
    (valid : ValidEvents nodes (events ++ [event])) (validBefore : ValidEvents nodes events)
    (result : event.asResult nodes = some ⟨error, type, node, reply⟩) (notOwn : event.asOwn = none)
    (known : node ∈ nodes) :
    Collected nodes slots before (events ++ [event])
      (handleFrwrdMsgReply myID ⟨TaskId.getTID myID node 0, type, 0, reply⟩ error con) := by
  have isRemote := remote.2 node known
  have used : ∀ slot ∈ firstResults nodes events, slot.node ≠ -1 := by
    intro slot member
    have slotRemote := remote.2 _ (firstResults_known validBefore slot member)
    omega
  have sameOwn : ownResults (events ++ [event]) = ownResults events := by
    rw [ownResults_snoc, notOwn, Option.toList_none, append_nil]
  have firsts := firstResults_snoc nodes events event
  rw [result] at firsts
  dsimp only at firsts
  by_cases again : node ∈ (firstResults nodes events).map ForwardRes.node
  · have sameFirsts : firstResults nodes (events ++ [event]) = firstResults nodes events := by
      rw [firsts, addFirst, if_pos again]
    rw [handle_again collected.isOpen collected.fwRes used isRemote again]
    obtain ⟨isOpen, sameNodes, fwRes, fwResRcvd, numRes, own, noOwn, answers⟩ := collected
    refine ⟨isOpen, sameNodes, ?_, ?_, ?_, ?_, ?_, ?_⟩
    · rwa [sameFirsts]
    · rwa [sameFirsts]
    · rwa [sameFirsts, sameOwn]
    · rwa [sameOwn]
    · rwa [sameOwn]
    · rw [answers, expectedAnswers, expectedAnswers, sameOwn, sameFirsts]
      simp only [AllAnswered, sameFirsts]
  · have moreFirsts : firstResults nodes (events ++ [event]) =
        firstResults nodes events ++ [⟨error, type, node, reply⟩] := by
      rw [firsts, addFirst, if_neg again]
    have less : (firstResults nodes events).length < nodes.length := by
      have bound := firstResults_length_le valid
      rw [moreFirsts, List.length_append] at bound
      exact bound
    have free : slots - (firstResults nodes events).length ≠ 0 := by omega
    have noAnswer : expectedAnswers nodes events = [] := by
      have notAll : ¬ AllAnswered nodes events := by
        rw [allAnswered_iff remote.1 validBefore]
        omega
      unfold expectedAnswers
      split
      · rw [if_neg notAll]
      · rfl
    rw [handle_first collected.isOpen collected.fwRes used isRemote again, if_neg free]
    apply collected_answerIfComplete remote.1 valid collected.isOpen
    · exact collected.sameNodes
    · rw [moreFirsts, List.length_append, length_singleton, Nat.sub_sub]
    · rw [moreFirsts, List.length_append, length_singleton]
      exact congrArg (· + 1) collected.fwResRcvd
    · rw [moreFirsts, sameOwn, List.length_append, length_singleton]
      have count := collected.numRes
      dsimp only
      omega
    · rw [sameOwn]
      exact collected.own
    · rw [sameOwn]
      exact collected.noOwn
    · rw [collected.answers, noAnswer, append_nil]

theorem ValidEvents.of_append {more : List FwEvent}
    (valid : ValidEvents nodes (events ++ more)) :
    ValidEvents nodes events := by
  obtain ⟨once, reply, known⟩ := valid
  rw [ownResults, filterMap_append] at once reply
  refine ⟨?_, ?_, ?_⟩
  · rw [List.length_append] at once
    exact Nat.le_trans (Nat.le_add_right _ _) once
  · intro own member
    exact reply own (mem_append_left _ member)
  · intro node error type reply' member
    exact known node error type reply' (mem_append_left _ member)

theorem Collected.step (collected : Collected nodes slots before events con)
    (remote : RemoteNodes myID nodes) (room : nodes.length ≤ slots)
    (event : FwEvent) (valid : ValidEvents nodes (events ++ [event])) :
    Collected nodes slots before (events ++ [event]) (event.handle myID con) := by
  cases event with
  | own type uid reply =>
    have firsts : firstResults nodes (events ++ [.own type uid reply]) =
        firstResults nodes events := firstResults_snoc nodes events _
    have owns : ownResults (events ++ [.own type uid reply]) =
        ownResults events ++ [(type, uid, reply)] := ownResults_snoc events _
    have once := valid.once
    rw [owns, List.length_append, length_singleton] at once
    have noOwn : ownResults events = [] := List.length_eq_zero_iff.mp (by omega)
    have noAnswer : expectedAnswers nodes events = [] := by
      rw [expectedAnswers, noOwn]
    rw [FwEvent.handle, handle_own collected.isOpen]
    apply collected_answerIfComplete remote.1 valid collected.isOpen
    · exact collected.sameNodes
    · rw [firsts]
      exact collected.fwRes
    · rw [firsts]
      exact collected.fwResRcvd
    · rw [firsts, owns, noOwn]
      have count := collected.numRes
      rw [noOwn] at count
      exact congrArg (· + 1) count
    · intro type' uid' reply' single
      rw [owns, noOwn, nil_append, singleton_inj] at single
      cases single
      refine ⟨rfl, rfl, ?_⟩
      dsimp only
      rw [collected.noOwn noOwn, nil_append]
    · intro none
      rw [owns, noOwn] at none
      cases none
    · rw [collected.answers, noAnswer, append_nil]
  | result node error type reply =>
    have known := valid.known node error type reply (by simp)
    exact collected.remote remote room valid valid.of_append rfl rfl known
  | down node =>
    rw [FwEvent.handle, handleBrokenConnection, collected.sameNodes]
    by_cases known : node ∈ nodes
    · rw [if_pos (by simpa using known)]
      exact collected.remote remote room valid valid.of_append
        (by simp [FwEvent.asResult, known]) rfl known
    · rw [if_neg (by simpa using known)]
      have firsts : firstResults nodes (events ++ [.down node]) = firstResults nodes events := by
        rw [firstResults_snoc]
        simp [FwEvent.asResult, known]
      have owns : ownResults (events ++ [.down node]) = ownResults events := by
        rw [ownResults_snoc]
        simp [FwEvent.asOwn]
      obtain ⟨isOpen, sameNodes, fwRes, fwResRcvd, numRes, own, noOwn, answers⟩ := collected
      refine ⟨isOpen, sameNodes, ?_, ?_, ?_, ?_, ?_, ?_⟩
      · rwa [firsts]
      · rwa [firsts]
      · rwa [firsts, owns]
      · rwa [owns]
      · rwa [owns]
      · rw [answers, expectedAnswers, expectedAnswers, owns, firsts]
        simp only [AllAnswered, firsts]

theorem Collected.run (remote : RemoteNodes myID nodes) (room : nodes.length ≤ slots)
    (more : List FwEvent) (collected : Collected nodes slots before events con)
    (valid : ValidEvents nodes (events ++ more)) :
    Collected nodes slots before (events ++ more) (more.foldl (FwEvent.handle myID) con) := by
  induction more generalizing events con with
  | nil => rwa [append_nil]
  | cons event rest induction =>
    rw [append_cons] at valid ⊢
    exact induction (collected.step remote room event valid.of_append) valid

/-! ## Where the answer goes wrong -/

/-- The local result, and one from each node in order. -/
def plainRun (nodes : List Int) : List FwEvent :=
  .own 0 0 [1] :: nodes.map (fun node => .result node 0 0 [])

/-- A result without a payload. -/
def plainResult (node : Int) : ForwardRes := ⟨0, 0, node, []⟩

theorem firstResults_plain (nodup : nodes.Nodup) (known : List Int) :
    firstResults known (plainRun nodes) = nodes.map plainResult := by
  have kept : ∀ (rest firsts : List Int), (firsts ++ rest).Nodup →
      (rest.map plainResult).foldl addFirst (firsts.map plainResult) =
        (firsts ++ rest).map plainResult := by
    intro rest
    induction rest with
    | nil => simp
    | cons node later induction =>
      intro firsts distinct
      have new : (plainResult node).node ∉ (firsts.map plainResult).map ForwardRes.node := by
        rw [map_map]
        intro member
        rcases mem_map.mp member with ⟨other, otherMember, same⟩
        have apart := (nodup_append.mp distinct).2.2 other otherMember node (mem_cons_self ..)
        exact apart same
      have added : addFirst (firsts.map plainResult) (plainResult node) =
          (firsts ++ [node]).map plainResult := by
        rw [addFirst, if_neg new, map_append]
        rfl
      rw [map_cons, foldl_cons, added]
      rw [append_cons] at distinct
      exact (induction _ distinct).trans (by rw [← append_cons])
  have results : (plainRun nodes).filterMap (FwEvent.asResult known) = nodes.map plainResult := by
    unfold plainRun
    have each : FwEvent.asResult known ∘
        (fun node => FwEvent.result node 0 0 []) = some ∘ plainResult := rfl
    rw [filterMap_cons_none rfl, filterMap_map, each]
    exact congrFun filterMap_eq_map nodes
  rw [firstResults, results]
  exact kept nodes [] nodup

theorem ownResults_plain (nodes : List Int) : ownResults (plainRun nodes) = [(0, 0, [1])] := by
  have none : (nodes.map (fun node => FwEvent.result node 0 0 [])).filterMap
      FwEvent.asOwn = [] := by
    rw [filterMap_eq_nil_iff]
    intro event member
    rcases mem_map.mp member with ⟨node, _, rfl⟩
    rfl
  have first : FwEvent.asOwn (.own 0 0 [1]) = some (0, 0, [1]) := rfl
  rw [ownResults, plainRun, filterMap_cons_some first, none]

theorem validEvents_plain (nodes : List Int) : ValidEvents nodes (plainRun nodes) := by
  refine ⟨?_, ?_, ?_⟩
  · rw [ownResults_plain]
    exact Nat.le_refl _
  · rw [ownResults_plain]
    simp
  · intro node error type reply member
    simp only [plainRun, mem_cons, reduceCtorEq, mem_map, FwEvent.result.injEq, false_or] at member
    obtain ⟨_, known, rfl, _⟩ := member
    exact known

/-- The connection after the local result and those of the nodes in `done`,
whatever it started from. -/
structure PlainState (nodes : List Int) (slots : Nat) (start : FwConnection)
    (done : List Int) (con : FwConnection) : Prop where
  isOpen : con.isOpen = true
  sameNodes : con.fw.nodes = nodes
  body : con.fw.body = start.fw.body ++ [1]
  fwRes : con.fw.fwRes = (done.take slots).map plainResult ++
    List.replicate (slots - done.length) .free
  fwResRcvd : con.fw.fwResRcvd = start.fw.fwResRcvd + min done.length slots
  numRes : con.fw.numRes = start.fw.numRes + 1 + done.length
  answers : start.fw.numRes = 0 → done.length ≤ nodes.length → con.answers = start.answers ++
      if done.length = nodes.length then
        [{ type := con.fw.type, uid := con.fw.uid,
           results := packedResults con.fw, body := con.fw.body }]
      else []

theorem plain_answerIfComplete {start : FwConnection} {done : List Int}
    {fw : MsgForward} (isOpen : con.isOpen = true)
    (sameNodes : fw.nodes = nodes) (body : fw.body = start.fw.body ++ [1])
    (fwRes : fw.fwRes = (done.take slots).map plainResult ++
      List.replicate (slots - done.length) .free)
    (fwResRcvd : fw.fwResRcvd = start.fw.fwResRcvd + min done.length slots)
    (numRes : fw.numRes = start.fw.numRes + 1 + done.length)
    (answers : start.fw.numRes = 0 → done.length ≤ nodes.length → con.answers = start.answers) :
    PlainState nodes slots start done (answerIfComplete fw con) := by
  have nonempty : fw.body ≠ [] := by
    rw [body]
    simp
  unfold answerIfComplete
  by_cases complete : fw.numRes = fw.nodes.length + 1
  · rw [if_pos complete]
    dsimp only
    rw [if_neg nonempty]
    refine ⟨isOpen, sameNodes, body, fwRes, fwResRcvd, numRes, ?_⟩
    intro fresh inside
    have all : done.length = nodes.length := by
      rw [numRes, sameNodes] at complete
      omega
    rw [if_pos all, answers fresh inside]
  · rw [if_neg complete]
    refine ⟨isOpen, sameNodes, body, fwRes, fwResRcvd, numRes, ?_⟩
    intro fresh inside
    have notAll : done.length ≠ nodes.length := by
      rw [numRes, sameNodes] at complete
      omega
    rw [if_neg notAll, append_nil]
    exact answers fresh inside

theorem PlainState.next {myID : Int} {nodes : List Int} {slots : Nat} {start con : FwConnection}
    {done : List Int} (state : PlainState nodes slots start done con) {node : Int}
    (remote : 0 ≤ node ∧ node ≠ myID) (used : ∀ other ∈ done, 0 ≤ other) (new : node ∉ done) :
    PlainState nodes slots start (done ++ [node])
      ((FwEvent.result node 0 0 []).handle myID con) := by
  have names : ((done.take slots).map plainResult).map ForwardRes.node = done.take slots := by
    rw [map_map]
    exact map_id _
  have newSlot : node ∉ ((done.take slots).map plainResult).map ForwardRes.node := by
    rw [names]
    exact fun member => new (mem_of_mem_take member)
  have usedSlot : ∀ slot ∈ (done.take slots).map plainResult, slot.node ≠ -1 := by
    intro slot member
    rcases mem_map.mp member with ⟨other, otherMember, rfl⟩
    have positive := used other (mem_of_mem_take otherMember)
    simp only [plainResult, ne_eq]
    omega
  have answers : start.fw.numRes = 0 →
      (done ++ [node]).length ≤ nodes.length → con.answers = start.answers := by
    intro fresh inside
    rw [List.length_append, length_singleton] at inside
    rw [state.answers fresh (by omega), if_neg (by omega), append_nil]
  rw [FwEvent.handle, handle_first state.isOpen state.fwRes usedSlot remote newSlot]
  by_cases full : slots - done.length = 0
  · have taken : (done ++ [node]).take slots = done.take slots :=
      take_append_of_le_length (by omega)
    rw [if_pos full]
    apply plain_answerIfComplete state.isOpen
    · exact state.sameNodes
    · exact state.body
    · rw [taken, List.length_append, length_singleton]
      have none : slots - (done.length + 1) = slots - done.length := by omega
      rw [none]
      exact state.fwRes
    · have received := state.fwResRcvd
      simp only [List.length_append, length_singleton]
      omega
    · have count := state.numRes
      simp only [List.length_append, length_singleton]
      omega
    · exact answers
  · have all : done.take slots = done := take_of_length_le (by omega)
    have allNext : (done ++ [node]).take slots = done ++ [node] :=
      take_of_length_le (by
        rw [List.length_append, length_singleton]
        omega)
    rw [if_neg full]
    apply plain_answerIfComplete state.isOpen
    · exact state.sameNodes
    · exact state.body
    · rw [allNext, all, map_append, List.length_append, length_singleton, Nat.sub_sub]
      rfl
    · have received := state.fwResRcvd
      simp only [List.length_append, length_singleton]
      omega
    · have count := state.numRes
      simp only [List.length_append, length_singleton]
      omega
    · exact answers

theorem PlainState.rest {start : FwConnection} (more : List Int) {done : List Int}
    (state : PlainState nodes slots start done con) (remote : RemoteNodes myID (done ++ more)) :
    PlainState nodes slots start (done ++ more)
      ((more.map (fun node => FwEvent.result node 0 0 [])).foldl (FwEvent.handle myID) con) := by
  induction more generalizing done con with
  | nil => rwa [append_nil]
  | cons node later induction =>
    have isRemote := remote.2 node (by simp)
    have used : ∀ other ∈ done, 0 ≤ other := by
      intro other member
      exact (remote.2 other (mem_append_left _ member)).1
    have new : node ∉ done := by
      intro member
      exact (nodup_append.mp remote.1).2.2 node member node (mem_cons_self ..) rfl
    rw [append_cons] at remote ⊢
    exact induction (state.next isRemote used new) remote

/-- The connection when the message has just been forwarded. -/
theorem plainRun_state {head : FwHeader} (isOpen : con.isOpen = true)
    (forward : head.forward ≠ 0) (remote : RemoteNodes myID nodes) :
    PlainState nodes head.forward (slurmTreeForward head nodes con) nodes
      ((plainRun nodes).foldl (FwEvent.handle myID) (slurmTreeForward head nodes con)) := by
  let start := slurmTreeForward head nodes con
  have forwarded : start = { con with
      fw := { con.fw with
        nodes := nodes
        forward := head.forward
        fwResRcvd := head.fwResRcvd
        fwRes := List.replicate head.forward .free
        uid := head.uid } } := if_neg forward
  have startOpen : start.isOpen = true := by rw [forwarded]; exact isOpen
  have first : PlainState nodes head.forward start []
      ((FwEvent.own 0 0 [1]).handle myID start) := by
    rw [FwEvent.handle, handle_own startOpen]
    apply plain_answerIfComplete startOpen
    · rw [forwarded]
    · rfl
    · rw [forwarded]
      simp
    · simp
    · rfl
    · intro _ _
      rfl
  have all := first.rest nodes remote
  exact all

/-- On a connection that has not forwarded a message before, the results of the
nodes a message has been forwarded to are answered exactly once.  Elsewhere, or
without a slot for each node, there is an order of events that goes wrong. -/
theorem forwarded_answered_once_iff (myID : Int) (head : FwHeader)
    (nodes : List Int) (con : FwConnection) (isOpen : con.isOpen = true)
    (forward : 0 < head.forward) (remote : RemoteNodes myID nodes) :
    (∀ events, ValidEvents nodes events → AnsweredOnce nodes events con
        (events.foldl (FwEvent.handle myID) (slurmTreeForward head nodes con))) ↔
      con.fw.numRes = 0 ∧ con.fw.body = [] ∧ nodes.length ≤ head.forward ∧ head.fwResRcvd = 0 := by
  have forwarded : slurmTreeForward head nodes con = { con with
      fw := { con.fw with
        nodes := nodes
        forward := head.forward
        fwResRcvd := head.fwResRcvd
        fwRes := List.replicate head.forward .free
        uid := head.uid } } := if_neg (Nat.ne_of_gt forward)
  constructor
  · intro always
    obtain ⟨answers, bounded⟩ := always (plainRun nodes) (validEvents_plain nodes)
    have state := plainRun_state isOpen (Nat.ne_of_gt forward) remote
    have numRes := state.numRes
    have fresh : con.fw.numRes = 0 := by
      have start : (slurmTreeForward head nodes con).fw.numRes = con.fw.numRes := by rw [forwarded]
      omega
    have startFresh : (slurmTreeForward head nodes con).fw.numRes = 0 := by
      rw [forwarded]
      exact fresh
    have startBody : (slurmTreeForward head nodes con).fw.body = con.fw.body := by rw [forwarded]
    have startRcvd : (slurmTreeForward head nodes con).fw.fwResRcvd =
        head.fwResRcvd := by rw [forwarded]
    have startAnswers : (slurmTreeForward head nodes con).answers = con.answers := by rw [forwarded]
    have answered : AllAnswered nodes (plainRun nodes) := by
      rw [allAnswered_iff remote.1 (validEvents_plain nodes),
        firstResults_plain remote.1, length_map]
    have sent := state.answers startFresh (Nat.le_refl _)
    rw [if_pos rfl, startAnswers, answers, expectedAnswers, ownResults_plain]
      at sent
    simp only [if_pos answered, append_cancel_left_eq, List.cons.injEq,
      FwAnswer.mk.injEq, and_true] at sent
    obtain ⟨_, _, results, body⟩ := sent
    have noBody : con.fw.body = [] := by
      rw [state.body, startBody] at body
      have lengths := congrArg List.length body
      rw [List.length_append] at lengths
      exact List.length_eq_zero_iff.mp (by simpa using lengths)
    have slots : ((nodes.take head.forward).map plainResult ++
        List.replicate (head.forward - nodes.length) ForwardRes.free).length = head.forward := by
      simp only [List.length_append, length_map, length_take, length_replicate]
      omega
    rw [firstResults_plain remote.1, packedResults] at results
    split at results
    · rename_i inside
      have lengths := congrArg List.length (Option.some.inj results)
      rw [length_map, length_take] at lengths
      rw [state.fwRes, slots] at inside lengths
      have received := state.fwResRcvd
      rw [startRcvd] at received
      exact ⟨fresh, noBody, by omega, by omega⟩
    · cases results
  · rintro ⟨fresh, noBody, room, noResults⟩ events valid
    have start : Collected nodes head.forward con.answers [] (slurmTreeForward head nodes con) := by
      rw [forwarded]
      refine ⟨isOpen, rfl, rfl, noResults, fresh, ?_, fun _ => noBody, ?_⟩
      · intro type uid reply none
        cases none
      · exact (append_nil _).symm
    have final := start.run remote room events valid
    rw [nil_append] at final
    refine ⟨final.answers, ?_⟩
    have less := firstResults_length_le valid
    have once := valid.once
    rw [final.numRes]
    omega

/-- The forwarding part of a connection as `addConnection()` creates it. -/
def FwConnection.new : FwConnection :=
  { fw := { nodes := [], numRes := 0, body := [], type := 0, uid := 0,
            forward := 0, fwRes := [], fwResRcvd := 0 }
    isOpen := true
    answers := [] }

theorem forwarded_answered_once_two_nodes :
    (∀ events, ValidEvents [1, 2] events → AnsweredOnce [1, 2] events FwConnection.new
        (events.foldl (FwEvent.handle 0) (slurmTreeForward ⟨2, 0, 0⟩ [1, 2] FwConnection.new))) ↔
      FwConnection.new.fw.numRes = 0 ∧ FwConnection.new.fw.body = [] ∧ [1, 2].length ≤ 2 ∧ 0 = 0 :=
  forwarded_answered_once_iff 0 ⟨2, 0, 0⟩ [1, 2] FwConnection.new rfl (by decide)
    ⟨by decide, by decide⟩

/-- The connection after a first message was forwarded and answered. -/
def answeredConnection : FwConnection :=
  (plainRun [1]).foldl (FwEvent.handle 0) (slurmTreeForward ⟨1, 0, 0⟩ [1] FwConnection.new)

/-- The second message forwarded on a connection is never answered. -/
theorem second_forward_unanswered : ValidEvents [1] (plainRun [1]) ∧
      ¬ AnsweredOnce [1] (plainRun [1]) answeredConnection
        ((plainRun [1]).foldl (FwEvent.handle 0)
          (slurmTreeForward ⟨1, 0, 0⟩ [1] answeredConnection)) := by
  refine ⟨validEvents_plain [1], ?_⟩
  intro answered
  exact absurd answered.answers (by decide)

end Psmgmt.Slurm
