import Psmgmt.Options.AccessList
import Psmgmt.Library.Snoc

/-!
# Replicated access lists

A daemon sends its lists to another one as options to be added.  The first
option is meant to set the list, but it is overwritten in the loop: what the
receiver holds already stays there.
-/

namespace Psmgmt.Options

open List Daemon GuidList

namespace OptionMsg

variable {msg : OptionMsg}

/-- Complete the entry at `count` and count it. -/
theorem entries_put (option : OptionType) (value : BitVec 32)
    (msg : OptionMsg) :
    { (msg.putOption option).putValue value with
      count := msg.count + 1 : OptionMsg }.entries =
        msg.entries ++ [{ option := option, value := value }] := by
  have earlier : ∀ index ∈ List.range msg.count,
      ((msg.putOption option).putValue value).opt index = msg.opt index := by
    intro index member
    have different : index ≠ msg.count := Nat.ne_of_lt (mem_range.mp member)
    simp [putValue, putOption, different]
  simp only [entries, range_succ, map_append, map_cons, map_nil]
  rw [map_congr_left earlier]
  simp [putValue, putOption]

end OptionMsg

/-- The messages carry `entries` and have the given sender and receiver. -/
structure Carries (sender dest : TaskId) (entries : List OptionEntry)
    (msgs : List OptionMsg) : Prop where
  entries : msgs.flatMap OptionMsg.entries = entries
  sender : ∀ msg ∈ msgs, msg.sender = sender
  dest : ∀ msg ∈ msgs, msg.dest = dest

theorem Carries.snoc {sender dest : TaskId} {entries : List OptionEntry} {msgs : List OptionMsg}
    (carries : Carries sender dest entries msgs) (msg : OptionMsg)
    (from_sender : msg.sender = sender) (to_dest : msg.dest = dest) :
    Carries sender dest (entries ++ msg.entries) (msgs ++ [msg]) := by
  constructor
  · rw [flatMap_append, carries.entries]
    simp
  · exact Snoc.forall_mem carries.sender from_sender
  · exact Snoc.forall_mem carries.dest to_dest

variable {sender : TaskId} {owner before after : Daemon} {what : GuType}

theorem sendLoop_carries {dest : TaskId} (option : OptionType)
    (guids : List Guid) :
    ∀ (msg : OptionMsg) (sent : List OptionMsg) (entries : List OptionEntry),
      msg.sender = sender → msg.dest = dest → Carries sender dest entries sent → ∃ earlier,
            Carries sender dest earlier (Daemon.sendLoop option guids msg sent).2 ∧
            earlier ++ (Daemon.sendLoop option guids msg sent).1.entries = entries ++ msg.entries ++
                guids.map (fun guid => { option := option, value := guid : OptionEntry }) ∧
            (Daemon.sendLoop option guids msg sent).1.sender = sender ∧
            (Daemon.sendLoop option guids msg sent).1.dest = dest := by
  induction guids with
  | nil =>
    intro msg sent entries from_sender to_dest carries
    exact ⟨entries, carries, by simp [Daemon.sendLoop], from_sender, to_dest⟩
  | cons guid rest induction =>
    intro msg sent entries from_sender to_dest carries
    have put := msg.entries_put option guid
    rw [Daemon.sendLoop]
    simp only
    split
    · have filled := carries.snoc { (msg.putOption option).putValue guid with
        count := msg.count + 1 } from_sender to_dest
      rcases induction { (msg.putOption option).putValue guid with
          count := 0 } _ _ from_sender to_dest filled with
        ⟨earlier, carried, total, final⟩
      refine ⟨earlier, carried, ?_, final⟩
      rw [put] at total
      rw [map_cons]
      refine total.trans ?_
      simp [OptionMsg.entries]
    · rcases induction { (msg.putOption option).putValue guid with
          count := msg.count + 1 } _ _ from_sender to_dest carries with
        ⟨earlier, carried, total, final⟩
      refine ⟨earlier, carried, ?_, final⟩
      rw [put] at total
      rw [map_cons]
      refine total.trans ?_
      simp

theorem sendGuidOptions_carries (dest : TaskId) (what : GuType)
    (valid : owner.validID owner.myID = true) (daemon : dest.getPID = 0) :
    Carries owner.myTID dest
      ((owner.guids owner.myID what).ids.map (fun guid =>
        { option := .add what, value := guid : OptionEntry }) ++
          [{ option := .listEnd, value := 0 }])
      (owner.sendGuidOptions dest what) := by
  have list : owner.getGuidList owner.myID what = some (owner.guids owner.myID what) := if_pos valid
  have start : Carries owner.myTID dest [] [] :=
    ⟨rfl, fun _ member => absurd member not_mem_nil,
      fun _ member => absurd member not_mem_nil⟩
  rw [Daemon.sendGuidOptions, list]
  simp only [daemon, ne_eq, not_true_eq_false, if_false]
  rcases sendLoop_carries (.add what) (owner.guids owner.myID what).ids
    (OptionMsg.putOption (.set what)
      { sender := owner.myTID, dest := dest, count := 0
        opt := fun _ => { option := .unknown, value := 0 } }) [] [] rfl rfl
    start with ⟨earlier, carried, total, from_sender, to_dest⟩
  generalize Daemon.sendLoop (.add what) (owner.guids owner.myID what).ids
    (OptionMsg.putOption (.set what)
      { sender := owner.myTID, dest := dest, count := 0
        opt := fun _ => { option := .unknown, value := 0 } }) [] = final
    at carried total from_sender to_dest
  have ended := carried.snoc { (final.1.putOption .listEnd).putValue 0 with
    count := final.1.count + 1 } from_sender to_dest
  rw [OptionMsg.entries_put, ← append_assoc, total] at ended
  exact ended

/-- What an option does to the list of the node it concerns. -/
def effect (what : GuType) (entry : OptionEntry) (list : GuidList what) : GuidList what :=
  match entry.option with
  | .set other => if other = what then (list.clear.add entry.value).2 else list
  | .add other => if other = what then (list.add entry.value).2 else list
  | .rem other => if other = what then (list.rem entry.value).2 else list
  | _ => list

def SameIds {what : GuType} (first second : GuidList what) : Prop :=
  ∀ guid, guid ∈ first.ids ↔ guid ∈ second.ids

theorem SameIds.effect {first second : GuidList what}
    (same : SameIds first second) (entry : OptionEntry) :
    SameIds (effect what entry first) (effect what entry second) := by
  intro guid
  rw [Options.effect, Options.effect]
  split
  · split
    · rw [mem_add, mem_add]
      rfl
    · exact same guid
  · split
    · simp only [mem_add, same guid, same (anyGuid what)]
    · exact same guid
  · split
    · rw [mem_rem, mem_rem, same guid]
    · exact same guid
  · exact same guid

theorem SameIds.test {first second : GuidList what}
    (same : SameIds first second) (guid : Guid) :
    first.test guid = second.test guid := by
  rw [Bool.eq_iff_iff, test_eq_true, test_eq_true, same guid, same (anyGuid what)]

namespace Daemon

/-- Two states of one daemon. -/
structure Continues (before after : Daemon) : Prop where
  myID : after.myID = before.myID
  nrOfNodes : after.nrOfNodes = before.nrOfNodes
  managedTasks : after.managedTasks = before.managedTasks

theorem Continues.refl (daemon : Daemon) : Continues daemon daemon := ⟨rfl, rfl, rfl⟩

theorem Continues.trans {middle : Daemon} (first : Continues before middle)
    (second : Continues middle after) : Continues before after :=
  ⟨second.myID.trans first.myID, second.nrOfNodes.trans first.nrOfNodes,
    second.managedTasks.trans first.managedTasks⟩

variable (id : Int)

theorem continues_putGuidList (what : GuType) (list : GuidList what)
    (daemon : Daemon) :
    Continues daemon (daemon.putGuidList id what list) :=
  ⟨rfl, rfl, rfl⟩

theorem putGuidList_self (what : GuType) (list : GuidList what)
    (daemon : Daemon) :
    (daemon.putGuidList id what list).guids id what = list := by
  simp [putGuidList]

theorem putGuidList_other {id : Int} {other : GuType} (different : other ≠ what)
    (list : GuidList other) (daemon : Daemon) :
    (daemon.putGuidList id other list).guids id what = daemon.guids id what := by
  simp [putGuidList, different.symm]

theorem getGuidList_put (what : GuType) (list : GuidList what) {daemon : Daemon}
    (valid : daemon.validID id = true) :
    (daemon.putGuidList id what list).getGuidList id what = some list := by
  rw [getGuidList]
  refine (if_pos valid).trans ?_
  rw [putGuidList_self]

theorem addGuid_continues (what : GuType) (guid : Guid) (daemon : Daemon) :
    Continues daemon (daemon.addGuid id what guid).2 := by
  rw [addGuid]
  split
  · exact Continues.refl daemon
  · exact continues_putGuidList id what _ daemon

theorem setOption_continues (sender : TaskId) (entry : OptionEntry)
    (daemon : Daemon) :
    Continues daemon (daemon.setOption sender entry).1 := by
  rw [setOption]
  split
  · rw [setGuid]
    split
    · exact Continues.refl daemon
    · exact (continues_putGuidList _ _ _ daemon).trans (addGuid_continues _ _ _ _)
  · exact addGuid_continues _ _ _ daemon
  · rw [remGuid]
    split
    · exact Continues.refl daemon
    · exact continues_putGuidList _ _ _ daemon
  · exact Continues.refl daemon

/-- An option changes the list of the node its sender stands for. -/
theorem setOption_guids {daemon : Daemon} (valid : daemon.validID (daemon.subject sender) = true)
    (entry : OptionEntry) (what : GuType) :
    (daemon.setOption sender entry).1.guids (daemon.subject sender) what =
      effect what entry (daemon.guids (daemon.subject sender) what) := by
  have found : ∀ other, daemon.getGuidList (daemon.subject sender) other =
      some (daemon.guids (daemon.subject sender) other) :=
    fun other => if_pos valid
  rw [setOption, effect]
  cases option : entry.option with
  | set other =>
    simp only [setGuid, found, addGuid, getGuidList_put _ _ _ valid]
    split
    · next same =>
        subst same
        rw [putGuidList_self]
    · next different => rw [putGuidList_other different, putGuidList_other different]
  | add other =>
    simp only [addGuid, found]
    split
    · next same =>
        subst same
        rw [putGuidList_self]
    · next different => rw [putGuidList_other different]
  | rem other =>
    simp only [remGuid, found]
    split
    · next same =>
        subst same
        rw [putGuidList_self]
    · next different => rw [putGuidList_other different]
  | unknown => rfl
  | listEnd => rfl
  | plain other => rfl
  | other number => rfl

theorem Continues.validID (continued : Continues before after) (id : Int) :
    after.validID id = before.validID id := by
  rw [Daemon.validID, Daemon.validID, continued.nrOfNodes]

theorem Continues.subject (continued : Continues before after) (sender : TaskId) :
    after.subject sender = before.subject sender := by
  rw [Daemon.subject, Daemon.subject, continued.myID]

theorem setOptions_continues (sender : TaskId) (entries : List OptionEntry) :
    ∀ daemon : Daemon, Continues daemon (setOptions sender entries daemon).1 := by
  induction entries with
  | nil =>
    intro daemon
    exact Continues.refl daemon
  | cons entry rest induction =>
    intro daemon
    exact (setOption_continues sender entry daemon).trans (induction _)

theorem setOptions_guids {sender : TaskId} (what : GuType)
    (entries : List OptionEntry) :
    ∀ {daemon : Daemon}, daemon.validID (daemon.subject sender) = true →
      (setOptions sender entries daemon).1.guids (daemon.subject sender) what =
        entries.foldl (fun list entry => effect what entry list)
          (daemon.guids (daemon.subject sender) what) := by
  induction entries with
  | nil =>
    intro daemon _
    rfl
  | cons entry rest induction =>
    intro daemon valid
    have first := setOption_guids valid entry what
    have continued := setOption_continues sender entry daemon
    have later := @induction (daemon.setOption sender entry).1
      (by rw [continued.validID, continued.subject]; exact valid)
    rw [continued.subject, first] at later
    exact later

/-- What a daemon is told by another one about the other one's lists. -/
theorem receive_guids (what : GuType) (msgs : List OptionMsg) :
    ∀ {daemon : Daemon} {entries : List OptionEntry},
      Carries sender daemon.myTID entries msgs → sender.getPID = 0 →
      daemon.validID (sender.getID daemon.myID) = true →
      sender.getID daemon.myID ≠ daemon.myID →
        Continues daemon (daemon.receive msgs) ∧
        (daemon.receive msgs).guids (sender.getID daemon.myID) what =
          entries.foldl (fun list entry => effect what entry list)
            (daemon.guids (sender.getID daemon.myID) what) := by
  induction msgs with
  | nil =>
    intro daemon entries carries _ _ _
    refine ⟨Continues.refl daemon, ?_⟩
    rw [← carries.entries]
    rfl
  | cons msg rest induction =>
    intro daemon entries carries peer valid foreign
    have subject : daemon.subject sender = sender.getID daemon.myID := by
      rw [Daemon.subject, if_neg (not_not.mpr peer)]
    have sender_eq := carries.sender msg mem_cons_self
    have dest_eq := carries.dest msg mem_cons_self
    have handled : (daemon.msgSetOption msg).1 = (setOptions sender msg.entries daemon).1 := by
      rw [msgSetOption, sender_eq, dest_eq, checkPrivilege, if_pos foreign]
      simp
    have continued := setOptions_continues sender msg.entries daemon
    have first := @setOptions_guids sender what msg.entries daemon (by rw [subject]; exact valid)
    have remaining : Carries sender (setOptions sender msg.entries daemon).1.myTID
        (rest.flatMap OptionMsg.entries) rest := by
      rw [myTID, continued.myID]
      exact ⟨rfl,
        fun other member => carries.sender other (mem_cons_of_mem _ member),
        fun other member => carries.dest other (mem_cons_of_mem _ member)⟩
    have later := induction remaining peer (by rw [continued.validID, continued.myID]; exact valid)
      (by rw [continued.myID]; exact foreign)
    rw [continued.myID, ← subject, first] at later
    rw [← subject, ← carries.entries, flatMap_cons, foldl_append, receive, foldl_cons, handled]
    exact ⟨continued.trans later.1, later.2⟩

end Daemon

theorem mem_added (what : GuType) (guids : List Guid) :
    ∀ (list : GuidList what), anyGuid what ∉ guids → ∀ guid,
      (guid ∈ ((guids.map (fun value =>
          { option := .add what, value := value : OptionEntry })).foldl
            (fun list entry => effect what entry list) list).ids ↔
        if anyGuid what ∈ list.ids then guid ∈ list.ids
        else guid ∈ guids ∨ guid ∈ list.ids) := by
  induction guids with
  | nil =>
    intro list _ guid
    simp
  | cons value rest induction =>
    intro list restricted guid
    have particular : value ≠ anyGuid what :=
      fun same => restricted (same ▸ mem_cons_self)
    have added : effect what { option := .add what, value := value } list =
        (list.add value).2 := if_pos rfl
    rw [map_cons, foldl_cons, added,
      induction _ (fun member => restricted (mem_cons_of_mem _ member))]
    simp only [mem_add, if_neg particular]
    by_cases any : anyGuid what ∈ list.ids
    · simp only [if_pos any]
    · simp only [if_neg any, particular.symm, false_or, mem_cons]
      rw [or_assoc, or_left_comm]

/-- The lists of the owner's node agree on two daemons. -/
structure Alike (what : GuType) (owner receiver : Daemon) : Prop where
  ids : SameIds (receiver.guids owner.myID what) (owner.guids owner.myID what)
  tests : ∀ guid, receiver.testGuid owner.myID what guid = owner.testGuid owner.myID what guid

/-- Different daemons that know of the owner's node. -/
structure Peers (owner receiver : Daemon) : Prop where
  different : owner.myID ≠ receiver.myID
  owned : owner.validID owner.myID = true
  known : receiver.validID owner.myID = true

def request (msg : OptionMsg) (pair : Daemon × Daemon) : Daemon × Daemon :=
  let (owner, broadcasts) := pair.1.msgSetOption msg
  (owner, pair.2.receive (broadcasts.map (fun info => { info with dest := pair.2.myTID })))

/-- Sending the list of a kind makes the receiver's copy agree, and it does so
after any requests to the owner. -/
def Replicates (what : GuType) (owner receiver : Daemon) : Prop :=
  ∀ requests : List OptionMsg, (∀ msg ∈ requests, msg.sender.getPID ≠ 0) →
    let pair := requests.foldl (fun pair msg => request msg pair)
      (owner, receiver.receive (owner.sendGuidOptions receiver.myTID what))
    Alike what pair.1 pair.2

/-- The options that concern access lists, which the owner broadcasts. -/
def OptionEntry.concerned (entry : OptionEntry) : Bool :=
  match entry.option with
  | .set _ => true
  | .add _ => true
  | .rem _ => true
  | _ => false

theorem effect_unconcerned {entry : OptionEntry}
    (unconcerned : entry.concerned = false) (list : GuidList what) :
    effect what entry list = list := by
  rw [OptionEntry.concerned] at unconcerned
  rw [effect]
  split
  · next option => simp [option] at unconcerned
  · next option => simp [option] at unconcerned
  · next option => simp [option] at unconcerned
  · rfl

theorem foldl_effect_concerned (what : GuType) (entries : List OptionEntry) :
    ∀ list : GuidList what,
      (entries.filter OptionEntry.concerned).foldl (fun list entry => effect what entry list) list =
        entries.foldl (fun list entry => effect what entry list) list := by
  induction entries with
  | nil =>
    intro list
    rfl
  | cons entry rest induction =>
    intro list
    by_cases concerned : entry.concerned = true
    · rw [filter_cons_of_pos concerned]
      exact induction _
    · rw [filter_cons_of_neg concerned, foldl_cons, effect_unconcerned (by simpa using concerned)]
      exact induction list

theorem SameIds.foldl (entries : List OptionEntry) :
    ∀ {first second : GuidList what}, SameIds first second →
      SameIds (entries.foldl (fun list entry => Options.effect what entry list) first)
        (entries.foldl (fun list entry => Options.effect what entry list) second) := by
  induction entries with
  | nil =>
    intro first second same
    exact same
  | cons entry rest induction =>
    intro first second same
    exact induction (same.effect entry)

namespace Daemon

theorem setOption_broadcast (client : sender.getPID ≠ 0) (entry : OptionEntry)
    (daemon : Daemon) :
    (daemon.setOption sender entry).2 =
      if entry.concerned then [daemon.info entry] else [] := by
  rw [setOption, OptionEntry.concerned]
  simp only [if_pos client]
  cases entry.option with
  | set other => rfl
  | add other => rfl
  | rem other => rfl
  | unknown => rfl
  | listEnd => rfl
  | plain other => rfl
  | other number => rfl

theorem Continues.info (continued : Continues before after) : after.info = before.info := by
  funext entry
  rw [Daemon.info, Daemon.info, myTID, myTID, continued.myID]

theorem setOptions_broadcast (client : sender.getPID ≠ 0)
    (entries : List OptionEntry) :
    ∀ daemon : Daemon, (setOptions sender entries daemon).2 =
      (entries.filter OptionEntry.concerned).map daemon.info := by
  induction entries with
  | nil =>
    intro daemon
    rfl
  | cons entry rest induction =>
    intro daemon
    have first := setOption_broadcast client entry daemon
    have later := induction (daemon.setOption sender entry).1
    rw [(setOption_continues sender entry daemon).info] at later
    rw [setOptions]
    simp only [first, later]
    by_cases concerned : entry.concerned = true
    · rw [filter_cons_of_pos concerned, if_pos concerned]
      rfl
    · rw [filter_cons_of_neg concerned, if_neg concerned]
      rfl

end Daemon

theorem carries_broadcasts (owner : Daemon) (dest : TaskId)
    (entries : List OptionEntry) :
    Carries owner.myTID dest entries
      ((entries.map owner.info).map (fun info => { info with dest := dest })) := by
  rw [map_map]
  constructor
  · rw [flatMap_map]
    simp [Daemon.info, OptionMsg.entries]
  · intro msg member
    rcases mem_map.mp member with ⟨entry, _, rfl⟩
    rfl
  · intro msg member
    rcases mem_map.mp member with ⟨entry, _, rfl⟩
    rfl

namespace Peers

variable {owner receiver : Daemon}

section

variable (peers : Peers owner receiver)

include peers

theorem getID : owner.myTID.getID receiver.myID = owner.myID := by
  have bound := peers.owned
  simp only [Daemon.validID, Bool.and_eq_true, decide_eq_true_eq] at bound
  rw [TaskId.getID]
  apply if_neg
  intro local_node
  simp only [Daemon.myTID] at local_node
  omega

theorem continued {owner' receiver' : Daemon} (first : Daemon.Continues owner owner')
    (second : Daemon.Continues receiver receiver') :
    Peers owner' receiver' := by
  constructor
  · rw [first.myID, second.myID]
    exact peers.different
  · rw [first.validID, first.myID]
    exact peers.owned
  · rw [second.validID, first.myID]
    exact peers.known

/-- What the receiver's copy is after messages of the owner. -/
theorem received (what : GuType) {msgs : List OptionMsg} {entries : List OptionEntry}
    (carries : Carries owner.myTID receiver.myTID entries msgs) :
    Daemon.Continues receiver (receiver.receive msgs) ∧
      (receiver.receive msgs).guids owner.myID what =
        entries.foldl (fun list entry => effect what entry list)
          (receiver.guids owner.myID what) := by
  have result := receive_guids what msgs carries rfl (by rw [peers.getID]; exact peers.known)
    (by rw [peers.getID]; exact peers.different)
  rw [peers.getID] at result
  exact result

theorem alike (same : SameIds (receiver.guids owner.myID what)
      (owner.guids owner.myID what)) : Alike what owner receiver := by
  refine ⟨same, ?_⟩
  intro guid
  have copy : receiver.getGuidList owner.myID what =
      some (receiver.guids owner.myID what) := if_pos peers.known
  have own : owner.getGuidList owner.myID what =
      some (owner.guids owner.myID what) := if_pos peers.owned
  rw [Daemon.testGuid, Daemon.testGuid, copy, own]
  exact same.test guid

/-- A request keeps the two lists equal. -/
theorem request {what : GuType} (same : SameIds (receiver.guids owner.myID what)
      (owner.guids owner.myID what)) {msg : OptionMsg}
    (client : msg.sender.getPID ≠ 0) :
    Peers (request msg (owner, receiver)).1 (request msg (owner, receiver)).2 ∧
      SameIds ((request msg (owner, receiver)).2.guids (request msg (owner, receiver)).1.myID what)
        ((request msg (owner, receiver)).1.guids (request msg (owner, receiver)).1.myID what) := by
  have unchanged : owner.msgSetOption msg = (owner, []) →
      Peers (Options.request msg (owner, receiver)).1 (Options.request msg (owner, receiver)).2 ∧
        SameIds
          ((Options.request msg (owner, receiver)).2.guids
            (Options.request msg (owner, receiver)).1.myID what)
          ((Options.request msg (owner, receiver)).1.guids
            (Options.request msg (owner, receiver)).1.myID what) := by
    intro ignored
    have kept : Options.request msg (owner, receiver) = (owner, receiver) := by
      simp only [Options.request, ignored, map_nil]
      rfl
    rw [kept]
    exact ⟨peers, same⟩
  by_cases privileged : owner.checkPrivilege msg.sender = false
  · exact unchanged (if_pos privileged)
  · by_cases addressed : msg.dest = owner.myTID
    · have handled : owner.msgSetOption msg = Daemon.setOptions msg.sender msg.entries owner := by
        rw [Daemon.msgSetOption, if_neg privileged, if_pos addressed]
      have subject : owner.subject msg.sender = owner.myID := if_pos client
      have changed := setOptions_continues msg.sender msg.entries owner
      have own := @setOptions_guids msg.sender what msg.entries owner
        (by rw [subject]; exact peers.owned)
      rcases peers.received what (carries_broadcasts owner receiver.myTID
        (msg.entries.filter OptionEntry.concerned)) with ⟨continued, copy⟩
      rw [foldl_effect_concerned] at copy
      rw [subject] at own
      have after : Options.request msg (owner, receiver) =
          ((Daemon.setOptions msg.sender msg.entries owner).1,
            receiver.receive (((msg.entries.filter OptionEntry.concerned).map owner.info).map
                (fun info => { info with dest := receiver.myTID }))) := by
        simp only [Options.request, handled, setOptions_broadcast client]
      rw [after]
      refine ⟨peers.continued changed continued, ?_⟩
      rw [changed.myID, own, copy]
      exact same.foldl msg.entries
    · apply unchanged
      rw [Daemon.msgSetOption, if_neg privileged, if_neg addressed]

end

theorem requests (requests : List OptionMsg) : ∀ pair : Daemon × Daemon, Peers pair.1 pair.2 →
      SameIds (pair.2.guids pair.1.myID what) (pair.1.guids pair.1.myID what) →
      (∀ msg ∈ requests, msg.sender.getPID ≠ 0) →
        Alike what (requests.foldl (fun pair msg => Options.request msg pair) pair).1
          (requests.foldl (fun pair msg => Options.request msg pair) pair).2 := by
  induction requests with
  | nil =>
    intro pair peers same _
    exact peers.alike same
  | cons msg rest induction =>
    intro pair peers same clients
    rcases peers.request same (clients msg mem_cons_self) with
      ⟨peers', same'⟩
    exact induction _ peers' same' (fun other member => clients other (mem_cons_of_mem _ member))

theorem sent (peers : Peers owner receiver) (what : GuType) :
    Daemon.Continues receiver (receiver.receive (owner.sendGuidOptions receiver.myTID what)) ∧
      (receiver.receive (owner.sendGuidOptions receiver.myTID what)).guids owner.myID what =
        ((owner.guids owner.myID what).ids.map (fun guid =>
          { option := .add what, value := guid : OptionEntry })).foldl (fun list entry => effect
            what entry list) (receiver.guids owner.myID what) := by
  rcases peers.received what
    (sendGuidOptions_carries receiver.myTID what peers.owned rfl) with
    ⟨continued, copy⟩
  rw [foldl_append] at copy
  exact ⟨continued, copy⟩

end Peers

variable {receiver : Daemon}

theorem Peers.mem_sent (peers : Peers owner receiver)
    (restricted : anyGuid what ∉ (owner.guids owner.myID what).ids) (guid : Guid) :
    guid ∈ ((receiver.receive (owner.sendGuidOptions receiver.myTID
        what)).guids owner.myID what).ids ↔
      if anyGuid what ∈ (receiver.guids owner.myID what).ids then
        guid ∈ (receiver.guids owner.myID what).ids
      else guid ∈ (owner.guids owner.myID what).ids ∨
        guid ∈ (receiver.guids owner.myID what).ids := by
  rw [(peers.sent what).2]
  exact mem_added what _ _ restricted guid

/-- What the receiver holds stays there. -/
theorem Replicates.held (replicates : Replicates what owner receiver)
    (peers : Peers owner receiver) :
    anyGuid what ∈ (owner.guids owner.myID what).ids ∨
      ∀ guid ∈ (receiver.guids owner.myID what).ids, guid ∈ (owner.guids owner.myID what).ids := by
  have alike := replicates [] (fun _ member => absurd member not_mem_nil)
  by_cases any : anyGuid what ∈ (owner.guids owner.myID what).ids
  · exact .inl any
  · refine .inr ?_
    intro guid member
    apply (alike.ids guid).mp
    rw [foldl_nil]
    apply (peers.mem_sent any guid).mpr
    split
    · exact member
    · exact .inr member

/-- Access lists are replicated exactly if the owner's list is ANY or the
receiver holds no ID that the owner does not. -/
theorem replicates_iff {owner : Daemon} (what : GuType)
    (peers : Peers owner receiver) :
    Replicates what owner receiver ↔ anyGuid what ∈ (owner.guids owner.myID what).ids ∨
        ∀ guid ∈ (receiver.guids owner.myID what).ids,
          guid ∈ (owner.guids owner.myID what).ids := by
  rcases peers.sent what with ⟨continued, copy⟩
  constructor
  · exact fun replicates => replicates.held peers
  · intro condition requests clients
    apply Peers.requests requests _ _ _ clients
    · exact peers.continued (Daemon.Continues.refl owner) continued
    · intro guid
      dsimp only
      by_cases any : anyGuid what ∈ (owner.guids owner.myID what).ids
      · have alone := (owner.guids owner.myID what).alone any
        rw [copy, alone, map_cons, map_nil, foldl_cons, foldl_nil]
        have added : effect what
            { option := .add what, value := anyGuid what } (receiver.guids owner.myID what) =
            ((receiver.guids owner.myID what).add (anyGuid what)).2 :=
          if_pos rfl
        rw [added, mem_add, if_pos rfl, mem_singleton]
      · have held := condition.resolve_left any
        have restricted : anyGuid what ∉ (receiver.guids owner.myID what).ids :=
          fun member => any (held _ member)
        rw [peers.mem_sent any guid, if_neg restricted]
        constructor
        · rintro (member | member)
          · exact member
          · exact held guid member
        · exact .inl

/-- A daemon of two without any restrictions. -/
def Daemon.blank (myID : Int) : Daemon :=
  { myID := myID, nrOfNodes := 2, guids := fun _ what => GuidList.empty what
    managedTasks := fun _ => none }

theorem peers_blank (guid copied : Guid) : Peers ((Daemon.blank 0).addGuid 0 .user guid).2
      ((Daemon.blank 1).addGuid 0 .user copied).2 := by
  have owner := addGuid_continues 0 .user guid (Daemon.blank 0)
  have receiver := addGuid_continues 0 .user copied (Daemon.blank 1)
  have blank : Peers (Daemon.blank 0) (Daemon.blank 1) := ⟨by decide, by decide, by decide⟩
  exact blank.continued owner receiver

theorem mem_blank (myID : Int) (guid other : Guid) :
    other ∈ (((Daemon.blank myID).addGuid 0 .user guid).2.guids 0 .user).ids ↔ other = guid := by
  have found : (Daemon.blank myID).getGuidList 0 .user = some (GuidList.empty .user) := rfl
  have nothing : ∀ id, id ∉ (GuidList.empty .user).ids :=
    fun _ => not_mem_nil
  simp only [Daemon.addGuid, found, putGuidList_self, mem_add,
    nothing, if_false, or_false, ite_self]

theorem replicates_iff_same : Replicates .user ((Daemon.blank 0).addGuid 0 .user 5).2
      ((Daemon.blank 1).addGuid 0 .user 5).2 := by
  apply (replicates_iff .user (peers_blank 5 5)).mpr
  refine .inr ?_
  intro guid member
  exact (mem_blank 0 5 guid).mpr ((mem_blank 1 5 guid).mp member)

/-- A receiver that still holds an ID of the owner's earlier list. -/
theorem not_replicates :
    ¬∀ what owner receiver, Peers owner receiver → Replicates what owner receiver := by
  intro replicates
  have peers := peers_blank 5 7
  rcases (replicates .user _ _ peers).held peers with any | held
  · have same := (mem_blank 0 5 (anyGuid .user)).mp any
    exact absurd same (by decide)
  · have same := (mem_blank 0 5 7).mp (held 7 ((mem_blank 1 7 7).mpr rfl))
    exact absurd same (by decide)

end Psmgmt.Options
