import Psmgmt.Spawn.Requests

/-!
# First fragments of spawn requests

`msg_SPAWNREQUEST()` peeks into the first fragment of a request from a client
on the own node and keeps track of the client's spawn slots.
-/

namespace Psmgmt.Spawn

open Partition List Option

/-- `spawnSlots` of a client; the content never exceeds the memory. -/
structure SpawnSlots where
  slots : List CPUSet
  spawnSlotsNum : Nat
  bound : spawnSlotsNum ≤ slots.length
  size : slots.length < 2 ^ 32

/-- What is read from a first fragment: `task` is what `PStask_decodeTask()`
finds. -/
structure FirstFragment where
  num : Nat
  task : Option DecodedTask
  numBound : num < 2 ^ 32
  rankBound : ∀ decoded ∈ task, -2 ^ 31 ≤ decoded.rank ∧ decoded.rank < 2 ^ 31

/-- The daemon a request arrives at. -/
structure RelayEnv where
  /-- There is memory for the data buffer. -/
  buffer : Bool
  checkRequest : DecodedTask → Option Errno
  /-- The client is found, with its spawn slots. -/
  client : Option (Option SpawnSlots)
  destHere : Bool
  destUp : Bool
  sendMsg : Option Errno

inductive Fate where
  | rejected | handled | forwarded
  /-- The node is down, or `sendMsg()` fails. -/
  | failed
  deriving DecidableEq, Repr

/-- What becomes of a first fragment: the entries of `spawnSlots` accessed, the
CPU sets in there afterwards, and the requests answered. -/
structure Relay where
  touched : List Nat
  slots : List CPUSet
  answers : List Int
  fate : Fate

/-- `num` as far as there are spawn slots. -/
def checkNum (rank : Int) (num spawnSlotsNum : Nat) : Nat :=
  if uint32 (rank + num - 1) ≥ spawnSlotsNum then
    uint32 (spawnSlotsNum - rank)
  else num

/-- The entries of a loop over `num` ranks. -/
def entries (rank : Int) (num : Nat) : List Nat :=
  (List.range num).map (fun (r : Nat) => uint32 (rank + r))

/-- Invalidate some entries; what lies outside is not part of the array. -/
def clearSlots (slots : List CPUSet) (touched : List Nat) : List CPUSet :=
  touched.foldl (fun slots index => slots.set index ∅) slots

/-- `answer.request` of a loop over `num` ranks. -/
def answersFor (rank : Int) (num : Nat) : List Int :=
  (List.range num).map (fun (r : Nat) => ((uint32 (rank + r) : Nat) : Int))

/-- The end of `msg_SPAWNREQUEST()`. -/
def relayTo (env : RelayEnv) (rank : Int) (num : Nat) (touched : List Nat)
    (slots : List CPUSet) : Relay :=
  if env.destHere then ⟨touched, slots, [], .handled⟩
  else if !env.destUp then ⟨touched, slots, answersFor rank num, .failed⟩
  else
    match env.sendMsg with
    | none => ⟨touched, slots, [], .forwarded⟩
    | some _ => ⟨touched, slots, answersFor rank num, .failed⟩

def RelayEnv.slots (env : RelayEnv) : List CPUSet :=
  match env.client with
  | some (some spawnSlots) => spawnSlots.slots
  | _ => []

/-- `msg_SPAWNREQUEST()` for the first fragment of a client's request. -/
def msgSpawnRequest (env : RelayEnv) (fragment : FirstFragment) : Relay :=
  let num := fragment.num
  if !env.buffer then ⟨[], env.slots, [0], .rejected⟩
  else
    match fragment.task with
    | none => ⟨[], env.slots, [0], .rejected⟩
    | some task =>
      let rank := task.rank
      if (env.checkRequest task).isSome then
        ⟨[], env.slots, answersFor rank num, .rejected⟩
      else
        match env.client with
        | none => ⟨[], [], [], .rejected⟩
        | some none => relayTo env rank num [] []
        | some (some spawnSlots) =>
          if isServiceTask task.group then
            relayTo env rank num [] spawnSlots.slots
          else
            let num := checkNum rank num spawnSlots.spawnSlotsNum
            let touched := entries rank num
            relayTo env rank num touched (clearSlots spawnSlots.slots touched)

/-! ## The ranks of a request -/

/-- Only slots of the request's ranks are accessed, all of them there, and a
request that cannot be forwarded is answered for each of its ranks. -/
structure InRange (rank : Int) (num spawnSlotsNum : Nat) (relay : Relay) :
    Prop where
  touched : ∀ index ∈ relay.touched, rank ≤ index ∧ index < rank + num ∧ index < spawnSlotsNum
  answers : relay.fate = .failed →
    relay.answers.map int32 = (List.range num).map (fun (r : Nat) => int32 (rank + r))

/-- The request names slots the client has. -/
structure Named (env : RelayEnv) (rank : Int) (num spawnSlotsNum : Nat) :
    Prop where
  empty : num = 0 → uint32 rank ≤ spawnSlotsNum ∧ (rank = 0 → spawnSlotsNum = 0)
  start : 0 < num → uint32 rank = spawnSlotsNum ∨ (0 ≤ rank ∧ uint32 rank < spawnSlotsNum)
  range : 0 < num → uint32 rank + num ≤ 2 ^ 32
  whole : 0 < num → uint32 rank + num ≤ spawnSlotsNum ∨
    env.destHere = true ∨ (env.destUp = true ∧ env.sendMsg = none)

def checked (env : RelayEnv) (fragment : FirstFragment) : Option (Int × SpawnSlots) :=
  match fragment.task, env.client with
  | some task, some (some spawnSlots) =>
    if env.buffer ∧ env.checkRequest task = none ∧ isServiceTask task.group = false then
      some (task.rank, spawnSlots)
    else none
  | _, _ => none

def RelayEnv.number (env : RelayEnv) : Nat :=
  match env.client with
  | some (some spawnSlots) => spawnSlots.spawnSlotsNum
  | _ => 0

section Ranks

variable {rank : Int} {num spawnSlotsNum : Nat}

theorem entries_inRange_iff {count : Nat} (low : -2 ^ 31 ≤ rank) (high : rank < 2 ^ 31)
    (numBound : num < 2 ^ 32) (countBound : count < 2 ^ 32) (slotsBound : spawnSlotsNum < 2 ^ 32) :
    (∀ index ∈ entries rank count, rank ≤ index ∧ index < rank + num ∧ index < spawnSlotsNum) ↔
      count = 0 ∨ (0 ≤ rank ∧ count ≤ num ∧ rank + count ≤ spawnSlotsNum) := by
  have inside : ∀ r : Nat, r < count → uint32 (rank + r) ∈ entries rank count := by
    intro r below
    exact mem_map.mpr ⟨r, mem_range.mpr below, rfl⟩
  constructor
  · intro all
    rcases Nat.eq_zero_or_pos count with none_ | positive
    · exact .inl none_
    · -- The first entry shows the sign of the rank, the last one the rest.
      have first := all _ (inside 0 positive)
      have last := all _ (inside (count - 1) (by omega))
      unfold uint32 at first last
      apply Or.inr
      omega
  · rintro (rfl | ⟨positive, few, within⟩) index member
    · exact nomatch member
    · obtain ⟨r, below, rfl⟩ := mem_map.mp member
      rw [mem_range] at below
      unfold uint32
      omega

theorem length_answersFor (rank : Int) (num : Nat) : (answersFor rank num).length = num := by
  rw [answersFor, length_map, length_range]

theorem answersFor_ranks (rank : Int) (num : Nat) :
    (answersFor rank num).map int32 = (List.range num).map (fun (r : Nat) => int32 (rank + r)) := by
  rw [answersFor, List.map_map]
  apply List.map_congr_left
  intro r _
  rw [Function.comp_apply, int32_uint32]

theorem checkNum_lt (numBound : num < 2 ^ 32) : checkNum rank num spawnSlotsNum < 2 ^ 32 := by
  rw [checkNum]
  split
  · unfold uint32
    omega
  · exact numBound

variable {env : RelayEnv} {touched : List Nat} {slots : List CPUSet}

theorem relayTo_touched (count : Nat) :
    (relayTo env rank count touched slots).touched = touched := by
  rw [relayTo]
  split
  · rfl
  · split
    · rfl
    · split <;> rfl

/-- A request that is passed on is not answered. -/
theorem relayTo_fate (count : Nat) :
    ((relayTo env rank count touched slots).fate = .failed ∧
        (relayTo env rank count touched slots).answers = answersFor rank count ∧
        ¬(env.destHere = true ∨ (env.destUp = true ∧ env.sendMsg = none))) ∨
      ((relayTo env rank count touched slots).fate ≠ .failed ∧
        (env.destHere = true ∨ (env.destUp = true ∧ env.sendMsg = none))) := by
  rw [relayTo]
  cases here : env.destHere with
  | true => exact .inr ⟨fun failed => (nomatch failed), .inl rfl⟩
  | false =>
    rw [if_neg Bool.false_ne_true]
    cases up : env.destUp with
    | false =>
      refine .inl ⟨rfl, rfl, ?_⟩
      rintro (there | there)
      · exact nomatch there
      · exact nomatch there.1
    | true =>
      rw [Bool.not_true, if_neg Bool.false_ne_true]
      cases sent : env.sendMsg with
      | none => exact .inr ⟨fun failed => (nomatch failed), .inr ⟨rfl, rfl⟩⟩
      | some error =>
        refine .inl ⟨rfl, rfl, ?_⟩
        rintro (there | there)
        · exact nomatch there
        · exact nomatch there.2

theorem relayTo_answers_iff (count : Nat) :
    ((relayTo env rank count touched slots).fate = .failed →
        (relayTo env rank count touched slots).answers.map int32 =
          (List.range num).map (fun (r : Nat) => int32 (rank + r))) ↔
      (count = num ∨ env.destHere = true ∨ (env.destUp = true ∧ env.sendMsg = none)) := by
  rcases @relayTo_fate rank env touched slots count with
    ⟨failed, answers, stuck⟩ | ⟨notFailed, passed⟩
  · rw [answers]
    constructor
    · intro all
      have lengths := congrArg List.length (all failed)
      rw [length_map, length_answersFor, length_map, length_range] at lengths
      exact .inl lengths
    · rintro (rfl | passed) _
      · exact answersFor_ranks rank count
      · exact absurd passed stuck
  · constructor
    · intro _
      exact .inr passed
    · intro _ failed
      exact absurd failed notFailed

theorem relayTo_inRange_iff (low : -2 ^ 31 ≤ rank) (high : rank < 2 ^ 31)
    (numBound : num < 2 ^ 32) (slotsBound : spawnSlotsNum < 2 ^ 32) :
    InRange rank num spawnSlotsNum
        (relayTo env rank (checkNum rank num spawnSlotsNum)
          (entries rank (checkNum rank num spawnSlotsNum)) slots) ↔
      Named env rank num spawnSlotsNum := by
  have countBound := @checkNum_lt rank num spawnSlotsNum numBound
  have ranks := @entries_inRange_iff rank num spawnSlotsNum (checkNum rank num spawnSlotsNum) low
    high numBound countBound slotsBound
  have answers := @relayTo_answers_iff rank num env (entries rank (checkNum rank num spawnSlotsNum))
    slots (checkNum rank num spawnSlotsNum)
  have value : checkNum rank num spawnSlotsNum =
      if uint32 (rank + num - 1) ≥ spawnSlotsNum then
        uint32 (spawnSlotsNum - rank)
      else num := rfl
  constructor
  · intro inRange
    have touched := inRange.touched
    rw [relayTo_touched, ranks] at touched
    have whole := answers.mp inRange.answers
    unfold uint32 at value
    constructor
    · intro empty
      unfold uint32
      split at value <;> omega
    · intro positive
      unfold uint32
      split at value <;> omega
    · intro positive
      unfold uint32
      split at value <;> omega
    · intro positive
      rcases whole with all | passed
      · apply Or.inl
        unfold uint32
        split at value <;> omega
      · exact .inr passed
  · intro named
    obtain ⟨empty, start, range, whole⟩ := named
    constructor
    · rw [relayTo_touched, ranks]
      unfold uint32 at value empty start range
      split at value <;> omega
    · rw [answers]
      rcases Nat.eq_zero_or_pos num with none_ | positive
      · apply Or.inl
        unfold uint32 at value empty
        split at value <;> omega
      · rcases whole positive with all | passed
        · apply Or.inl
          unfold uint32 at value start range all
          split at value <;> omega
        · exact .inr passed

end Ranks

/-- A request without slots to check is passed on as it is. -/
theorem relayTo_unchecked {env : RelayEnv} {rank : Int} {num number : Nat}
    {slots : List CPUSet} :
    InRange rank num number (relayTo env rank num [] slots) where
  touched := by
    rw [relayTo_touched]
    intro index member
    exact nomatch member
  answers := relayTo_answers_iff num |>.mpr (.inl rfl)

theorem rejected_inRange {rank : Int} {num number : Nat} {relay : Relay}
    (touched : relay.touched = []) (rejected : relay.fate = .rejected) :
    InRange rank num number relay where
  touched := by
    rw [touched]
    intro index member
    exact nomatch member
  answers := by
    rw [rejected]
    intro failed
    exact nomatch failed

/-- A request stays in range if and only if the slots it is checked against
are its own. -/
theorem msgSpawnRequest_inRange_iff (env : RelayEnv)
    (fragment : FirstFragment) :
    (∀ task, fragment.task = some task →
        InRange task.rank fragment.num env.number (msgSpawnRequest env fragment)) ↔
      ∀ rank spawnSlots, checked env fragment = some (rank, spawnSlots) →
        Named env rank fragment.num spawnSlots.spawnSlotsNum := by
  rcases decoded : fragment.task with _ | task
  · constructor
    · intro _ rank spawnSlots there
      rw [checked, decoded] at there
      exact nomatch there
    · intro _ task there
      exact nomatch there
  · have bounds := fragment.rankBound task decoded
    constructor
    · intro inRange rank spawnSlots there
      have inRange := inRange task rfl
      rw [checked, decoded] at there
      rcases client : env.client with _ | _ | found
      · rw [client] at there
        exact nomatch there
      · rw [client] at there
        exact nomatch there
      · rw [client] at there
        dsimp only at there
        split at there
        · rename_i accepted
          obtain ⟨buffer, fine, group⟩ := accepted
          obtain ⟨rfl, rfl⟩ := Prod.mk.inj (Option.some.inj there)
          have slotsBound := lt_of_le_of_lt found.bound found.size
          rw [msgSpawnRequest, RelayEnv.number, decoded, client] at inRange
          dsimp only at inRange
          rw [buffer, Bool.not_true, if_neg Bool.false_ne_true, fine,
            isSome_none, if_neg Bool.false_ne_true, group,
            if_neg Bool.false_ne_true] at inRange
          exact (relayTo_inRange_iff bounds.1 bounds.2 fragment.numBound slotsBound).mp inRange
        · exact nomatch there
    · intro named other same
      cases same
      rw [msgSpawnRequest, decoded]
      dsimp only
      cases buffer : env.buffer with
      | false => exact rejected_inRange rfl rfl
      | true =>
        rw [Bool.not_true, if_neg Bool.false_ne_true]
        rcases fine : env.checkRequest task with _ | error
        · rw [isSome_none, if_neg Bool.false_ne_true, RelayEnv.number]
          rcases client : env.client with _ | _ | found
          · exact rejected_inRange rfl rfl
          · exact relayTo_unchecked
          · dsimp only
            cases group : isServiceTask task.group with
            | true => exact relayTo_unchecked
            | false =>
              rw [if_neg Bool.false_ne_true]
              have slotsBound := lt_of_le_of_lt found.bound found.size
              apply (relayTo_inRange_iff bounds.1 bounds.2 fragment.numBound slotsBound).mpr
              apply named task.rank found
              rw [checked, decoded, client]
              dsimp only
              rw [if_pos ⟨buffer, fine, group⟩]
        · exact rejected_inRange rfl rfl

def fourSlots : SpawnSlots where
  slots := [{0}, {1}, {2}, {3}]
  spawnSlotsNum := 4
  bound := by decide
  size := by decide

/-- One process of rank -1. -/
def belowZero : FirstFragment where
  num := 1
  task := some ⟨⟨0, 0⟩, ⟨0, 1⟩, .any, 1, -1⟩
  numBound := by decide
  rankBound := by
    intro decoded same
    cases same
    decide

def remote : RelayEnv where
  buffer := true
  checkRequest := fun _ => none
  client := some (some fourSlots)
  destHere := false
  destUp := true
  sendMsg := none

theorem belowZero_not_inRange : ¬∀ (env : RelayEnv) (fragment : FirstFragment) (task : DecodedTask),
      fragment.task = some task →
        InRange task.rank fragment.num env.number (msgSpawnRequest env fragment) := by
  intro inRange
  have touched := (inRange remote belowZero _ rfl).touched
  have first : 4294967295 ∈ (msgSpawnRequest remote belowZero).touched := by
    decide +kernel
  exact absurd (touched _ first).2.2 (by decide)

end Psmgmt.Spawn
