import Psmgmt.Library.Batches
import Psmgmt.Pmi.Kvs

/-!
# The provider's update cache

How the KVS provider collects the pairs put by the clients and sends them along
the daisy chain (`providerloop.c`), and how a client's forwarder reads the
messages (`pmiclient.c`).
-/

namespace Psmgmt.Pmi

open Tokens Batches List Function

def pmiUpdatePayload : Nat := 1048 - 1 - 4 - 2

def kvsUpdateFields : Nat := 100

/-- `limit` in `sendKvsUpdateToClients()`. -/
def updateLimit : Nat := min pmiUpdatePayload pmiUMaxline

inductive UpdateCmd where
  | updateCache
  | updateCacheFinish
  deriving DecidableEq, Repr

structure Update where
  cmd : UpdateCmd
  field : Nat
  kvsmsg : CStr
  deriving DecidableEq, Repr

/-- What the provider sends to the first client of the chain. -/
inductive Message where
  | update (update : Update)
  | daisyBarrierOut
  deriving DecidableEq, Repr

/-- The variables of `providerloop.c`; `NULL` in the cache is `none`. -/
structure Provider where
  kvsname : CStr
  kvs : List Space
  maxClients : Nat
  /-- `clients[0].tid` is set. -/
  firstJoined : Bool
  putCount : Nat
  waitForPuts : Nat
  kvsUpdateCache : Nat → Option CStr
  kvsCacheSize : Nat
  nextCacheEntry : Nat
  kvsUpdateLen : Nat
  nextUpdateField : Nat
  kvsUpdateTrack : Nat → Nat
  sent : List Message
  /-- The arguments of `free()`, one after the other. -/
  freed : List (Option CStr)

/-- Why a function of the provider does not return: it has terminated the job,
or it is still running. -/
inductive Stop where
  | terminateJob
  | running
  deriving DecidableEq, Repr

/-! ## Sending updates -/

def sendMsgToKvsSucc (msg : Message) (p : Provider) : Provider :=
  if p.firstJoined then { p with sent := p.sent ++ [msg] } else p

/-- `ent--` for a `size_t`. -/
def stepBack (ent : Nat) : Nat := (ent + (2 ^ 64 - 1)) % 2 ^ 64

/-- `ent++` for a `size_t`. -/
def stepOn (ent : Nat) : Nat := (ent + 1) % 2 ^ 64

/-- The inner loop over the `count` entries from `ent`: the new `ent`,
`kvsmsg` and `kvsUpdateLen`. -/
def fillMsg (cache : Nat → Option CStr) :
    (count ent : Nat) → CStr → Nat → Except Stop (Nat × CStr × Nat)
  | 0, ent, kvsmsg, len => .ok (ent, kvsmsg, len)
  | count + 1, ent, kvsmsg, len =>
    match cache ent with
    | none => .error .terminateJob
    | some nextEnt =>
      if kvsmsg.length + nextEnt.length + 2 > updateLimit then
        .ok (ent, kvsmsg, len)
      else
        fillMsg cache count (stepOn ent) (kvsmsg ++ ' ' :: nextEnt) (len - 1 - (nextEnt.length + 1))

/-- The outer loop; the fuel bounds its rounds. -/
def sendLoop (finish : Bool) : (fuel ent : Nat) → Provider → Except Stop (Nat × Provider)
  | fuel, ent, p =>
    if ent < p.nextCacheEntry ∧ (finish ∨ p.kvsUpdateLen > updateLimit) then
      match fuel with
      | 0 => .error .running
      | fuel + 1 =>
        match fillMsg p.kvsUpdateCache (p.nextCacheEntry - ent) ent [] p.kvsUpdateLen with
        | .error stop => .error stop
        | .ok (ent, kvsmsg, len) =>
          let pmiCmd :=
            if ent ≥ p.nextCacheEntry ∧ finish then
              UpdateCmd.updateCacheFinish
            else UpdateCmd.updateCache
          let ent := stepBack ent
          let p := sendMsgToKvsSucc (.update ⟨pmiCmd, p.nextUpdateField, kvsmsg⟩)
            { p with kvsUpdateLen := len }
          let p := { p with
            kvsUpdateTrack := update p.kvsUpdateTrack
              p.nextUpdateField (p.kvsUpdateTrack p.nextUpdateField + 1)
            nextUpdateField :=
              if pmiCmd = UpdateCmd.updateCacheFinish then
                (p.nextUpdateField + 1) % kvsUpdateFields
              else p.nextUpdateField }
          sendLoop finish fuel (stepOn ent) p
    else .ok (ent, p)

/-- The last loop: free what was sent and move the others to the front. -/
def cleanUp (ent next : Nat) : (count c : Nat) → (Nat → Option CStr) → List (Option CStr) →
      (Nat → Option CStr) × List (Option CStr)
  | 0, _, cache, freed => (cache, freed)
  | count + 1, c, cache, freed =>
    let freed := if c < ent then freed ++ [cache c] else freed
    let cache := update cache c (if ent + c < next then cache (ent + c) else none)
    cleanUp ent next count (c + 1) cache freed

def sendKvsUpdateToClients (finish : Bool) (fuel : Nat) (p : Provider) : Except Stop Provider :=
  match sendLoop finish fuel 0 p with
  | .error stop => .error stop
  | .ok (ent, p) =>
    let (cache, freed) := cleanUp ent p.nextCacheEntry p.nextCacheEntry 0 p.kvsUpdateCache p.freed
    .ok { p with
      kvsUpdateCache := cache
      freed := freed
      nextCacheEntry := p.nextCacheEntry - ent }

/-! ## Receiving updates -/

/-- `strchr(nextvalue, '=') + 1` and what is copied to `vname`. -/
def keyValue (nextvalue : CStr) : Option (CStr × CStr) :=
  if '=' ∈ nextvalue then
    let value := (nextvalue.dropWhile (fun c => c ≠ '=')).tail
    let len := min (nextvalue.length - value.length - 1) (pmiKeylenMax - 1)
    some (nextvalue.take len, value)
  else none

/-- The pairs `handleUpdate()` finds in a message. -/
def parseUpdate (pmiLine : CStr) : Option (List (CStr × CStr)) :=
  (tokens isDelimiter [] pmiLine).mapM keyValue

/-- The loop of `handleUpdate()` storing the pairs in the client's space. -/
def saveUpdate (myKVSname : CStr) : List CStr → List Space → Option (List Space)
  | [], kvs => some kvs
  | nextvalue :: rest, kvs =>
    match keyValue nextvalue with
    | none => none
    | some (vname, value) =>
      match kvsSet kvs myKVSname vname value with
      | none => none
      | some kvs => saveUpdate myKVSname rest kvs

/-! ## The entries of the cache -/

/-- What an entry takes of `kvsUpdateLen`. -/
def cost (entry : CStr) : Nat := entry.length + 2

/-- What an entry takes of a message. -/
def room (entry : CStr) : Nat := entry.length + 1

/-- The cache holds these entries one after the other. -/
def Stored (cache : Nat → Option CStr) : (ent : Nat) → List CStr → Prop
  | _, [] => True
  | ent, entry :: rest => cache ent = some entry ∧ Stored cache (ent + 1) rest

/-- The state in which updates are sent: the first client has joined, and the
cache holds the entries with their total length. -/
structure Cached (p : Provider) (entries : List CStr) : Prop where
  joined : p.firstJoined
  size : p.nextCacheEntry < 2 ^ 64
  count : p.nextCacheEntry = entries.length
  stored : Stored p.kvsUpdateCache 0 entries
  total : p.kvsUpdateLen = (entries.map cost).sum
  short : ∀ entry ∈ entries, entry.length < updateLimit - 1

variable {cache : Nat → Option CStr} {ent fuel count c : Nat}
  {entries left : List CStr} {finish : Bool} {p : Provider}
  {freed : List (Option CStr)}

theorem stored_iff :
    Stored cache ent entries ↔ ∀ place < entries.length, cache (ent + place) = entries[place]? := by
  induction entries generalizing ent with
  | nil => simp [Stored]
  | cons entry rest induction =>
    rw [Stored, induction]
    constructor
    · rintro ⟨first, others⟩ place inside
      cases place with
      | zero => simpa using first
      | succ place =>
        have other := others place (by simpa using inside)
        simpa [Nat.add_assoc, Nat.add_comm 1] using other
    · intro all
      refine ⟨by simpa using all 0 (by simp), ?_⟩
      intro place inside
      have other := all (place + 1) (by simpa using inside)
      simpa [Nat.add_assoc, Nat.add_comm 1] using other

theorem Stored.append {first second : List CStr}
    (stored : Stored cache ent (first ++ second)) :
    Stored cache (ent + first.length) second := by
  rw [stored_iff] at stored ⊢
  intro place inside
  have other := stored (first.length + place) (by rw [length_append]; omega)
  rw [getElem?_append_right (by omega)] at other
  simpa [Nat.add_assoc] using other

theorem stepOn_stepBack (bound : ent < 2 ^ 64) : stepOn (stepBack ent) = ent := by
  simp only [stepOn, stepBack]
  omega

/-- The inner loop takes the entries that fit. -/
theorem fillMsg_eq {len : Nat} (stored : Stored cache ent entries)
    (size : ent + entries.length < 2 ^ 64) (kvsmsg : CStr) :
    fillMsg cache entries.length ent kvsmsg len =
      .ok (ent + (fill room (updateLimit - 1) kvsmsg.length entries).1.length,
        kvsmsg ++ spaced ' ' (fill room (updateLimit - 1) kvsmsg.length entries).1,
        len - total cost (fill room (updateLimit - 1) kvsmsg.length entries).1) := by
  have positive : 0 < updateLimit := by decide
  induction entries generalizing ent len kvsmsg with
  | nil => simp [fillMsg, fill]
  | cons entry rest induction =>
    rw [length_cons] at size ⊢
    rw [fillMsg, stored.1, fill]
    by_cases fits : kvsmsg.length + room entry ≤ updateLimit - 1
    · have small : ¬ kvsmsg.length + entry.length + 2 > updateLimit := by
        simp only [room] at fits
        omega
      have next : stepOn ent = ent + 1 := by
        simp only [stepOn]
        omega
      have grown : (kvsmsg ++ ' ' :: entry).length = kvsmsg.length + room entry := by
        simp [room]
      simp only [if_neg small, if_pos fits, next]
      rw [induction stored.2 (by omega), grown]
      refine congrArg Except.ok (Prod.ext ?_ (Prod.ext ?_ ?_))
      · simp only [length_cons]
        omega
      · simp
      · simp only [total_cons, cost]
        omega
    · have large : kvsmsg.length + entry.length + 2 > updateLimit := by
        simp only [room] at fits
        omega
      simp [if_pos large, if_neg fits]

/-! ## One call -/

/-- Another message is sent. -/
def goesOn (finish : Bool) (entries : List CStr) : Bool :=
  finish || total cost entries > updateLimit

/-- The entries of each message, and those that stay in the cache. -/
def groups (finish : Bool) (entries : List CStr) : List (List CStr) × List CStr :=
  drain room (updateLimit - 1) (goesOn finish) entries.length entries

/-- The messages for these groups of entries. -/
def updates (finish : Bool) (field : Nat) : List (List CStr) → List Update
  | [] => []
  | group :: rest =>
    ⟨if rest = [] ∧ finish then UpdateCmd.updateCacheFinish
      else UpdateCmd.updateCache,
      field, spaced ' ' group⟩ :: updates finish field rest

def afterLoop (finish : Bool) (p : Provider) (sentGroups : List (List CStr))
    (left : List CStr) : Provider :=
  { p with
    kvsUpdateLen := total cost left
    kvsUpdateTrack := update p.kvsUpdateTrack p.nextUpdateField
      (p.kvsUpdateTrack p.nextUpdateField + sentGroups.length)
    nextUpdateField :=
      if finish ∧ sentGroups ≠ [] then
        (p.nextUpdateField + 1) % kvsUpdateFields
      else p.nextUpdateField
    sent := p.sent ++ (updates finish p.nextUpdateField sentGroups).map Message.update }

def afterRound (finish : Bool) (p : Provider) (batch left : List CStr) :
    Provider :=
  { p with
    kvsUpdateLen := total cost left
    kvsUpdateTrack := update p.kvsUpdateTrack p.nextUpdateField
      (p.kvsUpdateTrack p.nextUpdateField + 1)
    nextUpdateField :=
      if left = [] ∧ finish then (p.nextUpdateField + 1) % kvsUpdateFields
      else p.nextUpdateField
    sent := p.sent ++
      [.update
        ⟨if left = [] ∧ finish then UpdateCmd.updateCacheFinish
          else UpdateCmd.updateCache,
          p.nextUpdateField, spaced ' ' batch⟩] }

/-- What the outer loop finds at the start of a round. -/
structure InLoop (p : Provider) (ent : Nat) (entries : List CStr) : Prop where
  joined : p.firstJoined
  size : p.nextCacheEntry < 2 ^ 64
  counted : p.nextCacheEntry = ent + entries.length
  stored : Stored p.kvsUpdateCache ent entries
  summed : p.kvsUpdateLen = total cost entries
  short : ∀ entry ∈ entries, room entry ≤ updateLimit - 1

theorem InLoop.goesOn_iff (inLoop : InLoop p ent entries) :
    (ent < p.nextCacheEntry ∧ (finish ∨ p.kvsUpdateLen > updateLimit)) ↔
      entries ≠ [] ∧ goesOn finish entries := by
  have counted := inLoop.counted
  have remaining : ent < p.nextCacheEntry ↔ entries ≠ [] := by
    rw [counted, ← length_pos_iff]
    omega
  rw [remaining, inLoop.summed]
  simp [goesOn]

theorem sendLoop_stop (inLoop : InLoop p ent entries)
    (stop : ¬ (entries ≠ [] ∧ goesOn finish entries)) :
    sendLoop finish fuel ent p = .ok (ent, p) := by
  unfold sendLoop
  rw [if_neg (fun more => stop (inLoop.goesOn_iff.mp more))]

theorem sendLoop_round {batch : List CStr} (inLoop : InLoop p ent entries)
    (more : entries ≠ [] ∧ goesOn finish entries)
    (filled : fill room (updateLimit - 1) 0 entries = (batch, left)) :
    sendLoop finish (fuel + 1) ent p =
      sendLoop finish fuel (ent + batch.length) (afterRound finish p batch left) := by
  have whole : batch ++ left = entries := by
    have parts := fill_append room (updateLimit - 1) 0 entries
    rwa [filled] at parts
  have counted := inLoop.counted
  have size := inLoop.size
  have lengths := congrArg List.length whole
  rw [length_append] at lengths
  have count : p.nextCacheEntry - ent = entries.length := by omega
  have inner : fillMsg p.kvsUpdateCache entries.length ent [] p.kvsUpdateLen =
      _ :=
    fillMsg_eq inLoop.stored (by omega) []
  rw [length_nil, filled] at inner
  have rest : p.kvsUpdateLen - total cost batch = total cost left := by
    rw [inLoop.summed, ← whole, total_append]
    omega
  have ended : ent + batch.length ≥ p.nextCacheEntry ↔ left = [] := by
    rw [← length_eq_zero_iff]
    omega
  rw [sendLoop, if_pos (inLoop.goesOn_iff.mpr more), count, inner]
  simp only [ended, rest, sendMsgToKvsSucc, if_pos inLoop.joined,
    stepOn_stepBack (show ent + batch.length < 2 ^ 64 by omega),
    nil_append]
  congr 1
  by_cases last : left = [] ∧ finish <;> simp [afterRound, last]

theorem InLoop.next {finish : Bool} {p : Provider} {ent : Nat} {entries batch left : List CStr}
    (inLoop : InLoop p ent entries) (whole : batch ++ left = entries) :
    InLoop (afterRound finish p batch left) (ent + batch.length) left where
  joined := inLoop.joined
  size := inLoop.size
  counted := by
    have counted := inLoop.counted
    rw [← whole, length_append] at counted
    simp only [afterRound]
    omega
  stored := by
    have stored := inLoop.stored
    rw [← whole] at stored
    exact stored.append
  summed := rfl
  short := by
    intro entry member
    apply inLoop.short
    rw [← whole]
    exact mem_append_right _ member

/-- The rounds after the first complete what the first has done. -/
theorem afterLoop_round {batch final : List CStr} {rest : List (List CStr)}
    (last : finish → (rest = [] ↔ left = [])) :
    afterLoop finish (afterRound finish p batch left) rest final =
      afterLoop finish p (batch :: rest) final := by
  cases finish with
  | false => simp [afterLoop, afterRound, updates, Nat.add_assoc, Nat.add_comm]
  | true =>
    have last := last rfl
    by_cases ended : left = []
    · have noRest := last.mpr ended
      subst noRest
      simp [afterLoop, afterRound, updates, ended]
    · have someRest : rest ≠ [] := fun none => ended (last.mp none)
      simp [afterLoop, afterRound, updates, ended, someRest, Nat.add_assoc, Nat.add_comm]

theorem InLoop.unchanged (inLoop : InLoop p ent entries) (finish : Bool) :
    afterLoop finish p [] entries = p := by
  simp [afterLoop, updates, ← inLoop.summed]

theorem sendLoop_eq (enough : entries.length ≤ count) (fueled : count ≤ fuel)
    (inLoop : InLoop p ent entries) :
    sendLoop finish fuel ent p =
      .ok (ent + (drain room (updateLimit - 1) (goesOn finish) count entries).1.flatten.length,
        afterLoop finish p (drain room (updateLimit - 1) (goesOn finish) count entries).1
          (drain room (updateLimit - 1) (goesOn finish) count entries).2) := by
  induction count generalizing fuel ent p entries with
  | zero =>
    have empty : entries = [] := length_eq_zero_iff.mp (by omega)
    subst empty
    rw [sendLoop_stop inLoop (by simp)]
    simp [drain, inLoop.unchanged]
  | succ count induction =>
    by_cases more : entries ≠ [] ∧ goesOn finish entries
    case neg =>
      rw [sendLoop_stop inLoop more, drain, if_neg more]
      simp [inLoop.unchanged]
    case pos =>
      obtain ⟨fuel, rfl⟩ : ∃ less, fuel = less + 1 := ⟨fuel - 1, by omega⟩
      have shorter := length_fill_lt room (updateLimit - 1) more.1 inLoop.short
      have parts := fill_append room (updateLimit - 1) 0 entries
      rw [drain, if_pos more]
      cases filled : fill room (updateLimit - 1) 0 entries with
      | mk batch left =>
        rw [filled] at shorter parts
        dsimp only at shorter
        have next : InLoop (afterRound finish p batch left)
            (ent + batch.length) left := inLoop.next parts
        rw [sendLoop_round inLoop more filled,
          induction (by omega) (by omega) next, afterLoop_round]
        · simp [Nat.add_assoc]
        · intro finishing
          rw [drain_eq_nil]
          have goes : goesOn finish left := by simp [goesOn, finishing]
          have positive : left ≠ [] → count ≠ 0 := by
            intro nonempty
            have some := length_pos_of_ne_nil nonempty
            omega
          by_cases ended : left = [] <;> simp [ended, goes, positive]

/-! ### Cleaning up -/

/-- The entries from `ent` on move to the front. -/
theorem cleanUp_cache (ent next : Nat) (place : Nat) :
    (cleanUp ent next count c cache freed).1 place =
      if c ≤ place ∧ place < c + count then
        if ent + place < next then cache (ent + place) else none
      else cache place := by
  induction count generalizing c cache freed with
  | zero => simp [cleanUp, show ¬ (c ≤ place ∧ place < c) by omega]
  | succ count induction =>
    rw [cleanUp, induction]
    by_cases here : place = c
    · subst here
      have inside : place ≤ place ∧ place < place + (count + 1) := by omega
      rw [if_neg (by omega), if_pos inside, update_self]
    · by_cases inside : c + 1 ≤ place ∧ place < c + 1 + count
      · have whole : c ≤ place ∧ place < c + (count + 1) := by omega
        have later : ent + place ≠ c := by omega
        rw [if_pos inside, if_pos whole, update_of_ne later]
      · have outside : ¬ (c ≤ place ∧ place < c + (count + 1)) := by omega
        rw [if_neg inside, if_neg outside, update_of_ne here]

theorem Stored.frame (stored : Stored cache ent entries) (before : c < ent)
    (entry : Option CStr) :
    Stored (update cache c entry) ent entries := by
  induction entries generalizing ent with
  | nil => trivial
  | cons first rest induction =>
    refine ⟨?_, induction stored.2 (by omega)⟩
    rw [update_of_ne (by omega)]
    exact stored.1

theorem cleanUp_behind (ent next : Nat) (behind : ent ≤ c) :
    (cleanUp ent next count c cache freed).2 = freed := by
  induction count generalizing c cache with
  | zero => rfl
  | succ count induction =>
    rw [cleanUp, if_neg (show ¬ c < ent by omega)]
    exact induction (by omega)

/-- Each entry before `ent` is freed once. -/
theorem cleanUp_freed (ent next : Nat) (stored : Stored cache c entries)
    (reaches : entries.length ≤ count) (ends : c + entries.length = ent) :
    (cleanUp ent next count c cache freed).2 = freed ++ entries.map some := by
  induction entries generalizing count c cache freed with
  | nil =>
    rw [length_nil] at ends
    rw [cleanUp_behind ent next (by omega)]
    simp
  | cons entry rest induction =>
    rw [length_cons] at reaches ends
    obtain ⟨count, rfl⟩ : ∃ less, count = less + 1 := ⟨count - 1, by omega⟩
    rw [cleanUp, if_pos (show c < ent by omega), stored.1,
      induction (stored.2.frame (by omega) _) (by omega) (by omega)]
    simp

/-! ### What a call does -/

theorem Cached.inLoop (cached : Cached p entries) : InLoop p 0 entries where
  joined := cached.joined
  size := cached.size
  counted := by rw [cached.count, Nat.zero_add]
  stored := cached.stored
  summed := cached.total
  short := by
    intro entry member
    have short := cached.short entry member
    simp only [room]
    omega

theorem sendKvsUpdateToClients_eq (finish : Bool) (cached : Cached p entries)
    (enough : entries.length ≤ fuel) :
    sendKvsUpdateToClients finish fuel p =
      .ok { afterLoop finish p (groups finish entries).1 (groups finish entries).2 with
            kvsUpdateCache := (cleanUp
              (groups finish entries).1.flatten.length p.nextCacheEntry
              p.nextCacheEntry 0 p.kvsUpdateCache p.freed).1
            freed := p.freed ++ (groups finish entries).1.flatten.map some
            nextCacheEntry := (groups finish entries).2.length } := by
  have loop : sendLoop finish _ 0 p = _ :=
    sendLoop_eq (Nat.le_refl entries.length) enough cached.inLoop
  have whole : (groups finish entries).1.flatten ++ (groups finish entries).2 = entries :=
    drain_append room (updateLimit - 1) (goesOn finish) entries.length entries
  have lengths := congrArg List.length whole
  rw [length_append, ← cached.count] at lengths
  have first : Stored p.kvsUpdateCache 0 (groups finish entries).1.flatten := by
    have stored := cached.stored
    rw [← whole] at stored
    rw [stored_iff] at stored ⊢
    intro place inside
    rw [stored place (by rw [length_append]; omega), getElem?_append_left inside]
  have freed : (cleanUp _ p.nextCacheEntry p.nextCacheEntry 0 _ p.freed).2 =
      _ :=
    cleanUp_freed (groups finish entries).1.flatten.length p.nextCacheEntry
      first (by omega) (Nat.zero_add _)
  rw [sendKvsUpdateToClients, loop]
  simp only [Nat.zero_add]
  rw [← freed]
  have remaining : p.nextCacheEntry - (groups finish entries).1.flatten.length =
        (groups finish entries).2.length := by omega
  rw [← remaining]
  rfl

theorem cached_afterwards {sentEntries : List CStr} (cached : Cached p entries)
    (whole : sentEntries ++ left = entries) :
    Stored (cleanUp sentEntries.length p.nextCacheEntry p.nextCacheEntry 0
        p.kvsUpdateCache p.freed).1 0 left ∧
      ∀ place, left.length ≤ place → place < p.nextCacheEntry →
        (cleanUp sentEntries.length p.nextCacheEntry p.nextCacheEntry 0
          p.kvsUpdateCache p.freed).1 place = none := by
  have count := cached.count
  have stored := cached.stored
  rw [← whole] at stored
  have behind := stored.append
  rw [stored_iff] at behind
  rw [← whole, length_append] at count
  constructor
  · rw [stored_iff]
    intro place inside
    rw [cleanUp_cache, if_pos (by omega), if_pos (by omega)]
    simpa using behind place inside
  · intro place outside inside
    rw [cleanUp_cache, if_pos (by omega), if_neg (by omega)]

theorem updates_kvsmsg (finish : Bool) (field : Nat)
    (sentGroups : List (List CStr)) :
    (updates finish field sentGroups).map Update.kvsmsg = sentGroups.map (spaced ' ') := by
  induction sentGroups with
  | nil => rfl
  | cons group rest induction => simp [updates, induction]

theorem updates_cmd {sentGroups : List (List CStr)} (nonempty : sentGroups ≠ [])
    (field : Nat) :
    (updates true field sentGroups).map Update.cmd =
      List.replicate (sentGroups.length - 1) UpdateCmd.updateCache ++
        [UpdateCmd.updateCacheFinish] := by
  induction sentGroups with
  | nil => exact absurd rfl nonempty
  | cons group rest induction =>
    cases rest with
    | nil => simp [updates]
    | cons next others =>
      have tail := induction (by simp)
      rw [updates, map_cons, tail]
      simp [replicate_succ]

/-! ## Reading the messages -/

theorem dropWhile_text (pair : Pair) :
    pair.text.dropWhile (fun c => c ≠ '=') = '=' :: pair.value := by
  rw [Pair.text, dropWhile_append_of_pos]
  · simp
  · intro c member
    have different : c ≠ '=' := fun same => pair.key_sign (same ▸ member)
    simpa using different

theorem keyValue_text (pair : Pair) : keyValue pair.text = some (pair.key, pair.value) := by
  have sign : '=' ∈ pair.text := by simp [Pair.text]
  have short := pair.key_short
  have length : pair.text.length - pair.value.length - 1 = pair.key.length := by
    simp only [Pair.text, length_append, length_cons]
    omega
  have whole : min pair.key.length (pmiKeylenMax - 1) = pair.key.length := by
    omega
  simp only [keyValue, if_pos sign, dropWhile_text, tail_cons, length, whole]
  simp [Pair.text]

variable (pairs : List Pair)

theorem mapM_keyValue : (pairs.map Pair.text).mapM keyValue =
      some (pairs.map (fun pair => (pair.key, pair.value))) := by
  induction pairs with
  | nil => rfl
  | cons pair rest induction => simp [mapM_cons, keyValue_text, induction]

/-- What `handleUpdate()` finds in a message are the pairs put into it. -/
theorem parseUpdate_spaced : parseUpdate (spaced ' ' (pairs.map Pair.text)) =
      some (pairs.map (fun pair => (pair.key, pair.value))) := by
  have plain : ∀ piece ∈ pairs.map Pair.text, Plain isDelimiter piece ∧ piece ≠ [] := by
    intro piece member
    obtain ⟨pair, _, rfl⟩ := mem_map.mp member
    exact pair.text_plain
  rw [parseUpdate, tokens_spaced (by decide) plain]
  exact mapM_keyValue pairs

theorem mapM_parseUpdate (pairGroups : List (List Pair)) :
    (pairGroups.map (fun pairs => spaced ' ' (pairs.map Pair.text))).mapM parseUpdate =
      some (pairGroups.map (fun pairs => pairs.map (fun pair => (pair.key, pair.value)))) := by
  induction pairGroups with
  | nil => rfl
  | cons pairs rest induction => simp [mapM_cons, parseUpdate_spaced, induction]

theorem groups_of_pairs {sentGroups : List (List CStr)} {pairs : List Pair}
    (texts : sentGroups.flatten = pairs.map Pair.text) :
    ∃ pairGroups : List (List Pair),
      sentGroups = pairGroups.map (fun group => group.map Pair.text) ∧
        pairGroups.flatten = pairs := by
  induction sentGroups generalizing pairs with
  | nil =>
    have empty : pairs = [] := by simpa using texts.symm
    exact ⟨[], rfl, empty.symm⟩
  | cons group rest induction =>
    rw [flatten_cons] at texts
    obtain ⟨first, others, whole, firstTexts, otherTexts⟩ := map_eq_append_iff.mp texts.symm
    obtain ⟨pairGroups, same, joined⟩ := induction otherTexts.symm
    exact ⟨first :: pairGroups, by simp [firstTexts, same], by simp [joined, whole]⟩

/-- A call sends the first entries of the cache in order, each message within
the limit, and keeps the others; with `finish` it sends all of them, the last
message and no other being the finishing one; and a client reads from the
messages the pairs sent. -/
theorem sendKvsUpdateToClients_drains {p : Provider} {entries : List CStr}
    (finish : Bool) (cached : Cached p entries) :
    ∃ (p' : Provider) (msgs : List Update) (sentGroups : List (List CStr)) (left : List CStr),
      (∀ fuel, entries.length ≤ fuel → sendKvsUpdateToClients finish fuel p = .ok p') ∧
      p'.sent = p.sent ++ msgs.map Message.update ∧
      msgs.map Update.kvsmsg = sentGroups.map (spaced ' ') ∧
      sentGroups.flatten ++ left = entries ∧
      (∀ msg ∈ msgs, msg.kvsmsg.length < pmiUMaxline) ∧
      Cached p' left ∧
      (∀ place, left.length ≤ place → place < p.nextCacheEntry → p'.kvsUpdateCache place = none) ∧
      p'.freed = p.freed ++ sentGroups.flatten.map some ∧
      (finish → entries ≠ [] →
        left = [] ∧ ∃ others, msgs.map Update.cmd =
          List.replicate others UpdateCmd.updateCache ++ [UpdateCmd.updateCacheFinish]) ∧
      ∀ pairs : List Pair, entries = pairs.map Pair.text → ∃ pairGroups : List (List Pair),
          (msgs.map Update.kvsmsg).mapM parseUpdate =
              some (pairGroups.map (fun group => group.map (fun pair => (pair.key, pair.value)))) ∧
            pairGroups.flatten = pairs.take sentGroups.flatten.length := by
  have short := cached.inLoop.short
  have whole : (groups finish entries).1.flatten ++ (groups finish entries).2 = entries :=
    drain_append room (updateLimit - 1) (goesOn finish) entries.length entries
  have strings := updates_kvsmsg finish p.nextUpdateField (groups finish entries).1
  refine ⟨_, updates finish p.nextUpdateField (groups finish entries).1,
    (groups finish entries).1, (groups finish entries).2,
    fun fuel enough => sendKvsUpdateToClients_eq finish cached enough, rfl,
    strings, whole, ?_, ?_, (cached_afterwards cached whole).2, rfl, ?_, ?_⟩
  · intro msg member
    have inStrings := mem_map_of_mem (f := Update.kvsmsg) member
    rw [strings] at inStrings
    obtain ⟨group, inGroups, same⟩ := mem_map.mp inStrings
    have bound : total room group ≤ updateLimit - 1 :=
      total_drain room (updateLimit - 1) (goesOn finish) inGroups
    rw [← same, length_spaced]
    have limit : updateLimit - 1 < pmiUMaxline := by decide
    exact Nat.lt_of_le_of_lt bound limit
  · exact {
      joined := cached.joined
      size := by
        have size := cached.size
        have count := cached.count
        rw [← whole, length_append] at count
        dsimp only
        omega
      count := rfl
      stored := (cached_afterwards cached whole).1
      total := rfl
      short := by
        intro entry member
        apply cached.short
        rw [← whole]
        exact mem_append_right _ member }
  · intro finishing nonempty
    subst finishing
    have stops := drain_stops room (updateLimit - 1) (goesOn true)
      (Nat.le_refl entries.length) short
    have empty : (groups true entries).2 = [] := by
      rcases stops with empty | stop
      · exact empty
      · exact absurd stop (by simp [goesOn])
    have sends : (groups true entries).1 ≠ [] := by
      intro none
      apply nonempty
      rw [← whole, none, empty]
      rfl
    exact ⟨empty, _, updates_cmd sends p.nextUpdateField⟩
  · intro pairs texts
    have firstTexts : (groups finish entries).1.flatten =
        (pairs.take (groups finish entries).1.flatten.length).map Pair.text := by
      rw [map_take, ← texts]
      calc (groups finish entries).1.flatten
          = ((groups finish entries).1.flatten ++
              (groups finish entries).2).take (groups finish entries).1.flatten.length :=
            (take_left' rfl).symm
        _ = entries.take (groups finish entries).1.flatten.length := by
            rw [whole]
    obtain ⟨pairGroups, same, joined⟩ := groups_of_pairs firstTexts
    refine ⟨pairGroups, ?_, joined⟩
    rw [strings, same, map_map]
    exact mapM_parseUpdate pairGroups

/-- A provider with one pair in its cache. -/
theorem sendKvsUpdateToClients_drains_one : ∃ (p' : Provider) (msgs : List Update),
      p'.sent = msgs.map Message.update ∧ p'.nextCacheEntry = 0 ∧ ∃ others, msgs.map Update.cmd =
          List.replicate others UpdateCmd.updateCache ++ [UpdateCmd.updateCacheFinish] := by
  have cached : Cached
      { kvsname := ['k'], kvs := [], maxClients := 1, firstJoined := true
        putCount := 1, waitForPuts := 0
        kvsUpdateCache := fun place => if place = 0 then some ['a', '=', 'b'] else none
        kvsCacheSize := 11, nextCacheEntry := 1, kvsUpdateLen := 5
        nextUpdateField := 0, kvsUpdateTrack := fun _ => 0
        sent := [], freed := [] } [['a', '=', 'b']] :=
    { joined := rfl
      size := by decide
      count := rfl
      stored := ⟨rfl, trivial⟩
      total := rfl
      short := by decide }
  obtain ⟨p', msgs, sentGroups, left, _, sent, _, _, _, after, _, _, whole, _⟩ :=
    sendKvsUpdateToClients_drains true cached
  obtain ⟨empty, commands⟩ := whole rfl (by simp)
  refine ⟨p', msgs, sent, ?_, commands⟩
  rw [after.count, empty]
  rfl

end Psmgmt.Pmi
