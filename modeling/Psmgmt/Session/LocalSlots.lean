import Psmgmt.Session.Pools

/-!
# Local slots of a reservation

`handleResSlots()` for every content of a message, with what its variables hold
before they are set, and what a spawn looks up in the slots stored.
-/

namespace Psmgmt.Session

open Serial ByteMemory Partition List Option

/-! ## Reservation infos of all sessions -/

def findResInfo (sessions : List Session) (sessionID jobID : TaskId)
    (resID : Int) : Option ResInfo :=
  match sessions.find? (fun session => session.ID = sessionID) with
  | none => none
  | some session =>
    match session.jobs.find? (fun job => job.ID = jobID) with
    | none => none
    | some job => job.resInfos.find? (fun res => res.resID = resID)

def changeJob (resID : Int) (change : ResInfo → ResInfo) (job : Job) : Job :=
  { job with
    resInfos := updateFirst (fun res => res.resID = resID) change job.resInfos }

def changeSession (jobID : TaskId) (resID : Int)
    (change : ResInfo → ResInfo) (session : Session) : Session :=
  { session with
    jobs := updateFirst (fun job => job.ID = jobID) (changeJob resID change) session.jobs }

def changeResInfo (sessionID jobID : TaskId) (resID : Int)
    (change : ResInfo → ResInfo) (sessions : List Session) : List Session :=
  updateFirst (fun session => session.ID = sessionID) (changeSession jobID resID change) sessions

def resInfos (sessions : List Session) : List ResInfo :=
  sessions.flatMap (fun session => session.jobs.flatMap (·.resInfos))

/-! ## Storing the slots -/

/-- What the variables of `handleResSlots()` hold before they are set. -/
structure Locals where
  sessionID : TaskId
  jobID : TaskId
  resID : Int
  nBytes : Nat
  num : Nat
  rank : Int

/-- A `PSP_DD_RESSLOTS` message on a node with `numThrds` HW-threads; `memory`
tells whether `malloc()` succeeds. -/
structure Message where
  flags : Flags
  rData : DataBuffer
  locals : Locals
  numThrds : Nat
  memory : Bool

/-- The part of a message behind its head, for a reservation without slots. -/
structure Announced where
  sessionID : TaskId
  jobID : TaskId
  resID : Int
  res : ResInfo
  nBytes : Nat
  num : Nat
  rData : DataBuffer

/-- `handleResSlots()` up to `malloc()`; `none` if the message is dropped. -/
def announced (message : Message) (sessions : List Session) : Option Announced :=
  let flags := message.flags
  let locals := message.locals
  let (sessionID, rData) := getTaskId flags message.rData locals.sessionID
  let (jobID, rData) := getTaskId flags rData locals.jobID
  let (resID, rData) := getInt32 flags rData locals.resID
  match findResInfo sessions sessionID jobID resID with
  | none => none
  | some res =>
    if res.localSlots.isSome then none
    else
      let (nBytes, rData) := getUint16 flags rData locals.nBytes
      if nBytes = 0 ∨ nBytes ≠ bytesForCPUs message.numThrds then none
      else
        let (num, rData) := getUint16 flags rData locals.num
        some ⟨sessionID, jobID, resID, res, nBytes, num, rData⟩

/-- `getInt32()`, telling whether there is a value. -/
def fetchInt32 (flags : Flags) (data : DataBuffer) : Option Int × DataBuffer :=
  let (val, data) := getFromBuf flags data .int32 4
  (val.map (fun bytes => ofWord 4 (ofMem bytes)), data)

/-- The loop of `handleResSlots()`.  A rank that cannot be fetched is the one
before; an invalid rank drops the slots. -/
def readSlots (flags : Flags) (nBytes : Nat) (minRank maxRank unset : Int) :
    (num : Nat) → (rank : Option Int) → DataBuffer → Option (List LocalSlot)
  | 0, _, _ => some []
  | num + 1, old, rData =>
    let (fetched, rData) := fetchInt32 flags rData
    let rank := fetched.or old
    let value := rank.getD unset
    if value < 0 ∨ value < minRank ∨ value > maxRank then none
    else
      let (cpuBuf, rData) := getFromBuf flags rData .mem nBytes
      (readSlots flags nBytes minRank maxRank unset num rank rData).map
        (⟨rank, cpuBuf.map (inject ∅ · nBytes)⟩ :: ·)

def store (message : Message) (slots : Announced) (res : ResInfo) : ResInfo :=
  if !message.memory then { res with localSlots := none }
  else
    { res with
      nLocalSlots := slots.num
      localSlots := readSlots message.flags slots.nBytes res.minRank
        res.maxRank message.locals.rank slots.num none slots.rData }

def handleResSlots (message : Message) (sessions : List Session) : List Session :=
  match announced message sessions with
  | none => sessions
  | some slots =>
    changeResInfo slots.sessionID slots.jobID slots.resID (store message slots) sessions

/-! ## Looking up a slot -/

def lookUp (slots : List LocalSlot) (jobRank : Int) : (left : Nat) → (s : Nat) → List Nat
  | 0, _ => []
  | left + 1, s =>
    s :: if (slots[s]?.bind (·.rank)) = some jobRank then []
      else lookUp slots jobRank left (s + 1)

/-- The local slots `PSIDspawn_fillTaskFromResInfo()` looks at. -/
def accessed (res : ResInfo) (jobRank : Int) : List Nat :=
  if res.nLocalSlots = 0 then []
  else if jobRank < res.minRank ∨ jobRank > res.maxRank then []
  else
    match res.localSlots with
    | none => []
    | some slots => lookUp slots jobRank res.nLocalSlots 0

/-! ## What is left behind -/

structure LocalSlot.Of (res : ResInfo) (slot : LocalSlot) : Prop where
  rank : ∃ rank, slot.rank = some rank ∧ res.minRank ≤ rank ∧ rank ≤ res.maxRank
  cpuSet : slot.cpuSet.isSome

inductive Usable (res : ResInfo) : Prop where
  | stored (slots : List LocalSlot) (there : res.localSlots = some slots)
      (count : slots.length = res.nLocalSlots) (set_ : ∀ slot ∈ slots, slot.Of res)
  | unset (missing : res.localSlots = none) (count : res.nLocalSlots = 0)

def AllUsable (sessions : List Session) : Prop := ∀ res ∈ resInfos sessions, Usable res

/-- Whatever slot is looked at exists. -/
def AccessesExist (res : ResInfo) : Prop :=
  ∀ jobRank, ∀ s ∈ accessed res jobRank, ∃ slots slot,
    res.localSlots = some slots ∧ slots[s]? = some slot ∧ slot.Of res

/-- The announced slots are all there, each with a valid rank. -/
def Complete (flags : Flags) (nBytes : Nat) (minRank maxRank : Int) :
    (num : Nat) → DataBuffer → Prop
  | 0, _ => True
  | num + 1, rData =>
    let (fetched, rData) := fetchInt32 flags rData
    let (cpuBuf, rData) := getFromBuf flags rData .mem nBytes
    (∃ rank, fetched = some rank ∧ 0 ≤ rank ∧ minRank ≤ rank ∧ rank ≤ maxRank) ∧
      cpuBuf.isSome ∧ Complete flags nBytes minRank maxRank num rData

def Proper (message : Message) (sessions : List Session) : Prop :=
  ∀ slots, announced message sessions = some slots → message.memory = true →
      Complete message.flags slots.nBytes slots.res.minRank slots.res.maxRank slots.num slots.rData

/-! ## Reading the slots -/

variable {num : Nat} {old : Option Int} {rData : DataBuffer}
  {slots : List LocalSlot}

section Reading

variable {flags : Flags} {data after : DataBuffer} {type : DataType}
  {size : Nat}

theorem verifyDataBuf_failed {addTypeInfo : Bool}
    (failed : verifyDataBuf flags data size addTypeInfo = (false, after)) :
    after.unpackErr.isSome := by
  rw [verifyDataBuf] at failed
  dsimp only at failed
  by_cases error : data.unpackErr.isSome
  · rw [if_pos error] at failed
    cases failed
    exact error
  · rw [if_neg error] at failed
    split at failed
    · split at failed
      · cases failed
        rfl
      · cases failed
    · split at failed
      · cases failed
        rfl
      · cases failed

theorem verifyTypeInfo_failed
    (failed : verifyTypeInfo flags data type = (false, after)) :
    after.unpackErr.isSome := by
  rw [verifyTypeInfo] at failed
  dsimp only at failed
  split at failed
  · cases failed
  · split at failed
    · cases failed
      rfl
    · cases failed

/-- A failure is remembered. -/
theorem getFromBuf_failed
    (failed : getFromBuf flags data type size = (none, after)) :
    after.unpackErr.isSome := by
  rw [getFromBuf] at failed
  split at failed
  · cases failed
    rfl
  · rcases verified : verifyDataBuf flags data size true with
      ⟨_ | _, checked⟩
    · rw [verified] at failed
      cases failed
      exact verifyDataBuf_failed verified
    · rw [verified] at failed
      dsimp only at failed
      rcases typed : verifyTypeInfo flags checked type with ⟨_ | _, tagged⟩
      · rw [typed] at failed
        cases failed
        exact verifyTypeInfo_failed typed
      · rw [typed] at failed
        dsimp only at failed
        split at failed
        · split at failed
          · cases failed
          · cases failed
            rfl
        · cases failed

/-- After a failure nothing is read. -/
theorem getFromBuf_error (error : data.unpackErr.isSome) :
    (getFromBuf flags data type size).1 = none := by
  unfold getFromBuf
  split
  · rfl
  · have sane : verifyDataBuf flags data size true = (false, data) := by
      unfold verifyDataBuf
      rw [if_pos error]
    rw [sane]

variable {nBytes : Nat} {minRank maxRank unset : Int}

/-- Without a rank there is no CPU set either. -/
theorem fetched_of_cpuBuf
    (cpuBuf : (getFromBuf flags (fetchInt32 flags data).2 .mem nBytes).1.isSome) :
    (fetchInt32 flags data).1.isSome := by
  rcases fetch : getFromBuf flags data .int32 4 with ⟨_ | val, after⟩
  · rw [fetchInt32, fetch, getFromBuf_error (getFromBuf_failed fetch)]
      at cpuBuf
    exact nomatch cpuBuf
  · rw [fetchInt32, fetch]
    rfl

theorem length_readSlots
    (read : readSlots flags nBytes minRank maxRank unset num old rData =
      some slots) : slots.length = num := by
  induction num generalizing old rData slots with
  | zero =>
    cases read
    rfl
  | succ num rest =>
    rw [readSlots] at read
    dsimp only at read
    split at read
    · exact nomatch read
    · rw [map_eq_some_iff] at read
      obtain ⟨tail, read, rfl⟩ := read
      rw [length_cons, rest read]

theorem complete_succ : Complete flags nBytes minRank maxRank (num + 1) rData ↔
      (∃ rank, (fetchInt32 flags rData).1 = some rank ∧ 0 ≤ rank ∧
          minRank ≤ rank ∧ rank ≤ maxRank) ∧
        (getFromBuf flags (fetchInt32 flags rData).2 .mem nBytes).1.isSome ∧
        Complete flags nBytes minRank maxRank num
          (getFromBuf flags (fetchInt32 flags rData).2 .mem nBytes).2 :=
  Iff.rfl

theorem readSlots_of_complete
    (complete : Complete flags nBytes minRank maxRank num rData) :
    ∃ slots, readSlots flags nBytes minRank maxRank unset num old rData = some slots ∧
      ∀ slot ∈ slots, (∃ rank, slot.rank = some rank ∧ minRank ≤ rank ∧
        rank ≤ maxRank) ∧ slot.cpuSet.isSome := by
  induction num generalizing old rData with
  | zero => exact ⟨[], rfl, fun _ member => nomatch member⟩
  | succ num next =>
    rw [complete_succ] at complete
    obtain ⟨⟨rank, fetched, positive, low, high⟩, cpuBuf, rest⟩ := complete
    obtain ⟨slots, read, set_⟩ := next rest
    have valid : ¬(rank < 0 ∨ rank < minRank ∨ rank > maxRank) := by
      omega
    rw [readSlots]
    dsimp only
    rw [fetched, some_or, getD_some, if_neg valid, read]
    refine ⟨_, rfl, ?_⟩
    intro slot member
    rcases mem_cons.mp member with rfl | member
    · refine ⟨⟨rank, rfl, low, high⟩, ?_⟩
      rw [isSome_map]
      exact cpuBuf
    · exact set_ slot member

theorem complete_of_readSlots
    (read : readSlots flags nBytes minRank maxRank unset num old rData =
      some slots) (set_ : ∀ slot ∈ slots, slot.cpuSet.isSome) :
    Complete flags nBytes minRank maxRank num rData := by
  induction num generalizing old rData slots with
  | zero => trivial
  | succ num next =>
    rw [readSlots] at read
    dsimp only at read
    split at read
    · exact nomatch read
    · rename_i valid
      rw [map_eq_some_iff] at read
      obtain ⟨tail, read, rfl⟩ := read
      have cpuBuf := set_ _ mem_cons_self
      rw [isSome_map] at cpuBuf
      obtain ⟨rank, fetched⟩ := isSome_iff_exists.mp (fetched_of_cpuBuf cpuBuf)
      rw [fetched, some_or, getD_some] at valid
      rw [complete_succ]
      refine ⟨⟨rank, fetched, ?_⟩, cpuBuf, next read ?_⟩
      · omega
      · intro slot member
        exact set_ slot (mem_cons_of_mem _ member)

end Reading

/-! ## One message -/

theorem mem_updateFirst {α : Type} {found : α → Bool} {change : α → α} {list : List α} {element : α}
    (member : element ∈ updateFirst found change list) :
    element ∈ list ∨ ∃ old, list.find? found = some old ∧ element = change old := by
  induction list with
  | nil => exact nomatch member
  | cons head rest next =>
    rw [updateFirst] at member
    rw [find?_cons]
    cases here : found head with
    | true =>
      rw [here, if_pos rfl] at member
      rcases mem_cons.mp member with rfl | member
      · exact .inr ⟨head, rfl, rfl⟩
      · exact .inl (mem_cons_of_mem _ member)
    | false =>
      rw [here, if_neg Bool.false_ne_true] at member
      rcases mem_cons.mp member with rfl | member
      · exact .inl mem_cons_self
      · rcases next member with old | changed
        · exact .inl (mem_cons_of_mem _ old)
        · exact .inr changed

theorem change_mem_updateFirst {α : Type} {found : α → Bool} {change : α → α}
    {list : List α} {old : α} (first : list.find? found = some old) :
    change old ∈ updateFirst found change list := by
  induction list with
  | nil => exact nomatch first
  | cons head rest next =>
    rw [find?_cons] at first
    rw [updateFirst]
    cases here : found head with
    | true =>
      rw [here] at first
      cases first
      rw [if_pos rfl]
      exact mem_cons_self
    | false =>
      rw [here] at first
      rw [if_neg Bool.false_ne_true]
      exact mem_cons_of_mem _ (next first)

section Change

variable {sessions : List Session} {sessionID jobID : TaskId} {resID : Int}
  {change : ResInfo → ResInfo} {res : ResInfo}

theorem mem_resInfos :
    res ∈ resInfos sessions ↔ ∃ session ∈ sessions, ∃ job ∈ session.jobs, res ∈ job.resInfos := by
  simp only [resInfos, mem_flatMap]

section

variable (found : findResInfo sessions sessionID jobID resID = some res)

include found

theorem findResInfo_eq : ∃ session job,
      sessions.find? (fun session => session.ID = sessionID) = some session ∧
        session.jobs.find? (fun job => job.ID = jobID) = some job ∧
        job.resInfos.find? (fun res => res.resID = resID) = some res := by
  rw [findResInfo] at found
  rcases first : sessions.find? (fun session => session.ID = sessionID) with _ | session
  · rw [first] at found
    exact nomatch found
  · rw [first] at found
    dsimp only at found
    rcases second : session.jobs.find? (fun job => job.ID = jobID) with _ | job
    · rw [second] at found
      exact nomatch found
    · rw [second] at found
      exact ⟨session, job, first, second, found⟩

theorem findResInfo_mem : res ∈ resInfos sessions := by
  obtain ⟨session, job, first, second, third⟩ := findResInfo_eq found
  exact mem_resInfos.mpr ⟨session, mem_of_find?_eq_some first, job,
    mem_of_find?_eq_some second, mem_of_find?_eq_some third⟩

theorem mem_changeResInfo {other : ResInfo} (member : other ∈ resInfos
      (changeResInfo sessionID jobID resID change sessions)) :
    other ∈ resInfos sessions ∨ other = change res := by
  obtain ⟨session, job, first, second, third⟩ := findResInfo_eq found
  obtain ⟨changed, inside, theJob, jobInside, resInside⟩ := mem_resInfos.mp member
  rcases mem_updateFirst inside with old | ⟨old, same, rfl⟩
  · exact .inl (mem_resInfos.mpr ⟨changed, old, theJob, jobInside, resInside⟩)
  · cases first.symm.trans same
    have present := mem_of_find?_eq_some first
    rcases mem_updateFirst jobInside with old | ⟨old, same, rfl⟩
    · exact .inl (mem_resInfos.mpr ⟨session, present, theJob, old, resInside⟩)
    · cases second.symm.trans same
      rcases mem_updateFirst resInside with old | ⟨old, same, rfl⟩
      · exact .inl (mem_resInfos.mpr ⟨session, present, job, mem_of_find?_eq_some second, old⟩)
      · cases third.symm.trans same
        exact .inr rfl

theorem change_mem_changeResInfo :
    change res ∈ resInfos (changeResInfo sessionID jobID resID change sessions) := by
  obtain ⟨session, job, first, second, third⟩ := findResInfo_eq found
  exact mem_resInfos.mpr ⟨changeSession jobID resID change session,
    change_mem_updateFirst first, changeJob resID change job,
    change_mem_updateFirst second, change_mem_updateFirst third⟩

end

end Change

section Storing

variable {message : Message} {sessions : List Session} {slots : Announced}

theorem announced_found (start : announced message sessions = some slots) :
    findResInfo sessions slots.sessionID slots.jobID slots.resID =
        some slots.res ∧ slots.res.localSlots = none := by
  rw [announced] at start
  dsimp only at start
  split at start
  · exact nomatch start
  · rename_i res found
    split at start
    · exact nomatch start
    · rename_i without
      split at start
      · exact nomatch start
      · cases start
        refine ⟨found, ?_⟩
        rwa [not_isSome_iff_eq_none] at without

theorem store_filled (slots : Announced) (res : ResInfo)
    (memory : message.memory = true) :
    store message slots res =
      { res with
        nLocalSlots := slots.num
        localSlots := readSlots message.flags slots.nBytes res.minRank
          res.maxRank message.locals.rank slots.num none slots.rData } := by
  rw [store, memory]
  rfl

theorem store_usable_iff (start : announced message sessions = some slots)
    (usable : Usable slots.res) :
    Usable (store message slots slots.res) ↔
      (message.memory = true → Complete message.flags slots.nBytes slots.res.minRank
          slots.res.maxRank slots.num slots.rData) := by
  obtain ⟨-, missing⟩ := announced_found start
  have zero : slots.res.nLocalSlots = 0 := by
    cases usable with
    | stored _ there =>
      rw [missing] at there
      exact nomatch there
    | unset _ count => exact count
  cases memory : message.memory with
  | false =>
    have kept : store message slots slots.res = { slots.res with localSlots := none } := by
      rw [store, memory]
      rfl
    rw [kept]
    constructor
    · intro _ allocated
      exact nomatch allocated
    · intro _
      exact .unset rfl zero
  | true =>
    rw [store_filled slots slots.res memory]
    constructor
    · intro result _
      cases result with
      | stored list there _ set_ =>
        apply complete_of_readSlots there
        intro slot member
        exact (set_ slot member).cpuSet
      | unset _ count =>
        have none_ : slots.num = 0 := count
        rw [none_]
        trivial
    · intro complete
      obtain ⟨list, read, set_⟩ := readSlots_of_complete (complete rfl)
      apply Usable.stored list read (length_readSlots read)
      intro slot member
      exact ⟨(set_ slot member).1, (set_ slot member).2⟩

theorem handleResSlots_usable_iff (usable : AllUsable sessions) :
    AllUsable (handleResSlots message sessions) ↔ Proper message sessions := by
  rw [handleResSlots, Proper]
  rcases start : announced message sessions with _ | slots
  · constructor
    · intro _ slots some_
      exact nomatch some_
    · intro _
      exact usable
  · obtain ⟨found, -⟩ := announced_found start
    have here := store_usable_iff start (usable _ (findResInfo_mem found))
    constructor
    · intro result other same
      cases same
      exact here.mp (result _ (change_mem_changeResInfo found))
    · intro proper res member
      rcases mem_changeResInfo found member with old | rfl
      · exact usable res old
      · exact here.mpr (proper slots rfl)

end Storing

/-! ## All messages -/

theorem lookUp_lt {jobRank : Int} {left s other : Nat}
    (looked : other ∈ lookUp slots jobRank left s) : other < s + left := by
  induction left generalizing s with
  | zero => exact nomatch looked
  | succ left next =>
    rw [lookUp] at looked
    rcases mem_cons.mp looked with rfl | looked
    · omega
    · split at looked
      · exact nomatch looked
      · have bound := next looked
        omega

theorem Usable.accessesExist {res : ResInfo} (usable : Usable res) : AccessesExist res := by
  intro jobRank s looked
  rw [accessed] at looked
  split at looked
  · exact nomatch looked
  · rename_i some_
    cases usable with
    | unset _ count => exact absurd count some_
    | stored slots there count set_ =>
      split at looked
      · exact nomatch looked
      · rw [there] at looked
        have bound := lookUp_lt looked
        rw [Nat.zero_add, ← count] at bound
        exact ⟨slots, slots[s], there, getElem?_eq_getElem bound, set_ _ (getElem_mem bound)⟩

/-- Sessions after proper messages only; other handlers drop reservation infos
or add new ones, which `getResinfo()` sets up. -/
inductive ProperRun : List Session → Prop where
  | start : ProperRun []
  | resSlots {sessions : List Session} (run : ProperRun sessions)
      (message : Message) (proper : Proper message sessions) :
      ProperRun (handleResSlots message sessions)
  | other {sessions after : List Session} (run : ProperRun sessions)
      (fresh : ∀ res ∈ resInfos after, res ∈ resInfos sessions ∨
        (res.localSlots = none ∧ res.nLocalSlots = 0)) :
      ProperRun after

theorem ProperRun.usable {sessions : List Session}
    (run : ProperRun sessions) : AllUsable sessions := by
  induction run with
  | start =>
    intro res member
    exact nomatch member
  | resSlots _ message proper usable => exact (handleResSlots_usable_iff usable).mpr proper
  | other _ fresh usable =>
    intro res member
    rcases fresh res member with old | ⟨missing, count⟩
    · exact usable res old
    · exact .unset missing count

/-- What is stored is usable exactly as long as the messages are proper. -/
theorem localSlots_usable (message : Message) (sessions : List Session) :
    (AllUsable sessions → (AllUsable (handleResSlots message sessions) ↔ Proper message sessions)) ∧
      (ProperRun sessions → AllUsable sessions ∧ ∀ res ∈ resInfos sessions, AccessesExist res) := by
  constructor
  · intro usable
    exact handleResSlots_usable_iff usable
  · intro run
    refine ⟨run.usable, ?_⟩
    intro res member
    exact (run.usable res member).accessesExist

/-- A reservation of the ranks 0 to 3, of job `⟨0, 2⟩` in session `⟨0, 1⟩`. -/
def fourRanks : ResInfo where
  resID := 1
  creation := 0
  partHolder := ⟨0, 3⟩
  rankOffset := 0
  minRank := 0
  maxRank := 3
  nEntries := 0
  entries := none
  nLocalSlots := 0
  localSlots := none

def oneSession (res : ResInfo) : List Session := [⟨⟨0, 1⟩, 0, [⟨⟨0, 2⟩, ⟨0, 1⟩, 0, none, [res]⟩]⟩]

/-- One slot, for rank 7. -/
def rankSeven : Message where
  flags := ⟨false, false⟩
  rData := psdbNew (toMem 8 (tidWord ⟨0, 1⟩) ++ toMem 8 (tidWord ⟨0, 2⟩) ++
    toMem 4 1 ++ toMem 2 1 ++ toMem 2 1 ++ toMem 4 7 ++ [1] ++
    toMem 4 (toWord 4 (-1)))
  locals := ⟨⟨0, 0⟩, ⟨0, 0⟩, 0, 0, 0, 0⟩
  numThrds := 8
  memory := true

/-- The slots are dropped, but still counted. -/
theorem rankSeven_not_usable :
    ¬∀ (message : Message) (sessions : List Session), AllUsable sessions →
      AllUsable (handleResSlots message sessions) := by
  intro usable
  have before : AllUsable (oneSession fourRanks) := by
    intro res member
    have same : res = fourRanks := mem_singleton.mp member
    rw [same]
    exact .unset rfl rfl
  have after : handleResSlots rankSeven (oneSession fourRanks) =
      oneSession { fourRanks with nLocalSlots := 1 } := by decide +kernel
  have result := usable rankSeven (oneSession fourRanks) before
  rw [after] at result
  cases result _ mem_cons_self with
  | stored _ there => exact nomatch there
  | unset _ count => exact nomatch count

end Psmgmt.Session
