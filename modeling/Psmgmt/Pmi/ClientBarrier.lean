import Psmgmt.Pmi.UpdateCache
import Psmgmt.Library.Snoc

/-!
# Puts and barriers of a client

The forwarder's side of the PMI requests `put` and `barrier_in`
(`pmiclient.c`), with the messages it exchanges with its neighbours in the
daisy chain and with the provider.
-/

namespace Psmgmt.Pmi

open Tokens Bool

/-- Why the processes of a job do not go on.  A string that fills its buffer
is not terminated, and what is done with it is undefined. -/
inductive Halt where
  | stop (stop : Stop)
  | undefined
  deriving DecidableEq, Repr

/-- What forwarders send to each other and to the provider. -/
inductive KvsMsg where
  | put (key value : CStr)
  | daisyBarrierIn (barrierCount globalPutCount : Nat)
  /-- A message of the provider passed on. -/
  | forward (msg : Message)
  | updateCacheFinish (mc updateIndex : Nat)
  deriving DecidableEq, Repr

/-- `succtid`, which may be the provider's. -/
inductive Succ where
  | unknown
  | client
  | provider
  deriving DecidableEq, Repr

/-- `Update_Buffer_t`. -/
structure UpdateBuffer where
  msg : Update
  forwarded : Bool
  handled : Bool
  deriving DecidableEq, Repr

/-- The variables of `pmiclient.c`, and the messages on their way to the
provider, to the successor and to the PMI client. -/
structure Client where
  pmiRank : Nat
  myKVSname : CStr
  kvs : List Space
  succtid : Succ
  succReady : Bool
  gotBarrierIn : Bool
  gotDaisyBarrierIn : Bool
  startDaisyBarrier : Bool
  putCount : Nat
  barrierCount : Nat
  globalPutCount : Nat
  updateMsgCount : Nat
  uBufferList : List UpdateBuffer
  toProvider : List KvsMsg
  toSucc : List KvsMsg
  replies : List String

/-! ## Requests -/

/-- `getpmiv()`: what the buffer of this size holds afterwards. -/
def getpmiv (name vbuffer : CStr) (vallen : Nat) : Except Halt CStr :=
  match (tokens isDelimiter [] vbuffer).find? (fun cmd => (name ++ ['=']).isPrefixOf cmd) with
  | none => .ok []
  | some cmd =>
    let res := cmd.drop (name.length + 1)
    if vallen < res.length then .ok []
    else if res.length = vallen then .error .undefined
    else .ok res

def pmiSend (msg : String) (c : Client) : Client := { c with replies := c.replies ++ [msg] }

def sendKvstoProvider (msg : KvsMsg) (c : Client) : Client :=
  { c with toProvider := c.toProvider ++ [msg] }

/-- Messages to an unknown successor are dropped. -/
def sendKvstoSucc (msg : KvsMsg) (c : Client) : Client :=
  match c.succtid with
  | .unknown => c
  | .client => { c with toSucc := c.toSucc ++ [msg] }
  | .provider => sendKvstoProvider msg c

/-- The fields of a `put` request. -/
structure PutFields where
  kvsname : CStr
  key : CStr
  value : CStr
  deriving DecidableEq, Repr

def putFields (msg : CStr) : Except Halt PutFields :=
  match getpmiv "kvsname".toList msg pmiKvsnameMax, getpmiv "key".toList msg pmiKeylenMax, getpmiv
      "value".toList msg pmiVallenMax with
  | .ok kvsname, .ok key, .ok value => .ok ⟨kvsname, key, value⟩
  | _, _, _ => .error .undefined

def PutFields.complete (fields : PutFields) : Bool :=
  fields.kvsname ≠ [] ∧ fields.key ≠ [] ∧ fields.value ≠ []

def pPut (msg : CStr) (c : Client) : Except Halt Client :=
  match putFields msg with
  | .error halt => .error halt
  | .ok fields =>
    if ¬ fields.complete then
      .ok (pmiSend "cmd=put_result rc=-1 msg=error_invalid_put_msg\n" c)
    else
      let c := { c with putCount := c.putCount + 1 }
      match kvsSet c.kvs fields.kvsname fields.key fields.value with
      | none => .ok (pmiSend "cmd=put_result rc=-1 msg=error_in_kvs\n" c)
      | some kvs =>
        let c := sendKvstoProvider (.put fields.key fields.value) { c with kvs := kvs }
        .ok (pmiSend "cmd=put_result rc=0\n" c)

def checkDaisyBarrier (c : Client) : Client :=
  if c.gotBarrierIn ∧ c.succReady then
    if c.startDaisyBarrier then
      let c := { c with
        barrierCount := 1
        globalPutCount := c.putCount
        startDaisyBarrier := false }
      sendKvstoSucc (.daisyBarrierIn c.barrierCount c.globalPutCount) c
    else if c.gotDaisyBarrierIn then
      let c := { c with
        barrierCount := c.barrierCount + 1
        globalPutCount := c.globalPutCount + c.putCount
        gotDaisyBarrierIn := false }
      sendKvstoSucc (.daisyBarrierIn c.barrierCount c.globalPutCount) c
    else c
  else c

/-- The client does not go on if a token has no value or a pair cannot be
stored. -/
def handleUpdate (msg : Update) (c : Client) : Except Halt Client :=
  match saveUpdate c.myKVSname (tokens isDelimiter [] msg.kvsmsg) c.kvs with
  | none => .error (.stop .terminateJob)
  | some kvs =>
    let c := { c with kvs := kvs, updateMsgCount := c.updateMsgCount + 1 }
    if msg.cmd = UpdateCmd.updateCacheFinish then
      let c := pmiSend "cmd=barrier_out\n" { c with gotBarrierIn := false }
      let c :=
        if c.succtid = Succ.provider then
          sendKvstoProvider (.updateCacheFinish c.updateMsgCount msg.field) c
        else c
      .ok { c with updateMsgCount := 0 }
    else .ok c

/-- The loop of `p_Barrier_In()` over the buffered updates: those that stay. -/
def handleBuffered : List UpdateBuffer → Client → Except Halt (List UpdateBuffer × Client)
  | [], c => .ok ([], c)
  | uBuf :: rest, c =>
    if uBuf.handled then
      match handleBuffered rest c with
      | .error halt => .error halt
      | .ok (left, c) => .ok (uBuf :: left, c)
    else
      match handleUpdate uBuf.msg c with
      | .error halt => .error halt
      | .ok c =>
        match handleBuffered rest c with
        | .error halt => .error halt
        | .ok (left, c) =>
          if uBuf.forwarded then .ok (left, c)
          else .ok ({ uBuf with handled := true } :: left, c)

def pBarrierIn (c : Client) : Except Halt Client :=
  let c := { c with gotBarrierIn := true }
  let c := if c.pmiRank = 0 then { c with startDaisyBarrier := true } else c
  let c := checkDaisyBarrier c
  match handleBuffered c.uBufferList c with
  | .error halt => .error halt
  | .ok (left, c) => .ok { c with uBufferList := left }

/-! ## Messages -/

def bufferCacheUpdate (msg : Update) (c : Client) : Client :=
  { c with
    uBufferList := c.uBufferList ++ [⟨msg, c.succReady, c.gotBarrierIn⟩] }

/-- Keep the message as long as it may be needed and pass it on. -/
def passUpdate (msg : Update) (c : Client) : Client :=
  let c :=
    if ¬ c.succReady ∨ ¬ c.gotBarrierIn then bufferCacheUpdate msg c else c
  if c.succReady ∧ c.succtid ≠ Succ.provider then
    sendKvstoSucc (.forward (.update msg)) c
  else c

def handleKVScacheUpdate (msg : Update) (c : Client) : Except Halt Client :=
  if msg.kvsmsg.length + 1 > pmiUMaxline then .error (.stop .terminateJob)
  else if msg.cmd = UpdateCmd.updateCacheFinish ∧ ¬ c.gotBarrierIn then
    .error (.stop .terminateJob)
  else
    let c := passUpdate msg c
    if c.gotBarrierIn then handleUpdate msg c else .ok c

def handleDaisyBarrierOut (c : Client) : Client :=
  let c :=
    if c.succtid ≠ Succ.provider then
      sendKvstoSucc (.forward .daisyBarrierOut) c
    else c
  pmiSend "cmd=barrier_out\n" { c with gotBarrierIn := false }

/-- No process sets `predtid`, so it is not the provider's. -/
def handleDaisyBarrierIn (barrierCount globalPutCount : Nat) (c : Client) :
    Client :=
  checkDaisyBarrier
    { c with
      barrierCount := barrierCount
      globalPutCount := globalPutCount
      gotDaisyBarrierIn := true }

/-- The loop of `handleSuccReady()`. -/
def forwardBuffered : List UpdateBuffer → Client → List UpdateBuffer × Client
  | [], c => ([], c)
  | uBuf :: rest, c =>
    if uBuf.forwarded then
      let (left, c) := forwardBuffered rest c
      (uBuf :: left, c)
    else
      let c :=
        if c.succtid ≠ Succ.provider then
          sendKvstoSucc (.forward (.update uBuf.msg)) c
        else c
      let (left, c) := forwardBuffered rest c
      if uBuf.handled then (left, c)
      else ({ uBuf with forwarded := true } :: left, c)

def handleSuccReady (succtid : Succ) (c : Client) : Client :=
  let c := checkDaisyBarrier { c with succtid := succtid, succReady := true }
  let (left, c) := forwardBuffered c.uBufferList c
  { c with uBufferList := left }

/-- `handleKVSMessage()` for what a neighbour or the provider sends. -/
def handleKVSMessage (msg : KvsMsg) (c : Client) : Except Halt Client :=
  match msg with
  | .daisyBarrierIn barrierCount globalPutCount =>
    .ok (handleDaisyBarrierIn barrierCount globalPutCount c)
  | .forward (.update update) => handleKVScacheUpdate update c
  | .forward .daisyBarrierOut => .ok (handleDaisyBarrierOut c)
  | .put .. => .error (.stop .terminateJob)
  | .updateCacheFinish .. => .error (.stop .terminateJob)

/-! ## What the handlers keep -/

def KvsMsg.isPut : KvsMsg → Bool
  | .put .. => true
  | _ => false

/-- A message that tells how many puts there were tells no more than these. -/
def KvsMsg.Within (bound : Nat) : KvsMsg → Prop
  | .daisyBarrierIn _ globalPutCount => globalPutCount ≤ bound
  | _ => True

/-- The messages of puts on their way. -/
def flying (msgs : List KvsMsg) : Nat := msgs.countP KvsMsg.isPut

variable {msg : KvsMsg} {c c' : Client}

theorem KvsMsg.Within.mono {small large : Nat} (within : msg.Within small)
    (grows : small ≤ large) : msg.Within large := by
  cases msg with
  | daisyBarrierIn barrierCount globalPutCount => exact Nat.le_trans within grows
  | put key value => trivial
  | forward msg => trivial
  | updateCacheFinish mc updateIndex => trivial

/-- What the client knows and tells of the puts is not too much if those
before it in the chain have put so often; the first one starts a barrier and
gets none from a predecessor. -/
structure Fine (before : Nat) (c : Client) : Prop where
  starts : c.startDaisyBarrier → c.pmiRank = 0
  first : c.pmiRank = 0 → c.gotDaisyBarrierIn = false
  known : c.gotDaisyBarrierIn → c.globalPutCount ≤ before
  toProvider : ∀ msg ∈ c.toProvider, msg.Within (before + c.putCount)
  toSucc : ∀ msg ∈ c.toSucc, msg.Within (before + c.putCount)

theorem Fine.mono {small large : Nat} (fine : Fine small c)
    (grows : small ≤ large) : Fine large c where
  starts := fine.starts
  first := fine.first
  known := fun got => Nat.le_trans (fine.known got) grows
  toProvider := fun msg member => (fine.toProvider msg member).mono (by omega)
  toSucc := fun msg member => (fine.toSucc msg member).mono (by omega)

structure Keeps (c c' : Client) : Prop where
  pmiRank : c'.pmiRank = c.pmiRank
  names : c'.kvs.map Space.name = c.kvs.map Space.name
  putCount : c'.putCount = c.putCount
  puts : flying c'.toProvider = flying c.toProvider
  fine : ∀ before, Fine before c → Fine before c'

theorem Keeps.refl (c : Client) : Keeps c c := ⟨rfl, rfl, rfl, rfl, fun _ fine => fine⟩

theorem Keeps.trans {first second third : Client} (one : Keeps first second)
    (other : Keeps second third) : Keeps first third where
  pmiRank := other.pmiRank.trans one.pmiRank
  names := other.names.trans one.names
  putCount := other.putCount.trans one.putCount
  puts := other.puts.trans one.puts
  fine := fun before fine => other.fine before (one.fine before fine)

/-- Nothing that counts changes. -/
theorem Keeps.of_same (pmiRank : c'.pmiRank = c.pmiRank)
    (names : c'.kvs.map Space.name = c.kvs.map Space.name)
    (starts : c'.startDaisyBarrier = c.startDaisyBarrier)
    (got : c'.gotDaisyBarrierIn = c.gotDaisyBarrierIn) (putCount : c'.putCount = c.putCount)
    (globalPutCount : c'.globalPutCount = c.globalPutCount)
    (toProvider : c'.toProvider = c.toProvider) (toSucc : c'.toSucc = c.toSucc) :
    Keeps c c' where
  pmiRank := pmiRank
  names := names
  putCount := putCount
  puts := by rw [toProvider]
  fine := by
    intro before fine
    refine ⟨?_, ?_, ?_, ?_, ?_⟩
    · rw [starts, pmiRank]
      exact fine.starts
    · rw [pmiRank, got]
      exact fine.first
    · rw [got, globalPutCount]
      exact fine.known
    · rw [toProvider, putCount]
      exact fine.toProvider
    · rw [toSucc, putCount]
      exact fine.toSucc

theorem forall_mem_snoc {property : KvsMsg → Prop} {msgs : List KvsMsg}
    (all : ∀ msg ∈ msgs, property msg) (new : property msg) :
    ∀ other ∈ msgs ++ [msg], property other := by
  exact Snoc.forall_mem all new

section

variable {before : Nat} (fine : Fine before c)
  (within : msg.Within (before + c.putCount))

include fine within

theorem Fine.sendKvstoProvider : Fine before (sendKvstoProvider msg c) where
  starts := fine.starts
  first := fine.first
  known := fine.known
  toProvider := forall_mem_snoc fine.toProvider within
  toSucc := fine.toSucc

theorem Fine.sendKvstoSucc : Fine before (sendKvstoSucc msg c) := by
  unfold Pmi.sendKvstoSucc
  split
  · exact fine
  · exact ⟨fine.starts, fine.first, fine.known, fine.toProvider, forall_mem_snoc fine.toSucc within⟩
  · exact fine.sendKvstoProvider within

end

theorem sendKvstoSucc_rest (isOther : msg.isPut = false) (c : Client) :
    (sendKvstoSucc msg c).pmiRank = c.pmiRank ∧ (sendKvstoSucc msg c).kvs = c.kvs ∧
      (sendKvstoSucc msg c).putCount = c.putCount ∧ flying (sendKvstoSucc msg c).toProvider = flying
      c.toProvider := by
  unfold sendKvstoSucc
  split <;> simp [sendKvstoProvider, flying, isOther]

theorem keeps_sendKvstoSucc (isOther : msg.isPut = false)
    (within : ∀ before, Fine before c → msg.Within (before + c.putCount)) :
    Keeps c (sendKvstoSucc msg c) := by
  obtain ⟨pmiRank, kvs, putCount, puts⟩ := sendKvstoSucc_rest isOther c
  exact ⟨pmiRank, by rw [kvs], putCount, puts,
    fun before fine => fine.sendKvstoSucc (within before fine)⟩

theorem keeps_checkDaisyBarrier (c : Client) : Keeps c (checkDaisyBarrier c) := by
  unfold checkDaisyBarrier
  split
  · split
    · next starting =>
        have begun : Keeps c { c with
            barrierCount := 1
            globalPutCount := c.putCount
            startDaisyBarrier := false } := by
          refine ⟨rfl, rfl, rfl, rfl, fun before fine => ?_⟩
          have silent := fine.first (fine.starts starting)
          exact ⟨by simp, fine.first, by simp [silent], fine.toProvider, fine.toSucc⟩
        refine begun.trans (keeps_sendKvstoSucc rfl ?_)
        intro before fine
        exact Nat.le_add_left c.putCount before
    · split
      · next got =>
          refine ⟨?_, ?_, ?_, ?_, ?_⟩
          · exact (sendKvstoSucc_rest rfl _).1
          · rw [(sendKvstoSucc_rest rfl _).2.1]
          · exact (sendKvstoSucc_rest rfl _).2.2.1
          · exact (sendKvstoSucc_rest rfl _).2.2.2
          · intro before fine
            have known := fine.known got
            refine Fine.sendKvstoSucc ?_ (Nat.add_le_add_right known _)
            exact ⟨fine.starts, fun _ => rfl, by simp, fine.toProvider, fine.toSucc⟩
      · exact Keeps.refl c
  · exact Keeps.refl c

theorem saveUpdate_names {myKVSname : CStr} {pairs : List CStr}
    {kvs kvs' : List Space} (saved : saveUpdate myKVSname pairs kvs = some kvs') :
    kvs'.map Space.name = kvs.map Space.name := by
  induction pairs generalizing kvs with
  | nil =>
    rw [saveUpdate, Option.some_inj] at saved
    rw [saved]
  | cons nextvalue rest induction =>
    rw [saveUpdate] at saved
    split at saved
    · exact absurd saved (by simp)
    · split at saved
      · exact absurd saved (by simp)
      · next stored => rw [induction saved, kvsSet_names stored]

theorem keeps_handleUpdate {msg : Update} (handled : handleUpdate msg c = .ok c') : Keeps c c' := by
  unfold handleUpdate at handled
  split at handled
  · exact absurd handled (by simp)
  · next kvs saved =>
      have names := saveUpdate_names saved
      have stored : Keeps c { c with
          kvs := kvs
          updateMsgCount := c.updateMsgCount + 1 } :=
        Keeps.of_same rfl names rfl rfl rfl rfl rfl rfl
      split at handled
      · rw [Except.ok.injEq] at handled
        rw [← handled]
        refine stored.trans ?_
        split
        · refine ⟨rfl, rfl, rfl, ?_, fun before fine => ?_⟩
          · simp [sendKvstoProvider, pmiSend, flying, KvsMsg.isPut]
          · exact ⟨fine.starts, fine.first, fine.known,
              forall_mem_snoc fine.toProvider trivial, fine.toSucc⟩
        · exact Keeps.of_same rfl rfl rfl rfl rfl rfl rfl rfl
      · rw [Except.ok.injEq] at handled
        rw [← handled]
        exact stored

theorem keeps_handleBuffered {buffered left : List UpdateBuffer}
    (handled : handleBuffered buffered c = .ok (left, c')) : Keeps c c' := by
  induction buffered generalizing c left with
  | nil =>
    rw [handleBuffered, Except.ok.injEq, Prod.mk.injEq] at handled
    rw [← handled.2]
    exact Keeps.refl c
  | cons uBuf rest induction =>
    rw [handleBuffered] at handled
    split at handled
    · split at handled
      · exact absurd handled (by simp)
      · next others =>
          rw [Except.ok.injEq, Prod.mk.injEq] at handled
          rw [handled.2] at others
          exact induction others
    · split at handled
      · exact absurd handled (by simp)
      · next updated =>
          split at handled
          · exact absurd handled (by simp)
          · next left' after others =>
              have same : after = c' := by
                split at handled <;>
                  exact (Prod.mk.inj (Except.ok.inj handled)).2
              rw [same] at others
              exact (keeps_handleUpdate updated).trans (induction others)

theorem keeps_pBarrierIn (handled : pBarrierIn c = .ok c') : Keeps c c' := by
  unfold pBarrierIn at handled
  have entered : Keeps c
      (if c.pmiRank = 0 then
        { c with gotBarrierIn := true, startDaisyBarrier := true }
      else { c with gotBarrierIn := true }) := by
    split
    · next isFirst =>
        exact ⟨rfl, rfl, rfl, rfl, fun before fine =>
          ⟨fun _ => isFirst, fine.first, fine.known, fine.toProvider, fine.toSucc⟩⟩
    · exact Keeps.of_same rfl rfl rfl rfl rfl rfl rfl rfl
  have checked := entered.trans (keeps_checkDaisyBarrier _)
  dsimp only at handled
  split at handled
  · exact absurd handled (by simp)
  · next left after updated =>
      rw [Except.ok.injEq] at handled
      rw [← handled]
      have done := checked.trans (keeps_handleBuffered updated)
      exact done.trans (Keeps.of_same rfl rfl rfl rfl rfl rfl rfl rfl)

theorem keeps_passUpdate (msg : Update) (c : Client) : Keeps c (passUpdate msg c) := by
  have buffered : Keeps c
      (if ¬ c.succReady ∨ ¬ c.gotBarrierIn then bufferCacheUpdate msg c
      else c) := by
    split
    · exact Keeps.of_same rfl rfl rfl rfl rfl rfl rfl rfl
    · exact Keeps.refl c
  unfold passUpdate
  dsimp only
  generalize (if ¬ c.succReady ∨ ¬ c.gotBarrierIn then bufferCacheUpdate msg c
    else c) = kept at buffered ⊢
  split
  · exact buffered.trans (keeps_sendKvstoSucc rfl (fun _ _ => trivial))
  · exact buffered

theorem keeps_handleKVScacheUpdate {msg : Update}
    (handled : handleKVScacheUpdate msg c = .ok c') : Keeps c c' := by
  have passed := keeps_passUpdate msg c
  unfold handleKVScacheUpdate at handled
  dsimp only at handled
  generalize passUpdate msg c = after at passed handled
  split at handled
  · exact absurd handled (by simp)
  · split at handled
    · exact absurd handled (by simp)
    · split at handled
      · exact passed.trans (keeps_handleUpdate handled)
      · rw [Except.ok.injEq] at handled
        rw [← handled]
        exact passed

theorem keeps_handleDaisyBarrierOut (c : Client) : Keeps c (handleDaisyBarrierOut c) := by
  have sent : Keeps c
      (if c.succtid ≠ Succ.provider then
        sendKvstoSucc (.forward .daisyBarrierOut) c
      else c) := by
    split
    · exact keeps_sendKvstoSucc rfl (fun _ _ => trivial)
    · exact Keeps.refl c
  exact sent.trans (Keeps.of_same rfl rfl rfl rfl rfl rfl rfl rfl)

theorem keeps_forwardBuffered (buffered : List UpdateBuffer) (c : Client) :
    Keeps c (forwardBuffered buffered c).2 := by
  induction buffered generalizing c with
  | nil => exact Keeps.refl c
  | cons uBuf rest induction =>
    rw [forwardBuffered]
    have sent : Keeps c
        (if c.succtid ≠ Succ.provider then
          sendKvstoSucc (.forward (.update uBuf.msg)) c
        else c) := by
      split
      · exact keeps_sendKvstoSucc rfl (fun _ _ => trivial)
      · exact Keeps.refl c
    split
    · exact induction c
    · dsimp only
      split <;> exact sent.trans (induction _)

theorem keeps_handleSuccReady (succtid : Succ) (c : Client) :
    Keeps c (handleSuccReady succtid c) := by
  have ready : Keeps c { c with succtid := succtid, succReady := true } :=
    Keeps.of_same rfl rfl rfl rfl rfl rfl rfl rfl
  have checked := ready.trans (keeps_checkDaisyBarrier _)
  unfold handleSuccReady
  dsimp only
  generalize checkDaisyBarrier { c with succtid := succtid, succReady := true } = after at checked ⊢
  have forwarded := keeps_forwardBuffered after.uBufferList after
  refine (checked.trans forwarded).trans ?_
  exact Keeps.of_same rfl rfl rfl rfl rfl rfl rfl rfl

/-! ## What a put does -/

/-- `kvs_set()` refuses the pair of a complete request if the space is not the
client's or the key holds an equals sign. -/
def PutFields.refused (myKVSname : CStr) (fields : PutFields) : Bool :=
  fields.complete && !(fields.kvsname = myKVSname && '=' ∉ fields.key)

theorem getpmiv_length {name vbuffer value : CStr} {vallen : Nat}
    (positive : 0 < vallen) (read : getpmiv name vbuffer vallen = .ok value) :
    value.length < vallen := by
  unfold getpmiv at read
  split at read
  · rw [← Except.ok.inj read]
    exact positive
  · dsimp only at read
    split at read
    · rw [← Except.ok.inj read]
      exact positive
    · split at read
      · exact absurd read (by simp)
      · rw [← Except.ok.inj read]
        omega

theorem putFields_length {msg : CStr} {fields : PutFields}
    (read : putFields msg = .ok fields) :
    fields.kvsname.length < pmiKvsnameMax ∧ fields.key.length < pmiKeylenMax ∧ fields.value.length <
      pmiVallenMax := by
  unfold putFields at read
  split at read
  · next kvsname key value =>
      rw [← Except.ok.inj read]
      exact ⟨getpmiv_length (by decide) kvsname,
        getpmiv_length (by decide) key, getpmiv_length (by decide) value⟩
  · exact absurd read (by simp)

def Joined (name : CStr) (c : Client) : Prop := c.kvs.map Space.name = [some name]

/-- A put is counted, and its message is sent unless it is refused. -/
structure Puts (before : Nat) (refused : Bool) (c c' : Client) : Prop where
  pmiRank : c'.pmiRank = c.pmiRank
  names : c'.kvs.map Space.name = c.kvs.map Space.name
  grows : c.putCount ≤ c'.putCount
  counts : c'.putCount + flying c.toProvider = c.putCount + flying c'.toProvider + refused.toNat
  fine : Fine before c → Fine before c'

theorem Keeps.puts_none (keeps : Keeps c c') (before : Nat) : Puts before false c c' where
  pmiRank := keeps.pmiRank
  names := keeps.names
  grows := Nat.le_of_eq keeps.putCount.symm
  counts := by
    have putCount := keeps.putCount
    have puts := keeps.puts
    rw [toNat_false]
    omega
  fine := keeps.fine before

theorem puts_pPut {name msg : CStr} (before : Nat) (joined : Joined name c)
    (put : pPut msg c = .ok c') :
    ∃ fields, putFields msg = .ok fields ∧ Puts before (fields.refused name) c c' := by
  unfold pPut at put
  split at put
  · exact absurd put (by simp)
  · next fields read =>
      refine ⟨fields, read, ?_⟩
      obtain ⟨kvsnameShort, keyShort, valueShort⟩ := putFields_length read
      have accepts := @kvsSet_isSome c.kvs _ _ _ (Nat.le_of_lt kvsnameShort)
        (Nat.le_of_lt keyShort) (Nat.le_of_lt valueShort)
      have names : c.kvs.map Space.name = [some name] := joined
      have known : Known c.kvs fields.kvsname ↔ fields.kvsname = name := by
        rw [known_iff_names, names]
        simp
      rw [known] at accepts
      have grown : Fine before c → Fine before { c with putCount := c.putCount + 1 } := by
        intro fine
        refine ⟨fine.starts, fine.first, fine.known, ?_, ?_⟩
        · intro msg member
          exact (fine.toProvider msg member).mono (by dsimp only; omega)
        · intro msg member
          exact (fine.toSucc msg member).mono (by dsimp only; omega)
      split at put
      · next incomplete =>
          have accepted : fields.refused name = false := by
            simp [PutFields.refused, incomplete]
          rw [← Except.ok.inj put, accepted]
          exact ⟨rfl, rfl, Nat.le_refl _, rfl, fun fine =>
            ⟨fine.starts, fine.first, fine.known, fine.toProvider, fine.toSucc⟩⟩
      · next complete =>
          have isComplete : fields.complete = true := by simpa using complete
          dsimp only at put
          split at put
          · next fails =>
              rw [fails] at accepts
              have refused : fields.refused name = true := by
                rw [PutFields.refused, isComplete]
                simpa [imp_iff_not_or] using accepts
              rw [← Except.ok.inj put, refused]
              refine ⟨rfl, rfl, Nat.le_succ _, ?_, fun fine => ?_⟩
              · simp only [pmiSend, toNat_true]
                omega
              · have more := grown fine
                exact ⟨more.starts, more.first, more.known, more.toProvider, more.toSucc⟩
          · next kvs stored =>
              rw [stored] at accepts
              have accepted : fields.refused name = false := by
                rw [PutFields.refused, isComplete]
                simpa using accepts
              rw [← Except.ok.inj put, accepted]
              refine ⟨rfl, kvsSet_names stored, Nat.le_succ _, ?_,
                fun fine => ?_⟩
              · simp only [pmiSend, sendKvstoProvider, flying,
                  List.countP_append, List.countP_singleton, KvsMsg.isPut,
                  if_true, toNat_false]
                omega
              · have more := grown fine
                exact ⟨more.starts, more.first, more.known,
                  forall_mem_snoc more.toProvider trivial, more.toSucc⟩

theorem puts_handleKVSMessage {msg : KvsMsg} {c c' : Client} {before : Nat}
    (chained : c.pmiRank = 0 → ∃ other, msg = .forward other)
    (within : msg.Within before) (handled : handleKVSMessage msg c = .ok c') :
    Puts before false c c' := by
  cases msg with
  | put key value => exact absurd handled (by simp [handleKVSMessage])
  | updateCacheFinish mc updateIndex => exact absurd handled (by simp [handleKVSMessage])
  | forward msg =>
    cases msg with
    | update update => exact (keeps_handleKVScacheUpdate handled).puts_none before
    | daisyBarrierOut =>
      rw [← Except.ok.inj handled]
      exact (keeps_handleDaisyBarrierOut c).puts_none before
  | daisyBarrierIn barrierCount globalPutCount =>
    have behind : c.pmiRank ≠ 0 := by
      intro isFirst
      obtain ⟨other, same⟩ := chained isFirst
      exact absurd same (by simp)
    rw [← Except.ok.inj handled]
    have keeps := (keeps_checkDaisyBarrier { c with
      barrierCount := barrierCount
      globalPutCount := globalPutCount
      gotDaisyBarrierIn := true }).puts_none before
    refine ⟨keeps.pmiRank, keeps.names, keeps.grows, keeps.counts,
      fun fine => keeps.fine ?_⟩
    exact ⟨fine.starts, fun isFirst => absurd isFirst behind,
      fun _ => within, fine.toProvider, fine.toSucc⟩

end Psmgmt.Pmi
