import Psmgmt.Pmi.ClientBarrier

/-!
# Puts and barriers at the provider

The provider's handlers for the messages of the clients (`providerloop.c`).
-/

namespace Psmgmt.Pmi

open Function

def growKvsUpdateCache (minSize : Nat) (p : Provider) : Provider :=
  let newSize := max (p.kvsCacheSize + p.maxClients) minSize
  { p with
    kvsUpdateCache := fun i => if p.kvsCacheSize ≤ i ∧ i < newSize then none else p.kvsUpdateCache i
    kvsCacheSize := newSize }

/-- Send updates; no more messages are needed than there are entries. -/
def sendUpdates (finish : Bool) (p : Provider) : Except Halt Provider :=
  match sendKvsUpdateToClients finish p.nextCacheEntry p with
  | .error stop => .error (.stop stop)
  | .ok p => .ok p

/-- Add a pair to the send-cache. -/
def addToCache (kvsStr : CStr) (p : Provider) : Provider :=
  let p :=
    if p.nextCacheEntry ≥ p.kvsCacheSize then growKvsUpdateCache 0 p else p
  { p with
    kvsUpdateCache := update p.kvsUpdateCache p.nextCacheEntry (some kvsStr)
    nextCacheEntry := p.nextCacheEntry + 1
    kvsUpdateLen := p.kvsUpdateLen + (kvsStr.length + 1) + 1 }

/-- A string too long for its buffer is not read, but not refused. -/
def handleKVSPut (key value : CStr) (p : Provider) : Except Halt Provider :=
  if key.length + 1 > pmiKeylenMax ∨ value.length + 1 > pmiVallenMax then
    .error .undefined
  else if key.length < 1 ∨ value.length < 1 then .error (.stop .terminateJob)
  else
    match kvsSet p.kvs p.kvsname key value with
    | none => .error (.stop .terminateJob)
    | some kvs =>
      let p := addToCache (key ++ '=' :: value) { p with kvs := kvs, putCount := p.putCount + 1 }
      if p.firstJoined then
        if p.waitForPuts ≠ 0 ∧ p.waitForPuts = p.putCount then
          sendUpdates true { p with waitForPuts := 0 }
        else if p.kvsUpdateLen + 2 ≥ pmiUpdatePayload then sendUpdates false p
        else .ok p
      else .ok p

def handleKVSDaisyBarrierIn (pmiRank barrierCount globalPutCount : Nat)
    (p : Provider) : Except Halt Provider :=
  if pmiRank + 1 ≠ p.maxClients then .error (.stop .terminateJob)
  else if barrierCount ≠ p.maxClients then .error (.stop .terminateJob)
  else if p.putCount ≠ globalPutCount then
    .ok { p with waitForPuts := globalPutCount }
  else if (p.kvsUpdateCache 0).isSome then sendUpdates true p
  else .ok (sendMsgToKvsSucc .daisyBarrierOut p)

def handleKVSUpdateCacheFinish (pmiRank mc updateIndex : Nat) (p : Provider) :
    Except Halt Provider :=
  if updateIndex > kvsUpdateFields - 1 then .error (.stop .terminateJob)
  else if pmiRank + 1 ≠ p.maxClients then .error (.stop .terminateJob)
  else if mc ≠ p.kvsUpdateTrack updateIndex then .error (.stop .terminateJob)
  else
    .ok { p with
      kvsUpdateTrack := update p.kvsUpdateTrack updateIndex 0 }

/-- `handleKvsMsg()` for what a client sends. -/
def handleKvsMsg (pmiRank : Nat) (msg : KvsMsg) (p : Provider) : Except Halt Provider :=
  match msg with
  | .put key value => handleKVSPut key value p
  | .daisyBarrierIn barrierCount globalPutCount =>
    handleKVSDaisyBarrierIn pmiRank barrierCount globalPutCount p
  | .updateCacheFinish mc updateIndex => handleKVSUpdateCacheFinish pmiRank mc updateIndex p
  | .forward _ => .error (.stop .terminateJob)

/-! ## What the handlers count -/

structure Uncounted (p p' : Provider) : Prop where
  putCount : p'.putCount = p.putCount
  waitForPuts : p'.waitForPuts = p.waitForPuts
  maxClients : p'.maxClients = p.maxClients

theorem uncounted_sendMsgToKvsSucc (msg : Message) (p : Provider) :
    Uncounted p (sendMsgToKvsSucc msg p) := by
  unfold sendMsgToKvsSucc
  split <;> exact ⟨rfl, rfl, rfl⟩

variable {p p' : Provider}

theorem uncounted_sendLoop {finish : Bool} {fuel ent ent' : Nat}
    (sent : sendLoop finish fuel ent p = .ok (ent', p')) : Uncounted p p' := by
  induction fuel generalizing ent p with
  | zero =>
    rw [sendLoop] at sent
    split at sent
    · exact absurd sent (by simp)
    · rw [← (Prod.mk.inj (Except.ok.inj sent)).2]
      exact ⟨rfl, rfl, rfl⟩
  | succ fuel induction =>
    rw [sendLoop] at sent
    split at sent
    · dsimp only at sent
      split at sent
      · exact absurd sent (by simp)
      · have later := induction sent
        obtain ⟨putCount, waitForPuts, maxClients⟩ := uncounted_sendMsgToKvsSucc _ _
        exact ⟨later.putCount.trans putCount,
          later.waitForPuts.trans waitForPuts,
          later.maxClients.trans maxClients⟩
    · rw [← (Prod.mk.inj (Except.ok.inj sent)).2]
      exact ⟨rfl, rfl, rfl⟩

theorem uncounted_sendUpdates {finish : Bool}
    (sent : sendUpdates finish p = .ok p') : Uncounted p p' := by
  unfold sendUpdates at sent
  split at sent
  · exact absurd sent (by simp)
  · next after stopped =>
      rw [← Except.ok.inj sent]
      unfold sendKvsUpdateToClients at stopped
      split at stopped
      · exact absurd stopped (by simp)
      · next ent looped loop =>
          have same := uncounted_sendLoop loop
          rw [← Except.ok.inj stopped]
          exact ⟨same.putCount, same.waitForPuts, same.maxClients⟩

theorem addToCache_same (kvsStr : CStr) (p : Provider) : Uncounted p (addToCache kvsStr p) := by
  unfold addToCache
  dsimp only
  split <;> exact ⟨rfl, rfl, rfl⟩

/-- How a message changes what the provider has counted and waits for. -/
structure Counts (msg : KvsMsg) (p p' : Provider) : Prop where
  maxClients : p'.maxClients = p.maxClients
  putCount : p'.putCount = p.putCount + msg.isPut.toNat
  waits : ∀ bound, p.waitForPuts ≤ bound → msg.Within bound → p'.waitForPuts ≤ bound

theorem Uncounted.counts {msg : KvsMsg} (same : Uncounted p p')
    (isOther : msg.isPut = false) :
    Counts msg p p' where
  maxClients := same.maxClients
  putCount := by rw [same.putCount, isOther]; rfl
  waits := fun bound small _ => by rw [same.waitForPuts]; exact small

theorem counts_handleKVSPut {key value : CStr}
    (handled : handleKVSPut key value p = .ok p') :
    Counts (.put key value) p p' := by
  unfold handleKVSPut at handled
  split at handled
  · exact absurd handled (by simp)
  · split at handled
    · exact absurd handled (by simp)
    · split at handled
      · exact absurd handled (by simp)
      · next kvs stored =>
          have added := addToCache_same (key ++ '=' :: value)
            { p with kvs := kvs, putCount := p.putCount + 1 }
          dsimp only at handled
          generalize addToCache (key ++ '=' :: value)
            { p with kvs := kvs, putCount := p.putCount + 1 } = after
            at added handled
          -- updates may be sent, and the provider may stop waiting
          have shape : p'.maxClients = after.maxClients ∧ p'.putCount = after.putCount ∧
              p'.waitForPuts ≤ after.waitForPuts := by
            split at handled
            · split at handled
              · have sent := uncounted_sendUpdates handled
                exact ⟨sent.maxClients, sent.putCount,
                  by rw [sent.waitForPuts]; exact Nat.zero_le _⟩
              · split at handled
                · have sent := uncounted_sendUpdates handled
                  exact ⟨sent.maxClients, sent.putCount, Nat.le_of_eq sent.waitForPuts⟩
                · rw [← Except.ok.inj handled]
                  exact ⟨rfl, rfl, Nat.le_refl _⟩
            · rw [← Except.ok.inj handled]
              exact ⟨rfl, rfl, Nat.le_refl _⟩
          refine ⟨shape.1.trans added.maxClients,
            shape.2.1.trans added.putCount, fun bound small _ => ?_⟩
          have least := shape.2.2
          have same : after.waitForPuts = p.waitForPuts := added.waitForPuts
          omega

theorem counts_handleKvsMsg {pmiRank : Nat} {msg : KvsMsg}
    (handled : handleKvsMsg pmiRank msg p = .ok p') : Counts msg p p' := by
  cases msg with
  | put key value => exact counts_handleKVSPut handled
  | forward msg => exact absurd handled (by simp [handleKvsMsg])
  | daisyBarrierIn barrierCount globalPutCount =>
    unfold handleKvsMsg handleKVSDaisyBarrierIn at handled
    dsimp only at handled
    split at handled
    · exact absurd handled (by simp)
    · split at handled
      · exact absurd handled (by simp)
      · split at handled
        · rw [← Except.ok.inj handled]
          exact ⟨rfl, rfl, fun bound _ within => within⟩
        · split at handled
          · exact (uncounted_sendUpdates handled).counts rfl
          · rw [← Except.ok.inj handled]
            exact (uncounted_sendMsgToKvsSucc _ p).counts rfl
  | updateCacheFinish mc updateIndex =>
    unfold handleKvsMsg handleKVSUpdateCacheFinish at handled
    dsimp only at handled
    split at handled
    · exact absurd handled (by simp)
    · split at handled
      · exact absurd handled (by simp)
      · split at handled
        · exact absurd handled (by simp)
        · rw [← Except.ok.inj handled]
          exact ⟨rfl, rfl, fun bound small _ => small⟩

end Psmgmt.Pmi
