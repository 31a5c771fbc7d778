import Psmgmt.Library.Counting
import Psmgmt.Pmi.ProviderPuts

/-!
# Counting puts

The clients of a job, chained one after the other, and the provider: whether
the puts counted by the clients are those the provider has counted.
-/

namespace Psmgmt.Pmi

open List Function

/-- Clients are numbered by their ranks; the first one has taken so many
messages of the provider. -/
structure System where
  provider : Provider
  clients : Nat → Client
  taken : Nat

inductive Event where
  | put (rank : Nat) (msg : CStr)
  | barrierIn (rank : Nat)
  /-- The provider learns of the first client. -/
  | join
  /-- A client learns that its successor is ready. -/
  | succReady (rank : Nat)
  /-- The first client takes the next message of the provider. -/
  | receiveFirst
  /-- The client behind this one takes its next message. -/
  | receiveNext (rank : Nat)
  /-- The provider takes the next message of a client. -/
  | provide (rank : Nat)
  deriving DecidableEq, Repr

def System.setClient (rank : Nat) (c : Client) (s : System) : System :=
  { s with clients := update s.clients rank c }

/-- What follows the client in the chain. -/
def System.succ (rank : Nat) (s : System) : Succ :=
  if rank + 1 = s.provider.maxClients then .provider else .client

def receiveFirst (s : System) : Except Halt System :=
  match s.provider.sent[s.taken]? with
  | none => .ok s
  | some msg =>
    (handleKVSMessage (.forward msg) (s.clients 0)).map (fun c =>
      { s.setClient 0 c with taken := s.taken + 1 })

/-- The client behind this one takes its message. -/
def receiveNext (rank : Nat) (s : System) : Except Halt System :=
  match (s.clients rank).toSucc with
  | [] => .ok s
  | msg :: rest =>
    let s := s.setClient rank { s.clients rank with toSucc := rest }
    (handleKVSMessage msg (s.clients (rank + 1))).map (fun c => s.setClient (rank + 1) c)

/-- The provider takes a message. -/
def provide (rank : Nat) (s : System) : Except Halt System :=
  match (s.clients rank).toProvider with
  | [] => .ok s
  | msg :: rest =>
    (handleKvsMsg rank msg s.provider).map (fun p =>
      { s.setClient rank { s.clients rank with toProvider := rest } with
        provider := p })

def step (event : Event) (s : System) : Except Halt System :=
  match event with
  | .put rank msg =>
    if rank < s.provider.maxClients then
      (pPut msg (s.clients rank)).map (fun c => s.setClient rank c)
    else .ok s
  | .barrierIn rank =>
    if rank < s.provider.maxClients then
      (pBarrierIn (s.clients rank)).map (fun c => s.setClient rank c)
    else .ok s
  | .join => .ok { s with provider := { s.provider with firstJoined := true } }
  | .succReady rank =>
    if rank < s.provider.maxClients then
      .ok (s.setClient rank (handleSuccReady (s.succ rank) (s.clients rank)))
    else .ok s
  | .receiveFirst => if 0 < s.provider.maxClients then receiveFirst s else .ok s
  | .receiveNext rank => if rank + 1 < s.provider.maxClients then receiveNext rank s else .ok s
  | .provide rank => if rank < s.provider.maxClients then provide rank s else .ok s

def run : List Event → System → Except Halt System
  | [], s => .ok s
  | event :: rest, s =>
    match step event s with
    | .error halt => .error halt
    | .ok s => run rest s

/-! ## What is counted -/

def System.before (s : System) (rank : Nat) : Nat := ∑ j ∈ Finset.range rank, (s.clients j).putCount

/-- The sum of all clients' `putCount`. -/
def System.total (s : System) : Nat := s.before s.provider.maxClients

/-- The `PUT` messages in flight. -/
def System.inFlight (s : System) : Nat :=
  ∑ j ∈ Finset.range s.provider.maxClients, flying (s.clients j).toProvider

/-- A put that is counted but refused. -/
def Event.refused (name : CStr) (maxClients : Nat) : Event → Bool
  | .put rank msg =>
    match putFields msg with
    | .ok fields => decide (rank < maxClients) && fields.refused name
    | .error _ => false
  | _ => false

/-- The number of refused puts. -/
def refusals (name : CStr) (maxClients : Nat) (events : List Event) : Nat :=
  events.countP (Event.refused name maxClients)

/-- The clients know their places and not too much of each other's puts. -/
structure Chained (name : CStr) (s : System) : Prop where
  rank : ∀ rank, (s.clients rank).pmiRank = rank
  joined : ∀ rank, Joined name (s.clients rank)
  fine : ∀ rank, Fine (s.before rank) (s.clients rank)

structure Sound (name : CStr) (refused : Nat) (s : System) : Prop extends
    Chained name s where
  counts : s.total = s.provider.putCount + s.inFlight + refused
  waits : s.provider.waitForPuts ≤ s.total

theorem map_ok {α β : Type} {f : α → β} {result : Except Halt α} {value : β}
    (mapped : result.map f = .ok value) :
    ∃ a, result = .ok a ∧ f a = value := by
  cases result with
  | error halt => simp [Except.map] at mapped
  | ok a => exact ⟨a, rfl, Except.ok.inj mapped⟩

variable {s' : System} {rank : Nat}

section Changes

variable {name : CStr} {refused : Nat} {s : System}

theorem before_mono (grows : ∀ rank, (s.clients rank).putCount ≤ (s'.clients rank).putCount)
    (rank : Nat) : s.before rank ≤ s'.before rank :=
  Finset.sum_le_sum (fun j _ => grows j)

theorem before_succ (s : System) (rank : Nat) :
    s.before (rank + 1) = s.before rank + (s.clients rank).putCount :=
  Finset.sum_range_succ _ _

theorem before_le_total (inside : rank < s.provider.maxClients) : s.before (rank + 1) ≤ s.total :=
  Finset.sum_le_sum_of_subset (Finset.range_subset_range.mpr inside)

theorem sum_setClient (count : Client → Nat) {number : Nat}
    (inside : rank < number) (c : Client) :
    (∑ j ∈ Finset.range number, count ((s.setClient rank c).clients j)) + count (s.clients rank) =
      (∑ j ∈ Finset.range number, count (s.clients j)) + count c := by
  have changed := Counting.sum_update (fun j => count (s.clients j)) inside (count c)
  have same : (fun j => count ((s.setClient rank c).clients j)) =
      update (fun j => count (s.clients j)) rank (count c) := by
    funext j
    simp only [System.setClient, update_apply]
    split <;> rfl
  rw [same]
  exact changed

theorem setClient_clients (rank : Nat) (c : Client) (j : Nat) :
    (s.setClient rank c).clients j = if j = rank then c else s.clients j := by
  simp [System.setClient, update_apply]

theorem setClient_grows {c : Client}
    (grows : (s.clients rank).putCount ≤ c.putCount) (j : Nat) :
    (s.clients j).putCount ≤ ((s.setClient rank c).clients j).putCount := by
  rw [setClient_clients]
  split
  · next same =>
    rw [same]
    exact grows
  · exact Nat.le_refl _

theorem Chained.client (chained : Chained name s) {rank : Nat} {c : Client}
    (pmiRank : c.pmiRank = (s.clients rank).pmiRank)
    (names : c.kvs.map Space.name = (s.clients rank).kvs.map Space.name)
    (grows : (s.clients rank).putCount ≤ c.putCount)
    (fine : Fine (s.before rank) c) : Chained name (s.setClient rank c) where
  rank := by
    intro j
    rw [setClient_clients]
    split
    · next same => rw [pmiRank, same, chained.rank rank]
    · exact chained.rank j
  joined := by
    intro j
    rw [setClient_clients]
    split
    · exact names.trans (chained.joined rank)
    · exact chained.joined j
  fine := by
    intro j
    have more := before_mono (setClient_grows grows) j
    rw [setClient_clients]
    split
    · next same =>
      rw [same] at more ⊢
      exact fine.mono more
    · exact (chained.fine j).mono more

section

variable (sound : Sound name refused s)

include sound

theorem Sound.client {rank : Nat} (inside : rank < s.provider.maxClients) {more : Bool} {c : Client}
    (changed : Puts (s.before rank) more (s.clients rank) c) :
    Sound name (refused + more.toNat) (s.setClient rank c) := by
  have sums := sum_setClient (s := s) Client.putCount inside c
  have flights := sum_setClient (s := s) (fun c => flying c.toProvider) inside c
  have number : (s.setClient rank c).provider = s.provider := rfl
  refine ⟨sound.toChained.client changed.pmiRank changed.names changed.grows
    (changed.fine (sound.fine rank)), ?_, ?_⟩
  · have counts := sound.counts
    have change := changed.counts
    simp only [System.total, System.before, System.inFlight] at counts ⊢
    rw [number]
    omega
  · exact sound.waits.trans (before_mono (setClient_grows changed.grows) _)

theorem Sound.keeps {rank : Nat} (inside : rank < s.provider.maxClients)
    {c : Client} (keeps : Keeps (s.clients rank) c) :
    Sound name refused (s.setClient rank c) :=
  sound.client inside (keeps.puts_none (s.before rank))

theorem Sound.receiveFirst (inside : 0 < s.provider.maxClients)
    (received : receiveFirst s = .ok s') : Sound name refused s' := by
  unfold Pmi.receiveFirst at received
  split at received
  · rw [← Except.ok.inj received]
    exact sound
  · next msg next =>
    obtain ⟨c, handled, rfl⟩ := map_ok received
    have changed := @puts_handleKVSMessage _ _ _ (s.before 0) (fun _ => ⟨msg, rfl⟩) trivial handled
    have after := sound.client inside changed
    exact ⟨⟨after.rank, after.joined, after.fine⟩, after.counts, after.waits⟩

theorem Sound.receiveNext (inside : rank + 1 < s.provider.maxClients)
    (received : receiveNext rank s = .ok s') : Sound name refused s' := by
  unfold Pmi.receiveNext at received
  split at received
  · rw [← Except.ok.inj received]
    exact sound
  · next msg rest queue =>
    have popped : Keeps (s.clients rank) { s.clients rank with toSucc := rest } :=
      ⟨rfl, rfl, rfl, rfl, fun before fine =>
        ⟨fine.starts, fine.first, fine.known, fine.toProvider,
          fun other member => fine.toSucc other (by simp [queue, member])⟩⟩
    have after := @Sound.keeps _ _ _ sound rank (by omega) _ popped
    have within := (sound.fine rank).toSucc msg (by simp [queue])
    have bound := before_mono (setClient_grows (s := s)
      (Nat.le_of_eq popped.putCount.symm)) (rank + 1)
    rw [← before_succ] at within
    obtain ⟨c, handled, rfl⟩ := map_ok received
    have changed := puts_handleKVSMessage (fun isFirst => absurd
      ((after.rank (rank + 1)).symm.trans isFirst) (by omega))
      (within.mono bound) handled
    exact after.client inside changed

theorem Sound.provide (inside : rank < s.provider.maxClients)
    (provided : provide rank s = .ok s') : Sound name refused s' := by
  unfold Pmi.provide at provided
  split at provided
  · rw [← Except.ok.inj provided]
    exact sound
  · next msg rest queue =>
    obtain ⟨p, handled, rfl⟩ := map_ok provided
    have counted := counts_handleKvsMsg handled
    have within := (sound.fine rank).toProvider msg (by simp [queue])
    rw [← before_succ] at within
    have sums := sum_setClient (s := s) Client.putCount inside
      { s.clients rank with toProvider := rest }
    have flights := sum_setClient (s := s) (fun c => flying c.toProvider)
      inside { s.clients rank with toProvider := rest }
    have number : p.maxClients = s.provider.maxClients := counted.maxClients
    have fine := sound.fine rank
    have after := @Chained.client _ _ sound.toChained rank
      { s.clients rank with toProvider := rest } rfl rfl (Nat.le_refl _)
      ⟨fine.starts, fine.first, fine.known,
        fun other member => fine.toProvider other (by simp [queue, member]),
        fine.toSucc⟩
    have counts := sound.counts
    have waits := counted.waits s.total sound.waits (within.mono (before_le_total inside))
    have putCount := counted.putCount
    have length : flying (s.clients rank).toProvider = flying rest + msg.isPut.toNat := by
      rw [queue, flying, countP_cons]
      cases msg.isPut <;> rfl
    have total : { s.setClient rank { s.clients rank with toProvider := rest }
        with provider := p }.total = s.total := by
      simp only [System.total, System.before, number]
      exact Nat.add_right_cancel sums
    have inFlight : { s.setClient rank { s.clients rank with toProvider := rest }
        with provider := p }.inFlight + msg.isPut.toNat = s.inFlight := by
      simp only [System.inFlight, number]
      dsimp only at flights
      omega
    refine ⟨⟨after.rank, after.joined, after.fine⟩, ?_, ?_⟩
    · rw [total]
      change s.total = p.putCount + _ + refused
      omega
    · rw [total]
      exact waits

end

/-- A step keeps the counts; a refused put is one more. -/
theorem Sound.step {event : Event} (sound : Sound name refused s)
    (stepped : step event s = .ok s') :
    Sound name (refused + (event.refused name s.provider.maxClients).toNat) s' := by
  cases event with
  | put rank msg =>
    simp only [Pmi.step] at stepped
    split at stepped
    · next inside =>
      obtain ⟨c, put, rfl⟩ := map_ok stepped
      obtain ⟨fields, read, changed⟩ := puts_pPut (s.before rank) (sound.joined rank) put
      simpa [Event.refused, read, inside] using sound.client inside changed
    · next outside =>
      have none : (Event.put rank msg).refused name s.provider.maxClients =
          false := by
        simp only [Event.refused, outside]
        split <;> simp
      rw [none, ← Except.ok.inj stepped]
      exact sound
  | barrierIn rank =>
    simp only [Pmi.step] at stepped
    split at stepped
    · next inside =>
      obtain ⟨c, entered, rfl⟩ := map_ok stepped
      exact sound.keeps inside (keeps_pBarrierIn entered)
    · rw [← Except.ok.inj stepped]
      exact sound
  | join =>
    rw [← Except.ok.inj stepped]
    exact ⟨⟨sound.rank, sound.joined, sound.fine⟩, sound.counts, sound.waits⟩
  | succReady rank =>
    simp only [Pmi.step] at stepped
    split at stepped
    · next inside =>
      rw [← Except.ok.inj stepped]
      exact sound.keeps inside (keeps_handleSuccReady _ _)
    · rw [← Except.ok.inj stepped]
      exact sound
  | receiveFirst =>
    simp only [Pmi.step] at stepped
    split at stepped
    · next inside => exact sound.receiveFirst inside stepped
    · rw [← Except.ok.inj stepped]
      exact sound
  | receiveNext rank =>
    simp only [Pmi.step] at stepped
    split at stepped
    · next inside => exact sound.receiveNext inside stepped
    · rw [← Except.ok.inj stepped]
      exact sound
  | provide rank =>
    simp only [Pmi.step] at stepped
    split at stepped
    · next inside => exact sound.provide inside stepped
    · rw [← Except.ok.inj stepped]
      exact sound

/-- The number of clients stays. -/
theorem maxClients_step {event : Event} (stepped : step event s = .ok s') :
    s'.provider.maxClients = s.provider.maxClients := by
  cases event with
  | join => rw [← Except.ok.inj stepped]
  | receiveFirst =>
    simp only [Pmi.step, receiveFirst] at stepped
    split at stepped
    · split at stepped
      · rw [← Except.ok.inj stepped]
      · obtain ⟨c, _, rfl⟩ := map_ok stepped
        rfl
    · rw [← Except.ok.inj stepped]
  | receiveNext rank =>
    simp only [Pmi.step, receiveNext] at stepped
    split at stepped
    · split at stepped
      · rw [← Except.ok.inj stepped]
      · obtain ⟨c, _, rfl⟩ := map_ok stepped
        rfl
    · rw [← Except.ok.inj stepped]
  | provide rank =>
    simp only [Pmi.step, provide] at stepped
    split at stepped
    · split at stepped
      · rw [← Except.ok.inj stepped]
      · obtain ⟨p, handled, rfl⟩ := map_ok stepped
        exact (counts_handleKvsMsg handled).maxClients
    · rw [← Except.ok.inj stepped]
  | succReady rank =>
    simp only [Pmi.step] at stepped
    split at stepped <;> rw [← Except.ok.inj stepped] <;> rfl
  | put rank msg =>
    simp only [Pmi.step] at stepped
    split at stepped
    · obtain ⟨c, _, rfl⟩ := map_ok stepped
      rfl
    · rw [← Except.ok.inj stepped]
  | barrierIn rank =>
    simp only [Pmi.step] at stepped
    split at stepped
    · obtain ⟨c, _, rfl⟩ := map_ok stepped
      rfl
    · rw [← Except.ok.inj stepped]

end Changes

/-! ## Runs -/

theorem Sound.run {name : CStr} {refused : Nat} {s : System} {events : List Event}
    (sound : Sound name refused s) (ran : run events s = .ok s') :
    Sound name (refused + refusals name s.provider.maxClients events) s' := by
  induction events generalizing s refused with
  | nil =>
    rw [← Except.ok.inj ran]
    exact sound
  | cons event rest induction =>
    rw [Pmi.run] at ran
    split at ran
    · exact absurd ran (by simp)
    · next next stepped =>
      have later := induction (sound.step stepped) ran
      rw [maxClients_step stepped] at later
      have counted : refusals name s.provider.maxClients (event :: rest) =
          refusals name s.provider.maxClients rest +
            (event.refused name s.provider.maxClients).toNat := by
        rw [refusals, countP_cons]
        cases event.refused name s.provider.maxClients <;> rfl
      rw [counted, Nat.add_comm (refusals _ _ _), ← Nat.add_assoc]
      exact later

/-- No client has put anything or entered a barrier yet, and the only space of
each is the job's. -/
structure Start (name : CStr) (s : System) : Prop where
  rank : ∀ rank, (s.clients rank).pmiRank = rank
  joined : ∀ rank, Joined name (s.clients rank)
  outside : ∀ rank, (s.clients rank).startDaisyBarrier = false ∧
    (s.clients rank).gotDaisyBarrierIn = false
  putCount : ∀ rank, (s.clients rank).putCount = 0
  silent : ∀ rank, (s.clients rank).toProvider = [] ∧ (s.clients rank).toSucc = []
  provider : s.provider.putCount = 0 ∧ s.provider.waitForPuts = 0

theorem Start.sound {name : CStr} {s : System} (start : Start name s) : Sound name 0 s := by
  have none : ∀ rank, s.before rank = 0 := by
    intro rank
    simp [System.before, start.putCount]
  refine ⟨⟨start.rank, start.joined, fun rank => ?_⟩, ?_, ?_⟩
  · exact ⟨by simp [(start.outside rank).1],
      fun _ => (start.outside rank).2, by simp [(start.outside rank).2],
      by simp [(start.silent rank).1], by simp [(start.silent rank).2]⟩
  · simp [System.total, System.inFlight, none, start.provider.1,
      fun rank => (start.silent rank).1, flying]
  · rw [start.provider.2]
    exact Nat.zero_le _

/-- A put that a client has counted was counted by the provider, is in flight or
was refused, and the provider waits for no others. -/
theorem total_eq_sum {name : CStr} {s s' : System} {events : List Event} (start : Start name s)
    (ran : run events s = .ok s') :
    s'.total = s'.provider.putCount + s'.inFlight + refusals name s.provider.maxClients events ∧
      s'.provider.waitForPuts ≤ s'.total := by
  have sound := start.sound.run ran
  rw [Nat.zero_add] at sound
  exact ⟨sound.counts, sound.waits⟩

/-- Whenever no `PUT` is in flight, the clients have counted as many puts as
the provider if and only if none of the puts so far was refused; and if none
was, the provider never waits for a put that was not sent. -/
theorem total_eq_putCount_iff {name : CStr} {s s' : System} {events : List Event}
    (start : Start name s) (ran : run events s = .ok s') :
    (s'.inFlight = 0 →
      (s'.total = s'.provider.putCount ↔
        ∀ event ∈ events, event.refused name s.provider.maxClients = false)) ∧
    ((∀ event ∈ events, event.refused name s.provider.maxClients = false) →
      s'.provider.waitForPuts ≤ s'.provider.putCount + s'.inFlight) := by
  have sound := start.sound.run ran
  have counts := sound.counts
  have waits := sound.waits
  have accepted : refusals name s.provider.maxClients events = 0 ↔
      ∀ event ∈ events, event.refused name s.provider.maxClients = false := by
    simp [refusals, countP_eq_zero]
  constructor
  · intro landed
    rw [← accepted]
    omega
  · intro all
    have none := accepted.mpr all
    omega

/-! ## A job of one client -/

def aloneProvider : Provider where
  kvsname := ['k']
  kvs := [⟨some ['k'], []⟩]
  maxClients := 1
  firstJoined := true
  putCount := 0
  waitForPuts := 0
  kvsUpdateCache := fun _ => none
  kvsCacheSize := 11
  nextCacheEntry := 0
  kvsUpdateLen := 0
  nextUpdateField := 0
  kvsUpdateTrack := fun _ => 0
  sent := []
  freed := []

def aloneClient (rank : Nat) : Client where
  pmiRank := rank
  myKVSname := ['k']
  kvs := [⟨some ['k'], []⟩]
  succtid := .unknown
  succReady := false
  gotBarrierIn := false
  gotDaisyBarrierIn := false
  startDaisyBarrier := false
  putCount := 0
  barrierCount := 0
  globalPutCount := 0
  updateMsgCount := 0
  uBufferList := []
  toProvider := []
  toSucc := []
  replies := []

def alone : System := ⟨aloneProvider, aloneClient, 0⟩

theorem alone_start : Start ['k'] alone where
  rank := fun _ => rfl
  joined := fun _ => rfl
  outside := fun _ => ⟨rfl, rfl⟩
  putCount := fun _ => rfl
  silent := fun _ => ⟨rfl, rfl⟩
  provider := ⟨rfl, rfl⟩

/-- The client puts into a space that does not exist and enters a barrier: the
provider waits for a put although none was ever sent. -/
theorem not_total_eq_putCount :
    ∃ s, run [.succReady 0,
        .put 0 "cmd=put kvsname=x key=a value=b\n".toList,
        .barrierIn 0, .provide 0] alone = .ok s ∧
      s.inFlight = 0 ∧ s.total ≠ s.provider.putCount ∧
      ¬ s.provider.waitForPuts ≤ s.provider.putCount + s.inFlight := by
  refine ⟨_, rfl, ?_, ?_, ?_⟩ <;> decide +kernel

/-- A put that is accepted and arrives. -/
def landed : List Event :=
  [.succReady 0, .put 0 "cmd=put kvsname=k key=a value=b\n".toList, .provide 0]

theorem total_eq_putCount_alone :
    ∃ s, run landed alone = .ok s ∧ s.total = s.provider.putCount ∧ s.total = 1 := by
  refine ⟨_, rfl, ?_, ?_⟩
  · refine ((@total_eq_putCount_iff ['k'] alone _ landed alone_start rfl).1
      ?_).mpr ?_ <;> decide +kernel
  · decide +kernel

theorem total_eq_sum_alone : ∃ s, run landed alone = .ok s ∧
    s.total = s.provider.putCount + s.inFlight + refusals ['k'] 1 landed ∧
      s.provider.waitForPuts ≤ s.total :=
  ⟨_, rfl, total_eq_sum alone_start rfl⟩

end Psmgmt.Pmi
