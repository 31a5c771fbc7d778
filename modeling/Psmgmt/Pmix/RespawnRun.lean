import Psmgmt.Pmix.Respawn
import Psmgmt.Library.Snoc

/-!
# Answers to spawns

A spawn stays open as long as its response or an info of it is under way.  The
message that makes it fail, or the last one of a spawn that does not, takes it off
the list and answers it.
-/

namespace Psmgmt.Pmix.Respawn

open List

/-! ## Messages of a spawn -/

/-- The messages of a call that are under way. -/
def pending (wires : List Wire) (sdata : Nat) : List Msg :=
  (wires.filter fun wire => wire.sdata = sdata).map Wire.msg

theorem total_cons (msg : Msg) (msgs : List Msg) :
    total (msg :: msgs) = readyOf msg + total msgs := rfl

theorem total_snoc (msgs : List Msg) (msg : Msg) :
    total (msgs ++ [msg]) = total msgs + readyOf msg := by
  simp [total]

theorem total_perm {left right : List Msg} (perm : left.Perm right) : total left = total right :=
  (perm.map readyOf).sum_eq

variable {wires : List Wire} {wire : Wire} {sdata np : Nat} {msg : Msg}
  {spawn : Spawn} {pend heard rest : List Msg} {service : Service}

theorem pending_erase (member : wire ∈ wires) :
    (pending wires wire.sdata).Perm (wire.msg :: pending (wires.erase wire) wire.sdata) := by
  have perm := ((perm_cons_erase member).filter
    fun other => other.sdata = wire.sdata).map Wire.msg
  rwa [filter_cons_of_pos (by simp), map_cons] at perm

theorem pending_other (wires : List Wire) (other : sdata ≠ wire.sdata) :
    pending (wires.erase wire) sdata = pending wires sdata := by
  unfold pending
  congr 1
  induction wires with
  | nil => rfl
  | cons head wires induction =>
    by_cases same : head = wire
    · rw [same, erase_cons_head, filter_cons_of_neg]
      simpa using Ne.symm other
    · rw [erase_cons_tail (by simpa using same), filter_cons, filter_cons, induction]

theorem mem_pending :
    msg ∈ pending wires sdata ↔ ∃ wire ∈ wires, wire.sdata = sdata ∧ wire.msg = msg := by
  simp [pending, and_assoc]

/-! ## The progress of a spawn -/

inductive Phase (spawn : Spawn) (pend heard : List Msg) : Prop where
  | waiting (state : spawn.state = .initialized ∨ spawn.state = .requested)
      (response : pend.countP isResponse = 1) (part : spawn.ready < spawn.np)
  | inProgress (state : spawn.state = .inProgress) (answered : pend.countP isResponse = 0)
      (success : .response true ∈ heard) (part : spawn.ready < spawn.np)
  | allSuccess (state : spawn.state = .allSuccess)
      (response : pend.countP isResponse = 1) (all : spawn.ready = spawn.np)

/-- What is known of an open spawn of `np` processes. -/
structure Progress (np : Nat) (spawn : Spawn) (pend heard : List Msg) :
    Prop where
  size_eq : spawn.np = np
  ready : spawn.ready = total heard
  bounded : total heard + total pend ≤ np
  small : np < 2 ^ 32
  clean : ∀ msg ∈ heard, isFailure msg = false
  complete : (∀ msg ∈ pend, isFailure msg = false) → total heard + total pend = np
  infos : ∃ nspace, (∀ ns count, .info true ns count ∈ pend → 0 < count ∧ ns = nspace)
    ∧ (spawn.ready ≠ 0 → spawn.nspace = some nspace)
  phase : Phase spawn pend heard

/-- An open spawn has messages under way. -/
theorem Progress.pend_ne (progress : Progress np spawn pend heard) : pend ≠ [] := by
  rintro rfl
  have all := progress.complete fun _ member => absurd member not_mem_nil
  have nothing : total [] = 0 := rfl
  rw [nothing, Nat.add_zero] at all
  cases progress.phase with
  | waiting state response part => exact absurd response (by simp)
  | inProgress state answered success part =>
    rw [progress.ready, progress.size_eq] at part
    omega
  | allSuccess state response all => exact absurd response (by simp)

theorem Progress.perm {other : List Msg}
    (progress : Progress np spawn pend heard) (perm : pend.Perm other) :
    Progress np spawn other heard where
  size_eq := progress.size_eq
  ready := progress.ready
  bounded := by
    rw [← total_perm perm]
    exact progress.bounded
  small := progress.small
  clean := progress.clean
  complete := by
    intro clean
    rw [← total_perm perm]
    exact progress.complete fun msg member => clean msg (perm.mem_iff.mp member)
  infos := by
    obtain ⟨nspace, positive, named⟩ := progress.infos
    exact ⟨nspace, fun ns count member => positive ns count (perm.mem_iff.mpr member), named⟩
  phase := by
    cases progress.phase with
    | waiting state response part => exact .waiting state (perm.countP_eq _ ▸ response) part
    | inProgress state answered success part =>
      exact .inProgress state (perm.countP_eq _ ▸ answered) success part
    | allSuccess state response all => exact .allSuccess state (perm.countP_eq _ ▸ response) all

theorem Progress.requested (progress : Progress np spawn pend heard)
    (state : spawn.state = .initialized) :
    Progress np { spawn with state := .requested } pend heard where
  size_eq := progress.size_eq
  ready := progress.ready
  bounded := progress.bounded
  small := progress.small
  clean := progress.clean
  complete := progress.complete
  infos := progress.infos
  phase := by
    cases progress.phase with
    | waiting _ response part => exact .waiting (.inr rfl) response part
    | inProgress now answered success part =>
      rw [state] at now
      exact absurd now (by simp)
    | allSuccess now response all =>
      rw [state] at now
      exact absurd now (by simp)

/-- A spawn goes on, or it is answered. -/
def outcome (spawn : Spawn) : Msg → Spawn ⊕ Bool
  | .response true =>
    if spawn.state = .allSuccess then .inr true
    else .inl { spawn with state := .inProgress }
  | .response false => .inr false
  | .spawnerFailed => .inr false
  | .info success nsName np =>
    if success = false then .inr false
    else if fitsNamespace spawn nsName = false then .inr false
    else if (addReady nsName np spawn).ready < spawn.np then
      .inl (addReady nsName np spawn)
    else if spawn.np < (addReady nsName np spawn).ready then .inr false
    else if spawn.state = .inProgress then .inr true
    else .inl { addReady nsName np spawn with state := .allSuccess }

theorem failure_answer (failure : isFailure msg = true) :
    AnswerRight np (heard ++ [msg]) false := by
  refine ⟨fun same => absurd same (by simp), fun good => ?_⟩
  have clean := good.2.2 msg (mem_append_right _ (mem_singleton_self _))
  rw [failure] at clean
  exact absurd clean (by simp)

theorem clean_snoc (clean : ∀ other ∈ heard, isFailure other = false)
    (last : isFailure msg = false) :
    ∀ other ∈ heard ++ [msg], isFailure other = false := by
  exact Snoc.forall_mem clean last

/-- The forwarder's response lets a spawn go on or completes it. -/
theorem Progress.response
    (progress : Progress np spawn (.response true :: rest) heard) :
    (spawn.state = .allSuccess ∧ AnswerRight np (heard ++ [.response true]) true)
      ∨ (spawn.state ≠ .allSuccess ∧ Progress np
        { spawn with state := .inProgress } rest (heard ++ [.response true])) := by
  have clean := clean_snoc progress.clean (show isFailure (.response true) = false from rfl)
  have same : total (heard ++ [.response true]) = total heard := by
    rw [total_snoc]
    rfl
  have bounded := progress.bounded
  rw [total_cons] at bounded
  have zero : readyOf (.response true) = 0 := rfl
  rw [zero, Nat.zero_add] at bounded
  have member : Msg.response true ∈ heard ++ [.response true] :=
    mem_append_right _ (mem_singleton_self _)
  have none_left : (Msg.response true :: rest).countP isResponse = 1 →
      rest.countP isResponse = 0 := by
    intro one
    rw [countP_cons] at one
    simpa [isResponse] using one
  have step : rest.countP isResponse = 0 → spawn.ready < spawn.np →
      Progress np { spawn with state := .inProgress } rest (heard ++ [.response true]) := by
    intro answered part
    obtain ⟨nspace, positive, named⟩ := progress.infos
    refine ⟨progress.size_eq, ?_, ?_, progress.small, clean, ?_,
      ⟨nspace, fun ns count inside => positive ns count (mem_cons_of_mem _ inside), named⟩,
      .inProgress rfl answered member part⟩
    · rw [same]
      exact progress.ready
    · rw [same]
      exact bounded
    · intro fine
      rw [same]
      have all := progress.complete fun msg inside => by
        rcases mem_cons.mp inside with rfl | later
        · rfl
        · exact fine msg later
      rwa [total_cons, zero, Nat.zero_add] at all
  cases progress.phase with
  | waiting state response part =>
    refine .inr ⟨?_, step (none_left response) part⟩
    rcases state with first | requested
    · rw [first]
      simp
    · rw [requested]
      simp
  | inProgress state answered success part =>
    rw [countP_cons] at answered
    simp [isResponse] at answered
  | allSuccess state response all =>
    refine .inl ⟨state, fun _ => ⟨member, ?_, clean⟩, fun _ => rfl⟩
    rw [same, ← progress.ready, all, progress.size_eq]

variable {nspace : String}

theorem Progress.info {count : Nat}
    (progress : Progress np spawn (.info true nspace count :: rest) heard) :
    fitsNamespace spawn nspace = true
      ∧ (addReady nspace count spawn).ready = total heard + count
      ∧ total heard + count ≤ np
      ∧ (total heard + count < np →
        Progress np (addReady nspace count spawn) rest (heard ++ [.info true nspace count]))
      ∧ (total heard + count = np →
        spawn.state = .inProgress ∧ AnswerRight np (heard ++ [.info true nspace count]) true
          ∨ spawn.state ≠ .inProgress ∧ Progress np
            { addReady nspace count spawn with state := .allSuccess } rest
              (heard ++ [.info true nspace count])) := by
  obtain ⟨name, positive, named⟩ := progress.infos
  obtain ⟨some_process, rfl⟩ := positive nspace count mem_cons_self
  have bounded := progress.bounded
  have counts : readyOf (.info true nspace count) = count := rfl
  rw [total_cons, counts] at bounded
  have ready := progress.ready
  have small := progress.small
  have is_np := progress.size_eq
  have same : total (heard ++ [.info true nspace count]) = total heard + count := by
    rw [total_snoc]
    rfl
  have sum : (addReady nspace count spawn).ready = total heard + count := by
    show (spawn.ready + count) % 2 ^ 32 = total heard + count
    rw [ready]
    exact Nat.mod_eq_of_lt (by omega)
  have clean := clean_snoc progress.clean
    (show isFailure (.info true nspace count) = false from rfl)
  have fits : fitsNamespace spawn nspace = true := by
    by_cases zero : spawn.ready = 0
    · simp [fitsNamespace, zero]
    · simp [fitsNamespace, named zero]
  have now_named : (addReady nspace count spawn).nspace = some nspace := by
    by_cases zero : spawn.ready = 0
    · simp [addReady, zero]
    · simp [addReady, zero, named zero]
  have responses : (Msg.info true nspace count :: rest).countP isResponse
      = rest.countP isResponse := by
    rw [countP_cons]
    simp [isResponse]
  have step : ∀ state, Phase { addReady nspace count spawn with state } rest
      (heard ++ [.info true nspace count]) →
        Progress np { addReady nspace count spawn with state } rest
          (heard ++ [.info true nspace count]) := by
    intro state phase
    refine ⟨is_np, ?_, ?_, small, clean, ?_, ⟨nspace, fun ns other inside =>
      positive ns other (mem_cons_of_mem _ inside), fun _ => now_named⟩,
      phase⟩
    · rw [same]
      exact sum
    · rw [same]
      omega
    · intro fine
      have all := progress.complete fun msg inside => by
        rcases mem_cons.mp inside with rfl | later
        · rfl
        · exact fine msg later
      rw [total_cons, counts] at all
      rw [same]
      omega
  have phase := progress.phase
  refine ⟨fits, sum, by omega, fun less => ?_, fun all => ?_⟩
  · apply step spawn.state
    have part : (addReady nspace count spawn).ready < spawn.np := by
      rw [sum, is_np]
      exact less
    cases phase with
    | waiting state response _ => exact .waiting state (responses ▸ response) part
    | inProgress state answered success _ =>
      exact .inProgress state (responses ▸ answered) (mem_append_left _ success) part
    | allSuccess state response full =>
      rw [ready, is_np] at full
      omega
  · have full : (addReady nspace count spawn).ready = spawn.np := by
      rw [sum, is_np]
      exact all
    cases phase with
    | waiting state response _ =>
      refine .inr ⟨?_, step .allSuccess (.allSuccess rfl (responses ▸ response) full)⟩
      rcases state with first | requested
      · rw [first]
        simp
      · rw [requested]
        simp
    | inProgress state answered success _ =>
      refine .inl ⟨state, fun _ => ⟨mem_append_left _ success, ?_, clean⟩, fun _ => rfl⟩
      rw [same]
      exact all
    | allSuccess state response full' =>
      rw [ready, is_np] at full'
      omega

/-- What handling a message of an open spawn leads to. -/
theorem Progress.goes_on (progress : Progress np spawn (msg :: rest) heard) :
    (∃ changed, outcome spawn msg = .inl changed ∧ changed.id = spawn.id
        ∧ changed.sdata = spawn.sdata
        ∧ Progress np changed rest (heard ++ [msg]))
      ∨ ∃ success, outcome spawn msg = .inr success ∧ AnswerRight np (heard ++ [msg]) success := by
  cases msg with
  | spawnerFailed => exact .inr ⟨false, rfl, failure_answer rfl⟩
  | response success =>
    cases success with
    | false => exact .inr ⟨false, rfl, failure_answer rfl⟩
    | true =>
      rcases progress.response with ⟨state, right⟩ | ⟨state, going⟩
      · exact .inr ⟨true, if_pos state, right⟩
      · exact .inl ⟨_, if_neg state, rfl, rfl, going⟩
  | info success nspace count =>
    cases success with
    | false => exact .inr ⟨false, rfl, failure_answer rfl⟩
    | true =>
      obtain ⟨fits, sum, bounded, going, last⟩ := progress.info
      have is_np := progress.size_eq
      simp only [outcome, fits, Bool.true_eq_false, if_false]
      by_cases less : total heard + count < np
      · rw [if_pos (by omega)]
        exact .inl ⟨_, rfl, rfl, rfl, going less⟩
      · rw [if_neg (by omega), if_neg (by omega)]
        rcases last (by omega) with ⟨state, right⟩ | ⟨state, waits⟩
        · rw [if_pos state]
          exact .inr ⟨true, rfl, right⟩
        · rw [if_neg state]
          exact .inl ⟨_, rfl, rfl, rfl, waits⟩

/-! ## The list -/

section Split

variable {front back : List Spawn} {spawn : Spawn}

theorem findSpawn_split (other : ∀ before ∈ front, before.id ≠ spawn.id) :
    findSpawn (front ++ spawn :: back) spawn.id = some spawn := by
  unfold findSpawn
  rw [find?_append, find?_eq_none.mpr]
  · simp
  · intro before member
    simpa using other before member

theorem delSpawn_split (other : ∀ before ∈ front, before.id ≠ spawn.id) :
    delSpawn (front ++ spawn :: back) spawn.id = front ++ back := by
  unfold delSpawn
  rw [eraseP_append_right]
  · simp
  · intro before member
    simpa using other before member

theorem changeSpawn_split {which : Spawn → Bool} {change : Spawn → Spawn}
    (other : ∀ before ∈ front, which before = false) (found : which spawn = true) :
    changeSpawn which change (front ++ spawn :: back) = front ++ change spawn :: back := by
  induction front with
  | nil => exact if_pos found
  | cons before front induction =>
    show changeSpawn which change (before :: (front ++ spawn :: back)) = _
    rw [changeSpawn, if_neg (by simp [other before mem_cons_self]),
      induction fun later member => other later (mem_cons_of_mem _ member)]
    rfl

theorem changeSpawn_absent {which : Spawn → Bool} {change : Spawn → Spawn}
    {spawns : List Spawn} (absent : ∀ spawn ∈ spawns, which spawn = false) :
    changeSpawn which change spawns = spawns := by
  induction spawns with
  | nil => rfl
  | cons spawn spawns induction =>
    rw [changeSpawn, if_neg (by simp [absent spawn mem_cons_self]),
      induction fun later member => absent later (mem_cons_of_mem _ member)]

theorem setSpawn_split (other : ∀ before ∈ front, before.id ≠ spawn.id)
    (change : Spawn → Spawn) :
    setSpawn (front ++ spawn :: back) spawn.id change = front ++ change spawn :: back :=
  changeSpawn_split (fun before member => by simpa using other before member) (by simp)

/-- The list and the answer after an outcome. -/
def settle (front back : List Spawn) (sdata : Nat) : Spawn ⊕ Bool → List Spawn × List Answer
  | .inl changed => (front ++ changed :: back, [])
  | .inr success => (front ++ back, [⟨sdata, success⟩])

/-- A message changes the spawn it is about or takes it off the list. -/
theorem handleMsg_split (other : ∀ before ∈ front, before.id ≠ spawn.id)
    (msg : Msg) :
    handleMsg (front ++ spawn :: back) spawn.id msg
      = settle front back spawn.sdata (outcome spawn msg) := by
  have found : findSpawn (front ++ spawn :: back) spawn.id = some spawn := findSpawn_split other
  have deleted : delSpawn (front ++ spawn :: back) spawn.id = front ++ back := delSpawn_split other
  have changed : ∀ change, setSpawn (front ++ spawn :: back) spawn.id change
        = front ++ change spawn :: back := setSpawn_split other
  cases msg with
  | spawnerFailed => simp [handleMsg, spawnRes, found, deleted, outcome, settle]
  | response success =>
    cases success with
    | false => simp [handleMsg, spawnRes, found, deleted, outcome, settle]
    | true =>
      simp only [handleMsg, spawnRes, found, if_true, outcome]
      split
      · rw [deleted]
        rfl
      · rw [changed]
        rfl
  | info success nspace count =>
    simp only [handleMsg, spawnInfo, found, outcome, deleted, changed]
    split_ifs <;> rfl

theorem handleMsg_absent {spawnList : List Spawn} {id : Nat}
    (absent : ∀ spawn ∈ spawnList, spawn.id ≠ id) (msg : Msg) :
    handleMsg spawnList id msg = (spawnList, []) := by
  have missing : findSpawn spawnList id = none := by
    unfold findSpawn
    rw [find?_eq_none]
    intro spawn member
    simpa using absent spawn member
  cases msg <;> simp [handleMsg, spawnRes, spawnInfo, missing]

end Split

/-! ## Open spawns -/

/-- What is known while `opens` are the open spawns. -/
structure Sound (opens : List Spawn) (service : Service) : Prop where
  ids : (opens.map Spawn.id).Nodup
  nonzero : ∀ spawn ∈ opens, spawn.id ≠ 0
  sdatas : (opens.map Spawn.sdata).Nodup
  owner : ∀ wire ∈ service.wire, ∀ spawn ∈ opens, wire.id = spawn.id ↔ wire.sdata = spawn.sdata
  progress : ∀ spawn ∈ opens, Progress (service.size spawn.sdata) spawn
    (pending service.wire spawn.sdata) (service.heard spawn.sdata)
  initial : ∀ spawn ∈ opens, Calling service spawn.sdata → spawn.state = .initialized
  recent : ∀ spawn ∈ opens, spawn.sdata < service.calls
  sent : ∀ wire ∈ service.wire, wire.sdata < service.calls
  unheard : ∀ sdata, service.calls ≤ sdata → service.heard sdata = []
  answered : ∀ answer ∈ service.answers, answer.1.sdata < service.calls
  once : (service.answers.map fun answer => answer.1.sdata).Nodup
  apart : ∀ answer ∈ service.answers, ∀ spawn ∈ opens, spawn.sdata ≠ answer.1.sdata
  right : ∀ answer ∈ service.answers,
    AnswerRight (service.size answer.1.sdata) answer.2 answer.1.success
  kept : ∀ sdata ∈ service.requested, (∃ spawn ∈ opens, spawn.sdata = sdata)
    ∨ ∃ answer ∈ service.answers, answer.1.sdata = sdata

def Service.adding (service : Service) : List Spawn :=
  match service.call with
  | some (.add spawn) => [spawn]
  | _ => []

def Service.opens (service : Service) : List Spawn := service.spawnList ++ service.adding

theorem calling_of_adding (member : spawn ∈ service.adding) : Calling service spawn.sdata := by
  unfold Service.adding at member
  split at member
  case h_1 adding call =>
    rw [mem_singleton.mp member]
    exact ⟨adding, rfl, .inl call⟩
  case h_2 => exact absurd member not_mem_nil

theorem Sound.to_answered (sound : Sound service.opens service) : Answered service where
  different := by
    have ids := sound.ids
    rw [Service.opens, map_append] at ids
    exact (nodup_append.mp ids).1
  nonzero := fun spawn member => sound.nonzero spawn (mem_append_left _ member)
  once := sound.once
  right := sound.right
  open_ := by
    intro spawn member
    have progress := sound.progress spawn (mem_append_left _ member)
    obtain ⟨msg, inside⟩ := exists_mem_of_ne_nil _ progress.pend_ne
    obtain ⟨wire, sent, same, -⟩ := mem_pending.mp inside
    exact ⟨wire, sent, same⟩
  all := by
    intro sdata request returned handled
    rcases sound.kept sdata request with ⟨spawn, member, same⟩ | answered
    · have progress := sound.progress spawn member
      obtain ⟨msg, inside⟩ := exists_mem_of_ne_nil _ progress.pend_ne
      obtain ⟨wire, sent, belongs, -⟩ := mem_pending.mp inside
      exact absurd (belongs.trans same) (handled wire sent)
    · exact answered

/-! ## A message is handled -/

theorem heardWith_self (heard : Nat → List Msg) (wire : Wire) :
    heardWith heard wire wire.sdata = heard wire.sdata ++ [wire.msg] :=
  if_pos rfl

theorem heardWith_other {heard : Nat → List Msg} (other : sdata ≠ wire.sdata) :
    heardWith heard wire sdata = heard sdata :=
  if_neg other

section Handle

variable {service : Service} {wire : Wire}

theorem Sound.unheard_after {opens : List Spawn} (sound : Sound opens service)
    (member : wire ∈ service.wire) :
    ∀ sdata, service.calls ≤ sdata → heardWith service.heard wire sdata = [] := by
  intro sdata late
  have early := sound.sent wire member
  rw [heardWith_other (show sdata ≠ wire.sdata by omega)]
  exact sound.unheard sdata late

/-- A message about none of the open spawns changes none of them. -/
theorem Sound.ignored {opens : List Spawn} (sound : Sound opens service)
    (member : wire ∈ service.wire) (absent : ∀ spawn ∈ opens, spawn.sdata ≠ wire.sdata) :
    Sound opens { service with
      wire := service.wire.erase wire
      heard := heardWith service.heard wire } where
  ids := sound.ids
  nonzero := sound.nonzero
  sdatas := sound.sdatas
  owner := fun other inside => sound.owner other (mem_of_mem_erase inside)
  progress := by
    intro spawn inside
    show Progress _ spawn (pending (service.wire.erase wire) spawn.sdata)
      (heardWith service.heard wire spawn.sdata)
    rw [pending_other _ (absent spawn inside), heardWith_other (absent spawn inside)]
    exact sound.progress spawn inside
  initial := sound.initial
  recent := sound.recent
  sent := fun other inside => sound.sent other (mem_of_mem_erase inside)
  unheard := sound.unheard_after member
  answered := sound.answered
  once := sound.once
  apart := sound.apart
  right := sound.right
  kept := sound.kept

variable {front back : List Spawn} {spawn : Spawn}

theorem Sound.others (sound : Sound (front ++ spawn :: back) service) :
    ∀ other ∈ front ++ back, other.sdata ≠ spawn.sdata := by
  intro other member same
  have sdatas := sound.sdatas
  rw [map_append, map_cons, nodup_middle, ← map_append] at sdatas
  exact (nodup_cons.mp sdatas).1 (mem_map.mpr ⟨other, member, same⟩)

theorem mem_middle {other : Spawn} :
    other ∈ front ++ spawn :: back ↔ other = spawn ∨ other ∈ front ++ back := by
  simp only [mem_append, mem_cons]
  tauto

theorem Sound.removed (sound : Sound (front ++ spawn :: back) service)
    (member : wire ∈ service.wire) (same : wire.sdata = spawn.sdata)
    {success : Bool} (right : AnswerRight (service.size spawn.sdata)
      (service.heard spawn.sdata ++ [wire.msg]) success) :
    Sound (front ++ back) { service with
      wire := service.wire.erase wire
      heard := heardWith service.heard wire
      answers := service.answers ++ [(⟨spawn.sdata, success⟩,
        heardWith service.heard wire spawn.sdata)] } where
  ids := sound.ids.sublist (((sublist_cons_self spawn back).append_left front).map Spawn.id)
  nonzero := fun other inside => sound.nonzero other (mem_middle.mpr (.inr inside))
  sdatas := sound.sdatas.sublist
    (((sublist_cons_self spawn back).append_left front).map Spawn.sdata)
  owner := fun other sent later inside => sound.owner other
    (mem_of_mem_erase sent) later (mem_middle.mpr (.inr inside))
  progress := by
    intro other inside
    have different : other.sdata ≠ wire.sdata := by
      rw [same]
      exact sound.others other inside
    show Progress _ other (pending (service.wire.erase wire) other.sdata)
      (heardWith service.heard wire other.sdata)
    rw [pending_other _ different, heardWith_other different]
    exact sound.progress other (mem_middle.mpr (.inr inside))
  initial := fun other inside => sound.initial other (mem_middle.mpr (.inr inside))
  recent := fun other inside => sound.recent other (mem_middle.mpr (.inr inside))
  sent := fun other inside => sound.sent other (mem_of_mem_erase inside)
  unheard := sound.unheard_after member
  answered := Snoc.forall_mem sound.answered (sound.recent spawn (mem_middle.mpr (.inl rfl)))
  once := by
    exact Snoc.nodup_map sound.once (fun answer inside equal =>
      sound.apart answer inside spawn (mem_middle.mpr (.inl rfl)) equal.symm)
  apart := by
    intro answer inside other open_
    rcases mem_append.mp inside with old | new
    · exact sound.apart answer old other (mem_middle.mpr (.inr open_))
    · rw [mem_singleton.mp new]
      exact sound.others other open_
  right := by
    intro answer inside
    rcases mem_append.mp inside with old | new
    · exact sound.right answer old
    · rw [mem_singleton.mp new, ← same, heardWith_self, same]
      exact right
  kept := by
    intro sdata request
    rcases sound.kept sdata request with ⟨other, inside, rfl⟩ | answered
    · rcases mem_middle.mp inside with rfl | still
      · exact .inr ⟨_, mem_append_right _ (mem_singleton_self _),
          rfl⟩
      · exact .inl ⟨other, still, rfl⟩
    · obtain ⟨answer, old, equal⟩ := answered
      exact .inr ⟨answer, mem_append_left _ old, equal⟩

theorem Sound.changed (sound : Sound (front ++ spawn :: back) service)
    {heard : Nat → List Msg} {after : Spawn} (sub : wires ⊆ service.wire)
    (late : ∀ sdata, service.calls ≤ sdata → heard sdata = [])
    (others : ∀ sdata, sdata ≠ spawn.sdata →
      pending wires sdata = pending service.wire sdata ∧ heard sdata = service.heard sdata)
    (progress : Progress (service.size spawn.sdata) after
      (pending wires spawn.sdata) (heard spawn.sdata))
    (same_id : after.id = spawn.id) (same_sdata : after.sdata = spawn.sdata)
    (initial : Calling service spawn.sdata → after.state = .initialized) :
    Sound (front ++ after :: back) { service with
      wire := wires
      heard := heard } := by
  have first : spawn ∈ front ++ spawn :: back := mem_middle.mpr (.inl rfl)
  refine ⟨?_, ?_, ?_, ?_, ?_, ?_, ?_, ?_, ?_, sound.answered, sound.once, ?_, sound.right, ?_⟩
  · have ids := sound.ids
    rwa [map_append, map_cons, ← same_id, ← map_cons, ← map_append] at ids
  · intro other inside
    rcases mem_middle.mp inside with rfl | still
    · rw [same_id]
      exact sound.nonzero spawn first
    · exact sound.nonzero other (mem_middle.mpr (.inr still))
  · have sdatas := sound.sdatas
    rwa [map_append, map_cons, ← same_sdata, ← map_cons, ← map_append] at sdatas
  · intro other sent later inside
    rcases mem_middle.mp inside with rfl | still
    · rw [same_id, same_sdata]
      exact sound.owner other (sub sent) spawn first
    · exact sound.owner other (sub sent) later (mem_middle.mpr (.inr still))
  · intro other inside
    show Progress _ other (pending wires other.sdata) (heard other.sdata)
    rcases mem_middle.mp inside with rfl | still
    · rw [same_sdata]
      exact progress
    · obtain ⟨same_pending, same_heard⟩ :=
        others other.sdata (sound.others other still)
      rw [same_pending, same_heard]
      exact sound.progress other (mem_middle.mpr (.inr still))
  · intro other inside calling
    rcases mem_middle.mp inside with rfl | still
    · rw [same_sdata] at calling
      exact initial calling
    · exact sound.initial other (mem_middle.mpr (.inr still)) calling
  · intro other inside
    rcases mem_middle.mp inside with rfl | still
    · rw [same_sdata]
      exact sound.recent spawn first
    · exact sound.recent other (mem_middle.mpr (.inr still))
  · exact fun other inside => sound.sent other (sub inside)
  · exact late
  · intro answer old other inside
    rcases mem_middle.mp inside with rfl | still
    · rw [same_sdata]
      exact sound.apart answer old spawn first
    · exact sound.apart answer old other (mem_middle.mpr (.inr still))
  · intro sdata request
    rcases sound.kept sdata request with ⟨other, inside, rfl⟩ | answered
    · rcases mem_middle.mp inside with rfl | still
      · exact .inl ⟨after, mem_middle.mpr (.inl rfl), same_sdata⟩
      · exact .inl ⟨other, mem_middle.mpr (.inr still), rfl⟩
    · exact .inr answered

end Handle

/-! ## Steps -/

variable {service : Service}

theorem Sound.handle (sound : Sound service.opens service) {wire : Wire}
    (member : wire ∈ service.wire) (returned : ¬Calling service wire.sdata) :
    Sound (service.hear wire).opens (service.hear wire) := by
  by_cases absent : ∀ spawn ∈ service.spawnList, spawn.id ≠ wire.id
  · have ignored := sound.ignored member ?_
    · have hear : service.hear wire = { service with
          wire := service.wire.erase wire
          heard := heardWith service.heard wire } := by
        unfold Service.hear
        rw [handleMsg_absent absent, map_nil, append_nil]
      rw [hear]
      exact ignored
    · intro spawn inside same
      rcases mem_append.mp inside with listed | adding
      · exact absent spawn listed ((sound.owner wire member spawn inside).mpr same.symm).symm
      · exact returned (same ▸ calling_of_adding adding)
  · obtain ⟨spawn, listed, same_id⟩ : ∃ spawn ∈ service.spawnList, spawn.id = wire.id := by
      by_contra no
      exact absent fun spawn inside same => no ⟨spawn, inside, same⟩
    obtain ⟨front, back, split⟩ := append_of_mem listed
    have opens : service.opens = front ++ spawn :: (back ++ service.adding) := by
      rw [Service.opens, split, append_assoc, cons_append]
    have sound_split := sound
    rw [opens] at sound_split
    have first : spawn ∈ service.opens := mem_append_left _ listed
    have same : wire.sdata = spawn.sdata := (sound.owner wire member spawn first).mp same_id.symm
    have other : ∀ before ∈ front, before.id ≠ spawn.id := by
      intro before inside equal
      have ids := sound_split.ids
      rw [map_append, map_cons, nodup_middle, ← map_append] at ids
      exact (nodup_cons.mp ids).1 (mem_map.mpr ⟨before, mem_append_left _ inside, equal⟩)
    have progress := (sound.progress spawn first).perm (same ▸ pending_erase member)
    have handled : handleMsg (front ++ spawn :: back) spawn.id wire.msg
        = settle front back spawn.sdata (outcome spawn wire.msg) :=
      handleMsg_split other wire.msg
    rw [← split, same_id] at handled
    rcases progress.goes_on with ⟨after, goes, id, sdata, progress⟩
      | ⟨success, stops, right⟩
    · have changed := sound_split.changed
        (fun other inside => mem_of_mem_erase inside)
        (sound.unheard_after member)
        (fun other different => ⟨pending_other _ (same ▸ different),
          heardWith_other (same ▸ different)⟩)
        (by
          rw [← same, heardWith_self, same]
          exact same ▸ progress) id sdata
        (fun calling => absurd (same ▸ calling) returned)
      rw [goes] at handled
      have hear : service.hear wire = { service with
          wire := service.wire.erase wire
          heard := heardWith service.heard wire
          spawnList := front ++ after :: back } := by
        unfold Service.hear
        rw [handled]
        simp [settle]
      rw [hear]
      have list : front ++ after :: (back ++ service.adding)
          = (front ++ after :: back) ++ service.adding := by
        simp
      rw [list] at changed
      exact ⟨changed.ids, changed.nonzero, changed.sdatas, changed.owner,
        changed.progress, changed.initial, changed.recent, changed.sent,
        changed.unheard, changed.answered, changed.once, changed.apart,
        changed.right, changed.kept⟩
    · have removed := sound_split.removed member same right
      rw [stops] at handled
      have hear : service.hear wire = { service with
          wire := service.wire.erase wire
          heard := heardWith service.heard wire
          spawnList := front ++ back
          answers := service.answers ++ [(⟨spawn.sdata, success⟩,
            heardWith service.heard wire spawn.sdata)] } := by
        unfold Service.hear
        rw [handled]
        simp [settle]
      rw [hear]
      have list : front ++ (back ++ service.adding) = (front ++ back) ++ service.adding := by
        simp
      rw [list] at removed
      exact ⟨removed.ids, removed.nonzero, removed.sdatas, removed.owner,
        removed.progress, removed.initial, removed.recent, removed.sent,
        removed.unheard, removed.answered, removed.once, removed.apart,
        removed.right, removed.kept⟩

theorem Sound.add (sound : Sound service.opens service)
    (call : service.call = some (.add spawn)) :
    Sound (perform service .add).opens (perform service .add) := by
  have performed : perform service .add = { service with
      spawnList := service.spawnList ++ [spawn]
      call := some (.setRequested spawn) } := by
    simp only [perform, call]
  have opens : service.opens = (perform service .add).opens := by
    rw [performed]
    simp [Service.opens, Service.adding, call]
  have calling : ∀ sdata, Calling (perform service .add) sdata → Calling service sdata := by
    rintro sdata ⟨other, same, now | now⟩
    · rw [performed] at now
      exact absurd now (by simp)
    · rw [performed] at now
      have equal : spawn = other := by simpa using now
      exact ⟨other, same, .inl (equal ▸ call)⟩
  rw [← opens]
  have initial := fun other inside now => sound.initial other inside (calling other.sdata now)
  rw [performed] at initial ⊢
  exact ⟨sound.ids, sound.nonzero, sound.sdatas, sound.owner, sound.progress,
    initial, sound.recent, sound.sent, sound.unheard, sound.answered,
    sound.once, sound.apart, sound.right, sound.kept⟩

/-- The spawn of the call gets the new state as it is not answered yet. -/
theorem Sound.setRequested (sound : Sound service.opens service)
    (call : service.call = some (.setRequested spawn)) :
    Sound (perform service .setRequested).opens (perform service .setRequested) := by
  have performed : perform service .setRequested = { service with
      spawnList := changeSpawn (fun other => other.sdata = spawn.sdata)
        (fun spawn => { spawn with state := .requested }) service.spawnList
      call := none } := by
    simp only [perform, call]
  have opens : service.opens = service.spawnList := by
    simp [Service.opens, Service.adding, call]
  rw [opens] at sound
  have sound_idle : Sound service.spawnList { service with call := none } :=
    ⟨sound.ids, sound.nonzero, sound.sdatas, sound.owner, sound.progress,
      fun other inside => by
        rintro ⟨called, -, now | now⟩
        · exact absurd now (by simp)
        · exact absurd now (by simp), sound.recent, sound.sent, sound.unheard,
      sound.answered, sound.once, sound.apart, sound.right, sound.kept⟩
  have idle : ∀ sdata, ¬Calling { service with call := none } sdata := by
    rintro sdata ⟨called, -, now | now⟩
    · exact absurd now (by simp)
    · exact absurd now (by simp)
  have same_opens : (perform service .setRequested).opens
      = (perform service .setRequested).spawnList := by
    rw [performed]
    simp [Service.opens, Service.adding]
  rw [same_opens, performed]
  by_cases absent : ∀ other ∈ service.spawnList, other.sdata ≠ spawn.sdata
  · have unchanged : changeSpawn (fun other => other.sdata = spawn.sdata)
        (fun spawn => { spawn with state := .requested }) service.spawnList = service.spawnList :=
      changeSpawn_absent fun other member => by simpa using absent other member
    rw [unchanged]
    exact sound_idle
  · obtain ⟨found, listed, same⟩ : ∃ other ∈ service.spawnList, other.sdata = spawn.sdata := by
      by_contra no
      exact absent fun other inside same => no ⟨other, inside, same⟩
    have state := sound.initial found listed ⟨spawn, same.symm, .inr call⟩
    have progress := sound.progress found listed
    obtain ⟨front, back, split⟩ := append_of_mem listed
    rw [split] at sound_idle ⊢
    have others : ∀ before ∈ front,
        decide (before.sdata = spawn.sdata) = false := by
      intro before inside
      have different := sound_idle.others before (mem_append_left _ inside)
      rw [same] at different
      simpa using different
    rw [changeSpawn_split others (by simpa using same)]
    have changed := sound_idle.changed (List.Subset.refl _) sound_idle.unheard
      (fun sdata _ => ⟨rfl, rfl⟩) (progress.requested state) rfl rfl
      (fun calling => absurd calling (idle _))
    exact ⟨changed.ids, changed.nonzero, changed.sdatas, changed.owner,
      changed.progress, changed.initial, changed.recent, changed.sent,
      changed.unheard, changed.answered, changed.once, changed.apart,
      changed.right, changed.kept⟩

theorem Sound.notSent (sound : Sound service.opens service) (spawnID : Nat) :
    Sound service.opens { service with spawnID, calls := service.calls + 1 } where
  ids := sound.ids
  nonzero := sound.nonzero
  sdatas := sound.sdatas
  owner := sound.owner
  progress := sound.progress
  initial := sound.initial
  recent := fun spawn member => Nat.lt_succ_of_lt (sound.recent spawn member)
  sent := fun wire member => Nat.lt_succ_of_lt (sound.sent wire member)
  unheard := fun sdata late => sound.unheard sdata (Nat.le_of_succ_le late)
  answered := fun answer member => Nat.lt_succ_of_lt (sound.answered answer member)
  once := sound.once
  apart := sound.apart
  right := sound.right
  kept := sound.kept

theorem pending_none (none_sent : ∀ wire ∈ wires, wire.sdata ≠ sdata) :
    pending wires sdata = [] := by
  unfold pending
  rw [filter_eq_nil_iff.mpr, map_nil]
  intro wire member
  simpa using none_sent wire member

theorem pending_script (wires : List Wire) (sdata id : Nat) (msgs : List Msg) :
    pending (wires ++ msgs.map fun msg => ⟨sdata, id, msg⟩) sdata
      = pending wires sdata ++ msgs := by
  have own : (msgs.map fun msg => (⟨sdata, id, msg⟩ : Wire)).filter
      (fun wire => wire.sdata = sdata) = msgs.map fun msg => ⟨sdata, id, msg⟩ := by
    rw [filter_eq_self]
    intro wire member
    obtain ⟨msg, -, rfl⟩ := mem_map.mp member
    simp
  unfold pending
  rw [filter_append, map_append, own, map_map]
  congr 1
  exact map_id msgs

theorem pending_script_other (wires : List Wire) {other : Nat} (id : Nat)
    (msgs : List Msg) (different : other ≠ sdata) :
    pending (wires ++ msgs.map fun msg => ⟨sdata, id, msg⟩) other = pending wires other := by
  unfold pending
  rw [filter_append, map_append, filter_eq_nil_iff (l := msgs.map _).mpr, map_nil, append_nil]
  intro wire member
  obtain ⟨msg, -, rfl⟩ := mem_map.mp member
  simpa using Ne.symm different

variable {spawnID : Nat}

theorem Progress.start {sdata : Nat} {maxprocs : List Nat} {msgs : List Msg}
    (script : Script maxprocs.sum nspace msgs) (some_process : 0 < maxprocs.sum)
    (small : maxprocs.sum < 2 ^ 32) :
    Progress maxprocs.sum (newSpawn spawnID maxprocs sdata) msgs [] where
  size_eq := Nat.mod_eq_of_lt small
  ready := rfl
  bounded := by
    rw [show total [] = 0 from rfl, Nat.zero_add]
    exact script.bounded
  small := small
  clean := fun msg member => absurd member not_mem_nil
  complete := by
    intro clean
    rw [show total [] = 0 from rfl, Nat.zero_add]
    exact script.complete clean
  infos := ⟨nspace, script.positive, fun zero => absurd rfl zero⟩
  phase := by
    refine .waiting (.inl rfl) script.response ?_
    show 0 < maxprocs.sum % 2 ^ 32
    rwa [Nat.mod_eq_of_lt small]

/-- A new spawn with an ID of its own. -/
theorem Sound.sent_spawn (sound : Sound service.opens service) {maxprocs : List Nat}
    {msgs : List Msg} (idle : service.call.isNone = true) (script : Script maxprocs.sum nspace msgs)
    (fits : Fits service (.spawn maxprocs nspace true msgs)) :
    Sound (perform service (.spawn maxprocs nspace true msgs)).opens
      (perform service (.spawn maxprocs nspace true msgs)) := by
  obtain ⟨some_process, small, nonzero, new_id, new_wire⟩ := fits rfl
  have no_call : service.call = none := Option.isNone_iff_eq_none.mp idle
  have opens : service.opens = service.spawnList := by
    simp [Service.opens, Service.adding, no_call]
  rw [opens] at sound
  generalize is_spawn : newSpawn service.spawnID maxprocs service.calls = spawn
  have id : spawn.id = (service.spawnID + 1) % 2 ^ 16 := by
    rw [← is_spawn]
    rfl
  have sdata : spawn.sdata = service.calls := by
    rw [← is_spawn]
    rfl
  have performed : perform service (.spawn maxprocs nspace true msgs)
      = service.send spawn maxprocs.sum msgs := by
    rw [← is_spawn]
    rfl
  have new_opens : (service.send spawn maxprocs.sum msgs).opens
      = service.spawnList ++ [spawn] := rfl
  rw [performed, new_opens]
  have old : ∀ other ∈ service.spawnList, other.sdata ≠ spawn.sdata := by
    intro other member
    have recent := sound.recent other member
    omega
  have size_new : (service.send spawn maxprocs.sum msgs).size spawn.sdata
      = maxprocs.sum := if_pos rfl
  have size_old : ∀ other, other ≠ spawn.sdata → (service.send spawn maxprocs.sum msgs).size other
        = service.size other := fun other different => if_neg different
  refine ⟨?_, ?_, ?_, ?_, ?_, ?_, ?_, ?_, ?_, ?_, sound.once, ?_, ?_, ?_⟩
  · exact Snoc.nodup_map sound.ids (fun other listed equal => new_id other listed (equal.trans id))
  · intro other member
    rcases mem_append.mp member with listed | new
    · exact sound.nonzero other listed
    · rw [mem_singleton.mp new, id]
      exact nonzero
  · exact Snoc.nodup_map sound.sdatas old
  · intro wire sent other member
    rcases mem_append.mp sent with before | now
    · rcases mem_append.mp member with listed | new
      · exact sound.owner wire before other listed
      · have different := new_wire wire before
        have early := sound.sent wire before
        rw [mem_singleton.mp new, id, sdata]
        exact iff_of_false different (by omega)
    · obtain ⟨msg, -, rfl⟩ := mem_map.mp now
      rcases mem_append.mp member with listed | new
      · refine iff_of_false (fun same => ?_) (Ne.symm (old other listed))
        exact new_id other listed (same.symm.trans id)
      · rw [mem_singleton.mp new]
        exact iff_of_true rfl rfl
  · intro other member
    show Progress _ other (pending (service.wire
      ++ msgs.map fun msg => ⟨spawn.sdata, spawn.id, msg⟩) other.sdata) (service.heard other.sdata)
    rcases mem_append.mp member with listed | new
    · rw [size_old _ (old other listed), pending_script_other _ _ _ (old other listed)]
      exact sound.progress other listed
    · rw [mem_singleton.mp new, size_new, pending_script, pending_none,
        nil_append, sound.unheard _ (Nat.le_of_eq sdata.symm), ← is_spawn]
      · exact Progress.start script some_process small
      · intro wire before
        have early := sound.sent wire before
        omega
  · intro other member calling
    rcases mem_append.mp member with listed | new
    · obtain ⟨called, same, now | now⟩ := calling
      · have equal : spawn = called := by simpa [Service.send] using now
        exact absurd (equal ▸ same.symm) (old other listed)
      · exact absurd now (by simp [Service.send])
    · rw [mem_singleton.mp new, ← is_spawn]
      rfl
  · intro other member
    show other.sdata < service.calls + 1
    rcases mem_append.mp member with listed | new
    · exact Nat.lt_succ_of_lt (sound.recent other listed)
    · rw [mem_singleton.mp new, sdata]
      exact Nat.lt_succ_self _
  · intro wire sent
    show wire.sdata < service.calls + 1
    rcases mem_append.mp sent with before | now
    · exact Nat.lt_succ_of_lt (sound.sent wire before)
    · obtain ⟨msg, -, rfl⟩ := mem_map.mp now
      rw [sdata]
      exact Nat.lt_succ_self _
  · intro other late
    exact sound.unheard other (Nat.le_of_succ_le late)
  · intro answer member
    exact Nat.lt_succ_of_lt (sound.answered answer member)
  · intro answer given other member
    rcases mem_append.mp member with listed | new
    · exact sound.apart answer given other listed
    · have early := sound.answered answer given
      rw [mem_singleton.mp new]
      omega
  · intro answer given
    have early := sound.answered answer given
    rw [size_old _ (by omega)]
    exact sound.right answer given
  · intro other request
    rcases mem_append.mp request with before | now
    · rcases sound.kept other before with ⟨kept, member, same⟩ | answered
      · exact .inl ⟨kept, mem_append_left _ member, same⟩
      · exact .inr answered
    · exact .inl ⟨spawn, mem_append_right _ (mem_singleton_self _), (mem_singleton.mp now).symm⟩

/-! ## Runs -/

theorem sound_start : Sound Service.start.opens Service.start := by
  refine ⟨nodup_nil, ?_, nodup_nil, ?_, ?_, ?_, ?_, ?_, fun _ _ => rfl, ?_, nodup_nil, ?_, ?_, ?_⟩
  all_goals exact fun x member => absurd member not_mem_nil

theorem sound_step (sound : Sound service.opens service) {event : Event}
    (enabled : Enabled service event) (fits : Fits service event) :
    Sound (perform service event).opens (perform service event) := by
  cases event with
  | spawn maxprocs nspace sent msgs =>
    cases sent with
    | false => exact sound.notSent _
    | true => exact sound.sent_spawn enabled.1 enabled.2 fits
  | add =>
    obtain ⟨spawn, call⟩ := enabled
    exact sound.add call
  | setRequested =>
    obtain ⟨spawn, call⟩ := enabled
    exact sound.setRequested call
  | handle wire => exact sound.handle enabled fits

theorem fitting_sound (reachable : fittingSystem.Reachable service) :
    Sound service.opens service := by
  have invariant : fittingSystem.Invariant
      fun service => Sound service.opens service :=
    { initial := by
        intro service start
        rw [show service = Service.start from start]
        exact sound_start
      step := by
        rintro before after sound ⟨event, enabled, fits, rfl⟩
        exact sound_step sound enabled fits }
  exact invariant.reachable reachable

/-- Spawns are answered once and rightly while each gets an ID of its own and is
on the list before its messages are handled. -/
theorem spawns_answered (reachable : fittingSystem.Reachable service) : Answered service :=
  (fitting_sound reachable).to_answered

/-- A spawn of one process that succeeds. -/
def simple : List Msg := [.response true, .info true "spawned" 1]

theorem simple_script : Script 1 "spawned" simple where
  response := rfl
  positive := by
    intro ns count member
    simp only [simple, mem_cons, not_mem_nil, or_false, Msg.info.injEq,
      reduceCtorEq, false_or, true_and] at member
    obtain ⟨rfl, rfl⟩ := member
    exact ⟨Nat.one_pos, rfl⟩
  bounded := Nat.le_refl 1
  complete := fun _ => rfl

def simpleSent : Service := perform .start (.spawn [1] "spawned" true simple)

theorem spawns_answered_simple : Answered simpleSent := by
  refine spawns_answered (.step (.initial rfl)
    ⟨.spawn [1] "spawned" true simple, ⟨rfl, simple_script⟩, fun _ => ?_, rfl⟩)
  exact ⟨Nat.one_pos, by decide, by decide,
    fun spawn member => absurd member not_mem_nil,
    fun wire member => absurd member not_mem_nil⟩

/-! ## The ID runs over -/

theorem refused_script : Script 1 "spawned" [.response false] where
  response := rfl
  positive := fun ns count member => absurd member (by simp)
  bounded := Nat.zero_le 1
  complete := fun clean => absurd (clean _ (mem_singleton_self _)) (by simp [isFailure])

/-- A state between two spawns with nothing open. -/
structure Quiet (service : Service) (spawnID : Nat) : Prop where
  reachable : serviceSystem.Reachable service
  spawnID_eq : service.spawnID = spawnID
  spawnList : service.spawnList = []
  call : service.call = none
  wire : service.wire = []

theorem Quiet.sent (quiet : Quiet service spawnID) : serviceSystem.Reachable
      (service.send (newSpawn spawnID [1] service.calls) 1 [.response false]) :=
  .step quiet.reachable ⟨.spawn [1] "spawned" true [.response false],
    ⟨by rw [quiet.call]; rfl, refused_script⟩, by rw [← quiet.spawnID_eq]; rfl⟩

theorem Quiet.next (quiet : Quiet service spawnID) :
    ∃ after, Quiet after ((spawnID + 1) % 2 ^ 16) := by
  generalize is_spawn : newSpawn spawnID [1] service.calls = spawn
  have id : spawn.id = (spawnID + 1) % 2 ^ 16 := by
    rw [← is_spawn]
    rfl
  have sent := quiet.sent
  rw [is_spawn] at sent
  have added := sent.step ⟨.add, ⟨spawn, rfl⟩, rfl⟩
  have requested := added.step ⟨.setRequested, ⟨spawn, rfl⟩, rfl⟩
  have handled := requested.step ⟨.handle ⟨spawn.sdata, spawn.id,
    .response false⟩, mem_append_right _ (mem_singleton_self _), rfl⟩
  refine ⟨_, handled, id, ?_, rfl, ?_⟩
  · simp [perform, Service.send, Service.hear, quiet.spawnList, changeSpawn,
      handleMsg, spawnRes, findSpawn, delSpawn]
  · simp [perform, Service.send, Service.hear, quiet.wire]

theorem quiet_reached (count : Nat) (small : count < 2 ^ 16) : ∃ service, Quiet service count := by
  induction count with
  | zero => exact ⟨.start, .initial rfl, rfl, rfl, rfl, rfl⟩
  | succ count induction =>
    obtain ⟨service, quiet⟩ := induction (by omega)
    have next := quiet.next
    rwa [Nat.mod_eq_of_lt small] at next

/-- The spawn after 65535 others gets the ID that means none. -/
theorem not_spawns_answered : ¬∀ service, serviceSystem.Reachable service → Answered service := by
  intro all
  obtain ⟨service, quiet⟩ := quiet_reached 65535 (by omega)
  have added := quiet.sent.step ⟨.add, ⟨_, rfl⟩, rfl⟩
  exact (all _ added).nonzero (newSpawn 65535 [1] service.calls)
    (mem_append_right _ (mem_singleton_self _)) rfl

end Psmgmt.Pmix.Respawn
