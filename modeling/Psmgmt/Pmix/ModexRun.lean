import Psmgmt.Pmix.Modex
import Psmgmt.Library.Snoc

/-!
# Modex data reaches its request

The requests on a list of a server are those on their way for it, in the order
they were issued.  A response thus finds its own request first if no earlier one
for the same process waits.
-/

namespace Psmgmt.Pmix.Modex

open List Option

def Stage.server : Stage → Nat
  | .asked msg => msg.sender
  | .polled mdata => mdata.requester
  | .library mdata => mdata.requester
  | .answered dest _ => dest

def Stage.proc : Stage → Proc
  | .asked msg => ⟨msg.nspace, msg.rank⟩
  | .polled mdata => mdata.proc
  | .library mdata => mdata.proc
  | .answered _ msg => ⟨msg.nspace, msg.rank⟩

structure Sound (servers : Servers) : Prop where
  travels : (servers.travels.map Travel.request).Nodup
  travelling : ∀ travel ∈ servers.travels, ∃ mdata ∈ servers.modexRequestList travel.stage.server,
      mdata.cbdata = travel.request ∧ mdata.proc = travel.stage.proc
  waiting : ∀ server, ∀ mdata ∈ servers.modexRequestList server,
    ∃ travel ∈ servers.travels, travel.request = mdata.cbdata ∧ travel.stage.server = server
  sorted : ∀ server, (servers.modexRequestList server).Pairwise
    fun first second => first.cbdata < second.cbdata
  recent : ∀ server, ∀ mdata ∈ servers.modexRequestList server, mdata.cbdata < servers.issued
  generated_once : (servers.generated.map Prod.fst).Nodup
  known : ∀ answer ∈ servers.generated, answer.1 < servers.issued
  settled : ∀ answer ∈ servers.generated, ∀ travel ∈ servers.travels,
    travel.request = answer.1 → travel.stage.response.isSome = true
  carried : ∀ travel ∈ servers.travels, ∀ response,
    travel.stage.response = some response → (travel.request, response) ∈ servers.generated
  once : (servers.returned.map Prod.fst).Nodup
  right : ∀ answer ∈ servers.returned, answer ∈ servers.generated
  apart : ∀ answer ∈ servers.returned, ∀ travel ∈ servers.travels, travel.request ≠ answer.1
  all : ∀ request < servers.issued, (∃ travel ∈ servers.travels, travel.request = request)
      ∨ ∃ answer ∈ servers.returned, answer.1 = request

variable {servers : Servers}

theorem Sound.to_answered (sound : Sound servers) : Answered servers where
  generated_once := sound.generated_once
  once := sound.once
  right := sound.right
  all := by
    intro request issued gone
    rcases sound.all request issued with ⟨travel, member, same⟩ | answered
    · exact absurd same (gone travel member)
    · exact answered

/-! ## A request goes on -/

section Move

variable {servers : Servers} {travel : Travel}

theorem Sound.others (sound : Sound servers) (member : travel ∈ servers.travels) :
    ∀ other ∈ servers.travels.erase travel, other.request ≠ travel.request := by
  intro other inside same
  have travels := ((perm_cons_erase member).map Travel.request).nodup_iff.mp sound.travels
  exact (nodup_cons.mp travels).1 (mem_map.mpr ⟨other, inside, same⟩)

theorem mem_or_erase (travel : Travel) {other : Travel}
    (inside : other ∈ servers.travels) :
    other = travel ∨ other ∈ servers.travels.erase travel := by
  by_cases same : other = travel
  · exact .inl same
  · exact .inr ((mem_erase_of_ne same).mpr inside)

theorem Sound.request_lt (sound : Sound servers)
    (member : travel ∈ servers.travels) : travel.request < servers.issued := by
  obtain ⟨mdata, listed, same, -⟩ := sound.travelling travel member
  rw [← same]
  exact sound.recent _ mdata listed

/-- The next stage of a request is about the same process for the same server. -/
theorem Sound.move (sound : Sound servers) (member : travel ∈ servers.travels)
    (unanswered : travel.stage.response = none) {stage : Stage}
    (server : stage.server = travel.stage.server) (proc : stage.proc = travel.stage.proc) :
    Sound (servers.move travel (some stage)) := by
  have others := sound.others member
  have mem : ∀ {other : Travel}, other ∈ (servers.move travel (some stage)).travels →
        other ∈ servers.travels.erase travel ∨ other = ⟨travel.request, stage⟩ := by
    intro other inside
    rcases mem_append.mp inside with old | new
    · exact .inl old
    · exact .inr (mem_singleton.mp new)
  have now : (⟨travel.request, stage⟩ : Travel) ∈ (servers.move travel (some stage)).travels :=
    mem_append_right _ (mem_singleton_self _)
  have still : ∀ {other : Travel}, other ∈ servers.travels.erase travel →
      other ∈ (servers.move travel (some stage)).travels :=
    fun inside => mem_append_left _ inside
  have mem_generated : ∀ {answer : Nat × Response},
      answer ∈ (servers.move travel (some stage)).generated → answer ∈ servers.generated
          ∨ (answer.1 = travel.request ∧ stage.response = some answer.2) := by
    intro answer inside
    rcases mem_append.mp inside with old | new
    · exact .inl old
    · refine .inr ?_
      cases given : stage.response with
      | none => simp [given] at new
      | some response =>
        simp only [bind_some, given, map_some, toList_some, mem_singleton] at new
        rw [new]
        exact ⟨rfl, rfl⟩
  have fresh : ∀ answer ∈ servers.generated, answer.1 ≠ travel.request := by
    intro answer inside same
    have settled := sound.settled answer inside travel member same.symm
    rw [unanswered] at settled
    exact absurd settled (by simp)
  refine ⟨?_, ?_, ?_, sound.sorted, sound.recent, ?_, ?_, ?_, ?_, sound.once, ?_, ?_, ?_⟩
  · show ((servers.travels.erase travel
      ++ [(⟨travel.request, stage⟩ : Travel)]).map Travel.request).Nodup
    have travels := ((perm_cons_erase member).map Travel.request).nodup_iff.mp sound.travels
    rw [map_append, map_singleton]
    exact (perm_append_singleton _ _).nodup_iff.mpr travels
  · intro other inside
    rcases mem inside with old | rfl
    · exact sound.travelling other (mem_of_mem_erase old)
    · obtain ⟨mdata, listed, same, about⟩ := sound.travelling travel member
      refine ⟨mdata, ?_, same, about.trans proc.symm⟩
      rw [server]
      exact listed
  · intro waiter mdata listed
    obtain ⟨other, inside, same, waits⟩ := sound.waiting waiter mdata listed
    rcases mem_or_erase travel inside with rfl | old
    · exact ⟨_, now, same, server.trans waits⟩
    · exact ⟨other, still old, same, waits⟩
  · show ((servers.generated ++ ((stage.response).map
      (Prod.mk travel.request)).toList).map Prod.fst).Nodup
    cases stage.response with
    | none => simpa using sound.generated_once
    | some response =>
      rw [map_append, nodup_append]
      refine ⟨sound.generated_once, by simp, ?_⟩
      intro first old second new equal
      obtain ⟨answer, inside, rfl⟩ := mem_map.mp old
      have is_request : second = travel.request := by simpa using new
      exact fresh answer inside (equal.trans is_request)
  · intro answer inside
    rcases mem_generated inside with old | ⟨same, -⟩
    · exact sound.known answer old
    · rw [same]
      exact sound.request_lt member
  · intro answer generated other inside same
    rcases mem_generated generated with old | ⟨is_request, given⟩
    · rcases mem inside with before | rfl
      · exact sound.settled answer old other (mem_of_mem_erase before) same
      · exact absurd same.symm (fresh answer old)
    · rcases mem inside with before | rfl
      · exact absurd (same.trans is_request) (others other before)
      · rw [given]
        rfl
  · intro other inside response given
    rcases mem inside with old | rfl
    · exact mem_append_left _ (sound.carried other (mem_of_mem_erase old) response given)
    · refine mem_append_right _ ?_
      rw [bind_some, given]
      exact mem_singleton_self _
  · exact fun answer given => mem_append_left _ (sound.right answer given)
  · intro answer given other inside
    rcases mem inside with old | rfl
    · exact sound.apart answer given other (mem_of_mem_erase old)
    · exact sound.apart answer given travel member
  · intro request issued
    rcases sound.all request issued with ⟨other, inside, same⟩ | answered
    · rcases mem_or_erase travel inside with rfl | old
      · exact .inl ⟨_, now, same⟩
      · exact .inl ⟨other, still old, same⟩
    · exact .inr answered

end Move

/-! ## A request is issued -/

theorem withList_self (lists : Nat → List Modexdata) (server : Nat)
    (list : List Modexdata) : withList lists server list server = list :=
  if_pos rfl

theorem withList_other {lists : Nat → List Modexdata} {server other : Nat}
    (list : List Modexdata) (different : other ≠ server) :
    withList lists server list other = lists other :=
  if_neg different

theorem Sound.issue (sound : Sound servers) (server : Nat) (proc : Proc)
    (reqKeys : List String) (timeout : Int) :
    Sound (servers.issue server proc reqKeys timeout) := by
  generalize is_mdata : ({ proc, requester := 0, cbdata := servers.issued
                           reqKeys, timeout, reqtime := 0 } : Modexdata) = mdata
  generalize is_travel : (⟨servers.issued, .asked ⟨server, proc.nspace,
    proc.rank, timeout, reqKeys⟩⟩ : Travel) = travel
  have cbdata : mdata.cbdata = servers.issued := by rw [← is_mdata]
  have request : travel.request = servers.issued := by rw [← is_travel]
  have asks : travel.stage.server = server := by rw [← is_travel]; rfl
  have about : mdata.proc = travel.stage.proc := by
    rw [← is_mdata, ← is_travel]
    rfl
  have issued : servers.issue server proc reqKeys timeout = { servers with
      modexRequestList := withList servers.modexRequestList server
        (servers.modexRequestList server ++ [mdata])
      issued := servers.issued + 1
      travels := servers.travels ++ [travel] } := by
    rw [← is_mdata, ← is_travel]
    rfl
  have mem_list : ∀ other, ∀ listed ∈ withList servers.modexRequestList server
      (servers.modexRequestList server ++ [mdata]) other,
        listed ∈ servers.modexRequestList other ∨ (other = server ∧ listed = mdata) := by
    intro other listed inside
    by_cases same : other = server
    · rw [same, withList_self] at inside
      rcases mem_append.mp inside with old | new
      · exact .inl (same ▸ old)
      · exact .inr ⟨same, mem_singleton.mp new⟩
    · rw [withList_other _ same] at inside
      exact .inl inside
  have list_mem : ∀ {other : Nat} {listed : Modexdata}, listed ∈ servers.modexRequestList other →
        listed ∈ withList servers.modexRequestList server
          (servers.modexRequestList server ++ [mdata]) other := by
    intro other listed inside
    by_cases same : other = server
    · subst same
      rw [withList_self]
      exact mem_append_left _ inside
    · rw [withList_other _ same]
      exact inside
  rw [issued]
  refine ⟨?_, ?_, ?_, ?_, ?_, sound.generated_once, ?_, ?_, ?_, sound.once, sound.right, ?_, ?_⟩
  · refine Snoc.nodup_map sound.travels (fun other inside equal => ?_)
    have lower := sound.request_lt inside
    omega
  · intro other inside
    rcases mem_append.mp inside with old | new
    · obtain ⟨listed, member, facts⟩ := sound.travelling other old
      exact ⟨listed, list_mem member, facts⟩
    · rw [mem_singleton.mp new]
      refine ⟨mdata, ?_, cbdata.trans request.symm, about⟩
      show mdata ∈ withList servers.modexRequestList server
        (servers.modexRequestList server ++ [mdata]) travel.stage.server
      rw [asks, withList_self]
      exact mem_append_right _ (mem_singleton_self _)
  · intro other listed inside
    rcases mem_list other listed inside with old | ⟨rfl, rfl⟩
    · obtain ⟨before, member, facts⟩ := sound.waiting other listed old
      exact ⟨before, mem_append_left _ member, facts⟩
    · exact ⟨travel, mem_append_right _ (mem_singleton_self _), request.trans cbdata.symm, asks⟩
  · intro other
    show (withList servers.modexRequestList server
      (servers.modexRequestList server ++ [mdata]) other).Pairwise _
    by_cases same : other = server
    · rw [same, withList_self, pairwise_append]
      refine ⟨sound.sorted server, pairwise_singleton _ _, ?_⟩
      intro first old second new
      have lower := sound.recent server first old
      rw [mem_singleton.mp new, cbdata]
      exact lower
    · rw [withList_other _ same]
      exact sound.sorted other
  · intro other listed inside
    rcases mem_list other listed inside with old | ⟨-, rfl⟩
    · exact Nat.lt_succ_of_lt (sound.recent other listed old)
    · rw [cbdata]
      exact Nat.lt_succ_self _
  · exact fun answer given => Nat.lt_succ_of_lt (sound.known answer given)
  · intro answer given other inside same
    rcases mem_append.mp inside with old | new
    · exact sound.settled answer given other old same
    · have lower := sound.known answer given
      rw [mem_singleton.mp new] at same
      omega
  · intro other inside response given
    rcases mem_append.mp inside with old | new
    · exact sound.carried other old response given
    · rw [mem_singleton.mp new, ← is_travel] at given
      exact absurd given (by simp [Stage.response])
  · intro answer given other inside
    rcases mem_append.mp inside with old | new
    · exact sound.apart answer given other old
    · have lower := sound.known answer (sound.right answer given)
      rw [mem_singleton.mp new]
      omega
  · intro number below
    rcases Nat.lt_succ_iff_lt_or_eq.mp below with lower | same
    · rcases sound.all number lower with ⟨other, inside, is_number⟩ | answered
      · exact .inl ⟨other, mem_append_left _ inside, is_number⟩
      · exact .inr answered
    · exact .inl ⟨travel, mem_append_right _ (mem_singleton_self _), request.trans same.symm⟩

/-! ## A response arrives -/

section Respond

variable {checkNspace : String → String → Bool} {servers : Servers}

theorem handleModexDataResponse_split {list : List Modexdata} {msg : DataRes}
    {mdata : Modexdata}
    (sorted : list.Pairwise fun first second => first.cbdata < second.cbdata)
    (listed : mdata ∈ list) (found : matchesRes checkNspace msg mdata = true)
    (earliest : ∀ other ∈ list, matchesRes checkNspace msg other = true →
      mdata.cbdata ≤ other.cbdata) :
    ∃ front back, list = front ++ mdata :: back ∧ handleModexDataResponse checkNspace list msg
        = (front ++ back, [(mdata.cbdata, msg.response)]) := by
  obtain ⟨front, back, rfl⟩ := append_of_mem listed
  have skipped : ∀ other ∈ front, matchesRes checkNspace msg other = false := by
    intro other inside
    by_contra matching
    have above := earliest other (mem_append_left _ inside) (by simpa using matching)
    have below := (pairwise_append.mp sorted).2.2 other inside mdata mem_cons_self
    omega
  refine ⟨front, back, rfl, ?_⟩
  have first : (front ++ mdata :: back).find? (matchesRes checkNspace msg) = some mdata := by
    rw [find?_append, find?_eq_none.mpr]
    · simp [found]
    · intro other inside
      simp [skipped other inside]
  have taken : (front ++ mdata :: back).eraseP (matchesRes checkNspace msg) = front ++ back := by
    rw [eraseP_append_right, eraseP_cons_of_pos found]
    intro other inside
    simp [skipped other inside]
  simp only [handleModexDataResponse, first, taken]

theorem Sound.respond (reflexive : ∀ nspace, checkNspace nspace nspace = true)
    (sound : Sound servers) {request dest : Nat} {msg : DataRes}
    (member : ⟨request, .answered dest msg⟩ ∈ servers.travels)
    (fits : Fits checkNspace servers (.handleRes request dest msg)) :
    Sound (servers.respond checkNspace ⟨request, .answered dest msg⟩ dest msg) := by
  obtain ⟨mdata, listed, same, about⟩ := sound.travelling _ member
  have others := sound.others member
  change mdata.cbdata = request at same
  have found : matchesRes checkNspace msg mdata = true := by
    rw [matchesRes, about]
    simp [Stage.proc, reflexive]
  obtain ⟨front, back, split, handled⟩ := handleModexDataResponse_split
    (sound.sorted dest) listed found
      (fun other inside matching => same ▸ fits other inside matching)
  have responded : servers.respond checkNspace ⟨request, .answered dest msg⟩
      dest msg = { servers with
        travels := servers.travels.erase ⟨request, .answered dest msg⟩
        modexRequestList := withList servers.modexRequestList dest (front ++ back)
        returned := servers.returned ++ [(request, msg.response)] } := by
    rw [Servers.respond, handled, same]
  have sorted := sound.sorted dest
  rw [split, pairwise_append] at sorted
  have unique : ∀ other ∈ front ++ back, other.cbdata ≠ mdata.cbdata := by
    intro other inside
    rcases mem_append.mp inside with before | after
    · exact Nat.ne_of_lt (sorted.2.2 other before mdata mem_cons_self)
    · exact Nat.ne_of_gt ((pairwise_cons.mp sorted.2.1).1 other after)
  have below : ∀ {other : Nat} {entry : Modexdata},
      entry ∈ withList servers.modexRequestList dest (front ++ back) other →
        entry ∈ servers.modexRequestList other ∧ entry.cbdata ≠ request := by
    intro other entry inside
    by_cases here : other = dest
    · subst here
      rw [withList_self] at inside
      refine ⟨?_, fun equal => unique entry inside (equal.trans same.symm)⟩
      rw [split]
      rcases mem_append.mp inside with before | after
      · exact mem_append_left _ before
      · exact mem_append_right _ (mem_cons_of_mem _ after)
    · rw [withList_other _ here] at inside
      obtain ⟨travel, going, is_request, waits⟩ := sound.waiting other entry inside
      refine ⟨inside, fun equal => ?_⟩
      rcases mem_or_erase ⟨request, .answered dest msg⟩ going with rfl | still
      · exact here waits.symm
      · exact others travel still (is_request.trans equal)
  have above : ∀ {other : Nat} {entry : Modexdata},
      entry ∈ servers.modexRequestList other → entry.cbdata ≠ request →
        entry ∈ withList servers.modexRequestList dest (front ++ back)
          other := by
    intro other entry inside different
    by_cases here : other = dest
    · subst here
      rw [split] at inside
      rw [withList_self]
      rcases mem_append.mp inside with before | after
      · exact mem_append_left _ before
      · rcases mem_cons.mp after with rfl | later
        · exact absurd same different
        · exact mem_append_right _ later
    · rw [withList_other _ here]
      exact inside
  rw [responded]
  refine ⟨?_, ?_, ?_, ?_, ?_, sound.generated_once, sound.known, ?_, ?_, ?_, ?_, ?_, ?_⟩
  · exact sound.travels.sublist (erase_sublist.map Travel.request)
  · intro other inside
    obtain ⟨waiting, member_list, is_request, is_proc⟩ :=
      sound.travelling other (mem_of_mem_erase inside)
    refine ⟨waiting, above member_list ?_, is_request, is_proc⟩
    rw [is_request]
    exact others other inside
  · intro server waiting inside
    obtain ⟨old, different⟩ := below inside
    obtain ⟨travel, going, is_request, waits⟩ := sound.waiting server waiting old
    rcases mem_or_erase ⟨request, .answered dest msg⟩ going with rfl | still
    · exact absurd is_request.symm different
    · exact ⟨travel, still, is_request, waits⟩
  · intro server
    show (withList servers.modexRequestList dest (front ++ back) server).Pairwise _
    by_cases here : server = dest
    · rw [here, withList_self]
      have sorted := sound.sorted dest
      rw [split] at sorted
      exact sorted.sublist ((sublist_cons_self mdata back).append_left front)
    · rw [withList_other _ here]
      exact sound.sorted server
  · exact fun server waiting inside => sound.recent server waiting (below inside).1
  · exact fun answer given travel going =>
      sound.settled answer given travel (mem_of_mem_erase going)
  · exact fun travel going => sound.carried travel (mem_of_mem_erase going)
  · exact Snoc.nodup_map sound.once (fun answer given equal =>
      sound.apart answer given _ member equal.symm)
  · exact Snoc.forall_mem sound.right (sound.carried _ member msg.response rfl)
  · intro answer given travel going
    rcases mem_append.mp given with old | new
    · exact sound.apart answer old travel (mem_of_mem_erase going)
    · rw [mem_singleton.mp new]
      exact others travel going
  · intro number issued
    rcases sound.all number issued with ⟨travel, going, is_number⟩
      | ⟨answer, given, is_number⟩
    · rcases mem_or_erase ⟨request, .answered dest msg⟩ going with rfl | still
      · exact .inr ⟨_, mem_append_right _ (mem_singleton_self _), is_number⟩
      · exact .inl ⟨travel, still, is_number⟩
    · exact .inr ⟨answer, mem_append_left _ given, is_number⟩

end Respond

/-! ## Runs -/

section Run

variable {nodeFromProc : Proc → Option Nat}
variable {checkNspace : String → String → Bool} {servers : Servers}

theorem handleModexDataRequest_taken (now : Int) {get : String → GetStatus}
    {accepted : Bool} {msg : DataReq} (takes :
      checkKeyAvailability get msg.reqKeys = true → accepted = true) :
    ∃ stage, handleModexDataRequest now get accepted msg = some stage
      ∧ stage.server = msg.sender ∧ stage.proc = ⟨msg.nspace, msg.rank⟩ := by
  unfold handleModexDataRequest requestModexData dmodexRequest
  by_cases available : checkKeyAvailability get msg.reqKeys = true
  · rw [if_pos available, if_pos (takes available)]
    exact ⟨_, rfl, rfl, rfl⟩
  · rw [if_neg available]
    exact ⟨_, rfl, rfl, rfl⟩

theorem reqModexTimeoutHandler_taken (now : Int) {get : String → GetStatus}
    {accepted : Bool} {mdata : Modexdata} (takes :
      checkKeyAvailability get mdata.reqKeys = true → accepted = true) :
    ∃ stage, reqModexTimeoutHandler now get accepted mdata = some stage
      ∧ stage.server = mdata.requester ∧ stage.proc = mdata.proc := by
  unfold reqModexTimeoutHandler dmodexRequest
  by_cases available : checkKeyAvailability get mdata.reqKeys = true
  · rw [if_pos available, if_pos (takes available)]
    exact ⟨_, rfl, rfl, rfl⟩
  · rw [if_neg available]
    split
    · exact ⟨_, rfl, rfl, rfl⟩
    · exact ⟨_, rfl, rfl, rfl⟩

theorem sound_step (reflexive : ∀ nspace, checkNspace nspace nspace = true) (sound : Sound servers)
    {event : Event} (enabled : Enabled servers event) (fits : Fits checkNspace servers event) :
    Sound (perform nodeFromProc checkNspace servers event) := by
  cases event with
  | issue server proc reqKeys timeout sent =>
    show Sound (if _ then _ else _)
    split
    · exact sound.issue server proc reqKeys timeout
    · exact sound
  | handleReq request msg now get accepted =>
    obtain ⟨stage, next, server, proc⟩ := handleModexDataRequest_taken now fits
    show Sound (servers.move _ (handleModexDataRequest now get accepted msg))
    rw [next]
    exact sound.move enabled rfl server proc
  | timer request mdata now get accepted =>
    obtain ⟨stage, next, server, proc⟩ := reqModexTimeoutHandler_taken now fits
    show Sound (servers.move _ (reqModexTimeoutHandler now get accepted mdata))
    rw [next]
    exact sound.move enabled rfl server proc
  | complete request mdata response => exact sound.move enabled rfl rfl rfl
  | handleRes request dest msg => exact sound.respond reflexive enabled fits

theorem sound_start : Sound .start := by
  refine ⟨nodup_nil, ?_, ?_, ?_, ?_, nodup_nil, ?_, ?_, ?_,
    nodup_nil, ?_, ?_, fun request below => absurd below (Nat.not_lt_zero _)⟩
  any_goals exact fun x member => absurd member not_mem_nil
  any_goals exact fun server x member => absurd member not_mem_nil
  exact fun server => List.Pairwise.nil

/-- Each request gets the response generated for it while the library takes the
requests and answers those for one process in their order. -/
theorem modex_answered (reflexive : ∀ nspace, checkNspace nspace nspace = true)
    (reachable : (fittingSystem nodeFromProc checkNspace).Reachable servers) :
    Answered servers := by
  have invariant : (fittingSystem nodeFromProc checkNspace).Invariant Sound :=
    { initial := by
        intro servers start
        rw [show servers = Servers.start from start]
        exact sound_start
      step := by
        rintro before after sound ⟨event, enabled, fits, rfl⟩
        exact sound_step reflexive sound enabled fits }
  exact (invariant.reachable reachable).to_answered

end Run

/-! ## Two requests for one process -/

def sameNspace (left right : String) : Bool := left = right

/-- The first process of a namespace, which lives on node 1. -/
def someProc : Proc := ⟨"job", 0⟩

def onNode (_proc : Proc) : Option Nat := some 1

/-- The process has not put the key yet. -/
def notPut (key : String) : GetStatus :=
  if key = "late" then .notFound else .success

/-- A request for all there is, handed to the library at once. -/
def simpleEvents : List Event :=
  [.issue 0 someProc [] 0 true,
    .handleReq 0 ⟨0, "job", 0, 0, []⟩ 0 notPut true,
    .complete 0 ⟨someProc, 0, 0, [], 0, 0⟩ ⟨0, [1]⟩,
    .handleRes 0 0 ⟨"job", 0, ⟨0, [1]⟩⟩]

/-- A request for a key that is not there yet, and one for all there is. -/
def overtakingEvents : List Event :=
  [.issue 0 someProc ["late"] 10 true,
    .issue 0 someProc [] 0 true,
    .handleReq 0 ⟨0, "job", 0, 10, ["late"]⟩ 0 notPut true,
    .handleReq 1 ⟨0, "job", 0, 0, []⟩ 0 notPut true,
    .complete 1 ⟨someProc, 0, 0, [], 0, 0⟩ ⟨0, [1]⟩,
    .handleRes 1 0 ⟨"job", 0, ⟨0, [1]⟩⟩]

/-- The events happen one after the other. -/
def runFrom (servers : Servers) (events : List Event) : Servers :=
  events.foldl (perform onNode sameNspace) servers

instance (servers : Servers) : (event : Event) → Decidable (Enabled servers event)
  | .issue .. => isTrue trivial
  | .handleReq request msg .. => inferInstanceAs
      (Decidable (⟨request, .asked msg⟩ ∈ servers.travels))
  | .timer request mdata .. => inferInstanceAs
      (Decidable (⟨request, .polled mdata⟩ ∈ servers.travels))
  | .complete request mdata _ => inferInstanceAs
      (Decidable (⟨request, .library mdata⟩ ∈ servers.travels))
  | .handleRes request dest msg => inferInstanceAs
      (Decidable (⟨request, .answered dest msg⟩ ∈ servers.travels))

/-- Each event is enabled when it happens. -/
def AllEnabled (servers : Servers) : List Event → Prop
  | [] => True
  | event :: events => Enabled servers event
      ∧ AllEnabled (perform onNode sameNspace servers event) events

def AllFit (servers : Servers) : List Event → Prop
  | [] => True
  | event :: events => Fits sameNspace servers event
      ∧ AllFit (perform onNode sameNspace servers event) events

theorem reachable_runFrom {events : List Event}
    (reachable : (modexSystem onNode sameNspace).Reachable servers)
    (enabled : AllEnabled servers events) :
    (modexSystem onNode sameNspace).Reachable (runFrom servers events) := by
  induction events generalizing servers with
  | nil => exact reachable
  | cons event events induction =>
    exact induction (reachable.step ⟨event, enabled.1, rfl⟩) enabled.2

theorem fitting_runFrom {events : List Event}
    (reachable : (fittingSystem onNode sameNspace).Reachable servers)
    (enabled : AllEnabled servers events) (fit : AllFit servers events) :
    (fittingSystem onNode sameNspace).Reachable (runFrom servers events) := by
  induction events generalizing servers with
  | nil => exact reachable
  | cons event events induction =>
    exact induction (reachable.step ⟨event, enabled.1, fit.1, rfl⟩) enabled.2 fit.2

theorem modex_answered_simple : Answered (runFrom .start simpleEvents) :=
  modex_answered (fun _ => decide_eq_true rfl)
    (fitting_runFrom (.initial rfl)
      ⟨by decide, by decide, by decide, by decide, trivial⟩
      ⟨trivial, fun _ => rfl, trivial, fun _ _ _ => Nat.zero_le _, trivial⟩)

/-- The response for the second request is returned to the first one. -/
theorem not_modex_answered :
    ¬∀ servers, (modexSystem onNode sameNspace).Reachable servers → Answered servers := by
  intro all
  have reachable : (modexSystem onNode sameNspace).Reachable (runFrom .start overtakingEvents) := by
    exact reachable_runFrom (.initial rfl) ⟨by decide, by decide, by decide,
      by decide, by decide, by decide, trivial⟩
  have returned := (all _ reachable).right (0, ⟨0, [1]⟩) (by decide)
  exact absurd returned (by decide)

end Psmgmt.Pmix.Modex
