import Psmgmt.Rdp.PacketRules

/-!
# Notifications and the state of connections

A connection is told to be new at the end of the transition making it active.
This transition first sends the pending messages or an ACK, which may already
close the connection again.  The loss is told before the connection is.
-/

namespace Psmgmt.Rdp

open List

/-- What is known of the connection to `node` after an event. -/
def Event.inform (node : Nat) (told : Bool) : Event → Bool
  | .callback (.newConnection other) => if other = node then true else told
  | .callback (.lostConnection other) => if other = node then false else told
  | _ => told

/-- The connection to `node` as `RDPCallback` was told last. -/
def informed (node : Nat) (told : Bool) (events : List Event) : Bool :=
  events.foldl (Event.inform node) told

def Untimely (rdp : Station) : Callback → Prop
  | .newConnection node => (rdp.conntable node).state ≠ .active
  | _ => False

instance (rdp : Station) (info : Callback) : Decidable (Untimely rdp info) :=
  match info with
  | .newConnection node => inferInstanceAs (Decidable ((rdp.conntable node).state ≠ .active))
  | .pktUndeliverable _ _ => inferInstanceAs (Decidable False)
  | .canContinue _ => inferInstanceAs (Decidable False)
  | .lostConnection _ => inferInstanceAs (Decidable False)

/-- A callback doing something else when called untimely. -/
def alarmed (alarm cb : RdpCallback) : RdpCallback := fun rdp info =>
  if Untimely rdp info then alarm rdp info else cb rdp info

/-- The callbacks of `callbackAt` at all depths, with an alarm. -/
def alarmedAt (alarm : RdpCallback) : (depth : Nat) → RdpCallback
  | 0 => alarmed alarm quiet
  | depth + 1 => alarmed alarm (fun rdp _ =>
    serve (alarmedAt alarm depth) (rdp.requests.head?.getD [])
      { rdp with requests := rdp.requests.tail })

/-- No callback of the call is untimely: whatever one did then, the call would
end the same way. -/
def Timely (depth : Nat) (call : Call) (rdp : Station) : Prop :=
  ∀ alarm, perform (alarmedAt alarm depth) call rdp = perform (callbackAt depth) call rdp

/-- The connection `closeConnRDP()` and `RDP_updateNode()` close without a
callback. -/
def Call.suppresses (node : Nat) : Call → Bool
  | .closeConnRDP other => other = node
  | .rdpUpdateNode other _ => other = node
  | _ => false

structure Watch where
  rdp : Station
  told : Nat → Bool

def Watch.after (depth : Nat) (call : Call) (sends : List (List SendError))
    (requests : List (List Request)) (watch : Watch) : Watch :=
  let rdp := perform (callbackAt depth) call (watch.rdp.scripted sends requests)
  { rdp := rdp
    told := fun node =>
      informed node (watch.told node) rdp.trace &&
        (!call.suppresses node || (rdp.conntable node).state = .active) }

/-- The connections told to be new are active, until they are told to be lost
or closed without a callback. -/
def Watch.Active (watch : Watch) : Prop :=
  ∀ node, watch.told node = true → (watch.rdp.conntable node).state = .active

/-- The station telling of a new connection. -/
def settled (cb : RdpCallback) (node : Nat) (rdp : Station) : Station :=
  if (rdp.conntable node).msgPending ≠ 0 then
    flushPending node (resendMsgs cb node rdp)
  else
    sendACK cb node rdp

theorem activated_eq (cb : RdpCallback) (node : Nat) (rdp : Station) :
    activated cb node rdp = notify cb (.newConnection node) (settled cb node rdp) :=
  rfl

/-- It is time to retransmit messages, but the retransmissions are used up. -/
def Exhausted (node : Nat) (rdp : Station) : Prop :=
  (rdp.conntable node).pendList ≠ [] ∧ (rdp.conntable node).tmout < gettimeofday rdp ∧
      (rdp.conntable node).retrans > rdp.maxRetransCount

/-- None of these failures makes `MYsendto()` close the connection. -/
def Spares (node : Nat) (sends : List (List SendError)) : Prop :=
  ∀ errors ∈ sends, ∀ error ∈ errors, ¬error.Closes node

/-- The answers of `sendto()` used up since `before`. -/
def answersUsed (before after : Station) : List (List SendError) :=
  before.sends.take (before.sends.length - after.sends.length)

/-- A packet making the connection active does so while the retransmissions
are not used up, and no `sendto()` before the notification fails in such a way
that the connection is closed. -/
def Settles (depth : Nat) (call : Call) (rdp : Station) : Prop :=
  match call with
  | .handleRDP node packet =>
    ∀ begun, Begins node rdp begun → Activates (begun.conntable node).state packet.header.type →
        ¬((begun.conntable node).msgPending ≠ 0 ∧ Exhausted node begun) ∧
          Spares node (answersUsed begun
            (settled (callbackAt depth) node (becomeActive packet.header node begun)))
  | _ => True

/-- A station from `RDP_init()` on, with nothing told. -/
def Watch.Initial (watch : Watch) : Prop :=
  ∃ nodes hosts localID clock randoms, watch =
      { rdp := rdpInit nodes hosts localID clock randoms
        told := fun _ => false }

def notifyingSystem (depth : Nat) : TransitionSystem Watch where
  initial := Watch.Initial
  step before after := ∃ call sends requests, after = before.after depth call sends requests

def undisturbedNotifying (depth : Nat) : TransitionSystem Watch where
  initial := Watch.Initial
  step before after := ∃ call sends requests,
    Settles depth call (before.rdp.scripted sends requests) ∧
      after = before.after depth call sends requests

section Agreement

variable {cb other : RdpCallback}

/-- Callbacks that do the same unless called untimely. -/
def Agrees (other cb : RdpCallback) : Prop :=
  ∀ rdp info, ¬Untimely rdp info → other rdp info = cb rdp info

variable {rdp : Station} {node : Nat} {hdr : Header} {packet : Packet}

section

variable (agrees : Agrees other cb)

include agrees

theorem notify_congr {info : Callback} (timely : ¬Untimely rdp info) :
    notify other info rdp = notify cb info rdp := by
  apply agrees
  cases info with
  | newConnection => exact timely
  | pktUndeliverable => exact id
  | canContinue => exact id
  | lostConnection => exact id

theorem clearLoop_congr (node count : Nat) :
    ∀ index rdp, clearLoop other node count index rdp = clearLoop cb node count index rdp := by
  induction count with
  | zero =>
    intro index rdp
    rfl
  | succ count induction =>
    intro index rdp
    simp only [clearLoop]
    split
    · rfl
    · next mp _ =>
        have told : notify other (.pktUndeliverable node mp.data) rdp =
            notify cb (.pktUndeliverable node mp.data) rdp :=
          notify_congr agrees id
        rw [told, induction, induction]

theorem closeConnection_congr (node : Nat) (callback : Bool) (rdp : Station) :
    closeConnection other node callback rdp = closeConnection cb node callback rdp := by
  rw [closeConnection_eq, closeConnection_eq, clearLoop_congr agrees]
  simp only
  split
  · exact notify_congr agrees id
  · rfl

theorem sendLoop_congr (node : Nat) (packet : Packet) (errors : List SendError) :
    ∀ rdp, sendLoop other node packet errors rdp = sendLoop cb node packet errors rdp := by
  induction errors with
  | nil =>
    intro rdp
    rfl
  | cons error rest induction =>
    intro rdp
    have handled : handleErr other error.eno error.queue rdp =
        handleErr cb error.eno error.queue rdp := by
      simp only [handleErr, closeConnection_congr agrees]
    simp only [sendLoop, handled, induction]

theorem mysendto_congr : mysendto other = mysendto cb := by
  funext node packet rdp
  simp only [mysendto, sendLoop_congr agrees]

theorem resendLoop_congr (node count : Nat) :
    ∀ index rdp, resendLoop other node count index rdp = resendLoop cb node count index rdp := by
  induction count with
  | zero =>
    intro index rdp
    rfl
  | succ count induction =>
    intro index rdp
    simp only [resendLoop, mysendto_congr agrees, induction]

theorem sendACK_congr : sendACK other = sendACK cb := by
  funext node rdp
  simp only [sendACK, mysendto_congr agrees]

theorem sendSYN_congr : sendSYN other = sendSYN cb := by
  funext node rdp
  simp only [sendSYN, mysendto_congr agrees]

theorem sendSYNACK_congr : sendSYNACK other = sendSYNACK cb := by
  funext node rdp
  simp only [sendSYNACK, mysendto_congr agrees]

theorem resendMsgs_congr : resendMsgs other = resendMsgs cb := by
  funext node rdp
  simp only [resendMsgs, closeConnection_congr agrees, sendSYN_congr agrees,
    sendSYNACK_congr agrees, resendLoop_congr agrees]

theorem rsendto_congr : rsendto other = rsendto cb := by
  funext node buf rdp
  have sent : sendMessage other = sendMessage cb := by
    funext node buf rdp
    have transmitted : transmit other = transmit cb := by
      funext node msg state rdp
      simp only [transmit, sendSYN_congr agrees, sendSYNACK_congr agrees, mysendto_congr agrees]
    simp only [sendMessage, transmitted]
  simp only [rsendto, sent]

theorem serve_congr (requests : List Request) :
    ∀ rdp, serve other requests rdp = serve cb requests rdp := by
  induction requests with
  | nil =>
    intro rdp
    rfl
  | cons request rest induction =>
    intro rdp
    simp only [serve, rsendto_congr agrees, induction]

end

theorem agrees_alarmedAt (alarm : RdpCallback) (depth : Nat) :
    Agrees (alarmedAt alarm depth) (callbackAt depth) := by
  induction depth with
  | zero =>
    intro rdp info timely
    rw [alarmedAt, alarmed, if_neg timely]
    rfl
  | succ depth nested =>
    intro rdp info timely
    rw [alarmedAt, alarmed, if_neg timely, serve_congr nested]
    rfl

theorem settled_congr (agrees : Agrees other cb) (node : Nat) (rdp : Station) :
    settled other node rdp = settled cb node rdp := by
  simp only [settled, resendMsgs_congr agrees, sendACK_congr agrees]

theorem activated_congr (agrees : Agrees other cb)
    (active : ((settled cb node rdp).conntable node).state = .active) :
    activated other node rdp = activated cb node rdp := by
  rw [activated_eq, activated_eq, settled_congr agrees]
  exact notify_congr agrees (not_not.mpr active)

theorem Activates.not_active {type : PktType} : ¬Activates .active type := by
  rintro (⟨state, _⟩ | ⟨state, _⟩)
  · cases state
  · cases state

section

variable (agrees : Agrees other cb)

include agrees

theorem updateState_congr
    (settles : Activates (rdp.conntable node).state hdr.type →
      ((settled cb node (becomeActive hdr node rdp)).conntable node).state = .active) :
    updateState other hdr node rdp = updateState cb hdr node rdp := by
  have accepts : Activates (rdp.conntable node).state hdr.type → hdr.type = .synack →
        activated other node (accept .active hdr node rdp) =
          activated cb node (accept .active hdr node rdp) := by
    intro activates synack
    apply activated_congr agrees
    rw [← becomeActive_synack synack]
    exact settles activates
  have enters : Activates (rdp.conntable node).state hdr.type → hdr.type ≠ .synack →
        activated other node (enter .active node rdp) =
          activated cb node (enter .active node rdp) := by
    intro activates different
    apply activated_congr agrees
    rw [← becomeActive_other different]
    exact settles activates
  simp only [updateState, sendSYN_congr agrees, sendSYNACK_congr agrees,
    closeConnection_congr agrees]
  split
  · rfl
  · next state =>
      split
      · rfl
      · next synack => exact accepts (.inl ⟨state, synack⟩) synack
      · rfl
  · next state =>
      split
      · rfl
      · next synack => exact accepts (.inr ⟨state, .inl synack⟩) synack
      · next ack =>
          apply enters (.inr ⟨state, .inr (.inl ack)⟩)
          simp [ack]
      · next data =>
          apply enters (.inr ⟨state, .inr (.inr data)⟩)
          simp [data]
      · rfl
  · rfl

theorem doACK_congr (hdr : Header) {node : Nat} {rdp : Station}
    (active : (rdp.conntable node).state = .active) :
    doACK other hdr node rdp = doACK cb hdr node rdp := by
  have updated : updateState other hdr node rdp = updateState cb hdr node rdp := by
    apply updateState_congr agrees
    intro activates
    rw [active] at activates
    exact absurd activates Activates.not_active
  have answered : answerData other hdr node rdp = answerData cb hdr node rdp := by
    have nacked : sendNACK other = sendNACK cb := by
      funext node rdp
      simp only [sendNACK, mysendto_congr agrees]
    simp only [answerData, sendACK_congr agrees, nacked]
  have told : ∀ after, notify other (.canContinue node) after =
      notify cb (.canContinue node) after :=
    fun after => notify_congr agrees id
  simp only [doACK, updated, answered, told]

theorem rrecvfrom_congr (data : packet.header.type = .data)
    (active : (rdp.conntable node).state = .active) :
    (rrecvfrom other packet maxDataSize node rdp).2 =
      (rrecvfrom cb packet maxDataSize node rdp).2 := by
  have acked := @doACK_congr cb other agrees packet.header node rdp active
  simp [rrecvfrom, data, active, acked, takeData, sendACK_congr agrees]

theorem handlePacket_congr
    (settles : Activates (rdp.conntable node).state packet.header.type →
      ((settled cb node (becomeActive packet.header node rdp)).conntable node).state = .active) :
    handlePacket other packet node rdp = handlePacket cb packet node rdp := by
  have updated := updateState_congr agrees settles
  by_cases active : (rdp.conntable node).state = .active
  · have acked := doACK_congr agrees packet.header active
    simp only [handlePacket, handleControlPacket, updated, acked, resendMsgs_congr agrees]
    split
    · rfl
    · next data =>
        split
        · rfl
        · exact rrecvfrom_congr agrees (not_not.mp data) active
  · simp only [handlePacket, handleControlPacket, updated, active,
      resendMsgs_congr agrees, ne_eq, not_false_eq_true, if_true, or_true,
      if_false]

theorem handleTimeoutRDP_congr (rdp : Station) :
    handleTimeoutRDP other rdp = handleTimeoutRDP cb rdp := by
  have resent : ∀ now count index rdp,
      timeoutLoop other now count index rdp = timeoutLoop cb now count index rdp := by
    intro now count
    induction count with
    | zero =>
      intro index rdp
      rfl
    | succ count induction =>
      intro index rdp
      simp only [timeoutLoop, resendMsgs_congr agrees, induction]
  have cleaned : ∀ count index rdp,
      cleanupLoop other count index rdp = cleanupLoop cb count index rdp := by
    intro count
    induction count with
    | zero =>
      intro index rdp
      rfl
    | succ count induction =>
      intro index rdp
      have told : ∀ node after, notify other (.canContinue node) after =
          notify cb (.canContinue node) after :=
        fun node after => notify_congr agrees id
      simp only [cleanupLoop, cleanupMsg, told, induction]
  simp only [handleTimeoutRDP, resent, cleaned]

end

end Agreement

theorem informed_append (node : Nat) (told : Bool) (first second : List Event) :
    informed node told (first ++ second) = informed node (informed node told first) second :=
  foldl_append

theorem informed_quiet {events : List Event}
    (quiet : ∀ other, .callback (.newConnection other) ∉ events) :
    ∀ {told : Bool}, informed node told events = true →
      told = true ∧ .callback (.lostConnection node) ∉ events := by
  induction events with
  | nil =>
    intro told active
    exact ⟨active, not_mem_nil⟩
  | cons event rest induction =>
    intro told active
    have later : ∀ other, .callback (.newConnection other) ∉ rest :=
      fun other member => quiet other (mem_cons_of_mem _ member)
    rcases induction later active with ⟨still, kept⟩
    cases event with
    | callback info =>
      cases info with
      | newConnection other => exact absurd mem_cons_self (quiet other)
      | lostConnection other =>
        by_cases same : other = node
        · rw [Event.inform, if_pos same] at still
          exact absurd still Bool.false_ne_true
        · rw [Event.inform, if_neg same] at still
          refine ⟨still, ?_⟩
          simpa [Ne.symm same] using kept
      | pktUndeliverable other buf => exact ⟨still, by simpa using kept⟩
      | canContinue other => exact ⟨still, by simpa using kept⟩
    | submit dest packet => exact ⟨still, by simpa using kept⟩
    | sendto dest packet => exact ⟨still, by simpa using kept⟩
    | queued dest message => exact ⟨still, by simpa using kept⟩
    | received dest message => exact ⟨still, by simpa using kept⟩
    | closing dest => exact ⟨still, by simpa using kept⟩

/-- What happens between two stations without a new connection being told: a
connection ceases to be active only if its loss is told, and for those not in
`lost` only if a failing `sendto()` closes it. -/
structure Keeps (lost : Nat → Prop) (before after : Station) : Prop where
  events : ∃ events, after.trace = before.trace ++ events ∧
    (∀ node, .callback (.newConnection node) ∉ events) ∧
      ∀ node, (before.conntable node).state = .active →
        .callback (.lostConnection node) ∉ events → (after.conntable node).state = .active
  answers : ∃ used, before.sends = used ++ after.sends ∧ ∀ node, ¬lost node → Spares node used →
      (before.conntable node).state = .active → (after.conntable node).state = .active

/-- No connection. -/
def Nowhere (_node : Nat) : Prop := False

namespace Keeps

variable {lost : Nat → Prop} {before middle after : Station}

theorem mono (keeps : Keeps lost before after) {more : Nat → Prop}
    (implies : ∀ node, lost node → more node) : Keeps more before after := by
  rcases keeps.answers with ⟨used, sends, active⟩
  refine ⟨keeps.events, used, sends, ?_⟩
  intro node outside
  exact active node (fun member => outside (implies node member))

theorem trans (first : Keeps lost before middle)
    (second : Keeps lost middle after) : Keeps lost before after := by
  constructor
  · rcases first.events with ⟨events, trace, quiet, active⟩
    rcases second.events with ⟨events', trace', quiet', active'⟩
    refine ⟨events ++ events', ?_, ?_, ?_⟩
    · rw [trace', trace, append_assoc]
    · intro node member
      exact (mem_append.mp member).elim (quiet node) (quiet' node)
    · intro node established kept
      apply active' node
      · apply active node established
        exact fun member => kept (mem_append_left _ member)
      · exact fun member => kept (mem_append_right _ member)
  · rcases first.answers with ⟨used, sends, active⟩
    rcases second.answers with ⟨used', sends', active'⟩
    refine ⟨used ++ used', ?_, ?_⟩
    · rw [sends, sends', append_assoc]
    · intro node outside spares established
      apply active' node outside
      · exact fun errors member => spares errors (mem_append_right _ member)
      · apply active node outside _ established
        exact fun errors member => spares errors (mem_append_left _ member)

theorem of_stays (trace : after.trace = before.trace)
    (sends : after.sends = before.sends)
    (stays : ∀ node, (before.conntable node).state = .active →
      (after.conntable node).state = .active) :
    Keeps lost before after := by
  constructor
  · refine ⟨[], ?_, ?_, ?_⟩
    · rw [trace, append_nil]
    · exact fun node => not_mem_nil
    · exact fun node established _ => stays node established
  · refine ⟨[], ?_, ?_⟩
    · rw [sends, nil_append]
    · exact fun node _ _ established => stays node established

theorem refl (rdp : Station) : Keeps lost rdp rdp := of_stays rfl rfl (fun _ => id)

theorem of_eq (conntable : after.conntable = before.conntable)
    (trace : after.trace = before.trace) (sends : after.sends = before.sends) :
    Keeps lost before after := by
  apply of_stays trace sends
  intro node
  rw [conntable]
  exact id

theorem log (rdp : Station) {event : Event}
    (quiet : ∀ node, event ≠ .callback (.newConnection node)) :
    Keeps lost rdp (rdp.log event) := by
  constructor
  · refine ⟨[event], rfl, ?_, fun _ established _ => established⟩
    intro node member
    exact quiet node (mem_singleton.mp member).symm
  · exact ⟨[], rfl, fun _ _ _ established => established⟩

theorem modify (rdp : Station) (node : Nat) {change : Conn → Conn}
    (stays : (rdp.conntable node).state = .active → (change (rdp.conntable node)).state = .active) :
    Keeps lost rdp (rdp.modify node change) := by
  apply @of_stays lost rdp (rdp.modify node change) rfl rfl
  intro other established
  by_cases same : other = node
  · subst same
    rw [Station.modify_self]
    exact stays established
  · rw [Station.modify_other same]
    exact established

theorem leave (keeps : Keeps lost before after)
    (told : ∀ events, after.trace = before.trace ++ events →
      .callback (.lostConnection node) ∈ events) (member : lost node)
    (change : Conn → Conn) : Keeps lost before (after.modify node change) := by
  constructor
  · rcases keeps.events with ⟨events, trace, quiet, active⟩
    refine ⟨events, trace, quiet, ?_⟩
    intro other established kept
    by_cases same : other = node
    · subst same
      exact absurd (told events trace) kept
    · rw [Station.modify_other same]
      exact active other established kept
  · rcases keeps.answers with ⟨used, sends, active⟩
    refine ⟨used, sends, ?_⟩
    intro other outside spares established
    by_cases same : other = node
    · subst same
      exact absurd member outside
    · rw [Station.modify_other same]
      exact active other outside spares established

end Keeps

section Sending

variable {cb : RdpCallback} {lost : Nat → Prop}

/-- A callback during which nothing else is told to be new. -/
def Keeping (cb : RdpCallback) : Prop := ∀ rdp info, Keeps Nowhere rdp (cb rdp info)

theorem notify_keeps (keeping : Keeping cb) (rdp : Station) {info : Callback}
    (quiet : ∀ node, info ≠ .newConnection node) :
    Keeps lost rdp (notify cb info rdp) := by
  have logged : Keeps lost rdp (rdp.log (.callback info)) := by
    apply Keeps.log
    intro node same
    exact quiet node (Event.callback.inj same)
  exact logged.trans ((keeping _ info).mono (fun _ => False.elim))

theorem markDeleted_keeps (node index : Nat) (rdp : Station) :
    Keeps lost rdp (markDeleted node index rdp) :=
  (@Keeps.modify lost rdp node (Conn.markDeleted index) id).trans (Keeps.of_eq rfl rfl rfl)

theorem clearLoop_keeps (keeping : Keeping cb) (node count : Nat) :
    ∀ index rdp, Keeps lost rdp (clearLoop cb node count index rdp) := by
  induction count with
  | zero =>
    intro index rdp
    exact Keeps.refl rdp
  | succ count induction =>
    intro index rdp
    rw [clearLoop]
    split
    · exact Keeps.refl rdp
    · split
      · exact induction _ _
      · apply (notify_keeps keeping rdp _).trans
        · exact (markDeleted_keeps node index _).trans (induction _ _)
        · exact fun _ => Callback.noConfusion

/-- The loss of the connection to `node` is told between two stations. -/
def TellsLost (node : Nat) (before after : Station) : Prop :=
  ∀ events, after.trace = before.trace ++ events → .callback (.lostConnection node) ∈ events

theorem closeConnection_keeps (keeping : Keeping cb) (member : lost node)
    (rdp : Station) :
    Keeps lost rdp (closeConnection cb node true rdp) ∧
      TellsLost node rdp (closeConnection cb node true rdp) := by
  let cleared := clearLoop cb node maxWindowSize 0 (rdp.log (.closing node))
  have clearing : Keeps lost rdp cleared :=
    (Keeps.log rdp (fun _ => Event.noConfusion)).trans
      (clearLoop_keeps keeping node maxWindowSize 0 _)
  have told : Keeps lost rdp (cleared.log (.callback (.lostConnection node))) := by
    apply clearing.trans (Keeps.log _ _)
    intro other same
    cases same
  have tells : TellsLost node rdp (cleared.log (.callback (.lostConnection node))) := by
    intro events trace
    rcases clearing.events with ⟨earlier, cleared, _⟩
    rw [Station.log, cleared, append_assoc] at trace
    rw [← append_cancel_left trace]
    exact mem_append_right _ mem_cons_self
  have closed : Keeps lost rdp ((finishClosing node cleared).log
      (.callback (.lostConnection node))) :=
    (told.leave tells member
      (Conn.closeWith (cleared.randoms cleared.draws))).trans (Keeps.of_eq rfl rfl rfl)
  have called := keeping ((finishClosing node cleared).log
    (.callback (.lostConnection node))) (.lostConnection node)
  rw [closeConnection_eq]
  refine ⟨closed.trans (called.mono (fun _ => False.elim)), ?_⟩
  intro events trace
  rcases closed.events with ⟨first, logged, _⟩
  rcases called.events with ⟨second, answered, _⟩
  have final : rdp.trace ++ events = rdp.trace ++ (first ++ second) := by
    rw [← append_assoc, ← logged, ← answered]
    exact trace.symm
  rw [append_cancel_left final]
  exact mem_append_left _ (tells first logged)

theorem handleErr_keeps (keeping : Keeping cb) {error : SendError}
    (members : ∀ node, error.Closes node → lost node) (rdp : Station) :
    Keeps lost rdp (handleErr cb error.eno error.queue rdp).2 := by
  rw [handleErr.eq_def]
  split
  · exact Keeps.refl rdp
  · exact Keeps.refl rdp
  · next node named =>
      split
      · next unreachable =>
          exact (closeConnection_keeps keeping (members node ⟨unreachable, named⟩) rdp).1
      · exact Keeps.refl rdp

theorem sendLoop_keeps (keeping : Keeping cb) (node : Nat) (packet : Packet)
    (errors : List SendError) :
    (∀ error ∈ errors, ∀ node, error.Closes node → lost node) →
      ∀ rdp, Keeps lost rdp (sendLoop cb node packet errors rdp).2 := by
  induction errors with
  | nil =>
    intro _ rdp
    exact Keeps.log rdp (fun _ => Event.noConfusion)
  | cons error rest induction =>
    intro members rdp
    have later := induction (fun other member => members other (mem_cons_of_mem _ member))
    have handled := @handleErr_keeps cb lost keeping error (members error mem_cons_self) rdp
    rw [sendLoop]
    split
    · exact later rdp
    · split
      · split
        · next equality =>
            rw [equality] at handled
            exact handled
        · next equality =>
            rw [equality] at handled
            split
            · exact handled
            · exact handled.trans (later _)
      · exact Keeps.refl rdp

theorem mysendto_keeps (keeping : Keeping cb) (node : Nat) (packet : Packet)
    (rdp : Station) : Keeps lost rdp (mysendto cb node packet rdp).2 := by
  have submitted : Keeps lost rdp (rdp.log (.submit node packet)) :=
    Keeps.log rdp (fun _ => Event.noConfusion)
  rw [mysendto]
  split
  · exact submitted
  · apply submitted.trans
    generalize rdp.log (.submit node packet) = rdp
    cases answers : rdp.sends with
    | nil =>
      have same : { rdp with sends := [].tail } = rdp := by
        rw [tail_nil, ← answers]
      rw [same]
      exact Keeps.log rdp (fun _ => Event.noConfusion)
    | cons errors rest =>
      have sent := @sendLoop_keeps cb (fun other => ∃ error ∈ errors, error.Closes other) keeping
        node packet errors (fun error member _ closes => ⟨error, member, closes⟩)
        { rdp with sends := rest }
      rcases sent.answers with ⟨used, sends, active⟩
      refine ⟨sent.events, errors :: used, ?_, ?_⟩
      · rw [answers, cons_append]
        exact congrArg (errors :: ·) sends
      · intro other _ spares established
        apply active other _ _ established
        · rintro ⟨error, member, closes⟩
          exact spares errors mem_cons_self error member closes
        · exact fun later member => spares later (mem_cons_of_mem _ member)

theorem clearAckPending_keeps (node : Nat) (rdp : Station) :
    Keeps lost rdp (clearAckPending node rdp) :=
  Keeps.modify rdp node id

section

variable (keeping : Keeping cb) (node : Nat)

include keeping node

theorem sendACK_keeps (rdp : Station) : Keeps lost rdp (sendACK cb node rdp) :=
  (mysendto_keeps keeping node _ rdp).trans (clearAckPending_keeps node _)

theorem sendSYNACK_keeps (rdp : Station) : Keeps lost rdp (sendSYNACK cb node rdp) :=
  (mysendto_keeps keeping node _ rdp).trans (clearAckPending_keeps node _)

theorem sendSYN_keeps (rdp : Station) : Keeps lost rdp (sendSYN cb node rdp) :=
  mysendto_keeps keeping node _ rdp

theorem resendLoop_keeps (count : Nat) :
    ∀ index rdp, Keeps lost rdp (resendLoop cb node count index rdp) := by
  induction count with
  | zero =>
    intro index rdp
    exact Keeps.refl rdp
  | succ count induction =>
    intro index rdp
    rw [resendLoop]
    split
    · exact Keeps.refl rdp
    · split
      · exact induction _ _
      · next mp _ _ =>
          have refreshed : Keeps lost rdp (refreshAck node index rdp) :=
            @Keeps.modify lost rdp node (Conn.refreshAck index) id
          have sent := refreshed.trans (mysendto_keeps keeping node
            { header := { mp.header with
                ackno := (rdp.conntable node).frameExpected - 1 }
              data := mp.data } _)
          simp only
          split
          · next equality =>
              rw [equality] at sent
              exact sent
          · next equality =>
              rw [equality] at sent
              exact sent.trans (induction _ _)

end

theorem resendMsgs_keeps (keeping : Keeping cb)
    (member : Exhausted node rdp → lost node) :
    Keeps lost rdp (resendMsgs cb node rdp) := by
  have ticked : Keeps lost rdp rdp.tick := Keeps.of_eq rfl rfl rfl
  rw [resendMsgs]
  split
  · exact Keeps.refl rdp
  · next pending =>
      simp only
      split
      · exact ticked
      · next late =>
          have timed : Keeps lost rdp (rdp.tick.modify node (fun conn =>
              { conn with
                tmout := gettimeofday rdp + rdp.tick.resendTimeout })) :=
            ticked.trans (Keeps.modify _ node id)
          split
          · next retrans =>
              apply timed.trans
              apply (closeConnection_keeps keeping (member _) _).1
              rw [Station.modify_self] at retrans
              exact ⟨pending, not_not.mp late, retrans⟩
          · have counted := timed.trans (@Keeps.modify lost _ node
              (fun conn => { conn with retrans := conn.retrans + 1 }) id)
            split
            · exact counted
            · exact counted.trans (sendSYN_keeps keeping node _)
            · exact counted.trans (sendSYNACK_keeps keeping node _)
            · exact (counted.trans (resendLoop_keeps keeping node _ _ _)).trans
                (clearAckPending_keeps node _)

theorem enqueue_keeps (node id : Nat) (buf : List UInt8) (rdp : Station) :
    Keeps lost rdp (enqueue node id buf rdp) := by
  have queued : Keeps lost rdp (rdp.modify node (fun conn =>
      conn.queue ((rdp.conntable node).newMsg id buf))) := by
    apply Keeps.modify
    intro active
    simp only [Conn.queue, Conn.count, active]
  have listed := queued.trans (@Keeps.of_eq lost _
    { rdp.modify node (fun conn =>
        conn.queue ((rdp.conntable node).newMsg id buf)) with
      ackList := rdp.ackList ++ [(node, id)] } rfl rfl rfl)
  exact listed.trans (Keeps.log _ (fun _ => Event.noConfusion))

theorem sendMessage_keeps (keeping : Keeping cb) (node : Nat) (buf : List UInt8)
    (rdp : Station) :
    Keeps lost rdp (sendMessage cb node buf rdp).2 := by
  rw [sendMessage, getMsg]
  cases free : rdp.msgFreeList with
  | nil => exact Keeps.refl rdp
  | cons id rest =>
    rcases getFrame_eq buf.length rdp with ⟨ok, small, mallocs, framed⟩
    have allocated := framed rest rdp.ticks rdp.conntable
    cases ok with
    | false =>
      simp only [allocated]
      exact Keeps.of_eq rfl rfl rfl
    | true =>
      rcases restartTimer_eq node
        { rdp with
          msgFreeList := rest, sMsgFree := small, mallocs := mallocs } with
        ⟨tmout, retrans, restarted⟩
      simp only [allocated, restarted]
      have taken : Keeps lost rdp
          { rdp with
            msgFreeList := rest, sMsgFree := small, mallocs := mallocs
            ticks := rdp.ticks + 1 } :=
        Keeps.of_eq rfl rfl rfl
      have timed := taken.trans (@Keeps.modify lost _ node
        (Conn.timer tmout retrans) (fun active => active))
      apply (timed.trans (enqueue_keeps node id buf _)).trans
      rw [transmit.eq_def]
      split
      · exact sendSYN_keeps keeping node _
      · exact sendSYN_keeps keeping node _
      · exact sendSYNACK_keeps keeping node _
      · exact mysendto_keeps keeping node _ _

theorem rsendto_keeps (keeping : Keeping cb) (node : Nat) (buf : List UInt8)
    (rdp : Station) : Keeps lost rdp (rsendto cb node buf rdp).2 := by
  have ticked : Keeps lost rdp rdp.tick := Keeps.of_eq rfl rfl rfl
  rw [rsendto]
  split
  · exact Keeps.refl rdp
  · split
    · exact Keeps.refl rdp
    · split
      · exact Keeps.refl rdp
      · split
        · exact Keeps.refl rdp
        · split
          · simp only
            split
            · exact ticked
            · exact (ticked.trans (Keeps.modify _ node id)).trans
                (sendMessage_keeps keeping node buf _)
          · exact sendMessage_keeps keeping node buf rdp

theorem serve_keeps (keeping : Keeping cb) (requests : List Request) :
    ∀ rdp, Keeps lost rdp (serve cb requests rdp) := by
  induction requests with
  | nil =>
    intro rdp
    exact Keeps.refl rdp
  | cons request rest induction =>
    intro rdp
    exact (rsendto_keeps keeping request.node request.buf rdp).trans (induction _)

theorem keeping_callbackAt (depth : Nat) : Keeping (callbackAt depth) := by
  induction depth with
  | zero =>
    intro rdp info
    exact Keeps.refl rdp
  | succ depth nested =>
    intro rdp info
    have taken : Keeps Nowhere rdp { rdp with requests := rdp.requests.tail } :=
      Keeps.of_eq rfl rfl rfl
    exact taken.trans (serve_keeps nested _ _)

theorem answerData_keeps (keeping : Keeping cb) (hdr : Header) (node : Nat)
    (rdp : Station) : Keeps lost rdp (answerData cb hdr node rdp) := by
  have acked : Keeps lost rdp
      (if rseqcmp hdr.seqno (rdp.conntable node).frameExpected < 0 then
        sendACK cb node rdp
      else rdp) := by
    split
    · exact sendACK_keeps keeping node rdp
    · exact Keeps.refl rdp
  have nacked : ∀ after, Keeps lost rdp after → Keeps lost rdp
      (if rseqcmp hdr.seqno (after.conntable node).frameExpected > 0 then
        sendNACK cb node after
      else after) := by
    intro after kept
    split
    · exact kept.trans (mysendto_keeps keeping node _ _)
    · exact kept
  rw [answerData]
  split
  · exact nacked _ acked
  · exact Keeps.refl rdp

theorem release_keeps (node : Nat) (msg : MsgBuf) (rdp : Station) :
    Keeps lost rdp (release node msg rdp) := by
  have dropped : Keeps lost rdp (rdp.modify node (Conn.drop msg)) :=
    Keeps.modify rdp node (fun active => active)
  exact dropped.trans (Keeps.of_eq (release_conntable node msg rdp) rfl rfl)

theorem ackLoop_keeps (node : Nat) (ackno : SeqNo) (pendList : List MsgBuf) :
    ∀ callback rdp, Keeps lost rdp (ackLoop node ackno pendList callback rdp).2 := by
  induction pendList with
  | nil =>
    intro callback rdp
    exact Keeps.refl rdp
  | cons mp rest induction =>
    intro callback rdp
    have released := @release_keeps lost node mp rdp
    rw [ackLoop]
    split
    · exact released.trans (induction _ _)
    · split
      · have counted : Keeps lost rdp (acknowledged node (release node mp rdp)) :=
          released.trans (Keeps.modify _ node (fun active => active))
        exact counted.trans (induction _ _)
      · exact Keeps.refl rdp

section

variable (keeping : Keeping cb)

include keeping

theorem updateState_keeps (member : lost node)
    (established : ¬Activates (rdp.conntable node).state hdr.type) :
    Keeps lost rdp (updateState cb hdr node rdp) := by
  have inactive : (rdp.conntable node).state ≠ .active → ∀ change,
      Keeps lost rdp (rdp.modify node change) :=
    fun different change => Keeps.modify rdp node (fun active => absurd active different)
  rw [updateState.eq_def]
  split
  · next state =>
      have changed := inactive (by simp [state])
      split
      · exact (changed _).trans (sendSYNACK_keeps keeping node _)
      · exact (changed _).trans (sendSYN_keeps keeping node _)
  · next state =>
      split
      · exact (inactive (by simp [state]) _).trans (sendSYNACK_keeps keeping node _)
      · next synack => exact absurd (.inl ⟨state, synack⟩) established
      · exact sendSYN_keeps keeping node rdp
  · next state =>
      have changed := inactive (by simp [state])
      split
      · exact (changed _).trans (sendSYNACK_keeps keeping node _)
      · next synack => exact absurd (.inr ⟨state, .inl synack⟩) established
      · next ack => exact absurd (.inr ⟨state, .inr (.inl ack)⟩) established
      · next data => exact absurd (.inr ⟨state, .inr (.inr data)⟩) established
      · exact (changed _).trans (sendSYN_keeps keeping node _)
  · rcases closeConnection_keeps keeping member rdp with ⟨closed, told⟩
    split
    · simp only
      split
      · exact (closed.leave told member _).trans (sendSYNACK_keeps keeping node _)
      · exact (closed.leave told member _).trans (sendSYN_keeps keeping node _)
      · exact closed
    · split
      · exact (closed.leave told member _).trans (sendSYNACK_keeps keeping node _)
      · exact Keeps.refl rdp

theorem doACK_keeps {hdr : Header} {node : Nat} {rdp : Station}
    (member : lost node) (active : (rdp.conntable node).state = .active) :
    Keeps lost rdp (doACK cb hdr node rdp) := by
  rw [doACK]
  split
  · exact Keeps.refl rdp
  · split
    · apply updateState_keeps keeping member
      rw [active]
      exact Activates.not_active
    · have answered := @answerData_keeps cb lost keeping hdr node rdp
      have acked := answered.trans (ackLoop_keeps node hdr.ackno
        ((answerData cb hdr node rdp).conntable node).pendList false _)
      simp only
      split
      · exact acked.trans (notify_keeps keeping _ (fun _ => Callback.noConfusion))
      · exact acked

theorem rrecvfrom_keeps (member : lost node) (data : packet.header.type = .data)
    (active : (rdp.conntable node).state = .active) :
    Keeps lost rdp (rrecvfrom cb packet maxDataSize node rdp).2 := by
  have acked := @doACK_keeps cb lost keeping packet.header node rdp member active
  rw [rrecvfrom]
  simp only [data, active, ne_eq, not_true_eq_false, if_false, reduceCtorEq, or_self]
  split
  · have counted : Keeps lost rdp (countFrame packet maxDataSize node
        (doACK cb packet.header node rdp)) := by
      have taken := acked.trans (@Keeps.modify lost _ node (fun conn =>
        { conn with
          frameExpected := conn.frameExpected + 1
          ackPending := conn.ackPending + 1 }) (fun active => active))
      rw [countFrame]
      split
      · exact taken
      · exact taken.trans (Keeps.log _ (fun _ => Event.noConfusion))
    have answered := counted.trans (sendACK_keeps keeping node _)
    rw [takeData]
    split
    · simp only
      split
      · exact answered
      · exact counted
    · simp only
      split
      · exact answered
      · exact counted
  · exact acked

theorem handlePacket_keeps {packet : Packet} {node : Nat} {rdp : Station}
    (member : lost node) (established : ¬Activates (rdp.conntable node).state packet.header.type) :
    Keeps lost rdp (handlePacket cb packet node rdp) := by
  have updated := updateState_keeps keeping member established
  have acked : Keeps lost rdp
      (if (rdp.conntable node).state ≠ .active then
        updateState cb packet.header node rdp
      else doACK cb packet.header node rdp) := by
    split
    · exact updated
    · next active => exact doACK_keeps keeping member (not_not.mp active)
  have resent : ∀ after, Keeps lost rdp after → Keeps lost rdp
      (if (after.conntable node).state = .active then
        resendMsgs cb node after
      else after) := by
    intro after kept
    split
    · exact kept.trans (resendMsgs_keeps keeping (fun _ => member))
    · exact kept
  rw [handlePacket]
  split
  · rw [handleControlPacket.eq_def]
    split
    · exact acked
    · exact resent _ acked
    · exact updated
    · exact updated
    · exact Keeps.refl rdp
  · next data =>
      split
      · split
        · next active => exact doACK_keeps keeping member active
        · exact updated
      · next inOrder =>
          rw [not_or, not_not, not_not] at inOrder
          exact rrecvfrom_keeps keeping member (not_not.mp data) inOrder.2

theorem handleTimeoutRDP_keeps (members : ∀ node, lost node) (rdp : Station) :
    Keeps lost rdp (handleTimeoutRDP cb rdp) := by
  have resent : ∀ now count index rdp, Keeps lost rdp (timeoutLoop cb now count index rdp) := by
    intro now count
    induction count with
    | zero =>
      intro index rdp
      exact Keeps.refl rdp
    | succ count induction =>
      intro index rdp
      rw [timeoutLoop]
      split
      · exact Keeps.refl rdp
      · next node id _ =>
          simp only
          split
          · exact (resendMsgs_keeps keeping (fun _ => members node)).trans (induction _ _)
          · exact induction _ _
  have cleaned : ∀ count index rdp, Keeps lost rdp (cleanupLoop cb count index rdp) := by
    intro count
    induction count with
    | zero =>
      intro index rdp
      exact Keeps.refl rdp
    | succ count induction =>
      intro index rdp
      have released : ∀ node mp, Keeps lost rdp (cleanupMsg cb node mp rdp) := by
        intro node mp
        rw [cleanupMsg]
        split
        · exact (release_keeps node mp rdp).trans
            (notify_keeps keeping _ (fun _ => Callback.noConfusion))
        · exact release_keeps node mp rdp
      rw [cleanupLoop]
      split
      · exact Keeps.refl rdp
      · simp only
        split
        · split
          · exact Keeps.refl rdp
          · exact induction _ _
        · split
          · exact released _ _
          · exact (released _ _).trans (induction _ _)
  have ticked : Keeps lost rdp rdp.tick := Keeps.of_eq rfl rfl rfl
  have passed := ticked.trans (resent (gettimeofday rdp) (ackListBound rdp.tick) 0 _)
  rw [handleTimeoutRDP]
  simp only
  split
  · exact (passed.trans (cleaned _ _ _)).trans (Keeps.of_eq rfl rfl rfl)
  · exact passed

theorem settled_keeps {node : Nat} {rdp : Station}
    (member : (rdp.conntable node).msgPending ≠ 0 ∧ Exhausted node rdp →
      lost node) : Keeps lost rdp (settled cb node rdp) := by
  rw [settled]
  split
  · next waiting =>
      exact (resendMsgs_keeps keeping (fun exhausted => member ⟨waiting, exhausted⟩)).trans
          (Keeps.modify _ node (fun active => active))
  · exact sendACK_keeps keeping node rdp

end

end Sending

/-- What the environment used up leaves the rest. -/
theorem answersUsed_eq {before after : Station} {used : List (List SendError)}
    (sends : before.sends = used ++ after.sends) :
    answersUsed before after = used := by
  rw [answersUsed, sends, length_append, Nat.add_sub_cancel]
  exact take_left

theorem Conn.activate_fields (hdr : Header) (conn : Conn) :
    (conn.activate hdr).pendList = conn.pendList ∧ (conn.activate hdr).tmout = conn.tmout ∧
      (conn.activate hdr).retrans = conn.retrans ∧ (conn.activate hdr).msgPending = conn.msgPending
      ∧ (conn.activate hdr).state = .active := by
  rw [Conn.activate]
  split
  · exact ⟨rfl, rfl, rfl, rfl, rfl⟩
  · exact ⟨rfl, rfl, rfl, rfl, rfl⟩

variable {cb : RdpCallback} {told : Bool}

/-- The connection is still active when it is told to be new. -/
theorem settled_active (keeping : Keeping cb) {begun : Station}
    (few : ¬((begun.conntable node).msgPending ≠ 0 ∧ Exhausted node begun))
    (spares : Spares node (answersUsed begun (settled cb node (becomeActive hdr node begun)))) :
    ((settled cb node (becomeActive hdr node begun)).conntable node).state = .active := by
  rcases (begun.conntable node).activate_fields hdr with
    ⟨pendList, tmout, retrans, msgPending, active⟩
  have conn : (becomeActive hdr node begun).conntable node = (begun.conntable node).activate hdr :=
    Station.modify_self begun node (Conn.activate hdr)
  have kept := @settled_keeps cb Nowhere keeping node
    (becomeActive hdr node begun) (by
      rintro ⟨waiting, pending, late, exceeded⟩
      rw [conn] at waiting pending late exceeded
      rw [msgPending] at waiting
      rw [pendList] at pending
      rw [tmout] at late
      rw [retrans] at exceeded
      exact few ⟨waiting, pending, late, exceeded⟩)
  rcases kept.answers with ⟨used, sends, stays⟩
  apply stays node id
  · have answers : answersUsed begun (settled cb node (becomeActive hdr node begun)) = used :=
      answersUsed_eq sends
    rw [← answers]
    exact spares
  · rw [conn]
    exact active

/-- A connection told to be new is active. -/
def Sound (told : Bool) (node : Nat) (rdp : Station) : Prop :=
  informed node told rdp.trace = true → (rdp.conntable node).state = .active

theorem Keeps.sound {lost : Nat → Prop} {before after : Station}
    (keeps : Keeps lost before after) (sound : Sound told node before) :
    Sound told node after := by
  intro known
  rcases keeps.events with ⟨events, trace, quiet, stays⟩
  rw [trace, informed_append] at known
  rcases informed_quiet quiet known with ⟨earlier, kept⟩
  exact stays node (sound earlier) kept

theorem Sound.modify_other {told : Bool} {node other : Nat} {rdp : Station}
    (sound : Sound told node rdp) (different : node ≠ other)
    (change : Conn → Conn) : Sound told node (rdp.modify other change) := by
  intro known
  rw [Station.modify_other different]
  exact sound known

attribute [local simp] handlePacket handleControlPacket

theorem handlePacket_activates (cb : RdpCallback)
    (activates : Activates (rdp.conntable node).state packet.header.type) :
    handlePacket cb packet node rdp = activated cb node (becomeActive packet.header node rdp) := by
  rcases activates with ⟨state, type⟩ | ⟨state, type | type | type⟩
  · rw [becomeActive_synack type]
    simp [updateState, state, type]
  · rw [becomeActive_synack type]
    simp [updateState, state, type]
  · rw [becomeActive_other (by simp [type])]
    simp [updateState, state, type]
  · rw [becomeActive_other (by simp [type])]
    simp [updateState, state, type]

theorem Sound.handlePacket (keeping : Keeping cb)
    (settles : Activates (rdp.conntable node).state packet.header.type →
      ((settled cb node (becomeActive packet.header node rdp)).conntable
        node).state = .active) {other : Nat} (sound : Sound told other rdp) :
    Sound told other (handlePacket cb packet node rdp) := by
  by_cases activates : Activates (rdp.conntable node).state packet.header.type
  · have opening : Keeps Nowhere rdp (becomeActive packet.header node rdp) := by
      apply Keeps.modify
      intro active
      rw [active] at activates
      exact absurd activates Activates.not_active
    have kept := @settled_keeps cb (fun _ => True) keeping node
      (becomeActive packet.header node rdp) (fun _ => trivial)
    have soundly := kept.sound (opening.sound sound)
    have logged : Sound told other
        ((settled cb node (becomeActive packet.header node rdp)).log
          (.callback (.newConnection node))) := by
      intro known
      by_cases same : other = node
      · subst same
        exact settles activates
      · apply soundly
        rw [Station.log, informed_append] at known
        simpa [informed, Event.inform, Ne.symm same] using known
    rw [handlePacket_activates cb activates, activated_eq]
    exact (keeping _ _).sound logged
  · exact (@handlePacket_keeps cb (fun _ => True) keeping packet node rdp
      trivial activates).sound sound

theorem handleRDP_begins (packet : Packet) (node : Nat) (rdp : Station) :
    (∀ cb, handleRDP cb packet node rdp = rdp.tick) ∨ ∃ begun, Begins node rdp begun ∧
        ∀ cb, handleRDP cb packet node rdp = handlePacket cb packet node begun := by
  by_cases unset : (rdp.conntable node).closed = 0
  · refine .inr ⟨rdp, .inl ⟨unset, rfl⟩, ?_⟩
    intro cb
    rw [handleRDP, if_pos unset]
  · by_cases early : gettimeofday rdp < (rdp.conntable node).closed
    · apply Or.inl
      intro cb
      rw [handleRDP, if_neg unset]
      exact if_pos early
    · refine Or.inr ⟨_, Or.inr ⟨early, rfl⟩, ?_⟩
      intro cb
      rw [handleRDP, if_neg unset]
      exact if_neg early

theorem Begins.keeps {node : Nat} {rdp begun : Station}
    (begins : Begins node rdp begun) : Keeps Nowhere rdp begun := by
  rcases begins with ⟨_, rfl⟩ | ⟨_, rfl⟩
  · exact Keeps.refl begun
  · have ticked : Keeps Nowhere rdp rdp.tick := Keeps.of_eq rfl rfl rfl
    exact ticked.trans (Keeps.modify rdp.tick node id)

theorem closeConnection_silent (keeping : Keeping cb) {other : Nat}
    (different : other ≠ node) (sound : Sound told other rdp) :
    Sound told other (closeConnection cb node false rdp) := by
  have cleared : Keeps Nowhere rdp (clearLoop cb node maxWindowSize 0 (rdp.log (.closing node))) :=
    (Keeps.log rdp (fun _ => Event.noConfusion)).trans
      (clearLoop_keeps keeping node maxWindowSize 0 _)
  rw [closeConnection_eq]
  exact (cleared.sound sound).modify_other different _

variable {depth : Nat}

/-- Calls keep connections told to be new active, unless they close them
without a callback. -/
theorem Sound.perform {call : Call} (undisturbed : Settles depth call rdp)
    (audible : call.suppresses node = false) (sound : Sound told node rdp) :
    Sound told node (perform (callbackAt depth) call rdp) := by
  have keeping := keeping_callbackAt depth
  cases call with
  | rsendto dest buf => exact (@rsendto_keeps _ Nowhere keeping dest buf rdp).sound sound
  | handleRDP source packet =>
    rcases handleRDP_begins packet source rdp with
      dropped | ⟨begun, begins, handled⟩
    · rw [Rdp.perform, dropped]
      exact sound
    · rw [Rdp.perform, handled]
      apply Sound.handlePacket keeping _ (begins.keeps.sound sound)
      intro activates
      rcases undisturbed begun begins activates with ⟨few, spares⟩
      exact settled_active keeping few spares
  | handleTimeoutRDP =>
    exact (@handleTimeoutRDP_keeps _ (fun _ => True) keeping (fun _ => trivial) rdp).sound sound
  | closeConnRDP other =>
    have different : node ≠ other := by
      intro same
      simp [Call.suppresses, same] at audible
    exact @Sound.modify_other told node other
      (closeConnection (callbackAt depth) other false rdp).tick
      (closeConnection_silent keeping different sound) different _
  | rdpUpdateNode other addr =>
    have different : node ≠ other := by
      intro same
      simp [Call.suppresses, same] at audible
    have closed := closeConnection_silent keeping different sound
    rw [Rdp.perform, rdpUpdateNode]
    split
    · exact sound
    · split
      · exact sound
      · apply Sound.modify_other _ different
        split
        · exact closed
        · exact sound

theorem timely {call : Call} (undisturbed : Settles depth call rdp) : Timely depth call rdp := by
  intro alarm
  have agrees := agrees_alarmedAt alarm depth
  cases call with
  | rsendto dest buf => simp only [perform, rsendto_congr agrees]
  | handleRDP source packet =>
    rcases handleRDP_begins packet source rdp with
      dropped | ⟨begun, begins, handled⟩
    · rw [perform, perform, dropped, dropped]
    · rw [perform, perform, handled, handled]
      apply handlePacket_congr agrees
      intro activates
      rcases undisturbed begun begins activates with ⟨few, spares⟩
      exact settled_active (keeping_callbackAt depth) few spares
  | handleTimeoutRDP => exact handleTimeoutRDP_congr agrees rdp
  | closeConnRDP other => simp only [perform, closeConnRDP, closeConnection_congr agrees]
  | rdpUpdateNode other addr => simp only [perform, rdpUpdateNode, closeConnection_congr agrees]

theorem invariant_active (depth : Nat) : (undisturbedNotifying depth).Invariant Watch.Active where
  initial := by
    rintro watch ⟨nodes, hosts, localID, clock, randoms, rfl⟩
    exact fun node told => absurd told Bool.false_ne_true
  step := by
    rintro before after active ⟨call, sends, requests, undisturbed, rfl⟩
    intro node told
    rw [Watch.after, Bool.and_eq_true, Bool.or_eq_true] at told
    rcases told with ⟨known, audible | still⟩
    · have sound : Sound (before.told node) node (before.rdp.scripted sends requests) := active node
      exact sound.perform undisturbed (by simpa using audible) known
    · exact of_decide_eq_true still

/-- A connection told to be new is active until its loss is told, and no call
that may follow tells of a new connection that is not active. -/
theorem reachable_notifications {watch : Watch}
    (reachable : (undisturbedNotifying depth).Reachable watch) :
    watch.Active ∧ ∀ call sends requests, Settles depth call (watch.rdp.scripted sends requests) →
        Timely depth call (watch.rdp.scripted sends requests) :=
  ⟨(invariant_active depth).reachable reachable,
    fun _ _ _ undisturbed => timely undisturbed⟩

/-- A station that has sent a SYN for its first message. -/
def opening : Watch :=
  { rdp := rdpInit 2 (fun _ => 1) 0 id (fun _ => 5)
    told := fun _ => false : Watch }.after 0 (.rsendto 1 [7]) [] []

/-- The SYNACK it gets. -/
def opened : Call :=
  .handleRDP 1
    { header :=
        { type := .synack, len := 0, seqno := 9, ackno := 0, connid := 3 }
      data := [] }

theorem reachable_notifications_opened :
    (opening.after 0 opened [] []).told 1 = true ∧ (opening.after 0 opened [] []).Active := by
  refine ⟨by decide +kernel, (reachable_notifications
    (.step (.step (.initial ⟨2, fun _ => 1, 0, id, fun _ => 5, rfl⟩)
      ⟨.rsendto 1 [7], [], [], trivial, rfl⟩)
      ⟨opened, [], [], ?_, rfl⟩)).1⟩
  rintro begun (⟨_, rfl⟩ | ⟨_, rfl⟩) _
  · constructor
    · rintro ⟨_, _, _, exceeded⟩
      exact absurd exceeded (by decide +kernel)
    · intro errors member
      simp [answersUsed, Station.scripted] at member
  · constructor
    · rintro ⟨_, _, _, exceeded⟩
      exact absurd exceeded (by decide +kernel)
    · intro errors member
      simp [answersUsed, Station.scripted, Station.tick, Station.modify]
        at member

/-- Resending the message fails: the loss is told before the connection. -/
theorem not_reachable_notifications : ¬∀ watch, (notifyingSystem 0).Reachable watch →
      watch.Active ∧ ∀ call sends requests, Timely 0 call (watch.rdp.scripted sends requests) := by
  intro active
  have lost : (notifyingSystem 0).Reachable (opening.after 0 opened
      [[{ eno := .connrefused, queue := .node 1 }]] []) :=
    .step (.step (.initial ⟨2, fun _ => 1, 0, id, fun _ => 5, rfl⟩)
      ⟨.rsendto 1 [7], [], [], rfl⟩) ⟨opened, _, [], rfl⟩
  exact absurd ((active _ lost).1 1 (by decide +kernel)) (by decide +kernel)

end Psmgmt.Rdp
