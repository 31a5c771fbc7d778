import Psmgmt.Library.Transition
import Psmgmt.Rdp.State

/-!
# The functions of `rdp.c`

A transcription of the protocol's functions.  `RDPCallback` is a parameter, as
it may call `Rsendto()` again.  Loops over lists that a callback may extend
follow the current list by index; loops that only release messages follow the
list found at their start.  Timers are never blocked for long, so blocking them
is not part of the model; neither are artificial packet loss and the checks of
a packet's origin.
-/

namespace Psmgmt.Rdp

open ByteMemory

/-- The callback function set by `RDP_init()`. -/
abbrev RdpCallback := Station → Callback → Station

section Functions

variable (cb : RdpCallback)

/-- Call `RDPCallback`. -/
def notify (info : Callback) (rdp : Station) : Station := cb (rdp.log (.callback info)) info

/-- Mark the message at `index` of the pending list as deleted. -/
def Conn.markDeleted (index : Nat) (conn : Conn) : Conn :=
  { conn with
    pendList := conn.pendList.modify index (fun mp => { mp with deleted := true }) }

def markDeleted (node index : Nat) (rdp : Station) : Station :=
  { rdp.modify node (Conn.markDeleted index) with cleanupReq := true }

/-- The loop of `clearMsgQ()` over at most `count` messages from `index` on. -/
def clearLoop (node : Nat) : (count index : Nat) → Station → Station
  | 0, _, rdp => rdp
  | count + 1, index, rdp =>
    match (rdp.conntable node).pendList[index]? with
    | none => rdp
    | some mp =>
      if mp.deleted then
        clearLoop node count (index + 1) rdp
      else
        let rdp := notify cb (.pktUndeliverable node mp.data) rdp
        clearLoop node count (index + 1) (markDeleted node index rdp)

/-- `clearMsgQ()`; the window limits the length of the pending list. -/
def clearMsgQ (node : Nat) (rdp : Station) : Station :=
  (clearLoop cb node maxWindowSize 0 rdp).modify node (fun conn =>
    { conn with ackExpected := conn.frameToSend })

/-- The connection after `closeConnection()` has cleared its messages. -/
def Conn.close (connid : SeqNo) (conn : Conn) : Conn :=
  { conn with
    state := .closed, ackPending := 0, msgPending := 0, connIDOut := connid
    retrans := 0, tmout := 0 }

def closeConnection (node : Nat) (callback : Bool) (rdp : Station) : Station :=
  let rdp := clearMsgQ cb node (rdp.log (.closing node))
  let rdp := rdp.modify node (Conn.close (rdp.randoms rdp.draws))
  let rdp := { rdp with draws := rdp.draws + 1 }
  if callback then notify cb (.lostConnection node) rdp else rdp

/-- `handleErr()`: the errno of a failure. -/
def handleErr (eno : Errno) (queue : ErrQueue) (rdp : Station) : Option Errno × Station :=
  match queue with
  | .empty => (none, rdp)
  | .unusable leno => (some leno, rdp)
  | .node node =>
    if eno.unreachable then (none, closeConnection cb node true rdp)
    else (none, rdp)

/-- The attempts of `MYsendto()` to send a packet, which fail as listed before
one gets through. -/
def sendLoop (node : Nat) (packet : Packet) : List SendError → Station → Option Errno × Station
  | [], rdp => (none, rdp.log (.sendto node packet))
  | error :: rest, rdp =>
    if error.eno = .intr then
      sendLoop node packet rest rdp
    else if error.eno.unreachable then
      match handleErr cb error.eno error.queue rdp with
      | (some leno, rdp) => (some leno, rdp)
      | (none, rdp) =>
        if (rdp.conntable node).state = .closed then (some error.eno, rdp)
        else sendLoop node packet rest rdp
    else
      (some error.eno, rdp)

/-- `MYsendto()`: the errno of a failure. -/
def mysendto (node : Nat) (packet : Packet) (rdp : Station) : Option Errno × Station :=
  let rdp := rdp.log (.submit node packet)
  if (rdp.conntable node).addr = inaddrAny then
    (some .inval, rdp)
  else
    sendLoop cb node packet (rdp.sends.head?.getD []) { rdp with sends := rdp.sends.tail }

def sendSYN (dest : Nat) (rdp : Station) : Station :=
  let conn := rdp.conntable dest
  (mysendto cb dest
    { header :=
        { type := .syn, len := 4, seqno := conn.frameToSend, ackno := 0
          connid := conn.connIDOut }
      data := (toMem 4 rdp.rdpID).reverse } rdp).2

/-- The header of an explicit ACK, SYNACK or NACK. -/
def Conn.control (conn : Conn) (type : PktType) (seqno : SeqNo) : Packet :=
  { header :=
      { type := type, len := 0, seqno := seqno
        ackno := conn.frameExpected - 1, connid := conn.connIDOut }
    data := [] }

def clearAckPending (node : Nat) (rdp : Station) : Station :=
  rdp.modify node (fun conn => { conn with ackPending := 0 })

def sendACK (node : Nat) (rdp : Station) : Station :=
  clearAckPending node (mysendto cb node ((rdp.conntable node).control .ack 0) rdp).2

def sendSYNACK (node : Nat) (rdp : Station) : Station :=
  let conn := rdp.conntable node
  clearAckPending node (mysendto cb node (conn.control .synack conn.frameToSend) rdp).2

def sendNACK (node : Nat) (rdp : Station) : Station :=
  (mysendto cb node ((rdp.conntable node).control .nack 0) rdp).2

/-- Update the ackno of the message at `index` of the pending list. -/
def Conn.refreshAck (index : Nat) (conn : Conn) : Conn :=
  { conn with
    pendList := conn.pendList.modify index (fun mp =>
      { mp with
        header := { mp.header with ackno := conn.frameExpected - 1 } }) }

def refreshAck (node index : Nat) (rdp : Station) : Station :=
  rdp.modify node (Conn.refreshAck index)

/-- The loop of `resendMsgs()` on an active connection. -/
def resendLoop (node : Nat) : (count index : Nat) → Station → Station
  | 0, _, rdp => rdp
  | count + 1, index, rdp =>
    match (rdp.conntable node).pendList[index]? with
    | none => rdp
    | some mp =>
      if mp.deleted then
        resendLoop node count (index + 1) rdp
      else
        let header := { mp.header with
          ackno := (rdp.conntable node).frameExpected - 1 }
        match mysendto cb node { header := header, data := mp.data }
            (refreshAck node index rdp) with
        | (some _, rdp) => rdp
        | (none, rdp) => resendLoop node count (index + 1) rdp

def resendMsgs (node : Nat) (rdp : Station) : Station :=
  if (rdp.conntable node).pendList = [] then rdp
  else
    let now := gettimeofday rdp
    let rdp := rdp.tick
    if ¬(rdp.conntable node).tmout < now then rdp
    else
      let rdp := rdp.modify node (fun conn => { conn with tmout := now + rdp.resendTimeout })
      if (rdp.conntable node).retrans > rdp.maxRetransCount then
        closeConnection cb node true rdp
      else
        let rdp := rdp.modify node (fun conn => { conn with retrans := conn.retrans + 1 })
        match (rdp.conntable node).state with
        | .closed => rdp
        | .synSent => sendSYN cb node rdp
        | .synRecvd => sendSYNACK cb node rdp
        | .active => clearAckPending node (resendLoop cb node maxWindowSize 0 rdp)

/-- Enter `state` on a SYN or SYNACK telling the peer's sequence number and
connection ID. -/
def accept (state : ConnState) (hdr : Header) (node : Nat) (rdp : Station) :
    Station :=
  rdp.modify node (fun conn =>
    { conn with
      state := state, frameExpected := hdr.seqno, connIDIn := hdr.connid })

def enter (state : ConnState) (node : Nat) (rdp : Station) : Station :=
  rdp.modify node (fun conn => { conn with state := state })

/-- Account for the messages sent while a connection becomes active. -/
def flushPending (node : Nat) (rdp : Station) : Station :=
  rdp.modify node (fun conn =>
    { conn with
      frameToSend := conn.frameToSend + BitVec.ofNat 32 conn.msgPending
      msgPending := 0 })

/-- The end of each transition of `updateState()` to ACTIVE. -/
def activated (node : Nat) (rdp : Station) : Station :=
  let rdp :=
    if (rdp.conntable node).msgPending ≠ 0 then
      flushPending node (resendMsgs cb node rdp)
    else
      sendACK cb node rdp
  notify cb (.newConnection node) rdp

def updateState (hdr : Header) (node : Nat) (rdp : Station) : Station :=
  match (rdp.conntable node).state with
  | .closed =>
    match hdr.type with
    | .syn => sendSYNACK cb node (accept .synRecvd hdr node rdp)
    | _ => sendSYN cb node (enter .synSent node rdp)
  | .synSent =>
    match hdr.type with
    | .syn => sendSYNACK cb node (accept .synRecvd hdr node rdp)
    | .synack => activated cb node (accept .active hdr node rdp)
    | _ => sendSYN cb node rdp
  | .synRecvd =>
    match hdr.type with
    | .syn => sendSYNACK cb node (accept .synRecvd hdr node rdp)
    | .synack => activated cb node (accept .active hdr node rdp)
    | .ack => activated cb node (enter .active node rdp)
    | .data => activated cb node (enter .active node rdp)
    | _ => sendSYN cb node (enter .synSent node rdp)
  | .active =>
    if hdr.connid ≠ (rdp.conntable node).connIDIn then
      let rdp := closeConnection cb node true rdp
      match hdr.type with
      | .syn => sendSYNACK cb node (accept .synRecvd hdr node rdp)
      | .synack => sendSYN cb node (accept .synSent hdr node rdp)
      | _ => rdp
    else
      match hdr.type with
      | .syn =>
        let rdp := closeConnection cb node true rdp
        sendSYNACK cb node (rdp.modify node (fun conn =>
          { conn with state := .synRecvd, frameExpected := hdr.seqno }))
      | _ => rdp

/-- Release a message of the pending list and open the window. -/
def release (node : Nat) (msg : MsgBuf) (rdp : Station) : Station :=
  (putMsg node msg rdp).modify node (fun conn => { conn with window := conn.window + 1 })

/-- Count an acknowledged message. -/
def acknowledged (node : Nat) (rdp : Station) : Station :=
  rdp.modify node (fun conn => { conn with ackExpected := conn.ackExpected + 1, retrans := 0 })

/-- The loop of `doACK()` over the pending list; the flag tells whether the
window was closed. -/
def ackLoop (node : Nat) (ackno : SeqNo) : List MsgBuf → Bool → Station → Bool × Station
  | [], callback, rdp => (callback, rdp)
  | mp :: rest, callback, rdp =>
    let full := callback || (rdp.conntable node).window = 0
    if mp.deleted then
      ackLoop node ackno rest full (release node mp rdp)
    else if rseqcmp mp.header.seqno ackno ≤ 0 then
      ackLoop node ackno rest full (acknowledged node (release node mp rdp))
    else
      (callback, rdp)

/-- The answer of `doACK()` to a DATA packet out of sequence. -/
def answerData (hdr : Header) (node : Nat) (rdp : Station) : Station :=
  if hdr.type = .data then
    let rdp :=
      if rseqcmp hdr.seqno (rdp.conntable node).frameExpected < 0 then
        sendACK cb node rdp
      else rdp
    if rseqcmp hdr.seqno (rdp.conntable node).frameExpected > 0 then
      sendNACK cb node rdp
    else rdp
  else rdp

def doACK (hdr : Header) (fromnode : Nat) (rdp : Station) : Station :=
  if hdr.type = .syn ∨ hdr.type = .synack then rdp
  else if hdr.connid ≠ (rdp.conntable fromnode).connIDIn then
    updateState cb hdr fromnode rdp
  else
    let rdp := answerData cb hdr fromnode rdp
    let (callback, rdp) := ackLoop fromnode hdr.ackno (rdp.conntable fromnode).pendList false rdp
    if callback then notify cb (.canContinue fromnode) rdp else rdp

def handleControlPacket (hdr : Header) (node : Nat) (rdp : Station) :
    Station :=
  match hdr.type with
  | .ack =>
    if (rdp.conntable node).state ≠ .active then updateState cb hdr node rdp
    else doACK cb hdr node rdp
  | .nack =>
    let rdp :=
      if (rdp.conntable node).state ≠ .active then updateState cb hdr node rdp
      else doACK cb hdr node rdp
    if (rdp.conntable node).state = .active then resendMsgs cb node rdp
    else rdp
  | .syn => updateState cb hdr node rdp
  | .synack => updateState cb hdr node rdp
  | _ => rdp

/-- Count a DATA packet in sequence.  Its payload, if it fits into `len` bytes,
is what `Rrecvfrom()` will return. -/
def countFrame (packet : Packet) (len node : Nat) (rdp : Station) : Station :=
  let rdp := rdp.modify node (fun conn =>
    { conn with
      frameExpected := conn.frameExpected + 1
      ackPending := conn.ackPending + 1 })
  if len < packet.header.len then rdp
  else
    rdp.log (.received node { packet with data := packet.data.take packet.header.len })

/-- The part of `Rrecvfrom()` for a DATA packet in sequence. -/
def takeData (packet : Packet) (len node : Nat) (rdp : Station) : Option (List UInt8) × Station :=
  let rdp := countFrame packet len node rdp
  let rdp :=
    if (rdp.conntable node).ackPending ≥ rdp.maxAckPending then
      sendACK cb node rdp
    else rdp
  if len < packet.header.len then (none, rdp)
  else (some (packet.data.take packet.header.len), rdp)

/-- `Rrecvfrom()` from any node into a buffer of `len` bytes, with `packet`
from `fromnode` pending on the socket. -/
def rrecvfrom (packet : Packet) (len fromnode : Nat) (rdp : Station) :
    Option (List UInt8) × Station :=
  let hdr := packet.header
  if hdr.type ≠ .data then
    (none, handleControlPacket cb hdr fromnode rdp)
  else if (rdp.conntable fromnode).state = .closed ∨ (rdp.conntable fromnode).state = .synSent then
    (none, updateState cb hdr fromnode rdp)
  else
    let rdp :=
      if (rdp.conntable fromnode).state = .synRecvd then
        updateState cb hdr fromnode rdp
      else rdp
    let rdp := doACK cb hdr fromnode rdp
    if (rdp.conntable fromnode).frameExpected = hdr.seqno then
      takeData cb packet len fromnode rdp
    else
      (none, rdp)

/-- The part of `handleRDP()` behind the closed timer.  The dispatcher reads
the message with `Rrecvfrom()` into a buffer of the maximum size. -/
def handlePacket (packet : Packet) (fromnode : Nat) (rdp : Station) : Station :=
  let hdr := packet.header
  if hdr.type ≠ .data then
    handleControlPacket cb hdr fromnode rdp
  else if rseqcmp hdr.seqno (rdp.conntable fromnode).frameExpected ≠ 0 ∨
      (rdp.conntable fromnode).state ≠ .active then
    if (rdp.conntable fromnode).state = .active then doACK cb hdr fromnode rdp
    else updateState cb hdr fromnode rdp
  else
    (rrecvfrom cb packet maxDataSize fromnode rdp).2

/-- `handleRDP()` of a packet from a known node. -/
def handleRDP (packet : Packet) (fromnode : Nat) (rdp : Station) : Station :=
  if (rdp.conntable fromnode).closed = 0 then
    handlePacket cb packet fromnode rdp
  else
    let now := gettimeofday rdp
    let rdp := rdp.tick
    if now < (rdp.conntable fromnode).closed then
      rdp
    else
      handlePacket cb packet fromnode (rdp.modify fromnode (fun conn => { conn with closed := 0 }))

/-- The message buffer `Rsendto()` sets up on a connection. -/
def Conn.newMsg (conn : Conn) (id : Nat) (buf : List UInt8) : MsgBuf :=
  { id := id
    len := buf.length
    header :=
      { type := .data, len := buf.length
        seqno := conn.frameToSend + BitVec.ofNat 32 conn.msgPending
        ackno := conn.frameExpected - 1, connid := conn.connIDOut }
    data := buf
    deleted := false }

/-- The counters and the state `Rsendto()` leaves for a message it has
queued. -/
def Conn.count (conn : Conn) : Conn :=
  match conn.state with
  | .closed => { conn with state := .synSent, msgPending := conn.msgPending + 1 }
  | .synSent => { conn with msgPending := conn.msgPending + 1 }
  | .synRecvd => { conn with msgPending := conn.msgPending + 1 }
  | .active => { conn with frameToSend := conn.frameToSend + 1 }

/-- The connection with a new message. -/
def Conn.queue (conn : Conn) (msg : MsgBuf) : Conn :=
  Conn.count { conn with
    pendList := conn.pendList ++ [msg]
    ackPending := 0
    window := conn.window - 1 }

/-- Put a message with the buffer `id` to a connection and to the ACK list. -/
def enqueue (node id : Nat) (buf : List UInt8) (rdp : Station) : Station :=
  let msg := (rdp.conntable node).newMsg id buf
  let rdp := rdp.modify node (fun conn => conn.queue msg)
  { rdp with ackList := rdp.ackList ++ [(node, id)] }.log (.queued node msg.packet)

/-- The time stamp of `Rsendto()` restarting the timer of an idle
connection. -/
def restartTimer (node : Nat) (rdp : Station) : Station :=
  let now := gettimeofday rdp
  let rdp := rdp.tick
  if (rdp.conntable node).pendList = [] ∧ (rdp.conntable node).state = .active
  then
    rdp.modify node (fun conn => { conn with tmout := now + rdp.resendTimeout, retrans := 0 })
  else rdp

/-- The transmission belonging to a queued message. -/
def transmit (node : Nat) (msg : MsgBuf) (state : ConnState) (rdp : Station) :
    Option Errno × Station :=
  match state with
  | .closed => (none, sendSYN cb node rdp)
  | .synSent => (none, sendSYN cb node rdp)
  | .synRecvd => (none, sendSYNACK cb node rdp)
  | .active => mysendto cb node msg.packet rdp

/-- What `Rsendto()` returns for a message of `len` bytes. -/
def sendResult (len : Nat) : Option Errno → Except Errno Int
  | none => .ok len
  | some eno =>
    -- the message is kept anyhow, but the header is subtracted twice
    if eno = .nobufs then .ok ((len : Int) - 16) else .error eno

/-- The part of `Rsendto()` behind its checks. -/
def sendMessage (node : Nat) (buf : List UInt8) (rdp : Station) : Except Errno Int × Station :=
  match getMsg rdp with
  | none => (.error .again, rdp)
  | some (id, rdp) =>
    match getFrame buf.length rdp with
    | (false, rdp) => (.error .nomem, rdp)
    | (true, rdp) =>
      let rdp := restartTimer node rdp
      let conn := rdp.conntable node
      let (failure, rdp) := transmit cb node (conn.newMsg id buf)
        conn.state (enqueue node id buf rdp)
      (sendResult buf.length failure, rdp)

def rsendto (node : Nat) (buf : List UInt8) (rdp : Station) : Except Errno Int × Station :=
  if node ≥ rdp.nrOfNodes then (.error .hostunreach, rdp)
  else if (rdp.conntable node).addr = inaddrAny ∨ (rdp.conntable node).addr = inaddrNone then
    (.error .hostunreach, rdp)
  else if (rdp.conntable node).window = 0 then (.error .again, rdp)
  else if buf.length > maxDataSize then (.error .msgsize, rdp)
  else if (rdp.conntable node).state = .closed ∧ (rdp.conntable node).closed ≠ 0 then
    let now := gettimeofday rdp
    let rdp := rdp.tick
    if now < (rdp.conntable node).closed then (.error .connreset, rdp)
    else
      sendMessage cb node buf (rdp.modify node (fun conn => { conn with closed := 0 }))
  else sendMessage cb node buf rdp

/-- The first loop of `handleTimeoutRDP()`. -/
def timeoutLoop (now : Nat) : (count index : Nat) → Station → Station
  | 0, _, rdp => rdp
  | count + 1, index, rdp =>
    match rdp.ackList[index]? with
    | none => rdp
    | some (node, id) =>
      let conn := rdp.conntable node
      let live := conn.pendList.any (fun mp => mp.id = id && !mp.deleted)
      timeoutLoop now count (index + 1)
        (if live ∧ conn.tmout < now then resendMsgs cb node rdp else rdp)

/-- Release a deleted message and tell if the window was closed. -/
def cleanupMsg (node : Nat) (mp : MsgBuf) (rdp : Station) : Station :=
  if (rdp.conntable node).window = 0 then
    notify cb (.canContinue node) (release node mp rdp)
  else release node mp rdp

/-- The second loop of `handleTimeoutRDP()`.  The successor of an entry is
determined before the entry is handled, so a last entry stays the last one even
if a callback appends others. -/
def cleanupLoop : (count index : Nat) → Station → Station
  | 0, _, rdp => rdp
  | count + 1, index, rdp =>
    match rdp.ackList[index]? with
    | none => rdp
    | some (node, id) =>
      let last := rdp.ackList.length ≤ index + 1
      match (rdp.conntable node).pendList.find? (fun mp => mp.id = id && mp.deleted) with
      | none => if last then rdp else cleanupLoop count (index + 1) rdp
      | some mp =>
        let rdp := cleanupMsg cb node mp rdp
        if last then rdp else cleanupLoop count index rdp

/-- A bound on the entries a loop over the ACK list can meet: those in the
list and one for each message a callback can still send. -/
def ackListBound (rdp : Station) : Nat := rdp.ackList.length + (rdp.requests.map List.length).sum

def handleTimeoutRDP (rdp : Station) : Station :=
  let now := gettimeofday rdp
  let rdp := rdp.tick
  let rdp := timeoutLoop cb now (ackListBound rdp) 0 rdp
  if rdp.cleanupReq then
    { cleanupLoop cb (ackListBound rdp) 0 rdp with cleanupReq := false }
  else rdp

def closeConnRDP (node : Nat) (rdp : Station) : Station :=
  let rdp := closeConnection cb node false rdp
  let now := gettimeofday rdp
  rdp.tick.modify node (fun conn => { conn with closed := now + rdp.closedTimeout })

def rdpUpdateNode (node addr : Nat) (rdp : Station) : Station :=
  if node ≥ rdp.nrOfNodes then rdp
  else if (rdp.conntable node).addr = addr then rdp
  else
    let rdp :=
      if (rdp.conntable node).state ≠ .closed then
        closeConnection cb node false rdp
      else rdp
    rdp.modify node (fun conn => { conn with addr := addr })

/-- The calls of the module's functions from outside; a packet is one pending
on the socket when the Selector calls `handleRDP()`. -/
inductive Call where
  | rsendto (node : Nat) (buf : List UInt8)
  | handleRDP (node : Nat) (packet : Packet)
  | handleTimeoutRDP
  | closeConnRDP (node : Nat)
  | rdpUpdateNode (node addr : Nat)
  deriving DecidableEq, Repr

def perform (call : Call) (rdp : Station) : Station :=
  match call with
  | .rsendto node buf => (rsendto cb node buf rdp).2
  | .handleRDP node packet => handleRDP cb packet node rdp
  | .handleTimeoutRDP => handleTimeoutRDP cb rdp
  | .closeConnRDP node => closeConnRDP cb node rdp
  | .rdpUpdateNode node addr => rdpUpdateNode cb node addr rdp

end Functions

/-- What the environment has in store for the next call, whose events are
recorded anew. -/
def Station.scripted (sends : List (List SendError))
    (requests : List (List Request)) (rdp : Station) : Station :=
  { rdp with sends := sends, requests := requests, trace := [] }

/-- A callback that does not call back into RDP. -/
def quiet : RdpCallback := fun rdp _ => rdp

/-- The `Rsendto()` calls of one callback. -/
def serve (cb : RdpCallback) : List Request → Station → Station
  | [], rdp => rdp
  | request :: rest, rdp => serve cb rest (rsendto cb request.node request.buf rdp).2

/-- A callback making the requests the environment lists for it; callbacks
nested deeper than `depth` stay quiet. -/
def callbackAt : (depth : Nat) → RdpCallback
  | 0 => quiet
  | depth + 1 => fun rdp _ =>
    serve (callbackAt depth) (rdp.requests.head?.getD []) { rdp with requests := rdp.requests.tail }

/-- A station from `RDP_init()` on. -/
def rdpSystem (cb : RdpCallback) : TransitionSystem Station where
  initial rdp := ∃ nodes hosts localID clock randoms,
    rdp = rdpInit nodes hosts localID clock randoms
  step before after := ∃ call sends requests,
    after = perform cb call (before.scripted sends requests)

end Psmgmt.Rdp
