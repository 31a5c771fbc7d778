import Psmgmt.Library.Transition

/-!
# Clients of the logger

The table of clients of `psiloggerclient.c` and the control of the input
forwarded to them.  Stdin is registered in the Selector.  Functions that exit
the logger return nothing.
-/

namespace Psmgmt.Logger

open Function

/-- A task ID other than -1. -/
abbrev Tid := Nat

/-- What is used of `client_t`; a `tid` of -1 is `none`. -/
structure Client where
  tid : Option Tid
  active : Bool
  stopped : Bool
  gone : Bool
  released : Bool
  kvs : Bool
  deriving DecidableEq, Repr

/-- An entry as initialized by `growClients()`. -/
def Client.blank : Client :=
  { tid := none, active := false, stopped := false, gone := false
    released := false, kvs := false }

/-- The module's variables.  Ranks outside the table are blank. -/
structure State where
  clients : Int → Client
  activeClients : List Int
  nClnts : Int
  nTaskClnts : Int
  nActvClnts : Int
  nRecvClnts : Int
  nActvSTOPs : Int
  minRank : Int
  maxRank : Int
  maxClient : Int
  destStr : List Char
  daemonCommStopped : Bool
  /-- Stdin is disabled in the Selector. -/
  stdinDisabled : Bool
  /-- The clients told to exit by SERV_EXT messages. -/
  exiting : List Tid

/-- The delimiters of a destination string. -/
def isDelimiter (c : Char) : Bool := c = '[' || c = ']' || c = ',' || c = ' ' || c = '\n'

/-- The tokens `strtok_r()` finds one after the other. -/
def tokens (dest : List Char) : List (List Char) :=
  (dest.splitOnP isDelimiter).filter (fun token => token ≠ [])

/-- What the first call of `strtok_r()` leaves of the string. -/
def truncated (dest : List Char) : List Char :=
  match dest.dropWhile isDelimiter with
  | [] => dest
  | rest => dest.takeWhile isDelimiter ++ rest.takeWhile (fun c => !isDelimiter c)

/-- Comparing a token to "all". -/
def isAll (token : List Char) : Bool := (token.take 3).map Char.toLower = ['a', 'l', 'l']

/-- A number read as a `long` and stored as an `int`. -/
def toInt (value : Int) : Int := (BitVec.ofInt 32 (max (-2 ^ 63) (min value (2 ^ 63 - 1)))).toInt

def digitsValue (digits : List Char) : Nat :=
  digits.foldl (fun value c => 10 * value + (c.toNat - '0'.toNat)) 0

/-- A decimal number at the start of a string and what follows it. -/
def readNumber (chars : List Char) : Option (Int × List Char) :=
  let chars := chars.dropWhile Char.isWhitespace
  let (negative, chars) :=
    match chars with
    | '-' :: rest => (true, rest)
    | '+' :: rest => (false, rest)
    | _ => (false, chars)
  let digits := chars.takeWhile Char.isDigit
  if digits = [] then none
  else
    let value : Int := digitsValue digits
    some (toInt (if negative then -value else value), chars.dropWhile Char.isDigit)

/-- What a token of a destination list says. -/
inductive Item where
  | range (first last : Int)
  | rank (rank : Int)
  | invalid
  deriving DecidableEq, Repr

def readItem (token : List Char) : Item :=
  if '-' ∈ token then
    match readNumber token with
    | some (first, '-' :: rest) =>
      match readNumber rest with
      | some (last, _) => .range first last
      | none => .invalid
    | _ => .invalid
  else
    match readNumber token with
    | some (rank, []) => .rank rank
    | _ => .invalid

/-- The destination set by `destListError()`. -/
def fallback (minRank rank : Int) : Bool := rank = if minRank > 0 then minRank else 0

/-- The loop over the tokens of `setupDestList()`, with the ranks marked. -/
def markItems (minRank maxRank : Int) : List (List Char) → (Int → Bool) → Int → Bool
  | [], marked => marked
  | token :: rest, marked =>
    match readItem token with
    | .range first last =>
      if first < minRank ∨ last > maxRank ∨ last < first then
        fallback minRank
      else
        markItems minRank maxRank rest (fun rank => marked rank || (first ≤ rank && rank ≤ last))
    | .rank only =>
      if only < minRank ∨ only > maxRank then
        markItems minRank maxRank rest marked
      else
        markItems minRank maxRank rest (fun rank => marked rank || rank = only)
    | .invalid => fallback minRank

/-- The ranks from `minRank` to `maxRank` a destination string marks. -/
def marks (dest : List Char) (minRank maxRank : Int) : Int → Bool :=
  match tokens dest with
  | [] => fun _ => false
  | first :: rest =>
    if isAll first then
      -- service processes are no destinations
      fun rank => (if minRank < 0 then 0 else minRank) ≤ rank
    else markItems minRank maxRank (first :: rest) (fun _ => false)

/-- The ranks of a loop from `first` to `last`. -/
def ranks (first last : Int) : List Int :=
  (List.range (last + 1 - first).toNat).map (fun offset : Nat => first + (offset : Int))

namespace State

def getClientTID (rank : Int) (log : State) : Option Tid :=
  if rank < log.minRank ∨ rank > log.maxRank then none
  else (log.clients rank).tid

def clientIsActive (rank : Int) (log : State) : Bool :=
  if rank < log.minRank ∨ rank > log.maxRank then false
  else (log.clients rank).active

def clientIsStopped (rank : Int) (log : State) : Bool :=
  if rank < log.minRank ∨ rank > log.maxRank then false
  else (log.clients rank).stopped

def clientIsGone (rank : Int) (log : State) : Bool :=
  if rank < log.minRank ∨ rank > log.maxRank then false
  else (log.clients rank).gone

def allActiveThere (log : State) : Bool := log.nRecvClnts = log.nActvClnts

def change (rank : Int) (f : Client → Client) (log : State) : State :=
  { log with clients := update log.clients rank (f (log.clients rank)) }

@[simp] theorem change_self (rank : Int) (f : Client → Client) (log : State) :
    (log.change rank f).clients rank = f (log.clients rank) :=
  update_self rank _ _

theorem change_other {rank other : Int} (different : other ≠ rank)
    (f : Client → Client) (log : State) :
    (log.change rank f).clients other = log.clients other :=
  update_of_ne different _ _

/-- The flags left by `setupDestList()`. -/
def mark (marked : Int → Bool) (log : State) : State :=
  { log with
    clients := fun rank =>
      if log.minRank ≤ rank ∧ rank ≤ log.maxRank then
        { log.clients rank with
          active := marked rank && !(log.clients rank).gone }
      else log.clients rank }

/-- The counters and the list set up from the flags. -/
def recount (log : State) : State :=
  let all := ranks log.minRank log.maxRank
  let active := all.filter (fun rank => (log.clients rank).active)
  let receiving := active.filter (fun rank => (log.clients rank).tid ≠ none)
  { log with
    activeClients := receiving
    nActvClnts := active.length
    nRecvClnts := receiving.length
    nActvSTOPs := (active.filter (fun rank => (log.clients rank).stopped)).length }

/-- The end of `setupDestList()` concerning stdin. -/
def adaptStdin (oldSTOPs : Int) (log : State) : State :=
  { log with
    stdinDisabled :=
      if log.nActvSTOPs ≠ 0 then true
      else if oldSTOPs ≠ 0 ∧ log.allActiveThere then false
      else log.stdinDisabled }

/-- `setupDestList()`. -/
def setupDestList (input : Option (List Char)) (log : State) : State :=
  let log := { log with destStr := input.getD log.destStr }
  let log' := log.mark (marks log.destStr log.minRank log.maxRank)
  log'.recount.adaptStdin log.nActvSTOPs

/-- `growClients()`. -/
def growClients (newMin newMax : Int) (log : State) : Option State :=
  if newMin > log.minRank ∨ newMax < log.maxClient then none
  else if newMin = log.minRank ∧ newMax = log.maxClient then some log
  else
    some (setupDestList none { log with
      clients := fun rank =>
        if newMin ≤ rank ∧ rank < log.minRank ∨
            log.maxClient < rank ∧ rank ≤ newMax then Client.blank
        else log.clients rank
      minRank := newMin
      maxClient := newMax })

/-- `initClients()` with a destination string set before. -/
def initClients (minClientRank maxClientRank : Int) (dest : List Char) :
    State :=
  setupDestList none
    { clients := fun _ => Client.blank, activeClients := [], nClnts := 0
      nTaskClnts := 0, nActvClnts := 0, nRecvClnts := 0, nActvSTOPs := 0
      minRank := minClientRank, maxRank := maxClientRank
      maxClient := maxClientRank, destStr := dest
      daemonCommStopped := false, stdinDisabled := false, exiting := [] }

/-- The growth of the table for a rank. -/
def reach (rank : Int) (log : State) : Option State :=
  if rank < log.minRank then log.growClients rank log.maxClient
  else if rank > log.maxClient then
    log.growClients log.minRank (BitVec.ofInt 32 (2 * rank)).toInt
  else some log

/-- The new maximum rank of `registerClient()`. -/
def extend (rank : Int) (log : State) : State :=
  if rank > log.maxRank then
    let log' := { log with
      maxRank := rank, destStr := truncated log.destStr }
    match tokens log.destStr with
    | [] => log'
    | first :: _ =>
      if isAll first then
        { log' with
          clients := fun other =>
            if log.maxRank < other ∧ other ≤ rank then
              { log.clients other with active := true }
            else log.clients other
          nActvClnts := log.nActvClnts + (rank - log.maxRank) }
      else log'
  else log

/-- The part of `registerClient()` for a client in the table. -/
def connect (rank : Int) (tid : Tid) (kvs : Bool) (log : State) : State :=
  if (log.clients rank).tid ≠ none then log
  else
    let log := log.change rank (fun client => { client with tid := some tid, kvs := kvs })
    let log := { log with
      nClnts := log.nClnts + 1
      nTaskClnts := if rank > -1 then log.nTaskClnts + 1 else log.nTaskClnts }
    if log.clientIsActive rank then
      { log with
        activeClients := log.activeClients ++ [rank]
        nRecvClnts := log.nRecvClnts + 1 }
    else log

/-- `registerClient()`. -/
def registerClient (rank : Int) (tid : Tid) (kvs : Bool) (log : State) : Option State :=
  (log.reach rank).map (fun log => (log.extend rank).connect rank tid kvs)

/-- The last regular client has left: service processes are told to exit. -/
def releaseServices (log : State) : State :=
  let services := (ranks log.minRank (-1)).filter (fun rank =>
    (log.clients rank).tid ≠ none && (log.clients rank).kvs && !(log.clients rank).released)
  { log with
    exiting := log.exiting ++ services.filterMap (fun rank => (log.clients rank).tid)
    clients := fun rank =>
      if rank ∈ services then { log.clients rank with released := true }
      else log.clients rank }

/-- The books of `deregisterClient()`. -/
def disconnect (rank : Int) (log : State) : State :=
  if log.clientIsActive rank then
    let log :=
      if log.clientIsStopped rank then
        { log with nActvSTOPs := log.nActvSTOPs - 1 }
      else log
    if rank ∈ log.activeClients then
      { log with
        activeClients := log.activeClients.erase rank
        nRecvClnts := log.nRecvClnts - 1 }
    else log
  else log

/-- `deregisterClient()`. -/
def deregisterClient (rank : Int) (log : State) : Option State :=
  if rank < log.minRank ∨ rank > log.maxRank then none
  else if log.getClientTID rank = none then some log
  else
    let log := log.change rank (fun client => { client with tid := none, gone := true })
    let log := { log with nClnts := log.nClnts - 1 }
    let log :=
      if rank > -1 then
        let log := { log with nTaskClnts := log.nTaskClnts - 1 }
        if log.nTaskClnts = 0 then log.releaseServices else log
      else log
    some (log.disconnect rank)

def sentBy (rank : Int) (sender : Tid) (log : State) : Bool := log.getClientTID rank = some sender

/-- One more request to stop the input. -/
def addStop (log : State) : State :=
  { log with
    stdinDisabled := if log.nActvSTOPs = 0 then true else log.stdinDisabled
    nActvSTOPs := log.nActvSTOPs + 1 }

/-- One request to stop the input less. -/
def dropStop (log : State) : State :=
  { log with
    nActvSTOPs := log.nActvSTOPs - 1
    stdinDisabled :=
      if log.nActvSTOPs - 1 = 0 ∧ log.allActiveThere then false
      else log.stdinDisabled }

/-- `handleSTOPMsg()`. -/
def handleSTOPMsg (rank : Int) (sender : Tid) (log : State) : State :=
  if log.sentBy rank sender = false then log
  else
    let log :=
      if log.clientIsActive rank ∧ ¬log.clientIsStopped rank then log.addStop
      else log
    log.change rank (fun client => { client with stopped := true })

/-- `handleCONTMsg()`. -/
def handleCONTMsg (rank : Int) (sender : Tid) (log : State) : State :=
  if log.sentBy rank sender = false then log
  else
    let log :=
      if log.clientIsActive rank ∧ log.clientIsStopped rank then log.dropStop
      else log
    log.change rank (fun client => { client with stopped := false })

/-- `handleSENDSTOP()`. -/
def handleSENDSTOP (log : State) : State :=
  { (if log.daemonCommStopped = false then log.addStop else log) with
    daemonCommStopped := true }

/-- `handleSENDCONT()`. -/
def handleSENDCONT (log : State) : State :=
  { (if log.daemonCommStopped then log.dropStop else log) with
    daemonCommStopped := false }

end State

/-- The calls of the module's functions; a rank is an `int`. -/
inductive Call where
  | registerClient (rank : BitVec 32) (tid : Tid) (kvs : Bool)
  | deregisterClient (rank : BitVec 32)
  | handleSTOPMsg (rank : BitVec 32) (sender : Tid)
  | handleCONTMsg (rank : BitVec 32) (sender : Tid)
  | handleSENDSTOP
  | handleSENDCONT
  | setupDestList (input : List Char)
  deriving DecidableEq, Repr

def State.perform (call : Call) (log : State) : Option State :=
  match call with
  | .registerClient rank tid kvs => log.registerClient rank.toInt tid kvs
  | .deregisterClient rank => log.deregisterClient rank.toInt
  | .handleSTOPMsg rank sender => some (log.handleSTOPMsg rank.toInt sender)
  | .handleCONTMsg rank sender => some (log.handleCONTMsg rank.toInt sender)
  | .handleSENDSTOP => some log.handleSENDSTOP
  | .handleSENDCONT => some log.handleSENDCONT
  | .setupDestList input => some (log.setupDestList (some input))

/-- A logger with regular clients and stdin registered. -/
def State.Initial (log : State) : Prop :=
  ∃ minRank maxRank dest, minRank ≤ maxRank ∧ 0 ≤ maxRank ∧
    log = State.initClients minRank maxRank dest

def loggerSystem : TransitionSystem State where
  initial := State.Initial
  step before after := ∃ call, before.perform call = some after

end Psmgmt.Logger
