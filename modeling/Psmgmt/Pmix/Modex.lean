import Psmgmt.Library.Transition

/-!
# Modex data of PMIx servers

The library of a PMIx server asks for the modex data of a process on another
node.  The server of that node hands the request to its own library as soon as
all the required keys are there, and sends back what the library returns.
-/

namespace Psmgmt.Pmix.Modex

structure Proc where
  nspace : String
  rank : Nat
  deriving DecidableEq, Repr

/-- `modexdata_t`: at the requesting server `cbdata` tells the requests of the
library apart, at the other one `requester` and `reqtime` are used. -/
structure Modexdata where
  proc : Proc
  requester : Nat
  cbdata : Nat
  reqKeys : List String
  timeout : Int
  reqtime : Int
  deriving DecidableEq, Repr

/-- PSPMIX_MODEX_DATA_REQ -/
structure DataReq where
  sender : Nat
  nspace : String
  rank : Nat
  timeout : Int
  reqKeys : List String
  deriving DecidableEq, Repr

/-- What the library returns for a request. -/
structure Response where
  status : Int
  data : List UInt8
  deriving DecidableEq, Repr

/-- PSPMIX_MODEX_DATA_RES -/
structure DataRes where
  nspace : String
  rank : Nat
  response : Response
  deriving DecidableEq, Repr

/-- `PMIX_ERR_TIMEOUT` -/
def errTimeout : Int := -24

/-- What `PMIx_Get()` returns for a key. -/
inductive GetStatus where
  | success
  | notFound
  | badParam
  | existsOutsideScope
  | other
  deriving DecidableEq, Repr

def isMissing : GetStatus → Bool
  | .notFound | .badParam | .existsOutsideScope => true
  | _ => false

def checkKeyAvailability (get : String → GetStatus) (reqKeys : List String) :
    Bool :=
  reqKeys.all fun key => !isMissing (get key)

/-- Where a request is on its way. -/
inductive Stage where
  /-- The message to the other server. -/
  | asked (msg : DataReq)
  /-- The timer that polls for the required keys. -/
  | polled (mdata : Modexdata)
  /-- The library of the other server. -/
  | library (mdata : Modexdata)
  /-- The message back. -/
  | answered (dest : Nat) (msg : DataRes)
  deriving DecidableEq, Repr

/-- `pspmix_service_sendModexDataResponse()`, called by `requestModexData_cb()` -/
def sendModexDataResponse (response : Response) (mdata : Modexdata) : Stage :=
  .answered mdata.requester ⟨mdata.proc.nspace, mdata.proc.rank, response⟩

/-- `PMIx_server_dmodex_request()`; a request refused is dropped. -/
def dmodexRequest (accepted : Bool) (mdata : Modexdata) : Option Stage :=
  if accepted then some (.library mdata) else none

/-- `pspmix_server_requestModexData()` -/
def requestModexData (get : String → GetStatus) (accepted : Bool)
    (mdata : Modexdata) : Option Stage :=
  if checkKeyAvailability get mdata.reqKeys then dmodexRequest accepted mdata
  else some (.polled mdata)

/-- `pspmix_service_handleModexDataRequest()` -/
def handleModexDataRequest (now : Int) (get : String → GetStatus)
    (accepted : Bool) (msg : DataReq) : Option Stage :=
  requestModexData get accepted
    { proc := ⟨msg.nspace, msg.rank⟩, requester := msg.sender, cbdata := 0
      reqKeys := msg.reqKeys, timeout := msg.timeout, reqtime := now }

def reqModexTimeoutHandler (now : Int) (get : String → GetStatus)
    (accepted : Bool) (mdata : Modexdata) : Option Stage :=
  if checkKeyAvailability get mdata.reqKeys then dmodexRequest accepted mdata
  else if mdata.timeout < now - mdata.reqtime then
    some (sendModexDataResponse ⟨errTimeout, []⟩ mdata)
  else some (.polled mdata)

/-- A request on its way, with its number. -/
structure Travel where
  request : Nat
  stage : Stage
  deriving DecidableEq, Repr

structure Servers where
  modexRequestList : Nat → List Modexdata
  issued : Nat
  travels : List Travel
  generated : List (Nat × Response)
  returned : List (Nat × Response)

def Servers.start : Servers :=
  { modexRequestList := fun _ => [], issued := 0, travels := []
    generated := [], returned := [] }

/-- One list changes. -/
def withList (lists : Nat → List Modexdata) (server : Nat)
    (list : List Modexdata) (other : Nat) : List Modexdata :=
  if other = server then list else lists other

/-- `server_dmodex_req_cb()` and `pspmix_service_sendModexDataRequest()` once the
node is known and the message is sent. -/
def Servers.issue (servers : Servers) (server : Nat) (proc : Proc)
    (reqKeys : List String) (timeout : Int) : Servers :=
  { servers with
    modexRequestList := withList servers.modexRequestList server
      (servers.modexRequestList server ++
        [{ proc, requester := 0, cbdata := servers.issued, reqKeys, timeout
           reqtime := 0 }])
    issued := servers.issued + 1
    travels := servers.travels ++ [⟨servers.issued,
      .asked ⟨server, proc.nspace, proc.rank, timeout, reqKeys⟩⟩] }

def Stage.response : Stage → Option Response
  | .answered _ msg => some msg.response
  | _ => none

/-- A request gets to another stage, or is dropped. -/
def Servers.move (servers : Servers) (travel : Travel) (stage : Option Stage) :
    Servers :=
  { servers with
    travels := servers.travels.erase travel ++ (stage.map (Travel.mk travel.request)).toList
    generated := servers.generated
      ++ ((stage.bind Stage.response).map (Prod.mk travel.request)).toList }

section Service

variable (nodeFromProc : Proc → Option Nat)
variable (checkNspace : String → String → Bool)

/-- A response matches by its process. -/
def matchesRes (msg : DataRes) (cur : Modexdata) : Bool :=
  decide (cur.proc.rank = msg.rank) && checkNspace cur.proc.nspace msg.nspace

/-- `pspmix_service_handleModexDataResponse()` -/
def handleModexDataResponse (list : List Modexdata) (msg : DataRes) :
    List Modexdata × List (Nat × Response) :=
  match list.find? (matchesRes checkNspace msg) with
  | none => (list, [])
  | some mdata => (list.eraseP (matchesRes checkNspace msg), [(mdata.cbdata, msg.response)])

def Servers.respond (servers : Servers) (travel : Travel) (dest : Nat) (msg : DataRes) : Servers :=
  { servers with
    travels := servers.travels.erase travel
    modexRequestList := withList servers.modexRequestList dest
      (handleModexDataResponse checkNspace (servers.modexRequestList dest) msg).1
    returned := servers.returned
      ++ (handleModexDataResponse checkNspace (servers.modexRequestList dest) msg).2 }

inductive Event where
  /-- The library of a server asks for the data of a process. -/
  | issue (server : Nat) (proc : Proc) (reqKeys : List String) (timeout : Int) (sent : Bool)
  | handleReq (request : Nat) (msg : DataReq) (now : Int)
      (get : String → GetStatus) (accepted : Bool)
  | timer (request : Nat) (mdata : Modexdata) (now : Int)
      (get : String → GetStatus) (accepted : Bool)
  /-- The library returns the data of a request it accepted. -/
  | complete (request : Nat) (mdata : Modexdata) (response : Response)
  | handleRes (request : Nat) (dest : Nat) (msg : DataRes)

def Enabled (servers : Servers) : Event → Prop
  | .issue .. => True
  | .handleReq request msg .. => ⟨request, .asked msg⟩ ∈ servers.travels
  | .timer request mdata .. => ⟨request, .polled mdata⟩ ∈ servers.travels
  | .complete request mdata _ => ⟨request, .library mdata⟩ ∈ servers.travels
  | .handleRes request dest msg => ⟨request, .answered dest msg⟩ ∈ servers.travels

def perform (servers : Servers) : Event → Servers
  | .issue server proc reqKeys timeout sent =>
    if (nodeFromProc proc).isSome && sent then
      servers.issue server proc reqKeys timeout
    else servers
  | .handleReq request msg now get accepted =>
    servers.move ⟨request, .asked msg⟩ (handleModexDataRequest now get accepted msg)
  | .timer request mdata now get accepted =>
    servers.move ⟨request, .polled mdata⟩ (reqModexTimeoutHandler now get accepted mdata)
  | .complete request mdata response =>
    servers.move ⟨request, .library mdata⟩ (some (sendModexDataResponse response mdata))
  | .handleRes request dest msg =>
    servers.respond checkNspace ⟨request, .answered dest msg⟩ dest msg

def modexSystem : TransitionSystem Servers where
  initial := fun servers => servers = Servers.start
  step := fun before after =>
    ∃ event, Enabled before event ∧ after = perform nodeFromProc checkNspace before event

/-- At most one response is generated for a request and at most one returned to
it, which is the one generated for it, and a request nothing is on its way for
has got its response. -/
structure Answered (servers : Servers) : Prop where
  generated_once : (servers.generated.map Prod.fst).Nodup
  once : (servers.returned.map Prod.fst).Nodup
  right : ∀ answer ∈ servers.returned, answer ∈ servers.generated
  all : ∀ request < servers.issued, (∀ travel ∈ servers.travels, travel.request ≠ request) →
      ∃ answer ∈ servers.returned, answer.1 = request

/-- The library takes the requests handed to it, and a response is handled when no
earlier request of the server for the process waits. -/
def Fits (servers : Servers) : Event → Prop
  | .handleReq _ msg _ get accepted => checkKeyAvailability get msg.reqKeys = true → accepted = true
  | .timer _ mdata _ get accepted => checkKeyAvailability get mdata.reqKeys = true → accepted = true
  | .handleRes request dest msg =>
    ∀ mdata ∈ servers.modexRequestList dest,
      matchesRes checkNspace msg mdata = true → request ≤ mdata.cbdata
  | _ => True

/-- The runs all of whose events fit. -/
def fittingSystem : TransitionSystem Servers where
  initial := (modexSystem nodeFromProc checkNspace).initial
  step := fun before after =>
    ∃ event, Enabled before event ∧ Fits checkNspace before event
      ∧ after = perform nodeFromProc checkNspace before event

end Service

end Psmgmt.Pmix.Modex
