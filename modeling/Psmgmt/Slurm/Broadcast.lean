import Psmgmt.Serial.Accessors

/-!
# File broadcast

A file is written block by block.  The first block carries a credential signed
by the controller, later blocks are compared with the first one.
-/

namespace Psmgmt.Broadcast

open Serial ByteMemory

/-! ## Unpacking -/

/-- Unpacking fails as a whole once an error is noted. -/
abbrev Unpack := StateT DataBuffer Option

/-- The result of a getter. -/
def fetched {Value : Type} (result : Option Value × DataBuffer) : Option (Value × DataBuffer) :=
  result.1.map fun value => (value, result.2)

def getInt (flags : Flags) (type : DataType) (size : Nat) : Unpack Nat :=
  fun data => (fetched (getFromBuf flags data type size)).map fun result =>
    (ofMem result.1, result.2)

/-- `getTime()`, where `time_t` is signed. -/
def getTime (flags : Flags) : Unpack Int :=
  fun data => (fetched (getFromBuf flags data .time 8)).map fun result =>
    (ofWord 8 (ofMem result.1), result.2)

def getStringM (flags : Flags) : Unpack (List UInt8) :=
  fun data => (fetched (getMemFromBuf flags data none .string)).map
    fun result => (cString result.1, result.2)

/-- `getStringML()`: the string with its length in the message. -/
def getStringML (flags : Flags) : Unpack (List UInt8 × Nat) :=
  fun data => (fetched (getMemFromBuf flags data none .string)).map
    fun result => ((cString result.1, result.1.length), result.2)

def getDataM (flags : Flags) : Unpack (List UInt8) :=
  fun data => fetched (getMemFromBuf flags data none .data)

def getUint32Array (flags : Flags) : Unpack (List Nat) :=
  fun data => (fetched (getArrayFromBuf flags data .uint32 4)).map
    fun result => (result.1.map ofMem, result.2)

def getStrings (flags : Flags) : Unpack (List (List UInt8)) :=
  fun data => (fetched (Serial.getStringArrayM flags data)).map
    fun result => (result.1.map cString, result.2)

def getRemData : Unpack Nat := fun data => some (data.offset, data)

/-- A field that only some versions of the protocol have. -/
def whenSent {Value : Type} (sent : Bool) (get : Unpack Value) (otherwise : Value) : Unpack Value :=
  if sent then get else pure otherwise

def protoVersion (major : Nat) : Nat := major * 256

def slurm2302 : Nat := protoVersion 39
def slurm2311 : Nat := protoVersion 40
def slurm2405 : Nat := protoVersion 41
def slurm2505 : Nat := protoVersion 43

/-- `Head_ID_t` -/
structure HeadID where
  sluid : Nat
  jobid : Nat
  stepid : Nat
  stepHetComp : Nat
  deriving DecidableEq, Repr

def HeadID.zero : HeadID := ⟨0, 0, 0, 0⟩

def unpackSlurmID (flags : Flags) (msgVer : Nat) : Unpack HeadID := do
  let sluid ← whenSent (slurm2405 < msgVer) (getInt flags .uint64 8) 0
  let jobid ← getInt flags .uint32 4
  let stepid ← getInt flags .uint32 4
  let stepHetComp ← getInt flags .uint32 4
  pure { sluid, jobid, stepid, stepHetComp }

/-- The identity within a credential. -/
structure Identity where
  uid : Nat
  gid : Nat
  username : List UInt8
  gecos : List UInt8
  home : List UInt8
  shell : List UInt8
  gids : List Nat
  groupNames : List (List UInt8)
  deriving DecidableEq

def Identity.empty : Identity := ⟨0, 0, [], [], [], [], [], []⟩

def unpackIdentity (flags : Flags) : Unpack Identity := do
  let uid ← getInt flags .uint32 4
  let gid ← getInt flags .uint32 4
  let username ← getStringM flags
  let gecos ← getStringM flags
  let home ← getStringM flags
  let shell ← getStringM flags
  let gids ← getUint32Array flags
  let groupNames ← getStrings flags
  if groupNames.length ≠ 0 ∧ groupNames.length ≠ gids.length then failure
  else pure { uid, gid, username, gecos, home, shell, gids, groupNames }

def unpackOldIdentity (flags : Flags) : Unpack Identity := do
  let uid ← getInt flags .uint32 4
  let gid ← getInt flags .uint32 4
  let username ← getStringM flags
  let gids ← getUint32Array flags
  pure { Identity.empty with uid, gid, username, gids }

/-- `BCast_Cred_t` -/
structure BCastCred where
  ctime : Int
  etime : Int
  hID : HeadID
  hetJobID : Nat
  identity : Identity
  hostlist : List UInt8
  credEnd : Nat
  sig : List UInt8
  sigLen : Nat
  deriving DecidableEq

/-- `__unpackBCastCred()` -/
def unpackBCastCred (flags : Flags) (msgVer : Nat) : Unpack BCastCred := do
  let header ← whenSent (slurm2505 < msgVer) (unpackSlurmID flags msgVer) HeadID.zero
  let identity ← whenSent (slurm2302 < msgVer) (unpackIdentity flags) Identity.empty
  let ctime ← getTime flags
  let etime ← getTime flags
  let jobid ← whenSent (msgVer ≤ slurm2505) (getInt flags .uint32 4) header.jobid
  let hetJobID ← getInt flags .uint32 4
  let stepid ← whenSent (msgVer ≤ slurm2505) (getInt flags .uint32 4) header.stepid
  let identity ← whenSent (msgVer ≤ slurm2302) (unpackOldIdentity flags) identity
  let hostlist ← getStringM flags
  let credEnd ← getRemData
  let (sig, sigLen) ← getStringML flags
  pure { ctime, etime, hID := { header with jobid, stepid }, hetJobID,
         identity, hostlist, credEnd, sig, sigLen }

/-- `BCast_t`, without what only the response and the forwarder use. -/
structure BCast where
  fileName : List UInt8
  exeFileName : List UInt8
  blockNumber : Nat
  blockOffset : Nat
  compress : Nat
  flags : Nat
  modes : Nat
  blockLen : Nat
  uncompLen : Nat
  hID : HeadID
  fileSize : Nat
  atime : Int
  mtime : Int
  block : List UInt8
  username : List UInt8
  uid : Nat
  gid : Nat
  /-- A forwarder is writing the block. -/
  fwdata : Bool
  sig : Option (List UInt8)
  sigLen : Nat
  deriving DecidableEq

/-- `unpackReqFileBcast()`; what it does not read is zero. -/
def unpackReqFileBcast (flags : Flags) (msgVer : Nat) : Unpack BCast := do
  let blockNumber ← getInt flags .uint32 4
  let compress ← getInt flags .uint16 2
  let bcastFlags ← getInt flags .uint16 2
  let modes ← getInt flags .uint16 2
  let uid ← getInt flags .uint32 4
  let username ← getStringM flags
  let gid ← getInt flags .uint32 4
  let atime ← getTime flags
  let mtime ← getTime flags
  let fileName ← getStringM flags
  let exeFileName ← whenSent (slurm2311 < msgVer) (getStringM flags) []
  let blockLen ← getInt flags .uint32 4
  let uncompLen ← getInt flags .uint32 4
  let blockOffset ← getInt flags .uint64 8
  let fileSize ← getInt flags .uint64 8
  let block ← getDataM flags
  if blockLen ≠ block.length then failure
  else
    pure { fileName, exeFileName, blockNumber, blockOffset, compress,
           flags := bcastFlags, modes, blockLen, uncompLen,
           hID := HeadID.zero, fileSize, atime, mtime, block, username, uid,
           gid, fwdata := false, sig := none, sigLen := 0 }

/-! ## Checking the credential -/

/-- Return codes of the request. -/
inductive ReturnCode where
  | communicationsReceiveError
  | authCredInvalid
  | userIdMissing
  | error
  | invalidJobId
  | execveFailed
  deriving DecidableEq, Repr

/-- What munge decodes from a signature. -/
structure Signed where
  buf : List UInt8
  uid : Nat
  gid : Nat
  deriving DecidableEq

/-- The owner of a job or an allocation. -/
structure Owner where
  uid : Nat
  gid : Nat
  username : List UInt8

/-- What stays fixed: the format of messages, munge and the Slurm user. -/
structure Setup where
  flags : Flags
  munge : List UInt8 → Option Signed
  slurmUserID : Nat

/-- What a request meets on the node. -/
structure Site where
  time : Int
  job : Nat → Option Owner
  alloc : Nat → Option Owner
  denied : Nat → Bool
  startForwarder : Bool

/-- A FILE_BCAST request: version and user of its head, and its data. -/
structure Request where
  version : Nat
  uid : Nat
  data : DataBuffer

def verifyUserId (slurmUserID userID validID : Nat) : Bool :=
  userID = 0 || userID = validID || userID = slurmUserID

/-- `BCast_find()` -/
def bcastFind (bcastList : List BCast) (jobid : Nat) (fileName : List UInt8)
    (blockNum : Nat) : Option BCast :=
  bcastList.find? fun bcast =>
    !(decide (0 < blockNum) && blockNum != bcast.blockNumber)
      && bcast.hID.jobid = jobid && bcast.fileName = fileName

/-- `memcmp()` of two signatures finds no difference. -/
def sameBytes (left right : Option (List UInt8)) (len : Nat) : Bool :=
  (left.getD []).take len = (right.getD []).take len

/-- The bytes of a credential that starts where `data` is. -/
def credBytes (data : DataBuffer) (cred : BCastCred) : List UInt8 :=
  data.peek (cred.credEnd - data.offset)

def checkFirst (setup : Setup) (data : DataBuffer) (cred : BCastCred) : Except ReturnCode Unit :=
  match setup.munge cred.sig with
  | none => .error .authCredInvalid
  | some signed =>
    if cred.credEnd - data.offset ≠ signed.buf.length then
      .error .authCredInvalid
    else if signed.buf ≠ data.peek signed.buf.length then
      .error .authCredInvalid
    else if verifyUserId setup.slurmUserID signed.uid 0 = false then
      .error .userIdMissing
    else .ok ()

def checkLater (time : Int) (bcastList : List BCast) (bcast : BCast)
    (cred : BCastCred) : Except ReturnCode Unit :=
  match bcastFind bcastList bcast.hID.jobid bcast.fileName 1 with
  | none => .error .authCredInvalid
  | some firstBCast =>
    if sameBytes bcast.sig firstBCast.sig firstBCast.sigLen = false then
      .error .authCredInvalid
    else if cred.etime < time then .error .authCredInvalid
    else .ok ()

/-- What the credential adds to the block. -/
def withCred (bcast : BCast) (cred : BCastCred) : BCast :=
  { bcast with sig := some cred.sig, hID := cred.hID }

/-- `BCast_extractCred()`, where the list ends with the block itself. -/
def extractCred (setup : Setup) (time : Int) (known : List BCast)
    (version : Nat) (data : DataBuffer) (bcast : BCast) :
    Except ReturnCode BCast :=
  match unpackBCastCred setup.flags version data with
  | none => .error .authCredInvalid
  | some (cred, _) =>
    match
      if bcast.blockNumber = 1 then checkFirst setup data cred
      else checkLater time (known ++ [bcast]) bcast cred with
    | .error code => .error code
    | .ok () => .ok (withCred bcast cred)

/-- The job or else the allocation the block is for. -/
def findOwner (site : Site) (jobid : Nat) : Option Owner :=
  match site.job jobid with
  | some owner => some owner
  | none => site.alloc jobid

/-- What `handleFileBCast()` does after the credential is extracted. -/
def assignOwner (setup : Setup) (site : Site) (uid : Nat) (bcast : BCast) :
    Except ReturnCode BCast :=
  if bcast.compress ≠ 0 then .error .error
  else
    match findOwner site bcast.hID.jobid with
    | none => .error .invalidJobId
    | some owner =>
      if verifyUserId setup.slurmUserID uid owner.uid = false then
        .error .userIdMissing
      else if site.denied owner.uid then .error .userIdMissing
      else
        .ok { bcast with
              uid := owner.uid, gid := owner.gid, username := owner.username }

/-- `handleFileBCast()` up to the block it passes to `execBCast()`. -/
def handleFileBCast (setup : Setup) (site : Site) (known : List BCast)
    (request : Request) (data : DataBuffer) (bcast : BCast) :
    Except ReturnCode BCast :=
  match extractCred setup site.time known request.version data bcast with
  | .error code => .error code
  | .ok extracted => assignOwner setup site request.uid extracted

/-! ## Requests one after the other -/

/-- The known blocks, and all that were passed to `execBCast()`. -/
structure Daemon where
  bcastList : List BCast
  executed : List BCast

def Daemon.start : Daemon := ⟨[], []⟩

/-- The block a request passes to `execBCast()`. -/
def passed (setup : Setup) (site : Site) (known : List BCast)
    (request : Request) : Except ReturnCode BCast :=
  match unpackReqFileBcast setup.flags request.version request.data with
  | none => .error .communicationsReceiveError
  | some (bcast, data) => handleFileBCast setup site known request data bcast

/-- A block that is not written is freed with its request. -/
def serve (setup : Setup) (site : Site) (daemon : Daemon) (request : Request) : Daemon :=
  match passed setup site daemon.bcastList request with
  | .error _ => daemon
  | .ok bcast =>
    { bcastList :=
        if site.startForwarder then
          daemon.bcastList ++ [{ bcast with fwdata := true }]
        else daemon.bcastList
      executed := daemon.executed ++ [bcast] }

def clearByJobid (jobid : Nat) (bcastList : List BCast) : List BCast :=
  bcastList.filter fun bcast => bcast.hID.jobid ≠ jobid

/-- Blocks that are being written are only killed. -/
def destroyByJobid (jobid : Nat) (bcastList : List BCast) : List BCast :=
  bcastList.filter fun bcast => bcast.hID.jobid ≠ jobid || bcast.fwdata

/-- `bcastCallback()` for the block at an index of the list. -/
def bcastCallback (index : Nat) (bcastList : List BCast) : List BCast :=
  match bcastList[index]? with
  | none => bcastList
  | some bcast =>
    let ended := bcastList.modify index fun bcast => { bcast with fwdata := false }
    if bcast.flags.testBit 1 then clearByJobid bcast.hID.jobid ended
    else ended

inductive Event where
  | request (site : Site) (request : Request)
  | callback (index : Nat)
  | clear (jobid : Nat)
  | destroy (jobid : Nat)
  | clearList

def handle (setup : Setup) (daemon : Daemon) : Event → Daemon
  | .request site request => serve setup site daemon request
  | .callback index => { daemon with bcastList := bcastCallback index daemon.bcastList }
  | .clear jobid => { daemon with bcastList := clearByJobid jobid daemon.bcastList }
  | .destroy jobid => { daemon with bcastList := destroyByJobid jobid daemon.bcastList }
  | .clearList => { daemon with bcastList := [] }

/-- The requests of a run, each with the state it meets. -/
def served (setup : Setup) : Daemon → List Event → List (Daemon × Site × Request)
  | _, [] => []
  | daemon, .request site request :: events =>
    (daemon, site, request) :: served setup (handle setup daemon (.request site request)) events
  | daemon, event :: events => served setup (handle setup daemon event) events

/-! ## Authorised blocks -/

/-- A request with a well-formed block and credential. -/
def Parsed (setup : Setup) (request : Request) (bcast : BCast)
    (cred : BCastCred) (bytes : List UInt8) : Prop :=
  ∃ data rest, unpackReqFileBcast setup.flags request.version request.data = some (bcast, data)
      ∧ unpackBCastCred setup.flags request.version data = some (cred, rest)
      ∧ credBytes data cred = bytes

/-- The signature decodes to the bytes of the credential and an authorised
user. -/
def SignedBy (setup : Setup) (cred : BCastCred) (bytes : List UInt8) : Prop :=
  ∃ signed, setup.munge cred.sig = some signed ∧ signed.buf = bytes
    ∧ verifyUserId setup.slurmUserID signed.uid 0 = true

/-- A first block of the same job and file with the same signature that was
accepted and is still known. -/
def Partner (daemon : Daemon) (bcast : BCast) (cred : BCastCred) : Prop :=
  ∃ first ∈ daemon.bcastList, first.blockNumber = 1
    ∧ first.hID.jobid = cred.hID.jobid ∧ first.fileName = bcast.fileName
    ∧ first.sig = some cred.sig
    ∧ ∃ executed ∈ daemon.executed, { executed with fwdata := first.fwdata } = first

def LaterAuthorised (daemon : Daemon) (site : Site) (bcast : BCast) (cred : BCastCred) : Prop :=
  site.time ≤ cred.etime ∧ Partner daemon bcast cred

def Correct (setup : Setup) (daemon : Daemon) (site : Site) (request : Request) : Prop :=
  (∀ written, passed setup site daemon.bcastList request = .ok written →
    ∃ bcast cred bytes, Parsed setup request bcast cred bytes
      ∧ (bcast.blockNumber = 1 ∧ SignedBy setup cred bytes
        ∨ LaterAuthorised daemon site bcast cred))
  ∧ ∀ bcast data, unpackReqFileBcast setup.flags request.version request.data = some (bcast, data) →
      ∀ cred rest, unpackBCastCred setup.flags request.version data = some (cred, rest) →
      bcast.blockNumber ≠ 1 → LaterAuthorised daemon site bcast cred →
      extractCred setup site.time daemon.bcastList request.version data bcast
        = .ok (withCred bcast cred)

def KnownUnderZero (daemon : Daemon) (bcast : BCast) : Prop :=
  ∃ first ∈ daemon.bcastList, first.blockNumber = 1 ∧ first.hID.jobid = 0
    ∧ first.fileName = bcast.fileName

/-- A later block that has not expired meets a first block of its file under job
0 exactly when it meets the one it belongs to. -/
def Fits (setup : Setup) (daemon : Daemon) (site : Site) (request : Request) : Prop :=
  ∀ bcast data, unpackReqFileBcast setup.flags request.version request.data = some (bcast, data) →
    ∀ cred rest, unpackBCastCred setup.flags request.version data = some (cred, rest) →
    bcast.blockNumber ≠ 1 → site.time ≤ cred.etime →
    (Partner daemon bcast cred → KnownUnderZero daemon bcast)
      ∧ (KnownUnderZero daemon bcast →
        (∃ written, assignOwner setup site request.uid (withCred bcast cred)
          = .ok written) → Partner daemon bcast cred)

end Psmgmt.Broadcast
