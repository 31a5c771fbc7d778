import Psmgmt.Library.Transition

/-!
# Prologue and epilogue jobs

A job runs the prologue or the epilogue on all its nodes, waits for their
results and passes one result to its requestor.  The model is the daemon that
leads one job, with the messages between it and the nodes of the job.
-/

namespace Psmgmt.Pelogue

open Function

/-- `PElogueType_t` -/
inductive Kind where
  | prologue
  | epilogue
  deriving DecidableEq, Repr

/-- `PElogueState_t` -/
inductive Status where
  | pending
  | done
  | failed
  | timedout
  | nodedown
  deriving DecidableEq, Repr

inductive JobState where
  | queued
  | prologue
  | epilogue
  | cancelPrologue
  | cancelEpilogue
  deriving DecidableEq, Repr

def JobState.running : Kind → JobState
  | .prologue => .prologue
  | .epilogue => .epilogue

def JobState.cancel : Kind → JobState
  | .prologue => .cancelPrologue
  | .epilogue => .cancelEpilogue

/-- `PElogueResList_t` of one node: its ID and the two states. -/
structure NodeRes where
  id : Nat
  status : Kind → Status

def NodeRes.set (res : NodeRes) (kind : Kind) (status : Status) : NodeRes :=
  { res with status := update res.status kind status }

/-- `Job_t`, with the counters of prologue and epilogue by kind. -/
structure Job where
  nodes : List NodeRes
  state : JobState
  track : Kind → Int
  exit : Kind → Int
  signalFlag : Int
  /-- A timer monitors the job. -/
  monitored : Bool
  deleted : Bool

/-- What the callback of a job is called with. -/
structure Result where
  exit : Int
  timeout : Bool
  nodes : List NodeRes

def sigkill : Int := 9
def sigterm : Int := 15

/-- `addJob()` -/
def addJob (nodes : List Nat) : Job :=
  { nodes := nodes.map fun id => { id, status := fun _ => .pending }
    state := .queued
    track := fun _ => -1
    exit := fun _ => 0
    signalFlag := 0
    monitored := false
    deleted := false }

/-- `startPElogueReq()`; `monitored` tells whether a timer got registered. -/
def startPElogueReq (job : Job) (kind : Kind) (monitored : Bool) : Job :=
  { job with
    state := .running kind
    track := update job.track kind job.nodes.length
    monitored }

/-- `setJobNodeStatus()` changes the first entry of a node. -/
def setJobNodeStatus (node : Nat) (kind : Kind) (status : Status) : List NodeRes → List NodeRes
  | [] => []
  | res :: nodes =>
    if res.id = node then res.set kind status :: nodes
    else res :: setJobNodeStatus node kind status nodes

def Job.setNodeStatus (job : Job) (node : Nat) (kind : Kind) (status : Status) : Job :=
  { job with nodes := setJobNodeStatus node kind status job.nodes }

/-- The state of a node that signals and timeouts look at. -/
def lookedAt (state : JobState) : Kind :=
  if state = .prologue then .prologue else .epilogue

/-- `sendPElogueSignal()`, with the nodes the signal is sent to. -/
def sendPElogueSignal (job : Job) (signal : Int) : Job × List Nat :=
  ({ job with signalFlag := signal },
    (job.nodes.filter fun res => res.status (lookedAt job.state) = .pending).map NodeRes.id)

/-- `CBprologueResp()` deletes the job. -/
def callback (job : Job) (exit : Int) (timeout : Bool) : Job × Result :=
  ({ job with deleted := true }, ⟨exit, timeout, job.nodes⟩)

def cancelJobMonitor (job : Job) : Job := { job with monitored := false }

/-- `cancelJob()` -/
def cancelJob (job : Job) : Job × Result := callback (cancelJobMonitor job) (-4) true

/-- The job after a message, the signals sent and the results passed on. -/
structure Outcome where
  job : Job
  signals : List Nat
  results : List Result

/-- What `finishJobPElogue()` does at last. -/
def keepExit (job : Job) (status : Int) (kind : Kind) : Job :=
  if status ≠ 0 ∧ (job.exit kind < status ∨ status < 0) then
    { job with exit := update job.exit kind status }
  else job

/-- The exit value of a job all of whose nodes have finished. -/
def lastExit (job : Job) (status : Int) (kind : Kind) : Int :=
  if job.exit kind = 0 then status else job.exit kind

/-- The first node that fails makes the job cancel the others. -/
def cancelOthers (job : Job) (kind : Kind) : Job × List Nat :=
  let cancelled : Job := { job with state := .cancel kind }
  if cancelled.signalFlag ≠ sigterm ∧ cancelled.signalFlag ≠ sigkill then
    sendPElogueSignal { cancelled with signalFlag := sigterm } sigterm
  else (cancelled, [])

/-- `finishJobPElogue()` -/
def finishJobPElogue (job : Job) (status : Int) (kind : Kind) : Outcome :=
  let counted : Job := { job with track := update job.track kind (job.track kind - 1) }
  if counted.track kind < 0 then ⟨counted, [], []⟩
  else if counted.track kind = 0 then
    let ended : Job :=
      { counted with
        exit := update counted.exit kind (lastExit counted status kind) }
    let called := callback (cancelJobMonitor ended) (ended.exit kind) false
    ⟨keepExit called.1 status kind, [], [called.2]⟩
  else if status ≠ 0 ∧ counted.exit kind = 0 then
    let cancelled := cancelOthers counted kind
    ⟨keepExit cancelled.1 status kind, cancelled.2, []⟩
  else ⟨keepExit counted status kind, [], []⟩

/-- `handlePElogueFinish()` for a message of this job. -/
def handlePElogueFinish (job : Job) (node : Nat) (kind : Kind) (res : Int) :
    Outcome :=
  if job.deleted then ⟨job, [], []⟩
  else
    finishJobPElogue (job.setNodeStatus node kind (if res ≠ 0 then .failed else .done)) res kind

/-- `dropMsgAndCancel()`; all messages but the start of a prologue count as
those of an epilogue. -/
def dropMsgAndCancel (job : Job) (dest : Nat) (prologueStart : Bool) :
    Outcome :=
  if job.deleted then ⟨job, [], []⟩
  else
    let kind := if prologueStart then Kind.prologue else .epilogue
    let marked := job.setNodeStatus dest kind .timedout
    if marked.state = .cancelPrologue ∨ marked.state = .cancelEpilogue then
      ⟨marked, [], []⟩
    else
      let cancelled := cancelJob { marked with state := .cancel kind }
      ⟨cancelled.1, [], [cancelled.2]⟩

/-- Pending nodes are marked when the time is over. -/
def markTimedout (kind : Kind) (res : NodeRes) : NodeRes :=
  if res.status kind = .pending then res.set kind .timedout else res

/-- `handleJobTimeout()` -/
def handleJobTimeout (job : Job) : Outcome :=
  let marked : Job :=
    { job with
      monitored := false
      nodes := job.nodes.map (markTimedout (lookedAt job.state)) }
  let signalled := sendPElogueSignal marked sigkill
  let cancelled := cancelJob signalled.1
  ⟨cancelled.1, signalled.2, [cancelled.2]⟩

/-! ## The job among its nodes -/

/-- The kind and the nodes of the job, the job, the START and SIGNAL messages on
their way, the nodes that run the script, the FINISH messages on their way, what
nodes have reported to the job, and the results passed to the callback. -/
structure Net where
  kind : Kind
  nodes : List Nat
  job : Job
  starts : List Nat
  signals : List Nat
  running : List Nat
  finishes : List (Nat × Int)
  reported : Nat → Option Int
  results : List Result

def Net.start (kind : Kind) (nodes : List Nat) (monitored : Bool) : Net :=
  { kind
    nodes
    job := startPElogueReq (addJob nodes) kind monitored
    starts := nodes
    signals := []
    running := []
    finishes := []
    reported := fun _ => none
    results := [] }

inductive Event where
  /-- START reaches a node. -/
  | arrive (node : Nat)
  /-- START is dropped. -/
  | dropStart (node : Nat)
  /-- A node answers START. -/
  | answer (node : Nat) (res : Int)
  /-- FINISH is handled. -/
  | finish (node : Nat) (res : Int)
  /-- SIGNAL reaches a node. -/
  | signal (node : Nat)
  /-- SIGNAL is dropped. -/
  | dropSignal (node : Nat)
  /-- The timer of the job expires. -/
  | timeout

/-- The events that are possible. -/
def Enabled (net : Net) : Event → Prop
  | .arrive node => node ∈ net.starts
  | .dropStart node => node ∈ net.starts
  | .answer node _ => node ∈ net.running
  | .finish node res => (node, res) ∈ net.finishes
  | .signal node => node ∈ net.signals
  | .dropSignal node => node ∈ net.signals
  | .timeout => net.job.monitored = true

/-- What the daemon did. -/
def Net.handled (net : Net) (outcome : Outcome) : Net :=
  { net with
    job := outcome.job
    signals := net.signals ++ outcome.signals
    results := net.results ++ outcome.results }

/-- A result counts as reported when the job still takes it. -/
def Net.report (net : Net) (node : Nat) (res : Int) : Net :=
  { net with
    finishes := net.finishes.erase (node, res)
    reported :=
      if net.job.deleted then net.reported
      else update net.reported node (some res) }

def perform (net : Net) : Event → Net
  | .arrive node =>
    { net with
      starts := net.starts.erase node
      running := node :: net.running }
  | .dropStart node =>
    { net with starts := net.starts.erase node }.handled
      (dropMsgAndCancel net.job node (net.kind = Kind.prologue))
  | .answer node res =>
    { net with
      running := net.running.erase node
      finishes := (node, res) :: net.finishes }
  | .finish node res =>
    (net.report node res).handled (handlePElogueFinish net.job node net.kind res)
  | .signal node => { net with signals := net.signals.erase node }
  | .dropSignal node =>
    { net with signals := net.signals.erase node }.handled (dropMsgAndCancel net.job node false)
  | .timeout => net.handled (handleJobTimeout net.job)

/-- All runs of a job of at least one node, its nodes being different. -/
def jobSystem : TransitionSystem Net where
  initial := fun net => ∃ kind nodes monitored, nodes ≠ [] ∧ nodes.Nodup
    ∧ net = Net.start kind nodes monitored
  step := fun before after => ∃ event, Enabled before event ∧ after = perform before event

/-! ## One complete result -/

/-- The state of a node by what it has reported. -/
def expected : Option Int → Status
  | none => .timedout
  | some res => if res = 0 then .done else .failed

def Right (net : Net) (result : Result) : Prop :=
  result.nodes.map NodeRes.id = net.nodes
    ∧ (result.exit = 0 ↔ ∀ node ∈ net.nodes, net.reported node = some 0)
    ∧ ∀ res ∈ result.nodes, res.status net.kind = expected (net.reported res.id)

/-- The callback is called at most once, is not forgotten, and its result is
right. -/
def Complete (net : Net) : Prop :=
  net.results.length ≤ 1
    ∧ (net.results = [] → net.running ≠ [] ∨ net.starts ≠ []
      ∨ net.signals ≠ [] ∨ net.finishes ≠ [] ∨ net.job.monitored = true)
    ∧ ∀ result ∈ net.results, Right net result

def cancelled (job : Job) : Prop := job.state = .cancelPrologue ∨ job.state = .cancelEpilogue

def Fits (net : Net) : Event → Prop
  | .dropStart node =>
    net.job.deleted = true ∨ (cancelled net.job ∧ net.job.monitored = true) ∨
      (¬cancelled net.job ∧ ∀ res ∈ net.job.nodes, res.id ≠ node → net.reported res.id ≠ none)
  | .dropSignal node => net.job.deleted = true ∨ net.kind = .prologue ∨ net.reported node = none
  | .timeout =>
    net.kind = .epilogue ∨ ¬cancelled net.job
      ∨ ∀ res ∈ net.job.nodes, res.status .prologue ≠ .pending
  | _ => True

/-- The runs all of whose events fit. -/
def fittingSystem : TransitionSystem Net where
  initial := jobSystem.initial
  step := fun before after =>
    ∃ event, Enabled before event ∧ Fits before event ∧ after = perform before event

end Psmgmt.Pelogue
