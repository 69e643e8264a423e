import DbnPipe.Stream.Component

/-!
# The streaming client

`StreamingClient` with its `Pipeline` and its `StreamRecordSink`, the functions it defers to the event loop, and a
journal of what it does.

* `StreamingClient` — the state of the three objects, and the `journal`;
* `doTeardown`, `pipelineConnect`, `markReady`, `pipelineStart` — **the pipeline**, which terminates the process
  when it is called in the wrong state;
* `finish`, `handleError`, `handleComplete`, `onSignal` — what a terminal signal of the chain does, through the sink;
* `connect`, `start`, `stop`, `suspend`, `resume` — **the public calls**; `handleReady`, `handleBatch` — the events;
* `Event`, `step` — anything that can happen next.

Inside `Connect` and `SendRequest` the chain can give terminal signals before they return; the model takes those
signals as an argument (`during`).  A record handler runs once for each record of a batch, so that a batch is one
event and each of its records another.
-/

namespace DbnPipe.Client

/-- `ClientState`. -/
inductive ClientState where
  | disconnected | connecting | connected | streaming | stopping | done | error
deriving DecidableEq, Repr

/-- `Pipeline::State`. -/
inductive PipelineState where
  | created | connecting | ready | started | tornDown
deriving DecidableEq, Repr

/-- What the client does. -/
inductive Act where
  /-- `state_` is assigned. -/
  | state (s : ClientState)
  | chainConnect | chainSuspend | chainResume | chainClose
  /-- `P::SendRequest`. -/
  | sendRequest
  /-- The chain's ready callback. -/
  | readyCallback
  /-- The handlers of the user. -/
  | batchHandler | recordHandler | errorHandler (e : Error) | completeHandler
  /-- `Stop` or `Close` returns. -/
  | stopped
  /-- `std::terminate`. -/
  | terminate
deriving DecidableEq, Repr

/-- A function deferred to the event loop. -/
inductive Deferred where
  | error (e : Error)
  | complete
deriving DecidableEq, Repr

/-- The handlers that the user has set. -/
structure Handlers where
  batch : Bool := false
  record : Bool := false
  error : Bool := false
  complete : Bool := false

/-- `StreamingClient`.  `sinkValid` and `pipeline` are empty until `BuildPipeline`; `mayBeReady` tells that the chain
connects and has not called its ready callback; `remaining` are the records of a batch that `HandleBatch` has not
passed on. -/
structure StreamingClient where
  handlers : Handlers
  hostname : String
  state : ClientState := .disconnected
  requestSet : Bool := false
  connected : Bool := false
  ready : Bool := false
  startRequested : Bool := false
  started : Bool := false
  suspendCount : ℤ := 0
  sinkValid : Option Bool := none
  pipeline : Option PipelineState := none
  mayBeReady : Bool := false
  deferred : List Deferred := []
  remaining : ℕ := 0
  terminated : Bool := false
  journal : List Act := []

namespace StreamingClient

/-- The client does something. -/
def record (a : Act) (c : StreamingClient) : StreamingClient := { c with journal := c.journal ++ [a] }

/-- `state_ = s`. -/
def setState (s : ClientState) (c : StreamingClient) : StreamingClient := { c with state := s }.record (.state s)

/-- `IsTerminal`. -/
def isTerminal (c : StreamingClient) : Bool :=
  decide (c.state = .done) || decide (c.state = .error) || decide (c.state = .stopping)

/-- `sink_->Invalidate()`, where there is a sink. -/
def invalidate (c : StreamingClient) : StreamingClient := { c with sinkValid := c.sinkValid.map fun _ => false }

/-- A message on `stderr`, and the end of the process. -/
def terminate (c : StreamingClient) : StreamingClient := { c with terminated := true }.record .terminate

/-! ### The pipeline -/

/-- `DoTeardown`, where there is a pipeline. -/
def doTeardown (c : StreamingClient) : StreamingClient :=
  match c.pipeline with
  | none | some .tornDown => c
  | some _ => ({ c with pipeline := some .tornDown }.invalidate).record .chainClose

/-- `Pipeline::Suspend`, where there is a pipeline. -/
def pipelineSuspend (c : StreamingClient) : StreamingClient :=
  match c.pipeline with
  | none | some .tornDown => c
  | some _ => c.record .chainSuspend

/-- `Pipeline::Resume`, where there is a pipeline. -/
def pipelineResume (c : StreamingClient) : StreamingClient :=
  match c.pipeline with
  | none | some .tornDown => c
  | some _ => c.record .chainResume

/-- `Pipeline::MarkReady`. -/
def markReady (c : StreamingClient) : StreamingClient :=
  match c.pipeline with
  | none | some .tornDown => c
  | some .connecting => { c with pipeline := some .ready }
  | some _ => c.terminate

/-! ### Terminal signals -/

/-- A terminal state: the sink is invalidated, the pipeline stopped, and what the user is told deferred. -/
def finish (s : ClientState) (told : List Deferred) (c : StreamingClient) : StreamingClient :=
  { ((c.setState s).invalidate).doTeardown with deferred := c.deferred ++ told }

/-- `HandleError`. -/
def handleError (e : Error) (c : StreamingClient) : StreamingClient :=
  if c.isTerminal then c else c.finish .error (if c.handlers.error then [.error e] else [])

/-- `HandleComplete`. -/
def handleComplete (c : StreamingClient) : StreamingClient :=
  if c.isTerminal then c else c.finish .done (if c.handlers.complete then [.complete] else [])

/-- `OnError` and `OnComplete` of the sink. -/
def onSignal (c : StreamingClient) (s : Signal) : StreamingClient :=
  if c.sinkValid = some true then
    match s with
    | .error e => c.handleError e
    | .done => c.handleComplete
  else c

/-- The signals the chain gives before one of its functions returns. -/
def onSignals (during : List Signal) (c : StreamingClient) : StreamingClient := during.foldl onSignal c

/-! ### The pipeline, where it calls the chain -/

/-- `Pipeline::Connect`. -/
def pipelineConnect (during : List Signal) (c : StreamingClient) : StreamingClient :=
  match c.pipeline with
  | none | some .tornDown => c
  | some .created =>
    ({ c with pipeline := some .connecting, mayBeReady := true }.record .chainConnect).onSignals during
  | some _ => c.terminate

/-- `Pipeline::Start`. -/
def pipelineStart (during : List Signal) (c : StreamingClient) : StreamingClient :=
  match c.pipeline with
  | none | some .tornDown => c
  | some .ready => ({ c with pipeline := some .started }.record .sendRequest).onSignals during
  | some _ => c.terminate

/-! ### Public calls -/

/-- `BuildPipeline`. -/
def buildPipeline (c : StreamingClient) : StreamingClient :=
  let c := { c with connected := true, sinkValid := some true, pipeline := some .created }
  if 0 < c.suspendCount then c.pipelineSuspend else c

/-- `Connect(addr)`. -/
def connect (during : List Signal) (c : StreamingClient) : StreamingClient :=
  if c.isTerminal || c.connected then c
  else if !c.requestSet then
    c.handleError { code := .invalidState, message := "SetRequest() must be called before Connect()" }
  else (c.buildPipeline.setState .connecting).pipelineConnect during

/-- `Connect()`, with whether `ResolveHostname` gives an address. -/
def connectHost (addr : Bool) (during : List Signal) (c : StreamingClient) : StreamingClient :=
  if c.isTerminal then c
  else if !c.requestSet then
    c.handleError { code := .invalidState, message := "SetRequest() must be called before Connect()" }
  else if !addr then
    c.handleError { code := .dnsResolutionFailed, message := "Failed to resolve hostname: " ++ c.hostname }
  else c.connect during

/-- What `Start` and `HandleReady` do once both have come. -/
def send (during : List Signal) (c : StreamingClient) : StreamingClient :=
  { c.pipelineStart during with started := true }.setState .streaming

/-- `Start`. -/
def start (during : List Signal) (c : StreamingClient) : StreamingClient :=
  if c.isTerminal then c
  else if !c.connected then
    c.handleError { code := .invalidState, message := "Connect() must be called before Start()" }
  else
    let c := { c with startRequested := true }
    if c.ready && !c.started then c.send during else c

/-- `Stop`, and `Close`, which calls it. -/
def stop (c : StreamingClient) : StreamingClient :=
  (if c.isTerminal then c else c.finish .stopping []).record .stopped

/-- `Suspend`. -/
def suspend (c : StreamingClient) : StreamingClient :=
  let c := { c with suspendCount := c.suspendCount + 1 }
  if c.suspendCount = 1 then c.pipelineSuspend else c

/-- `Resume`. -/
def resume (c : StreamingClient) : StreamingClient :=
  let c := { c with suspendCount := c.suspendCount - 1 }
  if c.suspendCount = 0 then c.pipelineResume else c

/-! ### Events of the chain -/

/-- `HandleReady`. -/
def handleReady (during : List Signal) (c : StreamingClient) : StreamingClient :=
  if c.isTerminal then c
  else
    let c := ({ c with ready := true }.setState .connected).markReady
    if c.startRequested && !c.started then c.send during else c

/-- `HandleBatch` of a batch of `n` records. -/
def handleBatch (n : ℕ) (c : StreamingClient) : StreamingClient :=
  if c.handlers.batch then c.record .batchHandler
  else if c.handlers.record then { c with remaining := n }
  else c

end StreamingClient

/-- A public call.  `close` is `stop`. -/
inductive Call where
  | setRequest
  | connectHost (addr : Bool) (during : List Signal)
  | connect (during : List Signal)
  | start (during : List Signal)
  | stop
  | close
  | suspend
  | resume

/-- What can happen next: a call of the user, from the loop or from a handler; the ready callback; a batch at the
sink; the next record of the batch; a terminal signal at the sink; a deferred function. -/
inductive Event where
  | call (call : Call)
  | ready (during : List Signal)
  | batch (n : ℕ)
  | nextRecord
  | signal (s : Signal)
  | runDeferred

namespace StreamingClient

/-- A public call. -/
def call (c : StreamingClient) : Call → StreamingClient
  | .setRequest => { c with requestSet := true }
  | .connectHost addr during => c.connectHost addr during
  | .connect during => c.connect during
  | .start during => c.start during
  | .stop => c.stop
  | .close => c.stop
  | .suspend => c.suspend
  | .resume => c.resume

/-- The ready callback: at most once for a chain, and after `Connect`. -/
def onReady (during : List Signal) (c : StreamingClient) : StreamingClient :=
  if c.mayBeReady then ({ c with mayBeReady := false }.record .readyCallback).handleReady during else c

/-- `OnData` of the sink. -/
def onBatch (n : ℕ) (c : StreamingClient) : StreamingClient :=
  if c.sinkValid = some true then c.handleBatch n else c

/-- The loop of `HandleBatch` passes one more record on. -/
def nextRecord (c : StreamingClient) : StreamingClient :=
  if c.remaining = 0 then c else { c with remaining := c.remaining - 1 }.record .recordHandler

/-- The event loop runs the first deferred function. -/
def runDeferred (c : StreamingClient) : StreamingClient :=
  match c.deferred with
  | [] => c
  | .error e :: rest =>
    let c := { c with deferred := rest }
    if c.handlers.error then c.record (.errorHandler e) else c
  | .complete :: rest =>
    let c := { c with deferred := rest }
    if c.handlers.complete then c.record .completeHandler else c

/-- Something happens.  Between two records of a batch the chain and the event loop wait for `HandleBatch`. -/
def step (c : StreamingClient) (ev : Event) : StreamingClient :=
  if c.terminated then c
  else
    match ev with
    | .call x => c.call x
    | .nextRecord => c.nextRecord
    | .ready during => if c.remaining = 0 then c.onReady during else c
    | .batch n => if c.remaining = 0 then c.onBatch n else c
    | .signal s => if c.remaining = 0 then c.onSignal s else c
    | .runDeferred => if c.remaining = 0 then c.runDeferred else c

end StreamingClient

end DbnPipe.Client
