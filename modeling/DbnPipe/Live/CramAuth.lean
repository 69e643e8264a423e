import DbnPipe.Dbn.ParserStage
import DbnPipe.Live.CramAuthUtils
import DbnPipe.Stream.Component

/-!
# CramAuth

`src/cram_auth.hpp`: the stage that authenticates with the live gateway, line by line, and then hands the
binary stream on.

* `CramAuth` — the members, next to a record of what happened so far: **`log` has every action, stamped with
  whether an error had been emitted before it**;
* `onTextData` — the loop over the bytes of a call, up to the switch to streaming in the middle of it;
* `sendLine`, `sendPendingSubscription`, `subscribe`, `startStreaming` — the client's lines;
* `spliceChecked`, `forwardBinaryData`, `handleRemainingData` — the binary stream;
* `arrive` — the socket delivers: **which bytes are of the stream is written down as they come**, by the
  state that the delivery finds and the byte with which the stream begins, whatever is done with them;
* `downstream` — the next stage: inside one `OnData` it consumes pieces of the chain, calls `Suspend` and
  `Resume`, and the socket may deliver, up to a depth of calls inside one another.
-/

namespace DbnPipe.Live

/-- `CramAuthState`. -/
inductive CramAuthState where
  | waitingGreeting
  | waitingChallenge
  | authenticating
  | ready
  | streaming
deriving DecidableEq, Repr

/-- What is written down: a line of the server and the state that it is handled in; a line given to
`write_callback_`, or refused by `SendLine` as too long; an assignment to `state_`; an `OnData` of the
downstream. -/
inductive Action where
  | heard (s : CramAuthState) (line : List Byte)
  | wrote (line : List Byte)
  | refused (line : List Byte)
  | state (s : CramAuthState)
  | offered
deriving DecidableEq, Repr

/-- An action; `late`: after an error was emitted. -/
structure Entry where
  late : Bool
  action : Action
deriving DecidableEq, Repr

/-- What happens inside one `OnData` of the downstream, in order: it consumes some bytes (`none`: all there
are), calls `Suspend`, or `Resume` of a suspended component; the socket, resumed with it, delivers. -/
inductive Act where
  | consume (n : Option ℕ)
  | suspend
  | resume
  | data (segments : List Segment)

/-- What the stream looks like at a moment: as an `OnData` of the downstream begins (`start`), or after one of
the downstream's acts. -/
structure Moment where
  start : Bool
  closed : Bool
  suspended : Bool
  consumed : List Byte
  streaming : List Byte
  pending : List Byte
  received : List Byte
deriving DecidableEq, Repr

/-- `CramAuth`.  From `hasDownstream` on: whether `downstream_` is set, what the downstream will do, and what
happened so far. -/
structure CramAuth where
  apiKey : List Byte
  dataset : List Byte
  state : CramAuthState := .waitingGreeting
  greeting : Greeting := {}
  lineBuffer : List Byte := []
  streamingChain : Chain := {}
  pendingChain : Chain := {}
  pending : Option Subscription := none
  subscriptionSent : Bool := false
  startRequested : Bool := false
  subCounter : ℕ := 0
  hasDownstream : Bool := true
  -- the downstream's next turns; after them it takes everything
  script : List (List Act) := []
  log : List Entry := []
  -- calls of the downstream's `OnData`; the bytes that came since streaming began, and those that the downstream
  -- consumed
  offers : ℕ := 0
  received : List Byte := []
  consumed : List Byte := []
  moments : List Moment := []
  -- the parser behind it, where that is the downstream
  next : Dbn.ParserStage := {}

/-- `kMaxPendingData`: 16MB. -/
def kMaxPendingData : ℕ := 16 * 1024 * 1024

/-- `kMaxLineLength`: 8KB. -/
def kMaxLineLength : ℕ := 8 * 1024

/-- Change the derived part. -/
def update (f : CramAuth → CramAuth) (c : Component CramAuth) : Component CramAuth := { c with own := f c.own }

/-- An error has been emitted. -/
def failed (c : Component CramAuth) : Bool := c.signals.any fun
  | .error _ => true
  | .done => false

/-- Record an action. -/
def record (a : Action) (c : Component CramAuth) : Component CramAuth :=
  update (fun h => { h with log := h.log ++ [⟨failed c, a⟩] }) c

/-- An assignment to `state_`. -/
def setState (s : CramAuthState) (c : Component CramAuth) : Component CramAuth :=
  update (fun h => { h with state := s }) (record (.state s) c)

/-- Report an error and close. -/
def fail (code : ErrorCode) (message : String) (c : Component CramAuth) : Component CramAuth :=
  (c.emitError { code, message }).requestClose

/-- `EmitOverflow`. -/
def emitOverflow (message : String) : Component CramAuth → Component CramAuth := fail .bufferOverflow message

/-! ### The client's lines -/

/-- A line fits in a segment, its newline included. -/
def lineFits (line : List Byte) : Bool := decide (line.length + 1 ≤ Segment.kSize)

/-- `SendLine`. -/
def sendLine (line : List Byte) (c : Component CramAuth) : Component CramAuth :=
  if lineFits line then record (.wrote line) c
  else fail .bufferOverflow "Line too large to send" (record (.refused line) c)

/-- `SendPendingSubscription`; `sub_counter_` has 32 bits. -/
def sendPendingSubscription (c : Component CramAuth) : Component CramAuth :=
  match c.own.pending with
  | none => c
  | some p =>
    if c.own.subscriptionSent then c
    else
      let c := update (fun h => { h with subCounter := (h.subCounter + 1) % 2 ^ 32 }) c
      let c := sendLine (subscriptionLine p c.own.subCounter) c
      let c := update (fun h => { h with subscriptionSent := true }) c
      if c.own.startRequested then setState .streaming (sendLine startSession c) else c

/-- `Subscribe`; an empty start is none. -/
def subscribe (p : Subscription) (c : Component CramAuth) : Component CramAuth :=
  let p := { p with start := p.start.filter fun start => !start.isEmpty }
  let c := update (fun h => { h with pending := some p, subscriptionSent := false }) c
  if c.own.state = .ready then sendPendingSubscription c else c

/-- `StartStreaming`. -/
def startStreaming (c : Component CramAuth) : Component CramAuth :=
  let c := update (fun h => { h with startRequested := true }) c
  if c.own.state = .ready ∧ c.own.subscriptionSent = true then
    setState .streaming (sendLine startSession c)
  else c

/-! ### The server's lines -/

section Lines

variable (sha256 : List Byte → List Byte)

/-- `HandleGreeting`. -/
def handleGreeting (line : List Byte) (c : Component CramAuth) : Component CramAuth :=
  match parseGreeting line with
  | none => fail .invalidGreeting ("Invalid greeting: " ++ ofBytes line) c
  | some greeting => setState .waitingChallenge (update (fun h => { h with greeting := greeting }) c)

/-- `HandleChallenge`. -/
def handleChallenge (line : List Byte) (c : Component CramAuth) : Component CramAuth :=
  match parseChallenge line with
  | none => fail .invalidChallenge ("Invalid challenge: " ++ ofBytes line) c
  | some challenge =>
    let response := computeResponse sha256 challenge c.own.apiKey
    setState .authenticating (sendLine (formatAuthRequest response c.own.dataset) c)

/-- The session id of an auth response goes into the greeting. -/
def takeSessionId (line : List Byte) : Component CramAuth → Component CramAuth :=
  update fun h =>
    if (ascii "err=").isPrefixOf line then h
    else
      match (parseAuthResponse line).sessionId with
      | some id => { h with greeting := { h.greeting with sessionId := id } }
      | none => h

/-- `HandleAuthResponse`. -/
def handleAuthResponse (line : List Byte) (c : Component CramAuth) : Component CramAuth :=
  let c := takeSessionId line c
  match authFailure line with
  | some msg => fail .authFailed (ofBytes msg) c
  | none => sendPendingSubscription (setState .ready c)

/-- A line of the server is written down. -/
def hear (line : List Byte) (c : Component CramAuth) : Component CramAuth := record (.heard c.own.state line) c

/-- `ProcessLine`. -/
def processLine (line : List Byte) (c : Component CramAuth) : Component CramAuth :=
  match c.own.state with
  | .waitingGreeting => handleGreeting line (hear line c)
  | .waitingChallenge => handleChallenge sha256 line (hear line c)
  | .authenticating => handleAuthResponse line (hear line c)
  | .ready | .streaming => hear line c

end Lines

/-! ### The binary stream -/

/-- `SpliceChecked`, the target given by its member; also what is left of the source. -/
def spliceChecked (target : CramAuth → Chain) (put : Chain → CramAuth → CramAuth) (source : Chain)
    (c : Component CramAuth) : Component CramAuth × Chain × Bool :=
  if source.empty then (c, source, true)
  else if (target c.own).wouldOverflow source.size kMaxPendingData then
    (emitOverflow "Binary buffer overflow" c, source, false)
  else
    let r := Chain.compactAndSplice (target c.own) source
    (update (put r.1) c, r.2, true)

/-- `SpliceChecked(streaming_chain_, …)`. -/
def toStreaming : Chain → Component CramAuth → Component CramAuth × Chain × Bool :=
  spliceChecked CramAuth.streamingChain fun chain h => { h with streamingChain := chain }

/-- `SpliceChecked(pending_chain_, …)`. -/
def toPending : Chain → Component CramAuth → Component CramAuth × Chain × Bool :=
  spliceChecked CramAuth.pendingChain fun chain h => { h with pendingChain := chain }

/-- `SpliceChecked(streaming_chain_, pending_chain_)`. -/
def splicePending (c : Component CramAuth) : Component CramAuth × Bool :=
  let r := toStreaming c.own.pendingChain c
  (update (fun h => { h with pendingChain := r.2.1 }) r.1, r.2.2)

section Binary

variable (deliver : Component CramAuth → Component CramAuth)

/-- `GetDownstream().OnData(streaming_chain_)`. -/
def offer (c : Component CramAuth) : Component CramAuth :=
  deliver (update (fun h => { h with offers := h.offers + 1 }) (record .offered c))

/-- `ForwardBinaryData`. -/
def forwardBinaryData (data : Chain) (c : Component CramAuth) : Component CramAuth × Chain :=
  let r := splicePending c
  if !r.2 then (r.1, data)
  else
    let s := toStreaming data r.1
    (if s.2.2 then offer deliver s.1 else s.1, s.2.1)

/-- `OnBinaryData`. -/
def onBinaryData (data : Chain) (c : Component CramAuth) : Component CramAuth × Chain :=
  if c.suspended then
    let r := toPending data c
    (r.1, r.2.1)
  else forwardBinaryData deliver data c

/-- `HandleRemainingData`. -/
def handleRemainingData (data : Chain) (c : Component CramAuth) : Component CramAuth × Chain :=
  if data.empty then (c, data) else onBinaryData deliver data c

/-- `ProcessPending`. -/
def processPending (c : Component CramAuth) : Component CramAuth :=
  let r := splicePending c
  if !r.2 then r.1 else (r.1.forwardData CramAuth.streamingChain (offer deliver)).1

/-- `FlushAndComplete`. -/
def flushAndComplete (c : Component CramAuth) : Component CramAuth :=
  let r := splicePending c
  if !r.2 then r.1
  else
    let s := r.1.completeWithFlush CramAuth.streamingChain (offer deliver)
    if s.2 then s.1.requestClose else s.1

/-! ### The text phase -/

variable (sha256 : List Byte → List Byte)

/-- The rest of the line buffer behind a line that started the stream. -/
def leftover (c : Component CramAuth) : Component CramAuth :=
  if sizeSub kMaxPendingData c.own.streamingChain.size < c.own.lineBuffer.length then
    fail .bufferOverflow "Binary buffer overflow" c
  else
    let c := update (fun h =>
      { h with
        streamingChain := Chain.appendBytes h.streamingChain h.lineBuffer
        lineBuffer := [] }) c
    if c.suspended then c else offer deliver c

/-- `ProcessLineBuffer`; a round takes at least the newline. -/
def processLineBuffer : ℕ → Component CramAuth → Component CramAuth
  | 0, c => c
  | fuel + 1, c =>
    match cut 10 c.own.lineBuffer with
    | none => c
    | some (before, _) =>
      let line := if before.getLast? = some 13 then before.dropLast else before
      let c := processLine sha256 line c
      let c := update (fun h => { h with lineBuffer := h.lineBuffer.drop (before.length + 1) }) c
      if c.own.state = .streaming ∧ c.own.lineBuffer ≠ [] then leftover deliver c
      else processLineBuffer fuel c

/-- One byte of the loop of `OnTextData`. -/
def textByte (b : Byte) (c : Component CramAuth) : Component CramAuth :=
  let c := update (fun h => { h with lineBuffer := h.lineBuffer ++ [b] }) c
  if b = 10 then processLineBuffer deliver sha256 c.own.lineBuffer.length c else c

/-- The loop of `OnTextData`; a round takes one byte. -/
def textLoop : ℕ → Chain → Component CramAuth → Component CramAuth × Chain
  | 0, data, c => (c, data)
  | fuel + 1, data, c =>
    if data.empty then (c, data)
    else
      let b := (data.copyTo id 0 1).headD 0
      let data := data.consume id 1
      if kMaxLineLength ≤ c.own.lineBuffer.length then (emitOverflow "Line buffer overflow" c, data)
      else
        let c := textByte deliver sha256 b c
        if b = 10 ∧ c.own.state = .streaming then handleRemainingData deliver data c
        else textLoop fuel data c

/-- `OnTextData`. -/
def onTextData (data : Chain) (c : Component CramAuth) : Component CramAuth × Chain :=
  textLoop deliver sha256 data.size data c

/-- `OnData`. -/
def onData (data : Chain) (c : Component CramAuth) : Component CramAuth × Chain :=
  if c.closed then (c, data)
  else
    let r :=
      if c.own.state = .streaming then onBinaryData deliver data c.enter
      else onTextData deliver sha256 data c.enter
    (r.1.leave, r.2)

/-- `OnDone`. -/
def onDone : Component CramAuth → Component CramAuth :=
  Component.guarded fun c =>
    if c.own.state ≠ .streaming then fail .connectionClosed "Connection closed during authentication" c
    else if c.suspended then c.deferOnDone
    else flushAndComplete deliver c

/-- `Resume`. -/
def resume (c : Component CramAuth) : Component CramAuth :=
  c.resume (processPending deliver) (flushAndComplete deliver)

end Binary

/-- `DoClose`. -/
def doClose : Component CramAuth → Component CramAuth :=
  update fun h =>
    { h with
      hasDownstream := false
      lineBuffer := []
      streamingChain := h.streamingChain.clear
      pendingChain := h.pendingChain.clear }

/-! ### What the downstream does -/

/-- The segments of one call as a chain. -/
def chainOf (segments : List Segment) : Chain := segments.foldl (BufferChain.append id) {}

/-- The downstream consumes the first `n` bytes of the chain. -/
def consume (n : ℕ) : Component CramAuth → Component CramAuth :=
  update fun h =>
    { h with
      consumed := h.consumed ++ (Chain.bytes h.streamingChain).take n
      streamingChain := h.streamingChain.consume id (min n h.streamingChain.size) }

/-- The moment that a component is at. -/
def momentOf (start : Bool) (c : Component CramAuth) : Moment :=
  { start
    closed := c.closed
    suspended := c.suspended
    consumed := c.own.consumed
    streaming := Chain.bytes c.own.streamingChain
    pending := Chain.bytes c.own.pendingChain
    received := c.own.received }

/-- Note the moment. -/
def observe (start : Bool) (c : Component CramAuth) : Component CramAuth :=
  update (fun h => { h with moments := h.moments ++ [momentOf start c] }) c

/-- The next turn of the downstream, its acts done by `act`. -/
def takeTurn (act : Act → Component CramAuth → Component CramAuth) (c : Component CramAuth) :
    Component CramAuth :=
  (c.own.script.headD [.consume none]).foldl (fun c a => observe false (act a c))
    (observe true (update (fun h => { h with script := h.script.tail }) c))

/-! ### The socket -/

section Arrival

variable (sha256 : List Byte → List Byte)

/-- Of the bytes of a call in the text phase, those behind the one with which the stream begins. -/
def behindStart : List Byte → Component CramAuth → List Byte
  | [], _ => []
  | b :: bytes, c =>
    if kMaxLineLength ≤ c.own.lineBuffer.length then []
    else
      let c := textByte id sha256 b c
      if c.own.state = .streaming then bytes else behindStart bytes c

/-- **The bytes of the stream** among those that the socket delivers; a closed component takes none. -/
def streamed (bytes : List Byte) (c : Component CramAuth) : List Byte :=
  if c.closed then [] else if c.own.state = .streaming then bytes else behindStart sha256 bytes c.enter

/-- Bytes of the stream are received. -/
def receive (bytes : List Byte) : Component CramAuth → Component CramAuth :=
  update fun h => { h with received := h.received ++ bytes }

/-- The socket delivers. -/
def arrive (deliver : Component CramAuth → Component CramAuth) (segments : List Segment)
    (c : Component CramAuth) : Component CramAuth :=
  (onData deliver sha256 (chainOf segments) (receive (streamed sha256 (segments.flatMap Segment.bytes) c) c)).1

end Arrival

/-! ### The downstream -/

variable (sha256 : List Byte → List Byte)

/-- The downstream's `OnData`, with at most `depth` calls inside one another. -/
def downstream : ℕ → Component CramAuth → Component CramAuth
  | 0 => takeTurn fun
    | .consume n, c => consume (n.getD c.own.streamingChain.size) c
    | .suspend, c => c.suspend
    | .resume, c => c
    | .data _, c => c
  | depth + 1 => takeTurn fun
    | .consume n, c => consume (n.getD c.own.streamingChain.size) c
    | .suspend, c => c.suspend
    | .resume, c => if c.suspended then resume (downstream depth) c else c
    | .data segments, c => arrive sha256 (downstream depth) segments c

/-! ### Runs -/

/-- What can happen from outside, with the downstream's turns during it. -/
inductive Input where
  | data (segments : List Segment) (script : List (List Act))
  | subscribe (p : Subscription)
  | startStreaming
  | done (script : List (List Act))
  | error (e : Error)
  | suspend
  | resume (script : List (List Act))
  | requestClose
  | runClose

/-- Set what the downstream will do. -/
def setScript (script : List (List Act)) : Component CramAuth → Component CramAuth :=
  update fun h => { h with script := script }

/-- One input.  `runClose` is the posted `DoClose`, if there is one. -/
def step (depth : ℕ) (c : Component CramAuth) : Input → Component CramAuth
  | .data segments script => arrive sha256 (downstream sha256 depth) segments (setScript script c)
  | .subscribe p => subscribe p c
  | .startStreaming => startStreaming c
  | .done script => onDone (downstream sha256 depth) (setScript script c)
  | .error e => c.propagateError e
  | .suspend => c.suspend
  | .resume script => if c.suspended then resume (downstream sha256 depth) (setScript script c) else c
  | .requestClose => c.requestClose
  | .runClose => if c.closeScheduled then doClose c else c

/-- A new component. -/
def newCramAuth (apiKey dataset : List Byte) : Component CramAuth := { own := { apiKey, dataset } }

end DbnPipe.Live
