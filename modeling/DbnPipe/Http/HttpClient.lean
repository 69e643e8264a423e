import DbnPipe.Http.Llhttp
import DbnPipe.Stream.Component

/-!
# HttpClient

`lib/stream/http_client.hpp`: the stage that parses HTTP responses with llhttp and hands their bodies on.

* `HttpClient L` — the members, next to a record of what happened so far;
* `Turn` — what the downstream does inside one `OnData`: consume a prefix, call `Suspend` and `Resume`;
* `onStatus` … `onMessageComplete` — the llhttp callbacks;
* `execute`, `finish` — `llhttp_execute` and `llhttp_finish`, **driving the callbacks**: a pause takes
  effect at the next call only;
* `onData`, `processPending`, `flushAndComplete`, `onDone` — the component.

Everything takes the downstream's `OnData` on `pending_chain_` as an argument, `deliver`; `downstream` ties
the knot, up to a depth of nested `Resume` calls.
-/

namespace DbnPipe.Http

/-- A call the downstream makes inside its `OnData`; `Resume` only of a suspended component. -/
inductive Ask where
  | suspend
  | resume
deriving DecidableEq, Repr

/-- One `OnData` of the downstream: it consumes some bytes (`none`: all there are) and makes its calls, `asksAtEnd` where
this is the flush of a response that is complete. -/
structure Turn where
  consume : Option ℕ := none
  asks : List Ask := []
  asksAtEnd : List Ask := []
deriving DecidableEq, Repr

/-- `HeaderState`. -/
inductive HeaderState where
  | none
  | field
  | value
deriving DecidableEq, Repr

/-- What is recorded of a complete response: the status that `on_status` reported, if it was called, and
the status in its status line. -/
structure Response where
  reported : Option ℕ
  status : ℕ
deriving DecidableEq, Repr

/-- `HttpClient`.  From `script` on: what the downstream will do, and what happened so far. -/
structure HttpClient (L : Llhttp) where
  parser : L.State := L.start
  errno : Errno := .ok
  statusCode : ℕ := 0
  messageComplete : Bool := false
  headerState : HeaderState := .none
  currentHeaderField : List Byte := []
  currentHeaderValue : List Byte := []
  retryAfter : Option ℤ := Option.none
  pendingChain : Chain := {}
  pendingInput : Chain := {}
  errorBody : List Byte := []
  -- `llhttp_init` was called in a callback of the running call
  reinit : Bool := false
  -- the downstream's next turns; an exhausted script stands for a downstream that takes everything
  script : List Turn := []
  -- body bytes consumed by the downstream
  delivered : List Byte := []
  -- a response has begun; the status reported of the current one; the complete ones
  begun : Bool := false
  reported : Option ℕ := Option.none
  responses : List Response := []

variable {L : Llhttp}

/-- Change the derived part. -/
def update (f : HttpClient L → HttpClient L) (c : Component (HttpClient L)) : Component (HttpClient L) :=
  { c with own := f c.own }

/-- `kMaxBufferedBody`: 16MB. -/
def kMaxBufferedBody : ℕ := 16 * 1024 * 1024

/-- `kMaxPendingInput`: 16MB. -/
def kMaxPendingInput : ℕ := 16 * 1024 * 1024

/-- `kMaxErrorBodySize`. -/
def kMaxErrorBodySize : ℕ := 4096

/-! ### The parser's control calls -/

/-- `llhttp_pause`. -/
def pause (c : Component (HttpClient L)) : Component (HttpClient L) :=
  update (fun h => if h.errno = .ok then { h with errno := .paused } else h) c

/-- `llhttp_resume`. -/
def unpause (c : Component (HttpClient L)) : Component (HttpClient L) :=
  update (fun h => if h.errno = .paused then { h with errno := .ok } else h) c

/-- `ResetMessageState`, the finalized flag and `llhttp_init` included. -/
def resetMessageState (c : Component (HttpClient L)) : Component (HttpClient L) :=
  { c with
    finalized := false
    own :=
      { c.own with
        statusCode := 0
        messageComplete := false
        errorBody := []
        headerState := .none
        currentHeaderField := []
        currentHeaderValue := []
        retryAfter := Option.none
        pendingChain := c.own.pendingChain.clear
        parser := L.start
        errno := .ok
        reinit := true
        reported := Option.none } }

/-! ### Errors -/

/-- `StatusToErrorCode`. -/
def statusToErrorCode (status : ℕ) : ErrorCode :=
  if status = 401 ∨ status = 403 then .unauthorized
  else if status = 404 then .notFound
  else if status = 422 then .validationError
  else if status = 429 then .rateLimited
  else if 500 ≤ status then .serverError
  else .httpError

/-- `MakeHttpError`. -/
def makeHttpError (h : HttpClient L) (msg : String) : Error :=
  { code := statusToErrorCode h.statusCode, message := msg, retryAfter := h.retryAfter }

/-- `EmitHttpStatusError`. -/
def emitHttpStatusError (c : Component (HttpClient L)) : Component (HttpClient L) :=
  let msg := "HTTP " ++ toString c.own.statusCode
  let msg := if c.own.errorBody.isEmpty then msg else msg ++ ": " ++ ofBytes c.own.errorBody
  (c.emitError (makeHttpError c.own msg)).requestClose

/-- `HandleParseError`: the flag tells the caller to return. -/
def handleParseError (err : Errno) (c : Component (HttpClient L)) : Component (HttpClient L) × Bool :=
  match err with
  | .user => (c, true)
  | .ok => (c, false)
  | .paused => ((c.emitError { code := .httpError, message := "HPE_PAUSED" }).requestClose, true)
  | .other name => ((c.emitError { code := .httpError, message := name }).requestClose, true)

/-! ### Header callbacks -/

/-- `std::isspace` in the C locale. -/
def isSpace (b : Byte) : Bool := b == 32 || (9 ≤ b && b ≤ 13)

/-- `std::isdigit`. -/
def isDigit (b : Byte) : Bool := 48 ≤ b && b ≤ 57

/-- `std::tolower` in the C locale. -/
def toLower (b : Byte) : Byte := if 65 ≤ b && b ≤ 90 then b + 32 else b

/-- The value of a string of digits. -/
def digitsValue (ds : List Byte) : ℕ := ds.foldl (fun n b => 10 * n + (b.toNat - 48)) 0

/-- `std::stoi`: leading white space, a sign, digits, then anything; `none` where it throws. -/
def stoi (s : List Byte) : Option ℤ :=
  let s := s.dropWhile isSpace
  let negative := s.head? == some 45
  let s := if negative || s.head? == some 43 then s.tail else s
  let ds := s.takeWhile isDigit
  if ds.isEmpty then Option.none
  else
    let n : ℤ := if negative then -(digitsValue ds : ℤ) else digitsValue ds
    if -2 ^ 31 ≤ n ∧ n < 2 ^ 31 then some n else Option.none

/-- The characters `retry-after`. -/
def retryAfterName : List Byte := [114, 101, 116, 114, 121, 45, 97, 102, 116, 101, 114]

/-- `ProcessHeader`. -/
def processHeader (h : HttpClient L) : HttpClient L :=
  let retry :=
    if h.currentHeaderField = retryAfterName then
      match stoi h.currentHeaderValue with
      | some seconds => some (1000 * seconds)
      | Option.none => h.retryAfter
    else h.retryAfter
  { h with retryAfter := retry, currentHeaderField := [], currentHeaderValue := [] }

/-- `OnStatus`. -/
def onStatus (code : ℕ) : Component (HttpClient L) → Component (HttpClient L) :=
  update fun h => { h with statusCode := code, reported := some code }

/-- `OnHeaderField`. -/
def onHeaderField (bytes : List Byte) : Component (HttpClient L) → Component (HttpClient L) :=
  update fun h =>
    let h := if h.headerState = .value then processHeader h else h
    let field := if h.headerState = .field then h.currentHeaderField ++ bytes else bytes
    { h with headerState := .field, currentHeaderField := field.map toLower }

/-- `OnHeaderValue`. -/
def onHeaderValue (bytes : List Byte) : Component (HttpClient L) → Component (HttpClient L) :=
  update fun h =>
    let value := if h.headerState = .value then h.currentHeaderValue ++ bytes else bytes
    { h with headerState := .value, currentHeaderValue := value }

/-- `OnHeadersComplete`. -/
def onHeadersComplete : Component (HttpClient L) → Component (HttpClient L) :=
  update fun h =>
    let h := if h.headerState = .value then processHeader h else h
    let h := { h with headerState := .none }
    if 300 ≤ h.statusCode then { h with errorBody := [] } else h

/-- `OnMessageBegin`. -/
def onMessageBegin : Component (HttpClient L) → Component (HttpClient L) :=
  update fun h => { h with reported := Option.none }

/-! ### Body callbacks -/

/-- `AppendBodyToPending`; the flag is `false` where the limit is exceeded. -/
def appendBodyToPending (bytes : List Byte) (c : Component (HttpClient L)) : Component (HttpClient L) × Bool :=
  if sizeSub kMaxBufferedBody c.own.pendingChain.size < bytes.length then
    ((c.emitError { code := .bufferOverflow, message := "HTTP body buffer overflow" }).requestClose, false)
  else
    (update (fun h => { h with pendingChain := Chain.appendBytes h.pendingChain bytes }) c, true)

variable (deliver : Component (HttpClient L) → Component (HttpClient L))

/-- `OnBody`; callbacks answer `false` where they return `HPE_USER`. -/
def onBody (bytes : List Byte) (c : Component (HttpClient L)) : Component (HttpClient L) × Bool :=
  if 300 ≤ c.own.statusCode then
    let remaining := sizeSub kMaxErrorBodySize c.own.errorBody.length
    (update (fun h => { h with errorBody := h.errorBody ++ bytes.take remaining }) c, true)
  else
    let r := appendBodyToPending bytes c
    if !r.2 then (r.1, false)
    else
      let c := deliver r.1
      (if c.suspended then pause c else c, true)

/-- The end of the success branch of `OnMessageComplete`, with nothing left to flush. -/
def completeMessage (c : Component (HttpClient L)) : Component (HttpClient L) :=
  if c.suspended then pause c else resetMessageState c.emitDone

/-- The success branch of `OnMessageComplete`. -/
def succeed (c : Component (HttpClient L)) : Component (HttpClient L) × Bool :=
  if c.own.pendingChain.empty then (completeMessage c, true)
  else
    let c := deliver c
    if c.suspended then (pause c, true)
    else if !c.own.pendingChain.empty then
      let msg := "Incomplete data at end of HTTP message (" ++ toString c.own.pendingChain.size ++
        " bytes remaining)"
      ((c.emitError { code := .parseError, message := msg }).requestClose, false)
    else (completeMessage c, true)

/-- The message is recorded as complete. -/
def recordMessage : Component (HttpClient L) → Component (HttpClient L) :=
  update fun h =>
    { h with messageComplete := true, responses := h.responses ++ [⟨h.reported, L.status h.parser⟩] }

/-- `OnMessageComplete`. -/
def onMessageComplete (c : Component (HttpClient L)) : Component (HttpClient L) × Bool :=
  let c := recordMessage c
  if 300 ≤ c.own.statusCode then (emitHttpStatusError c, false) else succeed deliver c

/-! ### llhttp_execute and llhttp_finish -/

/-- A data callback. -/
def callSpan (kind : SpanKind) (bytes : List Byte) (c : Component (HttpClient L)) :
    Component (HttpClient L) × Bool :=
  match kind with
  | .status code => (onStatus code c, true)
  | .headerField => (onHeaderField bytes c, true)
  | .headerValue => (onHeaderValue bytes c, true)
  | .body => onBody deliver bytes c

/-- A span that is being collected. -/
abbrev Span := Option (SpanKind × List Byte)

/-- Hand over the collected span. -/
def flush (span : Span) (c : Component (HttpClient L)) : Component (HttpClient L) × Bool :=
  match span with
  | Option.none => (c, true)
  | some (kind, bytes) => callSpan deliver kind bytes c

/-- An information callback. -/
def notify (e : Event) (c : Component (HttpClient L)) : Component (HttpClient L) × Bool :=
  match e with
  | .span _ _ => (c, true)
  | .messageBegin => (onMessageBegin c, true)
  | .headersComplete => (onHeadersComplete c, true)
  | .messageComplete => onMessageComplete deliver c

/-- One event: it continues the collected span, or that is handed over first. -/
def callEvent (e : Event) (span : Span) (c : Component (HttpClient L)) :
    Component (HttpClient L) × Span × Bool :=
  match e with
  | .span kind bytes =>
    match span with
    | some (kind', acc) =>
      if kind = kind' then (c, some (kind, acc ++ bytes), true)
      else
        let r := flush deliver span c
        (r.1, some (kind, bytes), r.2)
    | Option.none => (c, some (kind, bytes), true)
  | e =>
    let r := flush deliver span c
    if r.2 then
      let r := notify deliver e r.1
      (r.1, Option.none, r.2)
    else (r.1, Option.none, false)

/-- The events of one byte. -/
def callEvents : List Event → Span → Component (HttpClient L) → Component (HttpClient L) × Span × Bool
  | [], span, c => (c, span, true)
  | e :: es, span, c =>
    let r := callEvent deliver e span c
    if r.2.2 then callEvents es r.2.1 r.1 else r

/-- The events of one byte; a byte that announces nothing ends the span. -/
def callByte (es : List Event) (span : Span) (c : Component (HttpClient L)) :
    Component (HttpClient L) × Span × Bool :=
  if es.isEmpty then
    let r := flush deliver span c
    (r.1, Option.none, r.2)
  else callEvents deliver es span c

/-- The parser goes on after a byte.  Where a callback has called `llhttp_init`, the run goes on in
`restarted`. -/
def advance (s : L.State) (es : List Event) : Component (HttpClient L) → Component (HttpClient L) :=
  update fun h =>
    { h with
      parser := if h.reinit then L.restarted else s
      reinit := false
      begun := h.begun || decide (.messageBegin ∈ es) }

/-- The parser stops with an error. -/
def stop (err : Errno) (c : Component (HttpClient L)) : Component (HttpClient L) × Errno :=
  (update (fun h => { h with errno := err }) c, err)

/-- The run over the bytes of a chunk. -/
def runBytes : List Byte → Span → Component (HttpClient L) → Component (HttpClient L) × Errno
  | [], span, c =>
    let r := flush deliver span c
    if r.2 then (r.1, .ok) else stop .user r.1
  | b :: bs, span, c =>
    match L.next c.own.parser b with
    | .error name => stop (.other name) c
    | .ok (s, es) =>
      let r := callByte deliver es span c
      if r.2.2 then runBytes bs r.2.1 (advance s es r.1) else stop .user r.1

/-- `llhttp_execute`: an error, a pause included, is reported by every later call. -/
def execute (chunk : List Byte) (c : Component (HttpClient L)) : Component (HttpClient L) × Errno :=
  if c.own.errno ≠ .ok then (c, c.own.errno)
  else runBytes deliver chunk Option.none (update (fun h => { h with reinit := false }) c)

/-- `llhttp_finish`: in an error state, a pause included, it does nothing. -/
def finish (c : Component (HttpClient L)) : Component (HttpClient L) × Errno :=
  if c.own.errno ≠ .ok then (c, .ok)
  else
    match L.finish c.own.parser with
    | .safe => (c, .ok)
    | .safeWithCallback =>
      let r := onMessageComplete deliver c
      (r.1, if r.2 then .ok else .user)
    | .unsafeEof name => (c, .other name)

/-- `llhttp_get_error_pos`: the null pointer, a pause does not set it. -/
def errorPos : ℕ := 0

/-! ### Pending input -/

/-- `CopyToPendingInput`: what is left of the source, and `false` where the limit is exceeded. -/
def copyToPendingInput : ℕ → Chain → Component (HttpClient L) → Component (HttpClient L) × Chain × Bool
  | 0, source, c => (c, source, true)
  | fuel + 1, source, c =>
    if source.empty then (c, source, true)
    else if sizeSub kMaxPendingInput c.own.pendingInput.size < source.size then
      ((c.emitError { code := .bufferOverflow, message := "HTTP input buffer overflow" }).requestClose,
        source, false)
    else
      let chunk := min (source.contiguousSize id) Segment.kSize
      let bytes := (source.copyTo id 0 chunk).take Segment.kSize
      let seg := Segment.blank.fill bytes (List.length_take_le _ _)
      copyToPendingInput fuel (source.consume id chunk)
        (update (fun h => { h with pendingInput := BufferChain.append id h.pendingInput seg }) c)

/-- `ProcessPendingInput`. -/
def processPendingInput : ℕ → Component (HttpClient L) → Component (HttpClient L)
  | 0, c => c
  | fuel + 1, c =>
    if c.own.pendingInput.empty then c
    else
      match c.own.pendingInput.dataAt id 0 with
      | Option.none => c
      | some (s, pos) =>
        let size := c.own.pendingInput.contiguousSize id
        let r := execute deliver ((s.bytes.drop pos).take size) c
        if r.2 = .paused then
          update (fun h =>
            { h with pendingInput := h.pendingInput.consume id (sizeSub errorPos (s.addr + pos)) }) r.1
        else
          let p := handleParseError r.2 r.1
          if p.2 then p.1
          else
            processPendingInput fuel
              (update (fun h => { h with pendingInput := h.pendingInput.consume id size }) p.1)

/-- Process the pending input; a round takes at least one byte of it. -/
def processInput (c : Component (HttpClient L)) : Component (HttpClient L) :=
  processPendingInput deliver c.own.pendingInput.size c

/-! ### The component -/

/-- The end of `ProcessPending`: the parser is always resumed. -/
def resumeParser (c : Component (HttpClient L)) : Component (HttpClient L) := processInput deliver (unpause c)

/-- `ProcessPending`. -/
def processPending (c : Component (HttpClient L)) : Component (HttpClient L) :=
  let r := c.forwardData HttpClient.pendingChain deliver
  if r.2 then r.1
  else if r.1.own.messageComplete ∧ r.1.own.statusCode < 300 ∧ r.1.donePending = false then
    let r := r.1.forwardData HttpClient.pendingChain deliver
    if r.2 then r.1
    else if !r.1.own.pendingChain.empty then
      let msg := "Incomplete body at end of HTTP message (" ++ toString r.1.own.pendingChain.size ++
        " bytes remaining)"
      (r.1.emitError { code := .parseError, message := msg }).requestClose
    else resumeParser deliver (resetMessageState r.1.emitDone)
  else resumeParser deliver r.1

/-- The common end of `OnDone` and `FlushAndComplete`. -/
def complete (c : Component (HttpClient L)) : Component (HttpClient L) :=
  let r := c.completeWithFlush HttpClient.pendingChain deliver
  if r.2 then r.1.requestClose else r.1

/-- `llhttp_finish` where the message is not complete; the flag tells the caller to return. -/
def finishMessage (c : Component (HttpClient L)) : Component (HttpClient L) × Bool :=
  if c.own.messageComplete then (c, false)
  else
    let r := finish deliver c
    handleParseError r.2 r.1

/-- `FlushAndComplete` once the input is processed. -/
def flushRest (c : Component (HttpClient L)) : Component (HttpClient L) :=
  let r := finishMessage deliver c
  if r.2 then r.1
  else if 300 ≤ r.1.own.statusCode ∧ r.1.finalized = false then emitHttpStatusError r.1
  else complete deliver r.1

/-- `FlushAndComplete`. -/
def flushAndComplete (c : Component (HttpClient L)) : Component (HttpClient L) :=
  if c.own.pendingInput.empty then flushRest deliver c
  else
    let c := processInput deliver (unpause c)
    if c.suspended then c.deferOnDone else flushRest deliver c

/-- The loop of `OnData`: what is left of the caller's chain, too.  `scripts` holds the downstream's turns
of each round, one `llhttp_execute`. -/
def dataLoop : ℕ → List (List Turn) → Chain → Component (HttpClient L) →
    Component (HttpClient L) × Chain
  | 0, _, data, c => (c, data)
  | fuel + 1, scripts, data, c =>
    if data.empty then (c, data)
    else
      match data.dataAt id 0 with
      | Option.none => (c, data)
      | some (s, pos) =>
        let size := data.contiguousSize id
        let c := update (fun h => { h with script := scripts.headD [] }) c
        let r := execute deliver ((s.bytes.drop pos).take size) c
        if r.2 = .paused then
          let data := data.consume id (sizeSub errorPos (s.addr + pos))
          let q := copyToPendingInput data.size data r.1
          (q.1, q.2.1)
        else
          let p := handleParseError r.2 r.1
          if p.2 then (p.1, data) else dataLoop fuel scripts.tail (data.consume id size) p.1

/-- `OnData` under its guard. -/
def dataBody (scripts : List (List Turn)) (data : Chain) (c : Component (HttpClient L)) :
    Component (HttpClient L) × Chain :=
  if c.own.pendingInput.empty then dataLoop deliver data.size scripts data c
  else if c.own.pendingInput.wouldOverflow data.size kMaxPendingInput then
    ((c.emitError { code := .bufferOverflow, message := "HTTP input buffer overflow" }).requestClose, data)
  else
    let r := Chain.compactAndSplice c.own.pendingInput data
    (processInput deliver (update (fun h => { h with pendingInput := r.1 }) c), r.2)

/-- `OnData`. -/
def onData (scripts : List (List Turn)) (data : Chain) (c : Component (HttpClient L)) :
    Component (HttpClient L) × Chain :=
  if c.closed then (c, data)
  else
    let r := dataBody deliver scripts data c.enter
    (r.1.leave, r.2)

/-- `OnDone` under its guard. -/
def doneBody (c : Component (HttpClient L)) : Component (HttpClient L) :=
  let c := if c.own.pendingInput.empty then c else processInput deliver (unpause c)
  let r := finishMessage deliver c
  if r.2 then r.1
  else if 300 ≤ r.1.own.statusCode ∧ r.1.finalized = false then emitHttpStatusError r.1
  else if r.1.suspended then r.1.deferOnDone
  else complete deliver r.1

/-- `OnDone`. -/
def onDone : Component (HttpClient L) → Component (HttpClient L) :=
  Component.guarded (doneBody deliver)

/-- `Resume`. -/
def resume (c : Component (HttpClient L)) : Component (HttpClient L) :=
  c.resume (processPending deliver) (flushAndComplete deliver)

/-- `DoClose`, the posted task. -/
def doClose : Component (HttpClient L) → Component (HttpClient L) :=
  update fun h => { h with pendingChain := h.pendingChain.clear, pendingInput := h.pendingInput.clear }

/-! ### The downstream -/

/-- The next turn of the downstream, its calls made by `ask`. -/
def takeTurn (ask : Ask → Component (HttpClient L) → Component (HttpClient L))
    (c : Component (HttpClient L)) : Component (HttpClient L) :=
  let turn := c.own.script.headD {}
  let asks := if c.own.messageComplete then turn.asksAtEnd else turn.asks
  let n := min (turn.consume.getD c.own.pendingChain.size) c.own.pendingChain.size
  asks.foldl (fun c a => ask a c)
    (update (fun h =>
      { h with
        script := h.script.tail
        delivered := h.delivered ++ (Chain.bytes h.pendingChain).take n
        pendingChain := h.pendingChain.consume id n }) c)

/-- The downstream's `OnData`, with at most `depth` calls of `Resume` inside one another. -/
def downstream : ℕ → Component (HttpClient L) → Component (HttpClient L)
  | 0 => takeTurn fun
    | .suspend, c => c.suspend
    | .resume, c => c
  | depth + 1 => takeTurn fun
    | .suspend, c => c.suspend
    | .resume, c => if c.suspended then resume (downstream depth) c else c

/-! ### Runs -/

/-- What can happen to the client from outside, with the downstream's turns during it.  The segments of one
call lie in memory side by side. -/
inductive Input where
  | data (segments : List Segment) (fits : (segments.flatMap Segment.bytes).length ≤ 2 ^ 63)
      (scripts : List (List Turn))
  | done (script : List Turn)
  | error (e : Error)
  | suspend
  | resume (script : List Turn)
  | close

/-- The client's answer.  A task that was not posted does not run, nor a `Resume` without its `Suspend`. -/
def step (depth : ℕ) (c : Component (HttpClient L)) : Input → Component (HttpClient L)
  | .data segments _ scripts =>
    (onData (downstream depth) scripts (segments.foldl (BufferChain.append id) {}) c).1
  | .done script => onDone (downstream depth) (update (fun h => { h with script := script }) c)
  | .error e => c.propagateError e
  | .suspend => c.suspend
  | .resume script =>
    if c.suspended then resume (downstream depth) (update (fun h => { h with script := script }) c) else c
  | .close => if c.closeScheduled then doClose c else c

/-- A new client. -/
def newClient (L : Llhttp) : Component (HttpClient L) := { own := {} }

end DbnPipe.Http
