import DbnPipe.Stream.Component

/-!
# TlsTransport

`lib/stream/tls_transport.hpp`: the two directions of the TLS stage over an OpenSSL connection.

* `Ssl` — the connection with its memory BIOs, a parameter: what `SSL_read`, `SSL_write`,
  `SSL_do_handshake` and `BIO_write` return and how they change it;
* `Tls` — the members, next to a record of what was read, accepted and consumed so far;
* `Reaction` — what the downstream does inside one `OnData`: consume a prefix, suspend;
* `write`, `retryPendingWrites` — the write path; `onData`, `onDone`, `processPending` and the rest — the
  read path.

`FlushWbio` moves encrypted bytes from the write BIO to the upstream and touches none of this state.
-/

namespace DbnPipe

/-- `TlsHandshakeState`. -/
inductive TlsHandshakeState where
  | notStarted | inProgress | complete
deriving DecidableEq, Repr

/-- What `SSL_get_error` reports of a failed operation, with the text that goes with it. -/
inductive SslError where
  | ssl (text : String)
  | syscall (errno : ℤ) (text : String)
  | other (code : ℤ)

/-- The outcome of `SSL_read` into a segment. -/
inductive ReadResult where
  | data (l : List Byte) (h : l.length ≤ Segment.kSize)
  | wantRead
  | wantWrite
  | zeroReturn
  | failed (e : SslError)

/-- The outcome of `SSL_write`. -/
inductive WriteResult where
  | accepted (n : ℕ)
  | wantRead
  | wantWrite
  | failed (e : SslError)

/-- The outcome of `SSL_do_handshake`. -/
inductive HandshakeResult where
  | complete
  | want
  | zeroReturn
  | failed (e : SslError)

/-- An OpenSSL connection over memory BIOs.  `available` bounds what `SSL_read` can still return without
new input. -/
structure Ssl where
  State : Type
  bioWrite : State → List Byte → State
  bioPending : State → ℕ
  handshake : State → HandshakeResult × State
  read : State → ReadResult × State
  write : State → List Byte → WriteResult × State
  available : State → ℕ

/-- What the downstream does inside one `OnData`. -/
structure Reaction where
  consume : ℕ
  suspends : ℕ := 0

/-- `TlsTransport`.  From `accepted` on: what happened so far, for the statements. -/
structure Tls (S : Ssl) where
  ssl : S.State
  handshakeState : TlsHandshakeState := .notStarted
  writePending : Chain := {}
  pendingReadChain : Chain := {}
  -- plaintext taken by `SSL_write`
  accepted : List Byte := []
  -- plaintext returned by `SSL_read`
  readBytes : List Byte := []
  -- plaintext consumed by the downstream, and its `OnData` calls
  consumed : List Byte := []
  deliveries : ℕ := 0
  -- `DoClose` has run
  tornDown : Bool := false
  -- `SSL_read` was called while suspended
  readWhileSuspended : Bool := false
  -- a buffer limit was exceeded
  overflowed : Bool := false
  -- `DataAt` was called on a chain without segments
  fault : Bool := false
  -- a loop did not end
  diverged : Bool := false

namespace Tls

variable {S : Ssl}

/-- `kMaxPendingRead`, `kMaxPendingWrite` and `kMaxRbioSize`: 16MB each. -/
def kMaxPendingRead : ℕ := 16 * 1024 * 1024
@[inherit_doc kMaxPendingRead] def kMaxPendingWrite : ℕ := 16 * 1024 * 1024
@[inherit_doc kMaxPendingRead] def kMaxRbioSize : ℕ := 16 * 1024 * 1024

/-- Change the derived part. -/
def update (f : Tls S → Tls S) (c : Component (Tls S)) : Component (Tls S) := { c with own := f c.own }

/-- `HandleSSLError`. -/
def handleSSLError (e : SslError) (operation : String) (c : Component (Tls S)) : Component (Tls S) :=
  let msg := operation ++ " failed: "
  let error : Error :=
    match e with
    | .ssl text => { code := .tlsHandshakeFailed, message := msg ++ text }
    | .syscall errno text =>
      { code := .connectionFailed, message := msg ++ "system error: " ++ text, osErrno := errno }
    | .other code => { code := .tlsHandshakeFailed, message := msg ++ "error code " ++ toString code }
  (c.emitError error).requestClose

/-- An exceeded buffer limit. -/
def overflow (message : String) (c : Component (Tls S)) : Component (Tls S) :=
  let c := update (fun t => { t with overflowed := true }) c
  (c.emitError { code := .bufferOverflow, message := message }).requestClose

/-! ### The write path -/

/-- How the loop over the chain ends. -/
inductive LoopEnd where
  | emptied
  | blocked
  | failed (e : SslError)
  | noSegment
  | outOfFuel

/-- What the loop leaves: the connection, the chain, and the bytes accepted. -/
structure WriteRun (S : Ssl) where
  ending : LoopEnd
  ssl : S.State
  data : Chain
  accepted : List Byte

/-- The loop `while (!data.Empty())` common to `Write` and `RetryPendingWrites`. -/
def writeLoop : ℕ → S.State → Chain → List Byte → WriteRun S
  | 0, ssl, data, accepted => ⟨if data.empty then .emptied else .outOfFuel, ssl, data, accepted⟩
  | fuel + 1, ssl, data, accepted =>
    if data.empty then ⟨.emptied, ssl, data, accepted⟩
    else
      match data.dataAt id 0 with
      | none => ⟨.noSegment, ssl, data, accepted⟩
      | some (seg, pos) =>
        let chunk := (seg.bytes.drop pos).take (data.contiguousSize id)
        match S.write ssl chunk with
        | (.accepted n, ssl) => writeLoop fuel ssl (data.consume id n) (accepted ++ chunk.take n)
        | (.wantRead, ssl) => ⟨.blocked, ssl, data, accepted⟩
        | (.wantWrite, ssl) => ⟨.blocked, ssl, data, accepted⟩
        | (.failed e, ssl) => ⟨.failed e, ssl, data, accepted⟩

/-- Run the loop on `data`, a local variable, and keep what is left when it is blocked. -/
def driveWrite (data : Chain) (c : Component (Tls S)) : Component (Tls S) :=
  let r := writeLoop (data.totalSize) c.own.ssl data c.own.accepted
  let c := update (fun t => { t with ssl := r.ssl, accepted := r.accepted }) c
  match r.ending with
  | .emptied => c
  | .blocked => update (fun t => { t with writePending := r.data }) c
  | .failed e => handleSSLError e "SSL_write" c
  | .noSegment => update (fun t => { t with fault := true }) c
  | .outOfFuel => update (fun t => { t with diverged := true }) c

/-- `RetryPendingWrites`: `write_pending_` is moved to a local chain first. -/
def retryPendingWrites (c : Component (Tls S)) : Component (Tls S) :=
  if c.own.writePending.empty then c
  else
    let data := c.own.writePending
    driveWrite data (update (fun t => { t with writePending := data.movedFrom }) c)

/-- `Write`. -/
def write (data : Chain) : Component (Tls S) → Component (Tls S) :=
  Component.guarded fun c =>
    if c.own.handshakeState ≠ .complete then
      (c.emitError { code := .tlsHandshakeFailed
                     message := "Write called before handshake complete" }).requestClose
    else if c.own.writePending.wouldOverflow data.size kMaxPendingWrite then
      overflow "TLS write buffer overflow" c
    else if !c.own.writePending.empty then
      -- `data` is spliced behind the pending bytes and the whole moved back to `data`
      let data := (Chain.compactAndSplice c.own.writePending data).1
      driveWrite data (update (fun t => { t with writePending := data.movedFrom }) c)
    else driveWrite data c

/-! ### The read path

`env k` is the downstream's reaction to its `k`-th `OnData`. -/

section Read

variable (env : ℕ → Reaction)

/-- `n` calls of `Suspend`. -/
def suspendTimes : ℕ → Component (Tls S) → Component (Tls S)
  | 0, c => c
  | n + 1, c => suspendTimes n c.suspend

/-- `GetDownstream().OnData(pending_read_chain_)`. -/
def deliver (c : Component (Tls S)) : Component (Tls S) :=
  let r := env c.own.deliveries
  suspendTimes r.suspends (update (fun t =>
    { t with
      pendingReadChain := t.pendingReadChain.consume id r.consume
      consumed := t.consumed ++ (Chain.bytes t.pendingReadChain).take r.consume
      deliveries := t.deliveries + 1 }) c)

/-- `CompleteWithFlush(pending_read_chain_)`, then `RequestClose` if completion happened. -/
def flushAndComplete (c : Component (Tls S)) : Component (Tls S) :=
  let r := c.completeWithFlush (·.pendingReadChain) (deliver env)
  if r.2 then r.1.requestClose else r.1

/-- Deliver what has been decrypted, if there is any. -/
def deliverPending (c : Component (Tls S)) : Component (Tls S) :=
  if c.own.pendingReadChain.empty then c else deliver env c

/-- One call of `SSL_read`. -/
def sslRead (c : Component (Tls S)) : ReadResult × Component (Tls S) :=
  let r := S.read c.own.ssl
  (r.1, update (fun t =>
    { t with ssl := r.2, readWhileSuspended := t.readWhileSuspended || c.suspended }) c)

/-- The bytes read go to a segment of `pending_read_chain_`. -/
def appendRead (l : List Byte) (h : l.length ≤ Segment.kSize) (c : Component (Tls S)) :
    Component (Tls S) :=
  update (fun t =>
    { t with pendingReadChain := t.pendingReadChain.append id (Segment.ofBytes l h) }) c

/-- The loop of `ProcessPendingReads`. -/
def readLoop : ℕ → Component (Tls S) → Component (Tls S)
  | 0, c => update (fun t => { t with diverged := true }) c
  | fuel + 1, c =>
    match sslRead c with
    | (.data l h, c) =>
      let c := update (fun t => { t with readBytes := t.readBytes ++ l }) c
      if sizeSub kMaxPendingRead c.own.pendingReadChain.size < l.length then
        overflow "TLS decrypted output buffer overflow" c
      else
        let c := appendRead l h c
        if Segment.kSize ≤ c.own.pendingReadChain.size then
          let c := deliver env c
          if c.suspended then c else readLoop fuel c
        else readLoop fuel c
    | (.wantRead, c) => deliverPending env c
    | (.wantWrite, c) => retryPendingWrites (deliverPending env c)
    | (.zeroReturn, c) => if c.suspended then c.deferOnDone else flushAndComplete env c
    | (.failed e, c) => handleSSLError e "SSL_read" c

/-- `ProcessPendingReads`.  Every round but the last takes at least one available byte. -/
def processPendingReads (c : Component (Tls S)) : Component (Tls S) :=
  if c.closed = true ∨ c.own.handshakeState ≠ .complete then c
  else
    let c := update (fun t =>
      { t with pendingReadChain := { t.pendingReadChain with recycleCallback := some 0 } }) c
    if c.suspended then c else readLoop env (S.available c.own.ssl + 1) c

/-- `ProcessHandshake`; the completion callback belongs to the protocol. -/
def processHandshake (c : Component (Tls S)) : Component (Tls S) :=
  if c.own.handshakeState = .complete then c
  else
    let r := S.handshake c.own.ssl
    let c := update (fun t => { t with ssl := r.2 }) c
    match r.1 with
    | .complete =>
      let c := update (fun t => { t with handshakeState := .complete }) c
      if c.suspended then c else processPendingReads env c
    | .want => c
    | .zeroReturn => if c.suspended then c.deferOnDone else flushAndComplete env c
    | .failed e => handleSSLError e "handshake" c

/-- `StartHandshake`. -/
def startHandshake (c : Component (Tls S)) : Component (Tls S) :=
  if c.own.handshakeState ≠ .notStarted then c
  else processHandshake env (update (fun t => { t with handshakeState := .inProgress }) c)

/-- The loop that feeds the read BIO; writing to a memory BIO does not fail. -/
def feedLoop : ℕ → S.State → Chain → S.State
  | 0, ssl, _ => ssl
  | fuel + 1, ssl, data =>
    if data.empty then ssl
    else
      match data.dataAt id 0 with
      | none => ssl
      | some (seg, pos) =>
        let chunk := (seg.bytes.drop pos).take (data.contiguousSize id)
        feedLoop fuel (S.bioWrite ssl chunk) (data.consume id chunk.length)

/-- `Read`. -/
def read (data : Chain) : Component (Tls S) → Component (Tls S) :=
  Component.guarded fun c =>
    let rbioPending := S.bioPending c.own.ssl
    if kMaxRbioSize ≤ rbioPending ∨ kMaxRbioSize - rbioPending < data.size then
      overflow "TLS encrypted input buffer overflow" c
    else
      let c := update (fun t => { t with ssl := feedLoop data.totalSize t.ssl data }) c
      if c.own.handshakeState ≠ .complete then processHandshake env c
      else processPendingReads env c

/-- `OnData`: the caller's chain is moved to a local one and cleared. -/
def onData (chain : Chain) (c : Component (Tls S)) : Component (Tls S) × Chain :=
  (read env chain c, chain.movedFrom.clear)

/-- `OnError`. -/
def onError (e : Error) : Component (Tls S) → Component (Tls S) := Component.propagateError e

/-- `OnDone`. -/
def onDone : Component (Tls S) → Component (Tls S) :=
  Component.guarded fun c => if c.suspended then c.deferOnDone else flushAndComplete env c

/-- `ProcessPending`. -/
def processPending (c : Component (Tls S)) : Component (Tls S) :=
  let r := c.forwardData (·.pendingReadChain) (deliver env)
  if r.2 then r.1 else processPendingReads env r.1

/-- `Resume`. -/
def resume : Component (Tls S) → Component (Tls S) :=
  Component.resume (processPending env) (flushAndComplete env)

/-- `DoClose`, the task that `ScheduleClose` posts. -/
def doClose (c : Component (Tls S)) : Component (Tls S) :=
  let c :=
    if c.finalized = false ∧ c.suspended = false then
      let c := (c.forwardData (·.pendingReadChain) (deliver env)).1
      if c.suspended = false ∧ c.own.pendingReadChain.empty = true then c.emitDone else c
    else c
  update (fun t =>
    { t with
      pendingReadChain := t.pendingReadChain.clear
      writePending := t.writePending.clear
      tornDown := true }) c

end Read

end Tls

end DbnPipe
