import DbnPipe.Stream.Handlers
import DbnPipe.Stream.TlsTransport

/-!
# TlsTransport called from inside its own calls

The read path of `lib/stream/tls_transport.hpp` with any downstream: its `OnData` is the argument `deliver`, and may
call the transport again.

* `readLoopIn` … `doCloseIn` — the functions of the read path, the loop over `SSL_read` **for some number of rounds**,
  as what is available may grow while it runs;
* `readLoopIn_eq` … `resumeIn_eq` — with a downstream that consumes and suspends, they are those of `TlsTransport`.
-/

namespace DbnPipe.Tls

variable {S : Ssl}

/-- The downstream consumes the first `n` bytes. -/
def consume (n : ℕ) : Component (Tls S) → Component (Tls S) :=
  update fun t =>
    { t with
      pendingReadChain := t.pendingReadChain.consume id n
      consumed := t.consumed ++ (Chain.bytes t.pendingReadChain).take n }

section Reentrant

variable (deliver : Component (Tls S) → Component (Tls S)) (rounds : Component (Tls S) → ℕ)

/-- `CompleteWithFlush(pending_read_chain_)`, then `RequestClose` if completion happened. -/
def flushAndCompleteIn (c : Component (Tls S)) : Component (Tls S) :=
  let r := c.completeWithFlush (·.pendingReadChain) deliver
  if r.2 then r.1.requestClose else r.1

/-- Deliver what has been decrypted, if there is any. -/
def deliverPendingIn (c : Component (Tls S)) : Component (Tls S) :=
  if c.own.pendingReadChain.empty then c else deliver c

/-- The loop of `ProcessPendingReads`. -/
def readLoopIn : ℕ → Component (Tls S) → Component (Tls S)
  | 0, c => update (fun t => { t with diverged := true }) c
  | fuel + 1, c =>
    match sslRead c with
    | (.data l h, c) =>
      let c := update (fun t => { t with readBytes := t.readBytes ++ l }) c
      if sizeSub kMaxPendingRead c.own.pendingReadChain.size < l.length then
        overflow "TLS decrypted output buffer overflow" c
      else
        let c := appendRead l h c
        if Segment.kSize ≤ c.own.pendingReadChain.size then
          let c := deliver c
          if c.suspended then c else readLoopIn fuel c
        else readLoopIn fuel c
    | (.wantRead, c) => deliverPendingIn deliver c
    | (.wantWrite, c) => retryPendingWrites (deliverPendingIn deliver c)
    | (.zeroReturn, c) => if c.suspended then c.deferOnDone else flushAndCompleteIn deliver c
    | (.failed e, c) => handleSSLError e "SSL_read" c

/-- `ProcessPendingReads`. -/
def processPendingReadsIn (c : Component (Tls S)) : Component (Tls S) :=
  if c.closed = true ∨ c.own.handshakeState ≠ .complete then c
  else
    let c := update (fun t =>
      { t with pendingReadChain := { t.pendingReadChain with recycleCallback := some 0 } }) c
    if c.suspended then c else readLoopIn deliver (rounds c) c

/-- `ProcessHandshake`. -/
def processHandshakeIn (c : Component (Tls S)) : Component (Tls S) :=
  if c.own.handshakeState = .complete then c
  else
    let r := S.handshake c.own.ssl
    let c := update (fun t => { t with ssl := r.2 }) c
    match r.1 with
    | .complete =>
      let c := update (fun t => { t with handshakeState := .complete }) c
      if c.suspended then c else processPendingReadsIn deliver rounds c
    | .want => c
    | .zeroReturn => if c.suspended then c.deferOnDone else flushAndCompleteIn deliver c
    | .failed e => handleSSLError e "handshake" c

/-- `StartHandshake`. -/
def startHandshakeIn (c : Component (Tls S)) : Component (Tls S) :=
  if c.own.handshakeState ≠ .notStarted then c
  else processHandshakeIn deliver rounds (update (fun t => { t with handshakeState := .inProgress }) c)

/-- `Read`. -/
def readIn (data : Chain) : Component (Tls S) → Component (Tls S) :=
  Component.guarded fun c =>
    let rbioPending := S.bioPending c.own.ssl
    if kMaxRbioSize ≤ rbioPending ∨ kMaxRbioSize - rbioPending < data.size then
      overflow "TLS encrypted input buffer overflow" c
    else
      let c := update (fun t => { t with ssl := feedLoop data.totalSize t.ssl data }) c
      if c.own.handshakeState ≠ .complete then processHandshakeIn deliver rounds c
      else processPendingReadsIn deliver rounds c

/-- `OnDone`. -/
def onDoneIn : Component (Tls S) → Component (Tls S) :=
  Component.guarded fun c => if c.suspended then c.deferOnDone else flushAndCompleteIn deliver c

/-- `ProcessPending`. -/
def processPendingIn (c : Component (Tls S)) : Component (Tls S) :=
  let r := c.forwardData (·.pendingReadChain) deliver
  if r.2 then r.1 else processPendingReadsIn deliver rounds r.1

/-- `DoClose`. -/
def doCloseIn (c : Component (Tls S)) : Component (Tls S) :=
  let c :=
    if c.finalized = false ∧ c.suspended = false then
      let c := (c.forwardData (·.pendingReadChain) deliver).1
      if c.suspended = false ∧ c.own.pendingReadChain.empty = true then c.emitDone else c
    else c
  update (fun t =>
    { t with
      pendingReadChain := t.pendingReadChain.clear
      writePending := t.writePending.clear
      tornDown := true }) c

end Reentrant

/-! ### A downstream that consumes and suspends -/

section Consuming

variable (env : ℕ → Reaction) (c : Component (Tls S))

theorem flushAndCompleteIn_eq : flushAndCompleteIn (deliver env) c = flushAndComplete env c := rfl

theorem deliverPendingIn_eq : deliverPendingIn (deliver env) c = deliverPending env c := rfl

theorem readLoopIn_eq (fuel : ℕ) : readLoopIn (deliver env) fuel c = readLoop env fuel c := by
  induction fuel generalizing c with
  | zero => rfl
  | succ fuel ih =>
    have hloop : readLoopIn (S := S) (deliver env) fuel = readLoop env fuel := funext ih
    rewrite [readLoopIn, hloop]
    rfl

/-- Enough rounds for what is available. -/
def enough (c : Component (Tls S)) : ℕ := S.available c.own.ssl + 1

theorem processPendingReadsIn_eq :
    processPendingReadsIn (deliver env) enough c = processPendingReads env c := by
  rewrite [processPendingReadsIn]
  simp only [readLoopIn_eq]
  rfl

theorem processHandshakeIn_eq : processHandshakeIn (deliver env) enough c = processHandshake env c := by
  have hprocess : processPendingReadsIn (S := S) (deliver env) enough = processPendingReads env :=
    funext (processPendingReadsIn_eq env)
  rewrite [processHandshakeIn, hprocess]
  rfl

theorem startHandshakeIn_eq : startHandshakeIn (deliver env) enough c = startHandshake env c := by
  rw [startHandshakeIn, startHandshake, processHandshakeIn_eq]

theorem readIn_eq (data : Chain) : readIn (deliver env) enough data c = read env data c := by
  have hhandshake : processHandshakeIn (S := S) (deliver env) enough = processHandshake env :=
    funext (processHandshakeIn_eq env)
  have hprocess : processPendingReadsIn (S := S) (deliver env) enough = processPendingReads env :=
    funext (processPendingReadsIn_eq env)
  rewrite [readIn, hhandshake, hprocess]
  rfl

theorem onDoneIn_eq : onDoneIn (deliver env) c = onDone env c := rfl

theorem processPendingIn_eq : processPendingIn (deliver env) enough c = processPending env c := by
  have hprocess : processPendingReadsIn (S := S) (deliver env) enough = processPendingReads env :=
    funext (processPendingReadsIn_eq env)
  rewrite [processPendingIn, hprocess]
  rfl

theorem resumeIn_eq :
    c.resume (processPendingIn (deliver env) enough) (flushAndCompleteIn (deliver env)) = resume env c := by
  have hpp : processPendingIn (S := S) (deliver env) enough = processPending env := funext (processPendingIn_eq env)
  rewrite [hpp]
  rfl

theorem doCloseIn_eq : doCloseIn (deliver env) c = doClose env c := rfl

end Consuming

end DbnPipe.Tls
