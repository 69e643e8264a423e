import DbnPipe.Stream.ZstdDecompressor

/-!
# ZstdDecompressor called from inside its own calls

`lib/stream/zstd_decompressor.hpp` and the `Resume` of `lib/stream/component.hpp`, where **one call runs inside
another**: the downstream calls `Suspend`, `Resume` and `Close` in its `OnData`, and an upstream that is resumed
goes on before its own `Resume` returns, on the chain that the component may be reading.

* `Act`, `Delivery` — what the downstream does in one `OnData`, and what a resumed upstream gives;
* `Env` — the stages around: the acts of the one behind, call by call, what the one in front has given, and **whether
  `DecompressChain` was entered inside itself**;
* `processPendingIn`, `flushAndCompleteIn`, `dataIn`, `doneIn`, `resumeIn` — the functions of the component; `busy`
  tells that they run inside a `DecompressChain`, and so does what they pass to the downstream's `OnData`;
* `downstream` — that `OnData`, up to a depth of calls inside one another;
* `processPendingIn_eq` … `resumeIn_eq` — outside of a `DecompressChain` they are the functions of the component.
-/

namespace DbnPipe.Zstd.Nested

/-! ### The stages on both sides -/

/-- What the upstream gives: more segments on its chain, with an `OnData` on it, the end, or an error. -/
inductive Delivery where
  | data (segments : List Segment)
  | done
  | error (e : Error)

/-- An act of the downstream inside `OnData`: it consumes some bytes, or all; it calls back.  A `Resume` comes
with what the upstream gives, should it be resumed. -/
inductive Act where
  | consume (n : Option ℕ)
  | suspend
  | resume (deliveries : List Delivery)
  | close

/-- The stages around: what the one behind will do in each `OnData`, the bytes that the one in front has given while the
component was open, and whether a `DecompressChain` was entered while another was running. -/
structure Env where
  script : List (List Act) := []
  given : List Byte := []
  reentered : Bool := false

/-- The component in front of such a stage. -/
abbrev Stage (Z : ZstdDecoder) : Type := Component (ZstdDecompressor Z Env)

variable {Z : ZstdDecoder}

/-- `DecompressChain` is entered inside another one. -/
def note : Stage Z → Stage Z := update fun h => { h with next := { h.next with reentered := true } }

/-- `DecompressChain(pending_input_)` is next, if the component is open and there is pending input. -/
def enterPending (busy : Bool) (c : Stage Z) : Stage Z :=
  if busy && !c.closed && !c.own.pendingInput.empty then note c else c

/-- The upstream's chain has grown. -/
def receiveMore (segments : List Segment) : Stage Z → Stage Z :=
  update fun h =>
    { h with
      input := segments.foldl (BufferChain.append id) h.input
      received := h.received ++ segments.flatMap (·.bytes) }

/-- The upstream hands over an `OnData`. -/
def give (segments : List Segment) (c : Stage Z) : Stage Z :=
  if c.closed then c
  else update (fun h => { h with next := { h.next with given := h.next.given ++ segments.flatMap (·.bytes) } }) c

/-! ### The component -/

section Calls

-- the downstream's `OnData`, outside and inside of a `DecompressChain`
variable (D : Bool → Stage Z → Stage Z) (busy : Bool)

/-- `ProcessPending`. -/
def processPendingIn (c : Stage Z) : Stage Z :=
  let r := c.forwardData ZstdDecompressor.outputChain (D busy)
  if r.2 then r.1 else (processPendingData (D true) (enterPending busy r.1)).1

/-- `FlushAndComplete`. -/
def flushAndCompleteIn (c : Stage Z) : Stage Z :=
  let r := processPendingData (D true) (enterPending busy c)
  match r.2 with
  | .error => r.1
  | .suspended => r.1.deferOnDone
  | .complete => complete (D busy) r.1

/-- `OnData` under its guard. -/
def dataBodyIn (segments : List Segment) (c : Stage Z) : Stage Z :=
  dataBody (D true) (receiveMore segments (if busy then note c else c))

/-- `OnData`. -/
def dataIn (segments : List Segment) : Stage Z → Stage Z := Component.guarded (dataBodyIn D busy segments)

/-- `OnDone` under its guard. -/
def doneBodyIn (c : Stage Z) : Stage Z :=
  if c.suspended then c.deferOnDone
  else if !c.own.pendingInput.empty then
    let r := decompressChain (D true) .pending (enterPending busy c)
    match r.2 with
    | .error => r.1
    | .suspended => r.1.deferOnDone
    | .complete => complete (D busy) r.1
  else complete (D busy) c

/-- `OnDone`. -/
def doneIn : Stage Z → Stage Z := Component.guarded (doneBodyIn D busy)

/-- What the upstream gives. -/
def deliverIn : Delivery → Stage Z → Stage Z
  | .data segments, c => dataIn D busy segments (give segments c)
  | .done, c => doneIn D busy c
  | .error e, c => c.propagateError e

/-- All that the upstream gives. -/
def deliverAll (deliveries : List Delivery) (c : Stage Z) : Stage Z :=
  deliveries.foldl (fun c d => deliverIn D busy d c) c

/-- `if (!IsSuspended() && upstream_) upstream_->Resume()`, with what the upstream gives inside. -/
def resumeUpstreamIn (deliveries : List Delivery) (c : Stage Z) : Stage Z :=
  if c.suspended then c else deliverAll D busy deliveries c.resumeUpstream

/-- `Resume`; the assertion `prev > 0` is the caller's obligation. -/
def resumeIn (deliveries : List Delivery) (c : Stage Z) : Stage Z :=
  let prev := c.suspendCount
  let c := { c with suspendCount := prev - 1 }
  if prev = 1 then
    if c.closed then c.completeDeferred (flushAndCompleteIn D busy)
    else
      let c := resumeUpstreamIn D busy deliveries (processPendingIn D busy c.enter)
      (c.completeDeferred (flushAndCompleteIn D busy)).leave
  else c

end Calls

/-! ### The downstream -/

/-- One act, with what a `Resume` does. -/
def act (again : List Delivery → Stage Z → Stage Z) : Act → Stage Z → Stage Z
  | .consume n, c => consume (n.getD c.own.outputChain.size) c
  | .suspend, c => c.suspend
  | .resume deliveries, c => if c.suspended then again deliveries c else c
  | .close, c => c.requestClose

/-- The acts of the next call; a downstream without a script takes everything. -/
def takeTurn (again : List Delivery → Stage Z → Stage Z) (c : Stage Z) : Stage Z :=
  (c.own.next.script.headD [.consume none]).foldl (fun c a => act again a c)
    (update (fun h => { h with next := { h.next with script := h.next.script.tail } }) c)

/-- The downstream's `OnData`, with at most `depth` calls of `Resume` inside one another. -/
def downstream : ℕ → Bool → Stage Z → Stage Z
  | 0, _ => takeTurn fun _ c => c
  | depth + 1, busy => takeTurn (resumeIn (downstream depth) busy)

/-! ### Runs -/

/-- What can happen from outside. -/
inductive Input where
  | delivery (d : Delivery)
  | suspend
  | resume (deliveries : List Delivery)
  | requestClose
  | runClose

/-- One input.  A task that was not posted does not run, nor a `Resume` without its `Suspend`. -/
def step (depth : ℕ) (c : Stage Z) : Input → Stage Z
  | .delivery d => deliverIn (downstream depth) false d c
  | .suspend => c.suspend
  | .resume deliveries => if c.suspended then resumeIn (downstream depth) false deliveries c else c
  | .requestClose => c.requestClose
  | .runClose => if c.closeScheduled then doClose c else c

/-- A new component, in front of a stage that follows a script. -/
def newStage (Z : ZstdDecoder) (script : List (List Act)) : Stage Z := newZstdDecompressor Z { script := script }

/-! ### Outside of a DecompressChain -/

section Outside

variable (deliver : Stage Z → Stage Z) (c : Stage Z)

@[simp] theorem enterPending_false : enterPending false c = c := rfl

/-- With a downstream that does the same wherever it is called, these are the functions of the component. -/
theorem processPendingIn_eq : processPendingIn (fun _ => deliver) false c = processPending deliver c := rfl

theorem flushAndCompleteIn_eq : flushAndCompleteIn (fun _ => deliver) false c = flushAndComplete deliver c := rfl

theorem doneIn_eq : doneIn (fun _ => deliver) false c = onDone deliver c := rfl

/-- The chain of an `OnData` is the upstream's, on which nothing is left from the last one. -/
theorem dataIn_eq (segments : List Segment) (hwf : Chain.WF c.own.input) (h : Chain.bytes c.own.input = []) :
    dataIn (fun _ => deliver) false segments c =
      onData deliver (segments.foldl (BufferChain.append id) c.own.input) c := by
  have hbytes := (Chain.appendAll_spec hwf segments).2
  rw [h, List.nil_append] at hbytes
  simp only [dataIn, onData, Component.guarded, dataBodyIn, Bool.false_eq_true, if_false, receiveMore, receive,
    update, Component.enter_own, ← hbytes]

/-- An upstream that gives nothing before its `Resume` returns. -/
theorem resumeIn_eq : resumeIn (fun _ => deliver) false [] c = resume deliver c := by
  have hup : ∀ d : Stage Z, resumeUpstreamIn (fun _ => deliver) false [] d = d.resumeUpstream := fun d => by
    simp only [resumeUpstreamIn, Component.resumeUpstream, deliverAll, List.foldl_nil]
    split <;> rfl
  simp only [resumeIn, hup]
  rfl

end Outside

end DbnPipe.Zstd.Nested
