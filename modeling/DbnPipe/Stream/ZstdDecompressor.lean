import DbnPipe.Stream.Component

/-!
# ZstdDecompressor

`lib/stream/zstd_decompressor.hpp`: the stage that decompresses the body of a response and hands it on.

* `ZstdDecoder` — zstd is a third-party library, so it is a parameter: **a deterministic decoder** that takes a
  prefix of the input it is shown and fills an output buffer;
* `ZstdDecompressor Z δ` — the members, the stage behind it of any type `δ`, and a record of what happened;
* `chunkLoop`, `decompressChain` — the two nested loops of `DecompressChain`, over the caller's chain or over
  `pending_input_`;
* `onData`, `processPending`, `flushAndComplete`, `onDone` — the component;
* `answer` — the `OnData` of a downstream that consumes and calls `Suspend`.

Everything takes the downstream's `OnData` on `output_chain_` as an argument, `deliver`.  What an upstream
that is resumed delivers comes as the next input: `Resume` does nothing more behind it.
-/

namespace DbnPipe.Zstd

/-! ### The decoder -/

/-- What `ZSTD_decompressStream` answers where it is no error: how far it got in the input, what it wrote to
the output, and its result. -/
structure Decoded (σ : Type) (input : List Byte) (cap : ℕ) where
  state : σ
  consumed : ℕ
  produced : List Byte
  result : ℕ
  consumed_le : consumed ≤ input.length
  produced_le : produced.length ≤ cap

/-- The streaming decoder; `start` is its state after `ZSTD_initDStream`.  It uses its input up after finitely
many calls, `rounds`: zstd answers calls that get nowhere with an error. -/
structure ZstdDecoder where
  State : Type
  start : State
  decompressStream : State → (input : List Byte) → (cap : ℕ) → Except String (Decoded State input cap)
  rounds : State → List Byte → ℕ
  progress : ∀ {s : State} {input : List Byte} {cap : ℕ} {t : Decoded State input cap},
    decompressStream s input cap = .ok t → input ≠ [] → 0 < cap →
      rounds t.state (input.drop t.consumed) < rounds s input

/-- The decoder of one fixed frame, which writes its content once it has all of it. -/
def canned (frame content : List Byte) : ZstdDecoder where
  State := ℕ
  start := 0
  decompressStream i input cap :=
    let n := min input.length (frame.length - i)
    if 0 < n ∧ input.take n = (frame.drop i).take n then
      .ok
        { state := i + n
          consumed := n
          produced := if i + n = frame.length then content.take cap else []
          result := frame.length - (i + n)
          consumed_le := Nat.min_le_left _ _
          produced_le := by
            split
            · exact List.length_take_le _ _
            · exact Nat.zero_le _ }
    else .error "Unknown frame descriptor"
  rounds _ input := input.length
  progress := by
    intro i input cap t ht hne _
    simp only at ht
    split at ht
    · rename_i hn
      cases ht
      have hpos : 0 < input.length := List.length_pos_iff.mpr hne
      simp only [List.length_drop]
      omega
    · cases ht

/-! ### The members -/

/-- `ZstdDecompressor`.  `input` is the chain of the running `OnData`; from `next` on: the stage behind it, and
what happened so far. -/
structure ZstdDecompressor (Z : ZstdDecoder) (δ : Type) where
  dstream : Option Z.State := some Z.start
  outputChain : Chain := {}
  pendingInput : Chain := {}
  lastDecompressResult : ℕ := 0
  input : Chain := {}
  next : δ
  -- compressed bytes received, and those that the decoder took
  received : List Byte := []
  fed : List Byte := []
  -- bytes that the decoder wrote, and those that the downstream consumed
  decoded : List Byte := []
  consumed : List Byte := []
  -- for each call of the decoder, whether the component was suspended
  calls : List Bool := []

variable {Z : ZstdDecoder} {δ : Type}

/-- Change the derived part. -/
def update (f : ZstdDecompressor Z δ → ZstdDecompressor Z δ) (c : Component (ZstdDecompressor Z δ)) :
    Component (ZstdDecompressor Z δ) := { c with own := f c.own }

/-- `kMaxPendingInput`: 256MB. -/
def kMaxPendingInput : ℕ := 256 * 1024 * 1024

/-- `kMaxBufferedOutput`: 256MB. -/
def kMaxBufferedOutput : ℕ := 256 * 1024 * 1024

/-- Report an error and close. -/
def fail (code : ErrorCode) (message : String) (c : Component (ZstdDecompressor Z δ)) :
    Component (ZstdDecompressor Z δ) := (c.emitError { code, message }).requestClose

/-- The chain that `DecompressChain` was given. -/
inductive Source where
  | input
  | pending
deriving DecidableEq, Repr

/-- The chain itself. -/
def Source.get : Source → ZstdDecompressor Z δ → Chain
  | .input, h => h.input
  | .pending, h => h.pendingInput

/-- The chain is replaced. -/
def Source.put (chain : Chain) : Source → ZstdDecompressor Z δ → ZstdDecompressor Z δ
  | .input, h => { h with input := chain }
  | .pending, h => { h with pendingInput := chain }

/-- `chain.Consume(n)`. -/
def consumeSource (src : Source) (n : ℕ) : Component (ZstdDecompressor Z δ) → Component (ZstdDecompressor Z δ) :=
  update fun h => src.put ((src.get h).consume id n) h

/-! ### DecompressChain -/

/-- `DecompressResult`. -/
inductive DecompressResult where
  | complete
  | suspended
  | error
deriving DecidableEq, Repr

/-- A call of the decoder is recorded. -/
def recordCall (c : Component (ZstdDecompressor Z δ)) : Component (ZstdDecompressor Z δ) :=
  update (fun h => { h with calls := h.calls ++ [c.suspended] }) c

/-- What a call of the decoder leaves behind. -/
def absorb {input : List Byte} {cap : ℕ} (t : Decoded Z.State input cap) :
    Component (ZstdDecompressor Z δ) → Component (ZstdDecompressor Z δ) :=
  update fun h =>
    { h with
      dstream := some t.state
      lastDecompressResult := t.result
      fed := h.fed ++ input.take t.consumed
      decoded := h.decoded ++ t.produced }

/-- `output_chain_.Append(seg)`. -/
def appendOutput {input : List Byte} (t : Decoded Z.State input Segment.kSize) :
    Component (ZstdDecompressor Z δ) → Component (ZstdDecompressor Z δ) :=
  update fun h =>
    { h with outputChain := BufferChain.append id h.outputChain (Segment.blank.fill t.produced t.produced_le) }

section Decompress

variable (deliver : Component (ZstdDecompressor Z δ) → Component (ZstdDecompressor Z δ))

/-- The loop over a chunk, from `in_buf.pos` on: also where it stops, and how. -/
def chunkLoop (chunk : List Byte) :
    ℕ → ℕ → Component (ZstdDecompressor Z δ) → Component (ZstdDecompressor Z δ) × ℕ × DecompressResult
  | 0, pos, c => (c, pos, .complete)
  | fuel + 1, pos, c =>
    if chunk.length ≤ pos then (c, pos, .complete)
    else
      match c.own.dstream with
      | none => (c, pos, .complete)
      | some s =>
        let c := recordCall c
        match Z.decompressStream s (chunk.drop pos) Segment.kSize with
        | .error name => (fail .decompressionError ("ZSTD decompression failed: " ++ name) c, pos, .error)
        | .ok t =>
          let c := absorb t c
          let pos := pos + t.consumed
          if t.produced.length = 0 then chunkLoop chunk fuel pos c
          else if sizeSub kMaxBufferedOutput c.own.outputChain.size < t.produced.length then
            (fail .bufferOverflow "Decompressed output buffer overflow" c, pos, .error)
          else
            let r := (appendOutput t c).forwardData ZstdDecompressor.outputChain deliver
            if r.2 then (r.1, pos, .suspended) else chunkLoop chunk fuel pos r.1

/-- Enough rounds for a chunk. -/
def chunkFuel (h : ZstdDecompressor Z δ) (chunk : List Byte) : ℕ := (h.dstream.map (Z.rounds · chunk + 1)).getD 0

/-- The loop over the chunks of a chain. -/
def chainLoop (src : Source) :
    ℕ → Component (ZstdDecompressor Z δ) → Component (ZstdDecompressor Z δ) × DecompressResult
  | 0, c => (c, .complete)
  | fuel + 1, c =>
    if (src.get c.own).empty then (c, .complete)
    else
      match (src.get c.own).dataAt id 0 with
      | none => (c, .complete)
      | some (s, pos) =>
        let size := (src.get c.own).contiguousSize id
        let chunk := (s.bytes.drop pos).take size
        let r := chunkLoop deliver chunk (chunkFuel c.own chunk) 0 c
        match r.2.2 with
        | .complete => chainLoop src fuel (consumeSource src size r.1)
        | .suspended => (consumeSource src r.2.1 r.1, .suspended)
        | .error => (r.1, .error)

/-- `DecompressChain`; a chunk has at least one byte. -/
def decompressChain (src : Source) (c : Component (ZstdDecompressor Z δ)) :
    Component (ZstdDecompressor Z δ) × DecompressResult :=
  if c.own.dstream.isNone then (fail .decompressionError "Decompressor not initialized" c, .error)
  else if c.suspended then (c, .suspended)
  else chainLoop deliver src (src.get c.own).size c

/-! ### The component -/

/-- `CopyToPendingInput` of the caller's chain; a round takes at least one byte. -/
def copyToPendingInput : ℕ → Component (ZstdDecompressor Z δ) → Component (ZstdDecompressor Z δ)
  | 0, c => c
  | fuel + 1, c =>
    if c.own.input.empty then c
    else if sizeSub kMaxPendingInput c.own.pendingInput.size < c.own.input.size then
      fail .decompressionError "Decompressor input buffer overflow" c
    else
      let chunk := min (c.own.input.contiguousSize id) Segment.kSize
      let bytes := (c.own.input.copyTo id 0 chunk).take Segment.kSize
      let seg := Segment.blank.fill bytes (List.length_take_le _ _)
      copyToPendingInput fuel (consumeSource .input chunk
        (update (fun h => { h with pendingInput := BufferChain.append id h.pendingInput seg }) c))

/-- `pending_input_.CompactAndSplice(data)`. -/
def spliceInput : Component (ZstdDecompressor Z δ) → Component (ZstdDecompressor Z δ) :=
  update fun h =>
    let r := Chain.compactAndSplice h.pendingInput h.input
    { h with pendingInput := r.1, input := r.2 }

/-- `OnData` under its guard. -/
def dataBody (c : Component (ZstdDecompressor Z δ)) : Component (ZstdDecompressor Z δ) :=
  if !c.own.pendingInput.empty then
    if c.own.pendingInput.wouldOverflow c.own.input.size kMaxPendingInput then
      fail .decompressionError "Decompressor input buffer overflow" c
    else (decompressChain deliver .pending (spliceInput c)).1
  else
    let r := decompressChain deliver .input c
    if r.2 = .error then r.1
    else if !r.1.own.input.empty then copyToPendingInput r.1.own.input.size r.1
    else r.1

/-- The bytes of a call are received. -/
def receive (data : Chain) : Component (ZstdDecompressor Z δ) → Component (ZstdDecompressor Z δ) :=
  update fun h => { h with input := data, received := h.received ++ Chain.bytes data }

/-- `OnData`. -/
def onData (data : Chain) : Component (ZstdDecompressor Z δ) → Component (ZstdDecompressor Z δ) :=
  Component.guarded fun c => dataBody deliver (receive data c)

/-- `ProcessPendingData`. -/
def processPendingData (c : Component (ZstdDecompressor Z δ)) :
    Component (ZstdDecompressor Z δ) × DecompressResult :=
  if c.closed || c.own.pendingInput.empty then (c, .complete) else decompressChain deliver .pending c

/-- `ProcessPending`. -/
def processPending (c : Component (ZstdDecompressor Z δ)) : Component (ZstdDecompressor Z δ) :=
  let r := c.forwardData ZstdDecompressor.outputChain deliver
  if r.2 then r.1 else (processPendingData deliver r.1).1

/-- The common end of `OnDone` and `FlushAndComplete`. -/
def complete (c : Component (ZstdDecompressor Z δ)) : Component (ZstdDecompressor Z δ) :=
  if c.own.lastDecompressResult ≠ 0 then fail .decompressionError "Incomplete zstd frame" c
  else
    let r := c.completeWithFlush ZstdDecompressor.outputChain deliver
    if r.2 then r.1.requestClose else r.1

/-- `FlushAndComplete`. -/
def flushAndComplete (c : Component (ZstdDecompressor Z δ)) : Component (ZstdDecompressor Z δ) :=
  let r := processPendingData deliver c
  match r.2 with
  | .error => r.1
  | .suspended => r.1.deferOnDone
  | .complete => complete deliver r.1

/-- `OnDone` under its guard. -/
def doneBody (c : Component (ZstdDecompressor Z δ)) : Component (ZstdDecompressor Z δ) :=
  if c.suspended then c.deferOnDone
  else if !c.own.pendingInput.empty then
    let r := decompressChain deliver .pending c
    match r.2 with
    | .error => r.1
    | .suspended => r.1.deferOnDone
    | .complete => complete deliver r.1
  else complete deliver c

/-- `OnDone`. -/
def onDone : Component (ZstdDecompressor Z δ) → Component (ZstdDecompressor Z δ) :=
  Component.guarded (doneBody deliver)

/-- `Resume`. -/
def resume (c : Component (ZstdDecompressor Z δ)) : Component (ZstdDecompressor Z δ) :=
  c.resume (processPending deliver) (flushAndComplete deliver)

end Decompress

/-- `DoClose`. -/
def doClose : Component (ZstdDecompressor Z δ) → Component (ZstdDecompressor Z δ) :=
  update fun h =>
    { h with dstream := none, outputChain := h.outputChain.clear, pendingInput := h.pendingInput.clear }

/-- The downstream consumes the first `n` bytes of the output. -/
def consume (n : ℕ) : Component (ZstdDecompressor Z δ) → Component (ZstdDecompressor Z δ) :=
  update fun h =>
    { h with
      consumed := h.consumed ++ (Chain.bytes h.outputChain).take n
      outputChain := h.outputChain.consume id (min n h.outputChain.size) }

/-! ### The downstream -/

/-- What the downstream does inside one `OnData`: it consumes some bytes, calls `Suspend` so many times, and
goes on in a new state. -/
structure Reaction (δ : Type) where
  consume : ℕ
  suspends : ℕ
  state : δ

/-- A downstream, by how it reacts. -/
abbrev Downstream (Z : ZstdDecoder) (δ : Type) : Type := Component (ZstdDecompressor Z δ) → Reaction δ

/-- `Suspend`, so many times. -/
def suspendTimes : ℕ → Component (ZstdDecompressor Z δ) → Component (ZstdDecompressor Z δ)
  | 0, c => c
  | n + 1, c => suspendTimes n c.suspend

/-- The `OnData` of a downstream. -/
def answer (D : Downstream Z δ) (c : Component (ZstdDecompressor Z δ)) : Component (ZstdDecompressor Z δ) :=
  let r := D c
  suspendTimes r.suspends (consume r.consume (update (fun h => { h with next := r.state }) c))

/-! ### Runs -/

/-- What can happen from outside. -/
inductive Input where
  | data (segments : List Segment)
  | done
  | error (e : Error)
  | suspend
  | resume
  | requestClose
  | runClose

/-- One input.  A task that was not posted does not run, nor a `Resume` without its `Suspend`. -/
def step (deliver : Component (ZstdDecompressor Z δ) → Component (ZstdDecompressor Z δ))
    (c : Component (ZstdDecompressor Z δ)) : Input → Component (ZstdDecompressor Z δ)
  | .data segments => onData deliver (segments.foldl (BufferChain.append id) {}) c
  | .done => onDone deliver c
  | .error e => c.propagateError e
  | .suspend => c.suspend
  | .resume => if c.suspended then resume deliver c else c
  | .requestClose => c.requestClose
  | .runClose => if c.closeScheduled then doClose c else c

/-- A new component, in front of `next`. -/
def newZstdDecompressor (Z : ZstdDecoder) (next : δ) : Component (ZstdDecompressor Z δ) :=
  { own := { next := next } }

end DbnPipe.Zstd
