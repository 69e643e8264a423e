import DbnPipe.Http.HttpClient
import DbnPipe.Stream.BufferBounds

/-!
# The limits of HttpClient

* `Bounded` — `pending_chain_`, `pending_input_` and `error_body_` stay within their limits;
* `bounded_onBody`, `bounded_execute` … `bounded_doneBody` — **every function keeps it**, the llhttp callbacks
  among them, if the downstream does;
* `handlers`, `handlers_keep` — so does every call;
* `Guarded` — what the checks do in such a state: none wraps around, and what does not fit is refused or cut off.
-/

namespace DbnPipe.Http

open Callbacks

variable {L : Llhttp}

/-- The buffers are within their limits. -/
structure Bounded (h : HttpClient L) : Prop where
  body : Within kMaxBufferedBody h.pendingChain
  input : Within kMaxPendingInput h.pendingInput
  errorBody : h.errorBody.length ≤ kMaxErrorBodySize

/-- The downstream consumes the first `n` bytes. -/
def consume (n : ℕ) : Component (HttpClient L) → Component (HttpClient L) :=
  update fun h =>
    { h with
      delivered := h.delivered ++ (Chain.bytes h.pendingChain).take n
      pendingChain := h.pendingChain.consume id n }

/-- The calls of `HttpClient`.  An `OnData` inside another one has a chain of its own; `TlsTransport` hands on one and
the same `pending_read_chain_`, of which the outer call then finds what the inner one has left. -/
def handlers (L : Llhttp) : Handlers (HttpClient L) where
  Extra := Empty
  onData deliver chain c := (onData deliver [] chain c).1
  onDone := onDone
  processPending := processPending
  flushAndComplete := flushAndComplete
  doClose _ := doClose
  consume := consume
  extra _ x := nomatch x

variable {c : Component (HttpClient L)}

/-! ### The callbacks -/

theorem bounded_pause (h : Owns Bounded c) : Owns Bounded (pause c) := by
  show Bounded (if c.own.errno = .ok then _ else _)
  split
  · exact ⟨h.body, h.input, h.errorBody⟩
  · exact h

theorem bounded_unpause (h : Owns Bounded c) : Owns Bounded (unpause c) := by
  show Bounded (if c.own.errno = .paused then _ else _)
  split
  · exact ⟨h.body, h.input, h.errorBody⟩
  · exact h

theorem bounded_resetMessageState (h : Owns Bounded c) : Owns Bounded (resetMessageState c) :=
  ⟨.cleared _ _, h.input, Nat.zero_le _⟩

theorem bounded_emitHttpStatusError (h : Owns Bounded c) : Owns Bounded (emitHttpStatusError c) := h.fail _

theorem bounded_handleParseError (err : Errno) (h : Owns Bounded c) : Owns Bounded (handleParseError err c).1 := by
  cases err with
  | user => exact h
  | ok => exact h
  | paused => exact h.fail _
  | other name => exact h.fail _

/-- A header that is complete does not matter. -/
theorem bounded_header {h : HttpClient L} (hb : Bounded h) :
    Bounded (if h.headerState = .value then processHeader h else h) := by
  split
  · exact ⟨hb.body, hb.input, hb.errorBody⟩
  · exact hb

theorem bounded_onHeaderField (bytes : List Byte) (h : Owns Bounded c) : Owns Bounded (onHeaderField bytes c) := by
  obtain ⟨hbody, hinput, herror⟩ := bounded_header h
  exact ⟨hbody, hinput, herror⟩

theorem bounded_onHeadersComplete (h : Owns Bounded c) : Owns Bounded (onHeadersComplete c) := by
  have hheader := bounded_header h
  rw [Owns, onHeadersComplete, update]
  dsimp only
  generalize (if c.own.headerState = .value then processHeader c.own else c.own) = own at hheader
  split
  · exact ⟨hheader.body, hheader.input, Nat.zero_le _⟩
  · exact ⟨hheader.body, hheader.input, hheader.errorBody⟩

theorem bounded_appendBodyToPending (bytes : List Byte) (h : Owns Bounded c) :
    Owns Bounded (appendBodyToPending bytes c).1 := by
  rw [appendBodyToPending]
  split
  · exact h.fail _
  rename_i hroom
  rw [h.body.sizeSub_lt, Nat.not_lt] at hroom
  exact ⟨h.body.appendedBytes hroom, h.input, h.errorBody⟩

section Deliver

variable {deliver : Component (HttpClient L) → Component (HttpClient L)} (hd : Keeps (Owns Bounded) deliver)
include hd

/-- **`OnBody`**: the body of an error is cut off, another one is refused. -/
theorem bounded_onBody (bytes : List Byte) (h : Owns Bounded c) : Owns Bounded (onBody deliver bytes c).1 := by
  rw [onBody]
  split
  · refine ⟨h.body, h.input, ?_⟩
    show (c.own.errorBody ++ bytes.take (sizeSub kMaxErrorBodySize c.own.errorBody.length)).length ≤ _
    have hle := h.errorBody
    rw [sizeSub_of_le hle, List.length_append, List.length_take]
    omega
  have happend := bounded_appendBodyToPending bytes h
  simp only
  split
  · exact happend
  have hc := hd _ happend
  simp only
  split
  · exact bounded_pause hc
  · exact hc

omit hd in
theorem bounded_completeMessage (h : Owns Bounded c) : Owns Bounded (completeMessage c) := by
  rw [completeMessage]
  split
  · exact bounded_pause h
  · exact bounded_resetMessageState h.emitDone

theorem bounded_succeed (h : Owns Bounded c) : Owns Bounded (succeed deliver c).1 := by
  rw [succeed]
  split
  · exact bounded_completeMessage h
  have hc := hd c h
  simp only
  split
  · exact bounded_pause hc
  split
  · exact hc.fail _
  · exact bounded_completeMessage hc

theorem bounded_onMessageComplete (h : Owns Bounded c) : Owns Bounded (onMessageComplete deliver c).1 := by
  have hrecord : Owns Bounded (recordMessage c) := ⟨h.body, h.input, h.errorBody⟩
  rw [onMessageComplete]
  split
  · exact bounded_emitHttpStatusError hrecord
  · exact bounded_succeed hd hrecord

/-! ### llhttp_execute and llhttp_finish -/

theorem bounded_callSpan (kind : SpanKind) (bytes : List Byte) (h : Owns Bounded c) :
    Owns Bounded (callSpan deliver kind bytes c).1 := by
  cases kind with
  | status code => exact ⟨h.body, h.input, h.errorBody⟩
  | headerField => exact bounded_onHeaderField bytes h
  | headerValue => exact ⟨h.body, h.input, h.errorBody⟩
  | body => exact bounded_onBody hd bytes h

theorem bounded_flush (span : Span) (h : Owns Bounded c) : Owns Bounded (flush deliver span c).1 := by
  cases span with
  | none => exact h
  | some span => exact bounded_callSpan hd span.1 span.2 h

theorem bounded_notify (e : Event) (h : Owns Bounded c) : Owns Bounded (notify deliver e c).1 := by
  cases e with
  | span kind bytes => exact h
  | messageBegin => exact ⟨h.body, h.input, h.errorBody⟩
  | headersComplete => exact bounded_onHeadersComplete h
  | messageComplete => exact bounded_onMessageComplete hd h

theorem bounded_callEvent (e : Event) (span : Span) (h : Owns Bounded c) :
    Owns Bounded (callEvent deliver e span c).1 := by
  have hflush := bounded_flush hd span h
  unfold callEvent
  split
  · split
    · split
      · exact h
      · exact hflush
    · exact h
  · simp only
    split
    · exact bounded_notify hd e hflush
    · exact hflush

theorem bounded_callEvents (es : List Event) (span : Span) (h : Owns Bounded c) :
    Owns Bounded (callEvents deliver es span c).1 := by
  induction es generalizing span c with
  | nil => exact h
  | cons e es ih =>
    have hevent := bounded_callEvent hd e span h
    rw [callEvents]
    split
    · exact ih _ hevent
    · exact hevent

theorem bounded_callByte (es : List Event) (span : Span) (h : Owns Bounded c) :
    Owns Bounded (callByte deliver es span c).1 := by
  rw [callByte]
  split
  · exact bounded_flush hd span h
  · exact bounded_callEvents hd es span h

/-- **The run over the bytes of a chunk.** -/
theorem bounded_runBytes (bytes : List Byte) (span : Span) (h : Owns Bounded c) :
    Owns Bounded (runBytes deliver bytes span c).1 := by
  have hstop : ∀ (err : Errno) {d : Component (HttpClient L)}, Owns Bounded d → Owns Bounded (stop err d).1 :=
    fun _ _ hb => ⟨hb.body, hb.input, hb.errorBody⟩
  induction bytes generalizing span c with
  | nil =>
    have hflush := bounded_flush hd span h
    rw [runBytes]
    split
    · exact hflush
    · exact hstop _ hflush
  | cons b bytes ih =>
    rw [runBytes]
    split
    · exact hstop _ h
    rename_i s es _
    have hbyte := bounded_callByte hd es span h
    simp only
    split
    · exact ih _ (show Owns Bounded (advance s es _) from ⟨hbyte.body, hbyte.input, hbyte.errorBody⟩)
    · exact hstop _ hbyte

theorem bounded_execute (chunk : List Byte) (h : Owns Bounded c) : Owns Bounded (execute deliver chunk c).1 := by
  rw [execute]
  split
  · exact h
  · exact bounded_runBytes hd chunk none
      (show Owns Bounded (update _ c) from ⟨h.body, h.input, h.errorBody⟩)

theorem bounded_finish (h : Owns Bounded c) : Owns Bounded (finish deliver c).1 := by
  rw [finish]
  split
  · exact h
  split
  · exact h
  · exact bounded_onMessageComplete hd h
  · exact h

/-! ### The component -/

omit hd in
/-- **`CopyToPendingInput`** asks again before each segment. -/
theorem bounded_copyToPendingInput (fuel : ℕ) {source : Chain} (hsource : Chain.WF source) (h : Owns Bounded c) :
    Owns Bounded (copyToPendingInput fuel source c).1 := by
  induction fuel generalizing source c with
  | zero => exact h
  | succ fuel ih =>
    rw [copyToPendingInput]
    split
    · exact h
    split
    · exact h.fail _
    rename_i hroom
    rw [h.input.sizeSub_lt, Nat.not_lt, Chain.size_eq hsource] at hroom
    have hcopy : ((source.copyTo id 0 (min (source.contiguousSize id) Segment.kSize)).take
        Segment.kSize).length ≤ (Chain.bytes source).length := by
      rw [BufferChain.copyTo_eq, List.length_take, List.length_take, List.length_drop]
      show min _ (min _ ((Chain.bytes source).length - 0)) ≤ _
      omega
    refine ih (Chain.wf_consumed hsource _) ⟨h.body, h.input.appended ?_, h.errorBody⟩
    rw [Segment.bytes_fill]
    omega

omit hd in
theorem bounded_consumeInput (n : ℕ) (h : Owns Bounded c) :
    Owns Bounded (update (fun h => { h with pendingInput := h.pendingInput.consume id n }) c) :=
  ⟨h.body, h.input.consumed n, h.errorBody⟩

theorem bounded_processPendingInput (fuel : ℕ) (h : Owns Bounded c) :
    Owns Bounded (processPendingInput deliver fuel c) := by
  induction fuel generalizing c with
  | zero => exact h
  | succ fuel ih =>
    rw [processPendingInput]
    split
    · exact h
    split
    · exact h
    rename_i s pos _
    have hexecute := bounded_execute hd ((s.bytes.drop pos).take (c.own.pendingInput.contiguousSize id)) h
    have herror := bounded_handleParseError
      (execute deliver ((s.bytes.drop pos).take (c.own.pendingInput.contiguousSize id)) c).2 hexecute
    simp only
    split
    · exact bounded_consumeInput _ hexecute
    split
    · exact herror
    · exact ih (bounded_consumeInput _ herror)

theorem bounded_processInput (h : Owns Bounded c) : Owns Bounded (processInput deliver c) :=
  bounded_processPendingInput hd _ h

theorem bounded_processPending (h : Owns Bounded c) : Owns Bounded (processPending deliver c) := by
  have hresume : ∀ {d : Component (HttpClient L)}, Owns Bounded d → Owns Bounded (resumeParser deliver d) :=
    fun hb => bounded_processInput hd (bounded_unpause hb)
  have hforward := owns_forwardData hd HttpClient.pendingChain h
  have hagain := owns_forwardData hd HttpClient.pendingChain hforward
  rw [processPending]
  simp only
  split
  · exact hforward
  split
  · split
    · exact hagain
    split
    · exact hagain.fail _
    · exact hresume (bounded_resetMessageState hagain.emitDone)
  · exact hresume hforward

theorem bounded_complete (h : Owns Bounded c) : Owns Bounded (complete deliver c) := by
  have hflush := owns_completeWithFlush hd HttpClient.pendingChain h
  rw [complete]
  split
  · exact hflush.requestClose
  · exact hflush

theorem bounded_finishMessage (h : Owns Bounded c) : Owns Bounded (finishMessage deliver c).1 := by
  rw [finishMessage]
  split
  · exact h
  · exact bounded_handleParseError _ (bounded_finish hd h)

theorem bounded_flushRest (h : Owns Bounded c) : Owns Bounded (flushRest deliver c) := by
  have hfinish := bounded_finishMessage hd h
  rw [flushRest]
  split
  · exact hfinish
  split
  · exact bounded_emitHttpStatusError hfinish
  · exact bounded_complete hd hfinish

theorem bounded_flushAndComplete (h : Owns Bounded c) : Owns Bounded (flushAndComplete deliver c) := by
  have hprocess := bounded_processInput hd (bounded_unpause h)
  rw [flushAndComplete]
  split
  · exact bounded_flushRest hd h
  simp only
  split
  · exact hprocess.of_eq rfl
  · exact bounded_flushRest hd hprocess

/-- **The loop of `OnData`.** -/
theorem bounded_dataLoop (fuel : ℕ) (scripts : List (List Turn)) {data : Chain} (hdata : Chain.WF data)
    (h : Owns Bounded c) : Owns Bounded (dataLoop deliver fuel scripts data c).1 := by
  induction fuel generalizing scripts data c with
  | zero => exact h
  | succ fuel ih =>
    rw [dataLoop]
    split
    · exact h
    split
    · exact h
    rename_i s pos _
    have hscript : Owns Bounded (update (fun h => { h with script := scripts.headD [] }) c) :=
      ⟨h.body, h.input, h.errorBody⟩
    have hexecute := bounded_execute hd ((s.bytes.drop pos).take (data.contiguousSize id)) hscript
    have herror := bounded_handleParseError (execute deliver ((s.bytes.drop pos).take (data.contiguousSize id))
      (update (fun h => { h with script := scripts.headD [] }) c)).2 hexecute
    simp only
    split
    · exact bounded_copyToPendingInput _ (Chain.wf_consumed hdata _) hexecute
    split
    · exact herror
    · exact ih _ (Chain.wf_consumed hdata _) herror

theorem bounded_onData (scripts : List (List Turn)) {data : Chain} (hdata : Chain.WF data) (h : Owns Bounded c) :
    Owns Bounded (onData deliver scripts data c).1 := by
  have henter : Owns Bounded c.enter := h
  have hbody : Owns Bounded (dataBody deliver scripts data c.enter).1 := by
    rw [dataBody]
    split
    · exact bounded_dataLoop hd _ scripts hdata henter
    split
    · exact henter.fail _
    rename_i hroom
    rw [henter.input.wouldOverflow, Nat.not_lt, Chain.size_eq hdata] at hroom
    exact bounded_processInput hd ⟨henter.body, (henter.input.spliced hdata hroom).1, henter.errorBody⟩
  rw [onData]
  split
  · exact h
  · exact hbody.of_eq (Component.leave_own _)

theorem bounded_doneBody (h : Owns Bounded c) : Owns Bounded (doneBody deliver c) := by
  have hinput : Owns Bounded (if c.own.pendingInput.empty then c else processInput deliver (unpause c)) := by
    split
    · exact h
    · exact bounded_processInput hd (bounded_unpause h)
  rw [doneBody]
  generalize (if c.own.pendingInput.empty then c else processInput deliver (unpause c)) = d at hinput
  have hfinish := bounded_finishMessage hd hinput
  split
  · exact hfinish
  split
  · exact bounded_emitHttpStatusError hfinish
  split
  · exact hfinish.of_eq rfl
  · exact bounded_complete hd hfinish

end Deliver

/-- **Every call keeps the limits.** -/
theorem handlers_keep (L : Llhttp) : (handlers L).Keep Bounded where
  onData hd _ hwf _ h := bounded_onData hd [] hwf h
  onDone hd := keeps_guarded fun _ h => bounded_doneBody hd h
  processPending hd _ h := bounded_processPending hd h
  flushAndComplete hd _ h := bounded_flushAndComplete hd h
  doClose _ _ h := ⟨.cleared _ _, .cleared _ _, h.errorBody⟩
  consume _ _ h := ⟨h.body.consumed _, h.input, h.errorBody⟩
  extra _ x := nomatch x

theorem bounded_new (L : Llhttp) : Owns Bounded (newClient L) := ⟨.empty _ none, .empty _ none, Nat.zero_le _⟩

/-! ### The checks -/

/-- What `CopyToPendingInput` and the splice in `OnData` report. -/
def inputOverflow : Error := { code := .bufferOverflow, message := "HTTP input buffer overflow" }

/-- The checks on `pending_chain_` and `pending_input_` and the length that is copied to `error_body_` do not wrap
around; what does not fit is refused. -/
structure Guarded (c : Component (HttpClient L)) : Prop where
  body : Exact kMaxBufferedBody c.own.pendingChain
  input : Exact kMaxPendingInput c.own.pendingInput
  errorBody : c.own.errorBody.length ≤ kMaxErrorBodySize
  errorCopy : sizeSub kMaxErrorBodySize c.own.errorBody.length + c.own.errorBody.length = kMaxErrorBodySize
  append : ∀ bytes, kMaxBufferedBody < (Chain.bytes c.own.pendingChain).length + bytes.length →
    Declined { code := .bufferOverflow, message := "HTTP body buffer overflow" } c (appendBodyToPending bytes c).1
  copy : ∀ fuel source, source.empty = false →
    kMaxPendingInput < (Chain.bytes c.own.pendingInput).length + source.size →
    Declined inputOverflow c (copyToPendingInput (fuel + 1) source c).1
  splice : ∀ deliver scripts data, c.own.pendingInput.empty = false →
    kMaxPendingInput < (Chain.bytes c.own.pendingInput).length + data.size →
    Declined inputOverflow c (dataBody deliver scripts data c).1

theorem Bounded.guarded (h : Owns Bounded c) : Guarded c where
  body := h.body.exact
  input := h.input.exact
  errorBody := h.errorBody
  errorCopy := by
    have hle := h.errorBody
    rw [sizeSub_of_le hle]
    omega
  append bytes hover := by
    rw [appendBodyToPending, if_pos ((h.body.sizeSub_lt _).mpr hover)]
    exact declined _ _
  copy fuel source he hover := by
    rw [copyToPendingInput, if_neg (by rw [he]; exact Bool.false_ne_true),
      if_pos ((h.input.sizeSub_lt _).mpr hover)]
    exact declined _ _
  splice deliver scripts data he hover := by
    rw [dataBody, if_neg (by rw [he]; exact Bool.false_ne_true), if_pos ((h.input.wouldOverflow _).mpr hover)]
    exact declined _ _

end DbnPipe.Http
