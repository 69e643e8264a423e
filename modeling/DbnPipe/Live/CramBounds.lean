import DbnPipe.Live.CramRules
import DbnPipe.Stream.BufferBounds

/-!
# The limits of CramAuth

* `Bounded` — `streaming_chain_` and `pending_chain_` stay within their limits;
* `bounded_splicePending`, `bounded_leftover` … `bounded_onData` — **every function keeps it**, if the downstream does;
* `handlers`, `handlers_keep` — so does every call;
* `Guarded` — what the checks do in such a state: none wraps around, and what does not fit is refused.
-/

namespace DbnPipe.Live

open Callbacks

/-- The chains are within their limits. -/
structure Bounded (h : CramAuth) : Prop where
  streaming : Within kMaxPendingData h.streamingChain
  pending : Within kMaxPendingData h.pendingChain

/-- The further calls of `CramAuth`. -/
inductive Extra where
  | subscribe (p : Subscription)
  | startStreaming

/-- The calls of `CramAuth`. -/
def handlers (sha256 : List Byte → List Byte) : Handlers CramAuth where
  Extra := Extra
  onData deliver chain c := (onData deliver sha256 chain c).1
  onDone := onDone
  processPending := processPending
  flushAndComplete := flushAndComplete
  doClose _ := doClose
  consume := consume
  extra _
    | .subscribe p => subscribe p
    | .startStreaming => startStreaming

variable {c : Component CramAuth}

/-! ### The chains -/

theorem owns_update (f : CramAuth → CramAuth) (c : Component CramAuth)
    (hf : streamPart (f c.own) = streamPart c.own) (h : Owns Bounded c) : Owns Bounded (update f c) := by
  have hstreaming : (f c.own).streamingChain = c.own.streamingChain := congrArg StreamPart.streamingChain hf
  have hpending : (f c.own).pendingChain = c.own.pendingChain := congrArg StreamPart.pendingChain hf
  refine ⟨?_, ?_⟩
  · show Within kMaxPendingData (f c.own).streamingChain
    rw [hstreaming]
    exact h.streaming
  · show Within kMaxPendingData (f c.own).pendingChain
    rw [hpending]
    exact h.pending

theorem owns_fail (code : ErrorCode) (message : String) (c : Component CramAuth) (h : Owns Bounded c) :
    Owns Bounded (fail code message c) := h.fail _

/-- **`SpliceChecked`** to one of the two chains. -/
theorem bounded_toStreaming {source : Chain} (hsource : Chain.WF source) (h : Owns Bounded c) :
    Owns Bounded (toStreaming source c).1 ∧ Chain.WF (toStreaming source c).2.1 := by
  rcases spliceChecked_cases CramAuth.streamingChain (fun chain h => { h with streamingChain := chain }) source c with
    ⟨-, heq⟩ | ⟨-, -, heq⟩ | ⟨-, hroom, heq⟩
  · rw [toStreaming, heq]
    exact ⟨h, hsource⟩
  · rw [toStreaming, heq]
    exact ⟨owns_fail _ _ c h, hsource⟩
  · rw [Bool.eq_false_iff, ne_eq, h.streaming.wouldOverflow, Nat.not_lt, Chain.size_eq hsource] at hroom
    obtain ⟨hspliced, hleft⟩ := h.streaming.spliced hsource hroom
    rw [toStreaming, heq]
    exact ⟨⟨hspliced, h.pending⟩, (hleft 0).wf⟩

theorem bounded_toPending {source : Chain} (hsource : Chain.WF source) (h : Owns Bounded c) :
    Owns Bounded (toPending source c).1 := by
  rcases spliceChecked_cases CramAuth.pendingChain (fun chain h => { h with pendingChain := chain }) source c with
    ⟨-, heq⟩ | ⟨-, -, heq⟩ | ⟨-, hroom, heq⟩
  · rw [toPending, heq]
    exact h
  · rw [toPending, heq]
    exact owns_fail _ _ c h
  · rw [Bool.eq_false_iff, ne_eq, h.pending.wouldOverflow, Nat.not_lt, Chain.size_eq hsource] at hroom
    rw [toPending, heq]
    exact ⟨h.streaming, (h.pending.spliced hsource hroom).1⟩

/-- What is left of `pending_chain_` is what it was, or nothing. -/
theorem bounded_splicePending (h : Owns Bounded c) : Owns Bounded (splicePending c).1 := by
  rcases spliceChecked_cases CramAuth.streamingChain (fun chain h => { h with streamingChain := chain })
    c.own.pendingChain c with ⟨-, heq⟩ | ⟨-, -, heq⟩ | ⟨-, hroom, heq⟩
  · rw [splicePending, toStreaming, heq]
    exact h
  · have hfail := owns_fail .bufferOverflow "Binary buffer overflow" c h
    rw [splicePending, toStreaming, heq]
    exact ⟨hfail.streaming, h.pending⟩
  · rw [Bool.eq_false_iff, ne_eq, h.streaming.wouldOverflow, Nat.not_lt, Chain.size_eq h.pending.wf] at hroom
    obtain ⟨hspliced, hleft⟩ := h.streaming.spliced h.pending.wf hroom
    rw [splicePending, toStreaming, heq]
    exact ⟨hspliced, hleft _⟩

section Deliver

variable {deliver : Component CramAuth → Component CramAuth} (hd : Callbacks.Keeps (Owns Bounded) deliver)
include hd

theorem bounded_offer (h : Owns Bounded c) : Owns Bounded (offer deliver c) := hd _ ⟨h.streaming, h.pending⟩

theorem bounded_forwardBinaryData {data : Chain} (hdata : Chain.WF data) (h : Owns Bounded c) :
    Owns Bounded (forwardBinaryData deliver data c).1 := by
  have hpending := bounded_splicePending h
  have hstreaming := (bounded_toStreaming hdata hpending).1
  rw [forwardBinaryData]
  simp only
  split
  · exact hpending
  · show Owns Bounded (if _ then _ else _)
    split
    · exact bounded_offer hd hstreaming
    · exact hstreaming

theorem bounded_onBinaryData {data : Chain} (hdata : Chain.WF data) (h : Owns Bounded c) :
    Owns Bounded (onBinaryData deliver data c).1 := by
  rw [onBinaryData]
  split
  · exact bounded_toPending hdata h
  · exact bounded_forwardBinaryData hd hdata h

theorem bounded_processPending (h : Owns Bounded c) : Owns Bounded (processPending deliver c) := by
  have hpending := bounded_splicePending h
  rw [processPending]
  split
  · exact hpending
  · exact owns_forwardData (fun _ hc => bounded_offer hd hc) CramAuth.streamingChain hpending

theorem bounded_flushAndComplete (h : Owns Bounded c) : Owns Bounded (flushAndComplete deliver c) := by
  have hpending := bounded_splicePending h
  have hflush := owns_completeWithFlush (fun _ hc => bounded_offer hd hc) CramAuth.streamingChain hpending
  rw [flushAndComplete]
  simp only
  split
  · exact hpending
  split
  · exact hflush.requestClose
  · exact hflush

/-! ### The text phase -/

/-- **The rest of the line buffer** is appended if it fits. -/
theorem bounded_leftover (h : Owns Bounded c) : Owns Bounded (leftover deliver c) := by
  rw [leftover]
  split
  · exact owns_fail _ _ c h
  rename_i hroom
  rw [h.streaming.sizeSub_lt, Nat.not_lt] at hroom
  have happend : Owns Bounded (update (fun h =>
      { h with
        streamingChain := Chain.appendBytes h.streamingChain h.lineBuffer
        lineBuffer := [] }) c) := ⟨h.streaming.appendedBytes hroom, h.pending⟩
  simp only
  split
  · exact happend
  · exact bounded_offer hd happend

variable (sha256 : List Byte → List Byte)

theorem bounded_processLineBuffer (fuel : ℕ) (h : Owns Bounded c) :
    Owns Bounded (processLineBuffer deliver sha256 fuel c) := by
  induction fuel generalizing c with
  | zero => exact h
  | succ fuel ih =>
    rw [processLineBuffer]
    split
    · exact h
    rename_i before _ _
    simp only
    generalize (if before.getLast? = some 13 then before.dropLast else before) = line
    have hline := processLine_preserves owns_update owns_fail sha256 line h
    have hdrop : Owns Bounded (update (fun h => { h with lineBuffer := h.lineBuffer.drop (before.length + 1) })
        (processLine sha256 line c)) := ⟨hline.streaming, hline.pending⟩
    split
    · exact bounded_leftover hd hdrop
    · exact ih hdrop

theorem bounded_textLoop (fuel : ℕ) {data : Chain} (hdata : Chain.WF data) (h : Owns Bounded c) :
    Owns Bounded (textLoop deliver sha256 fuel data c).1 := by
  have hbyte : ∀ (b : Byte) {d : Component CramAuth}, Owns Bounded d → Owns Bounded (textByte deliver sha256 b d) := by
    intro b d hb
    have hpush : Owns Bounded (update (fun h => { h with lineBuffer := h.lineBuffer ++ [b] }) d) :=
      ⟨hb.streaming, hb.pending⟩
    rw [textByte]
    split
    · exact bounded_processLineBuffer hd sha256 _ hpush
    · exact hpush
  induction fuel generalizing data c with
  | zero => exact h
  | succ fuel ih =>
    have hrest := Chain.wf_consumed hdata 1
    rw [textLoop]
    split
    · exact h
    simp only
    split
    · exact owns_fail _ _ c h
    split
    · rw [handleRemainingData]
      split
      · exact hbyte _ h
      · exact bounded_onBinaryData hd hrest (hbyte _ h)
    · exact ih hrest (hbyte _ h)

theorem bounded_onData {data : Chain} (hdata : Chain.WF data) (h : Owns Bounded c) :
    Owns Bounded (onData deliver sha256 data c).1 := by
  have henter : Owns Bounded c.enter := h
  rw [onData]
  split
  · exact h
  refine Owns.of_eq ?_ (Component.leave_own _)
  split
  · exact bounded_onBinaryData hd hdata henter
  · exact bounded_textLoop hd sha256 _ hdata henter

theorem bounded_onDone : Callbacks.Keeps (Owns Bounded) (onDone deliver) := by
  refine keeps_guarded fun c h => ?_
  split
  · exact owns_fail _ _ c h
  split
  · exact h.of_eq rfl
  · exact bounded_flushAndComplete hd h

end Deliver

/-- **Every call keeps the limits.** -/
theorem handlers_keep (sha256 : List Byte → List Byte) : (handlers sha256).Keep Bounded where
  onData hd _ hwf _ h := bounded_onData hd sha256 hwf h
  onDone hd := bounded_onDone hd
  processPending hd _ h := bounded_processPending hd h
  flushAndComplete hd _ h := bounded_flushAndComplete hd h
  doClose _ _ _ := ⟨.cleared _ _, .cleared _ _⟩
  consume _ _ h := ⟨h.streaming.consumed _, h.pending⟩
  extra _ x c h := by
    cases x with
    | subscribe p => exact subscribe_preserves owns_update owns_fail p h
    | startStreaming => exact startStreaming_preserves owns_update h

theorem bounded_new (apiKey dataset : List Byte) : Owns Bounded (newCramAuth apiKey dataset) :=
  ⟨.empty _ none, .empty _ none⟩

/-! ### The checks -/

/-- What a splice and the rest of the line buffer report. -/
def binaryOverflow : Error := { code := .bufferOverflow, message := "Binary buffer overflow" }

/-- The checks on `streaming_chain_` and `pending_chain_` do not wrap around, and what does not fit is refused. -/
structure Guarded (c : Component CramAuth) : Prop where
  streaming : Exact kMaxPendingData c.own.streamingChain
  pending : Exact kMaxPendingData c.own.pendingChain
  toStreaming : ∀ source, source.empty = false →
    kMaxPendingData < (Chain.bytes c.own.streamingChain).length + source.size →
    Declined binaryOverflow c (toStreaming source c).1
  toPending : ∀ source, source.empty = false →
    kMaxPendingData < (Chain.bytes c.own.pendingChain).length + source.size →
    Declined binaryOverflow c (toPending source c).1
  leftover : ∀ deliver, kMaxPendingData < (Chain.bytes c.own.streamingChain).length + c.own.lineBuffer.length →
    Declined binaryOverflow c (leftover deliver c)

theorem Bounded.guarded (h : Owns Bounded c) : Guarded c where
  streaming := h.streaming.exact
  pending := h.pending.exact
  toStreaming source he hover := by
    have hfull := (h.streaming.wouldOverflow source.size).mpr hover
    rw [Live.toStreaming, spliceChecked, he, hfull]
    exact declined _ _
  toPending source he hover := by
    have hfull := (h.pending.wouldOverflow source.size).mpr hover
    rw [Live.toPending, spliceChecked, he, hfull]
    exact declined _ _
  leftover deliver hover := by
    rw [Live.leftover, if_pos ((h.streaming.sizeSub_lt _).mpr hover)]
    exact declined _ _

end DbnPipe.Live
