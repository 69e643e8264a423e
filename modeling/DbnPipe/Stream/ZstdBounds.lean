import DbnPipe.Stream.BufferBounds
import DbnPipe.Stream.ZstdDecompressor

/-!
# The limits of ZstdDecompressor

* `Bounded` — `output_chain_` and `pending_input_` stay within their limits;
* `bounded_chunkLoop` … `bounded_doneBody` — **every function keeps it**, if the downstream does;
* `handlers`, `handlers_keep` — so does every call;
* `Guarded` — what the checks do in such a state: none wraps around, and what does not fit is refused.
-/

namespace DbnPipe.Zstd

open Callbacks

variable {Z : ZstdDecoder} {δ : Type}

/-- The buffers are within their limits. -/
structure Bounded (h : ZstdDecompressor Z δ) : Prop where
  output : Within kMaxBufferedOutput h.outputChain
  pending : Within kMaxPendingInput h.pendingInput
  input : Chain.WF h.input

/-- The calls of the stage in front on the chain of the running call, grown by some segments. -/
def handlers (Z : ZstdDecoder) (δ : Type) : Handlers (ZstdDecompressor Z δ) where
  Extra := List Segment
  onData := onData
  onDone := onDone
  processPending := processPending
  flushAndComplete := flushAndComplete
  doClose _ := doClose
  consume := consume
  extra deliver segments c := onData deliver (segments.foldl (BufferChain.append id) c.own.input) c

variable {c : Component (ZstdDecompressor Z δ)}

/-! ### The functions -/

theorem bounded_consumeSource (src : Source) (n : ℕ) (h : Owns Bounded c) : Owns Bounded (consumeSource src n c) := by
  obtain ⟨houtput, hpending, hinput⟩ := h
  cases src with
  | input => exact ⟨houtput, hpending, Chain.wf_consumed hinput n⟩
  | pending => exact ⟨houtput, hpending.consumed n, hinput⟩

theorem owns_fail (code : ErrorCode) (message : String) (h : Owns Bounded c) :
    Owns Bounded (fail code message c) := Owns.fail h _

theorem Bounded.absorb {input : List Byte} {cap : ℕ} (t : Decoded Z.State input cap) (h : Owns Bounded c) :
    Owns Bounded (absorb t (recordCall c)) := ⟨h.output, h.pending, h.input⟩

section Deliver

variable {deliver : Component (ZstdDecompressor Z δ) → Component (ZstdDecompressor Z δ)}
  (hd : Keeps (Owns Bounded) deliver)
include hd

/-- **The loop over a chunk**: a piece is appended if it fits. -/
theorem bounded_chunkLoop (chunk : List Byte) (fuel pos : ℕ) (h : Owns Bounded c) :
    Owns Bounded (chunkLoop deliver chunk fuel pos c).1 := by
  induction fuel generalizing pos c with
  | zero => exact h
  | succ fuel ih =>
    rw [chunkLoop]
    split
    · exact h
    split
    · exact h
    simp only
    split
    · exact owns_fail _ _ ⟨h.output, h.pending, h.input⟩
    rename_i t _
    have habsorb := Bounded.absorb t h
    split
    · exact ih _ habsorb
    split
    · exact owns_fail _ _ habsorb
    rename_i hroom
    rw [habsorb.output.sizeSub_lt, Nat.not_lt] at hroom
    have happend : Owns Bounded (appendOutput t (Zstd.absorb t (recordCall c))) :=
      ⟨habsorb.output.appended hroom, habsorb.pending, habsorb.input⟩
    have hforward := owns_forwardData hd ZstdDecompressor.outputChain happend
    split
    · exact hforward
    · exact ih _ hforward

/-- **The loop over a chain.** -/
theorem bounded_chainLoop (src : Source) (fuel : ℕ) (h : Owns Bounded c) :
    Owns Bounded (chainLoop deliver src fuel c).1 := by
  induction fuel generalizing c with
  | zero => exact h
  | succ fuel ih =>
    rw [chainLoop]
    split
    · exact h
    split
    · exact h
    rename_i s pos _
    have hchunk := bounded_chunkLoop hd ((s.bytes.drop pos).take ((src.get c.own).contiguousSize id))
      (chunkFuel c.own ((s.bytes.drop pos).take ((src.get c.own).contiguousSize id))) 0 h
    simp only
    split
    · exact ih (bounded_consumeSource src _ hchunk)
    · exact bounded_consumeSource src _ hchunk
    · exact hchunk

theorem bounded_decompressChain (src : Source) (h : Owns Bounded c) :
    Owns Bounded (decompressChain deliver src c).1 := by
  rw [decompressChain]
  split
  · exact owns_fail _ _ h
  split
  · exact h
  · exact bounded_chainLoop hd src _ h

omit hd in
/-- **`CopyToPendingInput`** asks again before each segment. -/
theorem bounded_copyToPendingInput (fuel : ℕ) (h : Owns Bounded c) : Owns Bounded (copyToPendingInput fuel c) := by
  induction fuel generalizing c with
  | zero => exact h
  | succ fuel ih =>
    rw [copyToPendingInput]
    split
    · exact h
    split
    · exact owns_fail _ _ h
    rename_i hroom
    have hsize := Chain.size_eq h.input
    rw [h.pending.sizeSub_lt, Nat.not_lt, hsize] at hroom
    have hcopy : ((c.own.input.copyTo id 0 (min (c.own.input.contiguousSize id) Segment.kSize)).take
        Segment.kSize).length ≤ (Chain.bytes c.own.input).length := by
      rw [BufferChain.copyTo_eq, List.length_take, List.length_take, List.length_drop]
      show min _ (min _ ((Chain.bytes c.own.input).length - 0)) ≤ _
      omega
    refine ih (bounded_consumeSource .input _ ⟨h.output, h.pending.appended ?_, h.input⟩)
    rw [Segment.bytes_fill]
    omega

/-- `OnData` under its guard. -/
theorem bounded_dataBody (h : Owns Bounded c) : Owns Bounded (dataBody deliver c) := by
  rw [dataBody]
  split
  · split
    · exact owns_fail _ _ h
    rename_i hroom
    rw [h.pending.wouldOverflow, Nat.not_lt, Chain.size_eq h.input] at hroom
    obtain ⟨hspliced, hleft⟩ := h.pending.spliced h.input hroom
    exact bounded_decompressChain hd .pending ⟨h.output, hspliced, (hleft 0).wf⟩
  · have hchain := bounded_decompressChain hd .input h
    simp only
    split
    · exact hchain
    split
    · exact bounded_copyToPendingInput _ hchain
    · exact hchain

theorem bounded_onData {data : Chain} (hdata : Chain.WF data) (h : Owns Bounded c) :
    Owns Bounded (onData deliver data c) :=
  keeps_guarded (fun c h => bounded_dataBody hd (c := receive data c) ⟨h.output, h.pending, hdata⟩) c h

theorem bounded_processPendingData (h : Owns Bounded c) : Owns Bounded (processPendingData deliver c).1 := by
  rw [processPendingData]
  split
  · exact h
  · exact bounded_decompressChain hd .pending h

theorem bounded_processPending (h : Owns Bounded c) : Owns Bounded (processPending deliver c) := by
  have hforward := owns_forwardData hd ZstdDecompressor.outputChain h
  rw [processPending]
  split
  · exact hforward
  · exact bounded_processPendingData hd hforward

theorem bounded_complete (h : Owns Bounded c) : Owns Bounded (complete deliver c) := by
  have hflush := owns_completeWithFlush hd ZstdDecompressor.outputChain h
  rw [complete]
  split
  · exact owns_fail _ _ h
  simp only
  split
  · exact hflush.requestClose
  · exact hflush

/-- How `OnDone` goes on behind the pending input. -/
theorem bounded_behind {r : Component (ZstdDecompressor Z δ) × DecompressResult} (h : Owns Bounded r.1) :
    Owns Bounded (match r.2 with
      | .error => r.1
      | .suspended => r.1.deferOnDone
      | .complete => complete deliver r.1) := by
  split
  · exact h
  · exact h.of_eq rfl
  · exact bounded_complete hd h

theorem bounded_flushAndComplete (h : Owns Bounded c) : Owns Bounded (flushAndComplete deliver c) :=
  bounded_behind hd (bounded_processPendingData hd h)

theorem bounded_doneBody (h : Owns Bounded c) : Owns Bounded (doneBody deliver c) := by
  rw [doneBody]
  split
  · exact h.of_eq rfl
  split
  · exact bounded_behind hd (bounded_decompressChain hd .pending h)
  · exact bounded_complete hd h

end Deliver

/-- **Every call keeps the limits.** -/
theorem handlers_keep (Z : ZstdDecoder) (δ : Type) : (handlers Z δ).Keep Bounded where
  onData hd _ hwf _ h := bounded_onData hd hwf h
  onDone hd := keeps_guarded fun _ h => bounded_doneBody hd h
  processPending hd _ h := bounded_processPending hd h
  flushAndComplete hd _ h := bounded_flushAndComplete hd h
  doClose _ _ h := ⟨.cleared _ _, .cleared _ _, h.input⟩
  consume _ _ h := ⟨h.output.consumed _, h.pending, h.input⟩
  extra hd segments _ h := bounded_onData hd (Chain.appendAll_spec h.input segments).1 h

theorem bounded_new (Z : ZstdDecoder) (next : δ) : Owns Bounded (newZstdDecompressor Z next) :=
  ⟨.empty _ none, .empty _ none, Chain.wf_empty none⟩

/-! ### The checks -/

/-- What `CopyToPendingInput` and the splice in `OnData` report. -/
def inputOverflow : Error := { code := .decompressionError, message := "Decompressor input buffer overflow" }

/-- The checks on `output_chain_` and `pending_input_` do not wrap around, and what does not fit is refused. -/
structure Guarded (c : Component (ZstdDecompressor Z δ)) : Prop where
  output : Exact kMaxBufferedOutput c.own.outputChain
  pending : Exact kMaxPendingInput c.own.pendingInput
  decompress : ∀ deliver chunk fuel pos s (t : Decoded Z.State (chunk.drop pos) Segment.kSize), pos < chunk.length →
    c.own.dstream = some s → Z.decompressStream s (chunk.drop pos) Segment.kSize = .ok t →
    t.produced.length ≠ 0 → kMaxBufferedOutput < (Chain.bytes c.own.outputChain).length + t.produced.length →
    Declined { code := .bufferOverflow, message := "Decompressed output buffer overflow" } (absorb t (recordCall c))
      (chunkLoop deliver chunk (fuel + 1) pos c).1
  copy : ∀ fuel, c.own.input.empty = false →
    kMaxPendingInput < (Chain.bytes c.own.pendingInput).length + c.own.input.size →
    Declined inputOverflow c (copyToPendingInput (fuel + 1) c)
  splice : ∀ deliver, c.own.pendingInput.empty = false →
    kMaxPendingInput < (Chain.bytes c.own.pendingInput).length + c.own.input.size →
    Declined inputOverflow c (dataBody deliver c)

theorem Bounded.guarded (h : Owns Bounded c) : Guarded c where
  output := h.output.exact
  pending := h.pending.exact
  decompress deliver chunk fuel pos s t hpos hs ht hne hover := by
    have hfull : sizeSub kMaxBufferedOutput (Zstd.absorb t (recordCall c)).own.outputChain.size < t.produced.length :=
      (h.output.sizeSub_lt t.produced.length).mpr hover
    rw [chunkLoop, if_neg (Nat.not_le.mpr hpos), hs]
    simp only [ht]
    rw [if_neg hne, if_pos hfull]
    exact declined _ _
  copy fuel he hover := by
    rw [copyToPendingInput, if_neg (by rw [he]; exact Bool.false_ne_true),
      if_pos ((h.pending.sizeSub_lt _).mpr hover)]
    exact declined _ _
  splice deliver he hover := by
    rw [dataBody, he, Bool.not_false, if_pos rfl, if_pos ((h.pending.wouldOverflow _).mpr hover)]
    exact declined _ _

end DbnPipe.Zstd
