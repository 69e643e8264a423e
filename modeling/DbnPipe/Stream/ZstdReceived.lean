import DbnPipe.Library.Runs
import DbnPipe.Stream.Handlers
import DbnPipe.Stream.ZstdDecompressor

/-!
# What ZstdDecompressor receives

The bytes that are counted as received are those of the inputs, and only `OnData` counts them.

* `Beside` — a property that the bytes received and the stage behind decide;
* `beside_chunkLoop` … `beside_doneBody` — **every function keeps it**, if the downstream does;
* `Input.taken`, `takenBy` — the bytes that the inputs bring while the component is open;
* `received_run` — over every run, these are **the bytes received**.
-/

namespace DbnPipe.Zstd

open Callbacks

variable {Z : ZstdDecoder} {δ : Type}

/-- Only the bytes received and the stage behind decide the property. -/
def Beside (P : ZstdDecompressor Z δ → Prop) : Prop :=
  ∀ {h h' : ZstdDecompressor Z δ}, P h → h'.received = h.received → h'.next = h.next → P h'

variable {P : ZstdDecompressor Z δ → Prop} (hP : Beside P) {c : Component (ZstdDecompressor Z δ)}

/-! ### The functions -/

section Functions

include hP

theorem beside_consumeSource (src : Source) (n : ℕ) (h : Owns P c) : Owns P (consumeSource src n c) := by
  cases src <;> exact hP h rfl rfl

theorem beside_absorb {input : List Byte} {cap : ℕ} (t : Decoded Z.State input cap) (h : Owns P c) :
    Owns P (absorb t (recordCall c)) := hP h rfl rfl

theorem beside_copyToPendingInput (fuel : ℕ) (h : Owns P c) : Owns P (copyToPendingInput fuel c) := by
  induction fuel generalizing c with
  | zero => exact h
  | succ fuel ih =>
    rw [copyToPendingInput]
    split
    · exact h
    split
    · exact Owns.fail h _
    · exact ih (beside_consumeSource hP .input _ (hP h rfl rfl))

section Deliver

variable {deliver : Component (ZstdDecompressor Z δ) → Component (ZstdDecompressor Z δ)} (hd : Keeps (Owns P) deliver)
include hd

theorem beside_chunkLoop (chunk : List Byte) (fuel pos : ℕ) (h : Owns P c) :
    Owns P (chunkLoop deliver chunk fuel pos c).1 := by
  induction fuel generalizing pos c with
  | zero => exact h
  | succ fuel ih =>
    rw [chunkLoop]
    split
    · exact h
    split
    · exact h
    simp only
    split
    · exact Owns.fail (c := recordCall c) (hP h rfl rfl) _
    rename_i t _
    have habsorb := beside_absorb hP t h
    split
    · exact ih _ habsorb
    split
    · exact Owns.fail habsorb _
    have happend : Owns P (appendOutput t (absorb t (recordCall c))) := hP habsorb rfl rfl
    have hforward := owns_forwardData hd ZstdDecompressor.outputChain happend
    split
    · exact hforward
    · exact ih _ hforward

theorem beside_chainLoop (src : Source) (fuel : ℕ) (h : Owns P c) : Owns P (chainLoop deliver src fuel c).1 := by
  induction fuel generalizing c with
  | zero => exact h
  | succ fuel ih =>
    rw [chainLoop]
    split
    · exact h
    split
    · exact h
    rename_i s pos _
    have hchunk := beside_chunkLoop hP hd ((s.bytes.drop pos).take ((src.get c.own).contiguousSize id))
      (chunkFuel c.own ((s.bytes.drop pos).take ((src.get c.own).contiguousSize id))) 0 h
    simp only
    split
    · exact ih (beside_consumeSource hP src _ hchunk)
    · exact beside_consumeSource hP src _ hchunk
    · exact hchunk

theorem beside_decompressChain (src : Source) (h : Owns P c) : Owns P (decompressChain deliver src c).1 := by
  rw [decompressChain]
  split
  · exact Owns.fail h _
  split
  · exact h
  · exact beside_chainLoop hP hd src _ h

/-- `OnData` under its guard, once the bytes are received. -/
theorem beside_dataBody (h : Owns P c) : Owns P (dataBody deliver c) := by
  rw [dataBody]
  split
  · split
    · exact Owns.fail h _
    · exact beside_decompressChain hP hd .pending (c := spliceInput c) (hP h rfl rfl)
  · have hchain := beside_decompressChain hP hd .input h
    simp only
    split
    · exact hchain
    split
    · exact beside_copyToPendingInput hP _ hchain
    · exact hchain

theorem beside_processPendingData (h : Owns P c) : Owns P (processPendingData deliver c).1 := by
  rw [processPendingData]
  split
  · exact h
  · exact beside_decompressChain hP hd .pending h

theorem beside_processPending (h : Owns P c) : Owns P (processPending deliver c) := by
  have hforward := owns_forwardData hd ZstdDecompressor.outputChain h
  rw [processPending]
  split
  · exact hforward
  · exact beside_processPendingData hP hd hforward

omit hP in
theorem beside_complete (h : Owns P c) : Owns P (complete deliver c) := by
  have hflush := owns_completeWithFlush hd ZstdDecompressor.outputChain h
  rw [complete]
  split
  · exact Owns.fail h _
  simp only
  split
  · exact hflush.requestClose
  · exact hflush

omit hP in
/-- How `OnDone` goes on behind the pending input. -/
theorem beside_behind {r : Component (ZstdDecompressor Z δ) × DecompressResult} (h : Owns P r.1) :
    Owns P (match r.2 with
      | .error => r.1
      | .suspended => r.1.deferOnDone
      | .complete => complete deliver r.1) := by
  split
  · exact h
  · exact h.of_eq rfl
  · exact beside_complete hd h

theorem beside_flushAndComplete (h : Owns P c) : Owns P (flushAndComplete deliver c) :=
  beside_behind hd (beside_processPendingData hP hd h)

theorem beside_doneBody (h : Owns P c) : Owns P (doneBody deliver c) := by
  rw [doneBody]
  split
  · exact h.of_eq rfl
  split
  · exact beside_behind hd (beside_decompressChain hP hd .pending h)
  · exact beside_complete hd h

end Deliver

end Functions

/-! ### Runs -/

/-- The bytes that an input brings to an open component. -/
def Input.taken (c : Component (ZstdDecompressor Z δ)) : Input → List Byte
  | .data segments => if c.closed then [] else segments.flatMap Segment.bytes
  | _ => []

/-- **The bytes of the inputs taken while open.** -/
def takenBy (deliver : Component (ZstdDecompressor Z δ) → Component (ZstdDecompressor Z δ)) :
    Component (ZstdDecompressor Z δ) → List Input → List Byte
  | _, [] => []
  | c, i :: inputs => i.taken c ++ takenBy deliver (step deliver c i) inputs

section Runs

variable {deliver : Component (ZstdDecompressor Z δ) → Component (ZstdDecompressor Z δ)}
  (hd : ∀ c, (deliver c).own.received = c.own.received)
include hd

theorem received_onData (segments : List Segment) (c : Component (ZstdDecompressor Z δ)) :
    (onData deliver (segments.foldl (BufferChain.append id) {}) c).own.received =
      c.own.received ++ Input.taken c (.data segments) := by
  have hbytes := (Chain.appendAll_spec (Chain.wf_empty none) segments).2
  rw [onData, Component.guarded, Input.taken]
  split
  · exact (List.append_nil _).symm
  · have hreceive : Owns (fun h => h.received = c.own.received ++ segments.flatMap Segment.bytes)
        (receive (segments.foldl (BufferChain.append id) {}) c.enter) :=
      congrArg (c.own.received ++ ·) hbytes
    rw [Component.leave_own]
    exact beside_dataBody (fun h hr _ => hr.trans h) (fun c h => (hd c).trans h) hreceive

/-- **One input.** -/
theorem received_step (c : Component (ZstdDecompressor Z δ)) (i : Input) :
    (step deliver c i).own.received = c.own.received ++ i.taken c := by
  have hP : Beside fun h : ZstdDecompressor Z δ => h.received = c.own.received := fun h hr _ => hr.trans h
  have hkeeps : Keeps (Owns fun h : ZstdDecompressor Z δ => h.received = c.own.received) deliver :=
    fun c h => (hd c).trans h
  have hsame : ∀ {d : Component (ZstdDecompressor Z δ)}, Owns (fun h => h.received = c.own.received) d →
      d.own.received = c.own.received ++ [] := fun h => (show _ = _ from h).trans (List.append_nil _).symm
  cases i with
  | data segments => exact received_onData hd segments c
  | done => exact hsame (keeps_guarded (fun _ h => beside_doneBody hP hkeeps h) c rfl)
  | error e => exact hsame (keeps_propagateError e c rfl)
  | suspend => exact hsame (Owns.of_eq (c := c) rfl c.suspend_own)
  | resume =>
    refine hsame ?_
    rw [step]
    split
    · exact keeps_resume (fun _ h => beside_processPending hP hkeeps h)
        (fun _ h => beside_flushAndComplete hP hkeeps h) c rfl
    · exact rfl
  | requestClose => exact hsame (Owns.requestClose (c := c) rfl)
  | runClose =>
    refine hsame ?_
    rw [step]
    split <;> exact rfl

/-- **What was received is what the inputs brought.** -/
theorem received_run (c : Component (ZstdDecompressor Z δ)) (inputs : List Input) :
    (Runs.run (step deliver) c inputs).own.received = c.own.received ++ takenBy deliver c inputs := by
  induction inputs generalizing c with
  | nil => exact (List.append_nil _).symm
  | cons i inputs ih => rw [Runs.run_cons, ih, received_step hd, List.append_assoc, takenBy]

end Runs

theorem suspendTimes_own (n : ℕ) (c : Component (ZstdDecompressor Z δ)) : (suspendTimes n c).own = c.own := by
  induction n generalizing c with
  | zero => rfl
  | succ n ih => rw [suspendTimes, ih, c.suspend_own]

/-- The downstream receives nothing for the component. -/
theorem received_answer (D : Downstream Z δ) (c : Component (ZstdDecompressor Z δ)) :
    (answer D c).own.received = c.own.received := by
  show (suspendTimes (D c).suspends _).own.received = c.own.received
  rw [suspendTimes_own]
  rfl

end DbnPipe.Zstd
