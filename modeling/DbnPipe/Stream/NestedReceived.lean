import DbnPipe.Stream.ZstdReceived
import DbnPipe.Stream.ZstdReentrant

/-!
# What ZstdDecompressor receives inside its own calls

* `Told` — the bytes received are those that the upstream gave while the component was open;
* `told_dataIn` … `told_resumeIn` — every function keeps it, **if the downstream does**;
* `told_downstream` — and the downstream does, at every depth;
* `told_run` — so it holds over every run.
-/

namespace DbnPipe.Zstd.Nested

open Callbacks

variable {Z : ZstdDecoder} {c : Stage Z}

/-- What was received is what was given. -/
def Told (h : ZstdDecompressor Z Env) : Prop := h.received = h.next.given

theorem beside_told : Beside (Told (Z := Z)) := fun h hreceived hnext => by
  rw [Told, hreceived, hnext]
  exact h

theorem told_note (h : Owns Told c) : Owns Told (note c) := h

theorem told_enterPending (busy : Bool) (h : Owns Told c) : Owns Told (enterPending busy c) := by
  rw [enterPending]
  split <;> exact h

/-! ### The functions -/

section Calls

variable {D : Bool → Stage Z → Stage Z} (hd : ∀ busy, Keeps (Owns Told) (D busy)) (busy : Bool)
include hd

theorem told_pending (h : Owns Told c) : Owns Told (processPendingData (D true) (enterPending busy c)).1 :=
  beside_processPendingData beside_told (hd true) (told_enterPending busy h)

theorem told_processPendingIn : Keeps (Owns Told) (processPendingIn D busy) := by
  intro c h
  have hforward := owns_forwardData (hd busy) ZstdDecompressor.outputChain h
  rw [processPendingIn]
  split
  · exact hforward
  · exact told_pending hd busy hforward

theorem told_flushAndCompleteIn : Keeps (Owns Told) (flushAndCompleteIn D busy) := fun _ h =>
  beside_behind (hd busy) (told_pending hd busy h)

/-- **An `OnData`**: what is given is received. -/
theorem told_dataIn (segments : List Segment) (h : Owns Told c) :
    Owns Told (dataIn D busy segments (give segments c)) := by
  rw [dataIn, Component.guarded, give]
  cases hc : c.closed with
  | true =>
    simp only [if_true, hc]
    exact h
  | false =>
    have hgiven : ∀ d : Stage Z, Owns Told d → Owns Told (receiveMore segments
        (update (fun h => { h with next := { h.next with given := h.next.given ++ segments.flatMap (·.bytes) } }) d)) :=
      fun d hd => congrArg (· ++ segments.flatMap (·.bytes)) hd
    simp only [Bool.false_eq_true, if_false]
    rw [if_neg (by simp [update, hc])]
    refine Owns.of_eq ?_ (Component.leave_own _)
    refine beside_dataBody beside_told (hd true) ?_
    cases busy with
    | true => exact hgiven (note c.enter) (told_note h)
    | false => exact hgiven c.enter h

theorem told_doneIn : Keeps (Owns Told) (doneIn D busy) := by
  refine keeps_guarded fun c h => ?_
  rw [doneBodyIn]
  split
  · exact h.of_eq rfl
  split
  · exact beside_behind (hd busy) (beside_decompressChain beside_told (hd true) .pending (told_enterPending busy h))
  · exact beside_complete (hd busy) h

theorem told_deliverIn (x : Delivery) (h : Owns Told c) : Owns Told (deliverIn D busy x c) := by
  cases x with
  | data segments => exact told_dataIn hd busy segments h
  | done => exact told_doneIn hd busy c h
  | error e => exact keeps_propagateError e c h

theorem told_deliverAll (deliveries : List Delivery) (h : Owns Told c) : Owns Told (deliverAll D busy deliveries c) := by
  induction deliveries generalizing c with
  | nil => exact h
  | cons x deliveries ih => exact ih (told_deliverIn hd busy x h)

theorem told_resumeUpstreamIn (deliveries : List Delivery) : Keeps (Owns Told) (resumeUpstreamIn D busy deliveries) := by
  intro c h
  rw [resumeUpstreamIn]
  split
  · exact h
  · refine told_deliverAll hd busy deliveries (h.of_eq ?_)
    rw [Component.resumeUpstream]
    split <;> rfl

/-- **`Resume`**, with what the upstream gives inside. -/
theorem told_resumeIn (deliveries : List Delivery) : Keeps (Owns Told) (resumeIn D busy deliveries) := by
  have hdeferred : Keeps (Owns Told) (Component.completeDeferred (flushAndCompleteIn D busy)) := by
    intro c h
    rw [Component.completeDeferred]
    split
    · exact told_flushAndCompleteIn hd busy _ (h.of_eq rfl)
    · exact h
  intro c h
  rw [resumeIn]
  dsimp only
  split
  · split
    · exact hdeferred _ (h.of_eq rfl)
    · have hprocess := told_processPendingIn hd busy _
        (h.of_eq (d := Component.enter { c with suspendCount := c.suspendCount - 1 }) rfl)
      exact (hdeferred _ (told_resumeUpstreamIn hd busy deliveries _ hprocess)).of_eq (Component.leave_own _)
  · exact h.of_eq rfl

end Calls

/-! ### The downstream, and runs -/

/-- The acts of one call. -/
theorem told_takeTurn {again : List Delivery → Stage Z → Stage Z} (hagain : ∀ deliveries, Keeps (Owns Told) (again deliveries)) :
    Keeps (Owns Told) (takeTurn again) := by
  have hact : ∀ a, Keeps (Owns Told) (act again a) := fun a c h => by
    cases a with
    | consume n => exact h
    | suspend => exact h.of_eq c.suspend_own
    | resume deliveries =>
      rw [act]
      split
      · exact hagain deliveries c h
      · exact h
    | close => exact h.requestClose
  have hacts : ∀ acts : List Act, Keeps (Owns Told) (acts.foldl fun c a => act again a c) := by
    intro acts
    induction acts with
    | nil => exact fun _ h => h
    | cons a acts ih => exact fun c h => ih _ (hact a c h)
  exact fun c h => hacts _ _ h

/-- **At every depth.** -/
theorem told_downstream (depth : ℕ) (busy : Bool) : Keeps (Owns Told) (downstream (Z := Z) depth busy) := by
  induction depth generalizing busy with
  | zero => exact told_takeTurn fun _ _ h => h
  | succ depth ih => exact told_takeTurn fun deliveries => told_resumeIn ih busy deliveries

theorem told_step (depth : ℕ) (h : Owns Told c) (i : Input) : Owns Told (step depth c i) := by
  have hd := told_downstream (Z := Z) depth
  cases i with
  | delivery x => exact told_deliverIn hd false x h
  | suspend => exact h.of_eq c.suspend_own
  | resume deliveries =>
    rw [step]
    split
    · exact told_resumeIn hd false deliveries c h
    · exact h
  | requestClose => exact h.requestClose
  | runClose =>
    rw [step]
    split <;> exact h

theorem told_run (depth : ℕ) (script : List (List Act)) (inputs : List Input) :
    Owns Told (Runs.run (step depth) (newStage Z script) inputs) := by
  have hstep : ∀ (c : Stage Z) i, Owns Told c → Owns Told (step depth c i) := fun _ i h => told_step depth h i
  have hstart : Owns Told (newStage Z script) := rfl
  exact Runs.run_invariant hstep hstart inputs

end DbnPipe.Zstd.Nested
