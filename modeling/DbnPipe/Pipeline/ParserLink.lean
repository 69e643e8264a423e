import DbnPipe.Dbn.ParserFollows

/-!
# A component linked to the parser behind it

The invariant between a component that hands a chain on and the `DbnParserComponent` that takes it, for any
component, and the rules for the calls of `PipelineComponent`.

* `View` — where the component keeps the chain, the bytes consumed of it and the parser;
* `Linked` — **the parser follows the chain**; `Running` — and `OnDone` was not given; `Resting` — as between
  two calls, where `OnDone`, once given, is the end;
* `running_error`, `resting_done`, `running_deliver` — the signals and an `OnData`;
* `resting_complete`, `resting_completeDeferred`, `resting_resume`, `resting_guarded` — the rules.
-/

namespace DbnPipe.Link

open Dbn

/-! ### The invariant -/

/-- Where a component keeps the bytes consumed, the chain and the parser; `ok` is what else holds of it. -/
structure View (σ : Type) where
  consumed : σ → List Byte
  chain : σ → Chain
  stage : σ → ParserStage
  ok : σ → Prop

variable {σ : Type} (D : Databento) (V : View σ)

/-- The parser follows the chain. -/
structure Linked (c : Component σ) : Prop where
  ok : V.ok c.own
  wf : Chain.WF (V.chain c.own)
  follows : Follows D (V.consumed c.own) (Chain.bytes (V.chain c.own)) c.signals (V.stage c.own)
  fresh : c.finalized = false → c.signals = []

/-- `OnDone` was not given. -/
structure Running (c : Component σ) : Prop extends Linked D V c where
  noDone : .done ∉ c.signals

/-- Between two calls: a component that has given `OnDone` is closed and defers none. -/
structure Resting (c : Component σ) : Prop extends Linked D V c where
  rests : .done ∈ c.signals → c.closed = true ∧ c.donePending = false

variable {D V} {c d : Component σ}

theorem Running.resting (h : Running D V c) : Resting D V c := ⟨h.toLinked, fun hd => absurd hd h.noDone⟩

/-- An open component is running. -/
theorem Resting.running (h : Resting D V c) (hopen : c.closed = false ∨ c.donePending = true) : Running D V c := by
  refine ⟨h.toLinked, fun hd => ?_⟩
  obtain ⟨h1, h2⟩ := h.rests hd
  rcases hopen with ho | ho
  · exact absurd (h1.symm.trans ho) (by simp)
  · exact absurd (h2.symm.trans ho) (by simp)

/-- What is beside the link. -/
theorem linked_beside (h : Linked D V c) (hsignals : d.signals = c.signals) (hfinalized : d.finalized = c.finalized)
    (hok : V.ok d.own) (hconsumed : V.consumed d.own = V.consumed c.own) (hchain : V.chain d.own = V.chain c.own)
    (hstage : V.stage d.own = V.stage c.own) : Linked D V d := by
  refine ⟨hok, ?_, ?_, ?_⟩
  · rw [hchain]; exact h.wf
  · rw [hsignals, hconsumed, hchain, hstage]; exact h.follows
  · rw [hsignals, hfinalized]; exact h.fresh

theorem running_beside (h : Running D V c) (hsignals : d.signals = c.signals) (hfinalized : d.finalized = c.finalized)
    (hok : V.ok d.own) (hconsumed : V.consumed d.own = V.consumed c.own) (hchain : V.chain d.own = V.chain c.own)
    (hstage : V.stage d.own = V.stage c.own) : Running D V d :=
  ⟨linked_beside h.toLinked hsignals hfinalized hok hconsumed hchain hstage, by rw [hsignals]; exact h.noDone⟩

/-- The invariant is about the component's own part, the signals and the finalized flag. -/
theorem linked_congr (h : Linked D V c) (hown : d.own = c.own) (hsignals : d.signals = c.signals)
    (hfinalized : d.finalized = c.finalized) : Linked D V d :=
  linked_beside h hsignals hfinalized (by rw [hown]; exact h.ok) (by rw [hown]) (by rw [hown]) (by rw [hown])

theorem running_congr (h : Running D V c) (hown : d.own = c.own) (hsignals : d.signals = c.signals)
    (hfinalized : d.finalized = c.finalized) : Running D V d :=
  ⟨linked_congr h.toLinked hown hsignals hfinalized, by rw [hsignals]; exact h.noDone⟩

theorem resting_congr (h : Resting D V c) (hown : d.own = c.own) (hsignals : d.signals = c.signals)
    (hfinalized : d.finalized = c.finalized) (hclosed : d.closed = c.closed)
    (hdone : d.donePending = c.donePending) : Resting D V d := by
  refine ⟨linked_congr h.toLinked hown hsignals hfinalized, ?_⟩
  rw [hsignals, hclosed, hdone]
  exact h.rests

theorem resting_leave (h : Resting D V c) : Resting D V c.leave :=
  resting_congr h c.leave_own c.leave_signals c.leave_finalized c.leave_closed c.leave_donePending

/-- New bytes arrive in the chain. -/
theorem running_arrive {x : List Byte} (h : Running D V c) (hsignals : d.signals = c.signals)
    (hfinalized : d.finalized = c.finalized) (hok : V.ok d.own) (hconsumed : V.consumed d.own = V.consumed c.own)
    (hwf : Chain.WF (V.chain d.own)) (hbytes : Chain.bytes (V.chain d.own) = Chain.bytes (V.chain c.own) ++ x)
    (hstage : V.stage d.own = V.stage c.own) : Running D V d := by
  refine ⟨⟨hok, hwf, ?_, ?_⟩, ?_⟩
  · rw [hsignals, hconsumed, hbytes, hstage]
    exact h.follows.arrive h.noDone x
  · rw [hsignals, hfinalized]; exact h.fresh
  · rw [hsignals]; exact h.noDone

/-- The chain is cleared behind a signal. -/
theorem resting_clear (h : Resting D V c) (hne : c.signals ≠ []) (hsignals : d.signals = c.signals)
    (hfinalized : d.finalized = c.finalized) (hclosed : d.closed = c.closed) (hdone : d.donePending = c.donePending)
    (hok : V.ok d.own) (hconsumed : V.consumed d.own = V.consumed c.own) (hwf : Chain.WF (V.chain d.own))
    (hbytes : Chain.bytes (V.chain d.own) = []) (hstage : V.stage d.own = V.stage c.own) : Resting D V d := by
  refine ⟨⟨hok, hwf, ?_, ?_⟩, ?_⟩
  · rw [hsignals, hconsumed, hbytes, hstage]
    exact h.follows.clear hne
  · rw [hsignals, hfinalized]; exact h.fresh
  · rw [hsignals, hclosed, hdone]; exact h.rests

/-! ### Signals -/

/-- **An error.** -/
theorem running_error (e : Error) (h : Running D V c) : Running D V (c.emitError e).requestClose := by
  have hown := (c.failed e).own
  have hfinalized := (c.failed e).finalized
  have hsignals := Component.signals_error c e
  cases hf : c.finalized with
  | true =>
    rw [hf, if_pos rfl] at hsignals
    exact running_congr h hown hsignals (hfinalized.trans hf.symm)
  | false =>
    have hnil := h.fresh hf
    rw [hf, if_neg Bool.false_ne_true, hnil, List.nil_append] at hsignals
    refine ⟨⟨?_, ?_, ?_, fun hfalse => ?_⟩, ?_⟩
    · rw [hown]; exact h.ok
    · rw [hown]; exact h.wf
    · rw [hown, hsignals]
      have hfollows := h.follows
      rw [hnil] at hfollows
      exact hfollows.signal_error e
    · rw [hfinalized] at hfalse
      exact absurd hfalse (by simp)
    · rw [hsignals]
      simp

/-- Behind `OnDone` an error is not given. -/
theorem resting_error (e : Error) (h : Resting D V c) : Resting D V (c.emitError e).requestClose := by
  by_cases hd : .done ∈ c.signals
  · have hf : c.finalized = true := by
      by_contra hf
      rw [h.fresh (by simpa using hf)] at hd
      exact absurd hd List.not_mem_nil
    rw [Component.error_of_closed (h.rests hd).1 hf]
    exact h
  · exact (running_error e ⟨h.toLinked, hd⟩).resting

/-- **The end**, with nothing in the chain. -/
theorem resting_done (h : Running D V c) (hempty : Chain.bytes (V.chain c.own) = [])
    (hdone : c.donePending = false) : Resting D V c.emitDone.requestClose := by
  have hown : c.emitDone.requestClose.own = c.own := by rw [Component.requestClose_own, Component.emitDone_own]
  have hfinalized : c.emitDone.requestClose.finalized = true := by
    obtain ⟨_, _, _, heq⟩ := c.emitDone.requestClose_eq
    rw [heq]
    exact c.emitDone_finalized
  have hsignals := Component.signals_done c
  have hrests : .done ∈ c.emitDone.requestClose.signals →
      c.emitDone.requestClose.closed = true ∧ c.emitDone.requestClose.donePending = false := fun _ =>
    ⟨Component.requestClose_closed _, (Component.done_donePending c).trans hdone⟩
  refine ⟨?_, hrests⟩
  cases hf : c.finalized with
  | true =>
    rw [hf, if_pos rfl] at hsignals
    exact linked_congr h.toLinked hown hsignals (hfinalized.trans hf.symm)
  | false =>
    have hnil := h.fresh hf
    rw [hf, if_neg Bool.false_ne_true, hnil, List.nil_append] at hsignals
    refine ⟨?_, ?_, ?_, fun hfalse => ?_⟩
    · rw [hown]; exact h.ok
    · rw [hown]; exact h.wf
    · have hfollows := h.follows
      rw [hnil, hempty] at hfollows
      rw [hown, hsignals, hempty]
      exact hfollows.signal_done
    · rw [hfinalized] at hfalse
      exact absurd hfalse (by simp)

/-! ### The parser is called -/

/-- What calls in which no end is given make of a component. -/
structure Delivered (D : Databento) (V : View σ) (c d : Component σ) : Prop where
  running : Running D V d
  donePending : d.donePending = c.donePending

theorem Delivered.refl (h : Running D V c) : Delivered D V c c := ⟨h, rfl⟩

theorem Delivered.trans {e : Component σ} (h : Delivered D V c d) (h' : Delivered D V d e) : Delivered D V c e :=
  ⟨h'.running, h'.donePending.trans h.donePending⟩

theorem delivered_error (e : Error) (h : Running D V c) : Delivered D V c (c.emitError e).requestClose :=
  ⟨running_error e h, (c.failed e).donePending⟩

/-- **An `OnData` of the parser.** -/
theorem running_deliver (h : Running D V c) {taken : ParserStage.Taken}
    (htaken : taken = ((V.stage c.own).hear c.signals).take D (V.chain c.own)) (hsignals : d.signals = c.signals)
    (hfinalized : d.finalized = c.finalized) (hok : V.ok d.own) (hwf : Chain.WF (V.chain d.own))
    (hconsumed : V.consumed d.own = V.consumed c.own ++ (Chain.bytes (V.chain c.own)).take taken.consumed)
    (hbytes : Chain.bytes (V.chain d.own) = (Chain.bytes (V.chain c.own)).drop taken.consumed)
    (hstage : V.stage d.own = taken.stage) : Running D V d := by
  refine ⟨⟨hok, hwf, ?_, ?_⟩, ?_⟩
  · rw [hsignals, hconsumed, hbytes, hstage, htaken]
    exact h.follows.take h.wf h.noDone
  · rw [hfinalized, hsignals]; exact h.fresh
  · rw [hsignals]; exact h.noDone

section Calls

variable {deliver processPending flushAndComplete : Component σ → Component σ}

theorem delivered_forwardData (hdeliver : ∀ c, Running D V c → Delivered D V c (deliver c)) (h : Running D V c) :
    Delivered D V c (c.forwardData V.chain deliver).1 := by
  rw [Component.forwardData]
  split
  · exact .refl h
  · exact hdeliver c h

/-- **`CompleteWithFlush` and closing.** -/
theorem resting_complete (hdeliver : ∀ c, Running D V c → Delivered D V c (deliver c)) (h : Running D V c)
    (hdone : c.donePending = false) :
    Resting D V (if (c.completeWithFlush V.chain deliver).2 then (c.completeWithFlush V.chain deliver).1.requestClose
      else (c.completeWithFlush V.chain deliver).1) := by
  simp only [Component.completeWithFlush, Component.flushPendingData]
  cases he : (V.chain c.own).empty with
  | true => exact resting_done h ((Chain.empty_iff h.wf).mp he) hdone
  | false =>
    have hd := hdeliver c h
    simp only [Bool.false_eq_true, if_false]
    cases hs : (deliver c).suspended with
    | true =>
      have hdefer : Running D V (deliver c).deferOnDone := running_congr hd.running rfl rfl rfl
      exact hdefer.resting
    | false =>
      cases hde : (V.chain (deliver c).own).empty with
      | true => exact resting_done hd.running ((Chain.empty_iff hd.running.wf).mp hde) (hd.donePending.trans hdone)
      | false => exact (running_error _ hd.running).resting

/-- The deferred `OnDone` at the end of a `Resume`. -/
theorem resting_completeDeferred
    (hflush : ∀ c, Running D V c → c.donePending = false → Resting D V (flushAndComplete c)) (h : Resting D V c) :
    Resting D V (c.completeDeferred flushAndComplete) := by
  rw [Component.completeDeferred]
  split
  · rename_i hcond
    exact hflush _ (running_congr (h.running (.inr hcond.1)) rfl rfl rfl) rfl
  · exact h

/-- **`Resume`.** -/
theorem resting_resume (hprocess : ∀ c, Running D V c → Running D V (processPending c))
    (hflush : ∀ c, Running D V c → c.donePending = false → Resting D V (flushAndComplete c)) (h : Resting D V c) :
    Resting D V (c.resume processPending flushAndComplete) := by
  by_cases hone : c.suspendCount = 1
  · cases hclosed : c.closed with
    | true =>
      rw [Component.resume_of_closed hone hclosed]
      exact resting_completeDeferred hflush (resting_congr h rfl rfl rfl rfl rfl)
    | false =>
      rw [Component.resume_of_eq hone hclosed]
      have hp := hprocess c.resumed (running_congr (h.running (.inl hclosed)) rfl rfl rfl)
      have hup : Running D V (processPending c.resumed).resumeUpstream := by
        rw [Component.resumeUpstream]
        split
        · exact hp
        · exact running_congr hp rfl rfl rfl
      exact resting_leave (resting_completeDeferred hflush hup.resting)
  · rw [Component.resume_of_ne hone]
    exact resting_congr h rfl rfl rfl rfl rfl

/-- A guarded call. -/
theorem resting_guarded {body : Component σ → Component σ} (hbody : Running D V c.enter → Resting D V (body c.enter))
    (h : Resting D V c) : Resting D V (c.guarded body) := by
  rw [Component.guarded]
  cases hclosed : c.closed with
  | true => exact h
  | false => exact resting_leave (hbody (running_congr (h.running (.inl hclosed)) rfl rfl rfl))

/-- `OnError`. -/
theorem resting_propagateError (e : Error) (h : Resting D V c) : Resting D V (c.propagateError e) :=
  resting_guarded (fun hc => (running_error e hc).resting) h

theorem resting_suspend (h : Resting D V c) : Resting D V c.suspend := by
  rw [Component.suspend]
  split <;> exact resting_congr h rfl rfl rfl rfl rfl

end Calls

end DbnPipe.Link
