import DbnPipe.Stream.ZstdReentrant
import DbnPipe.Stream.ZstdConservation

/-!
# Calls inside a DecompressChain

What the functions of `ZstdDecompressor` pass on where one runs inside another, and what its loops feed the decoder.

* `Onward` — what every call passes on: the mark of a `DecompressChain` entered inside itself, the close, and
  that only a closed component has a close posted;
* `Rule` — **the rule of the calls**: a relation that holds of the steps outside, of the downstream's `OnData` and
  of what runs a `DecompressChain` holds of `OnData`, `OnDone` and `Resume`, with all that they call;
* `Undisturbed` — a call inside a `DecompressChain` touches none of the compressed bytes, or leaves the mark;
* `Feeding`, `chunkLoop_feeds`, `chainLoop_feeds` — **the loops**, with a downstream that leaves them undisturbed.
-/

namespace DbnPipe.Zstd.Nested

variable {Z : ZstdDecoder} {c d e : Stage Z}

/-! ### What every call passes on -/

/-- A `DecompressChain` was entered inside another one. -/
def Marked (c : Stage Z) : Prop := c.own.next.reentered = true

/-- Only a closed component has a close posted. -/
def Tidy (c : Stage Z) : Prop := c.closePending = true ∨ c.closeScheduled = true → c.closed = true

/-- What every call passes on. -/
structure Onward (c d : Stage Z) : Prop where
  marked : Marked c → Marked d
  closed : c.closed = true → d.closed = true
  tidy : Tidy c → Tidy d

theorem Onward.refl (c : Stage Z) : Onward c c := ⟨id, id, id⟩

theorem Onward.trans (h : Onward c d) (h' : Onward d e) : Onward c e :=
  ⟨fun hm => h'.marked (h.marked hm), fun hc => h'.closed (h.closed hc), fun ht => h'.tidy (h.tidy ht)⟩

theorem Onward.unmarked (h : Onward c d) (hd : ¬Marked d) : ¬Marked c := fun hc => hd (h.marked hc)

/-- Where the derived part is changed, and the mark stays. -/
theorem onward_own (hmark : d.own.next.reentered = c.own.next.reentered) (hclosed : d.closed = c.closed)
    (hpending : d.closePending = c.closePending) (hscheduled : d.closeScheduled = c.closeScheduled) :
    Onward c d :=
  ⟨fun hm => hmark.trans hm, fun hc => hclosed.trans hc, fun ht => by
    rw [Tidy, hclosed, hpending, hscheduled]
    exact ht⟩

theorem onward_note (c : Stage Z) : Onward c (note c) := ⟨fun _ => rfl, id, id⟩

theorem marked_note (c : Stage Z) : Marked (note c) := rfl

theorem onward_consumeSource (src : Source) (n : ℕ) (c : Stage Z) : Onward c (consumeSource src n c) := by
  cases src <;> exact onward_own rfl rfl rfl rfl

theorem onward_moveInput (n : ℕ) (seg : Segment) (c : Stage Z) : Onward c (moveInput n seg c) :=
  onward_own rfl rfl rfl rfl

/-- The compressed bytes and the decoder, untouched. -/
structure Same (h h' : ZstdDecompressor Z Env) : Prop where
  fed : h'.fed = h.fed
  received : h'.received = h.received
  pendingInput : h'.pendingInput = h.pendingInput
  input : h'.input = h.input
  dstream : h'.dstream = h.dstream

theorem Same.refl (h : ZstdDecompressor Z Env) : Same h h := ⟨rfl, rfl, rfl, rfl, rfl⟩

theorem Same.trans {h h' h'' : ZstdDecompressor Z Env} (hs : Same h h') (hs' : Same h' h'') : Same h h'' :=
  ⟨hs'.fed.trans hs.fed, hs'.received.trans hs.received, hs'.pendingInput.trans hs.pendingInput,
    hs'.input.trans hs.input, hs'.dstream.trans hs.dstream⟩

/-- A step that has nothing to do with the compressed bytes. -/
structure Outside (c d : Stage Z) : Prop extends Onward c d where
  same : Same c.own d.own

theorem Outside.trans (h : Outside c d) (h' : Outside d e) : Outside c e :=
  ⟨h.toOnward.trans h'.toOnward, h.same.trans h'.same⟩

theorem outside_of_own (hown : d.own = c.own) (hclosed : c.closed = true → d.closed = true)
    (htidy : Tidy c → Tidy d) : Outside c d :=
  ⟨⟨fun hm => by rw [Marked, hown]; exact hm, hclosed, htidy⟩, by rw [hown]; exact .refl _⟩

/-- Members other than the closing flags do not matter. -/
theorem outside_flags (hown : d.own = c.own) (hclosed : d.closed = c.closed)
    (hposted : d.closePending = true ∨ d.closeScheduled = true →
      c.closePending = true ∨ c.closeScheduled = true) : Outside c d :=
  outside_of_own hown (fun hc => hclosed.trans hc) fun ht hp => hclosed.trans (ht (hposted hp))

/-- A component that is closed now has every right to a posted close. -/
theorem outside_closed (hown : d.own = c.own) (hclosed : d.closed = true) : Outside c d :=
  outside_of_own hown (fun _ => hclosed) fun _ _ => hclosed

theorem outside_enter (c : Stage Z) : Outside c c.enter := outside_flags rfl rfl id

theorem outside_leave (c : Stage Z) : Outside c c.leave :=
  outside_flags c.leave_own c.leave_closed Component.leave_scheduled

theorem outside_deferOnDone (c : Stage Z) : Outside c c.deferOnDone := outside_flags rfl rfl id

theorem outside_clearDone (c : Stage Z) : Outside c c.clearDone := outside_flags rfl rfl id

theorem outside_count (n : ℕ) (c : Stage Z) : Outside c { c with suspendCount := n } := outside_flags rfl rfl id

theorem outside_suspend (c : Stage Z) : Outside c c.suspend := by
  rw [Component.suspend]
  split <;> exact outside_flags rfl rfl id

theorem outside_resumeUpstream (c : Stage Z) : Outside c c.resumeUpstream := by
  rw [Component.resumeUpstream]
  split <;> exact outside_flags rfl rfl id

theorem outside_requestClose (c : Stage Z) : Outside c c.requestClose :=
  outside_closed c.requestClose_own c.requestClose_closed

theorem outside_fail (code : ErrorCode) (message : String) (c : Stage Z) : Outside c (fail code message c) :=
  outside_closed (fail_own _ _ c) (fail_closed _ _ c)

theorem outside_done (c : Stage Z) : Outside c c.emitDone.requestClose :=
  outside_closed (c.emitDone.requestClose_own.trans c.emitDone_own) c.emitDone.requestClose_closed

theorem outside_propagateError (err : Error) (c : Stage Z) : Outside c (c.propagateError err) := by
  rw [Component.propagateError, Component.guarded]
  split
  · exact outside_flags rfl rfl id
  · have hfailed := c.enter.failed err
    exact (outside_closed (d := (c.enter.emitError err).requestClose) (c := c) hfailed.own hfailed.closed).trans
      (outside_leave _)

theorem outside_consume (n : ℕ) (c : Stage Z) : Outside c (consume n c) :=
  ⟨onward_own rfl rfl rfl rfl, ⟨rfl, rfl, rfl, rfl, rfl⟩⟩

theorem outside_give (segments : List Segment) (c : Stage Z) : Outside c (give segments c) := by
  rw [give]
  split
  · exact outside_flags rfl rfl id
  · exact ⟨onward_own rfl rfl rfl rfl, ⟨rfl, rfl, rfl, rfl, rfl⟩⟩

/-- `ForwardData` tells that the component is suspended. -/
theorem forwardData_suspended (deliver : Stage Z → Stage Z) (c : Stage Z)
    (h : (c.forwardData ZstdDecompressor.outputChain deliver).2 = true) :
    (c.forwardData ZstdDecompressor.outputChain deliver).1.suspended = true := by
  rw [Component.forwardData] at h ⊢
  split at h
  · exact absurd h Bool.false_ne_true
  · rename_i he
    rw [if_neg he]
    exact h

/-! ### The loops pass it on -/

section Onward

variable {deliver : Stage Z → Stage Z} (hd : ∀ c, Onward c (deliver c))
include hd

theorem onward_forwardData (c : Stage Z) :
    Onward c (c.forwardData ZstdDecompressor.outputChain deliver).1 := by
  rw [Component.forwardData]
  split
  · exact .refl c
  · exact hd c

theorem onward_chunkLoop (chunk : List Byte) (fuel pos : ℕ) (c : Stage Z) :
    Onward c (chunkLoop deliver chunk fuel pos c).1 := by
  induction fuel generalizing pos c with
  | zero => exact .refl c
  | succ fuel ih =>
    rw [chunkLoop]
    split
    · exact .refl c
    cases c.own.dstream with
    | none => exact .refl c
    | some s =>
      have hcall : Onward c (recordCall c) := onward_own rfl rfl rfl rfl
      simp only
      cases Z.decompressStream s (chunk.drop pos) Segment.kSize with
      | error name => exact hcall.trans (outside_fail _ _ _).toOnward
      | ok t =>
        have habsorb : Onward c (absorb t (recordCall c)) := hcall.trans (onward_own rfl rfl rfl rfl)
        have hout : Onward c (appendOutput t (absorb t (recordCall c))) :=
          habsorb.trans (onward_own rfl rfl rfl rfl)
        have hforward := hout.trans (onward_forwardData hd _)
        simp only
        split
        · exact habsorb.trans (ih _ _)
        · split
          · exact habsorb.trans (outside_fail _ _ _).toOnward
          · split
            · exact hforward
            · exact hforward.trans (ih _ _)

theorem onward_chainLoop (src : Source) (fuel : ℕ) (c : Stage Z) :
    Onward c (chainLoop deliver src fuel c).1 := by
  induction fuel generalizing c with
  | zero => exact .refl c
  | succ fuel ih =>
    rw [chainLoop]
    split
    · exact .refl c
    cases (src.get c.own).dataAt id 0 with
    | none => exact .refl c
    | some place =>
      obtain ⟨s, pos⟩ := place
      have hchunk := onward_chunkLoop hd ((s.bytes.drop pos).take ((src.get c.own).contiguousSize id))
        (chunkFuel c.own ((s.bytes.drop pos).take ((src.get c.own).contiguousSize id))) 0 c
      simp only
      split
      · exact (hchunk.trans (onward_consumeSource src _ _)).trans (ih _)
      · exact hchunk.trans (onward_consumeSource src _ _)
      · exact hchunk

theorem onward_decompressChain (src : Source) (c : Stage Z) : Onward c (decompressChain deliver src c).1 := by
  rw [decompressChain]
  split
  · exact (outside_fail _ _ c).toOnward
  · split
    · exact .refl c
    · exact onward_chainLoop hd src _ c

theorem onward_processPendingData (c : Stage Z) : Onward c (processPendingData deliver c).1 := by
  rw [processPendingData]
  split
  · exact .refl c
  · exact onward_decompressChain hd .pending c

omit hd in
theorem onward_copyToPendingInput (fuel : ℕ) (c : Stage Z) : Onward c (copyToPendingInput fuel c) := by
  induction fuel generalizing c with
  | zero => exact .refl c
  | succ fuel ih =>
    rw [copyToPendingInput]
    split
    · exact .refl c
    · split
      · exact (outside_fail _ _ c).toOnward
      · exact (onward_moveInput _ _ c).trans (ih _)

theorem onward_dataBody (c : Stage Z) : Onward c (dataBody deliver c) := by
  rw [dataBody]
  split
  · split
    · exact (outside_fail _ _ c).toOnward
    · have hsplice : Onward c (spliceInput c) := onward_own rfl rfl rfl rfl
      exact hsplice.trans (onward_decompressChain hd .pending _)
  · have hdec := onward_decompressChain hd .input c
    simp only
    split
    · exact hdec
    · split
      · exact hdec.trans (onward_copyToPendingInput _ _)
      · exact hdec

end Onward

/-! ### The rule of the calls -/

theorem onward_enterPending (busy : Bool) (c : Stage Z) : Onward c (enterPending busy c) := by
  rw [enterPending]
  split
  · exact onward_note c
  · exact .refl c

@[simp] theorem enterPending_closed (busy : Bool) (c : Stage Z) : (enterPending busy c).closed = c.closed := by
  rw [enterPending]
  split <;> rfl

theorem same_enterPending (busy : Bool) (c : Stage Z) : Same c.own (enterPending busy c).own := by
  rw [enterPending]
  split <;> exact ⟨rfl, rfl, rfl, rfl, rfl⟩

/-- `OnDone` of an open component that is not suspended does what `FlushAndComplete` does. -/
theorem doneBodyIn_eq (D : Bool → Stage Z → Stage Z) (busy : Bool) (hc : c.closed = false) :
    doneBodyIn D busy c = if c.suspended then c.deferOnDone else flushAndCompleteIn D busy c := by
  have hpending := (same_enterPending busy c).pendingInput
  rw [doneBodyIn, flushAndCompleteIn, processPendingData, enterPending_closed, hc, hpending, Bool.false_or]
  cases he : c.own.pendingInput.empty with
  | true => simp [enterPending, he]
  | false => rfl

/-- A relation between two moments, under which fall the steps outside, the downstream's `OnData` and all that
runs a `DecompressChain`. -/
structure Rule (R : Stage Z → Stage Z → Prop) (D : Bool → Stage Z → Stage Z) (busy : Bool) : Prop where
  trans : ∀ {c d e}, R c d → R d e → R c e
  outside : ∀ {c d}, Outside c d → R c d
  deliver : ∀ c, R c (D busy c)
  pending : ∀ c, R c (processPendingData (D true) (enterPending busy c)).1
  data : ∀ segments c, c.closed = false → R c (dataBodyIn D busy segments c)

namespace Rule

variable {R : Stage Z → Stage Z → Prop} {D : Bool → Stage Z → Stage Z} {busy : Bool} (h : Rule R D busy)
include h

theorem refl (c : Stage Z) : R c c := h.outside (outside_flags rfl rfl id)

theorem complete (c : Stage Z) : R c (Zstd.complete (D busy) c) := by
  rw [Zstd.complete]
  split
  · exact h.outside (outside_fail _ _ c)
  simp only [Component.completeWithFlush, Component.flushPendingData]
  split
  · exact h.outside (outside_done c)
  · have hdeliver := h.deliver c
    cases (D busy c).suspended with
    | true => exact h.trans hdeliver (h.outside (outside_deferOnDone _))
    | false =>
      cases (D busy c).own.outputChain.empty with
      | true => exact h.trans hdeliver (h.outside (outside_done _))
      | false => exact h.trans hdeliver (h.outside (outside_fail .parseError _ (D busy c)))

theorem processPendingIn (c : Stage Z) : R c (processPendingIn D busy c) := by
  have hforward : R c (c.forwardData ZstdDecompressor.outputChain (D busy)).1 := by
    rw [Component.forwardData]
    split
    · exact h.refl c
    · exact h.deliver c
  rw [Nested.processPendingIn]
  split
  · exact hforward
  · exact h.trans hforward (h.pending _)

theorem flushAndCompleteIn (c : Stage Z) : R c (flushAndCompleteIn D busy c) := by
  have hpending := h.pending c
  rw [Nested.flushAndCompleteIn]
  generalize processPendingData (D true) (enterPending busy c) = r at hpending
  obtain ⟨d, outcome⟩ := r
  cases outcome with
  | error => exact hpending
  | suspended => exact h.trans hpending (h.outside (outside_deferOnDone d))
  | complete => exact h.trans hpending (h.complete d)

/-- A function body under `TryGuard`. -/
theorem guarded {body : Stage Z → Stage Z} (hbody : ∀ c, c.closed = false → R c (body c)) (c : Stage Z) :
    R c (Component.guarded body c) := by
  rw [Component.guarded]
  cases hc : c.closed with
  | true => exact h.refl c
  | false => exact h.trans (h.trans (h.outside (outside_enter c)) (hbody c.enter hc)) (h.outside (outside_leave _))

theorem doneBodyIn (c : Stage Z) (hc : c.closed = false) : R c (doneBodyIn D busy c) := by
  rw [doneBodyIn_eq D busy hc]
  split
  · exact h.outside (outside_deferOnDone c)
  · exact h.flushAndCompleteIn c

theorem deliverIn (x : Delivery) (c : Stage Z) : R c (deliverIn D busy x c) := by
  cases x with
  | data segments => exact h.trans (h.outside (outside_give segments c)) (h.guarded (h.data segments) _)
  | done => exact h.guarded h.doneBodyIn c
  | error err => exact h.outside (outside_propagateError err c)

theorem deliverAll (deliveries : List Delivery) (c : Stage Z) : R c (deliverAll D busy deliveries c) := by
  induction deliveries generalizing c with
  | nil => exact h.refl c
  | cons x deliveries ih => exact h.trans (h.deliverIn x c) (ih _)

theorem resumeUpstreamIn (deliveries : List Delivery) (c : Stage Z) :
    R c (resumeUpstreamIn D busy deliveries c) := by
  rw [Nested.resumeUpstreamIn]
  split
  · exact h.refl c
  · exact h.trans (h.outside (outside_resumeUpstream c)) (h.deliverAll deliveries _)

theorem completeDeferred (c : Stage Z) : R c (c.completeDeferred (Nested.flushAndCompleteIn D busy)) := by
  rw [Component.completeDeferred]
  split
  · exact h.trans (h.outside (outside_clearDone c)) (h.flushAndCompleteIn _)
  · exact h.refl c

/-- **`Resume`**, and all that it calls. -/
theorem resumeIn (deliveries : List Delivery) (c : Stage Z) : R c (resumeIn D busy deliveries c) := by
  have hcount := h.outside (outside_count (c.suspendCount - 1) c)
  simp only [Nested.resumeIn]
  split
  · split
    · exact h.trans hcount (h.completeDeferred _)
    · have henter := h.trans hcount (h.outside (outside_enter _))
      have hprocess := h.trans henter (h.processPendingIn _)
      have hup := h.trans hprocess (h.resumeUpstreamIn deliveries _)
      exact h.trans (h.trans hup (h.completeDeferred _)) (h.outside (outside_leave _))
  · exact hcount

end Rule

theorem rule_onward {D : Bool → Stage Z → Stage Z} (hd : ∀ busy c, Onward c (D busy c)) (busy : Bool) :
    Rule Onward D busy where
  trans := .trans
  outside := Outside.toOnward
  deliver := hd busy
  pending c := (onward_enterPending busy c).trans (onward_processPendingData (hd true) _)
  data segments c _ := by
    have hmore : ∀ d : Stage Z, Onward d (receiveMore segments d) := fun d => onward_own rfl rfl rfl rfl
    rw [dataBodyIn]
    split
    · exact ((onward_note c).trans (hmore _)).trans (onward_dataBody (hd true) _)
    · exact (hmore c).trans (onward_dataBody (hd true) _)

/-! ### Inside a DecompressChain -/

/-- What is called inside a `DecompressChain` touches no compressed byte, or leaves the mark. -/
structure Undisturbed (c d : Stage Z) : Prop extends Onward c d where
  same : Marked d ∨ Same c.own d.own

theorem Outside.undisturbed (h : Outside c d) : Undisturbed c d := ⟨h.toOnward, Or.inr h.same⟩

theorem Undisturbed.trans (h : Undisturbed c d) (h' : Undisturbed d e) : Undisturbed c e := by
  refine ⟨h.toOnward.trans h'.toOnward, ?_⟩
  rcases h.same, h'.same with ⟨hm | hs, hm' | hs'⟩
  · exact Or.inl hm'
  · exact Or.inl (h'.marked hm)
  · exact Or.inl hm'
  · exact Or.inr (hs.trans hs')

theorem rule_undisturbed {D : Bool → Stage Z → Stage Z} (hd : ∀ busy c, Onward c (D busy c))
    (hbusy : ∀ c, Undisturbed c (D true c)) : Rule Undisturbed D true where
  trans := .trans
  outside := Outside.undisturbed
  deliver := hbusy
  pending c := by
    refine ⟨(rule_onward hd true).pending c, ?_⟩
    cases hskip : c.closed || c.own.pendingInput.empty with
    | true =>
      have hsame : enterPending true c = c := by
        rw [enterPending, if_neg]
        rcases Bool.or_eq_true_iff.mp hskip with hc | he
        · simp [hc]
        · simp [he]
      rw [hsame, processPendingData, hskip]
      exact Or.inr (.refl _)
    | false =>
      obtain ⟨hc, he⟩ := Bool.or_eq_false_iff.mp hskip
      have hmark : Marked (enterPending true c) := by
        rw [enterPending, hc, he]
        exact marked_note c
      exact Or.inl ((onward_processPendingData (hd true) _).marked hmark)
  data segments c hc := by
    have honward := (rule_onward hd true).data segments c hc
    have hmark : Marked (receiveMore segments (note c)) := rfl
    exact ⟨honward, Or.inl ((onward_dataBody (hd true) _).marked hmark)⟩

/-! ### The loops -/

/-- `rest` is what the decoder has not been fed. -/
structure Feeding (rest : List Byte) (c : Stage Z) : Prop where
  input : c.own.fed ++ rest = c.own.received
  alive : c.own.dstream.isSome = true
  wfPending : Chain.WF c.own.pendingInput
  wfInput : Chain.WF c.own.input

variable {rest : List Byte}

theorem Feeding.of_same (h : Feeding rest c) (hs : Same c.own d.own) : Feeding rest d := by
  refine ⟨?_, ?_, ?_, ?_⟩
  · rw [hs.fed, hs.received]; exact h.input
  · rw [hs.dstream]; exact h.alive
  · rw [hs.pendingInput]; exact h.wfPending
  · rw [hs.input]; exact h.wfInput

theorem Feeding.wfSource (h : Feeding rest c) (src : Source) : Chain.WF (src.get c.own) := by
  cases src with
  | input => exact h.wfInput
  | pending => exact h.wfPending

/-- What is consumed has been fed. -/
theorem feeding_consumeSource (src : Source) (n : ℕ) (h : Feeding rest c) :
    Feeding rest (consumeSource src n c) := by
  have hwf := Chain.wf_consumed (h.wfSource src) n
  cases src with
  | input => exact ⟨h.input, h.alive, h.wfPending, hwf⟩
  | pending => exact ⟨h.input, h.alive, hwf, h.wfInput⟩

/-- How a loop may stop. -/
def Stops (d : Stage Z) : DecompressResult → Prop
  | .complete => True
  | .suspended => d.suspended = true
  | .error => d.closed = true

/-- The chains stay as they are. -/
structure Chains (h h' : ZstdDecompressor Z Env) : Prop where
  pendingInput : h'.pendingInput = h.pendingInput
  input : h'.input = h.input

theorem Chains.trans {h h' h'' : ZstdDecompressor Z Env} (hc : Chains h h') (hc' : Chains h' h'') : Chains h h'' :=
  ⟨hc'.pendingInput.trans hc.pendingInput, hc'.input.trans hc.input⟩

/-- A loop over a chunk has fed the chunk up to where it stops. -/
structure Chunked (chunk tail : List Byte) (c : Stage Z) (r : Stage Z × ℕ × DecompressResult) : Prop where
  feeding : Feeding (chunk.drop r.2.1 ++ tail) r.1
  chains : Chains c.own r.1.own
  within : r.2.1 ≤ chunk.length
  complete : r.2.2 = .complete → chunk.length ≤ r.2.1
  stops : Stops r.1 r.2.2

/-- `DecompressChain` has fed the chain up to where it stops; after an error the chain is dropped. -/
structure Fed (src : Source) (c : Stage Z) (r : Stage Z × DecompressResult) : Prop where
  feeding : ∃ rest, Feeding rest r.1
  left : r.2 ≠ .error → Feeding (Chain.bytes (src.get r.1.own)) r.1
  complete : r.2 = .complete → Chain.bytes (src.get r.1.own) = []
  other : src.other r.1.own = src.other c.own
  stops : Stops r.1 r.2

section Loops

variable {deliver : Stage Z → Stage Z} (hd : ∀ c, Undisturbed c (deliver c))
include hd

theorem undisturbed_forwardData (c : Stage Z) :
    Undisturbed c (c.forwardData ZstdDecompressor.outputChain deliver).1 := by
  rw [Component.forwardData]
  split
  · exact (outside_flags rfl rfl id).undisturbed
  · exact hd c

/-- **The loop over a chunk.** -/
theorem chunkLoop_feeds (chunk tail : List Byte) {fuel pos : ℕ} {s : Z.State} (hs : c.own.dstream = some s)
    (hfuel : Z.rounds s (chunk.drop pos) < fuel) (h : Feeding (chunk.drop pos ++ tail) c)
    (hpos : pos ≤ chunk.length) (hm : ¬Marked (chunkLoop deliver chunk fuel pos c).1) :
    Chunked chunk tail c (chunkLoop deliver chunk fuel pos c) := by
  have hon : ∀ c, Onward c (deliver c) := fun c => (hd c).toOnward
  induction fuel generalizing pos c s with
  | zero => omega
  | succ fuel ih =>
    rw [chunkLoop] at hm ⊢
    by_cases hend : chunk.length ≤ pos
    · rw [if_pos hend]
      exact ⟨h, ⟨rfl, rfl⟩, hpos, fun _ => hend, trivial⟩
    have hne : chunk.drop pos ≠ [] := by
      rw [ne_eq, List.drop_eq_nil_iff]
      exact hend
    rw [if_neg hend, hs] at hm ⊢
    simp only at hm ⊢
    cases hz : Z.decompressStream s (chunk.drop pos) Segment.kSize with
    | error name =>
      have hfail := outside_fail .decompressionError ("ZSTD decompression failed: " ++ name) (recordCall c)
      have hcall : Feeding (chunk.drop pos ++ tail) (recordCall c) :=
        ⟨h.input, h.alive, h.wfPending, h.wfInput⟩
      exact ⟨hcall.of_same hfail.same, ⟨hfail.same.pendingInput, hfail.same.input⟩, hpos,
        fun hf => absurd hf (by simp), fail_closed _ _ _⟩
    | ok t =>
      have hlen := t.consumed_le
      rw [List.length_drop] at hlen
      have hpos' : pos + t.consumed ≤ chunk.length := by omega
      have hprogress := Z.progress hz hne (by decide)
      rw [List.drop_drop] at hprogress
      have hfed : c.own.fed ++ (chunk.drop pos).take t.consumed ++ (chunk.drop (pos + t.consumed) ++ tail) =
          c.own.received := by
        rw [← List.drop_drop]
        exact fed_absorb t h.input
      have habsorb : Feeding (chunk.drop (pos + t.consumed) ++ tail) (absorb t (recordCall c)) :=
        ⟨hfed, rfl, h.wfPending, h.wfInput⟩
      rw [hz] at hm
      simp only at hm ⊢
      by_cases hnone : t.produced.length = 0
      · rw [if_pos hnone] at hm ⊢
        have hrec := ih (c := absorb t (recordCall c)) rfl (by omega) habsorb hpos' hm
        have hchains : Chains c.own (absorb t (recordCall c)).own := ⟨rfl, rfl⟩
        exact ⟨hrec.feeding, hchains.trans hrec.chains, hrec.within, hrec.complete, hrec.stops⟩
      rw [if_neg hnone] at hm ⊢
      split at hm
      · rename_i hover
        have hfail := outside_fail .bufferOverflow "Decompressed output buffer overflow" (absorb t (recordCall c))
        rw [if_pos hover]
        exact ⟨habsorb.of_same hfail.same, ⟨hfail.same.pendingInput, hfail.same.input⟩, hpos',
          fun hf => absurd hf (by simp), fail_closed _ _ _⟩
      · rename_i hover
        have happend : Feeding (chunk.drop (pos + t.consumed) ++ tail) (appendOutput t (absorb t (recordCall c))) :=
          ⟨hfed, rfl, h.wfPending, h.wfInput⟩
        have hforward := undisturbed_forwardData hd (appendOutput t (absorb t (recordCall c)))
        have hsuspended := forwardData_suspended deliver (appendOutput t (absorb t (recordCall c)))
        rw [if_neg hover]
        generalize (appendOutput t (absorb t (recordCall c))).forwardData ZstdDecompressor.outputChain deliver = r
          at hm hforward hsuspended
        obtain ⟨d, again⟩ := r
        cases again with
        | true =>
          have hsame := hforward.same.resolve_left hm
          exact ⟨happend.of_same hsame, ⟨hsame.pendingInput, hsame.input⟩, hpos', fun hf => absurd hf (by simp),
            hsuspended rfl⟩
        | false =>
          have hsame := hforward.same.resolve_left ((onward_chunkLoop hon _ _ _ d).unmarked hm)
          have hrec := ih (c := d) hsame.dstream (by omega) (happend.of_same hsame) hpos' hm
          have hchains : Chains c.own d.own := ⟨hsame.pendingInput, hsame.input⟩
          exact ⟨hrec.feeding, hchains.trans hrec.chains, hrec.within, hrec.complete, hrec.stops⟩

omit hd in
theorem get_consumeSource (hc : Chains c.own d.own) (src : Source) (n : ℕ) :
    src.get (consumeSource src n d).own = (src.get c.own).consume id n ∧
      src.other (consumeSource src n d).own = src.other c.own := by
  cases src with
  | input => exact ⟨congrArg (BufferChain.consume id · n) hc.input, hc.pendingInput⟩
  | pending => exact ⟨congrArg (BufferChain.consume id · n) hc.pendingInput, hc.input⟩

/-- **The loop over a chain.** -/
theorem chainLoop_feeds (src : Source) {fuel : ℕ} (hfuel : (src.get c.own).size ≤ fuel)
    (h : Feeding (Chain.bytes (src.get c.own)) c) (hm : ¬Marked (chainLoop deliver src fuel c).1) :
    Fed src c (chainLoop deliver src fuel c) := by
  have hon : ∀ c, Onward c (deliver c) := fun c => (hd c).toOnward
  induction fuel generalizing c with
  | zero =>
    have hnil : Chain.bytes (src.get c.own) = [] := by
      rw [Chain.size_eq (h.wfSource src)] at hfuel
      exact List.length_eq_zero_iff.mp (by omega)
    exact ⟨⟨_, h⟩, fun _ => h, fun _ => hnil, rfl, trivial⟩
  | succ fuel ih =>
    rw [chainLoop] at hm ⊢
    cases he : (src.get c.own).empty with
    | true =>
      have hnil := (Chain.empty_iff (h.wfSource src)).mp he
      exact ⟨⟨_, h⟩, fun _ => h, fun _ => hnil, rfl, trivial⟩
    | false =>
      obtain ⟨s, hdata, hsize, hpos, hbytes⟩ := Chain.front (h.wfSource src) he
      obtain ⟨state, hstate⟩ := Option.isSome_iff_exists.mp h.alive
      have hchunk : (s.bytes.drop (src.get c.own).consumedOffset).take ((src.get c.own).contiguousSize id) =
          s.bytes.drop (src.get c.own).consumedOffset := by
        rw [hsize, List.take_length]
      simp only [he, Bool.false_eq_true, if_false, hdata, hchunk] at hm ⊢
      generalize s.bytes.drop (src.get c.own).consumedOffset = chunk at hsize hpos hbytes hm
      have hfuel' : Z.rounds state (chunk.drop 0) < chunkFuel c.own chunk := by
        rw [chunkFuel, hstate, List.drop_zero]
        exact Nat.lt_succ_self _
      have hfeed : Feeding (chunk.drop 0 ++ Chain.bytes ((src.get c.own).consume id chunk.length)) c := by
        rw [List.drop_zero, ← hsize, ← hbytes]
        exact h
      have hloop := chunkLoop_feeds hd chunk _ hstate hfuel' hfeed (Nat.zero_le _)
      have hmark := fun d => (onward_chainLoop hon src fuel d).unmarked
      generalize chunkLoop deliver chunk (chunkFuel c.own chunk) 0 c = r at hm hloop
      obtain ⟨d, pos, outcome⟩ := r
      cases outcome with
      | complete =>
        obtain ⟨hfed, hchains, -, hend, -⟩ :=
          hloop ((onward_consumeSource src _ d).unmarked (hmark _ hm))
        obtain ⟨hget, hother⟩ := get_consumeSource hchains src chunk.length
        simp only at hm ⊢
        rw [hsize] at hm ⊢
        rw [List.drop_of_length_le (hend rfl), List.nil_append, ← hget] at hfed
        have hnext := feeding_consumeSource src chunk.length hfed
        have hsmaller : (src.get (consumeSource src chunk.length d).own).size ≤ fuel := by
          rw [Chain.size_eq (hnext.wfSource src), hget]
          rw [Chain.size_eq (h.wfSource src), hbytes, List.length_append, hsize] at hfuel
          omega
        obtain ⟨h1, h2, h3, h4, h5⟩ := ih hsmaller hnext hm
        exact ⟨h1, h2, h3, h4.trans hother, h5⟩
      | suspended =>
        obtain ⟨hfed, hchains, hle, -, hstops⟩ := hloop ((onward_consumeSource src _ d).unmarked hm)
        obtain ⟨hget, hother⟩ := get_consumeSource hchains src pos
        have hleft : Chain.bytes (src.get (consumeSource src pos d).own) =
            chunk.drop pos ++ Chain.bytes ((src.get c.own).consume id chunk.length) := by
          rw [hsize] at hbytes
          rw [hget]
          exact Chain.bytes_consumed_within (h.wfSource src) hbytes hle
        have hnext : Feeding (Chain.bytes (src.get (consumeSource src pos d).own)) (consumeSource src pos d) := by
          rw [hleft]
          exact feeding_consumeSource src pos hfed
        exact ⟨⟨_, hnext⟩, fun _ => hnext, fun hf => absurd hf (by simp), hother, hstops⟩
      | error =>
        obtain ⟨hfed, hchains, -, -, hstops⟩ := hloop hm
        have hother : src.other d.own = src.other c.own := by
          cases src with
          | input => exact hchains.pendingInput
          | pending => exact hchains.input
        exact ⟨⟨_, hfed⟩, fun hf => absurd rfl hf, fun hf => absurd hf (by simp), hother, hstops⟩

/-- **`DecompressChain`.** -/
theorem decompressChain_feeds (src : Source) (h : Feeding (Chain.bytes (src.get c.own)) c)
    (hm : ¬Marked (decompressChain deliver src c).1) : Fed src c (decompressChain deliver src c) := by
  rw [decompressChain, if_neg (by simp [Option.isNone_iff_eq_none, Option.isSome_iff_ne_none.mp h.alive])] at hm ⊢
  cases hs : c.suspended with
  | true => exact ⟨⟨_, h⟩, fun _ => h, fun hf => absurd hf (by simp), rfl, hs⟩
  | false =>
    rw [hs, if_neg Bool.false_ne_true] at hm
    exact chainLoop_feeds hd src (Nat.le_refl _) h hm

end Loops

end DbnPipe.Zstd.Nested
